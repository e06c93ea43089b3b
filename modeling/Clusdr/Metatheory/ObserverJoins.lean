import Clusdr.Metatheory.RolesAndVotes

/-!
Runs of requests on the leader of a new cluster. Roles and votes agree as long as no
voter joins again as an observer; one that does is listed as an observer and goes on
voting.
-/

namespace Clusdr

open Go (Time Unicode)
open Clusdr.Membership (roleObserver roleVoter statusAlive)
open Consensus (Leader)

namespace Consensus.Leader

theorem paired_bootstrap (now : Time) (id addr raftAddr : String) :
    (bootstrap now id addr raftAddr).Paired := by
  refine ⟨Membership.Engine.valid_new now id addr, fun j => ?_⟩
  rw [lists_iff, Serves]
  simp only [bootstrap, Membership.Engine.new, Go.Map.get_set, Go.Map.get_empty]
  split <;> exact Iff.rfl

theorem rolesAgree_bootstrap (now : Time) (id addr raftAddr : String) :
    (bootstrap now id addr raftAddr).RolesAgree := by
  rw [rolesAgree_iff (paired_bootstrap now id addr raftAddr).valid]
  intro j m srv hm hsrv
  simp only [bootstrap, Membership.Engine.new, Consensus.listing, Go.Map.get_set,
    Go.Map.get_empty] at hm hsrv
  split at hm
  · rename_i hj
    rw [if_pos hj] at hsrv
    cases hm
    cases hsrv
    have hrole : roleVoter ≠ roleObserver := by decide
    have hvotes : Suffrage.voter ≠ .nonvoter := by decide
    exact iff_of_false hrole hvotes
  · cases hm

end Consensus.Leader

open JoinService Consensus.Leader in
/-- The roles agree with the votes in every state exactly if no `Join` as an observer
that passes its checks names a voter. -/
theorem roles_agree_iff [Unicode] (s : JoinService) (hleader : s.isLeader = true) (now : Time)
    (id addr raftAddr : String) (calls : List (ServiceCall × Commits))
    (committed : ∀ e ∈ calls, e.2.Succeed)
    (haddr : ∀ req c, (.join req, c) ∈ calls → req.raftAddr ≠ "") :
    Runs.Always s.serve RolesAgree (bootstrap now id addr raftAddr) calls ↔
      Runs.Along s.serve s.KeepsVotes (bootstrap now id addr raftAddr) calls := by
  have hserved : Runs.Along s.serve
      (fun _ e => e.2.Succeed ∧ ∀ req, e.1 = .join req → req.raftAddr ≠ "")
      (bootstrap now id addr raftAddr) calls := by
    refine Runs.Along.of_forall_mem fun _ e he => ⟨committed e he, fun req hreq => ?_⟩
    exact haddr req e.2 (hreq ▸ he)
  exact Runs.always_iff_along Paired (paired_bootstrap now id addr raftAddr)
    (rolesAgree_bootstrap now id addr raftAddr)
    (fun l e paired hok agree => s.agree_serve hleader paired agree e hok.1 hok.2) hserved

namespace JoinService

/-- The service of a seed node, which holds the key of the CA. -/
def seedService : JoinService where
  clusterID := "c1"
  isLeader := true
  sec := some (joinSec ⟨fun _ => [5], fun _ _ _ => .ok ([7], [8])⟩
    (Certs.none.saveCerts ⟨[1], [2], [3], [4], [5]⟩))

def joinAs (observer : Bool) : ServiceCall × Commits :=
  (.join { nodeId := "n2", address := "10.0.0.2:7947", raftAddr := "10.0.0.2:7946",
           joinToken := "secret", observer }, allCommitted)

/-- `n2` joins as a voter and then as an observer. -/
def rejoined : List (ServiceCall × Commits) := [joinAs false, joinAs true]

theorem member_rejoined : letI := Unicode.ascii
    (Runs.run seedService.serve seedLeader rejoined).fsm.applier.members.get "n2" =
      some ⟨"n2", "10.0.0.2:7947", statusAlive, false, roleObserver, 0⟩ := by
  decide +kernel

theorem server_rejoined : letI := Unicode.ascii
    (Runs.run seedService.serve seedLeader rejoined).servers.get "n2" =
      some ⟨.voter, "10.0.0.2:7946"⟩ := by
  decide +kernel

end JoinService

open JoinService Consensus.Leader in
theorem observer_join_keeps_vote : letI := Unicode.ascii
    (Runs.run seedService.serve seedLeader rejoined).fsm.applier.members.get "n2" =
        some ⟨"n2", "10.0.0.2:7947", statusAlive, false, roleObserver, 0⟩ ∧
      (Runs.run seedService.serve seedLeader rejoined).servers.get "n2" =
        some ⟨.voter, "10.0.0.2:7946"⟩ ∧
      ¬ Runs.Always seedService.serve RolesAgree seedLeader rejoined := by
  refine ⟨member_rejoined, server_rejoined, fun always => ?_⟩
  have hlisted := (Go.Map.mem_sorted _ _).mpr ⟨"n2", member_rejoined⟩
  cases (always.last _ hlisted _ server_rejoined).mp rfl

namespace JoinService

/-- An observer joins, is made a voter by joining again, dies and comes back, is
promoted again and leaves. -/
def upgraded : List (ServiceCall × Commits) :=
  [joinAs true, joinAs false, (.markDead "n2", allCommitted),
    (.rejoin { nodeId := "n2", address := "10.0.0.2:7947", role := "observer" }, allCommitted),
    (.promote "n2" false, allCommitted), (.leave "n2" false, allCommitted)]

instance (s : JoinService) (l : Leader) (e : ServiceCall × Commits) [Unicode] :
    Decidable (s.KeepsVotes l e) := by
  obtain ⟨call, c⟩ := e
  cases call <;> unfold KeepsVotes <;> infer_instance

theorem keepsVotes_upgraded : letI := Unicode.ascii
    Runs.Along seedService.serve seedService.KeepsVotes seedLeader upgraded := by
  decide +kernel

end JoinService

open JoinService Consensus.Leader in
theorem roles_agree_upgraded : letI := Unicode.ascii
    Runs.Always seedService.serve RolesAgree seedLeader upgraded := by
  refine (@roles_agree_iff .ascii seedService rfl 0 "n1" _ _ upgraded (fun e he => ?_)
    fun req c he => ?_).mpr keepsVotes_upgraded
  · have hc : e.2 = allCommitted := by
      revert e
      simp [upgraded, joinAs]
    rw [hc]
    exact ⟨rfl, rfl⟩
  · have hreq : req.raftAddr = "10.0.0.2:7946" := by
      simp only [upgraded, joinAs, List.mem_cons, Prod.mk.injEq, ServiceCall.join.injEq,
        reduceCtorEq, false_and, List.not_mem_nil, or_false] at he
      cases he with
      | inl h => rw [h.1]
      | inr h => rw [h.1]
    rw [hreq]
    decide

end Clusdr
