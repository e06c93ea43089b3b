import Clusdr.Metatheory.RolesAndVotes

/-!
The address under which a member is listed. No request changes it that does not
carry another one for its id, whatever Raft makes of what the handler submits.
-/

namespace Clusdr

open Go (Unicode)
open Consensus (Leader Outcome Submission)

namespace Consensus.Leader

/-- The entry of `id`, if there is one, has the address. -/
structure Advertises (id addr : String) (l : Leader) : Prop where
  valid : l.fsm.applier.Valid
  address : ∀ m, listing l.fsm.applier id = some m → m.address = addr

variable [Unicode]

namespace Advertises

variable {id addr : String} {l : Leader}

omit [Unicode] in
theorem of_fsm {l' : Leader} (h : Advertises id addr l) (hfsm : l'.fsm = l.fsm) :
    Advertises id addr l' :=
  ⟨hfsm ▸ h.valid, fun m hm => h.address m (hfsm ▸ hm)⟩

theorem addMember (h : Advertises id addr l) (sub : Submission) (j a role : String)
    (same : j = id → a = addr) : Advertises id addr (l.applyAddMemberAs sub j a role).1 := by
  refine ⟨valid_applyAddMemberAs h.valid sub j a role, fun m hm => ?_⟩
  rw [listing_applyAddMemberAs h.valid] at hm
  split at hm
  · rename_i hj
    cases hm
    exact same hj.2.1.symm
  · exact h.address m hm

theorem dropMember (h : Advertises id addr l) (sub : Submission) (j : String) :
    Advertises id addr (l.applyDropMember sub j).1 := by
  refine ⟨valid_applyDropMember h.valid sub j, fun m hm => ?_⟩
  rw [listing_applyDropMember h.valid] at hm
  split at hm
  · cases hm
  · exact h.address m hm

theorem removeMember (h : Advertises id addr l) (sub : Submission) (j : String) :
    Advertises id addr (l.applyRemoveMember sub j).1 := by
  refine ⟨(only_applyRemoveMember h.valid sub j).valid, fun m hm => ?_⟩
  rw [listing_applyRemoveMember h.valid] at hm
  split at hm
  · obtain ⟨n, hn, rfl⟩ := Option.map_eq_some_iff.mp hm
    have haddr := h.address n hn
    split <;> exact haddr
  · exact h.address m hm

omit [Unicode] in
theorem promoteToVoter (h : Advertises id addr l) (outcome : Outcome) (j : String) :
    Advertises id addr (l.promoteToVoter outcome j).1 := by
  unfold Leader.promoteToVoter
  split
  · exact h
  · exact h
  · exact h.of_fsm (fsm_change _ _ _ _)

theorem serveJoin (h : Advertises id addr l) (s : JoinService) (c : Commits) (req : JoinRequest)
    (same : req.nodeId = id → req.address = addr) : Advertises id addr (s.serveJoin l c req).1 := by
  have hadded : Advertises id addr (JoinService.addServer l c.raft req).1 := by
    refine h.of_fsm ?_
    rw [JoinService.addServer_fst]
    split <;> rfl
  have hlisted := hadded.addMember c.member req.nodeId req.address (JoinService.joinRole req) same
  rcases s.serveJoin_cases l c req with ⟨-, e, hjoin⟩ | ⟨-, -, e, hjoin⟩ | ⟨-, -, hjoin⟩
  · rw [hjoin]
    exact hadded
  · rw [hjoin]
    exact hlisted
  · rw [hjoin]
    exact hlisted

theorem promoteMember (h : Advertises id addr l) (c : Commits) (j : String) :
    Advertises id addr (JoinService.promoteMember l c j).1 := by
  unfold JoinService.promoteMember
  rw [memberByID_eq h.valid]
  split
  · exact h
  · rename_i m hm
    have same : j = id → m.address = addr := by
      rintro rfl
      exact h.address _ (congrArg (Option.map listingOf) hm)
    have hpromoted := h.promoteToVoter c.raft j
    split
    · exact h
    · split
      · exact h
      · generalize l.promoteToVoter c.raft j = promoted at hpromoted
        obtain ⟨l', _ | _⟩ := promoted
        · exact hpromoted
        · have hlisted := hpromoted.addMember c.member j m.address Membership.roleVoter same
          dsimp only at hlisted ⊢
          split <;> rename_i hres <;> rwa [hres] at hlisted

theorem leaveMember (h : Advertises id addr l) (c : Commits) (j : String) :
    Advertises id addr (JoinService.leaveMember l c j).1 := by
  have hdropped := h.dropMember c.member j
  have hremoved : Advertises id addr ((l.applyDropMember c.member j).1.removeVoter c.raft j).1 :=
    hdropped.of_fsm (fsm_change _ _ _ _)
  have hcase := JoinService.leaveMember_case h.valid c j
  generalize JoinService.leaveMember l c j = res at hcase
  cases hcase with
  | unknown | already => exact h
  | dropFailed | dropped => exact hdropped
  | removeFailed | removed => exact hremoved

theorem rejoinMember (h : Advertises id addr l) (c : Commits) (j a role : String)
    (same : j = id → a = addr) : Advertises id addr (JoinService.rejoinMember l c j a role).1 := by
  unfold JoinService.rejoinMember
  have hlisted := h.addMember c.member j a (JoinService.rejoinRole l.fsm.applier j role) same
  split
  · exact h
  · split <;> rename_i hres <;> rwa [hres] at hlisted

end Advertises

end Consensus.Leader

/-- A request about `id` carries the address. -/
def ServiceCall.Carries (id addr : String) : ServiceCall → Prop
  | .join req => req.nodeId = id → req.address = addr
  | .rejoin req => req.nodeId = id → req.address = addr
  | _ => True

namespace JoinService

open Consensus.Leader (Advertises)

variable [Unicode]

omit [Unicode] in
theorem advertises_handle {α : Type} {id addr : String} {l : Leader} (h : Advertises id addr l)
    (s : JoinService) (relay : Bool) {serve : Leader × Except Rpc.Status α}
    (hserve : Advertises id addr serve.1) : Advertises id addr (s.handle l relay serve).1 := by
  unfold handle
  split
  · exact h
  · exact h
  · exact hserve

theorem advertises_rejoin {id addr : String} {l : Leader} (h : Advertises id addr l)
    (s : JoinService) (c : Commits) (req : RejoinRequest)
    (same : req.nodeId = id → req.address = addr) : Advertises id addr (s.rejoin l c req).1 := by
  unfold rejoin
  split
  · exact h
  · split
    · exact h
    · exact advertises_handle h s req.relay (h.rejoinMember c _ _ _ same)

theorem advertises_serve {id addr : String} {l : Leader} (h : Advertises id addr l)
    (s : JoinService) (call : ServiceCall) (c : Commits) (same : call.Carries id addr) :
    Advertises id addr (s.serve l (call, c)) := by
  cases call with
  | join req =>
      simp only [serve, join]
      split
      · exact h
      · exact advertises_handle h s req.relay (h.serveJoin s c req same)
  | promote j relay =>
      simp only [serve, promote]
      split
      · exact h
      · exact advertises_handle h s relay (h.promoteMember c j)
  | leave j relay =>
      simp only [serve, leave]
      split
      · exact h
      · exact advertises_handle h s relay (h.leaveMember c j)
  | rejoin req => exact advertises_rejoin h s c req same
  | markDead j => exact h.removeMember c.member j

end JoinService

end Clusdr
