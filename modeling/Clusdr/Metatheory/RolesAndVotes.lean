import Clusdr.Metatheory.RefusedJoins
import Clusdr.Runs.Along

/-!
The role in the member list and the vote in Raft's configuration. Requests that are
served one after another keep the two lists together, id by id. They write the same
role to both but for one: a `Join` as an observer does not take the vote of a voter.
-/

namespace Clusdr

open Go (Unicode)
open Clusdr.Membership (normalizeRole roleObserver roleVoter)
open Consensus (Leader Listing Server Submission listing)

/-- What the leader is asked, and what the loops of `LivenessLoops` submit. -/
inductive ServiceCall where
  | join (req : JoinRequest)
  | promote (id : String) (relay : Bool)
  | leave (id : String) (relay : Bool)
  | rejoin (req : RejoinRequest)
  | markDead (id : String)

/-- Raft commits what the handler submits. -/
def Commits.Succeed (c : Commits) : Prop := c.raft.isCommitted ∧ c.member.outcome.isCommitted

namespace Consensus.Leader

/-- Every member that is a server is an observer exactly if it has no vote. -/
def RolesAgree (l : Leader) : Prop :=
  ∀ m ∈ l.fsm.applier.membersList, ∀ srv, l.servers.get m.id = some srv →
    (m.role = roleObserver ↔ srv.suffrage = .nonvoter)

/-- The members are the servers. -/
structure Paired (l : Leader) : Prop where
  valid : l.fsm.applier.Valid
  pair : ∀ id, l.Lists id ↔ l.Serves id

theorem rolesAgree_iff {l : Leader} (valid : l.fsm.applier.Valid) :
    l.RolesAgree ↔ ∀ id m srv, listing l.fsm.applier id = some m → l.servers.get id = some srv →
      (m.role = roleObserver ↔ srv.suffrage = .nonvoter) := by
  constructor
  · intro agree id m srv hm hsrv
    obtain ⟨n, hn, rfl⟩ := Option.map_eq_some_iff.mp hm
    obtain ⟨hmem, rfl⟩ := (Go.Map.get_iff_mem_sorted valid.keyed id n).mp hn
    exact agree n hmem srv hsrv
  · intro agree m hm srv hsrv
    have hget := (Go.Map.get_iff_mem_sorted valid.keyed m.id m).mpr ⟨hm, rfl⟩
    exact agree m.id _ srv (congrArg (Option.map Consensus.listingOf) hget) hsrv

/-- After a step that concerns `id` only, it is enough to look at `id`. -/
theorem paired_of_only {id : String} {l l' : Leader} (only : Only id l l') (paired : l.Paired)
    (h : l'.Lists id ↔ l'.Serves id) : l'.Paired := by
  refine ⟨only.valid, fun j => ?_⟩
  by_cases hj : j = id
  · rw [hj, h]
  · rw [Lists, Serves, only.listing j hj, only.servers j hj]
    exact paired.pair j

theorem rolesAgree_of_only {id : String} {l l' : Leader} (only : Only id l l') (paired : l.Paired)
    (agree : l.RolesAgree) : l'.RolesAgree ↔ ∀ m srv, listing l'.fsm.applier id = some m →
      l'.servers.get id = some srv → (m.role = roleObserver ↔ srv.suffrage = .nonvoter) := by
  rw [rolesAgree_iff only.valid]
  refine ⟨fun h => h id, fun h j m srv hm hsrv => ?_⟩
  by_cases hj : j = id
  · rw [hj] at hm hsrv
    exact h m srv hm hsrv
  · rw [only.listing j hj] at hm
    rw [only.servers j hj] at hsrv
    exact (rolesAgree_iff paired.valid).mp agree j m srv hm hsrv

/-- A step that leaves `id` in both lists. -/
theorem agree_of_lists {id : String} {l l' : Leader} (only : Only id l l') (paired : l.Paired)
    (agree : l.RolesAgree) {m : Listing} {srv : Server} (hm : listing l'.fsm.applier id = some m)
    (hsrv : l'.servers.get id = some srv) :
    l'.Paired ∧ (l'.RolesAgree ↔ (m.role = roleObserver ↔ srv.suffrage = .nonvoter)) := by
  refine ⟨paired_of_only only paired ?_, ?_⟩
  · rw [Lists, Serves, hm, hsrv]
    exact iff_of_true rfl rfl
  · rw [rolesAgree_of_only only paired agree, hm, hsrv]
    simp

/-- And one that takes it out of both. -/
theorem agree_of_gone {id : String} {l l' : Leader} (only : Only id l l') (paired : l.Paired)
    (agree : l.RolesAgree) (hm : listing l'.fsm.applier id = none)
    (hsrv : l'.servers.get id = none) : l'.Paired ∧ l'.RolesAgree := by
  refine ⟨paired_of_only only paired ?_, ?_⟩
  · rw [Lists, Serves, hm, hsrv]
    exact Iff.rfl
  · rw [rolesAgree_of_only only paired agree, hm]
    intro m srv h
    cases h

theorem change_committed (l : Leader) {outcome : Consensus.Outcome} (h : outcome.isCommitted)
    (what : String) (c : Consensus.Configuration) :
    l.change outcome what c = ({ l with servers := c }, .ok ()) := by
  cases outcome with
  | committed => rfl
  | failed err logged => cases h

end Consensus.Leader

namespace JoinService

open Consensus.Leader

variable [Unicode]

def serve (s : JoinService) (l : Leader) : ServiceCall × Commits → Leader
  | (.join req, c) => (s.join l c req).1
  | (.promote id relay, c) => (s.promote l c id relay).1
  | (.leave id relay, c) => (s.leave l c id relay).1
  | (.rejoin req, c) => (s.rejoin l c req).1
  | (.markDead id, c) => (l.applyRemoveMember c.member id).1

/-- A `Join` as an observer does not name a voter. -/
def KeepsVotes (s : JoinService) (l : Leader) : ServiceCall × Commits → Prop
  | (.join req, _) => s.check req = none → req.observer →
      (l.servers.get req.nodeId).map Server.suffrage ≠ some .voter
  | _ => True

omit [Unicode] in
theorem logged_of_succeed {c : Commits} (hc : c.Succeed) : c.raft.logged ∧ c.member.logged :=
  ⟨Consensus.Outcome.logged_of_isCommitted hc.1, Consensus.Outcome.logged_of_isCommitted hc.2⟩

theorem agree_serveJoin (s : JoinService) {l : Leader} (paired : l.Paired) (agree : l.RolesAgree)
    {c : Commits} (hc : c.Succeed) {req : JoinRequest} (haddr : req.raftAddr ≠ "")
    (hid : req.nodeId ≠ "") :
    (s.serveJoin l c req).1.Paired ∧ ((s.serveJoin l c req).1.RolesAgree ↔
      (req.observer → (l.servers.get req.nodeId).map Server.suffrage ≠ some .voter)) := by
  obtain ⟨hraft, hmember⟩ := logged_of_succeed hc
  have hadded := only_addServer paired.valid c.raft req
  have honly := hadded.trans
    (only_applyAddMemberAs hadded.valid c.member req.nodeId req.address (joinRole req))
  have hlisted := listing_applyAddMemberAs hadded.valid c.member req.nodeId req.address
    (joinRole req) req.nodeId
  rw [if_pos ⟨hmember, rfl, hid⟩] at hlisted
  have hserver := get_addServer l hraft haddr
  have hjoined : (s.serveJoin l c req).1 = (withMember l c req).1 := by
    rcases s.serveJoin_cases l c req with ⟨h, -⟩ | ⟨-, h, -⟩ | ⟨-, -, h⟩
    · exact absurd (Or.inr hc.1) h
    · exact absurd hc.2 h
    · rw [h]
  rw [hjoined]
  refine (agree_of_lists honly paired agree hlisted hserver).imp_right fun h => h.trans ?_
  cases hobserver : req.observer with
  | false => simp [joinRole, hobserver, normalizeRole, roleVoter, roleObserver]
  | true =>
      rcases hold : l.servers.get req.nodeId with _ | ⟨_ | _, _⟩ <;>
        simp [joinRole, hobserver, normalizeRole]

omit [Unicode] in
theorem roleVoter_ne : ¬ normalizeRole roleVoter = roleObserver := by decide

omit [Unicode] in
theorem promoteToVoter_committed {l : Leader} (valid : l.fsm.applier.Valid) {c : Commits}
    (hc : c.Succeed) {id : String} (hserves : l.Serves id) :
    ∃ l' addr, l.promoteToVoter c.raft id = (l', .ok ()) ∧ Only id l l' ∧
      l'.servers.get id = some ⟨.voter, addr⟩ := by
  obtain ⟨⟨suffrage, addr⟩, hserver⟩ := Option.isSome_iff_exists.mp hserves
  unfold promoteToVoter
  rw [hserver]
  cases suffrage with
  | voter => exact ⟨l, addr, rfl, .refl id valid, hserver⟩
  | nonvoter =>
      refine ⟨_, addr, change_committed l hc.1 _ _, ⟨valid, fun j hj => ?_, fun _ _ => rfl⟩, ?_⟩
      · exact (Consensus.Configuration.get_addVoter l.servers id addr j).trans (if_neg hj)
      · exact (Consensus.Configuration.get_addVoter l.servers id addr id).trans (if_pos rfl)

theorem agree_promoteMember {l : Leader} (paired : l.Paired) (agree : l.RolesAgree)
    {c : Commits} (hc : c.Succeed) {id : String} (hid : id ≠ "") :
    (promoteMember l c id).1.Paired ∧ (promoteMember l c id).1.RolesAgree := by
  unfold promoteMember
  rw [memberByID_eq paired.valid]
  cases hm : l.fsm.applier.members.get id with
  | none => exact ⟨paired, agree⟩
  | some m =>
      have hserves : l.Serves id := (paired.pair id).mp ((lists_iff l id).mpr (hm ▸ rfl))
      obtain ⟨l', addr, hpromoted, honly, hserver⟩ := promoteToVoter_committed paired.valid hc hserves
      dsimp only
      rw [hpromoted]
      split
      · exact ⟨paired, agree⟩
      · split
        · exact ⟨paired, agree⟩
        · have hadd := only_applyAddMemberAs honly.valid c.member id m.address roleVoter
          have hlisted := listing_applyAddMemberAs honly.valid c.member id m.address roleVoter id
          rw [if_pos ⟨(logged_of_succeed hc).2, rfl, hid⟩] at hlisted
          have hagree := (agree_of_lists (honly.trans hadd) paired agree hlisted hserver).imp_right
            fun h => h.mpr (iff_of_false roleVoter_ne nofun)
          dsimp only
          split <;> rename_i hres <;> rwa [hres] at hagree

theorem agree_leaveMember {l : Leader} (paired : l.Paired) (agree : l.RolesAgree)
    {c : Commits} (hc : c.Succeed) {id : String} (hid : id ≠ "") :
    (leaveMember l c id).1.Paired ∧ (leaveMember l c id).1.RolesAgree := by
  have hdrop := only_applyDropMember paired.valid c.member id
  have hunlisted := listing_applyDropMember paired.valid c.member id id
  rw [if_pos ⟨(logged_of_succeed hc).2, rfl⟩] at hunlisted
  have hcase := leaveMember_case paired.valid c id
  generalize leaveMember l c id = res at hcase
  cases hcase with
  | unknown | already => exact ⟨paired, agree⟩
  | dropFailed failed => exact absurd hc.2 failed
  | removeFailed committed failed => exact absurd hc.1 failed
  | dropped committed unserved =>
      have hnone : l.servers.get id = none := by simpa [hasServer, hid] using unserved
      exact agree_of_gone hdrop paired agree hunlisted hnone
  | removed committed gone =>
      rw [removeVoter, change_committed _ gone]
      have hremoved := Consensus.Configuration.get_removeServer l.servers id
      refine agree_of_gone ⟨hdrop.valid, fun j hj => ?_, hdrop.listing⟩ paired agree hunlisted
        ((hremoved id).trans (if_pos rfl))
      exact (hremoved j).trans (if_neg hj)

omit [Unicode] in
theorem rejoinRole_eq {e : Membership.Engine} (valid : e.Valid) {id : String} {m : Listing}
    (hm : Consensus.listing e id = some m) (role : String) :
    rejoinRole e id role = normalizeRole m.role := by
  obtain ⟨n, hn, rfl⟩ := Option.map_eq_some_iff.mp hm
  rw [rejoinRole, memberByID_eq valid, hn]
  rfl

omit [Unicode] in
theorem normalizeRole_observer (role : String) :
    normalizeRole (normalizeRole role) = roleObserver ↔ role = roleObserver := by
  rw [Membership.normalizeRole_idem, normalizeRole]
  split
  · rename_i h; exact iff_of_true rfl h
  · rename_i h; exact iff_of_false (by decide) h

theorem agree_rejoinMember {l : Leader} (paired : l.Paired) (agree : l.RolesAgree)
    {c : Commits} (hc : c.Succeed) {id : String} (hid : id ≠ "") (addr role : String) :
    (rejoinMember l c id addr role).1.Paired ∧ (rejoinMember l c id addr role).1.RolesAgree := by
  unfold rejoinMember
  cases hserver : l.hasServer id with
  | false => exact ⟨paired, agree⟩
  | true =>
      have hserves : l.Serves id := (Bool.and_eq_true_iff.mp hserver).2
      obtain ⟨srv, hsrv⟩ := Option.isSome_iff_exists.mp hserves
      obtain ⟨m, hm⟩ := Option.isSome_iff_exists.mp ((paired.pair id).mpr hserves)
      have hrole := rejoinRole_eq paired.valid hm role
      have hold := (rolesAgree_iff paired.valid).mp agree id m srv hm hsrv
      have honly := only_applyAddMemberAs paired.valid c.member id addr (normalizeRole m.role)
      have hlisted := listing_applyAddMemberAs paired.valid c.member id addr (normalizeRole m.role) id
      rw [if_pos ⟨(logged_of_succeed hc).2, rfl, hid⟩] at hlisted
      have hagree := (agree_of_lists honly paired agree hlisted hsrv).imp_right fun h =>
        h.mpr ((normalizeRole_observer m.role).trans hold)
      simp only [Bool.not_true, Bool.false_eq_true, if_false, hrole]
      split <;> rename_i hres <;> rwa [hres] at hagree

theorem agree_markDead {l : Leader} (paired : l.Paired) (agree : l.RolesAgree) (sub : Submission)
    (id : String) :
    (l.applyRemoveMember sub id).1.Paired ∧ (l.applyRemoveMember sub id).1.RolesAgree := by
  have honly := only_applyRemoveMember paired.valid sub id
  have hservers : (l.applyRemoveMember sub id).1.servers = l.servers := rfl
  have hlisting := listing_applyRemoveMember paired.valid sub id id
  have hpair := paired.pair id
  cases hm : Consensus.listing l.fsm.applier id with
  | none =>
      rw [Leader.Lists, hm] at hpair
      have hgone : l.servers.get id = none := by
        simpa [Serves] using hpair
      exact agree_of_gone honly paired agree (by simpa [hm] using hlisting) hgone
  | some m =>
      rw [Leader.Lists, hm] at hpair
      obtain ⟨srv, hsrv⟩ := Option.isSome_iff_exists.mp (hpair.mp rfl)
      have hold := (rolesAgree_iff paired.valid).mp agree id m srv hm hsrv
      obtain ⟨m', hm', hrole⟩ :
          ∃ m', Consensus.listing (l.applyRemoveMember sub id).1.fsm.applier id = some m' ∧
            m'.role = m.role := by
        rw [hlisting, hm]
        split
        · refine ⟨_, rfl, ?_⟩
          dsimp only
          split <;> rfl
        · exact ⟨m, rfl, rfl⟩
      rw [← hrole] at hold
      exact (agree_of_lists honly paired agree hm' hsrv).imp_right fun h => h.mpr hold

theorem agree_serve (s : JoinService) (hleader : s.isLeader = true) {l : Leader} (paired : l.Paired)
    (agree : l.RolesAgree) (e : ServiceCall × Commits) (hc : e.2.Succeed)
    (haddr : ∀ req, e.1 = .join req → req.raftAddr ≠ "") :
    (s.serve l e).Paired ∧ ((s.serve l e).RolesAgree ↔ s.KeepsVotes l e) := by
  have hroute : ∀ relay, s.route l.fsm.applier relay = .serve := fun relay => if_pos hleader
  have hquiet : l.Paired ∧ (l.RolesAgree ↔ True) := ⟨paired, iff_of_true agree trivial⟩
  obtain ⟨call, c⟩ := e
  cases call with
  | join req =>
      simp only [serve, join, KeepsVotes]
      cases hcheck : s.check req with
      | some r => exact hquiet.imp_right fun h => h.trans (by simp)
      | none =>
          have hid : req.nodeId ≠ "" := by
            intro hempty
            simp [check, hempty] at hcheck
          simp only [handle, hroute, true_implies]
          exact agree_serveJoin s paired agree hc (haddr req rfl) hid
  | promote id relay =>
      simp only [serve, promote, KeepsVotes]
      split
      · exact hquiet
      · rename_i hid
        simp only [handle, hroute, listing]
        exact (agree_promoteMember paired agree hc hid).imp_right fun h => iff_of_true h trivial
  | leave id relay =>
      simp only [serve, leave, KeepsVotes]
      split
      · exact hquiet
      · rename_i hid
        simp only [handle, hroute, listing]
        exact (agree_leaveMember paired agree hc hid).imp_right fun h => iff_of_true h trivial
  | rejoin req =>
      simp only [serve, rejoin, KeepsVotes]
      split
      · exact hquiet
      · rename_i hid
        split
        · exact hquiet
        · simp only [handle, hroute, listing]
          exact (agree_rejoinMember paired agree hc hid _ _).imp_right fun h => iff_of_true h trivial
  | markDead id =>
      exact (agree_markDead paired agree c.member id).imp_right fun h => iff_of_true h trivial

end JoinService

end Clusdr
