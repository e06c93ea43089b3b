import Clusdr.Core.JoinHandlers
import Clusdr.Metatheory.LeaderCalls

/-!
What one step of a handler does. It moves its own id only, it takes a server away
only as the last step of a `Leave`, and it lists a member only as the last step of a
`Join` or a `Rejoin`. A handler relies on what it has seen until it returns.
-/

namespace Clusdr

open Go (Unicode)
open Consensus (Leader)

namespace Handler

/-- The next commit of the handler removes a server. -/
def removes : Handler → Bool
  | .leaveRemove _ => true
  | _ => false

/-- What a handler relies on. -/
def Ready (l : Leader) : Handler → Prop
  | .joinServer req => req.raftAddr ≠ ""
  | .joinMember req => l.Serves req.nodeId
  | .rejoinRole id _ _ | .rejoinMember id _ _ => l.Serves id
  | .leaveRemove id => ¬ l.Lists id
  | _ => True

/-- All that a step of the handler does to the leader. -/
structure Moves (h : Handler) (l l' : Leader) : Prop extends Leader.Only h.id l l' where
  serves : h.removes = false → ∀ j, l.Serves j → l'.Serves j
  lists : h.lists = false → ∀ j, l'.Lists j → l.Lists j

/-- A step that leaves the member list alone. -/
theorem Moves.of_fsm {h : Handler} {l l' : Leader} (only : Leader.Only h.id l l')
    (hfsm : l'.fsm = l.fsm) (serves : h.removes = false → ∀ j, l.Serves j → l'.Serves j) :
    h.Moves l l' :=
  ⟨only, serves, fun _ j hlists => by rwa [Leader.Lists, hfsm] at hlists⟩

/-- A step that leaves the configuration alone. -/
theorem Moves.of_servers {h : Handler} {l l' : Leader} (only : Leader.Only h.id l l')
    (hservers : l'.servers = l.servers) (lists : h.lists = false → ∀ j, l'.Lists j → l.Lists j) :
    h.Moves l l' :=
  ⟨only, fun _ j hserves => by rwa [Leader.Serves, hservers], lists⟩

theorem Moves.refl (h : Handler) {l : Leader} (valid : l.fsm.applier.Valid) : h.Moves l l :=
  .of_fsm (.refl _ valid) rfl fun _ _ hserves => hserves

variable [Unicode]

omit [Unicode] in
theorem removes_of_not_leaves {h : Handler} (hleaves : h.leaves = false) : h.removes = false := by
  cases h with
  | leaveRemove id => cases hleaves
  | _ => rfl

omit [Unicode] in
theorem lists_of_leaves {h : Handler} (hleaves : h.leaves = true) : h.lists = false := by
  cases h with
  | joinMember | rejoinMember => cases hleaves
  | _ => rfl

omit [Unicode] in
theorem lists_of_removes {h : Handler} (hremoves : h.removes = true) : h.lists = false := by
  cases h with
  | leaveRemove id => rfl
  | _ => cases hremoves

omit [Unicode] in
theorem Ready.serves {h : Handler} {l : Leader} (ready : h.Ready l) (hlists : h.lists = true) :
    l.Serves h.id := by
  cases h with
  | joinMember | rejoinMember => exact ready
  | _ => cases hlists

omit [Unicode] in
theorem Ready.not_lists {h : Handler} {l : Leader} (ready : h.Ready l) (hremoves : h.removes = true) :
    ¬ l.Lists h.id := by
  cases h with
  | leaveRemove id => exact ready
  | _ => cases hremoves

omit [Unicode] in
theorem moves_addServer {l : Leader} (valid : l.fsm.applier.Valid) (c : Commits)
    (req : JoinRequest) :
    (joinServer req).Moves l (JoinService.addServer l c.raft req).1 := by
  have honly := JoinService.only_addServer valid c.raft req
  rw [JoinService.addServer_fst] at honly ⊢
  split at honly
  · rename_i hlogged
    rw [if_pos hlogged]
    refine .of_fsm honly rfl fun _ j hserves => ?_
    rw [Leader.Serves, JoinService.get_joinServers]
    split
    · rfl
    · exact hserves
  · rename_i hlost
    rw [if_neg hlost]
    exact .refl _ valid

theorem moves_addMember {l : Leader} (valid : l.fsm.applier.Valid) (c : Commits) {h : Handler}
    (hlists : h.lists = true) (addr role : String) :
    h.Moves l (l.applyAddMemberAs c.member h.id addr role).1 := by
  refine .of_servers (Leader.only_applyAddMemberAs valid c.member _ _ _) rfl fun hquiet => ?_
  rw [hlists] at hquiet
  cases hquiet

theorem moves_dropMember {l : Leader} (valid : l.fsm.applier.Valid) (c : Commits) (h : Handler) :
    h.Moves l (l.applyDropMember c.member h.id).1 := by
  refine .of_servers (Leader.only_applyDropMember valid c.member _) rfl fun _ j hlists => ?_
  rw [Leader.Lists, Leader.listing_applyDropMember valid] at hlists
  split at hlists
  · cases hlists
  · exact hlists

omit [Unicode] in
theorem moves_removeVoter {l : Leader} (valid : l.fsm.applier.Valid) (c : Commits) (id : String) :
    (leaveRemove id).Moves l (l.removeVoter c.raft id).1 := by
  refine .of_fsm (Leader.only_change valid _ _ fun j hj => ?_) (Leader.fsm_change _ _ _ _) nofun
  exact (Consensus.Configuration.get_removeServer l.servers id j).trans (if_neg hj)

theorem moves_advance {l : Leader} (valid : l.fsm.applier.Valid) (c : Commits) (h : Handler) :
    h.Moves l (h.advance l c).1 := by
  cases h with
  | joinServer req =>
      have hmoves := moves_addServer valid c req
      simp only [advance]
      split <;> rename_i hadd <;> rwa [hadd] at hmoves
  | joinMember req => exact moves_addMember valid c rfl _ _
  | rejoinMember id addr role => exact moves_addMember valid c rfl _ _
  | leaveDrop id inRaft =>
      have hmoves := moves_dropMember valid c (leaveDrop id inRaft)
      change (leaveDrop id inRaft).Moves l (l.applyDropMember c.member id).1 at hmoves
      simp only [advance]
      split <;> rename_i hdrop <;> rwa [hdrop] at hmoves
  | leaveRemove id => exact moves_removeVoter valid c id
  | leaveLeft id inMem inRaft =>
      simp only [advance]
      split
      · exact .refl _ valid
      · split <;> exact .refl _ valid
  | leaveMembers | leaveServer | rejoinServer | rejoinRole => exact .refl _ valid

omit [Unicode] in
theorem serves_addServer (l : Leader) (c : Commits) {req : JoinRequest}
    (haddr : req.raftAddr ≠ "") (hok : (JoinService.addServer l c.raft req).2 = .ok ()) :
    (JoinService.addServer l c.raft req).1.Serves req.nodeId := by
  have hcommitted : c.raft.isCommitted :=
    ((JoinService.addServer_ok l c req).mp hok).resolve_left haddr
  have hlogged := Consensus.Outcome.logged_of_isCommitted hcommitted
  rw [Leader.Serves, JoinService.get_addServer l hlogged haddr]
  rfl

theorem not_lists_dropMember {l : Leader} (valid : l.fsm.applier.Valid) (c : Commits) (id : String)
    (hok : (l.applyDropMember c.member id).2 = .ok ()) :
    ¬ (l.applyDropMember c.member id).1.Lists id := by
  have hcommitted : c.member.outcome.isCommitted := (Consensus.Fsm.applyMember_ok _ _ _ _).mp hok
  have hlogged := Consensus.Outcome.logged_of_isCommitted hcommitted
  rw [Leader.Lists, Leader.listing_applyDropMember valid, if_pos ⟨hlogged, rfl⟩]
  exact Bool.false_ne_true

/-- The next phase of a handler has what it relies on. -/
theorem ready_next {l : Leader} (valid : l.fsm.applier.Valid) (c : Commits) {h : Handler}
    (ready : h.Ready l) (h' : Handler) (hnext : (h.advance l c).2 = some h') :
    h'.Ready (h.advance l c).1 ∧ h'.id = h.id ∧ h'.leaves = h.leaves := by
  cases h with
  | joinServer req =>
      have hserves := serves_addServer l c ready
      simp only [advance] at hnext ⊢
      rcases hadd : JoinService.addServer l c.raft req with ⟨l', _ | _⟩
      · rw [hadd] at hnext
        cases hnext
      · rw [hadd] at hnext hserves
        cases hnext
        exact ⟨hserves rfl, rfl, rfl⟩
  | leaveDrop id inRaft =>
      have hdropped := not_lists_dropMember valid c id
      simp only [advance] at hnext ⊢
      rcases hdrop : l.applyDropMember c.member id with ⟨l', _ | _⟩
      · rw [hdrop] at hnext
        cases hnext
      · rw [hdrop] at hnext hdropped
        cases inRaft with
        | false => cases hnext
        | true =>
            cases hnext
            exact ⟨hdropped rfl, rfl, rfl⟩
  | leaveLeft id inMem inRaft =>
      simp only [advance] at hnext
      split at hnext
      · cases hnext
      · split at hnext
        · cases hnext
        · cases hnext
          exact ⟨trivial, rfl, rfl⟩
  | rejoinServer id addr role =>
      cases hserver : l.hasServer id with
      | false =>
          rw [advance, hserver] at hnext
          cases hnext
      | true =>
          rw [advance, hserver] at hnext
          cases hnext
          exact ⟨(Bool.and_eq_true_iff.mp hserver).2, rfl, rfl⟩
  | leaveMembers id =>
      cases hnext
      exact ⟨trivial, rfl, rfl⟩
  | leaveServer id inMem =>
      cases hnext
      exact ⟨trivial, rfl, rfl⟩
  | rejoinRole id addr role =>
      cases hnext
      exact ⟨ready, rfl, rfl⟩
  | joinMember | leaveRemove | rejoinMember => cases hnext

omit [Unicode] in
theorem Ready.mono {h : Handler} {l l' : Leader} (ready : h.Ready l)
    (serves : h.leaves = false → l.Serves h.id → l'.Serves h.id)
    (lists : h.leaves = true → l'.Lists h.id → l.Lists h.id) : h.Ready l' := by
  cases h with
  | joinServer => exact ready
  | joinMember | rejoinRole | rejoinMember => exact serves rfl ready
  | leaveRemove => exact fun hlists => ready (lists rfl hlists)
  | _ => trivial

omit [Unicode] in
/-- A step of one handler leaves another, of another id or of its own kind, what it
relies on. -/
theorem Moves.ready {h g : Handler} {l l' : Leader} (moves : h.Moves l l') (ready : g.Ready l)
    (apart : g.id = h.id → g.leaves = h.leaves) : g.Ready l' := by
  by_cases hid : g.id = h.id
  · refine ready.mono (fun hleaves => ?_) fun hleaves => ?_
    · exact moves.serves (removes_of_not_leaves ((apart hid).symm.trans hleaves)) g.id
    · exact moves.lists (lists_of_leaves ((apart hid).symm.trans hleaves)) g.id
  · refine ready.mono (fun _ => ?_) fun _ => ?_
    · rw [Leader.Serves, Leader.Serves, moves.servers g.id hid]
      exact fun hserves => hserves
    · rw [Leader.Lists, Leader.Lists, moves.listing g.id hid]
      exact fun hlists => hlists

end Handler

namespace AdminRequest

theorem handler_id (req : AdminRequest) : req.handler.id = req.id := by cases req <;> rfl

theorem handler_leaves (req : AdminRequest) : req.handler.leaves = req.leaves := by
  cases req <;> rfl

theorem ready_handler (req : AdminRequest) {l : Leader}
    (hraft : ∀ r, req = .join r → r.raftAddr ≠ "") : req.handler.Ready l := by
  cases req with
  | join r => exact hraft r rfl
  | leave id => trivial
  | rejoin id addr role => trivial

end AdminRequest

end Clusdr
