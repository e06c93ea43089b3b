import Clusdr.Metatheory.RolesAndVotes

/-!
Leaving, attempt by attempt. `Leave` drops the member from the list and removes the
server from Raft's configuration; either call can fail and still take effect, at
once or later, and the next attempt may find another leader. A leader that lists the
id, or knows that it left, does not forget it, so the attempts can be repeated until
one gets through.
-/

namespace Clusdr

open Go (Time Unicode)
open Clusdr.Membership (Engine)
open Consensus (Command Configuration Fsm Leader Submission listing)
open JoinService (leaveMember)

namespace Membership.Engine

theorem left_leave (e : Engine) (id : String) :
    (e.leave id).1.left id = (e.left id || (e.members.get id).isSome) := by
  unfold leave left
  cases hdropped : e.dropped.get id with
  | some u => simp [hdropped]
  | none =>
      cases hmember : e.members.get id with
      | none => simp [hdropped]
      | some m => simp

/-- The id is listed, or is known to have left. -/
def Knows (e : Engine) (id : String) : Prop := (e.members.get id).isSome ∨ e.left id = true

theorem knows_leave {e : Engine} {id : String} (h : e.Knows id) : (e.leave id).1.Knows id := by
  right
  rw [left_leave, Bool.or_eq_true]
  exact h.symm

end Membership.Engine

variable [Unicode]

namespace Consensus.Leader

theorem applier_applyDropMember (l : Leader) (s : Submission) (id : String) :
    (l.applyDropMember s id).1.fsm.applier =
      if s.logged then (l.fsm.applier.leave id).1 else l.fsm.applier := by
  change (l.fsm.applyMember s "drop_member" { kind := .dropMember, id }).1.applier = _
  rw [Fsm.applyMember_fst (by simp [CommandKind.known])]
  split <;> rfl

theorem knows_applyDropMember {l : Leader} {id : String} (h : l.fsm.applier.Knows id)
    (s : Submission) : (l.applyDropMember s id).1.fsm.applier.Knows id := by
  rw [applier_applyDropMember]
  split
  · exact Membership.Engine.knows_leave h
  · exact h

end Consensus.Leader

section Attempt

variable {l : Leader} (valid : l.fsm.applier.Valid) {c : Commits} {id : String}

include valid

/-- The state machine moves by the drop or not at all. -/
theorem fsm_leaveMember (c : Commits) (id : String) :
    (leaveMember l c id).1.fsm = l.fsm ∨
      (leaveMember l c id).1.fsm = (l.applyDropMember c.member id).1.fsm := by
  have hcase := JoinService.leaveMember_case valid c id
  generalize leaveMember l c id = res at hcase
  cases hcase with
  | unknown | already => exact Or.inl rfl
  | dropFailed | dropped => exact Or.inr rfl
  | removeFailed | removed =>
      rw [Leader.removeVoter, Leader.fsm_change]
      exact Or.inr rfl

theorem valid_leaveMember : (leaveMember l c id).1.fsm.applier.Valid := by
  rcases fsm_leaveMember valid c id with h | h <;> rw [h]
  · exact valid
  · exact Leader.valid_applyDropMember valid c.member id

theorem knows_leaveMember (h : l.fsm.applier.Knows id) :
    (leaveMember l c id).1.fsm.applier.Knows id := by
  rcases fsm_leaveMember valid c id with hfsm | hfsm <;> rw [hfsm]
  · exact h
  · exact Leader.knows_applyDropMember h c.member

/-- An attempt takes the server away or leaves the configuration alone. -/
theorem servers_leaveMember :
    (leaveMember l c id).1.servers = l.servers ∨
      (leaveMember l c id).1.servers = l.servers.removeServer id := by
  have hcase := JoinService.leaveMember_case valid c id
  generalize leaveMember l c id = res at hcase
  cases hcase with
  | unknown | already | dropFailed | dropped => exact Or.inl rfl
  | removeFailed | removed =>
      rw [Leader.removeVoter, Leader.change_fst]
      split
      · exact Or.inr rfl
      · exact Or.inl rfl

theorem gone_of_left (served : l.hasServer id = (l.servers.get id).isSome)
    (ok : (leaveMember l c id).2 = .ok ()) :
    ¬ (leaveMember l c id).1.Lists id ∧ ¬ (leaveMember l c id).1.Serves id := by
  have hunlisted : c.member.outcome.isCommitted → ¬ (l.applyDropMember c.member id).1.Lists id := by
    intro committed
    have hlogged : c.member.logged := Consensus.Outcome.logged_of_isCommitted committed
    rw [Leader.Lists, Leader.listing_applyDropMember valid, if_pos ⟨hlogged, rfl⟩]
    exact Bool.false_ne_true
  have hunserved : l.hasServer id = false → ¬ l.Serves id := fun h =>
    Bool.eq_false_iff.mp (served.symm.trans h)
  have hcase := JoinService.leaveMember_case valid c id
  generalize leaveMember l c id = res at hcase ok
  cases hcase with
  | unknown | dropFailed | removeFailed => cases ok
  | already left unserved =>
      refine ⟨?_, hunserved unserved⟩
      rw [Leader.lists_iff, valid.gone id left]
      exact Bool.false_ne_true
  | dropped committed unserved => exact ⟨hunlisted committed, hunserved unserved⟩
  | removed committed gone =>
      have hlogged : c.raft.logged := Consensus.Outcome.logged_of_isCommitted gone
      rw [Leader.removeVoter, Leader.change_fst, if_pos hlogged]
      refine ⟨hunlisted committed, ?_⟩
      rw [Leader.Serves, Consensus.Configuration.get_removeServer, if_pos rfl]
      exact Bool.false_ne_true

theorem unknown_of_notFound (served : l.hasServer id = (l.servers.get id).isSome) {msg : String}
    (notFound : (leaveMember l c id).2 = .error ⟨.notFound, msg⟩) :
    ¬ l.Lists id ∧ ¬ l.Serves id := by
  have hcase := JoinService.leaveMember_case valid c id
  generalize leaveMember l c id = res at hcase notFound
  cases hcase with
  | unknown unlisted unserved =>
      exact ⟨unlisted, Bool.eq_false_iff.mp (served.symm.trans unserved)⟩
  | already | dropped | removed => cases notFound
  | dropFailed | removeFailed =>
      have hcode := congrArg Rpc.Status.code (Except.error.inj notFound)
      cases hcode

theorem left_of_knows (h : l.fsm.applier.Knows id) (hc : c.Succeed) :
    (leaveMember l c id).2 = .ok () := by
  have hcase := JoinService.leaveMember_case valid c id
  generalize leaveMember l c id = res at hcase
  cases hcase with
  | already | dropped | removed => rfl
  | dropFailed failed => exact absurd hc.2 failed
  | removeFailed committed failed => exact absurd hc.1 failed
  | unknown unlisted unserved stayed =>
      rcases h with hlisted | hleft
      · exact absurd ((l.lists_iff id).mpr hlisted) unlisted
      · rw [stayed] at hleft
        cases hleft

end Attempt

/-- Raft's configuration, and the state machine of every node that may come to lead. -/
structure LeaveState (L : Type) where
  servers : Configuration
  node : L → Fsm

namespace LeaveState

variable {L : Type} [DecidableEq L]

/-- The node `k` as the leader. -/
def leader (s : LeaveState L) (k : L) : Leader := ⟨s.servers, s.node k⟩

/-- What the leader `k` left behind. -/
def update (s : LeaveState L) (k : L) (l : Leader) : LeaveState L :=
  ⟨l.servers, Function.update s.node k l.fsm⟩

omit [Unicode] in
theorem node_update (s : LeaveState L) (k : L) (l : Leader) (k' : L) :
    (s.update k l).node k' = if k' = k then l.fsm else s.node k' :=
  Function.update_apply s.node k l.fsm k'

/-- Nothing that concerns `id` has changed. -/
structure Untouched (id : String) (s s' : LeaveState L) : Prop where
  server : s'.servers.get id = s.servers.get id
  valid : ∀ k, (s'.node k).applier.Valid
  listed : ∀ k, (s'.node k).applier.members.get id = (s.node k).applier.members.get id
  left : ∀ k, (s'.node k).applier.left id = (s.node k).applier.left id

/-- What happens while `id` is leaving: attempts, on any node and with any outcome; a drop
or a removal that takes effect late or on another node; and what others do to other ids. -/
inductive Step (id : String) (s : LeaveState L) : LeaveState L → Prop
  | attempt (k : L) (c : Commits) : Step id s (s.update k (leaveMember (s.leader k) c id).1)
  | drop (k : L) (now : Time) :
      Step id s (s.update k ⟨s.servers,
        ((s.node k).applyCommand now { kind := .dropMember, id }).1⟩)
  | remove : Step id s { s with servers := s.servers.removeServer id }
  | other {s' : LeaveState L} (untouched : Untouched id s s') : Step id s s'

/-- Every engine keeps its invariant, and Raft has no server without an id. -/
structure Sound (id : String) (s : LeaveState L) : Prop where
  valid : ∀ k, (s.node k).applier.Valid
  named : id = "" → s.servers.get id = none

variable {id : String} {s s' : LeaveState L}

omit [Unicode] [DecidableEq L] in
theorem Sound.served (sound : s.Sound id) (k : L) :
    (s.leader k).hasServer id = ((s.leader k).servers.get id).isSome := by
  rw [Leader.hasServer]
  by_cases hid : id = ""
  · rw [leader, sound.named hid]
    exact Bool.and_false _
  · rw [decide_eq_true hid]
    exact Bool.true_and _

omit [Unicode] in
/-- What one node's leader left behind keeps the invariant if its own part does. -/
theorem Sound.update (sound : s.Sound id) (k : L) {l : Leader} (valid : l.fsm.applier.Valid)
    (servers : l.servers = s.servers ∨ l.servers = s.servers.removeServer id) :
    (s.update k l).Sound id where
  valid k' := by
    rw [node_update]
    split
    · exact valid
    · exact sound.valid k'
  named hid := by
    rcases servers with h | h
    · exact (congrArg (·.get id) h).trans (sound.named hid)
    · exact (congrArg (·.get id) h).trans
        ((Configuration.get_removeServer _ _ _).trans (if_pos rfl))

theorem Sound.step (sound : s.Sound id) (h : Step id s s') : s'.Sound id := by
  cases h with
  | attempt k c =>
      exact sound.update k (valid_leaveMember (sound.valid k)) (servers_leaveMember (sound.valid k))
  | drop k now =>
      exact sound.update k (Consensus.valid_applyCommand (sound.valid k) _ _) (Or.inl rfl)
  | remove =>
      exact ⟨sound.valid, fun _ => (Configuration.get_removeServer _ _ _).trans (if_pos rfl)⟩
  | other untouched => exact ⟨untouched.valid, fun hid => untouched.server.trans (sound.named hid)⟩

omit [Unicode] in
theorem knows_update {k k' : L} {l : Leader} (known : (s.node k').applier.Knows id)
    (h : (s.node k).applier.Knows id → l.fsm.applier.Knows id) :
    ((s.update k l).node k').applier.Knows id := by
  rw [node_update]
  split
  · rename_i hk
    exact h (hk ▸ known)
  · exact known

theorem knows_step (sound : s.Sound id) (h : Step id s s') (k : L)
    (known : (s.node k).applier.Knows id) : (s'.node k).applier.Knows id := by
  cases h with
  | attempt k' c =>
      have hvalid : (s.leader k').fsm.applier.Valid := sound.valid k'
      exact knows_update known (knows_leaveMember hvalid)
  | drop k' now => exact knows_update known Engine.knows_leave
  | remove => exact known
  | other untouched => rwa [Engine.Knows, untouched.listed, untouched.left]

theorem sound_run (sound : s.Sound id) (h : Relation.ReflTransGen (Step id) s s') :
    s'.Sound id ∧ ∀ k, (s.node k).applier.Knows id → (s'.node k).applier.Knows id := by
  induction h with
  | refl => exact ⟨sound, fun _ known => known⟩
  | tail _ hstep ih =>
      obtain ⟨sound', hknows⟩ := ih
      exact ⟨sound'.step hstep, fun k known => knows_step sound' hstep k (hknows k known)⟩

end LeaveState

/-- A leave that succeeds has taken the id from the leader's list and from Raft's configuration;
one that answers that the id is unknown found it in neither; and a leader that listed the id can
finish an interrupted leave, whatever the attempts before it have done. -/
theorem leave_complete {L : Type} [DecidableEq L] (id : String) (s s' : LeaveState L)
    (valid : ∀ k, (s.node k).applier.Valid) (named : s.servers.get "" = none)
    (attempts : Relation.ReflTransGen (LeaveState.Step id) s s') (k : L) (c : Commits) :
    ((leaveMember (s'.leader k) c id).2 = .ok () →
      ¬ (leaveMember (s'.leader k) c id).1.Lists id ∧
        ¬ (leaveMember (s'.leader k) c id).1.Serves id) ∧
    (∀ msg, (leaveMember (s'.leader k) c id).2 = .error ⟨.notFound, msg⟩ →
      ¬ (s'.leader k).Lists id ∧ ¬ (s'.leader k).Serves id) ∧
    ((s.leader k).Lists id → c.Succeed → (leaveMember (s'.leader k) c id).2 = .ok ()) := by
  have sound : s.Sound id := ⟨valid, fun hid => hid ▸ named⟩
  obtain ⟨sound', hknows⟩ := LeaveState.sound_run sound attempts
  have hvalid : (s'.leader k).fsm.applier.Valid := sound'.valid k
  refine ⟨gone_of_left hvalid (sound'.served k), fun _ => unknown_of_notFound hvalid
    (sound'.served k), fun listed hc => ?_⟩
  exact left_of_knows hvalid (hknows k (Or.inl ((Leader.lists_iff _ _).mp listed))) hc

namespace LeaveState

open JoinService (allCommitted seedLeader)

def twoLeaders : LeaveState Bool := ⟨seedLeader.servers, fun _ => seedLeader.fsm⟩

/-- The first leader drops `n1` and fails to remove the server. -/
def dropped : LeaveState Bool :=
  twoLeaders.update true
    (leaveMember (twoLeaders.leader true) ⟨.failed "timeout" false, allCommitted.member⟩ "n1").1

/-- The second leader's drop takes effect, but it loses the leadership before it knows. -/
def unanswered : LeaveState Bool :=
  dropped.update false
    (leaveMember (dropped.leader false) ⟨.committed, ⟨0, 0, .failed "leadership lost" true⟩⟩ "n1").1

end LeaveState

omit [Unicode] in
open JoinService (allCommitted) in
theorem leave_complete_unanswered :
    letI := Unicode.ascii
    (leaveMember (LeaveState.unanswered.leader true) allCommitted "n1").2 = .ok () ∧
      ¬ (leaveMember (LeaveState.unanswered.leader true) allCommitted "n1").1.Serves "n1" := by
  let := Unicode.ascii
  have attempts : Relation.ReflTransGen (LeaveState.Step "n1") LeaveState.twoLeaders
      LeaveState.unanswered := .tail (.single (.attempt true _)) (.attempt false _)
  obtain ⟨hgone, -, hleft⟩ := leave_complete "n1" LeaveState.twoLeaders LeaveState.unanswered
    (fun _ => Engine.valid_new _ _ _) rfl attempts true allCommitted
  have hok := hleft rfl ⟨rfl, rfl⟩
  exact ⟨hok, (hgone hok).2⟩

end Clusdr
