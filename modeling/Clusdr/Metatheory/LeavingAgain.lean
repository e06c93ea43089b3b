import Clusdr.Core.Snapshot
import Clusdr.Metatheory.LeaveAttempts

/-!
Leaving twice. An id that left is kept apart from one that was never there by the
engine's set of dropped ids, which commands write and snapshots do not carry. What a
replica answers therefore depends on how it caught up: it has to have listed the id
itself.
-/

namespace Clusdr

open Go (Json Time Unicode)
open Clusdr.Membership (Action Engine Member)
open Consensus (Command Configuration Fsm Leader MemberEntry NodeStep SnapshotPayload)

namespace Membership

/-- What an engine can say of an id. -/
inductive Standing where
  | unknown
  | listed
  | left
deriving DecidableEq

/-- What an operation makes of it. The engine refuses to list the empty id. -/
def Action.restand (id : String) (st : Standing) : Action → Standing
  | .joinAs _ k _ _ | .restoreMember _ k _ _ _ => if k = id ∧ k ≠ "" then .listed else st
  | .leave k => if k = id ∧ st = .listed then .left else st
  | .markDead _ | .setLeader _ => st

namespace Engine

def standing (e : Engine) (id : String) : Standing :=
  if (e.members.get id).isSome then .listed else if e.left id then .left else .unknown

theorem standing_eq_listed (e : Engine) (id : String) :
    e.standing id = .listed ↔ (e.members.get id).isSome := by
  unfold standing
  cases (e.members.get id).isSome with
  | true => simp
  | false => cases e.left id <;> simp

theorem standing_eq_left {e : Engine} (valid : e.Valid) (id : String) :
    e.standing id = .left ↔ e.left id = true := by
  unfold standing
  cases hleft : e.left id with
  | true => simp [valid.gone id hleft]
  | false => cases (e.members.get id).isSome <;> simp

/-- An engine with the same answers under `id`. -/
theorem standing_congr {e e' : Engine} {id : String}
    (members : (e'.members.get id).isSome = (e.members.get id).isSome)
    (left : e'.left id = e.left id) : e'.standing id = e.standing id := by
  rw [standing, members, left, standing]

theorem standing_set (e : Engine) (k : String) (m : Member) (id : String) :
    standing { e with members := e.members.set k m, dropped := e.dropped.delete k } id =
      if k = id then .listed else e.standing id := by
  by_cases hk : k = id
  · subst hk
    rw [if_pos rfl, standing_eq_listed, Go.Map.get_set, if_pos rfl]
    rfl
  · have hne : id ≠ k := Ne.symm hk
    rw [if_neg hk]
    exact standing_congr (by simp [Go.Map.get_set, hne]) (by simp [left, Go.Map.get_delete, hne])

theorem standing_markDead (e : Engine) (k id : String) :
    (e.markDead k).1.standing id = e.standing id := by
  unfold markDead
  cases hm : e.members.get k with
  | none => rfl
  | some m =>
      dsimp only
      split
      · rfl
      · refine standing_congr ?_ rfl
        by_cases hid : id = k
        · simp [hid, hm]
        · simp [Go.Map.get_set, hid]

theorem standing_leave {e : Engine} (valid : e.Valid) (k id : String) :
    (e.leave k).1.standing id =
      if k = id ∧ e.standing id = .listed then .left else e.standing id := by
  unfold leave
  split
  · rename_i m hdropped hm
    by_cases hk : k = id
    · subst hk
      rw [if_pos ⟨rfl, (standing_eq_listed e k).mpr (by simp [hm])⟩]
      simp [standing, left]
    · have hne : id ≠ k := Ne.symm hk
      rw [if_neg fun h => hk h.1]
      exact standing_congr (by simp [Go.Map.get_delete, hne]) (by simp [left, Go.Map.get_set, hne])
  · rename_i hstays
    rw [if_neg]
    rintro ⟨rfl, hlisted⟩
    obtain ⟨m, hm⟩ := Option.isSome_iff_exists.mp ((standing_eq_listed e k).mp hlisted)
    cases hdropped : e.dropped.get k with
    | none => exact hstays m hdropped hm
    | some u =>
        have hgone := valid.gone k (by simp [left, hdropped])
        rw [hm] at hgone
        cases hgone

theorem standing_setLeader (e : Engine) (k id : String) :
    (e.setLeader k).1.standing id = e.standing id := by
  unfold setLeader
  split
  · rfl
  · exact standing_congr (by rw [Go.Map.get_mapValues, Option.isSome_map]) rfl

theorem standing_act {e : Engine} (valid : e.Valid) (a : Action) (id : String) :
    (e.act a).standing id = a.restand id (e.standing id) := by
  cases a with
  | joinAs | restoreMember =>
      simp only [act, joinAs, restoreMember, Action.restand]
      split
      · rename_i hempty
        rw [if_neg fun h => h.2 hempty]
      · rename_i hempty
        simp only [standing_set, hempty, ne_eq, not_false_eq_true, and_true]
  | markDead k => exact e.standing_markDead k id
  | leave k => exact standing_leave valid k id
  | setLeader k => exact e.standing_setLeader k id

theorem standing_run {e : Engine} (valid : e.Valid) (as : List Action) (id : String) :
    (e.run as).standing id = as.foldl (Action.restand id) (e.standing id) := by
  induction as generalizing e with
  | nil => rfl
  | cons a as ih =>
      rw [List.foldl_cons, ← standing_act valid]
      exact ih (valid_act valid a)

theorem standing_new (now : Time) (selfID selfAddr id : String) :
    (new now selfID selfAddr).standing id = if id = selfID then .listed else .unknown := by
  by_cases hid : id = selfID <;> simp [standing, new, left, Go.Map.get_set, hid]

end Engine

end Membership

open Clusdr.Membership (Standing)

/-- How a replica moves along the log: it applies a command, sees a leader change, or
restores a snapshot. -/
inductive ReplicaStep where
  | node (step : NodeStep)
  | restore (now : Nat → Time) (document : Except Json.Error Json)

namespace ReplicaStep

/-- What the member loop of `Restore` does with the entries. -/
def restoring (now : Nat → Time) (members : List MemberEntry) : List Action :=
  members.zipIdx.map fun (m, i) =>
    .restoreMember (now i) m.id m.address (Membership.normalizeRole m.role) m.status

/-- The engine operations of a step, as the log and the snapshot name them. -/
def actions : ReplicaStep → List Action
  | .node (.apply now cmd) => (cmd.memberAction now).toList
  | .node (.setLeader id) => [.setLeader id]
  | .restore now document =>
      match document.bind SnapshotPayload.decode with
      | .ok payload => restoring now payload.members
      | .error _ => []

/-- What the steps of the replica `selfID` have told it of `id`. -/
def heard (selfID id : String) (steps : List ReplicaStep) : Standing :=
  (steps.flatMap actions).foldl (Action.restand id) (if id = selfID then .listed else .unknown)

end ReplicaStep

namespace Consensus.Fsm

variable [Unicode]

def replicaStep (f : Fsm) : ReplicaStep → Fsm
  | .node step => f.nodeStep step
  | .restore now document => (f.restore now document).1

def replicaRun (f : Fsm) (steps : List ReplicaStep) : Fsm := steps.foldl replicaStep f

omit [Unicode] in
theorem run_restoring (e : Engine) (now : Nat → Time) (members : List MemberEntry) :
    e.run (ReplicaStep.restoring now members) = restoreMembers e now members := by
  unfold Engine.run ReplicaStep.restoring
  exact List.foldl_map

theorem applier_replicaStep (f : Fsm) (step : ReplicaStep) :
    (f.replicaStep step).applier = f.applier.run step.actions := by
  cases step with
  | node step =>
      cases step with
      | apply now cmd =>
          change (f.applyCommand now cmd).1.applier = f.applier.run (cmd.memberAction now).toList
          rw [applyCommand_applier, memberCommand_act]
          cases cmd.memberAction now <;> rfl
      | setLeader id => rfl
  | restore now document =>
      simp only [replicaStep, restore, ReplicaStep.actions]
      cases document.bind SnapshotPayload.decode with
      | error e => rfl
      | ok payload =>
          exact (run_restoring f.applier now payload.members).symm

theorem applier_replicaRun (f : Fsm) (steps : List ReplicaStep) :
    (f.replicaRun steps).applier = f.applier.run (steps.flatMap ReplicaStep.actions) := by
  induction steps generalizing f with
  | nil => rfl
  | cons step steps ih =>
      have happend : f.applier.run (step.actions ++ steps.flatMap ReplicaStep.actions) =
          (f.applier.run step.actions).run (steps.flatMap ReplicaStep.actions) := List.foldl_append
      rw [List.flatMap_cons, happend, ← applier_replicaStep]
      exact ih (f.replicaStep step)

theorem standing_replicaRun (start : Time) (selfID selfAddr : String) (locks : Option Locks.Table)
    (leases : Option Leases.Table) (steps : List ReplicaStep) (id : String) :
    (replicaRun ⟨.new start selfID selfAddr, locks, leases⟩ steps).applier.Valid ∧
      (replicaRun ⟨.new start selfID selfAddr, locks, leases⟩ steps).applier.standing id =
        ReplicaStep.heard selfID id steps := by
  have hvalid : (Engine.new start selfID selfAddr).Valid := Engine.valid_new _ _ _
  rw [applier_replicaRun]
  refine ⟨Engine.valid_run hvalid _, ?_⟩
  rw [Engine.standing_run hvalid, Engine.standing_new]
  rfl

end Consensus.Fsm

variable [Unicode]

namespace JoinService

/-- Without the server, the answer depends on what the engine says of the id. -/
theorem leaveMember_unserved {l : Leader} (valid : l.fsm.applier.Valid) {id : String}
    (unserved : l.hasServer id = false) (c : Commits) :
    ((leaveMember l c id).2 = .ok () ↔ l.fsm.applier.standing id = .left ∨
        l.fsm.applier.standing id = .listed ∧ c.member.outcome.isCommitted) ∧
      ((∃ msg, (leaveMember l c id).2 = .error ⟨.notFound, msg⟩) ↔
        l.fsm.applier.standing id = .unknown) := by
  have hlisted := l.fsm.applier.standing_eq_listed id
  have hleft := Engine.standing_eq_left valid id
  rw [← Leader.lists_iff] at hlisted
  have hcase := leaveMember_case valid c id
  generalize leaveMember l c id = res at hcase
  cases hcase with
  | unknown unlisted _ stayed =>
      have hst : l.fsm.applier.standing id = .unknown := by
        cases hst : l.fsm.applier.standing id with
        | unknown => rfl
        | listed => exact absurd (hlisted.mp hst) unlisted
        | left => rw [hleft.mp hst] at stayed; cases stayed
      simp [hst]
  | already left => simp [hleft.mpr left]
  | dropFailed failed pending =>
      obtain ⟨lists, -⟩ := pending.resolve_left (by simp [unserved])
      simp [hlisted.mpr lists, failed]
  | dropped committed _ pending =>
      obtain ⟨lists, -⟩ := pending.resolve_left (by simp [unserved])
      simp [hlisted.mpr lists, committed]
  | removeFailed _ _ served | removed _ _ served =>
      rw [served] at unserved
      cases unserved

/-- A leader serves a leave itself. -/
theorem leave_leading {s : JoinService} (leads : s.isLeader = true) {id : String} (named : id ≠ "")
    (l : Leader) (c : Commits) (relay : Bool) :
    (s.leave l c id relay).2 = .answered ((leaveMember l c id).2.map fun _ =>
      protoMembers (leaveMember l c id).1.fsm.applier) := by
  rw [leave, if_neg named, handle, route, if_pos leads]
  rfl

/-- The answers of a leader whose configuration does not have the server. -/
theorem leave_unserved {s : JoinService} (leads : s.isLeader = true) {l : Leader}
    (valid : l.fsm.applier.Valid) {id : String} (named : id ≠ "") (gone : l.servers.get id = none)
    (c : Commits) (relay : Bool) :
    ((∃ members, (s.leave l c id relay).2 = .answered (.ok members)) ↔
        l.fsm.applier.standing id = .left ∨
          l.fsm.applier.standing id = .listed ∧ c.member.outcome.isCommitted) ∧
      ((∃ msg, (s.leave l c id relay).2 = .answered (.error ⟨.notFound, msg⟩)) ↔
        l.fsm.applier.standing id = .unknown) := by
  have unserved : l.hasServer id = false := by simp [Leader.hasServer, gone]
  obtain ⟨hok, hnotFound⟩ := leaveMember_unserved valid unserved c
  rw [leave_leading leads named, ← hok, ← hnotFound]
  cases (leaveMember l c id).2 with
  | error e => simp [Except.map]
  | ok u => simp [Except.map]

end JoinService

/-- A replica that leads, and whose configuration does not have the server, answers a leave by
what its own steps told it of the id: that it left; that it is listed, if the drop it submits
commits; that it does not know it exactly if no step of its own ever listed it. -/
theorem leave_again_iff (start : Time) (selfID selfAddr : String) (locks : Option Locks.Table)
    (leases : Option Leases.Table) (steps : List ReplicaStep) (servers : Configuration)
    {id : String} (named : id ≠ "") (gone : servers.get id = none) {s : JoinService}
    (leads : s.isLeader = true) (c : Commits) (relay : Bool) :
    let l : Leader := ⟨servers, Fsm.replicaRun ⟨.new start selfID selfAddr, locks, leases⟩ steps⟩
    ((∃ members, (s.leave l c id relay).2 = .answered (.ok members)) ↔
        ReplicaStep.heard selfID id steps = .left ∨
          ReplicaStep.heard selfID id steps = .listed ∧ c.member.outcome.isCommitted) ∧
      ((∃ msg, (s.leave l c id relay).2 = .answered (.error ⟨.notFound, msg⟩)) ↔
        ReplicaStep.heard selfID id steps = .unknown) := by
  intro l
  obtain ⟨valid, hheard⟩ := Fsm.standing_replicaRun start selfID selfAddr locks leases steps id
  rw [← hheard]
  exact JoinService.leave_unserved leads (l := l) valid named gone c relay

namespace ReplicaStep

omit [Unicode] in
theorem foldl_restoring {id : String} (named : id ≠ "") (now : Nat → Time)
    (members : List MemberEntry) (st : Standing) :
    (restoring now members).foldl (Action.restand id) st =
      if ∃ m ∈ members, m.id = id then .listed else st := by
  unfold restoring
  rw [List.foldl_map]
  -- The loop counts its entries; the count is only what the clock is read by.
  generalize 0 = start
  induction members generalizing start st with
  | nil => simp
  | cons m members ih =>
      rw [List.zipIdx_cons, List.foldl_cons, ih]
      by_cases hm : m.id = id
      · simp [Action.restand, hm, named]
      · simp [Action.restand, hm]

omit [Unicode] in
/-- A snapshot tells of the ids its source lists, and of no other. -/
theorem foldl_snapshot {source : Fsm} (valid : source.applier.Valid) {vl : List Locks.Record}
    {vs : List Leases.Record} {document : Json} (taken : source.snapshot vl vs = .ok document)
    {id : String} (named : id ≠ "") (now : Nat → Time) (st : Standing) :
    (actions (.restore now (.ok document))).foldl (Action.restand id) st =
      if source.applier.standing id = .listed then .listed else st := by
  have hlisted : (∃ m ∈ (source.snapshotPayload vl vs).members, m.id = id) ↔
      source.applier.standing id = .listed := by
    rw [Engine.standing_eq_listed, Option.isSome_iff_exists]
    constructor
    · rintro ⟨p, hp, rfl⟩
      obtain ⟨m, hm, rfl⟩ := List.mem_map.mp hp
      exact ⟨m, (Go.Map.get_iff_mem_sorted valid.keyed _ m).mpr ⟨hm, rfl⟩⟩
    · rintro ⟨m, hm⟩
      obtain ⟨hmem, hid⟩ := (Go.Map.get_iff_mem_sorted valid.keyed id m).mp hm
      exact ⟨Fsm.memberEntry m, List.mem_map_of_mem hmem, hid⟩
  have hactions : actions (.restore now (.ok document)) =
      restoring now (source.snapshotPayload vl vs).members := by
    simp only [actions, Except.bind, SnapshotPayload.decode_encode taken]
  rw [hactions, foldl_restoring named]
  simp only [hlisted]

/-- `n2` joins and leaves. -/
def joinedAndLeft : List ReplicaStep :=
  [.node (.apply 0 { kind := .addMember, id := "n2", address := "10.0.0.2:7947" }),
    .node (.apply 1 { kind := .dropMember, id := "n2" })]

def soleLeader : JoinService := ⟨"demo", true, none⟩

end ReplicaStep

open ReplicaStep (joinedAndLeft soleLeader)
open JoinService (allCommitted)

omit [Unicode] in
/-- A replica that applied the log knows that `n2` left. -/
theorem leave_again_iff_replayed :
    letI := Unicode.ascii
    ∃ members, (soleLeader.leave
      ⟨∅, Fsm.replicaRun ⟨.new 0 "n1" "10.0.0.1:7947", some .new, some .new⟩ joinedAndLeft⟩
      allCommitted "n2" false).2 = .answered (.ok members) := by
  let := Unicode.ascii
  exact (leave_again_iff 0 "n1" "10.0.0.1:7947" (some .new) (some .new) joinedAndLeft ∅
    (by decide) rfl rfl allCommitted false).1.mpr (Or.inl (by decide))

omit [Unicode] in
/-- A replica that restored the snapshot of one that applied the log does not. -/
theorem left_not_in_snapshot :
    letI := Unicode.ascii
    let source := Fsm.replicaRun ⟨.new 0 "n1" "10.0.0.1:7947", some .new, some .new⟩ joinedAndLeft
    ∃ document, source.snapshot [] [] = .ok document ∧
      ∃ msg, (soleLeader.leave ⟨∅,
        Fsm.replicaRun ⟨.new 0 "n3" "10.0.0.3:7947", some .new, some .new⟩
          [.restore (fun _ => 2) (.ok document)]⟩ allCommitted "n2" false).2 =
            .answered (.error ⟨.notFound, msg⟩) := by
  let := Unicode.ascii
  intro source
  obtain ⟨valid, hsource⟩ := Fsm.standing_replicaRun 0 "n1" "10.0.0.1:7947" (some .new) (some .new)
    joinedAndLeft "n2"
  have taken : ∃ document, source.snapshot [] [] = .ok document := ⟨_, rfl⟩
  obtain ⟨document, taken⟩ := taken
  obtain ⟨valid', hheard⟩ := Fsm.standing_replicaRun 0 "n3" "10.0.0.3:7947" (some .new) (some .new)
    [.restore (fun _ => 2) (.ok document)] "n2"
  refine ⟨document, taken, (JoinService.leave_unserved rfl valid' (by decide) rfl _ _).2.mpr ?_⟩
  rw [hheard, ReplicaStep.heard, List.flatMap_singleton,
    ReplicaStep.foldl_snapshot valid taken (by decide), hsource]
  decide

end Clusdr
