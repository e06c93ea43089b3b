import Clusdr.Metatheory.TableEntries
import Clusdr.Metatheory.TableHalves

/-!
A snapshot stands for the log prefix it was taken after. A replica that restores
it, whatever its tables held before, answers the rest of the log as a replica
that applied the whole log does, and ends with the same registers. The clocks of
the replicas take no part in it.
-/

namespace Clusdr

open Go (Json Time Unicode)
open Fencing (Grant Register)

variable [Unicode]

namespace Consensus.Fsm

open Clusdr.Membership (Engine)

/-- A node that starts with empty tables. -/
def fresh (e : Engine) : Fsm := ⟨e, some .new, some .new⟩

/-- Applying a log; the `i`-th entry is applied at clock reading `now i`. -/
def applyAll (f : Fsm) (now : Nat → Time) : List LogEntry → Fsm × List Response
  | [] => (f, [])
  | entry :: log =>
      let (f, response, _) := f.apply (now 0) entry
      let (f, responses) := applyAll f (fun i => now (i + 1)) log
      (f, response :: responses)

theorem applyAll_append (f : Fsm) (now : Nat → Time) (xs ys : List LogEntry) :
    f.applyAll now (xs ++ ys) =
      ((applyAll (f.applyAll now xs).1 (fun i => now (i + xs.length)) ys).1,
        (f.applyAll now xs).2 ++
          (applyAll (f.applyAll now xs).1 (fun i => now (i + xs.length)) ys).2) := by
  induction xs generalizing f now with
  | nil => rfl
  | cons entry xs ih =>
      simp only [List.cons_append, applyAll, ih, List.length_cons, Nat.add_assoc]

theorem length_applyAll (f : Fsm) (now : Nat → Time) (log : List LogEntry) :
    (f.applyAll now log).2.length = log.length := by
  induction log generalizing f now with
  | nil => rfl
  | cons entry log ih => simp only [applyAll, List.length_cons, ih]

/-- Every record of the two tables is stored under its own name. -/
structure KeyedTables (f : Fsm) : Prop where
  locks : ∀ t ∈ f.locks, t.locks.Keyed Locks.Record.name
  leases : ∀ t ∈ f.leases, t.leases.Keyed Leases.Record.name

omit [Unicode] in
theorem keyed_fresh (e : Engine) : KeyedTables (fresh e) := by
  refine ⟨?_, ?_⟩
  · rintro t ⟨⟩
    exact Locks.keyed_new
  · rintro t ⟨⟩
    exact Leases.keyed_new

theorem keyed_applyCommand {f : Fsm} (keyed : KeyedTables f) (now : Time) (cmd : Command) :
    KeyedTables (f.applyCommand now cmd).1 := by
  refine ⟨?_, ?_⟩
  · intro t ht
    rw [applyCommand_locks, Option.mem_def, Option.map_eq_some_iff] at ht
    obtain ⟨u, hu, rfl⟩ := ht
    rw [lockCommand_act]
    cases cmd.lockAction now with
    | none => exact keyed.locks u hu
    | some a => exact Locks.Table.keyed_act (keyed.locks u hu) a
  · intro t ht
    rw [applyCommand_leases, Option.mem_def, Option.map_eq_some_iff] at ht
    obtain ⟨u, hu, rfl⟩ := ht
    rw [leaseCommand_act]
    cases cmd.leaseAction now with
    | none => exact keyed.leases u hu
    | some a => exact Leases.Table.keyed_act (keyed.leases u hu) a

theorem keyed_apply {f : Fsm} (keyed : KeyedTables f) (now : Time) (entry : LogEntry) :
    KeyedTables (f.apply now entry).1 := by
  cases entry with
  | other => exact keyed
  | command data =>
      simp only [apply]
      cases data.bind Command.decode with
      | error e => exact keyed
      | ok cmd => exact keyed_applyCommand keyed now cmd

theorem keyed_applyAll {f : Fsm} (keyed : KeyedTables f) (now : Nat → Time)
    (log : List LogEntry) : KeyedTables (f.applyAll now log).1 := by
  induction log generalizing f now with
  | nil => exact keyed
  | cons entry log ih => exact ih (keyed_apply keyed (now 0) entry) fun i => now (i + 1)

omit [Unicode] in
theorem keyed_restorePayload (f : Fsm) (now : Nat → Time) (payload : SnapshotPayload) :
    KeyedTables (f.restorePayload now payload) := by
  refine ⟨?_, ?_⟩
  · intro t ht
    obtain ⟨u, -, rfl⟩ := Option.map_eq_some_iff.mp ht
    exact Go.Map.keyed_ofList Locks.Record.name payload.locks
  · intro t ht
    obtain ⟨u, -, rfl⟩ := Option.map_eq_some_iff.mp ht
    exact Go.Map.keyed_ofList Leases.Record.name payload.leases

/-- What `Due` answers on a replica, up to the replica's own grant times. -/
def dueLocks (f : Fsm) (now : Time) : Option (List (String × Grant String Lifetime)) :=
  f.locks.map fun t => (t.due now).map Locks.Record.entry

def dueLeases (f : Fsm) (now : Time) : Option (List (String × Grant String Lifetime)) :=
  f.leases.map fun t => (t.due now).map Leases.Record.entry

omit [Unicode] in
theorem dueLocks_eq {f : Fsm} (keyed : KeyedTables f) (now : Time) :
    f.dueLocks now = (f.locks.map Locks.Table.view).map fun r => dueEntries r now := by
  rw [dueLocks, Option.map_map]
  exact Option.map_congr fun t ht => Locks.Table.due_entries (keyed.locks t ht) now

omit [Unicode] in
theorem dueLeases_eq {f : Fsm} (keyed : KeyedTables f) (now : Time) :
    f.dueLeases now = (f.leases.map Leases.Table.view).map fun r => dueEntries r now := by
  rw [dueLeases, Option.map_map]
  exact Option.map_congr fun t ht => Leases.Table.due_entries (keyed.leases t ht) now

/-- The loops of `SnapshotCopy` visit each table in some order. -/
structure Visited (f : Fsm) (locks : List Locks.Record) (leases : List Leases.Record) :
    Prop where
  locks : ∀ t ∈ f.locks, t.locks.Ranges locks
  leases : ∀ t ∈ f.leases, t.leases.Ranges leases

omit [Unicode] in
/-- A restored replica has the registers of the one the snapshot was taken on. -/
theorem restore_snapshot {f : Fsm} {vl : List Locks.Record} {vs : List Leases.Record}
    {document : Json} (keyed : KeyedTables f) (visited : Visited f vl vs)
    (hasLocks : f.locks.isSome) (hasLeases : f.leases.isSome)
    (taken : f.snapshot vl vs = .ok document) (e : Engine) (oldLocks : Locks.Table)
    (oldLeases : Leases.Table) (now : Nat → Time) :
    (restore ⟨e, some oldLocks, some oldLeases⟩ now (.ok document)).2 = .ok () ∧
      SameTables (restore ⟨e, some oldLocks, some oldLeases⟩ now (.ok document)).1 f ∧
      KeyedTables (restore ⟨e, some oldLocks, some oldLeases⟩ now (.ok document)).1 := by
  obtain ⟨t, ht⟩ := Option.isSome_iff_exists.mp hasLocks
  obtain ⟨u, hu⟩ := Option.isSome_iff_exists.mp hasLeases
  rw [restore_document taken]
  refine ⟨rfl, ⟨?_, ?_⟩, keyed_restorePayload _ now _⟩
  · have hview := Locks.Table.view_restore (keyed.locks t ht) (visited.locks t ht)
    simp only [restorePayload, snapshotPayload, ht, Option.map_some, Option.getD_some]
    exact congrArg some hview
  · have hview := Leases.Table.view_restore (keyed.leases u hu) (visited.leases u hu)
    simp only [restorePayload, snapshotPayload, hu, Option.map_some, Option.getD_some]
    exact congrArg some hview

theorem applyAll_isSome (f : Fsm) (now : Nat → Time) (log : List LogEntry) :
    (f.applyAll now log).1.locks.isSome = f.locks.isSome ∧
      (f.applyAll now log).1.leases.isSome = f.leases.isSome := by
  induction log generalizing f now with
  | nil => exact ⟨rfl, rfl⟩
  | cons entry log ih =>
      obtain ⟨hlocks, hleases⟩ := ih (f.apply (now 0) entry).1 fun i => now (i + 1)
      refine ⟨hlocks.trans ?_, hleases.trans ?_⟩
      all_goals
        cases entry with
        | other => rfl
        | command data =>
            simp only [apply]
            cases data.bind Command.decode with
            | error e => rfl
            | ok cmd =>
                simp only [applyCommand_locks, applyCommand_leases, Option.isSome_map]

theorem applyAll_congr {f g : Fsm} (same : SameTables f g) (now now' : Nat → Time)
    (log : List LogEntry) :
    SameTables (f.applyAll now log).1 (g.applyAll now' log).1 ∧
      (f.applyAll now log).2 = (g.applyAll now' log).2 := by
  induction log generalizing f g now now' with
  | nil => exact ⟨same, rfl⟩
  | cons entry log ih =>
      obtain ⟨hsame, hresponse⟩ := apply_congr same (now 0) (now' 0) entry
      obtain ⟨htables, hresponses⟩ := ih hsame (fun i => now (i + 1)) (fun i => now' (i + 1))
      exact ⟨htables, by simp only [applyAll, hresponse, hresponses]⟩

/-- A replica that restores the snapshot of a log prefix and applies the rest
answers the rest as a replica that applied the whole log, and ends with the same
registers and the same expiries due at every instant. -/
theorem snapshot_suffix_eq_replay (source full restoring : Engine) (oldLocks : Locks.Table)
    (oldLeases : Leases.Table) (sourceClock fullClock restoreClock restClock : Nat → Time)
    (applied rest : List LogEntry) (vl : List Locks.Record) (vs : List Leases.Record)
    (document : Json)
    (visited : Visited ((fresh source).applyAll sourceClock applied).1 vl vs)
    (taken : ((fresh source).applyAll sourceClock applied).1.snapshot vl vs = .ok document) :
    let restored := restore ⟨restoring, some oldLocks, some oldLeases⟩ restoreClock (.ok document)
    let short := restored.1.applyAll restClock rest
    let long := (fresh full).applyAll fullClock (applied ++ rest)
    restored.2 = .ok () ∧ short.2 = long.2.drop applied.length ∧ SameTables short.1 long.1 ∧
      ∀ now, short.1.dueLocks now = long.1.dueLocks now ∧
        short.1.dueLeases now = long.1.dueLeases now := by
  intro restored short long
  have hsome := (fresh source).applyAll_isSome sourceClock applied
  obtain ⟨hok, hrestored, hkeyed⟩ := restore_snapshot
    (keyed_applyAll (keyed_fresh source) sourceClock applied) visited hsome.1 hsome.2 taken
    restoring oldLocks oldLeases restoreClock
  have happlied : SameTables restored.1 ((fresh full).applyAll fullClock applied).1 :=
    hrestored.trans (applyAll_congr (f := fresh source) (g := fresh full) ⟨rfl, rfl⟩
      sourceClock fullClock applied).1
  obtain ⟨htables, hresponses⟩ := applyAll_congr happlied restClock
    (fun i => fullClock (i + applied.length)) rest
  have hlong : long = _ := applyAll_append (fresh full) fullClock applied rest
  have hsame : SameTables short.1 long.1 := by
    rw [hlong]
    exact htables
  have hshort : KeyedTables short.1 := keyed_applyAll hkeyed restClock rest
  have hkeyedLong : KeyedTables long.1 :=
    keyed_applyAll (keyed_fresh full) fullClock (applied ++ rest)
  refine ⟨hok, ?_, hsame, fun now => ⟨?_, ?_⟩⟩
  · rw [hlong, List.drop_left' (length_applyAll (fresh full) fullClock applied)]
    exact hresponses
  · rw [dueLocks_eq hshort, dueLocks_eq hkeyedLong, hsame.locks]
  · rw [dueLeases_eq hshort, dueLeases_eq hkeyedLong, hsame.leases]

/-- A lock and a lease, granted on one node. -/
def grantedLog : List LogEntry :=
  [.command (.ok (Command.encode
      { kind := .lockAcquire, id := "a", name := "job", ttlMs := 5, deadlineUnixMs := 10 })),
    .command (.ok (Command.encode
      { kind := .leaseGrant, id := "b", name := "w", ttlMs := 5, deadlineUnixMs := 10 }))]

def renewedLog : List LogEntry :=
  [.command (.ok (Command.encode
      { kind := .lockRenew, id := "a", name := "job", token := 1, deadlineUnixMs := 20 })),
    .command (.ok (Command.encode { kind := .leaseRevoke, id := "a", name := "w", token := 1 }))]

omit [Unicode] in
theorem snapshot_suffix_eq_replay_renewed : letI := Unicode.ascii
    ∃ document,
      (applyAll (fresh (.new 0 "n1" "")) (fun _ => 7) grantedLog).1.snapshot
          [⟨"job", "a", 1, 7, 10000000, 5000000⟩] [⟨"w", "b", 1, 7, 10000000, 5000000⟩] =
        .ok document ∧
      SameTables
        (applyAll (restore ⟨.new 0 "n2" "", some ⟨∅, 9, 0⟩, some ⟨∅, 9⟩⟩ (fun _ => 8)
          (.ok document)).1 (fun _ => 8) renewedLog).1
        (applyAll (fresh (.new 0 "n3" "")) (fun _ => 6) (grantedLog ++ renewedLog)).1 := by
  obtain ⟨document, taken⟩ : ∃ document,
      (@applyAll .ascii (fresh (.new 0 "n1" "")) (fun _ => 7) grantedLog).1.snapshot
          [⟨"job", "a", 1, 7, 10000000, 5000000⟩] [⟨"w", "b", 1, 7, 10000000, 5000000⟩] =
        .ok document := ⟨_, rfl⟩
  refine ⟨document, taken, ?_⟩
  exact (@snapshot_suffix_eq_replay .ascii (.new 0 "n1" "") (.new 0 "n3" "") (.new 0 "n2" "")
    ⟨∅, 9, 0⟩ ⟨∅, 9⟩ (fun _ => 7) (fun _ => 6) (fun _ => 8) (fun _ => 8) grantedLog renewedLog
    _ _ document ⟨by rintro t ⟨⟩; rfl, by rintro t ⟨⟩; rfl⟩ taken).2.2.1

end Consensus.Fsm

end Clusdr
