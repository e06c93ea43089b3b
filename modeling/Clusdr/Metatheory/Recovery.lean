import Clusdr.Core.SnapshotText
import Clusdr.Metatheory.CommandLog
import Clusdr.Runs.Along

/-!
A node and its disk. The entries of the log and the latest snapshot are bytes; a
restarted node has new tables, restores the snapshot and applies the entries after
it. The commands of all entries, also of those a snapshot has replaced, say what the
tables should be.
-/

namespace Clusdr.Consensus

open Go (Time Unicode)
open Clusdr.Membership (Engine)

variable [Unicode]

/-- The latest snapshot, and the entries after it. -/
structure Disk where
  snapshot : Option (List Char)
  log : List (Option (List Char))

/-- The state machine of a node that is started on this disk, if it can be. -/
def Disk.load (d : Disk) (e : Engine) (restored applied : Nat → Time) : Option Fsm :=
  let entries := d.log.map LogEntry.ofData
  match d.snapshot with
  | none => some ((Fsm.fresh e).applyAll applied entries).1
  | some data =>
      match (Fsm.fresh e).restoreData restored data with
      | (f, .ok ()) => some (f.applyAll applied entries).1
      | (_, .error _) => none

/-- A node, with the answers it has given to the commands applied on it. -/
structure Replica where
  disk : Disk
  fsm : Option Fsm
  answers : List Response

inductive DiskEvent where
  /-- An entry is committed; `none` is one of Raft's own. -/
  | commit (entry : Option Command) (now : Time)
  /-- A snapshot is taken, the loops visiting the tables in this order. -/
  | snapshot (z : SnapshotZones) (locks : List Locks.Record) (leases : List Leases.Record)
  | restart (e : Engine) (restored applied : Nat → Time)

/-- The bytes of an entry. -/
def writeEntry : Option Command → Option (Option (List Char))
  | none => some none
  | some c => (encodeCommand c).map some

namespace Replica

def new (e : Engine) : Replica := ⟨⟨none, []⟩, some (Fsm.fresh e), []⟩

/-- A snapshot that cannot be written leaves the disk as it is. -/
def step (r : Replica) : DiskEvent → Replica
  | .commit entry now =>
      match r.fsm, writeEntry entry with
      | some f, some data =>
          let (f, response, _) := f.apply now (LogEntry.ofData data)
          { disk := { r.disk with log := r.disk.log ++ [data] }
            fsm := some f
            answers := r.answers ++ [response] }
      | _, _ => r
  | .snapshot z locks leases =>
      match r.fsm with
      | some f =>
          match f.snapshotData z locks leases with
          | .ok data => { r with disk := ⟨some data, []⟩ }
          | .error _ => r
      | none => r
  | .restart e restored applied => { r with fsm := r.disk.load e restored applied }

/-- The commands are those the code submits, and the zones of all times show whole minutes. -/
def May (r : Replica) : DiskEvent → Prop
  | .commit (some c) _ => c.kind ∈ CommandKind.known
  | .commit none _ => True
  | .snapshot z locks leases => z.Minutes ∧ ∀ f ∈ r.fsm, f.Visited locks leases
  | .restart _ _ _ => True

end Replica

/-- The entries committed in a run. -/
def committed : List DiskEvent → Submitted
  | [] => []
  | .commit entry _ :: es => entry :: committed es
  | .snapshot _ _ _ :: es => committed es
  | .restart _ _ _ :: es => committed es

omit [Unicode] in
theorem committed_append (xs ys : List DiskEvent) :
    committed (xs ++ ys) = committed xs ++ committed ys := by
  induction xs with
  | nil => rfl
  | cons x xs ih =>
      cases x with
      | commit entry now => exact congrArg (entry :: ·) ih
      | snapshot z locks leases => exact ih
      | restart e restored applied => exact ih

namespace Fsm

theorem applySubmitted_append (f : Fsm) (now : Nat → Time) (xs ys : Submitted) :
    f.applySubmitted now (xs ++ ys) =
      ((applySubmitted (f.applySubmitted now xs).1 (fun i => now (i + xs.length)) ys).1,
        (f.applySubmitted now xs).2 ++
          (applySubmitted (f.applySubmitted now xs).1 (fun i => now (i + xs.length)) ys).2) := by
  induction xs generalizing f now with
  | nil => rfl
  | cons entry xs ih =>
      cases entry with
      | none =>
          simp only [List.cons_append, applySubmitted, ih, List.length_cons, Nat.add_assoc]
      | some c =>
          simp only [List.cons_append, applySubmitted, ih, List.length_cons, Nat.add_assoc]

theorem applyAll_writeEntry {entry : Option Command} (known : Submitted.Known [entry])
    {data : Option (List Char)} (h : writeEntry entry = some data) (f : Fsm) (now : Nat → Time) :
    f.applyAll now [LogEntry.ofData data] = f.applySubmitted now [entry] := by
  have hwrite : Submitted.write [entry] = some [data] := by
    cases entry with
    | none =>
        obtain rfl := Option.some.inj h
        rfl
    | some c =>
        obtain ⟨text, htext, rfl⟩ := Option.map_eq_some_iff.mp h
        simp [Submitted.write, htext]
  exact applyAll_written known hwrite f now

/-- The replica has the tables of `g`, each record under its own name. -/
structure Serves (f g : Fsm) : Prop where
  same : SameTables f g
  keyed : KeyedTables f
  locks : f.locks.isSome
  leases : f.leases.isSome

omit [Unicode] in
theorem serves_fresh (e e' : Engine) : Serves (fresh e) (fresh e') :=
  ⟨⟨rfl, rfl⟩, keyed_fresh e, rfl, rfl⟩

theorem Serves.applyAll {f g : Fsm} (h : Serves f g) (now now' : Nat → Time)
    (log : List LogEntry) : Serves (f.applyAll now log).1 (g.applyAll now' log).1 := by
  obtain ⟨hlocks, hleases⟩ := f.applyAll_isSome now log
  exact ⟨(applyAll_congr h.same now now' log).1, keyed_applyAll h.keyed now log,
    hlocks.trans h.locks, hleases.trans h.leases⟩

omit [Unicode] in
/-- A new node that restores the payload of a replica has its tables. -/
theorem Serves.restorePayload {f g : Fsm} (h : Serves f g) {vl : List Locks.Record}
    {vs : List Leases.Record} (visited : Visited f vl vs) (e : Engine) (now : Nat → Time) :
    Serves ((fresh e).restorePayload now (f.snapshotPayload vl vs)) g := by
  obtain ⟨t, ht⟩ := Option.isSome_iff_exists.mp h.locks
  obtain ⟨u, hu⟩ := Option.isSome_iff_exists.mp h.leases
  have same : SameTables ((fresh e).restorePayload now (f.snapshotPayload vl vs)) f := by
    refine ⟨?_, ?_⟩
    · have hview := Locks.Table.view_restore (h.keyed.locks t ht) (visited.locks t ht)
      simp only [Fsm.restorePayload, snapshotPayload, fresh, ht, Option.map_some, Option.getD_some]
      exact congrArg some hview
    · have hview := Leases.Table.view_restore (h.keyed.leases u hu) (visited.leases u hu)
      simp only [Fsm.restorePayload, snapshotPayload, fresh, hu, Option.map_some, Option.getD_some]
      exact congrArg some hview
  exact ⟨same.trans h.same, keyed_restorePayload _ now _, rfl, rfl⟩

/-- The tables stand for the same registers and the same expiries are due. -/
structure Agrees (f g : Fsm) : Prop where
  same : SameTables f g
  dueLocks : ∀ now, f.dueLocks now = g.dueLocks now
  dueLeases : ∀ now, f.dueLeases now = g.dueLeases now

omit [Unicode] in
theorem Serves.agrees {f g : Fsm} (h : Serves f g) (keyed : KeyedTables g) : Agrees f g := by
  refine ⟨h.same, fun now => ?_, fun now => ?_⟩
  · rw [dueLocks_eq h.keyed, dueLocks_eq keyed, h.same.locks]
  · rw [dueLeases_eq h.keyed, dueLeases_eq keyed, h.same.leases]

end Fsm

namespace Replica

open Fsm (Serves)

/-- The replica runs with the tables of `g`, and would after a restart at any time. -/
structure Keeps (r : Replica) (g : Fsm) : Prop where
  running : ∃ f, r.fsm = some f ∧ Serves f g
  loads : ∀ e restored applied, ∃ f, r.disk.load e restored applied = some f ∧ Serves f g

theorem keeps_new (e e' : Engine) : Keeps (new e) (Fsm.fresh e') :=
  ⟨⟨_, rfl, Fsm.serves_fresh e e'⟩, fun e _ _ => ⟨_, rfl, Fsm.serves_fresh e e'⟩⟩

/-- One more entry in the log is one more entry applied. -/
theorem load_concat {d : Disk} {e : Engine} {restored applied : Nat → Time} {f : Fsm}
    (h : d.load e restored applied = some f) (data : Option (List Char)) :
    Disk.load { d with log := d.log ++ [data] } e restored applied =
      some (f.applyAll (fun i => applied (i + d.log.length)) [LogEntry.ofData data]).1 := by
  have happly : ∀ g : Fsm, (g.applyAll applied ((d.log ++ [data]).map LogEntry.ofData)).1 =
      ((g.applyAll applied (d.log.map LogEntry.ofData)).1.applyAll
        (fun i => applied (i + d.log.length)) [LogEntry.ofData data]).1 := by
    intro g
    rw [List.map_append, Fsm.applyAll_append, List.length_map]
    rfl
  unfold Disk.load at h ⊢
  cases hsnapshot : d.snapshot with
  | none =>
      rw [hsnapshot] at h
      obtain rfl := Option.some.inj h
      exact congrArg some (happly _)
  | some bytes =>
      rw [hsnapshot] at h
      dsimp only at h ⊢
      cases hrestored : (Fsm.fresh e).restoreData restored bytes with
      | mk g result =>
          rw [hrestored] at h
          cases result with
          | error err => cases h
          | ok u =>
              obtain rfl := Option.some.inj h
              exact congrArg some (happly _)

omit [Unicode] in
theorem exists_writeEntry (entry : Option Command) : ∃ data, writeEntry entry = some data := by
  cases entry with
  | none => exact ⟨none, rfl⟩
  | some c =>
      obtain ⟨text, htext, -⟩ := exists_encodeCommand c
      exact ⟨some text, by rw [writeEntry, htext, Option.map_some]⟩

theorem step_commit {r : Replica} {f : Fsm} (running : r.fsm = some f) {entry : Option Command}
    {data : Option (List Char)} (written : writeEntry entry = some data) (now : Time) :
    r.step (.commit entry now) =
      { disk := { r.disk with log := r.disk.log ++ [data] }
        fsm := some (f.applyAll (fun _ => now) [LogEntry.ofData data]).1
        answers := r.answers ++ (f.applyAll (fun _ => now) [LogEntry.ofData data]).2 } := by
  simp only [step, running, written]
  rfl

/-- The state machine applies the command that was submitted. -/
theorem fsm_commit {r : Replica} {f : Fsm} (running : r.fsm = some f) {entry : Option Command}
    (known : Submitted.Known [entry]) (now : Time) :
    (r.step (.commit entry now)).fsm = some (f.applySubmitted (fun _ => now) [entry]).1 := by
  obtain ⟨data, hdata⟩ := exists_writeEntry entry
  rw [step_commit running hdata, Fsm.applyAll_writeEntry known hdata]

theorem Keeps.commit {r : Replica} {g : Fsm} (h : Keeps r g) {entry : Option Command}
    (known : Submitted.Known [entry]) (now : Time) (clock : Nat → Time) :
    Keeps (r.step (.commit entry now)) (g.applySubmitted clock [entry]).1 ∧
      (r.step (.commit entry now)).answers =
        r.answers ++ (g.applySubmitted clock [entry]).2 := by
  obtain ⟨f, hf, serves⟩ := h.running
  obtain ⟨data, hdata⟩ := exists_writeEntry entry
  have hgoal := Fsm.applyAll_writeEntry known hdata g clock
  rw [step_commit hf hdata, ← hgoal]
  refine ⟨⟨⟨_, rfl, serves.applyAll _ _ _⟩, ?_⟩, ?_⟩
  · intro e restored applied
    obtain ⟨f', hload, serves'⟩ := h.loads e restored applied
    exact ⟨_, load_concat hload data, serves'.applyAll _ _ _⟩
  · exact congrArg (r.answers ++ ·) (Fsm.applyAll_congr serves.same _ _ _).2

theorem Keeps.snapshot {r : Replica} {g : Fsm} (h : Keeps r g) {z : SnapshotZones}
    (minutes : z.Minutes) {vl : List Locks.Record} {vs : List Leases.Record}
    (visited : ∀ f ∈ r.fsm, f.Visited vl vs) :
    Keeps (r.step (.snapshot z vl vs)) g ∧
      (r.step (.snapshot z vl vs)).answers = r.answers := by
  obtain ⟨f, hf, serves⟩ := h.running
  cases htaken : f.snapshotData z vl vs with
  | error err =>
      have hstep : r.step (.snapshot z vl vs) = r := by
        simp only [step, hf, htaken]
      rw [hstep]
      exact ⟨h, rfl⟩
  | ok data =>
      have hstep : r.step (.snapshot z vl vs) = { r with disk := ⟨some data, []⟩ } := by
        simp only [step, hf, htaken]
      rw [hstep]
      refine ⟨⟨⟨f, hf, serves⟩, ?_⟩, rfl⟩
      intro e restored applied
      have hrestore := Fsm.restoreData_snapshotData htaken (Fsm.fresh e) restored
      rw [SnapshotPayload.moved_minutes minutes] at hrestore
      refine ⟨_, ?_, serves.restorePayload (visited f hf) e restored⟩
      simp only [Disk.load, hrestore]
      rfl

theorem Keeps.restart {r : Replica} {g : Fsm} (h : Keeps r g) (e : Engine)
    (restored applied : Nat → Time) : Keeps (r.step (.restart e restored applied)) g :=
  ⟨h.loads e restored applied, h.loads⟩

/-- What a run has to come to: the tables and answers of the commands applied in memory. -/
def Recovers (e : Engine) (clock : Nat → Time) (past : List DiskEvent) (r : Replica) : Prop :=
  let memory := (Fsm.fresh e).applySubmitted clock (committed past)
  Keeps r memory.1 ∧ r.answers = memory.2 ∧ memory.1.KeyedTables

theorem recovers_step {e : Engine} {clock : Nat → Time} {past : List DiskEvent} {r : Replica}
    {event : DiskEvent} (h : Recovers e clock past r) (may : r.May event) :
    Recovers e clock (past ++ [event]) (r.step event) := by
  obtain ⟨keeps, answers, keyed⟩ := h
  unfold Recovers
  rw [committed_append]
  cases event with
  | commit entry now =>
      have known : Submitted.Known [entry] := by
        intro c hc
        obtain rfl := List.mem_singleton.mp hc
        exact may
      obtain ⟨hkeeps, hanswers⟩ :=
        keeps.commit known now fun i => clock (i + (committed past).length)
      simp only [committed, Fsm.applySubmitted_append]
      refine ⟨hkeeps, by rw [hanswers, answers], ?_⟩
      cases entry with
      | none => exact keyed
      | some c => exact Fsm.keyed_applyCommand keyed _ c
  | snapshot z locks leases =>
      obtain ⟨hkeeps, hanswers⟩ := keeps.snapshot may.1 may.2
      simp only [committed, List.append_nil]
      exact ⟨hkeeps, hanswers.trans answers, keyed⟩
  | restart e' restored applied =>
      simp only [committed, List.append_nil]
      exact ⟨keeps.restart e' restored applied, answers, keyed⟩

/-- However often a node takes snapshots and restarts, it comes up from its disk at any
time, and has answered and holds what applying the commands in memory gives. -/
theorem restarts_lose_nothing (first memory : Engine) (clock : Nat → Time)
    (events : List DiskEvent) (may : Runs.Along step May (new first) events) :
    let r := Runs.run step (new first) events
    let applied := (Fsm.fresh memory).applySubmitted clock (committed events)
    r.answers = applied.2 ∧ (∃ f, r.fsm = some f ∧ f.Agrees applied.1) ∧
      ∀ e restored replayed, ∃ f, r.disk.load e restored replayed = some f ∧
        f.Agrees applied.1 := by
  intro r applied
  have init : Recovers memory clock [] (new first) :=
    ⟨keeps_new first memory, rfl, Fsm.keyed_fresh memory⟩
  obtain ⟨keeps, answers, keyed⟩ :=
    Runs.invariant (Recovers memory clock) init (fun _ _ _ => recovers_step) may
  refine ⟨answers, ?_, ?_⟩
  · obtain ⟨f, hf, serves⟩ := keeps.running
    exact ⟨f, hf, serves.agrees keyed⟩
  · intro e restored replayed
    obtain ⟨f, hf, serves⟩ := keeps.loads e restored replayed
    exact ⟨f, hf, serves.agrees keyed⟩

/-- A lock is granted, a snapshot is taken half an hour off the full hours of UTC, the lock
is renewed and the node restarts. -/
def halfHourRun : List DiskEvent :=
  [.commit (some
      { kind := .lockAcquire, id := "a", name := "job", ttlMs := 5, deadlineUnixMs := 10 }) 7,
    .snapshot ⟨fun _ => ⟨19800, 19800⟩, fun _ => ⟨19800, 19800⟩⟩
      [⟨"job", "a", 1, 7, 10000000, 5000000⟩] [],
    .commit (some
      { kind := .lockRenew, id := "a", name := "job", token := 1, deadlineUnixMs := 20 }) 9,
    .restart (.new 0 "n1" "") (fun _ => 11) (fun _ => 12)]

omit [Unicode] in
theorem restarts_lose_nothing_halfHour : letI := Unicode.ascii
    (Runs.run step (new (.new 0 "n1" "")) halfHourRun).disk.snapshot.isSome = true ∧
      Runs.Along step May (new (.new 0 "n1" "")) halfHourRun ∧
      ∃ f, (Runs.run step (new (.new 0 "n1" "")) halfHourRun).fsm = some f ∧
        f.Agrees ((Fsm.fresh (.new 0 "n2" "")).applySubmitted (fun _ => 0)
          (committed halfHourRun)).1 := by
  let := Unicode.ascii
  have may : Runs.Along step May (new (.new 0 "n1" "")) halfHourRun := by
    have acquire : CommandKind.lockAcquire ∈ CommandKind.known := by decide
    have renew : CommandKind.lockRenew ∈ CommandKind.known := by decide
    refine ⟨acquire, ⟨⟨fun _ => ⟨rfl, rfl⟩, fun _ => ⟨rfl, rfl⟩⟩, ?_⟩, renew, trivial, trivial⟩
    intro f hf
    have known : Submitted.Known [some
        { kind := .lockAcquire, id := "a", name := "job", ttlMs := 5, deadlineUnixMs := 10 }] := by
      intro c hc
      obtain rfl := Option.some.inj (List.mem_singleton.mp hc)
      exact acquire
    rw [fsm_commit rfl known] at hf
    obtain rfl := Option.some.inj hf
    exact ⟨by rintro t ⟨⟩; rfl, by rintro t ⟨⟩; rfl⟩
  exact ⟨by decide +kernel, may,
    (restarts_lose_nothing (.new 0 "n1" "") (.new 0 "n2" "") (fun _ => 0) halfHourRun may).2.1⟩

end Replica

end Clusdr.Consensus
