import Clusdr.Fencing.Archive
import Clusdr.Metatheory.TableEntries
import Clusdr.Runs.Machine

/-!
The lock table and the lease table are one table. Both packages keep their own
copy of it; each copy answers as one register with saved registers does, so run
side by side on matching calls they answer alike and hold the same grants under
the same counter. Times of creation, error texts, waiters and emitted events are
not compared.
-/

namespace Clusdr

open Go (Time Duration Unicode)
open Fencing (Grant Kept Policy Register Reply)

namespace Twin

/-- A matching pair of calls. Each table reads its own clock when it creates a record
and visits its own map when it is copied. A snapshot to restore is one saved earlier,
or one that came from elsewhere. -/
inductive Call where
  | take (locksNow leasesNow : Time) (name holder : String) (deadline : Time) (ttl : Duration)
  | drop (name holder : String) (token : UInt64)
  | renew (name holder : String) (token : UInt64) (deadline : Time) (ttl : Duration)
  | expire (name : String) (token : UInt64)
  | due (now : Time)
  | get (name : String)
  | list
  | save (locks : List Locks.Record) (leases : List Leases.Record)
  | restore (i : Nat)
  | install (locks : List Locks.Record) (leases : List Leases.Record) (next : UInt64)

/-- What a call returns. A snapshot lists its entries in no order. -/
inductive Answer where
  | taken (result : Option (UInt64 × Bool))
  | done (ok : Bool)
  | expired (dropped : Bool)
  | records (entries : List (String × Grant String Lifetime))
  | record (entry : Option (String × Grant String Lifetime))
  | snapshot (entries : Multiset (String × Grant String Lifetime)) (next : UInt64)
  | replaced

def takenAnswer : Reply → Option (UInt64 × Bool)
  | .taken token => some (token, true)
  | .held token => some (token, false)
  | .refused _ => none
  | .done | .expired _ => some (0, false)

def doneAnswer : Reply → Bool
  | .refused _ => false
  | _ => true

def expiredAnswer : Reply → Bool
  | .expired dropped => dropped
  | _ => false

/-- A register with the registers saved so far. -/
abbrev State := Kept (Register String String Lifetime) (Register String String Lifetime)

/-- The table both are copies of. -/
def answer (p : Policy String String) (k : State) : Call → State × Answer
  | .take _ _ name holder deadline ttl =>
      let res := Register.step p k.state (.take name holder ⟨deadline, ttl⟩)
      ({ k with state := res.1 }, .taken (takenAnswer res.2))
  | .drop name holder token =>
      let res := Register.step p k.state (.drop name holder token)
      ({ k with state := res.1 }, .done (doneAnswer res.2))
  | .renew name holder token deadline ttl =>
      let res := Register.step p k.state (.renew name holder token ⟨deadline, ttl⟩)
      ({ k with state := res.1 }, .done (doneAnswer res.2))
  | .expire name token =>
      let res := Register.step p k.state (.expire name token)
      ({ k with state := res.1 }, .expired (expiredAnswer res.2))
  | .due now => (k, .records (dueEntries k.state now))
  | .get name => (k, .record ((k.state.grants.get name).map fun g => (name, g)))
  | .list => (k, .records (entries k.state).sorted)
  | .save _ _ =>
      ({ k with saved := k.saved ++ [k.state] }, .snapshot (entries k.state).values k.state.next)
  | .restore i =>
      match k.saved[i]? with
      | some r => ({ k with state := r }, .replaced)
      | none => (k, .replaced)
  | .install records _ next =>
      ({ k with state := restored (records.map Locks.Record.entry) next }, .replaced)

end Twin

open Twin (Answer Call)

namespace Locks

/-- What the lock table and its snapshots stand for. -/
def registers (k : Kept Table Snapshot) : Twin.State :=
  ⟨k.state.view, k.saved.map Snapshot.content⟩

variable [Unicode]

/-- The lock table's side of a call. -/
def answer (k : Kept Table Snapshot) : Call → Kept Table Snapshot × Answer
  | .take now _ name holder deadline ttl =>
      let res := k.state.acquire now name holder deadline ttl
      ({ k with state := res.1 }, .taken res.2.toOption)
  | .drop name holder token =>
      let res := k.state.release name holder token
      ({ k with state := res.1 }, .done res.2.isOk)
  | .renew name holder token deadline ttl =>
      let res := k.state.renew name holder token deadline ttl
      ({ k with state := res.1 }, .done res.2.isOk)
  | .expire name token =>
      let res := k.state.expire name token
      ({ k with state := res.1 }, .expired res.2.1)
  | .due now => (k, .records ((k.state.due now).map Record.entry))
  | .get name => (k, .record ((k.state.get name).map Record.entry))
  | .list => (k, .records (k.state.list.map Record.entry))
  | .save visited _ =>
      let snap := k.state.snapshotCopy visited
      ({ k with saved := k.saved ++ [snap] }, .snapshot (snap.locks.map Record.entry) snap.next)
  | .restore i =>
      match k.saved[i]? with
      | some snap => ({ k with state := k.state.restore snap }, .replaced)
      | none => (k, .replaced)
  | .install records _ next => ({ k with state := k.state.restore ⟨records, next⟩ }, .replaced)

theorem takenResult_toOption (name : String) (r : Reply) :
    (Table.takenResult name r).toOption = Twin.takenAnswer r := by
  cases r <;> rfl

theorem doneResult_isOk (name : String) (r : Reply) :
    (Table.doneResult name r).isOk = Twin.doneAnswer r := by
  cases r <;> rfl

omit [Unicode] in
theorem expiredResult_eq (r : Reply) : Table.expiredResult r = Twin.expiredAnswer r := by
  cases r <;> rfl

/-- A copy visits the records the table has. -/
def Visits (k : Kept Table Snapshot) : Call → Prop
  | .save visited _ => k.state.locks.Ranges visited
  | _ => True

/-- The lock table answers as the register it stands for. -/
theorem answer_registers {k : Kept Table Snapshot} (keyed : k.state.locks.Keyed Record.name)
    {c : Call} (may : Visits k c) :
    (registers (answer k c).1, (answer k c).2) = Twin.answer policy (registers k) c := by
  cases c with
  | take now now' name holder deadline ttl =>
      obtain ⟨hview, hres⟩ := k.state.acquire_step now name holder deadline ttl
      simp only [answer, registers, Twin.answer, hview, hres, takenResult_toOption]
  | drop name holder token =>
      obtain ⟨hview, hres⟩ := k.state.release_step name holder token
      simp only [answer, registers, Twin.answer, hview, hres, doneResult_isOk]
  | renew name holder token deadline ttl =>
      obtain ⟨hview, hres⟩ := k.state.renew_step name holder token deadline ttl
      simp only [answer, registers, Twin.answer, hview, hres, doneResult_isOk]
  | expire name token =>
      obtain ⟨hview, hres⟩ := k.state.expire_step name token
      simp only [answer, registers, Twin.answer, hview, hres, expiredResult_eq]
  | due now => simp only [answer, registers, Twin.answer, Table.due_entries keyed]
  | get name => simp only [answer, registers, Twin.answer, Table.get_entry keyed]
  | list => simp only [answer, registers, Twin.answer, Table.list_entries keyed]
  | save visited other =>
      have hcopy : (Snapshot.mk visited k.state.next).content = k.state.view :=
        (Table.view_restore_content k.state _).symm.trans (Table.view_restore keyed may)
      simp only [answer, registers, Twin.answer, List.map_append, List.map_cons, List.map_nil,
        Table.snapshotCopy, hcopy, Table.ranges_entries keyed may]
      rfl
  | restore i =>
      simp only [answer, registers, Twin.answer, List.getElem?_map]
      cases k.saved[i]? with
      | none => rfl
      | some snap => simp only [Option.map_some, Table.view_restore_content]
  | install records other next =>
      simp only [answer, registers, Twin.answer, Table.view_restore_content]
      rfl

theorem keyed_answer {k : Kept Table Snapshot} (keyed : k.state.locks.Keyed Record.name)
    (c : Call) : (answer k c).1.state.locks.Keyed Record.name := by
  cases c with
  | take now now' name holder deadline ttl =>
      exact Table.keyed_act keyed (.acquire now name holder deadline ttl)
  | drop name holder token => exact Table.keyed_act keyed (.release name holder token)
  | renew name holder token deadline ttl =>
      exact Table.keyed_act keyed (.renew name holder token deadline ttl)
  | expire name token => exact Table.keyed_act keyed (.expire name token)
  | due | get | list | save => exact keyed
  | restore i =>
      simp only [answer]
      cases k.saved[i]? with
      | none => exact keyed
      | some snap => exact Go.Map.keyed_ofList _ _
  | install records other next => exact Go.Map.keyed_ofList _ _

end Locks

namespace Leases

/-- What the lease table and its snapshots stand for. -/
def registers (k : Kept Table Snapshot) : Twin.State :=
  ⟨k.state.view, k.saved.map Snapshot.content⟩

variable [Unicode]

/-- The lease table's side of a call. -/
def answer (k : Kept Table Snapshot) : Call → Kept Table Snapshot × Answer
  | .take _ now name owner deadline ttl =>
      let res := k.state.grant now name owner deadline ttl
      ({ k with state := res.1 }, .taken res.2.1.toOption)
  | .drop name owner token =>
      let res := k.state.revoke name owner token
      ({ k with state := res.1 }, .done res.2.1.isOk)
  | .renew name owner token deadline ttl =>
      let res := k.state.renew name owner token deadline ttl
      ({ k with state := res.1 }, .done res.2.isOk)
  | .expire name token =>
      let res := k.state.expire name token
      ({ k with state := res.1 }, .expired res.2.1)
  | .due now => (k, .records ((k.state.due now).map Record.entry))
  | .get name => (k, .record ((k.state.get name).map Record.entry))
  | .list => (k, .records (k.state.list.map Record.entry))
  | .save _ visited =>
      let snap := k.state.snapshotCopy visited
      ({ k with saved := k.saved ++ [snap] }, .snapshot (snap.leases.map Record.entry) snap.next)
  | .restore i =>
      match k.saved[i]? with
      | some snap => ({ k with state := k.state.restore snap }, .replaced)
      | none => (k, .replaced)
  | .install _ records next => ({ k with state := k.state.restore ⟨records, next⟩ }, .replaced)

theorem takenResult_toOption (name : String) (r : Reply) :
    (Table.takenResult name r).toOption = Twin.takenAnswer r := by
  cases r <;> rfl

theorem doneResult_isOk (name : String) (r : Reply) :
    (Table.doneResult name r).isOk = Twin.doneAnswer r := by
  cases r <;> rfl

omit [Unicode] in
theorem expiredResult_eq (r : Reply) : Table.expiredResult r = Twin.expiredAnswer r := by
  cases r <;> rfl

/-- A copy visits the records the table has, and snapshots from elsewhere match. -/
def Visits (k : Kept Table Snapshot) : Call → Prop
  | .save _ visited => k.state.leases.Ranges visited
  | .install others records _ => others.map Locks.Record.entry = records.map Record.entry
  | _ => True

/-- The lease table answers as the register it stands for. -/
theorem answer_registers {k : Kept Table Snapshot} (keyed : k.state.leases.Keyed Record.name)
    {c : Call} (may : Visits k c) :
    (registers (answer k c).1, (answer k c).2) = Twin.answer policy (registers k) c := by
  cases c with
  | take now' now name owner deadline ttl =>
      obtain ⟨hview, hres⟩ := k.state.grant_step now name owner deadline ttl
      simp only [answer, registers, Twin.answer, hview, hres, takenResult_toOption]
  | drop name owner token =>
      obtain ⟨hview, hres⟩ := k.state.revoke_step name owner token
      simp only [answer, registers, Twin.answer, hview, hres, doneResult_isOk]
  | renew name owner token deadline ttl =>
      obtain ⟨hview, hres⟩ := k.state.renew_step name owner token deadline ttl
      simp only [answer, registers, Twin.answer, hview, hres, doneResult_isOk]
  | expire name token =>
      obtain ⟨hview, hres⟩ := k.state.expire_step name token
      simp only [answer, registers, Twin.answer, hview, hres, expiredResult_eq]
  | due now => simp only [answer, registers, Twin.answer, Table.due_entries keyed]
  | get name => simp only [answer, registers, Twin.answer, Table.get_entry keyed]
  | list => simp only [answer, registers, Twin.answer, Table.list_entries keyed]
  | save other visited =>
      have hcopy : (Snapshot.mk visited k.state.next).content = k.state.view :=
        (Table.view_restore_content k.state _).symm.trans (Table.view_restore keyed may)
      simp only [answer, registers, Twin.answer, List.map_append, List.map_cons, List.map_nil,
        Table.snapshotCopy, hcopy, Table.ranges_entries keyed may]
      rfl
  | restore i =>
      simp only [answer, registers, Twin.answer, List.getElem?_map]
      cases k.saved[i]? with
      | none => rfl
      | some snap => simp only [Option.map_some, Table.view_restore_content]
  | install other records next =>
      simp only [answer, registers, Twin.answer, Table.view_restore_content, show
        other.map Locks.Record.entry = records.map Record.entry from may]
      rfl

theorem keyed_answer {k : Kept Table Snapshot} (keyed : k.state.leases.Keyed Record.name)
    (c : Call) : (answer k c).1.state.leases.Keyed Record.name := by
  cases c with
  | take now' now name owner deadline ttl =>
      exact Table.keyed_act keyed (.grant now name owner deadline ttl)
  | drop name owner token => exact Table.keyed_act keyed (.revoke name owner token)
  | renew name owner token deadline ttl =>
      exact Table.keyed_act keyed (.renew name owner token deadline ttl)
  | expire name token => exact Table.keyed_act keyed (.expire name token)
  | due | get | list | save => exact keyed
  | restore i =>
      simp only [answer]
      cases k.saved[i]? with
      | none => exact keyed
      | some snap => exact Go.Map.keyed_ofList _ _
  | install other records next => exact Go.Map.keyed_ofList _ _

end Leases

variable [Unicode]

theorem checkName_isOk (what what' : String) (max : Nat) (name : String) :
    (checkName what max name).isOk = (checkName what' max name).isOk := by
  unfold checkName
  split
  · rfl
  · split
    · rfl
    · split
      · rfl
      · rfl

theorem Twin.policy_eq : Leases.policy = Locks.policy :=
  congrArg (Policy.mk · (fun holder => decide (holder ≠ "")) 4096)
    (funext (checkName_isOk "lease name" "lock name" 128))

/-- The two tables with their snapshots stand for the same registers. -/
structure Twin.Same (k : Kept Locks.Table Locks.Snapshot) (l : Kept Leases.Table Leases.Snapshot) :
    Prop where
  locks : k.state.locks.Keyed Locks.Record.name
  leases : l.state.leases.Keyed Leases.Record.name
  registers : Locks.registers k = Leases.registers l

/-- A pair of calls that match where they are made. -/
def Twin.Match (s : Kept Locks.Table Locks.Snapshot × Kept Leases.Table Leases.Snapshot)
    (c : Call) : Prop :=
  Locks.Visits s.1 c ∧ Leases.Visits s.2 c

theorem Twin.same_answer (k : Kept Locks.Table Locks.Snapshot)
    (l : Kept Leases.Table Leases.Snapshot) (c : Call) (same : Twin.Same k l)
    (matching : Twin.Match (k, l) c) :
    Twin.Same (Runs.next Locks.answer k c) (Runs.next Leases.answer l c) ∧
      (Locks.answer k c).2 = (Leases.answer l c).2 := by
  have hlocks := Locks.answer_registers same.locks matching.1
  have hleases := Leases.answer_registers same.leases matching.2
  rw [policy_eq, ← same.registers, ← hlocks] at hleases
  obtain ⟨hregisters, hanswer⟩ := Prod.mk.inj hleases
  exact ⟨⟨Locks.keyed_answer same.locks c, Leases.keyed_answer same.leases c, hregisters.symm⟩,
    hanswer.symm⟩

/-- On matching calls from empty both tables give the same answers and keep the same
grants and counter; names and lifetimes are judged alike. -/
theorem locks_and_leases_are_one_table :
    (∀ calls, Runs.Along (Runs.both Locks.answer Leases.answer) Twin.Match
        (⟨.new, []⟩, ⟨.new, []⟩) calls →
      Runs.outputs Locks.answer ⟨.new, []⟩ calls = Runs.outputs Leases.answer ⟨.new, []⟩ calls ∧
      (Runs.run (Runs.next Locks.answer) ⟨.new, []⟩ calls).state.view =
        (Runs.run (Runs.next Leases.answer) ⟨.new, []⟩ calls).state.view) ∧
    (∀ requested fallback,
      Locks.clampTTL requested fallback = Leases.clampTTL requested fallback) ∧
    ∀ name, (Locks.validName name).isOk = (Leases.validName name).isOk := by
  refine ⟨fun calls along => ?_, fun _ _ => rfl, checkName_isOk _ _ _⟩
  have start : Twin.Same ⟨.new, []⟩ ⟨.new, []⟩ := ⟨Locks.keyed_new, Leases.keyed_new, rfl⟩
  obtain ⟨same, answers⟩ := Runs.related_run Twin.Same Twin.same_answer start along
  exact ⟨answers, congrArg Kept.state same.registers⟩

/-- A grant is saved, ends, and comes back with a snapshot that another node sent. -/
def twinCalls : List Call :=
  [.take 5 6 "job" "a" 10 1, .save [⟨"job", "a", 1, 5, 10, 1⟩] [⟨"job", "a", 1, 6, 10, 1⟩],
    .drop "job" "a" 1, .restore 0, .due 20,
    .install [⟨"db", "b", 7, 1, 0, 0⟩] [⟨"db", "b", 7, 2, 0, 0⟩] 7, .take 8 8 "job" "c" 30 1]

omit [Unicode] in
theorem locks_and_leases_are_one_table_restored : letI := Unicode.ascii
    Runs.outputs Locks.answer ⟨.new, []⟩ twinCalls =
        Runs.outputs Leases.answer ⟨.new, []⟩ twinCalls ∧
      (Runs.run (Runs.next Locks.answer) ⟨.new, []⟩ twinCalls).state.view =
        (Runs.run (Runs.next Leases.answer) ⟨.new, []⟩ twinCalls).state.view := by
  let := Unicode.ascii
  refine locks_and_leases_are_one_table.1 twinCalls ?_
  exact ⟨⟨trivial, trivial⟩, ⟨rfl, rfl⟩, ⟨trivial, trivial⟩, ⟨trivial, trivial⟩,
    ⟨trivial, trivial⟩, ⟨trivial, rfl⟩, ⟨trivial, trivial⟩, trivial⟩

end Clusdr
