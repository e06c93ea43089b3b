import Clusdr.Metatheory.LockTable
import Clusdr.Metatheory.LeaseTable

/-!
What the two tables list. Both list the grants of the register they stand for,
each under its name, and a snapshot restores the register of its records.
-/

namespace Clusdr

open Go (Time)
open Fencing (Grant Register)

def Locks.Record.entry (rec : Locks.Record) : String × Grant String Lifetime :=
  (rec.name, rec.toGrant)

def Leases.Record.entry (rec : Leases.Record) : String × Grant String Lifetime :=
  (rec.name, rec.toGrant)

/-- The grants of a register, each with its name. -/
def entries (r : Register String String Lifetime) :
    Go.Map String (String × Grant String Lifetime) :=
  r.grants.mapValues fun name g => (name, g)

/-- Entries of a register whose deadline is set and not after `now`. -/
def dueEntries (r : Register String String Lifetime) (now : Time) :
    List (String × Grant String Lifetime) :=
  (r.grants.mapValues fun name g => (name, g)).sorted.filter fun e =>
    !e.2.data.deadline.isZero && !e.2.data.deadline.after now

/-- The register a list of entries restores. -/
def restored (es : List (String × Grant String Lifetime)) (next : UInt64) :
    Register String String Lifetime :=
  ⟨es.foldl (fun m e => m.set e.1 e.2) ∅, next⟩

section Listing

variable {R : Type} {name : R → String} (toGrant : R → Grant String Lifetime) {m : Go.Map String R}
  (keyed : m.Keyed name)

include keyed

theorem sorted_entries (next : UInt64) : m.sorted.map (fun rec => (name rec, toGrant rec)) =
    (entries ⟨m.mapValues fun _ => toGrant, next⟩).sorted := by
  rw [entries, Go.Map.mapValues_mapValues]
  refine (Go.Map.sorted_mapValues _ _ _ fun n rec h => ?_).symm
  rw [keyed n rec h]

theorem due_entries (next : UInt64) (now : Time) :
    (m.sorted.filter fun rec => !(toGrant rec).data.deadline.isZero &&
        !(toGrant rec).data.deadline.after now).map (fun rec => (name rec, toGrant rec)) =
      dueEntries ⟨m.mapValues fun _ => toGrant, next⟩ now := by
  refine Eq.trans ?_ (congrArg (List.filter _) (sorted_entries toGrant keyed next))
  rw [List.filter_map]
  rfl

theorem ranges_entries {visited : List R} (ranges : m.Ranges visited) (next : UInt64) :
    ((visited.map (fun rec => (name rec, toGrant rec)) : List _) : Multiset _) =
      (entries ⟨m.mapValues fun _ => toGrant, next⟩).values := by
  rw [← Multiset.map_coe, ranges, entries, Go.Map.mapValues_mapValues]
  refine (Go.Map.values_mapValues _ _ _ fun n rec h => ?_).symm
  rw [keyed n rec h]

theorem get_entries (n : String) : (m.get n).map (fun rec => (name rec, toGrant rec)) =
    ((m.mapValues fun _ => toGrant).get n).map fun g => (n, g) := by
  rw [Go.Map.get_mapValues]
  cases h : m.get n with
  | none => rfl
  | some rec => simp only [Option.map_some, keyed n rec h]

end Listing

theorem view_restored {R : Type} (name : R → String) (toGrant : R → Grant String Lifetime)
    (records : List R) (next : UInt64) :
    (⟨(Go.Map.ofList name records).mapValues fun _ => toGrant, next⟩ :
      Register String String Lifetime) =
        restored (records.map fun rec => (name rec, toGrant rec)) next := by
  rw [restored, List.foldl_map]
  exact congrArg (Register.mk · next) (Go.Map.mapValues_foldl_set name toGrant records ∅)

namespace Locks

section Listing

variable {t : Table} (keyed : t.locks.Keyed Record.name)

include keyed

theorem Table.list_entries : t.list.map Record.entry = (entries t.view).sorted :=
  sorted_entries Record.toGrant keyed t.next

theorem Table.due_entries (now : Time) : (t.due now).map Record.entry = dueEntries t.view now :=
  Clusdr.due_entries Record.toGrant keyed t.next now

theorem Table.get_entry (name : String) :
    (t.get name).map Record.entry = (t.view.grants.get name).map fun g => (name, g) :=
  get_entries Record.toGrant keyed name

theorem Table.ranges_entries {visited : List Record} (ranges : t.locks.Ranges visited) :
    ((visited.map Record.entry : List _) : Multiset _) = (entries t.view).values :=
  Clusdr.ranges_entries Record.toGrant keyed ranges t.next

end Listing

/-- The register a snapshot restores. -/
def Snapshot.content (snap : Snapshot) : Register String String Lifetime :=
  restored (snap.locks.map Record.entry) snap.next

theorem Table.view_restore_content (t : Table) (snap : Snapshot) :
    (t.restore snap).view = snap.content :=
  view_restored Record.name Record.toGrant snap.locks snap.next

end Locks

namespace Leases

section Listing

variable {t : Table} (keyed : t.leases.Keyed Record.name)

include keyed

theorem Table.list_entries : t.list.map Record.entry = (entries t.view).sorted :=
  sorted_entries Record.toGrant keyed t.next

theorem Table.due_entries (now : Time) : (t.due now).map Record.entry = dueEntries t.view now :=
  Clusdr.due_entries Record.toGrant keyed t.next now

theorem Table.get_entry (name : String) :
    (t.get name).map Record.entry = (t.view.grants.get name).map fun g => (name, g) :=
  get_entries Record.toGrant keyed name

theorem Table.ranges_entries {visited : List Record} (ranges : t.leases.Ranges visited) :
    ((visited.map Record.entry : List _) : Multiset _) = (entries t.view).values :=
  Clusdr.ranges_entries Record.toGrant keyed ranges t.next

end Listing

/-- The register a snapshot restores. -/
def Snapshot.content (snap : Snapshot) : Register String String Lifetime :=
  restored (snap.leases.map Record.entry) snap.next

theorem Table.view_restore_content (t : Table) (snap : Snapshot) :
    (t.restore snap).view = snap.content :=
  view_restored Record.name Record.toGrant snap.leases snap.next

end Leases

end Clusdr
