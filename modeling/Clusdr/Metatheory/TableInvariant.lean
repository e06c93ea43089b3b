import Clusdr.Fencing.Soundness
import Clusdr.Metatheory.LockTable
import Clusdr.Metatheory.LeaseTable

/-!
The representation invariant of the two tables. It holds in every state that
commands and snapshots of other such tables lead to, up to the grant that makes
the token counter wrap; that grant breaks it.
-/

namespace Clusdr

open Go (Unicode)
open Fencing (Archive Grant Policy Register Simulation)

/-- What a table promises of its records: each is stored under its own name, which is
valid, has a holder and a token of its own that the counter has reached. -/
structure WellFormed {R : Type} (validName : String → Except String Unit) (max : Nat)
    (name holder : R → String) (token : R → UInt64) (records : Go.Map String R)
    (next : UInt64) : Prop where
  named : ∀ n rec, records.get n = some rec → name rec = n
  valid : ∀ n rec, records.get n = some rec → validName n = .ok ()
  held : ∀ n rec, records.get n = some rec → holder rec ≠ ""
  issued : ∀ n rec, records.get n = some rec → 1 ≤ token rec ∧ token rec ≤ next
  distinct : ∀ n n' rec rec', records.get n = some rec → records.get n' = some rec' →
    token rec = token rec' → n = n'
  room : records.len ≤ max

theorem isOk_iff {check : Except String Unit} : check.isOk = true ↔ check = .ok () := by
  cases check with
  | error e => exact iff_of_false Bool.false_ne_true fun h => by cases h
  | ok u => exact iff_of_true rfl rfl

section View

variable {R D : Type} {validName : String → Except String Unit} {max : Nat}
  {name holder : R → String} {token : R → UInt64}

/-- The invariant is that of the register the records stand for. -/
theorem wellFormed_iff (data : R → D) (records : Go.Map String R) (next : UInt64) :
    WellFormed validName max name holder token records next ↔
      records.Keyed name ∧ Register.Sound
        ⟨fun n => (validName n).isOk, fun h => decide (h ≠ ""), max⟩
        ⟨records.mapValues fun _ rec => ⟨holder rec, token rec, data rec⟩, next⟩ := by
  have hview : ∀ n, (records.mapValues fun _ rec =>
      (⟨holder rec, token rec, data rec⟩ : Grant String D)).get n =
        (records.get n).map fun rec => ⟨holder rec, token rec, data rec⟩ :=
    Go.Map.get_mapValues _ _
  constructor
  · intro h
    refine ⟨h.named, ⟨⟨?_, ?_⟩, ?_, ?_, ?_⟩⟩
    · intro n g hg
      obtain ⟨rec, hrec, -⟩ := Option.map_eq_some_iff.mp ((hview n).symm.trans hg)
      exact isOk_iff.mpr (h.valid n rec hrec)
    · intro n g hg
      obtain ⟨rec, hrec, rfl⟩ := Option.map_eq_some_iff.mp ((hview n).symm.trans hg)
      exact decide_eq_true (h.held n rec hrec)
    · intro n g hg
      obtain ⟨rec, hrec, rfl⟩ := Option.map_eq_some_iff.mp ((hview n).symm.trans hg)
      exact h.issued n rec hrec
    · intro n n' g g' hg hg' htoken
      obtain ⟨rec, hrec, rfl⟩ := Option.map_eq_some_iff.mp ((hview n).symm.trans hg)
      obtain ⟨rec', hrec', rfl⟩ := Option.map_eq_some_iff.mp ((hview n').symm.trans hg')
      exact h.distinct n n' rec rec' hrec hrec' htoken
    · exact (Go.Map.len_mapValues _ _).trans_le h.room
  · rintro ⟨keyed, sound⟩
    have hgrant : ∀ {n rec}, records.get n = some rec → (records.mapValues fun _ rec =>
        (⟨holder rec, token rec, data rec⟩ : Grant String D)).get n =
          some ⟨holder rec, token rec, data rec⟩ := fun {n rec} hrec => by
      rw [hview, hrec, Option.map_some]
    refine ⟨keyed, ?_, ?_, ?_, ?_, ?_⟩
    · exact fun n rec hrec => isOk_iff.mp (sound.key n _ (hgrant hrec))
    · exact fun n rec hrec => of_decide_eq_true (sound.holder n _ (hgrant hrec))
    · exact fun n rec hrec => sound.token n _ (hgrant hrec)
    · exact fun n n' rec rec' hrec hrec' => sound.distinct n n' _ _ (hgrant hrec) (hgrant hrec')
    · exact (Go.Map.len_mapValues _ _).symm.trans_le sound.room

end View

/-- A table that promises what its register is sound for keeps its promise until the grant
that wraps the counter, and no longer. -/
theorem wellFormed_until_wrapped {S A V N : Type} {p : Policy String String}
    {sim : Simulation p Lifetime S A} (arc : Archive sim V N) {Promise : S → Prop}
    (promise : ∀ s, Promise s ↔ sim.good s ∧ Register.Sound p (sim.view s))
    (short : ∀ a, (sim.ops a).length ≤ 1) {start : S} (good : sim.good start)
    (empty : sim.view start = Register.empty) {s : S}
    (reached : arc.Reachable start (fun s a => arc.created s a ≠ some 0) s) :
    Promise s ∧ ∀ a, sim.may s a → (Promise (sim.act s a) ↔ arc.created s a ≠ some 0) := by
  have hs := arc.sound_of_reachable short good empty reached
  refine ⟨(promise s).mpr hs, fun a may => ?_⟩
  rw [promise, and_iff_right (sim.good_act s a hs.1 may)]
  exact sim.sound_act_iff (arc.created_minted s a) (short a) hs.1 may hs.2

variable [Unicode]

namespace Locks

def Table.WellFormed (t : Table) : Prop :=
  Clusdr.WellFormed validName maxLocks Record.name Record.holder Record.token t.locks t.next

/-- The tables that commands which meet `ok`, and snapshots of such tables, lead to. -/
abbrev Reachable (ok : Table → Action → Prop) : Table → Prop := archive.Reachable Table.new ok

/-- The command does not create a grant with token zero. -/
def Table.Unwrapped (t : Table) (a : Action) : Prop := t.created a ≠ some 0

theorem Table.wellFormed_iff (t : Table) :
    t.WellFormed ↔ t.locks.Keyed Record.name ∧ Register.Sound policy t.view := by
  unfold Table.WellFormed
  exact Clusdr.wellFormed_iff (fun rec : Record => (⟨rec.deadline, rec.ttl⟩ : Lifetime)) _ _

end Locks

namespace Leases

def Table.WellFormed (t : Table) : Prop :=
  Clusdr.WellFormed validName maxLeases Record.name Record.owner Record.token t.leases t.next

/-- The tables that commands which meet `ok`, and snapshots of such tables, lead to. -/
abbrev Reachable (ok : Table → Action → Prop) : Table → Prop := archive.Reachable Table.new ok

/-- The command does not create a grant with token zero. -/
def Table.Unwrapped (t : Table) (a : Action) : Prop := t.created a ≠ some 0

theorem Table.wellFormed_iff (t : Table) :
    t.WellFormed ↔ t.leases.Keyed Record.name ∧ Register.Sound policy t.view := by
  unfold Table.WellFormed
  exact Clusdr.wellFormed_iff (fun rec : Record => (⟨rec.deadline, rec.ttl⟩ : Lifetime)) _ _

end Leases

/-- Every table that is reached without wrapping its counter is well formed, and the
grant that wraps it makes it ill formed. -/
theorem tables_wellFormed_until_wrapped :
    (∀ t, Locks.Reachable Locks.Table.Unwrapped t → t.WellFormed ∧
        ∀ a, t.May a → ((t.act a).WellFormed ↔ t.Unwrapped a)) ∧
      ∀ t, Leases.Reachable Leases.Table.Unwrapped t → t.WellFormed ∧
        ∀ a, t.May a → ((t.act a).WellFormed ↔ t.Unwrapped a) :=
  ⟨fun _ => wellFormed_until_wrapped Locks.archive Locks.Table.wellFormed_iff
      Locks.Action.length_ops Locks.keyed_new Locks.view_new,
    fun _ => wellFormed_until_wrapped Leases.archive Leases.Table.wellFormed_iff
      Leases.Action.length_ops Leases.keyed_new Leases.view_new⟩

namespace Locks

/-- `a` is locked once; then `b` is locked and expires, `n` times. -/
def rounds (n : Nat) : List Action :=
  .acquire 0 "a" "h" 0 0 :: (List.range n).flatMap fun i =>
    [.acquire 0 "b" "h" 0 0, .expire "b" (.ofNat (i + 2))]

def wrappingRun (n : Nat) : List Action := rounds n ++ [.acquire 0 "c" "h" 0 0]

theorem opsOf_wrappingRun (n : Nat) : simulation.opsOf (wrappingRun n) =
    Register.rounds "a" "b" "h" (⟨0, 0⟩ : Lifetime) n ++ [.take "c" "h" ⟨0, 0⟩] := by
  rw [wrappingRun, rounds, Simulation.opsOf, List.flatMap_append, List.flatMap_cons,
    List.flatMap_assoc]
  rfl

omit [Unicode] in
theorem may_wrappingRun (n : Nat) (t : Table) (a : Action) (h : a ∈ wrappingRun n) : t.May a := by
  rw [wrappingRun, rounds] at h
  simp only [List.cons_append, List.mem_cons, List.mem_append, List.mem_flatMap, List.not_mem_nil,
    or_false] at h
  rcases h with rfl | ⟨-, -, rfl | rfl⟩ | rfl <;> trivial

theorem admissible_wrappingRun (n : Nat) : simulation.Admissible Table.new (wrappingRun n) :=
  simulation.admissible_of_forall (may_wrappingRun n) Table.new

theorem view_wrappingRun (ha : (validName "a").isOk) (hb : (validName "b").isOk)
    (hc : (validName "c").isOk) {n : Nat} (wrapped : UInt64.ofNat (n + 1) = 0) :
    (simulation.run Table.new (wrappingRun n)).view =
      ⟨(Go.Map.set ∅ "a" ⟨"h", 1, ⟨0, 0⟩⟩).set "c" ⟨"h", 1, ⟨0, 0⟩⟩, 1⟩ := by
  refine ((simulation.run_view keyed_new (admissible_wrappingRun n)).2).trans ?_
  rw [opsOf_wrappingRun]
  exact Register.run_rounds_wrapped _ ha hb rfl (by decide) (show 2 ≤ maxLocks by decide) hc
    (by decide) wrapped

/-- A wrapped counter gives `c` the token of `a`. -/
theorem token_shared (ha : (validName "a").isOk) (hb : (validName "b").isOk)
    (hc : (validName "c").isOk) {n : Nat} (wrapped : UInt64.ofNat (n + 1) = 0) :
    ∃ t rec rec', Reachable (fun _ _ => True) t ∧ t.get "a" = some rec ∧ t.get "c" = some rec' ∧
      rec.token = rec'.token := by
  have hview := view_wrappingRun ha hb hc wrapped
  have hreachable := archive.reachable_run .new (admissible_wrappingRun n)
  generalize simulation.run Table.new (wrappingRun n) = t at hview hreachable
  have hget := t.view_get
  rw [hview] at hget
  obtain ⟨rec, hrec, hgrant⟩ := Option.map_eq_some_iff.mp
    ((hget "a").symm.trans ((Go.Map.get_set _ _ _ _).trans (Go.Map.get_set_self _ _ _)))
  obtain ⟨rec', hrec', hgrant'⟩ := Option.map_eq_some_iff.mp
    ((hget "c").symm.trans (Go.Map.get_set_self _ _ _))
  exact ⟨t, rec, rec', hreachable, hrec, hrec',
    congrArg Grant.token (hgrant.trans hgrant'.symm)⟩

end Locks

omit [Unicode] in
theorem wrapped_counter_repeats_token : letI := Unicode.ascii
    ∃ t rec rec', Locks.Reachable (fun _ _ => True) t ∧ t.get "a" = some rec ∧
      t.get "c" = some rec' ∧ rec.token = rec'.token := by
  let := Unicode.ascii
  have wrapped : UInt64.ofNat (2 ^ 64 - 1 + 1) = 0 := by decide
  exact Locks.token_shared (by decide) (by decide) (by decide) wrapped

/-- Two names are locked, or leased. -/
def Locks.pair : List Action := [.acquire 5 "job" "a" 10 1, .acquire 6 "db" "b" 10 1]

def Leases.pair : List Action := [.grant 5 "job" "a" 10 1, .grant 6 "db" "b" 10 1]

omit [Unicode] in
/-- Two locks and two leases, and their snapshots on other nodes. -/
theorem tables_wellFormed_until_wrapped_restored : letI := Unicode.ascii
    let locks := Locks.simulation.run .new Locks.pair
    let leases := Leases.simulation.run .new Leases.pair
    (Locks.Table.new.restore
        (locks.snapshotCopy [⟨"db", "b", 2, 6, 10, 1⟩, ⟨"job", "a", 1, 5, 10, 1⟩])).WellFormed ∧
      (Leases.Table.new.restore
        (leases.snapshotCopy
          [⟨"db", "b", 2, 6, 10, 1⟩, ⟨"job", "a", 1, 5, 10, 1⟩])).WellFormed := by
  let := Unicode.ascii
  intro locks leases
  obtain ⟨lockTables, leaseTables⟩ := tables_wellFormed_until_wrapped
  have hlocks : Locks.Reachable Locks.Table.Unwrapped locks := by
    refine .act (.act .new trivial ?_) trivial ?_ <;>
      (unfold Locks.Table.Unwrapped; decide)
  have hleases : Leases.Reachable Leases.Table.Unwrapped leases := by
    refine .act (.act .new trivial ?_) trivial ?_ <;>
      (unfold Leases.Table.Unwrapped; decide)
  exact ⟨(lockTables _ (.restore .new hlocks (by unfold Locks.archive Go.Map.Ranges; decide))).1,
    (leaseTables _ (.restore .new hleases (by unfold Leases.archive Go.Map.Ranges; decide))).1⟩

end Clusdr
