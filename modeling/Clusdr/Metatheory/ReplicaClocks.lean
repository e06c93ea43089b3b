import Clusdr.Core.LeaseService
import Clusdr.Metatheory.SnapshotReplay

/-!
Which part of a replica's answers comes from its own clock. Deadlines come from the
log, grant times do not: the replica that applies the entry which makes a record
stamps it, and later entries leave the stamp. Which entry made a grant that is
still held is said of the commands of the log alone. Two replicas list the same
exactly when their clocks agreed, to the millisecond, at those entries.
-/

namespace Clusdr

open Go (Time Unicode)
open Consensus (Command Fsm Half LogEntry)
open Clusdr.Membership (Engine)
open Fencing (Grant Op Register)

section Listings

variable {R I : Type} {name : R → String} {toGrant : R → Grant String Lifetime}
  {stamp : R → Time} {info : R → I} {infoName : I → String} {m m' : Go.Map String R}

/-- Two tables with the same grants are listed the same exactly when the listed stamps are. -/
theorem listings_eq_iff (keyed : m.Keyed name) (keyed' : m'.Keyed name)
    (same : ∀ n, (m.get n).map toGrant = (m'.get n).map toGrant)
    (named : ∀ rec, infoName (info rec) = name rec)
    (told : ∀ rec rec', name rec = name rec' → toGrant rec = toGrant rec' →
      (info rec = info rec' ↔ (stamp rec).unixMilli = (stamp rec').unixMilli)) :
    m.sorted.map info = m'.sorted.map info ↔
      ∀ n t t', (m.get n).map stamp = some t → (m'.get n).map stamp = some t' →
        t.unixMilli = t'.unixMilli := by
  have infoKeyed : ∀ {m : Go.Map String R}, m.Keyed name →
      (m.mapValues fun _ => info).Keyed infoName := by
    intro m keyed n i hi
    obtain ⟨rec, hrec, rfl⟩ := Option.map_eq_some_iff.mp ((Go.Map.get_mapValues _ _ _).symm.trans hi)
    exact (named rec).trans (keyed n rec hrec)
  have listed : ∀ m : Go.Map String R, m.sorted.map info = (m.mapValues fun _ => info).sorted :=
    fun m => (Go.Map.sorted_mapValues (fun _ => info) info m fun _ _ _ => rfl).symm
  rw [listed, listed, Go.Map.sorted_inj (infoKeyed keyed) (infoKeyed keyed'), Go.Map.ext_iff]
  simp only [Go.Map.get_mapValues]
  refine forall_congr' fun n => ?_
  have hsame := same n
  cases hrec : m.get n with
  | none =>
      rw [hrec] at hsame
      rw [Option.map_eq_none_iff.mp hsame.symm]
      simp
  | some rec =>
      rw [hrec] at hsame
      obtain ⟨rec', hrec', hgrant⟩ := Option.map_eq_some_iff.mp hsame.symm
      have hname := (keyed n rec hrec).trans (keyed' n rec' hrec').symm
      simp [hrec', told rec rec' hname hgrant.symm]

end Listings

variable [Unicode]

namespace Consensus

omit [Unicode] in
/-- The command of an entry that has one. -/
def LogEntry.command? : LogEntry → Option Command
  | .other => none
  | .command data => (data.bind Command.decode).toOption

theorem Fsm.apply_command? (f : Fsm) (now : Time) (entry : LogEntry) :
    (f.apply now entry).1 =
      (entry.command?.map fun cmd => (f.applyCommand now cmd).1).getD f := by
  cases entry with
  | other => rfl
  | command data =>
      simp only [Fsm.apply, LogEntry.command?]
      cases data.bind Command.decode with
      | error e => rfl
      | ok cmd => rfl

namespace Half

variable (half : Half)

/-- The operations the commands of a log stand for. -/
def opsOf (log : List LogEntry) : List (Op String String Lifetime) :=
  log.filterMap fun entry => entry.command?.bind half.op

/-- The register after these operations. -/
def after (log : List LogEntry) : Register String String Lifetime :=
  Register.run half.policy .empty (half.opsOf log)

/-- Entry `i` made the grant that `name` has after the log: the name was free before it
and has not been free since. -/
structure MadeBy (log : List LogEntry) (name : String) (i : Nat) : Prop where
  listed : i < log.length
  free : (half.after (log.take i)).grants.get name = none
  since : ∀ j, i < j → j ≤ log.length → (half.after (log.take j)).grants.get name ≠ none

variable {half}

theorem MadeBy.unique {log : List LogEntry} {name : String} {i j : Nat}
    (hi : half.MadeBy log name i) (hj : half.MadeBy log name j) : i = j := by
  rcases Nat.lt_trichotomy i j with h | h | h
  · exact absurd hj.free (hi.since j h hj.listed.le)
  · exact h
  · exact absurd hi.free (hj.since i h hi.listed.le)

theorem MadeBy.last {log : List LogEntry} {entry : LogEntry} {name : String}
    (free : (half.after log).grants.get name = none)
    (held : (half.after (log ++ [entry])).grants.get name ≠ none) :
    half.MadeBy (log ++ [entry]) name log.length := by
  have length : (log ++ [entry]).length = log.length + 1 := List.length_append
  refine ⟨length ▸ Nat.lt_succ_self _, ?_, fun j hlt hle => ?_⟩
  · rwa [List.take_left]
  · rw [length] at hle
    obtain rfl : j = (log ++ [entry]).length := length ▸ Nat.le_antisymm hle hlt
    rwa [List.take_length]

theorem MadeBy.snoc {log : List LogEntry} {entry : LogEntry} {name : String} {i : Nat}
    (h : half.MadeBy log name i)
    (held : (half.after (log ++ [entry])).grants.get name ≠ none) :
    half.MadeBy (log ++ [entry]) name i := by
  have length : (log ++ [entry]).length = log.length + 1 := List.length_append
  refine ⟨length ▸ Nat.lt_succ_of_lt h.listed, ?_, fun j hlt hle => ?_⟩
  · rw [List.take_append_of_le_length h.listed.le]
    exact h.free
  · rcases Nat.lt_or_ge log.length j with hj | hj
    · obtain rfl : j = (log ++ [entry]).length := Nat.le_antisymm hle (length ▸ hj)
      rwa [List.take_length]
    · rw [List.take_append_of_le_length hj]
      exact h.since j hlt hj

theorem register_apply {f : Fsm} {r : Register String String Lifetime}
    (start : half.register f = some r) (now : Time) (entry : LogEntry) :
    half.register (f.apply now entry).1 =
      some (Register.run half.policy r (half.opsOf [entry])) := by
  rw [Fsm.apply_command?, opsOf, List.filterMap_cons]
  cases entry.command? with
  | none => exact start
  | some cmd =>
      cases hop : half.op cmd with
      | none =>
          simp only [Option.bind_some, hop]
          exact (half.idle f now cmd hop).trans start
      | some o =>
          simp only [Option.bind_some, hop]
          exact (half.acts f now cmd o hop).trans (by rw [start]; rfl)

theorem register_applyAll {f : Fsm} {r : Register String String Lifetime}
    (start : half.register f = some r) (now : Nat → Time) (log : List LogEntry) :
    half.register (f.applyAll now log).1 = some (Register.run half.policy r (half.opsOf log)) := by
  induction log generalizing f r now with
  | nil => exact start
  | cons entry log ih =>
      refine (ih (register_apply start (now 0) entry) _).trans ?_
      rw [← Register.run_append, opsOf, opsOf, ← List.filterMap_append]
      rfl

/-- The times of the records of a half, and what the half's service lists of them. -/
structure Stamps (half : Half) where
  Info : Type
  stamp : Fsm → String → Option Time
  list : Fsm → List Info
  start : ∀ e, half.register (Fsm.fresh e) = some .empty
  held : ∀ f name, (stamp f name).isSome = (half.grant f name).isSome
  /-- A command stamps what it makes, and only that. -/
  made : ∀ f now cmd name t, stamp (f.applyCommand now cmd).1 name = some t →
    (half.grant f name = none ∧ t = now) ∨ stamp f name = some t
  /-- With the same grants, the listings differ by the stamps only. -/
  list_iff : ∀ f f', f.KeyedTables → f'.KeyedTables → half.register f = half.register f' →
    (list f = list f' ↔ ∀ name t t', stamp f name = some t → stamp f' name = some t' →
      t.unixMilli = t'.unixMilli)

namespace Stamps

variable (s : Stamps half)

include s in
theorem grant_applyAll (e : Engine) (now : Nat → Time) (log : List LogEntry) (name : String) :
    half.grant ((Fsm.fresh e).applyAll now log).1 name = (half.after log).grants.get name :=
  half.grant_eq (register_applyAll (s.start e) now log) name

/-- A stamp is the clock's reading at the entry that made the grant. -/
theorem exists_madeBy {e : Engine} {now : Nat → Time} {log : List LogEntry} {name : String}
    {t : Time} (h : s.stamp ((Fsm.fresh e).applyAll now log).1 name = some t) :
    ∃ i, half.MadeBy log name i ∧ t = now i := by
  induction log using List.reverseRecOn with
  | nil =>
      have hheld := s.held (Fsm.fresh e) name
      rw [show s.stamp (Fsm.fresh e) name = some t from h,
        half.grant_eq (s.start e) name] at hheld
      cases hheld
  | append_singleton log entry ih =>
      have held : (half.after (log ++ [entry])).grants.get name ≠ none := by
        rw [← s.grant_applyAll e now, ← Option.isSome_iff_ne_none, ← s.held, h]
        rfl
      rw [Fsm.applyAll_append] at h
      simp only [Fsm.applyAll, Fsm.apply_command?, Nat.zero_add] at h
      have carried : s.stamp ((Fsm.fresh e).applyAll now log).1 name = some t →
          ∃ i, half.MadeBy (log ++ [entry]) name i ∧ t = now i := fun h => by
        obtain ⟨i, hi, ht⟩ := ih h
        exact ⟨i, hi.snoc held, ht⟩
      cases hcmd : entry.command? with
      | none =>
          rw [hcmd] at h
          exact carried h
      | some cmd =>
          rw [hcmd] at h
          rcases s.made _ _ _ _ _ h with ⟨free, ht⟩ | h
          · rw [s.grant_applyAll] at free
            exact ⟨log.length, .last free held, ht⟩
          · exact carried h

theorem stamp_of_madeBy (e : Engine) (now : Nat → Time) {log : List LogEntry} {name : String}
    {i : Nat} (h : half.MadeBy log name i) :
    s.stamp ((Fsm.fresh e).applyAll now log).1 name = some (now i) := by
  have held : (s.stamp ((Fsm.fresh e).applyAll now log).1 name).isSome = true := by
    rw [s.held, s.grant_applyAll, Option.isSome_iff_ne_none, ← List.take_length (l := log)]
    exact h.since log.length h.listed le_rfl
  obtain ⟨t, ht⟩ := Option.isSome_iff_exists.mp held
  obtain ⟨j, hj, rfl⟩ := s.exists_madeBy ht
  rw [ht, h.unique hj]

theorem list_applyAll_iff (e e' : Engine) (now now' : Nat → Time) (log : List LogEntry) :
    s.list ((Fsm.fresh e).applyAll now log).1 = s.list ((Fsm.fresh e').applyAll now' log).1 ↔
      ∀ name i, half.MadeBy log name i → (now i).unixMilli = (now' i).unixMilli := by
  rw [s.list_iff _ _ (Fsm.keyed_applyAll (Fsm.keyed_fresh e) now log)
    (Fsm.keyed_applyAll (Fsm.keyed_fresh e') now' log)
    ((register_applyAll (s.start e) now log).trans (register_applyAll (s.start e') now' log).symm)]
  constructor
  · intro h name i hi
    exact h name _ _ (s.stamp_of_madeBy e now hi) (s.stamp_of_madeBy e' now' hi)
  · intro h name t t' ht ht'
    obtain ⟨i, hi, rfl⟩ := s.exists_madeBy ht
    obtain rfl := Option.some.inj (ht'.symm.trans (s.stamp_of_madeBy e' now' hi))
    exact h name i hi

end Stamps

section Tables

variable {T R I : Type} {table : Fsm → Option T} {records : T → Go.Map String R}
  {next : T → UInt64} {name : R → String} {toGrant : R → Grant String Lifetime}
  {stamp : R → Time} {command : Time → Command → T → T}

theorem grant_table {f : Fsm}
    (register : half.register f =
      (table f).map fun t => ⟨(records t).mapValues fun _ => toGrant, next t⟩) (n : String) :
    half.grant f n = ((table f).bind fun t => (records t).get n).map toGrant := by
  rw [grant, register, Option.bind_map, Option.map_bind]
  simp only [Function.comp_def, Go.Map.get_mapValues]

/-- The stamps of a half whose records are in one table. -/
def stampsOf (info : R → I) (infoName : I → String)
    (start : ∀ e, half.register (Fsm.fresh e) = some .empty)
    (register : ∀ f, half.register f =
      (table f).map fun t => ⟨(records t).mapValues fun _ => toGrant, next t⟩)
    (acts : ∀ f now cmd, table (f.applyCommand now cmd).1 = (table f).map (command now cmd))
    (edit : ∀ now cmd t, Go.Map.Edit (fun n rec => name rec = n ∧ stamp rec = now)
      (fun held rec => name rec = name held ∧ stamp rec = stamp held)
      (records t) (records (command now cmd t)))
    (keyed : ∀ f, f.KeyedTables → ∀ t ∈ table f, (records t).Keyed name)
    (named : ∀ rec, infoName (info rec) = name rec)
    (told : ∀ rec rec', name rec = name rec' → toGrant rec = toGrant rec' →
      (info rec = info rec' ↔ (stamp rec).unixMilli = (stamp rec').unixMilli)) :
    Stamps half where
  Info := I
  stamp f n := ((table f).bind fun t => (records t).get n).map stamp
  list f := ((table f).map fun t => (records t).sorted.map info).getD []
  start := start
  held f n := by rw [grant_table (register f), Option.isSome_map, Option.isSome_map]
  made f now cmd n t h := by
    rw [grant_table (register f)]
    rw [acts f now cmd] at h
    cases htable : table f with
    | none =>
        rw [htable] at h
        cases h
    | some u =>
        rw [htable] at h
        obtain ⟨rec, hrec, rfl⟩ := Option.map_eq_some_iff.mp h
        rcases (edit now cmd u).get hrec with ⟨free, -, made⟩ | ⟨held, hheld, rfl | ⟨-, kept⟩⟩
        · exact Or.inl ⟨congrArg (Option.map toGrant) free, made⟩
        · exact Or.inr (congrArg (Option.map stamp) hheld)
        · exact Or.inr ((congrArg (Option.map stamp) hheld).trans (congrArg some kept.symm))
  list_iff f f' hf hf' same := by
    rw [register f, register f'] at same
    cases htable : table f with
    | none =>
        rw [htable] at same
        rw [Option.map_eq_none_iff.mp same.symm]
        simp
    | some t =>
        rw [htable] at same
        obtain ⟨t', ht', hview⟩ := Option.map_eq_some_iff.mp same.symm
        rw [ht']
        refine listings_eq_iff (keyed f hf t htable) (keyed f' hf' t' ht') (fun n => ?_) named told
        have hgrants := congrArg (fun r => r.grants.get n) hview
        simpa only [Go.Map.get_mapValues] using hgrants.symm

end Tables

end Half

omit [Unicode] in
theorem Command.lockAction_readsClock {cmd : Command} {now : Time} {a : Locks.Action}
    (h : cmd.lockAction now = some a) : a.ReadsClock now := by
  unfold lockAction at h
  split at h
  all_goals cases h
  · rfl
  all_goals trivial

omit [Unicode] in
theorem Command.leaseAction_readsClock {cmd : Command} {now : Time} {a : Leases.Action}
    (h : cmd.leaseAction now = some a) : a.ReadsClock now := by
  unfold leaseAction at h
  split at h
  all_goals cases h
  · rfl
  all_goals trivial

namespace Fsm

theorem lockCommand_edit (t : Locks.Table) (now : Time) (cmd : Command) :
    Locks.Table.Edit now t.locks (lockCommand t now cmd).1.locks := by
  rw [lockCommand_act]
  cases haction : cmd.lockAction now with
  | none => exact .same
  | some a => exact t.edit_act (Command.lockAction_readsClock haction)

theorem leaseCommand_edit (t : Leases.Table) (now : Time) (cmd : Command) :
    Leases.Table.Edit now t.leases (leaseCommand t now cmd).1.leases := by
  rw [leaseCommand_act]
  cases haction : cmd.leaseAction now with
  | none => exact .same
  | some a => exact t.edit_act (Command.leaseAction_readsClock haction)

end Fsm

def lockStamps : lockHalf.Stamps :=
  Half.stampsOf LockService.lockInfo LockInfo.name (fun _ => rfl) (fun _ => rfl)
    Fsm.applyCommand_locks (fun now cmd t => Fsm.lockCommand_edit t now cmd)
    (fun _ keyed => keyed.locks) (fun _ => rfl) fun rec rec' hname hgrant => by
      simp only [LockService.lockInfo, LockInfo.mk.injEq, hname, true_and]
      simp only [Locks.Record.toGrant, Grant.mk.injEq, Lifetime.mk.injEq] at hgrant
      simp [hgrant]

def leaseStamps : leaseHalf.Stamps :=
  Half.stampsOf LeaseService.leaseInfo LeaseInfo.name (fun _ => rfl) (fun _ => rfl)
    Fsm.applyCommand_leases (fun now cmd t => Fsm.leaseCommand_edit t now cmd)
    (fun _ keyed => keyed.leases) (fun _ => rfl) fun rec rec' hname hgrant => by
      simp only [LeaseService.leaseInfo, LeaseInfo.mk.injEq, hname, true_and]
      simp only [Leases.Record.toGrant, Grant.mk.injEq, Lifetime.mk.injEq] at hgrant
      simp [hgrant]

namespace Fsm

/-- Two replicas list the same locks and leases exactly when, at every entry whose
grant is still held, their clocks read the same millisecond. -/
theorem replicas_list_same_iff (e e' : Engine) (now now' : Nat → Time) (log : List LogEntry) :
    (LockService.listLocks ((fresh e).applyAll now log).1.locks =
          LockService.listLocks ((fresh e').applyAll now' log).1.locks ∧
        LeaseService.listLeases ((fresh e).applyAll now log).1.leases =
          LeaseService.listLeases ((fresh e').applyAll now' log).1.leases) ↔
      (∀ name i, lockHalf.MadeBy log name i → (now i).unixMilli = (now' i).unixMilli) ∧
        ∀ name i, leaseHalf.MadeBy log name i → (now i).unixMilli = (now' i).unixMilli :=
  and_congr (lockStamps.list_applyAll_iff e e' now now' log)
    (leaseStamps.list_applyAll_iff e e' now now' log)

omit [Unicode] in
theorem madeBy_grantedLog : letI := Unicode.ascii
    lockHalf.MadeBy grantedLog "job" 0 := by
  let := Unicode.ascii
  refine ⟨by decide, rfl, fun j hlt hle => ?_⟩
  rw [← Option.isSome_iff_ne_none]
  obtain rfl | rfl : j = 1 ∨ j = 2 := by
    have hlength : grantedLog.length = 2 := rfl
    omega
  · decide +kernel
  · decide +kernel

omit [Unicode] in
/-- One acquired lock, applied a millisecond apart, is listed with two times. -/
theorem acquired_time_differs : letI := Unicode.ascii
    LockService.listLocks ((fresh (.new 0 "n1" "")).applyAll (fun _ => 0) grantedLog).1.locks ≠
      LockService.listLocks
        ((fresh (.new 0 "n2" "")).applyAll (fun _ => 1000000) grantedLog).1.locks := by
  let := Unicode.ascii
  intro h
  have agree := (lockStamps.list_applyAll_iff (.new 0 "n1" "") (.new 0 "n2" "") (fun _ => 0)
    (fun _ => 1000000) grantedLog).mp h
  exact absurd (agree "job" 0 madeBy_grantedLog) (by decide)

/-- The lock is given back; the lease is still held. -/
def releasedLog : List LogEntry :=
  grantedLog ++ [.command (.ok (Command.encode
    { kind := .lockRelease, id := "a", name := "job", token := 1 }))]

omit [Unicode] in
/-- Clocks that were a millisecond apart when the lock was made, and two nanoseconds
when the lease was. -/
theorem replicas_list_same_after_release : letI := Unicode.ascii
    LockService.listLocks ((fresh (.new 0 "n1" "")).applyAll (fun i => if i = 0 then 0 else 5)
          releasedLog).1.locks =
        LockService.listLocks ((fresh (.new 0 "n2" "")).applyAll
          (fun i => if i = 0 then 1000000 else 7) releasedLog).1.locks ∧
      LeaseService.listLeases ((fresh (.new 0 "n1" "")).applyAll (fun i => if i = 0 then 0 else 5)
          releasedLog).1.leases =
        LeaseService.listLeases ((fresh (.new 0 "n2" "")).applyAll
          (fun i => if i = 0 then 1000000 else 7) releasedLog).1.leases := by
  let := Unicode.ascii
  refine (replicas_list_same_iff (.new 0 "n1" "") (.new 0 "n2" "") (fun i => if i = 0 then 0 else 5)
    (fun i => if i = 0 then 1000000 else 7) releasedLog).mpr ⟨?_, ?_⟩
  · intro name i made
    have free : (lockHalf.after (releasedLog.take 3)).grants = ∅ := by decide +kernel
    have held := made.since 3 made.listed le_rfl
    rw [free] at held
    exact absurd rfl held
  · intro name i made
    have free : (leaseHalf.after (releasedLog.take 1)).grants = ∅ := by decide +kernel
    cases i with
    | zero =>
        have held := made.since 1 Nat.one_pos (by decide)
        rw [free] at held
        exact absurd rfl held
    | succ i =>
        rw [if_neg i.succ_ne_zero, if_neg i.succ_ne_zero]
        decide

end Fsm
end Consensus
end Clusdr
