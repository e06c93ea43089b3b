import Clusdr.Core.Node
import Clusdr.Go.Millis

/-!
A lock table that goes through the log keeps its deadlines in whole
milliseconds. Rounding the deadlines of a table down and running a method on it
is the same as running the method and rounding down then.
-/

namespace Clusdr

open Go (Time Duration Unicode)
open Go.Duration (Whole)
open Consensus (Command CommandKind)

/-- Nanoseconds, from a millisecond to a day. -/
def saturated (ns : Int) : Int := max 1000000 (min 86400000000000 ns)

/-- Both packages have the same constants. -/
theorem Leases.clampTTL_eq : Leases.clampTTL = Locks.clampTTL := rfl

theorem toInt_clampTTL (requested fallback : Duration) :
    (Locks.clampTTL requested fallback).toInt =
      saturated (if 0 < requested.toInt then requested.toInt
        else if 0 < fallback.toInt then fallback.toInt else 15000000000) := by
  have hzero : (0 : Duration).toInt = 0 := rfl
  have hms : Locks.minTTL.toInt = 1000000 := rfl
  have hday : Locks.maxTTL.toInt = 86400000000000 := rfl
  have hdefault : Locks.defaultTTL.toInt = 15000000000 := rfl
  simp only [Locks.clampTTL, clampTTLTo, saturated, gt_iff_lt, Int64.le_iff_toInt_le,
    Int64.lt_iff_toInt_lt, hzero, hms, hday]
  split_ifs <;> omega

/-- A lifetime `ClampTTL` leaves alone. -/
structure Clamped (ttl : Duration) : Prop where
  lower : 1000000 ≤ ttl.toInt
  upper : ttl.toInt ≤ 86400000000000

theorem Clamped.pos {ttl : Duration} (h : Clamped ttl) : ttl > 0 := by
  have hzero : (0 : Duration).toInt = 0 := rfl
  have hlower := h.lower
  rw [gt_iff_lt, Int64.lt_iff_toInt_lt, hzero]
  omega

theorem clamped_clampTTL (requested fallback : Duration) :
    Clamped (Locks.clampTTL requested fallback) := by
  have hvalue := toInt_clampTTL requested fallback
  simp only [saturated] at hvalue
  exact ⟨by omega, by omega⟩

theorem clampTTL_of_clamped {ttl : Duration} (h : Clamped ttl) (fallback : Duration) :
    Locks.clampTTL ttl fallback = ttl := by
  have hlower := h.lower
  have hupper := h.upper
  rw [← Int64.toInt_inj, toInt_clampTTL, if_pos (by omega), saturated]
  omega

theorem whole_clampTTL {requested fallback : Duration}
    (hrequested : requested ≤ 0 ∨ Whole requested) (hfallback : Whole fallback) :
    Whole (Locks.clampTTL requested fallback) := by
  have hsecond : Whole Locks.defaultTTL := by decide
  have hms : Whole Locks.minTTL := by decide
  have hday : Whole Locks.maxTTL := by decide
  have hchosen : Whole (if requested ≤ 0 then fallback else requested) := by
    split
    · exact hfallback
    · rename_i hpos
      exact hrequested.resolve_left hpos
  simp only [Locks.clampTTL, clampTTLTo]
  generalize (if requested ≤ 0 then fallback else requested) = chosen at hchosen
  split
  · exact hms
  · split
    · exact hday
    · split
      · exact hsecond
      · exact hchosen

/-- Instants whose deadlines, a day later at most, have a Unix millisecond count. -/
structure Countable (now : Int) : Prop where
  lower : 0 ≤ now
  upper : (now + 86400000000000) / 1000000 < 2 ^ 63

section Stamped

variable {now : Int} {ttl : Duration} (clock : Countable now) (clamped : Clamped ttl)

include clock clamped

theorem deadline_bounds : 1000000 ≤ now + ttl.toInt ∧ (now + ttl.toInt) / 1000000 < 2 ^ 63 := by
  have := clock.lower
  have := clock.upper
  have := clamped.lower
  have := clamped.upper
  omega

theorem deadlineOf_stamped (kind : CommandKind) (name id : String) (token : UInt64) :
    (Consensus.Fsm.stamped kind now name id token ttl).deadlineOf =
      Time.floorMs (Time.add now ttl) := by
  obtain ⟨hlower, hupper⟩ := deadline_bounds clock clamped
  have hnonneg : 0 ≤ now + ttl.toInt := by omega
  have hms := Time.toInt_unixMilli hnonneg hupper
  have hne : Time.unixMilli (now + ttl.toInt) ≠ 0 := by
    intro hzero
    rw [hzero] at hms
    have : (0 : Int64).toInt = 0 := rfl
    omega
  simp only [Consensus.Fsm.stamped, Command.deadlineOf]
  exact (if_neg hne).trans (Time.ofUnixMilli_unixMilli hnonneg hupper)

end Stamped

theorem toInt_ttlOf_stamped {ttl : Duration} (clamped : Clamped ttl) (kind : CommandKind)
    (now : Time) (name id : String) (token : UInt64) :
    (Consensus.Fsm.stamped kind now name id token ttl).ttlOf.toInt =
      ttl.toInt / 1000000 * 1000000 := by
  have hlower := clamped.lower
  have hupper := clamped.upper
  have hzero : (0 : Int64).toInt = 0 := rfl
  have hms := Duration.toInt_milliseconds (show 0 ≤ ttl.toInt by omega)
  have hpos : ¬ ttl.milliseconds ≤ 0 := by
    rw [Int64.le_iff_toInt_le, hms]
    omega
  rw [Command.ttlOf, if_neg (by exact hpos)]
  change (Duration.ofMilliseconds ttl.milliseconds).toInt = _
  rw [Duration.toInt_ofMilliseconds (by omega) (by omega), hms]

theorem ttlOf_stamped {ttl : Duration} (clamped : Clamped ttl) (kind : CommandKind) {now : Time}
    (name id : String) (token : UInt64) (whole : Whole ttl) :
    (Consensus.Fsm.stamped kind now name id token ttl).ttlOf = ttl := by
  unfold Whole at whole
  rw [← Int64.toInt_inj, toInt_ttlOf_stamped clamped]
  omega

namespace Locks

def Record.toMs (rec : Record) : Record := { rec with deadline := rec.deadline.floorMs }

def Table.toMs (t : Table) : Table := { t with locks := t.locks.mapValues fun _ => Record.toMs }

namespace Table

theorem get_toMs (t : Table) (name : String) :
    t.toMs.locks.get name = (t.locks.get name).map Record.toMs :=
  Go.Map.get_mapValues _ _ _

variable [Unicode] (t : Table) (name holder : String) (token : UInt64) (deadline : Time)
  (ttl : Duration)

theorem acquire_toMs (now : Time) : t.toMs.acquire now name holder deadline.floorMs ttl =
    ((t.acquire now name holder deadline ttl).1.toMs,
      (t.acquire now name holder deadline ttl).2) := by
  unfold acquire
  cases validName name with
  | error e => rfl
  | ok u =>
      by_cases hholder : holder = ""
      · simp only [if_pos hholder]
      · simp only [if_neg hholder, get_toMs]
        cases t.locks.get name with
        | some held =>
            by_cases hown : held.holder = holder
            · simp [hown, Record.toMs, broadcast, toMs, Go.Map.mapValues_set]
            · simp [hown, Record.toMs]
        | none =>
            by_cases hroom : maxLocks ≤ t.locks.len
            · simp [hroom, toMs]
            · simp [hroom, Record.toMs, broadcast, toMs, Go.Map.mapValues_set]

theorem release_toMs : t.toMs.release name holder token =
    ((t.release name holder token).1.toMs, (t.release name holder token).2) := by
  unfold release
  cases validName name with
  | error e => rfl
  | ok u =>
      simp only [get_toMs]
      cases t.locks.get name with
      | none => rfl
      | some held =>
          by_cases hown : held.holder ≠ holder ∨ held.token ≠ token
          · simp only [Option.map_some, Record.toMs, if_pos hown]
          · simp only [Option.map_some, Record.toMs, if_neg hown, broadcast, toMs,
              Go.Map.mapValues_delete]

theorem renew_toMs : t.toMs.renew name holder token deadline.floorMs ttl =
    ((t.renew name holder token deadline ttl).1.toMs,
      (t.renew name holder token deadline ttl).2) := by
  unfold renew
  cases validName name with
  | error e => rfl
  | ok u =>
      simp only [get_toMs]
      cases t.locks.get name with
      | none => rfl
      | some held =>
          by_cases hown : held.holder ≠ holder ∨ held.token ≠ token
          · simp only [Option.map_some, Record.toMs, if_pos hown]
          · simp only [Option.map_some, Record.toMs, if_neg hown, toMs, Go.Map.mapValues_set]

theorem expire_toMs : (t.toMs.expire name token).1 = (t.expire name token).1.toMs := by
  unfold expire
  cases validName name with
  | error e => rfl
  | ok u =>
      simp only [get_toMs]
      cases t.locks.get name with
      | none => rfl
      | some held =>
          by_cases hown : held.token ≠ token
          · simp only [Option.map_some, Record.toMs, if_pos hown]
          · simp only [Option.map_some, Record.toMs, if_neg hown, broadcast, toMs,
              Go.Map.mapValues_delete]

end Table

end Locks

variable [Unicode]

/-- The lifetime of a record that agrees with the log. -/
structure Lasting (deadline : Int) (ttl : Duration) : Prop where
  after : 0 ≤ deadline
  clamped : Clamped ttl
  whole : Whole ttl

namespace Locks.Table

def Timed (t : Table) : Prop :=
  ∀ name rec, t.locks.get name = some rec → Lasting rec.deadline rec.ttl

omit [Unicode] in
theorem timed_new : Table.new.Timed := fun _ _ h => by cases h

variable {t : Table} {name holder : String} {token : UInt64} {deadline : Time} {ttl : Duration}

omit [Unicode] in
theorem Timed.set (timed : t.Timed) {rec : Record} (lasting : Lasting rec.deadline rec.ttl)
    (next : UInt64) (wait : Nat) : Timed ⟨t.locks.set name rec, next, wait⟩ := by
  intro n held h
  rw [Go.Map.get_set] at h
  split at h
  · cases h
    exact lasting
  · exact timed n held h

omit [Unicode] in
theorem Timed.delete (timed : t.Timed) (name : String) (wait : Nat) :
    Timed ⟨t.locks.delete name, t.next, wait⟩ := by
  intro n held h
  rw [Go.Map.get_delete] at h
  split at h
  · cases h
  · exact timed n held h

theorem timed_acquire (timed : t.Timed) (lasting : Lasting deadline ttl) (now : Time) :
    (t.acquire now name holder deadline ttl).1.Timed := by
  unfold acquire
  split
  · exact timed
  · split
    · exact timed
    · split
      · split
        · exact timed.set lasting _ _
        · exact timed
      · split
        · exact timed
        · exact timed.set lasting _ _

theorem timed_renew (timed : t.Timed) (lasting : Lasting deadline ttl) :
    (t.renew name holder token deadline ttl).1.Timed := by
  unfold renew
  split
  · exact timed
  · split
    · exact timed
    · split
      · exact timed
      · exact timed.set lasting _ _

theorem timed_release (timed : t.Timed) : (t.release name holder token).1.Timed := by
  unfold release
  split
  · exact timed
  · split
    · exact timed
    · split
      · exact timed
      · exact timed.delete _ _

theorem timed_expire (timed : t.Timed) : (t.expire name token).1.Timed := by
  unfold expire
  split
  · exact timed
  · split
    · exact timed
    · split
      · exact timed
      · exact timed.delete _ _

end Locks.Table

end Clusdr
