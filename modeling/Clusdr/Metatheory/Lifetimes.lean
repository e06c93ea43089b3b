import Clusdr.Core.Sdk
import Clusdr.Metatheory.TruncatedTable

/-!
The lifetime a request is given. The services multiply its milliseconds before
they clamp, and the product wraps; the client derives its renewal interval from
what it asked for, not from what it was given.
-/

namespace Clusdr

open Go (Time Duration)

/-- The two packages clamp alike. -/
theorem clampTTL_eq {clampTTL : Duration → Duration → Duration}
    (package : clampTTL ∈ [Locks.clampTTL, Leases.clampTTL]) : clampTTL = Locks.clampTTL := by
  rcases List.mem_pair.mp package with rfl | rfl
  · rfl
  · exact Leases.clampTTL_eq

theorem clamped_ttlFromMs (defaultTTL : Duration) (ms : Int64) (reuse : Duration) :
    Clamped (ttlFromMs Locks.clampTTL defaultTTL ms reuse) := clamped_clampTTL _ _

theorem toInt_ttlFromMs {ms : Int64} (asked : 0 < ms) (defaultTTL reuse : Duration) :
    (ttlFromMs Locks.clampTTL defaultTTL ms reuse).toInt =
      saturated (if 0 < (ms.toInt * 1000000).bmod (2 ^ 64) then (ms.toInt * 1000000).bmod (2 ^ 64)
        else if 0 < defaultTTL.toInt then defaultTTL.toInt else 15000000000) := by
  rw [ttlFromMs, if_pos asked, toInt_clampTTL, Duration.ofMilliseconds, Int64.toInt_mul,
    Duration.toInt_millisecond]

/-- The nanoseconds of a request, as 64 bits keep them. -/
def wrappedNs (ms : Int64) : Int := (ms.toInt * 1000000).bmod (2 ^ 64)

/-- The request is served as if its nanoseconds were counted exactly: the count fits, or
what is left of it is a day or more, or it is no duration and the default is a day. -/
def CountedExactly (defaultTTL : Duration) (ms : Int64) : Prop :=
  ms.toInt ≤ 9223372036854 ∨ 86400000000000 ≤ wrappedNs ms ∨
    wrappedNs ms ≤ 0 ∧ 86400000000000 ≤ defaultTTL.toInt

theorem wrappedNs_of_fits {ms : Int64} (asked : 0 < ms) (fits : ms.toInt ≤ 9223372036854) :
    wrappedNs ms = ms.toInt * 1000000 := by
  have hpos : 0 < ms.toInt := Int64.lt_iff_toInt_lt.mp asked
  exact Go.bmod_int64 (by omega) (by omega)

theorem ttlFromMs_eq_saturated_iff {ms : Int64} (asked : 0 < ms) (defaultTTL reuse : Duration) :
    (ttlFromMs Locks.clampTTL defaultTTL ms reuse).toInt = saturated (ms.toInt * 1000000) ↔
      CountedExactly defaultTTL ms := by
  have hpos : 0 < ms.toInt := Int64.lt_iff_toInt_lt.mp asked
  rw [toInt_ttlFromMs asked, ← wrappedNs, CountedExactly]
  by_cases fits : ms.toInt ≤ 9223372036854
  · rw [wrappedNs_of_fits asked fits, if_pos (by omega)]
    exact iff_of_true rfl (.inl fits)
  · simp only [saturated]
    split_ifs <;> omega

theorem saturated_mono {m n : Int} (h : m ≤ n) : saturated m ≤ saturated n := by
  simp only [saturated]
  omega

/-- A positive request has the lifetime it asks for, clamped, exactly when its count does
not wrap or wraps to no harm; among such requests a longer one never has a shorter life. -/
theorem ttlFromMs_saturates_iff {clampTTL : Duration → Duration → Duration}
    (package : clampTTL ∈ [Locks.clampTTL, Leases.clampTTL]) (defaultTTL : Duration) (ms : Int64)
    (reuse : Duration) (asked : 0 < ms) :
    ((ttlFromMs clampTTL defaultTTL ms reuse).toInt = saturated (ms.toInt * 1000000) ↔
      CountedExactly defaultTTL ms) ∧
    ∀ (ms' : Int64) (reuse' : Duration), ms ≤ ms' →
      CountedExactly defaultTTL ms → CountedExactly defaultTTL ms' →
        ttlFromMs clampTTL defaultTTL ms reuse ≤ ttlFromMs clampTTL defaultTTL ms' reuse' := by
  rw [clampTTL_eq package]
  refine ⟨ttlFromMs_eq_saturated_iff asked defaultTTL reuse, ?_⟩
  intro ms' reuse' le counts counts'
  have asked' : 0 < ms' := Int64.lt_of_lt_of_le asked le
  rw [Int64.le_iff_toInt_le] at le ⊢
  rw [(ttlFromMs_eq_saturated_iff asked defaultTTL reuse).mpr counts,
    (ttlFromMs_eq_saturated_iff asked' defaultTTL reuse').mpr counts']
  exact saturated_mono (by omega)

/-- The longest counts that do not wrap, against the default of 15 s. -/
theorem ttlFromMs_saturates_iff_longest :
    (ttlFromMs Locks.clampTTL (15 * Duration.second) 9223372036854 0).toInt =
        saturated 9223372036854000000 ∧
      ttlFromMs Leases.clampTTL (15 * Duration.second) 1 0 ≤
        ttlFromMs Leases.clampTTL (15 * Duration.second) 9223372036854 0 :=
  ⟨(ttlFromMs_saturates_iff (by simp) _ 9223372036854 0 (by decide)).1.mpr (.inl (by decide)),
    (ttlFromMs_saturates_iff (by simp) _ 1 0 (by decide)).2 9223372036854 0 (by decide)
      (.inl (by decide)) (.inl (by decide))⟩

/-- One millisecond more is given the default, and twice as much the shortest life. -/
theorem wrapped_request_not_saturated :
    saturated (9223372036855 * 1000000) = 86400000000000 ∧
      ∀ clampTTL ∈ [Locks.clampTTL, Leases.clampTTL],
        ttlFromMs clampTTL (15 * Duration.second) 9223372036854 0 = 24 * Duration.hour ∧
        ttlFromMs clampTTL (15 * Duration.second) 9223372036855 0 = 15 * Duration.second ∧
        ttlFromMs clampTTL (15 * Duration.second) 18446744073710 0 = Duration.millisecond := by
  refine ⟨by decide, fun clampTTL package => ?_⟩
  rw [clampTTL_eq package]
  decide

namespace Sdk

/-- The lifetime of the grant a call with this `ttl` asks for: `ttlMs` on the client,
`ttlFromMs` in the handler and `ClampTTL` before the command. -/
def grantedTTL (clampTTL : Duration → Duration → Duration) (defaultTTL ttl : Duration) : Duration :=
  clampTTL (ttlFromMs clampTTL defaultTTL (ttlMs ttl) 0) 0

theorem toInt_ttlMs {ttl : Duration} (asked : 0 < ttl) :
    (ttlMs ttl).toInt = ttl.toInt / 1000000 := by
  have hpos : 0 < ttl.toInt := Int64.lt_iff_toInt_lt.mp asked
  rw [ttlMs, if_neg (Int64.not_le.mpr asked), Duration.toInt_milliseconds (by omega)]

theorem toInt_grantedTTL {ttl : Duration} (asked : 0 < ttl) (defaultTTL : Duration)
    (hdefault : Clamped defaultTTL) :
    (grantedTTL Locks.clampTTL defaultTTL ttl).toInt =
      if ttl.toInt < 1000000 then defaultTTL.toInt
      else min 86400000000000 (ttl.toInt / 1000000 * 1000000) := by
  have hpos : 0 < ttl.toInt := Int64.lt_iff_toInt_lt.mp asked
  have hlt := ttl.toInt_lt
  have hms := toInt_ttlMs asked
  have hzero : (0 : Duration).toInt = 0 := rfl
  rw [grantedTTL, clampTTL_of_clamped (clamped_ttlFromMs _ _ _)]
  split_ifs with short
  · have hnone : ¬ ttlMs ttl > 0 := by
      rw [gt_iff_lt, Int64.lt_iff_toInt_lt, hzero]
      omega
    have hlower := hdefault.lower
    have hupper := hdefault.upper
    rw [ttlFromMs, if_neg hnone, toInt_clampTTL, hzero, if_neg (by omega), if_pos (by omega),
      saturated]
    omega
  · have hsome : 0 < ttlMs ttl := by
      rw [Int64.lt_iff_toInt_lt, hzero]
      omega
    rw [(ttlFromMs_eq_saturated_iff hsome defaultTTL 0).mpr (.inl (by omega)), hms, saturated]
    omega

theorem toInt_renewInterval {ttl : Duration} (asked : 0 < ttl) (now deadline : Time) :
    (renewInterval now deadline ttl).toInt = max 50000000 (ttl.toInt / 3) := by
  have hpos : 0 < ttl.toInt := Int64.lt_iff_toInt_lt.mp asked
  have hlt := ttl.toInt_lt
  have hfloor : (50 * Duration.millisecond).toInt = 50000000 := rfl
  have hthird : (ttl / 3).toInt = ttl.toInt / 3 := by
    have hthree : (3 : Duration).toInt = 3 := rfl
    rw [Int64.toInt_div, hthree, Int.tdiv_eq_ediv_of_nonneg (by omega),
      Go.bmod_int64 (by omega) (by omega)]
  have hnot : ¬ ttl ≤ 0 := Int64.not_le.mpr asked
  simp only [renewInterval, if_neg hnot, Int64.lt_iff_toInt_lt, hthird, hfloor]
  split_ifs <;> omega

/-- The client renews in time exactly when it asks for at least 51 ms and less than three
days, or for less than a millisecond where the default is longer than 50 ms. -/
theorem renewed_before_expiry_iff {clampTTL : Duration → Duration → Duration}
    (package : clampTTL ∈ [Locks.clampTTL, Leases.clampTTL]) (now deadline : Time)
    (ttl defaultTTL : Duration) (asked : 0 < ttl)
    (hdefault : Duration.millisecond ≤ defaultTTL ∧ defaultTTL ≤ 24 * Duration.hour) :
    renewInterval now deadline ttl < grantedTTL clampTTL defaultTTL ttl ↔
      (ttl < Duration.millisecond ∧ 50 * Duration.millisecond < defaultTTL) ∨
        (51 * Duration.millisecond ≤ ttl ∧ ttl < 72 * Duration.hour) := by
  have hms : Duration.millisecond.toInt = 1000000 := rfl
  have hfloor : (50 * Duration.millisecond).toInt = 50000000 := rfl
  have hfirst : (51 * Duration.millisecond).toInt = 51000000 := rfl
  have hday : (24 * Duration.hour).toInt = 86400000000000 := rfl
  have hdays : (72 * Duration.hour).toInt = 259200000000000 := rfl
  have clamped : Clamped defaultTTL :=
    ⟨Int64.le_iff_toInt_le.mp hdefault.1, Int64.le_iff_toInt_le.mp hdefault.2⟩
  simp only [Int64.lt_iff_toInt_lt, Int64.le_iff_toInt_le, toInt_renewInterval asked,
    clampTTL_eq package, toInt_grantedTTL asked defaultTTL clamped, hms, hfloor, hfirst, hdays]
  have hpos : 0 < ttl.toInt := Int64.lt_iff_toInt_lt.mp asked
  split_ifs <;> omega

theorem renewed_before_expiry_iff_default :
    renewInterval 0 0 (15 * Duration.second) <
      grantedTTL Locks.clampTTL (15 * Duration.second) (15 * Duration.second) :=
  (renewed_before_expiry_iff (by simp) 0 0 (15 * Duration.second) (15 * Duration.second) (by decide)
    (by decide)).mpr (.inr (by decide))

/-- A week is granted a day and renewed every 56 hours; 50 ms are renewed as they end. -/
theorem long_and_short_grants_expire_unrenewed :
    renewInterval 0 0 (168 * Duration.hour) = 56 * Duration.hour ∧
      ∀ clampTTL ∈ [Locks.clampTTL, Leases.clampTTL],
        grantedTTL clampTTL (15 * Duration.second) (168 * Duration.hour) = 24 * Duration.hour ∧
        ¬ renewInterval 0 0 (168 * Duration.hour) <
          grantedTTL clampTTL (15 * Duration.second) (168 * Duration.hour) ∧
        ¬ renewInterval 0 0 (50 * Duration.millisecond) <
          grantedTTL clampTTL (15 * Duration.second) (50 * Duration.millisecond) := by
  refine ⟨by decide, fun clampTTL package => ?_⟩
  rw [clampTTL_eq package]
  decide

end Sdk

end Clusdr
