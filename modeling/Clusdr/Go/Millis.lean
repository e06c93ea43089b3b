import Mathlib.Algebra.GroupWithZero.Nat
import Mathlib.Algebra.Ring.Int.Defs
import Clusdr.Go.Time

/-!
Times and durations counted in whole milliseconds, as messages carry them.
-/

namespace Go

theorem bmod_int64 {n : Int} (lower : -2 ^ 63 ≤ n) (upper : n < 2 ^ 63) :
    n.bmod (2 ^ 64) = n :=
  Int.bmod_eq_of_le (by omega) (by omega)

namespace Duration

theorem toInt_millisecond : millisecond.toInt = 1000000 := rfl

def Whole (d : Duration) : Prop := d.toInt % 1000000 = 0

instance (d : Duration) : Decidable d.Whole := inferInstanceAs (Decidable (_ = _))

theorem toInt_milliseconds {d : Duration} (h : 0 ≤ d.toInt) :
    d.milliseconds.toInt = d.toInt / 1000000 := by
  have hupper := d.toInt_lt
  rw [milliseconds, Int64.toInt_div, toInt_millisecond, Int.tdiv_eq_ediv_of_nonneg h,
    bmod_int64 (by omega) (by omega)]

/-- Up to here milliseconds can be counted in nanoseconds. -/
theorem toInt_ofMilliseconds {ms : Int64} (h : 0 ≤ ms.toInt) (small : ms.toInt ≤ 9223372036854) :
    (ofMilliseconds ms).toInt = ms.toInt * 1000000 := by
  rw [ofMilliseconds, Int64.toInt_mul, toInt_millisecond, bmod_int64 (by omega) (by omega)]

theorem whole_ofMilliseconds {ms : Int64} (h : 0 ≤ ms.toInt) (small : ms.toInt ≤ 9223372036854) :
    (ofMilliseconds ms).Whole := by
  rw [Whole, toInt_ofMilliseconds h small]
  omega

end Duration

namespace Time

/-- The last whole millisecond. -/
def floorMs (t : Time) : Time := t / 1000000 * 1000000

theorem unixMilli_floorMs (t : Time) : t.floorMs.unixMilli = t.unixMilli := by
  rw [unixMilli, floorMs, Int.mul_ediv_cancel _ (by decide), unixMilli]

variable {t : Int}

theorem toInt_unixMilli (lower : 0 ≤ t) (upper : t / 1000000 < 2 ^ 63) :
    (unixMilli t).toInt = t / 1000000 :=
  Int64.toInt_ofInt_of_le (by omega) upper

theorem ofUnixMilli_unixMilli (lower : 0 ≤ t) (upper : t / 1000000 < 2 ^ 63) :
    ofUnixMilli (unixMilli t) = floorMs t := by
  rw [ofUnixMilli, toInt_unixMilli lower upper, floorMs]

theorem isZero_of_nonneg (h : 0 ≤ t) : isZero t = false :=
  decide_eq_false fun hzero => by
    subst hzero
    exact absurd h (by decide)

theorem floorMs_nonneg (h : 0 ≤ t) : 0 ≤ floorMs t :=
  Int.mul_nonneg (Int.ediv_nonneg h (by decide)) (by decide)

end Time
end Go
