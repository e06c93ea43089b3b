import Mathlib.Algebra.GroupWithZero.Nat

/-!
Counters of 64 bits. They count as the naturals do until they wrap, and a counter
that is not zero after a step has not wrapped at it.
-/

namespace Go.Counter

theorem toNat_succ {n : UInt64} (room : n.toNat + 1 < 2 ^ 64) :
    (n + 1).toNat = n.toNat + 1 := by
  rw [UInt64.toNat_add, UInt64.toNat_one, Nat.mod_eq_of_lt room]

/-- A wrapping counter is never ahead of the number of its steps. -/
theorem toNat_succ_le (n : UInt64) : (n + 1).toNat ≤ n.toNat + 1 := by
  rw [UInt64.toNat_add, UInt64.toNat_one]
  exact Nat.mod_le _ _

theorem lt_succ {n : UInt64} (room : n.toNat + 1 < 2 ^ 64) : n < n + 1 := by
  rw [UInt64.lt_iff_toNat_lt, toNat_succ room]
  exact Nat.lt_succ_self _

theorem room_of_lt {a b : UInt64} (h : a < b) : a.toNat + 1 < 2 ^ 64 := by
  have hlt := b.toNat_lt
  have hle := UInt64.lt_iff_toNat_lt.mp h
  omega

theorem room_of_succ_ne_zero {n : UInt64} (h : n + 1 ≠ 0) : n.toNat + 1 < 2 ^ 64 := by
  refine Nat.lt_of_not_le fun hfull => h (UInt64.toNat_inj.mp ?_)
  have hlt := n.toNat_lt
  have heq : n.toNat + 1 = 2 ^ 64 := by omega
  rw [UInt64.toNat_add, UInt64.toNat_one, heq, Nat.mod_self, UInt64.toNat_zero]

theorem toNat_pred {n : UInt64} (h : 0 < n.toNat) : (n - 1).toNat = n.toNat - 1 := by
  have hle : (1 : UInt64) ≤ n := UInt64.le_iff_toNat_le.mpr h
  rw [UInt64.toNat_sub_of_le _ _ hle, UInt64.toNat_one]

end Go.Counter
