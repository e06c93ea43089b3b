import Mathlib.Data.Set.Defs

/-!
Requests that parties hand on. Where a party hands a request depends on the party
alone, so the request follows one chain, which may be finite or not.
-/

namespace Forwarding

/-- What a party makes of a request: it keeps it, hands it to nobody who answers, or
hands it to another party. -/
inductive Next (D : Type) where
  | stays
  | lost
  | reaches (d : D)
deriving DecidableEq

variable {D : Type}

/-- How often a request that starts at `d` is handed on, up to a bound. -/
def hops (next : D → Next D) : Nat → D → Nat
  | 0, _ => 0
  | n + 1, d =>
      match next d with
      | .stays => 0
      | .lost => 1
      | .reaches d' => hops next n d' + 1

variable {next : D → Next D}

theorem hops_eq_zero {d : D} (h : next d = .stays) (n : Nat) : hops next n d = 0 := by
  cases n with
  | zero => rfl
  | succ n => rw [hops, h]

/-- A request is handed on at most once exactly if whom it reaches keeps it. -/
theorem hops_le_one_iff {d : D} :
    (∀ n, hops next n d ≤ 1) ↔ ∀ d', next d = .reaches d' → next d' = .stays := by
  constructor
  · intro h d' hd
    have htwo := h 2
    rw [hops, hd] at htwo
    cases hd' : next d' with
    | stays => rfl
    | lost => simp [hops, hd'] at htwo
    | reaches d'' => simp [hops, hd'] at htwo
  · intro h n
    cases n with
    | zero => exact Nat.zero_le 1
    | succ n =>
        rw [hops]
        split
        · exact Nat.zero_le 1
        · exact Nat.le_refl 1
        · rename_i d' hd
          exact Nat.le_of_eq (congrArg (· + 1) (hops_eq_zero (h d' hd) n))

/-- Parties that hand a request on among themselves do so for ever. -/
theorem hops_of_closed {s : Set D} (closed : ∀ d ∈ s, ∃ d' ∈ s, next d = .reaches d') (n : Nat)
    {d : D} (hd : d ∈ s) : hops next n d = n := by
  induction n generalizing d with
  | zero => rfl
  | succ n ih =>
      obtain ⟨d', hd', hnext⟩ := closed d hd
      rw [hops, hnext]
      exact congrArg (· + 1) (ih hd')

end Forwarding
