import Mathlib.Init

/-!
Sleeping on a shared state until the next broadcast. Broadcasts are counted: who fell
asleep when the count was `n` is woken once it is larger, and a broadcast before that
is lost on them. The state says who may sleep.
-/

namespace Sync

variable {X W : Type} (count : X → Nat) (Blocked : W → X → Prop)

/-- Nobody who is not about to be woken sleeps without being blocked. -/
def Sound (asleep : W → Nat → Prop) (x : X) : Prop :=
  ∀ w n, asleep w n → n = count x → Blocked w x

/-- Who sleeps fell asleep in the past. -/
def Past (asleep : W → Nat → Prop) (x : X) : Prop := ∀ w n, asleep w n → n ≤ count x

/-- A change of the state that broadcasts, or unblocks nobody. -/
def Announces (x x' : X) : Prop :=
  count x < count x' ∨ count x' = count x ∧ ∀ w, Blocked w x → Blocked w x'

variable {count Blocked} {asleep : W → Nat → Prop} {x x' : X}

theorem Announces.refl (x : X) : Announces count Blocked x x := Or.inr ⟨rfl, fun _ h => h⟩

theorem Announces.past (h : Announces count Blocked x x') (past : Past count asleep x) :
    Past count asleep x' := by
  intro w n hasleep
  have hn := past w n hasleep
  cases h with
  | inl hcount => exact Nat.le_of_lt (Nat.lt_of_le_of_lt hn hcount)
  | inr hquiet => exact hquiet.1 ▸ hn

theorem Announces.sound (h : Announces count Blocked x x') (past : Past count asleep x)
    (sound : Sound count Blocked asleep x) : Sound count Blocked asleep x' := by
  intro w n hasleep hlast
  cases h with
  | inl hcount => exact absurd (hlast ▸ past w n hasleep) (Nat.not_le_of_lt hcount)
  | inr hquiet => exact hquiet.2 w (sound w n hasleep (hlast.trans hquiet.1))

/-- Falling asleep is sound exactly for who is blocked at that moment. -/
theorem sound_sleep {asleep' : W → Nat → Prop} {w : W} (sound : Sound count Blocked asleep x)
    (falls : asleep' w (count x))
    (others : ∀ v n, asleep' v n → asleep v n ∨ v = w ∧ n = count x) :
    Sound count Blocked asleep' x ↔ Blocked w x := by
  constructor
  · intro h
    exact h w (count x) falls rfl
  · intro hblocked v n hasleep hlast
    cases others v n hasleep with
    | inl hold => exact sound v n hold hlast
    | inr hnew => exact hnew.1 ▸ hblocked

end Sync
