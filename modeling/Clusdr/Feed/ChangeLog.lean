import Mathlib.Data.List.Basic

/-!
A machine that emits events as it steps, and a reader that keeps a view of its state
by replaying them. The log of a run is exact if every step emits one event when it
changes the view and none when it does not.
-/

namespace Feed

variable {S A E V : Type}

/-- The state after the steps, and all that they emitted. -/
def history (step : S → A → S × List E) (s : S) : List A → S × List E
  | [] => (s, [])
  | a :: as =>
      let rest := history step (step s a).1 as
      (rest.1, (step s a).2 ++ rest.2)

/-- One step of the log: nothing happened to the view, or one event tells what did. -/
inductive Exact (replay : V → E → V) (v v' : V) : List E → Prop
  | silent (same : v' = v) : Exact replay v v' []
  | told (e : E) (replayed : v' = replay v e) (changed : v' ≠ v) : Exact replay v v' [e]

variable {replay : V → E → V} {v v' : V} {es : List E}

theorem Exact.foldl (h : Exact replay v v' es) : es.foldl replay v = v' := by
  cases h with
  | silent same => exact same.symm
  | told e replayed => exact replayed.symm

theorem Exact.length_of_ne (h : Exact replay v v' es) (changed : v' ≠ v) : es.length = 1 := by
  cases h with
  | silent same => exact absurd same changed
  | told => rfl

theorem Exact.eq_nil (h : Exact replay v v' es) (same : v' = v) : es = [] := by
  cases h with
  | silent => rfl
  | told e replayed changed => exact absurd same changed

/-- A log that is right step by step is right for a whole run. -/
theorem foldl_history {step : S → A → S × List E} {view : S → V} (Inv : S → Prop)
    (keep : ∀ s a, Inv s → Inv (step s a).1)
    (told : ∀ s a, Inv s → (step s a).2.foldl replay (view s) = view (step s a).1)
    {s : S} (init : Inv s) (as : List A) :
    Inv (history step s as).1 ∧
      (history step s as).2.foldl replay (view s) = view (history step s as).1 := by
  induction as generalizing s with
  | nil => exact ⟨init, rfl⟩
  | cons a as ih =>
      rw [history, List.foldl_append, told s a init]
      exact ih (keep s a init)

end Feed
