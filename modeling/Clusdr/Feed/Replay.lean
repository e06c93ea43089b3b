import Mathlib.Data.List.Basic

/-!
A reader that follows one value by its writes. A write travels behind the change
it tells, the reader copies the value at some moment, and from then on it replays
every write that reaches it, also those older than its copy.
-/

namespace Feed

variable {V : Type}

/-- The value `x` after the writes `xs`. -/
def latest (x : V) (xs : List V) : V := xs.getLast?.getD x

@[simp] theorem latest_nil (x : V) : latest x [] = x := rfl

@[simp] theorem latest_singleton (x y : V) : latest x [y] = y := rfl

theorem latest_append (x : V) (xs ys : List V) :
    latest x (xs ++ ys) = latest (latest x xs) ys := by
  rw [latest, latest, latest, List.getLast?_append]
  cases ys.getLast? with
  | none => rfl
  | some y => rfl

theorem latest_cons (x y : V) (xs : List V) : latest x (y :: xs) = latest y xs :=
  latest_append x [y] xs

/-- Writes that lead back to the value still do without the oldest of them. -/
theorem latest_tail {x : V} {xs : List V} (h : latest x xs = x) : latest x xs.tail = x := by
  cases xs with
  | nil => exact h
  | cons y xs =>
      cases xs with
      | nil => rfl
      | cons z xs => exact h

theorem latest_of_forall_eq {x y : V} {xs : List V} (ne : xs ≠ []) (h : ∀ z ∈ xs, z = y) :
    latest x xs = y := by
  rw [latest, List.getLast?_eq_some_getLast ne, Option.getD_some]
  exact h _ (List.getLast_mem ne)

/-- The value, the writes on their way to the reader, and the reader's copy. -/
@[ext] structure Followed (V : Type) where
  value : V
  pending : List V
  copy : Option V

inductive Follow (V : Type) where
  /-- The value changes as the writes tell, and they set out. -/
  | write (xs : List V)
  | take
  /-- The oldest write reaches the reader; one without a copy ignores it. -/
  | arrive

namespace Followed

def step (f : Followed V) : Follow V → Followed V
  | .write xs => { f with value := latest f.value xs, pending := f.pending ++ xs }
  | .take => { f with copy := some f.value }
  | .arrive =>
      { f with
        pending := f.pending.tail
        copy := f.copy.map fun c => f.pending.head?.getD c }

/-- What is on its way leads to the value, from the value itself and from the copy. -/
structure Current (f : Followed V) : Prop where
  value : latest f.value f.pending = f.value
  copy : ∀ c ∈ f.copy, latest c f.pending = f.value

theorem current_step {f : Followed V} (h : f.Current) (op : Follow V) : (f.step op).Current := by
  cases op with
  | write xs =>
      have hfrom : ∀ c, latest c f.pending = f.value →
          latest c (f.pending ++ xs) = latest f.value xs := fun c hc => by
        rw [latest_append, hc]
      refine ⟨?_, fun c hc => hfrom c (h.copy c hc)⟩
      change latest (latest f.value xs) (f.pending ++ xs) = latest f.value xs
      -- The newest of `xs` decides; without one, the value is what it was.
      cases hlast : xs.getLast? with
      | none =>
          rw [List.getLast?_eq_none_iff.mp hlast, List.append_nil]
          exact h.value
      | some x => rw [latest, latest, List.getLast?_append, hlast]; rfl
  | take => exact ⟨h.value, fun c hc => by cases hc; exact h.value⟩
  | arrive =>
      refine ⟨latest_tail h.value, fun c hc => ?_⟩
      obtain ⟨c', hc', rfl⟩ := Option.map_eq_some_iff.mp hc
      have hcopy := h.copy c' hc'
      change latest (f.pending.head?.getD c') f.pending.tail = f.value
      cases hpending : f.pending with
      | nil => rw [hpending] at hcopy; exact hcopy
      | cons x xs => rw [hpending, latest_cons] at hcopy; exact hcopy

theorem current_steps {f : Followed V} (h : f.Current) (ops : List (Follow V)) :
    (ops.foldl step f).Current := by
  induction ops generalizing f with
  | nil => exact h
  | cons op ops ih => exact ih (current_step h op)

/-- With nothing on its way, the copy is the value. -/
theorem Current.copy_eq {f : Followed V} (h : f.Current) (drained : f.pending = []) {c : V}
    (hc : f.copy = some c) : c = f.value := by
  have hcopy := h.copy c hc
  rwa [drained, latest_nil] at hcopy

end Followed

end Feed
