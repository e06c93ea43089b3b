import Clusdr.Runs.Along

/-!
What the steps of a run produce. What is held and what comes in is what goes out
and what is held afterwards: a law of one step that a run inherits.
-/

namespace Runs

variable {S E O : Type} {step : S → E → S} {ok : S → E → Prop}

/-- What the steps of a run produce, in order. -/
def produced (step : S → E → S) (f : S → E → List O) : S → List E → List O
  | _, [] => []
  | s, e :: es => f s e ++ produced step f (step s e) es

theorem map_produced {P : Type} (g : List O → List P) (nil : g [] = [])
    (append : ∀ xs ys, g (xs ++ ys) = g xs ++ g ys) (f : S → E → List O) (s : S) (es : List E) :
    g (produced step f s es) = produced step (fun s e => g (f s e)) s es := by
  induction es generalizing s with
  | nil => exact nil
  | cons e es ih => rw [produced, append, ih, produced]

theorem conserved (level : S → List O) {ins outs : S → E → List O}
    (keep : ∀ s e, ok s e → level s ++ ins s e = outs s e ++ level (step s e)) {s : S}
    {es : List E} (h : Along step ok s es) :
    level s ++ produced step ins s es = produced step outs s es ++ level (run step s es) := by
  induction es generalizing s with
  | nil => exact List.append_nil _
  | cons e es ih =>
      rw [produced, produced, run_cons, ← List.append_assoc, keep s e h.1, List.append_assoc,
        ih h.2, List.append_assoc]

/-- A flag that is set when something bad is produced. -/
theorem flagged (flag : S → Bool) {f : S → E → List O} {bad : O → Bool}
    (keep : ∀ s e, ok s e → flag (step s e) = (flag s || (f s e).any bad)) {s : S} {es : List E}
    (h : Along step ok s es) :
    flag (run step s es) = (flag s || (produced step f s es).any bad) := by
  induction es generalizing s with
  | nil => exact (Bool.or_false _).symm
  | cons e es ih => rw [run_cons, ih h.2, keep s e h.1, produced, List.any_append, Bool.or_assoc]

end Runs
