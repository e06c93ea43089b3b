import Clusdr.Runs.Along

/-!
Machines that answer every input. Two of them that stay related give the same
answers.
-/

namespace Runs

variable {S T E O : Type}

/-- The state after an input. -/
def next (f : S → E → S × O) (s : S) (e : E) : S := (f s e).1

/-- The answers to a sequence of inputs. -/
def outputs (f : S → E → S × O) : S → List E → List O
  | _, [] => []
  | s, e :: es => (f s e).2 :: outputs f (next f s e) es

/-- Two machines side by side, on the same inputs. -/
def both (f : S → E → S × O) (g : T → E → T × O) (s : S × T) (e : E) : S × T :=
  (next f s.1 e, next g s.2 e)

theorem related_run {f : S → E → S × O} {g : T → E → T × O} (R : S → T → Prop)
    {ok : S × T → E → Prop}
    (keep : ∀ s t e, R s t → ok (s, t) e →
      R (next f s e) (next g t e) ∧ (f s e).2 = (g t e).2)
    {s : S} {t : T} (related : R s t) {es : List E} (h : Along (both f g) ok (s, t) es) :
    R (run (next f) s es) (run (next g) t es) ∧ outputs f s es = outputs g t es := by
  induction es generalizing s t with
  | nil => exact ⟨related, rfl⟩
  | cons e es ih =>
      obtain ⟨hnext, hanswer⟩ := keep s t e related h.1
      obtain ⟨hlast, hanswers⟩ := ih hnext h.2
      refine ⟨hlast, ?_⟩
      rw [outputs, outputs, hanswer, hanswers]

end Runs
