import Mathlib.Data.List.Induction

/-!
Runs of a state under a step function. A condition on a step is judged in the
state the step is taken from; an invariant may also speak of the steps taken so
far.
-/

namespace Runs

variable {S E : Type}

def run (step : S → E → S) (s : S) (es : List E) : S := es.foldl step s

/-- Every step of the run meets `ok` in the state it is taken from. -/
def Along (step : S → E → S) (ok : S → E → Prop) : S → List E → Prop
  | _, [] => True
  | s, e :: es => ok s e ∧ Along step ok (step s e) es

instance decidableAlong (step : S → E → S) (ok : S → E → Prop) [∀ s e, Decidable (ok s e)] :
    ∀ s es, Decidable (Along step ok s es)
  | _, [] => isTrue trivial
  | s, e :: es =>
      have := decidableAlong step ok (step s e) es
      inferInstanceAs (Decidable (ok s e ∧ _))

variable {step : S → E → S} {ok : S → E → Prop}

theorem run_cons (s : S) (e : E) (es : List E) :
    run step s (e :: es) = run step (step s e) es := rfl

theorem run_append (s : S) (xs ys : List E) :
    run step s (xs ++ ys) = run step (run step s xs) ys := List.foldl_append

theorem along_append {s : S} {xs ys : List E} :
    Along step ok s (xs ++ ys) ↔ Along step ok s xs ∧ Along step ok (run step s xs) ys := by
  induction xs generalizing s with
  | nil => exact (iff_of_eq (true_and _)).symm
  | cons x xs ih => exact (and_congr_right fun _ => ih).trans and_assoc.symm

theorem Along.of_forall_mem {s : S} {es : List E} (h : ∀ s, ∀ e ∈ es, ok s e) :
    Along step ok s es := by
  induction es generalizing s with
  | nil => trivial
  | cons e es ih =>
      exact ⟨h s e List.mem_cons_self, ih fun s e he => h s e (List.mem_cons_of_mem _ he)⟩

/-- A condition that does not look at the state. -/
theorem along_iff_forall_mem {good : E → Prop} {s : S} {es : List E} :
    Along step (fun _ e => good e) s es ↔ ∀ e ∈ es, good e := by
  induction es generalizing s with
  | nil => exact iff_of_true trivial nofun
  | cons e es ih => rw [Along, ih, List.forall_mem_cons]

theorem Along.mono {ok' : S → E → Prop} (imp : ∀ s e, ok s e → ok' s e) {s : S} {es : List E}
    (h : Along step ok s es) : Along step ok' s es := by
  induction es generalizing s with
  | nil => trivial
  | cons e es ih => exact ⟨imp s e h.1, ih h.2⟩

theorem Along.and {ok' : S → E → Prop} {s : S} {es : List E} (h : Along step ok s es)
    (h' : Along step ok' s es) : Along step (fun s e => ok s e ∧ ok' s e) s es := by
  induction es generalizing s with
  | nil => trivial
  | cons e es ih => exact ⟨⟨h.1, h'.1⟩, ih h.2 h'.2⟩

/-- What one step preserves, a run preserves. -/
theorem invariant (Inv : List E → S → Prop) {s : S} (init : Inv [] s)
    (keep : ∀ past s e, Inv past s → ok s e → Inv (past ++ [e]) (step s e)) {es : List E}
    (h : Along step ok s es) : Inv es (run step s es) := by
  induction es using List.reverseRecOn with
  | nil => exact init
  | append_singleton es e ih =>
      obtain ⟨hes, he⟩ := along_append.mp h
      rw [run_append]
      exact keep es _ e (ih hes) he.1

/-- What an invariant says of each step. -/
theorem Along.of_invariant (Inv : S → Prop) {good : S → E → Prop} {s : S} (init : Inv s)
    (keep : ∀ s e, Inv s → ok s e → Inv (step s e) ∧ good s e) {es : List E}
    (h : Along step ok s es) : Along step good s es := by
  induction es generalizing s with
  | nil => trivial
  | cons e es ih =>
      obtain ⟨hinv, hgood⟩ := keep s e init h.1
      exact ⟨hgood, ih hinv h.2⟩

/-- And the state before any step of the run has it too. -/
theorem invariant_before (Inv : List E → S → Prop) {s : S} (init : Inv [] s)
    (keep : ∀ past s e, Inv past s → ok s e → Inv (past ++ [e]) (step s e))
    {es before after : List E} {e : E} (h : Along step ok s es) (split : es = before ++ e :: after) :
    Inv before (run step s before) ∧ ok (run step s before) e := by
  subst split
  obtain ⟨hbefore, hrest⟩ := along_append.mp h
  exact ⟨invariant Inv init keep hbefore, hrest.1⟩

/-- If each step keeps `P` exactly when it is `good`, a run ends in `P` exactly when
all its steps are. -/
theorem holds_iff_along (Inv : List E → S → Prop) {P : S → Prop} {good : S → E → Prop} {s : S}
    (init : Inv [] s) (holds : P s)
    (keep : ∀ past s e, Inv past s → ok s e →
      Inv (past ++ [e]) (step s e) ∧ (P (step s e) ↔ P s ∧ good s e))
    {es : List E} (h : Along step ok s es) : P (run step s es) ↔ Along step good s es := by
  induction es using List.reverseRecOn with
  | nil => exact iff_of_true holds trivial
  | append_singleton es e ih =>
      obtain ⟨hes, he⟩ := along_append.mp h
      have hinv := invariant Inv init (fun past s e hinv hok => (keep past s e hinv hok).1) hes
      rw [run_append, along_append, ← ih hes]
      refine (keep es _ e hinv he.1).2.trans (and_congr_right fun _ => ?_)
      exact (iff_of_eq (and_true _)).symm

/-- A quantity that grows by at most one in a step stays below its bound in a run of
fewer steps than are left to it. -/
theorem Along.bounded (Inv : S → Prop) (size : S → Nat) {bound : Nat} {s : S} (init : Inv s)
    (keep : ∀ s e, Inv s → ok s e → size s + 1 < bound →
      Inv (step s e) ∧ size (step s e) ≤ size s + 1)
    {es : List E} (room : size s + es.length < bound) (h : Along step ok s es) :
    Along step (fun s e => ok s e ∧ size s + 1 < bound) s es := by
  induction es generalizing s with
  | nil => trivial
  | cons e es ih =>
      rw [List.length_cons] at room
      have hnow : size s + 1 < bound := by omega
      obtain ⟨hinv, hsize⟩ := keep s e init h.1 hnow
      exact ⟨⟨h.1, hnow⟩, ih hinv (by omega) h.2⟩

/-- Every state of the run, the first and the last included, has `P`. -/
def Always (step : S → E → S) (P : S → Prop) : S → List E → Prop
  | s, [] => P s
  | s, e :: es => P s ∧ Always step P (step s e) es

theorem Always.last {P : S → Prop} {s : S} {es : List E} (h : Always step P s es) :
    P (run step s es) := by
  induction es generalizing s with
  | nil => exact h
  | cons e es ih => exact ih h.2

/-- What an invariant says of a state, every state of a run has. -/
theorem Always.of_invariant (Inv : S → Prop) {P : S → Prop} {s : S} (init : Inv s)
    (keep : ∀ s e, Inv s → ok s e → Inv (step s e)) (holds : ∀ s, Inv s → P s) {es : List E}
    (h : Along step ok s es) : Always step P s es := by
  induction es generalizing s with
  | nil => exact holds s init
  | cons e es ih => exact ⟨holds s init, ih (keep s e init h.1) h.2⟩

/-- Conditions that agree where an invariant holds agree along a run. -/
theorem always_congr (Inv : S → Prop) {P Q : S → Prop} {s : S} (init : Inv s)
    (keep : ∀ s e, Inv s → Inv (step s e)) (agree : ∀ s, Inv s → (P s ↔ Q s)) (es : List E) :
    Always step P s es ↔ Always step Q s es := by
  induction es generalizing s with
  | nil => exact agree s init
  | cons e es ih => exact and_congr (agree s init) (ih (keep s e init))

/-- If a step from a state with `P` leads to one exactly when it is `good`, all
states of a run have `P` exactly when all its steps are. -/
theorem always_iff_along (Inv : S → Prop) {P : S → Prop} {good : S → E → Prop} {s : S}
    (init : Inv s) (holds : P s)
    (keep : ∀ s e, Inv s → ok s e → P s → Inv (step s e) ∧ (P (step s e) ↔ good s e))
    {es : List E} (h : Along step ok s es) : Always step P s es ↔ Along step good s es := by
  induction es generalizing s with
  | nil => exact iff_of_true holds trivial
  | cons e es ih =>
      obtain ⟨hinv, hgood⟩ := keep s e init h.1 holds
      rw [Always, Along, and_iff_right holds]
      constructor
      · intro always
        have hnext : P (step s e) := by
          cases es with
          | nil => exact always
          | cons e' es => exact always.1
        exact ⟨hgood.mp hnext, (ih hinv hnext h.2).mp always⟩
      · rintro ⟨hok, along⟩
        exact (ih hinv (hgood.mpr hok) h.2).mpr along

end Runs
