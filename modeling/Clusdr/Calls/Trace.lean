import Clusdr.Calls.Program

/-!
The calls a program has made so far, each with its answer. A program keeps to a
protocol that remembers them all exactly when each call it can make is allowed by
the calls before it.
-/

namespace Calls

variable {C α : Type} {A : C → Type}

abbrev Past (C : Type) (A : C → Type) := List (Σ c, A c)

/-- The first calls of some run of the program. -/
inductive Prog.Trace : Prog C A α → Past C A → Prop
  | nil (p : Prog C A α) : p.Trace []
  | call {c : C} {k : A c → Prog C A α} (a : A c) {made : Past C A} (h : (k a).Trace made) :
      Prog.Trace (.call c k) (⟨c, a⟩ :: made)

/-- The protocol that remembers every call. -/
def history (ok : Past C A → C → Prop) : Protocol C A (Past C A) where
  allows := ok
  next past c a := past ++ [⟨c, a⟩]

theorem Prog.Obeys.allowed {ok : Past C A → C → Prop} {p : Prog C A α} {past : Past C A}
    {post : α → Past C A → Prop} (h : p.Obeys (history ok) past post) {before after : Past C A}
    {c : C} {a : A c} (trace : p.Trace (before ++ ⟨c, a⟩ :: after)) : ok (past ++ before) c := by
  induction before generalizing p past with
  | nil =>
      cases trace with
      | call a _ =>
          rw [List.append_nil]
          exact h.1
  | cons made before ih =>
      cases trace with
      | call a rest =>
          have hnext := ih (h.2 a trivial) rest
          rwa [history, List.append_assoc] at hnext

end Calls
