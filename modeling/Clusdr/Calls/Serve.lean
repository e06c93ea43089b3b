import Clusdr.Calls.Program

/-!
Programs run to their end by a world that answers every call at once.
-/

namespace Calls

variable {C W ε α β : Type} {A : C → Type}

/-- The world after the program, and what the program returns. -/
def serve (reply : W → (c : C) → W × A c) : W → Prog C A α → W × α
  | w, .ret a => (w, a)
  | w, .call c k => serve reply (reply w c).1 (k (reply w c).2)

variable {reply : W → (c : C) → W × A c}

theorem serve_bind (w : W) (p : Prog C A α) (f : α → Prog C A β) :
    serve reply w (p >>= f) = serve reply (serve reply w p).1 (f (serve reply w p).2) := by
  induction p generalizing w with
  | ret a => rfl
  | call c k ih => exact ih _ _

/-- After a first part that returns a result, the rest goes on from there. -/
theorem serve_bind_ok {w w' : W} {x : ExceptT ε (Prog C A) α} {f : α → ExceptT ε (Prog C A) β}
    {a : α} (h : serve reply w x.run = (w', .ok a)) :
    serve reply w (x >>= f).run = serve reply w' (f a).run := by
  change serve reply w (x.run >>= ExceptT.bindCont f) = _
  rw [serve_bind, h]
  rfl

end Calls
