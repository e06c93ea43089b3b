import Mathlib.Init

/-!
Programs that call their surroundings. A program returns, or makes a call and
goes on with the answer. A protocol says which calls a program may make in each
of its states, which answers it can count on and where they lead.
-/

namespace Calls

inductive Prog (C : Type) (A : C → Type) (α : Type) where
  | ret (a : α)
  | call (c : C) (k : A c → Prog C A α)

structure Protocol (C : Type) (A : C → Type) (Q : Type) where
  allows : Q → C → Prop
  may : (q : Q) → (c : C) → A c → Prop := fun _ _ _ => True
  next : (q : Q) → (c : C) → A c → Q

variable {C D Q ε α β : Type} {A : C → Type} {B : D → Type}

namespace Prog

def bind : Prog C A α → (α → Prog C A β) → Prog C A β
  | .ret a, f => f a
  | .call c k, f => .call c fun a => (k a).bind f

instance : Monad (Prog C A) where
  pure := .ret
  bind := .bind

def perform (c : C) : Prog C A (A c) := .call c .ret

/-- The program with each of its calls carried out by a program of its own. -/
def via (impl : (c : C) → Prog D B (A c)) : Prog C A α → Prog D B α
  | .ret a => .ret a
  | .call c k => (impl c).bind fun a => (k a).via impl

/-- From the state `q` the program keeps to the protocol, and returns in `post`. -/
def Obeys (π : Protocol C A Q) : Q → Prog C A α → (α → Q → Prop) → Prop
  | q, .ret a, post => post a q
  | q, .call c k, post => π.allows q c ∧ ∀ a, π.may q c a → Obeys π (π.next q c a) (k a) post

variable {π : Protocol C A Q} {q : Q}

theorem Obeys.mono {p : Prog C A α} {post post' : α → Q → Prop} (h : Obeys π q p post)
    (hpost : ∀ a q, post a q → post' a q) : Obeys π q p post' := by
  induction p generalizing q with
  | ret a => exact hpost a q h
  | call c k ih => exact ⟨h.1, fun a ha => ih a (h.2 a ha)⟩

theorem obeys_bind {p : Prog C A α} {f : α → Prog C A β} {post : β → Q → Prop} :
    Obeys π q (p >>= f) post ↔ Obeys π q p fun a q' => Obeys π q' (f a) post := by
  induction p generalizing q with
  | ret a => rfl
  | call c k ih =>
      exact and_congr_right fun _ => forall_congr' fun a => imp_congr_right fun _ => ih a

/-- A first part that returns an error is the whole program. -/
theorem obeys_bind_except {x : ExceptT ε (Prog C A) α} {f : α → ExceptT ε (Prog C A) β}
    {post : Except ε β → Q → Prop} :
    Obeys π q (x >>= f).run post ↔ Obeys π q x.run fun r q' => match r with
      | .ok a => Obeys π q' (f a).run post
      | .error e => post (.error e) q' := by
  change Obeys π q (x.run >>= ExceptT.bindCont f) post ↔ _
  rw [obeys_bind]
  constructor
  · refine fun h => h.mono fun r q' hr => ?_
    cases r <;> exact hr
  · refine fun h => h.mono fun r q' hr => ?_
    cases r <;> exact hr

/-- Programs that carry out the calls carry the protocol over. -/
theorem Obeys.via {ρ : Protocol D B Q} {impl : (c : C) → Prog D B (A c)} {p : Prog C A α}
    {post : α → Q → Prop}
    (refines : ∀ q c, π.allows q c →
      Obeys ρ q (impl c) fun a q' => π.may q c a ∧ q' = π.next q c a)
    (h : Obeys π q p post) : Obeys ρ q (p.via impl) post := by
  induction p generalizing q with
  | ret a => exact h
  | call c k ih =>
      refine obeys_bind.mpr ((refines q c h.1).mono ?_)
      rintro a q' ⟨hmay, rfl⟩
      exact ih a (h.2 a hmay)

/-- Every call of the program is in `ok`, whatever is answered. -/
def Every (ok : C → Prop) : Prog C A α → Prop
  | .ret _ => True
  | .call c k => ok c ∧ ∀ a, Every ok (k a)

theorem every_bind {ok : C → Prop} {p : Prog C A α} {f : α → Prog C A β} (h : Every ok p)
    (hf : ∀ a, Every ok (f a)) : Every ok (p >>= f) := by
  induction p with
  | ret a => exact hf a
  | call c k ih => exact ⟨h.1, fun a => ih a (h.2 a)⟩

theorem every_bind_except {ok : C → Prop} {x : ExceptT ε (Prog C A) α}
    {f : α → ExceptT ε (Prog C A) β} (h : Every ok x.run) (hf : ∀ a, Every ok (f a).run) :
    Every ok (x >>= f).run := by
  refine every_bind h fun r => ?_
  cases r with
  | ok a => exact hf a
  | error e => trivial

theorem Every.mono {ok ok' : C → Prop} {p : Prog C A α} (h : Every ok p)
    (hok : ∀ c, ok c → ok' c) : Every ok' p := by
  induction p with
  | ret a => trivial
  | call c k ih => exact ⟨hok c h.1, fun a => ih a (h.2 a)⟩

/-- Calls that leave the state of the protocol alone. -/
theorem Every.obeys {ok : C → Prop} {p : Prog C A α} (h : Every ok p)
    (idle : ∀ c, ok c → π.allows q c ∧ ∀ a, π.next q c a = q) :
    Obeys π q p fun _ q' => q' = q := by
  induction p with
  | ret a => rfl
  | call c k ih =>
      refine ⟨(idle c h.1).1, fun a _ => ?_⟩
      rw [(idle c h.1).2 a]
      exact ih a (h.2 a)

end Prog

end Calls
