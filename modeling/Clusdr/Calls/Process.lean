import Clusdr.Calls.Program

/-!
Programs at work in a world that answers them. The world may choose how it
reacts to a call. If the reactions fit a protocol, what they keep holds as long
as the programs keep to the protocol; several programs may run side by side when
what each of them counts on survives the calls of the others.
-/

namespace Calls

variable {C W Q α : Type} {A X : C → Type}

/-- The pending call, answered; a program that has returned does nothing. -/
def answer (react : W → (c : C) → X c → W × A c) (choice : (c : C) → X c) :
    W → Prog C A α → W × Prog C A α
  | w, .ret a => (w, .ret a)
  | w, .call c k => ((react w c (choice c)).1, k (react w c (choice c)).2)

/-- The reactions fit the protocol: `Fits w q` is what a program in the state `q` counts
on. -/
def Respects (π : Protocol C A Q) (react : W → (c : C) → X c → W × A c) (Inv : W → Prop)
    (Fits : W → Q → Prop) : Prop :=
  ∀ w q c x, Inv w → Fits w q → π.allows q c →
    π.may q c (react w c x).2 ∧ Inv (react w c x).1 ∧
      Fits (react w c x).1 (π.next q c (react w c x).2)

/-- A program in some state of the protocol that fits the world. -/
def Minds (π : Protocol C A Q) (Fits : W → Q → Prop) (w : W) (p : Prog C A α) : Prop :=
  ∃ q, Fits w q ∧ p.Obeys π q fun _ _ => True

variable {π : Protocol C A Q} {react : W → (c : C) → X c → W × A c} {Inv : W → Prop}
  {Fits : W → Q → Prop}

theorem Respects.answer (respects : Respects π react Inv Fits) {w : W} {p : Prog C A α}
    (inv : Inv w) (minds : Minds π Fits w p) (choice : (c : C) → X c) :
    Inv (Calls.answer react choice w p).1 ∧
      Minds π Fits (Calls.answer react choice w p).1 (Calls.answer react choice w p).2 := by
  obtain ⟨q, hfits, hobeys⟩ := minds
  cases p with
  | ret a => exact ⟨inv, q, hfits, hobeys⟩
  | call c k =>
      obtain ⟨hmay, hinv, hnext⟩ := respects w q c (choice c) inv hfits hobeys.1
      exact ⟨hinv, _, hnext, hobeys.2 _ hmay⟩

/-- What a program counts on survives the calls of the others. -/
def Undisturbed (π : Protocol C A Q) (react : W → (c : C) → X c → W × A c) (Inv : W → Prop)
    (Fits : W → Q → Prop) : Prop :=
  ∀ w q c x, Inv w → Fits w q → π.allows q c → ∀ q', Fits w q' → Fits (react w c x).1 q'

theorem Undisturbed.minds (undisturbed : Undisturbed π react Inv Fits) {w : W} {p p' : Prog C A α}
    (inv : Inv w) (minds : Minds π Fits w p) (choice : (c : C) → X c)
    (minds' : Minds π Fits w p') : Minds π Fits (Calls.answer react choice w p).1 p' := by
  obtain ⟨q, hfits, hobeys⟩ := minds
  obtain ⟨q', hfits', hobeys'⟩ := minds'
  cases p with
  | ret a => exact ⟨q', hfits', hobeys'⟩
  | call c k => exact ⟨q', undisturbed w q c (choice c) inv hfits hobeys.1 q' hfits', hobeys'⟩

/-- Programs side by side. -/
structure Pool (W C : Type) (A : C → Type) (α : Type) where
  world : W
  running : List (Prog C A α) := []

namespace Pool

def spawn (s : Pool W C A α) (p : Prog C A α) : Pool W C A α :=
  { s with running := s.running ++ [p] }

/-- The `i`-th program makes its pending call. -/
def answer (react : W → (c : C) → X c → W × A c) (s : Pool W C A α) (i : Nat)
    (choice : (c : C) → X c) : Pool W C A α :=
  match s.running[i]? with
  | some p =>
      ⟨(Calls.answer react choice s.world p).1,
        s.running.set i (Calls.answer react choice s.world p).2⟩
  | none => s

structure Orderly (π : Protocol C A Q) (Inv : W → Prop) (Fits : W → Q → Prop)
    (s : Pool W C A α) : Prop where
  inv : Inv s.world
  minds : ∀ p ∈ s.running, Minds π Fits s.world p

theorem Orderly.spawn {s : Pool W C A α} (orderly : s.Orderly π Inv Fits) {p : Prog C A α}
    (minds : Minds π Fits s.world p) : (s.spawn p).Orderly π Inv Fits := by
  refine ⟨orderly.inv, fun p' hp' => ?_⟩
  rcases List.mem_append.mp hp' with hp' | hp'
  · exact orderly.minds p' hp'
  · obtain rfl := List.mem_singleton.mp hp'
    exact minds

theorem Orderly.answer (respects : Respects π react Inv Fits)
    (undisturbed : Undisturbed π react Inv Fits) {s : Pool W C A α}
    (orderly : s.Orderly π Inv Fits) (i : Nat) (choice : (c : C) → X c) :
    (s.answer react i choice).Orderly π Inv Fits := by
  unfold Pool.answer
  split
  next p hp =>
    have hminds := orderly.minds p (List.mem_of_getElem? hp)
    obtain ⟨hinv, hself⟩ := respects.answer orderly.inv hminds choice
    refine ⟨hinv, fun p' hp' => ?_⟩
    rcases List.mem_or_eq_of_mem_set hp' with hp' | rfl
    · exact undisturbed.minds orderly.inv hminds choice (orderly.minds p' hp')
    · exact hself
  next => exact orderly

end Pool

end Calls
