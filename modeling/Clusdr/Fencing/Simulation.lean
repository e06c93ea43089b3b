import Clusdr.Fencing.Exclusion
import Clusdr.Fencing.Fate

/-!
Implementations of a register. An implementation has states and actions of its
own; each admissible action stands for a list of register operations, which may
be empty (the action then leaves the register as it is). What a run of the
implementation leaves in the register is the run of those operations.
-/

namespace Fencing

variable {K H D : Type} [DecidableEq K] [DecidableEq H]

structure Simulation (p : Policy K H) (D S A : Type) where
  act : S → A → S
  /-- Actions the environment may choose in a state. -/
  may : S → A → Prop
  good : S → Prop
  view : S → Register K H D
  ops : A → List (Op K H D)
  good_act : ∀ s a, good s → may s a → good (act s a)
  view_act : ∀ s a, good s → may s a → view (act s a) = Register.run p (view s) (ops a)

namespace Simulation

variable {p : Policy K H} {S A : Type}

def run (sim : Simulation p D S A) (s : S) (as : List A) : S := as.foldl sim.act s

/-- Every action of the list is admissible where it is taken. -/
def Admissible (sim : Simulation p D S A) : S → List A → Prop
  | _, [] => True
  | s, a :: as => sim.may s a ∧ Admissible sim (sim.act s a) as

def opsOf (sim : Simulation p D S A) (as : List A) : List (Op K H D) := as.flatMap sim.ops

theorem run_view (sim : Simulation p D S A) {s : S} {as : List A} (good : sim.good s)
    (adm : sim.Admissible s as) :
    sim.good (sim.run s as) ∧
      sim.view (sim.run s as) = Register.run p (sim.view s) (sim.opsOf as) := by
  induction as generalizing s with
  | nil => exact ⟨good, rfl⟩
  | cons a as ih =>
      obtain ⟨hgood, hview⟩ := ih (sim.good_act s a good adm.1) adm.2
      refine ⟨hgood, ?_⟩
      rw [opsOf, List.flatMap_cons, Register.run_append, ← sim.view_act s a good adm.1]
      exact hview

/-- Per-action observations collected over a run. -/
def collect {B : Type} (sim : Simulation p D S A) (f : S → A → Option B) : S → List A → List B
  | _, [] => []
  | s, a :: as => (f s a).toList ++ collect sim f (sim.act s a) as

/-- If each action reports the token it mints, a run reports the tokens it mints. -/
theorem collect_minted (sim : Simulation p D S A) (f : S → A → Option UInt64)
    (law : ∀ s a, sim.good s → sim.may s a →
      (f s a).toList = Register.mintedAll p (sim.view s) (sim.ops a))
    {s : S} {as : List A} (good : sim.good s) (adm : sim.Admissible s as) :
    sim.collect f s as = Register.mintedAll p (sim.view s) (sim.opsOf as) := by
  induction as generalizing s with
  | nil => rfl
  | cons a as ih =>
      rw [collect, law s a good adm.1, ih (sim.good_act s a good adm.1) adm.2, opsOf, opsOf,
        List.flatMap_cons, Register.mintedAll_append, sim.view_act s a good adm.1]

/-- A grant that no action of the run ends has the data of its last refresh. -/
theorem get_run_spared (sim : Simulation p D S A) {s : S} (good : sim.good s)
    (admitted : Register.Admitted p (sim.view s)) {k : K} {g : Grant H D}
    (held : (sim.view s).grants.get k = some g) {as : List A} (adm : sim.Admissible s as)
    (spared : (sim.opsOf as).any (Register.ends k g) = false) :
    (sim.view (sim.run s as)).grants.get k =
      some { g with
        data := (((sim.opsOf as).filterMap (Register.refreshed k g)).getLast?).getD g.data } := by
  rw [(sim.run_view good adm).2]
  refine Register.get_run_of_fate admitted held ?_
  rw [Register.fate_eq, spared]
  rfl

theorem run_append (sim : Simulation p D S A) (s : S) (as bs : List A) :
    sim.run s (as ++ bs) = sim.run (sim.run s as) bs := List.foldl_append

theorem admissible_append (sim : Simulation p D S A) {s : S} {as bs : List A}
    (adm : sim.Admissible s (as ++ bs)) :
    sim.Admissible s as ∧ sim.Admissible (sim.run s as) bs := by
  induction as generalizing s with
  | nil => exact ⟨trivial, adm⟩
  | cons a as ih =>
      obtain ⟨has, hbs⟩ := ih adm.2
      exact ⟨⟨adm.1, has⟩, hbs⟩

theorem admissible_of_forall (sim : Simulation p D S A) {as : List A} (h : ∀ s, ∀ a ∈ as, sim.may s a)
    (s : S) : sim.Admissible s as := by
  induction as generalizing s with
  | nil => trivial
  | cons a as ih =>
      exact ⟨h s a List.mem_cons_self, ih (fun s b hb => h s b (List.mem_cons_of_mem a hb)) _⟩

theorem opsOf_append (sim : Simulation p D S A) (as bs : List A) :
    sim.opsOf (as ++ bs) = sim.opsOf as ++ sim.opsOf bs := List.flatMap_append

/-- What each action says of its operations, the list says of its own. -/
theorem any_opsOf (sim : Simulation p D S A) {f : Op K H D → Bool} {k : A → Bool}
    (law : ∀ a, (sim.ops a).any f = k a) (as : List A) : (sim.opsOf as).any f = as.any k := by
  induction as with
  | nil => rfl
  | cons a as ih =>
      rw [opsOf, List.flatMap_cons, List.any_append, law a, List.any_cons]
      exact congrArg (k a || ·) ih

theorem filterMap_opsOf (sim : Simulation p D S A) {B C : Type} {f : Op K H D → Option B}
    {h : B → C} {k : A → Option C} (law : ∀ a, ((sim.ops a).filterMap f).map h = (k a).toList)
    (as : List A) : ((sim.opsOf as).filterMap f).map h = as.filterMap k := by
  induction as with
  | nil => rfl
  | cons a as ih =>
      rw [opsOf, List.flatMap_cons, List.filterMap_append, List.map_append, law a,
        List.filterMap_cons]
      change (k a).toList ++ ((sim.opsOf as).filterMap f).map h = _
      rw [ih]
      cases k a with
      | none => rfl
      | some c => rfl

/-- What a run leaves of the grant `g` of `k`, and how takes and renewals of the key are answered
at any point of it. -/
structure Holds (sim : Simulation p D S A) (s : S) (k : K) (g : Grant H D) (as : List A) :
    Prop where
  last : (sim.view (sim.run s as)).grants.get k =
    some { g with
      data := (((sim.opsOf as).filterMap (Register.refreshed k g)).getLast?).getD g.data }
  take : ∀ before after h d, as = before ++ after → p.holder h = true →
    (Register.step p (sim.view (sim.run s before)) (.take k h d)).2 =
      if g.holder = h then .taken g.token else .held g.token
  renew : ∀ before after h token d, as = before ++ after →
    (Register.step p (sim.view (sim.run s before)) (.renew k h token d)).2 =
      if g.holder = h ∧ g.token = token then .done else .refused .mismatch

theorem holds_of_spared (sim : Simulation p D S A) {s : S} (good : sim.good s)
    (admitted : Register.Admitted p (sim.view s)) {k : K} {g : Grant H D}
    (held : (sim.view s).grants.get k = some g) {as : List A} (adm : sim.Admissible s as)
    (spared : (sim.opsOf as).any (Register.ends k g) = false) : sim.Holds s k g as := by
  have key : p.key k = true := admitted.key k g held
  have hbefore : ∀ before after, as = before ++ after →
      ∃ data, (sim.view (sim.run s before)).grants.get k = some { g with data } := by
    rintro before after rfl
    rw [opsOf_append, List.any_append, Bool.or_eq_false_iff] at spared
    exact ⟨_, sim.get_run_spared good admitted held (sim.admissible_append adm).1 spared.1⟩
  refine ⟨sim.get_run_spared good admitted held adm spared, ?_, ?_⟩
  · intro before after h d split holder
    obtain ⟨data, hdata⟩ := hbefore before after split
    exact Register.reply_take_held hdata key holder d
  · intro before after h token d split
    obtain ⟨data, hdata⟩ := hbefore before after split
    exact Register.reply_renew_held hdata key h token d

section FromEmpty

variable (sim : Simulation p D S A) {s : S} (good : sim.good s)
  (start : sim.view s = Register.empty)

include good start

theorem run_admitted {as : List A} (adm : sim.Admissible s as) :
    Register.Admitted p (sim.view (sim.run s as)) := by
  rw [(sim.run_view good adm).2, start]
  exact Register.admitted_run p (Register.admitted_empty p) _

omit good in
theorem unwrapped_of_few {as : List A}
    (few : (Register.mintedAll p (sim.view s) (sim.opsOf as)).length < 2 ^ 64) :
    Register.Unwrapped p (sim.view s) (sim.opsOf as) := by
  unfold Register.Unwrapped
  rw [start] at few ⊢
  exact lt_of_eq_of_lt (Nat.zero_add _) few

theorem run_fenced {as : List A} (adm : sim.Admissible s as)
    (few : (Register.mintedAll p (sim.view s) (sim.opsOf as)).length < 2 ^ 64) :
    Register.Fenced (sim.view (sim.run s as)) := by
  have unwrapped := sim.unwrapped_of_few start few
  rw [(sim.run_view good adm).2]
  rw [start] at unwrapped ⊢
  exact Register.fenced_run unwrapped Register.fenced_empty

/-- `Register.data_at_token_iff` for an implementation: a grant seen at one
point of a run and its token looked up again later. -/
theorem data_at_token_iff {as bs : List A} (adm : sim.Admissible s (as ++ bs))
    (few : (Register.mintedAll p (sim.view s) (sim.opsOf (as ++ bs))).length < 2 ^ 64)
    {k : K} {g : Grant H D} (held : (sim.view (sim.run s as)).grants.get k = some g)
    {P : D → Prop} (now : P g.data) :
    (∀ g', (sim.view (sim.run s (as ++ bs))).grants.get k = some g' →
        g'.token = g.token → P g'.data) ↔
      (sim.opsOf bs).any (Register.ends k g) = true ∨
        ∀ d, ((sim.opsOf bs).filterMap (Register.refreshed k g)).getLast? = some d → P d := by
  obtain ⟨has, hbs⟩ := sim.admissible_append adm
  obtain ⟨hgood, hview⟩ := sim.run_view good has
  have unwrapped := sim.unwrapped_of_few start few
  rw [opsOf_append] at unwrapped few
  have hfew : (Register.mintedAll p (sim.view s) (sim.opsOf as)).length < 2 ^ 64 := by
    rw [Register.mintedAll_append, List.length_append] at few
    omega
  have hrest := (Register.unwrapped_append unwrapped).2
  rw [← hview] at hrest
  rw [sim.run_append, (sim.run_view hgood hbs).2]
  exact Register.data_at_token_iff (sim.run_admitted good start has)
    (sim.run_fenced good start has hfew) held hrest now

end FromEmpty

end Simulation
end Fencing
