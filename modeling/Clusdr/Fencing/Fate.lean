import Clusdr.Fencing.Tokens

/-!
The fate of one grant. What a run does to a live grant is determined by the
operations that present its holder or token, whatever else the run contains:
the first one that ends it ends it for good, and until then its data is what
the last refresh left.
-/

namespace Fencing.Register

variable {K H D : Type} [DecidableEq K] [DecidableEq H]

/-- A step as seen by a live grant. -/
theorem get_step_live {p : Policy K H} {r : Register K H D} (admitted : Admitted p r)
    {k : K} {g : Grant H D} (held : r.grants.get k = some g) (op : Op K H D) :
    (step p r op).1.grants.get k =
      if ends k g op then none
      else some { g with data := (refreshed k g op).getD g.data } := by
  have hkey := admitted.key k g held
  have hholder := admitted.holder k g held
  by_cases hk : opKey op = k
  · cases op with
    | take j h d =>
        change j = k at hk
        subst hk
        by_cases hh : h = g.holder
        · subst hh
          simp [step, hkey, hholder, held, ends, refreshed, put]
        · have hne : ¬ g.holder = h := fun e => hh e.symm
          by_cases ho : p.holder h = true <;>
            simp [step, hkey, ho, held, ends, refreshed, hh, hne]
    | drop j h token =>
        change j = k at hk
        subst hk
        by_cases own : g.holder = h ∧ g.token = token
        · obtain ⟨rfl, rfl⟩ := own
          simp [step, hkey, held, ends, remove]
        · have hne : ¬ (h = g.holder ∧ token = g.token) :=
            fun e => own ⟨e.1.symm, e.2.symm⟩
          simp [step, hkey, held, ends, refreshed, own, hne]
    | renew j h token d =>
        change j = k at hk
        subst hk
        by_cases own : g.holder = h ∧ g.token = token
        · obtain ⟨rfl, rfl⟩ := own
          simp [step, hkey, held, ends, refreshed, put]
        · have hne : ¬ (h = g.holder ∧ token = g.token) :=
            fun e => own ⟨e.1.symm, e.2.symm⟩
          simp [step, hkey, held, ends, refreshed, own, hne]
    | expire j token =>
        change j = k at hk
        subst hk
        by_cases own : g.token = token
        · subst own
          simp [step, hkey, held, ends, remove]
        · have hne : ¬ token = g.token := fun e => own e.symm
          simp [step, hkey, held, ends, refreshed, own, hne]
  · have hends : ends k g op = false := by
      cases he : ends k g op with
      | false => rfl
      | true => exact absurd (opKey_of_ends he) hk
    have hrefreshed : refreshed k g op = none := by
      cases hr : refreshed k g op with
      | none => rfl
      | some d => exact absurd (opKey_of_refreshed hr) hk
    rw [get_step_of_ne p r hk, held, hends, hrefreshed]
    rfl

/-- What a run leaves of a live grant; `none` once it has ended. -/
def fate (k : K) : Grant H D → List (Op K H D) → Option (Grant H D)
  | g, [] => some g
  | g, op :: ops =>
      if ends k g op then none
      else fate k { g with data := (refreshed k g op).getD g.data } ops

theorem get_run_of_fate {p : Policy K H} {r : Register K H D} (admitted : Admitted p r)
    {k : K} {g g' : Grant H D} (held : r.grants.get k = some g) {ops : List (Op K H D)}
    (live : fate k g ops = some g') : (run p r ops).grants.get k = some g' := by
  induction ops generalizing r g with
  | nil => cases live; exact held
  | cons op ops ih =>
      have hstep := get_step_live admitted held op
      simp only [fate] at live
      split at live
      · cases live
      · rename_i hends
        rw [if_neg hends] at hstep
        exact ih (admitted_change admitted (step_change p r op)) hstep live

theorem gone_run_of_fate {p : Policy K H} {r : Register K H D} (admitted : Admitted p r)
    (fenced : Fenced r) {k : K} {g : Grant H D} (held : r.grants.get k = some g)
    {ops : List (Op K H D)} (unwrapped : Unwrapped p r ops) (ended : fate k g ops = none) :
    Gone k g.token (run p r ops) := by
  induction ops generalizing r g with
  | nil => cases ended
  | cons op ops ih =>
      have hstep := get_step_live admitted held op
      have hrest := (unwrapped_cons unwrapped).2
      simp only [fate] at ended
      split at ended
      · rename_i hends
        rw [if_pos hends] at hstep
        apply gone_run hrest
        refine ⟨UInt64.le_trans (fenced k g held) (next_le_step unwrapped), ?_⟩
        intro u hu
        rw [hstep] at hu
        cases hu
      · rename_i hends
        rw [if_neg hends] at hstep
        have hgone := ih (admitted_change admitted (step_change p r op))
          (fenced_step unwrapped fenced) hstep hrest ended
        exact hgone

theorem ends_data (k : K) (g : Grant H D) (d : D) :
    ends k { g with data := d } = ends k g := by
  funext op
  cases op <;> rfl

theorem refreshed_data (k : K) (g : Grant H D) (d : D) :
    refreshed k { g with data := d } = refreshed k g := by
  funext op
  cases op <;> rfl

/-- The fate of a grant read off the operations that concern it. -/
theorem fate_eq (k : K) (g : Grant H D) (ops : List (Op K H D)) :
    fate k g ops =
      if ops.any (ends k g) then none
      else some { g with data := ((ops.filterMap (refreshed k g)).getLast?).getD g.data } := by
  induction ops generalizing g with
  | nil => rfl
  | cons op ops ih =>
      simp only [fate, ih, ends_data, refreshed_data, List.any_cons, Bool.or_eq_true]
      by_cases hends : ends k g op = true
      · simp [hends]
      · simp only [hends, Bool.false_eq_true, ite_false, false_or]
        cases hr : refreshed k g op with
        | none => simp only [List.filterMap_cons_none hr, Option.getD_none]
        | some d =>
            simp only [List.filterMap_cons_some hr, Option.getD_some, List.getLast?_cons]

/-- Data that satisfies `P` now still does at a later look at the token, unless
the last refresh in between left other data; a grant that ended is not seen. -/
theorem data_at_token_iff {p : Policy K H} {r : Register K H D} (admitted : Admitted p r)
    (fenced : Fenced r) {k : K} {g : Grant H D} (held : r.grants.get k = some g)
    {ops : List (Op K H D)} (unwrapped : Unwrapped p r ops) {P : D → Prop} (now : P g.data) :
    (∀ g', (run p r ops).grants.get k = some g' → g'.token = g.token → P g'.data) ↔
      ops.any (ends k g) = true ∨
        ∀ d, (ops.filterMap (refreshed k g)).getLast? = some d → P d := by
  have hfate := fate_eq k g ops
  by_cases hany : ops.any (ends k g) = true
  · rw [if_pos hany] at hfate
    have gone := gone_run_of_fate admitted fenced held unwrapped hfate
    exact ⟨fun _ => Or.inl hany, fun _ g' hg' ht => absurd ht (gone.2 g' hg')⟩
  · rw [if_neg hany] at hfate
    have hget := get_run_of_fate admitted held hfate
    constructor
    · intro h
      refine Or.inr fun d hd => ?_
      simpa only [hd, Option.getD_some] using h _ hget rfl
    · rintro (h | h) g' hg' ht
      · exact absurd h hany
      · rw [hget] at hg'
        cases hg'
        cases hlast : (ops.filterMap (refreshed k g)).getLast? with
        | none => exact now
        | some d => exact h d hlast

end Fencing.Register
