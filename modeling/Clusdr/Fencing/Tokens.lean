import Clusdr.Fencing.Register
import Clusdr.Go.Counter

/-!
Tokens over whole runs. The counter dominates every token ever minted, also
those of grants that are gone, as long as it does not wrap. A grant that has
ended therefore stays ended: its token is never minted again.
-/

namespace Fencing.Register

variable {K H D : Type} [DecidableEq K] [DecidableEq H]

/-- The tokens a run mints, oldest first. -/
def mintedAll (p : Policy K H) : Register K H D → List (Op K H D) → List UInt64
  | _, [] => []
  | r, op :: ops => (minted p r op).toList ++ mintedAll p (step p r op).1 ops

/-- The run mints too few tokens for the counter to wrap. -/
def Unwrapped (p : Policy K H) (r : Register K H D) (ops : List (Op K H D)) : Prop :=
  r.next.toNat + (mintedAll p r ops).length < 2 ^ 64

omit [DecidableEq H] in
theorem minted_eq {p : Policy K H} {r : Register K H D} {op : Op K H D} {t : UInt64}
    (h : minted p r op = some t) : t = r.next + 1 := by
  cases op with
  | take k hd d =>
      simp only [minted] at h
      split at h
      · exact (Option.some.inj h).symm
      · cases h
  | drop | renew | expire => cases h

theorem next_step (p : Policy K H) (r : Register K H D) (op : Op K H D) :
    (step p r op).1.next = (minted p r op).getD r.next := by
  have change := step_change p r op
  generalize (step p r op).1 = r' at change
  cases change with
  | idle token => rw [token, Option.getD_none]
  | fresh k h d shape free key holder room token => rw [token, Option.getD_some, mint]
  | refresh k g d held data token => rw [token, Option.getD_none, put]
  | ended k g held ending token => rw [token, Option.getD_none, remove]

theorem mintedAll_append (p : Policy K H) (r : Register K H D) (xs ys : List (Op K H D)) :
    mintedAll p r (xs ++ ys) = mintedAll p r xs ++ mintedAll p (run p r xs) ys := by
  induction xs generalizing r with
  | nil => rfl
  | cons op ops ih => simp only [List.cons_append, mintedAll, ih, run_cons, List.append_assoc]

/-- One step of an unwrapped run: the counter advances exactly when it mints. -/
theorem unwrapped_cons {p : Policy K H} {r : Register K H D} {op : Op K H D}
    {ops : List (Op K H D)} (h : Unwrapped p r (op :: ops)) :
    (step p r op).1.next.toNat = r.next.toNat + (minted p r op).toList.length ∧
      Unwrapped p (step p r op).1 ops := by
  have hnext := next_step p r op
  unfold Unwrapped at h ⊢
  rw [mintedAll, List.length_append] at h
  cases hm : minted p r op with
  | none =>
      simp only [hm, Option.toList_none, List.length_nil, Option.getD_none] at h hnext ⊢
      rw [hnext]
      exact ⟨by omega, by omega⟩
  | some t =>
      simp only [hm, Option.toList_some, List.length_singleton, Option.getD_some] at h hnext ⊢
      rw [hnext, minted_eq hm, Go.Counter.toNat_succ (by omega)]
      exact ⟨rfl, by omega⟩

theorem next_run {p : Policy K H} {r : Register K H D} {ops : List (Op K H D)}
    (h : Unwrapped p r ops) :
    (run p r ops).next.toNat = r.next.toNat + (mintedAll p r ops).length := by
  induction ops generalizing r with
  | nil => rfl
  | cons op ops ih =>
      obtain ⟨hnext, hrest⟩ := unwrapped_cons h
      rw [run_cons, ih hrest, hnext, mintedAll, List.length_append, Nat.add_assoc]

theorem unwrapped_append {p : Policy K H} {r : Register K H D} {xs ys : List (Op K H D)}
    (h : Unwrapped p r (xs ++ ys)) : Unwrapped p r xs ∧ Unwrapped p (run p r xs) ys := by
  have hxs : Unwrapped p r xs := by
    unfold Unwrapped at h ⊢
    rw [mintedAll_append, List.length_append] at h
    omega
  refine ⟨hxs, ?_⟩
  unfold Unwrapped at h ⊢
  rw [mintedAll_append, List.length_append] at h
  rw [next_run hxs]
  omega

/-- Tokens come out in strictly ascending order, above the initial counter. -/
theorem mintedAll_ascending {p : Policy K H} {r : Register K H D} {ops : List (Op K H D)}
    (h : Unwrapped p r ops) :
    (mintedAll p r ops).Pairwise (· < ·) ∧ ∀ t ∈ mintedAll p r ops, r.next < t := by
  induction ops generalizing r with
  | nil => exact ⟨List.Pairwise.nil, by simp [mintedAll]⟩
  | cons op ops ih =>
      obtain ⟨hnext, hrest⟩ := unwrapped_cons h
      obtain ⟨hsorted, habove⟩ := ih hrest
      have hstep := next_step p r op
      rw [mintedAll]
      cases hm : minted p r op with
      | none =>
          simp only [hm, Option.getD_none] at hstep
          simp only [Option.toList_none, List.nil_append]
          exact ⟨hsorted, hstep ▸ habove⟩
      | some t =>
          simp only [hm, Option.getD_some, Option.toList_some, List.length_singleton]
            at hstep hnext
          have hlt : r.next < t := by
            rw [UInt64.lt_iff_toNat_lt, ← hstep, hnext]
            omega
          simp only [Option.toList_some, List.singleton_append, List.pairwise_cons,
            List.mem_cons, forall_eq_or_imp]
          refine ⟨⟨fun u hu => hstep ▸ habove u hu, hsorted⟩, hlt, ?_⟩
          intro u hu
          exact UInt64.lt_trans hlt (hstep ▸ habove u hu)

/-- Live tokens do not exceed the counter. -/
def Fenced (r : Register K H D) : Prop :=
  ∀ k g, r.grants.get k = some g → g.token ≤ r.next

/-- The grant of `k` with this token was minted and is no longer live. -/
def Gone (k : K) (token : UInt64) (r : Register K H D) : Prop :=
  token ≤ r.next ∧ ∀ g, r.grants.get k = some g → g.token ≠ token

theorem next_le_step {p : Policy K H} {r : Register K H D} {op : Op K H D}
    {ops : List (Op K H D)} (h : Unwrapped p r (op :: ops)) :
    r.next ≤ (step p r op).1.next := by
  rw [UInt64.le_iff_toNat_le, (unwrapped_cons h).1]
  exact Nat.le_add_right _ _

theorem next_lt_mint {p : Policy K H} {r : Register K H D} {op : Op K H D}
    {ops : List (Op K H D)} (h : Unwrapped p r (op :: ops))
    (token : minted p r op = some (r.next + 1)) : r.next < r.next + 1 := by
  have hnext := (unwrapped_cons h).1
  rw [next_step, token] at hnext
  simp only [Option.getD_some, Option.toList_some, List.length_singleton] at hnext
  rw [UInt64.lt_iff_toNat_lt, hnext]
  exact Nat.lt_succ_self _

omit [DecidableEq H] in
theorem fenced_empty : Fenced (empty : Register K H D) := by
  intro k g h
  simp [empty] at h

theorem fenced_step {p : Policy K H} {r : Register K H D} {op : Op K H D}
    {ops : List (Op K H D)} (h : Unwrapped p r (op :: ops)) (hr : Fenced r) :
    Fenced (step p r op).1 := by
  have hle := next_le_step h
  have change := step_change p r op
  generalize (step p r op).1 = r' at change hle
  intro j u hj
  cases change with
  | idle => exact hr j u hj
  | fresh k hd d shape free key holder room token =>
      simp only [mint, Go.Map.get_set] at hj
      split at hj
      · cases hj; exact UInt64.le_refl _
      · exact UInt64.le_trans (hr j u hj) hle
  | refresh k g d held data =>
      simp only [put, Go.Map.get_set] at hj
      split at hj
      · cases hj; exact hr k g held
      · exact hr j u hj
  | ended k g held ending =>
      simp only [remove, Go.Map.get_delete] at hj
      split at hj
      · cases hj
      · exact hr j u hj

theorem fenced_run {p : Policy K H} {r : Register K H D} {ops : List (Op K H D)}
    (h : Unwrapped p r ops) (hr : Fenced r) : Fenced (run p r ops) := by
  induction ops generalizing r with
  | nil => exact hr
  | cons op ops ih => exact ih (unwrapped_cons h).2 (fenced_step h hr)

theorem gone_step {p : Policy K H} {r : Register K H D} {op : Op K H D}
    {ops : List (Op K H D)} (h : Unwrapped p r (op :: ops)) {k : K} {token : UInt64}
    (gone : Gone k token r) : Gone k token (step p r op).1 := by
  have hle := next_le_step h
  have change := step_change p r op
  generalize (step p r op).1 = r' at change hle
  refine ⟨UInt64.le_trans gone.1 hle, ?_⟩
  intro u hu
  cases change with
  | idle => exact gone.2 u hu
  | fresh j hd d shape free key holder room hmint =>
      simp only [mint, Go.Map.get_set] at hu
      split at hu
      · cases hu
        intro he
        have hlt := UInt64.lt_of_lt_of_le (next_lt_mint h hmint) (UInt64.le_of_eq he)
        exact UInt64.lt_irrefl _ (UInt64.lt_of_lt_of_le hlt gone.1)
      · exact gone.2 u hu
  | refresh j g d held data =>
      simp only [put, Go.Map.get_set] at hu
      split at hu
      · cases hu; subst j; exact gone.2 g held
      · exact gone.2 u hu
  | ended j g held ending =>
      simp only [remove, Go.Map.get_delete] at hu
      split at hu
      · cases hu
      · exact gone.2 u hu

theorem gone_run {p : Policy K H} {r : Register K H D} {ops : List (Op K H D)}
    (h : Unwrapped p r ops) {k : K} {token : UInt64} (gone : Gone k token r) :
    Gone k token (run p r ops) := by
  induction ops generalizing r with
  | nil => exact gone
  | cons op ops ih => exact ih (unwrapped_cons h).2 (gone_step h gone)

end Fencing.Register
