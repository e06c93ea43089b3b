import Clusdr.Fencing.Register

/-!
What a caller may conclude from the answer to one operation: a take that
succeeds leaves its caller's grant, a take of another's grant does not succeed,
a live grant is never exchanged for another in one step, a renewal is refused
only when the grant is not there, and what is dropped or expires was there.
-/

namespace Fencing.Register

variable {K H D : Type} [DecidableEq K] [DecidableEq H]

theorem grant_step {p : Policy K H} {r : Register K H D} {op : Op K H D} {k : K}
    {g g' : Grant H D} (held : r.grants.get k = some g)
    (after : (step p r op).1.grants.get k = some g') :
    g'.holder = g.holder ∧ g'.token = g.token := by
  have change := step_change p r op
  generalize (step p r op).1 = r' at change after
  cases change with
  | idle _ =>
      rw [held] at after
      cases after
      exact ⟨rfl, rfl⟩
  | fresh j h d shape free =>
      have hne : k ≠ j := by
        rintro rfl
        rw [held] at free
        cases free
      simp only [mint, Go.Map.get_set, hne, ite_false, held] at after
      cases after
      exact ⟨rfl, rfl⟩
  | refresh j gj d heldj =>
      by_cases hj : k = j
      · subst hj
        rw [held] at heldj
        cases heldj
        simp only [put, Go.Map.get_set_self, Option.some.injEq] at after
        subst after
        exact ⟨rfl, rfl⟩
      · simp only [put, Go.Map.get_set, hj, ite_false, held] at after
        cases after
        exact ⟨rfl, rfl⟩
  | ended j gj heldj =>
      by_cases hj : k = j
      · subst hj
        simp only [remove, Go.Map.get_delete_self, reduceCtorEq] at after
      · simp only [remove, Go.Map.get_delete, hj, ite_false, held] at after
        cases after
        exact ⟨rfl, rfl⟩

theorem get_of_taken {p : Policy K H} {r : Register K H D} {k : K} {h : H} {d : D}
    {token : UInt64} (taken : (step p r (.take k h d)).2 = .taken token) :
    (step p r (.take k h d)).1.grants.get k = some ⟨h, token, d⟩ := by
  simp only [step] at taken ⊢
  split
  · simp_all
  · split
    · simp_all
    · split
      · rename_i g hg
        split
        · simp_all [put]
        · simp_all
      · split
        · simp_all
        · simp_all [mint]

theorem not_taken_of_held {p : Policy K H} {r : Register K H D} {k : K} {g : Grant H D} {h : H}
    (held : r.grants.get k = some g) (other : g.holder ≠ h) (d : D) (token : UInt64) :
    (step p r (.take k h d)).2 ≠ .taken token := by
  simp only [step, held, other, ite_false]
  split
  · simp only [ne_eq, reduceCtorEq, not_false_eq_true]
  · split <;> simp only [ne_eq, reduceCtorEq, not_false_eq_true]

/-- A take of a live grant tells its token, and succeeds for its holder only. -/
theorem reply_take_held {p : Policy K H} {r : Register K H D} {k : K} {g : Grant H D} {h : H}
    (held : r.grants.get k = some g) (key : p.key k = true) (holder : p.holder h = true) (d : D) :
    (step p r (.take k h d)).2 = if g.holder = h then .taken g.token else .held g.token := by
  simp only [step, key, holder, held, Bool.not_true, Bool.false_eq_true, if_false]
  split <;> rfl

/-- A take that is told of a holder found another's grant, and changed nothing. -/
theorem get_of_told_held {p : Policy K H} {r : Register K H D} {k : K} {h : H} {d : D}
    {token : UInt64} (told : (step p r (.take k h d)).2 = .held token) :
    (step p r (.take k h d)).1 = r ∧
      ∃ g, r.grants.get k = some g ∧ g.token = token ∧ g.holder ≠ h := by
  simp only [step] at told ⊢
  split at told
  · cases told
  · rename_i hkey
    split at told
    · cases told
    · rename_i hholder
      rw [if_neg hkey, if_neg hholder]
      cases hget : r.grants.get k with
      | none =>
          rw [hget] at told
          dsimp only at told
          split at told <;> cases told
      | some g =>
          rw [hget] at told
          by_cases own : g.holder = h
          · simp only [if_pos own] at told
            cases told
          · simp only [if_neg own] at told ⊢
            exact ⟨trivial, g, rfl, Reply.held.inj told, own⟩

/-- A take that is not refused is granted or told of the holder. -/
theorem reply_take {p : Policy K H} {r : Register K H D} {k : K} {h : H} {d : D}
    (told : ∀ why, (step p r (.take k h d)).2 ≠ .refused why) :
    (∃ token, (step p r (.take k h d)).2 = .taken token) ∨
      ∃ token, (step p r (.take k h d)).2 = .held token := by
  simp only [step] at told ⊢
  split at told
  · exact absurd rfl (told .key)
  · rename_i hkey
    split at told
    · exact absurd rfl (told .holder)
    · rename_i hholder
      rw [if_neg hkey, if_neg hholder]
      cases hget : r.grants.get k with
      | some g =>
          by_cases own : g.holder = h
          · exact Or.inl ⟨g.token, by simp only [if_pos own]⟩
          · exact Or.inr ⟨g.token, by simp only [if_neg own]⟩
      | none =>
          rw [hget] at told
          by_cases full : p.capacity ≤ r.grants.len
          · simp only [if_pos full] at told
            exact absurd rfl (told .full)
          · exact Or.inl ⟨r.next + 1, by simp only [if_neg full]⟩

theorem reply_renew_held {p : Policy K H} {r : Register K H D} {k : K} {g : Grant H D}
    (held : r.grants.get k = some g) (key : p.key k = true) (h : H) (token : UInt64) (d : D) :
    (step p r (.renew k h token d)).2 =
      if g.holder = h ∧ g.token = token then .done else .refused .mismatch := by
  simp only [step, key, held, Bool.not_true, Bool.false_eq_true, if_false]
  split <;> rfl

/-- A renewal that is not refused finds its grant and gives it its data. -/
theorem get_of_renewed {p : Policy K H} {r : Register K H D} {k : K} {h : H} {token : UInt64}
    {d : D} (told : ∀ why, (step p r (.renew k h token d)).2 ≠ .refused why) :
    ∃ g, r.grants.get k = some g ∧ g.holder = h ∧ g.token = token ∧
      (step p r (.renew k h token d)).1.grants.get k = some { g with data := d } := by
  simp only [step] at told ⊢
  split at told
  · exact absurd rfl (told .key)
  · rename_i hkey
    rw [if_neg hkey]
    cases hget : r.grants.get k with
    | none =>
        rw [hget] at told
        exact absurd rfl (told .absent)
    | some g =>
        rw [hget] at told
        by_cases own : g.holder = h ∧ g.token = token
        · refine ⟨g, rfl, own.1, own.2, ?_⟩
          simp only [if_pos own, put, Go.Map.get_set, if_true]
        · simp only [if_neg own] at told
          exact absurd rfl (told .mismatch)

theorem expire_not_refused (p : Policy K H) (r : Register K H D) (k : K) (token : UInt64)
    (why : Refusal) : (step p r (.expire k token)).2 ≠ .refused why := by
  simp only [step]
  repeat' split
  all_goals
    intro h
    cases h

/-- A drop that is not refused ends a grant with its token. -/
theorem ends_of_dropped {p : Policy K H} {r : Register K H D} {k : K} {h : H} {token : UInt64}
    (told : ∀ why, (step p r (.drop k h token)).2 ≠ .refused why) :
    ∃ g, r.grants.get k = some g ∧ g.token = token ∧
      ends k g (.drop k h token : Op K H D) = true := by
  simp only [step] at told
  split at told
  · exact absurd rfl (told .key)
  · cases hget : r.grants.get k with
    | none =>
        rw [hget] at told
        exact absurd rfl (told .absent)
    | some g =>
        rw [hget] at told
        by_cases own : g.holder = h ∧ g.token = token
        · exact ⟨g, rfl, own.2, by simp [ends, own]⟩
        · simp only [if_neg own] at told
          exact absurd rfl (told .mismatch)

/-- An expiry says whether there is a grant with its token. -/
theorem reply_expire (p : Policy K H) (r : Register K H D) (k : K) (token : UInt64) :
    (step p r (.expire k token)).2 =
      .expired (p.key k && (r.grants.get k).any fun g => g.token = token) := by
  simp only [step]
  cases p.key k with
  | false => rfl
  | true =>
      cases r.grants.get k with
      | none => rfl
      | some g => by_cases own : g.token = token <;> simp [own]

theorem key_of_refused {p : Policy K H} {r : Register K H D} {op : Op K H D}
    (refused : (step p r op).2 = .refused .key) : p.key (opKey op) = false := by
  cases hkey : p.key (opKey op) with
  | false => rfl
  | true =>
      cases op with
      | expire k token => exact absurd refused (expire_not_refused p r k token _)
      | take | drop | renew =>
          simp only [opKey] at hkey
          simp only [step, hkey, Bool.not_true, Bool.false_eq_true, ite_false] at refused
          repeat' split at refused
          all_goals cases refused

theorem absent_of_refused {p : Policy K H} {r : Register K H D} {k : K} {h : H} {token : UInt64}
    {d : D} {why : Refusal} (key : p.key k = true)
    (refused : (step p r (.renew k h token d)).2 = .refused why) :
    (step p r (.renew k h token d)).1 = r ∧
      ∀ g, r.grants.get k = some g → ¬ (g.holder = h ∧ g.token = token) := by
  simp only [step, key, Bool.not_true, Bool.false_eq_true, ite_false] at refused ⊢
  cases hget : r.grants.get k with
  | none =>
      refine ⟨rfl, ?_⟩
      intro g hg
      cases hg
  | some g =>
      by_cases own : g.holder = h ∧ g.token = token
      · simp only [hget, own, and_self, ite_true, reduceCtorEq] at refused
      · simp only [own, ite_false, true_and]
        rintro g' ⟨⟩
        exact own

end Fencing.Register
