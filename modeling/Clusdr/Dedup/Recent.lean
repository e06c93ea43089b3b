import Mathlib.Data.Finset.Card
import Mathlib.Data.List.Induction

/-!
A memory of the last `cap` items. An item is accepted when it is not among
them; between two acceptances of one item, at least `cap` others are accepted.
-/

namespace Dedup

variable {α : Type}

/-- The last `cap` items. -/
def recent (cap : Nat) (xs : List α) : List α := xs.drop (xs.length - cap)

/-- Every item is new, when it is accepted, to the last `cap` accepted before it. -/
def Fresh (cap : Nat) (xs : List α) : Prop :=
  ∀ before x after, xs = before ++ x :: after → x ∉ recent cap before

theorem length_recent (cap : Nat) (xs : List α) : (recent cap xs).length = min cap xs.length := by
  rw [recent, List.length_drop]
  omega

/-- The memory after one more item: when it is full, the oldest one makes room. -/
theorem recent_append_singleton {cap : Nat} (pos : 0 < cap) (xs : List α) (x : α) :
    recent cap (xs ++ [x]) =
      (if cap ≤ (recent cap xs).length then (recent cap xs).tail else recent cap xs) ++ [x] := by
  rw [length_recent]
  unfold recent
  rw [List.length_append, List.length_singleton]
  split
  · rename_i hfull
    rw [List.tail_drop, List.drop_append_of_le_length (by omega)]
    congr 2
    omega
  · rename_i hroom
    rw [List.drop_append_of_le_length (by omega)]
    congr 2
    omega

theorem fresh_nil (cap : Nat) : Fresh cap ([] : List α) := by
  intro before x after h
  cases before <;> cases h

theorem fresh_append_singleton {cap : Nat} {xs : List α} {x : α} :
    Fresh cap (xs ++ [x]) ↔ Fresh cap xs ∧ x ∉ recent cap xs := by
  constructor
  · intro h
    refine ⟨?_, h xs x [] rfl⟩
    rintro before y after rfl
    exact h before y (after ++ [x]) (by simp)
  · rintro ⟨hxs, hx⟩ before y after h
    rcases List.eq_nil_or_concat after with rfl | ⟨after, z, rfl⟩
    · obtain ⟨rfl, hxy⟩ := List.append_inj' h rfl
      cases hxy
      exact hx
    · rw [List.concat_eq_append, ← List.cons_append, ← List.append_assoc] at h
      obtain ⟨rfl, -⟩ := List.append_inj' h rfl
      exact hxs before y after rfl

theorem nodup_recent {cap : Nat} {xs : List α} (pos : 0 < cap) (fresh : Fresh cap xs) :
    (recent cap xs).Nodup := by
  induction xs using List.reverseRecOn with
  | nil => simp [recent]
  | append_singleton xs x ih =>
      obtain ⟨hxs, hx⟩ := fresh_append_singleton.mp fresh
      have hsub : List.Sublist (if cap ≤ (recent cap xs).length then (recent cap xs).tail
          else recent cap xs) (recent cap xs) := by
        split
        · exact List.tail_sublist _
        · exact List.Sublist.refl _
      rw [recent_append_singleton pos]
      refine List.nodup_append.mpr ⟨(ih hxs).sublist hsub, List.nodup_singleton x, ?_⟩
      intro y hy z hz hyz
      rw [List.mem_singleton.mp hz] at hyz
      exact hx (hyz ▸ hsub.subset hy)

theorem recent_append_of_le {cap : Nat} {xs ys : List α} (h : cap ≤ ys.length) :
    recent cap (xs ++ ys) = recent cap ys := by
  unfold recent
  rw [List.length_append, List.drop_append, List.drop_eq_nil_of_le (by omega), List.nil_append]
  congr 1
  omega

theorem subset_recent_append {cap : Nat} {ys : List α} (h : ys.length ≤ cap) (xs : List α) :
    ys ⊆ recent cap (xs ++ ys) := by
  unfold recent
  rw [List.length_append, List.drop_append_of_le_length (by omega)]
  exact List.subset_append_right _ _

/-- An item accepted again has been displaced by `cap` others. -/
theorem Fresh.spaced [DecidableEq α] {cap : Nat} (pos : 0 < cap) {before between after : List α}
    {x : α} (fresh : Fresh cap (before ++ x :: between ++ x :: after)) :
    cap ≤ (between.toFinset.erase x).card := by
  have hx : x ∉ recent cap (before ++ x :: between) := fresh _ x after rfl
  have hfirst : Fresh cap (before ++ x :: between) := fun b y a h =>
    fresh b y (a ++ x :: after) (by rw [h]; simp)
  have hlong : cap ≤ between.length := by
    by_contra hshort
    exact hx (subset_recent_append (by rw [List.length_cons]; omega) before List.mem_cons_self)
  have hrecent : recent cap (before ++ x :: between) = recent cap between := by
    rw [← List.singleton_append, ← List.append_assoc, recent_append_of_le hlong]
  have hnodup := nodup_recent pos hfirst
  rw [hrecent] at hx hnodup
  calc cap = (recent cap between).toFinset.card := by
        rw [List.toFinset_card_of_nodup hnodup, length_recent, Nat.min_eq_left hlong]
    _ ≤ (between.toFinset.erase x).card := by
        refine Finset.card_le_card fun y hy => ?_
        have hmem := List.mem_toFinset.mp hy
        refine Finset.mem_erase.mpr ⟨fun h => hx (h ▸ hmem), ?_⟩
        exact List.mem_toFinset.mpr (List.mem_of_mem_drop hmem)

end Dedup
