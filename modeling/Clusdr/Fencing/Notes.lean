import Clusdr.Fencing.Tracking

/-!
A borrower who writes down its grants. The register answers every take, the answers arrive
some time later or never, and the borrower notes the last one it heard for each key. If it
hears the answers for a key in the order in which they were given, every grant it has in the
register is noted, on its way, or was answered in vain.
-/

namespace Fencing

variable {K H D : Type} [DecidableEq K] [DecidableEq H]

namespace Register

/-- The token was minted, and no grant of the key is older. -/
def Behind (k : K) (token : UInt64) (r : Register K H D) : Prop :=
  token ≤ r.next ∧ ∀ g, r.grants.get k = some g → token ≤ g.token

/-- The holder has no grant of the key with this token any more. -/
def Returned (h : H) (k : K) (token : UInt64) (r : Register K H D) : Prop :=
  Behind k token r ∧ ∀ g, r.grants.get k = some g → ¬ (g.holder = h ∧ g.token = token)

/-- The operation is not a take for this holder. -/
def Foreign (h : H) : Op K H D → Prop
  | .take _ h' _ => h' ≠ h
  | _ => True

/-- Everything a step can do to the grant of one key. -/
theorem get_step (p : Policy K H) (r : Register K H D) (op : Op K H D) {k : K} {g : Grant H D}
    (after : (step p r op).1.grants.get k = some g) :
    (∃ g', r.grants.get k = some g' ∧ g'.holder = g.holder ∧ g'.token = g.token) ∨
      (r.grants.get k = none ∧ op = .take k g.holder g.data ∧ g.token = r.next + 1 ∧
        minted p r op = some (r.next + 1)) := by
  cases held : r.grants.get k with
  | some g' =>
      obtain ⟨hholder, htoken⟩ := grant_step held after
      exact .inl ⟨g', rfl, hholder.symm, htoken.symm⟩
  | none =>
      right
      have change := step_change p r op
      generalize (step p r op).1 = r' at change after
      cases change with
      | idle => cases held.symm.trans after
      | fresh j h d shape free key holder room token =>
          simp only [mint, Go.Map.get_set] at after
          split at after
          · rename_i hkj
            subst hkj
            cases after
            exact ⟨rfl, shape, rfl, token⟩
          · cases held.symm.trans after
      | refresh j g' d heldj =>
          simp only [put, Go.Map.get_set] at after
          split at after
          · rename_i hkj
            subst hkj
            cases held.symm.trans heldj
          · cases held.symm.trans after
      | ended j g' heldj =>
          simp only [remove, Go.Map.get_delete] at after
          split at after
          · cases after
          · cases held.symm.trans after

section Steps

variable {p : Policy K H} {n : Nat} {r : Register K H D} (counted : Counted p n r)
  (room : n + 1 < 2 ^ 64)

include counted room

theorem behind_step (op : Op K H D) {k : K} {token : UInt64} (behind : Behind k token r) :
    Behind k token (step p r op).1 := by
  have unwrapped := unwrapped_of_counted counted room op
  refine ⟨UInt64.le_trans behind.1 (next_le_step unwrapped), fun g after => ?_⟩
  rcases get_step p r op after with ⟨g', held, -, htoken⟩ | ⟨-, -, htoken, hminted⟩
  · exact htoken ▸ behind.2 g' held
  · rw [htoken]
    exact UInt64.le_trans behind.1 (UInt64.le_of_lt (next_lt_mint unwrapped hminted))

theorem returned_step (op : Op K H D) {h : H} {k : K} {token : UInt64}
    (returned : Returned h k token r) : Returned h k token (step p r op).1 := by
  have unwrapped := unwrapped_of_counted counted room op
  refine ⟨behind_step counted room op returned.1, fun g after own => ?_⟩
  rcases get_step p r op after with ⟨g', held, hholder, htoken⟩ | ⟨-, -, htoken, hminted⟩
  · exact returned.2 g' held ⟨hholder.trans own.1, htoken.trans own.2⟩
  · -- A new grant has a token that was not minted before.
    have hlt := next_lt_mint unwrapped hminted
    rw [← htoken, own.2] at hlt
    exact UInt64.lt_irrefl _ (UInt64.lt_of_lt_of_le hlt returned.1.1)

/-- Giving a grant back, whatever the answer. -/
theorem returned_drop {h : H} {k : K} {token : UInt64} (behind : Behind k token r) :
    Returned h k token (step p r (.drop k h token)).1 := by
  refine ⟨behind_step counted room _ behind, fun g after own => ?_⟩
  rcases get_step p r _ after with ⟨g', held, hholder, htoken⟩ | ⟨-, hshape, -⟩
  · have hown : g'.holder = h ∧ g'.token = token := ⟨hholder.trans own.1, htoken.trans own.2⟩
    simp only [step, counted.admitted.key k g' held, Bool.not_true, Bool.false_eq_true, if_false,
      held, hown, and_self, if_true, remove, Go.Map.get_delete_self] at after
    cases after
  · cases hshape

end Steps

end Register

open Register

/-- What a borrower knows: the token it has noted for each key, the answers on their way to
it, oldest first, and the grants whose answers it will not hear. -/
structure Notes (K : Type) where
  latest : K → Option UInt64
  sent : List (K × UInt64)
  unheard : List (K × UInt64)

namespace Notes

/-- The tokens of a key, noted and on their way. -/
def trail (n : Notes K) (k : K) : List UInt64 :=
  (n.latest k).toList ++ (n.sent.filter (·.1 = k)).map Prod.snd

structure Accurate (me : H) (r : Register K H D) (n : Notes K) : Prop where
  past : ∀ k, ∀ t ∈ n.trail k, Behind k t r
  ordered : ∀ k, (n.trail k).Pairwise (· ≤ ·)
  own : ∀ k g, r.grants.get k = some g → g.holder = me →
    g.token ∈ n.trail k ∨ (k, g.token) ∈ n.unheard

variable {me : H} {r : Register K H D} {n n' : Notes K}

section Answers

omit [DecidableEq H]

/-- Notes may be dropped that are not about a live grant. -/
theorem Accurate.shrink (accurate : Accurate me r n)
    (fewer : ∀ k, (n'.trail k).Sublist (n.trail k))
    (kept : ∀ k g, r.grants.get k = some g → g.holder = me → g.token ∈ n.trail k →
      g.token ∈ n'.trail k ∨ (k, g.token) ∈ n'.unheard)
    (unheard : n.unheard ⊆ n'.unheard) : Accurate me r n' where
  past k t ht := accurate.past k t ((fewer k).subset ht)
  ordered k := (accurate.ordered k).sublist (fewer k)
  own k g held own := by
    rcases accurate.own k g held own with htrail | hunheard
    · exact kept k g held own htrail
    · exact .inr (unheard hunheard)

theorem trail_hear {xs ys : List (K × UInt64)} {k : K} {t : UInt64}
    (sent : n.sent = xs ++ (k, t) :: ys) (first : ∀ e ∈ xs, e.1 ≠ k) (j : K) :
    n.trail j = (n.latest j).toList ++ (if j = k then [t] else []) ++
      ((xs ++ ys).filter (·.1 = j)).map Prod.snd := by
  have hxs : xs.filter (·.1 = k) = [] := by
    rw [List.filter_eq_nil_iff]
    exact fun e he => by simpa using first e he
  by_cases hj : j = k
  · subst hj
    simp [trail, sent, hxs]
  · simp [trail, sent, hj, Ne.symm hj]

/-- The borrower hears the oldest answer for a key and notes it. -/
theorem accurate_hear (accurate : Accurate me r n) {xs ys : List (K × UInt64)} {k : K}
    {t : UInt64} (sent : n.sent = xs ++ (k, t) :: ys) (first : ∀ e ∈ xs, e.1 ≠ k)
    (noted : n'.latest k = some t) (others : ∀ j, j ≠ k → n'.latest j = n.latest j)
    (sent' : n'.sent = xs ++ ys) (unheard : n'.unheard = n.unheard) : Accurate me r n' := by
  have htrail : ∀ j, n'.trail j =
      (if j = k then [t] else (n.latest j).toList) ++
        ((xs ++ ys).filter (·.1 = j)).map Prod.snd := by
    intro j
    by_cases hj : j = k
    · rw [if_pos hj, hj, trail, noted, sent', Option.toList_some]
    · rw [if_neg hj, trail, others j hj, sent']
  refine accurate.shrink (fun j => ?_) (fun j g held own hin => ?_) (unheard ▸ fun _ h => h)
  · rw [htrail, trail_hear sent first]
    refine List.Sublist.append_right ?_ _
    split
    · exact List.sublist_append_right _ _
    · exact List.sublist_append_left _ _
  · left
    have hordered := accurate.ordered j
    have hpast := accurate.past j
    rw [trail_hear sent first] at hin hordered hpast
    rw [htrail]
    by_cases hj : j = k
    · simp only [if_pos hj] at hin hordered hpast ⊢
      rw [List.append_assoc] at hin hordered hpast
      rcases List.mem_append.mp hin with hold | hrest
      · -- The token noted so far is no older than the live one, which is no older than this.
        have hle := (List.pairwise_append.mp hordered).2.2 _ hold t (by simp)
        have hge := (hpast t (by simp)).2 g held
        rw [UInt64.le_antisymm hle hge]
        simp
      · exact hrest
    · simpa only [if_neg hj, List.append_nil] using hin

/-- An answer gets lost. -/
theorem accurate_lose (accurate : Accurate me r n) {xs ys : List (K × UInt64)} {k : K}
    {t : UInt64} (sent : n.sent = xs ++ (k, t) :: ys) (latest : n'.latest = n.latest)
    (sent' : n'.sent = xs ++ ys) (unheard : n'.unheard = (k, t) :: n.unheard) :
    Accurate me r n' := by
  refine accurate.shrink (fun j => ?_) (fun j g held own hin => ?_) ?_
  · rw [trail, trail, latest, sent, sent']
    refine (List.Sublist.map _ (List.Sublist.filter _ ?_)).append_left _
    exact (List.sublist_cons_self _ _).append_left _
  · simp only [trail, sent, latest, sent', unheard, List.filter_append, List.map_append,
      List.mem_append, List.mem_map, List.mem_filter, List.mem_cons] at hin ⊢
    rcases hin with hnoted | ⟨e, ⟨hxs, hkey⟩, htoken⟩ | ⟨e, ⟨rfl | hys, hkey⟩, htoken⟩
    · exact .inl (.inl hnoted)
    · exact .inl (.inr (.inl ⟨e, ⟨hxs, hkey⟩, htoken⟩))
    · refine .inr (.inl ?_)
      cases of_decide_eq_true hkey
      rw [← htoken]
    · exact .inl (.inr (.inr ⟨e, ⟨hys, hkey⟩, htoken⟩))
  · rw [unheard]
    exact List.subset_cons_self _ _

/-- The borrower crosses out what it has given back. -/
theorem accurate_forget (accurate : Accurate me r n)
    (gone : ∀ k t, n.latest k = some t → n'.latest k = some t ∨
      (n'.latest k = none ∧ Returned me k t r))
    (none : ∀ k, n.latest k = none → n'.latest k = none)
    (sent : n'.sent = n.sent) (unheard : n'.unheard = n.unheard) : Accurate me r n' := by
  refine accurate.shrink (fun k => ?_) (fun k g held own hin => ?_) (unheard ▸ fun _ h => h)
  · rw [trail, trail, sent]
    refine List.Sublist.append_right ?_ _
    cases hlatest : n.latest k with
    | none => rw [none k hlatest]
    | some t =>
        rcases gone k t hlatest with hkept | ⟨hgone, -⟩
        · rw [hkept]
        · rw [hgone]
          exact List.nil_sublist _
  · left
    rw [trail, List.mem_append] at hin ⊢
    rw [sent]
    refine hin.imp_left fun hnoted => ?_
    have hlatest := Option.mem_toList.mp hnoted
    rcases gone k _ hlatest with hkept | ⟨-, hreturned⟩
    · exact Option.mem_toList.mpr hkept
    · exact absurd ⟨own, rfl⟩ (hreturned.2 g held)

end Answers

section Steps

variable {p : Policy K H} {m : Nat} (counted : Counted p m r) (room : m + 1 < 2 ^ 64)

include counted room

/-- What others do, and what the borrower does to its own grants but take them. -/
theorem accurate_foreign (accurate : Accurate me r n) {op : Op K H D} (foreign : Foreign me op) :
    Accurate me (step p r op).1 n where
  past k t ht := behind_step counted room op (accurate.past k t ht)
  ordered := accurate.ordered
  own k g after own := by
    rcases get_step p r op after with ⟨g', held, hholder, htoken⟩ | ⟨-, hshape, -⟩
    · exact htoken ▸ accurate.own k g' held (hholder.trans own)
    · rw [hshape] at foreign
      exact absurd own foreign

/-- A take that is answered with a grant. -/
theorem accurate_taken (accurate : Accurate me r n) {k : K} {d : D} {t : UInt64}
    (taken : (step p r (.take k me d)).2 = .taken t) (latest : n'.latest = n.latest)
    (sent : n'.sent = n.sent ++ [(k, t)]) (unheard : n'.unheard = n.unheard) :
    Accurate me (step p r (.take k me d)).1 n' := by
  have hget := get_of_taken taken
  have hpast : ∀ j, ∀ u ∈ n.trail j, Behind j u (step p r (.take k me d)).1 :=
    fun j u hu => behind_step counted room _ (accurate.past j u hu)
  have hfenced := fenced_step (unwrapped_of_counted counted room (.take k me d)) counted.fenced
  have htrail : ∀ j, n'.trail j = n.trail j ++ if j = k then [t] else [] := by
    intro j
    by_cases hj : j = k
    · simp [trail, latest, sent, hj]
    · simp [trail, latest, sent, hj, Ne.symm hj]
  refine ⟨fun j u hu => ?_, fun j => ?_, fun j g after own => ?_⟩
  · rw [htrail, List.mem_append] at hu
    rcases hu with hu | hu
    · exact hpast j u hu
    · split at hu
      · rename_i hj
        subst hj
        cases List.mem_singleton.mp hu
        refine ⟨hfenced j _ hget, fun g after => ?_⟩
        cases hget.symm.trans after
        exact UInt64.le_refl _
      · cases hu
  · rw [htrail]
    refine List.pairwise_append.mpr ⟨accurate.ordered j, ?_, fun u hu v hv => ?_⟩
    · split
      · exact List.pairwise_singleton _ _
      · exact List.Pairwise.nil
    · split at hv
      · rename_i hj
        subst hj
        cases List.mem_singleton.mp hv
        exact (hpast j u hu).2 _ hget
      · cases hv
  · rw [htrail, unheard]
    by_cases hj : j = k
    · subst hj
      cases hget.symm.trans after
      exact .inl (by simp)
    · rcases get_step p r _ after with ⟨g', held, hholder, htoken⟩ | ⟨-, hshape, -⟩
      · exact (accurate.own j g' held (hholder.trans own)).imp
          (fun h => List.mem_append_left _ (htoken ▸ h)) fun h => htoken ▸ h
      · cases hshape
        exact absurd rfl hj

/-- A take whose outcome the borrower is not told: a grant it has then is in `unheard`. -/
theorem accurate_untold (accurate : Accurate me r n) {k : K} {d : D}
    (latest : n'.latest = n.latest) (sent : n'.sent = n.sent) (unheard : n.unheard ⊆ n'.unheard)
    (told : ∀ g, (step p r (.take k me d)).1.grants.get k = some g → g.holder = me →
      (k, g.token) ∈ n'.unheard) : Accurate me (step p r (.take k me d)).1 n' := by
  have htrail : ∀ j, n'.trail j = n.trail j := fun j => by rw [trail, trail, latest, sent]
  refine ⟨fun j t ht => ?_, fun j => ?_, fun j g after own => ?_⟩
  · exact behind_step counted room _ (accurate.past j t (htrail j ▸ ht))
  · exact htrail j ▸ accurate.ordered j
  · rcases get_step p r _ after with ⟨g', held, hholder, htoken⟩ | ⟨-, hshape, -⟩
    · rw [htrail]
      exact (accurate.own j g' held (hholder.trans own)).imp
        (fun h => htoken ▸ h) fun h => unheard (htoken ▸ h)
    · cases hshape
      exact .inr (told g after own)

end Steps

end Notes

end Fencing
