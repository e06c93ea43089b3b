import Mathlib.Data.List.Infix
import Clusdr.Go.Text

/-!
`strings.Contains`. A word is found in a text put together from parts when it lies in
one of them, or across a joint; it cannot lie across a character it does not have.
-/

namespace Go

def contains (s word : String) : Bool := s.toList.tails.any fun t => word.toList.isPrefixOf t

theorem contains_iff {s word : String} : contains s word = true ↔ word.toList <:+: s.toList := by
  simp only [contains, List.any_eq_true, List.mem_tails, List.isPrefixOf_iff_prefix]
  constructor
  · rintro ⟨t, hsuffix, hprefix⟩
    exact hprefix.isInfix.trans hsuffix.isInfix
  · rintro ⟨a, b, h⟩
    exact ⟨word.toList ++ b, ⟨a, by rw [← h, List.append_assoc]⟩, List.prefix_append _ _⟩

theorem prefix_of_prefix_cons {α : Type} {word a b : List α} {sep : α} (free : sep ∉ word)
    (h : word <+: a ++ sep :: b) : word <+: a := by
  induction a generalizing word with
  | nil =>
      cases word with
      | nil => exact List.nil_prefix
      | cons c word =>
          obtain ⟨rfl, -⟩ := List.cons_prefix_cons.mp h
          exact absurd List.mem_cons_self free
  | cons x a ih =>
      cases word with
      | nil => exact List.nil_prefix
      | cons c word =>
          obtain ⟨rfl, hword⟩ := List.cons_prefix_cons.mp h
          have hfree : sep ∉ word := fun hmem => free (List.mem_cons_of_mem _ hmem)
          exact List.cons_prefix_cons.mpr ⟨rfl, ih hfree hword⟩

/-- A word without the character between two parts lies in one of them. -/
theorem infix_of_infix_cons {α : Type} {word a b : List α} {sep : α} (free : sep ∉ word)
    (h : word <:+: a ++ sep :: b) : word <:+: a ∨ word <:+: b := by
  induction a with
  | nil =>
      rcases List.infix_cons_iff.mp h with hprefix | hinfix
      · have hnil := prefix_of_prefix_cons (a := []) free hprefix
        exact .inl hnil.isInfix
      · exact .inr hinfix
  | cons c a ih =>
      rcases List.infix_cons_iff.mp h with hprefix | hinfix
      · exact .inl (prefix_of_prefix_cons (a := c :: a) free hprefix).isInfix
      · exact (ih hinfix).imp_left fun ha => List.infix_cons_iff.mpr (.inr ha)

/-- The word occurs nowhere in the text, and no occurrence starts in it. -/
def Clear (word a : List Char) : Prop :=
  ∀ t ∈ a.tails, t ≠ [] → ¬ word <+: t ∧ ¬ t <+: word

instance (word a : List Char) : Decidable (Clear word a) :=
  inferInstanceAs (Decidable (∀ t ∈ a.tails, _))

theorem infix_append_iff_of_clear {word a b : List Char} (clear : Clear word a) :
    word <:+: a ++ b ↔ word <:+: b := by
  refine ⟨fun h => ?_, fun h => h.trans (List.suffix_append a b).isInfix⟩
  induction a with
  | nil => exact h
  | cons c a ih =>
      obtain ⟨hshort, hlong⟩ := clear (c :: a) ((List.mem_tails _ _).mpr (List.suffix_refl _))
        (List.cons_ne_nil c a)
      have htail : Clear word a := fun t ht hne =>
        have hsuffix := ((List.mem_tails _ _).mp ht).trans (List.suffix_cons c a)
        clear t ((List.mem_tails _ _).mpr hsuffix) hne
      rcases List.infix_cons_iff.mp h with hprefix | hinfix
      · -- The word would start here: it ends within the text, or the text starts it.
        rcases List.prefix_or_prefix_of_prefix hprefix (List.prefix_append (c :: a) b) with h | h
        · exact absurd h hshort
        · exact absurd h hlong
      · exact ih htail hinfix

theorem toLower_append (a b : String) : toLower (a ++ b) = toLower a ++ toLower b := by
  simp [toLower, String.ofList_append]

/-- A text of a fixed part, a name, a colon and a reason. -/
theorem contains_reason {word : String} {lead : String}
    (clear : Clear word.toList (toLower lead).toList) (free : ':' ∉ word.toList)
    (blank : Clear word.toList [' ']) (name reason : String) :
    contains (toLower (lead ++ name ++ ": " ++ reason)) word = true ↔
      contains (toLower name) word = true ∨ contains (toLower reason) word = true := by
  have hcolon : toLower ": " = ": " := by decide
  have hsplit : (toLower (lead ++ name ++ ": " ++ reason)).toList =
      (toLower lead).toList ++ ((toLower name).toList ++
        ':' :: ([' '] ++ (toLower reason).toList)) := by
    simp only [toLower_append, String.toList_append, hcolon, List.append_assoc]
    rfl
  simp only [contains_iff, hsplit, infix_append_iff_of_clear clear]
  constructor
  · intro h
    refine (infix_of_infix_cons free h).imp_right fun hreason => ?_
    exact (infix_append_iff_of_clear blank).mp hreason
  · rintro (h | h)
    · exact h.trans (List.prefix_append _ _).isInfix
    · refine ((h.trans ?_).trans (List.suffix_cons ':' _).isInfix).trans
        (List.suffix_append _ _).isInfix
      exact (List.suffix_append _ _).isInfix

end Go
