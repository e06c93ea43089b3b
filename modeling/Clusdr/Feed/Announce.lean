import Mathlib.Data.List.Basic

/-!
A numbered feed with losses. Items get consecutive numbers; an item waits for
the reader, or is lost, which sets a flag. The reader passes the waiting items
on in order, and when it finds the flag set it first tells the range between the
last item and this one, and clears the flag. Some items do not matter to the
reader; losing one sets the flag all the same.
-/

namespace Feed

/-- What the reader tells. -/
inductive Note where
  | item (n : Nat)
  | range (lo hi : Nat)
  | other
deriving DecidableEq

def Note.Covers (n : Nat) : Note → Prop
  | .range lo hi => lo ≤ n ∧ n ≤ hi
  | _ => False

structure State where
  now : Nat
  waiting : List Nat
  flag : Bool
  last : Nat
  told : List Note
  lost : List Nat

inductive Op where
  /-- An item that does not matter gets its number. -/
  | skip
  | enqueue
  | lose (matters : Bool)
  /-- The reader tells something that is no item. -/
  | remark (notes : List Note)
  | deliver

def announcement (flag : Bool) (last n : Nat) : List Note :=
  if flag = true ∧ last + 1 ≤ n - 1 then [.range (last + 1) (n - 1)] else []

def step (s : State) : Op → State
  | .skip => { s with now := s.now + 1 }
  | .enqueue => { s with now := s.now + 1, waiting := s.waiting ++ [s.now + 1] }
  | .lose matters =>
      { s with
        now := s.now + 1
        flag := true
        lost := if matters then s.lost ++ [s.now + 1] else s.lost }
  | .remark notes => { s with told := s.told ++ notes }
  | .deliver =>
      match s.waiting with
      | [] => s
      | n :: rest =>
          { s with
            waiting := rest
            flag := false
            last := n
            told := s.told ++ announcement s.flag s.last n ++ [.item n] }

/-- No item is told after a lost one without a range that covers the lost one. -/
def Complete (s : State) : Prop :=
  ∀ n ∈ s.lost, ∀ before m after, s.told = before ++ .item m :: after → n < m →
    ∃ note ∈ before, note.Covers n

/-- Items lost right before the one delivered are announced: the flag is set, or a
range told earlier covers them. -/
def Announced (s : State) : Op → Prop
  | .deliver =>
      match s.waiting with
      | [] => True
      | m :: _ => ∀ n ∈ s.lost, s.last < n → n < m →
          s.flag = true ∨ ∃ note ∈ s.told, note.Covers n
  | _ => True

/-- Remarks contain no items. -/
def Proper : Op → Prop
  | .remark notes => ∀ m, .item m ∉ notes
  | _ => True

/-- The numbers are in order. -/
structure Ordered (s : State) : Prop where
  ascending : (s.last :: s.waiting).Pairwise (· < ·)
  bounded : ∀ n ∈ s.last :: s.waiting, n ≤ s.now
  lost : ∀ n ∈ s.lost, n ≤ s.now ∧ n ∉ s.last :: s.waiting
  items : ∀ m, .item m ∈ s.told → m ≤ s.last
  last : s.last = 0 ∨ .item s.last ∈ s.told

theorem item_not_mem_announcement (flag : Bool) (last n m : Nat) :
    .item m ∉ announcement flag last n := by
  unfold announcement
  split <;> simp

theorem ordered_step {s : State} {op : Op} (h : Ordered s) (proper : Proper op) :
    Ordered (step s op) := by
  have fresh : s.now + 1 ∉ s.last :: s.waiting := fun hmem =>
    Nat.not_succ_le_self _ (h.bounded _ hmem)
  have bounded : ∀ n ∈ s.last :: s.waiting, n ≤ s.now + 1 := fun n hn =>
    Nat.le_succ_of_le (h.bounded n hn)
  cases op with
  | skip =>
      exact { h with
        bounded := bounded
        lost := fun n hn => ⟨Nat.le_succ_of_le (h.lost n hn).1, (h.lost n hn).2⟩ }
  | enqueue =>
      refine ⟨?_, ?_, ?_, h.items, h.last⟩
      · rw [step, ← List.cons_append, List.pairwise_append]
        refine ⟨h.ascending, List.pairwise_singleton _ _, fun n hn m hm => ?_⟩
        rw [List.mem_singleton.mp hm]
        exact Nat.lt_succ_of_le (h.bounded n hn)
      · intro n hn
        rw [step, ← List.cons_append] at hn
        rcases List.mem_append.mp hn with hn | hn
        · exact bounded n hn
        · exact Nat.le_of_eq (List.mem_singleton.mp hn)
      · intro n hn
        obtain ⟨hle, hnot⟩ := h.lost n hn
        refine ⟨Nat.le_succ_of_le hle, fun hmem => ?_⟩
        rw [step, ← List.cons_append] at hmem
        rcases List.mem_append.mp hmem with hmem | hmem
        · exact hnot hmem
        · exact Nat.not_succ_le_self _ (List.mem_singleton.mp hmem ▸ hle)
  | lose matters =>
      refine { h with bounded := bounded, lost := fun n hn => ?_ }
      have hn' : n ∈ s.lost ∨ n = s.now + 1 := by
        cases matters with
        | false => exact Or.inl hn
        | true => exact (List.mem_append.mp hn).imp_right List.mem_singleton.mp
      rcases hn' with hn | rfl
      · exact ⟨Nat.le_succ_of_le (h.lost n hn).1, (h.lost n hn).2⟩
      · exact ⟨Nat.le_refl _, fresh⟩
  | remark notes =>
      refine { h with items := fun m hm => ?_, last := h.last.imp_right (List.mem_append_left _) }
      exact h.items m ((List.mem_append.mp hm).resolve_right (proper m))
  | deliver =>
      cases hwaiting : s.waiting with
      | nil => simpa only [step, hwaiting] using h
      | cons n rest =>
          have ascending := h.ascending
          rw [hwaiting] at ascending
          have hlast : s.last < n := List.rel_of_pairwise_cons ascending List.mem_cons_self
          simp only [step, hwaiting]
          refine ⟨(List.pairwise_cons.mp ascending).2, fun m hm => ?_, fun m hm => ?_,
            fun m hm => ?_, Or.inr (by simp)⟩
          · exact h.bounded m (hwaiting ▸ List.mem_cons_of_mem _ hm)
          · refine ⟨(h.lost m hm).1, fun hmem => (h.lost m hm).2 ?_⟩
            exact hwaiting ▸ List.mem_cons_of_mem _ hmem
          · rcases List.mem_append.mp hm with hm | hm
            · have htold := (List.mem_append.mp hm).resolve_right
                (item_not_mem_announcement s.flag s.last n m)
              exact Nat.le_trans (h.items m htold) (Nat.le_of_lt hlast)
            · exact Nat.le_of_eq (Note.item.inj (List.mem_singleton.mp hm))

/-- Where an element of a concatenation stands. -/
theorem split_append {α : Type} {xs ys before after : List α} {a : α}
    (h : xs ++ ys = before ++ a :: after) :
    (∃ rest, xs = before ++ a :: rest) ∨
      ∃ more, before = xs ++ more ∧ ys = more ++ a :: after := by
  rcases List.append_eq_append_iff.mp h with ⟨more, hbefore, hys⟩ | ⟨rest, hxs, hafter⟩
  · exact Or.inr ⟨more, hbefore, hys⟩
  · cases rest with
    | nil =>
        rw [List.append_nil] at hxs
        exact Or.inr ⟨[], by rw [List.append_nil, hxs], hafter.symm⟩
    | cons b rest =>
        cases hafter
        exact Or.inl ⟨rest, hxs⟩

/-- Telling no item and losing nothing that was passed already changes nothing. -/
theorem complete_of_same_items {s : State} (s' : State) (notes : List Note) (h : Ordered s)
    (told : s'.told = s.told ++ notes) (proper : ∀ m, .item m ∉ notes)
    (lost : ∀ n, n ∈ s'.lost ↔ n ∈ s.lost ∨ (n ∈ s'.lost ∧ s.last < n)) :
    Complete s' ↔ Complete s := by
  constructor
  · intro complete n hn before m after hsplit hlt
    exact complete n ((lost n).mpr (Or.inl hn)) before m (after ++ notes)
      (by rw [told, hsplit, List.append_assoc, List.cons_append]) hlt
  · intro complete n hn before m after hsplit hlt
    rw [told] at hsplit
    rcases split_append hsplit with ⟨rest, htold⟩ | ⟨more, -, hnotes⟩
    · rcases (lost n).mp hn with hold | ⟨-, hnew⟩
      · exact complete n hold before m rest htold hlt
      · have hm : m ≤ s.last := h.items m (by rw [htold]; simp)
        exact absurd (Nat.lt_of_lt_of_le hlt hm) (Nat.lt_asymm hnew)
    · exact absurd (by rw [hnotes]; simp) (proper m)

theorem covers_announcement {flag : Bool} {last n m : Nat} (set : flag = true) (hlast : last < n)
    (hm : n < m) : ∃ note ∈ announcement flag last m, note.Covers n := by
  refine ⟨.range (last + 1) (m - 1), ?_, by constructor <;> omega⟩
  rw [announcement, if_pos ⟨set, by omega⟩]
  exact List.mem_singleton_self _

theorem complete_deliver {s : State} (h : Ordered s) {m : Nat} {rest : List Nat}
    (hwaiting : s.waiting = m :: rest) :
    Complete (step s .deliver) ↔ Complete s ∧ Announced s .deliver := by
  have htold : (step s .deliver).told = s.told ++ announcement s.flag s.last m ++ [.item m] := by
    simp only [step, hwaiting]
  have hlost : (step s .deliver).lost = s.lost := by simp only [step, hwaiting]
  simp only [Complete, htold, hlost, Announced, hwaiting]
  constructor
  · intro complete
    refine ⟨fun n hn before k after hsplit hlt => ?_, fun n hn hlast hm => ?_⟩
    · refine complete n hn before k (after ++ announcement s.flag s.last m ++ [.item m]) ?_ hlt
      simp only [hsplit, List.append_assoc, List.cons_append]
    · obtain ⟨note, hmem, hcovers⟩ := complete n hn _ m [] rfl hm
      rcases List.mem_append.mp hmem with hmem | hmem
      · exact Or.inr ⟨note, hmem, hcovers⟩
      · unfold announcement at hmem
        split at hmem
        · rename_i hset
          exact Or.inl hset.1
        · exact absurd hmem List.not_mem_nil
  · rintro ⟨complete, announced⟩ n hn before k after hsplit hlt
    rcases split_append hsplit with ⟨tail, hbefore⟩ | ⟨more, rfl, hlast⟩
    · rcases split_append hbefore with ⟨tail', hold⟩ | ⟨more, -, hann⟩
      · exact complete n hn before k tail' hold hlt
      · exact absurd (by rw [hann]; simp) (item_not_mem_announcement s.flag s.last m k)
    · obtain ⟨rfl, rfl⟩ : more = [] ∧ k = m := by
        cases more with
        | nil =>
            cases hlast
            exact ⟨rfl, rfl⟩
        | cons b more => simp at hlast
      rw [List.append_nil]
      rcases Nat.lt_trichotomy n s.last with hlt' | heq | hgt
      · have hitem := h.last.resolve_left (by omega)
        obtain ⟨b, a, hsplit'⟩ := List.append_of_mem hitem
        obtain ⟨note, hmem, hcovers⟩ := complete n hn b s.last a hsplit' hlt'
        refine ⟨note, List.mem_append_left _ ?_, hcovers⟩
        rw [hsplit']
        exact List.mem_append_left _ hmem
      · exact absurd (heq ▸ List.mem_cons_self) (h.lost n hn).2
      · rcases announced n hn hgt hlt with hset | ⟨note, hmem, hcovers⟩
        · obtain ⟨note, hmem, hcovers⟩ := covers_announcement hset hgt hlt
          exact ⟨note, List.mem_append_right _ hmem, hcovers⟩
        · exact ⟨note, List.mem_append_left _ hmem, hcovers⟩

/-- One step keeps the feed complete exactly if it announces. -/
theorem complete_step {s : State} {op : Op} (h : Ordered s) (proper : Proper op) :
    Complete (step s op) ↔ Complete s ∧ Announced s op := by
  cases op with
  | skip | enqueue =>
      rw [complete_of_same_items (step s _) [] h (by simp [step]) nofun
        fun n => ⟨Or.inl, fun hn => hn.elim id And.left⟩]
      exact (iff_of_eq (and_true _)).symm
  | lose matters =>
      have hnow : s.last < s.now + 1 := Nat.lt_succ_of_le (h.bounded _ List.mem_cons_self)
      rw [complete_of_same_items (step s (.lose matters)) [] h (by simp [step]) nofun]
      · exact (iff_of_eq (and_true _)).symm
      · intro n
        cases matters with
        | false => exact ⟨Or.inl, fun hn => hn.elim id And.left⟩
        | true =>
            simp only [step, ite_true, List.mem_append, List.mem_singleton]
            refine ⟨fun hn => hn.imp_right fun hnew => ⟨Or.inr hnew, hnew ▸ hnow⟩, fun hn => ?_⟩
            exact hn.elim Or.inl And.left
  | remark notes =>
      rw [complete_of_same_items (step s (.remark notes)) notes h rfl proper
        fun n => ⟨Or.inl, fun hn => hn.elim id And.left⟩]
      exact (iff_of_eq (and_true _)).symm
  | deliver =>
      cases hwaiting : s.waiting with
      | nil => simp only [step, Announced, hwaiting, and_true]
      | cons m rest => exact complete_deliver h hwaiting

end Feed
