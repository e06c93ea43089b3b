import Clusdr.Fencing.Exclusion
import Clusdr.Fencing.Tokens

/-!
One grant followed along a run whose length bounds the tokens minted: it stays
live under its holder and token, or it is gone for good.
-/

namespace Fencing.Register

variable {K H D : Type} [DecidableEq K] [DecidableEq H]

/-- Tokens and holders are in order, and at most `n` tokens were minted. -/
structure Counted (p : Policy K H) (n : Nat) (r : Register K H D) : Prop where
  admitted : Admitted p r
  fenced : Fenced r
  count : r.next.toNat ≤ n

/-- The grant of `k` to `h` with this token is live, or gone. -/
def Tracked (k : K) (h : H) (token : UInt64) (r : Register K H D) : Prop :=
  (∃ g, r.grants.get k = some g ∧ g.holder = h ∧ g.token = token) ∨ Gone k token r

omit [DecidableEq H] in
theorem counted_empty (p : Policy K H) : Counted p 0 (empty : Register K H D) :=
  ⟨admitted_empty p, fenced_empty, Nat.le_refl _⟩

omit [DecidableEq H] in
theorem length_minted_le (p : Policy K H) (r : Register K H D) (op : Op K H D) :
    (minted p r op).toList.length ≤ 1 := by
  cases minted p r op with
  | none => exact Nat.zero_le 1
  | some t => exact Nat.le_refl 1

theorem unwrapped_of_counted {p : Policy K H} {n : Nat} {r : Register K H D}
    (counted : Counted p n r) (room : n + 1 < 2 ^ 64) (op : Op K H D) :
    Unwrapped p r [op] := by
  have hcount := counted.count
  have hminted := length_minted_le p r op
  unfold Unwrapped
  simp only [mintedAll, List.append_nil]
  omega

/-- One operation at most leads from the one register to the other. -/
def Moves (p : Policy K H) (r r' : Register K H D) : Prop := r' = r ∨ ∃ op, r' = (step p r op).1

section Moves

variable {p : Policy K H} {n : Nat} {r r' : Register K H D} (counted : Counted p n r)
  (room : n + 1 < 2 ^ 64) (moves : Moves p r r')

include counted room moves

theorem counted_moves : Counted p (n + 1) r' := by
  rcases moves with rfl | ⟨op, rfl⟩
  · exact { counted with count := Nat.le_succ_of_le counted.count }
  · have unwrapped := unwrapped_of_counted counted room op
    refine ⟨admitted_change counted.admitted (step_change p r op),
      fenced_step unwrapped counted.fenced, ?_⟩
    rw [(unwrapped_cons unwrapped).1]
    exact Nat.add_le_add counted.count (length_minted_le p r op)

theorem gone_moves {k : K} {token : UInt64} (gone : Gone k token r) : Gone k token r' := by
  rcases moves with rfl | ⟨op, rfl⟩
  · exact gone
  · exact gone_step (unwrapped_of_counted counted room op) gone

theorem tracked_moves {k : K} {h : H} {token : UInt64} (tracked : Tracked k h token r) :
    Tracked k h token r' := by
  rcases tracked with ⟨g, held, rfl, rfl⟩ | gone
  · rcases moves with rfl | ⟨op, rfl⟩
    · exact Or.inl ⟨g, held, rfl, rfl⟩
    · cases after : (step p r op).1.grants.get k with
      | none =>
          have hle := next_le_step (unwrapped_of_counted counted room op)
          right
          refine ⟨UInt64.le_trans (counted.fenced k g held) hle, ?_⟩
          intro g' hg'
          rw [after] at hg'
          cases hg'
      | some g' => exact Or.inl ⟨g', after, grant_step held after⟩
  · exact Or.inr (gone_moves counted room moves gone)

end Moves

/-- Nothing is dropped, renewed or expired with the token of a grant that is gone. -/
theorem reply_of_gone {p : Policy K H} {r : Register K H D} {k : K} {token : UInt64}
    (gone : Gone k token r) (h : H) (d : D) :
    (∃ why, (step p r (.drop k h token)).2 = .refused why) ∧
      (∃ why, (step p r (.renew k h token d)).2 = .refused why) ∧
      (step p r (.expire k token)).2 = .expired false := by
  rw [reply_expire]
  simp only [step]
  cases p.key k with
  | false => exact ⟨⟨_, rfl⟩, ⟨_, rfl⟩, rfl⟩
  | true =>
      cases hget : r.grants.get k with
      | none => exact ⟨⟨_, rfl⟩, ⟨_, rfl⟩, rfl⟩
      | some g => simp [gone.2 g hget]

/-- A refused renewal of a grant that is being followed: the grant is gone. -/
theorem gone_of_refused {p : Policy K H} {r : Register K H D} {k : K} {h : H} {token : UInt64}
    {d : D} {why : Refusal} (key : p.key k = true) (tracked : Tracked k h token r)
    (refused : (step p r (.renew k h token d)).2 = .refused why) :
    Gone k token (step p r (.renew k h token d)).1 := by
  obtain ⟨hsame, habsent⟩ := absent_of_refused key refused
  rw [hsame]
  rcases tracked with ⟨g, held, own⟩ | gone
  · exact absurd own (habsent g held)
  · exact gone

end Fencing.Register
