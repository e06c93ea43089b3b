import Clusdr.Fencing.Simulation
import Clusdr.Fencing.Tracking
import Clusdr.Runs.Along

/-!
An implementation of a register that saves snapshots and goes back to them. A
grant that has ended stays ended as long as only snapshots taken after its end
are restored: each of those carries a counter that has passed its token.
-/

namespace Fencing

variable {K H D : Type} [DecidableEq K] [DecidableEq H] {p : Policy K H}

namespace Register

omit [DecidableEq H] in
theorem Counted.mono {n m : Nat} {r : Register K H D} (h : Counted p n r) (le : n ≤ m) :
    Counted p m r := { h with count := h.count.trans le }

theorem unwrapped_of_count_le {n : Nat} {r : Register K H D} {ops : List (Op K H D)}
    (counted : Counted p n r) (room : n + (mintedAll p r ops).length < 2 ^ 64) :
    Unwrapped p r ops :=
  (Nat.add_le_add_right counted.count _).trans_lt room

theorem counted_run {n : Nat} {r : Register K H D} {ops : List (Op K H D)}
    (counted : Counted p n r) (room : n + (mintedAll p r ops).length < 2 ^ 64) :
    Counted p (n + (mintedAll p r ops).length) (run p r ops) := by
  have unwrapped := unwrapped_of_count_le counted room
  refine ⟨admitted_run p counted.admitted _, fenced_run unwrapped counted.fenced, ?_⟩
  rw [next_run unwrapped]
  exact Nat.add_le_add_right counted.count _

end Register

variable {S A V N : Type}

/-- Snapshots of an implementation: `copy` takes one, as the visit `v` of the state
finds it, and `restore` replaces the state by one. -/
structure Archive (sim : Simulation p D S A) (V N : Type) where
  ranges : S → V → Prop
  copy : S → V → N
  restore : S → N → S
  content : N → Register K H D
  created : S → A → Option UInt64
  good_restore : ∀ s n, sim.good (restore s n)
  view_restore : ∀ s n, sim.view (restore s n) = content n
  content_copy : ∀ s v, sim.good s → ranges s v → content (copy s v) = sim.view s
  created_minted : ∀ s a, (created s a).toList = Register.mintedAll p (sim.view s) (sim.ops a)

/-- The state and the snapshots taken so far. -/
structure Kept (S N : Type) where
  state : S
  saved : List N

inductive Event (A V : Type) where
  | act (a : A)
  | save (v : V)
  | restore (i : Nat)

/-- A restored snapshot is not one of the first `m`. -/
def Event.After (m : Nat) : Event A V → Prop
  | .restore i => m ≤ i
  | _ => True

namespace Archive

variable {sim : Simulation p D S A} (arc : Archive sim V N)

def step (k : Kept S N) : Event A V → Kept S N
  | .act a => { k with state := sim.act k.state a }
  | .save v => { k with saved := k.saved ++ [arc.copy k.state v] }
  | .restore i =>
      match k.saved[i]? with
      | some n => { k with state := arc.restore k.state n }
      | none => k

def May (k : Kept S N) : Event A V → Prop
  | .act a => sim.may k.state a
  | .save v => arc.ranges k.state v
  | .restore i => i < k.saved.length

def made (k : Kept S N) : Event A V → List UInt64
  | .act a => (arc.created k.state a).toList
  | _ => []

/-- The tokens of the grants a run creates, oldest first. -/
def newTokens : Kept S N → List (Event A V) → List UInt64
  | _, [] => []
  | k, e :: es => arc.made k e ++ newTokens (arc.step k e) es

theorem newTokens_append (k : Kept S N) (xs ys : List (Event A V)) :
    arc.newTokens k (xs ++ ys) =
      arc.newTokens k xs ++ arc.newTokens (Runs.run arc.step k xs) ys := by
  induction xs generalizing k with
  | nil => rfl
  | cons x xs ih =>
      rw [List.cons_append, newTokens, newTokens, ih, List.append_assoc]
      rfl

/-- The state and every snapshot have minted at most `n` tokens. -/
structure Sane (n : Nat) (k : Kept S N) : Prop where
  good : sim.good k.state
  now : Register.Counted p n (sim.view k.state)
  saved : ∀ x ∈ k.saved, Register.Counted p n (arc.content x)

theorem sane_step {n : Nat} {k : Kept S N} {e : Event A V} (sane : arc.Sane n k)
    (may : arc.May k e) (room : n + (arc.made k e).length < 2 ^ 64) :
    arc.Sane (n + (arc.made k e).length) (arc.step k e) := by
  cases e with
  | act a =>
      simp only [made, arc.created_minted] at room ⊢
      refine ⟨sim.good_act _ _ sane.good may, ?_, ?_⟩
      · simp only [step, sim.view_act _ _ sane.good may]
        exact Register.counted_run sane.now room
      · exact fun x hx => (sane.saved x hx).mono (Nat.le_add_right _ _)
  | save v =>
      refine ⟨sane.good, sane.now, ?_⟩
      intro x hx
      rcases List.mem_append.mp hx with hx | hx
      · exact sane.saved x hx
      · rw [List.mem_singleton.mp hx, arc.content_copy _ _ sane.good may]
        exact sane.now
  | restore i =>
      simp only [step]
      cases hi : k.saved[i]? with
      | none => exact sane
      | some x =>
          refine ⟨arc.good_restore _ _, ?_, sane.saved⟩
          simp only [arc.view_restore]
          exact sane.saved x (List.mem_of_getElem? hi)

theorem sane_run {n : Nat} {k : Kept S N} {es : List (Event A V)} (sane : arc.Sane n k)
    (may : Runs.Along arc.step arc.May k es)
    (room : n + (arc.newTokens k es).length < 2 ^ 64) :
    arc.Sane (n + (arc.newTokens k es).length) (Runs.run arc.step k es) := by
  induction es generalizing n k with
  | nil => exact sane
  | cons e es ih =>
      rw [newTokens, List.length_append, ← Nat.add_assoc] at room ⊢
      exact ih (arc.sane_step sane may.1 (by omega)) may.2 room

/-- The grant is gone from the state and from all snapshots but the first `m`. -/
structure Lost (key : K) (token : UInt64) (m : Nat) (k : Kept S N) : Prop where
  reached : m ≤ k.saved.length
  now : Register.Gone key token (sim.view k.state)
  saved : ∀ x ∈ k.saved.drop m, Register.Gone key token (arc.content x)

theorem lost_step {n m : Nat} {k : Kept S N} {e : Event A V} {key : K} {token : UInt64}
    (sane : arc.Sane n k) (may : arc.May k e) (room : n + (arc.made k e).length < 2 ^ 64)
    (later : e.After m) (lost : arc.Lost key token m k) :
    arc.Lost key token m (arc.step k e) := by
  cases e with
  | act a =>
      simp only [made, arc.created_minted] at room
      refine ⟨lost.reached, ?_, lost.saved⟩
      simp only [step, sim.view_act _ _ sane.good may]
      exact Register.gone_run (Register.unwrapped_of_count_le sane.now room) lost.now
  | save v =>
      refine ⟨?_, lost.now, ?_⟩
      · simp only [step, List.length_append]
        exact Nat.le_add_right_of_le lost.reached
      · intro x hx
        simp only [step, List.drop_append_of_le_length lost.reached] at hx
        rcases List.mem_append.mp hx with hx | hx
        · exact lost.saved x hx
        · rw [List.mem_singleton.mp hx, arc.content_copy _ _ sane.good may]
          exact lost.now
  | restore i =>
      simp only [step]
      cases hi : k.saved[i]? with
      | none => exact lost
      | some x =>
          refine ⟨lost.reached, ?_, lost.saved⟩
          simp only [arc.view_restore]
          refine lost.saved x (List.mem_iff_getElem?.mpr ⟨i - m, ?_⟩)
          rw [List.getElem?_drop, Nat.add_sub_cancel' later, hi]

theorem lost_run {n m : Nat} {k : Kept S N} {es : List (Event A V)} {key : K} {token : UInt64}
    (sane : arc.Sane n k) (may : Runs.Along arc.step arc.May k es)
    (room : n + (arc.newTokens k es).length < 2 ^ 64) (later : ∀ e ∈ es, e.After m)
    (lost : arc.Lost key token m k) : arc.Lost key token m (Runs.run arc.step k es) := by
  induction es generalizing n k with
  | nil => exact lost
  | cons e es ih =>
      obtain ⟨hlater, hrest⟩ := List.forall_mem_cons.mp later
      rw [newTokens, List.length_append, ← Nat.add_assoc] at room
      have hroom : n + (arc.made k e).length < 2 ^ 64 := by omega
      exact ih (arc.sane_step sane may.1 hroom) may.2 room hrest
        (arc.lost_step sane may.1 hroom hlater lost)

/-- An action that ends a live grant loses it, whatever was saved before. -/
theorem lost_of_ends {n : Nat} {k : Kept S N} {a : A} {key : K} {g : Grant H D}
    (sane : arc.Sane n k) (may : sim.may k.state a)
    (room : n + (arc.created k.state a).toList.length < 2 ^ 64)
    (held : (sim.view k.state).grants.get key = some g)
    (ends : (sim.ops a).any (Register.ends key g) = true) :
    arc.Lost key g.token k.saved.length (arc.step k (.act a)) := by
  rw [arc.created_minted] at room
  refine ⟨Nat.le_refl _, ?_, ?_⟩
  · simp only [step, sim.view_act _ _ sane.good may]
    refine Register.gone_run_of_fate sane.now.admitted sane.now.fenced held
      (Register.unwrapped_of_count_le sane.now room) ?_
    rw [Register.fate_eq, if_pos ends]
  · intro x hx
    simp only [step, List.drop_length] at hx
    cases hx

/-- The states that actions which meet `ok`, and snapshots of such states, lead to. -/
inductive Reachable (start : S) (ok : S → A → Prop) : S → Prop
  | new : Reachable start ok start
  | act {s : S} {a : A} (reached : Reachable start ok s) (may : sim.may s a) (meets : ok s a) :
      Reachable start ok (sim.act s a)
  | restore {s src : S} {v : V} (reached : Reachable start ok s) (source : Reachable start ok src)
      (ranges : arc.ranges src v) : Reachable start ok (arc.restore s (arc.copy src v))

/-- What the actions keep of the register, the snapshots keep. -/
theorem holds_of_reachable {P : Register K H D → Prop} {start : S} {ok : S → A → Prop}
    (good : sim.good start) (first : P (sim.view start))
    (keeps : ∀ s a, sim.good s → sim.may s a → ok s a → P (sim.view s) → P (sim.view (sim.act s a)))
    {s : S} (h : arc.Reachable start ok s) : sim.good s ∧ P (sim.view s) := by
  induction h with
  | new => exact ⟨good, first⟩
  | act reached may meets ih => exact ⟨sim.good_act _ _ ih.1 may, keeps _ _ ih.1 may meets ih.2⟩
  | restore reached source ranges ih ihSource =>
      refine ⟨arc.good_restore _ _, ?_⟩
      rw [arc.view_restore, arc.content_copy _ _ ihSource.1 ranges]
      exact ihSource.2

theorem admitted_of_reachable {start : S} {ok : S → A → Prop} (good : sim.good start)
    (empty : sim.view start = Register.empty) {s : S} (h : arc.Reachable start ok s) :
    sim.good s ∧ Register.Admitted p (sim.view s) := by
  refine arc.holds_of_reachable good (empty ▸ Register.admitted_empty p) ?_ h
  intro s a hgood may _ admitted
  rw [sim.view_act s a hgood may]
  exact Register.admitted_run p admitted _

theorem reachable_run {start s : S} (h : arc.Reachable start (fun _ _ => True) s) {as : List A}
    (adm : sim.Admissible s as) : arc.Reachable start (fun _ _ => True) (sim.run s as) := by
  induction as generalizing s with
  | nil => exact h
  | cons a as ih => exact ih (.act h adm.1 trivial) adm.2

/-- The start of a run: an empty register and no snapshots. -/
theorem sane_start {s : S} (good : sim.good s) (start : sim.view s = Register.empty) :
    arc.Sane 0 ⟨s, []⟩ := by
  refine ⟨good, ?_, fun x hx => by cases hx⟩
  rw [start]
  exact Register.counted_empty p

/-- Once an action of a run has ended a grant, the grant is gone at the end of the
run if what is restored in between was saved in between. -/
theorem gone_after {s : S} (good : sim.good s) (start : sim.view s = Register.empty)
    {before after : List (Event A V)} {a : A} {key : K} {g : Grant H D}
    (may : Runs.Along arc.step arc.May ⟨s, []⟩ (before ++ .act a :: after))
    (few : (arc.newTokens ⟨s, []⟩ (before ++ .act a :: after)).length < 2 ^ 64)
    (held : (sim.view (Runs.run arc.step ⟨s, []⟩ before).state).grants.get key = some g)
    (ends : (sim.ops a).any (Register.ends key g) = true)
    (later : ∀ e ∈ after, e.After (Runs.run arc.step ⟨s, []⟩ before).saved.length) :
    Register.Gone key g.token
      (sim.view (Runs.run arc.step ⟨s, []⟩ (before ++ .act a :: after)).state) := by
  obtain ⟨hbefore, ha, hafter⟩ := Runs.along_append.mp may
  rw [newTokens_append, List.length_append, newTokens, List.length_append] at few
  have sane := arc.sane_run (arc.sane_start good start) hbefore (by omega)
  rw [Nat.zero_add] at sane
  have room : (arc.newTokens ⟨s, []⟩ before).length +
      (arc.made (Runs.run arc.step ⟨s, []⟩ before) (.act a)).length < 2 ^ 64 := by omega
  rw [Runs.run_append, Runs.run_cons]
  refine (arc.lost_run (arc.sane_step sane ha room) hafter ?_ later
    (arc.lost_of_ends sane ha room held ends)).now
  omega

end Archive
end Fencing
