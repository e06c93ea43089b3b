import Clusdr.Fencing.Archive

/-!
The invariant of a register as a whole, and its only enemy: the step that mints
token zero, because the counter has wrapped. After that two live grants can have
the same token.
-/

namespace Fencing.Register

variable {K H D : Type} [DecidableEq K] [DecidableEq H]

structure Sound (p : Policy K H) (r : Register K H D) : Prop extends Admitted p r where
  token : ∀ k g, r.grants.get k = some g → 1 ≤ g.token ∧ g.token ≤ r.next
  distinct : ∀ k j g u, r.grants.get k = some g → r.grants.get j = some u →
    g.token = u.token → k = j
  room : r.grants.len ≤ p.capacity

omit [DecidableEq H] in
theorem sound_empty (p : Policy K H) : Sound p (empty : Register K H D) where
  toAdmitted := admitted_empty p
  token k g h := by simp [empty] at h
  distinct k j g u h := by simp [empty] at h
  room := Nat.zero_le _

theorem lt_succ_of_ne_zero {t : UInt64} (h : t + 1 ≠ 0) : t < t + 1 ∧ 1 ≤ t + 1 := by
  have hroom := Go.Counter.room_of_succ_ne_zero h
  refine ⟨Go.Counter.lt_succ hroom, ?_⟩
  rw [UInt64.le_iff_toNat_le, Go.Counter.toNat_succ hroom, UInt64.toNat_one]
  exact Nat.succ_le_succ (Nat.zero_le _)

section Change

variable {p : Policy K H} {r r' : Register K H D} {op : Op K H D} (sound : Sound p r)

include sound

theorem token_change (change : Change p r op r') (unwrapped : minted p r op ≠ some 0) {j : K}
    {u : Grant H D} (hj : r'.grants.get j = some u) : 1 ≤ u.token ∧ u.token ≤ r'.next := by
  cases change with
  | idle => exact sound.token j u hj
  | fresh k h d shape free key holder room token =>
      obtain ⟨hlt, hone⟩ := lt_succ_of_ne_zero fun h => unwrapped (token.trans (by rw [h]))
      simp only [mint, Go.Map.get_set] at hj
      split at hj
      · cases hj
        exact ⟨hone, UInt64.le_refl _⟩
      · obtain ⟨hpos, hle⟩ := sound.token j u hj
        exact ⟨hpos, UInt64.le_trans hle (UInt64.le_of_lt hlt)⟩
  | refresh k g d held data =>
      simp only [put, Go.Map.get_set] at hj
      split at hj
      · cases hj
        exact sound.token k g held
      · exact sound.token j u hj
  | ended k g held ending =>
      simp only [remove, Go.Map.get_delete] at hj
      split at hj
      · cases hj
      · exact sound.token j u hj

omit [DecidableEq H] in
/-- A token that does not wrap is above every live one. -/
theorem token_ne_next (unwrapped : r.next + 1 ≠ 0) {k : K} {g : Grant H D}
    (held : r.grants.get k = some g) : g.token ≠ r.next + 1 := by
  intro htoken
  have hlt := (lt_succ_of_ne_zero unwrapped).1
  exact UInt64.lt_irrefl _ (UInt64.lt_of_lt_of_le hlt (htoken ▸ (sound.token k g held).2))

theorem distinct_change (change : Change p r op r') (unwrapped : minted p r op ≠ some 0) {i j : K}
    {g u : Grant H D} (hi : r'.grants.get i = some g) (hj : r'.grants.get j = some u)
    (htoken : g.token = u.token) : i = j := by
  cases change with
  | idle => exact sound.distinct i j g u hi hj htoken
  | fresh k h d shape free key holder room token =>
      have hnext : r.next + 1 ≠ 0 := fun h => unwrapped (token.trans (by rw [h]))
      simp only [mint, Go.Map.get_set] at hi hj
      split at hi <;> split at hj
      · rename_i hik hjk
        exact hik.trans hjk.symm
      · cases hi
        exact absurd htoken.symm (token_ne_next sound hnext hj)
      · cases hj
        exact absurd htoken (token_ne_next sound hnext hi)
      · exact sound.distinct i j g u hi hj htoken
  | refresh k g' d held data =>
      simp only [put, Go.Map.get_set] at hi hj
      split at hi <;> split at hj
      · rename_i hik hjk
        exact hik.trans hjk.symm
      · rename_i hik hjk
        cases hi
        exact hik.trans (sound.distinct k j g' u held hj htoken)
      · rename_i hik hjk
        cases hj
        exact (sound.distinct i k g g' hi held htoken).trans hjk.symm
      · exact sound.distinct i j g u hi hj htoken
  | ended k g' held ending =>
      simp only [remove, Go.Map.get_delete] at hi hj
      split at hi
      · cases hi
      · split at hj
        · cases hj
        · exact sound.distinct i j g u hi hj htoken

theorem room_change (change : Change p r op r') : r'.grants.len ≤ p.capacity := by
  cases change with
  | idle => exact sound.room
  | fresh k h d shape free key holder room => exact Nat.le_trans (Go.Map.len_set_le _ _ _) room
  | refresh k g d held data => exact (Go.Map.len_set_of_get held _).trans_le sound.room
  | ended k g held ending => exact Nat.le_trans (Go.Map.len_delete_le _ _) sound.room

/-- A step that does not mint token zero. -/
theorem sound_change (change : Change p r op r') (unwrapped : minted p r op ≠ some 0) :
    Sound p r' where
  toAdmitted := admitted_change sound.toAdmitted change
  token _ _ := token_change sound change unwrapped
  distinct _ _ _ _ := distinct_change sound change unwrapped
  room := room_change sound change

end Change

theorem sound_step_iff {p : Policy K H} {r : Register K H D} (sound : Sound p r) (op : Op K H D) :
    Sound p (step p r op).1 ↔ minted p r op ≠ some 0 := by
  refine ⟨fun h hzero => ?_, sound_change sound (step_change p r op)⟩
  have change := step_change p r op
  generalize (step p r op).1 = r' at change h
  cases change with
  | idle token => cases token.symm.trans hzero
  | refresh k g d held data token => cases token.symm.trans hzero
  | ended k g held ending token => cases token.symm.trans hzero
  | fresh k hd d shape free key holder room token =>
      have hnext : r.next + 1 = 0 := Option.some.inj (token.symm.trans hzero)
      have hone := (h.token k ⟨hd, r.next + 1, d⟩ (Go.Map.get_set_self _ _ _)).1
      rw [hnext] at hone
      have hfalse : ¬ (1 : UInt64) ≤ 0 := by decide
      exact hfalse hone

/-- `a` is taken once; then `b` is taken and expires, `n` times. -/
def rounds (a b : K) (h : H) (d : D) (n : Nat) : List (Op K H D) :=
  .take a h d :: (List.range n).flatMap fun i => [.take b h d, .expire b (.ofNat (i + 2))]

section Rounds

variable {p : Policy K H} {a b : K} {h : H} (d : D)

/-- Taking a free key and letting the grant expire only advances the counter. -/
theorem run_round {r : Register K H D} (hb : p.key b = true) (hh : p.holder h = true)
    (free : r.grants.get b = none) (room : r.grants.len < p.capacity) :
    run p r [.take b h d, .expire b (r.next + 1)] = ⟨r.grants, r.next + 1⟩ := by
  have htake : step p r (.take b h d) = (r.mint b h d, .taken (r.next + 1)) := by
    simp [step, hb, hh, free, Nat.not_le.mpr room]
  have hget : (r.mint b h d).grants.get b = some ⟨h, r.next + 1, d⟩ := Go.Map.get_set_self _ _ _
  rw [run_cons, htake, run_cons]
  simp only [step, hb, hget, Bool.not_true, Bool.false_eq_true, ite_false, ite_true]
  exact congrArg (Register.mk · _) (Go.Map.delete_set_of_get_eq_none free _)

variable (ha : p.key a = true) (hb : p.key b = true) (hh : p.holder h = true) (hab : a ≠ b)
  (hroom : 2 ≤ p.capacity)

include ha hb hh hab hroom

/-- The counter has come round to `n + 1`, and `a` still has token one. -/
theorem run_rounds (n : Nat) :
    run p empty (rounds a b h d n) = ⟨Go.Map.set ∅ a ⟨h, 1, d⟩, .ofNat (n + 1)⟩ := by
  induction n with
  | zero =>
      have hcap : ¬ p.capacity ≤ (∅ : Go.Map K (Grant H D)).len :=
        Nat.not_le.mpr (Nat.lt_of_lt_of_le Nat.zero_lt_two hroom)
      simp [rounds, run, step, empty, ha, hh, hcap, mint]
  | succ n ih =>
      have hnext : UInt64.ofNat (n + 2) = .ofNat (n + 1) + 1 := UInt64.ofNat_add (n + 1) 1
      have hsplit : rounds a b h d (n + 1) =
          rounds a b h d n ++ [.take b h d, .expire b (.ofNat (n + 2))] := by
        simp [rounds, List.range_succ]
      have hlen : (Go.Map.set ∅ a ⟨h, 1, d⟩ : Go.Map K (Grant H D)).len < p.capacity :=
        Nat.lt_of_le_of_lt (Go.Map.len_set_le _ _ _) hroom
      have hfree : (Go.Map.set ∅ a ⟨h, 1, d⟩ : Go.Map K (Grant H D)).get b = none := by
        rw [Go.Map.get_set, if_neg hab.symm, Go.Map.get_empty]
      rw [hsplit, run_append, ih, hnext]
      exact run_round d hb hh hfree hlen

/-- After enough rounds to wrap the counter the next grant has the token of `a`. -/
theorem run_rounds_wrapped {c : K} (hc : p.key c = true) (hac : a ≠ c) {n : Nat}
    (wrapped : UInt64.ofNat (n + 1) = 0) : run p empty (rounds a b h d n ++ [.take c h d]) =
      ⟨(Go.Map.set ∅ a ⟨h, 1, d⟩).set c ⟨h, 1, d⟩, 1⟩ := by
  have hlen : (Go.Map.set ∅ a ⟨h, 1, d⟩ : Go.Map K (Grant H D)).len < p.capacity :=
    Nat.lt_of_le_of_lt (Go.Map.len_set_le _ _ _) hroom
  rw [run_append, run_rounds d ha hb hh hab hroom, wrapped]
  simp [run, step, hc, hh, Nat.not_le.mpr hlen, mint, Go.Map.get_set, hac.symm]

end Rounds

end Fencing.Register

namespace Fencing.Simulation

open Register (Sound mintedAll)

variable {K H D S A : Type} [DecidableEq K] [DecidableEq H] {p : Policy K H}

/-- An action of at most one operation, which reports the token it mints. -/
theorem sound_act_iff (sim : Simulation p D S A) {created : S → A → Option UInt64} {s : S} {a : A}
    (law : (created s a).toList = mintedAll p (sim.view s) (sim.ops a))
    (short : (sim.ops a).length ≤ 1) (good : sim.good s) (may : sim.may s a)
    (sound : Sound p (sim.view s)) :
    Sound p (sim.view (sim.act s a)) ↔ created s a ≠ some 0 := by
  rw [sim.view_act s a good may]
  rcases hops : sim.ops a with _ | ⟨op, _ | ⟨op', ops⟩⟩
  · rw [hops] at law
    have hnone : created s a = none := Option.toList_eq_nil_iff.mp law
    rw [hnone]
    exact iff_of_true sound fun h => by cases h
  · rw [hops, mintedAll, mintedAll, List.append_nil] at law
    have hminted : created s a = Register.minted p (sim.view s) op := by
      have hhead := congrArg List.head? law
      rwa [Option.head?_toList, Option.head?_toList] at hhead
    rw [hminted]
    exact Register.sound_step_iff sound op
  · rw [hops] at short
    exact absurd short (by simp)

end Fencing.Simulation

namespace Fencing.Archive

variable {K H D S A V N : Type} [DecidableEq K] [DecidableEq H] {p : Policy K H}
  {sim : Simulation p D S A}

/-- Where every action is at most one operation, only the grant with token zero is unsound. -/
theorem sound_of_reachable (arc : Archive sim V N) (short : ∀ a, (sim.ops a).length ≤ 1) {start : S}
    (good : sim.good start) (empty : sim.view start = Register.empty) {s : S}
    (h : arc.Reachable start (fun s a => arc.created s a ≠ some 0) s) :
    sim.good s ∧ Register.Sound p (sim.view s) := by
  refine arc.holds_of_reachable good (empty ▸ Register.sound_empty p) ?_ h
  intro s a hgood may unwrapped sound
  exact (sim.sound_act_iff (arc.created_minted s a) (short a) hgood may sound).mpr unwrapped

end Fencing.Archive
