import Clusdr.Core.Heartbeat
import Clusdr.Metatheory.MemberEngine

/-!
A tick of the heartbeat monitor as one peer sees it. The members are listed once and
under distinct ids, so a tick pings a peer at most once, and what it does to the
engine is to mark dead those it reports.
-/

namespace Clusdr

open Clusdr.Membership (Action Engine Member statusAlive)

namespace Membership.Engine

/-- Listed as alive. -/
def alive (e : Engine) (id : String) : Bool :=
  (e.members.get id).any fun m => m.status = statusAlive

theorem selfID_act (e : Engine) (a : Action) : (e.act a).selfID = e.selfID := by
  have hchange := act_change e a
  generalize e.act a = e' at hchange
  cases hchange <;> rfl

theorem get_markDead (e : Engine) {id p : String} (ne : p ≠ id) :
    (e.markDead id).1.members.get p = e.members.get p := by
  unfold markDead
  split
  · rfl
  · split
    · rfl
    · rw [Go.Map.get_set, if_neg ne]

end Membership.Engine

namespace Heartbeat

/-- The entry of the map of misses; a missing one is zero. -/
def Monitor.missed (m : Monitor) (id : String) : Nat := (m.misses.get id).getD 0

/-- A tick as far as one peer is concerned. -/
structure Sight where
  max : Int
  missed : Nat
  pinged : Bool
  reported : Bool

def Tick.sight (p : String) (t : Tick) : Sight :=
  ⟨t.monitor.maxMisses, t.monitor.missed p, t.pinged.contains p, t.reported.contains p⟩

/-- The round of the peer itself. -/
def Sight.round (selfID : String) (reached : String → Bool) (mem : Member) (v : Sight) : Sight :=
  if mem.id = selfID ∨ mem.status ≠ statusAlive then v
  else if reached mem.id then { v with missed := 0, pinged := true }
  else if v.max ≤ (v.missed + 1 : Nat) then { v with missed := 0, pinged := true, reported := true }
  else { v with missed := v.missed + 1, pinged := true }

theorem missed_delete (m : Monitor) (id p : String) :
    ({ m with misses := m.misses.delete id } : Monitor).missed p =
      if p = id then 0 else m.missed p := by
  rw [Monitor.missed, Go.Map.get_delete]
  split <;> rfl

theorem missed_set (m : Monitor) (id p : String) (n : Nat) :
    ({ m with misses := m.misses.set id n } : Monitor).missed p =
      if p = id then n else m.missed p := by
  rw [Monitor.missed, Go.Map.get_set]
  split <;> rfl

theorem probe_eq (m : Monitor) (selfID : String) (mem : Member) (reached : Bool) :
    m.probe selfID mem reached =
      if mem.id = selfID ∨ mem.status ≠ statusAlive then (m, none)
      else if reached then ({ m with misses := m.misses.delete mem.id }, none)
      else if m.maxMisses ≤ (m.missed mem.id + 1 : Nat) then
        ({ m with misses := m.misses.delete mem.id }, some mem.id)
      else ({ m with misses := m.misses.set mem.id (m.missed mem.id + 1) }, none) := rfl

theorem sight_round (hook : Bool) (selfID : String) (reached : String → Bool) (p : String)
    (t : Tick) (mem : Member) :
    (t.round hook selfID reached mem).sight p =
      if mem.id = p then (t.sight p).round selfID reached mem else t.sight p := by
  unfold Tick.round Sight.round
  rw [probe_eq]
  by_cases hskip : mem.id = selfID ∨ mem.status ≠ statusAlive
  · simp [Tick.sight, hskip]
  · simp only [hskip, if_false]
    by_cases hp : mem.id = p
    · subst hp
      simp only [if_true, Tick.sight]
      by_cases hreached : reached mem.id = true
      · simp [hreached, missed_delete]
      · by_cases hlast : t.monitor.maxMisses ≤ (t.monitor.missed mem.id + 1 : Nat)
        · simp only [hreached, hlast, if_true, if_false, missed_delete, Bool.false_eq_true]
          simp
        · simp only [hreached, hlast, if_true, if_false, missed_set, Bool.false_eq_true]
          simp
    · simp only [hp, if_false]
      split
      · simp [Tick.sight, missed_delete, Ne.symm hp]
      · split
        · simp [Tick.sight, missed_delete, Ne.symm hp]
        · simp [Tick.sight, missed_set, Ne.symm hp]

/-- Whether a tick pings the peer. -/
def peer (e : Engine) (p : String) : Bool := p ≠ e.selfID ∧ e.alive p

theorem sight_tick {e : Engine} (valid : e.Valid) (m : Monitor) (hook : Bool)
    (reached : String → Bool) (p : String) :
    (m.tick e hook reached).sight p =
      if ¬peer e p then ⟨m.maxMisses, m.missed p, false, false⟩
      else if reached p then ⟨m.maxMisses, 0, true, false⟩
      else if m.maxMisses ≤ (m.missed p + 1 : Nat) then ⟨m.maxMisses, 0, true, true⟩
      else ⟨m.maxMisses, m.missed p + 1, true, false⟩ := by
  have hfold : (m.tick e hook reached).sight p =
      e.membersList.foldl (fun v mem => if mem.id = p then v.round e.selfID reached mem else v)
        (Tick.sight p ⟨m, e, [], []⟩) :=
    (List.foldl_hom (Tick.sight p) fun t mem =>
      (sight_round hook e.selfID reached p t mem).symm).symm
  rw [hfold, Engine.membersList,
    Go.Map.foldl_sorted valid.keyed (Sight.round e.selfID reached) p, peer, Engine.alive]
  cases hget : e.members.get p with
  | none => simp [Tick.sight]
  | some mem =>
      have hid : mem.id = p := valid.keyed p mem hget
      subst hid
      rw [Option.map_some, Option.getD_some, Sight.round, Option.any_some]
      by_cases hskip : mem.id = e.selfID ∨ mem.status ≠ statusAlive
      · have hpeer : ¬decide (mem.id ≠ e.selfID ∧ decide (mem.status = statusAlive)) = true := by
          simpa [or_iff_not_imp_left] using hskip
        rw [if_pos hskip, if_pos hpeer]
        rfl
      · have hpeer : decide (mem.id ≠ e.selfID ∧ decide (mem.status = statusAlive)) = true := by
          simpa using hskip
        rw [if_neg hskip, if_neg (not_not_intro hpeer)]
        rfl

/-- `MarkDead` of those it reports is all that a tick does to the engine. -/
structure Spares (e : Engine) (t : Tick) : Prop where
  valid : t.engine.Valid
  self : t.engine.selfID = e.selfID
  others : ∀ p, p ∉ t.reported → t.engine.members.get p = e.members.get p

theorem Spares.round {e : Engine} {t : Tick} (h : Spares e t) (hook : Bool)
    (reached : String → Bool) (mem : Member) : Spares e (t.round hook e.selfID reached mem) := by
  have hothers : ∀ dead : Option String, ∀ p, p ∉ t.reported ++ dead.toList →
      t.engine.members.get p = e.members.get p := fun dead p hp =>
    h.others p fun hmem => hp (List.mem_append_left _ hmem)
  unfold Tick.round
  cases hook with
  | true => exact ⟨h.valid, h.self, hothers _⟩
  | false =>
      obtain ⟨monitor, dead⟩ := t.monitor.probe e.selfID mem (reached mem.id)
      cases dead with
      | none => exact ⟨h.valid, h.self, hothers none⟩
      | some id =>
          refine ⟨Engine.valid_act h.valid (.markDead id), ?_, fun p hp => ?_⟩
          · exact (Engine.selfID_act t.engine (.markDead id)).trans h.self
          · have hne : p ≠ id := by
              rintro rfl
              exact hp (List.mem_append_right _ List.mem_cons_self)
            exact (Engine.get_markDead t.engine hne).trans (hothers (some id) p hp)

theorem spares_tick {e : Engine} (valid : e.Valid) (m : Monitor) (hook : Bool)
    (reached : String → Bool) : Spares e (m.tick e hook reached) :=
  List.foldlRecOn _ _ ⟨valid, rfl, fun _ _ => rfl⟩ fun _ ht mem _ => ht.round hook reached mem

theorem engine_hook (m : Monitor) (e : Engine) (reached : String → Bool) :
    (m.tick e true reached).engine = e :=
  List.foldlRecOn _ (motive := fun t : Tick => t.engine = e) _ rfl fun _ ht _ _ => ht

end Heartbeat

end Clusdr
