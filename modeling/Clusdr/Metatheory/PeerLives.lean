import Clusdr.Metatheory.HeartbeatTick
import Clusdr.Runs.Along

/-!
What the monitor counts against a peer. The count is of the pings that failed since
the last one that did not; the member list may have lost and regained the peer in
between, and the count of its former life then shortens the new one.
-/

namespace Clusdr

open Go (Time)
open Clusdr.Membership (Action Engine Member statusAlive)

namespace Heartbeat

/-- A monitor on the engine of its node. `pings` are the pings sent to each peer, the
last one first and `true` for an answer, and `life` is how many of them were sent
since the peer became alive; nothing in the program reads these two. -/
structure Vigil where
  monitor : Monitor
  engine : Engine
  hook : Bool
  pings : String → List Bool
  life : String → Nat

inductive VigilStep where
  | tick (reached : String → Bool)
  | act (a : Action)

def VigilStep.reached : VigilStep → String → Bool
  | .tick reached, p => reached p
  | .act _, _ => false

namespace Vigil

def start (now : Time) (selfID selfAddr : String) (maxMisses : Int) (hook : Bool) : Vigil where
  monitor := ⟨maxMisses, ∅⟩
  engine := .new now selfID selfAddr
  hook := hook
  pings _ := []
  life _ := 0

def turn (s : Vigil) : VigilStep → Tick
  | .tick reached => s.monitor.tick s.engine s.hook reached
  | .act a => ⟨s.monitor, s.engine.act a, [], []⟩

/-- The peer becomes alive in the member list. -/
def revives (s : Vigil) (ev : VigilStep) (p : String) : Bool :=
  !s.engine.alive p && (s.turn ev).engine.alive p

def step (s : Vigil) (ev : VigilStep) : Vigil where
  monitor := (s.turn ev).monitor
  engine := (s.turn ev).engine
  hook := s.hook
  pings p := if (s.turn ev).pinged.contains p then ev.reached p :: s.pings p else s.pings p
  life p :=
    if s.revives ev p then 0
    else if (s.turn ev).pinged.contains p then s.life p + 1
    else s.life p

/-- If the step reports the peer, its last `maxMisses` pings failed and were sent since
it became alive. -/
def Rightly (p : String) (s : Vigil) (ev : VigilStep) : Prop :=
  p ∈ (s.turn ev).reported →
    ((s.step ev).pings p).take s.monitor.maxMisses.toNat =
        List.replicate s.monitor.maxMisses.toNat false ∧
      s.monitor.maxMisses.toNat ≤ (s.step ev).life p

/-- The monitor counts nothing against a peer that becomes alive. -/
def Unburdened (p : String) (s : Vigil) (ev : VigilStep) : Prop :=
  s.revives ev p = true → s.monitor.missed p = 0

/-- What a step does about the peer. -/
inductive Treats (s : Vigil) (ev : VigilStep) (p : String) : Sight → Prop
  | idle : Treats s ev p ⟨s.monitor.maxMisses, s.monitor.missed p, false, false⟩
  | answered (peer : peer s.engine p = true) (reached : ev.reached p = true) :
      Treats s ev p ⟨s.monitor.maxMisses, 0, true, false⟩
  | missed (peer : peer s.engine p = true) (reached : ev.reached p = false)
      (more : s.monitor.missed p + 1 < s.monitor.maxMisses) :
      Treats s ev p ⟨s.monitor.maxMisses, s.monitor.missed p + 1, true, false⟩
  | reported (peer : peer s.engine p = true) (reached : ev.reached p = false)
      (last : s.monitor.maxMisses ≤ s.monitor.missed p + 1) :
      Treats s ev p ⟨s.monitor.maxMisses, 0, true, true⟩

theorem treats {s : Vigil} (valid : s.engine.Valid) (ev : VigilStep) (p : String) :
    Treats s ev p ((s.turn ev).sight p) := by
  cases ev with
  | act a => exact .idle
  | tick reached =>
      rw [turn, sight_tick valid]
      split
      · exact .idle
      · rename_i hpeer
        have hpeer := not_not.mp hpeer
        split
        · exact .answered hpeer ‹_›
        · rename_i hreached
          have hreached := Bool.eq_false_iff.mpr hreached
          split
          · exact .reported hpeer hreached ‹_›
          · exact .missed hpeer hreached (Int.not_le.mp ‹_›)

theorem engine_turn {s : Vigil} (valid : s.engine.Valid) (ev : VigilStep) :
    (s.turn ev).engine.Valid ∧ (s.turn ev).engine.selfID = s.engine.selfID := by
  cases ev with
  | act a => exact ⟨Engine.valid_act valid a, Engine.selfID_act s.engine a⟩
  | tick reached =>
      have hspares := spares_tick valid s.monitor s.hook reached
      exact ⟨hspares.valid, hspares.self⟩

theorem pings_step (s : Vigil) (ev : VigilStep) (p : String) :
    (s.step ev).pings p =
      if ((s.turn ev).sight p).pinged then ev.reached p :: s.pings p else s.pings p := rfl

theorem life_step (s : Vigil) (ev : VigilStep) (p : String) :
    (s.step ev).life p =
      if s.revives ev p then 0
      else if ((s.turn ev).sight p).pinged then s.life p + 1
      else s.life p := rfl

theorem reported_iff (s : Vigil) (ev : VigilStep) (p : String) :
    p ∈ (s.turn ev).reported ↔ ((s.turn ev).sight p).reported = true :=
  List.contains_iff_mem.symm

/-- What the monitor counts against a peer are its last pings. -/
structure Counted (p : String) (s : Vigil) : Prop where
  valid : s.engine.Valid
  below : s.monitor.missed p < s.monitor.maxMisses
  failed : (s.pings p).take (s.monitor.missed p) = List.replicate (s.monitor.missed p) false
  other : s.monitor.missed p ≠ 0 → p ≠ s.engine.selfID

theorem counted_start (now : Time) (selfID selfAddr : String) {maxMisses : Int}
    (pos : 1 ≤ maxMisses) (hook : Bool) (p : String) :
    Counted p (start now selfID selfAddr maxMisses hook) where
  valid := Engine.valid_new now selfID selfAddr
  below := by
    have hzero : (start now selfID selfAddr maxMisses hook).monitor.missed p = 0 := by
      simp [start, Monitor.missed]
    rw [hzero]
    exact pos
  failed := by simp [start, Monitor.missed]
  other h := by simp [start, Monitor.missed] at h

theorem counted_step {p : String} {s : Vigil} (h : Counted p s) (ev : VigilStep) :
    Counted p (s.step ev) := by
  obtain ⟨hvalid, hself⟩ := engine_turn h.valid ev
  have hpos : 0 < s.monitor.maxMisses := by
    have := h.below
    omega
  have htreats := treats h.valid ev p
  have hmax : (s.step ev).monitor.maxMisses = ((s.turn ev).sight p).max := rfl
  have hmissed : (s.step ev).monitor.missed p = ((s.turn ev).sight p).missed := rfl
  have hpings := s.pings_step ev p
  generalize (s.turn ev).sight p = v at htreats hmax hmissed hpings
  refine ⟨hvalid, ?_, ?_, ?_⟩
  · rw [hmax, hmissed]
    cases htreats with
    | idle => exact h.below
    | answered => exact hpos
    | missed _ _ more => exact more
    | reported => exact hpos
  · rw [hmissed, hpings]
    cases htreats with
    | idle => exact h.failed
    | answered => rfl
    | missed _ reached =>
        rw [reached, if_pos rfl, List.take_succ_cons, h.failed, List.replicate_succ]
    | reported => rfl
  · rw [hmissed]
    change _ → p ≠ (s.turn ev).engine.selfID
    rw [hself]
    cases htreats with
    | idle => exact h.other
    | answered => exact fun h => absurd rfl h
    | missed peer => exact fun _ => (of_decide_eq_true peer).1
    | reported => exact fun h => absurd rfl h

theorem alive_of_peer {s : Vigil} {p : String} (h : peer s.engine p = true) (ev : VigilStep) :
    s.revives ev p = false := by
  have halive := (of_decide_eq_true h).2
  rw [revives, halive]
  rfl

/-- If no more is counted against a peer than its life has pings, a step keeps it so and
reports it rightly. -/
theorem rightly_step {p : String} {s : Vigil} (h : Counted p s)
    (own : s.monitor.missed p ≤ s.life p) {ev : VigilStep} (unburdened : s.Unburdened p ev) :
    (s.step ev).monitor.missed p ≤ (s.step ev).life p ∧ s.Rightly p ev := by
  have htreats := treats h.valid ev p
  have hmissed : (s.step ev).monitor.missed p = ((s.turn ev).sight p).missed := rfl
  have hpings := s.pings_step ev p
  have hlife := s.life_step ev p
  have hreported := s.reported_iff ev p
  rw [Rightly, hmissed, hreported, hpings, hlife]
  generalize (s.turn ev).sight p = v at htreats
  cases htreats with
  | idle =>
      refine ⟨?_, fun h => absurd h Bool.false_ne_true⟩
      cases hrevives : s.revives ev p with
      | true => exact Nat.le_of_eq (unburdened hrevives)
      | false => exact own
  | answered => exact ⟨Nat.zero_le _, fun h => absurd h Bool.false_ne_true⟩
  | missed peer =>
      rw [alive_of_peer peer]
      exact ⟨Nat.succ_le_succ own, fun h => absurd h Bool.false_ne_true⟩
  | reported peer reached last =>
      have hmax : s.monitor.maxMisses.toNat = s.monitor.missed p + 1 := by
        have := h.below
        omega
      rw [alive_of_peer peer, reached, hmax]
      refine ⟨Nat.zero_le _, fun _ => ⟨?_, Nat.succ_le_succ own⟩⟩
      rw [if_pos rfl, List.take_succ_cons, h.failed, List.replicate_succ]

theorem rightly_along {p : String} {s : Vigil} (h : Counted p s)
    (own : s.monitor.missed p ≤ s.life p) {steps : List VigilStep}
    (unburdened : Runs.Along step (Unburdened p) s steps) :
    Runs.Along step (Rightly p) s steps := by
  refine Runs.Along.of_invariant (fun s => Counted p s ∧ s.monitor.missed p ≤ s.life p) ⟨h, own⟩
    (fun s ev hs hev => ?_) unburdened
  obtain ⟨hnext, hrightly⟩ := rightly_step hs.1 hs.2 hev
  exact ⟨⟨counted_step hs.1 ev, hnext⟩, hrightly⟩

theorem counted_run {p : String} {s : Vigil} (h : Counted p s) (steps : List VigilStep) :
    Counted p (Runs.run step s steps) := by
  induction steps generalizing s with
  | nil => exact h
  | cons ev steps ih => exact ih (counted_step h ev)

/-- A tick in which nobody answers. -/
def silence : VigilStep := .tick fun _ => false

theorem sight_silence {s : Vigil} {p : String} (valid : s.engine.Valid)
    (peer : peer s.engine p = true) :
    (s.turn silence).sight p =
      if s.monitor.maxMisses ≤ (s.monitor.missed p + 1 : Nat) then
        ⟨s.monitor.maxMisses, 0, true, true⟩
      else ⟨s.monitor.maxMisses, s.monitor.missed p + 1, true, false⟩ := by
  rw [silence, turn, sight_tick valid, if_neg (not_not_intro peer), if_neg Bool.false_ne_true]

theorem life_silence {s : Vigil} {p : String} (valid : s.engine.Valid)
    (peer : peer s.engine p = true) : (s.step silence).life p = s.life p + 1 := by
  have hpinged : ((s.turn silence).sight p).pinged = true := by
    rw [sight_silence valid peer]
    split <;> rfl
  rw [life_step, alive_of_peer peer, hpinged]
  rfl

theorem peer_turn {s : Vigil} {p : String} (valid : s.engine.Valid) (reached : String → Bool)
    (spared : p ∉ (s.turn (.tick reached)).reported) :
    peer (s.step (.tick reached)).engine p = peer s.engine p := by
  have hspares := spares_tick valid s.monitor s.hook reached
  have hengine : (s.step (.tick reached)).engine =
      (s.monitor.tick s.engine s.hook reached).engine := rfl
  rw [peer, peer, Engine.alive, Engine.alive, hengine, hspares.self, hspares.others p spared]

/-- More is counted against the peer than its life has pings: pings that fail from now on
report it too early. -/
theorem not_rightly_silence {p : String} (n : Nat) {s : Vigil} (h : Counted p s)
    (peer : peer s.engine p = true) (burdened : s.life p < s.monitor.missed p)
    (left : s.monitor.missed p + (n + 1) = s.monitor.maxMisses) :
    Runs.Along step (fun s ev => s.revives ev p = false) s (List.replicate (n + 1) silence) ∧
      ¬Runs.Along step (Rightly p) s (List.replicate (n + 1) silence) := by
  induction n generalizing s with
  | zero =>
      refine ⟨⟨alive_of_peer peer silence, trivial⟩, fun hrightly => ?_⟩
      have hreported : p ∈ (s.turn silence).reported := by
        rw [reported_iff, sight_silence h.valid peer, if_pos (by omega)]
      have hlife := (hrightly.1 hreported).2
      rw [life_silence h.valid peer] at hlife
      omega
  | succ n ih =>
      have hmore : ¬s.monitor.maxMisses ≤ (s.monitor.missed p + 1 : Nat) := by omega
      have hsight := sight_silence h.valid peer
      rw [if_neg hmore] at hsight
      have hspared : p ∉ (s.turn silence).reported := by
        rw [reported_iff, hsight]
        exact Bool.false_ne_true
      have hmissed : (s.step silence).monitor.missed p = s.monitor.missed p + 1 :=
        congrArg Sight.missed hsight
      have hmax : (s.step silence).monitor.maxMisses = s.monitor.maxMisses :=
        congrArg Sight.max hsight
      obtain ⟨hrevives, hnot⟩ := ih (counted_step h silence)
        ((peer_turn h.valid _ hspared).trans peer)
        (by rw [life_silence h.valid peer, hmissed]; omega) (by rw [hmissed, hmax]; omega)
      exact ⟨⟨alive_of_peer peer silence, hrevives⟩, fun hrightly => hnot hrightly.2⟩

/-- A peer that becomes alive starts with no pings and keeps its count. -/
theorem revived {p : String} {s : Vigil} (h : Counted p s) {ev : VigilStep}
    (revives : s.revives ev p = true) :
    (s.step ev).engine.alive p = true ∧ (s.step ev).life p = 0 ∧
      (s.step ev).monitor.missed p = s.monitor.missed p ∧
      (s.step ev).monitor.maxMisses = s.monitor.maxMisses := by
  have hlife : (s.step ev).life p = 0 := by rw [life_step, if_pos revives]
  refine ⟨((Bool.and_eq_true _ _).mp revives).2, hlife, ?_⟩
  have htreats := treats h.valid ev p
  have hmissed : (s.step ev).monitor.missed p = ((s.turn ev).sight p).missed := rfl
  have hmax : (s.step ev).monitor.maxMisses = ((s.turn ev).sight p).max := rfl
  rw [hmissed, hmax]
  generalize (s.turn ev).sight p = v at htreats
  cases htreats with
  | idle => exact ⟨rfl, rfl⟩
  | answered peer | missed peer | reported peer =>
      rw [alive_of_peer peer] at revives
      cases revives

theorem revived_rightly_iff {p : String} {s : Vigil} (h : Counted p s) {ev : VigilStep}
    (revives : s.revives ev p = true) :
    (∀ future, Runs.Along step (fun s ev => s.revives ev p = false) (s.step ev) future →
        Runs.Along step (Rightly p) (s.step ev) future) ↔ s.monitor.missed p = 0 := by
  obtain ⟨halive, hlife, hmissed, hmax⟩ := revived h revives
  have hcounted := counted_step h ev
  constructor
  · intro hfuture
    by_contra hne
    have hother := hcounted.other (hmissed ▸ hne)
    have hpeer : peer (s.step ev).engine p = true := decide_eq_true ⟨hother, halive⟩
    have hbelow := hcounted.below
    obtain ⟨n, hn⟩ : ∃ n : Nat, (s.step ev).monitor.missed p + (n + 1) =
        (s.step ev).monitor.maxMisses :=
      ⟨((s.step ev).monitor.maxMisses - (s.step ev).monitor.missed p - 1).toNat, by omega⟩
    obtain ⟨hrevives, hnot⟩ := not_rightly_silence n hcounted hpeer (by omega) hn
    exact hnot (hfuture _ hrevives)
  · intro hzero future hfuture
    refine rightly_along hcounted (by omega) ?_
    refine hfuture.mono fun s ev hev hrevives => ?_
    rw [hev] at hrevives
    cases hrevives

end Vigil

end Heartbeat

open Heartbeat

/-- A peer is reported for this life if the monitor counts nothing against it whenever it
becomes alive; where it does count something then, the next report can come early. -/
theorem reported_for_this_life_iff (now : Time) (selfID selfAddr : String) (maxMisses : Int)
    (pos : 1 ≤ maxMisses) (hook : Bool) (p : String) (steps : List VigilStep) :
    (Runs.Along Vigil.step (Vigil.Unburdened p) (.start now selfID selfAddr maxMisses hook) steps →
      Runs.Along Vigil.step (Vigil.Rightly p) (.start now selfID selfAddr maxMisses hook) steps) ∧
    let s := Runs.run Vigil.step (.start now selfID selfAddr maxMisses hook) steps
    ∀ ev, s.revives ev p = true →
      ((∀ future, Runs.Along Vigil.step (fun s ev => s.revives ev p = false) (s.step ev) future →
        Runs.Along Vigil.step (Vigil.Rightly p) (s.step ev) future) ↔ s.monitor.missed p = 0) := by
  have hstart := Vigil.counted_start now selfID selfAddr pos hook p
  refine ⟨fun unburdened => Vigil.rightly_along hstart ?_ unburdened, fun ev revives => ?_⟩
  · simp [Vigil.start, Monitor.missed]
  · exact Vigil.revived_rightly_iff (Vigil.counted_run hstart steps) revives

/-- A peer that joins and misses two pings. -/
theorem reported_for_this_life_iff_twice :
    let s := Runs.run Vigil.step (.start 0 "n1" "a1" 2 true)
      [.act (.joinAs 1 "n2" "a2" "voter"), Vigil.silence]
    "n2" ∈ (s.turn Vigil.silence).reported ∧ s.Rightly "n2" Vigil.silence := by
  intro s
  let join : VigilStep := .act (.joinAs 1 "n2" "a2" "voter")
  let s₁ := (Vigil.start 0 "n1" "a1" 2 true).step join
  have h₁ : Vigil.Counted "n2" s₁ :=
    Vigil.counted_step (Vigil.counted_start 0 "n1" "a1" (by decide) true "n2") _
  have hpeer₁ : peer s₁.engine "n2" = true := by decide
  have hengine : s.engine = s₁.engine := engine_hook _ _ _
  have hpeer : peer s.engine "n2" = true := hengine ▸ hpeer₁
  have hsight := Vigil.sight_silence h₁.valid hpeer₁
  have hmissed : s.monitor.missed "n2" = 1 := (congrArg Sight.missed hsight).trans (by decide)
  have hmax : s.monitor.maxMisses = 2 := (congrArg Sight.max hsight).trans (by decide)
  have hrightly := (reported_for_this_life_iff 0 "n1" "a1" 2 (by decide) true "n2"
    [join, Vigil.silence, Vigil.silence]).1
      ⟨fun _ => by decide,
        fun h => absurd ((Vigil.alive_of_peer hpeer₁ _).symm.trans h) Bool.false_ne_true,
        fun h => absurd ((Vigil.alive_of_peer hpeer _).symm.trans h) Bool.false_ne_true, trivial⟩
  have hvalid : s.engine.Valid := (Vigil.counted_step h₁ Vigil.silence).valid
  refine ⟨?_, hrightly.2.2.1⟩
  rw [Vigil.reported_iff, Vigil.sight_silence hvalid hpeer, if_pos (by omega)]

/-- With two misses to a death: one miss, dead by another's word, alive again, and one
more miss is enough. -/
theorem former_life_counts :
    let s := Runs.run Vigil.step (.start 0 "n1" "a1" 2 true) [.act (.joinAs 1 "n2" "a2" "voter"),
      Vigil.silence, .act (.markDead "n2"), .act (.joinAs 2 "n2" "a2" "voter")]
    "n2" ∈ (s.turn Vigil.silence).reported ∧ (s.step Vigil.silence).life "n2" = 1 := by
  intro s
  let s₁ := (Vigil.start 0 "n1" "a1" 2 true).step (.act (.joinAs 1 "n2" "a2" "voter"))
  have h₁ : Vigil.Counted "n2" s₁ :=
    Vigil.counted_step (Vigil.counted_start 0 "n1" "a1" (by decide) true "n2") _
  have hsight := Vigil.sight_silence h₁.valid (show peer s₁.engine "n2" = true by decide)
  have hengine : (s₁.step Vigil.silence).engine = s₁.engine := engine_hook _ _ _
  have hmissed : s.monitor.missed "n2" = 1 := (congrArg Sight.missed hsight).trans (by decide)
  have hmax : s.monitor.maxMisses = 2 := (congrArg Sight.max hsight).trans (by decide)
  have hpeer : peer s.engine "n2" = true := by
    have hlast : s.engine = ((s₁.step Vigil.silence).engine.act (.markDead "n2")).act
        (.joinAs 2 "n2" "a2" "voter") := rfl
    rw [hlast, hengine]
    decide
  have hlife : s.life "n2" = 0 := by
    let s₃ := (s₁.step Vigil.silence).step (.act (.markDead "n2"))
    have hrevives : s₃.revives (.act (.joinAs 2 "n2" "a2" "voter")) "n2" =
        (!((s₁.step Vigil.silence).engine.act (.markDead "n2")).alive "n2" &&
          (((s₁.step Vigil.silence).engine.act (.markDead "n2")).act
            (.joinAs 2 "n2" "a2" "voter")).alive "n2") := rfl
    rw [hengine] at hrevives
    exact if_pos (hrevives.trans (by decide))
  have h : Vigil.Counted "n2" s := Vigil.counted_run h₁
    [Vigil.silence, .act (.markDead "n2"), .act (.joinAs 2 "n2" "a2" "voter")]
  refine ⟨?_, ?_⟩
  · rw [Vigil.reported_iff, Vigil.sight_silence h.valid hpeer, if_pos (by omega)]
  · rw [Vigil.life_silence h.valid hpeer, hlife]

end Clusdr
