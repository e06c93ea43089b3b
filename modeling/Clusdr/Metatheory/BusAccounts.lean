import Clusdr.Metatheory.BusHandles
import Clusdr.Runs.Trace

/-!
The accounts of the subscribers of a bus. What is published while a subscriber is
subscribed goes into its channel or is dropped, by the room in that channel alone.
-/

namespace Clusdr.EventBus

open Go (Time)
open Events (Event)

namespace Hub

/-- What a step publishes to subscriber `k`, and whether its channel took it. -/
def entry (k : Nat) (h : Hub) : BusStep → List (Event × Bool)
  | .publish now e =>
      if h.subscribed k then
        [(h.stamped now e, decide ((h.channel k).length < ((h.publish now e).channel k).length))]
      else []
  | _ => []

/-- What subscriber `k` receives in a step. -/
def receipt (k : Nat) (h : Hub) : BusStep → List Event
  | .receive j => if j = k then (h.receive k).2.toList else []
  | _ => []

def ledger (k : Nat) : Hub → List BusStep → List (Event × Bool) := Runs.produced step (entry k)

def received (k : Nat) : Hub → List BusStep → List Event := Runs.produced step (receipt k)

def kept (entries : List (Event × Bool)) : List Event := (entries.filter (·.2)).map (·.1)

theorem channel_publish {h : Hub} (linked : h.Linked) (now : Time) (e : Event) (k : Nat) :
    (h.publish now e).channel k =
      if h.subscribed k && !h.full k then h.channel k ++ [h.stamped now e] else h.channel k := by
  rw [channel, inner_publish, channel, full]
  simp only [mem_values_iff linked k]
  cases hsub : h.subscribed k with
  | false => simp
  | true =>
      obtain ⟨sub, hinner⟩ := subscribed_inner hsub
      by_cases hroom : sub.ch.length < sub.cap
      · simp [hinner, Subscriber.offer, hroom]
      · simp [hinner, Subscriber.offer, hroom, Nat.le_of_not_lt hroom]

theorem entry_publish {h : Hub} (linked : h.Linked) (now : Time) (e : Event) (k : Nat) :
    h.entry k (.publish now e) =
      if h.subscribed k then [(h.stamped now e, !h.full k)] else [] := by
  rw [entry, channel_publish linked]
  cases h.subscribed k with
  | false => rfl
  | true => cases h.full k <;> simp

theorem conserve_step {h : Hub} (linked : h.Linked) (k : Nat) (a : BusStep) :
    h.channel k ++ kept (h.entry k a) = h.receipt k a ++ (h.step a).channel k := by
  cases a with
  | publish now e =>
      rw [entry_publish linked, step, channel_publish linked]
      cases h.subscribed k with
      | false => simp [receipt, kept]
      | true => cases h.full k <;> simp [receipt, kept]
  | subscribe bufSize =>
      rw [step, channel, channel, inner_subscribe]
      split
      · rename_i hk
        rw [hk, inner, List.getElem?_eq_none (Nat.le_refl _)]
        rfl
      · exact List.append_nil _
  | unsubscribe j =>
      rw [step, channel, channel, inner_unsubscribe]
      exact List.append_nil _
  | receive j =>
      rw [step, channel, channel, inner_receive, receipt, receipt_eq, channel]
      by_cases hjk : j = k
      · cases h.inner k with
        | none => simp [hjk, entry, kept]
        | some sub => cases hch : sub.ch <;> simp [hjk, hch, entry, kept]
      · simp [hjk, entry, kept]
  | takeDropped j =>
      rw [step, channel, channel, inner_takeDropped]
      cases h.inner k with
      | none => rfl
      | some sub =>
          rw [Option.map_some, Option.map_some]
          split <;> exact List.append_nil _

theorem flag_step {h : Hub} (linked : h.Linked) {k : Nat} {a : BusStep}
    (untaken : a ≠ .takeDropped k) :
    ((h.step a).takeDropped k).2 = ((h.takeDropped k).2 || (h.entry k a).any (!·.2)) := by
  rw [flag_eq, flag_eq]
  cases a with
  | publish now e =>
      rw [entry_publish linked, step, inner_publish, full]
      simp only [mem_values_iff linked k]
      cases hsub : h.subscribed k with
      | false => simp
      | true =>
          obtain ⟨sub, hinner⟩ := subscribed_inner hsub
          by_cases hroom : sub.ch.length < sub.cap
          · simp [hinner, Subscriber.offer, hroom]
          · simp [hinner, Subscriber.offer, hroom, Nat.le_of_not_lt hroom]
  | subscribe bufSize =>
      rw [step, inner_subscribe]
      split
      · rename_i hk
        rw [hk, inner, List.getElem?_eq_none (Nat.le_refl _)]
        rfl
      · exact (Bool.or_false _).symm
  | unsubscribe j =>
      rw [step, inner_unsubscribe]
      exact (Bool.or_false _).symm
  | receive j =>
      rw [step, inner_receive]
      cases h.inner k with
      | none => rfl
      | some sub =>
          rw [Option.map_some]
          split <;> exact (Bool.or_false _).symm
  | takeDropped j =>
      have hjk : j ≠ k := fun h => untaken (h ▸ rfl)
      rw [step, inner_takeDropped]
      simp [hjk, entry]

def isSubscribe : BusStep → Bool
  | .subscribe _ => true
  | _ => false

theorem flag_taken (h : Hub) (k : Nat) : ((h.takeDropped k).1.takeDropped k).2 = false := by
  rw [flag_eq, inner_takeDropped]
  cases h.inner k <;> simp

theorem subscribed_step (h : Hub) (k : Nat) (a : BusStep) :
    (h.step a).subscribed k = true ↔
      ((∃ bufSize, a = .subscribe bufSize) ∧ h.handed.length = k) ∨
        (h.subscribed k = true ∧ a ≠ .unsubscribe k) := by
  simp only [subscribed_iff]
  cases a with
  | publish now e => simp [step, badge_publish]
  | subscribe bufSize =>
      rw [step, badge_subscribe]
      by_cases hk : k = h.handed.length
      · simp [hk]
      · simp [hk, Ne.symm hk]
  | unsubscribe j =>
      rw [step, badge_unsubscribe]
      cases h.badge k with
      | none => simp
      | some b =>
          obtain ⟨id, done⟩ := b
          simp
  | receive j => simp [step, badge_receive]
  | takeDropped j => simp [step, badge_takeDropped]

/-- A subscriber is subscribed from its `Subscribe` to its first `Unsubscribe`. -/
theorem subscribed_run_iff (steps : List BusStep) (k : Nat) :
    (Runs.run step new steps).subscribed k = true ↔
      ∃ before bufSize after, steps = before ++ .subscribe bufSize :: after ∧
        (Runs.run step new before).handed.length = k ∧ .unsubscribe k ∉ after := by
  induction steps using List.reverseRecOn with
  | nil => simp [Runs.run, new, subscribed]
  | append_singleton steps a ih =>
      rw [Runs.run_append]
      refine (subscribed_step _ k a).trans ?_
      rw [ih]
      constructor
      · rintro (⟨⟨bufSize, rfl⟩, hk⟩ | ⟨⟨before, bufSize, after, rfl, hk, hafter⟩, hne⟩)
        · exact ⟨steps, bufSize, [], rfl, hk, List.not_mem_nil⟩
        · refine ⟨before, bufSize, after ++ [a], by simp, hk, ?_⟩
          simp [hafter, hne.symm]
      · rintro ⟨before, bufSize, after, hsteps, hk, hafter⟩
        rcases List.eq_nil_or_concat after with rfl | ⟨after, b, rfl⟩
        · obtain ⟨rfl, hab⟩ := List.append_inj' hsteps rfl
          exact .inl ⟨⟨bufSize, List.head_eq_of_cons_eq hab⟩, hk⟩
        · rw [List.concat_eq_append] at hsteps hafter
          rw [← List.cons_append, ← List.append_assoc] at hsteps
          obtain ⟨rfl, hab⟩ := List.append_inj' hsteps rfl
          cases hab
          refine .inr ⟨⟨before, bufSize, after, rfl, hk, ?_⟩, ?_⟩
          · exact fun hmem => hafter (List.mem_append_left _ hmem)
          · rintro rfl
            exact hafter (List.mem_append_right _ List.mem_cons_self)

/-- No id of the map is ahead of the counter. -/
def Numbered (h : Hub) : Prop := ∀ id k, h.subs.get id = some k → id ≤ h.next

theorem numbered_new : new.Numbered := by
  intro id k hk
  simp [new] at hk

theorem Numbered.free {h : Hub} (numbered : h.Numbered) (room : h.next.toNat + 1 < 2 ^ 64) :
    h.subs.get (h.next + 1) = none := by
  cases hget : h.subs.get (h.next + 1) with
  | none => rfl
  | some k => exact absurd (numbered _ k hget) (UInt64.not_le.mpr (Go.Counter.lt_succ room))

theorem Numbered.subscribe {h : Hub} (numbered : h.Numbered) (room : h.next.toNat + 1 < 2 ^ 64)
    (bufSize : Int) : (h.subscribe bufSize).1.Numbered := by
  intro id k hk
  simp only [Hub.subscribe, Go.Map.get_set] at hk ⊢
  split at hk
  · rename_i hid
    exact hid ▸ UInt64.le_refl _
  · exact UInt64.le_trans (numbered id k hk) (UInt64.le_of_lt (Go.Counter.lt_succ room))

theorem Numbered.unsubscribe {h : Hub} (numbered : h.Numbered) (j : Nat) :
    (h.unsubscribe j).Numbered := by
  intro id k hk
  rw [subs_unsubscribe] at hk
  rw [(h.counters_unsubscribe j).1]
  split at hk
  · cases hk
  · exact numbered id k hk

/-- While the counter has room for the subscriptions to come, every id is fresh. -/
theorem Numbered.unshared {h : Hub} (numbered : h.Numbered) {steps : List BusStep}
    (few : h.next.toNat + steps.countP isSubscribe < 2 ^ 64) :
    Runs.Along step Unshared h steps := by
  induction steps generalizing h with
  | nil => trivial
  | cons a steps ih =>
      rw [List.countP_cons] at few
      cases a with
      | publish now e => exact ⟨trivial, ih numbered few⟩
      | subscribe bufSize =>
          simp only [isSubscribe, if_true] at few
          have room : h.next.toNat + 1 < 2 ^ 64 := by omega
          refine ⟨numbered.free room, ih (numbered.subscribe room bufSize) ?_⟩
          change (h.next + 1).toNat + _ < _
          rw [Go.Counter.toNat_succ room]
          omega
      | unsubscribe j =>
          refine ⟨trivial, ih (numbered.unsubscribe j) ?_⟩
          rw [step, (h.counters_unsubscribe j).1]
          exact few
      | receive j =>
          rw [Runs.Along, step, receive_fst]
          exact ⟨trivial, ih numbered few⟩
      | takeDropped j => exact ⟨trivial, ih numbered few⟩

theorem unshared_of_few {steps : List BusStep} (few : steps.countP isSubscribe < 2 ^ 64) :
    Runs.Along step Unshared new steps := by
  refine numbered_new.unshared ?_
  rwa [new, UInt64.toNat_zero, Nat.zero_add]

theorem linked_along {steps : List BusStep} (unshared : Runs.Along step Unshared new steps) :
    Runs.Along step (fun h _ => h.Linked) new steps :=
  Runs.Along.of_invariant Linked linked_new
    (fun _ _ linked unshared => ⟨linked_step linked unshared, linked⟩) unshared

theorem linked_run {steps : List BusStep} (unshared : Runs.Along step Unshared new steps) :
    (Runs.run step new steps).Linked :=
  Runs.invariant (fun _ => Linked) linked_new
    (fun _ _ _ linked ok => linked_step linked ok) unshared

theorem kept_ledger (k : Nat) (h : Hub) (steps : List BusStep) :
    kept (ledger k h steps) = Runs.produced step (fun h a => kept (h.entry k a)) h steps :=
  Runs.map_produced kept rfl
    (fun xs ys => by simp only [kept, List.filter_append, List.map_append]) _ h steps

/-- The account of subscriber `k` after these steps. -/
structure Accounts (steps : List BusStep) (k : Nat) : Prop where
  subscribed : (Runs.run step new steps).subscribed k = true ↔
    ∃ before bufSize after, steps = before ++ .subscribe bufSize :: after ∧
      (Runs.run step new before).handed.length = k ∧ .unsubscribe k ∉ after
  /-- What is published next is dropped exactly if the channel of `k` is full. -/
  fate : ∀ now e, (Runs.run step new steps).entry k (.publish now e) =
    if (Runs.run step new steps).subscribed k then
      [((Runs.run step new steps).stamped now e, !(Runs.run step new steps).full k)]
    else []
  /-- What was not dropped has been received or is in the channel. -/
  split : kept (ledger k new steps) =
    received k new steps ++ (Runs.run step new steps).channel k
  /-- `TakeDropped` tells of the events dropped since it was called last. -/
  flag : ∀ before since, steps = before ++ since →
    (before = [] ∨ ∃ earlier, before = earlier ++ [.takeDropped k]) → .takeDropped k ∉ since →
    (((Runs.run step new steps).takeDropped k).2 = true ↔
      ∃ x ∈ ledger k (Runs.run step new before) since, x.2 = false)

theorem flag_since {steps before since : List BusStep} {k : Nat}
    (unshared : Runs.Along step Unshared new steps) (hsteps : steps = before ++ since)
    (taken : before = [] ∨ ∃ earlier, before = earlier ++ [.takeDropped k])
    (untaken : .takeDropped k ∉ since) :
    ((Runs.run step new steps).takeDropped k).2 =
      (ledger k (Runs.run step new before) since).any (!·.2) := by
  subst hsteps
  have hclear : ((Runs.run step new before).takeDropped k).2 = false := by
    rcases taken with rfl | ⟨earlier, rfl⟩
    · rfl
    · rw [Runs.run_append]
      exact flag_taken _ k
  have hlinked := (Runs.along_append.mp (linked_along unshared)).2
  have hother : Runs.Along step (fun _ a => a ≠ .takeDropped k) (Runs.run step new before) since :=
    Runs.Along.of_forall_mem fun _ a ha heq => untaken (heq ▸ ha)
  have hflag := Runs.flagged (fun h : Hub => (h.takeDropped k).2)
    (fun h a ok => flag_step ok.1 ok.2) (hlinked.and hother)
  rw [Runs.run_append, hflag, hclear, Bool.false_or]
  rfl

end Hub

theorem bus_accounts (steps : List BusStep)
    (unshared : Runs.Along Hub.step Hub.Unshared Hub.new steps) (k : Nat) :
    Hub.Accounts steps k := by
  have hlinked := Hub.linked_run unshared
  refine ⟨Hub.subscribed_run_iff steps k, fun now e => Hub.entry_publish hlinked now e k, ?_, ?_⟩
  · rw [Hub.kept_ledger]
    exact Runs.conserved (fun h : Hub => h.channel k)
      (fun h a linked => Hub.conserve_step linked k a) (Hub.linked_along unshared)
  · intro before since hsteps taken untaken
    rw [Hub.flag_since unshared hsteps taken untaken, List.any_eq_true]
    exact exists_congr fun x => and_congr_right fun _ => iff_of_eq (Bool.not_eq_true' x.2)

/-- A channel of one that misses the second of two events; the third comes after
`Unsubscribe`. -/
theorem bus_accounts_overrun :
    let e : Event := { type := "custom.a", source := "n1" }
    let steps := [.subscribe 1, .publish 5 e, .subscribe 4, .publish 6 e, .takeDropped 0,
      .receive 0, .unsubscribe 0, .publish 7 e, .unsubscribe 0]
    Hub.Accounts steps 0 ∧ Hub.Accounts steps 1 ∧
      (Hub.ledger 0 Hub.new steps).map (·.2) = [true, false] ∧
      (Hub.ledger 1 Hub.new steps).map (·.2) = [true, true] := by
  intro e steps
  have few : Runs.Along Hub.step Hub.Unshared Hub.new steps := Hub.unshared_of_few (by decide)
  exact ⟨bus_accounts steps few 0, bus_accounts steps few 1, by decide, by decide⟩

namespace Hub

/-- A hub that has only been subscribed to. -/
def crowd (n : Nat) : Hub := Runs.run step new (List.replicate n (.subscribe 1))

theorem crowd_succ (n : Nat) : crowd (n + 1) = ((crowd n).subscribe 1).1 := by
  rw [crowd, List.replicate_succ', Runs.run_append]
  rfl

theorem crowd_counters (n : Nat) :
    (crowd n).next = UInt64.ofNat n ∧ (crowd n).handed.length = n := by
  induction n with
  | zero => exact ⟨rfl, rfl⟩
  | succ n ih =>
      obtain ⟨hnext, hlength⟩ := ih
      rw [crowd_succ]
      refine ⟨?_, ?_⟩
      · rw [UInt64.ofNat_add, ← hnext]
        rfl
      · rw [subscribe, List.length_append, hlength]
        rfl

theorem crowd_first (n : Nat) :
    (crowd (n + 1)).badge 0 = some (1, false) ∧ (crowd (n + 1)).inner 0 = some ⟨1, [], false⟩ := by
  induction n with
  | zero => exact ⟨rfl, rfl⟩
  | succ n ih =>
      have hne : 0 ≠ (crowd (n + 1)).handed.length := by
        rw [(crowd_counters (n + 1)).2]
        exact (Nat.succ_ne_zero n).symm
      rw [crowd_succ, badge_subscribe, inner_subscribe, if_neg hne, if_neg hne]
      exact ih

/-- When the counter has come round, the first subscriber has lost its id. -/
theorem crowd_lost {n : Nat} (wrapped : UInt64.ofNat (n + 1) = 0) :
    0 ∉ (crowd (n + 2)).subs.values := by
  intro hmem
  obtain ⟨id, hid⟩ := (Go.Map.mem_values_iff _ _).mp hmem
  have hbadge := registered_run _ id 0 hid
  obtain ⟨hnext, hlength⟩ := crowd_counters (n + 1)
  obtain rfl : id = 1 :=
    (Prod.mk.inj (Option.some.inj (hbadge.symm.trans (crowd_first (n + 1)).1))).1
  change (crowd (n + 2)).subs.get 1 = some 0 at hid
  rw [crowd_succ, subscribe, hnext, wrapped, hlength, Go.Map.get_set] at hid
  exact Nat.succ_ne_zero n (Option.some.inj hid)

theorem crowd_silences {n : Nat} (wrapped : UInt64.ofNat (n + 1) = 0) :
    (crowd (n + 2)).subscribed 0 = true ∧ (crowd (n + 2)).full 0 = false ∧ ∀ now e,
      (crowd (n + 2)).entry 0 (.publish now e) = [((crowd (n + 2)).stamped now e, false)] ∧
        (((crowd (n + 2)).publish now e).takeDropped 0).2 = false := by
  obtain ⟨hbadge, hinner⟩ := crowd_first (n + 1)
  have hlost := crowd_lost wrapped
  generalize crowd (n + 2) = h at hbadge hinner hlost
  have hsub : h.subscribed 0 = true := (h.subscribed_iff 0).mpr ⟨1, hbadge⟩
  refine ⟨hsub, by rw [full, hinner]; rfl, fun now e => ?_⟩
  have hpublish : (h.publish now e).inner 0 = some ⟨1, [], false⟩ := by
    rw [inner_publish, hinner, Option.map_some, if_neg hlost]
  refine ⟨?_, ?_⟩
  · rw [entry, if_pos hsub, channel, channel, hpublish, hinner]
    rfl
  · rw [flag_eq, hpublish]
    rfl

end Hub

/-- After 2^64 further subscriptions the first subscriber, whose channel is empty,
misses every event, and its flag stays clear. -/
theorem reused_id_silences_subscriber :
    let h := Runs.run Hub.step Hub.new (List.replicate (2 ^ 64 + 1) (.subscribe 1))
    h.subscribed 0 = true ∧ h.full 0 = false ∧ ∀ now e,
      h.entry 0 (.publish now e) = [(h.stamped now e, false)] ∧
        ((h.publish now e).takeDropped 0).2 = false := by
  have wrapped : UInt64.ofNat (2 ^ 64 - 1 + 1) = 0 := by decide
  have hcrowd := Hub.crowd_silences wrapped
  have hn : 2 ^ 64 - 1 + 2 = 2 ^ 64 + 1 := by decide
  rw [hn] at hcrowd
  exact hcrowd

end Clusdr.EventBus
