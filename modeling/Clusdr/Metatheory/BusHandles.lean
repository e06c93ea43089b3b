import Clusdr.Core.Subscriptions
import Clusdr.Runs.Along

/-!
The subscriptions a bus handed out, step by step. The map points to those that are
not done, as long as no id is given out again while it is in use; seen through its
map, the hub is the bus.
-/

namespace Clusdr.EventBus

open Go (Time)
open Events (Event)

inductive BusStep where
  | publish (now : Time) (e : Event)
  | subscribe (bufSize : Int)
  | unsubscribe (k : Nat)
  | receive (k : Nat)
  | takeDropped (k : Nat)

namespace Hub

def step (h : Hub) : BusStep → Hub
  | .publish now e => h.publish now e
  | .subscribe bufSize => (h.subscribe bufSize).1
  | .unsubscribe k => h.unsubscribe k
  | .receive k => (h.receive k).1
  | .takeDropped k => (h.takeDropped k).1

def subscribed (h : Hub) (k : Nat) : Bool := (h.handed[k]?).any fun sub => !sub.done

/-- What the bus and the owner share of a subscription. -/
def inner (h : Hub) (k : Nat) : Option Subscriber := (h.handed[k]?).map Subscription.inner

def channel (h : Hub) (k : Nat) : List Event := ((h.inner k).map Subscriber.ch).getD []

def full (h : Hub) (k : Nat) : Bool :=
  (h.inner k).any fun sub => decide (sub.cap ≤ sub.ch.length)

/-- The id of a subscription, and whether it is done. -/
def badge (h : Hub) (k : Nat) : Option (UInt64 × Bool) :=
  (h.handed[k]?).map fun sub => (sub.id, sub.done)

/-- The map of the bus points to the subscriptions that are not done, by their ids. -/
def Linked (h : Hub) : Prop := ∀ id k, h.subs.get id = some k ↔ h.badge k = some (id, false)

/-- A new subscription gets an id under which none is registered. -/
def Unshared (h : Hub) : BusStep → Prop
  | .subscribe _ => h.subs.get (h.next + 1) = none
  | _ => True

instance (h : Hub) (a : BusStep) : Decidable (h.Unshared a) := by
  cases a <;> unfold Unshared <;> infer_instance

theorem handed_publish (h : Hub) (now : Time) (e : Event) (k : Nat) :
    (h.publish now e).handed[k]? = (h.handed[k]?).map fun sub =>
      if k ∈ h.subs.values then { sub with inner := sub.inner.offer (h.stamped now e) }
      else sub :=
  List.getElem?_mapIdx

theorem handed_subscribe (h : Hub) (bufSize : Int) (k : Nat) :
    (h.subscribe bufSize).1.handed[k]? =
      if k = h.handed.length then
        some ⟨h.next + 1, ⟨if bufSize ≤ 0 then 16 else bufSize.toNat, [], false⟩, false⟩
      else h.handed[k]? := by
  simp only [subscribe, List.getElem?_append, List.getElem?_singleton]
  by_cases hlt : k < h.handed.length
  · rw [if_pos hlt, if_neg (by omega)]
  · rw [if_neg hlt]
    by_cases heq : k = h.handed.length
    · rw [if_pos (by omega), if_pos heq]
    · rw [if_neg (by omega), if_neg heq, List.getElem?_eq_none (by omega)]

/-- Where `f` does nothing to the element at `j`, the list is not changed. -/
theorem getElem?_map_ite {α : Type} {xs : List α} {j : Nat} {f : α → α}
    (same : ∀ x, xs[j]? = some x → f x = x) (k : Nat) :
    xs[k]? = (xs[k]?).map fun x => if j = k then f x else x := by
  cases hk : xs[k]? with
  | none => rfl
  | some x =>
      rw [Option.map_some]
      split
      · rename_i hjk
        rw [same x (hjk ▸ hk)]
      · rfl

theorem handed_receive (h : Hub) (j k : Nat) :
    (h.receive j).1.handed[k]? = (h.handed[k]?).map fun sub =>
      if j = k then { sub with inner := { sub.inner with ch := sub.inner.ch.tail } } else sub := by
  unfold receive
  split
  · rename_i hnone
    refine getElem?_map_ite (fun sub hsub => ?_) k
    rw [hsub, Option.bind_some, List.head?_eq_none_iff] at hnone
    obtain ⟨id, ⟨cap, ch, dropped⟩, done⟩ := sub
    cases hnone
    rfl
  · exact List.getElem?_modify _ _ _ _

theorem handed_takeDropped (h : Hub) (j k : Nat) :
    (h.takeDropped j).1.handed[k]? = (h.handed[k]?).map fun sub =>
      if j = k then { sub with inner := { sub.inner with dropped := false } } else sub :=
  List.getElem?_modify _ _ _ _

theorem handed_unsubscribe (h : Hub) (j k : Nat) :
    (h.unsubscribe j).handed[k]? = (h.handed[k]?).map fun sub =>
      if j = k then { sub with done := true } else sub := by
  unfold unsubscribe
  split
  · rename_i hnone
    refine getElem?_map_ite (fun sub hsub => ?_) k
    rw [hsub] at hnone
    cases hnone
  · rename_i sub hsub
    split
    · rename_i hdone
      refine getElem?_map_ite (fun sub' hsub' => ?_) k
      obtain rfl := Option.some.inj (hsub.symm.trans hsub')
      rw [← hdone]
    · exact List.getElem?_modify _ _ _ _

theorem badge_eq {h h' : Hub} {f : Nat → Subscription → Subscription}
    (handed : ∀ k, h'.handed[k]? = (h.handed[k]?).map (f k))
    (same : ∀ k sub, ((f k sub).id, (f k sub).done) = (sub.id, sub.done)) : h'.badge = h.badge := by
  funext k
  rw [badge, handed, Option.map_map, badge]
  exact congrArg (Option.map · _) (funext (same k))

theorem badge_publish (h : Hub) (now : Time) (e : Event) : (h.publish now e).badge = h.badge := by
  refine badge_eq (h.handed_publish now e) fun k sub => ?_
  split <;> rfl

theorem badge_receive (h : Hub) (j : Nat) : (h.receive j).1.badge = h.badge := by
  refine badge_eq (h.handed_receive j) fun k sub => ?_
  dsimp only
  split <;> rfl

theorem badge_takeDropped (h : Hub) (j : Nat) : (h.takeDropped j).1.badge = h.badge := by
  refine badge_eq (h.handed_takeDropped j) fun k sub => ?_
  dsimp only
  split <;> rfl

theorem badge_subscribe (h : Hub) (bufSize : Int) (k : Nat) :
    (h.subscribe bufSize).1.badge k =
      if k = h.handed.length then some (h.next + 1, false) else h.badge k := by
  rw [badge, handed_subscribe]
  split <;> rfl

theorem badge_unsubscribe (h : Hub) (j k : Nat) :
    (h.unsubscribe j).badge k = (h.badge k).map fun b => (b.1, b.2 || decide (j = k)) := by
  rw [badge, handed_unsubscribe, badge, Option.map_map, Option.map_map]
  congr 1
  funext sub
  simp only [Function.comp_apply]
  split
  · rename_i hjk
    simp [hjk]
  · rename_i hjk
    simp [hjk]

theorem badge_length (h : Hub) : h.badge h.handed.length = none := by
  rw [badge, List.getElem?_eq_none (Nat.le_refl _)]
  rfl

theorem subscribed_iff (h : Hub) (k : Nat) :
    h.subscribed k = true ↔ ∃ id, h.badge k = some (id, false) := by
  rw [subscribed, badge]
  cases h.handed[k]? with
  | none => simp
  | some sub => simp

theorem receive_fst (h : Hub) (j : Nat) :
    (h.receive j).1 = { h with handed := (h.receive j).1.handed } := by
  unfold receive
  split <;> rfl

theorem linked_new : new.Linked := by
  intro id k
  simp [new, badge]

theorem linked_subscribe {h : Hub} (linked : h.Linked) {bufSize : Int}
    (unshared : h.subs.get (h.next + 1) = none) : (h.subscribe bufSize).1.Linked := by
  intro id k
  rw [badge_subscribe, subscribe, Go.Map.get_set]
  by_cases hid : id = h.next + 1
  · rw [if_pos hid, hid]
    by_cases hk : k = h.handed.length
    · rw [if_pos hk, hk]
      exact iff_of_true rfl rfl
    · rw [if_neg hk, ← linked, unshared]
      exact iff_of_false (fun h => hk (Option.some.inj h).symm) (Option.some_ne_none _).symm
  · rw [if_neg hid, linked]
    by_cases hk : k = h.handed.length
    · rw [if_pos hk, hk, badge_length]
      exact iff_of_false (Option.some_ne_none _).symm
        fun h => hid (Prod.mk.inj (Option.some.inj h)).1.symm
    · rw [if_neg hk]

theorem subs_unsubscribe (h : Hub) (j : Nat) (id : UInt64) :
    (h.unsubscribe j).subs.get id =
      if h.badge j = some (id, false) then none else h.subs.get id := by
  unfold unsubscribe badge
  cases h.handed[j]? with
  | none => rfl
  | some sub =>
      cases hdone : sub.done with
      | true => simp [hdone]
      | false => simp [hdone, Go.Map.get_delete, eq_comm]

theorem counters_unsubscribe (h : Hub) (j : Nat) :
    (h.unsubscribe j).next = h.next ∧ (h.unsubscribe j).seq = h.seq := by
  unfold unsubscribe
  split
  · exact ⟨rfl, rfl⟩
  · split <;> exact ⟨rfl, rfl⟩

theorem linked_unsubscribe {h : Hub} (linked : h.Linked) (j : Nat) : (h.unsubscribe j).Linked := by
  intro id k
  rw [subs_unsubscribe, badge_unsubscribe]
  by_cases hjk : j = k
  · -- The subscription itself is done, and the map has lost the pointer to it.
    subst hjk
    refine iff_of_false ?_ ?_
    · split
      · exact (Option.some_ne_none _).symm
      · rename_i hne
        exact fun hget => hne ((linked id j).mp hget)
    · cases h.badge j <;> simp
  · have hsame : ((h.badge k).map fun b => (b.1, b.2 || decide (j = k))) = h.badge k := by
      cases h.badge k <;> simp [hjk]
    rw [hsame, ← linked id k]
    split
    · rename_i hj
      refine iff_of_false (Option.some_ne_none _).symm fun hget => hjk ?_
      exact Option.some.inj (((linked id j).mpr hj).symm.trans hget)
    · rfl

theorem linked_step {h : Hub} (linked : h.Linked) {a : BusStep} (unshared : h.Unshared a) :
    (h.step a).Linked := by
  cases a with
  | publish now e =>
      intro id k
      rw [step, badge_publish]
      exact linked id k
  | subscribe bufSize => exact linked_subscribe linked unshared
  | unsubscribe j => exact linked_unsubscribe linked j
  | receive j =>
      intro id k
      rw [step, badge_receive, receive_fst]
      exact linked id k
  | takeDropped j =>
      intro id k
      rw [step, badge_takeDropped]
      exact linked id k

/-- What the map points to is registered under its own id and not done. -/
def Registered (h : Hub) : Prop := ∀ id k, h.subs.get id = some k → h.badge k = some (id, false)

theorem Linked.registered {h : Hub} (linked : h.Linked) : h.Registered := fun id k =>
  (linked id k).mp

theorem registered_step {h : Hub} (registered : h.Registered) (a : BusStep) :
    (h.step a).Registered := by
  intro id k hk
  cases a with
  | publish now e =>
      rw [step, badge_publish]
      exact registered id k hk
  | subscribe bufSize =>
      rw [step, badge_subscribe]
      simp only [step, subscribe, Go.Map.get_set] at hk
      split at hk
      · rename_i hid
        rw [if_pos (Option.some.inj hk).symm, hid]
      · have hbadge := registered id k hk
        rw [if_neg, hbadge]
        rintro rfl
        rw [badge_length] at hbadge
        cases hbadge
  | unsubscribe j =>
      rw [step, subs_unsubscribe] at hk
      split at hk
      · cases hk
      · rename_i hne
        have hbadge := registered id k hk
        have hjk : j ≠ k := by
          rintro rfl
          exact hne hbadge
        rw [step, badge_unsubscribe, hbadge, Option.map_some, decide_eq_false hjk]
        rfl
  | receive j =>
      rw [step, receive_fst] at hk
      rw [step, badge_receive]
      exact registered id k hk
  | takeDropped j =>
      rw [step, badge_takeDropped]
      exact registered id k hk

theorem registered_run (steps : List BusStep) : (Runs.run step new steps).Registered := by
  induction steps using List.reverseRecOn with
  | nil => exact linked_new.registered
  | append_singleton steps a ih =>
      rw [Runs.run_append]
      exact registered_step ih a

theorem mem_values_iff {h : Hub} (linked : h.Linked) (k : Nat) :
    k ∈ h.subs.values ↔ h.subscribed k = true := by
  rw [Go.Map.mem_values_iff, subscribed_iff]
  exact exists_congr fun id => linked id k

theorem inner_eq {h h' : Hub} {k : Nat} {f : Subscription → Subscription}
    {g : Subscriber → Subscriber} (handed : h'.handed[k]? = (h.handed[k]?).map f)
    (law : ∀ sub, (f sub).inner = g sub.inner) : h'.inner k = (h.inner k).map g := by
  rw [inner, handed, inner, Option.map_map, Option.map_map]
  exact congrArg (Option.map · _) (funext law)

theorem inner_publish (h : Hub) (now : Time) (e : Event) (k : Nat) :
    (h.publish now e).inner k =
      (h.inner k).map fun sub =>
        if k ∈ h.subs.values then sub.offer (h.stamped now e) else sub := by
  refine inner_eq (h.handed_publish now e k) fun sub => ?_
  split <;> rfl

theorem inner_subscribe (h : Hub) (bufSize : Int) (k : Nat) :
    (h.subscribe bufSize).1.inner k =
      if k = h.handed.length then some ⟨if bufSize ≤ 0 then 16 else bufSize.toNat, [], false⟩
      else h.inner k := by
  rw [inner, handed_subscribe]
  split <;> rfl

theorem inner_unsubscribe (h : Hub) (j k : Nat) : (h.unsubscribe j).inner k = h.inner k := by
  have hmap : (h.unsubscribe j).inner k = (h.inner k).map id := by
    refine inner_eq (h.handed_unsubscribe j k) fun sub => ?_
    split <;> rfl
  rw [hmap, Option.map_id_apply]

theorem inner_receive (h : Hub) (j k : Nat) :
    (h.receive j).1.inner k =
      (h.inner k).map fun sub => if j = k then { sub with ch := sub.ch.tail } else sub := by
  refine inner_eq (h.handed_receive j k) fun sub => ?_
  split <;> rfl

theorem inner_takeDropped (h : Hub) (j k : Nat) :
    (h.takeDropped j).1.inner k =
      (h.inner k).map fun sub => if j = k then { sub with dropped := false } else sub := by
  refine inner_eq (h.handed_takeDropped j k) fun sub => ?_
  split <;> rfl

theorem flag_eq (h : Hub) (k : Nat) :
    (h.takeDropped k).2 = (h.inner k).any Subscriber.dropped := by
  rw [takeDropped, inner]
  cases h.handed[k]? <;> rfl

theorem receipt_eq (h : Hub) (k : Nat) : (h.receive k).2 = (h.channel k).head? := by
  rw [receive, channel, inner]
  cases h.handed[k]? with
  | none => rfl
  | some sub => cases hch : sub.inner.ch <;> simp [hch]

theorem subscribed_inner {h : Hub} {k : Nat} (subscribed : h.subscribed k = true) :
    ∃ sub, h.inner k = some sub := by
  rw [Hub.subscribed] at subscribed
  cases hk : h.handed[k]? with
  | none =>
      rw [hk] at subscribed
      cases subscribed
  | some sub => exact ⟨sub.inner, by rw [inner, hk]; rfl⟩

/-! The bus as its map shows it. -/

def bus (h : Hub) : Bus where
  subs := h.subs.mapValues fun _ k => (h.inner k).getD ⟨0, [], false⟩
  next := h.next
  seq := h.seq

theorem Registered.inner {h : Hub} (registered : h.Registered) {id : UInt64} {k : Nat}
    (hk : h.subs.get id = some k) : ∃ sub, h.inner k = some sub := by
  have hbadge := registered id k hk
  unfold badge at hbadge
  obtain ⟨sub, hsub, -⟩ := Option.map_eq_some_iff.mp hbadge
  exact ⟨sub.inner, by rw [Hub.inner, hsub]; rfl⟩

/-- Only one id leads to a subscription. -/
theorem Registered.id_eq {h : Hub} (registered : h.Registered) {i j : UInt64} {k : Nat}
    (hi : h.subs.get i = some k) (hj : h.subs.get j = some k) : i = j :=
  (Prod.mk.inj (Option.some.inj ((registered i k hi).symm.trans (registered j k hj)))).1

theorem bus_publish {h : Hub} (registered : h.Registered) (now : Time) (e : Event) :
    (h.publish now e).bus = h.bus.publish now e := by
  have hsubs : (h.publish now e).bus.subs = (h.bus.publish now e).subs := by
    apply Go.Map.ext
    intro id
    simp only [bus, Bus.publish, Go.Map.get_mapValues, Option.map_map]
    cases hk : h.subs.get id with
    | none => simp only [publish, hk, Option.map_none]
    | some k =>
        obtain ⟨sub, hsub⟩ := registered.inner hk
        have hmem : k ∈ h.subs.values := (Go.Map.mem_values_iff _ _).mpr ⟨id, hk⟩
        have hinner := inner_publish h now e k
        rw [hsub, Option.map_some, if_pos hmem] at hinner
        change Option.map _ (h.subs.get id) = _
        rw [hk, Option.map_some, hinner, Option.map_some, Function.comp_apply, hsub]
        rfl
  exact congrArg (Bus.mk · h.next (h.seq + 1)) hsubs

theorem bus_subscribe {h : Hub} (registered : h.Registered) (bufSize : Int) :
    (h.subscribe bufSize).1.bus = (h.bus.subscribe bufSize).1 := by
  have hsubs : (h.subscribe bufSize).1.bus.subs = (h.bus.subscribe bufSize).1.subs := by
    apply Go.Map.ext
    intro id
    simp only [bus, Bus.subscribe, Go.Map.get_mapValues, Go.Map.get_set, inner_subscribe]
    simp only [subscribe, Go.Map.get_set]
    by_cases hid : id = h.next + 1
    · rw [if_pos hid, if_pos hid, Option.map_some, if_pos rfl]
      rfl
    · rw [if_neg hid, if_neg hid]
      refine Option.map_congr fun k hk => ?_
      have hne : k ≠ h.handed.length := by
        rintro rfl
        have hbadge := registered id _ hk
        rw [badge_length] at hbadge
        cases hbadge
      rw [if_neg hne]
  exact congrArg (Bus.mk · (h.next + 1) h.seq) hsubs

theorem bus_unsubscribe {h : Hub} {id : UInt64} {k : Nat} (hk : h.badge k = some (id, false)) :
    (h.unsubscribe k).bus = h.bus.unsubscribe id := by
  obtain ⟨hnext, hseq⟩ := h.counters_unsubscribe k
  have hsubs : (h.unsubscribe k).bus.subs = (h.bus.unsubscribe id).subs := by
    apply Go.Map.ext
    intro i
    simp only [bus, Bus.unsubscribe, Go.Map.get_mapValues, Go.Map.get_delete, inner_unsubscribe,
      subs_unsubscribe, hk, Option.some.injEq, Prod.mk.injEq, and_true, eq_comm]
    split <;> rfl
  rw [bus, hnext, hseq]
  exact congrArg (Bus.mk · h.next h.seq) hsubs

/-- One subscription is changed, and the change is seen under its id. -/
theorem bus_set {h h' : Hub} (registered : h.Registered) {id : UInt64} {k : Nat}
    (hk : h.subs.get id = some k) {g : Subscriber → Subscriber}
    (same : h' = { h with handed := h'.handed })
    (inner : ∀ j, h'.inner j = (h.inner j).map fun sub => if k = j then g sub else sub)
    {sub : Subscriber} (hsub : h.inner k = some sub) :
    h'.bus = { h.bus with subs := h.bus.subs.set id (g sub) } := by
  have hsubs : h'.bus.subs = h.bus.subs.set id (g sub) := by
    apply Go.Map.ext
    intro i
    rw [same] at inner ⊢
    simp only [bus, Go.Map.get_mapValues, Go.Map.get_set, inner]
    by_cases hi : i = id
    · rw [if_pos hi, hi, hk, Option.map_some, hsub, Option.map_some, if_pos rfl]
      rfl
    · rw [if_neg hi]
      refine Option.map_congr fun j hj => ?_
      have hne : k ≠ j := by
        rintro rfl
        exact hi (registered.id_eq hj hk)
      cases h.inner j <;> simp [hne]
  rw [← hsubs, same]
  rfl

theorem get_bus {h : Hub} {id : UInt64} {k : Nat} (hk : h.subs.get id = some k) {sub : Subscriber}
    (hsub : h.inner k = some sub) : h.bus.subs.get id = some sub := by
  rw [bus, Go.Map.get_mapValues, hk, Option.map_some, hsub]
  rfl

theorem bus_receive {h : Hub} (registered : h.Registered) {id : UInt64} {k : Nat}
    (hk : h.subs.get id = some k) :
    h.bus.receive id = (h.receive k).2.map fun e => (e, (h.receive k).1.bus) := by
  obtain ⟨sub, hsub⟩ := registered.inner hk
  have hset := bus_set registered hk (h.receive_fst k) (h.inner_receive k) hsub
  have hanswer : (h.receive k).2 = sub.ch.head? := by
    rw [receipt_eq, channel, hsub]
    rfl
  obtain ⟨cap, ch, flag⟩ := sub
  rw [Bus.receive, get_bus hk hsub, hanswer, hset]
  cases ch <;> rfl

theorem bus_takeDropped {h : Hub} (registered : h.Registered) {id : UInt64} {k : Nat}
    (hk : h.subs.get id = some k) :
    h.bus.takeDropped id = ((h.takeDropped k).2, (h.takeDropped k).1.bus) := by
  obtain ⟨sub, hsub⟩ := registered.inner hk
  rw [bus_set registered hk rfl (h.inner_takeDropped k) hsub, Bus.takeDropped, get_bus hk hsub,
    flag_eq, hsub]
  rfl

/-- Whatever is done with a registered subscription, the bus does under its id. -/
theorem hub_is_bus {h : Hub} (registered : h.Registered) :
    (∀ now e, (h.publish now e).bus = h.bus.publish now e) ∧
      (∀ bufSize, (h.subscribe bufSize).1.bus = (h.bus.subscribe bufSize).1) ∧
      ∀ id k, h.subs.get id = some k →
        (h.unsubscribe k).bus = h.bus.unsubscribe id ∧
          h.bus.receive id = (h.receive k).2.map (fun e => (e, (h.receive k).1.bus)) ∧
          h.bus.takeDropped id = ((h.takeDropped k).2, (h.takeDropped k).1.bus) :=
  ⟨bus_publish registered, bus_subscribe registered, fun id k hk =>
    ⟨bus_unsubscribe (registered id k hk), bus_receive registered hk,
      bus_takeDropped registered hk⟩⟩

end Hub

end Clusdr.EventBus
