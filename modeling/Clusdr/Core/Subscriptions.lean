import Clusdr.Core.EventBus
import Mathlib.Data.List.GetD

/-!
The bus with the subscriptions it handed out. The map of the bus has pointers to
them, and their owners keep them: after `Unsubscribe` what is left in the channel
can still be received and the flag still be taken. A subscription is known by its
place among those handed out.
-/

namespace Clusdr.EventBus

open Go (Time)
open Events (Event)

/-- A `Subscription`, with the `subscription` it shares with the bus; `done` is
whether the body of `Unsubscribe` has run. -/
structure Subscription where
  id : UInt64
  inner : Subscriber
  done : Bool

structure Hub where
  subs : Go.Map UInt64 Nat
  handed : List Subscription
  next : UInt64
  seq : UInt64

namespace Hub

def new : Hub := ⟨∅, [], 0, 0⟩

def stamped (h : Hub) (now : Time) (e : Event) : Event :=
  { e with timestamp := if e.timestamp.isZero then now else e.timestamp, seq := h.seq + 1 }

/-- `Publish`: the loop over the map reaches the subscriptions the map points to. -/
def publish (h : Hub) (now : Time) (e : Event) : Hub :=
  { h with
    seq := h.seq + 1
    handed := h.handed.mapIdx fun k sub =>
      if k ∈ h.subs.values then { sub with inner := sub.inner.offer (h.stamped now e) } else sub }

/-- `Subscribe`, with the place of the subscription it returns. -/
def subscribe (h : Hub) (bufSize : Int) : Hub × Nat :=
  let id := h.next + 1
  let cap := if bufSize ≤ 0 then 16 else bufSize.toNat
  ({ h with
      next := id
      handed := h.handed ++ [⟨id, ⟨cap, [], false⟩, false⟩]
      subs := h.subs.set id h.handed.length }, h.handed.length)

def unsubscribe (h : Hub) (k : Nat) : Hub :=
  match h.handed[k]? with
  | none => h
  | some sub =>
      if sub.done then h
      else
        { h with
          subs := h.subs.delete sub.id
          handed := h.handed.modify k fun sub => { sub with done := true } }

/-- A receive from `C`; `none` while the channel is empty. -/
def receive (h : Hub) (k : Nat) : Hub × Option Event :=
  match (h.handed[k]?).bind fun sub => sub.inner.ch.head? with
  | none => (h, none)
  | some e =>
      ({ h with
          handed := h.handed.modify k fun sub =>
            { sub with inner := { sub.inner with ch := sub.inner.ch.tail } } }, some e)

def takeDropped (h : Hub) (k : Nat) : Hub × Bool :=
  ({ h with
      handed := h.handed.modify k fun sub =>
        { sub with inner := { sub.inner with dropped := false } } },
    (h.handed[k]?).any fun sub => sub.inner.dropped)

end Hub

end Clusdr.EventBus
