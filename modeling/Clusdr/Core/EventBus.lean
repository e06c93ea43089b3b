import Clusdr.Core.Events
import Clusdr.Go.Counter
import Clusdr.Go.Map

/-!
The event bus. Each subscriber has a bounded channel; publishing numbers the
event and offers it to all of them, and a subscriber whose channel is full
misses it and has its flag set. Publishing has two halves, and between them
another publisher can run.
-/

namespace Clusdr.EventBus

open Go (Time)
open Events (Event)

/-- A subscription as the bus keeps it: the channel, oldest event first, its
capacity, and the flag. -/
structure Subscriber where
  cap : Nat
  ch : List Event
  dropped : Bool

def Subscriber.offer (sub : Subscriber) (e : Event) : Subscriber :=
  if sub.ch.length < sub.cap then { sub with ch := sub.ch ++ [e] }
  else { sub with dropped := true }

structure Bus where
  subs : Go.Map UInt64 Subscriber
  next : UInt64
  seq : UInt64

namespace Bus

def new : Bus := ⟨∅, 0, 0⟩

def lastSeq (b : Bus) : UInt64 := b.seq

/-- The event as `Publish` sends it. -/
def stamped (b : Bus) (now : Time) (e : Event) : Event :=
  { e with timestamp := if e.timestamp.isZero then now else e.timestamp, seq := b.seq + 1 }

def publish (b : Bus) (now : Time) (e : Event) : Bus :=
  { b with
    seq := b.seq + 1
    subs := b.subs.mapValues fun _ sub => sub.offer (b.stamped now e) }

/-- The first half of `Publish`: the event gets its time and number. -/
def number (b : Bus) (now : Time) (e : Event) : Bus × Event :=
  ({ b with seq := b.seq + 1 }, b.stamped now e)

/-- The second half, under the read lock. -/
def offer (b : Bus) (e : Event) : Bus := { b with subs := b.subs.mapValues fun _ sub => sub.offer e }

theorem publish_eq (b : Bus) (now : Time) (e : Event) :
    b.publish now e = (b.number now e).1.offer (b.number now e).2 := rfl

theorem seq_lt_publish {b : Bus} (room : b.seq.toNat + 1 < 2 ^ 64) (now : Time) (e : Event) :
    b.seq < (b.publish now e).seq :=
  Go.Counter.lt_succ room

theorem seq_publish_le (b : Bus) (now : Time) (e : Event) :
    (b.publish now e).seq.toNat ≤ b.seq.toNat + 1 :=
  Go.Counter.toNat_succ_le b.seq

/-- `Subscribe`, with the id it hands out. -/
def subscribe (b : Bus) (bufSize : Int) : Bus × UInt64 :=
  let id := b.next + 1
  let cap := if bufSize ≤ 0 then 16 else bufSize.toNat
  ({ b with next := id, subs := b.subs.set id ⟨cap, [], false⟩ }, id)

/-- A receive from the channel of a subscription; `none` while it is empty. -/
def receive (b : Bus) (id : UInt64) : Option (Event × Bus) :=
  match b.subs.get id with
  | some ⟨cap, e :: ch, dropped⟩ => some (e, { b with subs := b.subs.set id ⟨cap, ch, dropped⟩ })
  | _ => none

theorem receive_eq_some {b b' : Bus} {id : UInt64} {e : Event} (h : b.receive id = some (e, b')) :
    ∃ cap ch dropped, b.subs.get id = some ⟨cap, e :: ch, dropped⟩ ∧
      b' = { b with subs := b.subs.set id ⟨cap, ch, dropped⟩ } := by
  unfold receive at h
  split at h
  · rename_i cap e' ch dropped hsub
    cases h
    exact ⟨cap, ch, dropped, hsub, rfl⟩
  · cases h

/-- `TakeDropped`. -/
def takeDropped (b : Bus) (id : UInt64) : Bool × Bus :=
  match b.subs.get id with
  | some sub => (sub.dropped, { b with subs := b.subs.set id { sub with dropped := false } })
  | none => (false, b)

def unsubscribe (b : Bus) (id : UInt64) : Bus := { b with subs := b.subs.delete id }

end Bus

end Clusdr.EventBus
