import Clusdr.Metatheory.SnapshotView

/-!
A watcher next to the goroutines of a daemon. The goroutine of the state machine
and the one that observes the leader change the engine and publish what they
changed later, each in its own order; the stream reads the members and the leader
at two moments in between.
-/

namespace Clusdr

open Go (Time Unicode)
open Events (Event Payload)
open EventBus (Bus Subscriber)
open Clusdr.Membership (Member)

/-- The goroutines that publish; each publishes one event after the other. -/
inductive Thread where
  | fsm
  | observer
  | publisher (n : Nat)
deriving DecidableEq

/-- What a goroutine has yet to publish: the event it has numbered, and the rest. -/
structure Emitter where
  numbered : Option Event
  owed : List Event

namespace Emitter

def idle : Emitter := ⟨none, []⟩

def IsIdle (p : Emitter) : Prop := p.numbered.isNone ∧ p.owed.isEmpty

instance (p : Emitter) : Decidable p.IsIdle := inferInstanceAs (Decidable (_ ∧ _))

def pending (p : Emitter) : List Event := p.numbered.toList ++ p.owed

theorem pending_idle {p : Emitter} (h : p.IsIdle) : p.pending = [] := by
  obtain ⟨numbered, owed⟩ := p
  obtain ⟨hnumbered, howed⟩ := h
  cases numbered with
  | none => exact List.isEmpty_iff.mp howed
  | some e => cases hnumbered

end Emitter

/-- A daemon, one `Watch` call on it, and the two reads of its `sendSnapshot`. -/
structure Viewing where
  fsm : Consensus.Fsm
  bus : Bus
  emitters : Thread → Emitter
  stream : Option WatchStream
  members : Option (List Member)
  leaderID : Option String

inductive ViewStep where
  | apply (now : Time) (cmd : Consensus.Command)
  | setLeader (id : String)
  | publish (n : Nat) (topic source : String) (payload : Payload)
  | number (th : Thread) (now : Time)
  | offer (th : Thread)
  | subscribe (lastSeq : UInt64)
  | mark
  | readMembers
  | readLeader
  | greet (now : Time)
  | receive
  | forward (now : Time)

namespace Viewing

def start (fsm : Consensus.Fsm) (bus : Bus) : Viewing :=
  ⟨fsm, bus, fun _ => .idle, none, none, none⟩

/-- The goroutine has changed the state and goes on to publish. -/
def owe (s : Viewing) (th : Thread) (emitted : List Event) : Viewing :=
  { s with emitters := Function.update s.emitters th ⟨none, emitted⟩ }

section
variable [Unicode]

def step (s : Viewing) : ViewStep → Viewing
  | .apply now cmd =>
      let (fsm, _, emitted) := s.fsm.applyCommand now cmd
      { s with fsm }.owe .fsm emitted
  | .setLeader id =>
      let (e, emitted) := s.fsm.applier.setLeader id
      { s with fsm := { s.fsm with applier := e } }.owe .observer emitted
  | .publish n topic source payload =>
      s.owe (.publisher n) [{ type := Events.typeCustomPrefix ++ topic, source, payload }]
  | .number th now =>
      match (s.emitters th).owed with
      | [] => s
      | e :: owed =>
          { s with
            bus := (s.bus.number now e).1
            emitters := Function.update s.emitters th ⟨some (s.bus.number now e).2, owed⟩ }
  | .offer th =>
      match (s.emitters th).numbered with
      | none => s
      | some e =>
          { s with
            bus := s.bus.offer e
            emitters := Function.update s.emitters th ⟨none, (s.emitters th).owed⟩ }
  | .subscribe lastSeq =>
      let (bus, stream) := WatchStream.subscribe s.bus 64 { lastSeq }
      { s with bus, stream := some stream }
  | .mark => { s with stream := s.stream.map fun w => w.mark s.bus }
  | .readMembers => { s with members := some s.fsm.applier.membersList }
  | .readLeader => { s with leaderID := some s.fsm.applier.leaderID }
  | .greet now =>
      { s with
        stream := s.stream.map fun w => w.greet now (s.members.getD []) (s.leaderID.getD "") }
  | .receive =>
      match s.stream with
      | none => s
      | some w => { s with stream := some (w.receive s.bus).1, bus := (w.receive s.bus).2 }
  | .forward now =>
      match s.stream with
      | none => s
      | some w => { s with stream := some (w.forward s.bus now).1, bus := (w.forward s.bus now).2 }

end

def channel (s : Viewing) (w : WatchStream) : List Event :=
  ((s.bus.subs.get w.sub).map Subscriber.ch).getD []

/-- A goroutine publishes all it owes before it goes on; `Watch` runs in its order. -/
def May (s : Viewing) : ViewStep → Prop
  | .apply _ _ => (s.emitters .fsm).IsIdle
  | .setLeader _ => (s.emitters .observer).IsIdle
  | .publish n _ _ _ => (s.emitters (.publisher n)).IsIdle
  | .number th _ => (s.emitters th).numbered.isNone ∧ (s.emitters th).owed.isEmpty = false
  | .offer th => (s.emitters th).numbered.isSome
  | .subscribe _ => s.stream.isNone
  | .mark => ∃ w ∈ s.stream, w.phase = .subscribed
  | .readMembers => (∃ w ∈ s.stream, w.phase = .marked) ∧ s.members.isNone
  | .readLeader => (∃ w ∈ s.stream, w.phase = .marked) ∧ s.members.isSome ∧ s.leaderID.isNone
  | .greet _ => (∃ w ∈ s.stream, w.phase = .marked) ∧ s.members.isSome ∧ s.leaderID.isSome
  | .receive => ∃ w ∈ s.stream, w.phase = .looping ∧ w.received.isNone ∧
      (s.channel w).isEmpty = false
  | .forward _ => ∃ w ∈ s.stream, w.received.isSome

/-- No event is dropped: an offer finds room in the channel of the stream. -/
def Kept (s : Viewing) : ViewStep → Prop
  | .offer _ => ∀ w ∈ s.stream, ∀ sub ∈ s.bus.subs.get w.sub, sub.ch.length < sub.cap
  | _ => True

instance (s : Viewing) (ev : ViewStep) : Decidable (s.May ev) := by
  cases ev <;> unfold May <;> infer_instance

instance (s : Viewing) (ev : ViewStep) : Decidable (s.Kept ev) := by
  cases ev <;> unfold Kept <;> infer_instance

/-- What the client of the stream has folded. -/
def clientView (s : Viewing) : View :=
  .ofMessages ((s.stream.map WatchStream.sent).getD [])

/-- Both goroutines are idle and the stream has passed on all it was offered. -/
def AtRest (s : Viewing) : Prop :=
  (s.emitters .fsm).IsIdle ∧ (s.emitters .observer).IsIdle ∧
    ∃ w ∈ s.stream, w.phase = .looping ∧ w.received.isNone ∧ (s.channel w).isEmpty

instance (s : Viewing) : Decidable s.AtRest := inferInstanceAs (Decidable (_ ∧ _ ∧ _))

end Viewing

end Clusdr
