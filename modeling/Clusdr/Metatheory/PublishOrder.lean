import Clusdr.Metatheory.WatchStream

/-!
How events reach a subscriber. A publisher numbers its event and then offers it,
and publishers run side by side with each other, with subscriptions and with the
loops of `Watch` streams. A subscriber is handed what its channel took in, in that
order, and a stream passes on a part of what it was handed.
-/

namespace Clusdr

open Go (Time)
open Events (Event)
open EventBus (Bus Subscriber)
open Clusdr.Membership (Member)

/-- The bus, the events that have a number and are not offered yet, what each
subscription has been handed so far, and the streams of those `Watch` made. -/
structure Publishing where
  bus : Bus
  numbered : List Event
  received : UInt64 → List Event
  streams : UInt64 → Option WatchStream

inductive PublishStep where
  | number (now : Time) (e : Event)
  /-- The publisher of the `i`-th event that waits for it offers it. -/
  | offer (i : Nat)
  | subscribe (bufSize : Int)
  | watch (req : WatchRequest)
  | mark (id : UInt64)
  | greet (id : UInt64) (now : Time) (members : List Member) (leaderID : String)
  | receive (id : UInt64)
  | forward (id : UInt64) (now : Time)
  | unsubscribe (id : UInt64)

namespace Publishing

def start : Publishing := ⟨.new, [], fun _ => [], fun _ => none⟩

/-- A subscription begins. -/
def begin (w : Publishing) (b : Bus) (id : UInt64) (stream : Option WatchStream) : Publishing where
  bus := b
  numbered := w.numbered
  received := Function.update w.received id []
  streams := Function.update w.streams id stream

def setStream (w : Publishing) (id : UInt64) (f : WatchStream → WatchStream) : Publishing :=
  { w with streams := Function.update w.streams id ((w.streams id).map f) }

def step (w : Publishing) : PublishStep → Publishing
  | .number now e =>
      { w with
        bus := (w.bus.number now e).1
        numbered := w.numbered ++ [(w.bus.number now e).2] }
  | .offer i =>
      match w.numbered[i]? with
      | none => w
      | some e => { w with bus := w.bus.offer e, numbered := w.numbered.eraseIdx i }
  | .subscribe bufSize => w.begin (w.bus.subscribe bufSize).1 (w.bus.subscribe bufSize).2 none
  | .watch req =>
      let (b, stream) := WatchStream.subscribe w.bus 64 req
      w.begin b stream.sub (some stream)
  | .mark id => w.setStream id fun s => s.mark w.bus
  | .greet id now members leaderID => w.setStream id fun s => s.greet now members leaderID
  | .receive id =>
      match w.bus.receive id with
      | none => w
      | some (e, b) =>
          { w.setStream id fun s => (s.receive w.bus).1 with
            bus := b
            received := Function.update w.received id (w.received id ++ [e]) }
  | .forward id now =>
      match w.streams id with
      | none => w
      | some s =>
          { w.setStream id fun s => (s.forward w.bus now).1 with
            bus := (s.forward w.bus now).2 }
  | .unsubscribe id => { w with bus := w.bus.unsubscribe id }

/-- The loop of a stream takes one event at a time. -/
def May (w : Publishing) : PublishStep → Prop
  | .number _ _ | .subscribe _ | .watch _ | .unsubscribe _ => True
  | .offer i => i < w.numbered.length
  | .mark id => ∃ s ∈ w.streams id, s.phase = .subscribed
  | .greet id _ _ _ => ∃ s ∈ w.streams id, s.phase = .marked
  | .receive id =>
      (w.bus.receive id).isSome ∧
        ∀ s ∈ w.streams id, s.phase = .looping ∧ s.received.isNone
  | .forward id _ => ∃ s ∈ w.streams id, s.received.isSome

/-- What waits in the channel of a subscription. -/
def waiting (w : Publishing) (id : UInt64) : List Event :=
  ((w.bus.subs.get id).map Subscriber.ch).getD []

def seqs (es : List Event) : List UInt64 := es.map Event.seq

def liveOf : WatchMessage → Option Event
  | .live e => some e
  | _ => none

/-- The events a stream has passed on. -/
def live (s : WatchStream) : List Event := s.sent.filterMap liveOf

/-- What the channel of a subscription took in: what was handed out and what waits. -/
def intake (w : Publishing) (id : UInt64) : List Event := w.received id ++ w.waiting id

/-- What the subscription received is in the order of the numbers, and so is what its
stream passed on. -/
def InSequence (id : UInt64) (w : Publishing) : Prop :=
  (seqs (w.received id)).Pairwise (· < ·) ∧
    ∀ s ∈ w.streams id, (seqs (live s)).Pairwise (· < ·)

/-- A stream passes on, in their order, events it was handed. -/
def Faithful (w : Publishing) : Prop :=
  ∀ id s, w.streams id = some s →
    s.sub = id ∧ (live s ++ s.received.toList).Sublist (w.received id)

theorem waiting_forward (s : WatchStream) (b : Bus) (now : Time) (id : UInt64) :
    ((s.forward b now).2.subs.get id).map Subscriber.ch = (b.subs.get id).map Subscriber.ch := by
  cases hreceived : s.received with
  | none => simp only [WatchStream.forward, hreceived]
  | some e =>
      simp only [WatchStream.forward, hreceived, Bus.takeDropped]
      cases hsub : b.subs.get s.sub with
      | none => rfl
      | some sub =>
          by_cases hid : id = s.sub
          · subst hid
            simp [hsub]
          · simp [Go.Map.get_set, hid]

theorem intake_begin (w : Publishing) (bufSize : Int) (stream : Option WatchStream)
    (id : UInt64) :
    ((w.begin (w.bus.subscribe bufSize).1 (w.bus.subscribe bufSize).2 stream).intake id).Sublist
      (w.intake id) := by
  by_cases hid : id = (w.bus.subscribe bufSize).2
  · have hnil : (w.begin (w.bus.subscribe bufSize).1 (w.bus.subscribe bufSize).2 stream).intake id
        = [] := by
      subst hid
      simp [begin, intake, waiting, Bus.subscribe]
    rw [hnil]
    exact List.nil_sublist _
  · have hsame : (w.begin (w.bus.subscribe bufSize).1 (w.bus.subscribe bufSize).2 stream).intake id
        = w.intake id := by
      have hne : id ≠ w.bus.next + 1 := hid
      simp [begin, intake, waiting, Bus.subscribe, Go.Map.get_set, hne]
    rw [hsame]

theorem intake_receive (w : Publishing) (id' id : UInt64) :
    (w.step (.receive id')).intake id = w.intake id := by
  simp only [step]
  cases hreceive : w.bus.receive id' with
  | none => rfl
  | some next =>
      obtain ⟨e, b⟩ := next
      obtain ⟨cap, ch, dropped, hsub, rfl⟩ := Bus.receive_eq_some hreceive
      by_cases hid : id = id'
      · subst hid
        simp [intake, waiting, hsub]
      · simp [intake, waiting, hid, Go.Map.get_set]

/-- A step takes one event more into a channel, or nothing. -/
theorem intake_step (w : Publishing) (ev : PublishStep) (id : UInt64) :
    (∃ i e, ev = .offer i ∧ w.numbered[i]? = some e ∧
        (w.step ev).intake id = w.intake id ++ [e]) ∨
      ((w.step ev).intake id).Sublist (w.intake id) := by
  cases ev with
  | number | mark | greet => exact Or.inr (List.Sublist.refl _)
  | offer i =>
      simp only [step]
      cases hnumbered : w.numbered[i]? with
      | none => exact Or.inr (List.Sublist.refl _)
      | some e =>
          have hget : (w.bus.offer e).subs.get id = (w.bus.subs.get id).map (·.offer e) :=
            Go.Map.get_mapValues _ _ _
          cases hsub : w.bus.subs.get id with
          | none =>
              right
              rw [hsub] at hget
              simp [intake, waiting, hget, hsub]
          | some sub =>
              rw [hsub] at hget
              by_cases hroom : sub.ch.length < sub.cap
              · refine Or.inl ⟨i, e, rfl, hnumbered, ?_⟩
                simp [intake, waiting, hget, hsub, Subscriber.offer, hroom]
              · right
                simp [intake, waiting, hget, hsub, Subscriber.offer, hroom]
  | subscribe bufSize => exact Or.inr (w.intake_begin bufSize none id)
  | watch req => exact Or.inr (w.intake_begin 64 _ id)
  | receive id' => exact Or.inr ((w.intake_receive id' id) ▸ List.Sublist.refl _)
  | forward id' now =>
      right
      simp only [step]
      cases hstream : w.streams id' with
      | none => exact List.Sublist.refl _
      | some s => simp [intake, waiting, setStream, waiting_forward]
  | unsubscribe id' =>
      right
      by_cases hid : id = id'
      · subst hid
        simp [step, intake, waiting, Bus.unsubscribe]
      · simp [step, intake, waiting, Bus.unsubscribe, Go.Map.get_delete, hid]

theorem liveOf_gapBefore (lastLive : UInt64) (now : Time) (e : Event) :
    (WatchStream.gapBefore lastLive now e).filterMap liveOf = [] := by
  rw [List.filterMap_eq_nil_iff]
  intro m hm
  rw [List.mem_singleton.mp (List.mem_ite_nil_right.mp hm).2]
  rfl

/-- Passing the event in hand on. -/
theorem live_forward (s : WatchStream) (b : Bus) (now : Time) :
    live (s.forward b now).1 ++ (s.forward b now).1.received.toList =
      live s ++ s.received.toList := by
  cases hreceived : s.received with
  | none => simp only [WatchStream.forward, hreceived]
  | some e =>
      simp only [WatchStream.forward, hreceived, live, List.filterMap_append]
      split <;> simp [liveOf_gapBefore, liveOf]

/-- Receiving hands the stream the event or nothing. -/
theorem live_receive {s : WatchStream} {b b' : Bus} {e : Event} {received : List Event}
    (h : b.receive s.sub = some (e, b'))
    (faithful : (live s ++ s.received.toList).Sublist received) :
    (live (s.receive b).1 ++ (s.receive b).1.received.toList).Sublist (received ++ [e]) := by
  simp only [WatchStream.receive, h]
  split
  · have hlive : (live s).Sublist received := (List.sublist_append_left _ _).trans faithful
    exact hlive.append (List.Sublist.refl [e])
  · exact faithful.trans (List.sublist_append_left _ _)

theorem live_greet (s : WatchStream) (now : Time) (members : List Member) (leaderID : String) :
    live (s.greet now members leaderID) = live s := by
  have hgreeting : (WatchStream.greeting s.req s.fromSeq now members leaderID).filterMap liveOf
      = [] := by
    rw [List.filterMap_eq_nil_iff]
    intro m hm
    cases m with
    | live e => exact absurd rfl ((Watching.mem_greeting hm).1 e)
    | state | sync | gap => rfl
  simp only [live, WatchStream.greet, List.filterMap_append, hgreeting, List.append_nil]

theorem faithful_setStream {w : Publishing} (h : w.Faithful) (id : UInt64)
    {f : WatchStream → WatchStream} (sub : ∀ s, (f s).sub = s.sub)
    (same : ∀ s, live (f s) ++ (f s).received.toList = live s ++ s.received.toList) :
    (w.setStream id f).Faithful := by
  intro id' s hs
  simp only [setStream] at hs
  by_cases hid : id' = id
  · subst hid
    rw [Function.update_self] at hs
    obtain ⟨s', hs', rfl⟩ := Option.map_eq_some_iff.mp hs
    rw [sub, same]
    exact h id' s' hs'
  · rw [Function.update_of_ne hid] at hs
    exact h id' s hs

theorem faithful_begin {w : Publishing} (h : w.Faithful) (b : Bus) (id : UInt64)
    {stream : Option WatchStream}
    (new : ∀ s, stream = some s → s.sub = id ∧ live s ++ s.received.toList = []) :
    (w.begin b id stream).Faithful := by
  intro id' s hs
  simp only [begin] at hs ⊢
  by_cases hid : id' = id
  · subst hid
    rw [Function.update_self] at hs ⊢
    obtain ⟨hsub, hnil⟩ := new s hs
    rw [hnil]
    exact ⟨hsub, List.Sublist.refl _⟩
  · rw [Function.update_of_ne hid] at hs ⊢
    exact h id' s hs

theorem faithful_receive {w : Publishing} (h : w.Faithful) (id : UInt64) :
    (w.step (.receive id)).Faithful := by
  simp only [step]
  cases hreceive : w.bus.receive id with
  | none => exact h
  | some next =>
      intro id' s hs
      simp only [setStream] at hs ⊢
      by_cases hid : id' = id
      · subst hid
        rw [Function.update_self] at hs ⊢
        obtain ⟨s', hs', rfl⟩ := Option.map_eq_some_iff.mp hs
        obtain ⟨hsub, hlive⟩ := h id' s' hs'
        rw [← hsub] at hreceive
        refine ⟨?_, live_receive hreceive hlive⟩
        simp only [WatchStream.receive, hreceive]
        split <;> exact hsub
      · rw [Function.update_of_ne hid] at hs ⊢
        exact h id' s hs

theorem faithful_step {w : Publishing} (h : w.Faithful) (ev : PublishStep) :
    (w.step ev).Faithful := by
  cases ev with
  | number | unsubscribe => exact h
  | offer i =>
      simp only [step]
      split <;> exact h
  | subscribe bufSize => exact faithful_begin h _ _ nofun
  | watch req =>
      refine faithful_begin h _ _ ?_
      rintro s ⟨⟩
      exact ⟨rfl, rfl⟩
  | mark id => exact faithful_setStream h id (fun _ => rfl) fun _ => rfl
  | greet id now members leaderID =>
      refine faithful_setStream h id (fun _ => rfl) fun s => ?_
      rw [live_greet]
      rfl
  | receive id => exact faithful_receive h id
  | forward id now =>
      simp only [step]
      cases hstream : w.streams id with
      | none => exact h
      | some s =>
          refine faithful_setStream h id (fun s => ?_) fun s => live_forward s w.bus now
          unfold WatchStream.forward
          split <;> rfl

theorem faithful_start : start.Faithful := nofun

/-- A subscriber whose channel took in the events in their order sees them in it. -/
theorem inSequence_of_intake {w : Publishing} (h : w.Faithful) {id : UInt64}
    (ascending : (seqs (w.intake id)).Pairwise (· < ·)) : w.InSequence id := by
  have hreceived : (seqs (w.received id)).Pairwise (· < ·) :=
    ascending.sublist ((List.sublist_append_left _ _).map Event.seq)
  refine ⟨hreceived, fun s hs => ?_⟩
  have hlive := (List.sublist_append_left _ _).trans (h id s hs).2
  exact hreceived.sublist (hlive.map Event.seq)

end Publishing

end Clusdr
