import Clusdr.Core.Watch
import Clusdr.Feed.Announce
import Clusdr.Runs.Along

/-!
A watch stream is a reader of a numbered feed with losses. While the numbers of
the bus do not wrap, each step of the bus and the stream is a step of the feed:
what the filter accepts waits in the feed, and a gap is a range it tells.
-/

namespace Clusdr

open Go (Time)
open Events (Event)
open EventBus (Bus Subscriber)
open Clusdr.Membership (Member)

/-- The message is a gap that covers the number. -/
def WatchMessage.Covers (s : UInt64) : WatchMessage → Prop
  | .gap lo hi _ => lo ≤ s ∧ s ≤ hi
  | _ => False

def WatchMessage.note : WatchMessage → Feed.Note
  | .gap lo hi _ => .range lo.toNat hi.toNat
  | .live e => .item e.seq.toNat
  | .state _ | .sync _ _ => .other

/-- The bus, one stream on it, and the numbers of the matching events the stream
missed because its channel was full; nothing in the program reads the last. -/
structure Watching where
  bus : Bus
  stream : WatchStream
  missed : List UInt64

inductive WatchStep where
  | publish (now : Time) (e : Event)
  | mark
  | greet (now : Time) (members : List Member) (leaderID : String)
  | receive
  | forward (now : Time)

namespace Watching

def subscriber (w : Watching) : Option Subscriber := w.bus.subs.get w.stream.sub

def full (w : Watching) : Bool :=
  (w.subscriber.map fun sub => decide (sub.cap ≤ sub.ch.length)).getD false

def flag (w : Watching) : Bool := (w.subscriber.map Subscriber.dropped).getD false

def queue (w : Watching) : List Event := (w.subscriber.map Subscriber.ch).getD []

def start (b : Bus) (bufSize : Int) (req : WatchRequest) : Watching :=
  let (b, stream) := WatchStream.subscribe b bufSize req
  ⟨b, stream, []⟩

def step (w : Watching) : WatchStep → Watching
  | .publish now e =>
      { w with
        bus := w.bus.publish now e
        missed := if w.full ∧ w.stream.req.accepts e.type then w.missed ++ [w.bus.seq + 1]
          else w.missed }
  | .mark => { w with stream := w.stream.mark w.bus }
  | .greet now members leaderID => { w with stream := w.stream.greet now members leaderID }
  | .receive => { w with stream := (w.stream.receive w.bus).1, bus := (w.stream.receive w.bus).2 }
  | .forward now =>
      { w with
        stream := (w.stream.forward w.bus now).1
        bus := (w.stream.forward w.bus now).2 }

/-- The order in which `Watch` runs; it receives when there is something to. -/
def May (w : Watching) : WatchStep → Prop
  | .publish _ _ => True
  | .mark => w.stream.phase = .subscribed
  | .greet _ _ _ => w.stream.phase = .marked
  | .receive => w.stream.phase = .looping ∧ w.stream.received = none ∧ w.queue.isEmpty = false
  | .forward _ => w.stream.received.isSome

instance (w : Watching) (ev : WatchStep) : Decidable (w.May ev) := by
  cases ev <;> unfold May <;> infer_instance

/-- The numbers of the matching events among those given. -/
def matching (req : WatchRequest) (es : List Event) : List Nat :=
  (es.filter fun e => req.accepts e.type).map fun e => e.seq.toNat

/-- The stream as a reader of the feed. -/
def feed (w : Watching) : Feed.State where
  now := w.bus.seq.toNat
  waiting := matching w.stream.req (w.stream.received.toList ++ w.queue)
  flag := w.flag
  last := w.stream.lastLive.toNat
  told := w.stream.sent.map WatchMessage.note
  lost := w.missed.map UInt64.toNat

/-- The operations of the feed a step stands for. -/
def ops (w : Watching) : WatchStep → Option Feed.Op
  | .publish _ e =>
      if w.full then some (.lose (w.stream.req.accepts e.type))
      else if w.stream.req.accepts e.type then some .enqueue else some .skip
  | .mark | .receive => none
  | .greet now members leaderID =>
      some (.remark ((WatchStream.greeting w.stream.req w.stream.fromSeq now members
        leaderID).map WatchMessage.note))
  | .forward _ => some .deliver

structure Sound (w : Watching) : Prop where
  subscribed : ∃ sub, w.subscriber = some sub
  accepted : ∀ e, w.stream.received = some e → w.stream.req.accepts e.type = true
  silent : w.stream.phase ≠ .looping → w.stream.received = none ∧ w.stream.sent = []
  gaps : ∀ m ∈ w.stream.sent, ∀ s, m.Covers s → s < w.stream.lastLive ∨
    (0 < w.stream.req.lastSeq ∧ w.stream.req.lastSeq < s ∧ s ≤ w.stream.fromSeq)
  greeted : w.stream.phase = .looping → 0 < w.stream.req.lastSeq →
    w.stream.req.lastSeq < w.stream.fromSeq →
    ∃ now, .gap (w.stream.req.lastSeq + 1) w.stream.fromSeq now ∈ w.stream.sent
  ordered : Feed.Ordered w.feed

theorem subscriber_publish (w : Watching) (now : Time) (e : Event) :
    (w.step (.publish now e)).subscriber =
      w.subscriber.map fun sub => sub.offer (w.bus.stamped now e) :=
  Go.Map.get_mapValues _ _ _

theorem feed_eq {w : Watching} {sub : Subscriber} (hsub : w.subscriber = some sub) :
    w.feed = ⟨w.bus.seq.toNat, matching w.stream.req (w.stream.received.toList ++ sub.ch),
      sub.dropped, w.stream.lastLive.toNat, w.stream.sent.map WatchMessage.note,
      w.missed.map UInt64.toNat⟩ := by
  simp only [feed, queue, flag, hsub, Option.map_some, Option.getD_some]

theorem matching_append (req : WatchRequest) (es es' : List Event) :
    matching req (es ++ es') = matching req es ++ matching req es' := by
  simp only [matching, List.filter_append, List.map_append]

theorem matching_singleton (req : WatchRequest) (e : Event) :
    matching req [e] = if req.accepts e.type then [e.seq.toNat] else [] := by
  cases h : req.accepts e.type <;> simp [matching, h]

theorem feed_publish {w : Watching} (sound : w.Sound) (room : w.bus.seq.toNat + 1 < 2 ^ 64)
    (now : Time) (e : Event) :
    some (w.step (.publish now e)).feed =
      (w.ops (.publish now e)).map (Feed.step w.feed) := by
  obtain ⟨sub, hsub⟩ := sound.subscribed
  have hsub' := w.subscriber_publish now e
  have hnext := Go.Counter.toNat_succ room
  rw [hsub, Option.map_some] at hsub'
  rw [feed_eq hsub, feed_eq hsub', ops]
  have hseq : (w.step (.publish now e)).bus.seq = w.bus.seq + 1 := rfl
  have hstream : (w.step (.publish now e)).stream = w.stream := rfl
  have hmissed : (w.step (.publish now e)).missed = if w.full ∧ w.stream.req.accepts e.type then
      w.missed ++ [w.bus.seq + 1] else w.missed := rfl
  rw [hseq, hstream, hmissed, hnext]
  by_cases hfull : sub.cap ≤ sub.ch.length
  · have hw : w.full = true := by simp [full, hsub, hfull]
    cases haccepts : w.stream.req.accepts e.type <;>
      simp [hw, Feed.step, Subscriber.offer, Nat.not_lt.mpr hfull, hnext]
  · have hw : w.full = false := by simp [full, hsub, hfull]
    cases haccepts : w.stream.req.accepts e.type <;>
      simp [hw, Feed.step, Subscriber.offer, Nat.not_le.mp hfull, ← List.append_assoc,
        matching_append _ _ [_], matching_singleton, Bus.stamped, haccepts, hnext]

theorem feed_greet (w : Watching) (now : Time) (members : List Member) (leaderID : String) :
    some (w.step (.greet now members leaderID)).feed =
      (w.ops (.greet now members leaderID)).map (Feed.step w.feed) := by
  simp only [ops, Option.map_some, Feed.step, feed, step, WatchStream.greet, List.map_append]
  rfl

/-- A receive moves the oldest event out of the channel, to the stream if the
filter accepts it. -/
theorem step_receive {w : Watching} {cap : Nat} {e : Event} {rest : List Event} {dropped : Bool}
    (hsub : w.subscriber = some ⟨cap, e :: rest, dropped⟩) :
    (w.step .receive).stream =
        (if w.stream.req.accepts e.type then { w.stream with received := some e } else w.stream) ∧
      (w.step .receive).subscriber = some ⟨cap, rest, dropped⟩ ∧
      (w.step .receive).bus.seq = w.bus.seq := by
  have hget : w.bus.subs.get w.stream.sub = some ⟨cap, e :: rest, dropped⟩ := hsub
  simp only [step, subscriber, WatchStream.receive, Bus.receive, hget]
  split <;> exact ⟨trivial, Go.Map.get_set_self _ _ _, trivial⟩

theorem feed_receive {w : Watching} (sound : w.Sound) (may : w.May .receive) :
    (w.step .receive).feed = w.feed := by
  obtain ⟨⟨cap, ch, dropped⟩, hsub⟩ := sound.subscribed
  obtain ⟨-, hreceived, hqueue⟩ := may
  cases ch with
  | nil => simp [queue, hsub] at hqueue
  | cons e rest =>
      obtain ⟨hstream, hsub', hseq⟩ := step_receive hsub
      rw [feed_eq hsub, feed_eq hsub', hseq, hreceived]
      have hmissed : (w.step .receive).missed = w.missed := rfl
      have hwaiting : matching w.stream.req (e :: rest) =
          matching w.stream.req [e] ++ matching w.stream.req rest :=
        matching_append w.stream.req [e] rest
      cases haccepts : w.stream.req.accepts e.type with
      | true => simp [hstream, haccepts, hmissed]
      | false =>
          simp [hstream, haccepts, hmissed, hreceived, hwaiting, matching_singleton]

theorem step_forward {w : Watching} {sub : Subscriber} {e : Event}
    (hsub : w.subscriber = some sub) (hreceived : w.stream.received = some e) (now : Time) :
    (w.step (.forward now)).stream =
        { w.stream with
          received := none
          lastLive := e.seq
          sent := w.stream.sent ++
            (if sub.dropped then WatchStream.gapBefore w.stream.lastLive now e else []) ++
            [.live e] } ∧
      (w.step (.forward now)).subscriber = some { sub with dropped := false } ∧
      (w.step (.forward now)).bus.seq = w.bus.seq := by
  have hget : w.bus.subs.get w.stream.sub = some sub := hsub
  simp only [step, subscriber, WatchStream.forward, hreceived, Bus.takeDropped, hget]
  exact ⟨trivial, Go.Map.get_set_self _ _ _, trivial⟩

/-- The gap is the range the feed announces. -/
theorem note_gapBefore {lastLive : UInt64} {e : Event} (h : lastLive < e.seq) (flag : Bool)
    (now : Time) :
    (if flag then WatchStream.gapBefore lastLive now e else []).map WatchMessage.note =
      Feed.announcement flag lastLive.toNat e.seq.toNat := by
  have hlo : (if lastLive > 0 then lastLive + 1 else 1).toNat = lastLive.toNat + 1 := by
    split
    · exact Go.Counter.toNat_succ (Go.Counter.room_of_lt h)
    · rename_i hzero
      have : lastLive.toNat = 0 := Nat.eq_zero_of_not_pos hzero
      rw [this, UInt64.toNat_one]
  have hpos : e.seq > 0 := UInt64.lt_of_le_of_lt (UInt64.zero_le) h
  have hhi : (e.seq - 1).toNat = e.seq.toNat - 1 :=
    Go.Counter.toNat_pred (UInt64.lt_iff_toNat_lt.mp hpos)
  cases flag with
  | false => rfl
  | true =>
      simp only [WatchStream.gapBefore, Feed.announcement, hpos, true_and, ite_true,
        UInt64.le_iff_toNat_le, hlo, hhi]
      split
      · simp only [List.map_cons, List.map_nil, WatchMessage.note, hlo, hhi]
      · rfl

/-- The event in hand is the first that waits. -/
theorem feed_waiting {w : Watching} (sound : w.Sound) {e : Event}
    (hreceived : w.stream.received = some e) :
    w.feed.waiting = e.seq.toNat :: matching w.stream.req w.queue := by
  simp [feed, matching, hreceived, sound.accepted e hreceived]

theorem lastLive_lt {w : Watching} (sound : w.Sound) {e : Event}
    (hreceived : w.stream.received = some e) : w.stream.lastLive < e.seq := by
  have hordered := sound.ordered.ascending
  rw [feed_waiting sound hreceived] at hordered
  exact UInt64.lt_iff_toNat_lt.mpr (List.rel_of_pairwise_cons hordered List.mem_cons_self)

theorem feed_forward {w : Watching} (sound : w.Sound) {e : Event}
    (hreceived : w.stream.received = some e) (now : Time) :
    some (w.step (.forward now)).feed = (w.ops (.forward now)).map (Feed.step w.feed) := by
  obtain ⟨sub, hsub⟩ := sound.subscribed
  obtain ⟨hstream, hsub', hseq⟩ := step_forward hsub hreceived now
  have hlt := lastLive_lt sound hreceived
  have hflag : w.flag = sub.dropped := by rw [flag, hsub, Option.map_some, Option.getD_some]
  have hqueue : w.queue = sub.ch := by rw [queue, hsub, Option.map_some, Option.getD_some]
  simp only [ops, Option.map_some, Feed.step, feed_waiting sound hreceived]
  rw [feed_eq hsub', hseq, hstream]
  simp only [Option.toList_none, List.nil_append, List.map_append, note_gapBefore hlt, hqueue,
    feed, hflag]
  rfl

theorem feed_step {w : Watching} (sound : w.Sound) (room : w.bus.seq.toNat + 1 < 2 ^ 64)
    {ev : WatchStep} (may : w.May ev) :
    (w.step ev).feed = ((w.ops ev).map (Feed.step w.feed)).getD w.feed := by
  cases ev with
  | publish now e => rw [← feed_publish sound room, Option.getD_some]
  | mark => rfl
  | greet now members leaderID => rw [← feed_greet, Option.getD_some]
  | receive => exact feed_receive sound may
  | forward now =>
      obtain ⟨e, he⟩ := Option.isSome_iff_exists.mp may
      rw [← feed_forward sound he, Option.getD_some]

theorem mem_snapshot {req : WatchRequest} {now : Time} {members : List Member}
    {leaderID : String} {m : WatchMessage}
    (h : m ∈ WatchStream.snapshot req now members leaderID) :
    ∃ r : WatchResponse, m = .state r ∧ r.seq = 0 := by
  rcases List.mem_append.mp h with h | h
  · obtain ⟨member, -, h⟩ := List.mem_flatMap.mp h
    unfold WatchStream.memberState at h
    split_ifs at h
    all_goals
      first
      | exact ⟨_, List.mem_singleton.mp h, rfl⟩
      | exact absurd h List.not_mem_nil
  · exact ⟨_, List.mem_singleton.mp (List.mem_ite_nil_right.mp h).2, rfl⟩

/-- The messages before the loop, by kind. -/
theorem kind_of_mem_greeting {req : WatchRequest} {fromSeq : UInt64} {now : Time}
    {members : List Member} {leaderID : String} {m : WatchMessage}
    (h : m ∈ WatchStream.greeting req fromSeq now members leaderID) :
    (∃ r : WatchResponse, m = .state r ∧ r.seq = 0) ∨ m = .sync fromSeq now ∨
      ((0 < req.lastSeq ∧ req.lastSeq < fromSeq) ∧ m = .gap (req.lastSeq + 1) fromSeq now) := by
  rcases List.mem_append.mp h with h | h
  · rcases List.mem_append.mp h with h | h
    · exact Or.inl (mem_snapshot h)
    · exact Or.inr (Or.inl (List.mem_singleton.mp h))
  · obtain ⟨hgap, h⟩ := List.mem_ite_nil_right.mp h
    exact Or.inr (Or.inr ⟨hgap, List.mem_singleton.mp h⟩)

theorem mem_greeting {req : WatchRequest} {fromSeq : UInt64} {now : Time} {members : List Member}
    {leaderID : String} {m : WatchMessage}
    (h : m ∈ WatchStream.greeting req fromSeq now members leaderID) :
    (∀ e, m ≠ .live e) ∧
      ∀ s, m.Covers s → 0 < req.lastSeq ∧ req.lastSeq < fromSeq ∧ req.lastSeq + 1 ≤ s ∧
        s ≤ fromSeq := by
  rcases kind_of_mem_greeting h with ⟨r, rfl, -⟩ | rfl | ⟨hgap, rfl⟩
  · exact ⟨nofun, nofun⟩
  · exact ⟨nofun, nofun⟩
  · exact ⟨nofun, fun s hs => ⟨hgap.1, hgap.2, hs⟩⟩

theorem proper_ops {w : Watching} {ev : WatchStep} {op : Feed.Op} (h : w.ops ev = some op) :
    Feed.Proper op := by
  cases ev with
  | publish now e =>
      simp only [ops] at h
      split at h
      · cases h
        trivial
      · split at h <;> cases h <;> trivial
  | mark | receive => cases h
  | forward now =>
      cases h
      trivial
  | greet now members leaderID =>
      cases h
      intro n hn
      obtain ⟨m, hm, hnote⟩ := List.mem_map.mp hn
      cases m with
      | live e => exact (mem_greeting hm).1 e rfl
      | state | sync | gap => cases hnote

theorem ordered_step {w : Watching} (sound : w.Sound) (room : w.bus.seq.toNat + 1 < 2 ^ 64)
    {ev : WatchStep} (may : w.May ev) : Feed.Ordered (w.step ev).feed := by
  rw [feed_step sound room may]
  cases hop : w.ops ev with
  | none => exact sound.ordered
  | some op => exact Feed.ordered_step sound.ordered (proper_ops hop)

theorem lt_of_succ_le {a b s : UInt64} (h : a < b) (hs : a + 1 ≤ s) : a < s := by
  rw [UInt64.le_iff_toNat_le, Go.Counter.toNat_succ (Go.Counter.room_of_lt h)] at hs
  exact UInt64.lt_iff_toNat_lt.mpr hs

theorem lt_of_gapBefore {lastLive s : UInt64} {now : Time} {e : Event} {m : WatchMessage}
    (h : m ∈ WatchStream.gapBefore lastLive now e) (covers : m.Covers s) : s < e.seq := by
  obtain ⟨hgap, h⟩ := List.mem_ite_nil_right.mp h
  rw [List.mem_singleton.mp h] at covers
  have hpos : 0 < e.seq.toNat := UInt64.lt_iff_toNat_lt.mp hgap.1
  have hle := UInt64.le_iff_toNat_le.mp covers.2
  rw [Go.Counter.toNat_pred hpos] at hle
  rw [UInt64.lt_iff_toNat_lt]
  omega

theorem sound_greet {w : Watching} (sound : w.Sound) (marked : w.stream.phase = .marked)
    (now : Time) (members : List Member) (leaderID : String)
    (ordered : Feed.Ordered (w.step (.greet now members leaderID)).feed) :
    (w.step (.greet now members leaderID)).Sound := by
  obtain ⟨hreceived, hsent⟩ := sound.silent (by rw [marked]; decide)
  have hsent' : (w.step (.greet now members leaderID)).stream.sent =
      WatchStream.greeting w.stream.req w.stream.fromSeq now members leaderID := by
    simp only [step, WatchStream.greet, hsent, List.nil_append]
  refine { sound with
    silent := fun h => absurd rfl h, gaps := ?_, greeted := ?_, ordered := ordered }
  · intro m hm s covers
    rw [hsent'] at hm
    obtain ⟨hpos, hlt, hlo, hhi⟩ := (mem_greeting hm).2 s covers
    exact Or.inr ⟨hpos, lt_of_succ_le hlt hlo, hhi⟩
  · intro _ hpos hlt
    refine ⟨now, ?_⟩
    rw [hsent']
    refine List.mem_append_right _ ?_
    rw [if_pos ⟨hpos, hlt⟩]
    exact List.mem_singleton_self _

theorem sound_forward {w : Watching} (sound : w.Sound) {e : Event}
    (received : w.stream.received = some e) (now : Time)
    (ordered : Feed.Ordered (w.step (.forward now)).feed) : (w.step (.forward now)).Sound := by
  obtain ⟨sub, hsub⟩ := sound.subscribed
  obtain ⟨hstream, hsub', -⟩ := step_forward hsub received now
  have looping : w.stream.phase = .looping := by
    by_contra h
    exact absurd (received.symm.trans (sound.silent h).1) nofun
  have hlt := lastLive_lt sound received
  refine ⟨⟨_, hsub'⟩, ?_, ?_, ?_, ?_, ordered⟩
  all_goals rw [hstream]
  · exact nofun
  · exact fun h => absurd looping h
  · intro m hm s covers
    rcases List.mem_append.mp hm with hm | hm
    · rcases List.mem_append.mp hm with hm | hm
      · exact (sound.gaps m hm s covers).imp_left fun h => UInt64.lt_trans h hlt
      · split at hm
        · exact Or.inl (lt_of_gapBefore hm covers)
        · exact absurd hm List.not_mem_nil
    · rw [List.mem_singleton.mp hm] at covers
      exact covers.elim
  · intro _ hpos hlt
    obtain ⟨at', hmem⟩ := sound.greeted looping hpos hlt
    exact ⟨at', List.mem_append_left _ (List.mem_append_left _ hmem)⟩

theorem sound_step {w : Watching} (sound : w.Sound) (room : w.bus.seq.toNat + 1 < 2 ^ 64)
    {ev : WatchStep} (may : w.May ev) : (w.step ev).Sound := by
  have ordered := ordered_step sound room may
  obtain ⟨sub, hsub⟩ := sound.subscribed
  cases ev with
  | publish now e =>
      have hsub' := w.subscriber_publish now e
      rw [hsub, Option.map_some] at hsub'
      exact { sound with subscribed := ⟨_, hsub'⟩, ordered := ordered }
  | mark =>
      obtain ⟨hreceived, hsent⟩ := sound.silent (by rw [may]; decide)
      refine { sound with
        silent := fun _ => ⟨hreceived, hsent⟩, greeted := nofun, gaps := ?_, ordered := ordered }
      intro m hm
      exact absurd (hsent ▸ hm) List.not_mem_nil
  | greet now members leaderID => exact sound_greet sound may now members leaderID ordered
  | receive =>
      obtain ⟨cap, ch, dropped⟩ := sub
      cases ch with
      | nil => simp [May, queue, hsub] at may
      | cons e rest =>
          obtain ⟨hstream, hsub', -⟩ := step_receive hsub
          refine ⟨⟨_, hsub'⟩, ?_, ?_, ?_, ?_, ordered⟩
          all_goals
            rw [hstream]
            split
          · rintro _ ⟨⟩
            assumption
          · exact sound.accepted
          · exact fun h => absurd may.1 h
          · exact sound.silent
          · exact sound.gaps
          · exact sound.gaps
          · exact sound.greeted
          · exact sound.greeted
  | forward now =>
      obtain ⟨e, received⟩ := Option.isSome_iff_exists.mp may
      exact sound_forward sound received now ordered

theorem sound_start (b : Bus) (bufSize : Int) (req : WatchRequest) :
    (start b bufSize req).Sound where
  subscribed := ⟨_, Go.Map.get_set_self _ _ _⟩
  accepted := nofun
  silent _ := ⟨rfl, rfl⟩
  gaps := nofun
  greeted := nofun
  ordered := by
    have hsub : (start b bufSize req).subscriber = some _ := Go.Map.get_set_self _ _ _
    rw [feed_eq hsub]
    refine ⟨List.pairwise_singleton _ _, fun n hn => ?_, nofun, nofun, Or.inl rfl⟩
    exact List.mem_singleton.mp hn ▸ Nat.zero_le _

theorem seq_step {w : Watching} (sound : w.Sound) {ev : WatchStep} (may : w.May ev) :
    (w.step ev).bus.seq.toNat ≤ w.bus.seq.toNat + 1 := by
  obtain ⟨⟨cap, ch, dropped⟩, hsub⟩ := sound.subscribed
  cases ev with
  | publish now e =>
      exact w.bus.seq_publish_le now e
  | mark | greet => exact Nat.le_succ _
  | receive =>
      cases ch with
      | nil => simp [May, queue, hsub] at may
      | cons e rest =>
          rw [(step_receive hsub).2.2]
          exact Nat.le_succ _
  | forward now =>
      obtain ⟨e, hreceived⟩ := Option.isSome_iff_exists.mp may
      rw [(step_forward hsub hreceived now).2.2]
      exact Nat.le_succ _

theorem along_room {w : Watching} (sound : w.Sound) {steps : List WatchStep}
    (room : w.bus.seq.toNat + steps.length < 2 ^ 64) (may : Runs.Along step May w steps) :
    Runs.Along step (fun w ev => w.May ev ∧ w.bus.seq.toNat + 1 < 2 ^ 64) w steps := by
  refine Runs.Along.bounded Sound (fun w => w.bus.seq.toNat) sound ?_ room may
  intro w ev hsound hmay hroom
  exact ⟨sound_step hsound hroom hmay, seq_step hsound hmay⟩

end Watching
end Clusdr
