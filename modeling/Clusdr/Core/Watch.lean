import Clusdr.Core.EventBus
import Clusdr.Core.Membership
import Clusdr.Core.Node

/-!
`WatchService.Watch`: subscribe, note the number of the last event, send the
state as it is, a sync mark and the gap since the client's last event, then
pass events on. The stream is the list of messages sent so far; a failed send
ends it.
-/

namespace Clusdr

open Go (Json Time Unicode)
open Events (Event Payload)
open EventBus (Bus)
open Clusdr.Membership (Member normalizeStatus statusAlive statusDead)

namespace Events

def maxTopicLen : Nat := 128

def normalizeTopic (topic : String) : String := Go.trimPrefix topic typeCustomPrefix

def topicFromType (eventType : String) : Option String :=
  if Go.hasPrefix eventType typeCustomPrefix then
    let topic := Go.trimPrefix eventType typeCustomPrefix
    if topic = "" then none else some topic
  else none

def validTopic [Unicode] (topic : String) : Except String Unit :=
  checkName "topic" maxTopicLen (normalizeTopic topic)

end Events

structure WatchRequest where
  eventTypes : List String := []
  topics : List String := []
  lastSeq : UInt64 := 0

structure WatchResponse where
  type : String
  source : String := ""
  payload : Payload := .empty
  timestampUnixMs : Int64
  seq : UInt64 := 0

namespace WatchRequest

def validate [Unicode] (req : WatchRequest) : Except Rpc.Status Unit :=
  match req.topics.findSome? fun t =>
      match Events.validTopic t with
      | .error e => some e
      | .ok _ => none with
  | some e => .error ⟨.invalidArgument, "topics: " ++ e⟩
  | none => .ok ()

def isProtocolEvent (t : String) : Bool := t == Events.typeWatchSync || t == Events.typeWatchGap

def topicListed (topics : List String) (topic : String) : Bool :=
  topics.any fun t => Events.normalizeTopic t == topic

def matchesType (filter : List String) (eventType : String) : Bool :=
  filter.isEmpty || filter.contains eventType

/-- `matchesWatch`. -/
def accepts (req : WatchRequest) (eventType : String) : Bool :=
  if isProtocolEvent eventType then true
  else if req.topics.isEmpty then matchesType req.eventTypes eventType
  else
    match Events.topicFromType eventType with
    | none => false
    | some topic => topicListed req.topics topic && matchesType req.eventTypes eventType

end WatchRequest

/-- What a stream sends: the state on connect, the sync mark, a gap, an event. -/
inductive WatchMessage where
  | state (r : WatchResponse)
  | sync (seq : UInt64) (now : Time)
  | gap (lo hi : UInt64) (now : Time)
  | live (e : Event)

/-- The response a message is sent as: `sendSync`, `sendGap`, `eventToProto`. -/
def WatchMessage.response : WatchMessage → WatchResponse
  | .state r => r
  | .sync seq now => { type := Events.typeWatchSync, timestampUnixMs := now.unixMilli, seq }
  | .gap lo hi now =>
      { type := Events.typeWatchGap
        payload := .json (.obj [("from", Json.ofUInt64 lo), ("to", Json.ofUInt64 hi)])
        timestampUnixMs := now.unixMilli }
  | .live e => ⟨e.type, e.source, e.payload, e.timestamp.unixMilli, e.seq⟩

/-- Where `Watch` is: it has subscribed, noted the last number, or is in its loop. -/
inductive WatchPhase where
  | subscribed
  | marked
  | looping
deriving DecidableEq

/-- A stream: its subscription, the numbers it keeps, an event it has received but
not yet looked at the flag for, and what it sent. -/
structure WatchStream where
  req : WatchRequest
  sub : UInt64
  phase : WatchPhase
  fromSeq : UInt64
  lastLive : UInt64
  received : Option Event
  sent : List WatchMessage

namespace WatchStream

/-- The messages for one member of the snapshot. -/
def memberState (req : WatchRequest) (now : Time) (m : Member) : List WatchMessage :=
  if normalizeStatus m.status = statusDead then
    if req.accepts Events.typeMemberDead then [.state (resp Events.typeMemberDead)] else []
  else if m.status ≠ statusAlive then []
  else if req.accepts Events.typeMemberJoin then [.state (resp Events.typeMemberJoin)] else []
where
  resp (type : String) : WatchResponse :=
    { type
      source := m.id
      payload := .json (.obj [("address", .str m.address), ("snapshot", .bool true)])
      timestampUnixMs := now.unixMilli }

/-- `sendSnapshot`. -/
def snapshot (req : WatchRequest) (now : Time) (members : List Member) (leaderID : String) :
    List WatchMessage :=
  members.flatMap (memberState req now) ++
    if leaderID ≠ "" ∧ req.accepts Events.typeLeaderChanged then
      [.state { type := Events.typeLeaderChanged, source := leaderID,
                timestampUnixMs := now.unixMilli }]
    else []

/-- What is sent before the loop. -/
def greeting (req : WatchRequest) (fromSeq : UInt64) (now : Time) (members : List Member)
    (leaderID : String) : List WatchMessage :=
  snapshot req now members leaderID ++ [.sync fromSeq now] ++
    if req.lastSeq > 0 ∧ fromSeq > req.lastSeq then [.gap (req.lastSeq + 1) fromSeq now] else []

/-- The gap sent before an event, if the flag was set. -/
def gapBefore (lastLive : UInt64) (now : Time) (e : Event) : List WatchMessage :=
  let lo := if lastLive > 0 then lastLive + 1 else 1
  let hi := e.seq - 1
  if e.seq > 0 ∧ lo ≤ hi then [.gap lo hi now] else []

/-- The start of `Watch`, with a channel of the given size. -/
def subscribe (b : Bus) (bufSize : Int) (req : WatchRequest) : Bus × WatchStream :=
  let (b, sub) := b.subscribe bufSize
  (b, ⟨req, sub, .subscribed, 0, 0, none, []⟩)

def mark (w : WatchStream) (b : Bus) : WatchStream :=
  { w with phase := .marked, fromSeq := b.lastSeq }

def greet (w : WatchStream) (now : Time) (members : List Member) (leaderID : String) :
    WatchStream :=
  { w with
    phase := .looping
    sent := w.sent ++ greeting w.req w.fromSeq now members leaderID }

/-- The loop receives an event and goes on at once if the filter rejects it. -/
def receive (w : WatchStream) (b : Bus) : WatchStream × Bus :=
  match b.receive w.sub with
  | some (e, b) => (if w.req.accepts e.type then { w with received := some e } else w, b)
  | none => (w, b)

/-- The loop takes the flag and sends. -/
def forward (w : WatchStream) (b : Bus) (now : Time) : WatchStream × Bus :=
  match w.received with
  | none => (w, b)
  | some e =>
      let (dropped, b) := b.takeDropped w.sub
      let gaps := if dropped then gapBefore w.lastLive now e else []
      ({ w with received := none, lastLive := e.seq, sent := w.sent ++ gaps ++ [.live e] }, b)

theorem seq_forward (w : WatchStream) (b : Bus) (now : Time) :
    (w.forward b now).2.seq = b.seq := by
  simp only [forward, Bus.takeDropped]
  split
  · rfl
  · dsimp only
    split <;> rfl

end WatchStream

end Clusdr
