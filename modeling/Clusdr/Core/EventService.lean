import Clusdr.Core.EventBus
import Clusdr.Core.Watch

/-!
`EventService.PublishEvent`. The handler accepts the request (its checks, its id,
the cache of seen ids), publishes the event on the node's bus and, unless the
request is a relay, starts one relay for each peer it lists alive. Other handlers
run between the three parts, so each is a function of its own.
-/

namespace Clusdr

open Go (Time Unicode)
open Events (Event)
open EventBus (Bus)
open Clusdr.Membership (Member statusAlive)

namespace Events

def maxPayloadBytes : Nat := 65536

def customType (topic : String) : String := typeCustomPrefix ++ topic

end Events

namespace Uid

/-- `fmt.Sprintf("%x", bs)`. -/
def hex (bs : List UInt8) : String := String.join (bs.map fun b => Go.hexDigits 2 b.toNat)

/-- `New`, when `rand.Read` fails or fills in these bytes. -/
def new : Except String (Vector UInt8 16) → Except String String
  | .error e => .error ("generate uid: " ++ e)
  | .ok b =>
      let b := (b.set 6 ((b[6] &&& 0x0f) ||| 0x40)).set 8 ((b[8] &&& 0x3f) ||| 0x80)
      let part (lo hi : Nat) := hex ((b.toList.drop lo).take (hi - lo))
      .ok (part 0 4 ++ "-" ++ part 4 6 ++ "-" ++ part 6 8 ++ "-" ++ part 8 10 ++ "-" ++ part 10 16)

theorem new_ne {read : Except String (Vector UInt8 16)} {id : String} (h : new read = .ok id) :
    id ≠ "" := by
  cases read with
  | error e => cases h
  | ok b =>
      rw [← Except.ok.inj h]
      simp

end Uid

def seenEventCap : Int := 4096

/-- A bounded FIFO set of recently seen event ids: the set, and its ids from the
oldest on. -/
structure IdCache where
  m : Go.Map String Unit
  q : List String
  cap : Nat

def newIDCache (n : Int) : IdCache := ⟨∅, [], if n ≤ 0 then 1024 else n.toNat⟩

/-- The eviction of the oldest entry when full. -/
def IdCache.evict (c : IdCache) : IdCache :=
  match c.q with
  | old :: q => if c.cap ≤ c.q.length then { c with q, m := c.m.delete old } else c
  | [] => c

def IdCache.seenOrAdd (c : IdCache) (id : String) : IdCache × Bool :=
  match c.m.get id with
  | some _ => (c, true)
  | none =>
      let c := c.evict
      ({ c with m := c.m.set id (), q := c.q ++ [id] }, false)

structure PublishEventRequest where
  topic : String
  payload : List UInt8 := []
  eventId : String := ""
  source : String := ""
  relay : Bool := false

structure PublishEventResponse where
  accepted : Bool
  message : String := ""
  eventId : String
  type : String

/-- `peers` is the id the node lists itself under, if it lists anybody. -/
structure EventService where
  bus : Option Bus
  peers : Option String
  seen : IdCache

/-- A request that passed the checks: its id was seen before, or is new. -/
inductive Admission where
  | duplicate (res : PublishEventResponse)
  | fresh (id : String)

namespace EventService

/-- The handler up to the cache; `uid` is what `uid.New` returns. -/
def accept [Unicode] (s : EventService) (req : PublishEventRequest) (uid : Except String String) :
    EventService × Except Rpc.Status Admission :=
  match s.bus with
  | none => (s, .error ⟨.failedPrecondition, "event bus not initialized"⟩)
  | some _ =>
      match Events.validTopic req.topic with
      | .error e => (s, .error ⟨.invalidArgument, e⟩)
      | .ok _ =>
          if req.payload.length > Events.maxPayloadBytes then
            (s, .error ⟨.invalidArgument,
              "payload exceeds " ++ toString Events.maxPayloadBytes ++ " bytes"⟩)
          else
            match if req.eventId = "" then uid else .ok req.eventId with
            | .error e => (s, .error ⟨.internal, "event id: " ++ e⟩)
            | .ok id =>
                match s.seen.seenOrAdd id with
                | (seen, true) =>
                    ({ s with seen },
                      .ok (.duplicate ⟨true, "duplicate", id, Events.customType req.topic⟩))
                | (seen, false) => ({ s with seen }, .ok (.fresh id))

def source (s : EventService) (req : PublishEventRequest) : String :=
  if req.source = "" then s.peers.getD "" else req.source

/-- The event on the bus. -/
def event (s : EventService) (req : PublishEventRequest) : Event where
  type := Events.customType req.topic
  source := s.source req
  payload := .raw req.payload

def publish (s : EventService) (now : Time) (req : PublishEventRequest) : EventService :=
  { s with bus := s.bus.map fun b => b.publish now (s.event req) }

/-- The peers a fan-out sends to, when `Members` returns this list. -/
def alivePeers (s : EventService) (members : List Member) : List Member :=
  match s.peers with
  | none => []
  | some selfID => members.filter fun m => m.id ≠ selfID ∧ m.status = statusAlive

def relayOf (s : EventService) (req : PublishEventRequest) (id : String) : PublishEventRequest where
  topic := req.topic
  payload := req.payload
  eventId := id
  source := s.source req
  relay := true

/-- The relays a handler starts: one for each peer, with the peer's address. -/
def fanout (s : EventService) (req : PublishEventRequest) (id : String) (members : List Member) :
    List (String × PublishEventRequest) :=
  if req.relay then []
  else (s.alivePeers members).map fun m => (m.address, s.relayOf req id)

end EventService

end Clusdr
