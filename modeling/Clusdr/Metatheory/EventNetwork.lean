import Clusdr.Metatheory.SeenIds
import Clusdr.Runs.Along

/-!
Daemons that pass custom events on. Clients send requests to any of them; a
relay that was started stays in the network and can arrive at any daemon, more
than once or never, since member lists name addresses and change. A handler runs
in three parts. Each daemon keeps a record of the ids that reached its cache and
of the numbers its bus gave to events, and a handler knows the client request it
goes back to; nothing reads these records.
-/

namespace Clusdr

open Go (Time Unicode)
open EventBus (Bus)
open Clusdr.Membership (Member)

/-- An event on the bus: its number there, and the id and the client request behind it. -/
structure Published where
  id : String
  origin : Nat
  seq : UInt64

/-- The numbers a bus gave to events between two of its states. -/
def EventBus.Bus.numbersGiven (before after : Bus) : List UInt64 :=
  (List.range (after.lastSeq - before.lastSeq).toNat).map fun k =>
    before.lastSeq + UInt64.ofNat (k + 1)

structure EventNode where
  service : EventService
  /-- The ids that reached the cache, oldest first, and whether each was new. -/
  arrivals : List (String × Bool) := []
  /-- What the bus numbered, oldest first. -/
  published : List Published := []

namespace EventNode

/-- What the bus numbered while a handler of this id took the service to `s`. -/
def numbered (node : EventNode) (s : EventService) (id : String) (origin : Nat) :
    List Published :=
  match node.service.bus, s.bus with
  | some before, some after => (before.numbersGiven after).map fun seq => ⟨id, origin, seq⟩
  | _, _ => []

/-- The node after a part of a handler. -/
def acted (node : EventNode) (s : EventService) (id : String) (origin : Nat) : EventNode :=
  { node with service := s, published := node.published ++ node.numbered s id origin }

theorem numbered_of_bus_eq {node : EventNode} {s : EventService} (same : s.bus = node.service.bus)
    (id : String) (origin : Nat) : node.numbered s id origin = [] := by
  rw [numbered, same]
  cases node.service.bus with
  | none => rfl
  | some b => simp [Bus.numbersGiven]

/-- `Publish` gives out the next number, if there is a bus. -/
theorem numbered_publish (node : EventNode) (now : Time) (req : PublishEventRequest) (id : String)
    (origin : Nat) :
    node.numbered (node.service.publish now req) id origin =
      node.service.bus.toList.map fun b => ⟨id, origin, b.lastSeq + 1⟩ := by
  rw [numbered, EventService.publish]
  cases node.service.bus with
  | none => rfl
  | some b =>
      have hone : b.seq + 1 - b.seq = 1 := by rw [UInt64.add_comm, UInt64.add_sub_cancel]
      simp only [Option.map_some, Bus.numbersGiven, Bus.publish, Bus.lastSeq, hone]
      rfl

end EventNode

/-- How far a handler that accepted a new id has come; `finished` says how many peers
it saw alive. -/
inductive Stage where
  | accepted
  | published
  | finished (peers : Nat)
deriving DecidableEq

def Stage.peers : Stage → Nat
  | .finished n => n
  | _ => 0

structure EventHandler (N : Type) where
  node : N
  /-- The request came from a client and not from a relay. -/
  client : Bool
  origin : Nat
  req : PublishEventRequest
  id : String
  stage : Stage

/-- A relay that was started, by which handler. -/
structure SentRelay where
  cause : Nat
  origin : Nat
  addr : String
  req : PublishEventRequest

structure EventNetwork (N : Type) where
  nodes : N → EventNode
  handlers : List (EventHandler N) := []
  sent : List SentRelay := []

inductive EventStep (N : Type) where
  | client (n : N) (origin : Nat) (req : PublishEventRequest)
      (read : Except String (Vector UInt8 16))
  | deliver (i : Nat) (n : N) (read : Except String (Vector UInt8 16))
  | publish (i : Nat) (now : Time)
  | fanout (i : Nat) (members : List Member)

namespace EventNetwork

variable {N : Type} [DecidableEq N]

/-- Daemons that have just started. -/
def start (bus : N → Option Bus) (peers : N → Option String) : EventNetwork N where
  nodes n := { service := ⟨bus n, peers n, newIDCache seenEventCap⟩ }

def setNode (net : EventNetwork N) (n : N) (node : EventNode) : EventNetwork N :=
  { net with nodes := Function.update net.nodes n node }

/-- A request reaches a daemon. -/
def arrive [Unicode] (net : EventNetwork N) (n : N) (client : Bool) (origin : Nat)
    (req : PublishEventRequest) (read : Except String (Vector UInt8 16)) : EventNetwork N :=
  let node := net.nodes n
  match node.service.accept req (Uid.new read) with
  | (s, .error _) => net.setNode n (node.acted s req.eventId origin)
  | (s, .ok (.duplicate res)) =>
      net.setNode n { node.acted s res.eventId origin with
        arrivals := node.arrivals ++ [(res.eventId, false)] }
  | (s, .ok (.fresh id)) =>
      { net.setNode n { node.acted s id origin with
          arrivals := node.arrivals ++ [(id, true)] } with
        handlers := net.handlers ++ [⟨n, client, origin, req, id, .accepted⟩] }

def publish (net : EventNetwork N) (i : Nat) (h : EventHandler N) (now : Time) : EventNetwork N :=
  let node := net.nodes h.node
  { net.setNode h.node (node.acted (node.service.publish now h.req) h.id h.origin) with
    handlers := net.handlers.set i { h with stage := .published } }

def fanout (net : EventNetwork N) (i : Nat) (h : EventHandler N) (members : List Member) :
    EventNetwork N :=
  let s := (net.nodes h.node).service
  { net with
    handlers := net.handlers.set i { h with stage := .finished (s.alivePeers members).length }
    sent := net.sent ++ (s.fanout h.req h.id members).map fun r => ⟨i, h.origin, r.1, r.2⟩ }

def step [Unicode] (net : EventNetwork N) : EventStep N → EventNetwork N
  | .client n origin req read => net.arrive n true origin req read
  | .deliver i n read =>
      match net.sent[i]? with
      | some r => net.arrive n false r.origin r.req read
      | none => net
  | .publish i now =>
      match net.handlers[i]? with
      | some h => match h.stage with
          | .accepted => net.publish i h now
          | _ => net
      | none => net
  | .fanout i members =>
      match net.handlers[i]? with
      | some h => match h.stage with
          | .published => net.fanout i h members
          | _ => net
      | none => net

/-- A node after an id reached its cache. -/
def arrived (net : EventNetwork N) (n : N) (id : String) (new : Bool) : EventNetwork N :=
  let node := net.nodes n
  net.setNode n { node with
    service := { node.service with seen := (node.service.seen.seenOrAdd id).1 }
    arrivals := node.arrivals ++ [(id, new)] }

/-- The request is the client's that the step sends, or that of a relay with the same
origin. -/
def Sent (net : EventNetwork N) (e : EventStep N) (client : Bool) (origin : Nat)
    (req : PublishEventRequest) : Prop :=
  (client = true ∧ ∃ n read, e = .client n origin req read) ∨
    ∃ r ∈ net.sent, r.origin = origin ∧ r.req = req

/-- Everything a step can do. -/
inductive Change (net : EventNetwork N) (e : EventStep N) : EventNetwork N → Prop
  | idle : Change net e net
  | duplicate (n : N) (id : String) (seen : ((net.nodes n).service.seen.seenOrAdd id).2 = true) :
      Change net e (net.arrived n id false)
  | accepted (n : N) (client : Bool) (origin : Nat) (req : PublishEventRequest) (id : String)
      (sent : net.Sent e client origin req) (named : id ≠ "")
      (own : req.eventId ≠ "" → id = req.eventId)
      (unseen : ((net.nodes n).service.seen.seenOrAdd id).2 = false) :
      Change net e { net.arrived n id true with
        handlers := net.handlers ++ [⟨n, client, origin, req, id, .accepted⟩] }
  | published (i : Nat) (h : EventHandler N) (now : Time) (running : net.handlers[i]? = some h)
      (stage : h.stage = .accepted) : Change net e (net.publish i h now)
  | fanned (i : Nat) (h : EventHandler N) (members : List Member)
      (running : net.handlers[i]? = some h) (stage : h.stage = .published) :
      Change net e (net.fanout i h members)

/-- What the checks of the handler refuse changes nothing. -/
theorem accept_cases [Unicode] (s : EventService) (req : PublishEventRequest)
    (read : Except String (Vector UInt8 16)) :
    (∃ e, s.accept req (Uid.new read) = (s, .error e)) ∨
      ∃ id, id ≠ "" ∧ (req.eventId ≠ "" → id = req.eventId) ∧
        (s.accept req (Uid.new read)).1 = { s with seen := (s.seen.seenOrAdd id).1 } ∧
        (((s.seen.seenOrAdd id).2 = true ∧ ∃ res, res.eventId = id ∧
            (s.accept req (Uid.new read)).2 = .ok (.duplicate res)) ∨
          ((s.seen.seenOrAdd id).2 = false ∧
            (s.accept req (Uid.new read)).2 = .ok (.fresh id))) := by
  unfold EventService.accept
  split
  · exact Or.inl ⟨_, rfl⟩
  · split
    · exact Or.inl ⟨_, rfl⟩
    · split
      · exact Or.inl ⟨_, rfl⟩
      · split
        · exact Or.inl ⟨_, rfl⟩
        · rename_i id hid
          refine Or.inr ⟨id, ?_, ?_, ?_⟩
          · split at hid
            · exact Uid.new_ne hid
            · rename_i hne
              cases hid
              exact hne
          · intro hne
            rw [if_neg hne] at hid
            cases hid
            rfl
          · rcases hseen : s.seen.seenOrAdd id with ⟨seen, _ | _⟩
            · exact ⟨rfl, Or.inr ⟨rfl, rfl⟩⟩
            · exact ⟨rfl, Or.inl ⟨rfl, _, rfl, rfl⟩⟩

theorem arrive_change [Unicode] {net : EventNetwork N} {e : EventStep N} {client : Bool}
    {origin : Nat} {req : PublishEventRequest} (sent : net.Sent e client origin req) (n : N)
    (read : Except String (Vector UInt8 16)) :
    net.Change e (net.arrive n client origin req read) := by
  have hcases := accept_cases (net.nodes n).service req read
  rcases haccept : (net.nodes n).service.accept req (Uid.new read) with ⟨s, res⟩
  rw [haccept] at hcases
  simp only [arrive, haccept]
  rcases hcases with ⟨e, hrefused⟩ | ⟨id, named, own, rfl, ⟨seen, res, rfl, rfl⟩ | ⟨unseen, rfl⟩⟩
  · obtain ⟨rfl, rfl⟩ := Prod.mk.inj hrefused
    simp only [EventNode.acted, EventNode.numbered_of_bus_eq, List.append_nil]
    rw [setNode, Function.update_eq_self]
    exact .idle
  · simp only [EventNode.acted, EventNode.numbered_of_bus_eq, List.append_nil]
    exact .duplicate n res.eventId seen
  · simp only [EventNode.acted, EventNode.numbered_of_bus_eq, List.append_nil]
    exact .accepted n client origin req id sent named own unseen

theorem step_change [Unicode] (net : EventNetwork N) (e : EventStep N) :
    net.Change e (net.step e) := by
  cases e with
  | client n origin req read => exact arrive_change (Or.inl ⟨rfl, n, read, rfl⟩) n read
  | deliver i n read =>
      cases hi : net.sent[i]? with
      | none =>
          simp only [step, hi]
          exact .idle
      | some r =>
          simp only [step, hi]
          exact arrive_change (Or.inr ⟨r, List.mem_of_getElem? hi, rfl, rfl⟩) n read
  | publish i now =>
      cases hi : net.handlers[i]? with
      | none =>
          simp only [step, hi]
          exact .idle
      | some h =>
          cases hstage : h.stage with
          | accepted =>
              simp only [step, hi, hstage]
              exact .published i h now hi hstage
          | published | finished =>
              simp only [step, hi, hstage]
              exact .idle
  | fanout i members =>
      cases hi : net.handlers[i]? with
      | none =>
          simp only [step, hi]
          exact .idle
      | some h =>
          cases hstage : h.stage with
          | published =>
              simp only [step, hi, hstage]
              exact .fanned i h members hi hstage
          | accepted | finished =>
              simp only [step, hi, hstage]
              exact .idle

end EventNetwork

end Clusdr
