import Mathlib.Data.String.Basic
import Clusdr.Core.Events
import Clusdr.Go.Map

/-!
The membership engine: the member list of one node, the ids that left it, and
who leads. Methods run under the engine mutex; the last component of a result
is what the `Emit` hook receives. Statuses and roles are texts, as in the
source: any text can arrive in a command or a snapshot.
-/

namespace Clusdr.Membership

open Go (Time)
open Events (Event)

abbrev Status := String

def statusAlive : Status := "alive"
def statusDead : Status := "dead"
def statusLeaving : Status := "leaving"

def normalizeStatus (s : Status) : Status :=
  if s = statusAlive ∨ s = "" then statusAlive else statusDead

def roleVoter : String := "voter"
def roleObserver : String := "observer"

def normalizeRole (role : String) : String :=
  if role = roleObserver then roleObserver else roleVoter

structure Member where
  id : String
  address : String
  status : Status
  leader : Bool
  role : String
  joinedAt : Time
deriving DecidableEq

structure Engine where
  selfID : String
  leaderID : String
  members : Go.Map String Member
  dropped : Go.Map String Unit

namespace Engine

/-- `New`. -/
def new (now : Time) (selfID selfAddr : String) : Engine where
  selfID := selfID
  leaderID := selfID
  members := Go.Map.set ∅ selfID ⟨selfID, selfAddr, statusAlive, true, roleVoter, now⟩
  dropped := ∅

def joinEvent (id addr role : String) : Event where
  type := Events.typeMemberJoin
  source := id
  payload := .json (.obj [("address", .str addr), ("role", .str role)])

def joinAs (e : Engine) (now : Time) (id addr role : String) :
    Engine × Except String Bool × List Event :=
  if id = "" then (e, .error "membership join: empty node id", [])
  else
    let role := normalizeRole role
    let existing := e.members.get id
    let alive := existing.filter fun m => m.status = statusAlive
    let member := ⟨id, addr, statusAlive, decide (id = e.leaderID), role,
      (alive.map Member.joinedAt).getD now⟩
    ({ e with members := e.members.set id member, dropped := e.dropped.delete id },
      .ok alive.isNone, if alive.isNone then [joinEvent id addr role] else [])

def join (e : Engine) (now : Time) (id addr : String) :
    Engine × Except String Bool × List Event :=
  e.joinAs now id addr roleVoter

def markDead (e : Engine) (id : String) : Engine × List Event :=
  match e.members.get id with
  | none => (e, [])
  | some m =>
      if normalizeStatus m.status = statusDead then (e, [])
      else
        ({ e with members := e.members.set id { m with status := statusDead } },
          [{ type := Events.typeMemberDead, source := id }])

def leave (e : Engine) (id : String) : Engine × List Event :=
  match e.dropped.get id, e.members.get id with
  | none, some _ =>
      ({ e with members := e.members.delete id, dropped := e.dropped.set id () },
        [{ type := Events.typeMemberLeft, source := id }])
  | _, _ => (e, [])

def drop (e : Engine) (id : String) : Engine × List Event := e.leave id

def restoreMember (e : Engine) (now : Time) (id addr role : String) (status : Status) :
    Engine × Except String Unit :=
  if id = "" then (e, .error "membership restore: empty node id")
  else
    let member := ⟨id, addr, normalizeStatus status, decide (id = e.leaderID),
      normalizeRole role, ((e.members.get id).map Member.joinedAt).getD now⟩
    ({ e with members := e.members.set id member, dropped := e.dropped.delete id }, .ok ())

/-- `Members`. -/
def membersList (e : Engine) : List Member := e.members.sorted

def leader (e : Engine) : Option Member := e.members.get e.leaderID

def setLeader (e : Engine) (id : String) : Engine × List Event :=
  if e.leaderID = id then (e, [])
  else
    ({ e with
        leaderID := id
        members := e.members.mapValues fun k m => { m with leader := decide (k = id) } },
      [{ type := Events.typeLeaderChanged, source := id }])

def selfRole (e : Engine) : String :=
  ((e.members.get e.selfID).map fun m => normalizeRole m.role).getD roleVoter

def left (e : Engine) (id : String) : Bool := (e.dropped.get id).isSome

end Engine

end Clusdr.Membership
