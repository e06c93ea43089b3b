import Clusdr.Core.Node

/-!
`LockService` of one daemon. A request is refused, forwarded to the leader the
daemon knows, or served here; serving commits one command and then reads the
node's table, which other commands may have changed meanwhile. `Lock` repeats
its attempt until the name is free.
-/

namespace Clusdr

open Go (Time Duration Unicode)
open Clusdr.Membership (Engine normalizeRole roleObserver)
open Consensus (Fsm Submission)

/-- `unixMs`: zero stays zero. -/
def unixMs (t : Time) : Int64 := if t.isZero then 0 else t.unixMilli

/-- Where a request goes: the leader's id and address when it is forwarded. -/
inductive Route where
  | reject (e : Rpc.Status)
  | forward (id addr : String)
  | serve
deriving DecidableEq

/-- `dialLeader` of both services; connecting is left to the RPC itself. -/
def dialLeader (members : Engine) : Route :=
  match members.leader with
  | none => .reject ⟨.failedPrecondition, "NOT_LEADER"⟩
  | some m =>
      if m.address = "" ∨ m.id = members.selfID then
        .reject ⟨.failedPrecondition, "NOT_LEADER"⟩
      else .forward m.id m.address

/-- A daemon answers at the address its own engine lists it under. -/
def AnswersAt (members : Engine) (addr : String) : Prop :=
  ∃ m, members.members.get members.selfID = some m ∧ m.address = addr

/-- The daemons a request passes, from the one that received it to the one that
does not forward it any more. Each decides by its own view at that moment. -/
inductive Forwarded {S : Type} (members : S → Engine) (route : S → Route) : S → S → Prop where
  | here {s : S} (stays : ∀ id addr, route s ≠ .forward id addr) : Forwarded members route s s
  | hop {s next last : S} {id addr : String} (sends : route s = .forward id addr)
      (answers : AnswersAt (members next) addr) (rest : Forwarded members route next last) :
      Forwarded members route s last

/-- `ttlFromMs` of a service with this `ClampTTL`. -/
def ttlFromMs (clampTTL : Duration → Duration → Duration) (defaultTTL : Duration) (ms : Int64)
    (reuse : Duration) : Duration :=
  clampTTL (if ms > 0 then Duration.ofMilliseconds ms else reuse) defaultTTL

structure LockRequest where
  name : String
  holder : String
  ttlMs : Int64

/-- `LockResponse` and `TryLockResponse`. -/
structure LockResponse where
  acquired : Bool
  message : String := ""
  fencingToken : UInt64
  holder : String
  deadlineUnixMs : Int64 := 0
deriving DecidableEq

structure UnlockRequest where
  name : String
  holder : String
  fencingToken : UInt64

structure LockRenewRequest where
  name : String
  holder : String
  fencingToken : UInt64
  ttlMs : Int64 := 0

structure LockRenewResponse where
  renewed : Bool
  fencingToken : UInt64
  deadlineUnixMs : Int64
deriving DecidableEq

structure LockInfo where
  name : String
  holder : String
  fencingToken : UInt64
  acquiredUnixMs : Int64
  deadlineUnixMs : Int64
deriving DecidableEq

/-- What the service reads of its node. `raft` is whether the node leads; a
service without Raft works on the table alone. -/
structure LockService where
  members : Engine
  raft : Option Bool
  defaultTTL : Duration

namespace LockService

def rejectIfObserver (s : LockService) : Option Rpc.Status :=
  if s.members.membersList.any fun m =>
      m.id = s.members.selfID ∧ normalizeRole m.role = roleObserver then
    some ⟨.failedPrecondition, "observer cannot mutate locks"⟩
  else none

def ttlFromMs (s : LockService) : Int64 → Duration → Duration :=
  Clusdr.ttlFromMs Locks.clampTTL s.defaultTTL

/-- The filling in of an empty holder, on the daemon that serves the request. -/
def holder (s : LockService) (h : String) : String :=
  if h ≠ "" then h else s.members.selfID

variable [Unicode]

/-- The checks all four handlers make first. -/
def route (s : LockService) (name : String) : Route :=
  match Locks.validName name with
  | .error e => .reject ⟨.invalidArgument, e⟩
  | .ok _ =>
      match s.rejectIfObserver with
      | some e => .reject e
      | none => if s.raft = some false then dialLeader s.members else .serve

def applyAcquire (s : LockService) (f : Fsm) (sub : Submission) (name holder : String)
    (ttl : Duration) : Fsm × Except String (UInt64 × Bool) :=
  match s.raft, f.locks with
  | some _, _ => f.applyLockAcquire sub name holder ttl
  | none, none => (f, .error "lock table not initialized")
  | none, some t =>
      let (t, res) := t.acquire sub.appliedAt name holder (sub.now.add ttl) ttl
      ({ f with locks := some t }, res)

def applyRelease (s : LockService) (f : Fsm) (sub : Submission) (name holder : String)
    (token : UInt64) : Fsm × Except String Unit :=
  match s.raft, f.locks with
  | some _, _ => f.applyLockRelease sub name holder token
  | none, none => (f, .error "lock table not initialized")
  | none, some t =>
      let (t, res) := t.release name holder token
      ({ f with locks := some t }, res)

def applyRenew (s : LockService) (f : Fsm) (sub : Submission) (name holder : String)
    (token : UInt64) (ttl : Duration) : Fsm × Except String Time :=
  match s.raft, f.locks with
  | some _, _ => f.applyLockRenew sub name holder token ttl
  | none, none => (f, .error "lock table not initialized")
  | none, some t =>
      let deadline := sub.now.add ttl
      let (t, res) := t.renew name holder token deadline ttl
      ({ f with locks := some t }, res.map fun _ => deadline)

/-- The committing part of a served `Lock` or `TryLock`; `op` is how its errors
call it. -/
def attempt (s : LockService) (op : String) (f : Fsm) (sub : Submission) (req : LockRequest) :
    Fsm × Except Rpc.Status (UInt64 × Bool) :=
  let (f, res) := s.applyAcquire f sub req.name (s.holder req.holder)
    (s.ttlFromMs req.ttlMs 0)
  (f, res.mapError fun e => ⟨.internal, op ++ ": " ++ e⟩)

/-- One round of the `Lock` loop. A round that is not granted is followed by a
wait for the table to change and another round. -/
def lockRound (s : LockService) := s.attempt "lock"

def tryLock (s : LockService) := s.attempt "trylock"

/-- `grantResponse` and `tryLockResponse`, read from the table as it is then. -/
def grantResponse (table : Option Locks.Table) (name holder : String) (token : UInt64) :
    LockResponse where
  acquired := true
  fencingToken := token
  holder := holder
  deadlineUnixMs := ((table.bind fun t => t.get name).map fun rec => unixMs rec.deadline).getD 0

/-- The answer of a `TryLock` that found the name held. -/
def heldResponse (table : Option Locks.Table) (name : String) : LockResponse :=
  match table.bind fun t => t.get name with
  | some held =>
      { acquired := false, message := "held", fencingToken := held.token, holder := held.holder,
        deadlineUnixMs := unixMs held.deadline }
  | none => { acquired := false, message := "held", fencingToken := 0, holder := "" }

def tryLockResponse (s : LockService) (table : Option Locks.Table) (req : LockRequest) :
    UInt64 × Bool → LockResponse
  | (token, true) => grantResponse table req.name (s.holder req.holder) token
  | (_, false) => heldResponse table req.name

/-- A served `Unlock`. -/
def unlock (s : LockService) (f : Fsm) (sub : Submission) (req : UnlockRequest) :
    Fsm × Except Rpc.Status Unit :=
  let (f, res) := s.applyRelease f sub req.name (s.holder req.holder) req.fencingToken
  (f, res.mapError fun e => ⟨.failedPrecondition, e⟩)

/-- The TTL a renewal without one reuses: the record's, as `table` has it. -/
def reuseTTL (s : LockService) (table : Option Locks.Table) (name : String) : Duration :=
  match table.bind fun t => t.get name with
  | some rec => if rec.ttl > 0 then rec.ttl else s.defaultTTL
  | none => s.defaultTTL

/-- A served `Renew`, which read the record when the table was `seen`. -/
def renew (s : LockService) (seen : Option Locks.Table) (f : Fsm) (sub : Submission)
    (req : LockRenewRequest) : Fsm × Except Rpc.Status LockRenewResponse :=
  let ttl := s.ttlFromMs req.ttlMs (s.reuseTTL seen req.name)
  let (f, res) := s.applyRenew f sub req.name (s.holder req.holder) req.fencingToken ttl
  match res with
  | .error e => (f, .error ⟨.failedPrecondition, e⟩)
  | .ok deadline => (f, .ok ⟨true, req.fencingToken, unixMs deadline⟩)

def lockInfo (rec : Locks.Record) : LockInfo :=
  ⟨rec.name, rec.holder, rec.token, rec.acquiredAt.unixMilli, unixMs rec.deadline⟩

def listLocks (table : Option Locks.Table) : List LockInfo :=
  (table.map fun t => t.list.map lockInfo).getD []

end LockService

end Clusdr
