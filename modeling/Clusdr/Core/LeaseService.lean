import Clusdr.Core.LockService

/-!
`LeaseService` of one daemon. It answers as `LockService` does, with no blocking
call and no check for observers.
-/

namespace Clusdr

open Go (Time Duration Unicode)
open Clusdr.Membership (Engine)
open Consensus (Fsm Submission)

structure GrantRequest where
  name : String
  owner : String
  ttlMs : Int64

structure GrantResponse where
  granted : Bool
  message : String := ""
  fencingToken : UInt64
  owner : String
  deadlineUnixMs : Int64 := 0
deriving DecidableEq

structure LeaseRenewRequest where
  name : String
  owner : String
  fencingToken : UInt64
  ttlMs : Int64 := 0

structure LeaseRenewResponse where
  renewed : Bool
  fencingToken : UInt64
  deadlineUnixMs : Int64
deriving DecidableEq

structure RevokeRequest where
  name : String
  owner : String
  fencingToken : UInt64

structure LeaseInfo where
  name : String
  owner : String
  fencingToken : UInt64
  grantedUnixMs : Int64
  deadlineUnixMs : Int64
deriving DecidableEq

structure LeaseService where
  members : Engine
  raft : Option Bool
  defaultTTL : Duration

namespace LeaseService

def ttlFromMs (s : LeaseService) : Int64 → Duration → Duration :=
  Clusdr.ttlFromMs Leases.clampTTL s.defaultTTL

def owner (s : LeaseService) (h : String) : String :=
  if h ≠ "" then h else s.members.selfID

variable [Unicode]

/-- The checks all three handlers make first. -/
def route (s : LeaseService) (name : String) : Route :=
  match Leases.validName name with
  | .error e => .reject ⟨.invalidArgument, e⟩
  | .ok _ => if s.raft = some false then dialLeader s.members else .serve

def applyGrant (s : LeaseService) (f : Fsm) (sub : Submission) (name owner : String)
    (ttl : Duration) : Fsm × Except String (UInt64 × Bool) :=
  match s.raft, f.leases with
  | some _, _ => f.applyLeaseGrant sub name owner ttl
  | none, none => (f, .error "lease table not initialized")
  | none, some t =>
      let (t, res, _) := t.grant sub.appliedAt name owner (sub.now.add ttl) ttl
      ({ f with leases := some t }, res)

def applyRenew (s : LeaseService) (f : Fsm) (sub : Submission) (name owner : String)
    (token : UInt64) (ttl : Duration) : Fsm × Except String Time :=
  match s.raft, f.leases with
  | some _, _ => f.applyLeaseRenew sub name owner token ttl
  | none, none => (f, .error "lease table not initialized")
  | none, some t =>
      let deadline := sub.now.add ttl
      let (t, res) := t.renew name owner token deadline ttl
      ({ f with leases := some t }, res.map fun _ => deadline)

def applyRevoke (s : LeaseService) (f : Fsm) (sub : Submission) (name owner : String)
    (token : UInt64) : Fsm × Except String Unit :=
  match s.raft, f.leases with
  | some _, _ => f.applyLeaseRevoke sub name owner token
  | none, none => (f, .error "lease table not initialized")
  | none, some t =>
      let (t, res, _) := t.revoke name owner token
      ({ f with leases := some t }, res)

/-- The committing part of a served `Grant`. -/
def grant (s : LeaseService) (f : Fsm) (sub : Submission) (req : GrantRequest) :
    Fsm × Except Rpc.Status (UInt64 × Bool) :=
  let (f, res) := s.applyGrant f sub req.name (s.owner req.owner)
    (s.ttlFromMs req.ttlMs 0)
  (f, res.mapError fun e => ⟨.internal, "grant: " ++ e⟩)

/-- The answer of a served `Grant`, read from the table as it is then. -/
def grantResponse (s : LeaseService) (table : Option Leases.Table) (req : GrantRequest) :
    UInt64 × Bool → GrantResponse
  | (token, true) =>
      { granted := true, fencingToken := token, owner := s.owner req.owner,
        deadlineUnixMs :=
          ((table.bind fun t => t.get req.name).map fun rec => unixMs rec.deadline).getD 0 }
  | (_, false) =>
      match table.bind fun t => t.get req.name with
      | some held =>
          { granted := false, message := "held", fencingToken := held.token, owner := held.owner,
            deadlineUnixMs := unixMs held.deadline }
      | none => { granted := false, message := "held", fencingToken := 0, owner := "" }

def reuseTTL (s : LeaseService) (table : Option Leases.Table) (name : String) : Duration :=
  match table.bind fun t => t.get name with
  | some rec => if rec.ttl > 0 then rec.ttl else s.defaultTTL
  | none => s.defaultTTL

/-- A served `Renew`, which read the record when the table was `seen`. -/
def renew (s : LeaseService) (seen : Option Leases.Table) (f : Fsm) (sub : Submission)
    (req : LeaseRenewRequest) : Fsm × Except Rpc.Status LeaseRenewResponse :=
  let ttl := s.ttlFromMs req.ttlMs (s.reuseTTL seen req.name)
  let (f, res) := s.applyRenew f sub req.name (s.owner req.owner) req.fencingToken ttl
  match res with
  | .error e => (f, .error ⟨.failedPrecondition, e⟩)
  | .ok deadline => (f, .ok ⟨true, req.fencingToken, unixMs deadline⟩)

/-- A served `Revoke`. -/
def revoke (s : LeaseService) (f : Fsm) (sub : Submission) (req : RevokeRequest) :
    Fsm × Except Rpc.Status Unit :=
  let (f, res) := s.applyRevoke f sub req.name (s.owner req.owner) req.fencingToken
  (f, res.mapError fun e => ⟨.failedPrecondition, e⟩)

def leaseInfo (rec : Leases.Record) : LeaseInfo :=
  ⟨rec.name, rec.owner, rec.token, rec.grantedAt.unixMilli, unixMs rec.deadline⟩

def listLeases (table : Option Leases.Table) : List LeaseInfo :=
  (table.map fun t => t.list.map leaseInfo).getD []

end LeaseService

end Clusdr
