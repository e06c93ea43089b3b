import Clusdr.Core.Fsm

/-!
Committing commands through Raft. For a table command the leader reads its clock
once, stamps an absolute deadline into the command and waits for the log. Raft itself is
outside: a submission is committed and applied, or fails, and a failed one may
still have reached the log.
-/

namespace Clusdr

namespace Rpc

/-- gRPC status codes. -/
inductive Code where
  | ok
  | canceled
  | unknown
  | invalidArgument
  | deadlineExceeded
  | notFound
  | alreadyExists
  | permissionDenied
  | resourceExhausted
  | failedPrecondition
  | aborted
  | outOfRange
  | unimplemented
  | internal
  | unavailable
  | dataLoss
  | unauthenticated
deriving DecidableEq

structure Status where
  code : Code
  message : String
deriving DecidableEq

end Rpc

namespace Consensus

open Go (Time Duration Unicode)
open Clusdr.Membership (normalizeRole roleVoter)

/-- What `raft.Apply` makes of a submission. -/
inductive Outcome where
  | committed
  | failed (err : String) (logged : Bool)

/-- The leader's clock when it stamps the command and when it applies it, and
Raft's outcome. -/
structure Submission where
  now : Time
  appliedAt : Time
  outcome : Outcome

/-- What was submitted reached the log, and so the state machine. -/
def Outcome.logged : Outcome → Bool
  | .committed => true
  | .failed _ logged => logged

def Outcome.isCommitted : Outcome → Bool
  | .committed => true
  | .failed _ _ => false

theorem Outcome.logged_of_isCommitted {o : Outcome} (h : o.isCommitted) : o.logged := by
  cases o with
  | committed => rfl
  | failed err logged => cases h

def Submission.logged (s : Submission) : Bool := s.outcome.logged

variable [Unicode]

namespace Fsm

/-- `Node.applyLock`. -/
def applyLock (f : Fsm) (s : Submission) (cmd : Command) : Fsm × Except String LockResult :=
  let op := cmd.kind.text ++ " " ++ cmd.name
  let applied := f.apply s.appliedAt (.command (.ok cmd.encode))
  match s.outcome with
  | .failed err logged =>
      (if logged then applied.1 else f, .error ("raft apply " ++ op ++ ": " ++ err))
  | .committed =>
      match applied.2.1 with
      | .lock res =>
          if res.err ≠ "" then (applied.1, .error (op ++ ": " ++ res.err))
          else (applied.1, .ok res)
      | _ => (applied.1, .error ("raft apply " ++ op ++ ": unexpected result"))

/-- The member commands, whose response nobody reads. -/
def applyMember (f : Fsm) (s : Submission) (op : String) (cmd : Command) :
    Fsm × Except String Unit :=
  let applied := f.apply s.appliedAt (.command (.ok cmd.encode))
  match s.outcome with
  | .failed err logged =>
      (if logged then applied.1 else f,
        .error ("raft apply " ++ op ++ " " ++ cmd.id ++ ": " ++ err))
  | .committed => (applied.1, .ok ())

def applyAddMemberAs (f : Fsm) (s : Submission) (id addr role : String) :
    Fsm × Except String Unit :=
  f.applyMember s "add_member" { kind := .addMember, id, address := addr, role := normalizeRole role }

def applyAddMember (f : Fsm) (s : Submission) (id addr : String) : Fsm × Except String Unit :=
  f.applyAddMemberAs s id addr roleVoter

def applyRemoveMember (f : Fsm) (s : Submission) (id : String) : Fsm × Except String Unit :=
  f.applyMember s "mark_dead" { kind := .removeMember, id }

def applyDropMember (f : Fsm) (s : Submission) (id : String) : Fsm × Except String Unit :=
  f.applyMember s "drop_member" { kind := .dropMember, id }

/-- A grant or renewal command, with the clamped TTL and its deadline. -/
def stamped (kind : CommandKind) (now : Time) (name id : String) (token : UInt64)
    (ttl : Duration) : Command :=
  { kind, id, name, token, ttlMs := ttl.milliseconds,
    deadlineUnixMs := (now.add ttl).unixMilli }

def applyAcquire (f : Fsm) (s : Submission) (cmd : Command) :
    Fsm × Except String (UInt64 × Bool) :=
  let (f, res) := f.applyLock s cmd
  (f, res.map fun res => (res.token, res.acquired))

def applyRenew (f : Fsm) (s : Submission) (cmd : Command) (ttl : Duration) :
    Fsm × Except String Time :=
  let (f, res) := f.applyLock s cmd
  (f, res.map fun _ => s.now.add ttl)

def applyEnd (f : Fsm) (s : Submission) (cmd : Command) : Fsm × Except String Unit :=
  let (f, res) := f.applyLock s cmd
  (f, res.map fun _ => ())

def applyLockAcquire (f : Fsm) (s : Submission) (name holder : String) (ttl : Duration) :
    Fsm × Except String (UInt64 × Bool) :=
  f.applyAcquire s (stamped .lockAcquire s.now name holder 0 (Locks.clampTTL ttl 0))

def applyLockRelease (f : Fsm) (s : Submission) (name holder : String) (token : UInt64) :
    Fsm × Except String Unit :=
  f.applyEnd s { kind := .lockRelease, id := holder, name, token }

def applyLockRenew (f : Fsm) (s : Submission) (name holder : String) (token : UInt64)
    (ttl : Duration) : Fsm × Except String Time :=
  let ttl := Locks.clampTTL ttl 0
  f.applyRenew s (stamped .lockRenew s.now name holder token ttl) ttl

def applyLockExpire (f : Fsm) (s : Submission) (name : String) (token : UInt64) :
    Fsm × Except String Unit :=
  f.applyEnd s { kind := .lockExpire, name, token }

def applyLeaseGrant (f : Fsm) (s : Submission) (name owner : String) (ttl : Duration) :
    Fsm × Except String (UInt64 × Bool) :=
  f.applyAcquire s (stamped .leaseGrant s.now name owner 0 (Leases.clampTTL ttl 0))

def applyLeaseRenew (f : Fsm) (s : Submission) (name owner : String) (token : UInt64)
    (ttl : Duration) : Fsm × Except String Time :=
  let ttl := Leases.clampTTL ttl 0
  f.applyRenew s (stamped .leaseRenew s.now name owner token ttl) ttl

def applyLeaseRevoke (f : Fsm) (s : Submission) (name owner : String) (token : UInt64) :
    Fsm × Except String Unit :=
  f.applyEnd s { kind := .leaseRevoke, id := owner, name, token }

def applyLeaseExpire (f : Fsm) (s : Submission) (name : String) (token : UInt64) :
    Fsm × Except String Unit :=
  f.applyEnd s { kind := .leaseExpire, name, token }

end Fsm

end Consensus
end Clusdr
