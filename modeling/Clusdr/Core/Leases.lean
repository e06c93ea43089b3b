import Mathlib.Data.String.Basic
import Clusdr.Core.Events
import Clusdr.Fencing.Register

/-!
The lease table. The same discipline as the lock table, without waiters and
with an event for every grant, revocation and expiry; the last component of a
method's result is what the `Emit` hook receives.
-/

namespace Clusdr.Leases

open Go (Json Time Duration Unicode)
open Events (Event)

def maxNameLen : Nat := 128

def maxLeases : Nat := 4096

def defaultTTL : Duration := 15 * Duration.second

def minTTL : Duration := Duration.millisecond

def maxTTL : Duration := 24 * Duration.hour

def clampTTL : Duration → Duration → Duration := clampTTLTo defaultTTL minTTL maxTTL

structure Record where
  name : String
  owner : String
  token : UInt64
  grantedAt : Time
  deadline : Time
  ttl : Duration
deriving DecidableEq

structure Table where
  leases : Go.Map String Record
  next : UInt64

/-- `New`. -/
def Table.new : Table := ⟨∅, 0⟩

structure Snapshot where
  leases : List Record
  next : UInt64

variable [Unicode]

def validName (name : String) : Except String Unit := checkName "lease name" maxNameLen name

namespace Table

def notHeld (name : String) : String := "lease " ++ Go.quote name ++ " is not held"

def tokenMismatch (name : String) : String :=
  "fencing token mismatch for lease " ++ Go.quote name

def emit (type : String) (rec : Record) : Event where
  type := type
  source := rec.name
  payload := .json (.obj [("owner", .str rec.owner), ("token", Json.ofUInt64 rec.token)])

def grant (t : Table) (now : Time) (name owner : String) (deadline : Time) (ttl : Duration) :
    Table × Except String (UInt64 × Bool) × List Event :=
  match validName name with
  | .error e => (t, .error e, [])
  | .ok _ =>
      if owner = "" then (t, .error "lease owner is required", [])
      else match t.leases.get name with
        | some held =>
            if held.owner = owner then
              let held := { held with deadline := deadline, ttl := ttl }
              ({ t with leases := t.leases.set name held }, .ok (held.token, true), [])
            else (t, .ok (held.token, false), [])
        | none =>
            if maxLeases ≤ t.leases.len then
              (t, .error ("too many leases (max " ++ toString maxLeases ++ ")"), [])
            else
              let next := t.next + 1
              let held := ⟨name, owner, next, now, deadline, ttl⟩
              ({ t with leases := t.leases.set name held, next := next },
                .ok (held.token, true), [emit Events.typeLeaseGranted held])

def renew (t : Table) (name owner : String) (token : UInt64) (deadline : Time)
    (ttl : Duration) : Table × Except String Unit :=
  match validName name with
  | .error e => (t, .error e)
  | .ok _ =>
      match t.leases.get name with
      | none => (t, .error (notHeld name))
      | some held =>
          if held.owner ≠ owner ∨ held.token ≠ token then (t, .error (tokenMismatch name))
          else
            let held := { held with deadline := deadline, ttl := ttl }
            ({ t with leases := t.leases.set name held }, .ok ())

def revoke (t : Table) (name owner : String) (token : UInt64) :
    Table × Except String Unit × List Event :=
  match validName name with
  | .error e => (t, .error e, [])
  | .ok _ =>
      match t.leases.get name with
      | none => (t, .error (notHeld name), [])
      | some held =>
          if held.owner ≠ owner ∨ held.token ≠ token then
            (t, .error (tokenMismatch name), [])
          else
            ({ t with leases := t.leases.delete name }, .ok (),
              [emit Events.typeLeaseRevoked held])

def expire (t : Table) (name : String) (token : UInt64) : Table × Bool × List Event :=
  match validName name with
  | .error _ => (t, false, [])
  | .ok _ =>
      match t.leases.get name with
      | none => (t, false, [])
      | some held =>
          if held.token ≠ token then (t, false, [])
          else
            ({ t with leases := t.leases.delete name }, true,
              [emit Events.typeLeaseExpired held])

def due (t : Table) (now : Time) : List Record :=
  t.leases.sorted.filter fun rec => !rec.deadline.isZero && !rec.deadline.after now

def get (t : Table) (name : String) : Option Record := t.leases.get name

def list (t : Table) : List Record := t.leases.sorted

/-- `SnapshotCopy`, whose loop visited the records in the order `visited`. -/
def snapshotCopy (t : Table) (visited : List Record) : Snapshot := ⟨visited, t.next⟩

def restore (_t : Table) (snap : Snapshot) : Table :=
  ⟨Go.Map.ofList Record.name snap.leases, snap.next⟩

end Table

/-- One tick of `RunExpirer` on the leader: the expiries it submits. -/
def expirerTick (tab : Table) (isLeader : Bool) (now : Time) : List (String × UInt64) :=
  if isLeader then (tab.due now).map fun rec => (rec.name, rec.token) else []

end Clusdr.Leases
