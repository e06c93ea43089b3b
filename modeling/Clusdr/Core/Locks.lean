import Mathlib.Data.String.Basic
import Clusdr.Core.Events
import Clusdr.Fencing.Register

/-!
The lock table. Methods run under the table mutex, so each is one function on
the table; `time.Now()` is an argument. The condition variable is the number of
broadcasts made so far: a waiter that saw `n` sleeps until it exceeds `n`.
-/

namespace Clusdr.Locks

open Go (Json Time Duration Unicode)
open Events (Event)

def maxNameLen : Nat := 128

def maxLocks : Nat := 4096

def defaultTTL : Duration := 15 * Duration.second

def minTTL : Duration := Duration.millisecond

def maxTTL : Duration := 24 * Duration.hour

def clampTTL : Duration → Duration → Duration := clampTTLTo defaultTTL minTTL maxTTL

structure Record where
  name : String
  holder : String
  token : UInt64
  acquiredAt : Time
  deadline : Time
  ttl : Duration
deriving DecidableEq

structure Table where
  locks : Go.Map String Record
  next : UInt64
  wait : Nat

/-- `New`. -/
def Table.new : Table := ⟨∅, 0, 0⟩

structure Snapshot where
  locks : List Record
  next : UInt64

variable [Unicode]

def validName (name : String) : Except String Unit := checkName "lock name" maxNameLen name

namespace Table

def broadcast (t : Table) : Table := { t with wait := t.wait + 1 }

def notHeld (name : String) : String := "lock " ++ Go.quote name ++ " is not held"

def tokenMismatch (name : String) : String :=
  "fencing token mismatch for lock " ++ Go.quote name

def acquire (t : Table) (now : Time) (name holder : String) (deadline : Time) (ttl : Duration) :
    Table × Except String (UInt64 × Bool) :=
  match validName name with
  | .error e => (t, .error e)
  | .ok _ =>
      if holder = "" then (t, .error "lock holder is required")
      else match t.locks.get name with
        | some held =>
            if held.holder = holder then
              let held := { held with deadline := deadline, ttl := ttl }
              (broadcast { t with locks := t.locks.set name held }, .ok (held.token, true))
            else (t, .ok (held.token, false))
        | none =>
            if maxLocks ≤ t.locks.len then
              (t, .error ("too many locks (max " ++ toString maxLocks ++ ")"))
            else
              let next := t.next + 1
              let held := ⟨name, holder, next, now, deadline, ttl⟩
              (broadcast { t with locks := t.locks.set name held, next := next },
                .ok (held.token, true))

def release (t : Table) (name holder : String) (token : UInt64) : Table × Except String Unit :=
  match validName name with
  | .error e => (t, .error e)
  | .ok _ =>
      match t.locks.get name with
      | none => (t, .error (notHeld name))
      | some held =>
          if held.holder ≠ holder ∨ held.token ≠ token then (t, .error (tokenMismatch name))
          else (broadcast { t with locks := t.locks.delete name }, .ok ())

def renew (t : Table) (name holder : String) (token : UInt64) (deadline : Time)
    (ttl : Duration) : Table × Except String Unit :=
  match validName name with
  | .error e => (t, .error e)
  | .ok _ =>
      match t.locks.get name with
      | none => (t, .error (notHeld name))
      | some held =>
          if held.holder ≠ holder ∨ held.token ≠ token then (t, .error (tokenMismatch name))
          else
            let held := { held with deadline := deadline, ttl := ttl }
            ({ t with locks := t.locks.set name held }, .ok ())

def expiredEvent (held : Record) (name : String) : Event where
  type := Events.typeLockExpired
  source := name
  payload := .json (.obj [("holder", .str held.holder), ("token", Json.ofUInt64 held.token)])

/-- The third component is what the `Emit` hook receives. -/
def expire (t : Table) (name : String) (token : UInt64) : Table × Bool × List Event :=
  match validName name with
  | .error _ => (t, false, [])
  | .ok _ =>
      match t.locks.get name with
      | none => (t, false, [])
      | some held =>
          if held.token ≠ token then (t, false, [])
          else
            (broadcast { t with locks := t.locks.delete name }, true, [expiredEvent held name])

def due (t : Table) (now : Time) : List Record :=
  t.locks.sorted.filter fun rec => !rec.deadline.isZero && !rec.deadline.after now

def get (t : Table) (name : String) : Option Record := t.locks.get name

def list (t : Table) : List Record := t.locks.sorted

/-- `SnapshotCopy`, whose loop visited the records in the order `visited`. -/
def snapshotCopy (t : Table) (visited : List Record) : Snapshot := ⟨visited, t.next⟩

def restore (t : Table) (snap : Snapshot) : Table :=
  broadcast { t with locks := Go.Map.ofList Record.name snap.locks, next := snap.next }

end Table

/-- One tick of `RunExpirer` on the leader: the expiries it submits. -/
def expirerTick (tab : Table) (isLeader : Bool) (now : Time) : List (String × UInt64) :=
  if isLeader then (tab.due now).map fun rec => (rec.name, rec.token) else []

end Clusdr.Locks
