import Clusdr.Core.Locks
import Clusdr.Core.Leases
import Clusdr.Core.Membership

/-!
The Raft state machine: the commands of the log, what applying one does to the
member list and the two tables. Encoded commands are JSON documents; an entry
whose bytes are no document at all carries the decoder's error.
-/

namespace Clusdr.Consensus

open Go (Json Time Duration Unicode)
open Events (Event)
open Clusdr.Membership (Engine normalizeRole)

inductive CommandKind where
  | addMember
  | removeMember
  | dropMember
  | lockAcquire
  | lockRelease
  | lockRenew
  | lockExpire
  | leaseGrant
  | leaseRenew
  | leaseRevoke
  | leaseExpire
  | unknown (text : String)
deriving DecidableEq

namespace CommandKind

def text : CommandKind → String
  | addMember => "add_member"
  | removeMember => "remove_member"
  | dropMember => "drop_member"
  | lockAcquire => "lock_acquire"
  | lockRelease => "lock_release"
  | lockRenew => "lock_renew"
  | lockExpire => "lock_expire"
  | leaseGrant => "lease_grant"
  | leaseRenew => "lease_renew"
  | leaseRevoke => "lease_revoke"
  | leaseExpire => "lease_expire"
  | unknown text => text

def known : List CommandKind :=
  [addMember, removeMember, dropMember, lockAcquire, lockRelease, lockRenew, lockExpire,
    leaseGrant, leaseRenew, leaseRevoke, leaseExpire]

def ofText (text : String) : CommandKind :=
  (known.find? fun kind => kind.text = text).getD (unknown text)

theorem ofText_text {kind : CommandKind} (h : kind ∈ known) : ofText kind.text = kind := by
  cases kind with
  | unknown text => simp [known] at h
  | _ => decide

end CommandKind

structure Command where
  kind : CommandKind
  id : String := ""
  address : String := ""
  role : String := ""
  name : String := ""
  token : UInt64 := 0
  ttlMs : Int64 := 0
  deadlineUnixMs : Int64 := 0
deriving DecidableEq

namespace Command

def encode (c : Command) : Json :=
  .obj ([("kind", .str c.kind.text), ("id", .str c.id)] ++
    Json.omitEmpty (c.address = "") "address" (.str c.address) ++
    Json.omitEmpty (c.role = "") "role" (.str c.role) ++
    Json.omitEmpty (c.name = "") "name" (.str c.name) ++
    Json.omitEmpty (c.token = 0) "token" (Json.ofUInt64 c.token) ++
    Json.omitEmpty (c.ttlMs = 0) "ttl_ms" (Json.ofInt64 c.ttlMs) ++
    Json.omitEmpty (c.deadlineUnixMs = 0) "deadline_unix_ms" (Json.ofInt64 c.deadlineUnixMs))

def decode (j : Json) : Except Json.Error Command := do
  return {
    kind := CommandKind.ofText (← j.read Json.toStr "" "kind")
    id := ← j.read Json.toStr "" "id"
    address := ← j.read Json.toStr "" "address"
    role := ← j.read Json.toStr "" "role"
    name := ← j.read Json.toStr "" "name"
    token := ← j.read Json.toUInt64 0 "token"
    ttlMs := ← j.read Json.toInt64 0 "ttl_ms"
    deadlineUnixMs := ← j.read Json.toInt64 0 "deadline_unix_ms" }

/-- What the leader writes to the log is what every node reads from it. -/
theorem decode_encode {c : Command} (h : c.kind ∈ CommandKind.known) :
    decode c.encode = .ok c := by
  simp (disch := decide) [decode, encode, pure, Except.pure, CommandKind.ofText_text h]

-- An entry nobody here writes: keys in capitals, and a `null` that says nothing.
example : decode (.obj [("KIND", .str "add_member"), ("ID", .str "n2"), ("Id", .null)]) =
    .ok { kind := .addMember, id := "n2" } := by decide +kernel

def deadlineOf (cmd : Command) : Time :=
  if cmd.deadlineUnixMs = 0 then Time.zero else Time.ofUnixMilli cmd.deadlineUnixMs

def ttlOf (cmd : Command) : Duration :=
  if cmd.ttlMs ≤ 0 then 0 else Duration.ofMilliseconds cmd.ttlMs

end Command

structure LockResult where
  acquired : Bool := false
  token : UInt64 := 0
  deadlineUnixMs : Int64 := 0
  err : String := ""
deriving DecidableEq

/-- The result of a table method as a command returns it. -/
def LockResult.of {α : Type} (result : α → LockResult) : Except String α → LockResult
  | .ok a => result a
  | .error err => { err }

/-- What `FSM.Apply` returns: `nil`, an error, or the result of a table command. -/
inductive Response where
  | nil
  | decodeFailed (e : Json.Error)
  | joinFailed (text : String)
  | lock (result : LockResult)
deriving DecidableEq

/-- A Raft log entry: a command's data, or an entry of Raft's own. -/
inductive LogEntry where
  | command (data : Except Json.Error Json)
  | other

/-- The state machine of one node. A missing table disables its commands. -/
structure Fsm where
  applier : Engine
  locks : Option Locks.Table
  leases : Option Leases.Table

variable [Unicode]

namespace Fsm

def memberCommand (f : Fsm) (now : Time) (cmd : Command) : Fsm × Response × List Event :=
  match cmd.kind with
  | .addMember =>
      match f.applier.joinAs now cmd.id cmd.address (normalizeRole cmd.role) with
      | (e, .ok _, emitted) => ({ f with applier := e }, .nil, emitted)
      | (e, .error err, emitted) => ({ f with applier := e }, .joinFailed err, emitted)
  | .removeMember =>
      let (e, emitted) := f.applier.markDead cmd.id
      ({ f with applier := e }, .nil, emitted)
  | .dropMember =>
      let (e, emitted) := f.applier.drop cmd.id
      ({ f with applier := e }, .nil, emitted)
  | _ => (f, .nil, [])

/-- The lock commands of `Apply`, on the table they find. -/
def lockCommand (t : Locks.Table) (now : Time) (cmd : Command) :
    Locks.Table × LockResult × List Event :=
  match cmd.kind with
  | .lockAcquire =>
      match t.acquire now cmd.name cmd.id cmd.deadlineOf cmd.ttlOf with
      | (t, .ok (token, acquired)) =>
          (t, { acquired, token, deadlineUnixMs := cmd.deadlineUnixMs }, [])
      | (t, .error err) => (t, { err }, [])
  | .lockRelease =>
      match t.release cmd.name cmd.id cmd.token with
      | (t, .ok _) => (t, { acquired := false, token := cmd.token }, [])
      | (t, .error err) => (t, { err }, [])
  | .lockRenew =>
      match t.renew cmd.name cmd.id cmd.token cmd.deadlineOf cmd.ttlOf with
      | (t, .ok _) =>
          (t, { acquired := true, token := cmd.token, deadlineUnixMs := cmd.deadlineUnixMs }, [])
      | (t, .error err) => (t, { err }, [])
  | .lockExpire =>
      let (t, expired, emitted) := t.expire cmd.name cmd.token
      (t, { acquired := expired, token := cmd.token }, emitted)
  | _ => (t, {}, [])

def leaseCommand (t : Leases.Table) (now : Time) (cmd : Command) :
    Leases.Table × LockResult × List Event :=
  match cmd.kind with
  | .leaseGrant =>
      match t.grant now cmd.name cmd.id cmd.deadlineOf cmd.ttlOf with
      | (t, .ok (token, granted), emitted) =>
          (t, { acquired := granted, token, deadlineUnixMs := cmd.deadlineUnixMs }, emitted)
      | (t, .error err, emitted) => (t, { err }, emitted)
  | .leaseRenew =>
      match t.renew cmd.name cmd.id cmd.token cmd.deadlineOf cmd.ttlOf with
      | (t, .ok _) =>
          (t, { acquired := true, token := cmd.token, deadlineUnixMs := cmd.deadlineUnixMs }, [])
      | (t, .error err) => (t, { err }, [])
  | .leaseRevoke =>
      match t.revoke cmd.name cmd.id cmd.token with
      | (t, .ok _, emitted) => (t, { token := cmd.token }, emitted)
      | (t, .error err, emitted) => (t, { err }, emitted)
  | .leaseExpire =>
      let (t, expired, emitted) := t.expire cmd.name cmd.token
      (t, { acquired := expired, token := cmd.token }, emitted)
  | _ => (t, {}, [])

section Methods

variable {cmd : Command} (now : Time)

theorem lockCommand_acquire (t : Locks.Table) (kind : cmd.kind = .lockAcquire) :
    lockCommand t now cmd = ((t.acquire now cmd.name cmd.id cmd.deadlineOf cmd.ttlOf).1,
      .of (fun r => ⟨r.2, r.1, cmd.deadlineUnixMs, ""⟩)
        (t.acquire now cmd.name cmd.id cmd.deadlineOf cmd.ttlOf).2, []) := by
  simp only [lockCommand, kind]
  rcases t.acquire now cmd.name cmd.id cmd.deadlineOf cmd.ttlOf with ⟨t', _ | _⟩ <;> rfl

theorem lockCommand_release (t : Locks.Table) (kind : cmd.kind = .lockRelease) :
    lockCommand t now cmd = ((t.release cmd.name cmd.id cmd.token).1,
      .of (fun _ => { acquired := false, token := cmd.token })
        (t.release cmd.name cmd.id cmd.token).2, []) := by
  simp only [lockCommand, kind]
  rcases t.release cmd.name cmd.id cmd.token with ⟨t', _ | _⟩ <;> rfl

theorem lockCommand_renew (t : Locks.Table) (kind : cmd.kind = .lockRenew) :
    lockCommand t now cmd = ((t.renew cmd.name cmd.id cmd.token cmd.deadlineOf cmd.ttlOf).1,
      .of (fun _ => ⟨true, cmd.token, cmd.deadlineUnixMs, ""⟩)
        (t.renew cmd.name cmd.id cmd.token cmd.deadlineOf cmd.ttlOf).2, []) := by
  simp only [lockCommand, kind]
  rcases t.renew cmd.name cmd.id cmd.token cmd.deadlineOf cmd.ttlOf with ⟨t', _ | _⟩ <;> rfl

theorem leaseCommand_grant (t : Leases.Table) (kind : cmd.kind = .leaseGrant) :
    leaseCommand t now cmd = ((t.grant now cmd.name cmd.id cmd.deadlineOf cmd.ttlOf).1,
      .of (fun r => ⟨r.2, r.1, cmd.deadlineUnixMs, ""⟩)
        (t.grant now cmd.name cmd.id cmd.deadlineOf cmd.ttlOf).2.1,
      (t.grant now cmd.name cmd.id cmd.deadlineOf cmd.ttlOf).2.2) := by
  simp only [leaseCommand, kind]
  rcases t.grant now cmd.name cmd.id cmd.deadlineOf cmd.ttlOf with ⟨t', _ | _, emitted⟩ <;> rfl

theorem leaseCommand_renew (t : Leases.Table) (kind : cmd.kind = .leaseRenew) :
    leaseCommand t now cmd = ((t.renew cmd.name cmd.id cmd.token cmd.deadlineOf cmd.ttlOf).1,
      .of (fun _ => ⟨true, cmd.token, cmd.deadlineUnixMs, ""⟩)
        (t.renew cmd.name cmd.id cmd.token cmd.deadlineOf cmd.ttlOf).2, []) := by
  simp only [leaseCommand, kind]
  rcases t.renew cmd.name cmd.id cmd.token cmd.deadlineOf cmd.ttlOf with ⟨t', _ | _⟩ <;> rfl

theorem leaseCommand_revoke (t : Leases.Table) (kind : cmd.kind = .leaseRevoke) :
    leaseCommand t now cmd = ((t.revoke cmd.name cmd.id cmd.token).1,
      .of (fun _ => { token := cmd.token }) (t.revoke cmd.name cmd.id cmd.token).2.1,
      (t.revoke cmd.name cmd.id cmd.token).2.2) := by
  simp only [leaseCommand, kind]
  rcases t.revoke cmd.name cmd.id cmd.token with ⟨t', _ | _, emitted⟩ <;> rfl

end Methods

/-- `Apply` of a decoded command, at the node's own clock reading `now`. -/
def applyCommand (f : Fsm) (now : Time) (cmd : Command) : Fsm × Response × List Event :=
  match cmd.kind with
  | .addMember | .removeMember | .dropMember => f.memberCommand now cmd
  | .lockAcquire | .lockRelease | .lockRenew | .lockExpire =>
      match f.locks with
      | none => (f, .lock { err := "lock table not initialized" }, [])
      | some t =>
          let (t, result, emitted) := lockCommand t now cmd
          ({ f with locks := some t }, .lock result, emitted)
  | .leaseGrant | .leaseRenew | .leaseRevoke | .leaseExpire =>
      match f.leases with
      | none => (f, .lock { err := "lease table not initialized" }, [])
      | some t =>
          let (t, result, emitted) := leaseCommand t now cmd
          ({ f with leases := some t }, .lock result, emitted)
  | .unknown _ => (f, .nil, [])

def apply (f : Fsm) (now : Time) : LogEntry → Fsm × Response × List Event
  | .other => (f, .nil, [])
  | .command data =>
      match data.bind Command.decode with
      | .error e => (f, .decodeFailed e, [])
      | .ok cmd => f.applyCommand now cmd

end Fsm

end Clusdr.Consensus
