import Clusdr.Core.Fsm

/-!
Snapshots of the state machine. The document merges the member list, the two
tables and the two counters; empty lists, zero counters and empty texts are
left out and read back as what they were left out for. The loops that copy the
tables visit a Go map, so the order of the records is an argument.
-/

namespace Clusdr

open Go (Json Time)

def Locks.Record.encode (rec : Locks.Record) : Except Json.Error Json := do
  let acquiredAt ← Json.ofTime rec.acquiredAt
  let deadline ← Json.ofTime rec.deadline
  return .obj ([("Name", .str rec.name), ("Holder", .str rec.holder),
    ("Token", Json.ofUInt64 rec.token), ("AcquiredAt", acquiredAt), ("Deadline", deadline)] ++
    Json.omitEmpty (rec.ttl = 0) "TTL" (Json.ofInt64 rec.ttl))

def Locks.Record.decode (j : Json) : Except Json.Error Locks.Record := do
  return {
    name := ← j.read Json.toStr "" "Name"
    holder := ← j.read Json.toStr "" "Holder"
    token := ← j.read Json.toUInt64 0 "Token"
    acquiredAt := ← j.read Json.toTime Time.zero "AcquiredAt"
    deadline := ← j.read Json.toTime Time.zero "Deadline"
    ttl := ← j.read Json.toInt64 0 "TTL" }

def Leases.Record.encode (rec : Leases.Record) : Except Json.Error Json := do
  let grantedAt ← Json.ofTime rec.grantedAt
  let deadline ← Json.ofTime rec.deadline
  return .obj ([("Name", .str rec.name), ("Owner", .str rec.owner),
    ("Token", Json.ofUInt64 rec.token), ("GrantedAt", grantedAt), ("Deadline", deadline)] ++
    Json.omitEmpty (rec.ttl = 0) "TTL" (Json.ofInt64 rec.ttl))

def Leases.Record.decode (j : Json) : Except Json.Error Leases.Record := do
  return {
    name := ← j.read Json.toStr "" "Name"
    owner := ← j.read Json.toStr "" "Owner"
    token := ← j.read Json.toUInt64 0 "Token"
    grantedAt := ← j.read Json.toTime Time.zero "GrantedAt"
    deadline := ← j.read Json.toTime Time.zero "Deadline"
    ttl := ← j.read Json.toInt64 0 "TTL" }

theorem Locks.Record.decode_encode {rec : Locks.Record} {j : Json} (h : rec.encode = .ok j) :
    Locks.Record.decode j = .ok rec := by
  obtain ⟨acquiredAt, hacquired, h⟩ := Go.bind_eq_ok.mp h
  obtain ⟨deadline, hdeadline, h⟩ := Go.bind_eq_ok.mp h
  obtain rfl := Except.ok.inj h
  simp (disch := decide) [decode, pure, Except.pure, Json.toTime_ofTime hacquired,
    Json.toTime_ofTime hdeadline]

theorem Leases.Record.decode_encode {rec : Leases.Record} {j : Json} (h : rec.encode = .ok j) :
    Leases.Record.decode j = .ok rec := by
  obtain ⟨grantedAt, hgranted, h⟩ := Go.bind_eq_ok.mp h
  obtain ⟨deadline, hdeadline, h⟩ := Go.bind_eq_ok.mp h
  obtain rfl := Except.ok.inj h
  simp (disch := decide) [decode, pure, Except.pure, Json.toTime_ofTime hgranted,
    Json.toTime_ofTime hdeadline]

namespace Consensus

open Clusdr.Membership (Engine Member normalizeRole normalizeStatus)

structure MemberEntry where
  id : String
  address : String
  role : String
  status : String
deriving DecidableEq

namespace MemberEntry

def encode (m : MemberEntry) : Json :=
  .obj ([("id", .str m.id), ("address", .str m.address)] ++
    Json.omitEmpty (m.role = "") "role" (.str m.role) ++
    Json.omitEmpty (m.status = "") "status" (.str m.status))

def decode (j : Json) : Except Json.Error MemberEntry := do
  return {
    id := ← j.read Json.toStr "" "id"
    address := ← j.read Json.toStr "" "address"
    role := ← j.read Json.toStr "" "role"
    status := ← j.read Json.toStr "" "status" }

theorem decode_encode (m : MemberEntry) : decode m.encode = .ok m := by
  simp (disch := decide) [decode, encode, pure, Except.pure]

/-- The member slice is nil until its first `append`, and a nil slice is `null`. -/
def encodeList (members : List MemberEntry) : Json :=
  if members = [] then .null else .arr (members.map encode)

theorem decode_encodeList (members old : List MemberEntry) :
    Json.toList decode old (encodeList members) = .ok members := by
  unfold encodeList
  split
  · rename_i hnil
    rw [hnil]
    rfl
  · have law : ∀ m j, (.ok (encode m) : Except Json.Error Json) = .ok j → decode j = .ok m :=
      fun m j hm => Except.ok.inj hm ▸ m.decode_encode
    exact Json.mapM_decode law members _ List.mapM_pure

end MemberEntry

structure SnapshotPayload where
  members : List MemberEntry
  locks : List Locks.Record
  nextLockToken : UInt64
  leases : List Leases.Record
  nextLeaseToken : UInt64

namespace SnapshotPayload

/-- `json.Marshal` of the payload. -/
def encode (p : SnapshotPayload) : Except Json.Error Json := do
  let locks ← p.locks.mapM Locks.Record.encode
  let leases ← p.leases.mapM Leases.Record.encode
  return .obj ([("members", MemberEntry.encodeList p.members)] ++
    Json.omitEmpty p.locks.isEmpty "locks" (.arr locks) ++
    Json.omitEmpty (p.nextLockToken = 0) "next_lock_token" (Json.ofUInt64 p.nextLockToken) ++
    Json.omitEmpty p.leases.isEmpty "leases" (.arr leases) ++
    Json.omitEmpty (p.nextLeaseToken = 0) "next_lease_token" (Json.ofUInt64 p.nextLeaseToken))

def decode (j : Json) : Except Json.Error SnapshotPayload := do
  return {
    members := ← j.read (Json.toList MemberEntry.decode) [] "members"
    locks := ← j.read (Json.toList Locks.Record.decode) [] "locks"
    nextLockToken := ← j.read Json.toUInt64 0 "next_lock_token"
    leases := ← j.read (Json.toList Leases.Record.decode) [] "leases"
    nextLeaseToken := ← j.read Json.toUInt64 0 "next_lease_token" }

theorem decode_encode {p : SnapshotPayload} {j : Json} (h : p.encode = .ok j) :
    decode j = .ok p := by
  obtain ⟨locks, hlocks, h⟩ := Go.bind_eq_ok.mp h
  obtain ⟨leases, hleases, h⟩ := Go.bind_eq_ok.mp h
  obtain rfl := Except.ok.inj h
  have hlocks' : Json.toList Locks.Record.decode [] (.arr locks) = .ok p.locks :=
    Json.mapM_decode (fun _ _ => Locks.Record.decode_encode) p.locks locks hlocks
  have hleases' : Json.toList Leases.Record.decode [] (.arr leases) = .ok p.leases :=
    Json.mapM_decode (fun _ _ => Leases.Record.decode_encode) p.leases leases hleases
  simp (disch := decide) [decode, pure, Except.pure, MemberEntry.decode_encodeList, hlocks',
    hleases']

end SnapshotPayload

namespace Fsm

def memberEntry (m : Member) : MemberEntry :=
  ⟨m.id, m.address, normalizeRole m.role, normalizeStatus m.status⟩

/-- The payload `Snapshot` collects, its loops visiting the tables in the given
orders. -/
def snapshotPayload (f : Fsm) (visitedLocks : List Locks.Record)
    (visitedLeases : List Leases.Record) : SnapshotPayload :=
  let locks := f.locks.map fun t => t.snapshotCopy visitedLocks
  let leases := f.leases.map fun t => t.snapshotCopy visitedLeases
  { members := f.applier.membersList.map memberEntry
    locks := (locks.map Locks.Snapshot.locks).getD []
    nextLockToken := (locks.map Locks.Snapshot.next).getD 0
    leases := (leases.map Leases.Snapshot.leases).getD []
    nextLeaseToken := (leases.map Leases.Snapshot.next).getD 0 }

def snapshot (f : Fsm) (visitedLocks : List Locks.Record)
    (visitedLeases : List Leases.Record) : Except Json.Error Json :=
  (f.snapshotPayload visitedLocks visitedLeases).encode

/-- The member loop of `Restore`: a refused entry is logged and skipped. The
`i`-th entry reads the clock at `now i`. -/
def restoreMembers (e : Engine) (now : Nat → Time) (members : List MemberEntry) : Engine :=
  members.zipIdx.foldl (fun e (m, i) =>
    (e.restoreMember (now i) m.id m.address (normalizeRole m.role) m.status).1) e

def restorePayload (f : Fsm) (now : Nat → Time) (payload : SnapshotPayload) : Fsm where
  applier := restoreMembers f.applier now payload.members
  locks := f.locks.map fun t => t.restore ⟨payload.locks, payload.nextLockToken⟩
  leases := f.leases.map fun t => t.restore ⟨payload.leases, payload.nextLeaseToken⟩

def restore (f : Fsm) (now : Nat → Time) (document : Except Json.Error Json) :
    Fsm × Except Json.Error Unit :=
  match document.bind SnapshotPayload.decode with
  | .error e => (f, .error e)
  | .ok payload => (f.restorePayload now payload, .ok ())

/-- A snapshot document restores the payload it was made from. -/
theorem restore_document {payload : SnapshotPayload} {document : Json}
    (encoded : payload.encode = .ok document) (f : Fsm) (now : Nat → Time) :
    f.restore now (.ok document) = (f.restorePayload now payload, .ok ()) := by
  simp only [restore, Except.bind, SnapshotPayload.decode_encode encoded]

end Fsm

end Consensus
end Clusdr
