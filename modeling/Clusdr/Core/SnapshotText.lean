import Clusdr.Core.Snapshot
import Clusdr.Go.JsonTimes

/-!
The bytes of snapshots. A time of Go carries the zone it is shown in: the node's own
for a time the node made, another one for a time it restored. So the zones of the
times are arguments, as the order of the records is.
-/

namespace Clusdr

open Go (Duration Json Time)
open Go.Rfc3339 (stands)

/-- The zones of the two times of a record, in seconds from UTC. -/
structure Zones where
  since : Int
  deadline : Int
deriving DecidableEq

/-- The zones show whole minutes. -/
def Zones.Minutes (z : Zones) : Prop := z.since.tmod 60 = 0 ∧ z.deadline.tmod 60 = 0

/-- A record of one of the tables, up to the names of its fields. -/
structure Row where
  name : String
  owner : String
  token : UInt64
  since : Time
  deadline : Time
  ttl : Duration

namespace Row

def write (owner since : String) (z : Zones) (r : Row) : Except Json.Error Json := do
  let sinceText ← Json.timeIn z.since r.since
  let deadlineText ← Json.timeIn z.deadline r.deadline
  return .obj ([("Name", .str r.name), (owner, .str r.owner), ("Token", Json.ofUInt64 r.token),
    (since, sinceText), ("Deadline", deadlineText)] ++
    Json.omitEmpty (r.ttl = 0) "TTL" (Json.ofInt64 r.ttl))

def read (owner since : String) (j : Json) : Except Json.Error Row := do
  return {
    name := ← j.read Json.toStr "" "Name"
    owner := ← j.read Json.toStr "" owner
    token := ← j.read Json.toUInt64 0 "Token"
    since := ← j.read Json.readTime Time.zero since
    deadline := ← j.read Json.readTime Time.zero "Deadline"
    ttl := ← j.read Json.toInt64 0 "TTL" }

/-- A record as it is read back. -/
def moved (z : Zones) (r : Row) : Row :=
  { r with since := stands z.since r.since, deadline := stands z.deadline r.deadline }

theorem read_write {owner since : String} {z : Zones} {r : Row} {j : Json}
    (apart : ["Name", owner, "Token", since, "Deadline", "TTL"].Pairwise fun key k =>
      Json.names key k = false)
    (h : r.write owner since z = .ok j) : read owner since j = .ok (r.moved z) := by
  obtain ⟨sinceText, hsince, h⟩ := Go.bind_eq_ok.mp h
  obtain ⟨deadlineText, hdeadline, h⟩ := Go.bind_eq_ok.mp h
  obtain rfl := Except.ok.inj h
  simp only [List.pairwise_cons, List.forall_mem_cons] at apart
  obtain ⟨⟨hname, -, hnameSince, -⟩, ⟨howner, hownerSince, hownerDeadline, hownerTTL, -⟩,
    ⟨hsince', -⟩, ⟨hsinceDeadline, hsinceTTL, -⟩, -⟩ := apart
  have hownerSelf := Json.names_self owner
  have hsinceSelf := Json.names_self since
  simp (disch := first | assumption | decide | (rw [Json.names_comm]; assumption))
    [read, pure, Except.pure, moved, Json.readTime_timeIn hsince, Json.readTime_timeIn hdeadline]

theorem depth_write {owner since : String} {z : Zones} {r : Row} {j : Json}
    (h : r.write owner since z = .ok j) : j.depth ≤ 1 := by
  obtain ⟨sinceText, hsince, h⟩ := Go.bind_eq_ok.mp h
  obtain ⟨deadlineText, hdeadline, h⟩ := Go.bind_eq_ok.mp h
  obtain rfl := Except.ok.inj h
  have hfields : ∀ f ∈ [("Name", Json.str r.name), (owner, .str r.owner),
      ("Token", Json.ofUInt64 r.token), (since, sinceText), ("Deadline", deadlineText)] ++
      Json.omitEmpty (r.ttl = 0) "TTL" (Json.ofInt64 r.ttl), f.2.depth ≤ 0 := by
    intro f hf
    rcases List.mem_append.mp hf with hf | hf
    · simp only [List.mem_cons, List.not_mem_nil, or_false] at hf
      rcases hf with rfl | rfl | rfl | rfl | rfl
      · exact Nat.le_of_eq (Json.depth_str _)
      · exact Nat.le_of_eq (Json.depth_str _)
      · exact Nat.le_of_eq (Json.depth_num _)
      · exact Nat.le_of_eq (Json.depth_timeIn hsince)
      · exact Nat.le_of_eq (Json.depth_timeIn hdeadline)
    · rw [Json.eq_of_mem_omitEmpty hf]
      exact Nat.le_of_eq (Json.depth_num _)
  rw [Json.depth]
  exact Nat.succ_le_succ (Json.depthMembers_le hfields)

end Row

def Locks.Record.marshal (z : Zones) (rec : Locks.Record) : Except Json.Error Json :=
  Row.write "Holder" "AcquiredAt" z
    ⟨rec.name, rec.holder, rec.token, rec.acquiredAt, rec.deadline, rec.ttl⟩

def Locks.Record.unmarshal (j : Json) : Except Json.Error Locks.Record :=
  (Row.read "Holder" "AcquiredAt" j).map fun r =>
    ⟨r.name, r.owner, r.token, r.since, r.deadline, r.ttl⟩

def Locks.Record.moved (z : Zones) (rec : Locks.Record) : Locks.Record :=
  { rec with
    acquiredAt := stands z.since rec.acquiredAt
    deadline := stands z.deadline rec.deadline }

theorem Locks.Record.unmarshal_marshal {z : Zones} {rec : Locks.Record} {j : Json}
    (h : rec.marshal z = .ok j) : Locks.Record.unmarshal j = .ok (rec.moved z) := by
  rw [unmarshal, Row.read_write (by decide) h]
  rfl

def Leases.Record.marshal (z : Zones) (rec : Leases.Record) : Except Json.Error Json :=
  Row.write "Owner" "GrantedAt" z
    ⟨rec.name, rec.owner, rec.token, rec.grantedAt, rec.deadline, rec.ttl⟩

def Leases.Record.unmarshal (j : Json) : Except Json.Error Leases.Record :=
  (Row.read "Owner" "GrantedAt" j).map fun r =>
    ⟨r.name, r.owner, r.token, r.since, r.deadline, r.ttl⟩

def Leases.Record.moved (z : Zones) (rec : Leases.Record) : Leases.Record :=
  { rec with
    grantedAt := stands z.since rec.grantedAt
    deadline := stands z.deadline rec.deadline }

theorem Leases.Record.unmarshal_marshal {z : Zones} {rec : Leases.Record} {j : Json}
    (h : rec.marshal z = .ok j) : Leases.Record.unmarshal j = .ok (rec.moved z) := by
  rw [unmarshal, Row.read_write (by decide) h]
  rfl

namespace Consensus

/-- The zones of the records of the two tables, by name. -/
structure SnapshotZones where
  locks : String → Zones
  leases : String → Zones

structure SnapshotZones.Minutes (z : SnapshotZones) : Prop where
  locks : ∀ name, (z.locks name).Minutes
  leases : ∀ name, (z.leases name).Minutes

theorem MemberEntry.depth_encode (m : MemberEntry) : m.encode.depth ≤ 1 := by
  rw [encode, Json.depth]
  refine Nat.succ_le_succ (Json.depthMembers_le fun f hf => ?_)
  simp only [List.mem_append, List.mem_cons, List.not_mem_nil, or_false] at hf
  rcases hf with ((rfl | rfl) | hf) | hf
  · exact Nat.le_of_eq (Json.depth_str _)
  · exact Nat.le_of_eq (Json.depth_str _)
  · rw [Json.eq_of_mem_omitEmpty hf]
    exact Nat.le_of_eq (Json.depth_str _)
  · rw [Json.eq_of_mem_omitEmpty hf]
    exact Nat.le_of_eq (Json.depth_str _)

namespace SnapshotPayload

/-- The document of a payload, its times as they are shown in these zones. -/
def toDocument (z : SnapshotZones) (p : SnapshotPayload) : Except Json.Error Json := do
  let locks ← p.locks.mapM fun rec => rec.marshal (z.locks rec.name)
  let leases ← p.leases.mapM fun rec => rec.marshal (z.leases rec.name)
  return .obj ([("members", MemberEntry.encodeList p.members)] ++
    Json.omitEmpty p.locks.isEmpty "locks" (.arr locks) ++
    Json.omitEmpty (p.nextLockToken = 0) "next_lock_token" (Json.ofUInt64 p.nextLockToken) ++
    Json.omitEmpty p.leases.isEmpty "leases" (.arr leases) ++
    Json.omitEmpty (p.nextLeaseToken = 0) "next_lease_token" (Json.ofUInt64 p.nextLeaseToken))

def ofDocument (j : Json) : Except Json.Error SnapshotPayload := do
  return {
    members := ← j.read (Json.toList MemberEntry.decode) [] "members"
    locks := ← j.read (Json.toList Locks.Record.unmarshal) [] "locks"
    nextLockToken := ← j.read Json.toUInt64 0 "next_lock_token"
    leases := ← j.read (Json.toList Leases.Record.unmarshal) [] "leases"
    nextLeaseToken := ← j.read Json.toUInt64 0 "next_lease_token" }

/-- `json.Marshal` of the payload. -/
def marshal (z : SnapshotZones) (p : SnapshotPayload) : Except Json.Error (List Char) := do
  match (← p.toDocument z).text with
  | some data => .ok data
  | none => .error .timeRange

/-- `json.NewDecoder(rc).Decode(&payload)`. -/
def unmarshal (data : List Char) : Except Json.Error SnapshotPayload :=
  Json.decodeFirst data >>= ofDocument

/-- A payload as it is read back. -/
def moved (z : SnapshotZones) (p : SnapshotPayload) : SnapshotPayload :=
  { p with
    locks := p.locks.map fun rec => rec.moved (z.locks rec.name)
    leases := p.leases.map fun rec => rec.moved (z.leases rec.name) }

theorem moved_minutes {z : SnapshotZones} (minutes : z.Minutes) (p : SnapshotPayload) :
    p.moved z = p := by
  have hlocks : ∀ rec : Locks.Record, rec.moved (z.locks rec.name) = rec := fun rec => by
    obtain ⟨hsince, hdeadline⟩ := minutes.locks rec.name
    simp only [Locks.Record.moved, Go.Rfc3339.stands_minutes hsince,
      Go.Rfc3339.stands_minutes hdeadline]
  have hleases : ∀ rec : Leases.Record, rec.moved (z.leases rec.name) = rec := fun rec => by
    obtain ⟨hsince, hdeadline⟩ := minutes.leases rec.name
    simp only [Leases.Record.moved, Go.Rfc3339.stands_minutes hsince,
      Go.Rfc3339.stands_minutes hdeadline]
  simp only [moved, hlocks, hleases, List.map_id']

theorem ofDocument_toDocument {z : SnapshotZones} {p : SnapshotPayload} {j : Json}
    (h : p.toDocument z = .ok j) : ofDocument j = .ok (p.moved z) := by
  obtain ⟨locks, hlocks, h⟩ := Go.bind_eq_ok.mp h
  obtain ⟨leases, hleases, h⟩ := Go.bind_eq_ok.mp h
  obtain rfl := Except.ok.inj h
  have hlocks' : Json.toList Locks.Record.unmarshal [] (.arr locks) =
      .ok (p.locks.map fun rec => rec.moved (z.locks rec.name)) :=
    Json.mapM_reads (fun _ _ => Locks.Record.unmarshal_marshal) hlocks
  have hleases' : Json.toList Leases.Record.unmarshal [] (.arr leases) =
      .ok (p.leases.map fun rec => rec.moved (z.leases rec.name)) :=
    Json.mapM_reads (fun _ _ => Leases.Record.unmarshal_marshal) hleases
  simp (disch := decide) [ofDocument, pure, Except.pure, MemberEntry.decode_encodeList, hlocks',
    hleases', moved]

theorem depth_toDocument {z : SnapshotZones} {p : SnapshotPayload} {j : Json}
    (h : p.toDocument z = .ok j) : j.depth ≤ 3 := by
  obtain ⟨locks, hlocks, h⟩ := Go.bind_eq_ok.mp h
  obtain ⟨leases, hleases, h⟩ := Go.bind_eq_ok.mp h
  obtain rfl := Except.ok.inj h
  have harr : ∀ {xs : List Json}, (∀ x ∈ xs, x.depth ≤ 1) → (Json.arr xs).depth ≤ 2 := by
    intro xs hxs
    rw [Json.depth]
    exact Nat.succ_le_succ (Json.depthElements_le hxs)
  have hnum : ∀ n : Int, (Json.num n).depth ≤ 2 := fun n => by simp
  have hmembers : (MemberEntry.encodeList p.members).depth ≤ 2 := by
    unfold MemberEntry.encodeList
    split
    · rw [Json.depth_null]
      exact Nat.zero_le 2
    · refine harr fun x hx => ?_
      obtain ⟨m, -, rfl⟩ := List.mem_map.mp hx
      exact m.depth_encode
  rw [Json.depth]
  refine Nat.succ_le_succ (Json.depthMembers_le fun f hf => ?_)
  simp only [List.mem_append, List.mem_singleton] at hf
  rcases hf with (((rfl | hf) | hf) | hf) | hf
  · exact hmembers
  · rw [Json.eq_of_mem_omitEmpty hf]
    exact harr (Json.forall_mem_mapM (fun _ _ => Row.depth_write) hlocks)
  · rw [Json.eq_of_mem_omitEmpty hf]
    exact hnum _
  · rw [Json.eq_of_mem_omitEmpty hf]
    exact harr (Json.forall_mem_mapM (fun _ _ => Row.depth_write) hleases)
  · rw [Json.eq_of_mem_omitEmpty hf]
    exact hnum _

/-- What `Snapshot` wrote, `Restore` reads, its times moved by the seconds of their zones. -/
theorem unmarshal_marshal {z : SnapshotZones} {p : SnapshotPayload} {data : List Char}
    (h : p.marshal z = .ok data) : unmarshal data = .ok (p.moved z) := by
  obtain ⟨j, hj, h⟩ := Go.bind_eq_ok.mp h
  cases htext : j.text with
  | none =>
      rw [htext] at h
      cases h
  | some t =>
      rw [htext] at h
      obtain rfl := Except.ok.inj h
      have hdepth : j.depth ≤ Json.maxNestingDepth :=
        Nat.le_trans (depth_toDocument hj) (by decide)
      rw [unmarshal, Json.decodeFirst_text htext hdepth, Json.ok_bind, ofDocument_toDocument hj]

end SnapshotPayload

namespace Fsm

/-- `FSM.Snapshot`, up to the bytes that `Persist` writes. -/
def snapshotData (f : Fsm) (z : SnapshotZones) (visitedLocks : List Locks.Record)
    (visitedLeases : List Leases.Record) : Except Json.Error (List Char) :=
  (f.snapshotPayload visitedLocks visitedLeases).marshal z

/-- `FSM.Restore` of these bytes. -/
def restoreData (f : Fsm) (now : Nat → Time) (data : List Char) : Fsm × Except Json.Error Unit :=
  match SnapshotPayload.unmarshal data with
  | .error e => (f, .error e)
  | .ok payload => (f.restorePayload now payload, .ok ())

theorem restoreData_snapshotData {f : Fsm} {z : SnapshotZones} {visitedLocks : List Locks.Record}
    {visitedLeases : List Leases.Record} {data : List Char}
    (taken : f.snapshotData z visitedLocks visitedLeases = .ok data) (g : Fsm) (now : Nat → Time) :
    g.restoreData now data =
      (g.restorePayload now ((f.snapshotPayload visitedLocks visitedLeases).moved z), .ok ()) := by
  rw [restoreData, SnapshotPayload.unmarshal_marshal taken]

end Fsm
end Consensus
end Clusdr
