import Clusdr.Core.Snapshot
import Clusdr.Metatheory.MemberEngine

/-!
Restoring the member half of a snapshot. The loop upserts the listed members one
by one: ids of the snapshot take its entries, other ids keep what they had. The
list is the snapshot's exactly when no other id was listed before.
-/

namespace Clusdr.Consensus

open Go (Json Time)
open Clusdr.Membership (Engine Member normalizeRole normalizeRole_idem normalizeStatus
  normalizeStatus_idem)

/-- A member as the snapshot lists it. -/
def entryOf (m : Member) : MemberEntry := ⟨m.id, m.address, m.role, m.status⟩

/-- The member list up to join times and the leader mark, by id. -/
def entries (e : Engine) : Go.Map String MemberEntry := e.members.mapValues fun _ m => entryOf m

theorem keyed_mapEntries {e : Engine} (keyed : e.members.Keyed Member.id) {f : Member → MemberEntry}
    (hf : ∀ m, (f m).id = m.id) :
    (e.members.mapValues fun _ m => f m).Keyed MemberEntry.id := by
  intro id p hp
  rw [Go.Map.get_mapValues] at hp
  obtain ⟨m, hm, rfl⟩ := Option.map_eq_some_iff.mp hp
  rw [hf, keyed id m hm]

/-- Entries a snapshot can contain: roles and statuses are normalized. -/
def Normalized (p : MemberEntry) : Prop :=
  normalizeRole p.role = p.role ∧ normalizeStatus p.status = p.status

theorem normalized_memberEntry (m : Member) : Normalized (Fsm.memberEntry m) :=
  ⟨normalizeRole_idem m.role, normalizeStatus_idem m.status⟩

theorem entries_restoreMember (e : Engine) (now : Time) {p : MemberEntry} (norm : Normalized p)
    (id : String) :
    (entries (e.restoreMember now p.id p.address (normalizeRole p.role) p.status).1).get id =
      if id = p.id ∧ p.id ≠ "" then some p else (entries e).get id := by
  unfold Engine.restoreMember
  by_cases hempty : p.id = ""
  · simp [hempty]
  · by_cases hid : id = p.id
    · subst hid
      simp [entries, Go.Map.mapValues_set, hempty, entryOf, norm.1, norm.2]
    · simp [entries, Go.Map.mapValues_set, Go.Map.get_set, hempty, hid]

theorem entries_foldl (now : Nat → Time) (members : List MemberEntry) (start : Nat) (e : Engine)
    (norm : ∀ p ∈ members, Normalized p) (nodup : (members.map MemberEntry.id).Nodup)
    (id : String) :
    (entries ((members.zipIdx start).foldl (fun e (m, i) =>
        (e.restoreMember (now i) m.id m.address (normalizeRole m.role) m.status).1) e)).get id =
      if id = "" then (entries e).get id
      else ((members.find? fun p => p.id = id).or ((entries e).get id)) := by
  induction members generalizing e start with
  | nil => simp
  | cons p members ih =>
      obtain ⟨hp, hrest⟩ := List.nodup_cons.mp nodup
      rw [List.zipIdx_cons, List.foldl_cons,
        ih (start + 1) _ (fun q hq => norm q (List.mem_cons_of_mem p hq)) hrest,
        entries_restoreMember e (now start) (norm p List.mem_cons_self)]
      by_cases hempty : id = ""
      · simp [hempty]
      · by_cases hid : p.id = id
        · subst hid
          have hnone : members.find? (fun q => q.id = p.id) = none := by
            rw [List.find?_eq_none]
            intro q hq hqp
            exact hp (List.mem_map.mpr ⟨q, hq, by simpa using hqp⟩)
          simp [hempty, hnone]
        · simp [hempty, hid, Ne.symm hid]

/-- The member list after the loop: the snapshot's entry for each of its ids, the
old entry for every other id. The engine refuses the empty id. -/
theorem entries_restoreMembers {source : Go.Map String MemberEntry}
    (keyed : source.Keyed MemberEntry.id) (norm : ∀ p ∈ source.sorted, Normalized p)
    (e : Engine) (now : Nat → Time) (id : String) :
    (entries (Fsm.restoreMembers e now source.sorted)).get id =
      if id = "" then (entries e).get id else (source.get id).or ((entries e).get id) := by
  have nodup : (source.sorted.map MemberEntry.id).Nodup := by
    rw [Go.Map.map_key_sorted keyed]
    exact Finset.sort_nodup _ _
  rw [← Go.Map.find?_sorted keyed]
  exact entries_foldl now source.sorted 0 e norm nodup id

theorem keyed_restoreMembers {e : Engine} (keyed : e.members.Keyed Member.id) (now : Nat → Time)
    (members : List MemberEntry) :
    (Fsm.restoreMembers e now members).members.Keyed Member.id := by
  unfold Fsm.restoreMembers
  induction members.zipIdx generalizing e with
  | nil => exact keyed
  | cons p ps ih =>
      refine ih ?_
      simp only [Engine.restoreMember]
      split
      · exact keyed
      · exact keyed.set rfl

/-- Every id listed before the restore is listed in the snapshot, and a snapshot
entry for the empty id, which the engine refuses, is listed already. -/
structure RestoreReplaces (e : Engine) (payload : List MemberEntry) : Prop where
  covered : ∀ m ∈ e.membersList, ∃ p ∈ payload, p.id = m.id
  refused : ∀ p ∈ payload, p.id = "" → p ∈ e.membersList.map entryOf

/-- The ids a snapshot of `source` lists, with their entries. -/
def snapshotEntries (source : Engine) : Go.Map String MemberEntry :=
  source.members.mapValues fun _ m => Fsm.memberEntry m

theorem sorted_snapshotEntries (source : Engine) :
    (snapshotEntries source).sorted = source.membersList.map Fsm.memberEntry :=
  Go.Map.sorted_mapValues _ _ _ fun _ _ _ => rfl

theorem sorted_entries (e : Engine) : (entries e).sorted = e.membersList.map entryOf :=
  Go.Map.sorted_mapValues _ _ _ fun _ _ _ => rfl

theorem restoreReplaces_iff {e source : Engine} (he : e.members.Keyed Member.id)
    (hsource : source.members.Keyed Member.id) :
    RestoreReplaces e (source.membersList.map Fsm.memberEntry) ↔
      (∀ id, (snapshotEntries source).get id = none → (entries e).get id = none) ∧
        (entries e).get "" = (snapshotEntries source).get "" := by
  have keyed : (entries e).Keyed MemberEntry.id := keyed_mapEntries he fun _ => rfl
  have keyed' : (snapshotEntries source).Keyed MemberEntry.id :=
    keyed_mapEntries hsource fun _ => rfl
  have hlisted : ∀ m ∈ e.membersList, (entries e).get m.id = some (entryOf m) := fun m hm =>
    (Go.Map.get_iff_mem_sorted keyed _ _).mpr
      ⟨sorted_entries e ▸ List.mem_map_of_mem hm, rfl⟩
  constructor
  · intro h
    have hcovered : ∀ id, (snapshotEntries source).get id = none → (entries e).get id = none := by
      intro id hnone
      cases hid : (entries e).get id with
      | none => rfl
      | some q =>
          obtain ⟨hq, hqid⟩ := (Go.Map.get_iff_mem_sorted keyed id q).mp hid
          rw [sorted_entries] at hq
          obtain ⟨m, hm, rfl⟩ := List.mem_map.mp hq
          obtain ⟨p, hp, hpid⟩ := h.covered m hm
          rw [← sorted_snapshotEntries] at hp
          rw [(Go.Map.get_iff_mem_sorted keyed' id p).mpr ⟨hp, hpid.trans hqid⟩] at hnone
          cases hnone
    refine ⟨hcovered, ?_⟩
    cases hempty : (snapshotEntries source).get "" with
    | none => exact hcovered "" hempty
    | some p =>
        obtain ⟨hp, hpid⟩ := (Go.Map.get_iff_mem_sorted keyed' "" p).mp hempty
        rw [sorted_snapshotEntries] at hp
        have hmem := h.refused p hp hpid
        rw [← sorted_entries] at hmem
        exact (Go.Map.get_iff_mem_sorted keyed "" p).mpr ⟨hmem, hpid⟩
  · rintro ⟨hcovered, hempty⟩
    refine ⟨?_, ?_⟩
    · intro m hm
      cases hid : (snapshotEntries source).get m.id with
      | none =>
          have hnone := hcovered m.id hid
          rw [hlisted m hm] at hnone
          cases hnone
      | some p =>
          obtain ⟨hp, hpid⟩ := (Go.Map.get_iff_mem_sorted keyed' m.id p).mp hid
          rw [sorted_snapshotEntries] at hp
          exact ⟨p, hp, hpid⟩
    · intro p hp hpid
      rw [← sorted_snapshotEntries] at hp
      rw [← sorted_entries]
      have hget := (Go.Map.get_iff_mem_sorted keyed' "" p).mpr ⟨hp, hpid⟩
      exact ((Go.Map.get_iff_mem_sorted keyed "" p).mp (hempty.trans hget)).1

theorem restoreMembers_eq_iff {e source : Engine} (he : e.members.Keyed Member.id)
    (hsource : source.members.Keyed Member.id) (now : Nat → Time) :
    (Fsm.restoreMembers e now (source.membersList.map Fsm.memberEntry)).membersList.map entryOf =
        source.membersList.map Fsm.memberEntry ↔
      RestoreReplaces e (source.membersList.map Fsm.memberEntry) := by
  have keyed : (snapshotEntries source).Keyed MemberEntry.id :=
    keyed_mapEntries hsource fun _ => rfl
  have norm : ∀ p ∈ (snapshotEntries source).sorted, Normalized p := by
    intro p hp
    rw [sorted_snapshotEntries] at hp
    obtain ⟨m, -, rfl⟩ := List.mem_map.mp hp
    exact normalized_memberEntry m
  have keyedAfter : (entries
      (Fsm.restoreMembers e now (snapshotEntries source).sorted)).Keyed MemberEntry.id :=
    keyed_mapEntries (keyed_restoreMembers he now _) fun _ => rfl
  rw [restoreReplaces_iff he hsource, ← sorted_snapshotEntries, ← sorted_entries,
    Go.Map.sorted_inj keyedAfter keyed]
  constructor
  · intro h
    have hget : ∀ id, (if id = "" then (entries e).get id
        else ((snapshotEntries source).get id).or ((entries e).get id)) =
          (snapshotEntries source).get id := by
      intro id
      rw [← entries_restoreMembers keyed norm e now id, h]
    refine ⟨fun id hnone => ?_, by simpa using hget ""⟩
    have hid := hget id
    rw [hnone, Option.none_or, ite_self] at hid
    exact hid
  · rintro ⟨hcovered, hempty⟩
    apply Go.Map.ext
    intro id
    rw [entries_restoreMembers keyed norm e now id]
    split
    · rename_i hid
      rw [hid, hempty]
    · cases hget : (snapshotEntries source).get id with
      | none => exact (Option.none_or).trans (hcovered id hget)
      | some p => exact Option.some_or

namespace Fsm

/-- The members after a restore are the snapshot's exactly when the restore
replaces them: any engine before it, any state machine the snapshot is from. -/
theorem restored_members_eq_payload_iff (e : Engine) (locks : Option Locks.Table)
    (leases : Option Leases.Table) (source : Fsm) (now : Nat → Time) (vl : List Locks.Record)
    (vs : List Leases.Record) (document : Json) (reachable : e.Reachable)
    (sourceReachable : source.applier.Reachable)
    (taken : source.snapshot vl vs = .ok document) :
    (restore ⟨e, locks, leases⟩ now (.ok document)).2 = .ok () ∧
      ((restore ⟨e, locks, leases⟩ now (.ok document)).1.applier.membersList.map entryOf =
          (source.snapshotPayload vl vs).members ↔
        RestoreReplaces e (source.snapshotPayload vl vs).members) := by
  rw [restore_document taken]
  exact ⟨rfl, restoreMembers_eq_iff reachable.valid.keyed sourceReachable.valid.keyed now⟩

/-- A leader that saw `n2` and `n3` join and `n3` leave. -/
def leaderFsm : Fsm :=
  ⟨Engine.run (.new 0 "n1" "") [.joinAs 0 "n2" "" "", .joinAs 0 "n3" "" "", .leave "n3"],
    some .new, some .new⟩

/-- A follower that fell behind before `n3` left. -/
def lagging : Engine :=
  Engine.run (.new 0 "n2" "") [.joinAs 0 "n1" "" "", .joinAs 0 "n3" "" ""]

theorem reachable_leaderFsm : leaderFsm.applier.Reachable := ⟨0, "n1", "", _, rfl⟩

theorem member_of_leaderFsm {p : MemberEntry} (h : p ∈ (leaderFsm.snapshotPayload [] []).members) :
    ((leaderFsm.applier.members.get p.id).map memberEntry) = some p := by
  obtain ⟨m, hm, rfl⟩ := List.mem_map.mp h
  obtain ⟨k, hk⟩ := (Go.Map.mem_sorted _ m).mp hm
  have hid : m.id = k := reachable_leaderFsm.valid.keyed k m hk
  change Option.map memberEntry (leaderFsm.applier.members.get m.id) = _
  rw [hid, hk, Option.map_some]

/-- The follower restores a snapshot without `n3` and still lists it. -/
theorem dropped_member_survives_restore :
    ∃ document, leaderFsm.snapshot [] [] = .ok document ∧ lagging.Reachable ∧
      leaderFsm.applier.Reachable ∧
      (restore ⟨lagging, some .new, some .new⟩ (fun _ => 0)
          (.ok document)).1.applier.membersList.map entryOf ≠
        (leaderFsm.snapshotPayload [] []).members := by
  obtain ⟨document, taken⟩ : ∃ document, leaderFsm.snapshot [] [] = .ok document := ⟨_, rfl⟩
  have reachable : lagging.Reachable := ⟨0, "n2", "", _, rfl⟩
  refine ⟨document, taken, reachable, reachable_leaderFsm, fun h => ?_⟩
  rw [restore_document taken] at h
  have hreplaces := (restoreMembers_eq_iff reachable.valid.keyed
    reachable_leaderFsm.valid.keyed fun _ => 0).mp h
  have listed : (⟨"n3", "", "alive", false, "voter", 0⟩ : Member) ∈ lagging.membersList :=
    (Go.Map.mem_sorted _ _).mpr ⟨"n3", by decide⟩
  obtain ⟨p, hp, hpid⟩ := hreplaces.covered _ listed
  have hget := member_of_leaderFsm hp
  rw [hpid] at hget
  exact absurd hget (by simp [show leaderFsm.applier.members.get "n3" = none by decide])

/-- A node that lists only itself, and is in the snapshot, takes the snapshot's list. -/
theorem restored_members_eq_payload_joining :
    ∃ document, leaderFsm.snapshot [] [] = .ok document ∧
      (restore ⟨.new 0 "n2" "", some .new, some .new⟩ (fun _ => 0)
          (.ok document)).1.applier.membersList.map entryOf =
        (leaderFsm.snapshotPayload [] []).members := by
  obtain ⟨document, taken⟩ : ∃ document, leaderFsm.snapshot [] [] = .ok document := ⟨_, rfl⟩
  refine ⟨document, taken, ((restored_members_eq_payload_iff (.new 0 "n2" "") (some .new)
    (some .new) leaderFsm (fun _ => 0) [] [] document ⟨0, "n2", "", [], rfl⟩
    reachable_leaderFsm taken).2).mpr ⟨?_, ?_⟩⟩
  · intro m hm
    obtain ⟨k, hk⟩ := (Go.Map.mem_sorted _ m).mp hm
    have hself : m.id = "n2" := by
      rw [Engine.new, Go.Map.get_set] at hk
      split at hk
      · cases hk; rfl
      · cases hk
    refine ⟨⟨"n2", "", "voter", "alive"⟩, List.mem_map.mpr
      ⟨⟨"n2", "", "alive", false, "voter", 0⟩, ?_, rfl⟩, hself.symm⟩
    exact (Go.Map.mem_sorted _ _).mpr ⟨"n2", by decide⟩
  · intro p hp hpid
    have hget := member_of_leaderFsm hp
    rw [hpid] at hget
    exact absurd hget (by simp [show leaderFsm.applier.members.get "" = none by decide])

end Fsm

end Clusdr.Consensus
