import Clusdr.Metatheory.MemberEvents

/-!
The snapshot a watcher is greeted with. A member of an engine is alive or dead,
so the snapshot of an unfiltered stream tells every cell of the view.
-/

namespace Clusdr

open Go (Time)
open Clusdr.Membership (Action Engine Member normalizeStatus normalizeStatus_idem statusAlive
  statusDead)

namespace Membership

/-- A status the snapshot can tell. -/
def Member.Normal (m : Member) : Prop := normalizeStatus m.status = m.status

theorem Member.Normal.alive_or_dead {m : Member} (h : m.Normal) :
    m.status = statusAlive ∨ m.status = statusDead := by
  rw [← h, normalizeStatus]
  split
  · exact Or.inl rfl
  · exact Or.inr rfl

namespace Engine

def Normal (e : Engine) : Prop := ∀ id m, e.members.get id = some m → m.Normal

theorem Reachable.normal {e : Engine} (h : e.Reachable) : e.Normal := by
  obtain ⟨now, selfID, selfAddr, as, rfl⟩ := h
  intro id m hm
  have h := (consistent_run (consistent_new now selfID selfAddr) as).fits id m hm
  rcases h.status with hstatus | hstatus
  · rw [Member.Normal, hstatus]
    rfl
  · rw [Member.Normal, hstatus]
    rfl

end Engine

end Membership

/-- A request that asks for every event. -/
structure WatchRequest.Unfiltered (req : WatchRequest) : Prop where
  eventTypes : req.eventTypes = []
  topics : req.topics = []

theorem WatchRequest.Unfiltered.accepts {req : WatchRequest} (h : req.Unfiltered) (type : String) :
    req.accepts type = true := by
  simp [WatchRequest.accepts, h.eventTypes, h.topics, matchesType]

/-- What a list of members tells about an id. -/
def listed (ms : List Member) (id : String) : List (Option String) :=
  ms.flatMap fun m => if id = m.id then [some m.status] else []

theorem latest_listed {e : Engine} (keyed : e.members.Keyed Member.id) (id : String) :
    Feed.latest none (listed e.membersList id) = e.view.cell (.member id) := by
  have hmem : ∀ x, x ∈ listed e.membersList id ↔ ∃ m, e.members.get id = some m ∧
      x = some m.status := by
    intro x
    simp only [listed, List.mem_flatMap]
    constructor
    · rintro ⟨m, hm, hx⟩
      split at hx
      · rename_i hid
        exact ⟨m, (Go.Map.get_iff_mem_sorted keyed id m).mpr ⟨hm, hid.symm⟩,
          List.mem_singleton.mp hx⟩
      · cases hx
    · rintro ⟨m, hm, rfl⟩
      obtain ⟨hsorted, hid⟩ := (Go.Map.get_iff_mem_sorted keyed id m).mp hm
      exact ⟨m, hsorted, by rw [if_pos hid.symm]; exact List.mem_singleton_self _⟩
  rw [Engine.cell_member]
  cases hm : e.members.get id with
  | none =>
      have hnil : listed e.membersList id = [] :=
        List.eq_nil_iff_forall_not_mem.mpr fun x hx => by simp [hmem, hm] at hx
      rw [hnil]
      rfl
  | some m =>
      refine Feed.latest_of_forall_eq ?_ fun x hx => ?_
      · exact List.ne_nil_of_mem ((hmem (some m.status)).mpr ⟨m, hm, rfl⟩)
      · obtain ⟨m', hm', rfl⟩ := (hmem x).mp hx
        rw [hm] at hm'
        cases hm'
        rfl

namespace WatchStream

/-- A member is told by one message, of this type. -/
def stateType (m : Member) : String :=
  if m.status = statusAlive then Events.typeMemberJoin else Events.typeMemberDead

theorem memberState_eq {req : WatchRequest} (unfiltered : req.Unfiltered) (now : Time)
    {m : Member} (normal : m.Normal) :
    memberState req now m = [.state (memberState.resp now m (stateType m))] := by
  rw [memberState, normal, unfiltered.accepts, unfiltered.accepts, stateType]
  cases normal.alive_or_dead with
  | inl h => simp [h, statusAlive, statusDead]
  | inr h => simp [h, statusAlive, statusDead]

theorem writes_memberState {req : WatchRequest} (unfiltered : req.Unfiltered) (now : Time)
    {m : Member} (normal : m.Normal) (k : Cell) :
    (memberState req now m).filterMap k.ofMessage =
      match k with
      | .member id => if id = m.id then [some m.status] else []
      | .leader => [] := by
  have hwritten : k.written (stateType m) m.id =
      match k with
      | .member id => if id = m.id then some (some m.status) else none
      | .leader => none := by
    unfold stateType
    cases k with
    | member id =>
        by_cases hid : id = m.id
        · cases normal.alive_or_dead with
          | inl h => simp [Cell.written, hid, h]
          | inr h => simp [Cell.written, hid, h, statusAlive, statusDead, Events.typeMemberDead,
              Events.typeMemberJoin]
        · simp [Cell.written, hid]
    | leader => split <;> rfl
  have htold : k.ofMessage (.state (memberState.resp now m (stateType m))) = _ := hwritten
  rw [memberState_eq unfiltered now normal, List.filterMap_cons, List.filterMap_nil, htold]
  cases k with
  | member id => by_cases hid : id = m.id <;> simp [hid]
  | leader => rfl

theorem writes_members {req : WatchRequest} (unfiltered : req.Unfiltered) (now : Time)
    {ms : List Member} (normal : ∀ m ∈ ms, m.Normal) (k : Cell) :
    (ms.flatMap (memberState req now)).filterMap k.ofMessage =
      match k with
      | .member id => listed ms id
      | .leader => [] := by
  rw [List.filterMap_flatMap, List.flatMap_congr fun m hm =>
    writes_memberState unfiltered now (normal m hm) k]
  cases k with
  | member id => rfl
  | leader => exact List.flatMap_eq_nil_iff.mpr fun _ _ => rfl

theorem cell_greeting {req : WatchRequest} (unfiltered : req.Unfiltered) (fromSeq : UInt64)
    (now : Time) {ms : List Member} (normal : ∀ m ∈ ms, m.Normal) (leaderID : String) (k : Cell) :
    (View.ofMessages (greeting req fromSeq now ms leaderID)).cell k =
      match k with
      | .member id => Feed.latest none (listed ms id)
      | .leader => some leaderID := by
  have hmarks : ((if req.lastSeq > 0 ∧ fromSeq > req.lastSeq then
      [WatchMessage.gap (req.lastSeq + 1) fromSeq now] else []).filterMap k.ofMessage) = [] := by
    split
    · exact List.filterMap_cons_none (k.ofMessage_gap _ _ _)
    · rfl
  rw [greeting, View.cell_ofMessages_append, hmarks, Feed.latest_nil,
    View.cell_ofMessages_append, List.filterMap_cons_none (k.ofMessage_sync _ _),
    List.filterMap_nil, Feed.latest_nil, snapshot, View.cell_ofMessages_append, View.ofMessages,
    View.cell_foldl, writes_members unfiltered now normal]
  cases k with
  | member id =>
      dsimp only
      split
      · have hsilent : ∀ r : WatchResponse, r.type = Events.typeLeaderChanged →
            (Cell.member id).ofMessage (.state r) = none := fun r hr => by
          rw [Cell.ofMessage, WatchMessage.response, hr, Cell.written_leaderChanged]
        rw [List.filterMap_cons_none (hsilent _ rfl)]
        rfl
      · rfl
  | leader =>
      by_cases hempty : leaderID = ""
      · subst hempty
        rfl
      · rw [if_pos ⟨hempty, unfiltered.accepts _⟩]
        rfl

end WatchStream

end Clusdr
