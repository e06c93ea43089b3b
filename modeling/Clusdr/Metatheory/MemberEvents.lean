import Clusdr.Core.Watch
import Clusdr.Feed.Replay
import Clusdr.Metatheory.MemberConvergence

/-!
What a client learns by folding a stream, cell by cell: the status of each id and
the leader. The events an engine operation emits tell exactly how it changed each
cell, and the snapshot of an engine tells what its cells are.
-/

namespace Clusdr

open Go (Time Unicode)
open Events (Event)
open Clusdr.Membership (Engine Member Status normalizeRole normalizeStatus statusAlive statusDead)

/-- What a client keeps; an unknown leader is the empty id. -/
structure View where
  members : Go.Map String Status
  leader : String

namespace View

def empty : View := ⟨∅, ""⟩

def fold (v : View) (r : WatchResponse) : View :=
  if r.type = Events.typeMemberJoin then { v with members := v.members.set r.source statusAlive }
  else if r.type = Events.typeMemberDead then { v with members := v.members.set r.source statusDead }
  else if r.type = Events.typeMemberLeft then { v with members := v.members.delete r.source }
  else if r.type = Events.typeLeaderChanged then { v with leader := r.source }
  else v

/-- The view of a client that was sent these messages. -/
def ofMessages (ms : List WatchMessage) : View :=
  ms.foldl (fun v m => v.fold m.response) empty

end View

/-- The view an up-to-date client has of an engine. -/
def Membership.Engine.view (e : Engine) : View where
  members := e.members.mapValues fun _ m => m.status
  leader := e.leaderID

/-- The parts of a view that change on their own. -/
inductive Cell where
  | member (id : String)
  | leader
deriving DecidableEq

namespace Cell

/-- What a message of the type about the source writes to the cell. -/
def written (type source : String) : Cell → Option (Option String)
  | .member id =>
      if id ≠ source then none
      else if type = Events.typeMemberJoin then some (some statusAlive)
      else if type = Events.typeMemberDead then some (some statusDead)
      else if type = Events.typeMemberLeft then some none
      else none
  | .leader => if type = Events.typeLeaderChanged then some (some source) else none

def ofEvent (k : Cell) (e : Event) : Option (Option String) := k.written e.type e.source

def ofMessage (k : Cell) (m : WatchMessage) : Option (Option String) :=
  k.written m.response.type m.response.source

/-- The types a client looks at. -/
def types : List String :=
  [Events.typeMemberJoin, Events.typeMemberDead, Events.typeMemberLeft, Events.typeLeaderChanged]

theorem written_of_not_mem {type : String} (h : type ∉ types) (source : String) (k : Cell) :
    k.written type source = none := by
  simp only [types, List.mem_cons, List.not_mem_nil, or_false, not_or] at h
  obtain ⟨hjoin, hdead, hleft, hleader⟩ := h
  cases k with
  | member id => simp [written, hjoin, hdead, hleft]
  | leader => simp [written, hleader]

theorem ofMessage_sync (k : Cell) (seq : UInt64) (now : Time) :
    k.ofMessage (.sync seq now) = none := by
  have htype : Events.typeWatchSync ∉ types := by decide
  exact written_of_not_mem htype _ k

theorem ofMessage_gap (k : Cell) (lo hi : UInt64) (now : Time) :
    k.ofMessage (.gap lo hi now) = none := by
  have htype : Events.typeWatchGap ∉ types := by decide
  exact written_of_not_mem htype _ k

theorem written_leaderChanged (id source : String) :
    (Cell.member id).written Events.typeLeaderChanged source = none := by
  simp [written, Events.typeLeaderChanged, Events.typeMemberJoin, Events.typeMemberDead,
    Events.typeMemberLeft]

end Cell

namespace View

def cell (v : View) : Cell → Option String
  | .member id => v.members.get id
  | .leader => some v.leader

theorem ext_cell {v w : View} (h : ∀ k, v.cell k = w.cell k) : v = w := by
  obtain ⟨members, leader⟩ := v
  obtain ⟨members', leader'⟩ := w
  have hmembers : members = members' := Go.Map.ext fun id => h (.member id)
  have hleader : leader = leader' := Option.some.inj (h .leader)
  rw [hmembers, hleader]

theorem cell_fold (v : View) (r : WatchResponse) (k : Cell) :
    (v.fold r).cell k = (k.written r.type r.source).getD (v.cell k) := by
  by_cases htype : r.type ∈ Cell.types
  · simp only [Cell.types, List.mem_cons, List.not_mem_nil, or_false] at htype
    cases k with
    | member id =>
        rcases htype with htype | htype | htype | htype <;> by_cases hid : id = r.source <;>
          simp [fold, htype, hid, cell, Cell.written, Go.Map.get_set, Go.Map.get_delete,
            Events.typeMemberJoin, Events.typeMemberDead, Events.typeMemberLeft,
            Events.typeLeaderChanged]
    | leader =>
        rcases htype with htype | htype | htype | htype <;>
          simp [fold, htype, cell, Cell.written, Events.typeMemberJoin, Events.typeMemberDead,
            Events.typeMemberLeft, Events.typeLeaderChanged]
  · rw [Cell.written_of_not_mem htype, Option.getD_none]
    simp only [Cell.types, List.mem_cons, List.not_mem_nil, or_false, not_or] at htype
    simp only [fold, htype, if_false]

theorem cell_foldl (ms : List WatchMessage) (v : View) (k : Cell) :
    (ms.foldl (fun v m => v.fold m.response) v).cell k =
      Feed.latest (v.cell k) (ms.filterMap k.ofMessage) := by
  induction ms generalizing v with
  | nil => rfl
  | cons m ms ih =>
      rw [List.foldl_cons, ih, cell_fold, List.filterMap_cons, Cell.ofMessage]
      cases k.written m.response.type m.response.source with
      | none => rfl
      | some x => exact (Feed.latest_cons _ _ _).symm

theorem cell_ofMessages_append (ms ms' : List WatchMessage) (k : Cell) :
    (ofMessages (ms ++ ms')).cell k =
      Feed.latest ((ofMessages ms).cell k) (ms'.filterMap k.ofMessage) := by
  rw [ofMessages, List.foldl_append, cell_foldl]
  rfl

end View

/-- The events tell how each cell of the view changed, and write none that `quiet`
names. -/
structure Tells (quiet : Cell → Prop) (e e' : Engine) (emitted : List Event) : Prop where
  told : ∀ k, e'.view.cell k = Feed.latest (e.view.cell k) (emitted.filterMap k.ofEvent)
  silent : ∀ ev ∈ emitted, ∀ k, quiet k → k.ofEvent ev = none

theorem Tells.nothing (quiet : Cell → Prop) (e : Engine) : Tells quiet e e [] :=
  ⟨fun _ => rfl, nofun⟩

namespace Membership.Engine

theorem cell_member (e : Engine) (id : String) :
    e.view.cell (.member id) = (e.members.get id).map Member.status :=
  Go.Map.get_mapValues _ _ _

/-- An operation on one id tells how the cell of the id changed. -/
theorem tells_of_member {e e' : Engine} (id : String) {emitted : List Event}
    (leader : e'.leaderID = e.leaderID)
    (other : ∀ j, j ≠ id → e'.members.get j = e.members.get j)
    (about : ∀ ev ∈ emitted, ev.source = id ∧ ev.type ≠ Events.typeLeaderChanged)
    (told : (e'.members.get id).map Member.status =
      Feed.latest ((e.members.get id).map Member.status)
        (emitted.filterMap (Cell.member id).ofEvent)) :
    Tells (· = .leader) e e' emitted := by
  have hleader : ∀ ev ∈ emitted, Cell.leader.ofEvent ev = none :=
    fun ev hev => if_neg (about ev hev).2
  refine ⟨fun k => ?_, fun ev hev k hk => hk ▸ hleader ev hev⟩
  cases k with
  | leader =>
      rw [List.filterMap_eq_nil_iff.mpr hleader, Feed.latest_nil]
      exact congrArg some leader
  | member j =>
      rw [cell_member, cell_member]
      by_cases hj : j = id
      · subst hj
        exact told
      · have hsilent : emitted.filterMap (Cell.member j).ofEvent = [] :=
          List.filterMap_eq_nil_iff.mpr fun ev hev => if_pos fun h => hj (h.trans (about ev hev).1)
        rw [hsilent, Feed.latest_nil, other j hj]

theorem tells_joinAs (e : Engine) (now : Time) (id addr role : String) :
    Tells (· = .leader) e (e.joinAs now id addr role).1 (e.joinAs now id addr role).2.2 := by
  simp only [joinAs]
  by_cases hempty : id = ""
  · simp only [if_pos hempty]
    exact .nothing _ _
  · simp only [if_neg hempty]
    refine tells_of_member id rfl (fun j hj => by simp [Go.Map.get_set, hj]) ?_ ?_
    · intro ev hev
      split at hev
      · obtain rfl := List.mem_singleton.mp hev
        exact ⟨rfl, by simp [joinEvent, Events.typeMemberJoin, Events.typeLeaderChanged]⟩
      · cases hev
    · -- No event only if the member is listed alive already.
      cases hm : e.members.get id with
      | none => simp [Cell.ofEvent, Cell.written, joinEvent]
      | some m =>
          by_cases halive : m.status = statusAlive
          · simp [halive]
          · simp [halive, Cell.ofEvent, Cell.written, joinEvent]

theorem tells_markDead (e : Engine) (id : String) :
    Tells (· = .leader) e (e.markDead id).1 (e.markDead id).2 := by
  simp only [markDead]
  cases hm : e.members.get id with
  | none => exact .nothing _ _
  | some m =>
      by_cases hdead : normalizeStatus m.status = statusDead
      · simp only [if_pos hdead]
        exact .nothing _ _
      · simp only [if_neg hdead]
        refine tells_of_member id rfl (fun j hj => by simp [Go.Map.get_set, hj]) ?_ ?_
        · simp [Events.typeMemberDead, Events.typeLeaderChanged]
        · simp [Cell.ofEvent, Cell.written, Events.typeMemberDead, Events.typeMemberJoin]

theorem tells_leave (e : Engine) (id : String) :
    Tells (· = .leader) e (e.leave id).1 (e.leave id).2 := by
  simp only [leave]
  split
  · refine tells_of_member id rfl (fun j hj => by simp [Go.Map.get_delete, hj]) ?_ ?_
    · simp [Events.typeMemberLeft, Events.typeLeaderChanged]
    · simp [Cell.ofEvent, Cell.written, Events.typeMemberLeft, Events.typeMemberDead,
        Events.typeMemberJoin]
  · exact .nothing _ _

theorem tells_setLeader (e : Engine) (id : String) :
    Tells (· ≠ .leader) e (e.setLeader id).1 (e.setLeader id).2 := by
  simp only [setLeader]
  split
  · exact .nothing _ _
  · have hsilent : ∀ j, (Cell.member j).ofEvent { type := Events.typeLeaderChanged, source := id } =
        none := fun j => Cell.written_leaderChanged j id
    refine ⟨fun k => ?_, fun ev hev k hk => ?_⟩
    · cases k with
      | leader => rfl
      | member j =>
          rw [cell_member, cell_member, Go.Map.get_mapValues, Option.map_map,
            List.filterMap_cons_none (hsilent j)]
          rfl
    · obtain rfl := List.mem_singleton.mp hev
      cases k with
      | leader => exact absurd rfl hk
      | member j => exact hsilent j

theorem tells_of_silent {quiet : Cell → Prop} {e : Engine} {emitted : List Event}
    (h : ∀ ev ∈ emitted, ev.type ∉ Cell.types) : Tells quiet e e emitted := by
  have hsilent : ∀ ev ∈ emitted, ∀ k : Cell, k.ofEvent ev = none :=
    fun ev hev k => Cell.written_of_not_mem (h ev hev) _ k
  refine ⟨fun k => ?_, fun ev hev k _ => hsilent ev hev k⟩
  rw [List.filterMap_eq_nil_iff.mpr fun ev hev => hsilent ev hev k, Feed.latest_nil]

theorem Reachable.act {e : Engine} (h : Reachable e) (a : Action) : Reachable (e.act a) := by
  obtain ⟨now, selfID, selfAddr, as, rfl⟩ := h
  refine ⟨now, selfID, selfAddr, as ++ [a], ?_⟩
  rw [run, run, List.foldl_append]
  rfl

end Membership.Engine

variable [Unicode]

theorem Locks.Table.type_expire (t : Table) (name : String) (token : UInt64) {ev : Event}
    (h : ev ∈ (t.expire name token).2.2) : ev.type = Events.typeLockExpired := by
  unfold expire at h
  split at h
  · cases h
  · split at h
    · cases h
    · split at h
      · cases h
      · obtain rfl := List.mem_singleton.mp h
        rfl

namespace Leases.Table

theorem type_grant (t : Table) (now : Time) (name owner : String) (deadline : Time)
    (ttl : Go.Duration) {ev : Event} (h : ev ∈ (t.grant now name owner deadline ttl).2.2) :
    ev.type = Events.typeLeaseGranted := by
  unfold grant at h
  split at h
  · cases h
  · split at h
    · cases h
    · split at h
      · split at h <;> cases h
      · split at h
        · cases h
        · obtain rfl := List.mem_singleton.mp h
          rfl

theorem type_revoke (t : Table) (name owner : String) (token : UInt64) {ev : Event}
    (h : ev ∈ (t.revoke name owner token).2.2) : ev.type = Events.typeLeaseRevoked := by
  unfold revoke at h
  split at h
  · cases h
  · split at h
    · cases h
    · split at h
      · cases h
      · obtain rfl := List.mem_singleton.mp h
        rfl

theorem type_expire (t : Table) (name : String) (token : UInt64) {ev : Event}
    (h : ev ∈ (t.expire name token).2.2) : ev.type = Events.typeLeaseExpired := by
  unfold expire at h
  split at h
  · cases h
  · split at h
    · cases h
    · split at h
      · cases h
      · obtain rfl := List.mem_singleton.mp h
        rfl

end Leases.Table

namespace Consensus.Fsm

/-- Of the lock commands only an expiry emits anything. -/
theorem emitted_lockCommand (t : Locks.Table) (now : Time) {cmd : Command}
    (h : cmd.kind ≠ .lockExpire) : (lockCommand t now cmd).2.2 = [] := by
  cases hkind : cmd.kind with
  | lockExpire => exact absurd hkind h
  | lockAcquire => rw [lockCommand_acquire now t hkind]
  | lockRelease => rw [lockCommand_release now t hkind]
  | lockRenew => rw [lockCommand_renew now t hkind]
  | _ => simp only [lockCommand, hkind]

theorem type_lockCommand (t : Locks.Table) (now : Time) (cmd : Command) {ev : Event}
    (h : ev ∈ (lockCommand t now cmd).2.2) : ev.type = Events.typeLockExpired := by
  by_cases hkind : cmd.kind = .lockExpire
  · simp only [lockCommand, hkind] at h
    exact t.type_expire _ _ h
  · rw [emitted_lockCommand t now hkind] at h
    cases h

theorem type_leaseCommand (t : Leases.Table) (now : Time) (cmd : Command) {ev : Event}
    (h : ev ∈ (leaseCommand t now cmd).2.2) : ev.type ∉ Cell.types := by
  have htype : ev.type = Events.typeLeaseGranted ∨ ev.type = Events.typeLeaseRevoked ∨
      ev.type = Events.typeLeaseExpired := by
    cases hkind : cmd.kind with
    | leaseGrant =>
        rw [leaseCommand_grant now t hkind] at h
        exact Or.inl (t.type_grant now cmd.name cmd.id cmd.deadlineOf cmd.ttlOf h)
    | leaseRevoke =>
        rw [leaseCommand_revoke now t hkind] at h
        exact Or.inr (Or.inl (t.type_revoke cmd.name cmd.id cmd.token h))
    | leaseExpire =>
        simp only [leaseCommand, hkind] at h
        exact Or.inr (Or.inr (t.type_expire _ _ h))
    | leaseRenew =>
        rw [leaseCommand_renew now t hkind] at h
        cases h
    | _ =>
        simp only [leaseCommand, hkind] at h
        cases h
  rcases htype with htype | htype | htype <;> rw [htype] <;> decide

omit [Unicode] in
theorem tells_memberCommand (f : Fsm) (now : Time) (cmd : Command) :
    Tells (· = .leader) f.applier (f.memberCommand now cmd).1.applier
      (f.memberCommand now cmd).2.2 := by
  unfold memberCommand
  cases cmd.kind with
  | addMember =>
      have htells := f.applier.tells_joinAs now cmd.id cmd.address (normalizeRole cmd.role)
      dsimp only
      split <;> rename_i hjoin <;> rw [hjoin] at htells <;> exact htells
  | removeMember => exact f.applier.tells_markDead cmd.id
  | dropMember => exact f.applier.tells_leave cmd.id
  | _ => exact .nothing _ _

theorem tells_applyCommand (f : Fsm) (now : Time) (cmd : Command) :
    Tells (· = .leader) f.applier (f.applyCommand now cmd).1.applier
      (f.applyCommand now cmd).2.2 := by
  have hmember := f.tells_memberCommand now cmd
  unfold applyCommand
  cases hkind : cmd.kind with
  | addMember | removeMember | dropMember => exact hmember
  | lockAcquire | lockRelease | lockRenew | lockExpire =>
      cases f.locks with
      | none => exact .nothing _ _
      | some t =>
          refine Engine.tells_of_silent fun ev hev => ?_
          rw [type_lockCommand t now cmd hev]
          decide
  | leaseGrant | leaseRenew | leaseRevoke | leaseExpire =>
      cases f.leases with
      | none => exact .nothing _ _
      | some t => exact Engine.tells_of_silent fun ev hev => type_leaseCommand t now cmd hev
  | unknown => exact .nothing _ _

end Consensus.Fsm

end Clusdr
