import Clusdr.Feed.ChangeLog
import Clusdr.Metatheory.MemberEvents
import Clusdr.Metatheory.SnapshotReplay

/-!
The events of the state machine as a change log. A reader that folds them keeps the
status of every member and the owner and token of every lease; every command emits
one event if it changes what the reader keeps and none if it does not.
-/

namespace Clusdr

open Go (Json Time Unicode)
open Events (Event)
open Clusdr.Membership (Engine Member Status normalizeRole normalizeStatus statusAlive statusDead)
open Consensus (Command Fsm)

/-- What the reader of the log keeps: the status of an id, the owner and the token of a name. -/
structure Mirror where
  members : Go.Map String Status
  leases : Go.Map String (String × UInt64)

namespace Mirror

/-- Before the first command: the node itself, and no lease. -/
def new (selfID : String) : Mirror := ⟨Go.Map.set ∅ selfID statusAlive, ∅⟩

/-- The owner and the token a lease event carries. -/
def grantOf (e : Event) : Except Json.Error (String × UInt64) := do
  match e.payload with
  | .json j => return (← j.read Json.toStr "" "owner", ← j.read Json.toUInt64 0 "token")
  | _ => .error .mismatch

def replay (r : Mirror) (e : Event) : Mirror :=
  if e.type = Events.typeMemberJoin then { r with members := r.members.set e.source statusAlive }
  else if e.type = Events.typeMemberDead then
    { r with members := r.members.set e.source statusDead }
  else if e.type = Events.typeMemberLeft then { r with members := r.members.delete e.source }
  else if e.type = Events.typeLeaseGranted then
    match grantOf e with
    | .ok grant => { r with leases := r.leases.set e.source grant }
    | .error _ => r
  else if e.type = Events.typeLeaseExpired ∨ e.type = Events.typeLeaseRevoked then
    { r with leases := r.leases.delete e.source }
  else r

theorem replay_join (r : Mirror) (id addr role : String) :
    r.replay (Engine.joinEvent id addr role) =
      { r with members := r.members.set id statusAlive } := if_pos rfl

theorem replay_dead (r : Mirror) (id : String) :
    r.replay { type := Events.typeMemberDead, source := id } =
      { r with members := r.members.set id statusDead } := by
  simp [replay, Events.typeMemberDead, Events.typeMemberJoin]

theorem replay_left (r : Mirror) (id : String) :
    r.replay { type := Events.typeMemberLeft, source := id } =
      { r with members := r.members.delete id } := by
  simp [replay, Events.typeMemberLeft, Events.typeMemberDead, Events.typeMemberJoin]

theorem grantOf_emit (type : String) (rec : Leases.Record) :
    grantOf (Leases.Table.emit type rec) = .ok (rec.owner, rec.token) := by
  simp (disch := decide) [grantOf, Leases.Table.emit, pure, Except.pure]

theorem replay_granted (r : Mirror) (rec : Leases.Record) :
    r.replay (Leases.Table.emit Events.typeLeaseGranted rec) =
      { r with leases := r.leases.set rec.name (rec.owner, rec.token) } := by
  simp only [replay, grantOf_emit]
  simp [Leases.Table.emit, Events.typeLeaseGranted, Events.typeMemberLeft, Events.typeMemberDead,
    Events.typeMemberJoin]

theorem replay_ended (r : Mirror) (rec : Leases.Record) {type : String}
    (h : type = Events.typeLeaseExpired ∨ type = Events.typeLeaseRevoked) :
    r.replay (Leases.Table.emit type rec) = { r with leases := r.leases.delete rec.name } := by
  rcases h with rfl | rfl <;>
    simp [replay, Leases.Table.emit, Events.typeLeaseExpired, Events.typeLeaseRevoked,
      Events.typeLeaseGranted, Events.typeMemberLeft, Events.typeMemberDead, Events.typeMemberJoin]

theorem replay_lockExpired {e : Event} (h : e.type = Events.typeLockExpired) (r : Mirror) :
    r.replay e = r := by
  simp [replay, h, Events.typeLockExpired, Events.typeLeaseExpired, Events.typeLeaseRevoked,
    Events.typeLeaseGranted, Events.typeMemberLeft, Events.typeMemberDead, Events.typeMemberJoin]

end Mirror

/-- The statuses of the engine's members. -/
def Membership.Engine.statuses (e : Engine) : Go.Map String Status :=
  e.members.mapValues fun _ m => m.status

/-- The owners and tokens of the table's leases. -/
def Leases.Table.grants (t : Leases.Table) : Go.Map String (String × UInt64) :=
  t.leases.mapValues fun _ rec => (rec.owner, rec.token)

/-- What an up-to-date reader keeps of the state machine. -/
def Consensus.Fsm.mirror (f : Fsm) : Mirror :=
  ⟨f.applier.statuses, f.leases.elim ∅ Leases.Table.grants⟩

namespace Membership.Engine

variable (e : Engine) (leases : Go.Map String (String × UInt64))

theorem get_statuses (id : String) : e.statuses.get id = (e.members.get id).map Member.status :=
  Go.Map.get_mapValues _ _ _

theorem isNone_alive_iff (id : String) :
    ((e.members.get id).filter fun m => m.status = statusAlive).isNone ↔
      e.statuses.get id ≠ some statusAlive := by
  rw [get_statuses]
  cases e.members.get id with
  | none => simp
  | some m => simp

variable {e leases} in
theorem exact_told {members : Go.Map String Status} {ev : Event} (id : String)
    (replayed : Mirror.replay ⟨e.statuses, leases⟩ ev = ⟨members, leases⟩)
    (changed : members.get id ≠ e.statuses.get id) :
    Feed.Exact Mirror.replay ⟨e.statuses, leases⟩ ⟨members, leases⟩ [ev] :=
  .told ev replayed.symm fun same => changed (congrArg (fun r => r.members.get id) same)

variable {e} in
theorem statuses_joinAs {id : String} (named : id ≠ "") (now : Time) (addr role : String) :
    (e.joinAs now id addr role).1.statuses = e.statuses.set id statusAlive := by
  rw [joinAs, if_neg named]
  exact Go.Map.mapValues_set _ _ _ _

theorem exact_joinAs (now : Time) (id addr role : String) :
    Feed.Exact Mirror.replay ⟨e.statuses, leases⟩ ⟨(e.joinAs now id addr role).1.statuses, leases⟩
      (e.joinAs now id addr role).2.2 := by
  by_cases hempty : id = ""
  · rw [joinAs, if_pos hempty]
    exact .silent rfl
  · rw [statuses_joinAs hempty, joinAs, if_neg hempty]
    by_cases halive : e.statuses.get id = some statusAlive
    · simp only [if_neg fun h => (isNone_alive_iff e id).mp h halive]
      rw [Go.Map.set_of_get halive]
      exact .silent rfl
    · simp only [if_pos ((isNone_alive_iff e id).mpr halive)]
      refine exact_told id (Mirror.replay_join _ id addr _) ?_
      rw [Go.Map.get_set, if_pos rfl]
      exact Ne.symm halive

theorem exact_markDead (id : String) :
    Feed.Exact Mirror.replay ⟨e.statuses, leases⟩ ⟨(e.markDead id).1.statuses, leases⟩
      (e.markDead id).2 := by
  unfold markDead
  cases hm : e.members.get id with
  | none => exact .silent rfl
  | some m =>
      by_cases hdead : normalizeStatus m.status = statusDead
      · simp only [if_pos hdead]
        exact .silent rfl
      · simp only [if_neg hdead, statuses, Go.Map.mapValues_set]
        have hstatus : m.status ≠ statusDead := by
          intro h
          rw [h] at hdead
          exact hdead (by decide)
        refine exact_told id (Mirror.replay_dead _ id) ?_
        rw [Go.Map.get_set, if_pos rfl, get_statuses, hm]
        exact fun h => hstatus (Option.some.inj h).symm

theorem exact_leave (id : String) :
    Feed.Exact Mirror.replay ⟨e.statuses, leases⟩ ⟨(e.leave id).1.statuses, leases⟩
      (e.leave id).2 := by
  unfold leave
  split
  · rename_i m hdropped hm
    simp only [statuses, Go.Map.mapValues_delete]
    refine exact_told id (Mirror.replay_left _ id) ?_
    rw [Go.Map.get_delete, if_pos rfl, get_statuses, hm]
    exact nofun
  · exact .silent rfl

end Membership.Engine

namespace Leases.Table

variable [Unicode] (members : Go.Map String Status) (t : Table)

omit [Unicode] in
theorem get_grants (name : String) :
    t.grants.get name = (t.leases.get name).map fun rec => (rec.owner, rec.token) :=
  Go.Map.get_mapValues _ _ _

omit [Unicode] in
/-- A new deadline is nothing the log tells. -/
theorem grants_set {t : Table} {name : String} {held : Record} (h : t.leases.get name = some held)
    (deadline : Time) (ttl : Go.Duration) (next : UInt64) :
    grants ⟨t.leases.set name { held with deadline := deadline, ttl := ttl }, next⟩ = t.grants := by
  rw [grants, Go.Map.mapValues_set]
  exact Go.Map.set_of_get (by rw [Go.Map.get_mapValues, h]; rfl)

variable {members t} in
omit [Unicode] in
theorem exact_told {grants : Go.Map String (String × UInt64)} {ev : Event} (name : String)
    (replayed : Mirror.replay ⟨members, t.grants⟩ ev = ⟨members, grants⟩)
    (changed : grants.get name ≠ t.grants.get name) :
    Feed.Exact Mirror.replay ⟨members, t.grants⟩ ⟨members, grants⟩ [ev] :=
  .told ev replayed.symm fun same => changed (congrArg (fun r => r.leases.get name) same)

theorem exact_grant (now : Time) (name owner : String) (deadline : Time) (ttl : Go.Duration) :
    Feed.Exact Mirror.replay ⟨members, t.grants⟩
      ⟨members, (t.grant now name owner deadline ttl).1.grants⟩
      (t.grant now name owner deadline ttl).2.2 := by
  unfold grant
  split
  · exact .silent rfl
  · split
    · exact .silent rfl
    · split
      · rename_i held hget
        split
        · exact .silent (congrArg (Mirror.mk members) (grants_set hget deadline ttl t.next))
        · exact .silent rfl
      · rename_i hget
        split
        · exact .silent rfl
        · simp only [grants, Go.Map.mapValues_set]
          refine exact_told name (Mirror.replay_granted _ _) ?_
          rw [Go.Map.get_set, if_pos rfl, get_grants, hget]
          exact Option.some_ne_none _

theorem grants_renew (name owner : String) (token : UInt64) (deadline : Time) (ttl : Go.Duration) :
    (t.renew name owner token deadline ttl).1.grants = t.grants := by
  unfold renew
  split
  · rfl
  · split
    · rfl
    · rename_i held hget
      split
      · rfl
      · exact grants_set hget deadline ttl t.next

variable {t} in
omit [Unicode] in
/-- The end of a lease: the event names the lease by its record. -/
theorem exact_delete (keyed : t.leases.Keyed Record.name) {name : String} {held : Record}
    (hget : t.leases.get name = some held) {type : String}
    (ended : type = Events.typeLeaseExpired ∨ type = Events.typeLeaseRevoked) :
    Feed.Exact Mirror.replay ⟨members, t.grants⟩
      ⟨members, grants ⟨t.leases.delete name, t.next⟩⟩ [emit type held] := by
  simp only [grants, Go.Map.mapValues_delete]
  refine exact_told name ?_ ?_
  · rw [Mirror.replay_ended _ _ ended, keyed name held hget]
    rfl
  · rw [Go.Map.get_delete, if_pos rfl, get_grants, hget]
    exact nofun

variable {t} (keyed : t.leases.Keyed Record.name)

include keyed

theorem exact_revoke (name owner : String) (token : UInt64) :
    Feed.Exact Mirror.replay ⟨members, t.grants⟩ ⟨members, (t.revoke name owner token).1.grants⟩
      (t.revoke name owner token).2.2 := by
  unfold revoke
  split
  · exact .silent rfl
  · split
    · exact .silent rfl
    · rename_i held hget
      split
      · exact .silent rfl
      · exact exact_delete members keyed hget (Or.inr rfl)

theorem exact_expire (name : String) (token : UInt64) :
    Feed.Exact Mirror.replay ⟨members, t.grants⟩ ⟨members, (t.expire name token).1.grants⟩
      (t.expire name token).2.2 := by
  unfold expire
  split
  · exact .silent rfl
  · split
    · exact .silent rfl
    · rename_i held hget
      split
      · exact .silent rfl
      · exact exact_delete members keyed hget (Or.inl rfl)

end Leases.Table

namespace Consensus.Fsm

theorem mirror_fresh (start : Time) (selfID selfAddr : String) :
    (fresh (.new start selfID selfAddr)).mirror = .new selfID := by
  have hself : (Engine.new start selfID selfAddr).statuses = Go.Map.set ∅ selfID statusAlive := by
    rw [Engine.statuses, Engine.new, Go.Map.mapValues_set]
    rfl
  exact congrArg (Mirror.mk · ∅) hself

theorem exact_memberCommand (f : Fsm) (now : Time) (cmd : Command) :
    Feed.Exact Mirror.replay f.mirror (f.memberCommand now cmd).1.mirror
      (f.memberCommand now cmd).2.2 := by
  unfold memberCommand
  cases cmd.kind with
  | addMember =>
      have hexact := f.applier.exact_joinAs f.mirror.leases now cmd.id cmd.address
        (normalizeRole cmd.role)
      dsimp only
      split <;> rename_i hjoin <;> rw [hjoin] at hexact <;> exact hexact
  | removeMember => exact f.applier.exact_markDead f.mirror.leases cmd.id
  | dropMember => exact f.applier.exact_leave f.mirror.leases cmd.id
  | _ => exact .silent rfl

variable [Unicode]

theorem exact_leaseCommand (members : Go.Map String Status) {t : Leases.Table}
    (keyed : t.leases.Keyed Leases.Record.name) (now : Time) (cmd : Command) :
    Feed.Exact Mirror.replay ⟨members, t.grants⟩ ⟨members, (leaseCommand t now cmd).1.grants⟩
      (leaseCommand t now cmd).2.2 := by
  cases hkind : cmd.kind with
  | leaseGrant =>
      rw [leaseCommand_grant now t hkind]
      exact t.exact_grant members now cmd.name cmd.id cmd.deadlineOf cmd.ttlOf
  | leaseRenew =>
      rw [leaseCommand_renew now t hkind]
      exact .silent (congrArg (Mirror.mk members) (t.grants_renew _ _ _ _ _))
  | leaseRevoke =>
      rw [leaseCommand_revoke now t hkind]
      exact Leases.Table.exact_revoke members keyed cmd.name cmd.id cmd.token
  | leaseExpire =>
      simp only [leaseCommand, hkind]
      exact Leases.Table.exact_expire members keyed cmd.name cmd.token
  | _ =>
      simp only [leaseCommand, hkind]
      exact .silent rfl

/-- Of the other commands only the expiry of a lock emits anything. -/
theorem exact_applyCommand {f : Fsm} (keyed : KeyedTables f) (now : Time) {cmd : Command}
    (h : cmd.kind ≠ .lockExpire) :
    Feed.Exact Mirror.replay f.mirror (f.applyCommand now cmd).1.mirror
      (f.applyCommand now cmd).2.2 := by
  have hmember := f.exact_memberCommand now cmd
  unfold applyCommand
  cases hkind : cmd.kind with
  | addMember | removeMember | dropMember => exact hmember
  | lockExpire => exact absurd hkind h
  | lockAcquire | lockRelease | lockRenew =>
      cases f.locks with
      | none => exact .silent rfl
      | some t =>
          change Feed.Exact _ _ _ (lockCommand t now cmd).2.2
          rw [emitted_lockCommand t now h]
          exact .silent rfl
  | leaseGrant | leaseRenew | leaseRevoke | leaseExpire =>
      cases hleases : f.leases with
      | none => exact .silent rfl
      | some t =>
          have hexact := exact_leaseCommand f.applier.statuses (keyed.leases t hleases) now cmd
          rw [mirror, hleases]
          exact hexact
  | unknown => exact .silent rfl

theorem told_applyCommand {f : Fsm} (keyed : KeyedTables f) (now : Time) (cmd : Command) :
    (f.applyCommand now cmd).2.2.foldl Mirror.replay f.mirror =
      (f.applyCommand now cmd).1.mirror := by
  by_cases hkind : cmd.kind = .lockExpire
  · unfold applyCommand
    simp only [hkind]
    cases f.locks with
    | none => rfl
    | some t =>
        change (lockCommand t now cmd).2.2.foldl Mirror.replay f.mirror = f.mirror
        refine List.foldlRecOn _ _ (motive := fun r => r = f.mirror) rfl fun r hr ev hev => ?_
        rw [Mirror.replay_lockExpired (type_lockCommand t now cmd hev), hr]
  · exact (exact_applyCommand keyed now hkind).foldl

/-- One command of a log, and what it emits. -/
def logged (f : Fsm) (c : Time × Command) : Fsm × List Event :=
  let (f, _, emitted) := f.applyCommand c.1 c.2
  (f, emitted)

end Consensus.Fsm

/-- The events of any commands, folded from the start, give the status of every member and the
owner and the token of every lease; the next command, unless it expires a lock, emits one event
if it changes any of these and none if it does not. -/
theorem events_are_change_log [Unicode] (start : Time) (selfID selfAddr : String)
    (cmds : List (Time × Command)) :
    let past := Feed.history Fsm.logged (.fresh (.new start selfID selfAddr)) cmds
    past.2.foldl Mirror.replay (.new selfID) = past.1.mirror ∧
      ∀ now cmd, cmd.kind ≠ .lockExpire →
        ((past.1.logged (now, cmd)).1.mirror ≠ past.1.mirror →
          (past.1.logged (now, cmd)).2.length = 1) ∧
        ((past.1.logged (now, cmd)).1.mirror = past.1.mirror →
          (past.1.logged (now, cmd)).2 = []) := by
  intro past
  obtain ⟨keyed, told⟩ : past.1.KeyedTables ∧
      past.2.foldl Mirror.replay (Fsm.fresh (.new start selfID selfAddr)).mirror =
        past.1.mirror :=
    Feed.foldl_history Fsm.KeyedTables (fun f c keyed => Fsm.keyed_applyCommand keyed c.1 c.2)
      (fun f c keyed => Fsm.told_applyCommand keyed c.1 c.2) (Fsm.keyed_fresh _) cmds
  rw [Fsm.mirror_fresh] at told
  refine ⟨told, fun now cmd hkind => ?_⟩
  have hexact := Fsm.exact_applyCommand keyed now hkind
  exact ⟨hexact.length_of_ne, hexact.eq_nil⟩

/-- `n2` joins and takes a lease. -/
def joinAndLease : List (Time × Command) :=
  [(0, { kind := .addMember, id := "n2", address := "10.0.0.2:7947", role := "voter" }),
    (1, { kind := .leaseGrant, id := "n2", name := "job" })]

/-- Its death is one more event. -/
theorem events_are_change_log_death :
    letI := Unicode.ascii
    let past := Feed.history Fsm.logged (.fresh (.new 0 "n1" "10.0.0.1:7947")) joinAndLease
    past.2.foldl Mirror.replay (.new "n1") = past.1.mirror ∧
      (past.1.logged (2, { kind := .removeMember, id := "n2" })).2.length = 1 := by
  let := Unicode.ascii
  obtain ⟨hreplayed, hnext⟩ := events_are_change_log 0 "n1" "10.0.0.1:7947" joinAndLease
  refine ⟨hreplayed, (hnext 2 { kind := .removeMember, id := "n2" } nofun).1 fun same => ?_⟩
  have hstatus := congrArg (fun r => r.members.get "n2") same
  simp only [Fsm.mirror, Engine.get_statuses] at hstatus
  exact absurd hstatus (by decide)

end Clusdr
