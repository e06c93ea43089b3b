import Clusdr.Core.JoinService
import Clusdr.Core.LeaseService
import Clusdr.Forwarding.Hops
import Clusdr.Metatheory.HolderIdentity

/-!
How often the daemons of a cluster forward a request. A daemon that does not lead
dials whom its own member list calls the leader. The requests of `JoinService` are
marked when they are forwarded and are not forwarded again; those for locks and
leases are not, and daemons whose views form a cycle forward them for ever.
-/

namespace Clusdr

open Go (Duration Unicode)
open Clusdr.Membership (Engine)
open Forwarding (Next hops hops_le_one_iff hops_of_closed)

/-- The requests of `LockService` and `LeaseService` that change a table. -/
inductive TableRequest where
  | lock (req : LockRequest)
  | tryLock (req : LockRequest)
  | unlock (req : UnlockRequest)
  | lockRenew (req : LockRenewRequest)
  | grant (req : GrantRequest)
  | leaseRenew (req : LeaseRenewRequest)
  | revoke (req : RevokeRequest)

namespace TableRequest

def name : TableRequest → String
  | .lock req | .tryLock req => req.name
  | .unlock req => req.name
  | .lockRenew req => req.name
  | .grant req => req.name
  | .leaseRenew req => req.name
  | .revoke req => req.name

def ofLocks : TableRequest → Bool
  | .lock _ | .tryLock _ | .unlock _ | .lockRenew _ => true
  | .grant _ | .leaseRenew _ | .revoke _ => false

end TableRequest

/-- What a daemon's services read: its member list and `IsLeader`. -/
structure Daemon where
  members : Engine
  raft : Option Bool
  lockTTL : Duration
  leaseTTL : Duration

/-- The daemons, and who answers at an address. -/
structure Cluster (D : Type) where
  daemon : D → Daemon
  reach : String → Option D

namespace Daemon

def lockService (d : Daemon) : LockService := ⟨d.members, d.raft, d.lockTTL⟩

def leaseService (d : Daemon) : LeaseService := ⟨d.members, d.raft, d.leaseTTL⟩

variable [Unicode]

def route (d : Daemon) (req : TableRequest) : Route :=
  if req.ofLocks then d.lockService.route req.name else d.leaseService.route req.name

/-- The request passes the checks a service makes before it looks for the leader. -/
def Accepts (d : Daemon) (req : TableRequest) : Prop :=
  if req.ofLocks then
    Locks.validName req.name = .ok () ∧ d.lockService.rejectIfObserver = none
  else Leases.validName req.name = .ok ()

/-- The daemon does not lead and knows another one, at `addr`, that should. -/
def Follows (d : Daemon) (addr : String) : Prop :=
  d.raft = some false ∧ addr ≠ "" ∧
    ∃ m, d.members.leader = some m ∧ m.address = addr ∧ m.id ≠ d.members.selfID

end Daemon

namespace Cluster

variable {D : Type} [Unicode]

/-- Where `d` hands the request. -/
def next (c : Cluster D) (req : TableRequest) (d : D) : Next D :=
  match (c.daemon d).route req with
  | .forward _ addr =>
      match c.reach addr with
      | none => .lost
      | some d' => .reaches d'
  | _ => .stays

end Cluster

namespace Daemon

theorem dialLeader_forward {e : Engine} {id addr : String} :
    dialLeader e = .forward id addr ↔
      addr ≠ "" ∧ id ≠ e.selfID ∧ ∃ m, e.leader = some m ∧ m.id = id ∧ m.address = addr := by
  unfold dialLeader
  cases hleader : e.leader with
  | none => simp
  | some m =>
      by_cases hnone : m.address = "" ∨ m.id = e.selfID
      · simp only [hnone, if_true, reduceCtorEq, false_iff]
        rintro ⟨haddr, hid, n, hn, rfl, rfl⟩
        cases hn
        exact hnone.elim haddr hid
      · simp only [hnone, if_false, Route.forward.injEq]
        constructor
        · rintro ⟨rfl, rfl⟩
          exact ⟨fun h => hnone (Or.inl h), fun h => hnone (Or.inr h), m, rfl, rfl, rfl⟩
        · rintro ⟨-, -, n, hn, rfl, rfl⟩
          cases hn
          exact ⟨rfl, rfl⟩

variable [Unicode]

theorem route_of_accepts {d : Daemon} {req : TableRequest} (h : d.Accepts req) :
    d.route req = if d.raft = some false then dialLeader d.members else .serve := by
  unfold Accepts at h
  unfold route
  split at h
  · rename_i hlocks
    rw [if_pos hlocks, LockService.route, h.1]
    simp only [h.2]
    rfl
  · rename_i hlocks
    rw [if_neg hlocks, LeaseService.route, h]
    rfl

theorem route_of_not_accepts {d : Daemon} {req : TableRequest} (h : ¬ d.Accepts req) :
    ∃ e, d.route req = .reject e := by
  unfold Accepts at h
  unfold route
  split at h
  · rename_i hlocks
    rw [if_pos hlocks, LockService.route]
    cases hname : Locks.validName req.name with
    | error e => exact ⟨_, rfl⟩
    | ok u =>
        cases hobserver : d.lockService.rejectIfObserver with
        | some e => exact ⟨e, rfl⟩
        | none => exact absurd ⟨hname, hobserver⟩ h
  · rename_i hlocks
    rw [if_neg hlocks, LeaseService.route]
    cases hname : Leases.validName req.name with
    | error e => exact ⟨_, rfl⟩
    | ok u => exact absurd hname h

/-- The checks pass and the daemon follows another one. -/
theorem route_forward_iff {d : Daemon} {req : TableRequest} {addr : String} :
    (∃ id, d.route req = .forward id addr) ↔ d.Accepts req ∧ d.Follows addr := by
  by_cases haccepts : d.Accepts req
  · rw [route_of_accepts haccepts, and_iff_right haccepts, Follows]
    by_cases hraft : d.raft = some false
    · simp only [hraft, if_true, dialLeader_forward, true_and]
      constructor
      · rintro ⟨id, haddr, hid, m, hm, rfl, rfl⟩
        exact ⟨haddr, m, hm, rfl, hid⟩
      · rintro ⟨haddr, m, hm, rfl, hid⟩
        exact ⟨m.id, haddr, hid, m, hm, rfl, rfl⟩
    · simp [hraft]
  · obtain ⟨e, he⟩ := route_of_not_accepts haccepts
    simp [he, haccepts]

end Daemon

namespace Cluster

variable {D : Type} [Unicode] (c : Cluster D) (req : TableRequest)

theorem next_of_forward {d : D} {id addr : String}
    (h : (c.daemon d).route req = .forward id addr) :
    c.next req d = ((c.reach addr).map Next.reaches).getD .lost := by
  rw [next, h]
  dsimp only
  cases c.reach addr <;> rfl

theorem next_stays_iff (d : D) : c.next req d = .stays ↔
    ¬ ∃ addr, (c.daemon d).Accepts req ∧ (c.daemon d).Follows addr := by
  simp only [← Daemon.route_forward_iff]
  cases hroute : (c.daemon d).route req with
  | forward id addr =>
      have hsent : c.next req d ≠ .stays := by
        rw [c.next_of_forward req hroute]
        cases c.reach addr <;> exact nofun
      exact iff_of_false hsent (not_not_intro ⟨addr, id, rfl⟩)
  | reject e => exact iff_of_true (by rw [next, hroute]) (by simp)
  | serve => exact iff_of_true (by rw [next, hroute]) (by simp)

theorem next_reaches_iff (d d' : D) : c.next req d = .reaches d' ↔
    ∃ addr, ((c.daemon d).Accepts req ∧ (c.daemon d).Follows addr) ∧ c.reach addr = some d' := by
  constructor
  · intro h
    have hsent := (c.next_stays_iff req d).not.mp (h ▸ nofun)
    obtain ⟨addr, hfollows⟩ := not_not.mp hsent
    obtain ⟨id, hroute⟩ := Daemon.route_forward_iff.mpr hfollows
    refine ⟨addr, hfollows, ?_⟩
    rw [c.next_of_forward req hroute] at h
    cases hreach : c.reach addr with
    | none => simp [hreach] at h
    | some d'' => simpa [hreach] using h
  · rintro ⟨addr, hfollows, hreach⟩
    obtain ⟨id, hroute⟩ := Daemon.route_forward_iff.mpr hfollows
    rw [c.next_of_forward req hroute, hreach]
    rfl

end Cluster

/-- A request for a lock or a lease is forwarded at most once, wherever it enters,
exactly if no daemon that follows another reaches one that itself follows another. -/
theorem forwarded_once_iff [Unicode] {D : Type} (c : Cluster D) (req : TableRequest) :
    (∀ d n, hops (c.next req) n d ≤ 1) ↔
      ∀ d d' addr addr', (c.daemon d).Accepts req → (c.daemon d).Follows addr →
        c.reach addr = some d' → (c.daemon d').Accepts req → ¬ (c.daemon d').Follows addr' := by
  simp only [hops_le_one_iff, c.next_reaches_iff, c.next_stays_iff]
  constructor
  · intro h d d' addr addr' haccepts hfollows hreach haccepts' hfollows'
    exact h d d' ⟨addr, ⟨haccepts, hfollows⟩, hreach⟩ ⟨addr', haccepts', hfollows'⟩
  · rintro h d d' ⟨addr, ⟨haccepts, hfollows⟩, hreach⟩ ⟨addr', haccepts', hfollows'⟩
    exact h d d' addr addr' haccepts hfollows hreach haccepts' hfollows'

/-- Where a daemon hands a request of `JoinService`; forwarding marks it. -/
def joinNext {D : Type} (services : D → JoinService × Engine) (reach : String → Option D) :
    D × Bool → Next (D × Bool)
  | (d, relay) =>
      match (services d).1.route (services d).2 relay with
      | .forward _ addr =>
          match reach addr with
          | none => .lost
          | some d' => .reaches (d', true)
      | _ => .stays

/-- The requests of `JoinService` are forwarded at most once, whatever the views. -/
theorem joins_forwarded_once {D : Type} (services : D → JoinService × Engine)
    (reach : String → Option D) (n : Nat) (d : D) (relay : Bool) :
    hops (joinNext services reach) n (d, relay) ≤ 1 := by
  have hmarked : ∀ d, joinNext services reach (d, true) = .stays := by
    intro d
    cases hleader : (services d).1.isLeader <;> simp [joinNext, JoinService.route, hleader]
  refine hops_le_one_iff.mpr (fun p hp => ?_) n
  have hp' : p.2 = true := by
    simp only [joinNext] at hp
    split at hp
    · split at hp
      · cases hp
      · cases hp
        rfl
    · cases hp
  obtain ⟨d', relay'⟩ := p
  obtain rfl : relay' = true := hp'
  exact hmarked d'

namespace Cluster

/-- A voter of a cluster of two that takes `leader` for its leader. -/
def voter (id addr leader : String) : Daemon where
  members := Engine.run (.new 0 id addr)
    [.joinAs 0 "n1" "h1" "", .joinAs 0 "n2" "h2" "", .setLeader leader]
  raft := some false
  lockTTL := 0
  leaseTTL := 0

/-- Each of two daemons takes the other for the leader. -/
def crossed : Cluster Bool where
  daemon
    | false => voter "n1" "h1" "n2"
    | true => voter "n2" "h2" "n1"
  reach addr := if addr = "h1" then some false else if addr = "h2" then some true else none

theorem valid_voter (id addr leader : String) : (voter id addr leader).members.Valid :=
  Engine.valid_run (Engine.valid_new 0 id addr) _

theorem follows_crossed :
    (crossed.daemon false).Follows "h2" ∧ (crossed.daemon true).Follows "h1" :=
  ⟨⟨rfl, by decide, ⟨"n2", "h2", "alive", true, "voter", 0⟩, by decide +kernel, rfl, by decide⟩,
    ⟨rfl, by decide, ⟨"n1", "h1", "alive", true, "voter", 0⟩, by decide +kernel, rfl, by decide⟩⟩

variable [Unicode]

theorem accepts_crossed {req : TableRequest} (locks : Locks.validName req.name = .ok ())
    (leases : Leases.validName req.name = .ok ()) (d : Bool) :
    (crossed.daemon d).Accepts req := by
  unfold Daemon.Accepts
  split
  · refine ⟨locks, LockService.rejectIfObserver_of_voter ?_ ?_⟩
    · cases d <;> exact valid_voter _ _ _
    · cases d <;> decide +kernel
  · exact leases

/-- They forward every request that passes the checks to each other. -/
theorem hops_crossed {req : TableRequest} (locks : Locks.validName req.name = .ok ())
    (leases : Leases.validName req.name = .ok ()) (n : Nat) (d : Bool) :
    hops (crossed.next req) n d = n := by
  refine hops_of_closed (s := Set.univ) (fun d _ => ⟨!d, trivial, ?_⟩) n trivial
  have haccepts := accepts_crossed locks leases d
  cases d with
  | false => exact (crossed.next_reaches_iff req _ _).mpr ⟨"h2", ⟨haccepts, follows_crossed.1⟩, rfl⟩
  | true => exact (crossed.next_reaches_iff req _ _).mpr ⟨"h1", ⟨haccepts, follows_crossed.2⟩, rfl⟩

end Cluster

open Cluster in
theorem crossed_views_forward_again : letI := Unicode.ascii
    hops (crossed.next (.tryLock ⟨"job", "c1", 0⟩)) 7 false = 7 ∧
      hops (crossed.next (.grant ⟨"job", "c1", 0⟩)) 7 false = 7 ∧
      ¬ ∀ d n, hops (crossed.next (.tryLock ⟨"job", "c1", 0⟩)) n d ≤ 1 := by
  have htry := fun n => @hops_crossed .ascii (.tryLock ⟨"job", "c1", 0⟩) (by decide) (by decide) n false
  have hgrant := @hops_crossed .ascii (.grant ⟨"job", "c1", 0⟩) (by decide) (by decide) 7 false
  refine ⟨htry 7, hgrant, fun h => ?_⟩
  have hle := h false 7
  rw [htry 7] at hle
  exact absurd hle (by decide)

end Clusdr
