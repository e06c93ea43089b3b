import Clusdr.Core.LeaseService

/-!
The command the service of a leader submits for a request, and what it reports
of it.
-/

namespace Clusdr

open Go (Time Duration Unicode)
open Consensus (Fsm Submission)

theorem mapError_eq_ok {α β γ : Type} {x : Except α γ} {f : α → β} {c : γ} :
    x.mapError f = .ok c ↔ x = .ok c := by
  cases x <;> simp [Except.mapError]

variable [Unicode]

namespace LockService

theorem attempt_eq {s : LockService} (leads : s.raft = some true) (op : String) (f : Fsm)
    (sub : Submission) (req : LockRequest) :
    s.attempt op f sub req =
      ((f.applyLockAcquire sub req.name (s.holder req.holder)
          (s.ttlFromMs req.ttlMs 0)).1,
        (f.applyLockAcquire sub req.name (s.holder req.holder)
          (s.ttlFromMs req.ttlMs 0)).2.mapError
            fun e => ⟨.internal, op ++ ": " ++ e⟩) := by
  simp only [attempt, applyAcquire, leads]

theorem unlock_fst {s : LockService} (leads : s.raft = some true) (f : Fsm)
    (sub : Submission) (req : UnlockRequest) :
    (s.unlock f sub req).1 = (f.applyLock sub
      { kind := .lockRelease, id := s.holder req.holder, name := req.name,
        token := req.fencingToken }).1 := by
  simp only [unlock, applyRelease, leads]
  rfl

theorem renew_fst {s : LockService} (leads : s.raft = some true)
    (seen : Option Locks.Table) (f : Fsm) (sub : Submission) (req : LockRenewRequest) :
    (s.renew seen f sub req).1 = (f.applyLock sub (Fsm.stamped .lockRenew sub.now req.name
      (s.holder req.holder) req.fencingToken
      (Locks.clampTTL (s.ttlFromMs req.ttlMs (s.reuseTTL seen req.name)) 0))).1 := by
  simp only [renew, applyRenew, leads, Fsm.applyLockRenew, Fsm.applyRenew]
  cases (f.applyLock sub _).2 <;> rfl

theorem renew_ok {s : LockService} (leads : s.raft = some true)
    {seen : Option Locks.Table} {f : Fsm} {sub : Submission} {req : LockRenewRequest}
    {resp : LockRenewResponse} (ok : (s.renew seen f sub req).2 = .ok resp) :
    ∃ res, (f.applyLock sub (Fsm.stamped .lockRenew sub.now req.name (s.holder req.holder)
      req.fencingToken (Locks.clampTTL (s.ttlFromMs req.ttlMs (s.reuseTTL seen req.name)) 0))).2 =
        .ok res := by
  simp only [renew, applyRenew, leads, Fsm.applyLockRenew, Fsm.applyRenew] at ok
  cases hres : (f.applyLock sub (Fsm.stamped .lockRenew sub.now req.name (s.holder req.holder)
      req.fencingToken (Locks.clampTTL (s.ttlFromMs req.ttlMs (s.reuseTTL seen req.name)) 0))).2
    with
  | ok res => exact ⟨res, rfl⟩
  | error e =>
      rw [hres] at ok
      cases ok

end LockService

namespace LeaseService

theorem grant_eq {s : LeaseService} (leads : s.raft = some true) (f : Fsm) (sub : Submission)
    (q : GrantRequest) :
    s.grant f sub q =
      ((f.applyLeaseGrant sub q.name (s.owner q.owner) (s.ttlFromMs q.ttlMs 0)).1,
        (f.applyLeaseGrant sub q.name (s.owner q.owner)
          (s.ttlFromMs q.ttlMs 0)).2.mapError
            fun e => ⟨.internal, "grant: " ++ e⟩) := by
  simp only [grant, applyGrant, leads]

theorem revoke_fst {s : LeaseService} (leads : s.raft = some true) (f : Fsm)
    (sub : Submission) (req : RevokeRequest) :
    (s.revoke f sub req).1 = (f.applyLock sub
      { kind := .leaseRevoke, id := s.owner req.owner, name := req.name,
        token := req.fencingToken }).1 := by
  simp only [revoke, applyRevoke, leads]
  rfl

theorem renew_fst {s : LeaseService} (leads : s.raft = some true)
    (seen : Option Leases.Table) (f : Fsm) (sub : Submission) (req : LeaseRenewRequest) :
    (s.renew seen f sub req).1 = (f.applyLock sub (Fsm.stamped .leaseRenew sub.now req.name
      (s.owner req.owner) req.fencingToken
      (Leases.clampTTL (s.ttlFromMs req.ttlMs (s.reuseTTL seen req.name)) 0))).1 := by
  simp only [renew, applyRenew, leads, Fsm.applyLeaseRenew, Fsm.applyRenew]
  cases (f.applyLock sub _).2 <;> rfl

theorem renew_ok {s : LeaseService} (leads : s.raft = some true)
    {seen : Option Leases.Table} {f : Fsm} {sub : Submission} {req : LeaseRenewRequest}
    {resp : LeaseRenewResponse} (ok : (s.renew seen f sub req).2 = .ok resp) :
    ∃ res, (f.applyLock sub (Fsm.stamped .leaseRenew sub.now req.name (s.owner req.owner)
      req.fencingToken (Leases.clampTTL (s.ttlFromMs req.ttlMs (s.reuseTTL seen req.name)) 0))).2 =
        .ok res := by
  simp only [renew, applyRenew, leads, Fsm.applyLeaseRenew, Fsm.applyRenew] at ok
  cases hres : (f.applyLock sub (Fsm.stamped .leaseRenew sub.now req.name (s.owner req.owner)
      req.fencingToken (Leases.clampTTL (s.ttlFromMs req.ttlMs (s.reuseTTL seen req.name)) 0))).2
    with
  | ok res => exact ⟨res, rfl⟩
  | error e =>
      rw [hres] at ok
      cases ok

end LeaseService

section Sole

omit [Unicode]

/-- The members of a daemon that leads alone, and its services. -/
def soleMembers : Membership.Engine := .new 0 "n1" "10.0.0.1:7947"

def soleLocks : LockService := ⟨soleMembers, some true, 15 * Duration.second⟩

def soleLeases : LeaseService := ⟨soleMembers, some true, 15 * Duration.second⟩

def committedAt (now : Time) : Submission := ⟨now, now, .committed⟩

def freshTables : Fsm := ⟨soleMembers, some .new, some .new⟩

end Sole

end Clusdr
