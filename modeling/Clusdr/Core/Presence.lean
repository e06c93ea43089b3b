import Clusdr.Core.LeaseService

/-!
Presence leases. Each node keeps the lease named after it; the leader watches for
their expiry and marks the node of an expired one dead. The errors of a keeper are
only logged, so its calls report whether they succeeded.
-/

namespace Clusdr.Presence

open Go (Time Duration Unicode)
open Events (Event)
open Consensus (Command Fsm Submission)

/-- `Prefix`. -/
def leasePrefix : String := "presence."

def leaseName (nodeID : String) : String := leasePrefix ++ nodeID

def nodeID (leaseName : String) : Option String :=
  if Go.hasPrefix leaseName leasePrefix then
    let id := Go.trimPrefix leaseName leasePrefix
    if id = "" then none else some id
  else none

/-- `OnExpired`: the id whose removal it asks for. -/
def onExpired (e : Event) (selfID : String) (isLeader : Bool) : Option String :=
  if e.type ≠ Events.typeLeaseExpired then none
  else (nodeID e.source).filter fun id => id ≠ selfID && isLeader

/-- Whether `App.removeDeadMember` submits the removal. -/
def removesDead (selfID id : String) (isLeader : Bool) : Bool :=
  id ≠ "" && isLeader && id ≠ selfID

/-- The keeper of one node. `regranting` is set between a renewal that failed and
the grant that follows it. -/
structure Keeper where
  ttl : Duration
  token : UInt64
  regranting : Bool

namespace Keeper

/-- `NewKeeper`. -/
def new (ttl : Duration) : Keeper := ⟨if ttl ≤ 0 then 3 * Duration.second else ttl, 0, false⟩

/-- `ensure` after its renewal. -/
def renewed (k : Keeper) (ok : Bool) : Keeper := { k with regranting := !ok }

/-- `ensure` after its grant. -/
def granted (k : Keeper) (token : Option UInt64) : Keeper :=
  { k with token := token.getD k.token, regranting := false }

end Keeper

namespace RaftHolder

variable [Unicode]

/-- The command `Grant` submits: on the leader itself, or by `LeaseService` of the
leader. -/
def grantCommand (srv : LeaseService) (isLeader : Bool) (now : Time) (name owner : String)
    (ttl : Duration) : Option Command :=
  if isLeader then some (Fsm.stamped .leaseGrant now name owner 0 (Leases.clampTTL ttl 0))
  else match srv.route name with
    | .serve => some (Fsm.stamped .leaseGrant now name (srv.owner owner) 0
        (Leases.clampTTL (srv.ttlFromMs ttl.milliseconds 0) 0))
    | _ => none

def renewCommand (srv : LeaseService) (table : Option Leases.Table) (isLeader : Bool) (now : Time)
    (name owner : String) (token : UInt64) (ttl : Duration) : Option Command :=
  if isLeader then some (Fsm.stamped .leaseRenew now name owner token (Leases.clampTTL ttl 0))
  else match srv.route name with
    | .serve => some (Fsm.stamped .leaseRenew now name (srv.owner owner) token
        (Leases.clampTTL (srv.ttlFromMs ttl.milliseconds (srv.reuseTTL table name)) 0))
    | _ => none

/-- What a `Grant` that submitted the command returns. -/
def grantResult (f : Fsm) (sub : Submission) (cmd : Command) : Option UInt64 :=
  match (f.applyAcquire sub cmd).2 with
  | .ok (token, true) => some token
  | _ => none

def renewResult (f : Fsm) (sub : Submission) (cmd : Command) : Bool :=
  match (f.applyLock sub cmd).2 with
  | .ok _ => true
  | .error _ => false

/-- The command is the one the service of the leader submits for the request, and
the result is what its answer says. -/
theorem grantCommand_served {srv : LeaseService} (leads : srv.raft = some true) {name : String}
    (serves : srv.route name = .serve) (owner : String) (ttl : Duration) (f : Fsm)
    (sub : Submission) :
    ∃ cmd, grantCommand srv false sub.now name owner ttl = some cmd ∧
      (srv.grant f sub ⟨name, owner, ttl.milliseconds⟩).1 = (f.applyLock sub cmd).1 ∧
      grantResult f sub cmd =
        match (srv.grant f sub ⟨name, owner, ttl.milliseconds⟩).2 with
        | .ok (token, true) => some token
        | _ => none := by
  refine ⟨_, by simp only [grantCommand, serves]; rfl, ?_, ?_⟩
  · simp only [LeaseService.grant, LeaseService.applyGrant, leads]
    rfl
  · simp only [LeaseService.grant, LeaseService.applyGrant, leads, grantResult,
      Fsm.applyLeaseGrant]
    cases (f.applyAcquire sub _).2 with
    | error e => rfl
    | ok r => obtain ⟨token, granted⟩ := r; cases granted <;> rfl

theorem renewCommand_served {srv : LeaseService} (leads : srv.raft = some true) {name : String}
    (serves : srv.route name = .serve) (owner : String) (token : UInt64) (ttl : Duration)
    (seen : Option Leases.Table) (f : Fsm) (sub : Submission) :
    ∃ cmd, renewCommand srv seen false sub.now name owner token ttl = some cmd ∧
      (srv.renew seen f sub ⟨name, owner, token, ttl.milliseconds⟩).1 = (f.applyLock sub cmd).1 ∧
      renewResult f sub cmd =
        match (srv.renew seen f sub ⟨name, owner, token, ttl.milliseconds⟩).2 with
        | .ok resp => resp.renewed
        | .error _ => false := by
  refine ⟨_, by simp only [renewCommand, serves]; rfl, ?_, ?_⟩
  · simp only [LeaseService.renew, LeaseService.applyRenew, leads, Fsm.applyLeaseRenew,
      Fsm.applyRenew]
    cases (f.applyLock sub _).2 <;> rfl
  · simp only [LeaseService.renew, LeaseService.applyRenew, leads, Fsm.applyLeaseRenew,
      Fsm.applyRenew, renewResult]
    cases (f.applyLock sub _).2 <;> rfl

end RaftHolder

end Clusdr.Presence
