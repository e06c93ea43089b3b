import Clusdr.Core.Snapshot
import Clusdr.Metatheory.LockTable
import Clusdr.Metatheory.LeaseTable

/-!
What a log entry does to each half of the state machine. A command acts on the
lock table, on the lease table or on the member list and leaves the other two;
on a table its effect and its answer are those of a register operation.
-/

namespace Clusdr.Consensus

open Go (Time Unicode)
open Fencing (Op Register Reply)

/-- The lock action a command stands for, at clock reading `now`. -/
def Command.lockAction (cmd : Command) (now : Time) : Option Locks.Action :=
  match cmd.kind with
  | .lockAcquire => some (.acquire now cmd.name cmd.id cmd.deadlineOf cmd.ttlOf)
  | .lockRelease => some (.release cmd.name cmd.id cmd.token)
  | .lockRenew => some (.renew cmd.name cmd.id cmd.token cmd.deadlineOf cmd.ttlOf)
  | .lockExpire => some (.expire cmd.name cmd.token)
  | _ => none

def Command.leaseAction (cmd : Command) (now : Time) : Option Leases.Action :=
  match cmd.kind with
  | .leaseGrant => some (.grant now cmd.name cmd.id cmd.deadlineOf cmd.ttlOf)
  | .leaseRevoke => some (.revoke cmd.name cmd.id cmd.token)
  | .leaseRenew => some (.renew cmd.name cmd.id cmd.token cmd.deadlineOf cmd.ttlOf)
  | .leaseExpire => some (.expire cmd.name cmd.token)
  | _ => none

/-- The register operation a lock command stands for. -/
def Command.lockOp (cmd : Command) : Option (Op String String Lifetime) :=
  match cmd.kind with
  | .lockAcquire => some (.take cmd.name cmd.id ⟨cmd.deadlineOf, cmd.ttlOf⟩)
  | .lockRelease => some (.drop cmd.name cmd.id cmd.token)
  | .lockRenew => some (.renew cmd.name cmd.id cmd.token ⟨cmd.deadlineOf, cmd.ttlOf⟩)
  | .lockExpire => some (.expire cmd.name cmd.token)
  | _ => none

/-- The register operation a lease command stands for. -/
def Command.leaseOp (cmd : Command) : Option (Op String String Lifetime) :=
  match cmd.kind with
  | .leaseGrant => some (.take cmd.name cmd.id ⟨cmd.deadlineOf, cmd.ttlOf⟩)
  | .leaseRevoke => some (.drop cmd.name cmd.id cmd.token)
  | .leaseRenew => some (.renew cmd.name cmd.id cmd.token ⟨cmd.deadlineOf, cmd.ttlOf⟩)
  | .leaseExpire => some (.expire cmd.name cmd.token)
  | _ => none

variable [Unicode]

/-- What `Apply` answers when the register replies. -/
def Command.lockAnswer (cmd : Command) (reply : Reply) : LockResult :=
  match cmd.kind with
  | .lockAcquire => match Locks.Table.takenResult cmd.name reply with
      | .ok (token, acquired) => ⟨acquired, token, cmd.deadlineUnixMs, ""⟩
      | .error err => ⟨false, 0, 0, err⟩
  | .lockRelease => match Locks.Table.doneResult cmd.name reply with
      | .ok _ => ⟨false, cmd.token, 0, ""⟩
      | .error err => ⟨false, 0, 0, err⟩
  | .lockRenew => match Locks.Table.doneResult cmd.name reply with
      | .ok _ => ⟨true, cmd.token, cmd.deadlineUnixMs, ""⟩
      | .error err => ⟨false, 0, 0, err⟩
  | _ => ⟨Locks.Table.expiredResult reply, cmd.token, 0, ""⟩

/-- What `Apply` answers when the register replies. -/
def Command.leaseAnswer (cmd : Command) (reply : Reply) : LockResult :=
  match cmd.kind with
  | .leaseGrant => match Leases.Table.takenResult cmd.name reply with
      | .ok (token, acquired) => ⟨acquired, token, cmd.deadlineUnixMs, ""⟩
      | .error err => ⟨false, 0, 0, err⟩
  | .leaseRevoke => match Leases.Table.doneResult cmd.name reply with
      | .ok _ => ⟨false, cmd.token, 0, ""⟩
      | .error err => ⟨false, 0, 0, err⟩
  | .leaseRenew => match Leases.Table.doneResult cmd.name reply with
      | .ok _ => ⟨true, cmd.token, cmd.deadlineUnixMs, ""⟩
      | .error err => ⟨false, 0, 0, err⟩
  | _ => ⟨Leases.Table.expiredResult reply, cmd.token, 0, ""⟩

namespace Fsm

theorem lockCommand_act (t : Locks.Table) (now : Time) (cmd : Command) :
    (lockCommand t now cmd).1 = ((cmd.lockAction now).map t.act).getD t := by
  cases hkind : cmd.kind with
  | lockAcquire =>
      simp [lockCommand_acquire now t hkind, Command.lockAction, hkind, Locks.Table.act]
  | lockRelease =>
      simp [lockCommand_release now t hkind, Command.lockAction, hkind, Locks.Table.act]
  | lockRenew => simp [lockCommand_renew now t hkind, Command.lockAction, hkind, Locks.Table.act]
  | _ => simp [lockCommand, Command.lockAction, hkind, Locks.Table.act]

theorem leaseCommand_act (t : Leases.Table) (now : Time) (cmd : Command) :
    (leaseCommand t now cmd).1 = ((cmd.leaseAction now).map t.act).getD t := by
  cases hkind : cmd.kind with
  | leaseGrant =>
      simp [leaseCommand_grant now t hkind, Command.leaseAction, hkind, Leases.Table.act]
  | leaseRevoke =>
      simp [leaseCommand_revoke now t hkind, Command.leaseAction, hkind, Leases.Table.act]
  | leaseRenew =>
      simp [leaseCommand_renew now t hkind, Command.leaseAction, hkind, Leases.Table.act]
  | _ => simp [leaseCommand, Command.leaseAction, hkind, Leases.Table.act]

theorem applyCommand_locks (f : Fsm) (now : Time) (cmd : Command) :
    (f.applyCommand now cmd).1.locks = f.locks.map fun t => (lockCommand t now cmd).1 := by
  obtain ⟨e, locks, leases⟩ := f
  simp only [lockCommand_act, Command.lockAction]
  unfold applyCommand memberCommand
  cases hkind : cmd.kind with
  | lockAcquire | lockRelease | lockRenew | lockExpire =>
      cases locks with
      | none => rfl
      | some t => simp [lockCommand_act, Command.lockAction, hkind]
  | leaseGrant | leaseRenew | leaseRevoke | leaseExpire =>
      cases leases <;> cases locks <;> rfl
  | addMember =>
      simp only [Option.map_none, Option.getD_none, Option.map_id']
      split <;> rfl
  | removeMember | dropMember | unknown => cases locks <;> rfl

theorem applyCommand_leases (f : Fsm) (now : Time) (cmd : Command) :
    (f.applyCommand now cmd).1.leases = f.leases.map fun t => (leaseCommand t now cmd).1 := by
  obtain ⟨e, locks, leases⟩ := f
  simp only [leaseCommand_act, Command.leaseAction]
  unfold applyCommand memberCommand
  cases hkind : cmd.kind with
  | leaseGrant | leaseRenew | leaseRevoke | leaseExpire =>
      cases leases with
      | none => rfl
      | some t => simp [leaseCommand_act, Command.leaseAction, hkind]
  | lockAcquire | lockRelease | lockRenew | lockExpire =>
      cases locks <;> cases leases <;> rfl
  | addMember =>
      simp only [Option.map_none, Option.getD_none, Option.map_id']
      split <;> rfl
  | removeMember | dropMember | unknown => cases leases <;> rfl

theorem lockCommand_acquired (t : Locks.Table) (now : Time) (cmd : Command)
    (hkind : cmd.kind = .lockAcquire) {r : UInt64 × Bool}
    (h : (t.acquire now cmd.name cmd.id cmd.deadlineOf cmd.ttlOf).2 = .ok r) :
    (lockCommand t now cmd).2.1 =
      { acquired := r.2, token := r.1, deadlineUnixMs := cmd.deadlineUnixMs } := by
  rw [lockCommand_acquire now t hkind, h]
  rfl

theorem lockCommand_step (t : Locks.Table) (now : Time) {cmd : Command}
    {op : Op String String Lifetime} (h : cmd.lockOp = some op) :
    (lockCommand t now cmd).1.view = (Register.step Locks.policy t.view op).1 ∧
      (lockCommand t now cmd).2.1 =
        cmd.lockAnswer (Register.step Locks.policy t.view op).2 := by
  unfold Command.lockOp at h
  unfold Command.lockAnswer
  cases hkind : cmd.kind with
  | lockAcquire =>
      simp only [hkind, Option.some.injEq] at h
      subst h
      obtain ⟨hview, hreply⟩ := t.acquire_step now cmd.name cmd.id cmd.deadlineOf cmd.ttlOf
      rw [lockCommand_acquire now t hkind, hreply]
      refine ⟨hview, ?_⟩
      cases Locks.Table.takenResult cmd.name _ <;> rfl
  | lockRelease =>
      simp only [hkind, Option.some.injEq] at h
      subst h
      obtain ⟨hview, hreply⟩ := t.release_step cmd.name cmd.id cmd.token
      rw [lockCommand_release now t hkind, hreply]
      refine ⟨hview, ?_⟩
      cases Locks.Table.doneResult cmd.name _ <;> rfl
  | lockRenew =>
      simp only [hkind, Option.some.injEq] at h
      subst h
      obtain ⟨hview, hreply⟩ := t.renew_step cmd.name cmd.id cmd.token cmd.deadlineOf cmd.ttlOf
      rw [lockCommand_renew now t hkind, hreply]
      refine ⟨hview, ?_⟩
      cases Locks.Table.doneResult cmd.name _ <;> rfl
  | lockExpire =>
      simp only [hkind, Option.some.injEq] at h
      subst h
      have hstep := t.expire_step cmd.name cmd.token
      simp only [lockCommand, hkind, ← hstep.1, ← hstep.2, and_self]
  | _ => simp only [hkind, reduceCtorEq] at h

theorem lockCommand_idle (t : Locks.Table) (now : Time) {cmd : Command}
    (h : cmd.lockOp = none) : lockCommand t now cmd = (t, {}, []) := by
  unfold Command.lockOp at h
  unfold lockCommand
  cases hkind : cmd.kind with
  | lockAcquire | lockRelease | lockRenew | lockExpire =>
      simp only [hkind, reduceCtorEq] at h
  | _ => rfl

theorem leaseCommand_step (t : Leases.Table) (now : Time) {cmd : Command}
    {op : Op String String Lifetime} (h : cmd.leaseOp = some op) :
    (leaseCommand t now cmd).1.view = (Register.step Leases.policy t.view op).1 ∧
      (leaseCommand t now cmd).2.1 =
        cmd.leaseAnswer (Register.step Leases.policy t.view op).2 := by
  unfold Command.leaseOp at h
  unfold Command.leaseAnswer
  cases hkind : cmd.kind with
  | leaseGrant =>
      simp only [hkind, Option.some.injEq] at h
      subst h
      obtain ⟨hview, hreply⟩ := t.grant_step now cmd.name cmd.id cmd.deadlineOf cmd.ttlOf
      rw [leaseCommand_grant now t hkind, hreply]
      refine ⟨hview, ?_⟩
      cases Leases.Table.takenResult cmd.name _ <;> rfl
  | leaseRevoke =>
      simp only [hkind, Option.some.injEq] at h
      subst h
      obtain ⟨hview, hreply⟩ := t.revoke_step cmd.name cmd.id cmd.token
      rw [leaseCommand_revoke now t hkind, hreply]
      refine ⟨hview, ?_⟩
      cases Leases.Table.doneResult cmd.name _ <;> rfl
  | leaseRenew =>
      simp only [hkind, Option.some.injEq] at h
      subst h
      obtain ⟨hview, hreply⟩ := t.renew_step cmd.name cmd.id cmd.token cmd.deadlineOf cmd.ttlOf
      rw [leaseCommand_renew now t hkind, hreply]
      refine ⟨hview, ?_⟩
      cases Leases.Table.doneResult cmd.name _ <;> rfl
  | leaseExpire =>
      simp only [hkind, Option.some.injEq] at h
      subst h
      have hstep := t.expire_step cmd.name cmd.token
      simp only [leaseCommand, hkind, ← hstep.1, ← hstep.2, and_self]
  | _ => simp only [hkind, reduceCtorEq] at h

theorem leaseCommand_idle (t : Leases.Table) (now : Time) {cmd : Command}
    (h : cmd.leaseOp = none) : leaseCommand t now cmd = (t, {}, []) := by
  unfold Command.leaseOp at h
  unfold leaseCommand
  cases hkind : cmd.kind with
  | leaseGrant | leaseRevoke | leaseRenew | leaseExpire =>
      simp only [hkind, reduceCtorEq] at h
  | _ => rfl

end Fsm

end Clusdr.Consensus
