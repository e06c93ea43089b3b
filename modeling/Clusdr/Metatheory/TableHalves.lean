import Clusdr.Fencing.Tracking
import Clusdr.Metatheory.FsmTables

/-!
Locks and leases as two halves of the replicated state with the same laws. Each
command acts on one register at most, by one operation, and answers with its
reply; two replicas whose registers agree keep agreeing.
-/

namespace Clusdr.Consensus

open Go (Time Unicode)
open Fencing (Grant Op Policy Register Reply)

variable [Unicode]

/-- A half of the replicated state: the register its table stands for, the
commands that act on it, and what they answer. -/
structure Half where
  policy : Policy String String
  register : Fsm → Option (Register String String Lifetime)
  op : Command → Option (Op String String Lifetime)
  answer : Command → Reply → LockResult
  /-- The answer of a node without the table. -/
  missing : LockResult
  known : ∀ cmd o, op cmd = some o → cmd.kind ∈ CommandKind.known
  missing_err : missing.err ≠ ""
  idle : ∀ f now cmd, op cmd = none → register (Fsm.applyCommand f now cmd).1 = register f
  acts : ∀ f now cmd o, op cmd = some o →
    register (Fsm.applyCommand f now cmd).1 =
      (register f).map fun r => (Register.step policy r o).1
  responds : ∀ f now cmd o, op cmd = some o →
    (Fsm.applyCommand f now cmd).2.1 =
      .lock (((register f).map fun r => answer cmd (Register.step policy r o).2).getD missing)
  taken : ∀ cmd name holder d reply, op cmd = some (.take name holder d) →
    (answer cmd reply).acquired = true → reply = .taken (answer cmd reply).token
  refused : ∀ cmd name holder token d reply, op cmd = some (.renew name holder token d) →
    (answer cmd reply).err ≠ "" → ∃ why, reply = .refused why

namespace Half

variable (half : Half)

/-- The live grant of a name. -/
def grant (f : Fsm) (name : String) : Option (Grant String Lifetime) :=
  (half.register f).bind fun r => r.grants.get name

theorem grant_eq {f : Fsm} {r : Register String String Lifetime} (hr : half.register f = some r)
    (name : String) : half.grant f name = r.grants.get name := by
  rw [grant, hr, Option.bind_some]

theorem exists_register {f : Fsm} {name : String} {g : Grant String Lifetime}
    (held : half.grant f name = some g) : ∃ r, half.register f = some r := by
  obtain ⟨r, hr, -⟩ := Option.bind_eq_some_iff.mp held
  exact ⟨r, hr⟩

/-- From the one state to the other the table makes at most one operation. -/
def Moves (f f' : Fsm) : Prop :=
  ∀ r, half.register f = some r →
    ∃ r', half.register f' = some r' ∧ Register.Moves half.policy r r'

theorem moves_refl (f : Fsm) : half.Moves f f := fun r hr => ⟨r, hr, Or.inl rfl⟩

theorem moves_applyCommand (f : Fsm) (now : Time) (cmd : Command) :
    half.Moves f (f.applyCommand now cmd).1 := by
  intro r hr
  cases hop : half.op cmd with
  | none => exact ⟨r, (half.idle f now cmd hop).trans hr, Or.inl rfl⟩
  | some o =>
      refine ⟨(Register.step half.policy r o).1, ?_, Or.inr ⟨o, rfl⟩⟩
      rw [half.acts f now cmd o hop, hr, Option.map_some]

theorem moves_apply (f : Fsm) (now : Time) (entry : LogEntry) :
    half.Moves f (f.apply now entry).1 := by
  cases entry with
  | other => exact half.moves_refl f
  | command data =>
      simp only [Fsm.apply]
      cases data.bind Command.decode with
      | error e => exact half.moves_refl f
      | ok cmd => exact half.moves_applyCommand f now cmd

/-- A live grant is never exchanged for another by one command. -/
theorem grant_applyCommand {f : Fsm} {now : Time} {cmd : Command} {name : String}
    {g g' : Grant String Lifetime} (held : half.grant f name = some g)
    (after : half.grant (f.applyCommand now cmd).1 name = some g') :
    g'.holder = g.holder ∧ g'.token = g.token := by
  obtain ⟨r, hr⟩ := half.exists_register held
  obtain ⟨r', hr', moves⟩ := half.moves_applyCommand f now cmd r hr
  rw [half.grant_eq hr] at held
  rw [half.grant_eq hr'] at after
  rcases moves with rfl | ⟨op, rfl⟩
  · cases held.symm.trans after
    exact ⟨rfl, rfl⟩
  · exact Register.grant_step held after

theorem register_congr {f g : Fsm} (same : half.register f = half.register g) (now now' : Time)
    (cmd : Command) :
    half.register (f.applyCommand now cmd).1 = half.register (g.applyCommand now' cmd).1 := by
  cases hop : half.op cmd with
  | none => rw [half.idle f now cmd hop, half.idle g now' cmd hop, same]
  | some o => rw [half.acts f now cmd o hop, half.acts g now' cmd o hop, same]

theorem response_congr {f g : Fsm} (same : half.register f = half.register g) {cmd : Command}
    {o : Op String String Lifetime} (hop : half.op cmd = some o) (now now' : Time) :
    (f.applyCommand now cmd).2.1 = (g.applyCommand now' cmd).2.1 := by
  rw [half.responds f now cmd o hop, half.responds g now' cmd o hop, same]

end Half

omit [Unicode] in
theorem Command.lockOp_known {cmd : Command} {o : Op String String Lifetime}
    (h : cmd.lockOp = some o) : cmd.kind ∈ CommandKind.known := by
  unfold Command.lockOp at h
  cases hkind : cmd.kind with
  | unknown text => simp [hkind] at h
  | _ => simp [CommandKind.known]

omit [Unicode] in
theorem Command.leaseOp_known {cmd : Command} {o : Op String String Lifetime}
    (h : cmd.leaseOp = some o) : cmd.kind ∈ CommandKind.known := by
  unfold Command.leaseOp at h
  cases hkind : cmd.kind with
  | unknown text => simp [hkind] at h
  | _ => simp [CommandKind.known]

def lockHalf : Half where
  policy := Locks.policy
  register f := f.locks.map Locks.Table.view
  op := Command.lockOp
  answer := Command.lockAnswer
  missing := { err := "lock table not initialized" }
  known _ _ := Command.lockOp_known
  missing_err := by decide
  idle f now cmd h := by
    rw [Fsm.applyCommand_locks, Option.map_map]
    simp only [Function.comp_def, Fsm.lockCommand_idle _ now h]
  acts f now cmd o h := by
    rw [Fsm.applyCommand_locks, Option.map_map, Option.map_map]
    simp only [Function.comp_def, (Fsm.lockCommand_step _ now h).1]
  responds f now cmd o h := by
    have hstep := fun t => (Fsm.lockCommand_step t now h).2
    unfold Command.lockOp at h
    unfold Fsm.applyCommand
    cases hkind : cmd.kind with
    | lockAcquire | lockRelease | lockRenew | lockExpire =>
        cases f.locks with
        | none => rfl
        | some t => exact congrArg Response.lock (hstep t)
    | _ => simp only [hkind, reduceCtorEq] at h
  taken cmd name holder d reply h acquired := by
    unfold Command.lockOp at h
    unfold Command.lockAnswer at acquired ⊢
    cases hkind : cmd.kind with
    | lockAcquire =>
        simp only [hkind] at acquired ⊢
        cases reply with
        | taken token => rfl
        | held | done | expired | refused => simp [Locks.Table.takenResult] at acquired
    | _ => simp [hkind] at h
  refused cmd name holder token d reply h err := by
    unfold Command.lockOp at h
    unfold Command.lockAnswer at err
    cases hkind : cmd.kind with
    | lockRenew =>
        simp only [hkind] at err
        cases reply with
        | refused why => exact ⟨why, rfl⟩
        | taken | held | done | expired => simp [Locks.Table.doneResult] at err
    | _ => simp [hkind] at h

def leaseHalf : Half where
  policy := Leases.policy
  register f := f.leases.map Leases.Table.view
  op := Command.leaseOp
  answer := Command.leaseAnswer
  missing := { err := "lease table not initialized" }
  known _ _ := Command.leaseOp_known
  missing_err := by decide
  idle f now cmd h := by
    rw [Fsm.applyCommand_leases, Option.map_map]
    simp only [Function.comp_def, Fsm.leaseCommand_idle _ now h]
  acts f now cmd o h := by
    rw [Fsm.applyCommand_leases, Option.map_map, Option.map_map]
    simp only [Function.comp_def, (Fsm.leaseCommand_step _ now h).1]
  responds f now cmd o h := by
    have hstep := fun t => (Fsm.leaseCommand_step t now h).2
    unfold Command.leaseOp at h
    unfold Fsm.applyCommand
    cases hkind : cmd.kind with
    | leaseGrant | leaseRevoke | leaseRenew | leaseExpire =>
        cases f.leases with
        | none => rfl
        | some t => exact congrArg Response.lock (hstep t)
    | _ => simp only [hkind, reduceCtorEq] at h
  taken cmd name holder d reply h acquired := by
    unfold Command.leaseOp at h
    unfold Command.leaseAnswer at acquired ⊢
    cases hkind : cmd.kind with
    | leaseGrant =>
        simp only [hkind] at acquired ⊢
        cases reply with
        | taken token => rfl
        | held | done | expired | refused => simp [Leases.Table.takenResult] at acquired
    | _ => simp [hkind] at h
  refused cmd name holder token d reply h err := by
    unfold Command.leaseOp at h
    unfold Command.leaseAnswer at err
    cases hkind : cmd.kind with
    | leaseRenew =>
        simp only [hkind] at err
        cases reply with
        | refused why => exact ⟨why, rfl⟩
        | taken | held | done | expired => simp [Leases.Table.doneResult] at err
    | _ => simp [hkind] at h

namespace Fsm

/-- The live grant of a lock name, without the replica's own acquisition time. -/
def lockGrant (f : Fsm) (name : String) : Option (Grant String Lifetime) :=
  (f.locks.bind fun t => t.get name).map Locks.Record.toGrant

def leaseGrant (f : Fsm) (name : String) : Option (Grant String Lifetime) :=
  (f.leases.bind fun t => t.get name).map Leases.Record.toGrant

theorem lockGrant_eq (f : Fsm) (name : String) : f.lockGrant name = lockHalf.grant f name := by
  rw [lockGrant, Half.grant, lockHalf, Option.map_bind, Option.bind_map]
  simp only [Function.comp_def, Locks.Table.view_get]
  rfl

theorem leaseGrant_eq (f : Fsm) (name : String) : f.leaseGrant name = leaseHalf.grant f name := by
  rw [leaseGrant, Half.grant, leaseHalf, Option.map_bind, Option.bind_map]
  simp only [Function.comp_def, Leases.Table.view_get]
  rfl

omit [Unicode] in
theorem memberCommand_response (f g : Fsm) (now now' : Time) (cmd : Command) :
    (f.memberCommand now cmd).2.1 = (g.memberCommand now' cmd).2.1 := by
  unfold memberCommand
  cases cmd.kind with
  | addMember =>
      simp only [Membership.Engine.joinAs]
      by_cases hid : cmd.id = "" <;> simp [hid]
  | _ => rfl

/-- Both tables of the replicas stand for the same registers. -/
structure SameTables (f g : Fsm) : Prop where
  locks : f.locks.map Locks.Table.view = g.locks.map Locks.Table.view
  leases : f.leases.map Leases.Table.view = g.leases.map Leases.Table.view

omit [Unicode] in
theorem SameTables.trans {f g h : Fsm} (fg : SameTables f g) (gh : SameTables g h) :
    SameTables f h :=
  ⟨fg.locks.trans gh.locks, fg.leases.trans gh.leases⟩

theorem applyCommand_response {f g : Fsm} (same : SameTables f g) (now now' : Time)
    (cmd : Command) : (f.applyCommand now cmd).2.1 = (g.applyCommand now' cmd).2.1 := by
  cases hlock : cmd.lockOp with
  | some o => exact lockHalf.response_congr same.locks hlock now now'
  | none =>
      cases hlease : cmd.leaseOp with
      | some o => exact leaseHalf.response_congr same.leases hlease now now'
      | none =>
          have member := memberCommand_response f g now now' cmd
          unfold Command.lockOp at hlock
          unfold Command.leaseOp at hlease
          unfold applyCommand
          cases hkind : cmd.kind with
          | addMember | removeMember | dropMember => exact member
          | unknown text => rfl
          | lockAcquire | lockRelease | lockRenew | lockExpire => simp [hkind] at hlock
          | leaseGrant | leaseRenew | leaseRevoke | leaseExpire => simp [hkind] at hlease

theorem apply_congr {f g : Fsm} (same : SameTables f g) (now now' : Time) (entry : LogEntry) :
    SameTables (f.apply now entry).1 (g.apply now' entry).1 ∧
      (f.apply now entry).2.1 = (g.apply now' entry).2.1 := by
  cases entry with
  | other => exact ⟨same, rfl⟩
  | command data =>
      simp only [apply]
      cases data.bind Command.decode with
      | error e => exact ⟨same, rfl⟩
      | ok cmd =>
          exact ⟨⟨lockHalf.register_congr same.locks now now' cmd,
            leaseHalf.register_congr same.leases now now' cmd⟩,
            applyCommand_response same now now' cmd⟩

end Fsm

end Clusdr.Consensus
