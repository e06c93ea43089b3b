import Clusdr.Metatheory.Submissions
import Clusdr.Metatheory.TruncatedTable

/-!
Lock commands that a leader applies as soon as they are submitted. The errors of
the table have a text, so the node reports every one of them; what is left in the
table is what the method leaves, rounded down to milliseconds.
-/

namespace Clusdr

open Go (Time Duration Unicode)
open Go.Duration (Whole)
open Consensus (Command CommandKind Fsm)

variable [Unicode]

namespace Locks.Table

variable {t : Table} {name holder : String} {token : UInt64} {deadline : Time} {ttl : Duration}

variable {e : String}

theorem acquire_error_ne {now : Time}
    (h : (t.acquire now name holder deadline ttl).2 = .error e) : e ≠ "" :=
  takenResult_error_ne ((t.acquire_step now name holder deadline ttl).2.symm.trans h)

theorem release_error_ne (h : (t.release name holder token).2 = .error e) : e ≠ "" :=
  doneResult_error_ne ((t.release_step name holder token).2.symm.trans h)

theorem renew_error_ne (h : (t.renew name holder token deadline ttl).2 = .error e) : e ≠ "" :=
  doneResult_error_ne ((t.renew_step name holder token deadline ttl).2.symm.trans h)

end Locks.Table

namespace Consensus.Fsm

section Committed

variable {f : Fsm} {t : Locks.Table} (locks : f.locks = some t) (now appliedAt : Time)

include locks

theorem applyCommand_lock {cmd : Command}
    (kind : cmd.kind = .lockAcquire ∨ cmd.kind = .lockRelease ∨ cmd.kind = .lockRenew ∨
      cmd.kind = .lockExpire) :
    f.applyCommand appliedAt cmd =
      ({ f with locks := some (lockCommand t appliedAt cmd).1 },
        .lock (lockCommand t appliedAt cmd).2.1, (lockCommand t appliedAt cmd).2.2) := by
  rcases kind with hkind | hkind | hkind | hkind
  all_goals
    simp only [applyCommand, hkind]
    rw [locks]

/-- What a leader reports of a lock command that is applied at once. -/
theorem applyLock_table {cmd : Command}
    (kind : cmd.kind = .lockAcquire ∨ cmd.kind = .lockRelease ∨ cmd.kind = .lockRenew ∨
      cmd.kind = .lockExpire) :
    f.applyLock ⟨now, appliedAt, .committed⟩ cmd =
      ({ f with locks := some (lockCommand t appliedAt cmd).1 },
        if (lockCommand t appliedAt cmd).2.1.err ≠ "" then
          .error (cmd.kind.text ++ " " ++ cmd.name ++ ": " ++ (lockCommand t appliedAt cmd).2.1.err)
        else .ok (lockCommand t appliedAt cmd).2.1) := by
  have known : cmd.kind ∈ CommandKind.known := by
    rcases kind with hkind | hkind | hkind | hkind <;> rw [hkind] <;> decide
  have happlied := applyCommand_lock locks appliedAt kind
  generalize lockCommand t appliedAt cmd = r at happlied
  have hresponse : (f.applyCommand appliedAt cmd).2.1 = .lock r.2.1 := by rw [happlied]
  rw [applyLock_committed known (s := ⟨now, appliedAt, .committed⟩) rfl hresponse, happlied]

/-- A command that carries out a table method reports what the method returns. -/
theorem applyLock_method {cmd : Command}
    (kind : cmd.kind = .lockAcquire ∨ cmd.kind = .lockRelease ∨ cmd.kind = .lockRenew ∨
      cmd.kind = .lockExpire) {α : Type} {t' : Locks.Table} {result : α → LockResult}
    {res : Except String α} (hcommand : lockCommand t appliedAt cmd = (t', .of result res, []))
    (told : ∀ e, res = .error e → e ≠ "") (plain : ∀ a, (result a).err = "") :
    f.applyLock ⟨now, appliedAt, .committed⟩ cmd =
      ({ f with locks := some t' },
        (res.map result).mapError fun e => cmd.kind.text ++ " " ++ cmd.name ++ ": " ++ e) := by
  rw [applyLock_table locks now appliedAt kind, hcommand]
  cases res with
  | ok a =>
      rw [if_neg (by exact fun h => h (plain a))]
      rfl
  | error e =>
      rw [if_pos (by exact told e rfl)]
      rfl

end Committed

section ToMs

variable {f : Fsm} {t : Locks.Table} (locks : f.locks = some t.toMs) {now : Int} (appliedAt : Time)
  {ttl : Duration} (name holder : String) (token : UInt64)

include locks

theorem applyLockAcquire_toMs (clock : Countable now) (clamped : Clamped ttl) (whole : Whole ttl) :
    f.applyLockAcquire ⟨now, appliedAt, .committed⟩ name holder ttl =
      ({ f with locks := some (t.acquire appliedAt name holder (Time.add now ttl) ttl).1.toMs },
        (t.acquire appliedAt name holder (Time.add now ttl) ttl).2.mapError fun e =>
          "lock_acquire " ++ name ++ ": " ++ e) := by
  have hcommand := lockCommand_acquire appliedAt t.toMs
    (show (stamped .lockAcquire now name holder 0 ttl).kind = .lockAcquire from rfl)
  rw [deadlineOf_stamped clock clamped, ttlOf_stamped clamped _ _ _ _ whole,
    Locks.Table.acquire_toMs] at hcommand
  rw [applyLockAcquire, clampTTL_of_clamped clamped, applyAcquire,
    applyLock_method locks now appliedAt (Or.inl rfl) hcommand
      (fun _ => Locks.Table.acquire_error_ne) fun _ => rfl]
  change (_, Except.map _ (Except.mapError _ (Except.map _
    (t.acquire appliedAt name holder (Time.add now ttl) ttl).2))) = _
  cases (t.acquire appliedAt name holder (Time.add now ttl) ttl).2 <;> rfl

theorem applyLockRenew_toMs (clock : Countable now) (clamped : Clamped ttl) (whole : Whole ttl) :
    f.applyLockRenew ⟨now, appliedAt, .committed⟩ name holder token ttl =
      ({ f with locks := some (t.renew name holder token (Time.add now ttl) ttl).1.toMs },
        ((t.renew name holder token (Time.add now ttl) ttl).2.map
          fun _ => Time.add now ttl).mapError fun e => "lock_renew " ++ name ++ ": " ++ e) := by
  have hcommand := lockCommand_renew appliedAt t.toMs
    (show (stamped .lockRenew now name holder token ttl).kind = .lockRenew from rfl)
  rw [deadlineOf_stamped clock clamped, ttlOf_stamped clamped _ _ _ _ whole,
    Locks.Table.renew_toMs] at hcommand
  rw [applyLockRenew, clampTTL_of_clamped clamped, applyRenew,
    applyLock_method locks now appliedAt (Or.inr (Or.inr (Or.inl rfl))) hcommand
      (fun _ => Locks.Table.renew_error_ne) fun _ => rfl]
  change (_, Except.map _ (Except.mapError _ (Except.map _
    (t.renew name holder token (Time.add now ttl) ttl).2))) = _
  cases (t.renew name holder token (Time.add now ttl) ttl).2 <;> rfl

theorem applyLockRelease_toMs (now : Time) :
    f.applyLockRelease ⟨now, appliedAt, .committed⟩ name holder token =
      ({ f with locks := some (t.release name holder token).1.toMs },
        (t.release name holder token).2.mapError
          fun e => "lock_release " ++ name ++ ": " ++ e) := by
  let cmd : Command := { kind := .lockRelease, id := holder, name, token }
  have hkind : cmd.kind = .lockRelease := rfl
  have hcommand := lockCommand_release appliedAt t.toMs hkind
  rw [Locks.Table.release_toMs] at hcommand
  rw [applyLockRelease, applyEnd, applyLock_method locks now appliedAt (Or.inr (Or.inl rfl))
    hcommand (fun _ => Locks.Table.release_error_ne) fun _ => rfl]
  cases (t.release name holder token).2 <;> rfl

theorem applyLockExpire_toMs (now : Time) :
    (f.applyLockExpire ⟨now, appliedAt, .committed⟩ name token).1 =
      { f with locks := some (t.expire name token).1.toMs } := by
  rw [applyLockExpire, applyEnd,
    applyLock_table locks now appliedAt (Or.inr (Or.inr (Or.inr rfl))), ← Locks.Table.expire_toMs]
  rfl

end ToMs

end Consensus.Fsm

end Clusdr
