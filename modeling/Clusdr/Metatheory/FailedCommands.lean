import Clusdr.Core.Fsm
import Clusdr.Metatheory.LockTable
import Clusdr.Metatheory.LeaseTable

/-!
A command that reports a failure has done nothing: as each method of a table, it
leaves the state as it is or reports a success.
-/

namespace Clusdr

open Go (Time Duration Unicode)
open Clusdr.Membership (Engine normalizeRole)
open Consensus (Command CommandKind Fsm LockResult LogEntry Response)

namespace Membership.Engine

/-- A join is refused for an empty id only, before anything is changed. -/
theorem joinAs_of_error {e : Engine} {now : Time} {id addr role err : String}
    (refused : (e.joinAs now id addr role).2.1 = .error err) :
    (e.joinAs now id addr role).1 = e ∧ (e.joinAs now id addr role).2.2 = [] := by
  unfold joinAs at refused ⊢
  split
  · exact ⟨rfl, rfl⟩
  · rename_i hid
    rw [if_neg hid] at refused
    cases refused

end Membership.Engine

namespace Consensus

/-- The commands that say with `Acquired = false` that nothing was taken or dropped. -/
def CommandKind.reportsTaken : CommandKind → Bool
  | .lockAcquire | .leaseGrant | .lockExpire | .leaseExpire => true
  | _ => false

/-- A result by which a table command says that it failed. -/
def LockResult.Failed (kind : CommandKind) (res : LockResult) : Prop :=
  res.err ≠ "" ∨ (kind.reportsTaken = true ∧ res.acquired = false)

theorem LockResult.not_failed {kind : CommandKind} {res : LockResult} (err : res.err = "")
    (taken : kind.reportsTaken = true → res.acquired = true) : ¬ res.Failed kind := by
  rintro (herr | ⟨hkind, hacquired⟩)
  · exact herr err
  · exact absurd ((taken hkind).symm.trans hacquired) Bool.noConfusion

/-- A command on a table, by its outcome: if it failed it has done nothing. -/
def Harmless {T : Type} (kind : CommandKind) (t : T) (out : T × LockResult × List Event) : Prop :=
  out.2.1.Failed kind → out.1 = t ∧ out.2.2 = []

section Outcomes

variable {T : Type} {t t' : T} {kind : CommandKind} {emitted : List Event} {P : Prop}

theorem harmless_take {res : Except String (UInt64 × Bool)}
    (cases : (t' = t ∧ emitted = []) ∨ (∃ token, res = .ok (token, true)) ∧ P)
    (deadlineUnixMs : Int64) :
    Harmless kind t (t', .of (fun r => ⟨r.2, r.1, deadlineUnixMs, ""⟩) res, emitted) := by
  intro failed
  rcases cases with hsame | ⟨⟨token, rfl⟩, -⟩
  · exact hsame
  · exact absurd failed (LockResult.not_failed rfl fun _ => rfl)

theorem harmless_done {res : Except String Unit}
    (cases : (t' = t ∧ emitted = []) ∨ res = .ok () ∧ P) {told : Unit → LockResult}
    (silent : (told ()).err = "") (kept : kind.reportsTaken = false) :
    Harmless kind t (t', .of told res, emitted) := by
  intro failed
  rcases cases with hsame | ⟨rfl, -⟩
  · exact hsame
  · refine absurd failed (LockResult.not_failed silent fun taken => ?_)
    cases kept.symm.trans taken

theorem harmless_expire {out : T × Bool × List Event}
    (cases : out = (t, false, []) ∨ out.2.1 = true ∧ P) (token : UInt64) :
    Harmless kind t (out.1, { acquired := out.2.1, token }, out.2.2) := by
  intro failed
  rcases cases with rfl | ⟨hdropped, -⟩
  · exact ⟨rfl, rfl⟩
  · exact absurd failed (LockResult.not_failed rfl fun _ => hdropped)

end Outcomes

/-- What `Apply` returns for a command of this kind when it failed: an error, or a result
that says so. A command of an unknown kind gets `nil`. -/
def Response.Failed (kind : CommandKind) : Response → Prop
  | .decodeFailed _ | .joinFailed _ => True
  | .lock res => res.Failed kind
  | .nil => ∃ text, kind = .unknown text

theorem Response.not_failed_nil {kind : CommandKind} (known : kind ∈ CommandKind.known) :
    ¬ Response.Failed kind .nil := by
  rintro ⟨text, rfl⟩
  simp [CommandKind.known] at known

/-- The same for a log entry, which may hold no command at all. -/
def LogEntry.Failed : LogEntry → Response → Prop
  | .other, _ => False
  | .command data, res =>
      match data.bind Command.decode with
      | .error e => res = .decodeFailed e
      | .ok cmd => res.Failed cmd.kind

variable [Unicode]

namespace Fsm

theorem lockCommand_harmless (t : Locks.Table) (now : Time) {cmd : Command} {kind : CommandKind}
    (hkind : cmd.kind = kind) : Harmless kind t (lockCommand t now cmd) := by
  cases kind with
  | lockAcquire =>
      rw [lockCommand_acquire now t hkind]
      exact harmless_take ((t.acquire_cases now _ _ _ _).imp_left (⟨·, rfl⟩)) _
  | lockRelease =>
      rw [lockCommand_release now t hkind]
      exact harmless_done ((t.release_cases now _ _ _).imp_left (⟨·, rfl⟩)) rfl rfl
  | lockRenew =>
      rw [lockCommand_renew now t hkind]
      exact harmless_done ((t.renew_cases now _ _ _ _ _).imp_left (⟨·, rfl⟩)) rfl rfl
  | lockExpire =>
      simp only [lockCommand, hkind]
      exact harmless_expire (t.expire_cases now _ _) _
  | _ =>
      simp only [lockCommand, hkind]
      exact fun _ => ⟨rfl, rfl⟩

theorem leaseCommand_harmless (t : Leases.Table) (now : Time) {cmd : Command} {kind : CommandKind}
    (hkind : cmd.kind = kind) : Harmless kind t (leaseCommand t now cmd) := by
  cases kind with
  | leaseGrant =>
      rw [leaseCommand_grant now t hkind]
      exact harmless_take (t.grant_cases now _ _ _ _) _
  | leaseRenew =>
      rw [leaseCommand_renew now t hkind]
      exact harmless_done ((t.renew_cases now _ _ _ _ _).imp_left (⟨·, rfl⟩)) rfl rfl
  | leaseRevoke =>
      rw [leaseCommand_revoke now t hkind]
      exact harmless_done (t.revoke_cases now _ _ _) rfl rfl
  | leaseExpire =>
      simp only [leaseCommand, hkind]
      exact harmless_expire (t.expire_cases now _ _) _
  | _ =>
      simp only [leaseCommand, hkind]
      exact fun _ => ⟨rfl, rfl⟩

theorem applyCommand_of_failed (f : Fsm) (now : Time) {cmd : Command}
    (failed : (f.applyCommand now cmd).2.1.Failed cmd.kind) :
    (f.applyCommand now cmd).1 = f ∧ (f.applyCommand now cmd).2.2 = [] := by
  obtain ⟨e, locks, leases⟩ := f
  cases hkind : cmd.kind with
  | addMember =>
      rw [hkind] at failed
      simp only [applyCommand, memberCommand, hkind] at failed ⊢
      have hrefused := @Engine.joinAs_of_error e now cmd.id cmd.address (normalizeRole cmd.role)
      generalize e.joinAs now cmd.id cmd.address (normalizeRole cmd.role) = res
        at hrefused failed ⊢
      obtain ⟨e', err | joined, emitted⟩ := res
      · obtain ⟨rfl, rfl⟩ := hrefused rfl
        exact ⟨rfl, rfl⟩
      · exact absurd failed (Response.not_failed_nil (by decide))
  | removeMember | dropMember =>
      rw [hkind] at failed
      simp only [applyCommand, memberCommand, hkind] at failed
      exact absurd failed (Response.not_failed_nil (by decide))
  | lockAcquire | lockRelease | lockRenew | lockExpire =>
      simp only [applyCommand, hkind] at failed ⊢
      cases locks with
      | none => exact ⟨rfl, rfl⟩
      | some t =>
          obtain ⟨hsame, hsilent⟩ := lockCommand_harmless t now hkind failed
          exact ⟨congrArg (fun t => Fsm.mk e (some t) leases) hsame, hsilent⟩
  | leaseGrant | leaseRenew | leaseRevoke | leaseExpire =>
      simp only [applyCommand, hkind] at failed ⊢
      cases leases with
      | none => exact ⟨rfl, rfl⟩
      | some t =>
          obtain ⟨hsame, hsilent⟩ := leaseCommand_harmless t now hkind failed
          exact ⟨congrArg (fun t => Fsm.mk e locks (some t)) hsame, hsilent⟩
  | unknown text =>
      simp only [applyCommand, hkind, and_self]

end Fsm

end Consensus

/-- A log entry whose application is reported as a failure, or whose kind is unknown,
leaves the state machine as it was and emits nothing. -/
theorem failed_entry_changes_nothing [Unicode] (f : Fsm) (now : Time) (entry : LogEntry)
    (failed : entry.Failed (f.apply now entry).2.1) :
    (f.apply now entry).1 = f ∧ (f.apply now entry).2.2 = [] := by
  cases entry with
  | other => exact ⟨rfl, rfl⟩
  | command data =>
      cases hdecode : data.bind Command.decode with
      | error e => simp only [Fsm.apply, hdecode, and_self]
      | ok cmd =>
          simp only [Fsm.apply, LogEntry.Failed, hdecode] at failed ⊢
          exact f.applyCommand_of_failed now failed

/-- A release of a lock that another holder has. -/
def foreignRelease : LogEntry :=
  .command (.ok (Command.encode { kind := .lockRelease, id := "b", name := "job", token := 1 }))

def heldByA [Unicode] : Fsm where
  applier := .new 0 "n1" "10.0.0.1:7947"
  locks := some (Locks.Table.new.acquire 0 "job" "a" 0 0).1
  leases := some .new

theorem response_foreignRelease : letI := Unicode.ascii
    foreignRelease.Failed (heldByA.apply 0 foreignRelease).2.1 :=
  Or.inl (by decide +kernel)

theorem failed_entry_changes_nothing_foreign : letI := Unicode.ascii
    foreignRelease.Failed (heldByA.apply 0 foreignRelease).2.1 ∧
      (heldByA.apply 0 foreignRelease).1 = heldByA ∧
      (heldByA.apply 0 foreignRelease).2.2 = [] :=
  ⟨response_foreignRelease,
    @failed_entry_changes_nothing .ascii _ 0 foreignRelease response_foreignRelease⟩

end Clusdr
