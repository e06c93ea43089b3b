import Clusdr.Core.LeaseService
import Clusdr.Metatheory.TableHalves

/-!
What submitting a command does, seen by the register of its table. A submission
leaves the replicated state alone or applies its command, and what it reports
is the register's reply: a grant it reports is there, a grant of another holder
is not reported, and a committed renewal is reported refused only when the grant
is gone.
-/

namespace Clusdr.Consensus

open Go (Time Duration Unicode)
open Fencing (Grant Op Register)

variable [Unicode]

namespace Fsm

theorem apply_encode {cmd : Command} (known : cmd.kind ∈ CommandKind.known) (f : Fsm)
    (now : Time) : f.apply now (.command (.ok cmd.encode)) = f.applyCommand now cmd := by
  simp only [apply, Except.bind, Command.decode_encode known]

/-- A submission leaves the state alone or applies its command. -/
theorem applyLock_state {cmd : Command} (known : cmd.kind ∈ CommandKind.known) (f : Fsm)
    (s : Submission) :
    (f.applyLock s cmd).1 = f ∨ (f.applyLock s cmd).1 = (f.applyCommand s.appliedAt cmd).1 := by
  unfold applyLock
  rw [apply_encode known]
  cases s.outcome with
  | failed err logged =>
      cases logged with
      | false => exact Or.inl rfl
      | true => exact Or.inr rfl
  | committed =>
      right
      dsimp only
      split
      · split <;> rfl
      · rfl

/-- A submission that reports a result was applied, and reports what applying it
answered. -/
theorem applyLock_ok {cmd : Command} (known : cmd.kind ∈ CommandKind.known) {f : Fsm}
    {s : Submission} {res : LockResult} (ok : (f.applyLock s cmd).2 = .ok res) :
    (f.applyLock s cmd).1 = (f.applyCommand s.appliedAt cmd).1 ∧
      (f.applyCommand s.appliedAt cmd).2.1 = .lock res ∧ res.err = "" := by
  unfold applyLock at ok ⊢
  rw [apply_encode known] at ok ⊢
  cases hs : s.outcome with
  | failed err logged => simp [hs] at ok
  | committed =>
      cases hres : (f.applyCommand s.appliedAt cmd).2.1 with
      | lock r =>
          by_cases herr : r.err = ""
          · simp only [hs, hres, herr, ne_eq, not_true_eq_false, ite_false, Except.ok.injEq] at ok
            subst ok
            simp [hres, herr]
          · simp [hs, hres, herr] at ok
      | nil | decodeFailed | joinFailed => simp [hs, hres] at ok

/-- A committed submission reports what applying it answered. -/
theorem applyLock_committed {cmd : Command} (known : cmd.kind ∈ CommandKind.known) {f : Fsm}
    {s : Submission} {res : LockResult} (committed : s.outcome = .committed)
    (response : (f.applyCommand s.appliedAt cmd).2.1 = .lock res) :
    f.applyLock s cmd = ((f.applyCommand s.appliedAt cmd).1,
      if res.err ≠ "" then .error (cmd.kind.text ++ " " ++ cmd.name ++ ": " ++ res.err)
      else .ok res) := by
  simp only [applyLock, apply_encode known, committed, response]
  split <;> rfl

/-- A committed submission that reports an error was applied, and applying it
answered with one. -/
theorem applyLock_error {cmd : Command} (known : cmd.kind ∈ CommandKind.known) {f : Fsm}
    {s : Submission} {e : String} {res : LockResult} (committed : s.outcome = .committed)
    (response : (f.applyCommand s.appliedAt cmd).2.1 = .lock res)
    (failed : (f.applyLock s cmd).2 = .error e) :
    (f.applyLock s cmd).1 = (f.applyCommand s.appliedAt cmd).1 ∧ res.err ≠ "" := by
  rw [applyLock_committed known committed response] at failed ⊢
  refine ⟨rfl, fun herr => ?_⟩
  simp [herr] at failed

theorem applyMember_fst {cmd : Command} (known : cmd.kind ∈ CommandKind.known) (f : Fsm)
    (s : Submission) (op : String) :
    (f.applyMember s op cmd).1 = if s.logged then (f.applyCommand s.appliedAt cmd).1 else f := by
  obtain ⟨now, appliedAt, outcome⟩ := s
  simp only [applyMember, apply_encode known]
  cases outcome <;> rfl

theorem applyMember_ok (f : Fsm) (s : Submission) (op : String) (cmd : Command) :
    (f.applyMember s op cmd).2 = .ok () ↔ s.outcome.isCommitted := by
  obtain ⟨now, appliedAt, outcome⟩ := s
  cases outcome with
  | committed => exact iff_of_true rfl rfl
  | failed err logged => exact iff_of_false nofun nofun

end Fsm

namespace Half

variable (half : Half)

theorem moves_applyLock {cmd : Command} (known : cmd.kind ∈ CommandKind.known) (f : Fsm)
    (s : Submission) : half.Moves f (f.applyLock s cmd).1 := by
  rcases Fsm.applyLock_state known f s with h | h
  · rw [h]
    exact half.moves_refl f
  · rw [h]
    exact half.moves_applyCommand f s.appliedAt cmd

/-- A submission that reports a result ran on the table, which replied so. -/
theorem applyLock_ok {cmd : Command} {o : Op String String Lifetime} (hop : half.op cmd = some o)
    {f : Fsm} {s : Submission} {res : LockResult} (ok : (f.applyLock s cmd).2 = .ok res) :
    ∃ r, half.register f = some r ∧
      half.register (f.applyLock s cmd).1 = some (Register.step half.policy r o).1 ∧
      res = half.answer cmd (Register.step half.policy r o).2 := by
  obtain ⟨hstate, hresponse, herr⟩ := Fsm.applyLock_ok (half.known cmd o hop) ok
  rw [half.responds f s.appliedAt cmd o hop] at hresponse
  have hres := Response.lock.inj hresponse
  cases hr : half.register f with
  | none =>
      rw [hr, Option.map_none, Option.getD_none] at hres
      exact absurd (hres ▸ herr) half.missing_err
  | some r =>
      rw [hr] at hres
      refine ⟨r, rfl, ?_, hres.symm⟩
      rw [hstate, half.acts f s.appliedAt cmd o hop, hr, Option.map_some]

theorem applyLock_error {cmd : Command} {o : Op String String Lifetime}
    (hop : half.op cmd = some o) {f : Fsm} {r : Register String String Lifetime}
    (hr : half.register f = some r) {s : Submission} {e : String}
    (committed : s.outcome = .committed) (failed : (f.applyLock s cmd).2 = .error e) :
    half.register (f.applyLock s cmd).1 = some (Register.step half.policy r o).1 ∧
      (half.answer cmd (Register.step half.policy r o).2).err ≠ "" := by
  have hresponse := half.responds f s.appliedAt cmd o hop
  obtain ⟨hstate, herr⟩ :=
    Fsm.applyLock_error (half.known cmd o hop) committed hresponse failed
  rw [hr] at herr
  refine ⟨?_, herr⟩
  rw [hstate, half.acts f s.appliedAt cmd o hop, hr, Option.map_some]

/-- A grant that is reported was taken from the table the submission found. -/
theorem acquire_taken {cmd : Command} {name holder : String} {d : Lifetime}
    (hop : half.op cmd = some (.take name holder d)) {f : Fsm} {s : Submission} {token : UInt64}
    (ok : (f.applyAcquire s cmd).2 = .ok (token, true)) :
    ∃ r, half.register f = some r ∧
      half.register (f.applyAcquire s cmd).1 =
        some (Register.step half.policy r (.take name holder d)).1 ∧
      (Register.step half.policy r (.take name holder d)).2 = .taken token := by
  unfold Fsm.applyAcquire at ok ⊢
  cases hres : (f.applyLock s cmd).2 with
  | error e => simp [hres, Except.map] at ok
  | ok res =>
      simp only [hres, Except.map, Except.ok.injEq, Prod.mk.injEq] at ok
      obtain ⟨rfl, hacquired⟩ := ok
      obtain ⟨r, hr, hr', hanswer⟩ := half.applyLock_ok hop hres
      rw [hanswer] at hacquired ⊢
      exact ⟨r, hr, hr', half.taken cmd name holder d _ hop hacquired⟩

theorem acquire_granted {cmd : Command} {name holder : String} {d : Lifetime}
    (hop : half.op cmd = some (.take name holder d)) {f : Fsm} {s : Submission} {token : UInt64}
    (ok : (f.applyAcquire s cmd).2 = .ok (token, true)) :
    ∃ g, half.grant (f.applyAcquire s cmd).1 name = some g ∧ g.holder = holder ∧
      g.token = token := by
  obtain ⟨r, -, hr', htaken⟩ := half.acquire_taken hop ok
  refine ⟨⟨holder, token, d⟩, ?_, rfl, rfl⟩
  rw [half.grant_eq hr']
  exact Register.get_of_taken htaken

theorem acquire_blocked {cmd : Command} {name holder : String} {d : Lifetime}
    (hop : half.op cmd = some (.take name holder d)) {f : Fsm} {g : Grant String Lifetime}
    (held : half.grant f name = some g) (other : g.holder ≠ holder) (s : Submission)
    (token : UInt64) : (f.applyAcquire s cmd).2 ≠ .ok (token, true) := by
  intro ok
  obtain ⟨r, hr, -, htaken⟩ := half.acquire_taken hop ok
  rw [half.grant_eq hr] at held
  exact Register.not_taken_of_held held other d token htaken

/-- A committed renewal that reports an error was refused by the table. -/
theorem renew_refused {cmd : Command} {name holder : String} {token : UInt64} {d : Lifetime}
    (hop : half.op cmd = some (.renew name holder token d)) {f : Fsm}
    {r : Register String String Lifetime} (hr : half.register f = some r) {s : Submission}
    {ttl : Duration} {e : String} (committed : s.outcome = .committed)
    (failed : (f.applyRenew s cmd ttl).2 = .error e) :
    ∃ why, half.register (f.applyRenew s cmd ttl).1 =
        some (Register.step half.policy r (.renew name holder token d)).1 ∧
      (Register.step half.policy r (.renew name holder token d)).2 = .refused why := by
  unfold Fsm.applyRenew at failed ⊢
  cases hres : (f.applyLock s cmd).2 with
  | ok res => simp [hres, Except.map] at failed
  | error e' =>
      obtain ⟨hr', herr⟩ := half.applyLock_error hop hr committed hres
      obtain ⟨why, hwhy⟩ := half.refused cmd name holder token d _ hop herr
      exact ⟨why, hr', hwhy⟩

/-- A refusal is told with a text. -/
def Tells : Prop :=
  ∀ cmd o r why, half.op cmd = some o → (Register.step half.policy r o).2 = .refused why →
    (half.answer cmd (.refused why)).err ≠ ""

/-- A submission that reports a result was not refused. -/
theorem applyLock_told {half : Half} (tells : half.Tells) {cmd : Command}
    {o : Op String String Lifetime} (hop : half.op cmd = some o) {f : Fsm} {s : Submission}
    {res : LockResult} (ok : (f.applyLock s cmd).2 = .ok res) :
    ∃ r, half.register f = some r ∧
      half.register (f.applyLock s cmd).1 = some (Register.step half.policy r o).1 ∧
      res = half.answer cmd (Register.step half.policy r o).2 ∧
      ∀ why, (Register.step half.policy r o).2 ≠ .refused why := by
  obtain ⟨r, hr, hr', hanswer⟩ := half.applyLock_ok hop ok
  refine ⟨r, hr, hr', hanswer, fun why refused => ?_⟩
  have herr := (Fsm.applyLock_ok (half.known cmd o hop) ok).2.2
  rw [hanswer, refused] at herr
  exact tells cmd o r why hop refused herr

end Half

theorem lockHalf_tells : lockHalf.Tells := by
  intro cmd o r why hop refused
  have hne := Locks.Table.refusalText_step_ne refused
  simp only [lockHalf, Command.lockOp] at hop
  cases hkind : cmd.kind with
  | lockAcquire | lockRelease | lockRenew =>
      rw [hkind] at hop
      cases hop
      simp only [lockHalf, Command.lockAnswer, hkind]
      exact hne
  | lockExpire =>
      rw [hkind] at hop
      cases hop
      exact absurd refused (Register.expire_not_refused _ _ _ _ _)
  | _ =>
      rw [hkind] at hop
      cases hop

theorem leaseHalf_tells : leaseHalf.Tells := by
  intro cmd o r why hop refused
  have hne := Leases.Table.refusalText_step_ne refused
  simp only [leaseHalf, Command.leaseOp] at hop
  cases hkind : cmd.kind with
  | leaseGrant | leaseRevoke | leaseRenew =>
      rw [hkind] at hop
      cases hop
      simp only [leaseHalf, Command.leaseAnswer, hkind]
      exact hne
  | leaseExpire =>
      rw [hkind] at hop
      cases hop
      exact absurd refused (Register.expire_not_refused _ _ _ _ _)
  | _ =>
      rw [hkind] at hop
      cases hop

end Clusdr.Consensus
