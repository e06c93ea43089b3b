import Clusdr.Core.LockService
import Clusdr.Metatheory.LockTable
import Clusdr.Metatheory.Submissions
import Clusdr.Runs.Along
import Clusdr.Sync.Broadcast

/-!
The `Lock` handlers that wait for the table to change. A round that is refused and the
wait after it are separate steps, and `Wait` does not look at the table before it
sleeps: a release that falls between them wakes nobody, and the handler sleeps on a
lock that is free.
-/

namespace Clusdr

open Go (Time Duration Unicode)
open Consensus (Fsm Submission)

/-- Where the loop of a `Lock` handler is; `seen` counts the broadcasts when it fell
asleep. -/
inductive LockPhase where
  | acquiring
  | refused
  | waiting (seen : Nat)
deriving DecidableEq

structure LockHandler where
  name : String
  holder : String
  phase : LockPhase
deriving DecidableEq

structure Locking where
  table : Locks.Table
  handlers : List LockHandler

inductive LockingStep where
  | begin (name holder : String)
  /-- The handler at `i` applies its acquire. -/
  | attempt (i : Nat) (now deadline : Time) (ttl : Duration)
  | wait (i : Nat)
  | wake (i : Nat)
  /-- The context of the handler at `i` is done. -/
  | cancel (i : Nat)
  /-- What others do to the table. -/
  | act (a : Locks.Action)

namespace Locking

/-- The name is held, by another holder. -/
def Blocked (w : String × String) (t : Locks.Table) : Prop :=
  ∃ rec, t.get w.1 = some rec ∧ rec.holder ≠ w.2

/-- A handler sleeps in `Wait` since `n` broadcasts had been made. -/
def Asleep (s : Locking) (w : String × String) (n : Nat) : Prop :=
  ⟨w.1, w.2, .waiting n⟩ ∈ s.handlers

/-- Who sleeps with no wake-up on its way waits for another holder. -/
def NoneForgotten (s : Locking) : Prop := Sync.Sound Locks.Table.wait Blocked s.Asleep s.table

variable [Unicode]

def step (s : Locking) : LockingStep → Locking
  | .begin name holder => { s with handlers := s.handlers ++ [⟨name, holder, .acquiring⟩] }
  | .attempt i now deadline ttl =>
      match s.handlers[i]? with
      | some ⟨name, holder, .acquiring⟩ =>
          match s.table.acquire now name holder deadline ttl with
          | (t, .ok (_, false)) => ⟨t, s.handlers.set i ⟨name, holder, .refused⟩⟩
          | (t, _) => ⟨t, s.handlers.eraseIdx i⟩
      | _ => s
  | .wait i =>
      match s.handlers[i]? with
      | some ⟨name, holder, .refused⟩ =>
          { s with handlers := s.handlers.set i ⟨name, holder, .waiting s.table.wait⟩ }
      | _ => s
  | .wake i =>
      match s.handlers[i]? with
      | some ⟨name, holder, .waiting seen⟩ =>
          if seen < s.table.wait then
            { s with handlers := s.handlers.set i ⟨name, holder, .acquiring⟩ }
          else s
      | _ => s
  | .cancel i =>
      match s.handlers[i]? with
      | some ⟨_, _, .waiting _⟩ => ⟨s.table.broadcast, s.handlers.eraseIdx i⟩
      | some ⟨_, _, .acquiring⟩ => { s with handlers := s.handlers.eraseIdx i }
      | _ => s
  | .act a => { s with table := s.table.act a }

/-- A handler that begins to wait finds its name held by another holder. -/
def WaitsOnHeld (s : Locking) : LockingStep → Prop
  | .wait i => ∀ h, s.handlers[i]? = some h → h.phase = .refused → Blocked (h.name, h.holder) s.table
  | _ => True

omit [Unicode] in
theorem announces_broadcast {t t' : Locks.Table} (h : t'.wait = t.wait + 1) :
    Sync.Announces Locks.Table.wait Blocked t t' := Or.inl (h ▸ Nat.lt_succ_self _)

theorem announces_acquire (t : Locks.Table) (now : Time) (name holder : String) (deadline : Time)
    (ttl : Duration) :
    Sync.Announces Locks.Table.wait Blocked t (t.acquire now name holder deadline ttl).1 := by
  unfold Locks.Table.acquire
  split
  · exact .refl t
  · split
    · exact .refl t
    · split
      · split
        · exact announces_broadcast rfl
        · exact .refl t
      · split
        · exact .refl t
        · exact announces_broadcast rfl

/-- Renewing does not broadcast, and leaves the holder. -/
theorem announces_renew (t : Locks.Table) (name holder : String) (token : UInt64) (deadline : Time)
    (ttl : Duration) :
    Sync.Announces Locks.Table.wait Blocked t (t.renew name holder token deadline ttl).1 := by
  unfold Locks.Table.renew
  split
  · exact .refl t
  · split
    · exact .refl t
    · rename_i held hheld
      split
      · exact .refl t
      · refine Or.inr ⟨rfl, ?_⟩
        rintro ⟨n, h⟩ ⟨rec, hrec, hother⟩
        by_cases hn : n = name
        · subst hn
          cases hheld.symm.trans hrec
          exact ⟨_, Go.Map.get_set_self _ _ _, hother⟩
        · exact ⟨rec, (Go.Map.get_set _ _ _ _).trans ((if_neg hn).trans hrec), hother⟩

/-- Every method broadcasts when it frees a name. -/
theorem announces_act (t : Locks.Table) (a : Locks.Action) :
    Sync.Announces Locks.Table.wait Blocked t (t.act a) := by
  cases a with
  | acquire now name holder deadline ttl => exact announces_acquire t now name holder deadline ttl
  | renew name holder token deadline ttl => exact announces_renew t name holder token deadline ttl
  | restore visited => exact announces_broadcast rfl
  | release name holder token =>
      simp only [Locks.Table.act, Locks.Table.release]
      split
      · exact .refl t
      · split
        · exact .refl t
        · split
          · exact .refl t
          · exact announces_broadcast rfl
  | expire name token =>
      simp only [Locks.Table.act, Locks.Table.expire]
      split
      · exact .refl t
      · split
        · exact .refl t
        · split
          · exact .refl t
          · exact announces_broadcast rfl

/-- Every handler asleep fell asleep in the past. -/
def Ordered (s : Locking) : Prop := Sync.Past Locks.Table.wait s.Asleep s.table

omit [Unicode] in
/-- A step that puts nobody to sleep. -/
theorem kept_of_announces {s s' : Locking} (ordered : s.Ordered) (sound : s.NoneForgotten)
    (announces : Sync.Announces Locks.Table.wait Blocked s.table s'.table)
    (fewer : ∀ w n, s'.Asleep w n → s.Asleep w n) : s'.Ordered ∧ s'.NoneForgotten :=
  ⟨fun w n h => announces.past ordered w n (fewer w n h),
    fun w n h => announces.sound ordered sound w n (fewer w n h)⟩

omit [Unicode] in
theorem asleep_set {s : Locking} {i : Nat} {h : LockHandler} (hawake : ∀ n, h.phase ≠ .waiting n)
    (w : String × String) (n : Nat) (hmem : ⟨w.1, w.2, .waiting n⟩ ∈ s.handlers.set i h) :
    s.Asleep w n := by
  cases List.mem_or_eq_of_mem_set hmem with
  | inl hold => exact hold
  | inr hnew => exact absurd (congrArg LockHandler.phase hnew).symm (hawake n)

theorem kept_attempt {s : Locking} (ordered : s.Ordered) (sound : s.NoneForgotten) (i : Nat)
    (now deadline : Time) (ttl : Duration) :
    (s.step (.attempt i now deadline ttl)).Ordered ∧
      (s.step (.attempt i now deadline ttl)).NoneForgotten := by
  simp only [step]
  split
  · rename_i name holder _
    have hannounces := announces_acquire s.table now name holder deadline ttl
    split
    · rename_i hacquire
      rw [hacquire] at hannounces
      exact kept_of_announces ordered sound hannounces (asleep_set nofun)
    · rename_i hacquire
      rw [hacquire] at hannounces
      exact kept_of_announces ordered sound hannounces fun w n => List.mem_of_mem_eraseIdx
  · exact ⟨ordered, sound⟩

theorem kept_wait {s : Locking} (ordered : s.Ordered) (sound : s.NoneForgotten) (i : Nat) :
    (s.step (.wait i)).Ordered ∧ ((s.step (.wait i)).NoneForgotten ↔ s.WaitsOnHeld (.wait i)) := by
  simp only [step]
  split
  · rename_i name holder hi
    have hothers : ∀ v n, ⟨v.1, v.2, .waiting n⟩ ∈
        s.handlers.set i ⟨name, holder, .waiting s.table.wait⟩ →
        s.Asleep v n ∨ v = (name, holder) ∧ n = s.table.wait := by
      intro v n hmem
      refine (List.mem_or_eq_of_mem_set hmem).imp_right fun heq => ?_
      cases heq
      exact ⟨rfl, rfl⟩
    have hfalls : ⟨name, holder, .waiting s.table.wait⟩ ∈
        s.handlers.set i ⟨name, holder, .waiting s.table.wait⟩ :=
      List.mem_set (List.getElem?_eq_some_iff.mp hi).1 _
    constructor
    · intro v n hmem
      cases hothers v n hmem with
      | inl hold => exact ordered v n hold
      | inr hnew => exact hnew.2.le
    · refine (Sync.sound_sleep sound hfalls hothers).trans ?_
      simp [WaitsOnHeld, hi]
  · rename_i hnone
    refine ⟨ordered, iff_of_true sound fun h hi hphase => ?_⟩
    obtain ⟨name, holder, phase⟩ := h
    obtain rfl : phase = .refused := hphase
    exact absurd hi (hnone name holder)

theorem kept_step {s : Locking} (ordered : s.Ordered) (sound : s.NoneForgotten) (e : LockingStep) :
    (s.step e).Ordered ∧ ((s.step e).NoneForgotten ↔ s.WaitsOnHeld e) := by
  have quiet : ∀ {s' : Locking}, s'.Ordered ∧ s'.NoneForgotten →
      s'.Ordered ∧ (s'.NoneForgotten ↔ True) :=
    fun h => h.imp_right fun hsound => iff_of_true hsound trivial
  cases e with
  | begin name holder =>
      refine quiet (kept_of_announces ordered sound (.refl _) fun w n hmem => ?_)
      cases List.mem_append.mp hmem with
      | inl hold => exact hold
      | inr hnew => cases List.mem_singleton.mp hnew
  | attempt i now deadline ttl => exact quiet (kept_attempt ordered sound i now deadline ttl)
  | wait i => exact kept_wait ordered sound i
  | wake i =>
      refine quiet ?_
      simp only [step]
      split
      · split
        · exact kept_of_announces ordered sound (.refl _) (asleep_set nofun)
        · exact ⟨ordered, sound⟩
      · exact ⟨ordered, sound⟩
  | cancel i =>
      refine quiet ?_
      simp only [step]
      split
      · exact kept_of_announces ordered sound (announces_broadcast rfl)
          fun w n => List.mem_of_mem_eraseIdx
      · exact kept_of_announces ordered sound (.refl _) fun w n => List.mem_of_mem_eraseIdx
      · exact ⟨ordered, sound⟩
  | act a => exact quiet (kept_of_announces ordered sound (announces_act s.table a) fun _ _ h => h)

end Locking

open Locking in
/-- No handler sleeps on a name that nobody else holds, exactly if each one that begins
to wait finds its name still held by another holder. -/
theorem none_forgotten_iff [Unicode] (t : Locks.Table) (steps : List LockingStep) :
    Runs.Always step NoneForgotten ⟨t, []⟩ steps ↔ Runs.Along step WaitsOnHeld ⟨t, []⟩ steps := by
  have hordered : Ordered ⟨t, []⟩ := fun _ _ h => absurd h List.not_mem_nil
  have hsound : NoneForgotten ⟨t, []⟩ := fun _ _ h => absurd h List.not_mem_nil
  have hall : Runs.Along step (fun _ _ => True) ⟨t, []⟩ steps :=
    Runs.Along.of_forall_mem fun _ _ _ => trivial
  exact Runs.always_iff_along Ordered hordered hsound
    (fun s e ordered _ sound => kept_step ordered sound e) hall

/-- A committed round of the handler is an `acquire` of the table, with its answer. -/
theorem LockService.lockRound_acquire [Unicode] (s : LockService) (leads : s.raft = some true)
    {f : Fsm} {t : Locks.Table} (ht : f.locks = some t) {sub : Submission}
    (committed : sub.outcome = .committed) (req : LockRequest) :
    ∃ deadline ttl,
      (s.lockRound f sub req).1.locks =
          some (t.acquire sub.appliedAt req.name (s.holder req.holder) deadline ttl).1 ∧
        ∀ r, (t.acquire sub.appliedAt req.name (s.holder req.holder) deadline ttl).2 = .ok r →
          (s.lockRound f sub req).2 = .ok r := by
  let cmd := Fsm.stamped .lockAcquire sub.now req.name (s.holder req.holder) 0
    (Locks.clampTTL (s.ttlFromMs req.ttlMs 0) 0)
  have hknown : cmd.kind ∈ Consensus.CommandKind.known := by
    simp [cmd, Fsm.stamped, Consensus.CommandKind.known]
  have hround : s.lockRound f sub req = ((f.applyLock sub cmd).1,
      ((f.applyLock sub cmd).2.map fun res => (res.token, res.acquired)).mapError
        fun e => ⟨.internal, "lock: " ++ e⟩) := by
    simp only [lockRound, attempt, applyAcquire, leads]
    rfl
  have hcommand : f.applyCommand sub.appliedAt cmd =
      ({ f with locks := some (Fsm.lockCommand t sub.appliedAt cmd).1 },
        .lock (Fsm.lockCommand t sub.appliedAt cmd).2.1,
        (Fsm.lockCommand t sub.appliedAt cmd).2.2) := by
    simp only [Fsm.applyCommand, ht]
    rfl
  have happlied := Fsm.applyLock_committed hknown committed (congrArg (·.2.1) hcommand)
  refine ⟨cmd.deadlineOf, cmd.ttlOf, ?_, fun r hr => ?_⟩
  · rw [hround, happlied, hcommand]
    dsimp only
    rw [Fsm.lockCommand_act]
    rfl
  · rw [hround, happlied, Fsm.lockCommand_acquired t sub.appliedAt cmd rfl hr]
    rfl

namespace Locking

/-- `b` is refused `job`, which `a` holds; `a` releases it, and `b` begins to wait. -/
def lostRelease : List LockingStep :=
  [.act (.acquire 0 "job" "a" 0 0), .begin "job" "b", .attempt 0 0 0 0, .act (.release "job" "a" 1),
    .wait 0]

theorem run_lostRelease : letI := Unicode.ascii
    (Runs.run step ⟨.new, []⟩ lostRelease).handlers = [⟨"job", "b", .waiting 2⟩] ∧
      (Runs.run step ⟨.new, []⟩ lostRelease).table.wait = 2 ∧
      (Runs.run step ⟨.new, []⟩ lostRelease).table.get "job" = none := by
  decide +kernel

end Locking

open Locking in
theorem release_lost_on_waiter : letI := Unicode.ascii
    (Runs.run step ⟨.new, []⟩ lostRelease).handlers = [⟨"job", "b", .waiting 2⟩] ∧
      (Runs.run step ⟨.new, []⟩ lostRelease).table.wait = 2 ∧
      (Runs.run step ⟨.new, []⟩ lostRelease).table.get "job" = none ∧
      ¬ Runs.Always step NoneForgotten ⟨.new, []⟩ lostRelease := by
  obtain ⟨hhandlers, hwait, hfree⟩ := run_lostRelease
  refine ⟨hhandlers, hwait, hfree, fun always => ?_⟩
  have hasleep : Asleep (@Runs.run _ _ (@step .ascii) ⟨.new, []⟩ lostRelease) ("job", "b") 2 := by
    rw [Asleep, hhandlers]
    exact List.mem_singleton_self _
  obtain ⟨rec, hrec, -⟩ := always.last _ _ hasleep hwait.symm
  cases hfree.symm.trans hrec

end Clusdr
