import Clusdr.Core.Sdk
import Clusdr.Fencing.Tracking
import Clusdr.Metatheory.HolderIdentity
import Clusdr.Metatheory.SnapshotReplay
import Clusdr.Runs.Along

/-!
The renew loop of a held lock against the cluster. A renewal can fail on the
wire, be turned down by the daemon it ends at, or be served by a leader whose
submission commits or fails. The loop takes every `FailedPrecondition` for the
loss of the grant; it is one only when the table itself answered.
-/

namespace Clusdr

open Go (Time Unicode)
open Fencing (Grant Register)
open Clusdr.Membership (Engine)
open Consensus (Command Fsm Half LogEntry Submission lockHalf)
open Sdk (Handle)

variable [Unicode]

/-- The table of a log has seen one command an entry at most. -/
theorem Consensus.Half.counted_applyAll (half : Half) {f : Fsm} {n : Nat}
    {r : Register String String Lifetime} (hr : half.register f = some r)
    (counted : Register.Counted half.policy n r) (now : Nat → Time) (log : List LogEntry)
    (room : n + log.length < 2 ^ 64) :
    ∃ r', half.register (f.applyAll now log).1 = some r' ∧
      Register.Counted half.policy (n + log.length) r' := by
  induction log generalizing n f now r with
  | nil => exact ⟨r, hr, counted⟩
  | cons entry log ih =>
      rw [List.length_cons] at room ⊢
      obtain ⟨r', hr', moves⟩ := half.moves_apply f (now 0) entry r hr
      have hcounted := Register.counted_moves counted (by omega) moves
      have hrest := ih hr' hcounted (fun i => now (i + 1)) (by omega)
      rwa [Nat.add_assoc, Nat.add_comm 1] at hrest

/-- How a renewal ends: without reaching a daemon that decides, turned down by the
last daemon it was forwarded to, or submitted by it. -/
inductive Exchange where
  | lost (e : Rpc.Status)
  | rejected (received last : LockService) (e : Rpc.Status)
  | served (received last : LockService) (seen : Option Locks.Table) (sub : Submission)

/-- The replicated state, the lock a client holds, and the answer to its renewal
that the loop has not heard yet. -/
structure RenewLoop where
  fsm : Fsm
  lock : Handle
  answer : Option (Except Rpc.Status Int64)

namespace RenewLoop

inductive Event where
  /-- Any other command of the log. -/
  | commit (now : Time) (cmd : Command)
  /-- `release`, also by `Close`, stops the loop. -/
  | stop
  /-- The loop sees that it was stopped. -/
  | done
  | ask (x : Exchange)
  | hear

def exchange (w : RenewLoop) : Exchange → Fsm × Except Rpc.Status Int64
  | .lost e => (w.fsm, .error e)
  | .rejected _ _ e => (w.fsm, .error e)
  | .served _ last seen sub =>
      let (f, res) := last.renew seen w.fsm sub w.lock.renewRequest
      (f, res.map LockRenewResponse.deadlineUnixMs)

def step (w : RenewLoop) : Event → RenewLoop
  | .commit now cmd => { w with fsm := (w.fsm.applyCommand now cmd).1 }
  | .stop => { w with lock := w.lock.stopRenew }
  | .done => { w with lock := { w.lock with running := false } }
  | .ask x => { w with fsm := (w.exchange x).1, answer := some (w.exchange x).2 }
  | .hear =>
      match w.answer with
      | some answer => { w with lock := w.lock.ticked answer, answer := none }
      | none => w

/-- The exchange is one the daemons can have: forwarded from view to view until a
daemon turns it down or serves it as leader. -/
def Routed (name : String) : Exchange → Prop
  | .lost _ => True
  | .rejected received last e =>
      Forwarded LockService.members (·.route name) received last ∧ last.route name = .reject e
  | .served received last _ _ =>
      Forwarded LockService.members (·.route name) received last ∧ last.route name = .serve ∧
        last.raft = some true

def May (w : RenewLoop) : Event → Prop
  | .commit _ _ | .stop => True
  | .done => w.lock.running = true ∧ w.lock.ctxDone = true ∧ w.answer = none
  | .ask x => w.lock.running = true ∧ w.answer = none ∧ Routed w.lock.name x
  | .hear => w.lock.running = true ∧ w.answer.isSome

/-- Until the client stops the loop, a final code comes from the lock table only:
no daemon turns a renewal down with one, and no submission fails. -/
def FinalFromTable (w : RenewLoop) : Event → Prop
  | .ask (.lost e) | .ask (.rejected _ _ e) =>
      w.lock.ctxDone = true ∨ Sdk.keepsRenewing false (.error e : Except Rpc.Status Int64) = true
  | .ask (.served _ _ _ sub) => w.lock.ctxDone = true ∨ sub.outcome = .committed
  | _ => True

/-- The loop has ended, or is about to, though nobody stopped it. -/
def GivesUp (w : RenewLoop) : Prop :=
  w.lock.ctxDone = false ∧
    (w.lock.running = false ∨
      ∃ answer, w.answer = some answer ∧ Sdk.keepsRenewing false answer = false)

/-- After `n` commands the grant the loop renews is live or gone, and it is gone
if the loop gives up. -/
structure Justified (n : Nat) (name holder : String) (token : UInt64) (w : RenewLoop) : Prop where
  own : w.lock.name = name ∧ w.lock.holder = holder ∧ w.lock.token = token
  table : ∃ r, lockHalf.register w.fsm = some r ∧ Register.Counted Locks.policy n r ∧
    Register.Tracked name holder token r ∧ (w.GivesUp → Register.Gone name token r)

theorem route_serve_valid {s : LockService} {name : String} (h : s.route name = .serve) :
    Locks.policy.key name = true := by
  unfold LockService.route at h
  cases hname : Locks.validName name with
  | error e => simp [hname] at h
  | ok u => simp [Locks.policy, hname, Except.isOk, Except.toBool]

/-- A renewal a leader serves is the submission it makes of it. -/
theorem renew_eq {s : LockService} (leads : s.raft = some true) (seen : Option Locks.Table)
    (f : Fsm) (sub : Submission) (req : LockRenewRequest) (named : req.holder ≠ "") :
    ∃ ttl, (s.renew seen f sub req).1 =
        (f.applyLockRenew sub req.name req.holder req.fencingToken ttl).1 ∧
      ∀ e, (s.renew seen f sub req).2 = .error e →
        ∃ e', (f.applyLockRenew sub req.name req.holder req.fencingToken ttl).2 = .error e' := by
  refine ⟨s.ttlFromMs req.ttlMs (s.reuseTTL seen req.name), ?_⟩
  simp only [LockService.renew, LockService.applyRenew, leads, LockService.holder, named, ne_eq,
    not_false_eq_true, ite_true]
  cases (f.applyLockRenew sub req.name req.holder req.fencingToken
    (s.ttlFromMs req.ttlMs (s.reuseTTL seen req.name))).2 with
  | error e' => exact ⟨rfl, fun e _ => ⟨e', rfl⟩⟩
  | ok deadline =>
      refine ⟨rfl, fun e herr => ?_⟩
      cases herr

theorem moves_renew {s : LockService} (leads : s.raft = some true) (seen : Option Locks.Table)
    (f : Fsm) (sub : Submission) (req : LockRenewRequest) (named : req.holder ≠ "") :
    lockHalf.Moves f (s.renew seen f sub req).1 := by
  obtain ⟨ttl, hstate, -⟩ := renew_eq leads seen f sub req named
  rw [hstate]
  exact lockHalf.moves_applyLock (by simp [Fsm.stamped, Consensus.CommandKind.known]) f sub

/-- A committed renewal is answered with an error only if the grant is gone. -/
theorem gone_of_renew_error {s : LockService} (leads : s.raft = some true)
    {seen : Option Locks.Table} {f : Fsm} {sub : Submission} {req : LockRenewRequest}
    (serves : s.route req.name = .serve) (named : req.holder ≠ "")
    (committed : sub.outcome = .committed) {r r' : Register String String Lifetime}
    (hr : lockHalf.register f = some r)
    (tracked : Register.Tracked req.name req.holder req.fencingToken r) {e : Rpc.Status}
    (failed : (s.renew seen f sub req).2 = .error e)
    (hr' : lockHalf.register (s.renew seen f sub req).1 = some r') :
    Register.Gone req.name req.fencingToken r' := by
  obtain ⟨ttl, hstate, herror⟩ := renew_eq leads seen f sub req named
  obtain ⟨e', he'⟩ := herror e failed
  obtain ⟨why, hafter, refused⟩ := lockHalf.renew_refused rfl hr committed he'
  rw [hstate] at hr'
  cases hafter.symm.trans hr'
  exact Register.gone_of_refused (route_serve_valid serves) tracked refused

/-- Until the loop gives up for a new reason, a command of the log keeps it
justified. -/
theorem justified_moves {n : Nat} {name holder : String} {token : UInt64} {w w' : RenewLoop}
    (h : Justified n name holder token w) (room : n + 1 < 2 ^ 64)
    (own : w'.lock.name = w.lock.name ∧ w'.lock.holder = w.lock.holder ∧
      w'.lock.token = w.lock.token)
    (moves : lockHalf.Moves w.fsm w'.fsm) (same : w'.GivesUp → w.GivesUp) :
    Justified (n + 1) name holder token w' := by
  obtain ⟨r, hr, counted, tracked, lost⟩ := h.table
  obtain ⟨r', hr', hmoves⟩ := moves r hr
  refine ⟨⟨own.1.trans h.own.1, own.2.1.trans h.own.2.1, own.2.2.trans h.own.2.2⟩, r', hr',
    Register.counted_moves counted room hmoves, Register.tracked_moves counted room hmoves tracked,
    fun gives => Register.gone_moves counted room hmoves (lost (same gives))⟩

/-- A committed renewal that the loop takes for the loss of the grant is one. -/
theorem justified_served {n : Nat} {name holder : String} {token : UInt64} {w : RenewLoop}
    (h : Justified n name holder token w) (room : n + 1 < 2 ^ 64) (named : holder ≠ "")
    {received last : LockService} {seen : Option Locks.Table} {sub : Submission}
    (may : w.May (.ask (.served received last seen sub)))
    (final : w.FinalFromTable (.ask (.served received last seen sub))) :
    Justified (n + 1) name holder token (w.step (.ask (.served received last seen sub))) := by
  obtain ⟨running, -, -, serves, leads⟩ := may
  obtain ⟨rfl, rfl, rfl⟩ := h.own
  obtain ⟨r, hr, counted, tracked, lost⟩ := h.table
  obtain ⟨r', hr', hmoves⟩ := moves_renew leads seen w.fsm sub w.lock.renewRequest named r hr
  refine ⟨⟨rfl, rfl, rfl⟩, r', hr', Register.counted_moves counted room hmoves,
    Register.tracked_moves counted room hmoves tracked, ?_⟩
  rintro ⟨going, stopped | ⟨answer, hanswer, hfinal⟩⟩
  · exact absurd (running.symm.trans stopped) (by decide)
  · have committed : sub.outcome = .committed :=
      final.resolve_left fun stopped => absurd (stopped.symm.trans going) (by decide)
    cases hres : (last.renew seen w.fsm sub w.lock.renewRequest).2 with
    | error e => exact gone_of_renew_error leads serves named committed hr tracked hres hr'
    | ok resp =>
        simp only [step, exchange, hres, Except.map, Option.some.injEq] at hanswer
        subst hanswer
        cases hfinal

theorem justified_step {n : Nat} {name holder : String} {token : UInt64} {w : RenewLoop}
    (h : Justified n name holder token w) (room : n + 1 < 2 ^ 64) (named : holder ≠ "")
    {ev : Event} (may : w.May ev) (final : w.FinalFromTable ev) :
    Justified (n + 1) name holder token (w.step ev) := by
  cases ev with
  | commit now cmd =>
      exact justified_moves h room ⟨rfl, rfl, rfl⟩ (lockHalf.moves_applyCommand w.fsm now cmd) id
  | stop =>
      refine justified_moves h room ⟨rfl, rfl, rfl⟩ (lockHalf.moves_refl w.fsm) ?_
      rintro ⟨going, -⟩
      cases going
  | done =>
      refine justified_moves h room ⟨rfl, rfl, rfl⟩ (lockHalf.moves_refl w.fsm) ?_
      rintro ⟨going, -⟩
      exact absurd (may.2.1.symm.trans going) (by decide)
  | hear =>
      obtain ⟨running, hsome⟩ := may
      obtain ⟨answer, hanswer⟩ := Option.isSome_iff_exists.mp hsome
      obtain ⟨hname, hholder, htoken, hctx, hrunning⟩ := w.lock.ticked_fixed answer
      have hstep : w.step .hear = { w with lock := w.lock.ticked answer, answer := none } := by
        simp only [step, hanswer]
      rw [hstep]
      refine justified_moves h room ⟨hname, hholder, htoken⟩ (lockHalf.moves_refl w.fsm) ?_
      rintro ⟨going, stopped | ⟨_, hnone, -⟩⟩
      · rw [hctx] at going
        rw [hrunning, running, going, Bool.true_and] at stopped
        exact ⟨going, Or.inr ⟨answer, hanswer, stopped⟩⟩
      · cases hnone
  | ask x =>
      cases x with
      | served received last seen sub => exact justified_served h room named may final
      | lost e | rejected received last e =>
          refine justified_moves h room ⟨rfl, rfl, rfl⟩ (lockHalf.moves_refl w.fsm) ?_
          rintro ⟨going, stopped | ⟨answer, hanswer, hfinal⟩⟩
          · exact absurd (may.1.symm.trans stopped) (by decide)
          · cases hanswer
            rcases final with hstopped | hkeeps
            · exact absurd (hstopped.symm.trans going) (by decide)
            · exact absurd (hkeeps.symm.trans hfinal) (by decide)

theorem ctxDone_step {w : RenewLoop} {ev : Event}
    (h : (w.step ev).lock.ctxDone = true) : w.lock.ctxDone = true ∨ ev = .stop := by
  cases ev with
  | stop => exact Or.inr rfl
  | commit | done | ask => exact Or.inl h
  | hear =>
      left
      cases hanswer : w.answer with
      | none => simpa only [step, hanswer] using h
      | some answer =>
          simp only [step, hanswer] at h
          exact (w.lock.ticked_fixed answer).2.2.2.1.symm.trans h

/-- The loop right after the grant was adopted. -/
def started (f : Fsm) (name : String) (g : Grant String Lifetime) (deadlineUnixMs : Int64) :
    RenewLoop :=
  ⟨f, .ofAnswer name ⟨g.holder, g.token, deadlineUnixMs⟩, none⟩

theorem justified_started {n : Nat} {f : Fsm} {r : Register String String Lifetime}
    (hr : lockHalf.register f = some r) (counted : Register.Counted Locks.policy n r) {name : String}
    {g : Grant String Lifetime} (held : f.lockGrant name = some g) (deadlineUnixMs : Int64) :
    Justified n name g.holder g.token (started f name g deadlineUnixMs) := by
  rw [Fsm.lockGrant_eq, lockHalf.grant_eq hr] at held
  refine ⟨⟨rfl, rfl, rfl⟩, r, hr, counted, Or.inl ⟨g, held, rfl, rfl⟩, ?_⟩
  rintro ⟨-, stopped | ⟨_, hanswer, -⟩⟩
  · cases stopped
  · cases hanswer

theorem justified_run {n : Nat} {name holder : String} {token : UInt64} {w : RenewLoop}
    (h : Justified n name holder token w) (fresh : w.lock.ctxDone = false) (named : holder ≠ "")
    {events : List Event} (short : n + events.length < 2 ^ 64)
    (run : Runs.Along step (fun w ev => w.May ev ∧ w.FinalFromTable ev) w events) :
    Justified (n + events.length) name holder token (Runs.run step w events) ∧
      ((Runs.run step w events).lock.ctxDone = true → .stop ∈ events) := by
  have key := Runs.invariant
    (fun past w => n + past.length < 2 ^ 64 →
      Justified (n + past.length) name holder token w ∧
        (w.lock.ctxDone = true → .stop ∈ past))
    (fun _ => ⟨h, fun stopped => absurd (stopped.symm.trans fresh) (by decide)⟩) ?_ run
  · exact key short
  · intro past w ev ih ok room
    rw [List.length_append, List.length_singleton, ← Nat.add_assoc] at room ⊢
    obtain ⟨hjustified, hstopped⟩ := ih (by omega)
    refine ⟨justified_step hjustified room named ok.1 ok.2, fun stopped => ?_⟩
    rcases ctxDone_step stopped with hbefore | rfl
    · exact List.mem_append_left _ (hstopped hbefore)
    · exact List.mem_append_right _ List.mem_cons_self

end RenewLoop

open RenewLoop in
/-- The loop of a lock ends only when the client stopped it or the grant is no
longer in the table, in every run in which final codes come from the table. -/
theorem renew_loop_ends_for_cause (e : Engine) (clock : Nat → Time) (log : List LogEntry)
    (name : String) (g : Grant String Lifetime) (deadlineUnixMs : Int64) (events : List Event)
    (held : ((Fsm.fresh e).applyAll clock log).1.lockGrant name = some g)
    (short : log.length + events.length < 2 ^ 64)
    (may : Runs.Along step May
      (started ((Fsm.fresh e).applyAll clock log).1 name g deadlineUnixMs) events)
    (final : Runs.Along step FinalFromTable
      (started ((Fsm.fresh e).applyAll clock log).1 name g deadlineUnixMs) events) :
    let w := Runs.run step
      (started ((Fsm.fresh e).applyAll clock log).1 name g deadlineUnixMs) events
    w.lock.running = false → .stop ∈ events ∨
      ∀ g', w.fsm.lockGrant name = some g' → ¬ (g'.holder = g.holder ∧ g'.token = g.token) := by
  intro w ended
  obtain ⟨r, hr, counted⟩ := lockHalf.counted_applyAll (f := Fsm.fresh e) rfl
    (Register.counted_empty Locks.policy) clock log (by omega)
  rw [Nat.zero_add] at counted
  have named : g.holder ≠ "" := by
    rw [Fsm.lockGrant_eq, lockHalf.grant_eq hr] at held
    exact of_decide_eq_true (counted.admitted.holder name g held)
  obtain ⟨justified, hstopped⟩ := justified_run (justified_started hr counted held deadlineUnixMs)
    rfl named short (may.and final)
  cases hctx : w.lock.ctxDone with
  | true => exact Or.inl (hstopped hctx)
  | false =>
      right
      intro g' hg' own
      obtain ⟨u, hu, -, -, lost⟩ := justified.table
      rw [Fsm.lockGrant_eq, lockHalf.grant_eq hu] at hg'
      exact (lost ⟨hctx, Or.inl ended⟩).2 g' hg' own.2

namespace RenewLoop

/-- `job` is held by `a`, and a loop renews it. -/
def renewingJob : RenewLoop :=
  started ((Fsm.fresh (memberOf "n1" "h1")).applyAll (fun _ => 7) Fsm.grantedLog).1 "job"
    ⟨"a", 1, ⟨10000000, 5000000⟩⟩ 10

/-- A renewal that reaches `n1` after it stepped down, before it knows who leads. -/
def turnedDown : List Event :=
  [.ask (.rejected (lockDaemon "n1" "h1" false) (lockDaemon "n1" "h1" false)
    ⟨.failedPrecondition, "NOT_LEADER"⟩), .hear]

/-- A renewal that `n1` submits as leader, with the given outcome. -/
def submitted (outcome : Consensus.Outcome) : List Event :=
  [.ask (.served (lockDaemon "n1" "h1" true) (lockDaemon "n1" "h1" true) none ⟨8, 8, outcome⟩),
    .hear]

theorem routed_submitted (hname : Locks.validName "job" = .ok ()) (outcome : Consensus.Outcome) :
    Routed "job" (.served (lockDaemon "n1" "h1" true) (lockDaemon "n1" "h1" true) none
      ⟨8, 8, outcome⟩) := by
  have hserve := lockDaemon_serves hname "n1" "h1" (by decide)
  refine ⟨.here fun i a => ?_, hserve, rfl⟩
  rw [hserve]
  exact nofun

theorem routed_turnedDown (hname : Locks.validName "job" = .ok ()) :
    Routed "job" (.rejected (lockDaemon "n1" "h1" false) (lockDaemon "n1" "h1" false)
      ⟨.failedPrecondition, "NOT_LEADER"⟩) := by
  have hreject := (lockDaemon_dials hname "n1" "h1" (by decide)).trans
    (show dialLeader (memberOf "n1" "h1") = .reject ⟨.failedPrecondition, "NOT_LEADER"⟩ by
      decide +kernel)
  refine ⟨.here fun i a => ?_, hreject⟩
  rw [hreject]
  exact nofun

/-- The events end the loop though nobody stopped it and the grant is still held. -/
def EndsInVain (w : RenewLoop) (name : String) (g : Grant String Lifetime)
    (events : List Event) : Prop :=
  Runs.Along step May w events ∧ .stop ∉ events ∧
    (Runs.run step w events).lock.running = false ∧
    (Runs.run step w events).fsm.lockGrant name = some g

omit [Unicode] in
theorem elections_end_renewingJob : letI := Unicode.ascii
    ∀ events ∈ [turnedDown, submitted (.failed "leadership lost while committing log" false)],
      (Runs.run step renewingJob events).lock.running = false ∧
        (Runs.run step renewingJob events).fsm.lockGrant "job" =
          some ⟨"a", 1, ⟨10000000, 5000000⟩⟩ := by
  decide +kernel

end RenewLoop

open RenewLoop in
omit [Unicode] in
/-- An election at a renewal ends the loop of a lock that is still held: the daemon
asked has stepped down, or loses leadership while it commits. -/
theorem renew_loop_ends_on_election : letI := Unicode.ascii
    renewingJob.EndsInVain "job" ⟨"a", 1, ⟨10000000, 5000000⟩⟩ turnedDown ∧
      renewingJob.EndsInVain "job" ⟨"a", 1, ⟨10000000, 5000000⟩⟩
        (submitted (.failed "leadership lost while committing log" false)) := by
  refine ⟨⟨?_, by simp [turnedDown], elections_end_renewingJob _ (by simp)⟩,
    ⟨?_, by simp [submitted], elections_end_renewingJob _ (by simp)⟩⟩
  · exact ⟨⟨rfl, rfl, @routed_turnedDown .ascii rfl⟩, ⟨rfl, rfl⟩, trivial⟩
  · exact ⟨⟨rfl, rfl, @routed_submitted .ascii rfl _⟩, ⟨rfl, rfl⟩, trivial⟩

open RenewLoop in
omit [Unicode] in
theorem renew_loop_ends_after_expiry : letI := Unicode.ascii
    let events := .commit 20 { kind := .lockExpire, name := "job", token := 1 } ::
      submitted .committed
    (Runs.run step renewingJob events).lock.running = false ∧
      (.stop ∈ events ∨ ∀ g', (Runs.run step renewingJob events).fsm.lockGrant "job" = some g' →
        ¬ (g'.holder = "a" ∧ g'.token = 1)) := by
  intro events
  have ended : (Runs.run (@step .ascii) (@renewingJob .ascii) events).lock.running = false := by
    decide +kernel
  refine ⟨ended, ?_⟩
  exact @renew_loop_ends_for_cause .ascii (memberOf "n1" "h1") (fun _ => 7) Fsm.grantedLog "job"
    ⟨"a", 1, ⟨10000000, 5000000⟩⟩ 10 events (by decide +kernel) (by decide)
    ⟨trivial, ⟨rfl, rfl, @routed_submitted .ascii rfl _⟩, ⟨rfl, rfl⟩, trivial⟩
    ⟨trivial, Or.inr rfl, trivial, trivial⟩ ended

end Clusdr
