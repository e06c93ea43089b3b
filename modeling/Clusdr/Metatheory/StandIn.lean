import Clusdr.Core.LockService
import Clusdr.Metatheory.CommittedLocks
import Clusdr.Metatheory.HolderIdentity
import Clusdr.Runs.Machine

/-!
A lock service without Raft, as most handler tests run it, beside one whose node
leads and applies each command at once. The first keeps lifetimes in nanoseconds,
the second writes them to the log in milliseconds. As long as the requested
lifetimes can be counted in nanoseconds at all, every request is answered alike.
-/

namespace Clusdr

open Go (Time Duration Unicode)
open Go.Duration (Whole)
open Clusdr.Membership (Engine)
open Consensus (Fsm Submission)

/-- A request, or a step of the expirer. -/
inductive LockStep where
  | tryLock (req : LockRequest)
  | unlock (req : UnlockRequest)
  | renew (req : LockRenewRequest)
  | expire (name : String) (token : UInt64)

/-- A call with the clock readings made for it. -/
structure TimedStep where
  now : Time
  appliedAt : Time
  call : LockStep

inductive LockAnswer where
  | locked (res : LockResponse)
  | unlocked
  | renewed (res : LockRenewResponse)
  | expired
  | forwarded (id addr : String)
deriving DecidableEq

variable [Unicode]

namespace LockService

/-- The checks of a handler, then the handler proper; errors are told by their code. -/
def routed (s : LockService) (f : Fsm) (name : String)
    (served : Fsm × Except Rpc.Status LockAnswer) : Fsm × Except Rpc.Code LockAnswer :=
  match s.route name with
  | .reject e => (f, .error e.code)
  | .forward id addr => (f, .ok (.forwarded id addr))
  | .serve => (served.1, served.2.mapError Rpc.Status.code)

/-- `Expire` of the table, or of the node. -/
def expire (s : LockService) (f : Fsm) (sub : Submission) (name : String) (token : UInt64) : Fsm :=
  match s.raft with
  | some _ => (f.applyLockExpire sub name token).1
  | none => { f with locks := f.locks.map fun t => (t.expire name token).1 }

/-- One call after the other: a committed command is applied before the next call. -/
def serve (s : LockService) (f : Fsm) (c : TimedStep) : Fsm × Except Rpc.Code LockAnswer :=
  let sub : Submission := ⟨c.now, c.appliedAt, .committed⟩
  match c.call with
  | .tryLock req =>
      let (f', res) := s.tryLock f sub req
      s.routed f req.name (f', res.map fun r => .locked (s.tryLockResponse f'.locks req r))
  | .unlock req =>
      let (f', res) := s.unlock f sub req
      s.routed f req.name (f', res.map fun _ => .unlocked)
  | .renew req =>
      let (f', res) := s.renew f.locks f sub req
      s.routed f req.name (f', res.map .renewed)
  | .expire name token => (s.expire f sub name token, .ok .expired)

omit [Unicode] in
theorem unixMs_floorMs {t : Int} (h : 0 ≤ t) : unixMs (Time.floorMs t) = unixMs t := by
  rw [unixMs, unixMs, Time.isZero_of_nonneg h, Time.isZero_of_nonneg (Time.floorMs_nonneg h),
    Time.unixMilli_floorMs]

/-- The tables of the two services: the one behind Raft has whole milliseconds. -/
def Paired (f g : Fsm) : Prop :=
  ∃ t : Locks.Table, f.locks = some t ∧ g.locks = some t.toMs ∧ t.Timed

section Responses

variable {t : Locks.Table} (timed : t.Timed) (name holder : String) (token : UInt64)

include timed

omit [Unicode] in
theorem deadline_toMs :
    (t.toMs.locks.get name).map (fun rec => unixMs rec.deadline) =
      (t.locks.get name).map fun rec => unixMs rec.deadline := by
  rw [Locks.Table.get_toMs]
  cases h : t.locks.get name with
  | none => rfl
  | some rec => exact congrArg some (unixMs_floorMs (timed name rec h).after)

omit [Unicode] in
theorem grantResponse_toMs :
    grantResponse (some t.toMs) name holder token = grantResponse (some t) name holder token :=
  congrArg (fun ms => (⟨true, "", token, holder, Option.getD ms 0⟩ : LockResponse))
    (deadline_toMs timed name)

omit [Unicode] in
theorem heldResponse_toMs : heldResponse (some t.toMs) name = heldResponse (some t) name := by
  have hdeadline := deadline_toMs timed name
  simp only [heldResponse, Option.bind_some, Locks.Table.get]
  rw [Locks.Table.get_toMs] at hdeadline ⊢
  cases h : t.locks.get name with
  | none => rfl
  | some rec =>
      rw [h] at hdeadline
      exact congrArg (LockResponse.mk false "held" rec.token rec.holder)
        (Option.some.inj hdeadline)

end Responses

section Lifetimes

variable {s : LockService} (whole : Whole s.defaultTTL) {ms : Int64}

include whole

omit [Unicode] in
theorem whole_ttlFromMs {reuse : Duration} (small : ms ≤ 9223372036854)
    (hreuse : reuse ≤ 0 ∨ Whole reuse) : Whole (s.ttlFromMs ms reuse) := by
  refine whole_clampTTL ?_ whole
  have hzero : (0 : Int64).toInt = 0 := rfl
  have hmax : (9223372036854 : Int64).toInt = 9223372036854 := rfl
  split
  · rename_i hpos
    rw [gt_iff_lt, Int64.lt_iff_toInt_lt, hzero] at hpos
    rw [Int64.le_iff_toInt_le, hmax] at small
    exact Or.inr (Duration.whole_ofMilliseconds (by omega) small)
  · exact hreuse

omit [Unicode] in
theorem whole_reuseTTL {t : Locks.Table} (timed : t.Timed) (name : String) :
    Whole (s.reuseTTL (some t) name) := by
  simp only [reuseTTL, Option.bind_some]
  split
  · rename_i rec hrec
    split
    · exact (timed name rec hrec).whole
    · exact whole
  · exact whole

end Lifetimes

variable (members : Engine) (defaultTTL : Duration)

/-- The service as handler tests set it up. -/
def standIn : LockService := ⟨members, none, defaultTTL⟩

/-- The service of a node that leads. -/
def leading : LockService := ⟨members, some true, defaultTTL⟩

/-- Both look at the same members. -/
theorem route_leading (name : String) :
    (leading members defaultTTL).route name = (standIn members defaultTTL).route name := by
  unfold route
  rfl

/-- Both services answer the call alike, and their tables still match. -/
def Agree (f g : Fsm) (c : TimedStep) : Prop :=
  Paired ((standIn members defaultTTL).serve f c).1 ((leading members defaultTTL).serve g c).1 ∧
    ((standIn members defaultTTL).serve f c).2 = ((leading members defaultTTL).serve g c).2

section Served

variable {members defaultTTL} {f g : Fsm}

theorem routed_paired (paired : Paired f g) {served served' : Fsm × Except Rpc.Status LockAnswer}
    (name : String) (h : Paired served.1 served'.1 ∧
      served.2.mapError Rpc.Status.code = served'.2.mapError Rpc.Status.code) :
    Paired ((standIn members defaultTTL).routed f name served).1
        ((leading members defaultTTL).routed g name served').1 ∧
      ((standIn members defaultTTL).routed f name served).2 =
        ((leading members defaultTTL).routed g name served').2 := by
  unfold routed
  rw [route_leading]
  cases (standIn members defaultTTL).route name with
  | reject e => exact ⟨paired, rfl⟩
  | forward id addr => exact ⟨paired, rfl⟩
  | serve => exact h

omit [Unicode] in
theorem lasting_deadline {now : Int} (clock : Countable now) {ttl : Duration}
    (clamped : Clamped ttl) (whole : Whole ttl) : Lasting (Time.add now ttl) ttl := by
  have hnow := clock.lower
  have hlower := clamped.lower
  have hnonneg : 0 ≤ now + ttl.toInt := by omega
  exact ⟨hnonneg, clamped, whole⟩

theorem tryLock_standIn {t : Locks.Table} (locks : f.locks = some t) (sub : Submission)
    {req : LockRequest} {holder : String} {ttl : Duration}
    (hholder : (standIn members defaultTTL).holder req.holder = holder)
    (httl : (standIn members defaultTTL).ttlFromMs req.ttlMs 0 = ttl) :
    (standIn members defaultTTL).tryLock f sub req =
      ({ f with locks := some (t.acquire sub.appliedAt req.name holder (sub.now.add ttl) ttl).1 },
        (t.acquire sub.appliedAt req.name holder (sub.now.add ttl) ttl).2.mapError fun e =>
          ⟨.internal, "trylock: " ++ e⟩) := by
  subst hholder httl
  simp only [tryLock, attempt, applyAcquire, standIn, locks]
  rfl

theorem tryLock_leading {t : Locks.Table} (locks : g.locks = some t.toMs) {now : Int}
    (clock : Countable now) (appliedAt : Time) {req : LockRequest} {holder : String}
    {ttl : Duration} (hholder : (standIn members defaultTTL).holder req.holder = holder)
    (httl : (standIn members defaultTTL).ttlFromMs req.ttlMs 0 = ttl) (clamped : Clamped ttl)
    (whole : Whole ttl) :
    (leading members defaultTTL).tryLock g ⟨now, appliedAt, .committed⟩ req =
      ({ g with
          locks := some (t.acquire appliedAt req.name holder (Time.add now ttl) ttl).1.toMs },
        ((t.acquire appliedAt req.name holder (Time.add now ttl) ttl).2.mapError fun e =>
          "lock_acquire " ++ req.name ++ ": " ++ e).mapError fun e =>
          ⟨.internal, "trylock: " ++ e⟩) := by
  subst hholder httl
  have hacquire := Fsm.applyLockAcquire_toMs locks appliedAt req.name
    ((standIn members defaultTTL).holder req.holder) clock clamped whole
  exact congrArg (fun r : Fsm × Except String (UInt64 × Bool) =>
    (r.1, r.2.mapError fun e => (⟨.internal, "trylock: " ++ e⟩ : Rpc.Status))) hacquire

theorem unlock_paired (paired : Paired f g) (now appliedAt : Time) (req : UnlockRequest) :
    Agree members defaultTTL f g ⟨now, appliedAt, .unlock req⟩ := by
  obtain ⟨t, hf, hg, timed⟩ := id paired
  have hholder : (leading members defaultTTL).holder req.holder =
      (standIn members defaultTTL).holder req.holder := rfl
  generalize hname : (standIn members defaultTTL).holder req.holder = holder at hholder
  have hstandIn : (standIn members defaultTTL).applyRelease f ⟨now, appliedAt, .committed⟩ req.name
      holder req.fencingToken = ({ f with locks := some (t.release req.name holder
        req.fencingToken).1 }, (t.release req.name holder req.fencingToken).2) := by
    simp only [applyRelease, standIn, hf]
  have hleading : (leading members defaultTTL).applyRelease g ⟨now, appliedAt, .committed⟩ req.name
      holder req.fencingToken = _ :=
    Fsm.applyLockRelease_toMs hg appliedAt req.name holder req.fencingToken now
  have htimed : (t.release req.name holder req.fencingToken).1.Timed :=
    Locks.Table.timed_release timed
  simp only [Agree, serve, unlock, hname, hholder, hstandIn, hleading]
  refine routed_paired paired req.name ⟨⟨_, rfl, rfl, htimed⟩, ?_⟩
  cases (t.release req.name holder req.fencingToken).2 <;> rfl

theorem expire_paired (paired : Paired f g) (now appliedAt : Time) (name : String)
    (token : UInt64) : Agree members defaultTTL f g ⟨now, appliedAt, .expire name token⟩ := by
  obtain ⟨t, hf, hg, timed⟩ := paired
  refine ⟨⟨(t.expire name token).1, ?_, ?_, Locks.Table.timed_expire timed⟩, rfl⟩
  · exact congrArg (Option.map _) hf
  · change (g.applyLockExpire ⟨now, appliedAt, .committed⟩ name token).1.locks = _
    rw [Fsm.applyLockExpire_toMs hg]

variable (whole : Whole defaultTTL) {now : Int} (clock : Countable now) (appliedAt : Time)

include whole clock

theorem tryLock_paired (paired : Paired f g) {req : LockRequest}
    (small : req.ttlMs ≤ 9223372036854) :
    Agree members defaultTTL f g ⟨now, appliedAt, .tryLock req⟩ := by
  obtain ⟨t, hf, hg, timed⟩ := id paired
  have hwhole : Whole ((standIn members defaultTTL).ttlFromMs req.ttlMs 0) :=
    whole_ttlFromMs whole small (Or.inl (by decide))
  have hclamped : Clamped ((standIn members defaultTTL).ttlFromMs req.ttlMs 0) :=
    clamped_clampTTL _ _
  generalize hholder : (standIn members defaultTTL).holder req.holder = holder
  generalize httl : (standIn members defaultTTL).ttlFromMs req.ttlMs 0 = ttl at hwhole hclamped
  have htimed : (t.acquire appliedAt req.name holder (Time.add now ttl) ttl).1.Timed :=
    Locks.Table.timed_acquire timed (lasting_deadline clock hclamped hwhole) appliedAt
  simp only [Agree, serve, tryLock_standIn hf _ hholder httl,
    tryLock_leading hg clock appliedAt hholder httl hclamped hwhole]
  refine routed_paired paired req.name ⟨⟨_, rfl, rfl, htimed⟩, ?_⟩
  generalize t.acquire appliedAt req.name holder (Time.add now ttl) ttl = r at htimed
  obtain ⟨t', _ | ⟨token, _ | _⟩⟩ := r
  · rfl
  · exact congrArg (fun res => Except.ok (LockAnswer.locked res))
      (heldResponse_toMs htimed req.name).symm
  · exact congrArg (fun res => Except.ok (LockAnswer.locked res))
      (grantResponse_toMs htimed req.name _ token).symm

theorem renew_paired (paired : Paired f g) {req : LockRenewRequest}
    (small : req.ttlMs ≤ 9223372036854) :
    Agree members defaultTTL f g ⟨now, appliedAt, .renew req⟩ := by
  obtain ⟨t, hf, hg, timed⟩ := id paired
  -- rounding the deadlines leaves the lifetimes that are reused
  have hreuse : (leading members defaultTTL).reuseTTL (some t.toMs) req.name =
      (standIn members defaultTTL).reuseTTL (some t) req.name := by
    simp only [reuseTTL, Option.bind_some, Locks.Table.get, Locks.Table.get_toMs]
    cases t.locks.get req.name with
    | none => rfl
    | some rec => rfl
  have hwhole : Whole ((standIn members defaultTTL).ttlFromMs req.ttlMs
      ((standIn members defaultTTL).reuseTTL (some t) req.name)) :=
    whole_ttlFromMs whole small
      (Or.inr (whole_reuseTTL whole timed req.name))
  have hclamped : Clamped ((standIn members defaultTTL).ttlFromMs req.ttlMs
      ((standIn members defaultTTL).reuseTTL (some t) req.name)) := clamped_clampTTL _ _
  have hholder : (leading members defaultTTL).holder req.holder =
      (standIn members defaultTTL).holder req.holder := rfl
  generalize hname : (standIn members defaultTTL).holder req.holder = holder at hholder
  generalize httl : (standIn members defaultTTL).ttlFromMs req.ttlMs
    ((standIn members defaultTTL).reuseTTL (some t) req.name) = ttl at hwhole hclamped
  have hstandIn : (standIn members defaultTTL).applyRenew f ⟨now, appliedAt, .committed⟩ req.name
      holder req.fencingToken ttl = ({ f with locks := some (t.renew req.name holder
        req.fencingToken (Time.add now ttl) ttl).1 }, (t.renew req.name holder req.fencingToken
          (Time.add now ttl) ttl).2.map fun _ => Time.add now ttl) := by
    simp only [applyRenew, standIn, hf]
  have hleading : (leading members defaultTTL).applyRenew g ⟨now, appliedAt, .committed⟩ req.name
      holder req.fencingToken ttl = _ :=
    Fsm.applyLockRenew_toMs hg appliedAt req.name holder req.fencingToken clock hclamped hwhole
  have htimed : (t.renew req.name holder req.fencingToken (Time.add now ttl) ttl).1.Timed :=
    Locks.Table.timed_renew timed (lasting_deadline clock hclamped hwhole)
  have hservice : (leading members defaultTTL).ttlFromMs =
      (standIn members defaultTTL).ttlFromMs := rfl
  simp only [Agree, serve, renew, hf, hg, hservice, hreuse, httl, hname, hholder, hstandIn,
    hleading]
  cases hres : (t.renew req.name holder req.fencingToken (Time.add now ttl) ttl).2 with
  | error e => exact routed_paired paired req.name ⟨⟨_, rfl, rfl, htimed⟩, rfl⟩
  | ok u => exact routed_paired paired req.name ⟨⟨_, rfl, rfl, htimed⟩, rfl⟩

end Served

end LockService

/-- The lifetime that is asked for can be counted in nanoseconds. -/
def LockStep.Fits : LockStep → Prop
  | .tryLock req => req.ttlMs ≤ 9223372036854
  | .renew req => req.ttlMs ≤ 9223372036854
  | _ => True

open LockService (Paired leading standIn)

/-- Every sequence of calls is answered alike, by code, flag, token, holder and deadline,
if no requested lifetime overflows. -/
theorem standIn_answers_as_leader (members : Engine) {defaultTTL : Duration}
    (whole : Whole defaultTTL) {f g : Fsm} (hf : f.locks = some .new) (hg : g.locks = some .new)
    {calls : List TimedStep} (clock : ∀ c ∈ calls, Countable c.now)
    (fits : ∀ c ∈ calls, c.call.Fits) :
    Runs.outputs (standIn members defaultTTL).serve f calls =
      Runs.outputs (leading members defaultTTL).serve g calls := by
  have start : Paired f g := ⟨.new, hf, hg, Locks.Table.timed_new⟩
  have along : Runs.Along (Runs.both (standIn members defaultTTL).serve
      (leading members defaultTTL).serve) (fun _ c => Countable c.now ∧ c.call.Fits) (f, g) calls :=
    Runs.along_iff_forall_mem.mpr fun c hc => ⟨clock c hc, fits c hc⟩
  refine (Runs.related_run Paired ?_ start along).2
  rintro f g ⟨now, appliedAt, call⟩ paired ⟨hclock, hfits⟩
  cases call with
  | tryLock req => exact LockService.tryLock_paired whole hclock appliedAt paired hfits
  | unlock req => exact LockService.unlock_paired paired now appliedAt req
  | renew req => exact LockService.renew_paired whole hclock appliedAt paired hfits
  | expire name token => exact LockService.expire_paired paired now appliedAt name token

def loneNode : Engine := .new 0 "n1" "h1"

/-- A lock for half a minute, renewed at another fraction of a millisecond, that expires. -/
def keptSteps : List TimedStep :=
  [⟨1700000000000600000, 1700000000000600000, .tryLock ⟨"job", "a", 30000⟩⟩,
    ⟨1700000000005700000, 1700000000005700000, .renew ⟨"job", "a", 1, 0⟩⟩,
    ⟨1700000000005800000, 1700000000005800000, .expire "job" 1⟩]

omit [Unicode] in
theorem standIn_answers_as_leader_kept : letI := Unicode.ascii
    Runs.outputs (standIn loneNode (15 * Duration.second)).serve ⟨loneNode, some .new, none⟩
        keptSteps =
      Runs.outputs (leading loneNode (15 * Duration.second)).serve ⟨loneNode, some .new, none⟩
        keptSteps := by
  let := Unicode.ascii
  refine standIn_answers_as_leader loneNode (by decide) rfl rfl ?_ ?_
  · simp only [keptSteps, List.forall_mem_cons]
    exact ⟨⟨by decide, by decide⟩, ⟨by decide, by decide⟩, ⟨by decide, by decide⟩,
      fun _ h => by cases h⟩
  · simp only [keptSteps, List.forall_mem_cons, LockStep.Fits]
    exact ⟨by decide, by decide, trivial, fun _ h => by cases h⟩

/-- A lock for more than 584 years, which wraps to less than two milliseconds, and a
renewal that reuses that lifetime. -/
def wrappedSteps : List TimedStep :=
  [⟨1700000000000000000, 1700000000000000000, .tryLock ⟨"job", "a", 18446744073711⟩⟩,
    ⟨1700000000000600000, 1700000000000600000, .renew ⟨"job", "a", 1, 0⟩⟩]

theorem loneNode_serves (hname : Locks.validName "job" = .ok ()) (ttl : Duration) :
    (standIn loneNode ttl).route "job" = .serve := by
  have hvoter : (standIn loneNode ttl).rejectIfObserver = none :=
    LockService.rejectIfObserver_of_voter (Engine.valid_new 0 "n1" "h1")
      (show loneNode.selfRole = Membership.roleVoter by decide)
  simp only [LockService.route, hname, hvoter]
  rfl

omit [Unicode] in
theorem wrapped_ttl_parts_the_paths : letI := Unicode.ascii
    Whole (15 * Duration.second) ∧
      Runs.outputs (standIn loneNode (15 * Duration.second)).serve ⟨loneNode, some .new, none⟩
          wrappedSteps ≠
        Runs.outputs (leading loneNode (15 * Duration.second)).serve ⟨loneNode, some .new, none⟩
          wrappedSteps := by
  let := Unicode.ascii
  refine ⟨by decide, ?_⟩
  have hserve := loneNode_serves (by decide) (15 * Duration.second)
  simp only [wrappedSteps, Runs.outputs, Runs.next, LockService.serve, LockService.routed,
    LockService.route_leading, hserve]
  decide +kernel

end Clusdr
