import Clusdr.Metatheory.Lifetimes
import Clusdr.Metatheory.ServedCommands
import Clusdr.Metatheory.Submissions
import Clusdr.Runs.Along

/-!
The lifetimes the services write. Whatever a request asks for, the record of its
grant is left with a deadline and with a TTL of whole milliseconds, from one to a
day. Such a TTL passes the clamps and the truncation of a command unchanged, so a
renewal that names none keeps it.
-/

namespace Clusdr

open Go (Time Duration Unicode)
open Go.Duration (Whole)
open Fencing (Grant Op Register)
open Consensus (Command CommandKind Fsm Half Submission lockHalf leaseHalf)

/-- A lifetime as the services write it. -/
structure Lifetime.Standing (l : Lifetime) : Prop where
  clamped : Clamped l.ttl
  whole : Whole l.ttl
  set : l.deadline.isZero = false

theorem standing_stamped {now : Int} (clock : Countable now) {ttl : Duration}
    (clamped : Clamped ttl) (kind : CommandKind) (name id : String) (token : UInt64) :
    Lifetime.Standing ⟨(Fsm.stamped kind now name id token ttl).deadlineOf,
      (Fsm.stamped kind now name id token ttl).ttlOf⟩ := by
  have hlower := clamped.lower
  have hupper := clamped.upper
  have hnow := clock.lower
  have httl := toInt_ttlOf_stamped clamped kind now name id token
  refine ⟨⟨?_, ?_⟩, ?_, ?_⟩
  · rw [httl]
    omega
  · rw [httl]
    omega
  · rw [Whole, httl]
    omega
  · rw [deadlineOf_stamped clock clamped]
    refine Time.isZero_of_nonneg (Time.floorMs_nonneg ?_)
    exact Int.add_nonneg hnow (by omega)

namespace Consensus

namespace Command

variable {cmd : Command} {o : Op String String Lifetime} {d : Lifetime}

theorem opData_lockOp (hop : cmd.lockOp = some o) (hd : Register.opData o = some d) :
    d = ⟨cmd.deadlineOf, cmd.ttlOf⟩ := by
  unfold lockOp at hop
  split at hop <;> cases hop <;> cases hd <;> rfl

theorem opData_leaseOp (hop : cmd.leaseOp = some o) (hd : Register.opData o = some d) :
    d = ⟨cmd.deadlineOf, cmd.ttlOf⟩ := by
  unfold leaseOp at hop
  split at hop <;> cases hop <;> cases hd <;> rfl

/-- The command gives a grant only a lifetime as the services write it. -/
structure Timed (cmd : Command) : Prop where
  known : cmd.kind ∈ CommandKind.known
  lock : ∀ o d, cmd.lockOp = some o → Register.opData o = some d → d.Standing
  lease : ∀ o d, cmd.leaseOp = some o → Register.opData o = some d → d.Standing

theorem timed_stamped {now : Int} (clock : Countable now) {ttl : Duration}
    (clamped : Clamped ttl) {kind : CommandKind} (known : kind ∈ CommandKind.known)
    (name id : String) (token : UInt64) : (Fsm.stamped kind now name id token ttl).Timed := by
  have standing := standing_stamped clock clamped kind name id token
  refine ⟨known, fun o d hop hd => ?_, fun o d hop hd => ?_⟩
  · rw [opData_lockOp hop hd]
    exact standing
  · rw [opData_leaseOp hop hd]
    exact standing

/-- The commands that end a grant give none. -/
theorem timed_of_ending (known : cmd.kind ∈ CommandKind.known)
    (ending : cmd.kind = .lockRelease ∨ cmd.kind = .lockExpire ∨ cmd.kind = .leaseRevoke ∨
      cmd.kind = .leaseExpire) : cmd.Timed := by
  refine ⟨known, fun o d hop hd => ?_, fun o d hop hd => ?_⟩
  · rcases ending with hkind | hkind | hkind | hkind <;> rw [lockOp, hkind] at hop <;>
      cases hop <;> cases hd
  · rcases ending with hkind | hkind | hkind | hkind <;> rw [leaseOp, hkind] at hop <;>
      cases hop <;> cases hd

end Command

variable [Unicode]

namespace Half

variable {half : Half}

/-- Every grant of the table has a lifetime as the services write it. -/
def Standing (half : Half) (f : Fsm) : Prop :=
  ∀ name g, half.grant f name = some g → g.data.Standing

theorem standing_applyLock {cmd : Command} (known : cmd.kind ∈ CommandKind.known)
    (writes : ∀ o d, half.op cmd = some o → Register.opData o = some d → d.Standing) {f : Fsm}
    (h : half.Standing f) (s : Submission) : half.Standing (f.applyLock s cmd).1 := by
  rcases Fsm.applyLock_state known f s with hsame | happlied
  · rw [hsame]
    exact h
  · rw [happlied]
    intro name g hg
    cases hop : half.op cmd with
    | none =>
        rw [grant, half.idle f s.appliedAt cmd hop] at hg
        exact h name g hg
    | some o =>
        obtain ⟨r', hr', hget⟩ := Option.bind_eq_some_iff.mp hg
        rw [half.acts f s.appliedAt cmd o hop] at hr'
        obtain ⟨r, hr, rfl⟩ := Option.map_eq_some_iff.mp hr'
        have hold : ∀ k u, r.grants.get k = some u → u.data.Standing :=
          fun k u hu => h k u ((half.grant_eq hr k).trans hu)
        exact Register.data_step half.policy hold (fun d hd => writes o d hop hd) name g hget

/-- A renewal that is reported gives the grant of its name the lifetime it carries. -/
theorem grant_renewed (tells : half.Tells) {cmd : Command} {name holder : String}
    {token : UInt64} {d : Lifetime} (hop : half.op cmd = some (.renew name holder token d))
    {f : Fsm} {s : Submission} {res : LockResult} (ok : (f.applyLock s cmd).2 = .ok res)
    {g : Grant String Lifetime} (held : half.grant f name = some g) :
    half.grant (f.applyLock s cmd).1 name = some { g with data := d } := by
  obtain ⟨r, hr, hr', -, told⟩ := applyLock_told tells hop ok
  obtain ⟨u, hu, -, -, hget⟩ := Register.get_of_renewed told
  rw [half.grant_eq hr] at held
  rw [half.grant_eq hr', hget, ← Option.some.inj (hu.symm.trans held)]

end Half

/-- Both tables. -/
def Fsm.Standing (f : Fsm) : Prop := lockHalf.Standing f ∧ leaseHalf.Standing f

theorem Fsm.standing_applyLock {cmd : Command} (timed : cmd.Timed) {f : Fsm} (h : f.Standing)
    (s : Submission) : (f.applyLock s cmd).1.Standing :=
  ⟨Half.standing_applyLock timed.known timed.lock h.1 s,
    Half.standing_applyLock timed.known timed.lease h.2 s⟩

end Consensus

/-- What the services of a leader do to its tables, and what its expirers do. -/
inductive ServiceStep where
  | lock (s : LockService) (req : LockRequest)
  | tryLock (s : LockService) (req : LockRequest)
  | unlock (s : LockService) (req : UnlockRequest)
  | renewLock (s : LockService) (req : LockRenewRequest)
  | grant (s : LeaseService) (req : GrantRequest)
  | revoke (s : LeaseService) (req : RevokeRequest)
  | renewLease (s : LeaseService) (req : LeaseRenewRequest)
  | expireLock (name : String) (token : UInt64)
  | expireLease (name : String) (token : UInt64)

namespace ServiceStep

/-- The service commits through Raft. -/
def OnRaft : ServiceStep → Prop
  | .lock s _ | .tryLock s _ | .unlock s _ | .renewLock s _ => s.raft = some true
  | .grant s _ | .revoke s _ | .renewLease s _ => s.raft = some true
  | .expireLock _ _ | .expireLease _ _ => True

variable [Unicode]

/-- One request, handled while no other is: a renewal reads the table it changes. -/
def handle (f : Fsm) (sub : Submission) : ServiceStep → Fsm
  | .lock s req => (s.lockRound f sub req).1
  | .tryLock s req => (s.tryLock f sub req).1
  | .unlock s req => (s.unlock f sub req).1
  | .renewLock s req => (s.renew f.locks f sub req).1
  | .grant s req => (s.grant f sub req).1
  | .revoke s req => (s.revoke f sub req).1
  | .renewLease s req => (s.renew f.leases f sub req).1
  | .expireLock name token => (f.applyLockExpire sub name token).1
  | .expireLease name token => (f.applyLeaseExpire sub name token).1

end ServiceStep

section Requests

variable [Unicode]

/-- Whatever the request, its command gives a grant a lifetime that stands. -/
theorem ServiceStep.handle_timed {req : ServiceStep} (raft : req.OnRaft) {sub : Submission}
    (clock : Countable sub.now) (f : Fsm) :
    ∃ cmd : Command, cmd.Timed ∧ req.handle f sub = (f.applyLock sub cmd).1 := by
  cases req with
  | lock s req | tryLock s req =>
      exact ⟨_, Command.timed_stamped clock (clamped_clampTTL _ _) (by decide) _ _ _,
        congrArg Prod.fst (s.attempt_eq raft _ f sub req)⟩
  | grant s req =>
      exact ⟨_, Command.timed_stamped clock (clamped_clampTTL _ _) (by decide) _ _ _,
        congrArg Prod.fst (s.grant_eq raft f sub req)⟩
  | renewLock s req =>
      exact ⟨_, Command.timed_stamped clock (clamped_clampTTL _ _) (by decide) _ _ _,
        s.renew_fst raft f.locks f sub req⟩
  | renewLease s req =>
      exact ⟨_, Command.timed_stamped clock (clamped_clampTTL _ _) (by decide) _ _ _,
        s.renew_fst raft f.leases f sub req⟩
  | unlock s req =>
      refine ⟨_, ?_, s.unlock_fst raft f sub req⟩
      exact Command.timed_of_ending (by simp [CommandKind.known]) (Or.inl rfl)
  | revoke s req =>
      refine ⟨_, ?_, s.revoke_fst raft f sub req⟩
      exact Command.timed_of_ending (by simp [CommandKind.known]) (Or.inr (Or.inr (Or.inl rfl)))
  | expireLock name token =>
      refine ⟨{ kind := .lockExpire, name, token }, ?_, rfl⟩
      exact Command.timed_of_ending (by simp [CommandKind.known]) (Or.inr (Or.inl rfl))
  | expireLease name token =>
      refine ⟨{ kind := .leaseExpire, name, token }, ?_, rfl⟩
      exact Command.timed_of_ending (by simp [CommandKind.known]) (Or.inr (Or.inr (Or.inr rfl)))

/-- The states that requests of the services lead to, from empty tables. -/
inductive Served : Fsm → Prop
  | new (members : Membership.Engine) : Served ⟨members, some .new, some .new⟩
  | request {f : Fsm} {sub : Submission} {req : ServiceStep} (reached : Served f)
      (clock : Countable sub.now) (raft : req.OnRaft) : Served (req.handle f sub)

theorem Served.standing {f : Fsm} (h : Served f) : f.Standing := by
  induction h with
  | new members =>
      refine ⟨fun name g hg => ?_, fun name g hg => ?_⟩
      · rw [← Fsm.lockGrant_eq] at hg
        cases hg
      · rw [← Fsm.leaseGrant_eq] at hg
        cases hg
  | request reached clock raft ih =>
      obtain ⟨cmd, timed, hhandle⟩ := ServiceStep.handle_timed raft clock _
      rw [hhandle]
      exact Fsm.standing_applyLock timed ih _

end Requests

/-- A TTL that a table holds is given again to a request that names none. -/
theorem ttlFromMs_reused {ttl : Duration} (clamped : Clamped ttl) (defaultTTL : Duration) :
    Locks.clampTTL (ttlFromMs Locks.clampTTL defaultTTL 0 ttl) 0 = ttl := by
  rw [ttlFromMs, if_neg (by decide), clampTTL_of_clamped clamped, clampTTL_of_clamped clamped]

section Reuse

variable {f : Fsm} {name : String} {g : Grant String Lifetime}

theorem LockService.reuseTTL_of_grant (s : LockService) (held : f.lockGrant name = some g)
    (clamped : Clamped g.data.ttl) : s.reuseTTL f.locks name = g.data.ttl := by
  obtain ⟨rec, hrec, rfl⟩ := Option.map_eq_some_iff.mp held
  rw [reuseTTL, hrec]
  exact if_pos clamped.pos

theorem LeaseService.reuseTTL_of_grant (s : LeaseService) (held : f.leaseGrant name = some g)
    (clamped : Clamped g.data.ttl) : s.reuseTTL f.leases name = g.data.ttl := by
  obtain ⟨rec, hrec, rfl⟩ := Option.map_eq_some_iff.mp held
  rw [reuseTTL, hrec]
  exact if_pos clamped.pos

end Reuse

variable [Unicode]

/-- The lifetime after a renewal that names no TTL, stamped at `now`. -/
def Lifetime.renewedAt (l : Lifetime) (now : Time) : Lifetime := ⟨(now.add l.ttl).floorMs, l.ttl⟩

theorem Consensus.Half.grant_kept {half : Half} (tells : half.Tells) {kind : CommandKind}
    {name holder : String} {token : UInt64} {f : Fsm} {sub : Submission}
    (clock : Countable sub.now) {g : Grant String Lifetime} (held : half.grant f name = some g)
    (standing : g.data.Standing)
    (hop : half.op (Fsm.stamped kind sub.now name holder token g.data.ttl) =
      some (.renew name holder token
        ⟨(Fsm.stamped kind sub.now name holder token g.data.ttl).deadlineOf,
          (Fsm.stamped kind sub.now name holder token g.data.ttl).ttlOf⟩))
    {res : Consensus.LockResult}
    (ok : (f.applyLock sub (Fsm.stamped kind sub.now name holder token g.data.ttl)).2 = .ok res) :
    half.grant (f.applyLock sub (Fsm.stamped kind sub.now name holder token g.data.ttl)).1 name =
      some { g with data := g.data.renewedAt sub.now } := by
  rw [Half.grant_renewed tells hop ok held, deadlineOf_stamped clock standing.clamped,
    ttlOf_stamped standing.clamped _ _ _ _ standing.whole]
  rfl

/-- A `Renew` of a lock, as the leader's service handles it. -/
structure LockRenewal where
  s : LockService
  sub : Submission
  req : LockRenewRequest

namespace LockRenewal

def handle (f : Fsm) (r : LockRenewal) : Fsm := (r.s.renew f.locks f r.sub r.req).1

/-- The request is for this name, names no TTL and is answered with a deadline. -/
structure Succeeds (name : String) (f : Fsm) (r : LockRenewal) : Prop where
  leads : r.s.raft = some true
  clock : Countable r.sub.now
  named : r.req.name = name
  bare : r.req.ttlMs = 0
  answered : ∃ resp, (r.s.renew f.locks f r.sub r.req).2 = .ok resp

theorem grant_handle {name : String} {f : Fsm} {r : LockRenewal} (h : r.Succeeds name f)
    {g : Grant String Lifetime} (held : f.lockGrant name = some g) (standing : g.data.Standing) :
    (handle f r).lockGrant name = some { g with data := g.data.renewedAt r.sub.now } := by
  obtain ⟨s, sub, req⟩ := r
  obtain ⟨leads, clock, rfl, bare, resp, answered⟩ := h
  have httl : Locks.clampTTL (s.ttlFromMs req.ttlMs (s.reuseTTL f.locks req.name)) 0 =
      g.data.ttl := by
    rw [bare, s.reuseTTL_of_grant held standing.clamped]
    exact ttlFromMs_reused standing.clamped _
  rw [Fsm.lockGrant_eq] at held ⊢
  rw [handle, s.renew_fst leads, httl]
  obtain ⟨res, hres⟩ := s.renew_ok leads answered
  rw [httl] at hres
  exact Half.grant_kept Consensus.lockHalf_tells clock held standing rfl hres

end LockRenewal

/-- A `Renew` of a lease, as the leader's service handles it. -/
structure LeaseRenewal where
  s : LeaseService
  sub : Submission
  req : LeaseRenewRequest

namespace LeaseRenewal

def handle (f : Fsm) (r : LeaseRenewal) : Fsm := (r.s.renew f.leases f r.sub r.req).1

structure Succeeds (name : String) (f : Fsm) (r : LeaseRenewal) : Prop where
  leads : r.s.raft = some true
  clock : Countable r.sub.now
  named : r.req.name = name
  bare : r.req.ttlMs = 0
  answered : ∃ resp, (r.s.renew f.leases f r.sub r.req).2 = .ok resp

theorem grant_handle {name : String} {f : Fsm} {r : LeaseRenewal} (h : r.Succeeds name f)
    {g : Grant String Lifetime} (held : f.leaseGrant name = some g) (standing : g.data.Standing) :
    (handle f r).leaseGrant name = some { g with data := g.data.renewedAt r.sub.now } := by
  obtain ⟨s, sub, req⟩ := r
  obtain ⟨leads, clock, rfl, bare, resp, answered⟩ := h
  have httl : Leases.clampTTL (s.ttlFromMs req.ttlMs (s.reuseTTL f.leases req.name)) 0 =
      g.data.ttl := by
    rw [bare, s.reuseTTL_of_grant held standing.clamped]
    exact ttlFromMs_reused standing.clamped _
  rw [Fsm.leaseGrant_eq] at held ⊢
  rw [handle, s.renew_fst leads, httl]
  obtain ⟨res, hres⟩ := s.renew_ok leads answered
  rw [httl] at hres
  exact Half.grant_kept Consensus.leaseHalf_tells clock held standing rfl hres

end LeaseRenewal

omit [Unicode] in
theorem Lifetime.Standing.renewedAt {l : Lifetime} (h : l.Standing) {now : Int}
    (clock : Countable now) : (l.renewedAt now).Standing := by
  refine ⟨h.clamped, h.whole, Time.isZero_of_nonneg (Time.floorMs_nonneg ?_)⟩
  have hlower := h.clamped.lower
  exact Int.add_nonneg clock.lower (by omega)

omit [Unicode] in
/-- Renewals one after the other leave what the last one writes. -/
theorem run_renewed {E : Type} {step : Fsm → E → Fsm} {ok : Fsm → E → Prop} (time : E → Time)
    (grantOf : Fsm → Option (Grant String Lifetime)) (clock : ∀ f e, ok f e → Countable (time e))
    (one : ∀ f e g, ok f e → grantOf f = some g → g.data.Standing →
      grantOf (step f e) = some { g with data := g.data.renewedAt (time e) })
    {f : Fsm} {g : Grant String Lifetime} (held : grantOf f = some g) (standing : g.data.Standing)
    {es : List E} (along : Runs.Along step ok f es) :
    grantOf (Runs.run step f es) =
      some { g with data := (es.map time).getLast?.elim g.data g.data.renewedAt } := by
  induction es generalizing f g with
  | nil => exact held
  | cons e es ih =>
      have hnext := ih (one f e g along.1 held standing) (standing.renewedAt (clock f e along.1))
        along.2
      rw [Runs.run_cons, hnext, List.map_cons, List.getLast?_cons]
      -- the TTL is the same after each renewal, so only the last clock reading counts
      cases (es.map time).getLast? <;> rfl

/-- In every state the services lead to, every lifetime is a whole number of milliseconds
from one to a day with a deadline; renewals that name no TTL keep it, and leave the deadline
at the clock of the last one plus it, in whole milliseconds. -/
theorem bare_renewals_keep_lifetime {f : Fsm} (reached : Served f) :
    (∀ name g, f.lockGrant name = some g → g.data.Standing) ∧
    (∀ name g, f.leaseGrant name = some g → g.data.Standing) ∧
    (∀ name g rs, f.lockGrant name = some g →
      Runs.Along LockRenewal.handle (fun f r => r.Succeeds name f) f rs →
        (Runs.run LockRenewal.handle f rs).lockGrant name =
          some { g with data := (rs.map (·.sub.now)).getLast?.elim g.data g.data.renewedAt }) ∧
    (∀ name g rs, f.leaseGrant name = some g →
      Runs.Along LeaseRenewal.handle (fun f r => r.Succeeds name f) f rs →
        (Runs.run LeaseRenewal.handle f rs).leaseGrant name =
          some { g with data := (rs.map (·.sub.now)).getLast?.elim g.data g.data.renewedAt }) := by
  have hlock : ∀ name g, f.lockGrant name = some g → g.data.Standing := fun name g held =>
    reached.standing.1 name g ((f.lockGrant_eq name).symm.trans held)
  have hlease : ∀ name g, f.leaseGrant name = some g → g.data.Standing := fun name g held =>
    reached.standing.2 name g ((f.leaseGrant_eq name).symm.trans held)
  refine ⟨hlock, hlease, fun name g rs held along => ?_, fun name g rs held along => ?_⟩
  · exact run_renewed (fun r : LockRenewal => r.sub.now) (Fsm.lockGrant · name)
      (fun _ _ h => h.clock)
      (fun _ _ _ h held standing => LockRenewal.grant_handle h held standing)
      held (hlock name g held) along
  · exact run_renewed (fun r : LeaseRenewal => r.sub.now) (Fsm.leaseGrant · name)
      (fun _ _ h => h.clock)
      (fun _ _ _ h held standing => LeaseRenewal.grant_handle h held standing)
      held (hlease name g held) along

section Concrete

/-- A lock and a lease of 2500 ms, taken at 7.3 ms. -/
def bothHeld : Fsm :=
  (ServiceStep.grant soleLeases ⟨"job", "a", 2500⟩).handle
    ((ServiceStep.tryLock soleLocks ⟨"job", "a", 2500⟩).handle
      freshTables (committedAt 7300000)) (committedAt 7300000)

omit [Unicode] in
theorem countable_of_small {now : Int} (lower : 0 ≤ now) (upper : now ≤ 1000000000000) :
    Countable now := ⟨lower, by omega⟩

omit [Unicode] in
theorem served_bothHeld : letI := Unicode.ascii
    Served bothHeld := by
  let := Unicode.ascii
  have clock : Countable (committedAt 7300000).now := countable_of_small (by decide) (by decide)
  exact .request (.request (.new soleMembers) clock rfl) clock rfl

omit [Unicode] in
theorem bare_renewals_keep_lifetime_twice : letI := Unicode.ascii
    (Runs.run LockRenewal.handle bothHeld
        [⟨soleLocks, committedAt 9000000, ⟨"job", "a", 1, 0⟩⟩,
          ⟨soleLocks, committedAt 12700000, ⟨"job", "a", 1, 0⟩⟩]).lockGrant "job" =
      some ⟨"a", 1, ⟨2512000000, 2500000000⟩⟩ ∧
    (Runs.run LeaseRenewal.handle bothHeld
        [⟨soleLeases, committedAt 9000000, ⟨"job", "a", 1, 0⟩⟩]).leaseGrant "job" =
      some ⟨"a", 1, ⟨2509000000, 2500000000⟩⟩ := by
  let := Unicode.ascii
  obtain ⟨-, -, locks, leases⟩ := bare_renewals_keep_lifetime served_bothHeld
  refine ⟨locks "job" ⟨"a", 1, ⟨2507000000, 2500000000⟩⟩ _ (by decide +kernel) ⟨?_, ?_, trivial⟩,
    leases "job" ⟨"a", 1, ⟨2507000000, 2500000000⟩⟩ _ (by decide +kernel) ⟨?_, trivial⟩⟩
  · exact ⟨rfl, countable_of_small (by decide) (by decide), rfl, rfl,
      ⟨true, 1, 2509⟩, by decide +kernel⟩
  · exact ⟨rfl, countable_of_small (by decide) (by decide), rfl, rfl,
      ⟨true, 1, 2512⟩, by decide +kernel⟩
  · exact ⟨rfl, countable_of_small (by decide) (by decide), rfl, rfl,
      ⟨true, 1, 2509⟩, by decide +kernel⟩

end Concrete

end Clusdr
