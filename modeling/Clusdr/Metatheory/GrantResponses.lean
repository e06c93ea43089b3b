import Clusdr.Fencing.Fate
import Clusdr.Metatheory.RetriedGrants
import Clusdr.Metatheory.ServedCommands
import Clusdr.Metatheory.Submissions
import Clusdr.Runs.Along

/-!
What a response to a grant request says. The handler reports the outcome of its
command and then reads the table by name alone. As long as no command in between
ends the grant that the request found or made, both speak of that grant.
-/

namespace Clusdr

open Go (Time Duration Unicode)
open Fencing (Grant Op Register)
open Consensus (Command Fsm Half Submission lockHalf leaseHalf)

variable [Unicode]

namespace Consensus

/-- Committed commands, each with the node's clock when it applies it. -/
def Fsm.commitAll (f : Fsm) (cs : List (Time × Command)) : Fsm :=
  Runs.run (fun f c => (f.applyCommand c.1 c.2).1) f cs

namespace Half

/-- The command neither releases nor expires the grant. -/
def Spares (half : Half) (name : String) (g : Grant String Lifetime) (cmd : Command) : Prop :=
  ∀ o, half.op cmd = some o → Register.ends name g o = false

theorem spares_renew {half : Half} {cmd : Command} {n id : String} {token : UInt64} {d : Lifetime}
    (renews : half.op cmd = some (.renew n id token d)) {name : String}
    {g : Grant String Lifetime} : half.Spares name g cmd := by
  intro o hop
  cases renews.symm.trans hop
  rfl

/-- At a moment of the run the grant of `name` with this token was `holder`'s, until
`deadline`. -/
def Had (half : Half) (f : Fsm) (cs : List (Time × Command)) (name holder : String)
    (token : UInt64) (deadline : Int64) : Prop :=
  ∃ before ∈ cs.inits, ∃ g ∈ half.grant (f.commitAll before) name,
    g.holder = holder ∧ g.token = token ∧ unixMs g.data.deadline = deadline

instance (half : Half) (f : Fsm) (cs : List (Time × Command)) (name holder : String)
    (token : UInt64) (deadline : Int64) : Decidable (half.Had f cs name holder token deadline) :=
  inferInstanceAs (Decidable (∃ before ∈ cs.inits, ∃ g ∈ half.grant (f.commitAll before) name, _))

variable {half : Half}

theorem spared_step {f : Fsm} {r : Register String String Lifetime}
    (hr : half.register f = some r) (admitted : Register.Admitted half.policy r) {name : String}
    {g : Grant String Lifetime} (held : r.grants.get name = some g) {cmd : Command}
    (spares : half.Spares name g cmd) (now : Time) :
    ∃ r' data, half.register (f.applyCommand now cmd).1 = some r' ∧
      Register.Admitted half.policy r' ∧ r'.grants.get name = some { g with data := data } := by
  cases hop : half.op cmd with
  | none => exact ⟨r, g.data, (half.idle f now cmd hop).trans hr, admitted, held⟩
  | some o =>
      refine ⟨(Register.step half.policy r o).1, (Register.refreshed name g o).getD g.data, ?_,
        Register.admitted_change admitted (Register.step_change _ _ _), ?_⟩
      · rw [half.acts f now cmd o hop, hr, Option.map_some]
      · rw [Register.get_step_live admitted held, spares o hop]
        rfl

theorem spared_run {f : Fsm} {r : Register String String Lifetime}
    (hr : half.register f = some r) (admitted : Register.Admitted half.policy r) {name : String}
    {g : Grant String Lifetime} (held : r.grants.get name = some g) {cs : List (Time × Command)}
    (spares : ∀ c ∈ cs, half.Spares name g c.2) :
    ∃ data, half.grant (f.commitAll cs) name = some { g with data := data } := by
  induction cs generalizing f r g with
  | nil => exact ⟨g.data, (half.grant_eq hr name).trans held⟩
  | cons c cs ih =>
      obtain ⟨r', data, hr', admitted', held'⟩ :=
        spared_step hr admitted held (spares c List.mem_cons_self) c.1
      -- what ends a grant does not depend on its lifetime
      have spares' : ∀ c ∈ cs, half.Spares name { g with data := data } c.2 := by
        intro c' hc' o hop
        rw [Register.ends_data]
        exact spares c' (List.mem_cons_of_mem c hc') o hop
      obtain ⟨data', hlast⟩ := ih hr' admitted' held' spares'
      exact ⟨data', hlast⟩

/-- What a take that is not refused reports: the token, and whether it is the caller's. -/
def Reports (half : Half) : Prop :=
  ∀ cmd name holder d token, half.op cmd = some (.take name holder d) →
    (half.answer cmd (.taken token)).acquired = true ∧
      (half.answer cmd (.taken token)).token = token ∧
      (half.answer cmd (.held token)).acquired = false ∧
      (half.answer cmd (.held token)).token = token

/-- Right after its command a request that is not refused finds the grant it reports: its
own, or the one that blocks it. -/
theorem acquire_told (tells : half.Tells) (reports : half.Reports) {cmd : Command}
    {name holder : String} {d : Lifetime} (hop : half.op cmd = some (.take name holder d))
    {f : Fsm} {r : Register String String Lifetime} (hr : half.register f = some r)
    (admitted : Register.Admitted half.policy r) {s : Submission} {told : UInt64 × Bool}
    (ok : (f.applyAcquire s cmd).2 = .ok told) :
    ∃ r' g, half.register (f.applyAcquire s cmd).1 = some r' ∧
      Register.Admitted half.policy r' ∧ r'.grants.get name = some g ∧ g.token = told.1 ∧
      (told.2 = true → g.holder = holder) ∧ (told.2 = false → g.holder ≠ holder) := by
  change (f.applyLock s cmd).2.map _ = .ok told at ok
  change ∃ r' g, half.register (f.applyLock s cmd).1 = some r' ∧ _
  cases hres : (f.applyLock s cmd).2 with
  | error e =>
      rw [hres] at ok
      cases ok
  | ok res =>
      rw [hres] at ok
      obtain rfl : (res.token, res.acquired) = told := Except.ok.inj ok
      obtain ⟨r₀, hr₀, hr', hanswer, hnot⟩ := applyLock_told tells hop hres
      obtain rfl := Option.some.inj (hr.symm.trans hr₀)
      have admitted' := Register.admitted_change admitted
        (Register.step_change half.policy r (.take name holder d))
      rcases Register.reply_take hnot with ⟨token, htaken⟩ | ⟨token, hheld⟩
      · obtain ⟨hacquired, htoken, -, -⟩ := reports cmd name holder d token hop
        refine ⟨_, ⟨holder, token, d⟩, hr', admitted', Register.get_of_taken htaken, ?_⟩
        dsimp only
        rw [hanswer, htaken, hacquired, htoken]
        exact ⟨rfl, fun _ => rfl, nofun⟩
      · obtain ⟨-, -, hacquired, htoken⟩ := reports cmd name holder d token hop
        obtain ⟨hsame, g, hg, hgtoken, hother⟩ := Register.get_of_told_held hheld
        refine ⟨_, g, hr', admitted', (congrArg (·.grants.get name) hsame).trans hg, ?_⟩
        dsimp only
        rw [hanswer, hheld, hacquired, htoken]
        exact ⟨hgtoken, nofun, fun _ => hother⟩

/-- The holder, token and deadline of a response are those of one grant: the one that was
there right after the request's command, in `f`, and that the command told of. The grant
that blocks a request has a holder, who is not the requester. -/
structure Describes (half : Half) (f : Fsm) (cs : List (Time × Command))
    (name requester : String) (told : UInt64 × Bool) (holder : String) (token : UInt64)
    (deadline : Int64) : Prop where
  told_token : token = told.1
  found : ∃ g, half.grant f name = some g ∧ g.holder = holder ∧ g.token = token
  had : half.Had f cs name holder token deadline
  blocked : told.2 = false → holder ≠ "" ∧ holder ≠ requester

/-- After a run that spares that grant the table still has it, and reading it describes it. -/
theorem describes_of_spared (tells : half.Tells) (reports : half.Reports)
    (named : ∀ h, half.policy.holder h = true → h ≠ "") {cmd : Command} {name requester : String}
    {d : Lifetime} (hop : half.op cmd = some (.take name requester d)) {f : Fsm}
    {r : Register String String Lifetime} (hr : half.register f = some r)
    (admitted : Register.Admitted half.policy r) {s : Submission} {told : UInt64 × Bool}
    (ok : (f.applyAcquire s cmd).2 = .ok told) {cs : List (Time × Command)}
    (spares : ∀ g, half.grant (f.applyAcquire s cmd).1 name = some g →
      ∀ c ∈ cs, half.Spares name g c.2) :
    ∃ g, half.grant ((f.applyAcquire s cmd).1.commitAll cs) name = some g ∧
      (told.2 = true → g.holder = requester) ∧
      half.Describes (f.applyAcquire s cmd).1 cs name requester told g.holder g.token
        (unixMs g.data.deadline) := by
  obtain ⟨r', g, hr', admitted', hg, htoken, hown, hother⟩ :=
    acquire_told tells reports hop hr admitted ok
  have hfound := (half.grant_eq hr' name).trans hg
  obtain ⟨data, hread⟩ := spared_run hr' admitted' hg (spares g hfound)
  refine ⟨{ g with data := data }, hread, hown, htoken, ⟨g, hfound, rfl, rfl⟩,
    ⟨cs, (List.mem_inits cs cs).mpr List.prefix_rfl, _, hread, rfl, rfl, rfl⟩, fun refused => ?_⟩
  exact ⟨named _ (admitted'.holder name g hg), hother refused⟩

end Half

theorem lockHalf_reports : lockHalf.Reports := by
  intro cmd name holder d token hop
  simp only [lockHalf, Command.lockOp] at hop
  cases hkind : cmd.kind with
  | lockAcquire => simp [lockHalf, Command.lockAnswer, hkind, Locks.Table.takenResult]
  | _ =>
      rw [hkind] at hop
      cases hop

theorem leaseHalf_reports : leaseHalf.Reports := by
  intro cmd name holder d token hop
  simp only [leaseHalf, Command.leaseOp] at hop
  cases hkind : cmd.kind with
  | leaseGrant => simp [leaseHalf, Command.leaseAnswer, hkind, Leases.Table.takenResult]
  | _ =>
      rw [hkind] at hop
      cases hop

end Consensus

section Responses

variable {f : Fsm} {g : Grant String Lifetime}

omit [Unicode] in
theorem LockService.tryLockResponse_of_grant (s : LockService) (req : LockRequest)
    (read : f.lockGrant req.name = some g) (told : UInt64 × Bool)
    (own : told.2 = true → g.holder = s.holder req.holder) (token : g.token = told.1) :
    ∃ message, s.tryLockResponse f.locks req told =
      ⟨told.2, message, g.token, g.holder, unixMs g.data.deadline⟩ := by
  obtain ⟨rec, hrec, rfl⟩ := Option.map_eq_some_iff.mp read
  obtain ⟨tok, _ | _⟩ := told
  · refine ⟨"held", ?_⟩
    simp only [tryLockResponse, heldResponse, hrec]
    rfl
  · refine ⟨"", ?_⟩
    simp only [tryLockResponse, grantResponse, hrec, Option.map_some, Option.getD_some, own rfl,
      token]
    rfl

omit [Unicode] in
theorem LeaseService.grantResponse_of_grant (s : LeaseService) (req : GrantRequest)
    (read : f.leaseGrant req.name = some g) (told : UInt64 × Bool)
    (own : told.2 = true → g.holder = s.owner req.owner) (token : g.token = told.1) :
    ∃ message, s.grantResponse f.leases req told =
      ⟨told.2, message, g.token, g.holder, unixMs g.data.deadline⟩ := by
  obtain ⟨rec, hrec, rfl⟩ := Option.map_eq_some_iff.mp read
  obtain ⟨tok, _ | _⟩ := told
  · refine ⟨"held", ?_⟩
    simp only [grantResponse, hrec]
    rfl
  · refine ⟨"", ?_⟩
    simp only [grantResponse, hrec, Option.map_some, Option.getD_some, own rfl, token]
    rfl

end Responses

/-- The response to a `Lock` or `TryLock` whose command left the state `f` and told `told`,
read after the commands `cs`, speaks of one grant. -/
def LockResponse.Describes (resp : LockResponse) (f : Fsm) (cs : List (Time × Command))
    (name requester : String) (told : UInt64 × Bool) : Prop :=
  resp.acquired = told.2 ∧
    lockHalf.Describes f cs name requester told resp.holder resp.fencingToken resp.deadlineUnixMs

def GrantResponse.Describes (resp : GrantResponse) (f : Fsm) (cs : List (Time × Command))
    (name requester : String) (told : UInt64 × Bool) : Prop :=
  resp.granted = told.2 ∧
    leaseHalf.Describes f cs name requester told resp.owner resp.fencingToken resp.deadlineUnixMs

theorem LockService.describes_of_spared {s : LockService} {f : Fsm} {t : Locks.Table}
    {sub : Submission} {op : String} {req : LockRequest} {told : UInt64 × Bool}
    {cs : List (Time × Command)} (leads : s.raft = some true) (locks : f.locks = some t)
    (reached : Locks.Reachable (fun _ _ => True) t)
    (ok : (s.attempt op f sub req).2 = .ok told)
    (spares : ∀ g, (s.attempt op f sub req).1.lockGrant req.name = some g →
      ∀ c ∈ cs, lockHalf.Spares req.name g c.2) :
    (s.tryLockResponse ((s.attempt op f sub req).1.commitAll cs).locks req told).Describes
      (s.attempt op f sub req).1 cs req.name (s.holder req.holder) told := by
  have heq := s.attempt_eq leads op f sub req
  have hstate : (f.applyAcquire sub (Fsm.stamped .lockAcquire sub.now req.name
      (s.holder req.holder) 0 (Locks.clampTTL (s.ttlFromMs req.ttlMs 0) 0))).1 =
        (s.attempt op f sub req).1 := (congrArg Prod.fst heq).symm
  have hr : lockHalf.register f = some t.view := congrArg (Option.map _) locks
  obtain ⟨g, hread, hown, hdescribes⟩ := Half.describes_of_spared Consensus.lockHalf_tells
    Consensus.lockHalf_reports (fun h => of_decide_eq_true) rfl hr
    (Locks.archive.admitted_of_reachable Locks.keyed_new Locks.view_new reached).2
    (mapError_eq_ok.mp ((congrArg Prod.snd heq).symm.trans ok))
    (fun g hg => spares g ((Fsm.lockGrant_eq _ _).trans (hstate ▸ hg)))
  rw [hstate] at hread hdescribes
  rw [← Fsm.lockGrant_eq] at hread
  obtain ⟨message, hresp⟩ := s.tryLockResponse_of_grant req hread told hown hdescribes.told_token
  rw [hresp]
  exact ⟨rfl, hdescribes⟩

theorem LeaseService.describes_of_spared {s : LeaseService} {f : Fsm} {t : Leases.Table}
    {sub : Submission} {req : GrantRequest} {told : UInt64 × Bool}
    {cs : List (Time × Command)} (leads : s.raft = some true) (leases : f.leases = some t)
    (reached : Leases.Reachable (fun _ _ => True) t) (ok : (s.grant f sub req).2 = .ok told)
    (spares : ∀ g, (s.grant f sub req).1.leaseGrant req.name = some g →
      ∀ c ∈ cs, leaseHalf.Spares req.name g c.2) :
    (s.grantResponse ((s.grant f sub req).1.commitAll cs).leases req told).Describes
      (s.grant f sub req).1 cs req.name (s.owner req.owner) told := by
  have heq := s.grant_eq leads f sub req
  have hstate : (f.applyAcquire sub (Fsm.stamped .leaseGrant sub.now req.name
      (s.owner req.owner) 0 (Leases.clampTTL (s.ttlFromMs req.ttlMs 0) 0))).1 =
        (s.grant f sub req).1 := (congrArg Prod.fst heq).symm
  have hr : leaseHalf.register f = some t.view := congrArg (Option.map _) leases
  obtain ⟨g, hread, hown, hdescribes⟩ := Half.describes_of_spared Consensus.leaseHalf_tells
    Consensus.leaseHalf_reports (fun h => of_decide_eq_true) rfl hr
    (Leases.archive.admitted_of_reachable Leases.keyed_new Leases.view_new reached).2
    (mapError_eq_ok.mp ((congrArg Prod.snd heq).symm.trans ok))
    (fun g hg => spares g ((Fsm.leaseGrant_eq _ _).trans (hstate ▸ hg)))
  rw [hstate] at hread hdescribes
  rw [← Fsm.leaseGrant_eq] at hread
  obtain ⟨message, hresp⟩ := s.grantResponse_of_grant req hread told hown hdescribes.told_token
  rw [hresp]
  exact ⟨rfl, hdescribes⟩

/-- Whatever commands come between a request's own and the read, if none of them releases or
expires the grant that stands after the request's command, its response speaks of that
grant. `Lock` only answers when it was granted. -/
theorem responses_describe_one_grant :
    (∀ (s : LockService) (f : Fsm) t sub req told cs, s.raft = some true → f.locks = some t →
      Locks.Reachable (fun _ _ => True) t → (s.tryLock f sub req).2 = .ok told →
      (∀ g, (s.tryLock f sub req).1.lockGrant req.name = some g →
        ∀ c ∈ cs, lockHalf.Spares req.name g c.2) →
      (s.tryLockResponse ((s.tryLock f sub req).1.commitAll cs).locks req told).Describes
        (s.tryLock f sub req).1 cs req.name (s.holder req.holder) told) ∧
    (∀ (s : LockService) (f : Fsm) t sub req token cs, s.raft = some true → f.locks = some t →
      Locks.Reachable (fun _ _ => True) t → (s.lockRound f sub req).2 = .ok (token, true) →
      (∀ g, (s.lockRound f sub req).1.lockGrant req.name = some g →
        ∀ c ∈ cs, lockHalf.Spares req.name g c.2) →
      (LockService.grantResponse ((s.lockRound f sub req).1.commitAll cs).locks req.name
          (s.holder req.holder) token).Describes
        (s.lockRound f sub req).1 cs req.name (s.holder req.holder) (token, true)) ∧
    (∀ (s : LeaseService) (f : Fsm) t sub req told cs, s.raft = some true → f.leases = some t →
      Leases.Reachable (fun _ _ => True) t → (s.grant f sub req).2 = .ok told →
      (∀ g, (s.grant f sub req).1.leaseGrant req.name = some g →
        ∀ c ∈ cs, leaseHalf.Spares req.name g c.2) →
      (s.grantResponse ((s.grant f sub req).1.commitAll cs).leases req told).Describes
        (s.grant f sub req).1 cs req.name (s.owner req.owner) told) :=
  ⟨fun _ _ _ _ _ _ _ leads locks reached ok spares =>
      LockService.describes_of_spared leads locks reached ok spares,
    fun _ _ _ _ _ _ _ leads locks reached ok spares =>
      LockService.describes_of_spared leads locks reached ok spares,
    fun _ _ _ _ _ _ _ leads leases reached ok spares =>
      LeaseService.describes_of_spared leads leases reached ok spares⟩

section Concrete

/-- The state after `b` was granted the name with token 1. -/
def heldByB : Fsm :=
  { freshTables with
    locks := some (Locks.Table.new.acquire 0 "job" "b" 60000000000 60000000000).1 }

def expired : Time × Command := (20000000, { kind := .lockExpire, name := "job", token := 1 })

/-- `b` is granted the name for a minute. -/
def retaken : Time × Command :=
  (21000000, { kind := .lockAcquire, name := "job", id := "b", ttlMs := 60000,
               deadlineUnixMs := 60021 })

def renewed : Time × Command :=
  (9000000, { kind := .lockRenew, name := "job", id := "a", token := 1, ttlMs := 2500,
              deadlineUnixMs := 2509 })

def leaseRenewed : Time × Command :=
  (9000000, { kind := .leaseRenew, name := "job", id := "a", token := 1, ttlMs := 2500,
              deadlineUnixMs := 2509 })

omit [Unicode] in
/-- `a` gets the name by `TryLock`, `Lock` or `Grant` and renews; and it is refused the name
that `b` holds. -/
theorem responses_describe_one_grant_renewed : letI := Unicode.ascii
    (soleLocks.tryLockResponse ((soleLocks.tryLock freshTables (committedAt 7300000)
        ⟨"job", "a", 2500⟩).1.commitAll [renewed]).locks ⟨"job", "a", 2500⟩ (1, true)).Describes
      (soleLocks.tryLock freshTables (committedAt 7300000) ⟨"job", "a", 2500⟩).1 [renewed] "job" "a"
        (1, true) ∧
    (soleLocks.tryLockResponse ((soleLocks.tryLock heldByB (committedAt 7300000)
        ⟨"job", "a", 2500⟩).1.commitAll []).locks ⟨"job", "a", 2500⟩ (1, false)).Describes
      (soleLocks.tryLock heldByB (committedAt 7300000) ⟨"job", "a", 2500⟩).1 [] "job" "a"
        (1, false) ∧
    (LockService.grantResponse ((soleLocks.lockRound freshTables (committedAt 7300000)
        ⟨"job", "a", 2500⟩).1.commitAll [renewed]).locks "job" "a" 1).Describes
      (soleLocks.lockRound freshTables (committedAt 7300000) ⟨"job", "a", 2500⟩).1 [renewed] "job"
        "a" (1, true) ∧
    (soleLeases.grantResponse ((soleLeases.grant freshTables (committedAt 7300000)
        ⟨"job", "a", 2500⟩).1.commitAll [leaseRenewed]).leases ⟨"job", "a", 2500⟩
        (1, true)).Describes
      (soleLeases.grant freshTables (committedAt 7300000) ⟨"job", "a", 2500⟩).1 [leaseRenewed]
        "job" "a" (1, true) := by
  let := Unicode.ascii
  have hmay : Locks.simulation.may .new (.acquire 0 "job" "b" 60000000000 60000000000) := trivial
  have hheld : Locks.Reachable (fun _ _ => True)
      (Locks.Table.new.act (.acquire 0 "job" "b" 60000000000 60000000000)) :=
    .act .new hmay trivial
  have hrenewed (g : Grant String Lifetime) : ∀ c ∈ [renewed], lockHalf.Spares "job" g c.2 :=
    List.forall_mem_singleton.mpr (Half.spares_renew rfl)
  have hrenewed' (g : Grant String Lifetime) :
      ∀ c ∈ [leaseRenewed], leaseHalf.Spares "job" g c.2 :=
    List.forall_mem_singleton.mpr (Half.spares_renew rfl)
  obtain ⟨tryLocks, locks, grants⟩ := responses_describe_one_grant
  exact ⟨tryLocks soleLocks freshTables .new _ _ _ _ rfl rfl .new (by decide +kernel)
      fun g _ => hrenewed g,
    tryLocks soleLocks heldByB _ _ _ _ _ rfl rfl hheld (by decide +kernel)
      fun _ _ _ hc => absurd hc List.not_mem_nil,
    locks soleLocks freshTables .new _ _ _ _ rfl rfl .new (by decide +kernel)
      fun g _ => hrenewed g,
    grants soleLeases freshTables .new _ _ _ _ rfl rfl .new (by decide +kernel)
      fun g _ => hrenewed' g⟩

omit [Unicode] in
/-- The token of one grant with the deadline of the next, and a name that is held by
nobody. -/
theorem response_mixes_grants : letI := Unicode.ascii
    ((soleLocks.tryLock freshTables (committedAt 7300000) ⟨"job", "a", 2500⟩).2 = .ok (1, true) ∧
      soleLocks.tryLockResponse ((soleLocks.tryLock freshTables (committedAt 7300000)
        ⟨"job", "a", 2500⟩).1.commitAll [expired, retaken]).locks ⟨"job", "a", 2500⟩ (1, true) =
          ⟨true, "", 1, "a", 60021⟩ ∧
      ¬ (⟨true, "", 1, "a", 60021⟩ : LockResponse).Describes (soleLocks.tryLock freshTables
        (committedAt 7300000) ⟨"job", "a", 2500⟩).1 [expired, retaken] "job" "a" (1, true)) ∧
    (soleLocks.tryLock heldByB (committedAt 7300000) ⟨"job", "a", 2500⟩).2 = .ok (1, false) ∧
      soleLocks.tryLockResponse ((soleLocks.tryLock heldByB (committedAt 7300000)
        ⟨"job", "a", 2500⟩).1.commitAll [expired]).locks ⟨"job", "a", 2500⟩ (1, false) =
          ⟨false, "held", 0, "", 0⟩ ∧
      ¬ (⟨false, "held", 0, "", 0⟩ : LockResponse).Describes (soleLocks.tryLock heldByB
        (committedAt 7300000) ⟨"job", "a", 2500⟩).1 [expired] "job" "a" (1, false) := by
  let := Unicode.ascii
  refine ⟨⟨by decide +kernel, by decide +kernel, fun h => ?_⟩, by decide +kernel,
    by decide +kernel, fun h => ?_⟩
  · exact absurd h.2.had (by decide +kernel)
  · exact absurd h.2.told_token (by decide)

end Concrete

end Clusdr
