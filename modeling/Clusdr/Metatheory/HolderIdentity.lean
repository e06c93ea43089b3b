import Clusdr.Metatheory.MemberEngine
import Clusdr.Metatheory.ServedCommands
import Clusdr.Metatheory.Submissions

/-!
Who a grant belongs to when the request names nobody. The daemon that serves a
request fills in its own id, so a forwarded request without a holder is granted
to the leader, whichever daemon received it. As long as every such request is
served where it was received, two daemons cannot both be granted a name.
-/

namespace Clusdr

open Go (Time Unicode)
open Fencing (Grant)
open Clusdr.Membership (Engine)
open Consensus (Command Fsm Submission leaseHalf lockHalf)

variable [Unicode]

/-- A service that grants names, seen by its callers: which daemon is asked, who a
request is for, what serving it commits and answers, and which grant is live. -/
structure GrantService (S Q : Type) where
  members : S → Engine
  route : S → Q → Route
  name : Q → String
  /-- The holder field of the request. -/
  asked : Q → String
  /-- Whom a daemon serves a request for. -/
  identity : S → Q → String
  serve : S → Fsm → Submission → Q → Fsm × Except Rpc.Status (UInt64 × Bool)
  leads : S → Prop
  grant : Fsm → String → Option (Grant String Lifetime)
  identity_empty : ∀ s q, asked q = "" → identity s q = (members s).selfID
  serve_state : ∀ s f sub q, leads s →
    (serve s f sub q).1 = f ∨ ∃ now cmd, (serve s f sub q).1 = (f.applyCommand now cmd).1
  granted : ∀ s f sub q token, leads s → (serve s f sub q).2 = .ok (token, true) →
    ∃ g, grant (serve s f sub q).1 (name q) = some g ∧ g.holder = identity s q ∧ g.token = token
  blocked : ∀ s f sub q g token, leads s → grant f (name q) = some g →
    g.holder ≠ identity s q → (serve s f sub q).2 ≠ .ok (token, true)
  kept : ∀ f now cmd n g g', grant f n = some g →
    grant (f.applyCommand now cmd).1 n = some g' → g'.holder = g.holder ∧ g'.token = g.token

namespace GrantService

variable {S Q : Type} (svc : GrantService S Q)

/-- One commit of a request, received by one daemon and served by another: a
`TryLock`, a `Grant`, or one round of a `Lock`. -/
structure Call (S Q : Type) where
  received : S
  served : S
  sub : Submission
  req : Q

inductive Step (S Q : Type) where
  | call (c : Call S Q)
  /-- Any other command of the log. -/
  | commit (now : Time) (cmd : Command)

/-- The request was forwarded from daemon to daemon to a leader that serves it. -/
structure Routed (c : Call S Q) : Prop where
  path : Forwarded svc.members (svc.route · c.req) c.received c.served
  serves : svc.route c.served c.req = .serve
  leads : svc.leads c.served

theorem Routed.here {s : S} {sub : Submission} {q : Q} (serves : svc.route s q = .serve)
    (leads : svc.leads s) : svc.Routed ⟨s, s, sub, q⟩ := by
  refine ⟨.here fun i a => ?_, serves, leads⟩
  rw [serves]
  exact nofun

omit [Unicode] in
theorem forall_call_pair {P : Call S Q → Prop} {a b : Call S Q} (first : P a) (second : P b) :
    ∀ c, Step.call c ∈ [.call a, .call b] → P c := by
  intro c hc
  rcases List.mem_cons.mp hc with h | h
  · cases h
    exact first
  · cases List.mem_singleton.mp h
    exact second

def next (f : Fsm) : Step S Q → Fsm
  | .call c => (svc.serve c.served f c.sub c.req).1
  | .commit now cmd => (f.applyCommand now cmd).1

def run (f : Fsm) (steps : List (Step S Q)) : Fsm := steps.foldl svc.next f

def answer (f : Fsm) (c : Call S Q) : Except Rpc.Status (UInt64 × Bool) :=
  (svc.serve c.served f c.sub c.req).2

/-- In every state of the run the name is held under the token. -/
def HeldThroughout (name : String) (token : UInt64) : Fsm → List (Step S Q) → Prop
  | f, [] => ∃ g, svc.grant f name = some g ∧ g.token = token
  | f, step :: steps =>
      (∃ g, svc.grant f name = some g ∧ g.token = token) ∧
        HeldThroughout name token (svc.next f step) steps

/-- Of two requests without a holder, received by different daemons, the second is
not granted a name while the first one's grant of it is held; that grant is
recorded for the daemon that received its request. -/
def Exclusive (f : Fsm) (steps : List (Step S Q)) : Prop :=
  ∀ before first between second after,
    steps = before ++ .call first :: (between ++ .call second :: after) →
    svc.asked first.req = "" → svc.asked second.req = "" →
    svc.name first.req = svc.name second.req →
    (svc.members first.received).selfID ≠ (svc.members second.received).selfID →
    ∀ token, svc.answer (svc.run f before) first = .ok (token, true) →
      svc.HeldThroughout (svc.name first.req) token
        (svc.next (svc.run f before) (.call first)) between →
      (∃ g, svc.grant (svc.run f (before ++ .call first :: between)) (svc.name first.req) = some g ∧
        g.holder = (svc.members first.received).selfID) ∧
      ∀ token', svc.answer (svc.run f (before ++ .call first :: between)) second ≠
        .ok (token', true)

theorem grant_next {f : Fsm} {step : Step S Q} (routed : ∀ c, step = .call c → svc.Routed c)
    {name : String} {g g' : Grant String Lifetime} (held : svc.grant f name = some g)
    (after : svc.grant (svc.next f step) name = some g') : g'.holder = g.holder := by
  cases step with
  | commit now cmd => exact (svc.kept f now cmd name g g' held after).1
  | call c =>
      rcases svc.serve_state c.served f c.sub c.req (routed c rfl).leads with h | ⟨now, cmd, h⟩
      · simp only [next, h, held, Option.some.injEq] at after
        rw [after]
      · simp only [next, h] at after
        exact (svc.kept f now cmd name g g' held after).1

theorem holder_of_heldThroughout {name : String} {token : UInt64} {f : Fsm}
    {steps : List (Step S Q)} (routed : ∀ c, .call c ∈ steps → svc.Routed c)
    (h : svc.HeldThroughout name token f steps) {g : Grant String Lifetime}
    (held : svc.grant f name = some g) :
    ∃ g', svc.grant (svc.run f steps) name = some g' ∧ g'.holder = g.holder := by
  induction steps generalizing f g with
  | nil => exact ⟨g, held, rfl⟩
  | cons step steps ih =>
      obtain ⟨g', hg'⟩ : ∃ g', svc.grant (svc.next f step) name = some g' := by
        cases steps with
        | nil => exact ⟨_, h.2.choose_spec.1⟩
        | cons _ _ => exact ⟨_, h.2.1.choose_spec.1⟩
      have hholder := svc.grant_next
        (fun c hc => routed c (hc ▸ List.mem_cons_self)) held hg'
      obtain ⟨g'', hg'', hsame⟩ := ih (fun c hc => routed c (List.mem_cons_of_mem step hc)) h.2 hg'
      exact ⟨g'', hg'', hsame.trans hholder⟩

theorem exclusive_of_served_where_received (f : Fsm) (steps : List (Step S Q))
    (routed : ∀ c, .call c ∈ steps → svc.Routed c)
    (here : ∀ c, .call c ∈ steps → svc.asked c.req = "" →
      (svc.members c.served).selfID = (svc.members c.received).selfID) :
    svc.Exclusive f steps := by
  intro before first between second after split hfirst hsecond hname hdiffer token granted held
  have mem : ∀ step ∈ before ++ .call first :: between, step ∈ steps := by
    intro step hstep
    rw [split]
    simp only [List.mem_append, List.mem_cons] at hstep ⊢
    tauto
  have memFirst : .call first ∈ steps := mem _ (by simp)
  have memSecond : .call second ∈ steps := by rw [split]; simp
  obtain ⟨g, hg, hholder, -⟩ := svc.granted _ _ _ _ _ (routed first memFirst).leads granted
  rw [svc.identity_empty _ _ hfirst, here first memFirst hfirst] at hholder
  obtain ⟨g', hg', hsame⟩ := svc.holder_of_heldThroughout
    (fun c hc => routed c (mem _ (by simp [hc]))) held hg
  have hrun : svc.run f (before ++ .call first :: between) =
      svc.run (svc.next (svc.run f before) (.call first)) between := by
    simp only [run, List.foldl_append, List.foldl_cons]
  rw [hrun]
  refine ⟨⟨g', hg', hsame.trans hholder⟩, fun token' hgranted => ?_⟩
  refine svc.blocked _ _ _ _ g' token' (routed second memSecond).leads (hname ▸ hg') ?_ hgranted
  rw [svc.identity_empty _ _ hsecond, here second memSecond hsecond, hsame, hholder]
  exact hdiffer

end GrantService

/-- A `Lock` or `TryLock` request. -/
structure LockCall where
  blocking : Bool
  req : LockRequest

def LockCall.serve (s : LockService) (f : Fsm) (sub : Submission) (q : LockCall) :
    Fsm × Except Rpc.Status (UInt64 × Bool) :=
  if q.blocking then s.lockRound f sub q.req else s.tryLock f sub q.req

theorem LockCall.serve_eq {s : LockService} (leads : s.raft = some true) (f : Fsm)
    (sub : Submission) (q : LockCall) :
    ∃ op, LockCall.serve s f sub q =
      ((f.applyLockAcquire sub q.req.name (s.holder q.req.holder)
          (s.ttlFromMs q.req.ttlMs 0)).1,
        (f.applyLockAcquire sub q.req.name (s.holder q.req.holder)
          (s.ttlFromMs q.req.ttlMs 0)).2.mapError
            fun e => ⟨.internal, op ++ ": " ++ e⟩) := by
  obtain ⟨_ | _, req⟩ := q
  · exact ⟨"trylock", LockService.attempt_eq leads "trylock" f sub req⟩
  · exact ⟨"lock", LockService.attempt_eq leads "lock" f sub req⟩

theorem applyAcquire_state {f : Fsm} {sub : Submission} {cmd : Command}
    (known : cmd.kind ∈ Consensus.CommandKind.known) :
    (f.applyAcquire sub cmd).1 = f ∨
      ∃ now cmd', (f.applyAcquire sub cmd).1 = (f.applyCommand now cmd').1 := by
  rcases Fsm.applyLock_state known f sub with h | h
  · exact Or.inl h
  · exact Or.inr ⟨_, _, h⟩

/-- `LockService` grants lock names. -/
def lockGrants : GrantService LockService LockCall where
  members := LockService.members
  route s q := s.route q.req.name
  name q := q.req.name
  asked q := q.req.holder
  identity s q := s.holder q.req.holder
  serve := LockCall.serve
  leads s := s.raft = some true
  grant := Fsm.lockGrant
  identity_empty s q h := by simp [LockService.holder, h]
  serve_state s f sub q leads := by
    obtain ⟨op, h⟩ := LockCall.serve_eq leads f sub q
    rw [h]
    exact applyAcquire_state (by simp [Fsm.stamped, Consensus.CommandKind.known])
  granted s f sub q token leads ok := by
    obtain ⟨op, h⟩ := LockCall.serve_eq leads f sub q
    rw [h] at ok ⊢
    simp only [Fsm.lockGrant_eq]
    exact lockHalf.acquire_granted rfl (mapError_eq_ok.mp ok)
  blocked s f sub q g token leads held other ok := by
    obtain ⟨op, h⟩ := LockCall.serve_eq leads f sub q
    rw [h] at ok
    rw [Fsm.lockGrant_eq] at held
    exact lockHalf.acquire_blocked rfl held other sub token (mapError_eq_ok.mp ok)
  kept f now cmd name g g' held after := by
    rw [Fsm.lockGrant_eq] at held after
    exact lockHalf.grant_applyCommand held after

/-- `LeaseService` grants lease names. -/
def leaseGrants : GrantService LeaseService GrantRequest where
  members := LeaseService.members
  route s q := s.route q.name
  name := GrantRequest.name
  asked := GrantRequest.owner
  identity s q := s.owner q.owner
  serve := LeaseService.grant
  leads s := s.raft = some true
  grant := Fsm.leaseGrant
  identity_empty s q h := by simp [LeaseService.owner, h]
  serve_state s f sub q leads := by
    rw [LeaseService.grant_eq leads]
    exact applyAcquire_state (by simp [Fsm.stamped, Consensus.CommandKind.known])
  granted s f sub q token leads ok := by
    rw [LeaseService.grant_eq leads] at ok ⊢
    simp only [Fsm.leaseGrant_eq]
    exact leaseHalf.acquire_granted rfl (mapError_eq_ok.mp ok)
  blocked s f sub q g token leads held other ok := by
    rw [LeaseService.grant_eq leads] at ok
    rw [Fsm.leaseGrant_eq] at held
    exact leaseHalf.acquire_blocked rfl held other sub token (mapError_eq_ok.mp ok)
  kept f now cmd name g g' held after := by
    rw [Fsm.leaseGrant_eq] at held after
    exact leaseHalf.grant_applyCommand held after

/-- Requests without a holder exclude each other across daemons in every run in
which each of them is served by the daemon that received it; locks and leases. -/
theorem empty_holder_exclusive (f : Fsm)
    (locks : List (GrantService.Step LockService LockCall))
    (leases : List (GrantService.Step LeaseService GrantRequest))
    (routedLocks : ∀ c, .call c ∈ locks → lockGrants.Routed c)
    (routedLeases : ∀ c, .call c ∈ leases → leaseGrants.Routed c)
    (locksHere : ∀ c, .call c ∈ locks → c.req.req.holder = "" →
      c.served.members.selfID = c.received.members.selfID)
    (leasesHere : ∀ c, .call c ∈ leases → c.req.owner = "" →
      c.served.members.selfID = c.received.members.selfID) :
    lockGrants.Exclusive f locks ∧ leaseGrants.Exclusive f leases :=
  ⟨lockGrants.exclusive_of_served_where_received f locks routedLocks locksHere,
    leaseGrants.exclusive_of_served_where_received f leases routedLeases leasesHere⟩

omit [Unicode] in
theorem LockService.rejectIfObserver_of_voter {s : LockService} (valid : s.members.Valid)
    (voter : s.members.selfRole = Membership.roleVoter) : s.rejectIfObserver = none := by
  unfold LockService.rejectIfObserver
  rw [if_neg]
  intro h
  obtain ⟨m, hm, hself⟩ := List.any_eq_true.mp h
  obtain ⟨hid, hrole⟩ := of_decide_eq_true hself
  obtain ⟨k, hk⟩ := (Go.Map.mem_sorted _ m).mp hm
  have hget : s.members.members.get s.members.selfID = some m := by
    rw [← hid, valid.keyed k m hk, hk]
  rw [Membership.Engine.selfRole, hget] at voter
  exact absurd (hrole.symm.trans voter) (by decide)

/-- A daemon of the cluster `n1`, `n2`, `n3` that knows `n1` for its leader. -/
def memberOf (id addr : String) : Engine :=
  Engine.run (.new 0 id addr)
    [.joinAs 0 "n1" "h1" "", .joinAs 0 "n2" "h2" "", .joinAs 0 "n3" "h3" "", .setLeader "n1"]

def lockDaemon (id addr : String) (leads : Bool) : LockService :=
  ⟨memberOf id addr, some leads, 0⟩

omit [Unicode] in
theorem valid_memberOf (id addr : String) : (memberOf id addr).Valid :=
  Engine.valid_run (Engine.valid_new 0 id addr) _

/-- A `TryLock` of `job` for nobody in particular. -/
def anonymousLock (received served : LockService) : GrantService.Call LockService LockCall :=
  ⟨received, served, ⟨0, 0, .committed⟩, ⟨false, ⟨"job", "", 0⟩⟩⟩

def emptyTables : Fsm := ⟨.new 0 "n1" "h1", some .new, some .new⟩

theorem lockDaemon_serves (hname : Locks.validName "job" = .ok ()) (id addr : String)
    (voter : (memberOf id addr).selfRole = "voter") :
    (lockDaemon id addr true).route "job" = .serve := by
  have hvoter : (lockDaemon id addr true).rejectIfObserver = none :=
    LockService.rejectIfObserver_of_voter (valid_memberOf id addr) voter
  simp only [LockService.route, hname, hvoter]
  rfl

theorem lockDaemon_dials (hname : Locks.validName "job" = .ok ()) (id addr : String)
    (voter : (memberOf id addr).selfRole = "voter") :
    (lockDaemon id addr false).route "job" = dialLeader (memberOf id addr) := by
  have hvoter : (lockDaemon id addr false).rejectIfObserver = none :=
    LockService.rejectIfObserver_of_voter (valid_memberOf id addr) voter
  simp only [LockService.route, hname, hvoter]
  rfl

theorem routed_at_leader (hname : Locks.validName "job" = .ok ()) (id addr : String)
    (voter : (memberOf id addr).selfRole = "voter") :
    lockGrants.Routed (anonymousLock (lockDaemon id addr true) (lockDaemon id addr true)) :=
  .here lockGrants (lockDaemon_serves hname id addr voter) rfl

omit [Unicode] in
theorem n1_answers : AnswersAt (memberOf "n1" "h1") "h1" :=
  ⟨⟨"n1", "h1", "alive", true, "voter", 0⟩, by decide, rfl⟩

theorem routed_to_n1 (hname : Locks.validName "job" = .ok ()) {id addr : String}
    (voter : (memberOf id addr).selfRole = "voter")
    (dials : dialLeader (memberOf id addr) = .forward "n1" "h1") :
    lockGrants.Routed (anonymousLock (lockDaemon id addr false) (lockDaemon "n1" "h1" true)) := by
  have hleader := routed_at_leader hname "n1" "h1" (by decide)
  have hsends := (lockDaemon_dials hname id addr voter).trans dials
  have answers : AnswersAt (lockGrants.members (lockDaemon "n1" "h1" true)) "h1" := n1_answers
  exact ⟨.hop hsends answers hleader.path, hleader.serves, hleader.leads⟩

/-- The requests of a client of `n2` and of a client of `n3`, both forwarded. -/
def viaN2 : GrantService.Call LockService LockCall :=
  anonymousLock (lockDaemon "n2" "h2" false) (lockDaemon "n1" "h1" true)

def viaN3 : GrantService.Call LockService LockCall :=
  anonymousLock (lockDaemon "n3" "h3" false) (lockDaemon "n1" "h1" true)

omit [Unicode] in
theorem viaN2_granted : letI := Unicode.ascii
    lockGrants.answer emptyTables viaN2 = .ok (1, true) ∧
      lockGrants.grant (lockGrants.next emptyTables (.call viaN2)) "job" =
        some ⟨"n1", 1, ⟨15000000000, 15000000000⟩⟩ ∧
      lockGrants.answer (lockGrants.next emptyTables (.call viaN2)) viaN3 = .ok (1, true) := by
  decide +kernel

omit [Unicode] in
theorem followers_dial_n1 :
    (memberOf "n2" "h2").selfRole = "voter" ∧
      dialLeader (memberOf "n2" "h2") = .forward "n1" "h1" ∧
      (memberOf "n3" "h3").selfRole = "voter" ∧
      dialLeader (memberOf "n3" "h3") = .forward "n1" "h1" := by
  decide +kernel

omit [Unicode] in
/-- Two followers forward to `n1`: both are granted `job`, recorded for `n1`. -/
theorem followers_share_grant : letI := Unicode.ascii
    lockGrants.Routed viaN2 ∧ lockGrants.Routed viaN3 ∧
      ¬ lockGrants.Exclusive emptyTables [.call viaN2, .call viaN3] := by
  obtain ⟨hfirst, hgrant, hsecond⟩ := viaN2_granted
  obtain ⟨voter, dials, voter', dials'⟩ := followers_dial_n1
  refine ⟨@routed_to_n1 .ascii rfl _ _ voter dials, @routed_to_n1 .ascii rfl _ _ voter' dials',
    fun h => ?_⟩
  obtain ⟨-, hblocked⟩ := h [] viaN2 [] viaN3 [] rfl rfl rfl rfl (by decide) 1 hfirst
    ⟨_, hgrant, rfl⟩
  exact hblocked 1 hsecond

/-- The requests of a client of the leader `n1` and of one of the next leader `n2`. -/
def atN1 : GrantService.Call LockService LockCall :=
  anonymousLock (lockDaemon "n1" "h1" true) (lockDaemon "n1" "h1" true)

def atN2 : GrantService.Call LockService LockCall :=
  anonymousLock (lockDaemon "n2" "h2" true) (lockDaemon "n2" "h2" true)

def leaseDaemon (id addr : String) : LeaseService := ⟨memberOf id addr, some true, 0⟩

/-- A `Grant` of `job` for nobody in particular, asked of a leader. -/
def anonymousLease (id addr : String) : GrantService.Call LeaseService GrantRequest :=
  ⟨leaseDaemon id addr, leaseDaemon id addr, ⟨0, 0, .committed⟩, ⟨"job", "", 0⟩⟩

theorem leaseDaemon_routed (hname : Leases.validName "job" = .ok ()) (id addr : String) :
    leaseGrants.Routed (anonymousLease id addr) := by
  refine .here leaseGrants ?_ rfl
  change (leaseDaemon id addr).route "job" = _
  simp only [LeaseService.route, hname]
  rfl

omit [Unicode] in
theorem empty_holder_exclusive_after_election : letI := Unicode.ascii
    lockGrants.Exclusive emptyTables [.call atN1, .call atN2] ∧
      leaseGrants.Exclusive emptyTables
        [.call (anonymousLease "n1" "h1"), .call (anonymousLease "n2" "h2")] := by
  let := Unicode.ascii
  have hname : Locks.validName "job" = .ok () ∧ Leases.validName "job" = .ok () := ⟨rfl, rfl⟩
  exact empty_holder_exclusive emptyTables [.call atN1, .call atN2] _
    (GrantService.forall_call_pair (routed_at_leader hname.1 "n1" "h1" (by decide))
      (routed_at_leader hname.1 "n2" "h2" (by decide)))
    (GrantService.forall_call_pair (leaseDaemon_routed hname.2 "n1" "h1")
      (leaseDaemon_routed hname.2 "n2" "h2"))
    (GrantService.forall_call_pair (fun _ => rfl) fun _ => rfl)
    (GrantService.forall_call_pair (fun _ => rfl) fun _ => rfl)

end Clusdr
