import Clusdr.Core.SdkPublish
import Clusdr.Metatheory.CustomEvents

/-!
One call of `Publish` in the network of daemons. The attempts of the call carry
no id, so each one that a daemon processes gets an id of its own; an attempt that
was processed although the client saw a transient error is followed by another
event.
-/

namespace Clusdr

open Go (Unicode)
open EventBus (Bus)
open Sdk (PublishCall)
open Clusdr.Membership (Member)

namespace EventNetwork

variable {N : Type} [DecidableEq N]

/-- Everything that goes back to the client requests of one origin has an id in `P`. -/
structure Bears (net : EventNetwork N) (origin : Nat) (P : String → Prop) : Prop where
  handlers : ∀ h ∈ net.handlers, h.origin = origin → P h.id
  sent : ∀ r ∈ net.sent, r.origin = origin → P r.req.eventId
  published : ∀ n, ∀ p ∈ (net.nodes n).published, p.origin = origin → P p.id

omit [DecidableEq N] in
theorem Bears.imp {net : EventNetwork N} {origin : Nat} {P Q : String → Prop}
    (bears : net.Bears origin P) (h : ∀ x, P x → Q x) : net.Bears origin Q :=
  ⟨fun g hg ho => h _ (bears.handlers g hg ho), fun r hr ho => h _ (bears.sent r hr ho),
    fun n p hp ho => h _ (bears.published n p hp ho)⟩

theorem published_arrived (net : EventNetwork N) (n k : N) (id : String) (new : Bool) :
    ((net.arrived n id new).nodes k).published = (net.nodes k).published := by
  by_cases hk : k = n
  · subst hk
    simp only [arrived, setNode, Function.update_self]
  · simp only [arrived, setNode, Function.update_of_ne hk]

theorem Bears.accepted {net : EventNetwork N} {origin : Nat} {P : String → Prop}
    (bears : net.Bears origin P) {n : N} {client : Bool} {o : Nat} {req : PublishEventRequest}
    {id : String} (hid : o = origin → P id) :
    EventNetwork.Bears { net.arrived n id true with
      handlers := net.handlers ++ [⟨n, client, o, req, id, .accepted⟩] } origin P := by
  refine ⟨fun h hh ho => ?_, bears.sent, fun k => ?_⟩
  · rcases List.mem_append.mp hh with hh | hh
    · exact bears.handlers h hh ho
    · obtain rfl := List.mem_singleton.mp hh
      exact hid ho
  · change ∀ p ∈ ((net.arrived n id true).nodes k).published, _
    rw [published_arrived]
    exact bears.published k

omit [DecidableEq N] in
/-- A handler keeps its id and its origin. -/
theorem Bears.handlers_set {net : EventNetwork N} {origin : Nat} {P : String → Prop}
    (bears : net.Bears origin P) {i : Nat} {h : EventHandler N}
    (running : net.handlers[i]? = some h) (stage : Stage) :
    ∀ g ∈ net.handlers.set i { h with stage }, g.origin = origin → P g.id := by
  intro g hg ho
  rcases List.mem_or_eq_of_mem_set hg with hg | rfl
  · exact bears.handlers g hg ho
  · exact bears.handlers h (List.mem_of_getElem? running) ho

/-- New ids come in with the requests of clients only. -/
theorem bears_change {net net' : EventNetwork N} {e : EventStep N} {origin : Nat}
    {P : String → Prop} (bears : net.Bears origin P) (hP : ∀ x, P x → x ≠ "")
    (change : net.Change e net') :
    net'.Bears origin P ∨ ∃ n req read id, e = .client n origin req read ∧ id ≠ "" ∧
      net'.Bears origin fun x => P x ∨ x = id := by
  cases change with
  | idle => exact Or.inl bears
  | duplicate n id seen =>
      refine Or.inl ⟨bears.handlers, bears.sent, fun k => ?_⟩
      rw [published_arrived]
      exact bears.published k
  | accepted n client o req id sent named own unseen =>
      by_cases horigin : o = origin
      · subst horigin
        rcases sent with ⟨-, k, read, rfl⟩ | ⟨r, hr, ho, rfl⟩
        · exact Or.inr ⟨k, req, read, id, rfl, named,
            (bears.imp fun _ => Or.inl).accepted fun _ => Or.inr rfl⟩
        · refine Or.inl (bears.accepted fun _ => ?_)
          have hid := bears.sent r hr ho
          rwa [own (hP _ hid)]
      · exact Or.inl (bears.accepted fun h => absurd h horigin)
  | published i h now running stage =>
      have hmem := List.mem_of_getElem? running
      refine Or.inl ⟨bears.handlers_set running _, bears.sent, fun k p hp ho => ?_⟩
      by_cases hk : k = h.node
      · subst hk
        simp only [publish, setNode, Function.update_self, EventNode.acted,
          EventNode.numbered_publish] at hp
        rcases List.mem_append.mp hp with hp | hp
        · exact bears.published _ p hp ho
        · obtain ⟨b, -, rfl⟩ := List.mem_map.mp hp
          exact bears.handlers h hmem ho
      · simp only [publish, setNode, Function.update_of_ne hk] at hp
        exact bears.published k p hp ho
  | fanned i h members running stage =>
      have hmem := List.mem_of_getElem? running
      refine Or.inl ⟨bears.handlers_set running _, fun r hr ho => ?_, bears.published⟩
      rcases List.mem_append.mp hr with hr | hr
      · exact bears.sent r hr ho
      · obtain ⟨q, hq, rfl⟩ := List.mem_map.mp hr
        rw [(mem_fanout hq).2]
        exact bears.handlers h hmem ho

/-- How many of the events that the bus of a node has numbered go back to the client
requests of one origin. -/
def factsOf (net : EventNetwork N) (origin : Nat) (n : N) : Nat :=
  (net.nodes n).published.countP (·.origin = origin)

omit [DecidableEq N] in
theorem Bears.factsOf_le {net : EventNetwork N} {origin : Nat} {id : String}
    (bears : net.Bears origin (· = id)) (n : N) : net.factsOf origin n ≤ net.timesPublished n id :=
  List.countP_mono_left fun p hp ho => by
    simpa using bears.published n p hp (by simpa using ho)

/-- A step of somebody else: requests of other clients have another origin. -/
def others : EventStep N → EventStep N
  | .client n origin req read => .client n (origin + 1) req read
  | e => e

omit [DecidableEq N] in
theorem others_ne (e : EventStep N) (n : N) (req : PublishEventRequest)
    (read : Except String (Vector UInt8 16)) : others e ≠ .client n 0 req read := by
  cases e with
  | client n' origin req' read' =>
      intro h
      injection h with _ horigin
      exact absurd horigin (Nat.succ_ne_zero origin)
  | deliver | publish | fanout => exact fun h => nomatch h

end EventNetwork

/-- An attempt: whether a daemon processed it, and whether the client saw it fail with a
transient code. -/
structure Attempt where
  received : Bool := false
  failed : Bool := false
deriving DecidableEq

/-- A call of `Publish` in a network of daemons; the latest attempt comes first. -/
structure Retried (N : Type) where
  net : EventNetwork N
  call : PublishCall
  attempts : List Attempt := []

inductive RetryStep (N : Type) where
  /-- The head of the loop: the call returns with its context or sends an attempt. -/
  | check (ctxErr : Option Rpc.Status)
  /-- An attempt reaches a daemon, also after the client has given it up. -/
  | receive (k : Nat) (n : N) (read : Except String (Vector UInt8 16))
  /-- The latest attempt ends for the client. -/
  | answer (res : Except Rpc.Status PublishEventResponse)
  | wait (ctxDone : Bool)
  | other (e : EventStep N)

namespace Retried

variable {N : Type} [DecidableEq N]

def start (bus : N → Option Bus) (peers : N → Option String) (topic : String)
    (payload : List UInt8) : Retried N where
  net := EventNetwork.start bus peers
  call := { topic, payload }

def failedBy : Except Rpc.Status PublishEventResponse → Bool
  | .error err => Sdk.transient (some err)
  | .ok _ => false

/-- The latest attempt, as the client saw it end. -/
def ended (res : Except Rpc.Status PublishEventResponse) : List Attempt → List Attempt
  | [] => []
  | a :: attempts => { a with failed := failedBy res } :: attempts

def check (s : Retried N) (ctxErr : Option Rpc.Status) : Retried N :=
  match s.call.retry.phase with
  | .checking =>
      { s with
        call := { s.call with retry := s.call.retry.check ctxErr }
        attempts := match ctxErr with
          | none => {} :: s.attempts
          | some _ => s.attempts }
  | _ => s

def receive [Unicode] (s : Retried N) (k : Nat) (n : N)
    (read : Except String (Vector UInt8 16)) : Retried N :=
  match s.attempts[k]? with
  | some a =>
      if a.received then s
      else { s with
        net := s.net.step (.client n 0 s.call.request read)
        attempts := s.attempts.set k { a with received := true } }
  | none => s

def answer (s : Retried N) (res : Except Rpc.Status PublishEventResponse) : Retried N :=
  match s.call.retry.phase with
  | .calling => { s with call := s.call.called res, attempts := ended res s.attempts }
  | _ => s

def wait (s : Retried N) (ctxDone : Bool) : Retried N :=
  match s.call.retry.phase with
  | .waiting => { s with call := { s.call with retry := s.call.retry.waited ctxDone } }
  | _ => s

def step [Unicode] (s : Retried N) : RetryStep N → Retried N
  | .check ctxErr => s.check ctxErr
  | .receive k n read => s.receive k n read
  | .answer res => s.answer res
  | .wait ctxDone => s.wait ctxDone
  | .other e => { s with net := s.net.step (EventNetwork.others e) }

/-- An attempt that fails with a transient code is never processed, neither before the
client sees it fail nor later. -/
def Lost (s : Retried N) : RetryStep N → Prop
  | .receive k _ _ => ∀ a, s.attempts[k]? = some a → a.failed = false
  | .answer res => failedBy res = true → ∀ a, s.attempts.head? = some a → a.received = false
  | _ => True

/-- At most one attempt has been processed, so everything that goes back to the call has
one id. -/
structure OneAttempt (s : Retried N) : Prop where
  tallied : s.net.Tallied
  lost : ∀ a ∈ s.attempts, a.failed = true → a.received = false
  older : ∀ a ∈ s.attempts.tail, a.failed = true
  ended : s.call.retry.phase = .checking ∨ s.call.retry.phase = .waiting →
    ∀ a ∈ s.attempts, a.failed = true
  unheard : (∀ a ∈ s.attempts, a.received = false) → s.net.Bears 0 fun _ => False
  named : ∃ id ≠ "", s.net.Bears 0 (· = id)

theorem oneAttempt_start (bus : N → Option Bus) (peers : N → Option String) (topic : String)
    (payload : List UInt8) : (start bus peers topic payload).OneAttempt where
  tallied := EventNetwork.tallied_start bus peers
  lost := nofun
  older := nofun
  ended := nofun
  unheard _ := ⟨nofun, nofun, nofun⟩
  named := ⟨"id", by decide, nofun, nofun, nofun⟩

theorem oneAttempt_check {s : Retried N} (one : s.OneAttempt) (ctxErr : Option Rpc.Status) :
    (s.check ctxErr).OneAttempt := by
  unfold check
  split
  next hphase =>
    have hover := one.ended (Or.inl hphase)
    cases ctxErr with
    | some err => exact ⟨one.tallied, one.lost, one.older, nofun, one.unheard, one.named⟩
    | none =>
        refine ⟨one.tallied, fun a ha => ?_, hover, nofun, fun h => one.unheard fun a ha =>
          h a (List.mem_cons_of_mem _ ha), one.named⟩
        rcases List.mem_cons.mp ha with rfl | ha
        · exact fun _ => rfl
        · exact one.lost a ha
  next => exact one

/-- Only the latest attempt can still be processed. -/
theorem OneAttempt.latest {s : Retried N} (one : s.OneAttempt) {k : Nat} {a : Attempt}
    (hk : s.attempts[k]? = some a) (failed : a.failed = false) :
    k = 0 ∧ ∃ older, s.attempts = a :: older ∧ ∀ b ∈ older, b.failed = true := by
  have holder := one.older
  cases hattempts : s.attempts with
  | nil =>
      rw [hattempts] at hk
      cases hk
  | cons head tail =>
      rw [hattempts] at hk holder
      cases k with
      | zero =>
          cases hk
          exact ⟨rfl, tail, rfl, holder⟩
      | succ k =>
          have h := holder a (List.mem_of_getElem? hk)
          exact absurd (failed.symm.trans h) (by decide)

theorem oneAttempt_receive [Unicode] {s : Retried N} (one : s.OneAttempt) {k : Nat} {n : N}
    {read : Except String (Vector UInt8 16)} (ok : s.Lost (.receive k n read)) :
    (s.receive k n read).OneAttempt := by
  unfold receive
  split
  next a hk =>
    have hopen := ok a hk
    obtain ⟨rfl, older, hattempts, holder⟩ := one.latest hk hopen
    split
    · exact one
    · rename_i hreceived
      have hlost : ∀ b ∈ older, b.received = false := fun b hb =>
        one.lost b (hattempts ▸ List.mem_cons_of_mem _ hb) (holder b hb)
      have hunheard : s.net.Bears 0 fun _ => False := by
        refine one.unheard fun b hb => ?_
        rw [hattempts] at hb
        rcases List.mem_cons.mp hb with rfl | hb
        · exact Bool.eq_false_iff.mpr hreceived
        · exact hlost b hb
      have hchange := s.net.step_change (.client n 0 s.call.request read)
      rw [hattempts, List.set_cons_zero]
      refine ⟨EventNetwork.tallied_change one.tallied hchange, fun b hb hfailed => ?_, holder,
        fun hphase => ?_, fun h => ?_, ?_⟩
      · rcases List.mem_cons.mp hb with rfl | hb
        · exact absurd (hopen.symm.trans hfailed) (by decide)
        · exact hlost b hb
      · have h := one.ended hphase a (List.mem_of_getElem? hk)
        exact absurd (hopen.symm.trans h) (by decide)
      · have hnot : true = false := h _ List.mem_cons_self
        cases hnot
      · rcases EventNetwork.bears_change hunheard nofun hchange with h | ⟨-, -, -, id, -, hid, h⟩
        · exact ⟨"id", by decide, h.imp fun _ => False.elim⟩
        · exact ⟨id, hid, h.imp fun _ h => h.resolve_left False.elim⟩
  next => exact one

/-- The call goes on after a transient error only. -/
theorem failedBy_of_phase {c : PublishCall} {res : Except Rpc.Status PublishEventResponse}
    (h : (c.called res).retry.phase = .checking ∨ (c.called res).retry.phase = .waiting) :
    failedBy res = true := by
  by_contra hnot
  cases res with
  | ok resp => exact h.elim nofun nofun
  | error err =>
      have hnot : Sdk.transient (some err) = false := Bool.eq_false_iff.mpr hnot
      simp only [PublishCall.called, Sdk.Retry.called, hnot] at h
      exact h.elim nofun nofun

theorem oneAttempt_answer {s : Retried N} (one : s.OneAttempt)
    {res : Except Rpc.Status PublishEventResponse} (ok : s.Lost (.answer res)) :
    (s.answer res).OneAttempt := by
  unfold answer
  split
  next =>
    obtain ⟨tallied, lost, older, -, unheard, named⟩ := one
    unfold Lost at ok
    cases hattempts : s.attempts with
    | nil =>
        rw [hattempts] at unheard
        exact ⟨tallied, nofun, nofun, fun _ => nofun, unheard, named⟩
    | cons a rest =>
        rw [hattempts] at ok lost older unheard
        refine ⟨tallied, fun b hb => ?_, older, fun hphase b hb => ?_, fun h => unheard ?_, named⟩
        · rcases List.mem_cons.mp hb with rfl | hb
          · exact fun hfailed => ok hfailed a rfl
          · exact lost b (List.mem_cons_of_mem _ hb)
        · rcases List.mem_cons.mp hb with rfl | hb
          · exact failedBy_of_phase hphase
          · exact older b hb
        · exact List.forall_mem_cons.mpr (List.forall_mem_cons.mp h)
  next => exact one

theorem oneAttempt_wait {s : Retried N} (one : s.OneAttempt) (ctxDone : Bool) :
    (s.wait ctxDone).OneAttempt := by
  unfold wait
  split
  next hphase =>
    refine ⟨one.tallied, one.lost, one.older, fun _ => one.ended (Or.inr hphase), one.unheard,
      one.named⟩
  next => exact one

theorem oneAttempt_other [Unicode] {s : Retried N} (one : s.OneAttempt) (e : EventStep N) :
    (s.step (.other e)).OneAttempt := by
  have hchange := s.net.step_change (EventNetwork.others e)
  have hkeep : ∀ P : String → Prop, (∀ x, P x → x ≠ "") → s.net.Bears 0 P →
      (s.net.step (EventNetwork.others e)).Bears 0 P := by
    intro P hP bears
    rcases EventNetwork.bears_change bears hP hchange with h | ⟨n, req, read, -, h, -⟩
    · exact h
    · exact absurd h (EventNetwork.others_ne e n req read)
  obtain ⟨id, hid, bears⟩ := one.named
  exact ⟨EventNetwork.tallied_change one.tallied hchange, one.lost, one.older, one.ended,
    fun h => hkeep _ nofun (one.unheard h), id, hid, hkeep _ (fun x hx => hx ▸ hid) bears⟩

theorem oneAttempt_step [Unicode] {s : Retried N} {e : RetryStep N} (one : s.OneAttempt)
    (ok : s.Lost e) : (s.step e).OneAttempt := by
  cases e with
  | check ctxErr => exact oneAttempt_check one ctxErr
  | receive k n read => exact oneAttempt_receive one ok
  | answer res => exact oneAttempt_answer one ok
  | wait ctxDone => exact oneAttempt_wait one ctxDone
  | other e => exact oneAttempt_other one e

/-- The call acts on the network by requests only. -/
theorem net_step [Unicode] (s : Retried N) (e : RetryStep N) :
    (s.step e).net = s.net ∨ ∃ ev, s.net.Change ev (s.step e).net := by
  cases e with
  | check ctxErr =>
      left
      simp only [step, check]
      split <;> rfl
  | receive k n read =>
      simp only [step, receive]
      split
      · split
        · exact Or.inl rfl
        · exact Or.inr ⟨_, s.net.step_change (.client n 0 s.call.request read)⟩
      · exact Or.inl rfl
  | answer res =>
      left
      simp only [step, answer]
      split <;> rfl
  | wait ctxDone =>
      left
      simp only [step, wait]
      split <;> rfl
  | other e => exact Or.inr ⟨_, s.net.step_change (EventNetwork.others e)⟩

theorem accounted_run [Unicode] {bus : N → Option Bus} {s : Retried N}
    (h : EventNetwork.Accounted bus s.net) (steps : List (RetryStep N)) :
    EventNetwork.Accounted bus (Runs.run step s steps).net := by
  induction steps generalizing s with
  | nil => exact h
  | cons e steps ih =>
      refine ih ?_
      rcases s.net_step e with hsame | ⟨ev, hchange⟩
      · rw [hsame]
        exact h
      · exact EventNetwork.accounted_change h hchange

theorem oneAttempt_run [Unicode] {s : Retried N} (one : s.OneAttempt)
    {steps : List (RetryStep N)} (lost : Runs.Along step Lost s steps) :
    (Runs.run step s steps).OneAttempt :=
  Runs.invariant (fun _ => OneAttempt) one (fun _ _ _ one => oneAttempt_step one) lost

end Retried

/-- A call of which no attempt is both processed and answered with a transient code has at
most one event numbered by the bus of each daemon that does not forget its id. -/
theorem publish_one_fact [Unicode] {N : Type} [DecidableEq N] (bus : N → Option Bus)
    (peers : N → Option String) (topic : String) (payload : List UInt8)
    (steps : List (RetryStep N))
    (lost : Runs.Along Retried.step Retried.Lost
      (Retried.start bus peers topic payload) steps) (n : N)
    (spaced : ∀ id, (Runs.run Retried.step
      (Retried.start bus peers topic payload) steps).net.Spaced n id) :
    EventNetwork.Accounted bus
        (Runs.run Retried.step (Retried.start bus peers topic payload) steps).net ∧
      (Runs.run Retried.step (Retried.start bus peers topic payload) steps).net.factsOf 0 n ≤
        1 := by
  have one := Retried.oneAttempt_run
    (Retried.oneAttempt_start bus peers topic payload) lost
  obtain ⟨id, -, bears⟩ := one.named
  exact ⟨Retried.accounted_run (EventNetwork.accounted_start bus peers) steps,
    (bears.factsOf_le n).trans (EventNetwork.timesPublished_le_one one.tallied (spaced id))⟩

namespace Retried

/-- A call to a daemon that is alone. -/
def alone : Retried Unit := start (fun _ => some .new) (fun _ => some "a") "t" []

def unavailable : Except Rpc.Status PublishEventResponse := .error ⟨.unavailable, "connection lost"⟩

/-- The uids that two random byte strings give. -/
def uid (b : UInt8) : Except String (Vector UInt8 16) := .ok (Vector.replicate 16 b)

/-- The first attempt is lost on the way to the daemon. -/
def lostAttempt : List (RetryStep Unit) :=
  [.check none, .answer unavailable, .wait false, .check none, .receive 0 () (uid 2),
    .other (.publish 0 0), .answer (.ok ⟨true, "", "", "custom.t"⟩)]

/-- The first attempt is processed, and its answer is lost. -/
def lostAnswer : List (RetryStep Unit) :=
  [.check none, .receive 0 () (uid 1), .other (.publish 0 0), .answer unavailable, .wait false,
    .check none, .receive 0 () (uid 2), .other (.publish 1 0),
    .answer (.ok ⟨true, "", "", "custom.t"⟩)]

end Retried

theorem publish_one_fact_lostAttempt :
    letI := Unicode.ascii
    (Runs.run Retried.step Retried.alone Retried.lostAttempt).net.factsOf 0 () = 1 ∧
      (Runs.run Retried.step Retried.alone Retried.lostAttempt).net.factsOf 0 () ≤ 1 := by
  let := Unicode.ascii
  have hlost : Runs.Along Retried.step Retried.Lost Retried.alone
      Retried.lostAttempt := by
    refine ⟨trivial, fun _ a h => ?_, trivial, trivial, fun a h => ?_, trivial, nofun, trivial⟩
    · cases h
      rfl
    · cases h
      rfl
  exact ⟨by decide +kernel, publish_one_fact _ _ _ _ Retried.lostAttempt hlost ()
    (EventNetwork.spaced_of_length_le (by decide +kernel)) |>.2⟩

/-- A retry creates a second fact: both attempts are processed, each under an id of its
own, and `Publish` returns nil. -/
theorem lost_answer_publishes_twice :
    letI := Unicode.ascii
    let s := Runs.run Retried.step Retried.alone Retried.lostAnswer
    s.net.factsOf 0 () = 2 ∧ (s.net.nodes ()).service.bus.map Bus.lastSeq = some 2 ∧
      (s.net.nodes ()).arrivals.map Prod.snd = [true, true] ∧
      (s.call.result.map fun r => r.toOption) = some (some ()) ∧
      ∀ id, s.net.Spaced () id := by
  let := Unicode.ascii
  exact ⟨by decide +kernel, by decide +kernel, by decide +kernel, by decide +kernel,
    EventNetwork.spaced_of_length_le (by decide +kernel)⟩

end Clusdr
