import Clusdr.Core.LeaseService
import Clusdr.Core.Sdk

/-!
The calls of an SDK client with the cluster that answers them. A request is served by some
leader; its answer is on its way until the client hears it, and may never arrive. `Close`
gives back what the client has cached, by the same calls as `Unlock` and `Revoke`.
-/

namespace Clusdr.Sdk

open Go (Time Duration Unicode)
open Consensus (Command Fsm Submission)

/-- What a half of a client asks of a daemon. `attempt` is the committing part of `TryLock`,
of a round of `Lock` (`blocking`), or of `Grant`; `release` is `Unlock` or `Revoke`. -/
structure Service (S : Type) where
  route : S → String → Route
  leads : S → Prop
  holder : S → String → String
  attempt : S → Fsm → Submission → (blocking : Bool) → (name holder : String) →
    (ttlMs : Int64) → Fsm × Except Rpc.Status (UInt64 × Bool)
  release : S → Fsm → Submission → (name holder : String) → (token : UInt64) →
    Fsm × Except Rpc.Status Unit
  /-- Who holds a name in the replicated table, with which token. -/
  held : Fsm → String → Option (String × UInt64)

/-- One half of a client, and what is on its way to it. -/
structure Grants where
  cache : Cache
  /-- Grants it has not heard of yet, oldest first. -/
  granted : List (String × GrantAnswer) := []
  /-- Answers to `Unlock` or `Revoke`, with the handle they are about. -/
  returned : List (Nat × Except Rpc.Status Bool) := []
  /-- The grants of which an answer was lost; no code reads this. -/
  unheard : List (String × UInt64) := []

inductive Call (S : Type) where
  /-- A daemon serves an attempt and reads the deadline for its answer. -/
  | ask (s : S) (sub : Submission) (blocking : Bool) (name : String) (ttl : Duration)
      (deadlineUnixMs : Int64)
  | hear (i : Nat)
  | lose (i : Nat)
  /-- A daemon serves the release of a handle. -/
  | giveBack (p : Nat) (s : S) (sub : Submission)
  /-- The release of a handle fails before a leader serves it. -/
  | turnedDown (p : Nat) (e : Rpc.Status)
  /-- The answer to a release is heard. -/
  | settle (i : Nat)
  /-- A renew loop, the context of a lease or `Renew`. -/
  | loop (e : Event)

namespace Grants

def new : Grants := { cache := .empty }

variable {S : Type} (svc : Service S) (me : String)

/-- The answer to an attempt. One that is reported as failed may have been applied. -/
def answered (g : Grants) (f : Fsm) (name holder : String) (deadlineUnixMs : Int64) :
    Except Rpc.Status (UInt64 × Bool) → Grants
  | .ok (token, true) =>
      { g with granted := g.granted ++ [(name, ⟨holder, token, deadlineUnixMs⟩)] }
  | _ =>
      match svc.held f name with
      | some (owner, token) =>
          if owner = holder then { g with unheard := (name, token) :: g.unheard } else g
      | none => g

def step (f : Fsm) (g : Grants) : Call S → Fsm × Grants
  | .ask s sub blocking name ttl deadlineUnixMs =>
      let (f, res) := svc.attempt s f sub blocking name me (ttlMs ttl)
      (f, g.answered svc f name (svc.holder s me) deadlineUnixMs res)
  | .hear i =>
      match g.granted[i]? with
      | some (name, resp) =>
          (f, { g with
            cache := g.cache.step (.granted name resp), granted := g.granted.eraseIdx i })
      | none => (f, g)
  | .lose i =>
      match g.granted[i]? with
      | some (name, resp) =>
          (f, { g with
            granted := g.granted.eraseIdx i, unheard := (name, resp.fencingToken) :: g.unheard })
      | none => (f, g)
  | .giveBack p s sub =>
      match g.cache.handle p with
      | some h =>
          let (f, res) := svc.release s f sub h.name h.holder h.token
          (f, { g with
            cache := g.cache.step (.releaseStart p)
            returned := g.returned ++ [(p, res.map fun _ => true)] })
      | none => (f, g)
  | .turnedDown p e =>
      (f, { g with
        cache := g.cache.step (.releaseStart p), returned := g.returned ++ [(p, .error e)] })
  | .settle i =>
      match g.returned[i]? with
      | some (p, answer) =>
          (f, { g with
            cache := g.cache.step (.releaseEnd p answer), returned := g.returned.eraseIdx i })
      | none => (f, g)
  | .loop e => (f, { g with cache := g.cache.step e })

/-- When a call can happen: what is served is served by a leader, and `loop` stands for the
events of the renew loops and of `Renew` only. -/
def May (lease : Bool) (g : Grants) : Call S → Prop
  | .ask s _ _ name _ _ => svc.leads s ∧ svc.route s name = .serve
  | .hear i | .lose i => i < g.granted.length
  | .giveBack p s _ => ∃ h, g.cache.handle p = some h ∧ svc.leads s ∧ svc.route s h.name = .serve
  | .turnedDown p _ => p < g.cache.handles.length
  | .settle i => i < g.returned.length
  | .loop e =>
      g.cache.May lease e ∧ match e with
        | .tick _ _ | .loopDone _ | .cancelLife _ | .renewed _ _ => True
        | _ => False

end Grants

variable [Unicode]

def lockCalls : Service LockService where
  route := LockService.route
  leads s := s.raft = some true
  holder := LockService.holder
  attempt s f sub blocking name holder ttlMs :=
    if blocking then s.lockRound f sub ⟨name, holder, ttlMs⟩
    else s.tryLock f sub ⟨name, holder, ttlMs⟩
  release s f sub name holder token := s.unlock f sub ⟨name, holder, token⟩
  held f name := (f.locks.bind fun t => t.get name).map fun rec => (rec.holder, rec.token)

def leaseCalls : Service LeaseService where
  route := LeaseService.route
  leads s := s.raft = some true
  holder := LeaseService.owner
  attempt s f sub _ name owner ttlMs := s.grant f sub ⟨name, owner, ttlMs⟩
  release s f sub name owner token := s.revoke f sub ⟨name, owner, token⟩
  held f name := (f.leases.bind fun t => t.get name).map fun rec => (rec.owner, rec.token)

/-- A client, known to the cluster as `me`, and the replicated state. -/
structure Session where
  fsm : Fsm
  locks : Grants
  leases : Grants

inductive Step where
  | lock (c : Call LockService)
  | lease (c : Call LeaseService)
  /-- Any other command of the log, such as a renewal or an expiry. -/
  | commit (now : Time) (cmd : Command)

namespace Session

/-- A client right after `Dial`. -/
def start (f : Fsm) : Session := ⟨f, .new, .new⟩

def step (me : String) (w : Session) : Step → Session
  | .lock c =>
      let (f, g) := w.locks.step lockCalls me w.fsm c
      { w with fsm := f, locks := g }
  | .lease c =>
      let (f, g) := w.leases.step leaseCalls me w.fsm c
      { w with fsm := f, leases := g }
  | .commit now cmd => { w with fsm := (w.fsm.applyCommand now cmd).1 }

/-- When a step can happen; nobody else takes a grant for this client. -/
def May (me : String) (w : Session) : Step → Prop
  | .lock c => w.locks.May lockCalls false c
  | .lease c => w.leases.May leaseCalls true c
  | .commit _ cmd => cmd.kind = .lockAcquire ∨ cmd.kind = .leaseGrant → cmd.id ≠ me

end Session

end Clusdr.Sdk
