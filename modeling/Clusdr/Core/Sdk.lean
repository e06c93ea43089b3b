import Clusdr.Core.LockService

/-!
The grants an SDK client keeps. Locks and leases are cached by name and renewed
by one background loop each; the two halves run the same code, except that a
lease loop also ends with the context of the `Lease` call and that a lease can
be renewed by hand. A handle is its index in the order of adoption, as a pointer
would be. Answers arrive as the last attempt of a call left them.
-/

namespace Clusdr.Sdk

open Go (Time Duration)

/-- The `ttl_ms` a call sends. -/
def ttlMs (d : Duration) : Int64 := if d ≤ 0 then 0 else d.milliseconds

/-- `renewInterval`, called at `now`. -/
def renewInterval (now deadline : Time) (ttl : Duration) : Duration :=
  let d := if ttl ≤ 0 then deadline.sub now else ttl
  let d := if d ≤ 0 then 15 * Duration.second else d
  let iv := d / 3
  if iv < 50 * Duration.millisecond then 50 * Duration.millisecond else iv

/-- Whether the renew loop goes on after an answer. -/
def keepsRenewing {α : Type} (ctxDone : Bool) : Except Rpc.Status α → Bool
  | .ok _ => true
  | .error e => !ctxDone && e.code != .failedPrecondition && e.code != .canceled

/-- The fields of a grant answer the client reads. -/
structure GrantAnswer where
  holder : String
  fencingToken : UInt64
  deadlineUnixMs : Int64

/-- A `*Lock` or `*Lease`, with the context of its renew loop and whether the
loop has returned. -/
structure Handle where
  name : String
  holder : String
  token : UInt64
  deadline : Time
  ctxDone : Bool
  running : Bool
deriving DecidableEq

namespace Handle

/-- `lockFromResp` and `leaseFromResp`, with the loop `startRenew` starts. -/
def ofAnswer (name : String) (resp : GrantAnswer) : Handle where
  name := name
  holder := resp.holder
  token := resp.fencingToken
  deadline := if resp.deadlineUnixMs > 0 then Time.ofUnixMilli resp.deadlineUnixMs else Time.zero
  ctxDone := false
  running := true

def extended (h : Handle) (deadlineUnixMs : Int64) : Handle :=
  if deadlineUnixMs > 0 then { h with deadline := Time.ofUnixMilli deadlineUnixMs } else h

def stopRenew (h : Handle) : Handle := { h with ctxDone := true }

/-- What the loop of a lock asks for; no TTL, so the record's own is reused. -/
def renewRequest (h : Handle) : LockRenewRequest :=
  { name := h.name, holder := h.holder, fencingToken := h.token }

/-- The loop hears the answer to a renewal. -/
def ticked (h : Handle) (answer : Except Rpc.Status Int64) : Handle :=
  if keepsRenewing h.ctxDone answer then
    match answer with
    | .ok deadlineUnixMs => h.extended deadlineUnixMs
    | .error _ => h
  else { h with running := false }

/-- `Renew` hears the answer to its own renewal. -/
def renewedBy (h : Handle) : Except Rpc.Status (Bool × Int64) → Handle
  | .ok (true, deadlineUnixMs) => h.extended deadlineUnixMs
  | _ => h

theorem extended_fixed (h : Handle) (ms : Int64) :
    (h.extended ms).name = h.name ∧ (h.extended ms).holder = h.holder ∧
      (h.extended ms).token = h.token ∧ (h.extended ms).ctxDone = h.ctxDone ∧
      (h.extended ms).running = h.running := by
  unfold extended
  split <;> exact ⟨rfl, rfl, rfl, rfl, rfl⟩

/-- An answer moves the deadline or ends the loop. -/
theorem ticked_fixed (h : Handle) (answer : Except Rpc.Status Int64) :
    (h.ticked answer).name = h.name ∧ (h.ticked answer).holder = h.holder ∧
      (h.ticked answer).token = h.token ∧ (h.ticked answer).ctxDone = h.ctxDone ∧
      (h.ticked answer).running = (h.running && keepsRenewing h.ctxDone answer) := by
  unfold ticked
  cases hkeeps : keepsRenewing h.ctxDone answer with
  | false => simp
  | true =>
      cases answer with
      | ok ms => simpa using h.extended_fixed ms
      | error e => simp

theorem renewedBy_fixed (h : Handle) (answer : Except Rpc.Status (Bool × Int64)) :
    (h.renewedBy answer).name = h.name ∧ (h.renewedBy answer).ctxDone = h.ctxDone ∧
      (h.renewedBy answer).running = h.running := by
  unfold renewedBy
  split
  · obtain ⟨hname, -, -, hctx, hrunning⟩ := h.extended_fixed ‹Int64›
    exact ⟨hname, hctx, hrunning⟩
  · exact ⟨rfl, rfl, rfl⟩

end Handle

/-- One half of a client: the cache, every handle it ever made, and the handles
with an `Unlock` or `Revoke` in progress. -/
structure Cache where
  held : Go.Map String Nat
  handles : List Handle
  releasing : List Nat

/-- What happens to a half of a client. -/
inductive Event where
  /-- `Lock`, `TryLock` or `Lease`; it sends a request if nothing is cached. -/
  | call (name : String)
  /-- Such a request is answered with a grant. -/
  | granted (name : String) (resp : GrantAnswer)
  /-- `Unlock`, `Revoke` or `Close` begins to give up a handle. -/
  | releaseStart (p : Nat)
  /-- Its answer: an error, or whether the grant was given up. -/
  | releaseEnd (p : Nat) (answer : Except Rpc.Status Bool)
  /-- The renew loop of a handle is answered. -/
  | tick (p : Nat) (answer : Except Rpc.Status Int64)
  /-- The renew loop of a handle sees its context done. -/
  | loopDone (p : Nat)
  /-- The context of the `Lease` call is cancelled. -/
  | cancelLife (p : Nat)
  /-- `Renew` by hand is answered: an error, or whether it renewed and until when. -/
  | renewed (p : Nat) (answer : Except Rpc.Status (Bool × Int64))

namespace Cache

def empty : Cache := ⟨∅, [], []⟩

def handle (c : Cache) (p : Nat) : Option Handle := c.handles[p]?

def update (c : Cache) (p : Nat) (f : Handle → Handle) : Cache :=
  { c with handles := c.handles.modify p f }

/-- `heldLock` and `heldLease`. -/
def lookup (c : Cache) (name : String) : Option Nat := c.held.get name

/-- `adopt` and `adoptLease`. -/
def adopt (c : Cache) (name : String) (resp : GrantAnswer) : Cache :=
  match (c.lookup name).bind c.handle with
  | some existing =>
      if existing.token = resp.fencingToken then c
      else
        { c with
          held := c.held.set name c.handles.length
          handles := c.handles ++ [.ofAnswer name resp] }
  | none =>
      { c with
        held := c.held.set name c.handles.length
        handles := c.handles ++ [.ofAnswer name resp] }

/-- `forget` and `forgetLease`. -/
def forget (c : Cache) (name : String) (token : UInt64) : Cache :=
  match (c.lookup name).bind c.handle with
  | some l => if l.token = token then { c with held := c.held.delete name } else c
  | none => c

/-- Whether an answer makes `release` and `drop` forget the handle. -/
def forgets : Except Rpc.Status Bool → Bool
  | .error e => e.code == .failedPrecondition
  | .ok released => released

def step (c : Cache) : Event → Cache
  | .call _ => c
  | .granted name resp => c.adopt name resp
  | .releaseStart p =>
      let c := c.update p Handle.stopRenew
      { c with releasing := p :: c.releasing }
  | .releaseEnd p answer =>
      let c := { c with releasing := c.releasing.erase p }
      match c.handle p with
      | some h => if forgets answer then c.forget h.name h.token else c
      | none => c
  | .tick p answer => c.update p fun h => h.ticked answer
  | .loopDone p => c.update p fun h => { h with running := false }
  | .cancelLife p => c.update p Handle.stopRenew
  | .renewed p answer => c.update p fun h => h.renewedBy answer

/-- When an event can happen. Only leases end with a context or are renewed by
hand. -/
def May (lease : Bool) (c : Cache) : Event → Prop
  | .call _ | .granted _ _ => True
  | .releaseStart p => p < c.handles.length
  | .releaseEnd p _ => p ∈ c.releasing
  | .tick p _ => ∃ h, c.handle p = some h ∧ h.running = true
  | .loopDone p => ∃ h, c.handle p = some h ∧ h.running = true ∧ h.ctxDone = true
  | .cancelLife p | .renewed p _ => lease = true ∧ p < c.handles.length

end Cache

/-- A client: its locks and its leases. -/
structure Client where
  held : Cache
  leased : Cache

inductive ClientEvent where
  | lock (e : Event)
  | lease (e : Event)

namespace Client

def new : Client := ⟨.empty, .empty⟩

def step (c : Client) : ClientEvent → Client
  | .lock e => { c with held := c.held.step e }
  | .lease e => { c with leased := c.leased.step e }

def May (c : Client) : ClientEvent → Prop
  | .lock e => c.held.May false e
  | .lease e => c.leased.May true e

end Client

end Clusdr.Sdk
