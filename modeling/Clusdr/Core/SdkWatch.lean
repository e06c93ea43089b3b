import Clusdr.Core.Watch

/-!
`watchLoop` of the SDK: open a stream from the last number seen, pass its
messages on, and when it breaks wait and open another. The loop returns with its
context, or when the daemon calls the stream cancelled or the request invalid.
-/

namespace Clusdr.Sdk

open Go (Time Duration)
open Events (Payload)

/-- `watchOptions`, as `applyWatchOptions` leaves them. -/
structure WatchOptions where
  topics : List String := []
  eventTypes : List String := []

/-- An `Event` of the SDK. -/
structure WatchEvent where
  type : String
  source : String
  payload : Payload
  timestamp : Time
  seq : UInt64

def WatchEvent.ofResponse (resp : WatchResponse) : WatchEvent :=
  ⟨resp.type, resp.source, resp.payload, Time.ofUnixMilli resp.timestampUnixMs, resp.seq⟩

inductive LoopPhase where
  | connecting
  | receiving
  | returned
deriving DecidableEq

def firstBackoff : Duration := 50 * Duration.millisecond

def nextBackoff (d : Duration) : Duration :=
  let d := d * 2
  if d > 2 * Duration.second then 2 * Duration.second else d

/-- The loop, with what it sent on its channel. -/
structure WatchLoop where
  options : WatchOptions
  lastSeq : UInt64 := 0
  backoff : Duration := firstBackoff
  phase : LoopPhase := .connecting
  ch : List WatchEvent := []

namespace WatchLoop

def request (l : WatchLoop) : WatchRequest where
  lastSeq := l.lastSeq
  topics := l.options.topics
  eventTypes := l.options.eventTypes

/-- Whether the loop returns on an error of the stream or of opening it. -/
def ends (ctxDone : Bool) (e : Rpc.Status) : Bool :=
  ctxDone || e.code == .canceled || e.code == .invalidArgument

/-- The stream breaks or cannot be opened. -/
def failed (l : WatchLoop) (ctxDone : Bool) (e : Rpc.Status) : WatchLoop :=
  if ends ctxDone e then { l with phase := .returned }
  else { l with phase := .connecting, backoff := nextBackoff l.backoff }

def opened (l : WatchLoop) : WatchLoop := { l with phase := .receiving, backoff := firstBackoff }

def received (l : WatchLoop) (ctxDone : Bool) (resp : WatchResponse) : WatchLoop :=
  let l := { l with lastSeq := if resp.seq > l.lastSeq then resp.seq else l.lastSeq }
  if ctxDone then { l with phase := .returned }
  else { l with ch := l.ch ++ [.ofResponse resp] }

theorem lastSeq_failed (l : WatchLoop) (ctxDone : Bool) (e : Rpc.Status) :
    (l.failed ctxDone e).lastSeq = l.lastSeq := by
  unfold failed
  split <;> rfl

theorem lastSeq_received (l : WatchLoop) (ctxDone : Bool) (resp : WatchResponse) :
    (l.received ctxDone resp).lastSeq =
      if resp.seq > l.lastSeq then resp.seq else l.lastSeq := by
  cases ctxDone <;> rfl

end WatchLoop

end Clusdr.Sdk
