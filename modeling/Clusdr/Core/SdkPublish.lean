import Clusdr.Core.EventService
import Clusdr.Core.SdkWatch

/-!
`Publish` of the SDK and the loop `retry` it runs in. An attempt that fails with
a transient code is made again after a pause, for as long as the context lasts.
-/

namespace Clusdr.Sdk

open Go (Duration)

/-- A nil error is `none`; an error of the context has the code `unknown`. -/
def transient : Option Rpc.Status → Bool
  | none => false
  | some err =>
      match err.code with
      | .unavailable | .resourceExhausted | .aborted => true
      | _ => false

inductive RetryPhase where
  /-- At the head of the loop, about to look at the context. -/
  | checking
  | calling
  | waiting
  | returned (err : Option Rpc.Status)

structure Retry where
  backoff : Duration := firstBackoff
  last : Option Rpc.Status := none
  phase : RetryPhase := .checking

namespace Retry

def check (r : Retry) : Option Rpc.Status → Retry
  | some err => { r with phase := .returned (r.last <|> some err) }
  | none => { r with phase := .calling }

def called (r : Retry) (err : Option Rpc.Status) : Retry :=
  { r with last := err, phase := if transient err then .waiting else .returned err }

/-- The pause ends, with the context or with the timer. -/
def waited (r : Retry) (ctxDone : Bool) : Retry :=
  if ctxDone then { r with phase := .returned r.last }
  else { r with backoff := nextBackoff r.backoff, phase := .checking }

end Retry

structure PublishCall where
  topic : String
  payload : List UInt8
  retry : Retry := {}
  resp : Option PublishEventResponse := none

inductive PublishError where
  /-- `clusdr: publish: %w`. -/
  | publish (err : Rpc.Status)
  /-- `clusdr: publish rejected: %s`. -/
  | rejected (message : String)

namespace PublishCall

/-- The request of every attempt. -/
def request (c : PublishCall) : PublishEventRequest where
  topic := c.topic
  payload := c.payload

def called (c : PublishCall) : Except Rpc.Status PublishEventResponse → PublishCall
  | .error err => { c with retry := c.retry.called (some err), resp := none }
  | .ok resp => { c with retry := c.retry.called none, resp := some resp }

/-- What `Publish` returns, once it does. -/
def result (c : PublishCall) : Option (Except PublishError Unit) :=
  match c.retry.phase with
  | .returned (some err) => some (.error (.publish err))
  | .returned none =>
      match c.resp with
      | some resp => some (if resp.accepted then .ok () else .error (.rejected resp.message))
      | none => some (.ok ())
  | _ => none

end PublishCall

end Clusdr.Sdk
