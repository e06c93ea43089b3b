import Clusdr.Go.Json
import Clusdr.Go.Text

/-!
Cluster events and the naming rules shared by locks, leases and topics.
-/

namespace Clusdr

open Go (Json Time Unicode)

namespace Events

def typeMemberJoin : String := "member.join"
def typeMemberDead : String := "member.dead"
def typeMemberLeft : String := "member.left"
def typeLeaderChanged : String := "leader.changed"
def typeLockExpired : String := "lock.expired"
def typeLeaseGranted : String := "lease.granted"
def typeLeaseExpired : String := "lease.expired"
def typeLeaseRevoked : String := "lease.revoked"
def typeWatchSync : String := "watch.sync"
def typeWatchGap : String := "watch.gap"
def typeCustomPrefix : String := "custom."

/-- Event payloads: none, a JSON document of the daemon, or a publisher's bytes. -/
inductive Payload where
  | empty
  | json (j : Json)
  | raw (bytes : List UInt8)

/-- `seq` and `timestamp` are zero until the bus publishes the event. -/
structure Event where
  type : String
  source : String
  payload : Payload := .empty
  timestamp : Time := Time.zero
  seq : UInt64 := 0

end Events

/-- `locks.ValidName`, `leases.ValidName` and `events.ValidTopic` are this check;
`what` is how their messages call the text. -/
def checkName [Unicode] (what : String) (maxLen : Nat) (name : String) : Except String Unit :=
  if name = "" then .error (what ++ " is required")
  else if name.utf8ByteSize > maxLen then
    .error (what ++ " exceeds " ++ toString maxLen ++ " characters")
  else
    match name.toList.find? fun r =>
        !Unicode.isLetter r && !Unicode.isDigit r && r != '.' && r != '_' && r != '-' with
    | some r => .error (what ++ " contains invalid character " ++ Go.quoteRune r)
    | none => .ok ()

theorem checkName_error_ne [Unicode] {what name e : String} {max : Nat} (named : what ≠ "")
    (h : checkName what max name = .error e) : e ≠ "" := by
  unfold checkName at h
  split at h
  · cases h
    simp [named]
  · split at h
    · cases h
      simp [named]
    · split at h
      · cases h
        simp [named]
      · cases h

/-- The part of a lock or lease record its holder refreshes. -/
structure Lifetime where
  deadline : Time
  ttl : Go.Duration
deriving DecidableEq

/-- `ClampTTL` of a package with these constants: `requested` onto `[minTTL, maxTTL]`,
falling back first to `fallback` and then to the default. -/
def clampTTLTo (defaultTTL minTTL maxTTL requested fallback : Go.Duration) : Go.Duration :=
  let requested := if requested ≤ 0 then fallback else requested
  let requested := if requested ≤ 0 then defaultTTL else requested
  if requested < minTTL then minTTL
  else if requested > maxTTL then maxTTL
  else requested

end Clusdr
