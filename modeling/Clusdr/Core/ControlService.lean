import Clusdr.Core.JoinService
import Clusdr.Core.Mtls
import Clusdr.Core.ClusdrCluster
import Clusdr.Go.Contains

/-!
`ControlService`, which the command line and the operator ask to change the members,
and the operator's `Runtime`, which sorts its answers by their texts.
-/

namespace Clusdr

/-- `codes.Code.String`. -/
def Rpc.Code.text : Rpc.Code → String
  | .ok => "OK"
  | .canceled => "Canceled"
  | .unknown => "Unknown"
  | .invalidArgument => "InvalidArgument"
  | .deadlineExceeded => "DeadlineExceeded"
  | .notFound => "NotFound"
  | .alreadyExists => "AlreadyExists"
  | .permissionDenied => "PermissionDenied"
  | .resourceExhausted => "ResourceExhausted"
  | .failedPrecondition => "FailedPrecondition"
  | .aborted => "Aborted"
  | .outOfRange => "OutOfRange"
  | .unimplemented => "Unimplemented"
  | .internal => "Internal"
  | .unavailable => "Unavailable"
  | .dataLoss => "DataLoss"
  | .unauthenticated => "Unauthenticated"

/-- The text of a call's error. -/
def Rpc.Status.text (s : Rpc.Status) : String :=
  "rpc error: code = " ++ s.code.text ++ " desc = " ++ s.message

structure RequestJoinResponse where
  joined : Bool
  message : String := ""
  members : List MemberInfo := []
  certIssued : Bool := false
deriving DecidableEq

/-- `RequestPromoteResponse` and `RequestLeaveResponse`. -/
structure RequestResponse where
  changed : Bool
  message : String := ""
  members : List MemberInfo := []
deriving DecidableEq

namespace ControlService

/-- `RequestJoin`: `dialed` is how `mtls.Dial` of `addr` ends, `answer` what the `Join` of
the node there returns, and `boot` how storing the certificates ends, if there is a store. -/
def requestJoin (addr : String) (dialed : Except String Unit)
    (answer : Except Rpc.Status JoinResponse) (boot : Option (Except String Unit)) :
    Except Rpc.Status RequestJoinResponse :=
  if addr = "" then .error ⟨.invalidArgument, "addr is required"⟩
  else match dialed, answer with
    | .error e, _ => .error ⟨.unavailable, "dial " ++ addr ++ ": " ++ e⟩
    | .ok _, .error e =>
        if e.code = .unauthenticated then .error e
        else .error ⟨.unavailable, "remote join: " ++ e.text⟩
    | .ok _, .ok resp =>
        if !resp.accepted then .ok { joined := false, message := "rejected: " ++ resp.message }
        else
          let done : RequestJoinResponse :=
            { joined := true, members := resp.members, certIssued := !resp.nodeCert.isEmpty }
          if resp.nodeCert.isEmpty then .ok done
          else match boot with
            | some (.error e) => .error ⟨.internal, "save join certs: " ++ e⟩
            | _ => .ok done

/-- `RequestLeave` and `RequestPromote` of a daemon: `change` is its own handler, `relayed`
the answer of the leader it knows to the same request with `Relay` set. -/
def request (members : Membership.Engine) (isLeader : Bool) (nodeID : String)
    (change : String → Except Rpc.Status (List MemberInfo))
    (relayed : String → String → Except Rpc.Status RequestResponse) :
    Except Rpc.Status RequestResponse :=
  let id := if nodeID = "" then members.selfID else nodeID
  if id = "" then .error ⟨.invalidArgument, "node_id is required"⟩
  else if !isLeader then
    match dialLeader members with
    | .forward _ addr => relayed addr id
    | .reject e => .error e
    | .serve => .error ⟨.failedPrecondition, "NOT_LEADER"⟩
  else (change id).map fun members => { changed := true, members }

end ControlService

namespace Operator.Runtime

def listMembersMethod : String := "/clusdr.v1alpha1.MembershipService/ListMembers"
def getLeaderMethod : String := "/clusdr.v1alpha1.MembershipService/GetLeader"
def healthMethod : String := "/clusdr.v1alpha1.HealthService/Health"
def requestJoinMethod : String := "/clusdr.v1alpha1.ControlService/RequestJoin"
def requestLeaveMethod : String := "/clusdr.v1alpha1.ControlService/RequestLeave"

/-- What the handlers of a daemon answer to the calls of `Runtime`. -/
structure Handlers where
  listMembers : Except Rpc.Status (List MemberInfo)
  getLeader : Except Rpc.Status String
  health : Except Rpc.Status String
  requestJoin : Except Rpc.Status RequestJoinResponse
  requestLeave : Except Rpc.Status RequestResponse

variable (x : X509) (d : Mtls.App) (offers : Bool) (h : Handlers)

def text {α : Type} (r : Except Rpc.Status α) : Except String α := r.mapError Rpc.Status.text

/-- `Snapshot`: the three calls it makes. -/
def snapshot : Except String (List MemberInfo × Except String String × Except String String) :=
  match d.call x offers .bootstrap listMembersMethod h.listMembers with
  | .error e => .error e.text
  | .ok list =>
      .ok (list, text (d.call x offers .bootstrap getLeaderMethod h.getLeader),
        text (d.call x offers .bootstrap healthMethod h.health))

/-- Whether a text tells that there is nothing left to do. -/
def tells (words : List String) (s : String) : Bool :=
  words.any fun word => Go.contains (Go.toLower s) word

def joinResult (r : Except Rpc.Status RequestJoinResponse) : Except String Unit :=
  match r with
  | .error e => if tells ["already"] e.text then .ok () else .error e.text
  | .ok resp =>
      if resp.joined then .ok ()
      else if tells ["already"] resp.message then .ok ()
      else .error ("join rejected: " ++ resp.message)

def join : Except String Unit :=
  joinResult (d.call x offers .bootstrap requestJoinMethod h.requestJoin)

def leaveResult (r : Except Rpc.Status RequestResponse) : Except String Unit :=
  match r with
  | .error e => if tells ["not found", "already"] e.text then .ok () else .error e.text
  | .ok resp =>
      if resp.changed then .ok ()
      else if tells ["not found", "already"] resp.message then .ok ()
      else .error ("leave rejected: " ++ resp.message)

def leave (nodeID : String) : Except String Unit :=
  if nodeID = "" then .error "empty leave id"
  else leaveResult (d.call x offers .bootstrap requestLeaveMethod h.requestLeave)

end Operator.Runtime

end Clusdr
