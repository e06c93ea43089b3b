import Clusdr.Core.Configuration
import Clusdr.Core.LockService
import Clusdr.Core.Store

/-!
`JoinService` of one daemon. A request is refused, forwarded to the leader once, or
served here. Serving makes one change of the Raft configuration and one of the
member list, in the order the handler has, and goes on only while they succeed.
-/

namespace Clusdr

open Go (Unicode)
open Clusdr.Membership (Engine Member normalizeRole normalizeStatus roleObserver roleVoter
  statusAlive)
open Consensus (Leader Outcome Submission)

/-- A member as responses list it. -/
structure MemberInfo where
  id : String
  address : String
  status : String
  leader : Bool
  role : String
deriving DecidableEq

def memberToProto (m : Member) : MemberInfo :=
  ⟨m.id, m.address, normalizeStatus m.status, m.leader, normalizeRole m.role⟩

def protoMembers (members : Engine) : List MemberInfo := members.membersList.map memberToProto

def memberByID (members : Engine) (id : String) : Option Member :=
  members.membersList.find? fun m => m.id = id

structure JoinRequest where
  nodeId : String
  clusterId : String := ""
  address : String
  raftAddr : String := ""
  joinToken : String := ""
  relay : Bool := false
  observer : Bool := false
deriving DecidableEq

structure JoinResponse where
  accepted : Bool
  message : String := ""
  members : List MemberInfo := []
  nodeCert : Bytes := []
  nodeKey : Bytes := []
  caCert : Bytes := []
  joinTokenHash : Bytes := []
deriving DecidableEq

structure RejoinRequest where
  nodeId : String
  address : String
  role : String := ""
  relay : Bool := false
deriving DecidableEq

/-- What becomes of a request: an answer, or a forward to the leader's id and address. -/
inductive Handled (α : Type) where
  | answered (r : Except Rpc.Status α)
  | forwarded (id addr : String)

/-- What Raft makes of the two submissions of a handler. -/
structure Commits where
  raft : Outcome
  member : Submission

structure JoinService where
  clusterID : String
  isLeader : Bool
  sec : Option JoinSecurity

namespace JoinService

/-- The answers `Join` gives before it looks for the leader. -/
def check [Unicode] (s : JoinService) (req : JoinRequest) :
    Option (Except Rpc.Status JoinResponse) :=
  if req.nodeId = "" then some (.error ⟨.invalidArgument, "node_id is required"⟩)
  else if req.address = "" then some (.error ⟨.invalidArgument, "address is required"⟩)
  else if s.clusterID ≠ "" ∧ req.clusterId ≠ "" ∧ req.clusterId ≠ s.clusterID then
    some (.ok { accepted := false, message := "cluster id mismatch: want " ++ Go.quote s.clusterID })
  else match s.sec with
    | none => none
    | some sec =>
        match sec.checkToken req.joinToken with
        | .error _ => some (.error ⟨.unauthenticated, "UNAUTHORIZED: invalid join token"⟩)
        | .ok _ => none

/-- Where all four handlers send a request. -/
def route (s : JoinService) (members : Engine) (relay : Bool) : Route :=
  if s.isLeader then .serve
  else if relay then .reject ⟨.failedPrecondition, "NOT_LEADER"⟩
  else dialLeader members

/-- The request as it is forwarded. -/
def forwarded (req : JoinRequest) : JoinRequest := { req with relay := true }

/-- `handle` runs `serve` if the daemon leads. -/
def handle {α : Type} (s : JoinService) (l : Leader) (relay : Bool)
    (serve : Leader × Except Rpc.Status α) : Leader × Handled α :=
  match s.route l.fsm.applier relay with
  | .reject e => (l, .answered (.error e))
  | .forward id addr => (l, .forwarded id addr)
  | .serve => (serve.1, .answered serve.2)

/-- The change of the configuration in `Join`. -/
def addServer (l : Leader) (outcome : Outcome) (req : JoinRequest) : Leader × Except String Unit :=
  if req.raftAddr = "" then (l, .ok ())
  else if req.observer then l.addNonvoter outcome req.nodeId req.raftAddr
  else l.addVoter outcome req.nodeId req.raftAddr

def joinRole (req : JoinRequest) : String := if req.observer then roleObserver else roleVoter

variable [Unicode]

/-- The answer of a `Join` whose two changes succeeded. -/
def accept (s : JoinService) (members : Engine) (req : JoinRequest) :
    Except Rpc.Status JoinResponse :=
  match s.sec with
  | none => .ok { accepted := true, members := protoMembers members }
  | some sec =>
      match sec.issueNode req.nodeId with
      | .error e => .error ⟨.internal, "issue node cert: " ++ e⟩
      | .ok issued =>
          .ok { accepted := true, members := protoMembers members, nodeCert := issued.nodeCert,
                nodeKey := issued.nodeKey, caCert := issued.caCert,
                joinTokenHash := issued.tokenHash }

/-- A served `Join`. -/
def serveJoin (s : JoinService) (l : Leader) (c : Commits) (req : JoinRequest) :
    Leader × Except Rpc.Status JoinResponse :=
  match addServer l c.raft req with
  | (l, .error e) =>
      (l, .error ⟨.internal,
        "add raft " ++ (if req.observer then "nonvoter" else "voter") ++ ": " ++ e⟩)
  | (l, .ok _) =>
      match l.applyAddMemberAs c.member req.nodeId req.address (joinRole req) with
      | (l, .error e) => (l, .error ⟨.internal, "apply add_member: " ++ e⟩)
      | (l, .ok _) => (l, s.accept l.fsm.applier req)

def join (s : JoinService) (l : Leader) (c : Commits) (req : JoinRequest) :
    Leader × Handled JoinResponse :=
  match s.check req with
  | some r => (l, .answered r)
  | none => s.handle l req.relay (s.serveJoin l c req)

def promoteMember (l : Leader) (c : Commits) (id : String) : Leader × Except Rpc.Status Unit :=
  match memberByID l.fsm.applier id with
  | none => (l, .error ⟨.notFound, "member " ++ id ++ " not found"⟩)
  | some m =>
      if m.status ≠ statusAlive then
        (l, .error ⟨.failedPrecondition, "member " ++ id ++ " is " ++ m.status⟩)
      else if normalizeRole m.role = roleVoter then (l, .ok ())
      else match l.promoteToVoter c.raft id with
        | (l, .error e) => (l, .error ⟨.internal, "promote raft voter: " ++ e⟩)
        | (l, .ok _) =>
            match l.applyAddMemberAs c.member id m.address roleVoter with
            | (l, .error e) => (l, .error ⟨.internal, "apply add_member: " ++ e⟩)
            | (l, .ok _) => (l, .ok ())

def leaveMember (l : Leader) (c : Commits) (id : String) : Leader × Except Rpc.Status Unit :=
  let inMem := (memberByID l.fsm.applier id).isSome
  let inRaft := l.hasServer id
  let already := l.fsm.applier.left id
  if !inMem && !inRaft && !already then
    (l, .error ⟨.notFound, "member " ++ id ++ " not found"⟩)
  else if already && !inRaft then (l, .ok ())
  else match l.applyDropMember c.member id with
    | (l, .error e) => (l, .error ⟨.internal, "apply drop_member: " ++ e⟩)
    | (l, .ok _) =>
        if inRaft then
          match l.removeVoter c.raft id with
          | (l, .error e) => (l, .error ⟨.internal, "remove raft server: " ++ e⟩)
          | (l, .ok _) => (l, .ok ())
        else (l, .ok ())

/-- The role `rejoinMember` lists: the listed one, or else the request's. -/
def rejoinRole (members : Engine) (id role : String) : String :=
  match memberByID members id with
  | some m => normalizeRole m.role
  | none => normalizeRole role

def rejoinMember (l : Leader) (c : Commits) (id addr role : String) :
    Leader × Except Rpc.Status Unit :=
  if !l.hasServer id then (l, .error ⟨.failedPrecondition, "not a raft member; use Join"⟩)
  else match l.applyAddMemberAs c.member id addr (rejoinRole l.fsm.applier id role) with
    | (l, .error e) => (l, .error ⟨.internal, "apply add_member: " ++ e⟩)
    | (l, .ok _) => (l, .ok ())

/-- The answer of the other handlers lists the members after the change. -/
def listing (res : Leader × Except Rpc.Status Unit) :
    Leader × Except Rpc.Status (List MemberInfo) :=
  (res.1, res.2.map fun _ => protoMembers res.1.fsm.applier)

def promote (s : JoinService) (l : Leader) (c : Commits) (id : String) (relay : Bool) :
    Leader × Handled (List MemberInfo) :=
  if id = "" then (l, .answered (.error ⟨.invalidArgument, "node_id is required"⟩))
  else s.handle l relay (listing (promoteMember l c id))

def leave (s : JoinService) (l : Leader) (c : Commits) (id : String) (relay : Bool) :
    Leader × Handled (List MemberInfo) :=
  if id = "" then (l, .answered (.error ⟨.invalidArgument, "node_id is required"⟩))
  else s.handle l relay (listing (leaveMember l c id))

def rejoin (s : JoinService) (l : Leader) (c : Commits) (req : RejoinRequest) :
    Leader × Handled (List MemberInfo) :=
  if req.nodeId = "" then (l, .answered (.error ⟨.invalidArgument, "node_id is required"⟩))
  else if req.address = "" then (l, .answered (.error ⟨.invalidArgument, "address is required"⟩))
  else s.handle l req.relay (listing (rejoinMember l c req.nodeId req.address req.role))

end JoinService

/-- The `Join` that `ControlService.RequestJoin` sends to the node it dials. -/
def requestJoin (clusterID raftAddr : String) (members : Engine) (token : String)
    (observer : Bool) : JoinRequest where
  nodeId := members.selfID
  clusterId := clusterID
  address := ((memberByID members members.selfID).map Member.address).getD ""
  raftAddr := raftAddr
  joinToken := token
  observer := observer

end Clusdr
