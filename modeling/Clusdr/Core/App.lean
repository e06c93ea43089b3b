import Clusdr.Core.JoinService

/-!
What the daemon itself commits about its own member entry: when it starts and is
still a Raft server, and when it is told that it leads.
-/

namespace Clusdr

open Go (Time)
open Clusdr.Membership (Engine normalizeRole roleVoter)
open Consensus (Leader)

/-- The settings of a daemon that name it; the defaults are those of `Defaults`. -/
structure Config where
  nodeID : String
  nodeAddr : String := "0.0.0.0:7947"
  grpcAddr : String := "127.0.0.1:7947"
deriving DecidableEq

namespace App

/-- `InitMembership`. -/
def initMembership (cfg : Config) (now : Time) : Engine := .new now cfg.nodeID cfg.nodeAddr

/-- What becomes of one attempt to announce this node. -/
inductive Announce where
  | idle
  | failed (err : String)
  | commit (id addr role : String)
  | rejoin (leaderID leaderAddr : String) (req : RejoinRequest)
deriving DecidableEq

/-- `node` is the daemon's own view of the configuration and the member list. -/
def announceSelfOnce (cfg : Config) (node : Leader) (isLeader : Bool) : Announce :=
  let id := cfg.nodeID
  if !node.hasServer id then
    if node.serverCount > 0 then
      .failed ("node " ++ id ++ " is not a cluster member; run clusdr join")
    else .idle
  else
    let addr := if cfg.nodeAddr ≠ "" then cfg.nodeAddr else cfg.grpcAddr
    let role := ((memberByID node.fsm.applier id).map fun m => normalizeRole m.role).getD roleVoter
    if isLeader then .commit id addr role
    else match node.fsm.applier.leader with
      | none => .failed "waiting for leader"
      | some leader =>
          if leader.address = "" ∨ leader.id = id then .failed "waiting for leader"
          else .rejoin leader.id leader.address { nodeId := id, address := addr, role, relay := true }

/-- The callback of `WatchLeaderChange`: the engine it leaves, and the `ApplyAddMember`
it submits. -/
def onLeaderChange (cfg : Config) (members : Engine) (leaderID : String) :
    Engine × Option (String × String) :=
  if leaderID = "" then (members, none)
  else ((members.setLeader leaderID).1,
    if leaderID = cfg.nodeID then some (cfg.nodeID, cfg.grpcAddr) else none)

end App

end Clusdr
