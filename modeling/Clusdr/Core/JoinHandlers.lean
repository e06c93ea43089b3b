import Clusdr.Core.JoinService

/-!
The handlers of the leader as the reads and commits they consist of. Nothing is
held between two of them, so those of other handlers can fall in between. One that
runs alone does what `JoinService` says.
-/

namespace Clusdr

open Go (Unicode)
open Consensus (Leader)
open JoinService (addServer joinRole)

/-- A request past its checks. -/
inductive AdminRequest where
  | join (req : JoinRequest)
  | leave (id : String)
  | rejoin (id addr role : String)
deriving DecidableEq

/-- A handler, by what it does next and what it has read for it. -/
inductive Handler where
  | joinServer (req : JoinRequest)
  | joinMember (req : JoinRequest)
  | leaveMembers (id : String)
  | leaveServer (id : String) (inMem : Bool)
  | leaveLeft (id : String) (inMem inRaft : Bool)
  | leaveDrop (id : String) (inRaft : Bool)
  | leaveRemove (id : String)
  | rejoinServer (id addr role : String)
  | rejoinRole (id addr role : String)
  | rejoinMember (id addr role : String)
deriving DecidableEq

namespace AdminRequest

def id : AdminRequest → String
  | .join req => req.nodeId
  | .leave id | .rejoin id _ _ => id

def leaves : AdminRequest → Bool
  | .leave _ => true
  | .join _ | .rejoin _ _ _ => false

def handler : AdminRequest → Handler
  | .join req => .joinServer req
  | .leave id => .leaveMembers id
  | .rejoin id addr role => .rejoinServer id addr role

end AdminRequest

namespace Handler

def id : Handler → String
  | .joinServer req | .joinMember req => req.nodeId
  | .leaveMembers id | .leaveServer id _ | .leaveLeft id _ _ | .leaveDrop id _ | .leaveRemove id
  | .rejoinServer id _ _ | .rejoinRole id _ _ | .rejoinMember id _ _ => id

def leaves : Handler → Bool
  | .leaveMembers _ | .leaveServer _ _ | .leaveLeft _ _ _ | .leaveDrop _ _ | .leaveRemove _ => true
  | _ => false

/-- The next commit of the handler lists its id. -/
def lists : Handler → Bool
  | .joinMember _ | .rejoinMember _ _ _ => true
  | _ => false

variable [Unicode]

/-- The next read or commit, and where it leaves the handler; `none` if it returns. -/
def advance (l : Leader) (c : Commits) : Handler → Leader × Option Handler
  | .joinServer req =>
      match addServer l c.raft req with
      | (l, .error _) => (l, none)
      | (l, .ok _) => (l, some (.joinMember req))
  | .joinMember req =>
      ((l.applyAddMemberAs c.member req.nodeId req.address (joinRole req)).1, none)
  | .leaveMembers id => (l, some (.leaveServer id (memberByID l.fsm.applier id).isSome))
  | .leaveServer id inMem => (l, some (.leaveLeft id inMem (l.hasServer id)))
  | .leaveLeft id inMem inRaft =>
      let already := l.fsm.applier.left id
      if !inMem && !inRaft && !already then (l, none)
      else if already && !inRaft then (l, none)
      else (l, some (.leaveDrop id inRaft))
  | .leaveDrop id inRaft =>
      match l.applyDropMember c.member id with
      | (l, .error _) => (l, none)
      | (l, .ok _) => (l, if inRaft then some (.leaveRemove id) else none)
  | .leaveRemove id => ((l.removeVoter c.raft id).1, none)
  | .rejoinServer id addr role =>
      (l, if !l.hasServer id then none else some (.rejoinRole id addr role))
  | .rejoinRole id addr role =>
      (l, some (.rejoinMember id addr (JoinService.rejoinRole l.fsm.applier id role)))
  | .rejoinMember id addr role => ((l.applyAddMemberAs c.member id addr role).1, none)

/-- A step of a handler that runs alone. -/
def next (c : Commits) : Leader × Option Handler → Leader × Option Handler
  | (l, none) => (l, none)
  | (l, some h) => h.advance l c

theorem next_join (s : JoinService) (l : Leader) (c : Commits) (req : JoinRequest) :
    (next c)^[2] (l, some (.joinServer req)) = ((s.serveJoin l c req).1, none) := by
  change next c ((joinServer req).advance l c) = _
  simp only [advance, JoinService.serveJoin]
  rcases addServer l c.raft req with ⟨l, _ | _⟩
  · rfl
  · dsimp only [next, advance]
    rcases l.applyAddMemberAs c.member req.nodeId req.address (joinRole req) with ⟨l, _ | _⟩ <;> rfl

theorem next_leave (l : Leader) (c : Commits) (id : String) :
    (next c)^[5] (l, some (.leaveMembers id)) = ((JoinService.leaveMember l c id).1, none) := by
  change next c (next c ((leaveLeft id (memberByID l.fsm.applier id).isSome
    (l.hasServer id)).advance l c)) = _
  simp only [advance, JoinService.leaveMember]
  split
  · rfl
  · split
    · rfl
    · dsimp only [next, advance]
      rcases l.applyDropMember c.member id with ⟨l', _ | _⟩
      · rfl
      · cases l.hasServer id with
        | false => rfl
        | true =>
            simp only [if_true]
            rcases l'.removeVoter c.raft id with ⟨l', _ | _⟩ <;> rfl

theorem next_rejoin (l : Leader) (c : Commits) (id addr role : String) :
    (next c)^[3] (l, some (.rejoinServer id addr role)) =
      ((JoinService.rejoinMember l c id addr role).1, none) := by
  change next c (next c ((rejoinServer id addr role).advance l c)) = _
  simp only [advance, JoinService.rejoinMember]
  split
  · rfl
  · dsimp only [next, advance]
    rcases l.applyAddMemberAs c.member id addr (JoinService.rejoinRole l.fsm.applier id role) with
      ⟨l, _ | _⟩ <;> rfl

end Handler

end Clusdr
