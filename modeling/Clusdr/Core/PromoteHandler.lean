import Clusdr.Core.JoinService

/-!
`Promote` as the reads and commits it consists of: it reads the member, then Raft's
configuration, and submits what it has read. One that runs alone does what
`JoinService` says.
-/

namespace Clusdr

open Go (Unicode)
open Clusdr.Membership (normalizeRole roleVoter statusAlive)
open Consensus (Leader)

/-- The handler, by what it does next and what it has read for it. -/
inductive Promotion where
  | members (id : String)
  | configuration (id addr : String)
  | addVoter (id raftAddr addr : String)
  | addMember (id addr : String)
deriving DecidableEq

namespace Promotion

def id : Promotion → String
  | .members id | .configuration id _ | .addVoter id _ _ | .addMember id _ => id

variable [Unicode]

/-- The next read or commit, and where it leaves the handler; `none` if it returns. -/
def advance (l : Leader) (c : Commits) : Promotion → Leader × Option Promotion
  | .members id =>
      match memberByID l.fsm.applier id with
      | none => (l, none)
      | some m =>
          if m.status ≠ statusAlive then (l, none)
          else if normalizeRole m.role = roleVoter then (l, none)
          else (l, some (.configuration id m.address))
  | .configuration id addr =>
      match l.servers.get id with
      | none => (l, none)
      | some ⟨.voter, _⟩ => (l, some (.addMember id addr))
      | some ⟨.nonvoter, raftAddr⟩ => (l, some (.addVoter id raftAddr addr))
  | .addVoter id raftAddr addr =>
      match l.addVoter c.raft id raftAddr with
      | (l, .error _) => (l, none)
      | (l, .ok _) => (l, some (.addMember id addr))
  | .addMember id addr => ((l.applyAddMemberAs c.member id addr roleVoter).1, none)

/-- A step of a handler that runs alone. -/
def next (c : Commits) : Leader × Option Promotion → Leader × Option Promotion
  | (l, none) => (l, none)
  | (l, some h) => h.advance l c

theorem next_promote (l : Leader) (c : Commits) (id : String) :
    (next c)^[4] (l, some (.members id)) = ((JoinService.promoteMember l c id).1, none) := by
  change next c (next c (next c ((members id).advance l c))) = _
  simp only [advance, JoinService.promoteMember]
  cases memberByID l.fsm.applier id with
  | none => rfl
  | some m =>
      dsimp only
      split
      · rfl
      split
      · rfl
      simp only [Leader.promoteToVoter, next, advance]
      rcases l.servers.get id with _ | ⟨_ | _, raftAddr⟩
      · rfl
      · dsimp only [next, advance]
        rcases l.applyAddMemberAs c.member id m.address roleVoter with ⟨l', _ | _⟩ <;> rfl
      · dsimp only [next, advance]
        rcases l.addVoter c.raft id raftAddr with ⟨l', _ | _⟩
        · rfl
        · dsimp only [next, advance]
          rcases l'.applyAddMemberAs c.member id m.address roleVoter with ⟨l', _ | _⟩ <;> rfl

end Promotion

end Clusdr
