import Clusdr.Core.Node

/-!
Raft's configuration and the calls of the leader that change it. A change is
submitted to Raft like a command: it is committed, or fails and may still have
reached the log. `Configuration.addVoter`, `addNonvoter` and `removeServer` are no
code of this repository but the effects that the Raft library documents for its calls
of these names. Reading the configuration does not fail.
-/

namespace Clusdr.Consensus

open Go (Unicode)

inductive Suffrage where
  | voter
  | nonvoter
deriving DecidableEq

structure Server where
  suffrage : Suffrage
  address : String
deriving DecidableEq

abbrev Configuration := Go.Map String Server

namespace Configuration

/-- A voter keeps its vote and a non-voter gets one; the address is the new one. -/
def addVoter (c : Configuration) (id addr : String) : Configuration := c.set id ⟨.voter, addr⟩

/-- A voter is not demoted. -/
def addNonvoter (c : Configuration) (id addr : String) : Configuration :=
  match c.get id with
  | some ⟨.voter, _⟩ => c.set id ⟨.voter, addr⟩
  | _ => c.set id ⟨.nonvoter, addr⟩

def removeServer (c : Configuration) (id : String) : Configuration := c.delete id

end Configuration

/-- The `Node` of the leader: Raft's configuration and the state machine. -/
structure Leader where
  servers : Configuration
  fsm : Fsm

namespace Leader

/-- `New` with `Bootstrap` set, on a data directory without a cluster. -/
def bootstrap (now : Go.Time) (id addr raftAddr : String) : Leader where
  servers := Go.Map.set ∅ id ⟨.voter, raftAddr⟩
  fsm := ⟨.new now id addr, some .new, some .new⟩

/-- A change of the configuration; `what` is how its error calls it. -/
def change (l : Leader) (outcome : Outcome) (what : String) (servers : Configuration) :
    Leader × Except String Unit :=
  match outcome with
  | .committed => ({ l with servers }, .ok ())
  | .failed err logged => (if logged then { l with servers } else l, .error (what ++ ": " ++ err))

theorem change_fst (l : Leader) (outcome : Outcome) (what : String) (servers : Configuration) :
    (l.change outcome what servers).1 = if outcome.logged then { l with servers } else l := by
  cases outcome <;> rfl

theorem change_ok (l : Leader) (outcome : Outcome) (what : String) (servers : Configuration) :
    (l.change outcome what servers).2 = .ok () ↔ outcome.isCommitted := by
  cases outcome with
  | committed => exact iff_of_true rfl rfl
  | failed err logged => exact iff_of_false nofun nofun

def addVoter (l : Leader) (outcome : Outcome) (id raftAddr : String) :
    Leader × Except String Unit :=
  l.change outcome ("raft add voter " ++ id) (l.servers.addVoter id raftAddr)

def addNonvoter (l : Leader) (outcome : Outcome) (id raftAddr : String) :
    Leader × Except String Unit :=
  l.change outcome ("raft add nonvoter " ++ id) (l.servers.addNonvoter id raftAddr)

def promoteToVoter (l : Leader) (outcome : Outcome) (id : String) : Leader × Except String Unit :=
  match l.servers.get id with
  | none => (l, .error ("raft server " ++ id ++ " not in configuration"))
  | some ⟨.voter, _⟩ => (l, .ok ())
  | some ⟨.nonvoter, addr⟩ => l.addVoter outcome id addr

def removeVoter (l : Leader) (outcome : Outcome) (id : String) : Leader × Except String Unit :=
  l.change outcome ("raft remove server " ++ id) (l.servers.removeServer id)

def hasServer (l : Leader) (id : String) : Bool := id ≠ "" && (l.servers.get id).isSome

def serverCount (l : Leader) : Nat := l.servers.len

variable [Unicode]

def applyAddMemberAs (l : Leader) (s : Submission) (id addr role : String) :
    Leader × Except String Unit :=
  let (fsm, res) := l.fsm.applyAddMemberAs s id addr role
  ({ l with fsm }, res)

def applyRemoveMember (l : Leader) (s : Submission) (id : String) : Leader × Except String Unit :=
  let (fsm, res) := l.fsm.applyRemoveMember s id
  ({ l with fsm }, res)

def applyDropMember (l : Leader) (s : Submission) (id : String) : Leader × Except String Unit :=
  let (fsm, res) := l.fsm.applyDropMember s id
  ({ l with fsm }, res)

end Leader

end Clusdr.Consensus
