import Clusdr.Core.JoinService
import Clusdr.Metatheory.MemberConvergence
import Clusdr.Metatheory.Submissions

/-!
What the calls of the leader leave, one id at a time: in Raft's configuration and
in the member list. A member command moves the list only, a change of the
configuration moves the configuration only.
-/

namespace Clusdr

open Go (Unicode)
open Clusdr.Membership (Engine normalizeRole normalizeRole_idem normalizeStatus statusAlive
  statusDead)
open Consensus (Command CommandKind Configuration Fsm Leader Outcome Server Submission listing)

theorem memberByID_eq {e : Engine} (valid : e.Valid) (id : String) :
    memberByID e id = e.members.get id := Go.Map.find?_sorted valid.keyed id

namespace Consensus.Configuration

theorem get_addVoter (c : Configuration) (id addr j : String) :
    (c.addVoter id addr).get j = if j = id then some ⟨.voter, addr⟩ else c.get j :=
  Go.Map.get_set c id j _

/-- Who votes keeps the vote, and a new server has none. -/
theorem get_addNonvoter (c : Configuration) (id addr j : String) :
    (c.addNonvoter id addr).get j = if j = id then
      some ⟨((c.get id).map Server.suffrage).getD .nonvoter, addr⟩ else c.get j := by
  unfold addNonvoter
  rcases hserver : c.get id with _ | ⟨_ | _, _⟩ <;> simp [Go.Map.get_set]

theorem get_removeServer (c : Configuration) (id j : String) :
    (c.removeServer id).get j = if j = id then none else c.get j :=
  Go.Map.get_delete c id j

end Consensus.Configuration

namespace Consensus.Leader

def Lists (l : Leader) (id : String) : Prop := (listing l.fsm.applier id).isSome

def Serves (l : Leader) (id : String) : Prop := (l.servers.get id).isSome

theorem lists_iff (l : Leader) (id : String) :
    l.Lists id ↔ (l.fsm.applier.members.get id).isSome := by
  rw [Lists, listing, Option.isSome_map]

/-- Nothing has changed but what concerns `id`. -/
structure Only (id : String) (l l' : Leader) : Prop where
  valid : l'.fsm.applier.Valid
  servers : ∀ j, j ≠ id → l'.servers.get j = l.servers.get j
  listing : ∀ j, j ≠ id → listing l'.fsm.applier j = listing l.fsm.applier j

theorem Only.refl (id : String) {l : Leader} (valid : l.fsm.applier.Valid) : Only id l l :=
  ⟨valid, fun _ _ => rfl, fun _ _ => rfl⟩

theorem Only.trans {id : String} {l₁ l₂ l₃ : Leader} (h : Only id l₁ l₂) (h' : Only id l₂ l₃) :
    Only id l₁ l₃ where
  valid := h'.valid
  servers j hj := (h'.servers j hj).trans (h.servers j hj)
  listing j hj := (h'.listing j hj).trans (h.listing j hj)

theorem fsm_change (l : Leader) (outcome : Outcome) (what : String) (c : Configuration) :
    (l.change outcome what c).1.fsm = l.fsm := by
  rw [change_fst]
  split <;> rfl

theorem only_change {l : Leader} (valid : l.fsm.applier.Valid) {id : String} (outcome : Outcome)
    (what : String) {c : Configuration} (h : ∀ j, j ≠ id → c.get j = l.servers.get j) :
    Only id l (l.change outcome what c).1 := by
  rw [change_fst]
  split
  · exact ⟨valid, h, fun _ _ => rfl⟩
  · exact .refl id valid

end Consensus.Leader

namespace JoinService

/-- The configuration the request asks for. -/
def joinServers (l : Leader) (req : JoinRequest) : Configuration :=
  if req.observer then l.servers.addNonvoter req.nodeId req.raftAddr
  else l.servers.addVoter req.nodeId req.raftAddr

/-- The change of the configuration succeeded, or was not asked for. -/
def Added (c : Commits) (req : JoinRequest) : Prop := req.raftAddr = "" ∨ c.raft.isCommitted

instance (c : Commits) (req : JoinRequest) : Decidable (Added c req) :=
  inferInstanceAs (Decidable (_ ∨ _))

/-- Both submissions of a handler succeed. -/
def allCommitted : Commits := ⟨.committed, ⟨0, 0, .committed⟩⟩

def seedLeader : Leader := .bootstrap 0 "n1" "10.0.0.1:7947" "10.0.0.1:7946"

theorem addServer_fst (l : Leader) (outcome : Outcome) (req : JoinRequest) :
    (addServer l outcome req).1 =
      if req.raftAddr ≠ "" ∧ outcome.logged then { l with servers := joinServers l req } else l := by
  unfold addServer joinServers Leader.addNonvoter Leader.addVoter
  by_cases haddr : req.raftAddr = ""
  · simp [haddr]
  · by_cases hobserver : req.observer <;> simp [haddr, hobserver, Leader.change_fst]

theorem addServer_ok (l : Leader) (c : Commits) (req : JoinRequest) :
    (addServer l c.raft req).2 = .ok () ↔ Added c req := by
  unfold addServer Added Leader.addNonvoter Leader.addVoter
  by_cases haddr : req.raftAddr = ""
  · simp [haddr]
  · by_cases hobserver : req.observer <;> simp [haddr, hobserver, Leader.change_ok]

theorem get_joinServers (l : Leader) (req : JoinRequest) (j : String) :
    (joinServers l req).get j = if j = req.nodeId then
      some ⟨if req.observer then ((l.servers.get j).map Server.suffrage).getD .nonvoter else .voter,
        req.raftAddr⟩ else l.servers.get j := by
  unfold joinServers
  by_cases hj : j = req.nodeId
  · subst hj
    cases req.observer <;>
      simp [Consensus.Configuration.get_addVoter, Consensus.Configuration.get_addNonvoter]
  · cases req.observer <;>
      simp [Consensus.Configuration.get_addVoter, Consensus.Configuration.get_addNonvoter, hj]

theorem get_addServer (l : Leader) {outcome : Outcome} (logged : outcome.logged) {req : JoinRequest}
    (haddr : req.raftAddr ≠ "") :
    (addServer l outcome req).1.servers.get req.nodeId =
      some ⟨if req.observer then ((l.servers.get req.nodeId).map Server.suffrage).getD .nonvoter
        else .voter, req.raftAddr⟩ := by
  rw [addServer_fst, if_pos ⟨haddr, logged⟩]
  exact (get_joinServers l req req.nodeId).trans (if_pos rfl)

theorem only_addServer {l : Leader} (valid : l.fsm.applier.Valid) (outcome : Outcome)
    (req : JoinRequest) : Leader.Only req.nodeId l (addServer l outcome req).1 := by
  rw [addServer_fst]
  split
  · exact ⟨valid, fun j hj => (get_joinServers l req j).trans (if_neg hj), fun _ _ => rfl⟩
  · exact .refl _ valid

end JoinService

namespace Consensus.Leader

variable [Unicode]

/-- The member list after a member command. -/
theorem listing_applyMember {l : Leader} (valid : l.fsm.applier.Valid) (s : Submission)
    (op : String) {cmd : Command} (known : cmd.kind ∈ CommandKind.known) (j : String) :
    listing (l.fsm.applyMember s op cmd).1.applier j =
      if s.logged then cmd.relist j (listing l.fsm.applier j) else listing l.fsm.applier j := by
  rw [Fsm.applyMember_fst known]
  split
  · exact listing_applyCommand valid s.appliedAt cmd j
  · rfl

theorem valid_applyMember {l : Leader} (valid : l.fsm.applier.Valid) (s : Submission)
    (op : String) {cmd : Command} (known : cmd.kind ∈ CommandKind.known) :
    (l.fsm.applyMember s op cmd).1.applier.Valid := by
  rw [Fsm.applyMember_fst known]
  split
  · exact valid_applyCommand valid s.appliedAt cmd
  · exact valid

theorem valid_applyAddMemberAs {l : Leader} (valid : l.fsm.applier.Valid) (s : Submission)
    (id addr role : String) : (l.applyAddMemberAs s id addr role).1.fsm.applier.Valid :=
  valid_applyMember valid s "add_member" (by simp [CommandKind.known])

theorem valid_applyDropMember {l : Leader} (valid : l.fsm.applier.Valid) (s : Submission)
    (id : String) : (l.applyDropMember s id).1.fsm.applier.Valid :=
  valid_applyMember valid s "drop_member" (by simp [CommandKind.known])

theorem listing_applyAddMemberAs {l : Leader} (valid : l.fsm.applier.Valid) (s : Submission)
    (id addr role j : String) :
    listing (l.applyAddMemberAs s id addr role).1.fsm.applier j =
      if s.logged ∧ j = id ∧ id ≠ "" then some ⟨addr, statusAlive, normalizeRole role⟩
      else listing l.fsm.applier j := by
  refine (listing_applyMember valid s "add_member" (by simp [CommandKind.known]) j).trans ?_
  by_cases hj : j = id
  · subst hj
    by_cases hempty : j = ""
    · simp [Command.relist, hempty]
    · simp [Command.relist, hempty, normalizeRole_idem]
  · simp [Command.relist, hj, Ne.symm hj]

theorem only_applyAddMemberAs {l : Leader} (valid : l.fsm.applier.Valid) (s : Submission)
    (id addr role : String) : Only id l (l.applyAddMemberAs s id addr role).1 where
  valid := valid_applyAddMemberAs valid s id addr role
  servers _ _ := rfl
  listing j hj := (listing_applyAddMemberAs valid s id addr role j).trans
    (if_neg fun h => hj h.2.1)

theorem listing_applyDropMember {l : Leader} (valid : l.fsm.applier.Valid) (s : Submission)
    (id j : String) :
    listing (l.applyDropMember s id).1.fsm.applier j =
      if s.logged ∧ j = id then none else listing l.fsm.applier j := by
  refine (listing_applyMember valid s "drop_member" (by simp [CommandKind.known]) j).trans ?_
  by_cases hj : j = id
  · simp [Command.relist, hj]
  · simp [Command.relist, hj, Ne.symm hj]

theorem listing_applyRemoveMember {l : Leader} (valid : l.fsm.applier.Valid) (s : Submission)
    (id j : String) :
    listing (l.applyRemoveMember s id).1.fsm.applier j =
      if s.logged ∧ j = id then (listing l.fsm.applier j).map fun m =>
        if normalizeStatus m.status = statusDead then m else { m with status := statusDead }
      else listing l.fsm.applier j := by
  refine (listing_applyMember valid s "mark_dead" (by simp [CommandKind.known]) j).trans ?_
  by_cases hj : j = id
  · simp [Command.relist, hj]
  · simp [Command.relist, hj, Ne.symm hj]

theorem only_applyDropMember {l : Leader} (valid : l.fsm.applier.Valid) (s : Submission)
    (id : String) : Only id l (l.applyDropMember s id).1 where
  valid := valid_applyDropMember valid s id
  servers _ _ := rfl
  listing j hj := (listing_applyDropMember valid s id j).trans (if_neg fun h => hj h.2)

theorem only_applyRemoveMember {l : Leader} (valid : l.fsm.applier.Valid) (s : Submission)
    (id : String) : Only id l (l.applyRemoveMember s id).1 where
  valid := valid_applyMember valid s "mark_dead" (by simp [CommandKind.known])
  servers _ _ := rfl
  listing j hj := (listing_applyRemoveMember valid s id j).trans (if_neg fun h => hj h.2)

end Consensus.Leader

namespace JoinService

variable [Unicode]

/-- How an attempt to leave ends. -/
inductive LeaveCase (l : Leader) (c : Commits) (id : String) :
    Leader × Except Rpc.Status Unit → Prop
  | unknown {msg : String} (unlisted : ¬ l.Lists id) (unserved : l.hasServer id = false)
      (stayed : l.fsm.applier.left id = false) : LeaveCase l c id (l, .error ⟨.notFound, msg⟩)
  | already (left : l.fsm.applier.left id = true) (unserved : l.hasServer id = false) :
      LeaveCase l c id (l, .ok ())
  | dropFailed {msg : String} (failed : ¬ c.member.outcome.isCommitted)
      (pending : l.hasServer id = true ∨ l.Lists id ∧ l.fsm.applier.left id = false) :
      LeaveCase l c id ((l.applyDropMember c.member id).1, .error ⟨.internal, msg⟩)
  | dropped (committed : c.member.outcome.isCommitted) (unserved : l.hasServer id = false)
      (pending : l.hasServer id = true ∨ l.Lists id ∧ l.fsm.applier.left id = false) :
      LeaveCase l c id ((l.applyDropMember c.member id).1, .ok ())
  | removeFailed {msg : String} (committed : c.member.outcome.isCommitted)
      (failed : ¬ c.raft.isCommitted) (served : l.hasServer id = true) :
      LeaveCase l c id
        (((l.applyDropMember c.member id).1.removeVoter c.raft id).1, .error ⟨.internal, msg⟩)
  | removed (committed : c.member.outcome.isCommitted) (gone : c.raft.isCommitted)
      (served : l.hasServer id = true) :
      LeaveCase l c id (((l.applyDropMember c.member id).1.removeVoter c.raft id).1, .ok ())

theorem leaveMember_case {l : Leader} (valid : l.fsm.applier.Valid) (c : Commits) (id : String) :
    LeaveCase l c id (leaveMember l c id) := by
  have hlists : (memberByID l.fsm.applier id).isSome = true ↔ l.Lists id := by
    rw [memberByID_eq valid, Leader.lists_iff]
  have hdropOk : (l.applyDropMember c.member id).2 = .ok () ↔ c.member.outcome.isCommitted :=
    Fsm.applyMember_ok _ _ _ _
  unfold leaveMember
  dsimp only
  split
  · rename_i hunknown
    simp only [Bool.and_eq_true, Bool.not_eq_true', ← Bool.not_eq_true, hlists] at hunknown
    obtain ⟨⟨hunlisted, hunserved⟩, hstayed⟩ := hunknown
    exact .unknown hunlisted (by simpa using hunserved) (by simpa using hstayed)
  · rename_i hknown
    split
    · rename_i hleft
      simp only [Bool.and_eq_true, Bool.not_eq_true'] at hleft
      exact .already hleft.1 hleft.2
    · rename_i hstays
      have hpending : l.hasServer id = true ∨ l.Lists id ∧ l.fsm.applier.left id = false := by
        rw [← hlists]
        cases hserved : l.hasServer id with
        | true => exact Or.inl rfl
        | false =>
            have hstayed : l.fsm.applier.left id = false := by simpa [hserved] using hstays
            refine Or.inr ⟨?_, hstayed⟩
            simpa [hserved, hstayed, Option.isSome_iff_ne_none] using hknown
      split
      · rename_i l' e hdrop
        have hl' : (l.applyDropMember c.member id).1 = l' := congrArg Prod.fst hdrop
        have hfailed : ¬ c.member.outcome.isCommitted := by
          rw [← hdropOk, hdrop]
          exact nofun
        exact hl' ▸ .dropFailed hfailed hpending
      · rename_i l' u hdrop
        have hl' : (l.applyDropMember c.member id).1 = l' := congrArg Prod.fst hdrop
        have hcommitted : c.member.outcome.isCommitted := hdropOk.mp (congrArg Prod.snd hdrop)
        subst hl'
        split
        · rename_i hserved
          have hremoveOk : ((l.applyDropMember c.member id).1.removeVoter c.raft id).2 = .ok () ↔
              c.raft.isCommitted := Leader.change_ok _ _ _ _
          split
          · rename_i l' e hremove
            have hl' : ((l.applyDropMember c.member id).1.removeVoter c.raft id).1 = l' :=
              congrArg Prod.fst hremove
            have hfailed : ¬ c.raft.isCommitted := by
              rw [← hremoveOk, hremove]
              exact nofun
            exact hl' ▸ .removeFailed hcommitted hfailed hserved
          · rename_i l' u hremove
            have hl' : ((l.applyDropMember c.member id).1.removeVoter c.raft id).1 = l' :=
              congrArg Prod.fst hremove
            exact hl' ▸ .removed hcommitted (hremoveOk.mp (congrArg Prod.snd hremove)) hserved
        · rename_i hunserved
          exact .dropped hcommitted (by simpa using hunserved) hpending

end JoinService

end Clusdr
