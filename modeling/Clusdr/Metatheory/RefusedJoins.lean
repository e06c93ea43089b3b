import Clusdr.Metatheory.LeaderCalls

/-!
Joins that are refused. The handler has made up to two changes that Raft keeps when
a later step of it fails, so a refusal leaves the cluster as it was exactly if what
reached the log was there already: the server in the configuration, the member in the
list.
-/

namespace Clusdr

open Go (Unicode)
open Clusdr.Membership (normalizeRole normalizeRole_idem statusAlive)
open Consensus (Command Configuration Fsm Leader Submission)

namespace JoinService

/-- The request was not accepted. -/
def Refuses : Handled JoinResponse → Prop
  | .answered (.error _) => True
  | .answered (.ok r) => r.accepted = false
  | .forwarded _ _ => False

/-- The configuration and the member list are as before. -/
def Unchanged (l l' : Leader) : Prop :=
  l'.servers = l.servers ∧ l'.fsm.applier.membersList = l.fsm.applier.membersList

def joinCommand (req : JoinRequest) : Command :=
  { kind := .addMember, id := req.nodeId, address := req.address,
    role := normalizeRole (joinRole req) }

def Issues (s : JoinService) (req : JoinRequest) : Prop :=
  ∀ sec ∈ s.sec, ∃ issued, sec.issueNode req.nodeId = .ok issued

/-- All that can fail after the checks succeeded. -/
def Completes (s : JoinService) (c : Commits) (req : JoinRequest) : Prop :=
  Added c req ∧ c.member.outcome.isCommitted ∧ s.Issues req

/-- The server of the request is in the configuration, with a vote if it asks for one. -/
def Configured (l : Leader) (req : JoinRequest) : Prop :=
  ∃ server, l.servers.get req.nodeId = some server ∧ server.address = req.raftAddr ∧
    (req.observer = false → server.suffrage = .voter)

/-- The member of the request is listed, alive and in its role. -/
def Listed (e : Membership.Engine) (req : JoinRequest) : Prop :=
  ∃ joinedAt, e.members.get req.nodeId = some ⟨req.nodeId, req.address, statusAlive,
    decide (req.nodeId = e.leaderID), normalizeRole (joinRole req), joinedAt⟩

/-- What reached the log was there already. -/
structure Idle (l : Leader) (c : Commits) (req : JoinRequest) : Prop where
  servers : req.raftAddr ≠ "" → c.raft.logged → Configured l req
  members : Added c req → c.member.logged → Listed l.fsm.applier req

theorem joinServers_eq_iff (l : Leader) (req : JoinRequest) :
    joinServers l req = l.servers ↔ Configured l req := by
  constructor
  · intro h
    have hget := get_joinServers l req req.nodeId
    rw [h, if_pos rfl] at hget
    exact ⟨_, hget, rfl, fun hvoter => by rw [hvoter]; rfl⟩
  · rintro ⟨⟨suffrage, addr⟩, hget, rfl, hvoter⟩
    ext j : 1
    rw [get_joinServers]
    split
    · rename_i hj
      subst hj
      rw [hget]
      cases hobserver : req.observer with
      | false =>
          cases hvoter hobserver
          rfl
      | true => rfl
    · rfl

variable [Unicode]

theorem joinCommand_listed_iff {req : JoinRequest} (named : req.nodeId ≠ "") (f : Fsm)
    (now : Go.Time) :
    (f.applyCommand now (joinCommand req)).1.applier.membersList = f.applier.membersList ↔
      Listed f.applier req := by
  have happlier : (f.applyCommand now (joinCommand req)).1.applier =
      (f.applier.joinAs now req.nodeId req.address (normalizeRole (normalizeRole
        (joinRole req)))).1 := by
    rw [Consensus.applyCommand_applier, Consensus.memberCommand_act]
    rfl
  rw [happlier, Membership.Engine.joinAs_listed_iff named, normalizeRole_idem, normalizeRole_idem]
  rfl

theorem addMember_fst (l : Leader) (sub : Submission) (req : JoinRequest) :
    (l.applyAddMemberAs sub req.nodeId req.address (joinRole req)).1 =
      if sub.logged then { l with fsm := (l.fsm.applyCommand sub.appliedAt (joinCommand req)).1 }
      else l := by
  have hknown : (joinCommand req).kind ∈ Consensus.CommandKind.known := by
    simp [joinCommand, Consensus.CommandKind.known]
  have hfsm := Fsm.applyMember_fst hknown l.fsm sub "add_member"
  change { l with fsm := (l.fsm.applyMember sub "add_member" (joinCommand req)).1 } = _
  rw [hfsm]
  split <;> rfl

theorem addMember_ok (l : Leader) (sub : Submission) (req : JoinRequest) :
    (l.applyAddMemberAs sub req.nodeId req.address (joinRole req)).2 = .ok () ↔
      sub.outcome.isCommitted :=
  Fsm.applyMember_ok l.fsm sub "add_member" (joinCommand req)

/-- After the member command of a served join. -/
def withMember (l : Leader) (c : Commits) (req : JoinRequest) : Leader × Except String Unit :=
  (addServer l c.raft req).1.applyAddMemberAs c.member req.nodeId req.address (joinRole req)

/-- Where a served join can end. -/
theorem serveJoin_cases (s : JoinService) (l : Leader) (c : Commits) (req : JoinRequest) :
    (¬ Added c req ∧ ∃ e, s.serveJoin l c req = ((addServer l c.raft req).1, .error e)) ∨
      (Added c req ∧ ¬ c.member.outcome.isCommitted ∧
        ∃ e, s.serveJoin l c req = ((withMember l c req).1, .error e)) ∨
      (Added c req ∧ c.member.outcome.isCommitted ∧
        s.serveJoin l c req =
          ((withMember l c req).1, s.accept (withMember l c req).1.fsm.applier req)) := by
  unfold serveJoin withMember
  rw [← addServer_ok l c req, ← addMember_ok (addServer l c.raft req).1 c.member req]
  obtain ⟨l', res⟩ := addServer l c.raft req
  cases res with
  | error e => exact Or.inl ⟨nofun, _, rfl⟩
  | ok u =>
      refine Or.inr ?_
      dsimp only
      obtain ⟨l'', res⟩ := l'.applyAddMemberAs c.member req.nodeId req.address (joinRole req)
      cases res with
      | error e => exact Or.inl ⟨rfl, nofun, _, rfl⟩
      | ok u => exact Or.inr ⟨rfl, rfl, rfl⟩

theorem withMember_fst (l : Leader) (c : Commits) (req : JoinRequest) :
    (withMember l c req).1.servers = (addServer l c.raft req).1.servers ∧
      (withMember l c req).1.fsm = if c.member.logged then
        (l.fsm.applyCommand c.member.appliedAt (joinCommand req)).1 else l.fsm := by
  have hfsm : (addServer l c.raft req).1.fsm = l.fsm := by
    rw [addServer_fst]
    split <;> rfl
  unfold withMember
  rw [addMember_fst, hfsm]
  split
  · exact ⟨rfl, rfl⟩
  · exact ⟨rfl, hfsm⟩

/-- What a served join leaves. -/
theorem serveJoin_fst (s : JoinService) (l : Leader) (c : Commits) (req : JoinRequest) :
    (s.serveJoin l c req).1.servers =
        (if req.raftAddr ≠ "" ∧ c.raft.logged then joinServers l req else l.servers) ∧
      (s.serveJoin l c req).1.fsm =
        (if Added c req ∧ c.member.logged then
          (l.fsm.applyCommand c.member.appliedAt (joinCommand req)).1 else l.fsm) := by
  have hservers : (addServer l c.raft req).1.servers =
      if req.raftAddr ≠ "" ∧ c.raft.logged then joinServers l req else l.servers := by
    rw [addServer_fst]
    split <;> rfl
  obtain ⟨hlisted, hfsm⟩ := withMember_fst l c req
  rcases s.serveJoin_cases l c req with ⟨hadded, e, h⟩ | ⟨hadded, -, e, h⟩ | ⟨hadded, -, h⟩
  · rw [h]
    refine ⟨hservers, ?_⟩
    rw [if_neg fun hboth => hadded hboth.1, addServer_fst]
    split <;> rfl
  · rw [h, if_congr (and_iff_right hadded) rfl rfl]
    exact ⟨hlisted.trans hservers, hfsm⟩
  · rw [h, if_congr (and_iff_right hadded) rfl rfl]
    exact ⟨hlisted.trans hservers, hfsm⟩

omit [Unicode] in
theorem accept_refuses (s : JoinService) (members : Membership.Engine) (req : JoinRequest) :
    Refuses (.answered (s.accept members req)) ↔ ¬ s.Issues req := by
  unfold accept Issues
  cases s.sec with
  | none => exact iff_of_false nofun (not_not_intro nofun)
  | some sec =>
      dsimp only
      cases hissue : sec.issueNode req.nodeId with
      | error e => simp [Refuses, hissue]
      | ok issued => simp [Refuses, hissue]

theorem serveJoin_refuses (s : JoinService) (l : Leader) (c : Commits) (req : JoinRequest) :
    Refuses (.answered (s.serveJoin l c req).2) ↔ ¬ s.Completes c req := by
  unfold Completes
  rcases s.serveJoin_cases l c req with ⟨hadded, e, h⟩ | ⟨-, hmember, e, h⟩ | ⟨hadded, hmember, h⟩
  · rw [h]
    exact iff_of_true trivial fun hall => hadded hall.1
  · rw [h]
    exact iff_of_true trivial fun hall => hmember hall.2.1
  · rw [h, accept_refuses, and_iff_right hadded, and_iff_right hmember]

theorem serveJoin_unchanged (s : JoinService) (l : Leader) (c : Commits) {req : JoinRequest}
    (named : req.nodeId ≠ "") : Unchanged l (s.serveJoin l c req).1 ↔ Idle l c req := by
  obtain ⟨hservers, hfsm⟩ := s.serveJoin_fst l c req
  have hlisted := joinCommand_listed_iff named l.fsm c.member.appliedAt
  rw [Unchanged, hservers, hfsm]
  constructor
  · rintro ⟨hs, hm⟩
    refine ⟨fun haddr hlogged => ?_, fun hadded hlogged => ?_⟩
    · rw [if_pos ⟨haddr, hlogged⟩] at hs
      exact (joinServers_eq_iff l req).mp hs
    · rw [if_pos ⟨hadded, hlogged⟩] at hm
      exact hlisted.mp hm
  · rintro ⟨hs, hm⟩
    constructor
    · split
      · rename_i h; exact (joinServers_eq_iff l req).mpr (hs h.1 h.2)
      · rfl
    · split
      · rename_i h; exact hlisted.mpr (hm h.1 h.2)
      · rfl

theorem named_of_check {s : JoinService} {req : JoinRequest} (check : s.check req = none) :
    req.nodeId ≠ "" := by
  intro h
  rw [JoinService.check, if_pos h] at check
  cases check

end JoinService

open JoinService in
/-- A refused join leaves the configuration and the member list alone exactly if it
was refused by a check, or what reached the log until then was there already. -/
theorem refused_join_unchanged_iff [Unicode] (clusterID : String) (sec : Option JoinSecurity)
    (l : Leader) (c : Commits) (req : JoinRequest) :
    let s : JoinService := ⟨clusterID, true, sec⟩
    (Refuses (s.join l c req).2 → Unchanged l (s.join l c req).1) ↔
      (s.check req = none → ¬ s.Completes c req → Idle l c req) := by
  intro s
  have hroute : s.route l.fsm.applier req.relay = .serve := rfl
  unfold join
  cases hcheck : s.check req with
  | some r => exact iff_of_true (fun _ => ⟨rfl, rfl⟩) nofun
  | none =>
      have hunchanged := s.serveJoin_unchanged l c (named_of_check hcheck)
      simp only [handle, hroute, s.serveJoin_refuses, hunchanged, true_implies]

namespace JoinService

/-- A leader that joined the cluster itself completes no join. -/
theorem not_completes_joined (clusterID : String) (isLeader : Bool) (pki : Pki) (store : Certs)
    (caCert nodeCert nodeKey tokenHash : Bytes) (c : Commits) (req : JoinRequest) :
    ¬ Completes ⟨clusterID, isLeader,
      some (joinSec pki (store.saveJoinCerts caCert nodeCert nodeKey tokenHash))⟩ c req := by
  rintro ⟨-, -, hissues⟩
  obtain ⟨issued, hissued⟩ := hissues _ rfl
  obtain ⟨e, he⟩ := issueNode_joined pki store caCert nodeCert nodeKey tokenHash req.nodeId
  rw [he] at hissued
  cases hissued

/-- `n2` joined `n1` and has become the leader. -/
def joinedLeader : Leader where
  servers := ((∅ : Configuration).addVoter "n1" "10.0.0.1:7946").addVoter "n2" "10.0.0.2:7946"
  fsm :=
    ⟨((Membership.Engine.new 0 "n2" "10.0.0.2:7947").join 0 "n1" "10.0.0.1:7947").1, none, none⟩

/-- The service of `n2`, with the certificates its own join saved. -/
def joinedService : JoinService where
  clusterID := "c1"
  isLeader := true
  sec := some (joinSec ⟨fun _ => [9], fun _ _ _ => .ok ([2], [3])⟩
    ((Certs.none.saveCerts ⟨[1], [2], [3], [4], [5]⟩).saveJoinCerts [6] [7] [8] [9]))

def joinN3 : JoinRequest where
  nodeId := "n3"
  address := "10.0.0.3:7947"
  raftAddr := "10.0.0.3:7946"
  joinToken := "secret"

end JoinService

open JoinService in
theorem refused_join_leaves_member : letI := Unicode.ascii
    let l := (joinedService.join joinedLeader allCommitted joinN3).1
    let reply := (joinedService.join joinedLeader allCommitted joinN3).2
    reply = .answered (.error ⟨.internal,
        "issue node cert: this node has no CA key; join via a seed node"⟩) ∧
      joinedLeader.servers.get "n3" = none ∧
      l.servers.get "n3" = some ⟨.voter, "10.0.0.3:7946"⟩ ∧
      joinedLeader.fsm.applier.members.get "n3" = none ∧
      (l.fsm.applier.members.get "n3").isSome ∧
      ¬ (Refuses reply → Unchanged joinedLeader l) := by
  have hbefore : joinedLeader.servers.get "n3" = none := by decide
  have hafter : ((@join .ascii joinedService joinedLeader allCommitted joinN3).1).servers.get "n3" =
      some ⟨.voter, "10.0.0.3:7946"⟩ := by decide
  refine ⟨rfl, hbefore, hafter, by decide, by decide, fun hclean => ?_⟩
  have hsame := (hafter.symm.trans (congrArg (Go.Map.get · "n3") (hclean trivial).1)).trans hbefore
  cases hsame

end Clusdr
