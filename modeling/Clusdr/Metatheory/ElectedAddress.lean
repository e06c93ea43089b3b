import Clusdr.Core.App
import Clusdr.Metatheory.AdvertisedAddress
import Clusdr.Metatheory.ObserverJoins

/-!
The address a node advertises, over elections. Its `Join` and its announcements carry
`node.addr`, and what other nodes do leaves the entry alone; the callback for its own
election commits `grpc.addr`.
-/

namespace Clusdr

open Go (Unicode)
open App (Announce announceSelfOnce onLeaderChange)
open Consensus (Leader Submission listing)

/-- What happens in a cluster. Each step names the daemon it happens on by its
configuration, or the service that a request is made to. -/
inductive ClusterStep where
  | leaderChange (cfg : Config) (leaderID : String) (sub : Submission)
  /-- `view` is the announcing daemon's own view, and `s` the service it dials. -/
  | announce (cfg : Config) (view : Leader) (isLeader : Bool) (s : JoinService) (c : Commits)
  | request (s : JoinService) (call : ServiceCall) (c : Commits)

namespace Consensus.Leader

variable [Unicode]

/-- The callback on the daemon of `cfg`, seen in the replicated state; the node whose
list this is may be another one. -/
def leaderChange (l : Leader) (cfg : Config) (leaderID : String) (sub : Submission) : Leader :=
  let (members, own) := onLeaderChange cfg l.fsm.applier leaderID
  let l := if cfg.nodeID = l.fsm.applier.selfID then
    { l with fsm := { l.fsm with applier := members } } else l
  match own with
  | none => l
  | some (id, addr) =>
      let (fsm, _) := l.fsm.applyAddMember sub id addr
      { l with fsm }

def announce (l : Leader) (cfg : Config) (view : Leader) (isLeader : Bool) (s : JoinService)
    (c : Commits) : Leader :=
  match announceSelfOnce cfg view isLeader with
  | .idle | .failed _ => l
  | .commit id addr role => (l.applyAddMemberAs c.member id addr role).1
  | .rejoin _ _ req => (s.rejoin l c req).1

def clusterStep (l : Leader) : ClusterStep → Leader
  | .leaderChange cfg leaderID sub => l.leaderChange cfg leaderID sub
  | .announce cfg view isLeader s c => l.announce cfg view isLeader s c
  | .request s call c => s.serve l (call, c)

end Consensus.Leader

namespace App

/-- What an announcement commits or asks for is about `id` at `addr`. -/
def Announce.Names (id addr : String) : Announce → Prop
  | .commit id' addr' _ => id' = id ∧ addr' = addr
  | .rejoin _ _ req => req.nodeId = id ∧ req.address = addr
  | _ => True

theorem announceSelfOnce_names (cfg : Config) (view : Leader) (isLeader : Bool) :
    (announceSelfOnce cfg view isLeader).Names cfg.nodeID
      (if cfg.nodeAddr ≠ "" then cfg.nodeAddr else cfg.grpcAddr) := by
  unfold announceSelfOnce
  generalize (if cfg.nodeAddr ≠ "" then cfg.nodeAddr else cfg.grpcAddr) = addr
  dsimp only
  split
  · split <;> trivial
  · split
    · exact ⟨rfl, rfl⟩
    · split
      · trivial
      · split
        · trivial
        · exact ⟨rfl, rfl⟩

end App

namespace ClusterStep

/-- A step on the daemon of `self` runs with its configuration, and a request about it
carries its `node.addr`. -/
def Ours (self : Config) : ClusterStep → Prop
  | .leaderChange cfg _ _ | .announce cfg _ _ _ _ => cfg.nodeID = self.nodeID → cfg = self
  | .request _ call _ => call.Carries self.nodeID self.nodeAddr

/-- The daemon of `self` is told that it leads, and what it commits then reaches the log. -/
def ElectsSelf (self : Config) : ClusterStep → Prop
  | .leaderChange cfg leaderID sub =>
      cfg.nodeID = self.nodeID ∧ leaderID = self.nodeID ∧ sub.logged
  | _ => False

end ClusterStep

namespace Consensus.Leader

/-- What the member list says of the daemon is its `node.addr`. -/
def KeepsAddress (self : Config) (l : Leader) : Prop :=
  ∀ m ∈ l.fsm.applier.membersList, m.id = self.nodeID → m.address = self.nodeAddr

theorem keepsAddress_iff {self : Config} {l : Leader} (valid : l.fsm.applier.Valid) :
    l.KeepsAddress self ↔ Advertises self.nodeID self.nodeAddr l := by
  constructor
  · refine fun h => ⟨valid, fun m hm => ?_⟩
    obtain ⟨n, hn, rfl⟩ := Option.map_eq_some_iff.mp hm
    obtain ⟨hmem, hid⟩ := (Go.Map.get_iff_mem_sorted valid.keyed self.nodeID n).mp hn
    exact h n hmem hid
  · intro h m hm hid
    have hget := (Go.Map.get_iff_mem_sorted valid.keyed self.nodeID m).mpr ⟨hm, hid⟩
    exact h.address _ (congrArg (Option.map listingOf) hget)

theorem Advertises.setLeader {id addr : String} {l : Leader} (h : Advertises id addr l)
    (leaderID : String) :
    Advertises id addr
      { l with fsm := { l.fsm with applier := (l.fsm.applier.setLeader leaderID).1 } } where
  valid := Membership.Engine.valid_act h.valid (.setLeader leaderID)
  address m hm := h.address m ((listing_setLeader l.fsm.applier leaderID id).symm.trans hm)

/-- The callback lists its daemon anew exactly if it is the one elected. -/
theorem leaderChange_eq [Unicode] (l : Leader) (cfg : Config) (leaderID : String)
    (sub : Submission) :
    ∃ l', l.leaderChange cfg leaderID sub = (if leaderID ≠ "" ∧ leaderID = cfg.nodeID then
        (l'.applyAddMemberAs sub cfg.nodeID cfg.grpcAddr Membership.roleVoter).1 else l') ∧
      ∀ id addr, Advertises id addr l → Advertises id addr l' := by
  refine ⟨if cfg.nodeID = l.fsm.applier.selfID then { l with fsm :=
    { l.fsm with applier := (onLeaderChange cfg l.fsm.applier leaderID).1 } } else l, ?_, ?_⟩
  · by_cases hnone : leaderID = ""
    · simp [leaderChange, onLeaderChange, hnone]
    · by_cases hself : leaderID = cfg.nodeID
      · subst hself
        rw [if_pos ⟨hnone, rfl⟩]
        simp only [leaderChange, onLeaderChange, hnone, if_true, if_false]
        rfl
      · simp [leaderChange, onLeaderChange, hnone, hself]
  · intro id addr h
    split
    · unfold onLeaderChange
      split
      · exact h
      · exact h.setLeader leaderID
    · exact h

theorem advertises_leaderChange [Unicode] {self cfg : Config} (hid : self.nodeID ≠ "") {l : Leader}
    (h : Advertises self.nodeID self.nodeAddr l) (leaderID : String) (sub : Submission)
    (ours : cfg.nodeID = self.nodeID → cfg = self) :
    (l.leaderChange cfg leaderID sub).fsm.applier.Valid ∧
      (Advertises self.nodeID self.nodeAddr (l.leaderChange cfg leaderID sub) ↔
        self.grpcAddr = self.nodeAddr ∨
          ¬ (ClusterStep.leaderChange cfg leaderID sub).ElectsSelf self) := by
  obtain ⟨l', hstep, hkeeps⟩ := l.leaderChange_eq cfg leaderID sub
  have h' := hkeeps _ _ h
  rw [hstep]
  by_cases helected : leaderID ≠ "" ∧ leaderID = cfg.nodeID
  · rw [if_pos helected]
    refine ⟨valid_applyAddMemberAs h'.valid _ _ _ _, ?_⟩
    by_cases hself : cfg.nodeID = self.nodeID
    · obtain rfl := ours hself
      have hlisting := listing_applyAddMemberAs h'.valid sub cfg.nodeID cfg.grpcAddr
        Membership.roleVoter cfg.nodeID
      by_cases hlogged : sub.logged
      · rw [if_pos ⟨hlogged, rfl, hid⟩] at hlisting
        have helects : (ClusterStep.leaderChange cfg leaderID sub).ElectsSelf cfg :=
          ⟨rfl, helected.2, hlogged⟩
        rw [or_iff_left (not_not_intro helects)]
        exact ⟨fun hadv => hadv.address _ hlisting, fun hsame => h'.addMember _ _ _ _ fun _ => hsame⟩
      · rw [if_neg fun hall => hlogged hall.1] at hlisting
        refine iff_of_true ⟨valid_applyAddMemberAs h'.valid _ _ _ _, fun m hm => ?_⟩
          (Or.inr fun hall => hlogged hall.2.2)
        exact h'.address m (hlisting.symm.trans hm)
    · have hother : ¬ (ClusterStep.leaderChange cfg leaderID sub).ElectsSelf self :=
        fun hall => hself hall.1
      exact iff_of_true (h'.addMember sub _ _ _ fun heq => absurd heq hself) (Or.inr hother)
  · rw [if_neg helected]
    refine ⟨h'.valid, iff_of_true h' (Or.inr fun hall => helected ?_)⟩
    exact ⟨hall.2.1 ▸ hid, hall.2.1.trans hall.1.symm⟩

theorem advertises_announce [Unicode] {self cfg : Config} (haddr : self.nodeAddr ≠ "") {l : Leader}
    (h : Advertises self.nodeID self.nodeAddr l) (view : Leader) (isLeader : Bool) (s : JoinService)
    (c : Commits) (ours : cfg.nodeID = self.nodeID → cfg = self) :
    Advertises self.nodeID self.nodeAddr (l.announce cfg view isLeader s c) := by
  have hnames := App.announceSelfOnce_names cfg view isLeader
  have same : cfg.nodeID = self.nodeID →
      (if cfg.nodeAddr ≠ "" then cfg.nodeAddr else cfg.grpcAddr) = self.nodeAddr := by
    intro heq
    rw [ours heq, if_pos haddr]
  unfold announce
  split
  · exact h
  · exact h
  · rename_i id addr role hcommit
    rw [hcommit] at hnames
    exact h.addMember c.member id addr role fun heq => hnames.2.trans (same (hnames.1.symm.trans heq))
  · rename_i req hrejoin
    rw [hrejoin] at hnames
    refine JoinService.advertises_rejoin h s c req fun heq => ?_
    exact hnames.2.trans (same (hnames.1.symm.trans heq))

theorem advertises_clusterStep [Unicode] {self : Config} (hid : self.nodeID ≠ "")
    (haddr : self.nodeAddr ≠ "") {l : Leader} (h : Advertises self.nodeID self.nodeAddr l)
    (e : ClusterStep) (ours : e.Ours self) :
    (l.clusterStep e).fsm.applier.Valid ∧
      (Advertises self.nodeID self.nodeAddr (l.clusterStep e) ↔
        self.grpcAddr = self.nodeAddr ∨ ¬ e.ElectsSelf self) := by
  cases e with
  | leaderChange cfg leaderID sub => exact advertises_leaderChange hid h leaderID sub ours
  | announce cfg view isLeader s c =>
      have h' := advertises_announce haddr h view isLeader s c ours
      exact ⟨h'.valid, iff_of_true h' (Or.inr fun hall => hall)⟩
  | request s call c =>
      have h' := JoinService.advertises_serve h s call c ours
      exact ⟨h'.valid, iff_of_true h' (Or.inr fun hall => hall)⟩

end Consensus.Leader

open Consensus.Leader in
/-- A node that is listed under its `node.addr` stays so in every state exactly if its
`grpc.addr` is the same or no callback for its own election commits. -/
theorem advertised_address_kept_iff [Unicode] (self : Config) (hid : self.nodeID ≠ "")
    (haddr : self.nodeAddr ≠ "") (l : Leader) (reachable : l.fsm.applier.Reachable)
    (committed : ∃ m, listing l.fsm.applier self.nodeID = some m ∧ m.address = self.nodeAddr)
    (steps : List ClusterStep) (ours : ∀ e ∈ steps, e.Ours self) :
    Runs.Always clusterStep (KeepsAddress self) l steps ↔
      self.grpcAddr = self.nodeAddr ∨ ∀ e ∈ steps, ¬ e.ElectsSelf self := by
  have hstart : l.KeepsAddress self := by
    obtain ⟨m, hm, haddress⟩ := committed
    refine (keepsAddress_iff reachable.valid).mpr ⟨reachable.valid, fun n hn => ?_⟩
    cases hm.symm.trans hn
    exact haddress
  have hours : Runs.Along clusterStep (fun _ e => e.Ours self) l steps :=
    Runs.along_iff_forall_mem.mpr ours
  have hiff : Runs.Always clusterStep (KeepsAddress self) l steps ↔ Runs.Along clusterStep
      (fun _ e => self.grpcAddr = self.nodeAddr ∨ ¬ e.ElectsSelf self) l steps := by
    refine Runs.always_iff_along (fun l => l.fsm.applier.Valid) reachable.valid hstart ?_ hours
    intro l e valid hok hkeeps
    have hstep := advertises_clusterStep hid haddr ((keepsAddress_iff valid).mp hkeeps) e hok
    exact hstep.imp_right fun h => (keepsAddress_iff hstep.1).trans h
  rw [hiff, Runs.along_iff_forall_mem]
  by_cases hsame : self.grpcAddr = self.nodeAddr
  · exact iff_of_true (fun _ _ => Or.inl hsame) (Or.inl hsame)
  · simp only [hsame, false_or]

namespace App

open JoinService (allCommitted seedLeader seedService)

def n1 : Config where
  nodeID := "n1"
  nodeAddr := "10.0.0.1:7947"

/-- A node that sets `node.addr` and leaves `grpc.addr` at its default. -/
def n2 : Config where
  nodeID := "n2"
  nodeAddr := "10.0.0.2:7947"

/-- A node that has not joined yet sends its `node.addr`. -/
theorem address_requestJoin (cfg : Config) (now : Go.Time) (clusterID raftAddr token : String)
    (observer : Bool) :
    (requestJoin clusterID raftAddr (initMembership cfg now) token observer).address =
      cfg.nodeAddr := by
  have hvalid : (initMembership cfg now).Valid := Membership.Engine.valid_new _ _ _
  simp only [requestJoin, memberByID_eq hvalid]
  simp [initMembership, Membership.Engine.new]

def joinN2 : JoinRequest := requestJoin "c1" "10.0.0.2:7946" (initMembership n2 0) "secret" false

def joinAt (addr : String) : JoinRequest where
  nodeId := "n2"
  clusterId := "c1"
  address := addr
  raftAddr := "10.0.0.2:7946"
  joinToken := "secret"

theorem joinN2_eq : joinN2 = joinAt "10.0.0.2:7947" :=
  congrArg joinAt (address_requestJoin n2 0 "c1" "10.0.0.2:7946" "secret" false)

def electN2 : ClusterStep := .leaderChange n2 "n2" ⟨0, 0, .committed⟩

/-- `n2` has joined the cluster of `n1`. -/
def joinedN2 [Unicode] : Leader :=
  seedLeader.clusterStep (.request seedService (.join joinN2) allCommitted)

theorem joinedN2_eq [Unicode] : joinedN2 = seedLeader.clusterStep
    (.request seedService (.join (joinAt "10.0.0.2:7947")) allCommitted) := by
  rw [joinedN2, joinN2_eq]

theorem address_joinedN2 : letI := Unicode.ascii
    (joinedN2.fsm.applier.members.get "n2").map Membership.Member.address = some n2.nodeAddr := by
  rw [@joinedN2_eq .ascii]
  decide +kernel

theorem member_elected : letI := Unicode.ascii
    (joinedN2.clusterStep electN2).fsm.applier.members.get "n2" =
      some ⟨"n2", n2.grpcAddr, Membership.statusAlive, false, Membership.roleVoter, 0⟩ := by
  rw [@joinedN2_eq .ascii]
  decide +kernel

end App

open App Consensus.Leader in
theorem election_replaces_address : letI := Unicode.ascii
    (joinedN2.fsm.applier.members.get "n2").map Membership.Member.address = some n2.nodeAddr ∧
      (joinedN2.clusterStep electN2).fsm.applier.members.get "n2" =
        some ⟨"n2", n2.grpcAddr, Membership.statusAlive, false, Membership.roleVoter, 0⟩ ∧
      n2.nodeAddr ≠ "" ∧ n2.grpcAddr ≠ n2.nodeAddr ∧
      ¬ Runs.Always clusterStep (KeepsAddress n2) joinedN2 [electN2] := by
  refine ⟨address_joinedN2, member_elected, by decide, by decide, fun always => ?_⟩
  have hlisted := (Go.Map.mem_sorted _ _).mpr ⟨"n2", member_elected⟩
  exact absurd (always.last _ hlisted rfl) (by decide)

namespace App

open JoinService (allCommitted seedLeader seedService)

/-- `n1` announces itself, `n2` joins and is elected, and `n1` is marked dead. -/
def otherElected : List ClusterStep :=
  [.announce n1 seedLeader true seedService allCommitted,
    .request seedService (.join joinN2) allCommitted, electN2,
    .request seedService (.markDead "n1") allCommitted]

theorem ours_otherElected : ∀ e ∈ otherElected, e.Ours n1 := by
  simp only [otherElected, List.forall_mem_cons, List.not_mem_nil, false_implies, implies_true,
    and_true]
  refine ⟨fun _ => rfl, fun hid => ?_, fun hid => ?_, trivial⟩
  · rw [joinN2_eq] at hid
    exact absurd hid (by decide)
  · exact absurd hid (by decide)

end App

open App Consensus.Leader in
theorem advertised_address_other_elected : letI := Unicode.ascii
    Runs.Always clusterStep (KeepsAddress n1) JoinService.seedLeader otherElected := by
  refine (@advertised_address_kept_iff .ascii n1 (by decide) (by decide) JoinService.seedLeader
    ⟨0, "n1", "10.0.0.1:7947", [], rfl⟩ ⟨⟨"10.0.0.1:7947", Membership.statusAlive,
      Membership.roleVoter⟩, by decide, rfl⟩ otherElected ours_otherElected).mpr (Or.inr ?_)
  simp [otherElected, electN2, ClusterStep.ElectsSelf, n1, n2]

end Clusdr
