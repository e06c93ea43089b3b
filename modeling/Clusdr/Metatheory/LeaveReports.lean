import Clusdr.Core.ControlService
import Clusdr.Metatheory.LeaveAttempts

/-!
How the operator reads the answer to `RequestLeave`. It takes an error for success
when the text says that there is nothing left to do; the text also holds the id of the
node and the reason Raft gave, which may say so by accident.
-/

namespace Clusdr

open Consensus (Leader Outcome)
open JoinService (leaveMember listing)
open Operator (Runtime.leaveResult Runtime.tells)

/-- The text says, on purpose or not, what `Runtime.Leave` takes for success. -/
def Mentions (s : String) : Prop := Runtime.tells ["not found", "already"] s = true

instance (s : String) : Decidable (Mentions s) := inferInstanceAs (Decidable (_ = _))

theorem mentions_iff {s : String} : Mentions s ↔
    Go.contains (Go.toLower s) "not found" = true ∨ Go.contains (Go.toLower s) "already" = true := by
  simp [Mentions, Runtime.tells]

/-- A text before the id in which nothing is mentioned, and no mention starts. -/
structure Quiet (lead : String) : Prop where
  notFound : Go.Clear "not found".toList (Go.toLower lead).toList
  already : Go.Clear "already".toList (Go.toLower lead).toList

theorem mentions_reason {lead : String} (quiet : Quiet lead) (id err : String) :
    Mentions (lead ++ id ++ ": " ++ err) ↔ Mentions id ∨ Mentions err := by
  have hnotFound := Go.contains_reason quiet.notFound (by decide +kernel) (by decide +kernel) id err
  have halready := Go.contains_reason quiet.already (by decide +kernel) (by decide +kernel) id err
  rw [mentions_iff, mentions_iff, mentions_iff, hnotFound, halready]
  exact or_or_or_comm

/-- How the errors begin that Raft is the reason for. -/
def internalText (what : String) : String :=
  "rpc error: code = " ++ Rpc.Code.internal.text ++ " desc = " ++ what

theorem quiet_drop : Quiet (internalText ("apply drop_member: " ++ "raft apply drop_member ")) :=
  ⟨by decide +kernel, by decide +kernel⟩

theorem quiet_remove : Quiet (internalText ("remove raft server: " ++ "raft remove server ")) :=
  ⟨by decide +kernel, by decide +kernel⟩

theorem text_internal (what op id err : String) :
    Rpc.Status.text ⟨.internal, what ++ (op ++ id ++ ": " ++ err)⟩ =
      internalText (what ++ op) ++ id ++ ": " ++ err := by
  unfold Rpc.Status.text internalText
  generalize "rpc error: code = " ++ Rpc.Code.internal.text ++ " desc = " = lead
  simp only [String.append_assoc]

theorem mentions_internal {what op : String} (quiet : Quiet (internalText (what ++ op)))
    (id err : String) :
    Mentions (Rpc.Status.text ⟨.internal, what ++ (op ++ id ++ ": " ++ err)⟩) ↔
      Mentions id ∨ Mentions err := by
  rw [text_internal]
  exact mentions_reason quiet id err

variable [Go.Unicode]

/-- `RequestLeave` of the leader, or of a daemon that passes it on to the leader; `lost`
is the error of a call that did not come back. -/
def requestLeave (members : Membership.Engine) (isLeader : Bool) (lost : Option Rpc.Status)
    (l : Leader) (c : Commits) (nodeID : String) : Except Rpc.Status RequestResponse :=
  ControlService.request members isLeader nodeID (fun id => (listing (leaveMember l c id)).2)
    fun _ id => match lost with
      | some e => .error e
      | none => (listing (leaveMember l c id)).2.map fun members => { changed := true, members }

/-- Raft refuses, for the reason `err`, the first of the two changes of a leave, or the
second after the first went through. -/
def Refuses (l : Leader) (c : Commits) (id err : String) : Prop :=
  (∃ logged, c.member.outcome = .failed err logged ∧ (l.hasServer id = true ∨
      (memberByID l.fsm.applier id).isSome ∧ l.fsm.applier.left id = false)) ∨
    c.member.outcome = .committed ∧ l.hasServer id = true ∧
      ∃ logged, c.raft = .failed err logged

def dropRefused (id err : String) : Rpc.Status :=
  ⟨.internal, "apply drop_member: " ++ ("raft apply drop_member " ++ id ++ ": " ++ err)⟩

def removeRefused (id err : String) : Rpc.Status :=
  ⟨.internal, "remove raft server: " ++ ("raft remove server " ++ id ++ ": " ++ err)⟩

/-- The errors of a leave that Raft refuses. -/
def Refusal (id err : String) (e : Rpc.Status) : Prop :=
  e = dropRefused id err ∨ e = removeRefused id err

omit [Go.Unicode] in
theorem mentions_refusal {id err : String} {e : Rpc.Status} (h : Refusal id err e) :
    Mentions e.text ↔ Mentions id ∨ Mentions err := by
  rcases h with rfl | rfl
  · exact mentions_internal quiet_drop id err
  · exact mentions_internal quiet_remove id err

theorem applyDropMember_error {l l' : Leader} {s : Consensus.Submission} {id e : String}
    (h : l.applyDropMember s id = (l', .error e)) :
    ∃ err logged, s.outcome = .failed err logged ∧
      e = "raft apply drop_member " ++ id ++ ": " ++ err := by
  cases hs : s.outcome with
  | committed => simp [Leader.applyDropMember, Consensus.Fsm.applyDropMember,
      Consensus.Fsm.applyMember, hs] at h
  | failed err logged =>
      simp only [Leader.applyDropMember, Consensus.Fsm.applyDropMember,
        Consensus.Fsm.applyMember, hs, Prod.mk.injEq, Except.error.injEq] at h
      refine ⟨err, logged, rfl, ?_⟩
      rw [← h.2]
      rfl

omit [Go.Unicode] in
theorem removeVoter_error {l l' : Leader} {outcome : Outcome} {id e : String}
    (h : l.removeVoter outcome id = (l', .error e)) :
    ∃ err logged, outcome = .failed err logged ∧ e = "raft remove server " ++ id ++ ": " ++ err := by
  cases outcome with
  | committed => simp [Leader.removeVoter, Leader.change] at h
  | failed err logged =>
      simp only [Leader.removeVoter, Leader.change, Prod.mk.injEq, Except.error.injEq] at h
      exact ⟨err, logged, rfl, h.2.symm⟩

theorem committed_of_dropped {l l' : Leader} {s : Consensus.Submission} {id : String} {u : Unit}
    (h : l.applyDropMember s id = (l', .ok u)) : s.outcome = .committed := by
  cases hs : s.outcome with
  | committed => rfl
  | failed err logged =>
      simp [Leader.applyDropMember, Consensus.Fsm.applyDropMember, Consensus.Fsm.applyMember,
        hs] at h

theorem applyDropMember_committed {l : Leader} {s : Consensus.Submission}
    (committed : s.outcome = .committed) (id : String) :
    ∃ l', l.applyDropMember s id = (l', .ok ()) := by
  simp [Leader.applyDropMember, Consensus.Fsm.applyDropMember, Consensus.Fsm.applyMember, committed]

/-- A served `Leave` fails for an unknown member, or because Raft refuses it. -/
theorem leaveMember_failure {l : Leader} {c : Commits} {id : String} {e : Rpc.Status}
    (h : (leaveMember l c id).2 = .error e) :
    e = ⟨.notFound, "member " ++ id ++ " not found"⟩ ∨
      ∃ err, Refuses l c id err ∧ Refusal id err e := by
  unfold leaveMember at h
  dsimp only at h
  split at h
  · cases h
    exact .inl rfl
  rename_i hknown
  split at h
  · cases h
  rename_i hopen
  split at h
  · rename_i hdrop
    cases h
    obtain ⟨err, logged, hfailed, rfl⟩ := applyDropMember_error hdrop
    refine .inr ⟨err, .inl ⟨logged, hfailed, ?_⟩, .inl rfl⟩
    cases hserver : l.hasServer id with
    | true => exact .inl rfl
    | false =>
        have hleft : l.fsm.applier.left id = false := by simpa [hserver] using hopen
        refine .inr ⟨Option.isSome_iff_ne_none.mpr ?_, hleft⟩
        simpa [hserver, hleft] using hknown
  · rename_i hdrop
    split at h
    · rename_i hserver
      split at h
      · rename_i hremove
        cases h
        obtain ⟨err, logged, hfailed, rfl⟩ := removeVoter_error hremove
        refine .inr ⟨err, .inr ⟨?_, hserver, logged, hfailed⟩, .inr rfl⟩
        exact committed_of_dropped hdrop
      · cases h
    · cases h

theorem leaveMember_notFound {l : Leader} (valid : l.fsm.applier.Valid) {c : Commits}
    {id msg : String} (h : (leaveMember l c id).2 = .error ⟨.notFound, msg⟩) :
    (leaveMember l c id).1 = l := by
  have hcase := JoinService.leaveMember_case valid c id
  generalize leaveMember l c id = res at hcase h
  cases hcase with
  | unknown => rfl
  | already | dropped | removed => cases h
  | dropFailed | removeFailed =>
      have hcode := congrArg Rpc.Status.code (Except.error.inj h)
      cases hcode

/-- A leave that Raft refuses fails, and the error tells Raft's reason. -/
theorem leaveMember_refused {l : Leader} {c : Commits} {id err : String}
    (refuses : Refuses l c id err) : ∃ e, (leaveMember l c id).2 = .error e ∧ Refusal id err e := by
  rcases refuses with ⟨logged, failed, known⟩ | ⟨committed, server, logged, failed⟩
  · refine ⟨dropRefused id err, ?_, .inl rfl⟩
    have hopen : (!(memberByID l.fsm.applier id).isSome && !l.hasServer id &&
        !l.fsm.applier.left id) = false ∧ (l.fsm.applier.left id && !l.hasServer id) = false := by
      rcases known with server | ⟨listed, open'⟩
      · simp [server]
      · simp [listed, open']
    unfold leaveMember
    simp only [hopen, Bool.false_eq_true, if_false, Leader.applyDropMember,
      Consensus.Fsm.applyDropMember, Consensus.Fsm.applyMember, failed]
    rfl
  · refine ⟨removeRefused id err, ?_, .inr rfl⟩
    obtain ⟨l', hdrop⟩ := applyDropMember_committed (l := l) committed id
    unfold leaveMember
    simp only [server, Bool.not_true, Bool.and_false, Bool.false_and, Bool.false_eq_true, if_false,
      if_true, hdrop, Leader.removeVoter, Leader.change, failed]
    rfl

/-- The request gets to the leader. -/
def Reaches (members : Membership.Engine) (isLeader : Bool) (lost : Option Rpc.Status) : Prop :=
  isLeader = true ∨ (∃ id addr, dialLeader members = .forward id addr) ∧ lost = none

theorem requestLeave_reaches {members : Membership.Engine} {isLeader : Bool}
    {lost : Option Rpc.Status} (reaches : Reaches members isLeader lost) (l : Leader)
    (c : Commits) {id : String} (ne : id ≠ "") :
    requestLeave members isLeader lost l c id =
      (listing (leaveMember l c id)).2.map fun members => { changed := true, members } := by
  rcases reaches with rfl | ⟨⟨leader, addr, hdial⟩, rfl⟩
  · simp [requestLeave, ControlService.request, ne]
  · cases isLeader <;> simp [requestLeave, ControlService.request, ne, hdial]

/-- The answer is taken for success when `Leave` succeeded or its error reads so. -/
theorem leaveResult_iff (l : Leader) (c : Commits) (id : String) :
    Runtime.leaveResult ((listing (leaveMember l c id)).2.map fun members =>
        { changed := true, members }) = .ok () ↔
      (leaveMember l c id).2 = .ok () ∨
        ∃ e, (leaveMember l c id).2 = .error e ∧ Mentions e.text := by
  cases h : (leaveMember l c id).2 with
  | ok u => simp [listing, h, Except.map, Runtime.leaveResult]
  | error e => simp [listing, h, Except.map, Runtime.leaveResult, Mentions]

/-- What the operator takes for a completed leave is one, unless Raft refused a change
and the node's id or the reason reads like success; then it is always taken for one. -/
theorem operator_reads_leave {l : Leader} (valid : l.fsm.applier.Valid) (c : Commits)
    {id : String} (ne : id ≠ "") {members : Membership.Engine} {isLeader : Bool}
    {lost : Option Rpc.Status} (reaches : Reaches members isLeader lost) :
    (Runtime.leaveResult (requestLeave members isLeader lost l c id) = .ok () →
      (¬ (leaveMember l c id).1.Lists id ∧ ¬ (leaveMember l c id).1.Serves id) ∨
        ∃ err, Refuses l c id err ∧ (Mentions id ∨ Mentions err)) ∧
      ∀ err, Refuses l c id err → Mentions id ∨ Mentions err →
        Runtime.leaveResult (requestLeave members isLeader lost l c id) = .ok () := by
  have served : l.hasServer id = (l.servers.get id).isSome := by simp [Leader.hasServer, ne]
  rw [requestLeave_reaches reaches l c ne, leaveResult_iff]
  constructor
  · rintro (hleft | ⟨e, he, hreads⟩)
    · exact .inl (gone_of_left valid served hleft)
    · rcases leaveMember_failure he with rfl | ⟨err, refuses, herr⟩
      · -- Nothing was submitted: the leader's state is the one it found.
        have hgone := unknown_of_notFound valid served he
        have hsame : (leaveMember l c id).1 = l := leaveMember_notFound valid he
        exact .inl (hsame.symm ▸ hgone)
      · exact .inr ⟨err, refuses, (mentions_refusal herr).mp hreads⟩
  · intro err refuses hreads
    obtain ⟨e, he, herr⟩ := leaveMember_refused refuses
    exact .inr ⟨e, he, (mentions_refusal herr).mpr hreads⟩

/-- Raft's answer to a change while the leader's daemon goes down. -/
def shutdownCommits : Commits := ⟨.committed, ⟨0, 0, .failed "raft is already shutdown" false⟩⟩

omit [Go.Unicode] in
open JoinService (seedLeader) in
theorem operator_reads_leave_shutdown : letI := Go.Unicode.ascii
    Runtime.leaveResult
        (requestLeave seedLeader.fsm.applier true none seedLeader shutdownCommits "n1") = .ok () ∧
      (leaveMember seedLeader shutdownCommits "n1").1.Lists "n1" := by
  let := Go.Unicode.ascii
  have hserver : seedLeader.hasServer "n1" = true := by decide
  have hreads : Mentions "raft is already shutdown" := by decide +kernel
  refine ⟨(operator_reads_leave (Membership.Engine.valid_new _ _ _) shutdownCommits (by decide)
    (.inl rfl)).2 _ (.inl ⟨_, rfl, .inl hserver⟩) (.inr hreads), ?_⟩
  have hsame : (leaveMember seedLeader shutdownCommits "n1").1 = seedLeader := by
    simp [leaveMember, hserver, shutdownCommits, Leader.applyDropMember,
      Consensus.Fsm.applyDropMember, Consensus.Fsm.applyMember]
  rw [hsame]
  exact rfl

end Clusdr
