import Clusdr.Core.EventBus
import Clusdr.Core.Heartbeat
import Clusdr.Core.Presence
import Clusdr.Metatheory.MemberConvergence
import Clusdr.Metatheory.Submissions
import Clusdr.Runs.Along

/-!
The loops that judge whether a node lives: the keepers of all nodes, and on the
leader the lease expirer, the watcher of expiries and the heartbeat monitor. They
meet in the state machine and on the bus only. Two of them mark a member dead and
none lists a member, so a member that was marked stays dead, whatever its keeper
achieves afterwards.
-/

namespace Clusdr

open Go (Time Duration Unicode)
open Events (Event)
open EventBus (Bus Subscriber)
open Consensus (Command Fsm Listing Submission)
open Clusdr.Heartbeat (Monitor)
open Clusdr.Membership (Member statusAlive statusDead)
open Presence (Keeper RaftHolder.grantCommand RaftHolder.grantResult RaftHolder.renewCommand
  RaftHolder.renewResult leaseName)

/-- What the log did to a member or to its own presence lease. -/
inductive Note where
  | removed (id : String)
  | refreshed (id : String)
deriving DecidableEq

def Note.id : Note → String
  | .removed id | .refreshed id => id

/-- How far a call to the leader got. -/
inductive Delivery where
  | lost
  | unanswered
  | answered
deriving DecidableEq

/-- The leader, the keepers of all nodes by id, what the expirer and the monitor
have yet to do in their current tick, and what the log did so far; nothing in the
program reads the last. -/
structure Liveness where
  fsm : Fsm
  leaseTTL : Duration
  bus : Bus
  watcher : UInt64
  keepers : String → Keeper
  due : List (String × UInt64)
  monitor : Monitor
  todo : List Member
  notes : List Note

inductive LivenessStep where
  | renew (id : String) (delivery : Delivery) (sub : Submission)
  | grant (id : String) (delivery : Delivery) (sub : Submission)
  /-- The expirer lists the due leases, and submits one expiry. -/
  | scan (now : Time)
  | expire (sub : Submission)
  /-- The watcher takes an event. -/
  | watch (sub : Submission)
  /-- The monitor lists the members, and pings one. -/
  | tick
  | probe (reached : Bool) (sub : Submission)

namespace Liveness

def selfID (s : Liveness) : String := s.fsm.applier.selfID

def service (s : Liveness) : LeaseService := ⟨s.fsm.applier, some true, s.leaseTTL⟩

/-- The presence leases start ungranted and nothing is under way. -/
def start (fsm : Fsm) (leaseTTL : Duration) (b : Bus) (presenceTTL : String → Duration)
    (maxMisses : Int) : Liveness where
  fsm := fsm
  leaseTTL := leaseTTL
  bus := (b.subscribe 64).1
  watcher := (b.subscribe 64).2
  keepers id := .new (presenceTTL id)
  due := []
  monitor := ⟨maxMisses, ∅⟩
  todo := []
  notes := []

variable [Unicode]

def noteOf (cmd : Command) (response : Consensus.Response) : List Note :=
  match cmd.kind, response with
  | .removeMember, _ => [.removed cmd.id]
  | .leaseGrant, .lock res | .leaseRenew, .lock res =>
      if res.acquired ∧ cmd.name = leaseName cmd.id then [.refreshed cmd.id] else []
  | _, _ => []

/-- A submission: if it reaches the log, the state machine applies the command and
publishes its events before it applies another. -/
def submit (s : Liveness) (sub : Submission) (cmd : Command) : Liveness :=
  if sub.logged then
    let (fsm, response, emitted) := s.fsm.applyCommand sub.appliedAt cmd
    { s with
      fsm
      bus := emitted.foldl (fun b e => b.publish sub.appliedAt e) s.bus
      notes := s.notes ++ noteOf cmd response }
  else s

/-- The state machine moves as the calls of the node move it. -/
theorem fsm_submit_applyLock (s : Liveness) (sub : Submission) {cmd : Command}
    (known : cmd.kind ∈ Consensus.CommandKind.known) :
    (s.submit sub cmd).fsm = (s.fsm.applyLock sub cmd).1 := by
  obtain ⟨now, appliedAt, outcome⟩ := sub
  simp only [submit, Fsm.applyLock, Fsm.apply_encode known]
  cases outcome with
  | failed err logged => cases logged <;> rfl
  | committed =>
      simp only [Submission.logged, Consensus.Outcome.logged, if_true]
      split
      · split <;> rfl
      · rfl

theorem fsm_submit_applyMember (s : Liveness) (sub : Submission) (op : String) {cmd : Command}
    (known : cmd.kind ∈ Consensus.CommandKind.known) :
    (s.submit sub cmd).fsm = (s.fsm.applyMember sub op cmd).1 := by
  rw [Fsm.applyMember_fst known, submit]
  split <;> rfl

/-- A keeper's call, and what it makes of the result. -/
def call (s : Liveness) (id : String) (delivery : Delivery) (sub : Submission)
    (cmd : Option Command) (result : Command → Keeper) (failed : Keeper) : Liveness :=
  match cmd, delivery with
  | none, _ | some _, .lost => { s with keepers := Function.update s.keepers id failed }
  | some cmd, .unanswered =>
      { s.submit sub cmd with keepers := Function.update s.keepers id failed }
  | some cmd, .answered =>
      { s.submit sub cmd with keepers := Function.update s.keepers id (result cmd) }

/-- `removeDeadMember`. -/
def removeDead (s : Liveness) (sub : Submission) (id : Option String) : Liveness :=
  match id with
  | none => s
  | some id =>
      if Presence.removesDead s.selfID id true then s.submit sub { kind := .removeMember, id } else s

def step (s : Liveness) : LivenessStep → Liveness
  | .renew id delivery sub =>
      let k := s.keepers id
      s.call id delivery sub
        (RaftHolder.renewCommand s.service s.fsm.leases (id = s.selfID) sub.now (leaseName id) id
          k.token k.ttl)
        (fun cmd => k.renewed (RaftHolder.renewResult s.fsm sub cmd)) (k.renewed false)
  | .grant id delivery sub =>
      let k := s.keepers id
      s.call id delivery sub
        (RaftHolder.grantCommand s.service (id = s.selfID) sub.now (leaseName id) id k.ttl)
        (fun cmd => k.granted (RaftHolder.grantResult s.fsm sub cmd)) (k.granted none)
  | .scan now =>
      { s with due := (s.fsm.leases.map fun t => Leases.expirerTick t true now).getD [] }
  | .expire sub =>
      match s.due with
      | [] => s
      | (name, token) :: due => { s.submit sub { kind := .leaseExpire, name, token } with due }
  | .watch sub =>
      match s.bus.receive s.watcher with
      | none => s
      | some (e, bus) => { s with bus }.removeDead sub (Presence.onExpired e s.selfID true)
  | .tick => { s with todo := s.fsm.applier.membersList }
  | .probe reached sub =>
      match s.todo with
      | [] => s
      | mem :: todo =>
          let (monitor, dead) := s.monitor.probe s.selfID mem reached
          { s with monitor, todo }.removeDead sub dead

def queue (s : Liveness) : List Event := ((s.bus.subs.get s.watcher).map Subscriber.ch).getD []

/-- Each loop in its own order; the leader's keeper calls its own node. -/
def May (s : Liveness) : LivenessStep → Prop
  | .renew id delivery _ =>
      id ≠ "" ∧ (s.keepers id).token ≠ 0 ∧ (s.keepers id).regranting = false ∧
        (id = s.selfID → delivery = .answered)
  | .grant id delivery _ =>
      id ≠ "" ∧ ((s.keepers id).token = 0 ∨ (s.keepers id).regranting = true) ∧
        (id = s.selfID → delivery = .answered)
  | .scan _ => s.due.isEmpty
  | .expire _ => s.due.isEmpty = false
  | .watch _ => s.queue.isEmpty = false
  | .tick => s.todo.isEmpty
  | .probe _ _ => s.todo.isEmpty = false

/-- No expiry waits for the watcher. -/
def Settled (s : Liveness) : Prop := ∀ e ∈ s.queue, e.type ≠ Events.typeLeaseExpired

/-- The lease of the node was granted or renewed after its last removal. -/
def Refreshed (s : Liveness) (id : String) : Prop :=
  (s.notes.filter fun n => n.id = id).getLast? = some (.refreshed id)

/-- Members other than the leader whose lease is fresher than their last removal
are alive. -/
def HoldersAlive (s : Liveness) : Prop :=
  s.Settled → ∀ id m, s.fsm.applier.members.get id = some m → id ≠ s.selfID → s.Refreshed id →
    m.status = statusAlive

/-- None of them was ever removed. -/
def NoneReturned (s : Liveness) : Prop :=
  s.Settled → ∀ id m, s.fsm.applier.members.get id = some m → id ≠ s.selfID → s.Refreshed id →
    .removed id ∉ s.notes

/-- A listed member is alive exactly if the log never removed it. -/
structure Tracked (s : Liveness) : Prop where
  valid : s.fsm.applier.Valid
  alive : ∀ id m, s.fsm.applier.members.get id = some m →
    (m.status = statusAlive ↔ .removed id ∉ s.notes)

omit [Unicode] in
theorem removed_mem_noteOf {cmd : Command} {response : Consensus.Response} {id : String} :
    .removed id ∈ noteOf cmd response ↔ cmd.kind = .removeMember ∧ cmd.id = id := by
  unfold noteOf
  split
  · rename_i hkind
    simp [hkind, eq_comm]
  · rename_i hkind
    split <;> simp [hkind]
  · rename_i hkind
    split <;> simp [hkind]
  · rename_i hremove _ _
    simp only [List.not_mem_nil, false_iff, not_and]
    intro hkind
    exact absurd hkind hremove

omit [Unicode] in
/-- Marking dead leaves a member dead, as it was or anew. -/
theorem not_alive_of_removed {cmd : Command} (hkind : cmd.kind = .removeMember)
    {l : Option Listing} {l' : Listing} (h : cmd.relist cmd.id l = some l') :
    l'.status ≠ statusAlive := by
  simp only [Command.relist, hkind, ne_eq, not_true_eq_false, if_false] at h
  obtain ⟨l, -, rfl⟩ := Option.map_eq_some_iff.mp h
  split
  · rename_i hdead
    intro halive
    rw [halive] at hdead
    exact absurd hdead (by decide)
  · have hdead : statusDead ≠ statusAlive := by decide
    exact hdead

omit [Unicode] in
theorem relist_of_not_removed {cmd : Command} {id : String} (hadd : cmd.kind ≠ .addMember)
    (hdrop : cmd.kind ≠ .dropMember) (hremove : ¬ (cmd.kind = .removeMember ∧ cmd.id = id))
    (l : Option Listing) : cmd.relist id l = l := by
  unfold Command.relist
  split
  · rfl
  · rename_i hid
    rw [not_not] at hid
    split
    · rename_i hkind
      exact absurd hkind hadd
    · rename_i hkind
      exact absurd ⟨hkind, hid⟩ hremove
    · rename_i hkind
      exact absurd hkind hdrop
    · rfl

theorem tracked_submit {s : Liveness} (h : s.Tracked) (sub : Submission) (cmd : Command)
    (hadd : cmd.kind ≠ .addMember) (hdrop : cmd.kind ≠ .dropMember) :
    (s.submit sub cmd).Tracked := by
  unfold submit
  split
  · refine ⟨Consensus.valid_applyCommand h.valid sub.appliedAt cmd, fun id m hm => ?_⟩
    have hlisting := Consensus.listing_applyCommand h.valid sub.appliedAt cmd id
    rw [Consensus.listing, hm, Option.map_some] at hlisting
    rw [List.mem_append, removed_mem_noteOf]
    by_cases hremove : cmd.kind = .removeMember ∧ cmd.id = id
    · obtain ⟨hkind, rfl⟩ := hremove
      exact iff_of_false (not_alive_of_removed hkind hlisting.symm)
        (not_not_intro (Or.inr ⟨hkind, rfl⟩))
    · rw [relist_of_not_removed hadd hdrop hremove] at hlisting
      obtain ⟨n, hn, hlist⟩ := Option.map_eq_some_iff.mp hlisting.symm
      have hstatus : n.status = m.status := congrArg Listing.status hlist
      rw [← hstatus, h.alive id n hn]
      simp [hremove]
  · exact h

theorem kind_grantCommand {srv : LeaseService} {isLeader : Bool} {now : Time} {name owner : String}
    {ttl : Duration} {cmd : Command}
    (h : RaftHolder.grantCommand srv isLeader now name owner ttl = some cmd) :
    cmd.kind = .leaseGrant := by
  unfold RaftHolder.grantCommand at h
  split at h
  · cases h; rfl
  · split at h
    · cases h; rfl
    · cases h

theorem kind_renewCommand {srv : LeaseService} {table : Option Leases.Table} {isLeader : Bool}
    {now : Time} {name owner : String} {token : UInt64} {ttl : Duration} {cmd : Command}
    (h : RaftHolder.renewCommand srv table isLeader now name owner token ttl = some cmd) :
    cmd.kind = .leaseRenew := by
  unfold RaftHolder.renewCommand at h
  split at h
  · cases h; rfl
  · split at h
    · cases h; rfl
    · cases h

theorem tracked_call {s : Liveness} (h : s.Tracked) (id : String) (delivery : Delivery)
    (sub : Submission) {cmd : Option Command} (result : Command → Keeper) (failed : Keeper)
    (hadd : ∀ c, cmd = some c → c.kind ≠ .addMember)
    (hdrop : ∀ c, cmd = some c → c.kind ≠ .dropMember) :
    (s.call id delivery sub cmd result failed).Tracked := by
  cases cmd with
  | none => exact ⟨h.valid, h.alive⟩
  | some cmd =>
      have hsubmit := tracked_submit h sub cmd (hadd cmd rfl) (hdrop cmd rfl)
      cases delivery with
      | lost => exact ⟨h.valid, h.alive⟩
      | unanswered => exact ⟨hsubmit.valid, hsubmit.alive⟩
      | answered => exact ⟨hsubmit.valid, hsubmit.alive⟩

theorem tracked_removeDead {s : Liveness} (h : s.Tracked) (sub : Submission) (id : Option String) :
    (s.removeDead sub id).Tracked := by
  unfold removeDead
  split
  · exact h
  · split
    · exact tracked_submit h sub _ nofun nofun
    · exact h

theorem tracked_step {s : Liveness} (h : s.Tracked) (ev : LivenessStep) : (s.step ev).Tracked := by
  cases ev with
  | renew id delivery sub =>
      refine tracked_call h id delivery sub _ _ (fun c hc => ?_) fun c hc => ?_ <;>
        rw [kind_renewCommand hc] <;> exact nofun
  | grant id delivery sub =>
      refine tracked_call h id delivery sub _ _ (fun c hc => ?_) fun c hc => ?_ <;>
        rw [kind_grantCommand hc] <;> exact nofun
  | scan now => exact ⟨h.valid, h.alive⟩
  | tick => exact ⟨h.valid, h.alive⟩
  | expire sub =>
      simp only [step]
      split
      · exact h
      · rename_i name token due _
        have hsubmit := tracked_submit h sub { kind := .leaseExpire, name, token } nofun nofun
        exact ⟨hsubmit.valid, hsubmit.alive⟩
  | watch sub =>
      simp only [step]
      split
      · exact h
      · rename_i e bus _
        have hreceived : Tracked { s with bus } := ⟨h.valid, h.alive⟩
        exact tracked_removeDead hreceived sub _
  | probe reached sub =>
      simp only [step]
      split
      · exact h
      · rename_i mem todo _
        have hprobed : Tracked { s with monitor := (s.monitor.probe s.selfID mem reached).1, todo } :=
          ⟨h.valid, h.alive⟩
        exact tracked_removeDead hprobed sub _

omit [Unicode] in
theorem holdersAlive_iff {s : Liveness} (h : s.Tracked) : s.HoldersAlive ↔ s.NoneReturned := by
  refine imp_congr_right fun _ => forall₃_congr fun id m hm => ?_
  rw [h.alive id m hm]

end Liveness

end Clusdr
