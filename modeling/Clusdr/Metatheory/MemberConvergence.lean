import Clusdr.Metatheory.FsmTables
import Clusdr.Metatheory.MemberEngine

/-!
Two nodes that apply the same log list the same members. Their engines start
apart, each listing itself, and see leader changes at different points. What an
engine lists under one id is a fold over the commands that name the id, and an
add or a drop of the id forgets everything before it.
-/

namespace Clusdr.Consensus

open Go (Time Unicode)
open Clusdr.Membership (Engine Member Status statusAlive statusDead normalizeRole
  normalizeRole_idem normalizeStatus)

/-- What a node lists under an id: address, status and role. -/
structure Listing where
  address : String
  status : Status
  role : String
deriving DecidableEq

def listingOf (m : Member) : Listing := ⟨m.address, m.status, m.role⟩

/-- What an engine lists under `id`. -/
def listing (e : Engine) (id : String) : Option Listing := (e.members.get id).map listingOf

/-- What a command leaves listed under `id`. -/
def Command.relist (cmd : Command) (id : String) (l : Option Listing) : Option Listing :=
  if cmd.id ≠ id then l
  else match cmd.kind with
    | .addMember =>
        if id = "" then l else some ⟨cmd.address, statusAlive, normalizeRole cmd.role⟩
    | .removeMember =>
        l.map fun l => if normalizeStatus l.status = statusDead then l
          else { l with status := statusDead }
    | .dropMember => none
    | _ => l

variable [Unicode]

theorem applyCommand_applier (f : Fsm) (now : Time) (cmd : Command) :
    (f.applyCommand now cmd).1.applier = (f.memberCommand now cmd).1.applier := by
  obtain ⟨e, locks, leases⟩ := f
  unfold Fsm.applyCommand Fsm.memberCommand
  cases cmd.kind with
  | lockAcquire | lockRelease | lockRenew | lockExpire => cases locks <;> rfl
  | leaseGrant | leaseRenew | leaseRevoke | leaseExpire => cases leases <;> rfl
  | addMember | removeMember | dropMember | unknown => rfl

/-- The engine operation a member command stands for. -/
def Command.memberAction (cmd : Command) (now : Time) : Option Membership.Action :=
  match cmd.kind with
  | .addMember => some (.joinAs now cmd.id cmd.address (normalizeRole cmd.role))
  | .removeMember => some (.markDead cmd.id)
  | .dropMember => some (.leave cmd.id)
  | _ => none

omit [Unicode] in
theorem memberCommand_act (f : Fsm) (now : Time) (cmd : Command) :
    (f.memberCommand now cmd).1.applier =
      ((cmd.memberAction now).map f.applier.act).getD f.applier := by
  unfold Fsm.memberCommand Command.memberAction
  cases cmd.kind with
  | addMember =>
      simp only [Option.map_some, Option.getD_some, Engine.act]
      rcases f.applier.joinAs now cmd.id cmd.address (normalizeRole cmd.role) with
        ⟨e, _ | _, _⟩ <;> rfl
  | _ => rfl

theorem valid_applyCommand {f : Fsm} (valid : f.applier.Valid) (now : Time) (cmd : Command) :
    (f.applyCommand now cmd).1.applier.Valid := by
  rw [applyCommand_applier, memberCommand_act]
  cases cmd.memberAction now with
  | none => exact valid
  | some a => exact Engine.valid_act valid a

theorem listing_applyCommand {f : Fsm} (valid : f.applier.Valid) (now : Time) (cmd : Command)
    (id : String) :
    listing (f.applyCommand now cmd).1.applier id = cmd.relist id (listing f.applier id) := by
  rw [applyCommand_applier, memberCommand_act]
  unfold Command.memberAction Command.relist
  cases cmd.kind with
  | addMember =>
      simp only [Option.map_some, Option.getD_some, Engine.act, Engine.joinAs, listing]
      by_cases hid : cmd.id = id
      · subst hid
        by_cases hempty : cmd.id = ""
        · simp [hempty]
        · simp [hempty, listingOf, normalizeRole_idem]
      · have hne : id ≠ cmd.id := Ne.symm hid
        by_cases hempty : cmd.id = ""
        · rw [if_pos hempty, if_pos hid]
        · simp [hempty, hid, hne, Go.Map.get_set]
  | removeMember =>
      simp only [Option.map_some, Option.getD_some, Engine.act, Engine.markDead, listing]
      by_cases hid : cmd.id = id
      · subst hid
        cases hm : f.applier.members.get cmd.id with
        | none => simp [hm]
        | some m =>
            by_cases hdead : normalizeStatus m.status = statusDead
            · simp [hm, hdead, listingOf]
            · simp [hdead, listingOf]
      · have hne : id ≠ cmd.id := Ne.symm hid
        cases hm : f.applier.members.get cmd.id with
        | none => simp [hid]
        | some m =>
            by_cases hdead : normalizeStatus m.status = statusDead <;>
              simp [hid, hne, hdead, Go.Map.get_set]
  | dropMember =>
      simp only [Option.map_some, Option.getD_some, Engine.act, Engine.leave, listing]
      by_cases hid : cmd.id = id
      · subst hid
        cases hd : f.applier.dropped.get cmd.id with
        | none => cases hm : f.applier.members.get cmd.id <;> simp [hm]
        | some u =>
            have hgone := valid.gone cmd.id (by simp [Engine.left, hd])
            simp [hgone]
      · have hne : id ≠ cmd.id := Ne.symm hid
        cases f.applier.dropped.get cmd.id <;> cases f.applier.members.get cmd.id <;>
          simp [hid, hne, Go.Map.get_delete]
  | _ => simp

omit [Unicode] in
theorem listing_setLeader (e : Engine) (leader id : String) :
    listing (e.setLeader leader).1 id = listing e id := by
  simp only [listing, Engine.setLeader]
  split
  · rfl
  · rw [Go.Map.get_mapValues, Option.map_map]
    rfl

/-- What happens on one node: a committed command, or a leader change it observes. -/
inductive NodeStep where
  | apply (now : Time) (cmd : Command)
  | setLeader (id : String)

def NodeStep.command : NodeStep → Option Command
  | .apply _ cmd => some cmd
  | .setLeader _ => none

def Fsm.nodeStep (f : Fsm) : NodeStep → Fsm
  | .apply now cmd => (f.applyCommand now cmd).1
  | .setLeader id => { f with applier := (f.applier.setLeader id).1 }

def Fsm.nodeRun (f : Fsm) (steps : List NodeStep) : Fsm := steps.foldl Fsm.nodeStep f

theorem listing_nodeRun {f : Fsm} (valid : f.applier.Valid) (steps : List NodeStep) :
    (f.nodeRun steps).applier.Valid ∧
      ∀ id, listing (f.nodeRun steps).applier id =
        (steps.filterMap NodeStep.command).foldl (fun l cmd => cmd.relist id l)
          (listing f.applier id) := by
  induction steps generalizing f with
  | nil => exact ⟨valid, fun _ => rfl⟩
  | cons step steps ih =>
      cases step with
      | apply now cmd =>
          obtain ⟨hvalid, hlisting⟩ := ih (valid_applyCommand valid now cmd)
          refine ⟨hvalid, fun id => (hlisting id).trans ?_⟩
          rw [listing_applyCommand valid]
          rfl
      | setLeader leader =>
          obtain ⟨hvalid, hlisting⟩ := ih (f := { f with applier := (f.applier.setLeader leader).1 })
            (Engine.valid_act valid (.setLeader leader))
          refine ⟨hvalid, fun id => (hlisting id).trans ?_⟩
          rw [listing_setLeader]
          rfl

/-- A command that settles what is listed under `id`, whatever was before. -/
def Command.Settles (cmd : Command) (id : String) : Prop :=
  cmd.id = id ∧ (cmd.kind = .addMember ∨ cmd.kind = .dropMember)

instance (cmd : Command) (id : String) : Decidable (cmd.Settles id) :=
  inferInstanceAs (Decidable (_ ∧ _))

omit [Unicode] in
theorem relist_of_settles {cmd : Command} {id : String} (hid : id ≠ "") (h : cmd.Settles id)
    (l l' : Option Listing) : cmd.relist id l = cmd.relist id l' := by
  obtain ⟨rfl, hkind⟩ := h
  rcases hkind with hkind | hkind <;> simp [Command.relist, hkind, hid]

omit [Unicode] in
theorem foldl_relist_of_settles {id : String} (hid : id ≠ "") {log : List Command}
    (h : ∃ cmd ∈ log, cmd.Settles id) (l l' : Option Listing) :
    log.foldl (fun l cmd => cmd.relist id l) l = log.foldl (fun l cmd => cmd.relist id l) l' := by
  induction log generalizing l l' with
  | nil => simp at h
  | cons head log ih =>
      obtain ⟨cmd, hcmd, hsettles⟩ := h
      rcases List.mem_cons.mp hcmd with rfl | hcmd
      · exact congrArg (log.foldl _) (relist_of_settles hid hsettles l l')
      · exact ih ⟨cmd, hcmd, hsettles⟩ _ _

omit [Unicode] in
theorem listing_new_of_ne {now : Time} {self addr id : String} (h : id ≠ self) :
    listing (.new now self addr) id = none := by
  simp [listing, Engine.new, Go.Map.get_set, h]

/-- The member list without join times and the leader mark. -/
def memberView (e : Engine) : List (String × Listing) :=
  e.membersList.map fun m => (m.id, listingOf m)

omit [Unicode] in
theorem memberView_eq {e e' : Engine} (valid : e.Valid) (valid' : e'.Valid)
    (same : ∀ id, listing e id = listing e' id) : memberView e = memberView e' := by
  have hsorted : ∀ {e : Engine}, e.Valid →
      memberView e = (e.members.mapValues fun id m => (id, listingOf m)).sorted := by
    intro e valid
    refine (Go.Map.sorted_mapValues _ _ _ fun id m hm => ?_).symm
    rw [valid.keyed id m hm]
  have hmap : (e.members.mapValues fun id m => (id, listingOf m)) =
      e'.members.mapValues fun id m => (id, listingOf m) := by
    apply Go.Map.ext
    intro id
    have hid := congrArg (Option.map fun l => (id, l)) (same id)
    simpa only [listing, Go.Map.get_mapValues, Option.map_map, Function.comp_def] using hid
  rw [hsorted valid, hsorted valid', hmap]

/-- After the same commands, and whatever leader changes each node saw between
them, two nodes list the same members, as long as the log adds or drops each of
the two at least once. -/
theorem members_converge (a b addrA addrB : String) (startA startB : Time)
    (locksA locksB : Option Locks.Table) (leasesA leasesB : Option Leases.Table)
    (log : List Command) (stepsA stepsB : List NodeStep)
    (hA : stepsA.filterMap NodeStep.command = log)
    (hB : stepsB.filterMap NodeStep.command = log) (hidA : a ≠ "") (hidB : b ≠ "")
    (settledA : ∃ cmd ∈ log, cmd.Settles a) (settledB : ∃ cmd ∈ log, cmd.Settles b) :
    memberView (Fsm.nodeRun ⟨.new startA a addrA, locksA, leasesA⟩ stepsA).applier =
      memberView (Fsm.nodeRun ⟨.new startB b addrB, locksB, leasesB⟩ stepsB).applier := by
  obtain ⟨validA, listingA⟩ := listing_nodeRun (f := ⟨.new startA a addrA, locksA, leasesA⟩)
    (Engine.valid_new startA a addrA) stepsA
  obtain ⟨validB, listingB⟩ := listing_nodeRun (f := ⟨.new startB b addrB, locksB, leasesB⟩)
    (Engine.valid_new startB b addrB) stepsB
  refine memberView_eq validA validB fun id => ?_
  rw [listingA, listingB, hA, hB]
  by_cases ha : id = a
  · subst ha
    exact foldl_relist_of_settles hidA settledA _ _
  · by_cases hb : id = b
    · subst hb
      exact foldl_relist_of_settles hidB settledB _ _
    · rw [listing_new_of_ne ha, listing_new_of_ne hb]

/-- `n1` and `n2` each join, `n2` dies and leaves and joins again as an observer. -/
def churnLog : List Command :=
  [{ kind := .addMember, id := "n1", address := "h1" },
    { kind := .addMember, id := "n2", address := "h2" }, { kind := .removeMember, id := "n2" },
    { kind := .dropMember, id := "n2" },
    { kind := .addMember, id := "n2", address := "h3", role := "observer" }]

omit [Unicode] in
theorem members_converge_churn : letI := Unicode.ascii
    memberView (Fsm.nodeRun ⟨.new 0 "n1" "", some .new, some .new⟩
        (.setLeader "" :: churnLog.map (.apply 1))).applier =
      memberView (Fsm.nodeRun ⟨.new 5 "n2" "", some .new, some .new⟩
        (churnLog.map (.apply 9) ++ [.setLeader "n1"])).applier :=
  @members_converge .ascii "n1" "n2" "" "" 0 5 (some .new) (some .new) (some .new) (some .new)
    churnLog _ _ rfl rfl (by decide) (by decide) (by decide) (by decide)

end Clusdr.Consensus
