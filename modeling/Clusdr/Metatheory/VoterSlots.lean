import Clusdr.Calls.Process
import Clusdr.Metatheory.OperatorCalls

/-!
The voters that passes of `reconcileDaemon` make. A pass may fill the slots of the
first `voterCount - 1` pods, in name order, that are not members when it looks;
it joins each of them at most once.
-/

namespace Clusdr.Operator

open Calls (Protocol Respects)

/-- A member that joined through the operator. -/
structure Joined where
  id : String
  address : String
  observer : Bool
deriving DecidableEq

/-- The members besides the seed, and the pods the API lists in this pass. -/
structure Roll where
  seedID : String
  seedAddress : String
  members : List Joined := []
  pods : List PodAddr := []

/-- What a snapshot says of the members besides who they are. -/
structure Liveness where
  status : String → String
  leader : String
  lead : Except String String
  health : Except String String

/-- What happens on a call besides its answer: the id and address of the member that a join
adds, whether a leave removes one, and what a snapshot shows. -/
structure Happening where
  added : Option (String × String) := none
  removed : Bool := false
  view : Liveness

/-- What the surroundings choose on a call; lists of pods and members they only deny. -/
abbrev Call.Poll (call : Call) : Type := call.Answer × Happening

namespace Roll

def voters (w : Roll) : Nat := w.members.countP fun m => !m.observer

/-- The members as `ListMembers` lists them. -/
def infos (w : Roll) (v : Liveness) : List MemberInfo :=
  ⟨w.seedID, w.seedAddress, v.status w.seedID, v.leader = w.seedID, "voter"⟩ ::
    w.members.map fun m =>
      ⟨m.id, m.address, v.status m.id, v.leader = m.id, if m.observer then "observer" else "voter"⟩

/-- The members as a snapshot shows them, all alive and without a leader. -/
def listed (w : Roll) : Status :=
  snapshotStatus (w.infos ⟨fun _ => "alive", "", .ok "", .ok ""⟩) (.ok "") (.ok "")

def add (w : Roll) (observer : Bool) (added : Option (String × String)) : Roll :=
  { w with members := w.members ++ (added.map fun m => ⟨m.1, m.2, observer⟩).toList }

def remove (w : Roll) (id : String) : Roll :=
  { w with members := w.members.filter (·.id ≠ id) }

def react (w : Roll) : (call : Call) → call.Poll → Roll × call.Answer
  | .memberPods _, (a, _) => (w, a.map fun _ => w.pods)
  | .snapshot _, (a, what) =>
      (w, a.map fun _ => (w.infos what.view, what.view.lead, what.view.health))
  | .join _ _ _ observer, (a, what) => (w.add observer what.added, a)
  | .leave _ id, (a, what) => (if what.removed then w.remove id else w, a)
  | _, (a, _) => (w, a)

end Roll

/-- The pods that get a vote when they join. -/
def votingPods (n : Int) (pods : List PodAddr) : List PodAddr :=
  (pods.insertionSort (·.name ≤ ·.name)).take (n - 1).toNat

/-- Those of them that are not members yet. -/
def openSlots (n : Int) (pods : List PodAddr) (st : Status) : Nat :=
  (votingPods n pods).countP fun p => !alreadyMember st p

/-- Before its first snapshot a pass is about to see these pods and members; then it has
slots left. -/
inductive Slots where
  | before (pods : List PodAddr) (st : Status)
  | left (slots : Nat)

def MemberStatus.key (m : MemberStatus) : String × String := (m.id, m.address)

def slotProtocol (n : Int) : Protocol Call Call.Answer Slots where
  allows
    | .before _ _, .join _ _ _ _ | .before _ _, .leave _ _ => False
    | .left slots, .join _ _ _ false => 0 < slots
    | _, _ => True
  may
    | .before pods _, .memberPods _, .ok ps => ps = pods
    | .before _ st, .snapshot _, .ok lists =>
        (snapshotStatus lists.1 lists.2.1 lists.2.2).members.map (·.key) = st.members.map (·.key)
    | _, _, _ => True
  next
    | .before pods st, .snapshot _, .ok _ => .left (openSlots n pods st)
    | .left slots, .join _ _ _ false, _ => .left (slots - 1)
    | q, _, _ => q

/-- `alreadyMember` looks at ids and addresses only. -/
theorem alreadyMember_congr {st st' : Status}
    (h : st.members.map (·.key) = st'.members.map (·.key)) (p : PodAddr) :
    alreadyMember st p = alreadyMember st' p := by
  have hkeys : ∀ s : Status, alreadyMember s p = (s.members.map (·.key)).any fun k =>
      (p.nodeName ≠ "" && k.1 = p.nodeName) || (joinAddr p ≠ "" && k.2 ≠ "" &&
        (k.2 = joinAddr p || k.2 = p.hostIP)) := fun s => by
    rw [List.any_map]
    rfl
  rw [hkeys, hkeys, h]

namespace Roll

/-- A snapshot shows who the members are. -/
theorem key_infos (w : Roll) (v : Liveness) (lead health : Except String String) :
    (snapshotStatus (w.infos v) lead health).members.map (·.key) =
      w.listed.members.map (·.key) := by
  simp [listed, snapshotStatus, infos, MemberStatus.key]

theorem voters_add (w : Roll) (observer : Bool) (added : Option (String × String)) :
    (w.add observer added).voters ≤ w.voters + if observer then 0 else 1 := by
  unfold add voters
  rw [List.countP_append]
  cases added <;> cases observer <;> simp

theorem voters_remove (w : Roll) (id : String) : (w.remove id).voters ≤ w.voters :=
  List.filter_sublist.countP_le

/-- There is room for the voters and the slots. -/
def Fits (n : Int) (w : Roll) : Slots → Prop
  | .before pods st => w.pods = pods ∧ w.listed = st ∧ 1 + w.voters + openSlots n pods st ≤ n
  | .left slots => 1 + w.voters + slots ≤ n

def Within (n : Int) (w : Roll) : Prop := 1 + w.voters ≤ n

theorem room_of_le {n : Int} {w w' : Roll} {slots slots' : Nat} (fits : w.Fits n (.left slots))
    (h : w'.voters + slots' ≤ w.voters + slots) : w'.Within n ∧ w'.Fits n (.left slots') := by
  unfold Fits Within at *
  omega

theorem respects_before {n : Int} {w : Roll} {pods : List PodAddr} {st : Status} (inv : w.Within n)
    (fits : w.Fits n (.before pods st)) {call : Call} (x : call.Poll)
    (ok : (slotProtocol n).allows (.before pods st) call) :
    (slotProtocol n).may (.before pods st) call (w.react call x).2 ∧ (w.react call x).1.Within n ∧
      (w.react call x).1.Fits n
        ((slotProtocol n).next (.before pods st) call (w.react call x).2) := by
  obtain ⟨hpods, hlisted, hroom⟩ := fits
  obtain ⟨a, what⟩ := x
  cases call with
  | memberPods c =>
      cases a with
      | error err => exact ⟨trivial, inv, hpods, hlisted, hroom⟩
      | ok ps => exact ⟨hpods, inv, hpods, hlisted, hroom⟩
  | snapshot seedAddr =>
      cases a with
      | error err => exact ⟨trivial, inv, hpods, hlisted, hroom⟩
      | ok lists =>
          subst hlisted
          exact ⟨w.key_infos _ _ _, inv, hroom⟩
  | join | leave => exact ok.elim
  | _ => exact ⟨trivial, inv, hpods, hlisted, hroom⟩

theorem respects_left {n : Int} {w : Roll} {slots : Nat} (inv : w.Within n)
    (fits : w.Fits n (.left slots)) {call : Call} (x : call.Poll)
    (ok : (slotProtocol n).allows (.left slots) call) :
    (slotProtocol n).may (.left slots) call (w.react call x).2 ∧ (w.react call x).1.Within n ∧
      (w.react call x).1.Fits n ((slotProtocol n).next (.left slots) call (w.react call x).2) := by
  obtain ⟨a, what⟩ := x
  cases call with
  | join localAddr seedAddr token observer =>
      have hadd := w.voters_add observer what.added
      cases observer with
      | false =>
          have hslots : 0 < slots := ok
          have hroom : (w.add false what.added).voters + (slots - 1) ≤ w.voters + slots := by
            simp only [Bool.false_eq_true, if_false] at hadd
            omega
          exact ⟨trivial, room_of_le fits hroom⟩
      | true =>
          exact ⟨trivial, room_of_le fits (Nat.add_le_add_right hadd slots)⟩
  | leave seedAddr id =>
      have hremove : (if what.removed then w.remove id else w).voters ≤ w.voters := by
        split
        · exact w.voters_remove id
        · exact le_rfl
      exact ⟨trivial, room_of_le fits (Nat.add_le_add_right hremove slots)⟩
  | _ => exact ⟨trivial, inv, fits⟩

theorem respects_slots (n : Int) : Respects (slotProtocol n) react (Within n) (Fits n) := by
  intro w q call x inv fits ok
  cases q with
  | before pods st => exact respects_before inv fits x ok
  | left slots => exact respects_left inv fits x ok

end Roll

end Clusdr.Operator
