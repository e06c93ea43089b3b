import Clusdr.Metatheory.VoterSlots

/-!
A pass of `reconcileDaemon` keeps to its slots: up to the first snapshot it joins
nobody, and then it joins as voters only pods that would vote and were not
members in that snapshot.
-/

namespace Clusdr.Operator

open Calls.Prog (Obeys obeys_bind_except)

/-- Counting the pods that would get a vote by their index. -/
theorem countP_zipIdx_lt {α : Type} (P : α → Bool) (k j : Nat) (l : List α) :
    (l.zipIdx j).countP (fun x => decide (x.2 < k) && P x.1) = (l.take (k - j)).countP P := by
  induction l generalizing j with
  | nil => simp
  | cons x l ih =>
      rw [List.zipIdx_cons, List.countP_cons, ih]
      by_cases hj : j < k
      · have hk : k - j = k - (j + 1) + 1 := by omega
        rw [hk, List.take_succ_cons, List.countP_cons]
        simp [hj]
      · have hk : k - j = 0 := by omega
        have hk' : k - (j + 1) = 0 := by omega
        simp [hj, hk, hk']

theorem countP_podIndices {n : Int} (hn : 1 ≤ n) (pods : List PodAddr) (P : PodAddr → Bool) :
    (podIndices pods).countP (fun x => !memberObserver x.1 n && P x.2) =
      (votingPods n pods).countP P := by
  have hvotes : ∀ i : Nat, (!memberObserver i n) = decide (i < (n - 1).toNat) := fun i => by
    unfold memberObserver
    rw [if_neg (by omega), ← decide_not]
    exact decide_eq_decide.mpr (by omega)
  unfold podIndices votingPods
  rw [List.countP_map, ← Nat.sub_zero (n - 1).toNat, ← countP_zipIdx_lt]
  refine List.countP_congr fun x _ => ?_
  simp only [Function.comp_apply, hvotes]

variable {n : Int} {c : Cluster}

theorem report_obeys_slots (q : Slots) (phase message : String) :
    Obeys (slotProtocol n) q (report c phase message).run fun _ _ => True := by
  cases q <;> exact ⟨trivial, fun _ _ => trivial⟩

theorem memberStatus_obeys (slots : Nat) (seedAddr : String) :
    Obeys (slotProtocol n) (.left slots) (memberStatus c seedAddr).run fun _ _ => True := by
  refine obeys_attempt_bind trivial fun a _ => ?_
  cases a with
  | error err => exact report_obeys_slots _ _ _
  | ok lists => exact ⟨trivial, fun _ _ => trivial⟩

/-- The join loop needs a slot for each pod on its list that would vote and is no member. -/
theorem joinPods_obeys (hn : c.spec.voterCount = n) (seedAddr token : String)
    (drop : Go.Map String Unit) (st : Status) (skip : Int → PodAddr → Bool)
    (pods : List (Int × PodAddr)) {slots : Nat}
    (room : pods.countP (fun x => !memberObserver x.1 n && !alreadyMember st x.2) ≤ slots) :
    Obeys (slotProtocol n) (.left slots) (joinPods c seedAddr token drop st skip pods).run
      fun _ _ => True := by
  induction pods generalizing slots with
  | nil => exact memberStatus_obeys slots seedAddr
  | cons x pods ih =>
      obtain ⟨dsIndex, p⟩ := x
      rw [List.countP_cons] at room
      have hrest := ih (Nat.le_of_add_right_le room)
      unfold joinPods
      split
      · exact hrest
      next hjoin =>
        rw [hn]
        cases hobserver : memberObserver dsIndex n with
        | true =>
            refine obeys_attempt_bind trivial fun a _ => ?_
            cases a with
            | error err => exact report_obeys_slots _ _ _
            | ok => exact hrest
        | false =>
            have hmember : alreadyMember st p = false := by
              simp only [Bool.or_eq_true, not_or, Bool.not_eq_true] at hjoin
              exact hjoin.2
            simp only [hobserver, hmember, Bool.not_false, Bool.and_self, if_true] at room
            refine obeys_attempt_bind (by exact Nat.lt_of_lt_of_le (Nat.succ_pos _) room)
              fun a _ => ?_
            cases a with
            | error err => exact report_obeys_slots _ _ _
            | ok => exact ih (Nat.le_sub_one_of_lt room)

theorem leaveMembers_obeys {slots : Nat} {rest : Op Unit}
    (hrest : Obeys (slotProtocol n) (.left slots) rest.run fun _ _ => True) (seedAddr : String)
    (st : Status) (ids : List String) :
    Obeys (slotProtocol n) (.left slots) (leaveMembers c seedAddr st rest ids).run
      fun _ _ => True := by
  induction ids with
  | nil => exact hrest
  | cons id ids ih =>
      unfold leaveMembers
      split
      · exact ih
      · refine obeys_attempt_bind trivial fun a _ => ?_
        cases a with
        | error err => exact report_obeys_slots _ _ _
        | ok => exact ih

theorem formMembers_obeys (hn : c.spec.voterCount = n) (hpos : 1 ≤ n)
    (visit : Go.Map String Unit → List String) (pods : List PodAddr) (st : Status)
    (seedAddr token : String) (skip : Int → PodAddr → Bool) :
    Obeys (slotProtocol n) (.before pods st)
      (formMembers visit c seedAddr token skip (podIndices pods)).run fun _ _ => True := by
  refine obeys_attempt_bind trivial fun a hmay => ?_
  cases a with
  | error err => exact report_obeys_slots _ _ _
  | ok lists =>
      obtain ⟨list, lead, health⟩ := lists
      refine leaveMembers_obeys (joinPods_obeys hn _ _ _ _ _ _ (le_of_eq ?_)) _ _ _
      have hmembers : alreadyMember (snapshotStatus list lead health) = alreadyMember st :=
        funext (alreadyMember_congr hmay)
      rw [hmembers]
      exact countP_podIndices hpos pods fun p => !alreadyMember st p

theorem startSeed_obeys (hn : c.spec.voterCount = n) (hpos : 1 ≤ n)
    (visit : Go.Map String Unit → List String) (pods : List PodAddr) (st : Status)
    (token : String) :
    Obeys (slotProtocol n) (.before pods st) (startSeed visit c token).run fun _ _ => True := by
  refine obeys_ask_bind trivial fun _ _ => obeys_attempt_bind trivial fun a _ => ?_
  cases a with
  | error err => exact report_obeys_slots _ _ _
  | ok seedAddr =>
      refine obeys_ask_bind trivial fun _ _ => obeys_ask_bind trivial fun ps hps => ?_
      rw [show ps = pods from hps]
      exact formMembers_obeys hn hpos visit pods st _ _ _

theorem formCluster_obeys_slots (hn : c.spec.voterCount = n) (hpos : 1 ≤ n)
    (visit : Go.Map String Unit → List String) (pods : List PodAddr) (st : Status) :
    Obeys (slotProtocol n) (.before pods st) (formCluster visit c).run fun _ _ => True := by
  refine obeys_ask_bind trivial fun _ _ => obeys_ask_bind trivial fun ready _ => ?_
  split
  · exact report_obeys_slots _ _ _
  refine obeys_ask_bind trivial fun _ _ => obeys_ask_bind trivial fun done _ => ?_
  split
  · exact report_obeys_slots _ _ _
  refine obeys_ask_bind trivial fun ok _ => ?_
  cases ok with
  | some token => exact startSeed_obeys hn hpos visit pods st token
  | none =>
      refine obeys_ask_bind trivial fun logs _ => ?_
      split
      · exact report_obeys_slots _ _ _
      · exact obeys_ask_bind trivial fun _ _ => startSeed_obeys hn hpos visit pods st _

/-- Resolving the seed does not touch the members, and keeps `voterCount`. -/
def Resolves (n : Int) (q : Slots) (r : Except String Cluster) (q' : Slots) : Prop :=
  q' = q ∧ ∀ c, r = .ok c → c.spec.voterCount = n

theorem claimFirst_obeys_slots (hn : c.spec.voterCount = n) (pods : List PodAddr) (st : Status)
    (nodes : List String) :
    Obeys (slotProtocol n) (.before pods st) (claimFirst c nodes).run
      (Resolves n (.before pods st)) := by
  cases nodes with
  | nil => exact ⟨rfl, fun c' h => Except.ok.inj h ▸ hn⟩
  | cons want nodes =>
      refine obeys_bind_except.mpr ⟨trivial, fun a _ => ?_⟩
      cases a with
      | error err => exact ⟨rfl, nofun⟩
      | ok => exact ⟨rfl, fun c' h => Except.ok.inj h ▸ hn⟩

theorem resolveSeed_obeys_slots (hn : c.spec.voterCount = n) (pods : List PodAddr) (st : Status) :
    Obeys (slotProtocol n) (.before pods st) (resolveSeed c).run
      (Resolves n (.before pods st)) := by
  unfold resolveSeed
  generalize (if c.spec.seedNodeName = "" then c.statusSeed else c.spec.seedNodeName) = want
  change Obeys _ _ (ite _ _ _ : Op Cluster).run _
  split
  · refine obeys_bind_except.mpr ⟨trivial, fun a _ => ?_⟩
    cases a with
    | error err => exact ⟨rfl, nofun⟩
    | ok nodes => exact claimFirst_obeys_slots hn pods st _
  · change Obeys _ _ (ite _ _ _ : Op Cluster).run _
    split
    · refine obeys_bind_except.mpr ⟨trivial, fun a _ => ?_⟩
      cases a with
      | error err => exact ⟨rfl, nofun⟩
      | ok => exact ⟨rfl, fun c' h => Except.ok.inj h ▸ hn⟩
    · exact ⟨rfl, fun c' h => Except.ok.inj h ▸ hn⟩

theorem reconcileDaemon_obeys_slots (hn : c.spec.voterCount = n) (hpos : 1 ≤ n)
    (visit : Go.Map String Unit → List String) (pods : List PodAddr) (st : Status) :
    Obeys (slotProtocol n) (.before pods st) (reconcileDaemon visit c).run fun _ _ => True := by
  unfold reconcileDaemon
  split
  · exact report_obeys_slots _ _ _
  refine obeys_bind_except.mpr ((resolveSeed_obeys_slots hn pods st).mono fun r q hr => ?_)
  obtain ⟨rfl, hr⟩ := hr
  cases r with
  | error err => trivial
  | ok c' =>
      change Obeys _ _ (ite _ _ _ : Op Unit).run _
      split
      · exact report_obeys_slots _ _ _
      · exact formCluster_obeys_slots (hr c' rfl) hpos visit pods st

end Clusdr.Operator
