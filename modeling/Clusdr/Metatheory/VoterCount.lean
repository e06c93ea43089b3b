import Clusdr.Metatheory.VoterPasses
import Clusdr.Runs.Along

/-!
The number of voters over passes of `reconcileDaemon`. The place of a pod among
the pods of one pass decides whether it votes, so a pass adds no more voters than
it finds open slots; whether those fit beside the voters of earlier passes depends
on where the pods of the latter are listed now.
-/

namespace Clusdr.Operator

open Calls (Prog Minds)

/-- The members, and the pass that is under way. -/
structure VoterOperator where
  world : Roll
  pass : Prog Call Call.Answer (Except String Unit) := .ret (.ok ())

inductive VoterStep where
  /-- The next pass begins and will see these pods; the one before it ended, wherever it
  was. -/
  | begin (visit : Go.Map String Unit → List String) (c : Cluster) (pods : List PodAddr)
  /-- The pass makes its next call. -/
  | call (choice : (call : Call) → call.Poll)

namespace VoterOperator

/-- The object as a pass reads it: `voterCount` stays, the rest may have changed. -/
def asking (n : Int) (c : Cluster) : Cluster := { c with spec := { c.spec with voterCount := n } }

def step (n : Int) (s : VoterOperator) : VoterStep → VoterOperator
  | .begin visit c pods => ⟨{ s.world with pods }, (reconcileDaemon visit (asking n c)).run⟩
  | .call choice =>
      let r := Calls.answer Roll.react choice s.world s.pass
      ⟨r.1, r.2⟩

/-- A pass begins only when the votes that are left suffice for its open slots. -/
def Slotted (n : Int) (s : VoterOperator) : VoterStep → Prop
  | .begin _ _ pods => 1 + s.world.voters + openSlots n pods s.world.listed ≤ n
  | .call _ => True

instance (n : Int) (s : VoterOperator) : ∀ e, Decidable (s.Slotted n e)
  | .begin _ _ _ => inferInstanceAs (Decidable (_ ≤ _))
  | .call _ => isTrue trivial

structure Orderly (n : Int) (s : VoterOperator) : Prop where
  within : s.world.Within n
  minds : Minds (slotProtocol n) (Roll.Fits n) s.world s.pass

theorem orderly_step {n : Int} (hpos : 1 ≤ n) {s : VoterOperator} {e : VoterStep}
    (orderly : s.Orderly n) (slotted : s.Slotted n e) : (s.step n e).Orderly n := by
  cases e with
  | begin visit c pods =>
      exact ⟨orderly.within, .before pods s.world.listed, ⟨rfl, rfl, slotted⟩,
        reconcileDaemon_obeys_slots (c := asking n c) rfl hpos visit pods _⟩
  | call choice =>
      obtain ⟨hwithin, hminds⟩ := (Roll.respects_slots n).answer orderly.within orderly.minds choice
      exact ⟨hwithin, hminds⟩

/-- The seed alone, before the first pass. -/
def start (seedID seedAddress : String) : VoterOperator := ⟨{ seedID, seedAddress }, .ret (.ok ())⟩

theorem orderly_start {n : Int} (hpos : 1 ≤ n) (seedID seedAddress : String) :
    (start seedID seedAddress).Orderly n :=
  ⟨hpos, .left 0, hpos, trivial⟩

end VoterOperator

/-- The voters, the seed among them, are at no time more than `voterCount`, as long as no
pass begins with more open slots than votes are left. -/
theorem voters_within_voterCount (n : Int) (hpos : 1 ≤ n) (seedID seedAddress : String)
    (steps : List VoterStep)
    (slotted : Runs.Along (VoterOperator.step n) (VoterOperator.Slotted n)
      (VoterOperator.start seedID seedAddress) steps) :
    Runs.Always (VoterOperator.step n) (fun s => 1 + s.world.voters ≤ n)
      (VoterOperator.start seedID seedAddress) steps :=
  Runs.Always.of_invariant (VoterOperator.Orderly n) (VoterOperator.orderly_start hpos _ _)
    (fun _ _ => VoterOperator.orderly_step hpos) (fun _ orderly => orderly.within) slotted

namespace VoterOperator

def calm : Liveness := ⟨fun _ => "alive", "", .ok "", .ok ""⟩

/-- Everything is ready, and a pod that joins becomes a member under its address. -/
def poll : (call : Call) → call.Poll
  | .prepareReady _ | .jobComplete _ => (.ok true, { view := calm })
  | .token _ => (.ok (some "t"), { view := calm })
  | .seedReadyAddr _ => (.ok "seed:7947", { view := calm })
  | .join localAddr _ _ _ => (.ok (), { added := some (localAddr, localAddr), view := calm })
  | call => (call.blank, { view := calm })

def pod (name : String) : PodAddr := ⟨name, name, name, name, true⟩

/-- A pass that sees these pods, and its calls. -/
def passOver (pods : List String) : List VoterStep :=
  .begin (fun _ => []) ⟨1, "1", "s", "", { voterCount := 3 }⟩ (pods.map pod) ::
    List.replicate 15 (.call poll)

end VoterOperator

/-- Two pods get the votes, and a third one that comes after them none. -/
theorem voters_within_voterCount_observer :
    let step := VoterOperator.step 3
    let start := VoterOperator.start "s" "seed:7947"
    let steps := VoterOperator.passOver ["c", "b"] ++ VoterOperator.passOver ["d", "c", "b"]
    Runs.Along step (VoterOperator.Slotted 3) start steps ∧
      (Runs.run step start steps).world.members =
        [⟨"b", "b", false⟩, ⟨"c", "c", false⟩, ⟨"d", "d", true⟩] ∧
      Runs.Always step (fun s => 1 + s.world.voters ≤ (3 : Int)) start steps := by
  intro step start steps
  have hslotted : Runs.Along step (VoterOperator.Slotted 3) start steps := by decide +kernel
  exact ⟨hslotted, by decide +kernel, voters_within_voterCount 3 (by decide) _ _ _ hslotted⟩

/-- A pod whose name comes before those of the voters gets a vote too. -/
theorem early_pod_exceeds_voterCount :
    let steps := VoterOperator.passOver ["b", "c"] ++ VoterOperator.passOver ["a", "b", "c"]
    ¬Runs.Always (VoterOperator.step 3) (fun s => 1 + s.world.voters ≤ (3 : Int))
      (VoterOperator.start "s" "seed:7947") steps := by
  intro steps h
  have hlast := h.last
  revert hlast
  decide +kernel

end Clusdr.Operator
