import Clusdr.Metatheory.SeedPasses
import Clusdr.Runs.Along

/-!
Operators agree on the seed. Passes of `reconcileDaemon` run side by side, each
from a version of the object it read; when the spec names no seed the first claim
that is stored decides, and otherwise every pass carries the seed of the spec.
-/

namespace Clusdr.Operator

open Calls (Protocol Respects Undisturbed Minds Pool)
open Calls.Prog (Obeys)

namespace Registry

/-- With a seed in the spec: what was claimed or used is that seed. -/
structure Named (seed : String) (w : Registry) : Prop where
  claim : w.claimed = true → w.seed = seed
  used : ∀ s ∈ w.ensured, s = seed

theorem named_store {seed : String} {w : Registry} (named : w.Named seed) {st : Status}
    (hst : st.seedNodeName = seed) (claim : Bool) (turn : Fate × String) :
    (w.store st claim turn).1.Named seed := by
  unfold store
  split
  · split
    · exact named
    · exact ⟨fun _ => hst, named.used⟩
    · exact ⟨fun _ => hst, named.used⟩
  · exact named

theorem named_touch {seed : String} {w : Registry} (named : w.Named seed) (st : Status)
    (rv : String) : (w.touch st rv).Named seed := by
  unfold touch store
  split
  · exact ⟨fun h => named.claim (by simpa [put] using h), named.used⟩
  · exact named

theorem respects_named (seed : String) :
    Respects (namedProtocol seed) react (Named seed) fun _ _ => True := by
  intro w q r x named _ ok
  refine ⟨trivial, ?_, trivial⟩
  cases r with
  | call c => exact ⟨named.claim, fun s hs => (List.mem_append.mp hs).elim (named.used s) (ok s)⟩
  | getCluster => cases x <;> exact named
  | updateStatus u =>
      change (w.update u x).1.Named seed
      unfold update
      split
      · exact named_store named ok true x
      · exact named
  | patchStatus body =>
      refine named_store named ?_ false x
      change body.seedNodeName = _ at ok
      rw [StatusPatch.merge, ok]
      rfl
  | _ => exact named

end Registry

/-- The object as a pass reads it. -/
def clusterFrom (spec : Spec) (generation : Int) (warning : String) (u : Object) : Cluster where
  generation := generation
  resourceVersion := u.resourceVersion
  statusSeed := u.status.seedNodeName
  warning := warning
  spec := spec

inductive DaemonStep where
  /-- An operator begins a pass; it has read one of the versions. -/
  | begin (k : Nat) (generation : Int) (warning : String) (visit : Go.Map String Unit → List String)
  /-- The `i`-th pass makes its next request. -/
  | request (i : Nat) (choice : (r : Request) → r.Turn)
  | touch (st : Status) (rv : String)

/-- Operators at work on one object. -/
abbrev Operators := Pool Registry Request Request.Answer (Except String Unit)

namespace Operators

def begin (spec : Spec) (s : Operators) (k : Nat) (generation : Int) (warning : String)
    (visit : Go.Map String Unit → List String) : Operators :=
  match s.world.versions[k]? with
  | some u => s.spawn (reconcileDaemon visit (clusterFrom spec generation warning u)).overKube
  | none => s

def step (spec : Spec) (s : Operators) : DaemonStep → Operators
  | .begin k generation warning visit => s.begin spec k generation warning visit
  | .request i choice => s.answer Registry.react i choice
  | .touch st rv => { s with world := s.world.touch st rv }

variable {Q : Type} {π : Protocol Request Request.Answer Q} {Inv : Registry → Prop}
  {Fits : Registry → Q → Prop} {spec : Spec}

theorem orderly_run (respects : Respects π Registry.react Inv Fits)
    (undisturbed : Undisturbed π Registry.react Inv Fits)
    (begins : ∀ w u, Inv w → u ∈ w.versions → ∀ generation warning visit, Minds π Fits w
      (reconcileDaemon visit (clusterFrom spec generation warning u)).overKube)
    (touch : ∀ w st rv, Inv w → Inv (w.touch st rv) ∧ ∀ q, Fits w q → Fits (w.touch st rv) q)
    {s : Operators} (orderly : s.Orderly π Inv Fits) (steps : List DaemonStep) :
    (Runs.run (step spec) s steps).Orderly π Inv Fits := by
  induction steps generalizing s with
  | nil => exact orderly
  | cons e steps ih =>
      refine ih ?_
      cases e with
      | begin k generation warning visit =>
          change (begin spec s k generation warning visit).Orderly π Inv Fits
          unfold begin
          split
          next u hu =>
            exact orderly.spawn (begins _ u orderly.inv (List.mem_of_getElem? hu) _ _ _)
          next => exact orderly
      | request i choice => exact orderly.answer respects undisturbed i choice
      | touch st rv =>
          obtain ⟨hinv, hfits⟩ := touch s.world st rv orderly.inv
          refine ⟨hinv, fun p hp => ?_⟩
          obtain ⟨q, hq, hobeys⟩ := orderly.minds p hp
          exact ⟨q, hfits q hq, hobeys⟩

theorem begins_seed (hspec : spec.seedNodeName = "") (w : Registry) (u : Object)
    (agreed : w.Agreed) (hu : u ∈ w.versions) (generation : Int) (warning : String)
    (visit : Go.Map String Unit → List String) :
    Minds seedProtocol Registry.Fits w
      (reconcileDaemon visit (clusterFrom spec generation warning u)).overKube := by
  generalize hc : clusterFrom spec generation warning u = c
  have hnone : c.spec.seedNodeName = "" := hc ▸ hspec
  cases hbad : badVoterCount c with
  | true =>
      have hpass : reconcileDaemon visit c =
          report c "Error" "voterCount must be an odd integer >= 1" := by
        unfold reconcileDaemon
        rw [hbad]
        rfl
      rw [hpass]
      exact ⟨.idle, trivial, Obeys.via kube_obeys_seed (report_obeys_seed hnone _ _)⟩
  | false =>
      by_cases hstatus : c.statusSeed = ""
      · have hrv : c.resourceVersion ≠ "" := hc ▸ agreed.named u hu
        refine ⟨.claiming c.resourceVersion, ⟨u, hu, ?_, ?_⟩, Obeys.via kube_obeys_seed
          (reconcileDaemon_obeys hbad (resolveSeed_obeys_claiming hnone hstatus hrv) visit)⟩
        · rw [← hc]
          rfl
        · rw [← hc] at hstatus
          exact hstatus
      · refine ⟨.pinned c.statusSeed, ?_, Obeys.via kube_obeys_seed
          (reconcileDaemon_obeys hbad (resolveSeed_obeys_pinned hnone hstatus) visit)⟩
        rw [← hc]
        exact agreed.one u hu

theorem begins_named (hspec : spec.seedNodeName ≠ "") (w : Registry) (u : Object)
    (generation : Int) (warning : String) (visit : Go.Map String Unit → List String) :
    Minds (namedProtocol spec.seedNodeName) (fun _ _ => True) w
      (reconcileDaemon visit (clusterFrom spec generation warning u)).overKube := by
  refine ⟨(), trivial, Obeys.via (fun _ call hcall => ?_)
    (reconcileDaemon_names (c := clusterFrom spec generation warning u) hspec visit)⟩
  exact ((kube_names hspec call hcall).obeys fun _ hr => ⟨hr, fun _ => rfl⟩).mono
    fun _ _ hq => ⟨trivial, hq⟩

/-- One object, and nobody at work on it. -/
def start (first : Object) : Operators := ⟨{ current := first }, []⟩

end Operators

/-- Any number of operators use one seed: all `Ensure` calls carry it, and from the first
claim on it is the seed in the status. -/
theorem operators_use_one_seed (spec : Spec) (first : Object)
    (versioned : first.resourceVersion ≠ "") (steps : List DaemonStep) :
    let run := Runs.run (Operators.step spec) (Operators.start first)
    ∃ seed, (∀ s ∈ (run steps).world.ensured, s = seed) ∧
      ∀ before after, steps = before ++ after → (run before).world.claimed = true →
        (run before).world.seed = seed := by
  intro run
  by_cases hspec : spec.seedNodeName = ""
  · have hstart : (Operators.start first).Orderly seedProtocol Registry.Agreed Registry.Fits :=
      ⟨Registry.agreed_start versioned, nofun⟩
    have hrun := fun steps => Operators.orderly_run Registry.respects_seed
      Registry.undisturbed_seed (Operators.begins_seed hspec)
      (fun w st rv h => ⟨Registry.agreed_change h (w.touch_change st rv),
        fun _ => Registry.fits_change (w.touch_change st rv)⟩) hstart steps
    refine ⟨(run steps).world.seed, fun s hs => ((hrun steps).inv.used s hs).1, ?_⟩
    rintro before after rfl hclaimed
    -- From here on the seed is fixed, so the rest of the run keeps it.
    have hne := (hrun before).inv.claim hclaimed
    have hrest := Operators.orderly_run (Registry.respects_settled_seed hne)
      (fun w q r x h => Registry.undisturbed_seed w q r x h.1)
      (fun w u h => Operators.begins_seed hspec w u h.1)
      (fun w st rv h => ⟨⟨Registry.agreed_change h.1 (w.touch_change st rv),
        (Registry.seed_change (w.touch_change st rv) (h.2 ▸ hne)).trans h.2⟩,
        fun _ => Registry.fits_change (w.touch_change st rv)⟩)
      ⟨⟨(hrun before).inv, rfl⟩, (hrun before).minds⟩ after
    rw [← Runs.run_append] at hrest
    exact hrest.inv.2.symm
  · have hrun : ∀ steps, (run steps).world.Named spec.seedNodeName := fun steps =>
      (Operators.orderly_run (Registry.respects_named _) (fun _ _ _ _ _ _ _ _ _ => trivial)
        (fun w u _ _ => Operators.begins_named hspec w u)
        (fun _ st rv h => ⟨Registry.named_touch h st rv, fun _ => id⟩) (s := Operators.start first)
        ⟨⟨nofun, nofun⟩, nofun⟩ steps).inv
    exact ⟨spec.seedNodeName, (hrun steps).used, fun before _ _ => (hrun before).claim⟩

namespace Operators

/-- Everything works, with this Ready node and this new version. -/
def turn (node rv : String) : (r : Request) → r.Turn
  | .call .readyNodes => .ok [node]
  | .call c => c.blank
  | .getCluster => none
  | .updateStatus _ | .patchStatus _ => (.works, rv)
  | .getSecret => .ok ""
  | .createSecret _ | .updateSecret _ | .getJob | .createJob | .deleteJob => .ok ()
  | .getStatefulSet | .createStatefulSet => .ok ()

/-- Two operators that read the same version and see different nodes, and a pass that reads
the outcome. -/
def race : List DaemonStep :=
  let a : DaemonStep := .request 0 (turn "n1" "2")
  let b : DaemonStep := .request 1 (turn "n2" "3")
  let c : DaemonStep := .request 2 (turn "n3" "4")
  [.begin 0 1 "" fun _ => [], .begin 0 1 "" fun _ => [], a, b, b, a, a, b, a,
    .begin 0 1 "" fun _ => [], c]

end Operators

theorem operators_use_one_seed_race :
    let run := Runs.run (Operators.step { voterCount := 3 }) (Operators.start ⟨"1", {}⟩)
    (run Operators.race).world.claimed = true ∧
      (run Operators.race).world.ensured = ["n1", "n1"] ∧
      ∃ seed, (∀ s ∈ (run Operators.race).world.ensured, s = seed) ∧
        (run Operators.race).world.seed = seed := by
  intro run
  have hclaimed : (run Operators.race).world.claimed = true := by decide +kernel
  obtain ⟨seed, hensured, hseed⟩ :=
    operators_use_one_seed { voterCount := 3 } ⟨"1", {}⟩ (by decide) Operators.race
  exact ⟨hclaimed, by decide +kernel, seed, hensured,
    hseed Operators.race [] (List.append_nil _).symm hclaimed⟩

end Clusdr.Operator
