import Clusdr.Metatheory.OperatorCalls
import Clusdr.Metatheory.SidecarObjects
import Clusdr.Runs.Along

/-!
The bootstrap Job and the StatefulSet never coexist. A sidecar pass keeps to the
protocol of the objects from any point it is started at, and passes of one
operator follow each other, each abandoned at any call.
-/

namespace Clusdr.Operator

open Calls (Prog Respects Minds)
open Calls.Prog (Obeys)

/-- Calls that tell a pass nothing and create neither object. -/
def Neutral (call : Call) : Prop :=
  ∀ q, sidecarCalls.allows q call ∧ ∀ a, sidecarCalls.next q call a = q

theorem roster_neutral (c : Cluster) : Roster Neutral c where
  patch _ _ _ := ⟨trivial, fun _ => rfl⟩
  snapshot _ _ := ⟨trivial, fun _ => rfl⟩
  leave _ _ _ := ⟨trivial, fun _ => rfl⟩
  join _ _ _ _ _ := ⟨trivial, fun _ => rfl⟩

theorem obeys_of_neutral {α : Type} {p : Prog Call Call.Answer α} (h : p.Every Neutral)
    (q : Knows) : Obeys sidecarCalls q p fun _ _ => True :=
  (h.obeys fun _ hc => hc q).mono fun _ _ _ => trivial

theorem report_obeys (q : Knows) (c : Cluster) (phase message : String) :
    Obeys sidecarCalls q (report c phase message).run fun _ _ => True :=
  obeys_of_neutral (every_report (roster_neutral c).patch phase message) q

theorem bootstrapSidecar_obeys (c : Cluster) :
    Obeys sidecarCalls .noToken (bootstrapSidecar c).run fun _ _ => True := by
  refine obeys_ask_bind trivial fun _ _ => obeys_ask_bind rfl fun _ _ => obeys_ask_bind trivial ?_
  intro ready _
  split
  · exact report_obeys _ _ _ _
  · refine obeys_ask_bind trivial fun logs _ => ?_
    split
    · exact report_obeys _ _ _ _
    · rename_i token htoken
      exact obeys_ask_bind (parseJoinToken_ne htoken) fun _ _ => obeys_ask_bind trivial fun _ _ =>
        report_obeys _ _ _ _

theorem startSidecar_obeys (visit : Go.Map String Unit → List String) (c : Cluster)
    (token : String) :
    Obeys sidecarCalls .jobGone (startSidecar visit c token).run fun _ _ => True := by
  refine obeys_ask_bind trivial fun _ _ => obeys_ask_bind rfl fun _ _ => obeys_of_neutral ?_ _
  refine every_attempt (fun _ => ⟨trivial, fun _ => rfl⟩) fun a => ?_
  cases a with
  | error err => exact every_report (roster_neutral c).patch _ _
  | ok seedAddr =>
      exact Calls.Prog.every_bind_except (every_ask fun _ => ⟨trivial, fun _ => rfl⟩) fun _ =>
        every_formMembers (roster_neutral c) _ _ _ _ _

theorem reconcileSidecar_obeys (visit : Go.Map String Unit → List String) (c : Cluster) :
    Obeys sidecarCalls .nothing (reconcileSidecar visit c).run fun _ _ => True := by
  unfold reconcileSidecar
  split
  · exact report_obeys _ _ _ _
  · refine obeys_ask_bind trivial fun ok _ => ?_
    cases ok with
    | none => exact bootstrapSidecar_obeys c
    | some token =>
        refine obeys_ask_bind trivial fun found _ => ?_
        cases found with
        | true => exact obeys_ask_bind trivial fun _ _ => report_obeys _ _ _ _
        | false => exact startSidecar_obeys visit c token

/-- The objects, and the pass that is under way. -/
structure SidecarOperator where
  world : Objects := {}
  pass : Kube.Act (Except String Unit) := .ret (.ok ())

inductive SidecarStep where
  /-- The next pass begins; the one before it ended, wherever it was. -/
  | begin (visit : Go.Map String Unit → List String) (c : Cluster)
  /-- The pass makes its next request. -/
  | request (choice : (r : Request) → r.Choice)
  /-- A Job that was deleted disappears. -/
  | vanish

namespace SidecarOperator

def step (s : SidecarOperator) : SidecarStep → SidecarOperator
  | .begin visit c => { s with pass := (reconcileSidecar visit c).overKube }
  | .request choice =>
      let r := Calls.answer Objects.react choice s.world s.pass
      ⟨r.1, r.2⟩
  | .vanish => { s with world := s.world.vanish }

/-- What holds of the objects, and what the pass does with them. -/
structure Orderly (Inv : Objects → Prop) (s : SidecarOperator) : Prop where
  inv : Inv s.world
  minds : Minds sidecarProtocol Objects.Fits s.world s.pass

theorem minds_begin (w : Objects) (visit : Go.Map String Unit → List String) (c : Cluster) :
    Minds sidecarProtocol Objects.Fits w (reconcileSidecar visit c).overKube :=
  ⟨.nothing, trivial, (reconcileSidecar_obeys visit c).via kube_obeys_sidecar⟩

theorem orderly_step {Inv : Objects → Prop}
    (respects : Respects sidecarProtocol Objects.react Inv Objects.Fits)
    (vanish : ∀ w, Inv w → Inv w.vanish) {s : SidecarOperator} (orderly : s.Orderly Inv)
    (e : SidecarStep) : (s.step e).Orderly Inv := by
  cases e with
  | begin visit c => exact ⟨orderly.inv, minds_begin s.world visit c⟩
  | request choice =>
      obtain ⟨hinv, hminds⟩ := respects.answer orderly.inv orderly.minds choice
      exact ⟨hinv, hminds⟩
  | vanish =>
      obtain ⟨q, hfits, hobeys⟩ := orderly.minds
      exact ⟨vanish s.world orderly.inv, q, Objects.fits_vanish hfits, hobeys⟩

theorem orderly_run {Inv : Objects → Prop}
    (respects : Respects sidecarProtocol Objects.react Inv Objects.Fits)
    (vanish : ∀ w, Inv w → Inv w.vanish) {s : SidecarOperator} (orderly : s.Orderly Inv)
    (steps : List SidecarStep) : (Runs.run step s steps).Orderly Inv := by
  induction steps generalizing s with
  | nil => exact orderly
  | cons e steps ih => exact ih (orderly_step respects vanish orderly e)

end SidecarOperator

/-- In every run of an operator from no objects, at most one of the bootstrap Job and the
StatefulSet exists, and no Job is created after a token was stored. -/
theorem bootstrap_job_and_statefulSet_apart (steps : List SidecarStep) :
    let run := Runs.run SidecarOperator.step {}
    ¬((run steps).world.hasJob = true ∧ (run steps).world.statefulSet = true) ∧
      ∀ before after, steps = before ++ after → (run before).world.HasToken →
        (run steps).world.jobsCreated = (run before).world.jobsCreated := by
  intro run
  have hstart : SidecarOperator.Orderly Objects.Apart {} := ⟨nofun, .nothing, trivial, trivial⟩
  have hrun := fun steps => SidecarOperator.orderly_run Objects.respects_sidecar
    (fun _ => Objects.apart_vanish) hstart steps
  refine ⟨fun h => ?_, ?_⟩
  · have hgone := ((hrun steps).inv h.2).2
    exact absurd (h.1.symm.trans hgone) (by decide)
  · rintro before after rfl htoken
    have hsettled : (run before).Orderly (Objects.Settled (run before).world.jobsCreated) :=
      ⟨⟨(hrun before).inv, htoken, rfl⟩, (hrun before).minds⟩
    have hafter := SidecarOperator.orderly_run (Objects.respects_settled _)
      (fun _ => Objects.settled_vanish) hsettled after
    rw [← Runs.run_append] at hafter
    exact hafter.inv.2.2

namespace SidecarOperator

/-- The Job is ready and has logged a token. -/
def answers : (call : Call) → call.Answer
  | .bootstrapReady _ => .ok true
  | .jobLogs _ => .ok "join token : t\n"
  | call => call.blank

def works : (r : Request) → r.Choice
  | .call call => answers call
  | .getCluster => .ok ⟨"1", {}⟩
  | .updateStatus _ | .patchStatus _ => .ok ()
  | .getSecret | .createSecret _ | .updateSecret _ | .getJob | .createJob | .deleteJob => .works
  | .getStatefulSet | .createStatefulSet => .works

/-- A pass as far as its first `n` requests. -/
def passOf (n : Nat) : List SidecarStep :=
  .begin (fun _ => []) ⟨0, "1", "", "", { voterCount := 3 }⟩ :: List.replicate n (.request works)

end SidecarOperator

/-- A pass that bootstraps and stores the token, and one that starts the StatefulSet. -/
theorem bootstrap_job_and_statefulSet_apart_two_passes :
    let run := Runs.run SidecarOperator.step {}
    let first := SidecarOperator.passOf 10 ++ [.vanish]
    let steps := first ++ SidecarOperator.passOf 5
    (run first).world.HasToken ∧ (run steps).world.statefulSet = true ∧
      ¬((run steps).world.hasJob = true ∧ (run steps).world.statefulSet = true) ∧
      (run steps).world.jobsCreated = (run first).world.jobsCreated := by
  intro run first steps
  have htoken : (run first).world.HasToken := ⟨"t", by decide +kernel, by decide⟩
  have hall := bootstrap_job_and_statefulSet_apart steps
  exact ⟨htoken, by decide +kernel, hall.1, hall.2 first _ rfl htoken⟩

end Clusdr.Operator
