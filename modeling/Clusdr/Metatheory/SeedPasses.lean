import Clusdr.Metatheory.SeedRegistry

/-!
The seed in a pass of `reconcileDaemon`. A pass that read no seed claims one and
goes on with it; a pass that read one goes on with that; and when the spec names
a seed, everything the pass writes names it.
-/

namespace Clusdr.Operator

open Calls (Protocol)
open Calls.Prog (Every Obeys every_bind_except obeys_bind_except)

/-- `seedProtocol` in terms of the calls of the platform. -/
def seedCalls : Protocol Call Call.Answer Hold where
  allows q
    | .claimSeed c _ => c.resourceVersion ≠ "" ∧ q = .claiming c.resourceVersion
    | .patchStatus _ st => st.seedNodeName = q.seed
    | call => ∀ s ∈ call.ensures, s = q.seed ∧ s ≠ ""
  next q
    | .claimSeed _ node, a => .ofUpdate node a
    | _, _ => q

theorem kube_idle_seed {q : Hold} {call : Call} (h : seedCalls.allows q call)
    (claimless : ∀ c node, call ≠ .claimSeed c node) {r : Request} (makes : Kube.Makes call r) :
    seedProtocol.allows q r ∧ ∀ a, seedProtocol.next q r a = q := by
  cases makes with
  | getCluster | updateStatus => exact absurd rfl (claimless _ _)
  | @patchStatus c st =>
      refine ⟨?_, fun _ => rfl⟩
      change (statusMap st).seedNodeName = _
      rw [statusMap, h]
  | call =>
      refine ⟨?_, fun _ => rfl⟩
      cases call with
      | claimSeed | patchStatus => exact nofun
      | _ => exact h
  | _ => exact ⟨trivial, fun _ => rfl⟩

theorem kube_obeys_seed (q : Hold) (call : Call) (h : seedCalls.allows q call) :
    Obeys seedProtocol q (Kube.perform call) fun a q' =>
      seedCalls.may q call a ∧ q' = seedCalls.next q call a := by
  cases call with
  | claimSeed c node =>
      obtain ⟨hrv, rfl⟩ := h
      refine ⟨trivial, fun b _ => ?_⟩
      cases b with
      | error err => exact ⟨trivial, rfl⟩
      | ok u =>
          refine ⟨?_, fun b _ => ⟨trivial, ?_⟩⟩
          · change Hold.claiming c.resourceVersion =
              .claiming (if c.resourceVersion ≠ "" then _ else _)
            rw [if_pos hrv]
          · cases b <;> rfl
  | _ =>
      exact ((Kube.every_perform _).obeys fun _ => kube_idle_seed h nofun).mono
        fun _ _ hq => ⟨trivial, hq⟩

theorem report_obeys_seed {q : Hold} {c : Cluster} (h : c.spec.seedNodeName = q.seed)
    (phase message : String) :
    Obeys seedCalls q (report c phase message).run fun _ _ => True := ⟨h, fun _ _ => trivial⟩

/-- A pass that has its seed. -/
theorem formCluster_obeys {c : Cluster} {seed : String} (hseed : c.spec.seedNodeName = seed)
    (hne : seed ≠ "") (visit : Go.Map String Unit → List String) :
    Obeys seedCalls (.pinned seed) (formCluster visit c).run fun _ _ => True := by
  have formation : Formation (fun call => seedCalls.allows (.pinned seed) call ∧
      ∀ a, seedCalls.next (.pinned seed) call a = .pinned seed) c := by
    refine ⟨fun st hst => ⟨hst.trans hseed, fun _ => rfl⟩, fun call hcall hensures => ?_⟩
    have hs : ∀ s ∈ call.ensures, s = seed ∧ s ≠ "" := fun s hs =>
      have h := (hensures s hs).trans hseed
      ⟨h, h ▸ hne⟩
    cases call with
    | claimSeed | patchStatus => cases hcall
    | _ => exact ⟨hs, fun _ => rfl⟩
  exact ((every_formCluster formation visit).obeys fun _ h => h).mono fun _ _ _ => trivial

theorem Hold.eq_pinned {q : Hold} (h : q.seed ≠ "") : q = .pinned q.seed := by
  cases q with
  | pinned seed => rfl
  | claiming | idle => exact absurd rfl h

/-- The seed a pass works with is the one it holds. -/
def Resolved (r : Except String Cluster) (q : Hold) : Prop :=
  match r with
  | .ok c => c.spec.seedNodeName = q.seed
  | .error _ => True

theorem reconcileDaemon_obeys {q : Hold} {c : Cluster} (hgood : badVoterCount c = false)
    (h : Obeys seedCalls q (resolveSeed c).run Resolved)
    (visit : Go.Map String Unit → List String) :
    Obeys seedCalls q (reconcileDaemon visit c).run fun _ _ => True := by
  unfold reconcileDaemon
  rw [hgood]
  refine obeys_bind_except.mpr (h.mono fun r q' hr => ?_)
  cases r with
  | error err => trivial
  | ok c' =>
      by_cases hnone : c'.spec.seedNodeName = ""
      · simp only [hnone, if_true]
        exact report_obeys_seed hr _ _
      · simp only [hnone, if_false]
        have hne : q'.seed ≠ "" := fun hq => hnone (hr.trans hq)
        rw [Hold.eq_pinned hne]
        exact formCluster_obeys hr hne visit

theorem claimFirst_obeys {c : Cluster} (hspec : c.spec.seedNodeName = "")
    (hrv : c.resourceVersion ≠ "") (nodes : List String) :
    Obeys seedCalls (.claiming c.resourceVersion) (claimFirst c nodes).run Resolved := by
  cases nodes with
  | nil => exact hspec
  | cons want nodes =>
      refine obeys_bind_except.mpr ⟨⟨hrv, rfl⟩, fun a _ => ?_⟩
      cases a with
      | error err => trivial
      | ok => rfl

/-- A pass that read a status without a seed. -/
theorem resolveSeed_obeys_claiming {c : Cluster} (hspec : c.spec.seedNodeName = "")
    (hstatus : c.statusSeed = "") (hrv : c.resourceVersion ≠ "") :
    Obeys seedCalls (.claiming c.resourceVersion) (resolveSeed c).run Resolved := by
  unfold resolveSeed
  simp only [hspec, hstatus, if_true]
  refine obeys_bind_except.mpr ⟨nofun, fun a _ => ?_⟩
  cases a with
  | error err => trivial
  | ok nodes => exact claimFirst_obeys hspec hrv _

/-- A pass that read a seed in the status. -/
theorem resolveSeed_obeys_pinned {c : Cluster} (hspec : c.spec.seedNodeName = "")
    (hstatus : c.statusSeed ≠ "") :
    Obeys seedCalls (.pinned c.statusSeed) (resolveSeed c).run Resolved := by
  unfold resolveSeed
  simp only [hspec, if_true, hstatus, if_false, ne_eq, not_true_eq_false]
  rfl

/-- A pass of a spec that names its seed writes no other. -/
def Request.Names (seed : String) : Request → Prop
  | .call c => ∀ s ∈ c.ensures, s = seed
  | .updateStatus u => u.status.seedNodeName = seed
  | .patchStatus body => body.seedNodeName = some seed
  | _ => True

def Call.Names (seed : String) : Call → Prop
  | .claimSeed _ node => node = seed
  | .patchStatus _ st => st.seedNodeName = seed
  | call => ∀ s ∈ call.ensures, s = seed

def namedProtocol (seed : String) : Protocol Request Request.Answer Unit where
  allows _ r := r.Names seed
  next _ _ _ := ()

def namedCalls (seed : String) : Protocol Call Call.Answer Unit where
  allows _ call := call.Names seed
  next _ _ _ := ()

theorem kube_names {seed : String} (hne : seed ≠ "") (call : Call) (h : call.Names seed) :
    Every (Request.Names seed) (Kube.perform call) := by
  refine (Kube.every_perform call).mono fun r makes => ?_
  cases makes with
  | updateStatus => exact h
  | @patchStatus c st =>
      change (statusMap st).seedNodeName = some seed
      rw [statusMap, h, if_pos hne]
  | call =>
      cases call with
      | claimSeed | patchStatus => exact nofun
      | _ => exact h
  | _ => trivial

theorem resolveSeed_names {c : Cluster} (hne : c.spec.seedNodeName ≠ "") :
    Obeys (namedCalls c.spec.seedNodeName) () (resolveSeed c).run fun r _ =>
      ∀ c', r = .ok c' → c'.spec.seedNodeName = c.spec.seedNodeName := by
  unfold resolveSeed
  simp only [hne, if_false]
  split
  · refine obeys_bind_except.mpr ⟨if_neg hne, fun a _ => ?_⟩
    cases a with
    | error err => exact nofun
    | ok =>
        intro c' h
        cases h
        rfl
  · intro c' h
    cases h
    rfl

theorem reconcileDaemon_names {c : Cluster} (hne : c.spec.seedNodeName ≠ "")
    (visit : Go.Map String Unit → List String) :
    Obeys (namedCalls c.spec.seedNodeName) () (reconcileDaemon visit c).run fun _ _ => True := by
  have formation : ∀ c' : Cluster, c'.spec.seedNodeName = c.spec.seedNodeName →
      Formation (Call.Names c.spec.seedNodeName) c' := by
    refine fun c' hc' => ⟨fun st hst => hst.trans hc', fun call hcall hensures => ?_⟩
    have hs : ∀ s ∈ call.ensures, s = c.spec.seedNodeName := fun s hs => (hensures s hs).trans hc'
    cases call with
    | claimSeed | patchStatus => cases hcall
    | _ => exact hs
  have hobeys : ∀ {p : Op Unit}, Every (Call.Names c.spec.seedNodeName) p.run →
      Obeys (namedCalls c.spec.seedNodeName) () p.run fun _ _ => True := fun h =>
    (h.obeys fun _ hc => ⟨hc, fun _ => rfl⟩).mono fun _ _ _ => trivial
  unfold reconcileDaemon
  split
  · exact hobeys (every_report (formation c rfl).patch _ _)
  · refine obeys_bind_except.mpr ((resolveSeed_names hne).mono fun r _ hr => ?_)
    cases r with
    | error err => trivial
    | ok c' =>
        have hc' := hr c' rfl
        simp only [hc', hne, if_false]
        exact hobeys (every_formCluster (formation c' hc') visit)

end Clusdr.Operator
