import Clusdr.Calls.Trace
import Clusdr.Metatheory.OperatorCalls

/-!
What a pass has done when it reports that the cluster is formed, and which pods and
members it touches on the way. All of it is read off the calls the pass made.
-/

namespace Clusdr.Operator.Pass

open Calls (Past history)
open Calls.Prog (Obeys Trace obeys_bind_except)

abbrev Made := Past Call Call.Answer

/-- The `range` over the set of ids to drop visits exactly its keys. -/
def Ranges (visit : Go.Map String Unit → List String) : Prop :=
  ∀ drop id, id ∈ visit drop ↔ (drop.get id).isSome

/-- The pods that are to be members. -/
def Wanted (sidecar : Bool) (drop : Go.Map String Unit) (p : PodAddr) : Prop :=
  p.ready = true ∧ drop.get p.nodeName = none ∧
    if sidecar then 0 < podOrdinal p.name else p.hostIP ≠ ""

/-- What a pass knows when it starts to change the members. -/
structure Knows (past : Made) (seedAddr : String) (pods : List PodAddr) (st : Status) : Prop where
  pods : ∃ c, ⟨.memberPods c, .ok pods⟩ ∈ past
  status : ∃ list lead health, ⟨.snapshot seedAddr, .ok (list, lead, health)⟩ ∈ past ∧
    st = snapshotStatus list lead health

/-- The pod was found among the members that were seen, or has joined. -/
def Joined (past : Made) (seedAddr : String) (st : Status) (p : PodAddr) : Prop :=
  alreadyMember st p = true ∨
    ∃ token observer, ⟨.join (joinAddr p) seedAddr token observer, .ok ()⟩ ∈ past

/-- The id was not among the members that were seen, or has left. -/
def Left (past : Made) (seedAddr : String) (st : Status) (id : String) : Prop :=
  memberListed st id = false ∨ ⟨.leave seedAddr id, .ok ()⟩ ∈ past

structure Formed (sidecar : Bool) (drop : Go.Map String Unit) (past : Made) (seedAddr : String)
    (pods : List PodAddr) (st : Status) : Prop where
  knows : Knows past seedAddr pods st
  joined : ∀ p ∈ pods, Wanted sidecar drop p → Joined past seedAddr st p
  left : ∀ id, (drop.get id).isSome → Left past seedAddr st id

/-- Why a pass may make a call. A status that says `Ready` follows a second look at the
members, and reports what was seen. -/
def Justified (sidecar : Bool) (drop : Go.Map String Unit) (past : Made) : Call → Prop
  | .patchStatus _ st => st.phase = "Ready" →
      ∃ earlier seedAddr pods seen list lead health,
        past = earlier ++ [⟨.snapshot seedAddr, .ok (list, lead, health)⟩] ∧
        Formed sidecar drop earlier seedAddr pods seen ∧
        st.members = (snapshotStatus list lead health).members
  | .join addr seedAddr _ _ => ∃ pods st p, Knows past seedAddr pods st ∧ p ∈ pods ∧
      Wanted sidecar drop p ∧ alreadyMember st p = false ∧ addr = joinAddr p
  | .leave seedAddr id => ∃ pods st, Knows past seedAddr pods st ∧ (drop.get id).isSome ∧
      memberListed st id = true
  | _ => True

variable {sidecar : Bool} {drop : Go.Map String Unit} {past : Made} {c : Cluster}

theorem Knows.after {seedAddr : String} {pods : List PodAddr} {st : Status}
    (knows : Knows past seedAddr pods st) (more : Made) :
    Knows (past ++ more) seedAddr pods st := by
  obtain ⟨⟨c, hpods⟩, list, lead, health, hsnap, hst⟩ := knows
  exact ⟨⟨c, List.mem_append_left _ hpods⟩,
    list, lead, health, List.mem_append_left _ hsnap, hst⟩

theorem Joined.after {seedAddr : String} {st : Status} {p : PodAddr}
    (joined : Joined past seedAddr st p) (more : Made) : Joined (past ++ more) seedAddr st p := by
  rcases joined with h | ⟨token, observer, h⟩
  · exact .inl h
  · exact .inr ⟨token, observer, List.mem_append_left _ h⟩

theorem Left.after {seedAddr : String} {st : Status} {id : String}
    (left : Left past seedAddr st id) (more : Made) : Left (past ++ more) seedAddr st id := by
  rcases left with h | h
  · exact .inl h
  · exact .inr (List.mem_append_left _ h)

theorem report_justified {phase : String} (notReady : phase ≠ "Ready") (message : String) :
    Obeys (history (Justified sidecar drop)) past (report c phase message).run
      fun _ _ => True :=
  ⟨fun h => absurd h notReady, fun _ _ => trivial⟩

theorem memberStatus_justified {seedAddr : String} {pods : List PodAddr} {st : Status}
    (formed : Formed sidecar drop past seedAddr pods st) :
    Obeys (history (Justified sidecar drop)) past (memberStatus c seedAddr).run
      fun _ _ => True := by
  refine obeys_attempt_bind trivial fun a _ => ?_
  cases a with
  | error err => exact report_justified (by decide) _
  | ok lists =>
      obtain ⟨list, lead, health⟩ := lists
      refine ⟨fun _ => ?_, fun _ _ => trivial⟩
      exact ⟨past, seedAddr, pods, st, list, lead, health, rfl, formed, rfl⟩

/-- Once the first pod has been dealt with, the others remain. -/
theorem remaining {P J : PodAddr → Prop} {all pods : List PodAddr} {p : PodAddr}
    (done : ∀ q ∈ all, P q → J q ∨ q ∈ p :: pods) (first : P p → J p) :
    ∀ q ∈ all, P q → J q ∨ q ∈ pods := by
  intro q hq hwanted
  rcases done q hq hwanted with h | h
  · exact .inl h
  · rcases List.mem_cons.mp h with rfl | h
    · exact .inl (first hwanted)
    · exact .inr h

/-- The join loop, with `pods` still to come and all others of the pass done. -/
theorem joinPods_justified {seedAddr token : String} {st : Status} {all : List PodAddr}
    {skip : Int → PodAddr → Bool} {pods : List (Int × PodAddr)}
    (skips : ∀ x ∈ pods, drop.get x.2.nodeName = none →
      (skip x.1 x.2 = false ↔ Wanted sidecar drop x.2))
    (mem : ∀ x ∈ pods, x.2 ∈ all) (knows : Knows past seedAddr all st)
    (done : ∀ p ∈ all, Wanted sidecar drop p →
      Joined past seedAddr st p ∨ p ∈ pods.map Prod.snd)
    (left : ∀ id, (drop.get id).isSome → Left past seedAddr st id) :
    Obeys (history (Justified sidecar drop)) past
      (joinPods c seedAddr token drop st skip pods).run fun _ _ => True := by
  induction pods generalizing past with
  | nil =>
      refine memberStatus_justified ⟨knows, fun p hp hw => ?_, left⟩
      exact (done p hp hw).resolve_right (by simp)
  | cons x pods ih =>
      obtain ⟨dsIndex, p⟩ := x
      obtain ⟨hskip, hskips⟩ := List.forall_mem_cons.mp skips
      obtain ⟨hp, hmem⟩ := List.forall_mem_cons.mp mem
      unfold joinPods
      split
      next hpass =>
        refine ih hskips hmem knows (remaining done fun hwanted => ?_) left
        simp only [Bool.or_eq_true, or_assoc] at hpass
        rcases hpass with h | h | h
        · exact absurd ((hskip hwanted.2.1).mpr hwanted) (by simp [h])
        · exact absurd h (by simp [hwanted.2.1])
        · exact .inl h
      next hpass =>
        simp only [Bool.or_eq_true, not_or, Bool.not_eq_true, Option.isSome_eq_false_iff,
          Option.isNone_iff_eq_none] at hpass
        obtain ⟨⟨hkeep, hdrop⟩, hnew⟩ := hpass
        have hwanted := (hskip hdrop).mp hkeep
        refine obeys_attempt_bind ⟨all, st, p, knows, hp, hwanted, hnew, rfl⟩ fun a _ => ?_
        cases a with
        | error err => exact report_justified (by decide) _
        | ok =>
            refine ih hskips hmem (knows.after _) (remaining (p := p) ?_ fun _ => ?_)
              fun id hid => (left id hid).after _
            · intro q hq hw
              exact (done q hq hw).imp_left fun h => h.after _
            · exact .inr ⟨_, _, List.mem_append_right _ List.mem_cons_self⟩

/-- The loop over the ids to drop, with `ids` still to come and all others done. -/
theorem leaveMembers_justified {seedAddr : String} {st : Status} {all : List PodAddr}
    {rest : Op Unit} {ids : List String} (listed : ∀ id ∈ ids, (drop.get id).isSome)
    (knows : Knows past seedAddr all st)
    (done : ∀ id, (drop.get id).isSome → Left past seedAddr st id ∨ id ∈ ids)
    (hrest : ∀ past, Knows past seedAddr all st →
      (∀ id, (drop.get id).isSome → Left past seedAddr st id) →
      Obeys (history (Justified sidecar drop)) past rest.run fun _ _ => True) :
    Obeys (history (Justified sidecar drop)) past (leaveMembers c seedAddr st rest ids).run
      fun _ _ => True := by
  induction ids generalizing past with
  | nil => exact hrest past knows fun id hid => (done id hid).resolve_right (by simp)
  | cons id ids ih =>
      obtain ⟨hid, hlisted⟩ := List.forall_mem_cons.mp listed
      have htail : ∀ past', (∀ id, Left past seedAddr st id → Left past' seedAddr st id) →
          Left past' seedAddr st id →
          ∀ i, (drop.get i).isSome → Left past' seedAddr st i ∨ i ∈ ids := by
        intro past' hkeep hfirst i hi
        rcases done i hi with h | h
        · exact .inl (hkeep i h)
        · rcases List.mem_cons.mp h with rfl | h
          · exact .inl hfirst
          · exact .inr h
      unfold leaveMembers
      split
      next hmember =>
        simp only [Bool.not_eq_true'] at hmember
        exact ih hlisted knows (htail past (fun _ h => h) (.inl hmember))
      next hmember =>
        simp only [Bool.not_eq_true', Bool.not_eq_false] at hmember
        refine obeys_attempt_bind ⟨all, st, knows, hid, hmember⟩ fun a _ => ?_
        cases a with
        | error err => exact report_justified (by decide) _
        | ok =>
            refine ih hlisted (knows.after _) (htail _ (fun _ h => h.after _) ?_)
            exact .inr (List.mem_append_right _ List.mem_cons_self)

/-- The members of a pass, once its pods are known. -/
theorem formMembers_justified {visit : Go.Map String Unit → List String} (ranges : Ranges visit)
    {seedAddr token : String} {all : List PodAddr} {skip : Int → PodAddr → Bool}
    {pods : List (Int × PodAddr)} (perm : (pods.map Prod.snd).Perm all)
    (skips : ∀ x ∈ pods, (dropSet c.spec.leave).get x.2.nodeName = none →
      (skip x.1 x.2 = false ↔ Wanted sidecar (dropSet c.spec.leave) x.2))
    (hpods : ∃ c, ⟨.memberPods c, .ok all⟩ ∈ past) :
    Obeys (history (Justified sidecar (dropSet c.spec.leave))) past
      (formMembers visit c seedAddr token skip pods).run fun _ _ => True := by
  refine obeys_attempt_bind trivial fun a _ => ?_
  cases a with
  | error err => exact report_justified (by decide) _
  | ok lists =>
      obtain ⟨list, lead, health⟩ := lists
      obtain ⟨c', hpods⟩ := hpods
      have hknows : Knows (past ++ [⟨.snapshot seedAddr, .ok (list, lead, health)⟩]) seedAddr all
          (snapshotStatus list lead health) :=
        ⟨⟨c', List.mem_append_left _ hpods⟩, list, lead, health,
          List.mem_append_right _ List.mem_cons_self, rfl⟩
      refine leaveMembers_justified (fun id hid => (ranges _ id).mp hid) hknows
        (fun id hid => .inr ((ranges _ id).mpr hid)) ?_
      intro past hknows hleft
      refine joinPods_justified skips (fun x hx => ?_) hknows (fun p hp _ => ?_) hleft
      · exact perm.mem_iff.mp (List.mem_map_of_mem hx)
      · exact .inr (perm.mem_iff.mpr hp)

theorem perm_podIndices (pods : List PodAddr) : ((podIndices pods).map Prod.snd).Perm pods := by
  have hsnd : (podIndices pods).map Prod.snd = pods.insertionSort (·.name ≤ ·.name) := by
    simp [podIndices, List.map_map, Function.comp_def]
  rw [hsnd]
  exact List.perm_insertionSort _ pods

section Daemon

variable {visit : Go.Map String Unit → List String} (ranges : Ranges visit)
include ranges

theorem startSeed_justified (token : String) :
    Obeys (history (Justified false (dropSet c.spec.leave))) past (startSeed visit c token).run
      fun _ _ => True := by
  refine obeys_ask_bind trivial fun _ _ => obeys_attempt_bind trivial fun a _ => ?_
  cases a with
  | error err => exact report_justified (by decide) _
  | ok seedAddr =>
      refine obeys_ask_bind trivial fun _ _ => obeys_ask_bind trivial fun pods _ => ?_
      refine formMembers_justified ranges (perm_podIndices pods) (fun x _ hdrop => ?_)
        ⟨c, List.mem_append_right _ List.mem_cons_self⟩
      simp [Wanted, hdrop, and_comm]

theorem formCluster_justified :
    Obeys (history (Justified false (dropSet c.spec.leave))) past (formCluster visit c).run
      fun _ _ => True := by
  refine obeys_ask_bind trivial fun _ _ => obeys_ask_bind trivial fun ready _ => ?_
  split
  · exact report_justified (by decide) _
  refine obeys_ask_bind trivial fun _ _ => obeys_ask_bind trivial fun done _ => ?_
  split
  · exact report_justified (by decide) _
  refine obeys_ask_bind trivial fun ok _ => ?_
  cases ok with
  | some token => exact startSeed_justified ranges token
  | none =>
      refine obeys_ask_bind trivial fun logs _ => ?_
      split
      · exact report_justified (by decide) _
      · exact obeys_ask_bind trivial fun _ _ => startSeed_justified ranges _

omit ranges in
theorem claimFirst_justified (nodes : List String) :
    Obeys (history (Justified sidecar drop)) past (claimFirst c nodes).run fun r _ =>
      ∀ c', r = .ok c' → c'.spec.leave = c.spec.leave := by
  cases nodes with
  | nil => exact fun c' h => Except.ok.inj h ▸ rfl
  | cons want nodes =>
      refine obeys_bind_except.mpr ⟨trivial, fun a _ => ?_⟩
      cases a with
      | error err => exact nofun
      | ok => exact fun c' h => Except.ok.inj h ▸ rfl

omit ranges in
/-- Pinning the seed makes no call that needs a reason, and keeps `spec.leave`. -/
theorem resolveSeed_justified :
    Obeys (history (Justified sidecar drop)) past (resolveSeed c).run fun r _ =>
      ∀ c', r = .ok c' → c'.spec.leave = c.spec.leave := by
  unfold resolveSeed
  generalize (if c.spec.seedNodeName = "" then c.statusSeed else c.spec.seedNodeName) = want
  change Obeys _ _ (ite _ _ _ : Op Cluster).run _
  split
  · refine obeys_bind_except.mpr ⟨trivial, fun a _ => ?_⟩
    cases a with
    | error err => exact nofun
    | ok nodes => exact claimFirst_justified _
  · change Obeys _ _ (ite _ _ _ : Op Cluster).run _
    split
    · refine obeys_bind_except.mpr ⟨trivial, fun a _ => ?_⟩
      cases a with
      | error err => exact nofun
      | ok => exact fun c' h => Except.ok.inj h ▸ rfl
    · exact fun c' h => Except.ok.inj h ▸ rfl

theorem reconcileDaemon_justified :
    Obeys (history (Justified false (dropSet c.spec.leave))) past (reconcileDaemon visit c).run
      fun _ _ => True := by
  unfold reconcileDaemon
  split
  · exact report_justified (by decide) _
  refine obeys_bind_except.mpr (resolveSeed_justified.mono fun r past hleave => ?_)
  cases r with
  | error err => trivial
  | ok c' =>
      rw [← hleave c' rfl]
      dsimp only
      split
      · exact report_justified (by decide) _
      · exact formCluster_justified ranges

omit ranges in
theorem perm_podOrdinals (pods : List PodAddr) :
    ((pods.map fun p => (podOrdinal p.name - 1, p)).map Prod.snd).Perm pods := by
  simp [List.map_map, Function.comp_def]

theorem startSidecar_justified (token : String) :
    Obeys (history (Justified true (dropSet c.spec.leave))) past (startSidecar visit c token).run
      fun _ _ => True := by
  refine obeys_ask_bind trivial fun _ _ => obeys_ask_bind trivial fun _ _ =>
    obeys_attempt_bind trivial fun a _ => ?_
  cases a with
  | error err => exact report_justified (by decide) _
  | ok seedAddr =>
      refine obeys_ask_bind trivial fun pods _ => ?_
      refine formMembers_justified ranges (perm_podOrdinals pods) (fun x hx hdrop => ?_)
        ⟨c, List.mem_append_right _ List.mem_cons_self⟩
      obtain ⟨p, -, rfl⟩ := List.mem_map.mp hx
      simp [Wanted, hdrop, and_comm]

theorem reconcileSidecar_justified :
    Obeys (history (Justified true (dropSet c.spec.leave))) past (reconcileSidecar visit c).run
      fun _ _ => True := by
  unfold reconcileSidecar
  split
  · exact report_justified (by decide) _
  refine obeys_ask_bind trivial fun ok _ => ?_
  cases ok with
  | none =>
      refine obeys_ask_bind trivial fun _ _ => obeys_ask_bind trivial fun _ _ =>
        obeys_ask_bind trivial fun ready _ => ?_
      split
      · exact report_justified (by decide) _
      refine obeys_ask_bind trivial fun logs _ => ?_
      split
      · exact report_justified (by decide) _
      · exact obeys_ask_bind trivial fun _ _ => obeys_ask_bind trivial fun _ _ =>
          report_justified (by decide) _
  | some token =>
      refine obeys_ask_bind trivial fun found _ => ?_
      split
      · exact obeys_ask_bind trivial fun _ _ => report_justified (by decide) _
      · exact startSidecar_justified ranges token

end Daemon

section Runs

variable [Go.Unicode] {visit : Go.Map String Unit → List String} (ranges : Ranges visit)
include ranges

theorem topology_justified (c : Cluster) :
    Obeys (history (Justified (c.spec.topologyOrDefault = topoSidecar) (dropSet c.spec.leave)))
      past (if c.spec.topologyOrDefault = topoSidecar then reconcileSidecar visit c
        else if c.spec.topologyOrDefault = topoDaemon then reconcileDaemon visit c
        else report c "Error" ("unknown topology " ++ Go.quote c.spec.topology) :
          Op Unit).run fun _ _ => True := by
  by_cases hside : c.spec.topologyOrDefault = topoSidecar
  · rw [if_pos hside, decide_eq_true hside]
    exact reconcileSidecar_justified ranges
  · rw [if_neg hside, decide_eq_false hside]
    split
    · exact reconcileDaemon_justified ranges
    · exact report_justified (by decide) _

omit [Go.Unicode] ranges in
theorem noteWarning_justified :
    Obeys (history (Justified sidecar drop)) past (noteWarning c).run fun r _ =>
      ∀ c', r = .ok c' → c'.spec = c.spec := by
  refine obeys_bind_except.mpr ⟨trivial, fun n _ => ?_⟩
  cases n with
  | error err => exact nofun
  | ok n =>
      intro c' h
      rw [← Except.ok.inj h]
      split <;> rfl

theorem reconcile_justified (c : Cluster) :
    Obeys (history (Justified (c.spec.topologyOrDefault = topoSidecar) (dropSet c.spec.leave))) []
      (reconcile visit c).run fun _ _ => True := by
  refine obeys_bind_except.mpr (noteWarning_justified.mono fun r past hspec => ?_)
  cases r with
  | error err => trivial
  | ok c' =>
      rw [← hspec c' rfl]
      exact topology_justified ranges c'

/-- In every run of a pass, whatever the calls answer: a status that says `Ready` is
reported only when every pod that is to be a member was found by the first look or has
joined, every member of that look that is to leave has left, and the members reported are
those of a look after all of that; only such pods are joined, and only such members leave. -/
theorem pass_calls_are_justified (c : Cluster) (before after : Made) (call : Call)
    (answer : call.Answer)
    (made : (reconcile visit c).run.Trace (before ++ ⟨call, answer⟩ :: after)) :
    Justified (c.spec.topologyOrDefault = topoSidecar) (dropSet c.spec.leave) before call :=
  (reconcile_justified ranges c).allowed made

end Runs

/-! A sidecar pass that makes one member leave and one pod join. -/

def visitSorted (drop : Go.Map String Unit) : List String := drop.keys.sort (· ≤ ·)

theorem ranges_visitSorted : Ranges visitSorted := by
  intro drop id
  rw [visitSorted, Finset.mem_sort, Go.Map.mem_keys_iff, Option.isSome_iff_exists]

def sidecars : Cluster where
  resourceVersion := "1"
  statusSeed := ""
  spec := { topology := "Sidecar", voterCount := 3, leave := [" old "] }

def newPod : PodAddr := ⟨"x-1", "10.0.0.1", "n1", "10.0.0.1:7947", true⟩

def oldMember : MemberInfo := ⟨"old", "10.0.0.9:7947", "dead", false, "voter"⟩

def newMember : MemberInfo := ⟨"n1", "10.0.0.1:7947", "alive", false, "voter"⟩

def sidecarPast : Made :=
  [⟨.clusterCount, .ok (1 : Int)⟩, ⟨.token sidecars, .ok (some "t")⟩,
    ⟨.jobExists sidecars, .ok false⟩, ⟨.ensureHeadless sidecars.spec sidecars, .ok ()⟩,
    ⟨.ensureStatefulSet sidecars.spec sidecars, .ok ()⟩,
    ⟨.seedReadyAddr sidecars, .ok "s:7947"⟩, ⟨.memberPods sidecars, .ok [newPod]⟩,
    ⟨.snapshot "s:7947", .ok ([oldMember], .ok "n0", .ok "c")⟩,
    ⟨.leave "s:7947" "old", .ok ()⟩,
    ⟨.join "10.0.0.1:7947" "s:7947" "t" false, .ok ()⟩,
    ⟨.snapshot "s:7947", .ok ([newMember], .ok "n0", .ok "c")⟩]

def sidecarStatus : Status :=
  { snapshotStatus [newMember] (.ok "n0") (.ok "c") with phase := "Ready" }

theorem visitSorted_sidecars : visitSorted (dropSet sidecars.spec.leave) = ["old"] := by
  decide +kernel

theorem trace_sidecars : letI := Go.Unicode.ascii
    (reconcile visitSorted sidecars).run.Trace
      (sidecarPast ++ [⟨.patchStatus sidecars sidecarStatus, .ok ()⟩]) := by
  let := Go.Unicode.ascii
  let st := snapshotStatus [oldMember] (.ok "n0") (.ok "c")
  refine .call _ (.call _ (.call _ (.call _ (.call _ (.call _ (.call _ (.call _ ?_)))))))
  change (leaveMembers sidecars "s:7947" st
    (joinPods sidecars "s:7947" "t" (dropSet sidecars.spec.leave) st
      (fun dsIndex p => decide (dsIndex + 1 ≤ 0) || !p.ready) [(0, newPod)])
    (visitSorted (dropSet sidecars.spec.leave))).run.Trace _
  rw [visitSorted_sidecars]
  exact .call _ (.call _ (.call _ (.call _ (.nil _))))

theorem pass_calls_are_justified_sidecars : letI := Go.Unicode.ascii
    (reconcile visitSorted sidecars).run.Trace
        (sidecarPast ++ [⟨.patchStatus sidecars sidecarStatus, .ok ()⟩]) ∧
      sidecarStatus.phase = "Ready" ∧
      Justified (sidecars.spec.topologyOrDefault = topoSidecar) (dropSet sidecars.spec.leave)
        sidecarPast (.patchStatus sidecars sidecarStatus) :=
  letI := Go.Unicode.ascii
  ⟨trace_sidecars, rfl,
    pass_calls_are_justified ranges_visitSorted sidecars sidecarPast [] _ (.ok ()) trace_sidecars⟩

end Clusdr.Operator.Pass
