import Clusdr.Core.Reconciler

/-!
The calls of a pass. Whatever is answered, a pass that has a seed reports the seed
it was given, and makes no call beyond those of its stage.
-/

namespace Clusdr.Operator

open Calls (Prog Protocol)
open Calls.Prog (Every every_bind every_bind_except Obeys obeys_bind_except)

/-- What becomes of a request: it fails before or after it took effect, or it works. -/
inductive Fate where
  | fails (err : String)
  | lost (err : String)
  | works

/-- Every call works and finds nothing. -/
def Call.blank : (call : Call) → call.Answer
  | .readyNodes => .ok []
  | .prepareReady _ | .jobComplete _ | .bootstrapReady _ | .jobExists _ => .ok false
  | .jobLogs _ | .seedReadyAddr _ => .ok ""
  | .token _ => .ok none
  | .memberPods _ => .ok []
  | .clusterCount => .ok (0 : Int)
  | .snapshot _ => .ok ([], .ok "", .ok "")
  | .claimSeed _ _ | .ensurePrepare _ _ | .ensureJob _ _ | .putToken _ _ | .ensureSeed _ _ => .ok ()
  | .ensureDaemonSet _ _ | .patchStatus _ _ | .ensurePVC _ _ | .ensureBootstrapJob _ _ => .ok ()
  | .deleteJob _ | .ensureHeadless _ _ | .ensureStatefulSet _ _ => .ok ()
  | .join _ _ _ _ | .leave _ _ => .ok ()

/-- The seed that an `Ensure` call of the daemon topology carries. -/
def Call.ensures : Call → List String
  | .ensurePrepare spec _ | .ensureJob spec _ | .ensureSeed spec _ | .ensureDaemonSet spec _ =>
      [spec.seedNodeName]
  | _ => []

def Call.writesStatus : Call → Bool
  | .claimSeed _ _ | .patchStatus _ _ => true
  | _ => false

/-- The calls a pass makes from the first snapshot on. -/
structure Roster (ok : Call → Prop) (c : Cluster) : Prop where
  patch : ∀ st, st.seedNodeName = c.spec.seedNodeName → ok (.patchStatus c st)
  snapshot : ∀ seedAddr, ok (.snapshot seedAddr)
  leave : ∀ seedAddr id, ok (.leave seedAddr id)
  join : ∀ localAddr seedAddr token observer, ok (.join localAddr seedAddr token observer)

variable {ok : Call → Prop} {c : Cluster}

theorem every_ask {call : Call} (h : ok call) : Every ok (ask call).run := ⟨h, fun _ => trivial⟩

theorem every_attempt {α : Type} {call : Call} {f : call.Answer → Op α} (h : ok call)
    (hf : ∀ a, Every ok (f a).run) : Every ok (attempt call >>= f).run :=
  every_bind_except ⟨h, fun _ => trivial⟩ hf

theorem every_report (patch : ∀ st, st.seedNodeName = c.spec.seedNodeName → ok (.patchStatus c st))
    (phase message : String) : Every ok (report c phase message).run :=
  every_ask (patch _ rfl)

theorem every_memberStatus (roster : Roster ok c) (seedAddr : String) :
    Every ok (memberStatus c seedAddr).run := by
  refine every_attempt (roster.snapshot seedAddr) fun a => ?_
  cases a with
  | error err => exact every_report roster.patch _ _
  | ok lists => exact every_ask (roster.patch _ rfl)

theorem every_joinPods (roster : Roster ok c) (seedAddr token : String)
    (drop : Go.Map String Unit) (st : Status) (skip : Int → PodAddr → Bool)
    (pods : List (Int × PodAddr)) :
    Every ok (joinPods c seedAddr token drop st skip pods).run := by
  induction pods with
  | nil => exact every_memberStatus roster seedAddr
  | cons p pods ih =>
      unfold joinPods
      split
      · exact ih
      · refine every_attempt (roster.join _ _ _ _) fun a => ?_
        cases a with
        | error err => exact every_report roster.patch _ _
        | ok => exact ih

theorem every_leaveMembers (roster : Roster ok c) (seedAddr : String) (st : Status)
    {rest : Op Unit} (hrest : Every ok rest.run) (ids : List String) :
    Every ok (leaveMembers c seedAddr st rest ids).run := by
  induction ids with
  | nil => exact hrest
  | cons id ids ih =>
      unfold leaveMembers
      split
      · exact ih
      · refine every_attempt (roster.leave _ _) fun a => ?_
        cases a with
        | error err => exact every_report roster.patch _ _
        | ok => exact ih

theorem every_formMembers (roster : Roster ok c) (visit : Go.Map String Unit → List String)
    (seedAddr token : String) (skip : Int → PodAddr → Bool) (pods : List (Int × PodAddr)) :
    Every ok (formMembers visit c seedAddr token skip pods).run := by
  refine every_attempt (roster.snapshot seedAddr) fun a => ?_
  cases a with
  | error err => exact every_report roster.patch _ _
  | ok lists =>
      exact every_leaveMembers roster seedAddr _ (every_joinPods roster _ _ _ _ _ _) _

/-- The calls a pass makes once its seed is pinned. -/
structure Formation (ok : Call → Prop) (c : Cluster) : Prop where
  patch : ∀ st, st.seedNodeName = c.spec.seedNodeName → ok (.patchStatus c st)
  other : ∀ call : Call, call.writesStatus = false →
    (∀ s ∈ call.ensures, s = c.spec.seedNodeName) → ok call

theorem Formation.roster (formation : Formation ok c) : Roster ok c where
  patch := formation.patch
  snapshot _ := formation.other _ rfl nofun
  leave _ _ := formation.other _ rfl nofun
  join _ _ _ _ := formation.other _ rfl nofun

theorem every_startSeed (formation : Formation ok c) (visit : Go.Map String Unit → List String)
    (token : String) : Every ok (startSeed visit c token).run := by
  refine every_bind_except (every_ask (formation.other _ rfl (by simp [Call.ensures]))) fun _ => ?_
  refine every_attempt (formation.other _ rfl nofun) fun a => ?_
  cases a with
  | error err => exact every_report formation.patch _ _
  | ok seedAddr =>
      refine every_bind_except
        (every_ask (formation.other _ rfl (by simp [Call.ensures]))) fun _ => ?_
      refine every_bind_except (every_ask (formation.other _ rfl nofun)) fun pods => ?_
      exact every_formMembers formation.roster _ _ _ _ _

theorem every_initSeed (formation : Formation ok c) (visit : Go.Map String Unit → List String) :
    Every ok (initSeed visit c).run := by
  refine every_bind_except (every_ask (formation.other _ rfl (by simp [Call.ensures]))) fun _ => ?_
  refine every_bind_except (every_ask (formation.other _ rfl nofun)) fun done => ?_
  split
  · exact every_report formation.patch _ _
  · refine every_bind_except (every_ask (formation.other _ rfl nofun)) fun ok => ?_
    cases ok with
    | some token => exact every_startSeed formation visit token
    | none =>
        refine every_bind_except (every_ask (formation.other _ rfl nofun)) fun logs => ?_
        split
        · exact every_report formation.patch _ _
        · exact every_bind_except (every_ask (formation.other _ rfl nofun)) fun _ =>
            every_startSeed formation visit _

theorem every_formCluster (formation : Formation ok c) (visit : Go.Map String Unit → List String) :
    Every ok (formCluster visit c).run := by
  refine every_bind_except (every_ask (formation.other _ rfl (by simp [Call.ensures]))) fun _ => ?_
  refine every_bind_except (every_ask (formation.other _ rfl nofun)) fun ready => ?_
  split
  · exact every_report formation.patch _ _
  · exact every_initSeed formation visit

variable {Q : Type} {π : Protocol Call Call.Answer Q} {q : Q}

/-- A call whose error ends the pass. -/
theorem obeys_ask_bind {α : Type} {call : Call} {f : call.Payload → Op α}
    (allowed : π.allows q call)
    (h : ∀ a, π.may q call (.ok a) →
      Obeys π (π.next q call (.ok a)) (f a).run fun _ _ => True) :
    Obeys π q (ask call >>= f).run fun _ _ => True := by
  refine obeys_bind_except.mpr ⟨allowed, fun a ha => ?_⟩
  cases a with
  | error err => trivial
  | ok a => exact h a ha

/-- A call whose error the pass looks at. -/
theorem obeys_attempt_bind {α : Type} {call : Call} {f : call.Answer → Op α}
    (allowed : π.allows q call)
    (h : ∀ a, π.may q call a → Obeys π (π.next q call a) (f a).run fun _ _ => True) :
    Obeys π q (attempt call >>= f).run fun _ _ => True :=
  obeys_bind_except.mpr ⟨allowed, h⟩

end Clusdr.Operator
