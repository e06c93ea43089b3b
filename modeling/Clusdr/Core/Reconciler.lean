import Clusdr.Calls.Program
import Clusdr.Core.ClusdrCluster
import Mathlib.Data.List.Sort
import Mathlib.Data.String.Basic

/-!
`Reconcile`: one pass over a `ClusdrCluster`. A pass is a program over the calls
of `Platform` and `Joiner`; an error of a call ends it unless the code reports the
error in the status.
-/

namespace Clusdr.Operator

open Calls (Prog)
open Go (Unicode)

/-- The methods of `Platform` and `Joiner`. -/
inductive Call where
  | readyNodes
  | claimSeed (c : Cluster) (node : String)
  | ensurePrepare (spec : Spec) (c : Cluster)
  | prepareReady (c : Cluster)
  | ensureJob (spec : Spec) (c : Cluster)
  | jobComplete (c : Cluster)
  | jobLogs (c : Cluster)
  | token (c : Cluster)
  | putToken (c : Cluster) (token : String)
  | ensureSeed (spec : Spec) (c : Cluster)
  | seedReadyAddr (c : Cluster)
  | ensureDaemonSet (spec : Spec) (c : Cluster)
  | memberPods (c : Cluster)
  | patchStatus (c : Cluster) (st : Status)
  | ensurePVC (spec : Spec) (c : Cluster)
  | ensureBootstrapJob (spec : Spec) (c : Cluster)
  | bootstrapReady (c : Cluster)
  | jobExists (c : Cluster)
  | deleteJob (c : Cluster)
  | ensureHeadless (spec : Spec) (c : Cluster)
  | ensureStatefulSet (spec : Spec) (c : Cluster)
  | clusterCount
  | join (localAddr seedAddr token : String) (observer : Bool)
  | leave (seedAddr nodeID : String)
  | snapshot (seedAddr : String)

/-- What a call returns besides its error. `Token` returns a token that is ok, and
`Snapshot` is what the three requests behind it return. -/
def Call.Payload : Call → Type
  | .readyNodes => List String
  | .prepareReady _ | .jobComplete _ | .bootstrapReady _ | .jobExists _ => Bool
  | .jobLogs _ | .seedReadyAddr _ => String
  | .token _ => Option String
  | .memberPods _ => List PodAddr
  | .clusterCount => Int
  | .snapshot _ => List MemberInfo × Except String String × Except String String
  | _ => Unit

abbrev Call.Answer (c : Call) : Type := Except String c.Payload

abbrev Op := ExceptT String (Prog Call Call.Answer)

/-- A call whose error ends the pass. -/
def ask (c : Call) : Op c.Payload := ExceptT.mk (.perform c)

/-- A call whose error the pass looks at. -/
def attempt (c : Call) : Op c.Answer := ExceptT.lift (.perform c)

def patchStatus (c : Cluster) (st : Status) : Op Unit :=
  ask (.patchStatus c { st with
    seedNodeName := if st.seedNodeName = "" then c.spec.seedNodeName else st.seedNodeName
    warning := c.warning })

def report (c : Cluster) (phase message : String) : Op Unit :=
  patchStatus c { observedGeneration := c.generation, phase, message }

/-- The claim of the first Ready node, if there is one. -/
def claimFirst (c : Cluster) : List String → Op Cluster
  | [] => return c
  | want :: _ => do
      ask (.claimSeed c want)
      return { c with spec := { c.spec with seedNodeName := want }, statusSeed := want }

def resolveSeed (c : Cluster) : Op Cluster := do
  let want := if c.spec.seedNodeName = "" then c.statusSeed else c.spec.seedNodeName
  if want = "" then
    let nodes : List String ← ask .readyNodes
    claimFirst c (nodes.insertionSort (· ≤ ·))
  else
    let c := { c with spec := { c.spec with seedNodeName := want } }
    if c.statusSeed ≠ want then
      ask (.claimSeed c want)
      return { c with statusSeed := want }
    else return c

/-- The end of a pass: the members go into the status. -/
def memberStatus (c : Cluster) (seedAddr : String) : Op Unit := do
  match ← attempt (.snapshot seedAddr) with
  | .error err => report c "Pending" ("members: " ++ err)
  | .ok (list, lead, health) =>
      let st := snapshotStatus list lead health
      patchStatus c { st with
        observedGeneration := c.generation
        phase := if st.phase = "" then "Ready" else st.phase
        message := "" }

/-- The join loop. `skip` is what the topology leaves out; `dsIndex` decides who votes. -/
def joinPods (c : Cluster) (seedAddr token : String) (drop : Go.Map String Unit) (st : Status)
    (skip : Int → PodAddr → Bool) : List (Int × PodAddr) → Op Unit
  | [] => memberStatus c seedAddr
  | (dsIndex, p) :: pods => do
      if skip dsIndex p || (drop.get p.nodeName).isSome || alreadyMember st p then
        joinPods c seedAddr token drop st skip pods
      else
        match ← attempt (.join (joinAddr p) seedAddr token
            (memberObserver dsIndex c.spec.voterCount)) with
        | .error err => report c "Pending" ("join " ++ p.name ++ ": " ++ err)
        | .ok _ => joinPods c seedAddr token drop st skip pods

/-- The loop over `spec.leave`, and the rest of the pass. -/
def leaveMembers (c : Cluster) (seedAddr : String) (st : Status) (rest : Op Unit) :
    List String → Op Unit
  | [] => rest
  | id :: ids => do
      if !memberListed st id then leaveMembers c seedAddr st rest ids
      else
        match ← attempt (.leave seedAddr id) with
        | .error err => report c "Pending" ("leave " ++ id ++ ": " ++ err)
        | .ok _ => leaveMembers c seedAddr st rest ids

/-- From the first snapshot on. `visit` is the order in which a map is ranged over. -/
def formMembers (visit : Go.Map String Unit → List String) (c : Cluster)
    (seedAddr token : String) (skip : Int → PodAddr → Bool) (pods : List (Int × PodAddr)) :
    Op Unit := do
  match ← attempt (.snapshot seedAddr) with
  | .error err => report c "Pending" ("members: " ++ err)
  | .ok (list, lead, health) =>
      let st := snapshotStatus list lead health
      let drop := dropSet c.spec.leave
      leaveMembers c seedAddr st (joinPods c seedAddr token drop st skip pods) (visit drop)

def badVoterCount (c : Cluster) : Bool := c.spec.voterCount < 1 || c.spec.voterCount % 2 = 0

def podIndices (pods : List PodAddr) : List (Int × PodAddr) :=
  (pods.insertionSort (·.name ≤ ·.name)).zipIdx.map fun (p, i) => ((i : Int), p)

def startSeed (visit : Go.Map String Unit → List String) (c : Cluster) (token : String) :
    Op Unit := do
  ask (.ensureSeed c.spec c)
  match ← attempt (.seedReadyAddr c) with
  | .error err => report c "Pending" ("waiting for seed Runtime: " ++ err)
  | .ok seedAddr =>
      ask (.ensureDaemonSet c.spec c)
      let pods : List PodAddr ← ask (.memberPods c)
      formMembers visit c seedAddr token (fun _ p => p.hostIP = "" || !p.ready) (podIndices pods)

def initSeed (visit : Go.Map String Unit → List String) (c : Cluster) : Op Unit := do
  ask (.ensureJob c.spec c)
  let done : Bool ← ask (.jobComplete c)
  if !done then report c "Pending" "waiting for seed init"
  else
    let ok : Option String ← ask (.token c)
    match ok with
    | some token => startSeed visit c token
    | none =>
        let logs : String ← ask (.jobLogs c)
        match parseJoinToken logs with
        | .error _ =>
            report c "Error" "init finished but join token missing (re-init or set secret)"
        | .ok token =>
            ask (.putToken c token)
            startSeed visit c token

/-- The pass from the moment the seed is pinned. -/
def formCluster (visit : Go.Map String Unit → List String) (c : Cluster) : Op Unit := do
  ask (.ensurePrepare c.spec c)
  let ready : Bool ← ask (.prepareReady c)
  if !ready then report c "Pending" "waiting for hostPath prepare"
  else initSeed visit c

def reconcileDaemon (visit : Go.Map String Unit → List String) (c : Cluster) : Op Unit := do
  if badVoterCount c then report c "Error" "voterCount must be an odd integer >= 1"
  else
    let c ← resolveSeed c
    if c.spec.seedNodeName = "" then report c "Pending" "waiting for a Ready node"
    else formCluster visit c

def bootstrapSidecar (c : Cluster) : Op Unit := do
  ask (.ensurePVC c.spec c)
  ask (.ensureBootstrapJob c.spec c)
  let ready : Bool ← ask (.bootstrapReady c)
  if !ready then report c "Pending" "waiting for sidecar bootstrap"
  else
    let logs : String ← ask (.jobLogs c)
    match parseJoinToken logs with
    | .error _ =>
        report c "Error" "bootstrap finished but join token missing (re-init or set secret)"
    | .ok token =>
        ask (.putToken c token)
        ask (.deleteJob c)
        report c "Pending" "waiting to start StatefulSet"

def startSidecar (visit : Go.Map String Unit → List String) (c : Cluster) (token : String) :
    Op Unit := do
  ask (.ensureHeadless c.spec c)
  ask (.ensureStatefulSet c.spec c)
  match ← attempt (.seedReadyAddr c) with
  | .error err => report c "Pending" ("waiting for sidecar-0 Runtime: " ++ err)
  | .ok seedAddr =>
      let pods : List PodAddr ← ask (.memberPods c)
      formMembers visit c seedAddr token (fun dsIndex p => decide (dsIndex + 1 ≤ 0) || !p.ready)
        (pods.map fun p => (podOrdinal p.name - 1, p))

def reconcileSidecar (visit : Go.Map String Unit → List String) (c : Cluster) : Op Unit := do
  if badVoterCount c then report c "Error" "voterCount must be an odd integer >= 1"
  else
    let ok : Option String ← ask (.token c)
    match ok with
    | none => bootstrapSidecar c
    | some token =>
        let found : Bool ← ask (.jobExists c)
        if found then
          ask (.deleteJob c)
          report c "Pending" "waiting for bootstrap Job to release PVC"
        else startSidecar visit c token

def noteWarning (c : Cluster) : Op Cluster := do
  let n : Int ← ask .clusterCount
  return if n ≥ 2 then { c with warning := warnTwoClusters } else c

def reconcile [Unicode] (visit : Go.Map String Unit → List String) (c : Cluster) : Op Unit := do
  let c ← noteWarning c
  if c.spec.topologyOrDefault = topoSidecar then reconcileSidecar visit c
  else if c.spec.topologyOrDefault = topoDaemon then reconcileDaemon visit c
  else report c "Error" ("unknown topology " ++ Go.quote c.spec.topology)

end Clusdr.Operator
