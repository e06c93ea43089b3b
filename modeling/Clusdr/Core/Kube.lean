import Clusdr.Core.Reconciler

/-!
`Kube`, the platform over the API server: the claim of the seed and the status of
the `ClusdrCluster`, and the token Secret, the bootstrap Job and the StatefulSet of
the sidecar topology. The other methods stay single calls.
-/

namespace Clusdr.Operator

open Calls (Prog)

inductive ApiError where
  | notFound
  | failed (err : String)

def ApiError.message : ApiError → String
  | .notFound => "not found"
  | .failed err => err

/-- The stored `ClusdrCluster`; a key that is missing from the status is empty. -/
structure Object where
  resourceVersion : String
  status : Status
deriving DecidableEq

/-- The body of a merge patch of the status. -/
structure StatusPatch where
  clusterID : String
  leader : String
  members : List MemberStatus
  observedGeneration : Int
  phase : String
  message : String
  warning : String
  seedNodeName : Option String

def statusMap (st : Status) : StatusPatch where
  clusterID := st.clusterID
  leader := st.leader
  members := st.members
  observedGeneration := st.observedGeneration
  phase := st.phase
  message := st.message
  warning := st.warning
  seedNodeName := if st.seedNodeName ≠ "" then some st.seedNodeName else none

/-- A merge patch leaves absent keys alone. -/
def StatusPatch.merge (p : StatusPatch) (st : Status) : Status where
  clusterID := p.clusterID
  leader := p.leader
  members := p.members
  observedGeneration := p.observedGeneration
  phase := p.phase
  message := p.message
  warning := p.warning
  seedNodeName := p.seedNodeName.getD st.seedNodeName

/-- Requests to the API server; the Job, the StatefulSet and the Secret are those of the
sidecar topology of the cluster. A Secret is the token it holds. -/
inductive Request where
  | call (c : Call)
  | getCluster
  | updateStatus (u : Object)
  | patchStatus (body : StatusPatch)
  | getSecret
  | createSecret (token : String)
  | updateSecret (token : String)
  | getJob
  | createJob
  | deleteJob
  | getStatefulSet
  | createStatefulSet

def Request.Answer : Request → Type
  | .call c => c.Answer
  | .getCluster => Except ApiError Object
  | .getSecret => Except ApiError String
  | _ => Except ApiError Unit

namespace Kube

abbrev Act := Prog Request Request.Answer

def request (r : Request) : Act r.Answer := .perform r

/-- A write, with the error the caller sees. -/
def commit (r : Act (Except ApiError Unit)) : Act (Except String Unit) := do
  return (← r).mapError ApiError.message

/-- The object is created unless it is there. -/
def ensure (get create : Act (Except ApiError Unit)) : Act (Except String Unit) := do
  match ← get with
  | .error .notFound => commit create
  | .error (.failed err) => return .error err
  | .ok _ => return .ok ()

def ensureBootstrapJob : Act (Except String Unit) := ensure (request .getJob) (request .createJob)

def ensureStatefulSet : Act (Except String Unit) :=
  ensure (request .getStatefulSet) (request .createStatefulSet)

def claimSeed (c : Cluster) (node : String) : Act (Except String Unit) := do
  let u : Except ApiError Object ← request .getCluster
  match u with
  | .error err => return .error err.message
  | .ok u =>
      commit (request (.updateStatus {
        resourceVersion :=
          if c.resourceVersion ≠ "" then c.resourceVersion else u.resourceVersion
        status := { u.status with seedNodeName := node } }))

def patchStatus (st : Status) : Act (Except String Unit) :=
  commit (request (.patchStatus (statusMap st)))

def token : Act (Except String (Option String)) := do
  let b : Except ApiError String ← request .getSecret
  match b with
  | .error .notFound => return .ok none
  | .error (.failed err) => return .error err
  | .ok b => return .ok (if b = "" then none else some b)

def putToken (token : String) : Act (Except String Unit) := do
  let existing : Except ApiError String ← request .getSecret
  match existing with
  | .error .notFound => commit (request (.createSecret token))
  | .error (.failed err) => return .error err
  | .ok _ => commit (request (.updateSecret token))

def jobExists : Act (Except String Bool) := do
  let found : Except ApiError Unit ← request .getJob
  match found with
  | .error .notFound => return .ok false
  | .error (.failed err) => return .error err
  | .ok _ => return .ok true

def deleteJob : Act (Except String Unit) := do
  let deleted : Except ApiError Unit ← request .deleteJob
  match deleted with
  | .error .notFound => return .ok ()
  | .error (.failed err) => return .error err
  | .ok _ => return .ok ()

/-- The methods as `Platform` and `Joiner` offer them. -/
def perform : (c : Call) → Act c.Answer
  | .claimSeed c node => claimSeed c node
  | .patchStatus _ st => patchStatus st
  | .token _ => token
  | .putToken _ t => putToken t
  | .ensureBootstrapJob _ _ => ensureBootstrapJob
  | .jobExists _ => jobExists
  | .deleteJob _ => deleteJob
  | .ensureStatefulSet _ _ => ensureStatefulSet
  | c => request (.call c)

/-- The requests a method can make. -/
inductive Makes : Call → Request → Prop
  | getCluster {c node} : Makes (.claimSeed c node) .getCluster
  | updateStatus {c node} (rv : String) (st : Status) :
      Makes (.claimSeed c node) (.updateStatus ⟨rv, { st with seedNodeName := node }⟩)
  | patchStatus {c st} : Makes (.patchStatus c st) (.patchStatus (statusMap st))
  | readSecret {c} : Makes (.token c) .getSecret
  | getSecret {c t} : Makes (.putToken c t) .getSecret
  | createSecret {c t} : Makes (.putToken c t) (.createSecret t)
  | updateSecret {c t} : Makes (.putToken c t) (.updateSecret t)
  | readJob {c} : Makes (.jobExists c) .getJob
  | getJob {spec c} : Makes (.ensureBootstrapJob spec c) .getJob
  | createJob {spec c} : Makes (.ensureBootstrapJob spec c) .createJob
  | deleteJob {c} : Makes (.deleteJob c) .deleteJob
  | getStatefulSet {spec c} : Makes (.ensureStatefulSet spec c) .getStatefulSet
  | createStatefulSet {spec c} : Makes (.ensureStatefulSet spec c) .createStatefulSet
  | call (c : Call) : Makes c (.call c)

theorem every_perform (call : Call) : (perform call).Every (Makes call) := by
  cases call with
  | claimSeed c node =>
      refine ⟨.getCluster, fun b => ?_⟩
      cases b with
      | error err => trivial
      | ok u => exact ⟨.updateStatus _ _, fun _ => trivial⟩
  | patchStatus c st => exact ⟨.patchStatus, fun _ => trivial⟩
  | token c =>
      refine ⟨.readSecret, fun b => ?_⟩
      rcases b with (_ | err) | _ <;> trivial
  | putToken c t =>
      refine ⟨.getSecret, fun b => ?_⟩
      rcases b with (_ | err) | _
      · exact ⟨.createSecret, fun _ => trivial⟩
      · trivial
      · exact ⟨.updateSecret, fun _ => trivial⟩
  | ensureBootstrapJob spec c =>
      refine ⟨.getJob, fun b => ?_⟩
      rcases b with (_ | err) | _
      · exact ⟨.createJob, fun _ => trivial⟩
      · trivial
      · trivial
  | jobExists c =>
      refine ⟨.readJob, fun b => ?_⟩
      rcases b with (_ | err) | _ <;> trivial
  | deleteJob c =>
      refine ⟨.deleteJob, fun b => ?_⟩
      rcases b with (_ | err) | _ <;> trivial
  | ensureStatefulSet spec c =>
      refine ⟨.getStatefulSet, fun b => ?_⟩
      rcases b with (_ | err) | _
      · exact ⟨.createStatefulSet, fun _ => trivial⟩
      · trivial
      · trivial
  | _ => exact ⟨.call _, fun _ => trivial⟩

end Kube

/-- A pass of the operator as the API server sees it. -/
def Op.overKube (pass : Op Unit) : Kube.Act (Except String Unit) :=
  Prog.via Kube.perform pass.run

end Clusdr.Operator
