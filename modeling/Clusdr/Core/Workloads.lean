import Clusdr.Core.ClusdrCluster
import Clusdr.Core.Config

/-!
The containers in which the operator runs daemons, the environment Kubernetes makes of
them in a pod, and the configuration with which `clusdr start` comes up there.
-/

namespace Clusdr.Operator

open Settings (Surroundings)

/-- What the objects of a cluster are named and laid out by. -/
structure Naming where
  ns : String
  crName : String
  dataDir : String := ""

namespace Naming

/-- `Spec.dataDir()`. -/
def dir (n : Naming) : String := if n.dataDir ≠ "" then n.dataDir else "/var/lib/clusdr"

def stsName (n : Naming) : String := n.crName
def headlessName (n : Naming) : String := n.crName

end Naming

/-- Where the value of an `EnvVar` comes from: a text in which references are expanded, or
a field of the pod. -/
inductive EnvSource where
  | value (text : String)
  | fieldRef (fieldPath : String)

structure EnvVar where
  name : String
  source : EnvSource

/-- The daemon's container of a pod. -/
structure Container where
  args : List String
  env : List EnvVar

def daemonEnv (dir : String) (withNodeID : Bool) : List EnvVar :=
  [⟨"NODE_IP", .fieldRef "status.hostIP"⟩,
    ⟨"CLUSDR_DATA_DIR", .value dir⟩,
    ⟨"CLUSDR_CONTROL_SOCKET", .value (dir ++ "/clusdr.sock")⟩,
    ⟨"CLUSDR_GRPC_ADDR", .value "0.0.0.0:7947"⟩,
    ⟨"CLUSDR_NODE_ADDR", .value "$(NODE_IP):7947"⟩,
    ⟨"CLUSDR_RAFT_ADDR", .value "$(NODE_IP):7946"⟩,
    ⟨"CLUSDR_LOG_FORMAT", .value "json"⟩,
    ⟨"CLUSDR_LOG_LEVEL", .value "info"⟩] ++
  if withNodeID then [⟨"CLUSDR_NODE_ID", .fieldRef "spec.nodeName"⟩] else []

def sidecarDNSEnv (ns svc dir : String) : List EnvVar :=
  [⟨"POD_NAME", .fieldRef "metadata.name"⟩,
    ⟨"CLUSDR_NODE_ID", .value "$(POD_NAME)"⟩,
    ⟨"CLUSDR_DATA_DIR", .value dir⟩,
    ⟨"CLUSDR_CONTROL_SOCKET", .value (dir ++ "/clusdr.sock")⟩,
    ⟨"CLUSDR_GRPC_ADDR", .value "0.0.0.0:7947"⟩,
    ⟨"CLUSDR_NODE_ADDR", .value ("$(POD_NAME)." ++ svc ++ "." ++ ns ++ ".svc.cluster.local:7947")⟩,
    ⟨"CLUSDR_RAFT_ADDR", .value ("$(POD_NAME)." ++ svc ++ "." ++ ns ++ ".svc.cluster.local:7946")⟩,
    ⟨"CLUSDR_LOG_FORMAT", .value "json"⟩,
    ⟨"CLUSDR_LOG_LEVEL", .value "info"⟩]

def configArg (n : Naming) : String := n.dir ++ "/clusdr.yaml"

def seedDeploy (n : Naming) : Container where
  args := ["start", "--bootstrap", "--config", configArg n]
  env := daemonEnv n.dir false

def memberDaemonSet (n : Naming) : Container where
  args := ["start"]
  env := daemonEnv n.dir true

def sidecarBootstrapJob (n : Naming) : Container where
  args := ["start", "--bootstrap", "--config", configArg n]
  env :=
    let svc := n.headlessName
    let seedID := n.stsName ++ "-0"
    [⟨"CLUSDR_NODE_ID", .value seedID⟩,
      ⟨"CLUSDR_DATA_DIR", .value n.dir⟩,
      ⟨"CLUSDR_CONTROL_SOCKET", .value (n.dir ++ "/clusdr.sock")⟩,
      ⟨"CLUSDR_GRPC_ADDR", .value "0.0.0.0:7947"⟩,
      ⟨"CLUSDR_NODE_ADDR",
        .value (seedID ++ "." ++ svc ++ "." ++ n.ns ++ ".svc.cluster.local:7947")⟩,
      ⟨"CLUSDR_RAFT_ADDR",
        .value (seedID ++ "." ++ svc ++ "." ++ n.ns ++ ".svc.cluster.local:7946")⟩,
      ⟨"CLUSDR_LOG_FORMAT", .value "json"⟩]

def memberStatefulSet (n : Naming) : Container where
  args := ["start", "--config", configArg n]
  env := sidecarDNSEnv n.ns n.headlessName n.dir

/-- A scheduled pod. -/
structure Pod where
  name : String
  nodeName : String
  hostIP : String
  ready : Bool := true
deriving DecidableEq

/-- `fmt.Sprintf("%s.%s.%s.svc.cluster.local:%d", …)`. -/
def sidecarPodDNS (pod : String) (n : Naming) : String :=
  pod ++ "." ++ n.headlessName ++ "." ++ n.ns ++ ".svc.cluster.local:" ++ toString grpcPort

/-- What `MemberPods` makes of a pod. -/
def Pod.podAddr (sidecar : Bool) (n : Naming) (p : Pod) : PodAddr :=
  let pa : PodAddr :=
    { name := p.name, hostIP := p.hostIP, nodeName := p.nodeName, addr := "", ready := p.ready }
  if sidecar then { pa with nodeName := p.name, addr := sidecarPodDNS p.name n }
  else { pa with addr := memberAddr pa }

/-! The environment of a container, as Kubernetes documents it: the variables are set in
order, and a text may refer to those before it. -/

namespace Kubernetes

/-- A reference in a text; one to no variable stays as it is written. -/
def reference (vars : String → Option String) (name : List Char) : List Char :=
  match vars (String.ofList name) with
  | some value => value.toList
  | none => '$' :: '(' :: name ++ [')']

/-- The expansion of at most `n` characters and references; the rest is left alone. -/
def expandFirst (vars : String → Option String) : Nat → List Char → List Char
  | 0, text => text
  | _ + 1, [] => []
  | n + 1, '$' :: '$' :: text => '$' :: expandFirst vars n text
  | n + 1, '$' :: '(' :: text =>
      match text.dropWhile (· ≠ ')') with
      | [] => '$' :: '(' :: expandFirst vars n text
      | _ :: after => reference vars (text.takeWhile (· ≠ ')')) ++ expandFirst vars n after
  | n + 1, r :: text => r :: expandFirst vars n text

def expand (vars : String → Option String) (text : String) : String :=
  String.ofList (expandFirst vars text.length text.toList)

def field (p : Pod) (fieldPath : String) : String :=
  if fieldPath = "metadata.name" then p.name
  else if fieldPath = "spec.nodeName" then p.nodeName
  else if fieldPath = "status.hostIP" then p.hostIP
  else ""

def resolve (p : Pod) (vars : String → Option String) : EnvSource → String
  | .value text => expand vars text
  | .fieldRef fieldPath => field p fieldPath

def set (p : Pod) (vars : String → Option String) (v : EnvVar) (key : String) : Option String :=
  if key = v.name then some (resolve p vars v.source) else vars key

def environment (p : Pod) (env : List EnvVar) : String → Option String :=
  env.foldl (set p) fun _ => none

end Kubernetes

/-- The `--config` of a command line, or its default. -/
def configPath : List String → String
  | [] | [_] => "clusdr.yaml"
  | arg :: path :: args => if arg = "--config" then path else configPath (path :: args)

/-- `InitStore`: the ids of the store stand in for those the configuration leaves out. -/
def initStore (cfg : Settings.Config) : Option (String × String) → Settings.Config
  | none => cfg
  | some (nodeID, clusterID) =>
      { cfg with
        node := { cfg.node with id := if cfg.node.id = "" then nodeID else cfg.node.id }
        clusterID := if cfg.clusterID = "" then clusterID else cfg.clusterID }

/-- What a pod's daemon finds besides what the operator wrote: its surroundings, with the
environment of the image in `getenv`, and the identity in its store. -/
structure Host where
  surroundings : Surroundings
  identity : Option (String × String)

/-- The environment `clusdr start` reads in a pod. -/
def startEnv (h : Host) (k : Container) (p : Pod) (key : String) : String :=
  if k.args.contains "--bootstrap" ∧ key = "CLUSDR_RAFT_BOOTSTRAP" then "true"
  else (Kubernetes.environment p k.env key).getD (h.surroundings.getenv key)

/-- The configuration with which `clusdr start` runs in a pod. -/
def startConfig [Go.Unicode] (h : Host) (k : Container) (p : Pod) :
    Except String Settings.Config :=
  let w := { h.surroundings with getenv := startEnv h k p }
  (Settings.Config.loadFrom w (configPath k.args)).map (initStore · h.identity)

end Clusdr.Operator
