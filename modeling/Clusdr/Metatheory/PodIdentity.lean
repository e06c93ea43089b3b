import Clusdr.Core.Workloads
import Clusdr.Metatheory.RaftTimeouts
import Clusdr.Metatheory.ElectedAddress

/-!
Who the daemons in the operator's pods take themselves for. The operator tells its pods
apart by what Kubernetes says of them, the cluster by what the daemons in them read from
their environment; both come to the same names and addresses.
-/

namespace Clusdr.Operator

open Settings (Surroundings)
open Settings.Config (loadFrom)

namespace Kubernetes

/-- A text without references. -/
def Plain (text : String) : Prop := '$' ∉ text.toList

instance (text : String) : Decidable (Plain text) := inferInstanceAs (Decidable (_ ∉ _))

theorem expandFirst_plain (vars : String → Option String) {text : List Char} (plain : '$' ∉ text)
    (n : Nat) : expandFirst vars n text = text := by
  induction n generalizing text with
  | zero => rfl
  | succ n ih =>
      cases text with
      | nil => rfl
      | cons r text =>
          obtain ⟨hr, htext⟩ := not_or.mp (mt List.mem_cons.mpr plain)
          rw [expandFirst, ih htext]
          · exact fun _ h => absurd h.symm hr
          · exact fun _ h => absurd h.symm hr

theorem expand_plain (vars : String → Option String) {text : String} (plain : Plain text) :
    expand vars text = text := by
  rw [expand, expandFirst_plain vars plain, String.ofList_toList]

theorem expand_reference {vars : String → Option String} {name value rest : String}
    (closed : ')' ∉ name.toList) (known : vars name = some value) (plain : Plain rest) :
    expand vars ("$(" ++ name ++ ")" ++ rest) = value ++ rest := by
  have htext : ("$(" ++ name ++ ")" ++ rest).toList =
      '$' :: '(' :: (name.toList ++ ')' :: rest.toList) := by
    simp [String.toList_append]
  have hopen : ∀ r ∈ name.toList, decide (r ≠ ')') = true :=
    fun r hr => decide_eq_true fun h => closed (h ▸ hr)
  have hname : (name.toList ++ ')' :: rest.toList).takeWhile (· ≠ ')') = name.toList := by
    rw [List.takeWhile_append_of_pos hopen]
    simp
  have hafter : (name.toList ++ ')' :: rest.toList).dropWhile (· ≠ ')') = ')' :: rest.toList := by
    rw [List.dropWhile_append_of_pos hopen]
    simp
  obtain ⟨n, hn⟩ : ∃ n, ("$(" ++ name ++ ")" ++ rest).length = n + 1 :=
    ⟨_, by rw [← String.length_toList, htext, List.length_cons]⟩
  rw [expand, hn, htext, expandFirst, hafter, hname]
  dsimp only
  rw [expandFirst_plain vars plain, reference, String.ofList_toList, known, String.ofList_append,
    String.ofList_toList, String.ofList_toList]

theorem environment_other (p : Pod) (vars : String → Option String) {env : List EnvVar}
    {key : String} (other : ∀ w ∈ env, key ≠ w.name) : env.foldl (set p) vars key = vars key := by
  induction env generalizing vars with
  | nil => rfl
  | cons w env ih =>
      rw [List.foldl_cons, ih _ fun w hw => other w (List.mem_cons_of_mem _ hw)]
      exact if_neg (other w List.mem_cons_self)

/-- What the variable at place `i` is, if none after it has its name. -/
theorem environment_at (p : Pod) {env : List EnvVar} {i : Nat} {v : EnvVar}
    (at_i : env[i]? = some v) (last : ∀ w ∈ env.drop (i + 1), v.name ≠ w.name) :
    environment p env v.name = some (resolve p (environment p (env.take i)) v.source) := by
  obtain ⟨hi, hv⟩ := List.getElem?_eq_some_iff.mp at_i
  have hsplit : env.take i ++ v :: env.drop (i + 1) = env := by
    rw [← hv, List.getElem_cons_drop, List.take_append_drop]
  have hset : environment p (env.take i ++ v :: env.drop (i + 1)) v.name =
      set p (environment p (env.take i)) v v.name := by
    rw [environment, List.foldl_append, List.foldl_cons, environment_other p _ last]
    rfl
  rw [hsplit] at hset
  exact hset.trans (if_pos rfl)

theorem field_name (p : Pod) : field p "metadata.name" = p.name := if_pos rfl

theorem field_nodeName (p : Pod) : field p "spec.nodeName" = p.nodeName := by simp [field]

theorem field_hostIP (p : Pod) : field p "status.hostIP" = p.hostIP := by simp [field]

/-- A variable that refers to the first one, which is a field of the pod. -/
theorem environment_reference {p : Pod} {fieldPath value : String}
    (named : field p fieldPath = value) (rest : String) {env : List EnvVar} {i : Nat}
    {key text name : String}
    (first : env[0]? = some ⟨name, .fieldRef fieldPath⟩) (once : ∀ w ∈ env.drop 1, name ≠ w.name)
    (at_i : env[i + 1]? = some ⟨key, .value text⟩) (last : ∀ w ∈ env.drop (i + 2), key ≠ w.name)
    (refers : text = "$(" ++ name ++ ")" ++ rest) (closed : ')' ∉ name.toList)
    (plain : Plain rest) : environment p env key = some (value ++ rest) := by
  have hfirst : (env.take (i + 1))[0]? = some ⟨name, .fieldRef fieldPath⟩ := by
    rw [List.getElem?_take_of_lt (Nat.succ_pos i), first]
  have honce : ∀ w ∈ (env.take (i + 1)).drop 1, name ≠ w.name := by
    intro w hw
    rw [List.drop_take] at hw
    exact once w (List.mem_of_mem_take hw)
  have hname : environment p (env.take (i + 1)) name = some value :=
    (environment_at p hfirst honce).trans (congrArg some named)
  rw [environment_at p at_i last, resolve, refers, expand_reference closed hname plain]

theorem environment_field {p : Pod} {fieldPath value : String} (named : field p fieldPath = value)
    {env : List EnvVar} {i : Nat} {key : String}
    (at_i : env[i]? = some ⟨key, .fieldRef fieldPath⟩)
    (last : ∀ w ∈ env.drop (i + 1), key ≠ w.name) : environment p env key = some value :=
  (environment_at p at_i last).trans (congrArg some named)

theorem environment_plain (p : Pod) {env : List EnvVar} {i : Nat} {key text : String}
    (at_i : env[i]? = some ⟨key, .value text⟩) (last : ∀ w ∈ env.drop (i + 1), key ≠ w.name)
    (plain : Plain text) : environment p env key = some text := by
  rw [environment_at p at_i last, resolve, expand_plain _ plain]

end Kubernetes

/-- Names that Kubernetes accepts have no dollar sign; a data directory could. -/
structure Naming.Plain (n : Naming) : Prop where
  ns : Kubernetes.Plain n.ns
  crName : Kubernetes.Plain n.crName
  dir : Kubernetes.Plain n.dir

/-- The workload whose pods become members. -/
def memberContainer (sidecar : Bool) (n : Naming) : Container :=
  if sidecar then memberStatefulSet n else memberDaemonSet n

/-- The addresses a pod's daemon gives out, up to the port. -/
def Pod.host (sidecar : Bool) (n : Naming) (p : Pod) : String :=
  if sidecar then p.name ++ "." ++ n.crName ++ "." ++ n.ns ++ ".svc.cluster.local" else p.hostIP

section Environment

open Kubernetes (environment environment_field environment_reference environment_plain field_name
  field_nodeName field_hostIP)

theorem plain_append {a b : String} (ha : Kubernetes.Plain a) (hb : Kubernetes.Plain b) :
    Kubernetes.Plain (a ++ b) := by
  rw [Kubernetes.Plain, String.toList_append, List.mem_append]
  exact not_or.mpr ⟨ha, hb⟩

variable {n : Naming} (p : Pod)

theorem plain_service (plain : n.Plain) {port : String} (hport : Kubernetes.Plain port) :
    Kubernetes.Plain ("." ++ n.crName ++ "." ++ n.ns ++ port) :=
  plain_append (plain_append (plain_append (plain_append (by decide) plain.crName) (by decide))
    plain.ns) hport

theorem daemonSet_env (n : Naming) :
    let vars := environment p (memberDaemonSet n).env
    vars "CLUSDR_NODE_ID" = some p.nodeName ∧ vars "CLUSDR_NODE_ADDR" = some (p.hostIP ++ ":7947") ∧
      vars "CLUSDR_RAFT_ADDR" = some (p.hostIP ++ ":7946") ∧
      vars "CLUSDR_GRPC_ADDR" = some "0.0.0.0:7947" := by
  have once : ∀ w ∈ (daemonEnv n.dir true).drop 1, "NODE_IP" ≠ w.name := by simp [daemonEnv]
  refine ⟨?_, ?_, ?_, ?_⟩
  · exact environment_field (i := 8) (field_nodeName p) rfl (by simp [memberDaemonSet, daemonEnv])
  · exact environment_reference (i := 3) (field_hostIP p) ":7947" rfl once rfl
      (by simp [memberDaemonSet, daemonEnv]) (by decide +kernel) (by decide) (by decide)
  · exact environment_reference (i := 4) (field_hostIP p) ":7946" rfl once rfl
      (by simp [memberDaemonSet, daemonEnv]) (by decide +kernel) (by decide) (by decide)
  · exact environment_plain (i := 3) p rfl (by simp [memberDaemonSet, daemonEnv]) (by decide)

theorem statefulSet_env (plain : n.Plain) :
    let vars := environment p (memberStatefulSet n).env
    vars "CLUSDR_NODE_ID" = some p.name ∧
      vars "CLUSDR_NODE_ADDR" =
        some (p.name ++ ("." ++ n.crName ++ "." ++ n.ns ++ ".svc.cluster.local:7947")) ∧
      vars "CLUSDR_RAFT_ADDR" =
        some (p.name ++ ("." ++ n.crName ++ "." ++ n.ns ++ ".svc.cluster.local:7946")) ∧
      vars "CLUSDR_GRPC_ADDR" = some "0.0.0.0:7947" := by
  have once : ∀ w ∈ (sidecarDNSEnv n.ns n.crName n.dir).drop 1, "POD_NAME" ≠ w.name := by
    simp [sidecarDNSEnv]
  have refers : ∀ svc ns port : String, "$(POD_NAME)." ++ svc ++ "." ++ ns ++ port =
      "$(" ++ "POD_NAME" ++ ")" ++ ("." ++ svc ++ "." ++ ns ++ port) := by
    intro svc ns port
    have hname : "$(POD_NAME)." = "$(" ++ "POD_NAME" ++ ")" ++ "." := by decide +kernel
    rw [hname]
    generalize "$(" ++ "POD_NAME" ++ ")" = name
    simp only [String.append_assoc]
  refine ⟨?_, ?_, ?_, ?_⟩
  · have hid := environment_reference (i := 0) (field_name p) "" rfl once rfl
      (by simp [sidecarDNSEnv]) (by decide +kernel) (by decide) (by decide)
    rwa [String.append_empty] at hid
  · exact environment_reference (i := 4) (field_name p) _ rfl once rfl
      (by simp [memberStatefulSet, sidecarDNSEnv]) (refers _ _ _) (by decide)
      (plain_service plain (by decide))
  · exact environment_reference (i := 5) (field_name p) _ rfl once rfl
      (by simp [memberStatefulSet, sidecarDNSEnv]) (refers _ _ _) (by decide)
      (plain_service plain (by decide))
  · exact environment_plain (i := 4) p rfl (by simp [memberStatefulSet, sidecarDNSEnv]) (by decide)

end Environment

section Start

variable [Go.Unicode]

/-- The file is read before the environment. -/
theorem loadFrom_env (w : Surroundings) (path : String) :
    ∃ read : Except String Settings.Config, ∀ getenv : String → String,
      loadFrom { w with getenv } path = read.map fun file => (file.applyEnv getenv).clampRaft := by
  have hcheck : ∀ (read : Except String Settings.Config) (getenv : String → String),
      (read.map (·.applyEnv getenv)).bind Settings.Config.checked =
        read.map fun file => (file.applyEnv getenv).clampRaft := by
    intro read getenv
    cases read with
    | error err => rfl
    | ok file => exact Settings.Config.checked_eq _
  simp only [loadFrom, Settings.Config.merged]
  exact ⟨_, fun getenv => hcheck _ getenv⟩

variable {h : Host} {k : Container} {p : Pod} {cfg : Settings.Config}

omit [Go.Unicode] in
theorem clampRaft_frame (c : Settings.Config) :
    c.clampRaft.node = c.node ∧ c.clampRaft.raft.addr = c.raft.addr ∧
      c.clampRaft.grpc = c.grpc := by
  unfold Settings.Config.clampRaft
  split <;> exact ⟨rfl, rfl, rfl⟩

theorem startConfig_read (h : Host) (path : String) :
    ∃ read : Except String Settings.Config, ∀ k p, configPath k.args = path →
      startConfig h k p =
        read.map fun file => initStore (file.applyEnv (startEnv h k p)).clampRaft h.identity := by
  obtain ⟨read, hread⟩ := loadFrom_env h.surroundings path
  refine ⟨read, fun k p hpath => ?_⟩
  rw [startConfig, hpath, hread]
  cases read <;> rfl

theorem startConfig_ok (started : startConfig h k p = .ok cfg) :
    ∃ file : Settings.Config,
      cfg = initStore (file.applyEnv (startEnv h k p)).clampRaft h.identity := by
  obtain ⟨read, hread⟩ := startConfig_read h (configPath k.args)
  rw [hread k p rfl] at started
  cases read with
  | error err => cases started
  | ok file =>
      cases started
      exact ⟨file, rfl⟩

omit [Go.Unicode] in
theorem envString_start {key value : String} (free : key ≠ "CLUSDR_RAFT_BOOTSTRAP")
    (there : Kubernetes.environment p k.env key = some value) (ne : value ≠ "") (dest : String) :
    Settings.Config.envString (startEnv h k p) key dest = value := by
  have hkey : startEnv h k p key = value := by
    rw [startEnv, if_neg fun hb => free hb.2, there, Option.getD_some]
  rw [Settings.Config.envString, hkey, if_neg ne]

/-- The container's environment wins over the file, the defaults and the store. -/
theorem startConfig_env (started : startConfig h k p = .ok cfg) {id addr raftAddr grpcAddr : String}
    (env : let vars := Kubernetes.environment p k.env
      vars "CLUSDR_NODE_ID" = some id ∧ vars "CLUSDR_NODE_ADDR" = some addr ∧
        vars "CLUSDR_RAFT_ADDR" = some raftAddr ∧ vars "CLUSDR_GRPC_ADDR" = some grpcAddr)
    (hid : id ≠ "") (haddr : addr ≠ "") (hraft : raftAddr ≠ "") (hgrpc : grpcAddr ≠ "") :
    cfg.node = ⟨id, addr⟩ ∧ cfg.raft.addr = raftAddr ∧ cfg.grpc.addr = grpcAddr := by
  obtain ⟨henvID, henvAddr, henvRaft, henvGrpc⟩ := env
  obtain ⟨file, rfl⟩ := startConfig_ok started
  obtain ⟨hnode, hraftAddr, hgrpcs⟩ := clampRaft_frame (file.applyEnv (startEnv h k p))
  have hids : (file.applyEnv (startEnv h k p)).node = ⟨id, addr⟩ := by
    simp only [Settings.Config.applyEnv, envString_start (by decide) henvID hid,
      envString_start (by decide) henvAddr haddr]
  have hraftEnv : (file.applyEnv (startEnv h k p)).raft.addr = raftAddr :=
    envString_start (by decide) henvRaft hraft _
  have hgrpcEnv : (file.applyEnv (startEnv h k p)).grpc.addr = grpcAddr :=
    envString_start (by decide) henvGrpc hgrpc _
  cases h.identity with
  | none => exact ⟨hnode.trans hids, hraftAddr.trans hraftEnv, hgrpcs ▸ hgrpcEnv⟩
  | some ids =>
      refine ⟨?_, hraftAddr.trans hraftEnv, hgrpcs ▸ hgrpcEnv⟩
      simp only [initStore, hnode, hids, if_neg hid]

/-- A pod that runs: Kubernetes has named it and put it on a node with an IPv4 address. -/
structure Pod.Scheduled (p : Pod) : Prop where
  name : p.name ≠ ""
  nodeName : p.nodeName ≠ ""
  hostIP : p.hostIP ≠ ""
  ipv4 : ':' ∉ p.hostIP.toList
  bound : p.hostIP ≠ "0.0.0.0"

omit [Go.Unicode] in
theorem append_ne_empty {a b : String} (h : b ≠ "") : a ++ b ≠ "" :=
  fun hab => h (String.append_eq_empty_iff.mp hab).2

omit [Go.Unicode] in
theorem host_sidecar (n : Naming) (p : Pod) (port : String) {tail : String}
    (split : tail = ".svc.cluster.local" ++ port) :
    p.name ++ ("." ++ n.crName ++ "." ++ n.ns ++ tail) = p.host true n ++ port := by
  simp only [Pod.host, if_true, split, String.append_assoc]

omit [Go.Unicode] in
theorem joinAddr_podAddr (n : Naming) (sidecar : Bool) (scheduled : p.Scheduled) :
    joinAddr (p.podAddr sidecar n) = p.host sidecar n ++ ":7947" := by
  have hport : toString grpcPort = "7947" := by decide +kernel
  have haddr : (p.podAddr sidecar n).addr = p.host sidecar n ++ ":7947" := by
    cases sidecar with
    | false =>
        show memberAddr _ = p.hostIP ++ ":7947"
        rw [memberAddr, if_neg scheduled.hostIP, hport, String.append_assoc]
        exact congrArg (p.hostIP ++ ·) (by decide +kernel)
    | true =>
        have htail : ".svc.cluster.local:" ++ "7947" = ".svc.cluster.local" ++ ":7947" := by
          decide +kernel
        show sidecarPodDNS p.name n = _
        rw [← host_sidecar n p _ htail, sidecarPodDNS, hport, Naming.headlessName]
        generalize ".svc.cluster.local:" = domain
        simp only [String.append_assoc]
  rw [joinAddr, haddr, if_pos (append_ne_empty (by decide))]

/-- A member's daemon goes by the names the operator has for its pod. -/
theorem member_started {n : Naming} (plain : n.Plain) {sidecar : Bool} (scheduled : p.Scheduled)
    (started : startConfig h (memberContainer sidecar n) p = .ok cfg) :
    cfg.node = ⟨(p.podAddr sidecar n).nodeName, joinAddr (p.podAddr sidecar n)⟩ ∧
      cfg.raft.addr = p.host sidecar n ++ ":7946" ∧ cfg.grpc.addr = "0.0.0.0:7947" := by
  rw [joinAddr_podAddr n sidecar scheduled]
  cases sidecar with
  | false =>
      exact startConfig_env started (daemonSet_env p n) scheduled.nodeName
        (append_ne_empty (by decide)) (append_ne_empty (by decide)) (by decide)
  | true =>
      obtain ⟨hid, haddr, hraft, hgrpc⟩ := statefulSet_env p plain
      rw [host_sidecar n p ":7947" (by decide +kernel)] at haddr
      rw [host_sidecar n p ":7946" (by decide +kernel)] at hraft
      exact startConfig_env started ⟨hid, haddr, hraft, hgrpc⟩ scheduled.name
        (append_ne_empty (by decide)) (append_ne_empty (by decide)) (by decide)

end Start

section Members

theorem alreadyMember_snapshot {list : List MemberInfo} {lead health : Except String String}
    {pa : PodAddr} : alreadyMember (snapshotStatus list lead health) pa = true ↔
      ∃ m ∈ list, (pa.nodeName ≠ "" ∧ m.id = pa.nodeName) ∨
        (joinAddr pa ≠ "" ∧ m.address ≠ "" ∧ (m.address = joinAddr pa ∨ m.address = pa.hostIP)) := by
  simp [alreadyMember, snapshotStatus, List.any_map, and_assoc]

theorem memberListed_snapshot {list : List MemberInfo} {lead health : Except String String}
    {id : String} : memberListed (snapshotStatus list lead health) id = true ↔
      ∃ m ∈ list, m.id = id := by
  simp [memberListed, snapshotStatus, List.any_map]

variable {n : Naming} {sidecar : Bool} {p q : Pod}

theorem host_ne_unspecified (scheduled : p.Scheduled) : p.host sidecar n ≠ "0.0.0.0" := by
  cases sidecar with
  | false => exact scheduled.bound
  | true =>
      intro hhost
      have hletter : 'l' ∈ (p.host true n).toList := by
        rw [Pod.host, if_pos rfl, String.toList_append]
        exact List.mem_append_right _ (by decide)
      rw [hhost] at hletter
      exact absurd hletter (by decide)

theorem nodeName_of_host (apart : sidecar = false → p.hostIP = q.hostIP → p.nodeName = q.nodeName)
    (same : p.host sidecar n = q.host sidecar n) :
    (p.podAddr sidecar n).nodeName = (q.podAddr sidecar n).nodeName := by
  cases sidecar with
  | false => exact apart rfl same
  | true =>
      simpa [Pod.host, Pod.podAddr, String.append_left_inj] using same

theorem colon_address (scheduled : p.Scheduled) (host : String) : host ++ ":7947" ≠ p.hostIP := by
  intro h
  apply scheduled.ipv4
  rw [← h, String.toList_append, List.mem_append]
  exact .inr (by decide)

/-- The entry of a daemon that runs in one of the pods. It has the address the daemon
joined with, or, after the daemon was elected, the one it listens on. -/
def Ours [Go.Unicode] (hosts : Pod → Host) (sidecar : Bool) (n : Naming) (pods : List Pod)
    (m : MemberInfo) : Prop :=
  ∃ q ∈ pods, ∃ cfg, startConfig (hosts q) (memberContainer sidecar n) q = .ok cfg ∧
    m.id = cfg.node.id ∧ (m.address = cfg.node.addr ∨ m.address = cfg.grpc.addr)

/-- The entry of a daemon elsewhere, such as the seed of a DaemonSet. -/
def Elsewhere (sidecar : Bool) (n : Naming) (pods : List Pod) (m : MemberInfo) : Prop :=
  ∀ p ∈ pods, m.id ≠ (p.podAddr sidecar n).nodeName ∧
    m.address ≠ joinAddr (p.podAddr sidecar n) ∧ m.address ≠ p.hostIP

theorem podAddr_hostIP (n : Naming) (sidecar : Bool) (p : Pod) :
    (p.podAddr sidecar n).hostIP = p.hostIP := by
  cases sidecar <;> rfl

theorem podAddr_nodeName_ne (scheduled : p.Scheduled) : (p.podAddr sidecar n).nodeName ≠ "" := by
  cases sidecar with
  | false => exact scheduled.nodeName
  | true => exact scheduled.name

/-- The address of one pod's daemon does not stand for another pod. -/
theorem address_tells_apart (hp : p.Scheduled) (hq : q.Scheduled)
    (apart : sidecar = false → q.hostIP = p.hostIP → q.nodeName = p.nodeName) {addr : String}
    (theirs : addr = joinAddr (q.podAddr sidecar n) ∨ addr = "0.0.0.0:7947")
    (mine : addr = joinAddr (p.podAddr sidecar n) ∨ addr = p.hostIP) :
    (q.podAddr sidecar n).nodeName = (p.podAddr sidecar n).nodeName := by
  have hlisten : "0.0.0.0" ++ ":7947" = "0.0.0.0:7947" := by decide +kernel
  rw [joinAddr_podAddr n sidecar hq, ← hlisten] at theirs
  rw [joinAddr_podAddr n sidecar hp] at mine
  rcases theirs with rfl | rfl
  · rcases mine with hsame | hbare
    · exact nodeName_of_host apart ((String.append_left_inj _).mp hsame)
    · exact absurd hbare (colon_address hp _)
  · rcases mine with hsame | hbare
    · exact absurd ((String.append_left_inj _).mp hsame).symm (host_ne_unspecified hp)
    · exact absurd hbare (colon_address hp _)

/-- A daemon in a pod of a member workload comes up, and joins, under the id and the
address that the operator has for the pod, whatever its image, its configuration file and
its store hold. So the operator finds a pod among the members exactly when the pod's own
daemon is one, and takes no other daemon for it, elected ones included. -/
theorem pods_are_known_by_their_daemons [Go.Unicode] (plain : n.Plain) (hosts : Pod → Host)
    (pods : List Pod) (scheduled : ∀ p ∈ pods, p.Scheduled)
    (apart : ∀ p ∈ pods, ∀ q ∈ pods, sidecar = false → q.hostIP = p.hostIP → q.nodeName = p.nodeName)
    (list : List MemberInfo)
    (listed : ∀ m ∈ list, Ours hosts sidecar n pods m ∨ Elsewhere sidecar n pods m)
    (lead health : Except String String) (p : Pod) (hp : p ∈ pods) (cfg : Settings.Config)
    (started : startConfig (hosts p) (memberContainer sidecar n) p = .ok cfg) :
    (∀ now token observer,
      requestJoin cfg.clusterID cfg.raft.addr (.new now cfg.node.id cfg.node.addr) token observer =
        { nodeId := (p.podAddr sidecar n).nodeName, clusterId := cfg.clusterID,
          address := joinAddr (p.podAddr sidecar n), raftAddr := p.host sidecar n ++ ":7946",
          joinToken := token, observer }) ∧
      (alreadyMember (snapshotStatus list lead health) (p.podAddr sidecar n) = true ↔
        memberListed (snapshotStatus list lead health) cfg.node.id = true) := by
  obtain ⟨hnode, hraft, -⟩ := member_started plain (scheduled p hp) started
  rw [hnode, hraft]
  refine ⟨fun now token observer => ?_, ?_⟩
  · have haddr := App.address_requestJoin
      ⟨(p.podAddr sidecar n).nodeName, joinAddr (p.podAddr sidecar n), ""⟩ now cfg.clusterID
      (p.host sidecar n ++ ":7946") token observer
    exact congrArg (fun address => JoinRequest.mk _ _ address _ _ _ _) haddr
  · rw [alreadyMember_snapshot, memberListed_snapshot]
    constructor
    · rintro ⟨m, hm, ⟨-, hid⟩ | ⟨-, -, haddr⟩⟩
      · exact ⟨m, hm, hid⟩
      · rw [podAddr_hostIP] at haddr
        refine ⟨m, hm, ?_⟩
        rcases listed m hm with ⟨q, hq, cfg', started', hid, haddr'⟩ | elsewhere
        · obtain ⟨hnode', -, hgrpc'⟩ := member_started plain (scheduled q hq) started'
          rw [hnode'] at hid haddr'
          rw [hgrpc'] at haddr'
          rw [hid]
          exact address_tells_apart (scheduled p hp) (scheduled q hq) (apart p hp q hq) haddr' haddr
        · exact absurd haddr (not_or.mpr (elsewhere p hp).2)
    · rintro ⟨m, hm, hid⟩
      exact ⟨m, hm, .inl ⟨podAddr_nodeName_ne (scheduled p hp), hid⟩⟩

end Members

/-! Two pods of a DaemonSet on hosts without a configuration file. The daemon of the first
was elected and is listed under the address it listens on. -/

def bareHost : Host where
  surroundings :=
    { home := none, readFile := fun _ => .notExist, unmarshal := fun _ cfg => .ok cfg,
      getenv := fun _ => "" }
  identity := none

def bareConfig (k : Container) (p : Pod) : Settings.Config :=
  ((Settings.Config.defaults none).applyEnv (startEnv bareHost k p)).clampRaft

theorem bareHost_started [Go.Unicode] (k : Container) (p : Pod) :
    startConfig bareHost k p = .ok (bareConfig k p) := by
  have hmerged : Settings.Config.merged
      { bareHost.surroundings with getenv := startEnv bareHost k p } (configPath k.args) =
        .ok ((Settings.Config.defaults none).applyEnv (startEnv bareHost k p)) := by
    simp [Settings.Config.merged, bareHost, Except.map]
  rw [startConfig, loadFrom, hmerged]
  exact congrArg (Except.map (initStore · none)) (Settings.Config.checked_eq _)

def demo : Naming := ⟨"default", "demo", ""⟩

theorem demo_plain : demo.Plain := ⟨by decide, by decide, by decide⟩

def podA : Pod := { name := "demo-4xk2p", nodeName := "node-a", hostIP := "10.0.0.1" }
def podB : Pod := { name := "demo-9vtlm", nodeName := "node-b", hostIP := "10.0.0.2" }

def electedA : MemberInfo := ⟨"node-a", "0.0.0.0:7947", "alive", true, "voter"⟩
def seedEntry : MemberInfo := ⟨"9f2c41d07b6e", "10.0.0.9:7947", "alive", false, "voter"⟩

theorem demo_scheduled : ∀ p ∈ [podA, podB], p.Scheduled := by
  simp only [List.forall_mem_cons, List.not_mem_nil, IsEmpty.forall_iff, implies_true, and_true]
  exact ⟨⟨by decide, by decide, by decide, by decide, by decide⟩,
    ⟨by decide, by decide, by decide, by decide, by decide⟩⟩

theorem demo_listed [Go.Unicode] : ∀ m ∈ [electedA, seedEntry],
    Ours (fun _ => bareHost) false demo [podA, podB] m ∨ Elsewhere false demo [podA, podB] m := by
  have hstarted := bareHost_started (memberContainer false demo) podA
  obtain ⟨hnode, -, hgrpc⟩ :=
    member_started demo_plain (demo_scheduled podA List.mem_cons_self) hstarted
  simp only [List.forall_mem_cons, List.not_mem_nil, IsEmpty.forall_iff, implies_true, and_true]
  refine ⟨.inl ⟨podA, List.mem_cons_self, _, hstarted, ?_, .inr hgrpc.symm⟩, .inr ?_⟩
  · exact (congrArg (·.id) hnode).symm
  · simp only [Elsewhere, List.forall_mem_cons, List.not_mem_nil, IsEmpty.forall_iff, implies_true,
      and_true]
    decide +kernel

theorem pods_are_known_by_their_daemons_elected :
    let st := snapshotStatus [electedA, seedEntry] (.ok "node-a") (.ok "c1")
    alreadyMember st (podA.podAddr false demo) = true ∧
      ¬ alreadyMember st (podB.podAddr false demo) = true := by
  let := Go.Unicode.ascii
  have apart : ∀ p ∈ [podA, podB], ∀ q ∈ [podA, podB],
      false = false → q.hostIP = p.hostIP → q.nodeName = p.nodeName := by decide +kernel
  have known := fun p hp => (pods_are_known_by_their_daemons demo_plain (fun _ => bareHost)
    [podA, podB] demo_scheduled apart [electedA, seedEntry] demo_listed (.ok "node-a") (.ok "c1")
    p hp _ (bareHost_started _ p)).2
  have hid : ∀ p ∈ [podA, podB],
      (bareConfig (memberContainer false demo) p).node.id = (p.podAddr false demo).nodeName :=
    fun p hp => congrArg (·.id)
      (member_started demo_plain (demo_scheduled p hp) (bareHost_started _ p)).1
  have hA : podA ∈ [podA, podB] := List.mem_cons_self
  have hB : podB ∈ [podA, podB] := List.mem_cons_of_mem _ List.mem_cons_self
  refine ⟨(known podA hA).mpr ?_, fun h => absurd ((known podB hB).mp h) ?_⟩
  · rw [hid podA hA]
    decide +kernel
  · rw [hid podB hB]
    decide +kernel

/-! The first sidecar. Its claim is initialised by a Job that also bootstraps Raft there;
pod 0 of the StatefulSet takes the claim over. -/

section Handover

open Kubernetes (environment environment_plain environment_other)

/-- Pod 0 of the StatefulSet. -/
def ordinalZero (n : Naming) (p : Pod) : Pod := { p with name := n.crName ++ "-0" }

variable {n : Naming} (p job : Pod)

theorem bootstrapJob_address (plain : n.Plain) {tail : String} (htail : Kubernetes.Plain tail) :
    n.stsName ++ "-0" ++ "." ++ n.headlessName ++ "." ++ n.ns ++ tail =
        (ordinalZero n p).name ++ ("." ++ n.crName ++ "." ++ n.ns ++ tail) ∧
      Kubernetes.Plain (n.stsName ++ "-0" ++ "." ++ n.headlessName ++ "." ++ n.ns ++ tail) := by
  have htext : n.stsName ++ "-0" ++ "." ++ n.headlessName ++ "." ++ n.ns ++ tail =
      n.crName ++ "-0" ++ ("." ++ n.crName ++ "." ++ n.ns ++ tail) := by
    simp only [Naming.stsName, Naming.headlessName, String.append_assoc]
  rw [htext]
  exact ⟨rfl, plain_append (plain_append plain.crName (by decide)) (plain_service plain htail)⟩

theorem bootstrapJob_env (plain : n.Plain) :
    let vars := environment job (sidecarBootstrapJob n).env
    vars "CLUSDR_NODE_ID" = some (ordinalZero n p).name ∧
      vars "CLUSDR_NODE_ADDR" = some ((ordinalZero n p).name ++
        ("." ++ n.crName ++ "." ++ n.ns ++ ".svc.cluster.local:7947")) ∧
      vars "CLUSDR_RAFT_ADDR" = some ((ordinalZero n p).name ++
        ("." ++ n.crName ++ "." ++ n.ns ++ ".svc.cluster.local:7946")) ∧
      vars "CLUSDR_GRPC_ADDR" = some "0.0.0.0:7947" := by
  obtain ⟨haddr, haddrPlain⟩ :=
    bootstrapJob_address p plain (show Kubernetes.Plain ".svc.cluster.local:7947" by decide)
  obtain ⟨hraft, hraftPlain⟩ :=
    bootstrapJob_address p plain (show Kubernetes.Plain ".svc.cluster.local:7946" by decide)
  rw [← haddr, ← hraft]
  refine ⟨?_, ?_, ?_, ?_⟩
  · exact environment_plain (i := 0) job rfl (by simp [sidecarBootstrapJob])
      (plain_append plain.crName (by decide))
  · exact environment_plain (i := 4) job rfl (by simp [sidecarBootstrapJob]) haddrPlain
  · exact environment_plain (i := 5) job rfl (by simp [sidecarBootstrapJob]) hraftPlain
  · exact environment_plain (i := 3) job rfl (by simp [sidecarBootstrapJob]) (by decide)

/-- Both containers see the same environment, the name of the pod and the log level apart. -/
theorem environment_handover (plain : n.Plain) {key : String} (pod : key ≠ "POD_NAME")
    (level : key ≠ "CLUSDR_LOG_LEVEL") :
    environment (ordinalZero n p) (memberStatefulSet n).env key =
      environment job (sidecarBootstrapJob n).env key := by
  obtain ⟨hid, haddr, hraft, hgrpc⟩ := statefulSet_env (ordinalZero n p) plain
  obtain ⟨hid', haddr', hraft', hgrpc'⟩ := bootstrapJob_env p job plain
  have hsock : Kubernetes.Plain (n.dir ++ "/clusdr.sock") := plain_append plain.dir (by decide)
  have hjson : Kubernetes.Plain "json" := by decide
  by_cases h1 : key = "CLUSDR_NODE_ID"
  · rw [h1, hid, hid']
  by_cases h2 : key = "CLUSDR_DATA_DIR"
  · rw [h2, environment_plain (i := 2) _ rfl (by simp [memberStatefulSet, sidecarDNSEnv]) plain.dir,
      environment_plain (i := 1) _ rfl (by simp [sidecarBootstrapJob]) plain.dir]
  by_cases h3 : key = "CLUSDR_CONTROL_SOCKET"
  · rw [h3, environment_plain (i := 3) _ rfl (by simp [memberStatefulSet, sidecarDNSEnv]) hsock,
      environment_plain (i := 2) _ rfl (by simp [sidecarBootstrapJob]) hsock]
  by_cases h4 : key = "CLUSDR_GRPC_ADDR"
  · rw [h4, hgrpc, hgrpc']
  by_cases h5 : key = "CLUSDR_NODE_ADDR"
  · rw [h5, haddr, haddr']
  by_cases h6 : key = "CLUSDR_RAFT_ADDR"
  · rw [h6, hraft, hraft']
  by_cases h7 : key = "CLUSDR_LOG_FORMAT"
  · rw [h7, environment_plain (i := 7) _ rfl (by simp [memberStatefulSet, sidecarDNSEnv]) hjson,
      environment_plain (i := 6) _ rfl (by simp [sidecarBootstrapJob]) hjson]
  -- No other variable is set in either container.
  rw [environment, environment, environment_other, environment_other]
  · simp [sidecarBootstrapJob, h1, h2, h3, h4, h5, h6, h7]
  · simp [memberStatefulSet, sidecarDNSEnv, pod, level, h1, h2, h3, h4, h5, h6, h7]

/-- What is left of a configuration besides the log level and the wish to bootstrap. -/
def lasting (cfg : Settings.Config) : Settings.Config :=
  { cfg with log := { cfg.log with level := "" }, raft := { cfg.raft with bootstrap := false } }

theorem lasting_clampRaft (cfg : Settings.Config) :
    lasting cfg.clampRaft = (lasting cfg).clampRaft := by
  by_cases hlong : 0 < cfg.raft.heartbeatTimeout ∧
      cfg.raft.heartbeatTimeout < cfg.raft.leaderLeaseTimeout
  · exact (congrArg lasting (if_pos hlong)).trans (if_pos hlong).symm
  · exact (congrArg lasting (if_neg hlong)).trans (if_neg hlong).symm

theorem lasting_initStore (cfg : Settings.Config) (ids : Option (String × String)) :
    lasting (initStore cfg ids) = initStore (lasting cfg) ids := by
  cases ids <;> rfl

theorem lasting_applyEnv (file : Settings.Config) {g g' : String → String}
    (agree : ∀ key, key ≠ "POD_NAME" → key ≠ "CLUSDR_LOG_LEVEL" → key ≠ "CLUSDR_RAFT_BOOTSTRAP" →
      g key = g' key) : lasting (file.applyEnv g) = lasting (file.applyEnv g') := by
  simp (disch := decide) only [lasting, Settings.Config.applyEnv, Settings.Config.envString,
    Settings.Config.envDuration, Settings.Config.envBool, agree]

theorem startEnv_handover (plain : n.Plain) (h : Host) {key : String} (pod : key ≠ "POD_NAME")
    (level : key ≠ "CLUSDR_LOG_LEVEL") (bootstrap : key ≠ "CLUSDR_RAFT_BOOTSTRAP") :
    startEnv h (memberStatefulSet n) (ordinalZero n p) key =
      startEnv h (sidecarBootstrapJob n) job key := by
  rw [startEnv, startEnv, if_neg fun hb => bootstrap hb.2, if_neg fun hb => bootstrap hb.2,
    environment_handover p job plain pod level]

theorem configPath_handover (n : Naming) :
    configPath (memberStatefulSet n).args = configArg n ∧
      configPath (sidecarBootstrapJob n).args = configArg n := by
  simp [configPath, memberStatefulSet, sidecarBootstrapJob]

theorem startConfig_handover [Go.Unicode] (plain : n.Plain) (h : Host) :
    (startConfig h (memberStatefulSet n) (ordinalZero n p)).map lasting =
      (startConfig h (sidecarBootstrapJob n) job).map lasting := by
  obtain ⟨read, hread⟩ := startConfig_read h (configArg n)
  have agree : ∀ key, key ≠ "POD_NAME" → key ≠ "CLUSDR_LOG_LEVEL" →
      key ≠ "CLUSDR_RAFT_BOOTSTRAP" → startEnv h (memberStatefulSet n) (ordinalZero n p) key =
        startEnv h (sidecarBootstrapJob n) job key :=
    fun _ => startEnv_handover p job plain h
  rw [hread _ _ (configPath_handover n).1, hread _ _ (configPath_handover n).2]
  generalize startEnv h (memberStatefulSet n) (ordinalZero n p) = g at agree ⊢
  generalize startEnv h (sidecarBootstrapJob n) job = g' at agree ⊢
  cases read with
  | error err =>
      show Except.error err = Except.error err
      rfl
  | ok file =>
      have hsame : lasting (initStore (file.applyEnv g).clampRaft h.identity) =
          lasting (initStore (file.applyEnv g').clampRaft h.identity) := by
        rw [lasting_initStore, lasting_clampRaft, lasting_applyEnv file agree,
          ← lasting_clampRaft, ← lasting_initStore]
      exact congrArg Except.ok hsame

theorem bootstrap_frame (cfg : Settings.Config) (ids : Option (String × String)) :
    (initStore cfg.clampRaft ids).raft.bootstrap = cfg.raft.bootstrap := by
  have hclamp : cfg.clampRaft.raft.bootstrap = cfg.raft.bootstrap := by
    unfold Settings.Config.clampRaft
    split <;> rfl
  cases ids <;> exact hclamp

theorem bootstrap_ne_configArg (n : Naming) : "--bootstrap" ≠ configArg n := by
  intro heq
  have hlast := congrArg (fun s : String => s.toList.getLast?) heq
  simp [configArg, String.toList_append, List.getLast?_append] at hlast

/-- Pod 0 bootstraps exactly if its image or its configuration file says so. -/
theorem startConfig_bootstrap [Go.Unicode] (n : Naming) (h : Host) (p : Pod) :
    (startConfig h (memberStatefulSet n) p).map (·.raft.bootstrap) =
      (loadFrom h.surroundings (configArg n)).map (·.raft.bootstrap) := by
  obtain ⟨read, hread⟩ := loadFrom_env h.surroundings (configArg n)
  have hflag : startEnv h (memberStatefulSet n) p "CLUSDR_RAFT_BOOTSTRAP" =
      h.surroundings.getenv "CLUSDR_RAFT_BOOTSTRAP" := by
    have hunset : environment p (memberStatefulSet n).env "CLUSDR_RAFT_BOOTSTRAP" = none := by
      rw [environment, environment_other]
      simp [memberStatefulSet, sidecarDNSEnv]
    rw [startEnv, if_neg (by simp [memberStatefulSet, bootstrap_ne_configArg]), hunset,
      Option.getD_none]
  have hown : loadFrom h.surroundings (configArg n) =
      read.map fun file => (file.applyEnv h.surroundings.getenv).clampRaft :=
    hread h.surroundings.getenv
  rw [startConfig, (configPath_handover n).1, hread, hown]
  cases read with
  | error err => rfl
  | ok file =>
      refine congrArg Except.ok ((bootstrap_frame _ _).trans ?_)
      refine Eq.trans ?_ (bootstrap_frame _ none).symm
      simp only [Settings.Config.applyEnv, hflag]

theorem bootstrap_started (n : Naming) (h : Host) (job : Pod) (file : Settings.Config) :
    (initStore (file.applyEnv (startEnv h (sidecarBootstrapJob n) job)).clampRaft
      h.identity).raft.bootstrap = true := by
  have hflag : startEnv h (sidecarBootstrapJob n) job "CLUSDR_RAFT_BOOTSTRAP" = "true" :=
    if_pos ⟨by simp [sidecarBootstrapJob], rfl⟩
  have henv : (file.applyEnv (startEnv h (sidecarBootstrapJob n) job)).raft.bootstrap = true := by
    simp only [Settings.Config.applyEnv, hflag, true_or, if_true]
  exact (bootstrap_frame _ _).trans henv

theorem sidecarPodDNS_ordinalZero (n : Naming) (p : Pod) :
    sidecarPodDNS (n.stsName ++ "-0") n =
      (ordinalZero n p).name ++ ("." ++ n.crName ++ "." ++ n.ns ++ ".svc.cluster.local:7947") := by
  have hport : ".svc.cluster.local:" ++ toString grpcPort = ".svc.cluster.local:7947" := by
    decide +kernel
  rw [sidecarPodDNS, ← hport]
  generalize ".svc.cluster.local:" = domain
  simp only [Naming.stsName, Naming.headlessName, ordinalZero, String.append_assoc]

/-- The Job that bootstraps the first sidecar and pod 0 of the StatefulSet run the same
daemon: on the same claim they come up with the same configuration, but that only the Job
is told to bootstrap and the log level may differ. Pod 0 bootstraps only if its image or
its configuration file asks for it. The daemon's id is the one the operator has for pod 0,
and its address the one at which the operator reaches the seed. -/
theorem bootstrap_job_hands_over [Go.Unicode] (plain : n.Plain) (h : Host) (p job : Pod) :
    (startConfig h (memberStatefulSet n) (ordinalZero n p)).map lasting =
        (startConfig h (sidecarBootstrapJob n) job).map lasting ∧
      (startConfig h (memberStatefulSet n) (ordinalZero n p)).map (·.raft.bootstrap) =
        (loadFrom h.surroundings (configArg n)).map (·.raft.bootstrap) ∧
      ∀ cfg, startConfig h (sidecarBootstrapJob n) job = .ok cfg → cfg.raft.bootstrap = true ∧
        cfg.node.id = n.stsName ++ "-0" ∧
        cfg.node.addr = sidecarPodDNS (n.stsName ++ "-0") n := by
  refine ⟨startConfig_handover p job plain h, startConfig_bootstrap n h _, ?_⟩
  · intro cfg started
    obtain ⟨hnode, -, -⟩ := startConfig_env started (bootstrapJob_env p job plain)
      (append_ne_empty (by decide)) (append_ne_empty (append_ne_empty (by decide)))
      (append_ne_empty (append_ne_empty (by decide))) (by decide)
    refine ⟨?_, congrArg (·.id) hnode, (congrArg (·.addr) hnode).trans ?_⟩
    · obtain ⟨file, rfl⟩ := startConfig_ok started
      exact bootstrap_started n h job file
    · exact (sidecarPodDNS_ordinalZero n p).symm

theorem bootstrap_job_hands_over_demo :
    letI := Go.Unicode.ascii
    (bareConfig (sidecarBootstrapJob demo) podA).raft.bootstrap = true ∧
      (bareConfig (memberStatefulSet demo) (ordinalZero demo podB)).raft.bootstrap = false ∧
      (bareConfig (sidecarBootstrapJob demo) podA).node.id = "demo-0" ∧
      (bareConfig (sidecarBootstrapJob demo) podA).node.addr =
        "demo-0.demo.default.svc.cluster.local:7947" := by
  let := Go.Unicode.ascii
  obtain ⟨-, hpod, hjob⟩ := bootstrap_job_hands_over demo_plain bareHost podB podA
  obtain ⟨hbootstrap, hid, haddr⟩ := hjob _ (bareHost_started _ podA)
  rw [bareHost_started] at hpod
  exact ⟨hbootstrap, Except.ok.inj (hpod.trans (by decide +kernel)),
    hid.trans (by decide +kernel), haddr.trans (by decide +kernel)⟩

end Handover

end Clusdr.Operator
