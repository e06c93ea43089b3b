import Clusdr.Go.Duration
import Clusdr.Go.Text

/-!
The configuration: defaults, then the YAML file, then the environment, and what is
made of the timeouts of Raft on the way to the library.
-/

namespace Clusdr.Settings

open Go (Duration Unicode)

structure NodeConfig where
  id : String := ""
  addr : String := ""

structure LogConfig where
  level : String := ""
  format : String := ""

structure GRPCConfig where
  addr : String := ""
  controlSocket : String := ""
  dialTimeout : Duration := 0
  requestTimeout : Duration := 0

structure HeartbeatConfig where
  interval : Duration := 0
  timeout : Duration := 0
  maxMisses : Int := 0

structure RaftConfig where
  addr : String := ""
  bootstrap : Bool := false
  heartbeatTimeout : Duration := 0
  electionTimeout : Duration := 0
  leaderLeaseTimeout : Duration := 0

structure LockConfig where
  ttl : Duration := 0
  expireInterval : Duration := 0

structure LeaseConfig where
  ttl : Duration := 0
  expireInterval : Duration := 0
  presence : Bool := false
  presenceTTL : Duration := 0

structure Config where
  node : NodeConfig := {}
  clusterID : String := ""
  dataDir : String := ""
  log : LogConfig := {}
  grpc : GRPCConfig := {}
  shutdownTimeout : Duration := 0
  heartbeat : HeartbeatConfig := {}
  raft : RaftConfig := {}
  tlsMode : String := ""
  lock : LockConfig := {}
  lease : LeaseConfig := {}

/-- `os.ReadFile`. -/
inductive FileRead where
  | notExist
  | failed (err : String)
  | contents (data : String)

/-- What loading depends on: `os.UserHomeDir`, `none` for an error, the files,
`yaml.Unmarshal` and the environment. -/
structure Surroundings where
  home : Option String
  readFile : String → FileRead
  unmarshal : String → Config → Except String Config
  getenv : String → String

namespace Config

def defaultDataDir (home : Option String) : String :=
  match home with
  | none | some "" => "/var/lib/clusdr"
  | some home => home ++ "/.clusdr"

def defaultControlSocket (home : Option String) : String :=
  match home with
  | none | some "" => "/var/lib/clusdr/clusdr.sock"
  | some home => home ++ "/.clusdr/clusdr.sock"

def defaults (home : Option String) : Config where
  node := { addr := "0.0.0.0:7947" }
  dataDir := defaultDataDir home
  log := { level := "info", format := "text" }
  grpc :=
    { addr := "127.0.0.1:7947"
      controlSocket := defaultControlSocket home
      dialTimeout := 5 * Duration.second
      requestTimeout := 10 * Duration.second }
  heartbeat := { interval := 2 * Duration.second, timeout := 1 * Duration.second, maxMisses := 3 }
  raft :=
    { addr := "127.0.0.1:7946"
      bootstrap := false
      heartbeatTimeout := 150 * Duration.millisecond
      electionTimeout := 150 * Duration.millisecond
      leaderLeaseTimeout := 75 * Duration.millisecond }
  tlsMode := "enabled"
  lock := { ttl := 15 * Duration.second, expireInterval := 100 * Duration.millisecond }
  lease :=
    { ttl := 15 * Duration.second
      expireInterval := 100 * Duration.millisecond
      presence := true
      presenceTTL := 3 * Duration.second }

/-- The pattern `if v := getenv(key); v != "" { dest = v }`. -/
def envString (getenv : String → String) (key dest : String) : String :=
  if getenv key = "" then dest else getenv key

def envDuration (getenv : String → String) (key : String) (dest : Duration) : Duration :=
  if getenv key = "" then dest else (Duration.parse (getenv key)).getD dest

def envBool (getenv : String → String) (key : String) (dest : Bool) : Bool :=
  let v := Go.toLower (Go.trimSpace (getenv key))
  if v = "true" ∨ v = "1" ∨ v = "on" ∨ v = "enabled" then true
  else if v = "false" ∨ v = "0" ∨ v = "off" ∨ v = "disabled" then false
  else dest

def applyEnv (cfg : Config) (getenv : String → String) : Config where
  node :=
    { id := envString getenv "CLUSDR_NODE_ID" cfg.node.id
      addr := envString getenv "CLUSDR_NODE_ADDR" cfg.node.addr }
  clusterID := envString getenv "CLUSDR_CLUSTER_ID" cfg.clusterID
  dataDir := envString getenv "CLUSDR_DATA_DIR" cfg.dataDir
  log :=
    { level := envString getenv "CLUSDR_LOG_LEVEL" cfg.log.level
      format := envString getenv "CLUSDR_LOG_FORMAT" cfg.log.format }
  grpc :=
    { cfg.grpc with
      addr := envString getenv "CLUSDR_GRPC_ADDR" cfg.grpc.addr
      controlSocket := envString getenv "CLUSDR_CONTROL_SOCKET" cfg.grpc.controlSocket }
  shutdownTimeout := cfg.shutdownTimeout
  heartbeat := cfg.heartbeat
  raft :=
    { addr := envString getenv "CLUSDR_RAFT_ADDR" cfg.raft.addr
      bootstrap :=
        if getenv "CLUSDR_RAFT_BOOTSTRAP" = "true" ∨ getenv "CLUSDR_RAFT_BOOTSTRAP" = "1" then true
        else cfg.raft.bootstrap
      heartbeatTimeout :=
        envDuration getenv "CLUSDR_RAFT_HEARTBEAT_TIMEOUT" cfg.raft.heartbeatTimeout
      electionTimeout :=
        envDuration getenv "CLUSDR_RAFT_ELECTION_TIMEOUT" cfg.raft.electionTimeout
      leaderLeaseTimeout :=
        envDuration getenv "CLUSDR_RAFT_LEADER_LEASE_TIMEOUT" cfg.raft.leaderLeaseTimeout }
  tlsMode := envString getenv "CLUSDR_TLS" cfg.tlsMode
  lock :=
    { ttl := envDuration getenv "CLUSDR_LOCK_TTL" cfg.lock.ttl
      expireInterval := envDuration getenv "CLUSDR_LOCK_EXPIRE_INTERVAL" cfg.lock.expireInterval }
  lease :=
    { ttl := envDuration getenv "CLUSDR_LEASE_TTL" cfg.lease.ttl
      expireInterval :=
        envDuration getenv "CLUSDR_LEASE_EXPIRE_INTERVAL" cfg.lease.expireInterval
      presence := envBool getenv "CLUSDR_LEASE_PRESENCE" cfg.lease.presence
      presenceTTL := envDuration getenv "CLUSDR_LEASE_PRESENCE_TTL" cfg.lease.presenceTTL }

/-- Keeps the leader lease below the heartbeat when only one of the two is set. -/
def clampRaft (c : Config) : Config :=
  if 0 < c.raft.heartbeatTimeout ∧ c.raft.heartbeatTimeout < c.raft.leaderLeaseTimeout then
    let half := c.raft.heartbeatTimeout / 2
    { c with
      raft :=
        { c.raft with
          leaderLeaseTimeout := if half ≤ 0 then c.raft.heartbeatTimeout else half } }
  else c

def validate (c : Config) : Except String Unit :=
  if 0 < c.raft.heartbeatTimeout ∧ c.raft.heartbeatTimeout < c.raft.leaderLeaseTimeout then
    .error ("raft.leader_lease_timeout (" ++ c.raft.leaderLeaseTimeout.text ++
      ") must be <= raft.heartbeat_timeout (" ++ c.raft.heartbeatTimeout.text ++ ")")
  else .ok ()

/-- How `LoadFrom` and `ParseYAML` end. -/
def checked (c : Config) : Except String Config :=
  match c.clampRaft.validate with
  | .error err => .error err
  | .ok () => .ok c.clampRaft

def parseYAML (w : Surroundings) (data : String) : Except String Config :=
  (w.unmarshal data (defaults w.home)).bind checked

variable [Unicode]

/-- Defaults, file and environment. -/
def merged (w : Surroundings) (path : String) : Except String Config :=
  let cfg := defaults w.home
  let read : Except String Config :=
    if path = "" then .ok cfg
    else
      match w.readFile path with
      | .notExist => .ok cfg
      | .failed err => .error ("read config " ++ Go.quote path ++ ": " ++ err)
      | .contents data =>
          match w.unmarshal data cfg with
          | .error err => .error ("parse config " ++ Go.quote path ++ ": " ++ err)
          | .ok cfg => .ok cfg
  read.map (·.applyEnv w.getenv)

def loadFrom (w : Surroundings) (path : String) : Except String Config :=
  (merged w path).bind checked

end Config

end Clusdr.Settings

namespace Clusdr.Consensus

open Go (Duration)
open Settings (RaftConfig)

/-- The timeouts in the configuration of hashicorp/raft. -/
structure Timeouts where
  heartbeat : Duration
  election : Duration
  leaderLease : Duration
deriving DecidableEq

/-- `raft.DefaultConfig`. -/
def defaultTimeouts : Timeouts := ⟨1000 * Duration.millisecond, 1000 * Duration.millisecond,
  500 * Duration.millisecond⟩

/-- The timeouts `New` hands to the library. -/
def timeouts (cfg : RaftConfig) : Timeouts where
  heartbeat :=
    if 0 < cfg.heartbeatTimeout then cfg.heartbeatTimeout else defaultTimeouts.heartbeat
  election :=
    if 0 < cfg.electionTimeout then cfg.electionTimeout else defaultTimeouts.election
  leaderLease :=
    if 0 < cfg.leaderLeaseTimeout then cfg.leaderLeaseTimeout else defaultTimeouts.leaderLease

/-- The order that `raft.NewRaft` demands of them, besides minimum values. -/
def Timeouts.Valid (t : Timeouts) : Prop := t.leaderLease ≤ t.heartbeat ∧ t.heartbeat ≤ t.election

instance (t : Timeouts) : Decidable t.Valid := inferInstanceAs (Decidable (_ ∧ _))

end Clusdr.Consensus
