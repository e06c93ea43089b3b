import Clusdr.Core.Config
import Clusdr.Core.EventService

/-!
`clusdr init`. Nothing is printed before everything has succeeded, so what it prints
is its result.
-/

namespace Clusdr.InitCommand

open Go (Unicode)
open Settings (Surroundings)

/-- `Store.Identity`. -/
inductive Identity where
  | ids (nodeID clusterID : String)
  | notInitialized
  | failed (err : String)

/-- How the calls of one run end; a call without a result has an error or none. -/
structure Calls where
  surroundings : Surroundings
  /-- `os.Stat` finds the configuration file. -/
  present : Bool
  clusterRand : Except String (Vector UInt8 16)
  nodeRand : Except String (Vector UInt8 16)
  marshal : Except String Unit
  writeConfig : Except String Unit
  openStore : String → Except String Unit
  identity : Identity
  saveIdentity : Except String Unit
  /-- `pki.Generate`: the join token. -/
  generate : String → String → Except String String
  saveCerts : Except String Unit
  writeFiles : Except String Unit
  /-- `filepath.Join` of the data directory and the name of the certificate. -/
  caPath : String → String
  fingerprint : Except String String

/-- Each call of `Fprintln` and `Fprintf` prints one line. -/
def printed (lines : List String) : String :=
  lines.foldr (fun line text => line ++ "\n" ++ text) ""

def initOutput (clusterID nodeID path dataDir caPath fp joinToken : String) : String :=
  printed [
    "cluster initialized",
    "",
    "  cluster id      : " ++ clusterID,
    "  node id         : " ++ nodeID,
    "  config          : " ++ path,
    "  data dir        : " ++ dataDir,
    "  ca cert         : " ++ caPath,
    "  ca fingerprint  : " ++ fp,
    "",
    "  join token      : " ++ joinToken,
    "",
    "  The join token is shown only once. Store it securely.",
    "",
    "next steps:",
    "  clusdr start --bootstrap        start this node as the first voter",
    "  clusdr certs show               inspect the cluster CA",
    "  clusdr join --token <token> <addr>"]

def alreadyInitializedOutput (clusterID nodeID path dataDir : String) : String :=
  printed [
    "already initialized",
    "",
    "  cluster id      : " ++ clusterID,
    "  node id         : " ++ nodeID,
    "  config          : " ++ path,
    "  data dir        : " ++ dataDir]

/-- `fmt.Errorf` with what failed in front of the error. -/
def context {α : Type} (what : String) (r : Except String α) : Except String α :=
  r.mapError fun err => what ++ ": " ++ err

variable [Unicode]

def alreadyInitialized (c : Calls) (path : String) : Except String String := do
  let resolved ← Settings.Config.loadFrom c.surroundings path
  context "open store" (c.openStore resolved.dataDir)
  match c.identity with
  | .notInitialized =>
      .error ("config file " ++ Go.quote path ++ " already exists (use --force to overwrite)")
  | .failed err => .error err
  | .ids nodeID clusterID =>
      .ok (alreadyInitializedOutput clusterID nodeID path resolved.dataDir)

/-- The creation of the cluster. -/
def create (c : Calls) (path : String) : Except String String := do
  let clusterID ← context "generate cluster id" (Uid.new c.clusterRand)
  let nodeID ← context "generate node id" (Uid.new c.nodeRand)
  context "marshal config" c.marshal
  context ("write config " ++ Go.quote path) c.writeConfig
  let resolved ← context "reload config" (Settings.Config.loadFrom c.surroundings path)
  context "open store" (c.openStore resolved.dataDir)
  context "save identity" c.saveIdentity
  let joinToken ← context "generate cluster CA" (c.generate clusterID nodeID)
  context "save certs" c.saveCerts
  context "write cert files" c.writeFiles
  let fp ← context "ca fingerprint" c.fingerprint
  return initOutput clusterID nodeID path resolved.dataDir (c.caPath resolved.dataDir) fp joinToken

/-- The command: its standard output, or its error. -/
def run (c : Calls) (path : String) (force : Bool) : Except String String :=
  if c.present ∧ ¬force then alreadyInitialized c path else create c path

end Clusdr.InitCommand
