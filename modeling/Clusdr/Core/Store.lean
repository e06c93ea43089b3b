import Mathlib.Init

/-!
The certificates a node stores, and what it can check and issue with them. The
cryptography is a parameter.
-/

namespace Clusdr

abbrev Bytes := List UInt8

/-- The certs bucket; a key that is missing reads as empty. -/
structure Certs where
  caCert : Bytes
  caKey : Bytes
  nodeCert : Bytes
  nodeKey : Bytes
  joinTokenHash : Bytes
deriving DecidableEq

namespace Certs

def none : Certs := ⟨[], [], [], [], []⟩

/-- `Put`, skipped for an empty value. -/
def put (old new : Bytes) : Bytes := if new.isEmpty then old else new

def saveCerts (s c : Certs) : Certs where
  caCert := put s.caCert c.caCert
  caKey := put s.caKey c.caKey
  nodeCert := put s.nodeCert c.nodeCert
  nodeKey := put s.nodeKey c.nodeKey
  joinTokenHash := put s.joinTokenHash c.joinTokenHash

/-- The key of the CA is deleted: a node that joined cannot issue certificates. -/
def saveJoinCerts (s : Certs) (caCert nodeCert nodeKey tokenHash : Bytes) : Certs where
  caCert := put s.caCert caCert
  caKey := []
  nodeCert := put s.nodeCert nodeCert
  nodeKey := put s.nodeKey nodeKey
  joinTokenHash := put s.joinTokenHash tokenHash

def errNotInitialized : String := "node not initialized: run 'clusdr init'"

/-- `Store.Certs`. -/
def load (s : Certs) : Except String Certs :=
  if s.caCert.isEmpty then .error errNotInitialized else .ok s

end Certs

/-- What `IssueNode` returns. -/
structure Issued where
  nodeCert : Bytes
  nodeKey : Bytes
  caCert : Bytes
  tokenHash : Bytes
deriving DecidableEq

/-- Package `pki`, as far as joining uses it. -/
structure Pki where
  hashToken : String → Bytes
  issueNodeCert : Bytes → Bytes → String → Except String (Bytes × Bytes)

def Pki.checkToken (pki : Pki) (wantHash : Bytes) (token : String) : Bool :=
  wantHash.isEmpty || pki.hashToken token == wantHash

/-- The `JoinSecurity` of a daemon. -/
structure JoinSecurity where
  checkToken : String → Except String Unit
  issueNode : String → Except String Issued

/-- `joinSec`. -/
def joinSec (pki : Pki) (store : Certs) : JoinSecurity where
  checkToken token :=
    match store.load with
    | .error _ => .ok ()
    | .ok c =>
        if c.joinTokenHash.isEmpty then .ok ()
        else if pki.checkToken c.joinTokenHash token then .ok () else .error "unauthorized"
  issueNode nodeID :=
    match store.load with
    | .error e => .error e
    | .ok c =>
        if c.caKey.isEmpty then .error "this node has no CA key; join via a seed node"
        else match pki.issueNodeCert c.caCert c.caKey nodeID with
          | .error e => .error e
          | .ok (nodeCert, nodeKey) => .ok ⟨nodeCert, nodeKey, c.caCert, c.joinTokenHash⟩

/-- A node that joined issues no certificates. -/
theorem issueNode_joined (pki : Pki) (s : Certs) (caCert nodeCert nodeKey tokenHash : Bytes)
    (nodeID : String) :
    ∃ e, (joinSec pki (s.saveJoinCerts caCert nodeCert nodeKey tokenHash)).issueNode nodeID =
      .error e := by
  simp only [joinSec, Certs.load]
  split
  · exact ⟨_, rfl⟩
  · rename_i c hload
    split at hload
    · cases hload
    · cases hload
      exact ⟨_, rfl⟩

end Clusdr
