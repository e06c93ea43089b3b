import Clusdr.Core.Config
import Clusdr.Core.Node
import Clusdr.Core.Store

/-!
Who may call a daemon. A connection is plain on both sides or TLS on both sides; a
daemon that serves TLS looks for the caller's certificate before any handler but
those of `Join`, `Health` and reflection. The cryptography is ideal: a certificate
verifies against the CA certificate it was issued under and no other.
-/

namespace Clusdr

/-- Packages `crypto/tls` and `crypto/x509`. -/
structure X509 where
  /-- `tls.X509KeyPair` accepts the certificate and the key. -/
  keyPair : Bytes → Bytes → Bool
  /-- `AppendCertsFromPEM` finds a certificate. -/
  pool : Bytes → Bool
  /-- The CA certificate that a certificate verifies against. -/
  issuer : Bytes → Option Bytes

namespace Mtls

/-- What `loadTLSMaterial` returns. -/
structure Material where
  ca : Bytes
  cert : Bytes
  key : Bytes
deriving DecidableEq

/-- The transport credentials a caller dials with. `BootstrapTLS` trusts every server
and has no certificate. -/
inductive Creds where
  | insecure
  | bootstrap
  | client (m : Material)
deriving DecidableEq

def serverTLS (x : X509) (m : Material) : Except String Material :=
  if !x.keyPair m.cert m.key then .error "mtls: server keypair"
  else if !x.pool m.ca then .error "mtls: invalid CA certificate"
  else .ok m

def clientTLS (x : X509) (m : Material) : Except String Creds :=
  if !x.pool m.ca then .error "mtls: invalid CA certificate"
  else if !x.keyPair m.cert m.key then .error "mtls: client keypair"
  else .ok (.client m)

/-- `peer.AuthInfo` of a connection. -/
inductive AuthInfo where
  | plain
  | tls (peerCertificates : List Bytes)

/-- The server's half of a TLS handshake, which reads its certificates anew, and the
client's. A certificate of the server's own CA is sent; one of another CA is sent and
refused, or, as `offers` says, not sent at all. -/
def handshake (x : X509) (server : Except String Material) (offers : Bool) :
    Creds → Option AuthInfo
  | .insecure => none
  | .bootstrap =>
      match server.bind (serverTLS x) with
      | .error _ => none
      | .ok _ => some (.tls [])
  | .client m =>
      match server.bind (serverTLS x) with
      | .error _ => none
      | .ok s =>
          if x.issuer s.cert ≠ some m.ca then none
          else if x.issuer m.cert = some s.ca then some (.tls [m.cert])
          else if offers then none
          else some (.tls [])

def publicRPC (method : String) : Bool :=
  method = "/clusdr.v1alpha1.JoinService/Join" ||
    method = "/clusdr.v1alpha1.HealthService/Health" || Go.hasPrefix method "/grpc.reflection."

def requirePeerCert (auth : AuthInfo) (method : String) : Except Rpc.Status Unit :=
  if publicRPC method then .ok ()
  else match auth with
    | .plain | .tls [] => .error ⟨.unauthenticated, "mtls required"⟩
    | .tls (_ :: _) => .ok ()

/-- `Config.TLSEnabled`. -/
def tlsEnabled [Go.Unicode] (cfg : Settings.Config) : Bool :=
  !(["disabled", "off", "false", "0"].contains (Go.toLower (Go.trimSpace cfg.tlsMode)))

/-- The `App` of a daemon as far as its connections go: whether its configuration
enables TLS, its store, and whether its server was started with TLS. -/
structure App where
  tlsEnabled : Bool
  store : Certs
  servesTLS : Bool := false

namespace App

def loadTLSMaterial (store : Certs) : Except String Material :=
  match store.load with
  | .error e => .error e
  | .ok c =>
      if c.caCert.isEmpty || c.nodeCert.isEmpty || c.nodeKey.isEmpty then
        .error "incomplete certificates"
      else .ok ⟨c.caCert, c.nodeCert, c.nodeKey⟩

/-- The part of `InitGRPC` that decides between TLS and plain connections. -/
def initGRPC (x : X509) (a : App) : Except String App :=
  if !a.tlsEnabled then .ok { a with servesTLS := false }
  else match loadTLSMaterial a.store with
    | .error _ => .ok { a with servesTLS := false }
    | .ok m =>
        match serverTLS x m with
        | .error e => .error ("tls: " ++ e)
        | .ok _ => .ok { a with servesTLS := true }

/-- What the daemon dials its peers with. -/
def peerTransportCreds (x : X509) (a : App) : Creds :=
  if !a.tlsEnabled then .insecure
  else match loadTLSMaterial a.store with
    | .error _ => .insecure
    | .ok m =>
        match clientTLS x m with
        | .error _ => .insecure
        | .ok creds => creds

/-- What the daemon dials the node it is to join with. -/
def joinCreds (a : App) : Creds := if a.servesTLS then .bootstrap else .insecure

/-- The connection a caller gets; a plain one only to a daemon that serves plain ones. -/
def connect (x : X509) (a : App) (offers : Bool) (creds : Creds) : Option AuthInfo :=
  if a.servesTLS then handshake x (loadTLSMaterial a.store) offers creds
  else match creds with
    | .insecure => some .plain
    | .bootstrap | .client _ => none

/-- One call. The interceptor runs only on a server with TLS. -/
def call {α : Type} (x : X509) (a : App) (offers : Bool) (creds : Creds) (method : String)
    (handler : Except Rpc.Status α) : Except Rpc.Status α :=
  match a.connect x offers creds with
  | none => .error ⟨.unavailable, "connection error"⟩
  | some auth =>
      if a.servesTLS then (requirePeerCert auth method).bind fun _ => handler else handler

end App

end Mtls

end Clusdr
