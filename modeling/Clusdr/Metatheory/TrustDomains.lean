import Clusdr.Core.JoinService
import Clusdr.Core.Mtls
import Clusdr.Runs.Along

/-!
Which daemons can call each other. Nodes are initialised, started, stopped and
joined in any order; whatever the order, a daemon reaches the handlers of another
one exactly when both speak TLS under the same CA, or neither speaks TLS. There are
no clocks here: all calls are made while the certificates are valid.
-/

namespace Clusdr

/-- What `pki` makes fits what `crypto/x509` checks. -/
structure Pki.Fits (pki : Pki) (x : X509) : Prop where
  issued : ∀ ca caKey id cert key, pki.issueNodeCert ca caKey id = .ok (cert, key) →
    x.issuer cert = some ca ∧ x.keyPair cert key = true ∧ x.pool ca = true ∧
      cert ≠ [] ∧ key ≠ []

/-- The certificates of a node belong together. -/
structure Certs.Complete (x : X509) (c : Certs) : Prop where
  ca_ne : c.caCert ≠ []
  cert_ne : c.nodeCert ≠ []
  key_ne : c.nodeKey ≠ []
  issuer : x.issuer c.nodeCert = some c.caCert
  keyPair : x.keyPair c.nodeCert c.nodeKey = true
  pool : x.pool c.caCert = true

namespace Mtls.App

/-- A store is empty or complete. -/
def Sound (x : X509) (store : Certs) : Prop := store = Certs.none ∨ store.Complete x

variable {x : X509}

theorem loadTLSMaterial_none : loadTLSMaterial Certs.none = .error Certs.errNotInitialized := rfl

theorem loadTLSMaterial_complete {store : Certs} (complete : store.Complete x) :
    loadTLSMaterial store = .ok ⟨store.caCert, store.nodeCert, store.nodeKey⟩ := by
  simp [loadTLSMaterial, Certs.load, complete.ca_ne, complete.cert_ne, complete.key_ne]

theorem serverTLS_complete {store : Certs} (complete : store.Complete x) :
    serverTLS x ⟨store.caCert, store.nodeCert, store.nodeKey⟩ =
      .ok ⟨store.caCert, store.nodeCert, store.nodeKey⟩ := by
  simp [serverTLS, complete.keyPair, complete.pool]

theorem clientTLS_complete {store : Certs} (complete : store.Complete x) :
    clientTLS x ⟨store.caCert, store.nodeCert, store.nodeKey⟩ =
      .ok (.client ⟨store.caCert, store.nodeCert, store.nodeKey⟩) := by
  simp [clientTLS, complete.keyPair, complete.pool]

/-- The daemon dials with its certificate. -/
def DialsTLS (d : App) : Prop := d.tlsEnabled = true ∧ d.store ≠ Certs.none

theorem peerTransportCreds_dials {d : App} (sound : Sound x d.store) (dials : d.DialsTLS) :
    d.peerTransportCreds x = .client ⟨d.store.caCert, d.store.nodeCert, d.store.nodeKey⟩ := by
  have complete := sound.resolve_left dials.2
  simp [peerTransportCreds, dials.1, loadTLSMaterial_complete complete,
    clientTLS_complete complete]

theorem peerTransportCreds_plain {d : App} (plain : ¬ d.DialsTLS) :
    d.peerTransportCreds x = .insecure := by
  by_cases enabled : d.tlsEnabled = true
  · have hnone : d.store = Certs.none := by
      by_contra hne
      exact plain ⟨enabled, hne⟩
    simp [peerTransportCreds, hnone, loadTLSMaterial_none]
  · simp [peerTransportCreds, enabled]

/-- A server with TLS has certificates. -/
structure Proper (x : X509) (d : App) : Prop where
  sound : Sound x d.store
  serves : d.servesTLS = true → d.store.Complete x

/-- The handler of a method runs for a caller with the credentials. -/
def Admits (x : X509) (d : App) (offers : Bool) (creds : Creds) (method : String) : Prop :=
  d.call x offers creds method (.ok ()) = .ok ()

theorem admits_iff {d : App} {offers : Bool} {creds : Creds} {method : String} :
    d.Admits x offers creds method ↔ ∃ auth, d.connect x offers creds = some auth ∧
      (d.servesTLS = true → requirePeerCert auth method = .ok ()) := by
  unfold Admits call
  cases d.connect x offers creds with
  | none => simp
  | some auth =>
      cases d.servesTLS with
      | false => simp
      | true =>
          cases hpeer : requirePeerCert auth method with
          | error e => simp [Except.bind, hpeer]
          | ok => simp [Except.bind, hpeer]

/-- A call is answered by its handler or not at all. -/
theorem call_eq_ok_iff {d : App} {offers : Bool} {creds : Creds} {method : String} {α : Type}
    {handler : Except Rpc.Status α} {r : α} :
    d.call x offers creds method handler = .ok r ↔
      d.Admits x offers creds method ∧ handler = .ok r := by
  unfold Admits call
  cases d.connect x offers creds with
  | none => simp
  | some auth =>
      cases d.servesTLS with
      | false => simp
      | true => cases hpeer : requirePeerCert auth method <;> simp [Except.bind, hpeer]

theorem connect_plain {d : App} (plain : d.servesTLS = false) (offers : Bool) (creds : Creds) :
    d.connect x offers creds = if creds = .insecure then some .plain else none := by
  unfold connect
  rw [if_neg (by simp [plain])]
  cases creds <;> simp

theorem connect_insecure {d : App} (serves : d.servesTLS = true) (offers : Bool) :
    d.connect x offers .insecure = none := by
  unfold connect
  rw [if_pos serves]
  rfl

theorem requirePeerCert_nil {method : String} (guarded : publicRPC method = false) :
    requirePeerCert (.tls []) method ≠ .ok () := by
  simp [requirePeerCert, guarded]

/-- A caller without a certificate gets to no handler that asks for one. -/
theorem not_admits_bootstrap {d : App} {offers : Bool} {method : String}
    (guarded : publicRPC method = false) : ¬ d.Admits x offers .bootstrap method := by
  rw [admits_iff]
  rintro ⟨auth, hconnect, hpeer⟩
  cases hserves : d.servesTLS with
  | false =>
      rw [connect_plain hserves] at hconnect
      exact absurd hconnect (by simp)
  | true =>
      simp only [connect, hserves, if_true, handshake] at hconnect
      split at hconnect
      · cases hconnect
      · cases hconnect
        exact requirePeerCert_nil guarded (hpeer hserves)

/-- A certificate of the daemon's own CA, and no other, gets to every handler. -/
theorem admits_client_iff {d : App} (complete : d.store.Complete x) (serves : d.servesTLS = true)
    {c : Certs} (hc : c.Complete x) (offers : Bool) {method : String}
    (guarded : publicRPC method = false) :
    d.Admits x offers (.client ⟨c.caCert, c.nodeCert, c.nodeKey⟩) method ↔
      c.caCert = d.store.caCert := by
  have hserver : (loadTLSMaterial d.store).bind (serverTLS x) =
      .ok ⟨d.store.caCert, d.store.nodeCert, d.store.nodeKey⟩ := by
    rw [loadTLSMaterial_complete complete]
    exact serverTLS_complete complete
  have hconnect : d.connect x offers (.client ⟨c.caCert, c.nodeCert, c.nodeKey⟩) =
      if c.caCert = d.store.caCert then some (.tls [c.nodeCert]) else none := by
    simp only [connect, serves, if_true, handshake, hserver, complete.issuer, hc.issuer]
    by_cases heq : c.caCert = d.store.caCert
    · simp [heq]
    · simp [heq, Ne.symm heq]
  rw [admits_iff, hconnect]
  by_cases heq : c.caCert = d.store.caCert
  · simp [heq, requirePeerCert, guarded]
  · simp [heq]

theorem admits_peer_iff {a b : App} (ha : a.Proper x) (hb : b.Proper x) (offers : Bool)
    {method : String} (guarded : publicRPC method = false) :
    b.Admits x offers (a.peerTransportCreds x) method ↔
      (a.DialsTLS ∧ b.servesTLS = true ∧ a.store.caCert = b.store.caCert) ∨
        (¬ a.DialsTLS ∧ b.servesTLS = false) := by
  by_cases dials : a.DialsTLS
  · rw [peerTransportCreds_dials ha.sound dials]
    cases hserves : b.servesTLS with
    | true =>
        rw [admits_client_iff (hb.serves hserves) hserves (ha.sound.resolve_left dials.2) offers
          guarded]
        simp [dials]
    | false => simp [admits_iff, connect_plain hserves, dials]
  · rw [peerTransportCreds_plain dials]
    cases hserves : b.servesTLS with
    | true => simp [admits_iff, connect_insecure hserves, dials]
    | false => simp [admits_iff, connect_plain hserves, dials, hserves]

theorem proper_of_store {a : App} {store : Certs} (ha : a.Proper x)
    (h : store = a.store ∨ store.Complete x) : App.Proper x { a with store } := by
  rcases h with rfl | complete
  · exact ha
  · exact ⟨.inr complete, fun _ => complete⟩

theorem proper_initGRPC {a app : App} (ha : a.Proper x) (h : a.initGRPC x = .ok app) :
    app.Proper x := by
  unfold initGRPC at h
  split at h
  · cases h
    exact ⟨ha.sound, nofun⟩
  · split at h
    · cases h
      exact ⟨ha.sound, nofun⟩
    · rename_i m hload
      split at h
      · cases h
      · cases h
        refine ⟨ha.sound, fun _ => ha.sound.resolve_left fun hnone => ?_⟩
        rw [hnone, loadTLSMaterial_none] at hload
        cases hload

end Mtls.App

open Consensus (Leader)

/-- A node of the network: its daemon, and whether it runs. -/
structure Host where
  app : Mtls.App
  running : Bool := false

/-- A request to a daemon to join: the node it dials, the leader which that node
forwards to unless it leads itself, and what the leader finds when it serves the `Join`. -/
structure Joining (ι : Type) where
  joiner : ι
  target : ι
  leader : ι
  offers : Bool
  clusterID : String
  state : Leader
  commits : Commits
  req : JoinRequest

inductive NetStep (ι : Type) where
  | configure (i : ι) (tlsEnabled : Bool)
  | init (i : ι) (bundle : Certs)
  | start (i : ι)
  | stop (i : ι)
  | join (j : Joining ι)

def joinMethod : String := "/clusdr.v1alpha1.JoinService/Join"

/-- The answer of the leader's `Join`. -/
def answerJoin [Go.Unicode] (pki : Pki) {ι : Type} (j : Joining ι) (store : Certs) :
    Except Rpc.Status JoinResponse :=
  let s : JoinService := ⟨j.clusterID, true, some (joinSec pki store)⟩
  match s.check j.req with
  | some r => r
  | none => (s.serveJoin j.state j.commits j.req).2

/-- What `RequestJoin` does with the answer. -/
def saveAnswer (store : Certs) : Except Rpc.Status JoinResponse → Certs
  | .error _ => store
  | .ok resp =>
      if resp.accepted && !resp.nodeCert.isEmpty then
        store.saveJoinCerts resp.caCert resp.nodeCert resp.nodeKey resp.joinTokenHash
      else store

/-- What an accepted `Join` carries was issued under the leader's CA. -/
structure JoinResponse.IssuedBy (x : X509) (store : Certs) (resp : JoinResponse) : Prop where
  ca : resp.caCert = store.caCert
  ca_ne : resp.caCert ≠ []
  cert_ne : resp.nodeCert ≠ []
  key_ne : resp.nodeKey ≠ []
  issuer : x.issuer resp.nodeCert = some resp.caCert
  keyPair : x.keyPair resp.nodeCert resp.nodeKey = true
  pool : x.pool resp.caCert = true

section Issue

variable {x : X509} {pki : Pki}

theorem issueNode_ok (fits : pki.Fits x) {store : Certs} {id : String} {issued : Issued}
    (h : (joinSec pki store).issueNode id = .ok issued) :
    issued.caCert = store.caCert ∧ issued.caCert ≠ [] ∧
      x.issuer issued.nodeCert = some issued.caCert ∧
      x.keyPair issued.nodeCert issued.nodeKey = true ∧ x.pool issued.caCert = true ∧
      issued.nodeCert ≠ [] ∧ issued.nodeKey ≠ [] := by
  simp only [joinSec, Certs.load] at h
  split at h
  · cases h
  · rename_i c hload
    split at hload
    · cases hload
    · rename_i hca
      cases hload
      split at h
      · cases h
      · split at h
        · cases h
        · rename_i cert key hissue
          cases h
          obtain ⟨hissuer, hpair, hpool, hcert, hkey⟩ := fits.issued _ _ _ _ _ hissue
          exact ⟨rfl, by simpa using hca, hissuer, hpair, hpool, hcert, hkey⟩

theorem complete_saveJoinCerts {store leader : Certs} {resp : JoinResponse}
    (issued : resp.IssuedBy x leader) :
    (store.saveJoinCerts resp.caCert resp.nodeCert resp.nodeKey resp.joinTokenHash).Complete x ∧
      (store.saveJoinCerts resp.caCert resp.nodeCert resp.nodeKey resp.joinTokenHash).caCert =
        leader.caCert := by
  have hca := issued.ca_ne
  have hcert := issued.cert_ne
  have hkey := issued.key_ne
  constructor
  · constructor <;> simp [Certs.saveJoinCerts, Certs.put, hca, hcert, hkey, issued.issuer,
      issued.keyPair, issued.pool]
  · rw [← issued.ca]
    simp [Certs.saveJoinCerts, Certs.put, hca]

theorem complete_saveCerts {store bundle : Certs} (h : bundle.Complete x) :
    (store.saveCerts bundle).Complete x := by
  constructor <;> simp [Certs.saveCerts, Certs.put, h.ca_ne, h.cert_ne, h.key_ne, h.issuer,
    h.keyPair, h.pool]

theorem accept_issuedBy (fits : pki.Fits x) {s : JoinService} {store : Certs}
    (hsec : s.sec = some (joinSec pki store)) {members : Membership.Engine} {req : JoinRequest}
    {resp : JoinResponse} (h : s.accept members req = .ok resp) : resp.IssuedBy x store := by
  simp only [JoinService.accept, hsec] at h
  split at h
  · cases h
  · rename_i issued hissue
    cases h
    obtain ⟨hca, hne, hissuer, hpair, hpool, hcert, hkey⟩ := issueNode_ok fits hissue
    exact ⟨hca, hne, hcert, hkey, hissuer, hpair, hpool⟩

variable [Go.Unicode]

/-- The answers `Join` gives before it is served accept nothing. -/
theorem not_accepted_of_check {s : JoinService} {req : JoinRequest} {resp : JoinResponse}
    (h : s.check req = some (.ok resp)) : resp.accepted = false := by
  unfold JoinService.check at h
  split at h
  · cases h
  split at h
  · cases h
  split at h
  · cases h
    rfl
  split at h
  · cases h
  · split at h <;> cases h

theorem answerJoin_issuedBy (fits : pki.Fits x) {ι : Type} {j : Joining ι} {store : Certs}
    {resp : JoinResponse} (h : answerJoin pki j store = .ok resp)
    (accepted : resp.accepted = true) : resp.IssuedBy x store := by
  unfold answerJoin at h
  simp only at h
  split at h
  · rename_i r hcheck
    rw [h] at hcheck
    exact absurd accepted (by simp [not_accepted_of_check hcheck])
  · simp only [JoinService.serveJoin] at h
    split at h
    · cases h
    · split at h
      · cases h
      · exact accept_issuedBy (s := ⟨j.clusterID, true, some (joinSec pki store)⟩) fits rfl h

end Issue

namespace Net

theorem proper_update {ι : Type} [DecidableEq ι] {x : X509} {net : ι → Host}
    (proper : ∀ i, (net i).app.Proper x) (i : ι) {host : Host} (h : host.app.Proper x) :
    ∀ k, (Function.update net i host k).app.Proper x := by
  intro k
  by_cases hk : k = i
  · subst hk
    rwa [Function.update_self]
  · rw [Function.update_of_ne hk]
    exact proper k

variable [Go.Unicode] {ι : Type} [DecidableEq ι] (x : X509) (pki : Pki)

/-- The answer the joiner gets; a node that does not run does not answer. -/
def joinAnswer (net : ι → Host) (j : Joining ι) : Except Rpc.Status JoinResponse :=
  let unavailable : Except Rpc.Status JoinResponse := .error ⟨.unavailable, "connection error"⟩
  if !(net j.joiner).running || !(net j.target).running || !(net j.leader).running then unavailable
  else
    let served := answerJoin pki j (net j.leader).app.store
    (net j.target).app.call x j.offers (net j.joiner).app.joinCreds joinMethod
      (if j.target = j.leader then served
        else (net j.leader).app.call x j.offers ((net j.target).app.peerTransportCreds x)
          joinMethod served)

/-- The configuration and the store of a node are changed while its daemon is down. -/
def step (net : ι → Host) : NetStep ι → ι → Host
  | .configure i tlsEnabled =>
      if (net i).running then net
      else Function.update net i { net i with app := { (net i).app with tlsEnabled } }
  | .init i bundle =>
      if (net i).running then net
      else Function.update net i
        { net i with app := { (net i).app with store := (net i).app.store.saveCerts bundle } }
  | .start i =>
      match (net i).app.initGRPC x with
      | .error _ => net
      | .ok app => Function.update net i ⟨app, true⟩
  | .stop i => Function.update net i { net i with running := false }
  | .join j =>
      Function.update net j.joiner { net j.joiner with
        app := { (net j.joiner).app with
          store := saveAnswer (net j.joiner).app.store (joinAnswer x pki net j) } }

/-- `pki.Generate` makes certificates that belong together. -/
def Genuine (x : X509) : NetStep ι → Prop
  | .init _ bundle => bundle.Complete x
  | _ => True

variable {x pki}

theorem answer_of_joinAnswer {net : ι → Host} {j : Joining ι} {resp : JoinResponse}
    (h : joinAnswer x pki net j = .ok resp) :
    answerJoin pki j (net j.leader).app.store = .ok resp := by
  unfold joinAnswer at h
  simp only at h
  split at h
  · cases h
  · have hserved := (Mtls.App.call_eq_ok_iff.mp h).2
    split at hserved
    · exact hserved
    · exact (Mtls.App.call_eq_ok_iff.mp hserved).2

/-- A join leaves the store alone or fills it with what the leader issued. -/
theorem saveAnswer_cases (fits : pki.Fits x) (net : ι → Host) (j : Joining ι) (store : Certs) :
    saveAnswer store (joinAnswer x pki net j) = store ∨
      (saveAnswer store (joinAnswer x pki net j)).Complete x := by
  cases h : joinAnswer x pki net j with
  | error e => exact .inl rfl
  | ok resp =>
      simp only [saveAnswer]
      split
      · rename_i hsave
        rw [Bool.and_eq_true] at hsave
        have issued := answerJoin_issuedBy fits (answer_of_joinAnswer h) hsave.1
        exact .inr (complete_saveJoinCerts issued).1
      · exact .inl rfl

theorem proper_step (fits : pki.Fits x) {net : ι → Host} (proper : ∀ i, (net i).app.Proper x)
    {e : NetStep ι} (genuine : Genuine x e) : ∀ i, (step x pki net e i).app.Proper x := by
  cases e with
  | configure i tlsEnabled =>
      simp only [step]
      split
      · exact proper
      · exact proper_update proper i ⟨(proper i).sound, (proper i).serves⟩
  | init i bundle =>
      simp only [step]
      split
      · exact proper
      · exact proper_update proper i
          (Mtls.App.proper_of_store (proper i) (.inr (complete_saveCerts genuine)))
  | start i =>
      cases h : (net i).app.initGRPC x with
      | error e => simpa only [step, h] using proper
      | ok app =>
          simp only [step, h]
          exact proper_update proper i (Mtls.App.proper_initGRPC (proper i) h)
  | stop i => exact proper_update proper i (proper i)
  | join j =>
      exact proper_update proper j.joiner
        (Mtls.App.proper_of_store (proper j.joiner) (saveAnswer_cases fits net j _))

/-- Nodes that were never initialised and do not run. -/
def fresh (_ : ι) : Host := { app := { tlsEnabled := true, store := Certs.none } }

theorem proper_run (fits : pki.Fits x) {steps : List (NetStep ι)}
    (genuine : ∀ e ∈ steps, Genuine x e) (i : ι) :
    (Runs.run (step x pki) fresh steps i).app.Proper x := by
  have halong : Runs.Along (step x pki) (fun _ e => Genuine x e) fresh steps :=
    Runs.along_iff_forall_mem.mpr genuine
  exact Runs.invariant (fun _ (net : ι → Host) => ∀ i, (net i).app.Proper x)
    (fun _ => ⟨.inl rfl, Bool.noConfusion⟩)
    (fun _ _ _ hproper hok => proper_step fits hproper hok) halong i

/-- After any run, a daemon gets to a handler of another one that asks for a certificate
exactly when it dials with one, the other serves TLS and both have the same CA, or when
it dials plainly and the other serves plain connections. A caller that brings no
certificate over TLS gets to none. -/
theorem calls_stay_in_trust_domain (fits : pki.Fits x) (steps : List (NetStep ι))
    (genuine : ∀ e ∈ steps, Genuine x e) (offers : Bool) (method : String)
    (guarded : Mtls.publicRPC method = false) (a b : ι) :
    let net := Runs.run (step x pki) fresh steps
    ((net b).app.Admits x offers ((net a).app.peerTransportCreds x) method ↔
      ((net a).app.DialsTLS ∧ (net b).app.servesTLS = true ∧
          (net a).app.store.caCert = (net b).app.store.caCert) ∨
        (¬ (net a).app.DialsTLS ∧ (net b).app.servesTLS = false)) ∧
      ¬ (net b).app.Admits x offers .bootstrap method ∧
      ∀ j resp, joinAnswer x pki net j = .ok resp → resp.accepted = true →
        (step x pki net (.join j) j.joiner).app.store.caCert = (net j.leader).app.store.caCert := by
  refine ⟨Mtls.App.admits_peer_iff (proper_run fits genuine a) (proper_run fits genuine b) offers
    guarded, Mtls.App.not_admits_bootstrap guarded, fun j resp h accepted => ?_⟩
  have issued := answerJoin_issuedBy fits (answer_of_joinAnswer h) accepted
  have hsave : ∀ store,
      saveAnswer store (joinAnswer x pki (Runs.run (step x pki) fresh steps) j) =
        store.saveJoinCerts resp.caCert resp.nodeCert resp.nodeKey resp.joinTokenHash := by
    intro store
    rw [h]
    simp [saveAnswer, accepted, issued.cert_ne]
  simp only [step, Function.update_self, hsave]
  exact (complete_saveJoinCerts issued).2

end Net

/-! Two nodes with a CA of their own. -/

/-- A certificate names its issuer. -/
def plainX509 : X509 where
  keyPair _ _ := true
  pool _ := true
  issuer
    | 1 :: ca => some ca
    | _ => none

def plainPki : Pki where
  hashToken _ := []
  issueNodeCert ca _ id := if id = "" then .error "pki: node id is required" else .ok (1 :: ca, [2])

theorem plainPki_fits : plainPki.Fits plainX509 := by
  constructor
  intro ca caKey id cert key h
  simp only [plainPki] at h
  split at h
  · cases h
  · cases h
    simp [plainX509]

def bundleOf (ca : UInt8) : Certs := ⟨[ca], [3], [1, ca], [2], []⟩

def twoClusters : List (NetStep Bool) :=
  [.init true (bundleOf 7), .init false (bundleOf 8), .start true, .start false]

theorem twoClusters_genuine : ∀ e ∈ twoClusters, Net.Genuine plainX509 e := by
  have complete : ∀ ca, (bundleOf ca).Complete plainX509 := fun ca => by
    constructor <;> simp [bundleOf, plainX509]
  simp only [twoClusters, List.forall_mem_cons]
  exact ⟨complete 7, complete 8, trivial, trivial, fun _ he => absurd he List.not_mem_nil⟩

def listMembersMethod : String := "/clusdr.v1alpha1.MembershipService/ListMembers"

theorem listMembers_guarded : Mtls.publicRPC listMembersMethod = false := by decide +kernel

theorem calls_stay_in_trust_domain_two : letI := Go.Unicode.ascii
    let net := Runs.run (Net.step plainX509 plainPki) Net.fresh twoClusters
    ((net false).app.Admits plainX509 true ((net true).app.peerTransportCreds plainX509)
        listMembersMethod ↔
      ((net true).app.DialsTLS ∧ (net false).app.servesTLS = true ∧
          (net true).app.store.caCert = (net false).app.store.caCert) ∨
        (¬ (net true).app.DialsTLS ∧ (net false).app.servesTLS = false)) ∧
      ¬ (net false).app.Admits plainX509 true .bootstrap listMembersMethod ∧
      ∀ j resp, Net.joinAnswer plainX509 plainPki net j = .ok resp → resp.accepted = true →
        (Net.step plainX509 plainPki net (.join j) j.joiner).app.store.caCert =
          (net j.leader).app.store.caCert :=
  letI := Go.Unicode.ascii
  Net.calls_stay_in_trust_domain plainPki_fits twoClusters twoClusters_genuine true
    listMembersMethod listMembers_guarded true false

end Clusdr
