import Clusdr.Core.ControlService
import Clusdr.Metatheory.ReadyReports
import Clusdr.Metatheory.TrustDomains

/-!
What the operator's `Runtime` gets from a daemon. It dials with TLS and without a
certificate: a daemon that serves TLS lets it list nothing, and one that serves plain
connections does not talk to it. So no pass gets beyond its first look at the members.
-/

namespace Clusdr.Operator

open Calls.Prog (Trace)
open Pass

theorem listMembers_not_public : Mtls.publicRPC Runtime.listMembersMethod = false := by
  decide +kernel

theorem snapshot_fails (x : X509) (d : Mtls.App) (offers : Bool) (h : Runtime.Handlers) :
    ∃ e, Runtime.snapshot x d offers h = .error e := by
  unfold Runtime.snapshot
  cases hcall : d.call x offers .bootstrap Runtime.listMembersMethod h.listMembers with
  | error e => exact ⟨e.text, rfl⟩
  | ok list =>
      have hreached := (Mtls.App.call_eq_ok_iff.mp hcall).1
      exact absurd hreached (Mtls.App.not_admits_bootstrap listMembers_not_public)

/-- The looks at the members in a run are those of `Runtime`, each at some daemon. -/
def ByRuntime (x : X509) (past : Made) : Prop :=
  ∀ seedAddr (answer : Call.Answer (.snapshot seedAddr)), ⟨.snapshot seedAddr, answer⟩ ∈ past →
    ∃ d offers h, answer = Runtime.snapshot x d offers h

theorem not_knows_of_byRuntime {x : X509} {past : Made} (byRuntime : ByRuntime x past)
    {seedAddr : String} {pods : List PodAddr} {st : Status} : ¬ Pass.Knows past seedAddr pods st := by
  rintro ⟨-, list, lead, health, hmem, -⟩
  obtain ⟨d, offers, h, hanswer⟩ := byRuntime _ _ hmem
  obtain ⟨e, he⟩ := snapshot_fails x d offers h
  rw [he] at hanswer
  cases hanswer

/-- Whatever daemons run, with TLS or without: a pass whose looks at the members are made
by `Runtime` joins no pod, makes no member leave and never reports `Ready`. -/
theorem runtime_passes_change_nothing [Go.Unicode] (x : X509)
    {visit : Go.Map String Unit → List String} (ranges : Ranges visit) (c : Cluster)
    (before after : Made) (call : Call) (answer : call.Answer)
    (made : (reconcile visit c).run.Trace (before ++ ⟨call, answer⟩ :: after))
    (byRuntime : ByRuntime x before) :
    (∀ localAddr seedAddr token observer, call ≠ .join localAddr seedAddr token observer) ∧
      (∀ seedAddr id, call ≠ .leave seedAddr id) ∧
      ∀ cluster st, call = .patchStatus cluster st → st.phase ≠ "Ready" := by
  have hjustified := (reconcile_justified ranges c).allowed made
  rw [List.nil_append] at hjustified
  refine ⟨?_, ?_, ?_⟩
  · rintro localAddr seedAddr token observer rfl
    obtain ⟨pods, st, p, hknows, -⟩ := hjustified
    exact not_knows_of_byRuntime byRuntime hknows
  · rintro seedAddr id rfl
    obtain ⟨pods, st, hknows, -⟩ := hjustified
    exact not_knows_of_byRuntime byRuntime hknows
  · rintro cluster st rfl ready
    obtain ⟨earlier, seedAddr, pods, seen, list, lead, health, rfl, hformed, -⟩ := hjustified ready
    refine not_knows_of_byRuntime (x := x) (fun seedAddr answer hmem => ?_) hformed.knows
    exact byRuntime seedAddr answer (List.mem_append_left _ hmem)

/-! A seed that was initialised and started serves TLS. -/

def tlsSeed : Mtls.App := { tlsEnabled := true, store := bundleOf 7, servesTLS := true }

def seedHandlers : Runtime.Handlers :=
  ⟨.ok [newMember], .ok "n0", .ok "c", .ok { joined := true }, .ok { changed := true }⟩

def refused : String := "rpc error: code = Unauthenticated desc = mtls required"

theorem snapshot_tlsSeed :
    Runtime.snapshot plainX509 tlsSeed true seedHandlers = .error refused := by
  have hcall : tlsSeed.call plainX509 true .bootstrap Runtime.listMembersMethod
      seedHandlers.listMembers = .error ⟨.unauthenticated, "mtls required"⟩ := by
    simp [Mtls.App.call, Mtls.App.connect, Mtls.handshake, tlsSeed, Mtls.App.loadTLSMaterial,
      Certs.load, bundleOf, Mtls.serverTLS, plainX509, Mtls.requirePeerCert,
      listMembers_not_public, Except.bind]
  rw [Runtime.snapshot, hcall]
  decide

def refusedPast : Made :=
  [⟨.clusterCount, .ok (1 : Int)⟩, ⟨.token sidecars, .ok (some "t")⟩,
    ⟨.jobExists sidecars, .ok false⟩, ⟨.ensureHeadless sidecars.spec sidecars, .ok ()⟩,
    ⟨.ensureStatefulSet sidecars.spec sidecars, .ok ()⟩,
    ⟨.seedReadyAddr sidecars, .ok "s:7947"⟩, ⟨.memberPods sidecars, .ok [newPod]⟩,
    ⟨.snapshot "s:7947", .error refused⟩]

def refusedStatus : Status := { phase := "Pending", message := "members: " ++ refused }

theorem trace_refused : letI := Go.Unicode.ascii
    (reconcile visitSorted sidecars).run.Trace
      (refusedPast ++ [⟨.patchStatus sidecars refusedStatus, .ok ()⟩]) :=
  letI := Go.Unicode.ascii
  .call _ (.call _ (.call _ (.call _ (.call _ (.call _ (.call _ (.call _ (.call _ (.nil _)))))))))

theorem byRuntime_refused : ByRuntime plainX509 refusedPast := by
  intro seedAddr answer hmem
  simp only [refusedPast, List.mem_cons, Sigma.mk.injEq, reduceCtorEq, false_and, false_or,
    Call.snapshot.injEq, List.not_mem_nil, or_false] at hmem
  obtain ⟨rfl, hanswer⟩ := hmem
  exact ⟨tlsSeed, true, seedHandlers, (eq_of_heq hanswer).trans snapshot_tlsSeed.symm⟩

theorem runtime_passes_change_nothing_tls : letI := Go.Unicode.ascii
    ByRuntime plainX509 refusedPast ∧
      (reconcile visitSorted sidecars).run.Trace
        (refusedPast ++ [⟨.patchStatus sidecars refusedStatus, .ok ()⟩]) ∧
      ∀ cluster st, Call.patchStatus sidecars refusedStatus = .patchStatus cluster st →
        st.phase ≠ "Ready" :=
  letI := Go.Unicode.ascii
  ⟨byRuntime_refused, trace_refused,
    (runtime_passes_change_nothing plainX509 ranges_visitSorted sidecars refusedPast []
      (.patchStatus sidecars refusedStatus) (.ok ()) trace_refused byRuntime_refused).2.2⟩

end Clusdr.Operator
