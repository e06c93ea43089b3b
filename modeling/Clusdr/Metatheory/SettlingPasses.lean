import Clusdr.Calls.Serve
import Clusdr.Metatheory.ReadyReports

/-!
What passes come to when nothing fails any more: the platform is ready, every pod's
daemon takes part, and nobody else changes the members. The pass then is a function on
the members, and two passes reach a state that further passes leave alone. A pass knows a
pod by its node's name or by its address, so a member of another name at the address of a
pod can keep the pod out.
-/

namespace Clusdr.Operator.Settling

open Calls (serve serve_bind_ok)
open Pass (Ranges Wanted perm_podIndices perm_podOrdinals)

/-- A join or a leave that was carried out. -/
inductive Change where
  | join (localAddr : String) (observer : Bool)
  | leave (nodeID : String)
deriving DecidableEq

/-- What a pass can change. -/
structure World where
  members : List MemberInfo
  changes : List Change := []
  status : Option Status := none
deriving DecidableEq

/-- What it finds and cannot change; `daemon` is the entry with which the daemon at an
address joins. -/
structure Fleet where
  nodes : List String := []
  pods : List PodAddr
  token : String
  seedAddr : String
  clusters : Int := 1
  daemon : String → MemberInfo
  lead : Except String String
  health : Except String String

/-- A member takes the place of one with its id. -/
def World.admit (w : World) (m : MemberInfo) (change : Change) : World :=
  { w with members := w.members.filter (·.id ≠ m.id) ++ [m], changes := w.changes ++ [change] }

def World.dismiss (w : World) (id : String) : World :=
  { w with members := w.members.filter (·.id ≠ id), changes := w.changes ++ [.leave id] }

namespace Fleet

def join (f : Fleet) (w : World) (localAddr : String) (observer : Bool) : World :=
  let role := if observer then Membership.roleObserver else Membership.roleVoter
  w.admit { f.daemon localAddr with role } (.join localAddr observer)

def reply (f : Fleet) (w : World) : (call : Call) → World × call.Answer
  | .readyNodes => (w, .ok f.nodes)
  | .prepareReady _ | .jobComplete _ | .bootstrapReady _ => (w, .ok true)
  | .jobExists _ => (w, .ok false)
  | .jobLogs _ => (w, .ok "")
  | .seedReadyAddr _ => (w, .ok f.seedAddr)
  | .token _ => (w, .ok (some f.token))
  | .memberPods _ => (w, .ok f.pods)
  | .clusterCount => (w, .ok f.clusters)
  | .snapshot _ => (w, .ok (w.members, f.lead, f.health))
  | .join localAddr _ _ observer => (f.join w localAddr observer, .ok ())
  | .leave _ nodeID => (w.dismiss nodeID, .ok ())
  | .patchStatus _ st => ({ w with status := some st }, .ok ())
  | .claimSeed .. | .ensurePrepare .. | .ensureJob .. | .putToken .. | .ensureSeed ..
  | .ensureDaemonSet .. | .ensurePVC .. | .ensureBootstrapJob .. | .deleteJob ..
  | .ensureHeadless .. | .ensureStatefulSet .. => (w, .ok ())

/-- The members as a pass sees them. -/
def seen (f : Fleet) (w : World) : Status := snapshotStatus w.members f.lead f.health

/-- The status with which a pass ends. -/
def ready (f : Fleet) (c : Cluster) (w : World) : Status :=
  { f.seen w with
    observedGeneration := c.generation
    seedNodeName := c.spec.seedNodeName
    warning := c.warning }

def report (f : Fleet) (c : Cluster) (w : World) : World := { w with status := some (f.ready c w) }

variable {f : Fleet} {c : Cluster} {seedAddr token : String}

theorem serve_ask {α : Type} {w w' : World} {call : Call} {a : call.Payload}
    {g : call.Payload → Op α} (h : f.reply w call = (w', .ok a)) :
    serve f.reply w (ask call >>= g).run = serve f.reply w' (g a).run :=
  serve_bind_ok h

theorem serve_attempt {α : Type} {w w' : World} {call : Call} {a : call.Answer}
    {g : call.Answer → Op α} (h : f.reply w call = (w', a)) :
    serve f.reply w (attempt call >>= g).run = serve f.reply w' (g a).run := by
  refine serve_bind_ok ?_
  change ((f.reply w call).1, Except.ok (f.reply w call).2) = _
  rw [h]

theorem serve_memberStatus (w : World) :
    serve f.reply w (memberStatus c seedAddr).run = (f.report c w, .ok ()) := by
  refine (serve_attempt rfl).trans ?_
  simp only [snapshotStatus, String.reduceEq, if_false]
  rfl

/-- The leaves of a pass that saw `st`. -/
def dismissAll (st : Status) (w : World) (ids : List String) : World :=
  ids.foldl (fun w id => if memberListed st id then w.dismiss id else w) w

theorem serve_leaveMembers (st : Status) (rest : Op Unit) (ids : List String) (w : World) :
    serve f.reply w (leaveMembers c seedAddr st rest ids).run =
      serve f.reply (dismissAll st w ids) rest.run := by
  induction ids generalizing w with
  | nil => rfl
  | cons id ids ih =>
      unfold leaveMembers
      rw [dismissAll, List.foldl_cons]
      by_cases hlisted : memberListed st id = true
      · rw [if_neg (by simp [hlisted]), if_pos hlisted]
        exact (serve_attempt rfl).trans (ih _)
      · rw [if_pos (by simp [hlisted]), if_neg hlisted]
        exact ih w

/-- The pods a pass that saw `st` passes over. -/
def passes (drop : Go.Map String Unit) (st : Status) (skip : Int → PodAddr → Bool)
    (x : Int × PodAddr) : Bool :=
  skip x.1 x.2 || (drop.get x.2.nodeName).isSome || alreadyMember st x.2

/-- Its joins. -/
def admitAll (f : Fleet) (c : Cluster) (st : Status) (skip : Int → PodAddr → Bool) (w : World)
    (pods : List (Int × PodAddr)) : World :=
  pods.foldl (fun w x =>
    if passes (dropSet c.spec.leave) st skip x then w
    else f.join w (joinAddr x.2) (memberObserver x.1 c.spec.voterCount)) w

theorem serve_joinPods (st : Status) (skip : Int → PodAddr → Bool) (pods : List (Int × PodAddr))
    (w : World) :
    serve f.reply w (joinPods c seedAddr token (dropSet c.spec.leave) st skip pods).run =
      (f.report c (f.admitAll c st skip w pods), .ok ()) := by
  induction pods generalizing w with
  | nil => exact serve_memberStatus w
  | cons x pods ih =>
      obtain ⟨dsIndex, p⟩ := x
      unfold joinPods
      rw [admitAll, List.foldl_cons]
      by_cases hpass : passes (dropSet c.spec.leave) st skip (dsIndex, p) = true
      · rw [if_pos hpass]
        rw [passes] at hpass
        rw [if_pos hpass]
        exact ih w
      · rw [if_neg hpass]
        rw [passes] at hpass
        rw [if_neg hpass]
        exact (serve_attempt rfl).trans (ih _)

/-- The pass from its first look at the members on. -/
def form (f : Fleet) (visit : Go.Map String Unit → List String) (c : Cluster)
    (skip : Int → PodAddr → Bool) (pods : List (Int × PodAddr)) (w : World) : World :=
  f.report c
    (f.admitAll c (f.seen w) skip (dismissAll (f.seen w) w (visit (dropSet c.spec.leave))) pods)

theorem serve_formMembers (visit : Go.Map String Unit → List String)
    (skip : Int → PodAddr → Bool) (pods : List (Int × PodAddr)) (w : World) :
    serve f.reply w (formMembers visit c seedAddr token skip pods).run =
      (f.form visit c skip pods w, .ok ()) := by
  refine (serve_attempt rfl).trans ?_
  exact (serve_leaveMembers _ _ _ _).trans (serve_joinPods _ _ _ _)

end Fleet

/-! Members that stay, come and go in a pass. -/

section Members

variable {f : Fleet} {c : Cluster} {st : Status} {skip : Int → PodAddr → Bool}

theorem mem_dismissAll {ids : List String} {w : World} {m : MemberInfo} :
    m ∈ (Fleet.dismissAll st w ids).members ↔
      m ∈ w.members ∧ ∀ id ∈ ids, memberListed st id = true → m.id ≠ id := by
  induction ids generalizing w with
  | nil => simp [Fleet.dismissAll]
  | cons id ids ih =>
      rw [Fleet.dismissAll, List.foldl_cons]
      change m ∈ (Fleet.dismissAll st _ ids).members ↔ _
      rw [ih, List.forall_mem_cons]
      by_cases hlisted : memberListed st id = true
      · rw [if_pos hlisted]
        simp [World.dismiss, hlisted, and_assoc]
      · rw [if_neg hlisted]
        simp [hlisted]

/-- A member stays unless a pod joins under its id. -/
theorem mem_admitAll_of_mem {pods : List (Int × PodAddr)} {w : World} {m : MemberInfo}
    (hm : m ∈ w.members)
    (other : ∀ x ∈ pods, Fleet.passes (dropSet c.spec.leave) st skip x = false →
      m.id ≠ (f.daemon (joinAddr x.2)).id) :
    m ∈ (f.admitAll c st skip w pods).members := by
  induction pods generalizing w with
  | nil => exact hm
  | cons x pods ih =>
      obtain ⟨hx, hpods⟩ := List.forall_mem_cons.mp other
      rw [Fleet.admitAll, List.foldl_cons]
      refine ih ?_ hpods
      split
      · exact hm
      · rename_i hpass
        refine List.mem_append_left _ (List.mem_filter.mpr ⟨hm, decide_eq_true ?_⟩)
        exact hx (Bool.eq_false_iff.mpr hpass)

/-- An id that is listed stays listed. -/
theorem listed_admitAll {pods : List (Int × PodAddr)} {w : World} {id : String}
    (hid : ∃ m ∈ w.members, m.id = id) :
    ∃ m ∈ (f.admitAll c st skip w pods).members, m.id = id := by
  induction pods generalizing w with
  | nil => exact hid
  | cons x pods ih =>
      rw [Fleet.admitAll, List.foldl_cons]
      refine ih ?_
      split
      · exact hid
      · by_cases hsame : (f.daemon (joinAddr x.2)).id = id
        · exact ⟨_, List.mem_append_right _ (List.mem_singleton_self _), hsame⟩
        · obtain ⟨m, hm, rfl⟩ := hid
          exact ⟨m, List.mem_append_left _ (List.mem_filter.mpr
            ⟨hm, decide_eq_true fun h => hsame h.symm⟩), rfl⟩

/-- A pod that the pass does not pass over is listed afterwards. -/
theorem joined_admitAll {pods : List (Int × PodAddr)} {w : World} {x : Int × PodAddr}
    (hx : x ∈ pods) (joins : Fleet.passes (dropSet c.spec.leave) st skip x = false) :
    ∃ m ∈ (f.admitAll c st skip w pods).members, m.id = (f.daemon (joinAddr x.2)).id := by
  induction pods generalizing w with
  | nil => cases hx
  | cons y pods ih =>
      rw [Fleet.admitAll, List.foldl_cons]
      rcases List.mem_cons.mp hx with rfl | hx
      · rw [joins]
        exact listed_admitAll ⟨_, List.mem_append_right _ (List.mem_singleton_self _), rfl⟩
      · exact ih hx

/-- Who is listed after the joins was listed before or has joined. -/
theorem of_mem_admitAll {pods : List (Int × PodAddr)} {w : World} {m : MemberInfo}
    (hm : m ∈ (f.admitAll c st skip w pods).members) :
    m ∈ w.members ∨ ∃ x ∈ pods, Fleet.passes (dropSet c.spec.leave) st skip x = false ∧
      m.id = (f.daemon (joinAddr x.2)).id := by
  induction pods generalizing w with
  | nil => exact .inl hm
  | cons x pods ih =>
      rw [Fleet.admitAll, List.foldl_cons] at hm
      rcases ih hm with hold | ⟨y, hy, hjoins, hid⟩
      · split at hold
        · exact .inl hold
        · rename_i hpass
          rcases List.mem_append.mp hold with hold | hnew
          · exact .inl (List.mem_filter.mp hold).1
          · obtain rfl := List.mem_singleton.mp hnew
            exact .inr ⟨x, List.mem_cons_self, Bool.eq_false_iff.mpr hpass, rfl⟩
      · exact .inr ⟨y, List.mem_cons_of_mem _ hy, hjoins, hid⟩

theorem dismissAll_of_none {ids : List String} {w : World}
    (none : ∀ id ∈ ids, memberListed st id = false) : Fleet.dismissAll st w ids = w := by
  induction ids with
  | nil => rfl
  | cons id ids ih =>
      obtain ⟨hid, hids⟩ := List.forall_mem_cons.mp none
      rw [Fleet.dismissAll, List.foldl_cons, hid]
      exact ih hids

theorem admitAll_of_none {pods : List (Int × PodAddr)} {w : World}
    (none : ∀ x ∈ pods, Fleet.passes (dropSet c.spec.leave) st skip x = true) :
    f.admitAll c st skip w pods = w := by
  induction pods with
  | nil => rfl
  | cons x pods ih =>
      obtain ⟨hx, hpods⟩ := List.forall_mem_cons.mp none
      rw [Fleet.admitAll, List.foldl_cons, if_pos hx]
      exact ih hpods

/-- The pods of a pass with their indices. -/
structure Lineup (sidecar : Bool) (drop : Go.Map String Unit) (all : List PodAddr)
    (skip : Int → PodAddr → Bool) (pods : List (Int × PodAddr)) : Prop where
  perm : (pods.map Prod.snd).Perm all
  skips : ∀ x ∈ pods, drop.get x.2.nodeName = none →
    (skip x.1 x.2 = false ↔ Wanted sidecar drop x.2)

variable {sidecar : Bool} {pods : List (Int × PodAddr)} {w : World}

theorem Lineup.joins_iff {drop : Go.Map String Unit} {all : List PodAddr}
    (lineup : Lineup sidecar drop all skip pods) {x : Int × PodAddr} (hx : x ∈ pods) :
    Fleet.passes drop st skip x = false ↔
      Wanted sidecar drop x.2 ∧ alreadyMember st x.2 = false := by
  rw [Fleet.passes, Bool.or_eq_false_iff, Bool.or_eq_false_iff, Option.isSome_eq_false_iff,
    Option.isNone_iff_eq_none]
  constructor
  · rintro ⟨⟨hskip, hdrop⟩, hnew⟩
    exact ⟨(lineup.skips x hx hdrop).mp hskip, hnew⟩
  · rintro ⟨hwanted, hnew⟩
    exact ⟨⟨(lineup.skips x hx hwanted.2.1).mpr hwanted, hwanted.2.1⟩, hnew⟩

theorem Lineup.mem_all {drop : Go.Map String Unit} {all : List PodAddr}
    (lineup : Lineup sidecar drop all skip pods) {x : Int × PodAddr} (hx : x ∈ pods) : x.2 ∈ all :=
  lineup.perm.mem_iff.mp (List.mem_map_of_mem hx)

theorem Lineup.exists_mem {drop : Go.Map String Unit} {all : List PodAddr}
    (lineup : Lineup sidecar drop all skip pods) {p : PodAddr} (hp : p ∈ all) :
    ∃ x ∈ pods, x.2 = p := by
  obtain ⟨x, hx, rfl⟩ := List.mem_map.mp (lineup.perm.mem_iff.mpr hp)
  exact ⟨x, hx, rfl⟩

/-- Daemons that go by the names of their pods. -/
def Fleet.Named (f : Fleet) (sidecar : Bool) (drop : Go.Map String Unit) : Prop :=
  ∀ p ∈ f.pods, Wanted sidecar drop p →
    (f.daemon (joinAddr p)).id = p.nodeName ∧ p.nodeName ≠ ""

/-- The member is listed at an address of the pod. -/
def At (p : PodAddr) (m : MemberInfo) : Prop :=
  joinAddr p ≠ "" ∧ m.address ≠ "" ∧ (m.address = joinAddr p ∨ m.address = p.hostIP)

/-- No other name is listed at the address of a pod that is to be a member. -/
def Fleet.Apart (f : Fleet) (sidecar : Bool) (drop : Go.Map String Unit) (w : World) : Prop :=
  ∀ p ∈ f.pods, Wanted sidecar drop p → ∀ m ∈ w.members, At p m → m.id = p.nodeName

theorem alreadyMember_iff {p : PodAddr} : alreadyMember (f.seen w) p = true ↔
    ∃ m ∈ w.members, (p.nodeName ≠ "" ∧ m.id = p.nodeName) ∨ At p m := by
  simp [alreadyMember, Fleet.seen, snapshotStatus, At, and_assoc]

theorem alreadyMember_of_id {p : PodAddr} (ne : p.nodeName ≠ "")
    (listed : ∃ m ∈ w.members, m.id = p.nodeName) : alreadyMember (f.seen w) p = true := by
  obtain ⟨m, hm, hid⟩ := listed
  exact alreadyMember_iff.mpr ⟨m, hm, .inl ⟨ne, hid⟩⟩

/-- What is known of a pod follows from the members. -/
theorem alreadyMember_mono {w w' : World} {p : PodAddr} (h : alreadyMember (f.seen w) p = true)
    (sub : ∀ m ∈ w.members, m ∈ w'.members) : alreadyMember (f.seen w') p = true := by
  obtain ⟨m, hm, hnames⟩ := alreadyMember_iff.mp h
  exact alreadyMember_iff.mpr ⟨m, sub m hm, hnames⟩

theorem memberListed_of_mem {m : MemberInfo} (hm : m ∈ w.members) :
    memberListed (f.seen w) m.id = true :=
  List.any_eq_true.mpr ⟨_, List.mem_map_of_mem hm, decide_eq_true rfl⟩

section Form

variable {visit : Go.Map String Unit → List String} (ranges : Ranges visit)
  (lineup : Lineup sidecar (dropSet c.spec.leave) f.pods skip pods)
  (named : f.Named sidecar (dropSet c.spec.leave))
include ranges lineup named

/-- The members after a pass: those before it that are not to leave, and daemons of pods
that were not known. -/
theorem mem_form {m : MemberInfo} :
    (m ∈ w.members → (dropSet c.spec.leave).get m.id = none →
      m ∈ (f.form visit c skip pods w).members) ∧
    (m ∈ (f.form visit c skip pods w).members →
      (m ∈ w.members ∧ (dropSet c.spec.leave).get m.id = none) ∨
      ∃ p ∈ f.pods, Wanted sidecar (dropSet c.spec.leave) p ∧
        alreadyMember (f.seen w) p = false ∧ m.id = p.nodeName) := by
  constructor
  · intro hm hkeep
    refine mem_admitAll_of_mem (mem_dismissAll.mpr ⟨hm, fun id hid _ hsame => ?_⟩) ?_
    · have hdrop := (ranges _ id).mp hid
      rw [← hsame, hkeep] at hdrop
      cases hdrop
    · intro x hx hjoins hsame
      obtain ⟨hwanted, hnew⟩ := (lineup.joins_iff hx).mp hjoins
      obtain ⟨hid, hne⟩ := named x.2 (lineup.mem_all hx) hwanted
      rw [alreadyMember_of_id hne ⟨m, hm, hsame.trans hid⟩] at hnew
      cases hnew
  · intro hm
    rcases of_mem_admitAll hm with hold | ⟨x, hx, hjoins, hid⟩
    · obtain ⟨hbefore, hstays⟩ := mem_dismissAll.mp hold
      refine .inl ⟨hbefore, ?_⟩
      rw [← Option.isNone_iff_eq_none, ← Option.isSome_eq_false_iff, Bool.eq_false_iff]
      intro hdrop
      exact hstays m.id ((ranges _ _).mpr hdrop) (memberListed_of_mem hbefore) rfl
    · obtain ⟨hwanted, hnew⟩ := (lineup.joins_iff hx).mp hjoins
      obtain ⟨hname, -⟩ := named x.2 (lineup.mem_all hx) hwanted
      exact .inr ⟨x.2, lineup.mem_all hx, hwanted, hnew, hid.trans hname⟩

theorem form_gone : ∀ m ∈ (f.form visit c skip pods w).members,
    (dropSet c.spec.leave).get m.id = none := by
  intro m hm
  rcases (mem_form ranges lineup named).2 hm with ⟨-, hkeep⟩ | ⟨p, -, hwanted, -, hid⟩
  · exact hkeep
  · rw [hid]
    exact hwanted.2.1

omit ranges in
/-- A pod that is wanted and not known joins. -/
theorem form_joins {p : PodAddr} (hp : p ∈ f.pods)
    (hwanted : Wanted sidecar (dropSet c.spec.leave) p)
    (hnew : alreadyMember (f.seen w) p = false) :
    ∃ m ∈ (f.form visit c skip pods w).members, m.id = p.nodeName := by
  obtain ⟨x, hx, rfl⟩ := lineup.exists_mem hp
  have hjoins : Fleet.passes (dropSet c.spec.leave) (f.seen w) skip x = false :=
    (lineup.joins_iff hx).mpr ⟨hwanted, hnew⟩
  obtain ⟨m, hm, hmid⟩ := joined_admitAll (f := f) (c := c)
    (w := Fleet.dismissAll (f.seen w) w (visit (dropSet c.spec.leave))) hx hjoins
  exact ⟨m, hm, hmid.trans (named x.2 hp hwanted).1⟩

omit ranges in
/-- A pod that is wanted is known after a pass, if what it was known by before stays. -/
theorem form_known {p : PodAddr} (hp : p ∈ f.pods)
    (hwanted : Wanted sidecar (dropSet c.spec.leave) p)
    (stays : alreadyMember (f.seen w) p = true →
      alreadyMember (f.seen (f.form visit c skip pods w)) p = true) :
    alreadyMember (f.seen (f.form visit c skip pods w)) p = true := by
  cases hnew : alreadyMember (f.seen w) p with
  | true => exact stays hnew
  | false =>
      exact alreadyMember_of_id (named p hp hwanted).2 (form_joins lineup named hp hwanted hnew)

/-- If no address misleads it, one pass lists each pod that is wanted by its name. -/
theorem form_listed (apart : f.Apart sidecar (dropSet c.spec.leave) w) {p : PodAddr}
    (hp : p ∈ f.pods) (hwanted : Wanted sidecar (dropSet c.spec.leave) p) :
    ∃ m ∈ (f.form visit c skip pods w).members, m.id = p.nodeName := by
  cases hknown : alreadyMember (f.seen w) p with
  | false => exact form_joins lineup named hp hwanted hknown
  | true =>
      obtain ⟨m, hm, hnames⟩ := alreadyMember_iff.mp hknown
      have hid : m.id = p.nodeName := hnames.elim And.right (apart p hp hwanted m hm)
      refine ⟨m, (mem_form ranges lineup named).1 hm ?_, hid⟩
      rw [hid]
      exact hwanted.2.1

end Form

/-- Nobody is to leave, and every pod that is to be a member is known, by its node's name or
by its address. -/
structure Settled (f : Fleet) (sidecar : Bool) (drop : Go.Map String Unit) (w : World) : Prop where
  gone : ∀ m ∈ w.members, drop.get m.id = none
  known : ∀ p ∈ f.pods, Wanted sidecar drop p → alreadyMember (f.seen w) p = true

section Settled

variable {visit : Go.Map String Unit → List String} (ranges : Ranges visit)
  (lineup : Lineup sidecar (dropSet c.spec.leave) f.pods skip pods)
include ranges lineup

theorem settled_of_gone (named : f.Named sidecar (dropSet c.spec.leave))
    (gone : ∀ m ∈ w.members, (dropSet c.spec.leave).get m.id = none) :
    Settled f sidecar (dropSet c.spec.leave) (f.form visit c skip pods w) := by
  refine ⟨form_gone ranges lineup named, fun p hp hwanted => ?_⟩
  refine form_known lineup named hp hwanted fun hknown => alreadyMember_mono hknown ?_
  exact fun m hm => (mem_form ranges lineup named).1 hm (gone m hm)

/-- A pass over a settled cluster only reports. -/
theorem form_of_settled (settled : Settled f sidecar (dropSet c.spec.leave) w) :
    f.form visit c skip pods w = f.report c w := by
  have hleaves : Fleet.dismissAll (f.seen w) w (visit (dropSet c.spec.leave)) = w := by
    refine dismissAll_of_none fun id hid => Bool.eq_false_iff.mpr fun hlisted => ?_
    obtain ⟨_, hmem, hsame⟩ := List.any_eq_true.mp hlisted
    obtain ⟨m, hm, rfl⟩ := List.mem_map.mp hmem
    have hdrop := (ranges _ id).mp hid
    rw [← of_decide_eq_true hsame, settled.gone m hm] at hdrop
    cases hdrop
  have hjoins : f.admitAll c (f.seen w) skip w pods = w := by
    refine admitAll_of_none fun x hx => ?_
    rw [← Bool.not_eq_false]
    intro hjoins
    obtain ⟨hwanted, hnew⟩ := (lineup.joins_iff hx).mp hjoins
    rw [settled.known x.2 (lineup.mem_all hx) hwanted] at hnew
    cases hnew
  rw [Fleet.form, hleaves, hjoins]

end Settled

end Members

/-! The pass up to its first look at the members. -/

section Pass

variable {f : Fleet} {c : Cluster} (visit : Go.Map String Unit → List String)

theorem serve_reconcileSidecar (good : badVoterCount c = false) (w : World) :
    serve f.reply w (reconcileSidecar visit c).run =
      (f.form visit c (fun dsIndex p => decide (dsIndex + 1 ≤ 0) || !p.ready)
        (f.pods.map fun p => (podOrdinal p.name - 1, p)) w, .ok ()) := by
  unfold reconcileSidecar
  rw [good, if_neg Bool.false_ne_true]
  refine (Fleet.serve_ask rfl).trans ((Fleet.serve_ask rfl).trans ?_)
  exact (Fleet.serve_ask rfl).trans ((Fleet.serve_ask rfl).trans ((Fleet.serve_attempt rfl).trans
    ((Fleet.serve_ask rfl).trans (Fleet.serve_formMembers visit _ _ w))))

theorem serve_formCluster (w : World) :
    serve f.reply w (formCluster visit c).run =
      (f.form visit c (fun _ p => p.hostIP = "" || !p.ready) (podIndices f.pods) w, .ok ()) := by
  refine (Fleet.serve_ask rfl).trans ((Fleet.serve_ask rfl).trans ?_)
  refine (Fleet.serve_ask rfl).trans ((Fleet.serve_ask rfl).trans ?_)
  refine (Fleet.serve_ask rfl).trans ((Fleet.serve_ask rfl).trans ?_)
  exact (Fleet.serve_attempt rfl).trans ((Fleet.serve_ask rfl).trans ((Fleet.serve_ask rfl).trans
    (Fleet.serve_formMembers visit _ _ w)))

/-- There is a node to run the seed on. -/
def Fleet.Seeded (f : Fleet) (c : Cluster) : Prop :=
  c.spec.seedNodeName ≠ "" ∨ c.statusSeed ≠ "" ∨ f.nodes ≠ [] ∧ "" ∉ f.nodes

/-- The object of a pass after it has been given a seed: nothing else of it has changed. -/
structure Pinned (c c' : Cluster) : Prop where
  seed : c'.spec.seedNodeName ≠ ""
  leave : c'.spec.leave = c.spec.leave

theorem serve_resolveSeed (seeded : f.Seeded c) :
    ∃ c', Pinned c c' ∧ ∀ w, serve f.reply w (resolveSeed c).run = (w, .ok c') := by
  unfold resolveSeed
  generalize hwant : (if c.spec.seedNodeName = "" then c.statusSeed else c.spec.seedNodeName) = want
  by_cases hempty : want = ""
  · have hnodes : f.nodes ≠ [] ∧ "" ∉ f.nodes := by
      rcases seeded with h | h | h
      · rw [if_neg h] at hwant
        exact absurd (hwant.trans hempty) h
      · by_cases hspec : c.spec.seedNodeName = ""
        · rw [if_pos hspec] at hwant
          exact absurd (hwant.trans hempty) h
        · rw [if_neg hspec] at hwant
          exact absurd (hwant.trans hempty) hspec
      · exact h
    have hmem : ∀ node, node ∈ f.nodes.insertionSort (· ≤ ·) ↔ node ∈ f.nodes :=
      fun node => List.mem_insertionSort _
    cases hsort : f.nodes.insertionSort (· ≤ ·) with
    | nil =>
        refine absurd (List.eq_nil_iff_forall_not_mem.mpr fun node hnode => ?_) hnodes.1
        rw [← hmem, hsort] at hnode
        cases hnode
    | cons first nodes =>
        refine ⟨{ c with spec := { c.spec with seedNodeName := first }, statusSeed := first },
          ⟨fun h => hnodes.2 ?_, rfl⟩, fun w => ?_⟩
        · rw [← hmem, hsort, ← h]
          exact List.mem_cons_self
        · simp only [hempty, if_true]
          refine (Fleet.serve_ask rfl).trans ?_
          change serve f.reply w (claimFirst c (f.nodes.insertionSort (· ≤ ·))).run = _
          rw [hsort]
          rfl
  · simp only [hempty, if_false]
    split
    · exact ⟨{ c with spec := { c.spec with seedNodeName := want }, statusSeed := want },
        ⟨hempty, rfl⟩, fun w => rfl⟩
    · exact ⟨{ c with spec := { c.spec with seedNodeName := want } }, ⟨hempty, rfl⟩, fun w => rfl⟩

/-- The platform lets a pass come to the members. -/
def Fleet.Ready (f : Fleet) (c : Cluster) : Prop :=
  badVoterCount c = false ∧ (c.spec.topologyOrDefault = topoSidecar ∨
    c.spec.topologyOrDefault = topoDaemon ∧ f.Seeded c)

theorem serve_topology [Go.Unicode] (ready : f.Ready c) :
    ∃ c' skip pods, c'.spec.leave = c.spec.leave ∧
      Lineup (c.spec.topologyOrDefault = topoSidecar) (dropSet c.spec.leave) f.pods skip pods ∧
      ∀ w, serve f.reply w (if c.spec.topologyOrDefault = topoSidecar then reconcileSidecar visit c
        else if c.spec.topologyOrDefault = topoDaemon then reconcileDaemon visit c
        else report c "Error" ("unknown topology " ++ Go.quote c.spec.topology) :
          Op Unit).run = (f.form visit c' skip pods w, .ok ()) := by
  obtain ⟨good, hside | ⟨hdaemon, seeded⟩⟩ := ready
  · refine ⟨c, fun dsIndex p => decide (dsIndex + 1 ≤ 0) || !p.ready, _, rfl,
      ⟨perm_podOrdinals f.pods, fun x hx hdrop => ?_⟩, fun w => ?_⟩
    · obtain ⟨p, -, rfl⟩ := List.mem_map.mp hx
      simp [Wanted, hdrop, hside, and_comm]
    · rw [if_pos hside]
      exact serve_reconcileSidecar visit good w
  · have hne : ¬ c.spec.topologyOrDefault = topoSidecar := by
      rw [hdaemon]
      decide
    obtain ⟨c', pinned, hresolve⟩ := serve_resolveSeed seeded
    refine ⟨c', fun _ p => p.hostIP = "" || !p.ready, _, pinned.leave,
      ⟨perm_podIndices f.pods, fun x _ hdrop => ?_⟩, fun w => ?_⟩
    · simp [Wanted, hdrop, hne, and_comm]
    · rw [if_neg hne, if_pos hdaemon]
      unfold reconcileDaemon
      rw [good, if_neg Bool.false_ne_true]
      refine (serve_bind_ok (hresolve w)).trans ?_
      rw [if_neg pinned.seed]
      exact serve_formCluster visit w

theorem serve_reconcile [Go.Unicode] (ready : f.Ready c) :
    ∃ c' skip pods, c'.spec.leave = c.spec.leave ∧
      Lineup (c.spec.topologyOrDefault = topoSidecar) (dropSet c.spec.leave) f.pods skip pods ∧
      ∀ w, serve f.reply w (reconcile visit c).run = (f.form visit c' skip pods w, .ok ()) := by
  have hnote : ∀ w, serve f.reply w (noteWarning c).run =
      (w, .ok (if f.clusters ≥ 2 then { c with warning := warnTwoClusters } else c)) := fun _ => rfl
  generalize hc : (if f.clusters ≥ 2 then { c with warning := warnTwoClusters } else c) = c₁
    at hnote
  have hspec : c₁.spec = c.spec ∧ c₁.statusSeed = c.statusSeed := by
    rw [← hc]
    split <;> exact ⟨rfl, rfl⟩
  have hready : f.Ready c₁ := by
    rw [Fleet.Ready, badVoterCount, Fleet.Seeded, hspec.1, hspec.2]
    exact ready
  obtain ⟨c', skip, pods, hleave, lineup, hserve⟩ := serve_topology visit hready
  rw [hspec.1] at hleave lineup
  exact ⟨c', skip, pods, hleave, lineup, fun w => (serve_bind_ok (hnote w)).trans (hserve w)⟩

end Pass

theorem report_report (f : Fleet) (c : Cluster) (w : World) :
    f.report c (f.report c w) = f.report c w := rfl

/-- Where nothing fails and nobody else changes the members, two passes settle a cluster:
the members that are to leave are gone, each pod that is to be a member is known, the others
are still there, the status says so, and further passes change nothing. One pass does, if
no pod is known by the address of a member that is to leave. It also lists each pod that is
to be a member by its node's name, if no other name is listed at the pod's address. -/
theorem two_passes_settle [Go.Unicode] {visit : Go.Map String Unit → List String}
    (ranges : Ranges visit) (f : Fleet) (c : Cluster) (ready : f.Ready c)
    (named : f.Named (c.spec.topologyOrDefault = topoSidecar) (dropSet c.spec.leave))
    (w : World) :
    let pass (w : World) : World := (serve f.reply w (reconcile visit c).run).1
    let stay (w : World) : World :=
      { w with members := w.members.filter fun m => (dropSet c.spec.leave).get m.id = none }
    Settled f (c.spec.topologyOrDefault = topoSidecar) (dropSet c.spec.leave) (pass (pass w)) ∧
      (∀ m ∈ (stay w).members, m ∈ (pass (pass w)).members) ∧
      (∃ st, (pass (pass w)).status = some st ∧ st.phase = "Ready" ∧
        st.members = (f.seen (pass (pass w))).members) ∧
      pass (pass (pass w)) = pass (pass w) ∧
      ((∀ p ∈ f.pods, alreadyMember (f.seen w) p = true →
        alreadyMember (f.seen (stay w)) p = true) → pass (pass w) = pass w) ∧
      (f.Apart (c.spec.topologyOrDefault = topoSidecar) (dropSet c.spec.leave) w →
        pass (pass w) = pass w ∧
        ∀ p ∈ f.pods, Wanted (c.spec.topologyOrDefault = topoSidecar) (dropSet c.spec.leave) p →
          ∃ m ∈ (pass w).members, m.id = p.nodeName) := by
  intro pass stay
  obtain ⟨c', skip, pods, hleave, lineup, hserve⟩ := serve_reconcile visit ready
  have hpass : ∀ w, pass w = f.form visit c' skip pods w := fun w => congrArg Prod.fst (hserve w)
  rw [← hleave] at lineup named
  simp only [← hleave]
  have hkeep : ∀ w m, m ∈ w.members → (dropSet c'.spec.leave).get m.id = none →
      m ∈ (pass w).members := by
    intro w m hm hstay
    rw [hpass]
    exact (mem_form ranges lineup named).1 hm hstay
  have hgone : ∀ w, ∀ m ∈ (pass w).members, (dropSet c'.spec.leave).get m.id = none := by
    intro w
    rw [hpass]
    exact form_gone ranges lineup named
  -- A second pass finds nobody to send away, so it takes no entry from under a pod.
  have hsettled : ∀ w, Settled f (c.spec.topologyOrDefault = topoSidecar)
      (dropSet c'.spec.leave) (pass (pass w)) := by
    intro w
    rw [hpass (pass w)]
    exact settled_of_gone ranges lineup named (hgone w)
  have hreport : ∀ w, ∃ v, pass w = f.report c' v := fun w => ⟨_, hpass w⟩
  have hfixed : ∀ w, Settled f (c.spec.topologyOrDefault = topoSidecar)
      (dropSet c'.spec.leave) (pass w) → pass (pass w) = pass w := by
    intro w settled
    rw [hpass (pass w), form_of_settled ranges lineup settled]
    obtain ⟨v, hv⟩ := hreport w
    rw [hv, report_report]
  refine ⟨hsettled w, fun m hm => ?_, ?_, hfixed _ (hsettled w), fun hstay => hfixed w ?_,
    fun apart => ?_⟩
  · obtain ⟨hm, hkept⟩ := List.mem_filter.mp hm
    have hkept := of_decide_eq_true hkept
    rw [← hleave] at hkept
    exact hkeep _ m (hkeep w m hm hkept) hkept
  · obtain ⟨v, hv⟩ := hreport (pass w)
    rw [hv]
    exact ⟨_, rfl, rfl, rfl⟩
  · refine ⟨hgone w, fun p hp hwanted => ?_⟩
    rw [hpass]
    refine form_known lineup named hp hwanted fun hknown => ?_
    refine alreadyMember_mono (hstay p hp hknown) fun m hm => ?_
    obtain ⟨hm, hkept⟩ := List.mem_filter.mp hm
    have hkept := of_decide_eq_true hkept
    rw [← hleave] at hkept
    exact (mem_form ranges lineup named).1 hm hkept
  · have hlisted : ∀ p ∈ f.pods, Wanted (c.spec.topologyOrDefault = topoSidecar)
        (dropSet c'.spec.leave) p → ∃ m ∈ (pass w).members, m.id = p.nodeName := by
      intro p hp hwanted
      rw [hpass]
      exact form_listed ranges lineup named apart hp hwanted
    refine ⟨hfixed w ⟨hgone w, fun p hp hwanted => ?_⟩, hlisted⟩
    exact alreadyMember_of_id (named p hp hwanted).2 (hlisted p hp hwanted)

/-! A node took over the address of one that is to leave. The first pass takes the node for
a member and reports `Ready` without it. -/

def moved : Cluster where
  resourceVersion := "7"
  statusSeed := "node-s"
  spec := { voterCount := 3, leave := ["node-old"] }

def movedFleet : Fleet where
  pods := [⟨"demo-b", "10.0.0.2", "node-b", "10.0.0.2:7947", true⟩]
  token := "t"
  seedAddr := "10.0.0.9:7947"
  daemon addr := ⟨"node-b", addr, "alive", false, "voter"⟩
  lead := .ok "seed"
  health := .ok "c1"

def movedWorld : World where
  members :=
    [⟨"seed", "10.0.0.9:7947", "alive", true, "voter"⟩,
      ⟨"node-old", "10.0.0.2:7947", "dead", false, "voter"⟩]

theorem movedFleet_named (sidecar : Bool) (drop : Go.Map String Unit) :
    movedFleet.Named sidecar drop := by
  intro p hp _
  obtain rfl := List.mem_singleton.mp hp
  exact ⟨rfl, by decide⟩

theorem two_passes_settle_moved :
    letI := Go.Unicode.ascii
    let pass (w : World) : World :=
      (serve movedFleet.reply w (reconcile Pass.visitSorted moved).run).1
    (pass movedWorld).changes = [.leave "node-old"] ∧
      (pass (pass movedWorld)).changes = [.leave "node-old", .join "10.0.0.2:7947" false] ∧
      pass (pass (pass movedWorld)) = pass (pass movedWorld) ∧
      ∃ m ∈ (pass { movedWorld with members := movedWorld.members.take 1 }).members,
        m.id = "node-b" := by
  let := Go.Unicode.ascii
  have hready : movedFleet.Ready moved := ⟨by decide, .inr ⟨by decide, .inr (.inl (by decide))⟩⟩
  obtain ⟨-, -, -, hfixed, -⟩ := two_passes_settle Pass.ranges_visitSorted movedFleet moved hready
    (movedFleet_named _ _) movedWorld
  -- Without the node that is to leave nobody else is at the address of the new one.
  obtain ⟨-, -, -, -, -, hone⟩ := two_passes_settle Pass.ranges_visitSorted movedFleet moved hready
    (movedFleet_named _ _) { movedWorld with members := movedWorld.members.take 1 }
  refine ⟨by decide +kernel, by decide +kernel, hfixed,
    (hone ?_).2 _ (List.mem_singleton_self _) ?_⟩
  · intro p hp _ m hm hat
    obtain rfl := List.mem_singleton.mp hp
    obtain rfl := List.mem_singleton.mp hm
    exact absurd hat.2.2 (by decide +kernel)
  · exact ⟨rfl, by decide +kernel, by decide⟩

end Clusdr.Operator.Settling
