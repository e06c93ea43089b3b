import Clusdr.Calls.Process
import Clusdr.Core.Kube
import Clusdr.Metatheory.OperatorCalls

/-!
The Secret, the Job and the StatefulSet of the sidecar topology at the API
server. Requests may fail before or after they take effect, and a deleted Job
disappears later. A pass knows what its own reads told it: it may create the Job
while there is no token, and the StatefulSet when there is one and no Job.
-/

namespace Clusdr.Operator

open Calls (Prog Protocol Respects Minds)
open Calls.Prog (Obeys obeys_bind obeys_bind_except)

inductive JobState where
  | absent
  | present
  /-- Deleted, and not gone yet. -/
  | deleting
deriving DecidableEq

/-- The objects of the sidecar topology, and how often the Job was created. -/
structure Objects where
  secret : Option String := none
  job : JobState := .absent
  statefulSet : Bool := false
  jobsCreated : Nat := 0

/-- What the surroundings choose: the fate of a request about the objects, and any answer
to the others. -/
def Request.Choice : Request → Type
  | .call c => c.Answer
  | .getCluster => Except ApiError Object
  | .updateStatus _ | .patchStatus _ => Except ApiError Unit
  | _ => Fate

namespace Objects

def write {α : Type} (w w' : Objects) (answer : Except ApiError α) :
    Fate → Objects × Except ApiError α
  | .fails err => (w, .error (.failed err))
  | .lost err => (w', .error (.failed err))
  | .works => (w', answer)

/-- The answer to a request about an object that is there or not. -/
def found (there : Bool) : Except ApiError Unit := if there then .ok () else .error .notFound

def conflict (there : Bool) : Except ApiError Unit :=
  if there then .error (.failed "already exists") else .ok ()

def hasJob (w : Objects) : Bool := w.job ≠ .absent

def addJob (w : Objects) : Objects :=
  if w.hasJob then w else { w with job := .present, jobsCreated := w.jobsCreated + 1 }

def dropJob (w : Objects) : Objects := if w.hasJob then { w with job := .deleting } else w

def react (w : Objects) : (r : Request) → r.Choice → Objects × r.Answer
  | .call _, a => (w, a)
  | .getCluster, a => (w, a)
  | .updateStatus _, a => (w, a)
  | .patchStatus _, a => (w, a)
  | .getSecret, f =>
      w.write w (match w.secret with
        | some t => .ok t
        | none => .error .notFound) f
  | .createSecret t, f =>
      w.write { w with secret := w.secret <|> some t } (conflict w.secret.isSome) f
  | .updateSecret t, f =>
      w.write { w with secret := w.secret.map fun _ => t } (found w.secret.isSome) f
  | .getJob, f => w.write w (found w.hasJob) f
  | .createJob, f => w.write w.addJob (conflict w.hasJob) f
  | .deleteJob, f => w.write w.dropJob (found w.hasJob) f
  | .getStatefulSet, f => w.write w (found w.statefulSet) f
  | .createStatefulSet, f => w.write { w with statefulSet := true } (conflict w.statefulSet) f

/-- A Job that was deleted is gone. -/
def vanish (w : Objects) : Objects :=
  if w.job = .deleting then { w with job := .absent } else w

def HasToken (w : Objects) : Prop := ∃ t, w.secret = some t ∧ t ≠ ""

end Objects

/-- What a pass has read. -/
inductive Knows where
  | nothing
  | noToken
  | token
  | jobGone
deriving DecidableEq

namespace Knows

def ofSecret : Except ApiError String → Knows
  | .ok t => if t = "" then .noToken else .token
  | .error .notFound => .noToken
  | .error (.failed _) => .nothing

def ofToken : Except String (Option String) → Knows
  | .ok none => .noToken
  | .ok (some _) => .token
  | .error _ => .nothing

theorem ofToken_eq (t : String) :
    ofToken (.ok (if t = "" then none else some t)) = ofSecret (.ok t) := by
  by_cases ht : t = ""
  · simp only [ofSecret, ht, if_true, ofToken]
  · simp only [ofSecret, if_neg ht, ofToken]

def ofJob (q : Knows) (gone : Bool) : Knows := if q = .token ∧ gone then .jobGone else q

end Knows

/-- What a sidecar pass does at the API server. -/
def sidecarProtocol : Protocol Request Request.Answer Knows where
  allows q
    | .createJob => q = .noToken
    | .createStatefulSet => q = .jobGone
    | .createSecret t | .updateSecret t => t ≠ ""
    | _ => True
  next q
    | .getSecret, a => .ofSecret a
    | .createSecret _, _ | .updateSecret _, _ => .nothing
    | .getJob, a => q.ofJob (match a with
        | .error .notFound => true
        | _ => false)
    | _, _ => q

/-- The same in terms of the calls of the platform. -/
def sidecarCalls : Protocol Call Call.Answer Knows where
  allows q
    | .ensureBootstrapJob _ _ => q = .noToken
    | .ensureStatefulSet _ _ => q = .jobGone
    | .putToken _ t => t ≠ ""
    | _ => True
  next q
    | .token _, a => .ofToken a
    | .putToken _ _, _ => .nothing
    | .jobExists _, a => q.ofJob (match a with
        | .ok found => !found
        | .error _ => false)
    | _, _ => q

/-- Methods after which a pass knows something else. -/
def Call.teaches : Call → Bool
  | .token _ | .putToken _ _ | .jobExists _ => true
  | _ => false

theorem kube_idle_sidecar {q : Knows} {call : Call} (h : sidecarCalls.allows q call)
    (silent : call.teaches = false) {r : Request} (makes : Kube.Makes call r) :
    sidecarProtocol.allows q r ∧ ∀ a, sidecarProtocol.next q r a = q := by
  cases makes with
  | readSecret | getSecret | createSecret | updateSecret | readJob => cases silent
  | getJob =>
      obtain rfl : q = .noToken := h
      exact ⟨trivial, fun _ => rfl⟩
  | createJob | createStatefulSet => exact ⟨h, fun _ => rfl⟩
  | _ => exact ⟨trivial, fun _ => rfl⟩

theorem kube_obeys_sidecar (q : Knows) (call : Call) (h : sidecarCalls.allows q call) :
    Obeys sidecarProtocol q (Kube.perform call) fun a q' =>
      sidecarCalls.may q call a ∧ q' = sidecarCalls.next q call a := by
  cases call with
  | token c =>
      refine ⟨trivial, fun b _ => ?_⟩
      rcases b with (_ | err) | t
      · exact ⟨trivial, rfl⟩
      · exact ⟨trivial, rfl⟩
      · exact ⟨trivial, (Knows.ofToken_eq t).symm⟩
  | putToken c t =>
      refine ⟨trivial, fun b _ => ?_⟩
      rcases b with (_ | err) | t'
      · exact ⟨h, fun _ _ => ⟨trivial, rfl⟩⟩
      · exact ⟨trivial, rfl⟩
      · exact ⟨h, fun _ _ => ⟨trivial, rfl⟩⟩
  | jobExists c =>
      refine ⟨trivial, fun b _ => ?_⟩
      rcases b with (_ | err) | _ <;> exact ⟨trivial, rfl⟩
  | _ =>
      exact ((Kube.every_perform _).obeys fun _ => kube_idle_sidecar h rfl).mono
        fun _ _ hq => ⟨trivial, hq⟩

namespace Objects

/-- What a pass in each state counts on. -/
def Fits (w : Objects) : Knows → Prop
  | .nothing => True
  | .noToken => ¬w.HasToken
  | .token => w.HasToken
  | .jobGone => w.HasToken ∧ w.hasJob = false

/-- The StatefulSet has a token and no Job beside it. -/
def Apart (w : Objects) : Prop := w.statefulSet = true → w.HasToken ∧ w.hasJob = false

@[simp] theorem secret_addJob (w : Objects) : w.addJob.secret = w.secret := by
  unfold addJob
  split <;> rfl

@[simp] theorem statefulSet_addJob (w : Objects) : w.addJob.statefulSet = w.statefulSet := by
  unfold addJob
  split <;> rfl

@[simp] theorem secret_dropJob (w : Objects) : w.dropJob.secret = w.secret := by
  unfold dropJob
  split <;> rfl

@[simp] theorem statefulSet_dropJob (w : Objects) : w.dropJob.statefulSet = w.statefulSet := by
  unfold dropJob
  split <;> rfl

theorem dropJob_of_gone {w : Objects} (h : w.hasJob = false) : w.dropJob = w := by
  unfold dropJob
  rw [h]
  rfl

/-- A request that took effect or not. -/
theorem write_cases {α : Type} {w w' : Objects} {answer : Except ApiError α}
    {P : Objects → Except ApiError α → Prop} (fails : ∀ err, P w (.error (.failed err)))
    (lost : ∀ err, P w' (.error (.failed err))) (works : P w' answer) (f : Fate) :
    P (w.write w' answer f).1 (w.write w' answer f).2 := by
  cases f with
  | fails err => exact fails err
  | lost err => exact lost err
  | works => exact works

theorem hasToken_iff {w w' : Objects} (h : w'.secret = w.secret) : w'.HasToken ↔ w.HasToken := by
  unfold HasToken
  rw [h]

@[simp] theorem secret_vanish (w : Objects) : w.vanish.secret = w.secret := by
  unfold vanish
  split <;> rfl

@[simp] theorem statefulSet_vanish (w : Objects) : w.vanish.statefulSet = w.statefulSet := by
  unfold vanish
  split <;> rfl

theorem vanish_of_gone {w : Objects} (h : w.hasJob = false) : w.vanish = w := by
  have hgone : w.job = .absent := by simpa [hasJob] using h
  simp [vanish, hgone]

/-- Writes that leave the token alone and bring no Job. -/
theorem fits_kept {w w' : Objects} {q : Knows} (fits : w.Fits q) (hsecret : w'.secret = w.secret)
    (hjob : w.hasJob = false → w'.hasJob = false) : w'.Fits q := by
  have htoken := hasToken_iff hsecret
  cases q with
  | nothing => trivial
  | noToken => exact fun h => fits (htoken.mp h)
  | token => exact htoken.mpr fits
  | jobGone => exact ⟨htoken.mpr fits.1, hjob fits.2⟩

theorem apart_kept {w w' : Objects} (apart : w.Apart) (hsecret : w'.secret = w.secret)
    (hset : w'.statefulSet = w.statefulSet) (hjob : w.hasJob = false → w'.hasJob = false) :
    w'.Apart := by
  intro h
  obtain ⟨htoken, hgone⟩ := apart (hset ▸ h)
  exact ⟨(hasToken_iff hsecret).mpr htoken, hjob hgone⟩

theorem fits_vanish {w : Objects} {q : Knows} (fits : w.Fits q) : w.vanish.Fits q :=
  fits_kept fits w.secret_vanish fun h => by rw [vanish_of_gone h, h]

theorem apart_vanish {w : Objects} (apart : w.Apart) : w.vanish.Apart :=
  apart_kept apart w.secret_vanish w.statefulSet_vanish fun h => by rw [vanish_of_gone h, h]

theorem fits_ofSecret (w : Objects) :
    w.Fits (.ofSecret (match w.secret with
      | some t => .ok t
      | none => .error .notFound)) := by
  cases hsecret : w.secret with
  | none =>
      rintro ⟨t, ht, -⟩
      rw [hsecret] at ht
      cases ht
  | some t =>
      by_cases ht : t = ""
      · subst ht
        rintro ⟨t, ht, hne⟩
        rw [hsecret] at ht
        cases ht
        exact hne rfl
      · change w.Fits (Knows.ofSecret (.ok t))
        rw [Knows.ofSecret, if_neg ht]
        exact ⟨t, hsecret, ht⟩

theorem fits_ofJob {w : Objects} {q : Knows} (fits : w.Fits q) {gone : Bool}
    (hgone : gone = true → w.hasJob = false) : w.Fits (q.ofJob gone) := by
  unfold Knows.ofJob
  split
  next h =>
    obtain ⟨rfl, hg⟩ := h
    exact ⟨fits, hgone hg⟩
  next => exact fits

theorem respects_sidecar : Respects sidecarProtocol react Apart Fits := by
  intro w q r x inv fits ok
  refine ⟨trivial, ?_⟩
  cases r with
  | call | getCluster | updateStatus | patchStatus => exact ⟨inv, fits⟩
  | getStatefulSet =>
      exact write_cases (P := fun w' a => w'.Apart ∧ w'.Fits q) (fun _ => ⟨inv, fits⟩)
        (fun _ => ⟨inv, fits⟩) ⟨inv, fits⟩ x
  | getSecret =>
      exact write_cases (P := fun w' a => w'.Apart ∧ w'.Fits (.ofSecret a))
        (fun _ => ⟨inv, trivial⟩) (fun _ => ⟨inv, trivial⟩) ⟨inv, w.fits_ofSecret⟩ x
  | createSecret t =>
      have hapart : Apart { w with secret := w.secret <|> some t } := by
        intro h
        obtain ⟨⟨t', hsecret, hne⟩, hgone⟩ := inv h
        exact ⟨⟨t', by rw [hsecret]; rfl, hne⟩, hgone⟩
      exact write_cases (P := fun w' a => w'.Apart ∧ w'.Fits .nothing)
        (fun _ => ⟨inv, trivial⟩) (fun _ => ⟨hapart, trivial⟩) ⟨hapart, trivial⟩ x
  | updateSecret t =>
      have hapart : Apart { w with secret := w.secret.map fun _ => t } := by
        intro h
        obtain ⟨⟨t', hsecret, -⟩, hgone⟩ := inv h
        exact ⟨⟨t, by rw [hsecret]; rfl, ok⟩, hgone⟩
      exact write_cases (P := fun w' a => w'.Apart ∧ w'.Fits .nothing)
        (fun _ => ⟨inv, trivial⟩) (fun _ => ⟨hapart, trivial⟩) ⟨hapart, trivial⟩ x
  | getJob =>
      refine write_cases (P := fun w' a => w'.Apart ∧ w'.Fits (sidecarProtocol.next q .getJob a))
        (fun err => ⟨inv, ?_⟩) (fun err => ⟨inv, ?_⟩) ⟨inv, ?_⟩ x
      · exact fits_ofJob fits nofun
      · exact fits_ofJob fits nofun
      · cases hjob : w.hasJob with
        | true => exact fits_ofJob fits nofun
        | false => exact fits_ofJob fits fun _ => hjob
  | createJob =>
      obtain rfl : q = .noToken := ok
      have hset : ¬w.statefulSet = true := fun h => fits (inv h).1
      have hcreated : w.addJob.Apart ∧ w.addJob.Fits .noToken :=
        ⟨fun h => absurd (w.statefulSet_addJob ▸ h) hset,
          fun h => fits ((hasToken_iff w.secret_addJob).mp h)⟩
      exact write_cases (P := fun w' a => w'.Apart ∧ w'.Fits .noToken) (fun _ => ⟨inv, fits⟩)
        (fun _ => hcreated) hcreated x
  | deleteJob =>
      have hgone : w.hasJob = false → w.dropJob.hasJob = false := fun h => by
        rw [dropJob_of_gone h, h]
      have hdeleted : w.dropJob.Apart ∧ w.dropJob.Fits q :=
        ⟨apart_kept inv w.secret_dropJob w.statefulSet_dropJob hgone,
          fits_kept fits w.secret_dropJob hgone⟩
      exact write_cases (P := fun w' a => w'.Apart ∧ w'.Fits q) (fun _ => ⟨inv, fits⟩)
        (fun _ => hdeleted) hdeleted x
  | createStatefulSet =>
      obtain rfl : q = .jobGone := ok
      have hcreated : Apart { w with statefulSet := true } ∧
          Fits { w with statefulSet := true } .jobGone := ⟨fun _ => fits, fits⟩
      exact write_cases (P := fun w' a => w'.Apart ∧ w'.Fits .jobGone) (fun _ => ⟨inv, fits⟩)
        (fun _ => hcreated) hcreated x

/-- Once there is a token it stays, and no pass creates the Job. -/
theorem settled_react {w : Objects} {q : Knows} {r : Request} (fits : w.Fits q)
    (ok : sidecarProtocol.allows q r) (x : r.Choice) (htoken : w.HasToken) :
    (w.react r x).1.HasToken ∧ (w.react r x).1.jobsCreated = w.jobsCreated := by
  obtain ⟨t', hsecret, hne⟩ := htoken
  have hstays : w.HasToken := ⟨t', hsecret, hne⟩
  have hwrite : ∀ (w' : Objects), w'.HasToken → w'.jobsCreated = w.jobsCreated →
      ∀ {α : Type} (a : Except ApiError α) (f : Fate), (w.write w' a f).1.HasToken ∧
        (w.write w' a f).1.jobsCreated = w.jobsCreated := fun w' h h' _ _ f =>
    write_cases (P := fun w' _ => w'.HasToken ∧ w'.jobsCreated = w.jobsCreated)
      (fun _ => ⟨hstays, rfl⟩) (fun _ => ⟨h, h'⟩) ⟨h, h'⟩ f
  cases r with
  | call | getCluster | updateStatus | patchStatus => exact ⟨hstays, rfl⟩
  | getSecret | getJob | getStatefulSet => exact hwrite w hstays rfl _ x
  | createStatefulSet => exact hwrite { w with statefulSet := true } ⟨t', hsecret, hne⟩ rfl _ x
  | createSecret t =>
      exact hwrite { w with secret := w.secret <|> some t } ⟨t', by rw [hsecret]; rfl, hne⟩ rfl _ x
  | updateSecret t =>
      exact hwrite { w with secret := w.secret.map fun _ => t } ⟨t, by rw [hsecret]; rfl, ok⟩ rfl
        _ x
  | createJob =>
      obtain rfl : q = .noToken := ok
      exact absurd hstays fits
  | deleteJob =>
      refine hwrite _ ((hasToken_iff w.secret_dropJob).mpr hstays) ?_ _ x
      unfold dropJob
      split <;> rfl

/-- With a token stored, after `n` Jobs were created. -/
def Settled (n : Nat) (w : Objects) : Prop := w.Apart ∧ w.HasToken ∧ w.jobsCreated = n

theorem settled_vanish {n : Nat} {w : Objects} (settled : w.Settled n) : w.vanish.Settled n := by
  refine ⟨apart_vanish settled.1, (hasToken_iff w.secret_vanish).mpr settled.2.1, ?_⟩
  rw [← settled.2.2]
  unfold vanish
  split <;> rfl

theorem respects_settled (n : Nat) : Respects sidecarProtocol react (Settled n) Fits := by
  rintro w q r x ⟨apart, htoken, hcreated⟩ fits ok
  obtain ⟨hmay, hapart, hfits⟩ := respects_sidecar w q r x apart fits ok
  obtain ⟨hstays, hsame⟩ := settled_react fits ok x htoken
  exact ⟨hmay, ⟨hapart, hstays, hsame.trans hcreated⟩, hfits⟩

end Objects

end Clusdr.Operator
