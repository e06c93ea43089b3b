import Clusdr.Calls.Process
import Clusdr.Core.Kube
import Clusdr.Metatheory.OperatorCalls

/-!
The `ClusdrCluster` at the API server, with all its versions. A pass that read a
status without a seed may claim one with the version it read; as long as a version
stands for one content, at most one such claim is stored. A pass that read or
claimed a seed reports that seed.
-/

namespace Clusdr.Operator

open Calls (Prog Protocol Respects Undisturbed)
open Calls.Prog (Obeys)

/-- What the surroundings choose: whether a read fails, the fate of a write with the
version it would make, and any answer to the others. -/
def Request.Turn : Request → Type
  | .call c => c.Answer
  | .getCluster => Option String
  | .updateStatus _ | .patchStatus _ => Fate × String
  | .getSecret => Except ApiError String
  | _ => Except ApiError Unit

/-- The object and its older versions, the seed of every `Ensure` call, and whether a
seed was claimed. -/
structure Registry where
  current : Object
  past : List Object := []
  ensured : List String := []
  claimed : Bool := false

namespace Registry

def seed (w : Registry) : String := w.current.status.seedNodeName

def versions (w : Registry) : List Object := w.current :: w.past

/-- A version that no content has had. -/
def Fresh (w : Registry) (rv : String) : Prop := rv ≠ "" ∧ ∀ v ∈ w.versions, v.resourceVersion ≠ rv

instance (w : Registry) (rv : String) : Decidable (w.Fresh rv) :=
  inferInstanceAs (Decidable (rv ≠ "" ∧ ∀ v ∈ w.versions, v.resourceVersion ≠ rv))

def put (w : Registry) (rv : String) (st : Status) (claim : Bool) : Registry :=
  { w with
    current := ⟨rv, st⟩
    past := w.versions
    claimed := w.claimed || (claim && st.seedNodeName ≠ "") }

/-- A write of the status; one that would not make a new version does not happen. -/
def store (w : Registry) (st : Status) (claim : Bool) (turn : Fate × String) :
    Registry × Except ApiError Unit :=
  if w.Fresh turn.2 then
    match turn.1 with
    | .fails err => (w, .error (.failed err))
    | .lost err => (w.put turn.2 st claim, .error (.failed err))
    | .works => (w.put turn.2 st claim, .ok ())
  else (w, .error (.failed "not written"))

/-- Somebody else writes the object, and not the seed in its status. -/
def touch (w : Registry) (st : Status) (rv : String) : Registry :=
  (w.store { st with seedNodeName := w.seed } false (.works, rv)).1

/-- `UpdateStatus`. -/
def update (w : Registry) (u : Object) (turn : Fate × String) :
    Registry × Except ApiError Unit :=
  if u.resourceVersion = w.current.resourceVersion then w.store u.status true turn
  else (w, .error (.failed "the object has been modified"))

def react (w : Registry) : (r : Request) → r.Turn → Registry × r.Answer
  | .call call, a => ({ w with ensured := w.ensured ++ call.ensures }, a)
  | .getCluster, none => (w, .ok w.current)
  | .getCluster, some err => (w, .error (.failed err))
  | .updateStatus u, turn => w.update u turn
  | .patchStatus body, turn => w.store (body.merge w.current.status) false turn
  | .getSecret, a => (w, a)
  | .createSecret _, a => (w, a)
  | .updateSecret _, a => (w, a)
  | .getJob, a => (w, a)
  | .createJob, a => (w, a)
  | .deleteJob, a => (w, a)
  | .getStatefulSet, a => (w, a)
  | .createStatefulSet, a => (w, a)

end Registry

/-- How far a pass has come with its seed: it read none at this version, it has one, or it
must not claim. -/
inductive Hold where
  | claiming (rv : String)
  | pinned (seed : String)
  | idle

def Hold.seed : Hold → String
  | .pinned seed => seed
  | _ => ""

/-- After a claim. -/
def Hold.ofUpdate {ε : Type} (seed : String) : Except ε Unit → Hold
  | .ok _ => .pinned seed
  | .error _ => .idle

/-- What a pass does at the API server when the spec names no seed. -/
def seedProtocol : Protocol Request Request.Answer Hold where
  allows q
    | .call call => ∀ s ∈ call.ensures, s = q.seed ∧ s ≠ ""
    | .updateStatus u => q = .claiming u.resourceVersion
    | .patchStatus body => body.seedNodeName = if q.seed ≠ "" then some q.seed else none
    | _ => True
  next q
    | .getCluster, .error _ => .idle
    | .updateStatus u, a => .ofUpdate u.status.seedNodeName a
    | _, _ => q

namespace Registry

def Fits (w : Registry) : Hold → Prop
  | .claiming rv => ∃ v ∈ w.versions, v.resourceVersion = rv ∧ v.status.seedNodeName = ""
  | .pinned seed => seed = "" ∨ seed = w.seed
  | .idle => True

/-- A version stands for one content, there is at most one seed, and what was claimed or
used is that seed. -/
structure Agreed (w : Registry) : Prop where
  named : ∀ v ∈ w.versions, v.resourceVersion ≠ ""
  same : ∀ v ∈ w.versions, v.resourceVersion = w.current.resourceVersion → v = w.current
  one : ∀ v ∈ w.versions, v.status.seedNodeName = "" ∨ v.status.seedNodeName = w.seed
  claim : w.claimed = true → w.seed ≠ ""
  used : ∀ s ∈ w.ensured, s = w.seed ∧ s ≠ ""

theorem agreed_start {first : Object} (versioned : first.resourceVersion ≠ "") :
    Agreed { current := first } := by
  have hfirst : ∀ v ∈ versions { current := first }, v = first := fun v => List.mem_singleton.mp
  refine ⟨fun v hv => ?_, fun v hv _ => hfirst v hv, fun v hv => ?_, nofun, nofun⟩
  · rw [hfirst v hv]
    exact versioned
  · rw [hfirst v hv]
    exact Or.inr rfl

/-- Everything a request of a pass can do: a new version keeps the seed or is the first to
have one. -/
inductive Change (w : Registry) : Registry → Prop
  | same (seeds : List String) (used : ∀ s ∈ seeds, s = w.seed ∧ s ≠ "") :
      Change w { w with ensured := w.ensured ++ seeds }
  | put (rv : String) (st : Status) (claim : Bool) (fresh : w.Fresh rv)
      (first : w.seed = "" ∧ claim = true ∨ st.seedNodeName = w.seed ∧ claim = false) :
      Change w (w.put rv st claim)

theorem Change.refl (w : Registry) : w.Change w := by
  have h := Change.same (w := w) [] nofun
  rwa [List.append_nil] at h

theorem store_change {w : Registry} {st : Status} {claim : Bool}
    (first : w.seed = "" ∧ claim = true ∨ st.seedNodeName = w.seed ∧ claim = false)
    (turn : Fate × String) : w.Change (w.store st claim turn).1 := by
  unfold store
  split
  next fresh =>
    split
    · exact .refl w
    · exact .put _ _ _ fresh first
    · exact .put _ _ _ fresh first
  next => exact .refl w

theorem touch_change (w : Registry) (st : Status) (rv : String) : w.Change (w.touch st rv) := by
  refine store_change ?_ _
  exact Or.inr ⟨rfl, rfl⟩

/-- A claim at the version it was read at finds no seed. -/
theorem update_change {w : Registry} {u : Object} (agreed : w.Agreed)
    (fits : w.Fits (.claiming u.resourceVersion)) (turn : Fate × String) :
    w.Change (w.update u turn).1 := by
  obtain ⟨v, hv, hrv, hnone⟩ := fits
  unfold update
  split
  next hcurrent =>
    have hseed : w.seed = "" := by
      rw [seed, ← agreed.same v hv (hrv.trans hcurrent)]
      exact hnone
    exact store_change (Or.inl ⟨hseed, rfl⟩) turn
  next => exact .refl w

theorem seed_of_update {w : Registry} {u : Object} {turn : Fate × String}
    (h : (w.update u turn).2 = .ok ()) : (w.update u turn).1.seed = u.status.seedNodeName := by
  unfold update store at h ⊢
  split at h
  · rename_i hcurrent
    rw [if_pos hcurrent]
    split at h
    · rename_i hfresh
      rw [if_pos hfresh]
      split at h
      · cases h
      · cases h
      · rfl
    · cases h
  · cases h

theorem fits_ofUpdate (w : Registry) (u : Object) (turn : Fate × String) :
    (w.update u turn).1.Fits (.ofUpdate u.status.seedNodeName (w.update u turn).2) := by
  cases h : (w.update u turn).2 with
  | error err => trivial
  | ok => exact Or.inr (seed_of_update h).symm

theorem react_change {w : Registry} {q : Hold} {r : Request} (agreed : w.Agreed)
    (fits : w.Fits q) (ok : seedProtocol.allows q r) (x : r.Turn) : w.Change (w.react r x).1 := by
  cases r with
  | call call =>
      refine .same call.ensures fun s hs => ?_
      obtain ⟨hseed, hne⟩ := ok s hs
      cases q with
      | pinned seed => exact ⟨hseed.trans (fits.resolve_left fun h => hne (hseed.trans h)), hne⟩
      | claiming | idle => exact absurd hseed hne
  | getCluster => cases x <;> exact .refl w
  | updateStatus u =>
      obtain rfl : q = .claiming u.resourceVersion := ok
      exact update_change agreed fits x
  | patchStatus body =>
      refine store_change (Or.inr ⟨?_, rfl⟩) x
      change body.seedNodeName = _ at ok
      change body.seedNodeName.getD w.seed = w.seed
      rw [ok]
      split
      next hne =>
        cases q with
        | pinned seed => exact fits.resolve_left hne
        | claiming | idle => exact absurd rfl hne
      next => rfl
  | _ => exact .refl w

theorem agreed_change {w w' : Registry} (agreed : w.Agreed) (change : w.Change w') :
    w'.Agreed := by
  cases change with
  | same seeds used =>
      refine ⟨agreed.named, agreed.same, agreed.one, agreed.claim, fun s hs => ?_⟩
      exact (List.mem_append.mp hs).elim (agreed.used s) (used s)
  | put rv st claim fresh first =>
      refine ⟨fun v hv => ?_, fun v hv hrv => ?_, fun v hv => ?_, fun hclaimed => ?_,
        fun s hs => ?_⟩
      · rcases List.mem_cons.mp hv with rfl | hv
        · exact fresh.1
        · exact agreed.named v hv
      · rcases List.mem_cons.mp hv with rfl | hv
        · rfl
        · exact absurd hrv (fresh.2 v hv)
      · rcases List.mem_cons.mp hv with rfl | hv
        · exact Or.inr rfl
        · rcases first with ⟨hnone, -⟩ | ⟨hsame, -⟩
          · exact Or.inl ((agreed.one v hv).elim id fun h => h.trans hnone)
          · exact (agreed.one v hv).imp id fun h => h.trans hsame.symm
      · rcases first with ⟨hnone, rfl⟩ | ⟨hsame, rfl⟩
        · have hclaimed : w.claimed = true ∨ st.seedNodeName ≠ "" := by simpa [put] using hclaimed
          exact hclaimed.resolve_left fun h => agreed.claim h hnone
        · have hclaimed : w.claimed = true := by simpa [put] using hclaimed
          exact fun h => agreed.claim hclaimed (hsame.symm.trans h)
      · obtain ⟨hseed, hne⟩ := agreed.used s hs
        refine ⟨?_, hne⟩
        rcases first with ⟨hnone, -⟩ | ⟨hsame, -⟩
        · exact absurd (hseed.trans hnone) hne
        · exact hseed.trans hsame.symm

/-- A seed stays. -/
theorem seed_change {w w' : Registry} (change : w.Change w') (h : w.seed ≠ "") :
    w'.seed = w.seed := by
  cases change with
  | same => rfl
  | put rv st claim fresh first => exact first.elim (fun hf => absurd hf.1 h) And.left

theorem fits_change {w w' : Registry} (change : w.Change w') {q : Hold} (fits : w.Fits q) :
    w'.Fits q := by
  cases q with
  | claiming rv =>
      obtain ⟨v, hv, h⟩ := fits
      cases change with
      | same => exact ⟨v, hv, h⟩
      | put => exact ⟨v, List.mem_cons_of_mem _ hv, h⟩
  | pinned seed =>
      by_cases hne : seed = ""
      · exact Or.inl hne
      · obtain rfl : seed = w.seed := fits.resolve_left hne
        exact Or.inr (seed_change change hne).symm
  | idle => trivial

theorem respects_seed : Respects seedProtocol react Agreed Fits := by
  intro w q r x agreed fits ok
  have hchange := react_change agreed fits ok x
  refine ⟨trivial, agreed_change agreed hchange, ?_⟩
  cases r with
  | updateStatus u => exact fits_ofUpdate w u x
  | getCluster =>
      cases x with
      | none => exact fits
      | some err => trivial
  | _ => exact fits_change hchange fits

theorem undisturbed_seed : Undisturbed seedProtocol react Agreed Fits :=
  fun _ _ _ x agreed fits ok _ fits' => fits_change (react_change agreed fits ok x) fits'

/-- And the seed that a version has stays for good. -/
theorem respects_settled_seed {s : String} (hs : s ≠ "") :
    Respects seedProtocol react (fun w => w.Agreed ∧ w.seed = s) Fits := by
  rintro w q r x ⟨agreed, rfl⟩ fits ok
  obtain ⟨hmay, hagreed, hfits⟩ := respects_seed w q r x agreed fits ok
  exact ⟨hmay, ⟨hagreed, seed_change (react_change agreed fits ok x) hs⟩, hfits⟩

end Registry

end Clusdr.Operator
