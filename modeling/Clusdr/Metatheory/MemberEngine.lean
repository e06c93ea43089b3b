import Clusdr.Core.Membership

/-!
Runs of the membership engine. Two facts hold along every run: a member is
stored under its own id, and an id that left is not listed. With them a listed
member depends on the operations that name its id and on nothing else.
-/

namespace Clusdr.Membership

open Go (Time)

theorem normalizeRole_idem (role : String) :
    normalizeRole (normalizeRole role) = normalizeRole role := by
  unfold normalizeRole
  split <;> simp [roleObserver, roleVoter]

theorem normalizeStatus_idem (status : String) :
    normalizeStatus (normalizeStatus status) = normalizeStatus status := by
  unfold normalizeStatus
  split <;> simp [statusAlive, statusDead]

theorem normalizeRole_cases (role : String) :
    normalizeRole role = roleVoter ∨ normalizeRole role = roleObserver := by
  unfold normalizeRole
  split
  · exact .inr rfl
  · exact .inl rfl

theorem normalizeStatus_cases (status : String) :
    normalizeStatus status = statusAlive ∨ normalizeStatus status = statusDead := by
  unfold normalizeStatus
  split
  · exact .inl rfl
  · exact .inr rfl

inductive Action where
  | joinAs (now : Time) (id addr role : String)
  | markDead (id : String)
  | leave (id : String)
  | restoreMember (now : Time) (id addr role : String) (status : Status)
  | setLeader (id : String)

namespace Engine

def act (e : Engine) : Action → Engine
  | .joinAs now id addr role => (e.joinAs now id addr role).1
  | .markDead id => (e.markDead id).1
  | .leave id => (e.leave id).1
  | .restoreMember now id addr role status => (e.restoreMember now id addr role status).1
  | .setLeader id => (e.setLeader id).1

def run (e : Engine) (as : List Action) : Engine := as.foldl act e

/-- States of an engine that `New` created. -/
def Reachable (e : Engine) : Prop :=
  ∃ now selfID selfAddr as, e = run (new now selfID selfAddr) as

structure Valid (e : Engine) : Prop where
  keyed : e.members.Keyed Member.id
  gone : ∀ id, e.left id = true → e.members.get id = none

theorem valid_new (now : Time) (selfID selfAddr : String) : Valid (new now selfID selfAddr) where
  keyed := (Go.Map.Keyed.empty _).set rfl
  gone id h := by simp [new, left] at h

/-- A join that the list does not show is of a member that is listed alive just so. -/
theorem joinAs_listed_iff {id : String} (named : id ≠ "") (e : Engine) (now : Time)
    (addr role : String) :
    (e.joinAs now id addr role).1.membersList = e.membersList ↔ ∃ joinedAt, e.members.get id =
      some ⟨id, addr, statusAlive, decide (id = e.leaderID), normalizeRole role, joinedAt⟩ := by
  rw [joinAs, if_neg named]
  refine Go.Map.sorted_set_eq_iff.trans ⟨fun h => ⟨_, h⟩, ?_⟩
  rintro ⟨joinedAt, h⟩
  simp [h, Option.filter]

/-- What an operation does: nothing, or one of four writes. -/
inductive Change (e : Engine) : Engine → Prop
  | same : Change e e
  | listed (id : String) (m : Member) (own : m.id = id)
      (flag : m.leader = decide (id = e.leaderID))
      (status : m.status = statusAlive ∨ m.status = statusDead)
      (role : m.role = roleVoter ∨ m.role = roleObserver) :
      Change e { e with members := e.members.set id m, dropped := e.dropped.delete id }
  | died (id : String) (m : Member) (held : e.members.get id = some m) :
      Change e { e with members := e.members.set id { m with status := statusDead } }
  | gone (id : String) (m : Member) (held : e.members.get id = some m) :
      Change e { e with members := e.members.delete id, dropped := e.dropped.set id () }
  | led (id : String) :
      Change e { e with
        leaderID := id
        members := e.members.mapValues fun k m => { m with leader := decide (k = id) } }

theorem act_change (e : Engine) (a : Action) : Change e (e.act a) := by
  cases a with
  | joinAs now id addr role =>
      simp only [act, joinAs]
      split
      · exact .same
      · exact .listed id _ rfl rfl (.inl rfl) (normalizeRole_cases role)
  | markDead id =>
      simp only [act, markDead]
      split
      · exact .same
      · rename_i m hm
        split
        · exact .same
        · exact .died id m hm
  | leave id =>
      simp only [act, leave]
      split
      · rename_i m hdropped hm
        exact .gone id m hm
      · exact .same
  | restoreMember now id addr role status =>
      simp only [act, restoreMember]
      split
      · exact .same
      · exact .listed id _ rfl rfl (normalizeStatus_cases status) (normalizeRole_cases role)
  | setLeader id =>
      simp only [act, setLeader]
      split
      · exact .same
      · exact .led id

theorem valid_change {e e' : Engine} (valid : Valid e) (change : Change e e') : Valid e' := by
  cases change with
  | same => exact valid
  | listed id m own =>
      refine ⟨valid.keyed.set own, fun j h => ?_⟩
      by_cases hj : j = id
      · simp [left, hj] at h
      · have hleft : e.left j = true := by simpa [left, Go.Map.get_delete, hj] using h
        simpa [Go.Map.get_set, hj] using valid.gone j hleft
  | died id m hm =>
      refine ⟨valid.keyed.set (valid.keyed id m hm), fun j hj => ?_⟩
      have hne : j ≠ id := by
        rintro rfl
        simp [valid.gone j hj] at hm
      simpa [Go.Map.get_set, hne] using valid.gone j hj
  | gone id m hm =>
      refine ⟨valid.keyed.delete id, fun j hj => ?_⟩
      by_cases hne : j = id
      · simp [hne]
      · have hleft : e.left j = true := by simpa [left, Go.Map.get_set, hne] using hj
        simpa [Go.Map.get_delete, hne] using valid.gone j hleft
  | led id =>
      refine ⟨fun j m hm => ?_, fun j hj => ?_⟩
      · rw [Go.Map.get_mapValues] at hm
        obtain ⟨n, hn, rfl⟩ := Option.map_eq_some_iff.mp hm
        exact valid.keyed j n hn
      · rw [Go.Map.get_mapValues, valid.gone j hj, Option.map_none]

theorem valid_act {e : Engine} (valid : Valid e) (a : Action) : Valid (e.act a) :=
  valid_change valid (act_change e a)

theorem valid_run {e : Engine} (valid : Valid e) (as : List Action) : Valid (e.run as) := by
  induction as generalizing e with
  | nil => exact valid
  | cons a as ih => exact ih (valid_act valid a)

theorem Reachable.valid {e : Engine} (h : Reachable e) : Valid e := by
  obtain ⟨now, selfID, selfAddr, as, rfl⟩ := h
  exact valid_run (valid_new now selfID selfAddr) as

/-- What a listed member says of itself. -/
structure Fits (leaderID : String) (m : Member) : Prop where
  flag : m.leader = true ↔ m.id = leaderID
  status : m.status = statusAlive ∨ m.status = statusDead
  role : m.role = roleVoter ∨ m.role = roleObserver

/-- The engine invariant: members are stored under their own id and are not among the ids
that left; they are alive or dead, voter or observer, and flagged if they lead. -/
structure Consistent (e : Engine) : Prop extends Valid e where
  fits : ∀ id m, e.members.get id = some m → Fits e.leaderID m

theorem consistent_new (now : Time) (selfID selfAddr : String) :
    Consistent (new now selfID selfAddr) where
  toValid := valid_new now selfID selfAddr
  fits id m hm := by
    simp only [new, Go.Map.get_set, Go.Map.get_empty] at hm
    split at hm
    · cases hm
      exact ⟨iff_of_true rfl rfl, .inl rfl, .inl rfl⟩
    · cases hm

theorem consistent_act {e : Engine} (h : Consistent e) (a : Action) : Consistent (e.act a) := by
  have change := act_change e a
  refine ⟨valid_change h.toValid change, fun j n hn => ?_⟩
  generalize e.act a = e' at change hn ⊢
  cases change with
  | same => exact h.fits j n hn
  | listed id m own flag status role =>
      rw [Go.Map.get_set] at hn
      split at hn
      · cases hn
        refine ⟨?_, status, role⟩
        rw [flag, decide_eq_true_eq, own]
      · exact h.fits j n hn
  | died id m held =>
      rw [Go.Map.get_set] at hn
      split at hn
      · cases hn
        exact ⟨(h.fits id m held).flag, .inr rfl, (h.fits id m held).role⟩
      · exact h.fits j n hn
  | gone id m held =>
      rw [Go.Map.get_delete] at hn
      split at hn
      · cases hn
      · exact h.fits j n hn
  | led id =>
      rw [Go.Map.get_mapValues] at hn
      obtain ⟨m, hm, rfl⟩ := Option.map_eq_some_iff.mp hn
      refine ⟨?_, (h.fits j m hm).status, (h.fits j m hm).role⟩
      rw [decide_eq_true_eq, h.keyed j m hm]

theorem consistent_run {e : Engine} (h : Consistent e) (as : List Action) :
    Consistent (e.run as) := by
  induction as generalizing e with
  | nil => exact h
  | cons a as ih => exact ih (consistent_act h a)

/-- `Leader` returns the flagged member. -/
theorem leader_eq_some_iff {e : Engine} (h : Consistent e) (m : Member) :
    e.leader = some m ↔ (∃ id, e.members.get id = some m) ∧ m.leader = true := by
  constructor
  · intro hm
    exact ⟨⟨e.leaderID, hm⟩, (h.fits _ m hm).flag.mpr (h.keyed _ m hm)⟩
  · rintro ⟨⟨id, hm⟩, hflag⟩
    have hid : id = e.leaderID := (h.keyed id m hm).symm.trans ((h.fits id m hm).flag.mp hflag)
    rw [leader, ← hid]
    exact hm

/-- Every sequence of engine operations, from `New`, keeps the invariant; so one member at
most is flagged, and it is the one `Leader` returns. `Join` is `JoinAs` of a voter and `Drop`
is `Leave`. -/
theorem engine_consistent (now : Time) (selfID selfAddr : String) (as : List Action) :
    Consistent ((new now selfID selfAddr).run as) ∧
      ∀ m, ((new now selfID selfAddr).run as).leader = some m ↔
        (∃ id, ((new now selfID selfAddr).run as).members.get id = some m) ∧ m.leader = true :=
  have h := consistent_run (consistent_new now selfID selfAddr) as
  ⟨h, leader_eq_some_iff h⟩

end Engine

end Clusdr.Membership
