import Clusdr.Core.Sdk
import Clusdr.Runs.Along

/-!
The grants a client answers from its cache. An entry leaves the cache only at
the end of a release, while a renew loop ends in several other ways; as long as
none of those befalls a cached handle, what the cache holds is being renewed.
-/

namespace Clusdr.Sdk

/-- The event tells the client that the grant of the handle is lost. -/
def Event.tellsLost (p : Nat) : Event → Bool
  | .tick q (.error e) => q == p && e.code == .failedPrecondition
  | .renewed q (.error e) => q == p && e.code == .failedPrecondition
  | .renewed q (.ok (extended, _)) => q == p && !extended
  | .releaseEnd q (.error e) => q == p && e.code == .failedPrecondition
  | _ => false

namespace Cache

def Cached (c : Cache) (p : Nat) : Prop := ∃ name, c.lookup name = some p

/-- A cached handle with no release in progress has its loop running. -/
def Renewing (c : Cache) : Prop :=
  ∀ name p, c.lookup name = some p → p ∉ c.releasing →
    ∃ h, c.handle p = some h ∧ h.running = true

/-- The handle is neither stopped nor known to be lost after the events `past`. -/
def Usable (past : List Event) (c : Cache) (p : Nat) : Prop :=
  ∃ h, c.handle p = some h ∧ h.running = true ∧ h.ctxDone = false ∧
    ∀ e ∈ past, e.tellsLost p = false

/-- The event does not part a cached handle from its renewal: a release ends by
forgetting the handle and is not overtaken by a call, and before it neither the
loop nor `Renew` is turned down and the context of `Lease` is not cancelled. -/
def Harmless (c : Cache) : Event → Prop
  | .call name => ∀ p, c.lookup name = some p → p ∉ c.releasing
  | .granted _ _ | .releaseStart _ | .loopDone _ => True
  | .releaseEnd p answer => c.Cached p → forgets answer = true
  | .tick p answer => c.Cached p → p ∉ c.releasing → keepsRenewing false answer = true
  | .cancelLife p => c.Cached p → p ∈ c.releasing
  | .renewed p answer =>
      c.Cached p → p ∉ c.releasing → (Event.renewed p answer).tellsLost p = false

/-- After the events `past` the cache holds handles under their own names, usable
but for those being released; what the past speaks of exists. -/
structure Kept (past : List Event) (c : Cache) : Prop where
  entry : ∀ name p, c.lookup name = some p → ∃ h, c.handle p = some h ∧ h.name = name ∧
    (p ∉ c.releasing → h.running = true ∧ h.ctxDone = false ∧ ∀ e ∈ past, e.tellsLost p = false)
  releasing : ∀ p ∈ c.releasing, p < c.handles.length
  told : ∀ e ∈ past, ∀ p, e.tellsLost p = true → p < c.handles.length

theorem kept_empty : Kept [] empty where
  entry name p h := by simp [empty, lookup] at h
  releasing p h := absurd h List.not_mem_nil
  told e h := absurd h List.not_mem_nil

theorem lt_of_handle {c : Cache} {p : Nat} {h : Handle} (hp : c.handle p = some h) :
    p < c.handles.length := (List.getElem?_eq_some_iff.mp hp).1

theorem handle_update (c : Cache) (p q : Nat) (f : Handle → Handle) :
    (c.update p f).handle q = (c.handle q).map fun h => if p = q then f h else h :=
  List.getElem?_modify f p c.handles q

/-- One more event: what it does to the entries, and whom it speaks of. -/
theorem Kept.snoc {past : List Event} {c c' : Cache} {e : Event} (kept : Kept past c)
    (grows : c.handles.length ≤ c'.handles.length)
    (releasing : ∀ p ∈ c'.releasing, p < c'.handles.length)
    (speaks : ∀ p, e.tellsLost p = true → p < c.handles.length)
    (entry : ∀ name p, c'.lookup name = some p → ∃ h, c'.handle p = some h ∧ h.name = name ∧
      (p ∉ c'.releasing → h.running = true ∧ h.ctxDone = false ∧ e.tellsLost p = false ∧
        ∀ e ∈ past, e.tellsLost p = false)) : Kept (past ++ [e]) c' := by
  refine ⟨fun name p hp => ?_, releasing, fun e' he' p hp => ?_⟩
  · obtain ⟨h, hh, hname, husable⟩ := entry name p hp
    refine ⟨h, hh, hname, fun free => ?_⟩
    obtain ⟨running, going, hnow, hpast⟩ := husable free
    refine ⟨running, going, fun e' he' => ?_⟩
    rcases List.mem_append.mp he' with hmem | hmem
    · exact hpast e' hmem
    · rw [List.mem_singleton.mp hmem]
      exact hnow
  · rcases List.mem_append.mp he' with hmem | hmem
    · exact Nat.lt_of_lt_of_le (kept.told e' hmem p hp) grows
    · rw [List.mem_singleton.mp hmem] at hp
      exact Nat.lt_of_lt_of_le (speaks p hp) grows

/-- An event about one handle, which keeps its name. -/
theorem kept_update {past : List Event} {c : Cache} {e : Event} {p : Nat} {f : Handle → Handle}
    {releasing : List Nat} (kept : Kept past c) (hp : p < c.handles.length)
    (same : ∀ h, (f h).name = h.name) (about : ∀ q, e.tellsLost q = true → q = p)
    (more : releasing = c.releasing ∨ releasing = p :: c.releasing)
    (spares : c.Cached p → p ∉ releasing → ∀ h, c.handle p = some h → h.running = true →
      h.ctxDone = false →
      (f h).running = true ∧ (f h).ctxDone = false ∧ e.tellsLost p = false) :
    Kept (past ++ [e]) { c.update p f with releasing := releasing } := by
  have hlen : (c.update p f).handles.length = c.handles.length := List.length_modify f _ p
  have hsub : ∀ q ∈ c.releasing, q ∈ releasing := by
    intro q hq
    rcases more with rfl | rfl
    · exact hq
    · exact List.mem_cons_of_mem p hq
  refine kept.snoc (Nat.le_of_eq hlen.symm) ?_ ?_ ?_
  · intro q hq
    have hq' : q = p ∨ q ∈ c.releasing := by
      rcases more with rfl | rfl
      · exact Or.inr hq
      · exact List.mem_cons.mp hq
    rcases hq' with rfl | hmem
    · exact hlen ▸ hp
    · exact hlen ▸ kept.releasing q hmem
  · intro q hq
    exact about q hq ▸ hp
  · intro name q hq
    obtain ⟨h, hh, hname, husable⟩ := kept.entry name q hq
    refine ⟨if p = q then f h else h, ?_, ?_, fun free => ?_⟩
    · exact (c.handle_update p q f).trans (by rw [hh, Option.map_some])
    · split
      · rw [same, hname]
      · exact hname
    · obtain ⟨running, going, hpast⟩ := husable fun hmem => free (hsub q hmem)
      split
      · rename_i heq
        subst heq
        obtain ⟨running', going', hnow⟩ := spares ⟨name, hq⟩ free h hh running going
        exact ⟨running', going', hnow, hpast⟩
      · rename_i hne
        refine ⟨running, going, ?_, hpast⟩
        exact Bool.eq_false_iff.mpr fun htold => hne (about q htold).symm

theorem kept_silent {past : List Event} {c : Cache} {e : Event} (kept : Kept past c)
    (silent : ∀ p, e.tellsLost p = false) : Kept (past ++ [e]) c := by
  refine kept.snoc (Nat.le_refl _) kept.releasing (fun p hp => ?_) fun name p hp => ?_
  · exact absurd (hp.symm.trans (silent p)) (by decide)
  · obtain ⟨h, hh, hname, husable⟩ := kept.entry name p hp
    refine ⟨h, hh, hname, fun free => ?_⟩
    obtain ⟨running, going, hpast⟩ := husable free
    exact ⟨running, going, silent p, hpast⟩

theorem kept_adopted {past : List Event} {c : Cache} (kept : Kept past c) (name : String)
    (resp : GrantAnswer) :
    Kept (past ++ [.granted name resp])
      { c with
        held := c.held.set name c.handles.length
        handles := c.handles ++ [.ofAnswer name resp] } := by
  have hlen : c.handles.length ≤ (c.handles ++ [Handle.ofAnswer name resp]).length := by simp
  refine kept.snoc hlen (fun p hp => Nat.lt_of_lt_of_le (kept.releasing p hp) hlen) nofun ?_
  intro n p hp
  simp only [lookup, Go.Map.get_set] at hp
  split at hp
  · cases hp
    subst n
    refine ⟨.ofAnswer name resp, ?_, rfl, fun _ => ⟨rfl, rfl, rfl, fun e he => ?_⟩⟩
    · simp [handle]
    · exact Bool.eq_false_iff.mpr fun htold => Nat.lt_irrefl _ (kept.told e he _ htold)
  · obtain ⟨h, hh, hname, husable⟩ := kept.entry n p hp
    refine ⟨h, ?_, hname, fun free => ?_⟩
    · exact (List.getElem?_append_left (lt_of_handle hh)).trans hh
    · obtain ⟨running, going, hpast⟩ := husable free
      exact ⟨running, going, rfl, hpast⟩

theorem kept_adopt {past : List Event} {c : Cache} (kept : Kept past c) (name : String)
    (resp : GrantAnswer) : Kept (past ++ [.granted name resp]) (c.adopt name resp) := by
  unfold adopt
  split
  · split
    · exact kept_silent kept fun _ => rfl
    · exact kept_adopted kept name resp
  · exact kept_adopted kept name resp

theorem forget_fixed (c : Cache) (name : String) (token : UInt64) :
    (c.forget name token).handles = c.handles ∧ (c.forget name token).releasing = c.releasing := by
  unfold forget
  split
  · split <;> exact ⟨rfl, rfl⟩
  · exact ⟨rfl, rfl⟩

theorem lookup_forget {c : Cache} {name n : String} {token : UInt64} {p : Nat}
    (hp : (c.forget name token).lookup n = some p) :
    c.lookup n = some p ∧ (n = name → ∀ h, c.handle p = some h → h.token ≠ token) := by
  unfold forget at hp
  split at hp
  · rename_i l hl
    split at hp
    · simp only [lookup, Go.Map.get_delete] at hp
      split at hp
      · cases hp
      · rename_i hne
        exact ⟨hp, fun heq => absurd heq hne⟩
    · rename_i hother
      refine ⟨hp, ?_⟩
      rintro rfl h hh
      rw [hp, Option.bind_some, hh] at hl
      cases hl
      exact hother
  · rename_i hnone
    refine ⟨hp, ?_⟩
    rintro rfl h hh
    rw [hp, Option.bind_some, hh] at hnone
    cases hnone

/-- At the end of a release its handle is not cached any more. -/
theorem lookup_releaseEnd {past : List Event} {c : Cache} (kept : Kept past c) {p q : Nat}
    {answer : Except Rpc.Status Bool} (harmless : c.Harmless (.releaseEnd p answer))
    {name : String} (hq : (c.step (.releaseEnd p answer)).lookup name = some q) :
    c.lookup name = some q ∧ q ≠ p := by
  have spared : c.lookup name = some q → forgets answer = false → q ≠ p := by
    rintro hlookup hforgets rfl
    exact absurd ((harmless ⟨name, hlookup⟩).symm.trans hforgets) (by decide)
  simp only [step] at hq
  split at hq
  · rename_i h hh
    split at hq
    · obtain ⟨hlookup, hother⟩ := lookup_forget hq
      refine ⟨hlookup, ?_⟩
      rintro rfl
      obtain ⟨h', hh', hname, -⟩ := kept.entry name q hlookup
      cases hh.symm.trans hh'
      exact hother hname.symm h hh rfl
    · rename_i hforgets
      exact ⟨hq, spared hq (Bool.eq_false_iff.mpr hforgets)⟩
  · rename_i hnone
    refine ⟨hq, ?_⟩
    rintro rfl
    obtain ⟨h, hh, -⟩ := kept.entry name q hq
    cases hnone.symm.trans hh

theorem releaseEnd_fixed (c : Cache) (p : Nat) (answer : Except Rpc.Status Bool) :
    (c.step (.releaseEnd p answer)).handles = c.handles ∧
      (c.step (.releaseEnd p answer)).releasing = c.releasing.erase p := by
  simp only [step]
  split
  · split
    · exact forget_fixed _ _ _
    · exact ⟨rfl, rfl⟩
  · exact ⟨rfl, rfl⟩

theorem kept_releaseEnd {past : List Event} {c : Cache} (kept : Kept past c) {p : Nat}
    {answer : Except Rpc.Status Bool} (may : p ∈ c.releasing)
    (harmless : c.Harmless (.releaseEnd p answer)) :
    Kept (past ++ [.releaseEnd p answer]) (c.step (.releaseEnd p answer)) := by
  obtain ⟨hhandles, hreleasing⟩ := c.releaseEnd_fixed p answer
  have about : ∀ q, (Event.releaseEnd p answer).tellsLost q = true → q = p := by
    intro q hq
    cases answer with
    | error e => exact (by simpa [Event.tellsLost] using hq : p = q ∧ _).1.symm
    | ok released => cases hq
  refine kept.snoc (Nat.le_of_eq (by rw [hhandles])) ?_ ?_ ?_
  · intro q hq
    rw [hreleasing] at hq
    rw [hhandles]
    exact kept.releasing q (List.mem_of_mem_erase hq)
  · intro q hq
    exact about q hq ▸ kept.releasing p may
  · intro name q hq
    obtain ⟨hlookup, hne⟩ := lookup_releaseEnd kept harmless hq
    obtain ⟨h, hh, hname, husable⟩ := kept.entry name q hlookup
    refine ⟨h, by rw [handle, hhandles]; exact hh, hname, fun free => ?_⟩
    rw [hreleasing, List.mem_erase_of_ne hne] at free
    obtain ⟨running, going, hpast⟩ := husable free
    exact ⟨running, going, Bool.eq_false_iff.mpr fun htold => hne (about q htold), hpast⟩

theorem tellsLost_tick {p q : Nat} {answer : Except Rpc.Status Int64}
    (h : (Event.tick p answer).tellsLost q = true) :
    q = p ∧ keepsRenewing false answer = false := by
  cases answer with
  | ok ms => cases h
  | error e =>
      simp only [Event.tellsLost, Bool.and_eq_true, beq_iff_eq] at h
      refine ⟨h.1.symm, ?_⟩
      simp [keepsRenewing, h.2]

theorem tellsLost_renewed {p q : Nat} {answer : Except Rpc.Status (Bool × Int64)}
    (h : (Event.renewed p answer).tellsLost q = true) : q = p := by
  rcases answer with e | ⟨extended, ms⟩ <;>
    simp only [Event.tellsLost, Bool.and_eq_true, beq_iff_eq] at h <;> exact h.1.symm

theorem kept_step {lease : Bool} {past : List Event} {c : Cache} {e : Event} (kept : Kept past c)
    (may : c.May lease e) (harmless : c.Harmless e) : Kept (past ++ [e]) (c.step e) := by
  cases e with
  | call name => exact kept_silent kept fun _ => rfl
  | granted name resp => exact kept_adopt kept name resp
  | releaseStart p =>
      exact kept_update kept may (fun _ => rfl) nofun (Or.inr rfl)
        fun _ free => absurd List.mem_cons_self free
  | releaseEnd p answer => exact kept_releaseEnd kept may harmless
  | tick p answer =>
      obtain ⟨h, hh, -⟩ := may
      refine kept_update kept (lt_of_handle hh) (fun h => (h.ticked_fixed answer).1)
        (fun q hq => (tellsLost_tick hq).1) (Or.inl rfl) fun cached free h _ running going => ?_
      have keeps := harmless cached free
      obtain ⟨-, -, -, hctx, hrunning⟩ := h.ticked_fixed answer
      rw [going] at hctx hrunning
      refine ⟨by rw [hrunning, running, keeps, Bool.and_self], hctx, ?_⟩
      exact Bool.eq_false_iff.mpr fun htold =>
        absurd (keeps.symm.trans (tellsLost_tick htold).2) (by decide)
  | loopDone p =>
      obtain ⟨h, hh, -, stopped⟩ := may
      refine kept_update kept (lt_of_handle hh) (fun _ => rfl) nofun (Or.inl rfl)
        fun _ _ h' hh' _ going => ?_
      cases hh.symm.trans hh'
      exact absurd (stopped.symm.trans going) (by decide)
  | cancelLife p =>
      exact kept_update kept may.2 (fun _ => rfl) nofun (Or.inl rfl)
        fun cached free => absurd (harmless cached) free
  | renewed p answer =>
      refine kept_update kept may.2 (fun h => (h.renewedBy_fixed answer).1)
        (fun _ => tellsLost_renewed) (Or.inl rfl) fun cached free h _ running going => ?_
      obtain ⟨-, hctx, hrunning⟩ := h.renewedBy_fixed answer
      exact ⟨hrunning.trans running, hctx.trans going, harmless cached free⟩

theorem Kept.renewing {past : List Event} {c : Cache} (kept : Kept past c) : c.Renewing := by
  intro name p hp free
  obtain ⟨h, hh, -, husable⟩ := kept.entry name p hp
  exact ⟨h, hh, (husable free).1⟩

theorem Kept.usable {past : List Event} {c : Cache} (kept : Kept past c) {name : String} {p : Nat}
    (hp : c.lookup name = some p) (free : p ∉ c.releasing) : c.Usable past p := by
  obtain ⟨h, hh, -, husable⟩ := kept.entry name p hp
  exact ⟨h, hh, husable free⟩

end Cache

namespace Client

def Harmless (c : Client) : ClientEvent → Prop
  | .lock e => c.held.Harmless e
  | .lease e => c.leased.Harmless e

def lockEvents (es : List ClientEvent) : List Event :=
  es.filterMap fun | .lock e => some e | .lease _ => none

def leaseEvents (es : List ClientEvent) : List Event :=
  es.filterMap fun | .lease e => some e | .lock _ => none

structure Kept (past : List ClientEvent) (c : Client) : Prop where
  held : Cache.Kept (lockEvents past) c.held
  leased : Cache.Kept (leaseEvents past) c.leased

theorem lockEvents_append (xs ys : List ClientEvent) :
    lockEvents (xs ++ ys) = lockEvents xs ++ lockEvents ys := List.filterMap_append

theorem leaseEvents_append (xs ys : List ClientEvent) :
    leaseEvents (xs ++ ys) = leaseEvents xs ++ leaseEvents ys := List.filterMap_append

theorem kept_step {past : List ClientEvent} {c : Client} {e : ClientEvent} (kept : Kept past c)
    (ok : c.May e ∧ c.Harmless e) : Kept (past ++ [e]) (c.step e) := by
  cases e with
  | lock e =>
      refine ⟨?_, ?_⟩
      · rw [lockEvents_append]
        exact Cache.kept_step kept.held ok.1 ok.2
      · rw [leaseEvents_append]
        exact (List.append_nil (leaseEvents past)).symm ▸ kept.leased
  | lease e =>
      refine ⟨?_, ?_⟩
      · rw [lockEvents_append]
        exact (List.append_nil (lockEvents past)).symm ▸ kept.held
      · rw [leaseEvents_append]
        exact Cache.kept_step kept.leased ok.1 ok.2

end Client

open Runs (Along run)

/-- What the client caches is being renewed, and what it answers from the cache is
neither lost nor stopped, in every run whose events are harmless. -/
theorem cached_grants_are_renewed (events : List ClientEvent)
    (may : Along Client.step Client.May .new events)
    (harmless : Along Client.step Client.Harmless .new events) :
    ((run Client.step .new events).held.Renewing ∧
        (run Client.step .new events).leased.Renewing) ∧
      ∀ before after name p,
        (events = before ++ .lock (.call name) :: after →
          (run Client.step .new before).held.lookup name = some p →
          (run Client.step .new before).held.Usable (Client.lockEvents before) p) ∧
        (events = before ++ .lease (.call name) :: after →
          (run Client.step .new before).leased.lookup name = some p →
          (run Client.step .new before).leased.Usable (Client.leaseEvents before) p) := by
  have init : Client.Kept [] .new := ⟨Cache.kept_empty, Cache.kept_empty⟩
  have ok := may.and harmless
  have kept := Runs.invariant Client.Kept init (fun _ _ _ => Client.kept_step) ok
  refine ⟨⟨kept.held.renewing, kept.leased.renewing⟩, fun before after name p => ⟨?_, ?_⟩⟩
  · intro split hp
    obtain ⟨hkept, -, hcall⟩ :=
      Runs.invariant_before Client.Kept init (fun _ _ _ => Client.kept_step) ok split
    exact hkept.held.usable hp (hcall p hp)
  · intro split hp
    obtain ⟨hkept, -, hcall⟩ :=
      Runs.invariant_before Client.Kept init (fun _ _ _ => Client.kept_step) ok split
    exact hkept.leased.usable hp (hcall p hp)

/-- A grant of `job`. -/
def jobGrant : GrantAnswer := ⟨"sdk", 1, 10⟩

/-- An `Unlock` that the daemon could not commit. -/
def failedUnlock : List ClientEvent :=
  [.lock (.granted "job" jobGrant), .lock (.releaseStart 0), .lock (.loopDone 0),
    .lock (.releaseEnd 0 (.error ⟨.unavailable, "no leader"⟩))]

/-- A renewal that the loop takes for the loss of the lock. -/
def lostRenewal : List ClientEvent :=
  [.lock (.granted "job" jobGrant),
    .lock (.tick 0 (.error ⟨.failedPrecondition, "lock_renew job: lock \"job\" is not held"⟩))]

/-- A lease whose caller has gone. -/
def cancelledLease : List ClientEvent :=
  [.lease (.granted "job" jobGrant), .lease (.cancelLife 0), .lease (.loopDone 0)]

/-- Three ways to a cached handle that nothing renews; the second is known to be
lost. -/
theorem cached_grant_without_renewal :
    (Along Client.step Client.May .new failedUnlock ∧
        ¬ (run Client.step .new failedUnlock).held.Renewing) ∧
      (Along Client.step Client.May .new lostRenewal ∧
        (run Client.step .new lostRenewal).held.lookup "job" = some 0 ∧
        ¬ (run Client.step .new lostRenewal).held.Renewing) ∧
      Along Client.step Client.May .new cancelledLease ∧
        ¬ (run Client.step .new cancelledLease).leased.Renewing := by
  have idle : ∀ {c : Cache} {h : Handle}, c.lookup "job" = some 0 → c.releasing = [] →
      c.handle 0 = some h → h.running = false → ¬ c.Renewing := by
    intro c h hlookup hfree hh stopped renewing
    obtain ⟨h', hh', running⟩ := renewing "job" 0 hlookup (by simp [hfree])
    cases hh.symm.trans hh'
    exact absurd (stopped.symm.trans running) (by decide)
  refine ⟨⟨?_, idle rfl rfl rfl rfl⟩, ⟨?_, rfl, idle rfl rfl rfl rfl⟩, ?_, idle rfl rfl rfl rfl⟩
  · exact ⟨trivial, Nat.zero_lt_one, ⟨_, rfl, rfl, rfl⟩, List.mem_cons_self, trivial⟩
  · exact ⟨trivial, ⟨_, rfl, rfl⟩, trivial⟩
  · exact ⟨trivial, ⟨rfl, Nat.zero_lt_one⟩, ⟨_, rfl, rfl, rfl⟩, trivial⟩

/-- A lock renewed, used again and unlocked, beside a lease whose renewal fails once. -/
def orderlyUse : List ClientEvent :=
  [.lock (.granted "job" jobGrant), .lock (.tick 0 (.ok 20)), .lock (.call "job"),
    .lease (.granted "job" jobGrant), .lease (.tick 0 (.error ⟨.unavailable, "no leader"⟩)),
    .lock (.releaseStart 0), .lock (.loopDone 0), .lock (.releaseEnd 0 (.ok true))]

theorem cached_grants_are_renewed_in_orderly_use :
    (run Client.step .new orderlyUse).leased.lookup "job" = some 0 ∧
      (run Client.step .new orderlyUse).leased.Renewing := by
  refine ⟨rfl, (cached_grants_are_renewed orderlyUse ?_ ?_).1.2⟩
  · exact ⟨trivial, ⟨_, rfl, rfl⟩, trivial, trivial, ⟨_, rfl, rfl⟩, Nat.zero_lt_one,
      ⟨_, rfl, rfl, rfl⟩, List.mem_cons_self, trivial⟩
  · exact ⟨trivial, fun _ _ => rfl, fun _ _ => List.not_mem_nil, trivial, fun _ _ => rfl, trivial,
      trivial, fun _ => rfl, trivial⟩

end Clusdr.Sdk
