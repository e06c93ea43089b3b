import Clusdr.Metatheory.CacheNotes
import Clusdr.Metatheory.LendingServices
import Clusdr.Metatheory.RenewLoop

/-!
What a client leaves behind when it is closed. `Close` gives back the grants in the cache
and no others, so what stays are the grants the client was never told of.
-/

namespace Clusdr.Sdk

open Go (Time Duration Unicode)
open Fencing (Grant Op Register)
open Fencing.Register (Counted Foreign)
open Consensus (Command Fsm Half LogEntry Submission leaseHalf lockHalf)

variable [Unicode] {S : Type} {svc : Service S} {half : Half}

/-- The handle for which a call has a release served. -/
def Call.gives : Call S → List Nat
  | .giveBack p _ _ => [p]
  | _ => []

namespace Grants

/-- Answers for a name are heard in the order in which they were given, and what makes the
client forget a handle is the answer of the table. -/
def Orderly (g : Grants) : Call S → Prop
  | .hear i => g.First i
  | .giveBack _ _ sub => sub.outcome = .committed
  | .turnedDown _ e => e.code ≠ .failedPrecondition
  | _ => True

/-- After `n` commands the client knows its grants of its table. -/
def Sound (half : Half) (me : String) (n : Nat) (given : List Nat) (f : Fsm) (g : Grants) : Prop :=
  ∃ r, half.register f = some r ∧ Counted half.policy n r ∧ Knows me given r g

variable {me : String} {n : Nat} {given : List Nat} {f f' : Fsm} {g : Grants}

theorem Sound.idle (sound : Sound half me n given f g)
    (same : half.register f' = half.register f) : Sound half me (n + 1) given f' g := by
  obtain ⟨r, hr, counted, knows⟩ := sound
  exact ⟨r, same.trans hr, { counted with count := Nat.le_succ_of_le counted.count }, knows⟩

theorem Sound.commit (sound : Sound half me n given f g) (room : n + 1 < 2 ^ 64) {cmd : Command}
    (foreign : ∀ o, half.op cmd = some o → Foreign me o) (now : Time) :
    Sound half me (n + 1) given (f.applyCommand now cmd).1 g := by
  cases hop : half.op cmd with
  | none => exact sound.idle (half.idle f now cmd hop)
  | some o =>
      obtain ⟨r, hr, counted, knows⟩ := sound
      refine ⟨_, ?_, Register.counted_moves counted room (.inr ⟨o, rfl⟩),
        knows.foreign counted room (foreign o hop)⟩
      rw [half.acts f now cmd o hop, hr, Option.map_some]

/-- An attempt that is not reported as granted: a grant the client has then is unheard of. -/
theorem answered_failed (lends : Lends svc half) (g : Grants) (f : Fsm) (name me : String)
    (deadlineUnixMs : Int64) {res : Except Rpc.Status (UInt64 × Bool)}
    (failed : ∀ t, res ≠ .ok (t, true)) :
    ∃ unheard, g.answered svc f name me deadlineUnixMs res = { g with unheard } ∧
      g.unheard ⊆ unheard ∧
      ∀ u, half.grant f name = some u → u.holder = me → (name, u.token) ∈ unheard := by
  unfold answered
  split
  · exact absurd rfl (failed _)
  · rw [lends.held]
    cases half.grant f name with
    | none => exact ⟨g.unheard, rfl, fun _ h => h, nofun⟩
    | some u =>
        by_cases own : u.holder = me
        · refine ⟨(name, u.token) :: g.unheard, if_pos own, List.subset_cons_self _ _, ?_⟩
          intro u' hu' _
          cases hu'
          exact List.mem_cons_self
        · refine ⟨g.unheard, if_neg own, fun _ h => h, fun u' hu' own' => ?_⟩
          cases hu'
          exact absurd own' own

theorem Sound.ask (lends : Lends svc half) (sound : Sound half me n given f g) (named : me ≠ "")
    (room : n + 1 < 2 ^ 64) {s : S} (leads : svc.leads s) (sub : Submission) (blocking : Bool)
    (name : String) (ttl : Duration) (deadlineUnixMs : Int64) :
    Sound half me (n + 1) given
      (g.step svc me f (.ask s sub blocking name ttl deadlineUnixMs)).1
      (g.step svc me f (.ask s sub blocking name ttl deadlineUnixMs)).2 := by
  obtain ⟨r, hr, counted, knows⟩ := sound
  have hattempt := lends.attempt s f sub blocking name me (ttlMs ttl) r leads named hr
  show Sound half me (n + 1) given (svc.attempt s f sub blocking name me (ttlMs ttl)).1
    (g.answered svc (svc.attempt s f sub blocking name me (ttlMs ttl)).1 name (svc.holder s me)
      deadlineUnixMs (svc.attempt s f sub blocking name me (ttlMs ttl)).2)
  rw [lends.holder s me named]
  generalize svc.attempt s f sub blocking name me (ttlMs ttl) = out at hattempt ⊢
  obtain ⟨f', res⟩ := out
  by_cases hgranted : ∃ t, res = .ok (t, true)
  · obtain ⟨t, rfl⟩ := hgranted
    rcases hattempt with ⟨-, hnone⟩ | ⟨d, hr', htaken⟩
    · exact absurd rfl (hnone t)
    · exact ⟨_, hr', Register.counted_moves counted room (.inr ⟨_, rfl⟩),
        knows.told counted room (htaken t rfl) deadlineUnixMs⟩
  · obtain ⟨unheard, hanswered, hmore, htold⟩ := answered_failed lends g f' name me deadlineUnixMs
      fun t ht => hgranted ⟨t, ht⟩
    rw [hanswered]
    rcases hattempt with ⟨hr', -⟩ | ⟨d, hr', -⟩
    · exact ⟨r, hr', { counted with count := Nat.le_succ_of_le counted.count }, knows.more hmore⟩
    · refine ⟨_, hr', Register.counted_moves counted room (.inr ⟨_, rfl⟩),
        knows.untold counted room hmore fun u hu => htold u ?_⟩
      rw [half.grant_eq hr', hu]

theorem Sound.step (lends : Lends svc half) {lease : Bool} (sound : Sound half me n given f g)
    (named : me ≠ "") (room : n + 1 < 2 ^ 64) {c : Call S} (may : g.May svc lease c)
    (orderly : g.Orderly c) :
    Sound half me (n + 1) (given ++ c.gives) (g.step svc me f c).1 (g.step svc me f c).2 := by
  -- Only an attempt and a served release touch the table.
  have still : ∀ {g' : Grants}, (∀ r, Knows me given r g → Knows me given r g') →
      Sound half me (n + 1) (given ++ []) f g' := by
    intro g' keeps
    obtain ⟨r, hr, counted, knows⟩ := sound
    rw [List.append_nil]
    exact ⟨r, hr, { counted with count := Nat.le_succ_of_le counted.count }, keeps r knows⟩
  cases c with
  | ask s sub blocking name ttl deadlineUnixMs =>
      rw [show (Call.ask s sub blocking name ttl deadlineUnixMs).gives = [] from rfl,
        List.append_nil]
      exact sound.ask lends named room may.1 sub blocking name ttl deadlineUnixMs
  | hear i =>
      obtain ⟨⟨name, resp⟩, hi⟩ : ∃ e, g.granted[i]? = some e :=
        ⟨_, List.getElem?_eq_getElem may⟩
      simp only [Grants.step, hi]
      exact still fun r knows => knows.hear orderly hi
  | lose i =>
      obtain ⟨⟨name, resp⟩, hi⟩ : ∃ e, g.granted[i]? = some e :=
        ⟨_, List.getElem?_eq_getElem may⟩
      simp only [Grants.step, hi]
      exact still fun r knows => knows.lose hi
  | giveBack p s sub =>
      obtain ⟨h, hp, leads, -⟩ := may
      obtain ⟨r, hr, counted, knows⟩ := sound
      have hholder := (knows.handles p h hp).1
      simp only [Grants.step, hp]
      refine ⟨_, ?_, Register.counted_moves counted room (.inr ⟨_, rfl⟩),
        knows.giveBack counted room hp _⟩
      exact lends.release s f sub h.name h.holder h.token r leads (hholder ▸ named) orderly hr
  | turnedDown p e =>
      refine still fun r knows => knows.same (g.cache.same_releaseStart p) fun e' he' forgets => ?_
      rcases List.mem_append.mp he' with he' | he'
      · exact knows.returned e' he' forgets
      · rw [List.mem_singleton.mp he'] at forgets
        exact absurd (beq_iff_eq.mp forgets) orderly
  | settle i =>
      obtain ⟨⟨p, answer⟩, hi⟩ : ∃ e, g.returned[i]? = some e :=
        ⟨_, List.getElem?_eq_getElem may⟩
      simp only [Grants.step, hi]
      exact still fun r knows => knows.settle hi
  | loop e => exact still fun r knows => knows.same (g.cache.same_loop may.2) knows.returned

/-- The other half of the client leaves this table alone. -/
theorem Spares.step {svc : Service S} (spares : Spares svc half) {lease : Bool} {c : Call S}
    (may : g.May svc lease c) : half.register (g.step svc me f c).1 = half.register f := by
  cases c with
  | ask s sub blocking name ttl deadlineUnixMs => exact spares.attempt s f sub _ _ _ _ may.1
  | giveBack p s sub =>
      obtain ⟨h, hp, leads, -⟩ := may
      simp only [Grants.step, hp]
      exact spares.release s f sub _ _ _ leads
  | hear i | lose i | settle i =>
      simp only [Grants.step]
      split <;> rfl
  | turnedDown | loop => rfl

omit [Unicode] in
/-- Nothing but an answer that is heard puts a handle into the cache. -/
theorem lookup_step {lease : Bool} {c : Call S} (may : g.May svc lease c)
    (quiet : ∀ i, c ≠ .hear i) {name : String} {p : Nat}
    (hp : (g.step svc me f c).2.cache.lookup name = some p) : g.cache.lookup name = some p := by
  cases c with
  | ask s sub blocking name' ttl deadlineUnixMs =>
      have hcache : ∀ f' res, (g.answered svc f' name' (svc.holder s me) deadlineUnixMs res).cache =
          g.cache := by
        intro f' res
        unfold answered
        split
        · rfl
        · split
          · split <;> rfl
          · rfl
      simp only [Grants.step, hcache] at hp
      exact hp
  | hear i => exact absurd rfl (quiet i)
  | lose i =>
      simp only [Grants.step] at hp
      split at hp <;> exact hp
  | giveBack q s sub =>
      obtain ⟨h, hq, -⟩ := may
      simp only [Grants.step, hq] at hp
      exact hp
  | turnedDown q e => exact hp
  | settle i =>
      simp only [Grants.step] at hp
      split at hp
      · rename_i q answer hi
        rcases g.cache.releaseEnd_cases q answer with hheld | ⟨h, -, -, -, hheld⟩
        · rwa [Cache.lookup, hheld] at hp
        · rw [Cache.lookup, hheld, Go.Map.get_delete] at hp
          split at hp
          · cases hp
          · exact hp
      · exact hp
  | loop e => rwa [Grants.step, Cache.lookup, (g.cache.same_loop may.2).held] at hp

/-- The client was told of the grant at some time: it made a handle for it then, and handles
are never taken off their list. -/
def Told (g : Grants) (name : String) (token : UInt64) : Prop :=
  ∃ p h, g.cache.handle p = some h ∧ h.name = name ∧ h.token = token

/-- The client was not told of the grant, or not yet: its answers were lost or are on their
way. -/
structure Untold (g : Grants) (name : String) (token : UInt64) : Prop where
  never : ¬ g.Told name token
  answers : (name, token) ∈ g.unheard ∨ ∃ resp, (name, resp) ∈ g.granted ∧ resp.fencingToken = token

/-- If all that is cached was given back, what the client was told of is gone. -/
theorem Sound.not_told (sound : Sound half me n given f g)
    (all : ∀ name p, g.cache.lookup name = some p → p ∈ given) {name : String}
    {u : Grant String Lifetime} (held : half.grant f name = some u) (own : u.holder = me) :
    ¬ g.Told name u.token := by
  obtain ⟨r, hr, -, knows⟩ := sound
  rw [half.grant_eq hr] at held
  rintro ⟨q, l, hq, hname, htoken⟩
  rcases knows.ended q l hq with hcached | hended
  · obtain ⟨h, hfound, hsame⟩ := Option.map_eq_some_iff.mp hcached
    obtain ⟨p, hp, hh⟩ := Option.bind_eq_some_iff.mp hfound
    obtain ⟨h', hh', hname'⟩ := knows.named l.name p hp
    obtain ⟨k, hk, hreturned⟩ := knows.given p (all l.name p hp)
    cases hh.symm.trans hh'
    cases hh.symm.trans hk
    rw [hname', hsame, hname, htoken] at hreturned
    exact hreturned.2 u held ⟨own, rfl⟩
  · rw [hname, htoken] at hended
    exact hended.2 u held ⟨own, rfl⟩

/-- The other grants are those whose answers were lost or are on their way. -/
theorem Sound.untold (sound : Sound half me n given f g)
    (all : ∀ name p, g.cache.lookup name = some p → p ∈ given) {name : String}
    {u : Grant String Lifetime} (held : half.grant f name = some u) (own : u.holder = me) :
    g.Untold name u.token := by
  have hnever := sound.not_told all held own
  refine ⟨hnever, ?_⟩
  obtain ⟨r, hr, -, knows⟩ := sound
  rw [half.grant_eq hr] at held
  rcases knows.accurate.own name u held own with htrail | hunheard
  · rcases List.mem_append.mp htrail with hcached | hsent
    · obtain ⟨h, hfound, htoken⟩ := Option.map_eq_some_iff.mp (Option.mem_toList.mp hcached)
      obtain ⟨p, hp, hh⟩ := Option.bind_eq_some_iff.mp hfound
      obtain ⟨h', hh', hname⟩ := knows.named name p hp
      cases hh.symm.trans hh'
      exact absurd ⟨p, h, hh, hname, htoken⟩ hnever
    · right
      obtain ⟨e, he, htoken⟩ := List.mem_map.mp hsent
      obtain ⟨hmem, hname⟩ := List.mem_filter.mp he
      obtain ⟨⟨name', resp⟩, hresp, rfl⟩ := List.mem_map.mp hmem
      cases of_decide_eq_true hname
      exact ⟨resp, hresp, htoken⟩
  · exact .inl hunheard

end Grants

namespace Session

def Orderly (w : Session) : Step → Prop
  | .lock c => w.locks.Orderly c
  | .lease c => w.leases.Orderly c
  | .commit _ _ => True

/-- The steps while `Close` runs: each handle that is cached when it begins is given back,
in any order and among other steps, and no call of the client ends in between. -/
structure Closes (w : Session) (steps : List Step) : Prop where
  locks : ∀ p, w.locks.cache.Cached p → ∃ s sub, .lock (.giveBack p s sub) ∈ steps
  leases : ∀ p, w.leases.cache.Cached p → ∃ s sub, .lease (.giveBack p s sub) ∈ steps
  quiet : ∀ i, .lock (.hear i) ∉ steps ∧ .lease (.hear i) ∉ steps

def lockGives : Step → List Nat
  | .lock c => c.gives
  | .lease _ | .commit _ _ => []

def leaseGives : Step → List Nat
  | .lease c => c.gives
  | .lock _ | .commit _ _ => []

/-- Both halves of the client know their grants. -/
structure Sound (me : String) (n : Nat) (past : List Step) (w : Session) : Prop where
  locks : Grants.Sound lockHalf me n (past.flatMap lockGives) w.fsm w.locks
  leases : Grants.Sound leaseHalf me n (past.flatMap leaseGives) w.fsm w.leases

omit [Unicode] in
theorem foreign_lockOp {me : String} {cmd : Command} {o : Op String String Lifetime}
    (others : cmd.kind = .lockAcquire → cmd.id ≠ me) (ho : cmd.lockOp = some o) : Foreign me o := by
  unfold Command.lockOp at ho
  cases hkind : cmd.kind with
  | lockAcquire =>
      rw [hkind] at ho
      cases ho
      exact others hkind
  | lockRelease | lockRenew | lockExpire =>
      rw [hkind] at ho
      cases ho
      trivial
  | _ =>
      rw [hkind] at ho
      cases ho

omit [Unicode] in
theorem foreign_leaseOp {me : String} {cmd : Command} {o : Op String String Lifetime}
    (others : cmd.kind = .leaseGrant → cmd.id ≠ me) (ho : cmd.leaseOp = some o) : Foreign me o := by
  unfold Command.leaseOp at ho
  cases hkind : cmd.kind with
  | leaseGrant =>
      rw [hkind] at ho
      cases ho
      exact others hkind
  | leaseRevoke | leaseRenew | leaseExpire =>
      rw [hkind] at ho
      cases ho
      trivial
  | _ =>
      rw [hkind] at ho
      cases ho

theorem sound_step {me : String} {n : Nat} {past : List Step} {w : Session} {e : Step}
    (sound : Sound me n past w) (named : me ≠ "") (room : n + 1 < 2 ^ 64) (may : w.May me e)
    (orderly : w.Orderly e) : Sound me (n + 1) (past ++ [e]) (w.step me e) := by
  have hlocks : (past ++ [e]).flatMap lockGives = past.flatMap lockGives ++ lockGives e := by simp
  have hleases : (past ++ [e]).flatMap leaseGives = past.flatMap leaseGives ++ leaseGives e := by
    simp
  refine ⟨?_, ?_⟩
  · rw [hlocks]
    cases e with
    | lock c => exact sound.locks.step lockCalls_lends named room may orderly
    | lease c =>
        rw [lockGives, List.append_nil]
        exact sound.locks.idle (Grants.Spares.step leaseCalls_spares may)
    | commit now cmd =>
        rw [lockGives, List.append_nil]
        exact sound.locks.commit room
          (fun o => foreign_lockOp fun hkind => may (.inl hkind)) now
  · rw [hleases]
    cases e with
    | lock c =>
        rw [leaseGives, List.append_nil]
        exact sound.leases.idle (Grants.Spares.step lockCalls_spares may)
    | lease c => exact sound.leases.step leaseCalls_lends named room may orderly
    | commit now cmd =>
        rw [leaseGives, List.append_nil]
        exact sound.leases.commit room
          (fun o => foreign_leaseOp fun hkind => may (.inr hkind)) now

theorem sound_run {me : String} {n : Nat} {w : Session} (sound : Sound me n [] w)
    (named : me ≠ "") {steps : List Step} (room : n + steps.length < 2 ^ 64)
    (run : Runs.Along (step me) (fun w e => w.May me e ∧ w.Orderly e) w steps) :
    Sound me (n + steps.length) steps (Runs.run (step me) w steps) := by
  refine Runs.invariant
    (fun past w => n + past.length < 2 ^ 64 → Sound me (n + past.length) past w)
    (fun _ => sound) ?_ run room
  intro past w e ih ok hroom
  rw [List.length_append, List.length_singleton, ← Nat.add_assoc] at hroom ⊢
  exact sound_step (ih (Nat.lt_of_succ_lt hroom)) named hroom ok.1 ok.2

/-- While no answer is heard, the cache only loses handles. -/
theorem lookup_run {me : String} {w : Session} {steps : List Step}
    (may : Runs.Along (step me) (May me) w steps)
    (quiet : ∀ i, .lock (.hear i) ∉ steps ∧ .lease (.hear i) ∉ steps) (name : String) (p : Nat) :
    ((Runs.run (step me) w steps).locks.cache.lookup name = some p →
        w.locks.cache.lookup name = some p) ∧
      ((Runs.run (step me) w steps).leases.cache.lookup name = some p →
        w.leases.cache.lookup name = some p) := by
  induction steps generalizing w with
  | nil => exact ⟨id, id⟩
  | cons e steps ih =>
      obtain ⟨hlocks, hleases⟩ := ih may.2 fun i =>
        (quiet i).imp (fun h hmem => h (List.mem_cons_of_mem _ hmem))
          fun h hmem => h (List.mem_cons_of_mem _ hmem)
      rw [Runs.run_cons]
      cases e with
      | lock c =>
          refine ⟨fun h => ?_, hleases⟩
          refine Grants.lookup_step may.1 (fun i hc => ?_) (hlocks h)
          exact (quiet i).1 (hc ▸ List.mem_cons_self)
      | lease c =>
          refine ⟨hlocks, fun h => ?_⟩
          refine Grants.lookup_step may.1 (fun i hc => ?_) (hleases h)
          exact (quiet i).2 (hc ▸ List.mem_cons_self)
      | commit now cmd => exact ⟨hlocks, hleases⟩

theorem sound_start {me : String} {n : Nat} {f : Fsm}
    (locks : ∃ r, lockHalf.register f = some r ∧ Counted lockHalf.policy n r)
    (leases : ∃ r, leaseHalf.register f = some r ∧ Counted leaseHalf.policy n r)
    (free : ∀ name g, f.lockGrant name = some g ∨ f.leaseGrant name = some g → g.holder ≠ me) :
    Sound me n [] (start f) := by
  obtain ⟨r, hr, counted⟩ := locks
  obtain ⟨r', hr', counted'⟩ := leases
  refine ⟨⟨r, hr, counted, Grants.knows_new fun name g hg => free name g (.inl ?_)⟩,
    ⟨r', hr', counted', Grants.knows_new fun name g hg => free name g (.inr ?_)⟩⟩
  · rw [Fsm.lockGrant_eq, lockHalf.grant_eq hr, hg]
  · rw [Fsm.leaseGrant_eq, leaseHalf.grant_eq hr', hg]

end Session

open Session in
/-- A client that is closed leaves no lock and no lease behind that it was ever told of, in
any interleaving of its calls with each other and with what others do, provided that no
answer to an attempt is heard while `Close` runs, that the releases of `Close` are served,
that the answers for one name are heard in the order in which they were given, and that a
handle is forgotten on an answer of the table only. What may stay are grants whose answers
got lost or are still on their way. -/
theorem close_leaves_untold_grants (e : Membership.Engine) (clock : Nat → Time)
    (log : List LogEntry) (me : String) (named : me ≠ "") (before closing : List Step)
    (free : ∀ name g, ((Fsm.fresh e).applyAll clock log).1.lockGrant name = some g ∨
      ((Fsm.fresh e).applyAll clock log).1.leaseGrant name = some g → g.holder ≠ me)
    (short : log.length + (before ++ closing).length < 2 ^ 64)
    (may : Runs.Along (step me) (May me) (start ((Fsm.fresh e).applyAll clock log).1)
      (before ++ closing))
    (orderly : Runs.Along (step me) Orderly (start ((Fsm.fresh e).applyAll clock log).1)
      (before ++ closing))
    (closes : (Runs.run (step me) (start ((Fsm.fresh e).applyAll clock log).1) before).Closes
      closing) :
    let w := Runs.run (step me) (start ((Fsm.fresh e).applyAll clock log).1) (before ++ closing)
    (∀ name g, w.fsm.lockGrant name = some g → g.holder = me → w.locks.Untold name g.token) ∧
      ∀ name g, w.fsm.leaseGrant name = some g → g.holder = me →
        w.leases.Untold name g.token := by
  intro w
  have hlocks := lockHalf.counted_applyAll (f := Fsm.fresh e) rfl
    (Register.counted_empty Locks.policy) clock log (by omega)
  have hleases := leaseHalf.counted_applyAll (f := Fsm.fresh e) rfl
    (Register.counted_empty Leases.policy) clock log (by omega)
  rw [Nat.zero_add] at hlocks hleases
  have sound : Sound me _ (before ++ closing) w :=
    sound_run (sound_start hlocks hleases free) named short (may.and orderly)
  have hlookup := lookup_run (Runs.along_append.mp may).2 closes.quiet
  rw [← Runs.run_append] at hlookup
  have lockGiven : ∀ name p, w.locks.cache.lookup name = some p →
      p ∈ (before ++ closing).flatMap lockGives := by
    intro name p hp
    obtain ⟨s, sub, hmem⟩ := closes.locks p ⟨name, (hlookup name p).1 hp⟩
    exact List.mem_flatMap.mpr ⟨_, List.mem_append_right _ hmem, List.mem_cons_self⟩
  have leaseGiven : ∀ name p, w.leases.cache.lookup name = some p →
      p ∈ (before ++ closing).flatMap leaseGives := by
    intro name p hp
    obtain ⟨s, sub, hmem⟩ := closes.leases p ⟨name, (hlookup name p).2 hp⟩
    exact List.mem_flatMap.mpr ⟨_, List.mem_append_right _ hmem, List.mem_cons_self⟩
  refine ⟨fun name g held => ?_, fun name g held => ?_⟩
  · rw [Fsm.lockGrant_eq] at held
    exact sound.locks.untold lockGiven held
  · rw [Fsm.leaseGrant_eq] at held
    exact sound.leases.untold leaseGiven held

/-- The answer to a `TryLock` of `job` gets lost and its repetition is heard; the answer to a
`Lease` gets lost. -/
def hasty : List Step :=
  [.lock (.ask soleLocks (committedAt 7) false "job" 0 10), .lock (.lose 0),
    .lock (.ask soleLocks (committedAt 8) false "job" 0 10),
    .lease (.ask soleLeases (committedAt 9) false "job" 0 10), .lock (.hear 0), .lease (.lose 0)]

def closing : List Step := [.lock (.giveBack 0 soleLocks (committedAt 10)), .lock (.settle 0)]

open Session in
omit [Unicode] in
theorem close_leaves_untold_grants_hasty : letI := Unicode.ascii
    let w := Runs.run (step "sdk") (start ((Fsm.fresh soleMembers).applyAll (fun _ => 0) []).1)
      (hasty ++ closing)
    w.fsm.lockGrant "job" = none ∧
      ∃ g, w.fsm.leaseGrant "job" = some g ∧ w.leases.Untold "job" g.token := by
  let := Unicode.ascii
  have hlocks : lockCalls.route soleLocks "job" = .serve := by decide +kernel
  have hleases : leaseCalls.route soleLeases "job" = .serve := by decide +kernel
  have may : Runs.Along (step "sdk") (May "sdk")
      (start ((Fsm.fresh soleMembers).applyAll (fun _ => 0) []).1) (hasty ++ closing) :=
    ⟨⟨rfl, hlocks⟩, show 0 < _ by decide +kernel, ⟨rfl, hlocks⟩, ⟨rfl, hleases⟩,
      show 0 < _ by decide +kernel, show 0 < _ by decide +kernel,
      ⟨⟨"job", "sdk", 1, Time.ofUnixMilli 10, false, true⟩, by decide +kernel, rfl, hlocks⟩,
      show 0 < _ by decide +kernel, trivial⟩
  have orderly : Runs.Along (step "sdk") Orderly
      (start ((Fsm.fresh soleMembers).applyAll (fun _ => 0) []).1) (hasty ++ closing) :=
    ⟨trivial, trivial, trivial, trivial, fun _ _ _ _ he => absurd he List.not_mem_nil, trivial,
      rfl, trivial, trivial⟩
  have free : ∀ name g, ((Fsm.fresh soleMembers).applyAll (fun _ => 0) []).1.lockGrant name =
      some g ∨ ((Fsm.fresh soleMembers).applyAll (fun _ => 0) []).1.leaseGrant name = some g →
      g.holder ≠ "sdk" := by
    rintro name g (hg | hg)
    · cases hg
    · cases hg
  have sound := sound_run (sound_start ⟨_, rfl, Register.counted_empty Locks.policy⟩
    ⟨_, rfl, Register.counted_empty Leases.policy⟩ free) (by decide) (by decide)
    ((Runs.along_append.mp may).1.and (Runs.along_append.mp orderly).1)
  obtain ⟨⟨_, -, -, locks⟩, ⟨_, -, -, leases⟩⟩ := sound
  have hlock : (Runs.run (step "sdk") (start ((Fsm.fresh soleMembers).applyAll (fun _ => 0) []).1)
      (hasty ++ closing)).fsm.lockGrant "job" = none := by decide +kernel
  have hlease : (Runs.run (step "sdk") (start ((Fsm.fresh soleMembers).applyAll (fun _ => 0) []).1)
      (hasty ++ closing)).fsm.leaseGrant "job" =
        some ⟨"sdk", 1, ⟨15000000000, 15000000000⟩⟩ := by decide +kernel
  refine ⟨hlock, _, hlease, ?_⟩
  refine (close_leaves_untold_grants soleMembers (fun _ => 0) [] "sdk" (by decide) hasty closing
    free (by decide) may orderly ⟨?_, ?_, ?_⟩).2 "job" _ hlease rfl
  · rintro p ⟨name, hp⟩
    obtain ⟨h, hh, -⟩ := locks.named name p hp
    have hone : p < 1 := Nat.lt_of_lt_of_le (Cache.lt_of_handle hh) (by decide +kernel)
    cases Nat.lt_one_iff.mp hone
    exact ⟨_, _, List.mem_cons_self⟩
  · rintro p ⟨name, hp⟩
    obtain ⟨h, hh, -⟩ := leases.named name p hp
    have hnone : p < 0 := Nat.lt_of_lt_of_le (Cache.lt_of_handle hh) (by decide +kernel)
    exact absurd hnone (Nat.not_lt_zero p)
  · intro i
    simp [closing]

end Clusdr.Sdk
