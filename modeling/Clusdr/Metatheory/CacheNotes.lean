import Clusdr.Core.SdkCalls
import Clusdr.Fencing.Notes
import Clusdr.Metatheory.ClientCache

/-!
The cache of a client as its notes on the grants it has. Loops and the beginning of a
release leave the notes alone, an answer that is heard is written down, and the end of a
release crosses out what was given back.
-/

namespace Clusdr.Sdk

open Fencing (Notes Op Register)
open Fencing.Register (Behind Counted Foreign Returned)

namespace Cache

/-- What never changes of a handle. -/
def ident (h : Handle) : String × String × UInt64 := (h.name, h.holder, h.token)

/-- The token cached for a name. -/
def token (c : Cache) (name : String) : Option UInt64 :=
  ((c.lookup name).bind c.handle).map Handle.token

/-- The caches hold the same handles under the same names, up to deadlines and loops. -/
structure Same (c c' : Cache) : Prop where
  held : c'.held = c.held
  handle : ∀ q, (c'.handle q).map ident = (c.handle q).map ident

theorem Same.get {c c' : Cache} (same : Same c c') {q : Nat} {h : Handle}
    (hq : c'.handle q = some h) : ∃ h', c.handle q = some h' ∧ ident h' = ident h := by
  have hmap := same.handle q
  rw [hq, Option.map_some] at hmap
  exact Option.map_eq_some_iff.mp hmap.symm

theorem Same.symm {c c' : Cache} (same : Same c c') : Same c' c :=
  ⟨same.held.symm, fun q => (same.handle q).symm⟩

theorem Same.token {c c' : Cache} (same : Same c c') (name : String) :
    c'.token name = c.token name := by
  have hfields : ∀ o : Option Handle, o.map Handle.token = (o.map ident).map (·.2.2) := by
    intro o
    rw [Option.map_map]
    rfl
  rw [Cache.token, Cache.token, Option.map_bind, Option.map_bind, lookup, lookup, same.held]
  congr 1
  funext q
  rw [Function.comp_apply, Function.comp_apply, hfields, hfields, same.handle]

theorem same_update (c : Cache) (p : Nat) (f : Handle → Handle)
    (fixed : ∀ h, ident (f h) = ident h) (releasing : List Nat) :
    Same c { c.update p f with releasing } := by
  refine ⟨rfl, fun q => ?_⟩
  have hq : Cache.handle { c.update p f with releasing } q = (c.update p f).handle q := rfl
  rw [hq, handle_update, Option.map_map]
  congr 1
  funext h
  rw [Function.comp_apply]
  split
  · exact fixed h
  · rfl

theorem same_releaseStart (c : Cache) (p : Nat) : Same c (c.step (.releaseStart p)) :=
  c.same_update p Handle.stopRenew (fun _ => rfl) _

theorem same_loop (c : Cache) {e : Event}
    (loop : match e with
      | .tick _ _ | .loopDone _ | .cancelLife _ | .renewed _ _ => True
      | _ => False) : Same c (c.step e) := by
  cases e with
  | tick p answer =>
      refine c.same_update p (·.ticked answer) (fun h => ?_) c.releasing
      obtain ⟨hname, hholder, htoken, -⟩ := h.ticked_fixed answer
      simp only [ident, hname, hholder, htoken]
  | loopDone p => exact c.same_update p ({ · with running := false }) (fun _ => rfl) c.releasing
  | cancelLife p => exact c.same_update p Handle.stopRenew (fun _ => rfl) c.releasing
  | renewed p answer =>
      refine c.same_update p (·.renewedBy answer) (fun h => ?_) c.releasing
      unfold Handle.renewedBy
      split
      · obtain ⟨hname, hholder, htoken, -⟩ := h.extended_fixed ‹Int64›
        simp only [ident, hname, hholder, htoken]
      · rfl
  | call | granted | releaseStart | releaseEnd => exact loop.elim

/-- Adopting an answer: a new handle for the name, unless its grant is cached. -/
theorem adopt_cases (c : Cache) (name : String) (resp : GrantAnswer) :
    (c.adopt name resp = c ∧ c.token name = some resp.fencingToken) ∨
      c.adopt name resp =
        { c with
          held := c.held.set name c.handles.length
          handles := c.handles ++ [.ofAnswer name resp] } := by
  unfold adopt token
  split
  · rename_i existing hexisting
    split
    · rename_i htoken
      exact .inl ⟨rfl, by rw [hexisting, Option.map_some, htoken]⟩
    · exact .inr rfl
  · exact .inr rfl

/-- Every name in the cache leads to a handle of that name. -/
def Named (c : Cache) : Prop :=
  ∀ name p, c.lookup name = some p → ∃ h, c.handle p = some h ∧ h.name = name

theorem Named.of_same {c c' : Cache} (named : c.Named) (same : Same c c') : c'.Named := by
  intro name p hp
  rw [lookup, same.held] at hp
  obtain ⟨h, hh, hname⟩ := named name p hp
  obtain ⟨h', hh', hident⟩ := same.symm.get hh
  exact ⟨h', hh', (congrArg Prod.fst hident).trans hname⟩

theorem lookup_adopted (c : Cache) (name : String) (resp : GrantAnswer) (n : String) :
    Cache.lookup { c with
        held := c.held.set name c.handles.length
        handles := c.handles ++ [.ofAnswer name resp] } n =
      if n = name then some c.handles.length else c.lookup n :=
  Go.Map.get_set _ _ _ _

theorem handle_adopted (c : Cache) (name : String) (resp : GrantAnswer) (q : Nat) :
    Cache.handle { c with
        held := c.held.set name c.handles.length
        handles := c.handles ++ [.ofAnswer name resp] } q =
      if q = c.handles.length then some (.ofAnswer name resp) else c.handle q := by
  show (c.handles ++ [_])[q]? = _
  rcases Nat.lt_trichotomy q c.handles.length with hlt | rfl | hgt
  · rw [List.getElem?_append_left hlt, if_neg (Nat.ne_of_lt hlt)]
    rfl
  · simp
  · rw [if_neg (Nat.ne_of_gt hgt), handle, List.getElem?_eq_none (by simp; omega),
      List.getElem?_eq_none (Nat.le_of_lt hgt)]

theorem handle_adopt {c : Cache} {name : String} {resp : GrantAnswer} {q : Nat} {h : Handle}
    (hq : c.handle q = some h) : (c.adopt name resp).handle q = some h := by
  rcases c.adopt_cases name resp with ⟨heq, -⟩ | heq
  · rw [heq, hq]
  · rw [heq, handle_adopted, if_neg (Nat.ne_of_lt (lt_of_handle hq)), hq]

theorem mem_adopt {c : Cache} {name : String} {resp : GrantAnswer} {h : Handle}
    (hh : h ∈ (c.adopt name resp).handles) : h ∈ c.handles ∨ h = .ofAnswer name resp := by
  rcases c.adopt_cases name resp with ⟨heq, -⟩ | heq
  · rw [heq] at hh
    exact .inl hh
  · rw [heq] at hh
    exact (List.mem_append.mp hh).imp_right List.mem_singleton.mp

theorem named_adopt {c : Cache} (named : c.Named) (name : String) (resp : GrantAnswer) :
    (c.adopt name resp).Named := by
  intro n p hp
  rcases c.adopt_cases name resp with ⟨heq, -⟩ | heq
  · rw [heq] at hp ⊢
    exact named n p hp
  · rw [heq, lookup_adopted] at hp
    rw [heq]
    split at hp
    · rename_i hn
      cases hp
      exact ⟨_, (handle_adopted ..).trans (if_pos rfl), hn.symm⟩
    · obtain ⟨h, hh, hname⟩ := named n p hp
      exact ⟨h, (handle_adopted ..).trans ((if_neg (Nat.ne_of_lt (lt_of_handle hh))).trans hh),
        hname⟩

theorem token_adopt {c : Cache} (named : c.Named) (name : String) (resp : GrantAnswer) :
    (c.adopt name resp).token name = some resp.fencingToken ∧
      ∀ n, n ≠ name → (c.adopt name resp).token n = c.token n := by
  rcases c.adopt_cases name resp with ⟨heq, htoken⟩ | heq
  · rw [heq]
    exact ⟨htoken, fun _ _ => rfl⟩
  · rw [heq]
    constructor
    · rw [token, lookup_adopted, if_pos rfl, Option.bind_some, handle_adopted, if_pos rfl]
      rfl
    · intro n hn
      rw [token, lookup_adopted, if_neg hn, token]
      cases hp : c.lookup n with
      | none => rfl
      | some p =>
          obtain ⟨h, hh, -⟩ := named n p hp
          rw [Option.bind_some, Option.bind_some, handle_adopted,
            if_neg (Nat.ne_of_lt (lt_of_handle hh))]

/-- The end of a release: the names stay but for the one it forgets. -/
theorem releaseEnd_cases (c : Cache) (p : Nat) (answer : Except Rpc.Status Bool) :
    (c.step (.releaseEnd p answer)).held = c.held ∨
      ∃ h, c.handle p = some h ∧ forgets answer = true ∧ c.token h.name = some h.token ∧
        (c.step (.releaseEnd p answer)).held = c.held.delete h.name := by
  simp only [step]
  split
  · rename_i h hh
    split
    · rename_i hforgets
      unfold forget
      split
      · rename_i l hl
        split
        · rename_i htoken
          refine .inr ⟨h, hh, hforgets, ?_, rfl⟩
          exact (congrArg (Option.map Handle.token) hl).trans (congrArg some htoken)
        · exact .inl rfl
      · exact .inl rfl
    · exact .inl rfl
  · exact .inl rfl

theorem handle_releaseEnd (c : Cache) (p : Nat) (answer : Except Rpc.Status Bool) (q : Nat) :
    (c.step (.releaseEnd p answer)).handle q = c.handle q := by
  rw [handle, (c.releaseEnd_fixed p answer).1]
  rfl

end Cache

namespace Grants

/-- An answer on its way, as the notes have it. -/
def sent (e : String × GrantAnswer) : String × UInt64 := (e.1, e.2.fencingToken)

/-- What the client has noted and will hear, and what it will not. -/
def notes (g : Grants) : Notes String where
  latest := g.cache.token
  sent := g.granted.map sent
  unheard := g.unheard

/-- The client `me` knows its grants of the table `r`; `given` are the handles for which a
release was served. -/
structure Knows (me : String) (given : List Nat) (r : Register String String Lifetime)
    (g : Grants) : Prop where
  accurate : Notes.Accurate me r g.notes
  named : g.cache.Named
  handles : ∀ p h, g.cache.handle p = some h → h.holder = me ∧ Behind h.name h.token r
  /-- A handle that is not cached any more has lost its grant. -/
  ended : ∀ p h, g.cache.handle p = some h →
    g.cache.token h.name = some h.token ∨ Returned me h.name h.token r
  granted : ∀ e ∈ g.granted, e.2.holder = me
  returned : ∀ e ∈ g.returned, Cache.forgets e.2 = true → e.1 ∈ given
  given : ∀ p ∈ given, ∃ h, g.cache.handle p = some h ∧ Returned me h.name h.token r

variable {me : String} {given : List Nat} {r : Register String String Lifetime} {g : Grants}

theorem knows_new (free : ∀ name u, r.grants.get name = some u → u.holder ≠ me) :
    Knows me [] r new where
  accurate := by
    have htrail : ∀ name, new.notes.trail name = [] := fun _ => rfl
    refine ⟨fun name t ht => ?_, fun name => ?_, fun name u held own => ?_⟩
    · rw [htrail] at ht
      cases ht
    · rw [htrail]
      exact .nil
    · exact absurd own (free name u held)
  named name p hp := by simp [new, Cache.empty, Cache.lookup] at hp
  handles p h hp := by simp [new, Cache.empty, Cache.handle] at hp
  ended p h hp := by simp [new, Cache.empty, Cache.handle] at hp
  granted e he := by cases he
  returned e he := by cases he
  given p hp := by cases hp

/-- Renewals and the beginning of a release change nothing the client knows. -/
theorem Knows.same {c : Cache} (knows : Knows me given r g) (same : Cache.Same g.cache c)
    {returned : List (Nat × Except Rpc.Status Bool)}
    (answers : ∀ e ∈ returned, Cache.forgets e.2 = true → e.1 ∈ given) :
    Knows me given r { g with cache := c, returned } where
  accurate := by
    have hnotes : notes { g with cache := c, returned } = g.notes := by
      simp only [notes, Notes.mk.injEq, and_self, and_true]
      funext name
      exact same.token name
    rw [hnotes]
    exact knows.accurate
  named := knows.named.of_same same
  handles p h hp := by
    obtain ⟨h', hh', hident⟩ := same.get hp
    simp only [Cache.ident, Prod.mk.injEq] at hident
    obtain ⟨hname, hholder, htoken⟩ := hident
    exact hname ▸ hholder ▸ htoken ▸ knows.handles p h' hh'
  ended p h hp := by
    obtain ⟨h', hh', hident⟩ := same.get hp
    simp only [Cache.ident, Prod.mk.injEq] at hident
    obtain ⟨hname, -, htoken⟩ := hident
    have hended := knows.ended p h' hh'
    rwa [hname, htoken, ← same.token] at hended
  granted := knows.granted
  returned := answers
  given p hp := by
    obtain ⟨h, hh, hreturned⟩ := knows.given p hp
    obtain ⟨h', hh', hident⟩ := same.symm.get hh
    simp only [Cache.ident, Prod.mk.injEq] at hident
    obtain ⟨hname, -, htoken⟩ := hident
    exact ⟨h', hh', by rwa [hname, htoken]⟩

theorem sent_split {i : Nat} {name : String} {resp : GrantAnswer}
    (hi : g.granted[i]? = some (name, resp)) :
    g.notes.sent = (g.granted.take i).map sent ++
        (name, resp.fencingToken) :: (g.granted.drop (i + 1)).map sent ∧
      (g.granted.eraseIdx i).map sent =
        (g.granted.take i).map sent ++ (g.granted.drop (i + 1)).map sent := by
  obtain ⟨hlt, hx⟩ := List.getElem?_eq_some_iff.mp hi
  have hsplit : g.granted = g.granted.take i ++ (name, resp) :: g.granted.drop (i + 1) := by
    rw [← hx, List.getElem_cons_drop, List.take_append_drop]
  refine ⟨(congrArg (List.map sent) hsplit).trans List.map_append, ?_⟩
  rw [List.eraseIdx_eq_take_drop_succ, List.map_append]

/-- A cached grant ends before the answer for another one of its name is heard. -/
theorem Knows.superseded (knows : Knows me given r g) {i : Nat} {name : String}
    {resp : GrantAnswer} (hi : g.granted[i]? = some (name, resp)) {t : UInt64}
    (cached : g.cache.token name = some t) (other : t ≠ resp.fencingToken) :
    Returned me name t r := by
  have hsent : resp.fencingToken ∈ (g.notes.sent.filter (·.1 = name)).map Prod.snd := by
    refine List.mem_map.mpr ⟨(name, resp.fencingToken), List.mem_filter.mpr ⟨?_, by simp⟩, rfl⟩
    exact List.mem_map.mpr ⟨_, List.mem_of_getElem? hi, rfl⟩
  have hcached : t ∈ (g.notes.latest name).toList := Option.mem_toList.mpr cached
  have hle := (List.pairwise_append.mp (knows.accurate.ordered name)).2.2 _ hcached _ hsent
  have hnew := knows.accurate.past name _ (List.mem_append_right _ hsent)
  refine ⟨knows.accurate.past name t (List.mem_append_left _ hcached), fun u held own => ?_⟩
  exact other (UInt64.le_antisymm hle (own.2 ▸ hnew.2 u held))

/-- The answers for a name are heard in the order in which they were given. -/
def First (g : Grants) (i : Nat) : Prop :=
  ∀ name resp, g.granted[i]? = some (name, resp) → ∀ e ∈ g.granted.take i, e.1 ≠ name

theorem Knows.hear (knows : Knows me given r g) {i : Nat} (first : g.First i) {name : String}
    {resp : GrantAnswer} (hi : g.granted[i]? = some (name, resp)) :
    Knows me given r { g with
      cache := g.cache.adopt name resp, granted := g.granted.eraseIdx i } := by
  obtain ⟨hsent, hrest⟩ := sent_split hi
  obtain ⟨htoken, hothers⟩ := Cache.token_adopt knows.named name resp
  have hfirst : ∀ e ∈ (g.granted.take i).map sent, e.1 ≠ name := by
    intro e he
    obtain ⟨e', he', rfl⟩ := List.mem_map.mp he
    exact first name resp hi e' he'
  have hmem := List.mem_of_getElem? hi
  have hbehind : Behind name resp.fencingToken r := by
    refine knows.accurate.past name _ (List.mem_append_right _ ?_)
    rw [hsent]
    simp
  refine ⟨Notes.accurate_hear knows.accurate hsent hfirst htoken hothers hrest rfl,
    Cache.named_adopt knows.named name resp, fun p h hp => ?_, fun p h hp => ?_,
    fun e he => knows.granted e (List.mem_of_mem_eraseIdx he), knows.returned, fun p hp => ?_⟩
  · rcases Cache.mem_adopt (List.mem_of_getElem? hp) with hold | rfl
    · obtain ⟨q, hq⟩ := List.mem_iff_getElem?.mp hold
      exact knows.handles q h hq
    · exact ⟨knows.granted _ hmem, hbehind⟩
  · rcases Cache.mem_adopt (List.mem_of_getElem? hp) with hold | rfl
    · obtain ⟨q, hq⟩ := List.mem_iff_getElem?.mp hold
      by_cases hname : h.name = name
      · by_cases hnew : h.token = resp.fencingToken
        · exact .inl (by rw [hname, hnew]; exact htoken)
        · refine .inr ((knows.ended q h hq).elim (fun cached => ?_) id)
          rw [hname] at cached ⊢
          exact knows.superseded hi cached hnew
      · exact (knows.ended q h hq).imp_left (hothers _ hname).trans
    · exact .inl htoken
  · obtain ⟨h, hh, hreturned⟩ := knows.given p hp
    exact ⟨h, Cache.handle_adopt hh, hreturned⟩

theorem Knows.lose (knows : Knows me given r g) {i : Nat} {name : String} {resp : GrantAnswer}
    (hi : g.granted[i]? = some (name, resp)) :
    Knows me given r { g with
      granted := g.granted.eraseIdx i, unheard := (name, resp.fencingToken) :: g.unheard } := by
  obtain ⟨hsent, hrest⟩ := sent_split hi
  exact { knows with
    accurate := Notes.accurate_lose knows.accurate hsent rfl hrest rfl
    granted := fun e he => knows.granted e (List.mem_of_mem_eraseIdx he) }

theorem Knows.settle (knows : Knows me given r g) {i p : Nat} {answer : Except Rpc.Status Bool}
    (hi : g.returned[i]? = some (p, answer)) :
    Knows me given r { g with
      cache := g.cache.step (.releaseEnd p answer), returned := g.returned.eraseIdx i } := by
  have hhandle := g.cache.handle_releaseEnd p answer
  have hanswers : ∀ e ∈ g.returned.eraseIdx i, Cache.forgets e.2 = true → e.1 ∈ given :=
    fun e he => knows.returned e (List.mem_of_mem_eraseIdx he)
  rcases g.cache.releaseEnd_cases p answer with hheld | ⟨h, hh, hforgets, htoken, hheld⟩
  · exact knows.same ⟨hheld, fun q => by rw [hhandle]⟩ hanswers
  · have hlookup : ∀ name, (g.cache.step (.releaseEnd p answer)).lookup name =
        if name = h.name then none else g.cache.lookup name := by
      intro name
      rw [Cache.lookup, hheld, Go.Map.get_delete]
      rfl
    have htokens : ∀ name, (g.cache.step (.releaseEnd p answer)).token name =
        if name = h.name then none else g.cache.token name := by
      intro name
      have hhandles : (g.cache.step (.releaseEnd p answer)).handle = g.cache.handle :=
        funext hhandle
      rw [Cache.token, hlookup, hhandles]
      split <;> rfl
    -- The answer comes from the table, so the grant is not there any more.
    obtain ⟨h', hh', hreturned⟩ :=
      knows.given p (knows.returned _ (List.mem_of_getElem? hi) hforgets)
    cases hh.symm.trans hh'
    refine ⟨?_, fun name q hq => ?_, fun q l hq => ?_, fun q l hq => ?_, knows.granted, hanswers,
      fun q hq => ?_⟩
    · refine Notes.accurate_forget knows.accurate (fun name t ht => ?_) (fun name hn => ?_) rfl rfl
      · have hnew := htokens name
        split at hnew
        · rename_i heq
          subst heq
          cases htoken.symm.trans ht
          exact .inr ⟨hnew, hreturned⟩
        · exact .inl (hnew.trans ht)
      · refine (htokens name).trans ?_
        split
        · rfl
        · exact hn
    · rw [hlookup] at hq
      split at hq
      · cases hq
      · exact (hhandle q).symm ▸ knows.named name q hq
    · exact knows.handles q l ((hhandle q).symm.trans hq)
    · by_cases hname : l.name = h.name
      · refine .inr ((knows.ended q l ((hhandle q).symm.trans hq)).elim (fun cached => ?_) id)
        rw [hname, htoken] at cached
        rwa [hname, ← Option.some.inj cached]
      · exact (knows.ended q l ((hhandle q).symm.trans hq)).imp_left
          ((htokens l.name).trans (if_neg hname)).trans
    · obtain ⟨l, hl, hgone⟩ := knows.given q hq
      exact ⟨l, (hhandle q).trans hl, hgone⟩

theorem Knows.more (knows : Knows me given r g) {unheard : List (String × UInt64)}
    (more : g.unheard ⊆ unheard) : Knows me given r { g with unheard } :=
  { knows with
    accurate := knows.accurate.shrink (fun _ => List.Sublist.refl _)
      (fun _ _ _ _ h => .inl h) more }

section Moves

variable {policy : Fencing.Policy String String} {n : Nat} (counted : Counted policy n r)
  (room : n + 1 < 2 ^ 64)

include counted room

theorem Knows.foreign (knows : Knows me given r g) {op : Op String String Lifetime}
    (foreign : Foreign me op) : Knows me given (Register.step policy r op).1 g :=
  { knows with
    accurate := Notes.accurate_foreign counted room knows.accurate foreign
    handles := fun p h hp => (knows.handles p h hp).imp_right (Register.behind_step counted room op)
    ended := fun p h hp => (knows.ended p h hp).imp_right (Register.returned_step counted room op)
    given := fun p hp => (knows.given p hp).imp fun _ =>
      And.imp_right (Register.returned_step counted room op) }

theorem Knows.told (knows : Knows me given r g) {name : String} {d : Lifetime} {t : UInt64}
    (taken : (Register.step policy r (.take name me d)).2 = .taken t) (deadlineUnixMs : Int64) :
    Knows me given (Register.step policy r (.take name me d)).1
      { g with granted := g.granted ++ [(name, ⟨me, t, deadlineUnixMs⟩)] } where
  accurate := Notes.accurate_taken counted room knows.accurate taken rfl List.map_append rfl
  named := knows.named
  handles p h hp := (knows.handles p h hp).imp_right (Register.behind_step counted room _)
  ended p h hp := (knows.ended p h hp).imp_right (Register.returned_step counted room _)
  granted e he := by
    rcases List.mem_append.mp he with he | he
    · exact knows.granted e he
    · rw [List.mem_singleton.mp he]
  returned := knows.returned
  given p hp := (knows.given p hp).imp fun _ =>
    And.imp_right (Register.returned_step counted room _)

theorem Knows.untold (knows : Knows me given r g) {name : String} {d : Lifetime}
    {unheard : List (String × UInt64)} (more : g.unheard ⊆ unheard)
    (told : ∀ u, (Register.step policy r (.take name me d)).1.grants.get name = some u →
      u.holder = me → (name, u.token) ∈ unheard) :
    Knows me given (Register.step policy r (.take name me d)).1 { g with unheard } where
  accurate := Notes.accurate_untold counted room knows.accurate rfl rfl more told
  named := knows.named
  handles p h hp := (knows.handles p h hp).imp_right (Register.behind_step counted room _)
  ended p h hp := (knows.ended p h hp).imp_right (Register.returned_step counted room _)
  granted := knows.granted
  returned := knows.returned
  given p hp := (knows.given p hp).imp fun _ =>
    And.imp_right (Register.returned_step counted room _)

/-- A served release ends the grant of its handle, whatever it answers. -/
theorem Knows.giveBack (knows : Knows me given r g) {p : Nat} {h : Handle}
    (hp : g.cache.handle p = some h) (answer : Except Rpc.Status Bool) :
    Knows me (given ++ [p]) (Register.step policy r (.drop h.name h.holder h.token)).1
      { g with
        cache := g.cache.step (.releaseStart p), returned := g.returned ++ [(p, answer)] } := by
  have hmoved : Knows me given (Register.step policy r (.drop h.name h.holder h.token)).1 g :=
    knows.foreign counted room trivial
  obtain ⟨hholder, hbehind⟩ := knows.handles p h hp
  have hgiven : Knows me (given ++ [p])
      (Register.step policy r (.drop h.name h.holder h.token)).1 g :=
    { hmoved with
      returned := fun e he hforgets => List.mem_append_left _ (hmoved.returned e he hforgets)
      given := fun q hq => by
        rcases List.mem_append.mp hq with hq | hq
        · exact hmoved.given q hq
        · rw [List.mem_singleton.mp hq]
          exact ⟨h, hp, hholder ▸ Register.returned_drop counted room hbehind⟩ }
  refine hgiven.same (g.cache.same_releaseStart p) fun e he hforgets => ?_
  rcases List.mem_append.mp he with he | he
  · exact hgiven.returned e he hforgets
  · rw [List.mem_singleton.mp he]
    exact List.mem_append_right _ List.mem_cons_self

end Moves

end Grants

end Clusdr.Sdk
