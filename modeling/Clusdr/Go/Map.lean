import Mathlib.Data.Finmap
import Mathlib.Data.Finset.Sort

/-!
Go maps. A map is its finite graph, so two maps with the same entries are the
same map; the order in which a `range` loop visits the entries is not part of
the value. Code that keeps that order visible is stated for every order
(`Ranges`); code that sorts what it collected is independent of it (`sorted`).
-/

namespace Go

abbrev Map (K V : Type) := Finmap (fun _ : K => V)

namespace Map

variable {K V W : Type} [DecidableEq K]

def get (m : Map K V) (k : K) : Option V := Finmap.lookup k m

def set (m : Map K V) (k : K) (v : V) : Map K V := Finmap.insert k v m

def delete (m : Map K V) (k : K) : Map K V := Finmap.erase k m

def len (m : Map K V) : Nat := m.keys.card

@[ext] theorem ext {m n : Map K V} (h : ∀ k, m.get k = n.get k) : m = n :=
  Finmap.ext_lookup h

@[simp] theorem get_empty (k : K) : get (∅ : Map K V) k = none := Finmap.lookup_empty k

theorem get_set (m : Map K V) (k j : K) (v : V) :
    (m.set k v).get j = if j = k then some v else m.get j := by
  by_cases h : j = k
  · subst h
    simp only [get, set, Finmap.lookup_insert, ite_true]
  · simp only [get, set, Finmap.lookup_insert_of_ne _ h, h, ite_false]

@[simp] theorem get_set_self (m : Map K V) (k : K) (v : V) : (m.set k v).get k = some v := by
  simp [get_set]

theorem get_delete (m : Map K V) (k j : K) :
    (m.delete k).get j = if j = k then none else m.get j := by
  by_cases h : j = k
  · subst h
    simp only [get, delete, Finmap.lookup_erase, ite_true]
  · simp only [get, delete, Finmap.lookup_erase_ne h, h, ite_false]

@[simp] theorem get_delete_self (m : Map K V) (k : K) : (m.delete k).get k = none := by
  simp [get_delete]

theorem mem_keys_iff (m : Map K V) (k : K) : k ∈ m.keys ↔ ∃ v, m.get k = some v := by
  rw [Finmap.mem_keys, Finmap.mem_iff]
  rfl

theorem get_eq_some_iff (m : Map K V) (k : K) (v : V) :
    m.get k = some v ↔ (⟨k, v⟩ : Sigma fun _ : K => V) ∈ m.entries :=
  Finmap.lookup_eq_some_iff

/-! Value-wise maps: erasing a field, or rewriting every entry in a loop. -/

def mapValues (f : K → V → W) (m : Map K V) : Map K W where
  entries := m.entries.map fun e => ⟨e.1, f e.1 e.2⟩
  nodupKeys := by
    rw [← Multiset.nodup_keys, Multiset.keys, Multiset.map_map]
    exact Multiset.nodup_keys.mpr m.nodupKeys

theorem get_mapValues (f : K → V → W) (m : Map K V) (k : K) :
    (m.mapValues f).get k = (m.get k).map (f k) := by
  apply Option.ext
  intro w
  rw [get_eq_some_iff, Option.map_eq_some_iff]
  constructor
  · intro h
    obtain ⟨⟨j, v⟩, hmem, he⟩ := Multiset.mem_map.mp h
    cases he
    exact ⟨v, (get_eq_some_iff m _ v).mpr hmem, rfl⟩
  · rintro ⟨v, hv, rfl⟩
    exact Multiset.mem_map.mpr ⟨⟨k, v⟩, (get_eq_some_iff m k v).mp hv, rfl⟩

theorem keys_mapValues (f : K → V → W) (m : Map K V) : (m.mapValues f).keys = m.keys := by
  ext k
  simp only [mem_keys_iff, get_mapValues, Option.map_eq_some_iff]
  constructor
  · rintro ⟨_, v, hv, _⟩; exact ⟨v, hv⟩
  · rintro ⟨v, hv⟩; exact ⟨f k v, v, hv, rfl⟩

@[simp] theorem len_mapValues (f : K → V → W) (m : Map K V) : (m.mapValues f).len = m.len := by
  rw [len, keys_mapValues, len]

theorem keys_set (m : Map K V) (k : K) (v : V) : (m.set k v).keys = insert k m.keys := by
  ext j
  simp only [mem_keys_iff, Finset.mem_insert, get_set]
  by_cases hj : j = k
  · simp [hj]
  · simp [hj]

theorem len_set_le (m : Map K V) (k : K) (v : V) : (m.set k v).len ≤ m.len + 1 := by
  rw [len, len, keys_set]
  exact Finset.card_insert_le _ _

theorem len_set_of_get {m : Map K V} {k : K} {v : V} (h : m.get k = some v) (w : V) :
    (m.set k w).len = m.len := by
  rw [len, len, keys_set, Finset.insert_eq_of_mem ((mem_keys_iff m k).mpr ⟨v, h⟩)]

theorem len_delete_le (m : Map K V) (k : K) : (m.delete k).len ≤ m.len := by
  refine Finset.card_le_card fun j hj => ?_
  obtain ⟨v, hv⟩ := (mem_keys_iff _ j).mp hj
  rw [get_delete] at hv
  split at hv
  · cases hv
  · exact (mem_keys_iff m j).mpr ⟨v, hv⟩

theorem delete_set_of_get_eq_none {m : Map K V} {k : K} (h : m.get k = none) (v : V) :
    (m.set k v).delete k = m := by
  refine Finmap.ext_lookup fun j => ?_
  change ((m.set k v).delete k).get j = m.get j
  rw [get_delete, get_set]
  by_cases hj : j = k
  · rw [if_pos hj, hj, h]
  · rw [if_neg hj, if_neg hj]

theorem set_of_get {m : Map K V} {k : K} {v : V} (h : m.get k = some v) : m.set k v = m := by
  apply ext
  intro j
  rw [get_set]
  by_cases hj : j = k
  · rw [if_pos hj, hj, h]
  · rw [if_neg hj]

theorem mapValues_mapValues {X : Type} (g : K → W → X) (f : K → V → W) (m : Map K V) :
    (m.mapValues f).mapValues g = m.mapValues fun k v => g k (f k v) := by
  apply ext
  intro k
  simp only [get_mapValues, Option.map_map]
  rfl

theorem mapValues_set (f : K → V → W) (m : Map K V) (k : K) (v : V) :
    (m.set k v).mapValues f = (m.mapValues f).set k (f k v) := by
  apply ext
  intro j
  by_cases h : j = k
  · subst h; simp [get_mapValues]
  · simp [get_mapValues, get_set, h]

theorem mapValues_delete (f : K → V → W) (m : Map K V) (k : K) :
    (m.delete k).mapValues f = (m.mapValues f).delete k := by
  apply ext
  intro j
  by_cases h : j = k
  · subst h; simp [get_mapValues]
  · simp [get_mapValues, get_delete, h]

omit [DecidableEq K] in
/-! Iteration. -/

def values (m : Map K V) : Multiset V := m.entries.map Sigma.snd

/-- `vs` is the sequence of values some `range` loop over the map visits. -/
def Ranges (m : Map K V) (vs : List V) : Prop := (vs : Multiset V) = m.values

/-- Every value carries its own key. -/
def Keyed (key : V → K) (m : Map K V) : Prop := ∀ k v, m.get k = some v → key v = k

theorem Keyed.empty (key : V → K) : Keyed key (∅ : Map K V) := by
  intro k v h
  simp at h

theorem Keyed.set {m : Map K V} {key : V → K} {k : K} {v : V} (hm : m.Keyed key)
    (hv : key v = k) : (m.set k v).Keyed key := by
  intro j u hj
  rw [get_set] at hj
  split at hj
  · cases hj; exact hv.trans (Eq.symm ‹j = k›)
  · exact hm j u hj

theorem Keyed.delete {m : Map K V} {key : V → K} (hm : m.Keyed key) (k : K) :
    (m.delete k).Keyed key := by
  intro j u hj
  rw [get_delete] at hj
  split at hj
  · cases hj
  · exact hm j u hj

theorem mem_values_iff (m : Map K V) (v : V) : v ∈ m.values ↔ ∃ k, m.get k = some v := by
  rw [values, Multiset.mem_map]
  constructor
  · rintro ⟨⟨k, u⟩, hmem, rfl⟩
    exact ⟨k, (get_eq_some_iff m k u).mpr hmem⟩
  · rintro ⟨k, hk⟩
    exact ⟨⟨k, v⟩, (get_eq_some_iff m k v).mp hk, rfl⟩

theorem Ranges.mem_iff {m : Map K V} {vs : List V} (h : m.Ranges vs) (v : V) :
    v ∈ vs ↔ ∃ k, m.get k = some v := by
  rw [← Multiset.mem_coe, h, mem_values_iff]

theorem Ranges.map_key {m : Map K V} {vs : List V} {key : V → K} (h : m.Ranges vs)
    (keyed : m.Keyed key) : ((vs.map key : List K) : Multiset K) = m.keys.val := by
  rw [← Multiset.map_coe, h, values, Multiset.map_map]
  exact Multiset.map_congr rfl fun e he =>
    keyed e.1 e.2 ((get_eq_some_iff m e.1 e.2).mpr he)

theorem Ranges.nodup_keys {m : Map K V} {vs : List V} {key : V → K} (h : m.Ranges vs)
    (keyed : m.Keyed key) : (vs.map key).Nodup := by
  rw [← Multiset.coe_nodup, h.map_key keyed]
  exact m.keys.nodup

/-- Filling a fresh map from a list, later entries overwriting earlier ones. -/
def ofList (key : V → K) (vs : List V) : Map K V :=
  vs.foldl (fun m v => m.set (key v) v) ∅

theorem get_foldl_set (key : V → K) (vs : List V) (m : Map K V) (nodup : (vs.map key).Nodup)
    (k : K) (v : V) :
    (vs.foldl (fun m v => m.set (key v) v) m).get k = some v ↔
      (v ∈ vs ∧ key v = k) ∨ (k ∉ vs.map key ∧ m.get k = some v) := by
  induction vs generalizing m with
  | nil => simp
  | cons u us ih =>
      obtain ⟨hu, hus⟩ := List.nodup_cons.mp nodup
      rw [List.foldl_cons, ih (m.set (key u) u) hus, get_set]
      by_cases hk : k = key u
      · subst hk
        constructor
        · rintro (⟨hv, he⟩ | ⟨_, he⟩)
          · exact absurd (he ▸ List.mem_map_of_mem hv) hu
          · simp only [ite_true, Option.some.injEq] at he
            subst he
            exact Or.inl ⟨List.mem_cons_self, rfl⟩
        · rintro (⟨hv, he⟩ | ⟨hn, _⟩)
          · rcases List.mem_cons.mp hv with rfl | hv
            · exact Or.inr ⟨hu, by simp⟩
            · exact Or.inl ⟨hv, he⟩
          · exact absurd List.mem_cons_self hn
      · have hne : ∀ w, w = u → key w ≠ k := by
          rintro w rfl rfl
          exact hk rfl
        simp only [hk, ite_false, List.map_cons, List.mem_cons, not_or]
        constructor
        · rintro (⟨hv, he⟩ | ⟨hn, hm⟩)
          · exact Or.inl ⟨Or.inr hv, he⟩
          · exact Or.inr ⟨⟨by simp, hn⟩, hm⟩
        · rintro (⟨hv | hv, he⟩ | ⟨⟨_, hn⟩, hm⟩)
          · exact absurd he (hne v hv)
          · exact Or.inl ⟨hv, he⟩
          · exact Or.inr ⟨hn, hm⟩

/-- A map is rebuilt from its values, in whatever order they were visited. -/
theorem ofList_ranges {m : Map K V} {vs : List V} {key : V → K} (h : m.Ranges vs)
    (keyed : m.Keyed key) : ofList key vs = m := by
  apply ext
  intro k
  apply Option.ext
  intro v
  rw [ofList, get_foldl_set key vs ∅ (h.nodup_keys keyed)]
  simp only [get_empty, reduceCtorEq, and_false, or_false]
  rw [h.mem_iff]
  constructor
  · rintro ⟨⟨j, hj⟩, rfl⟩
    rwa [keyed j v hj]
  · intro hk
    exact ⟨⟨k, hk⟩, keyed k v hk⟩

theorem mapValues_foldl_set (key : V → K) (f : V → W) (vs : List V) (m : Map K V) :
    (vs.foldl (fun m v => m.set (key v) v) m).mapValues (fun _ v => f v) =
      vs.foldl (fun m v => m.set (key v) (f v)) (m.mapValues fun _ v => f v) := by
  induction vs generalizing m with
  | nil => rfl
  | cons v vs ih => rw [List.foldl_cons, List.foldl_cons, ih, mapValues_set]

theorem values_mapValues (f : K → V → W) (g : V → W) (m : Map K V)
    (law : ∀ k v, m.get k = some v → f k v = g v) : (m.mapValues f).values = m.values.map g := by
  simp only [values, mapValues, Multiset.map_map]
  exact Multiset.map_congr rfl fun e he => law e.1 e.2 ((get_eq_some_iff m e.1 e.2).mpr he)

theorem keyed_ofList (key : V → K) (vs : List V) : (ofList key vs).Keyed key := by
  suffices h : ∀ m : Map K V, m.Keyed key →
      (vs.foldl (fun m v => m.set (key v) v) m).Keyed key from h ∅ (Keyed.empty key)
  intro m hm
  induction vs generalizing m with
  | nil => exact hm
  | cons u us ih => exact ih (m.set (key u) u) (Keyed.set hm rfl)

/-! Sorted listings. Keys are distinct, so a listing sorted by key is the same
for every order of the loop that collected it. -/

def sorted [LinearOrder K] (m : Map K V) : List V :=
  (m.keys.sort (· ≤ ·)).filterMap m.get

theorem mem_sorted [LinearOrder K] (m : Map K V) (v : V) :
    v ∈ m.sorted ↔ ∃ k, m.get k = some v := by
  simp only [sorted, List.mem_filterMap, Finset.mem_sort, mem_keys_iff]
  constructor
  · rintro ⟨k, _, hk⟩; exact ⟨k, hk⟩
  · rintro ⟨k, hk⟩; exact ⟨k, ⟨v, hk⟩, hk⟩

theorem length_sorted [LinearOrder K] (m : Map K V) : m.sorted.length = m.len := by
  rw [sorted, List.length_filterMap_eq_countP, List.countP_eq_length.mpr, Finset.length_sort, len]
  intro k hk
  obtain ⟨v, hv⟩ := (mem_keys_iff m k).mp ((Finset.mem_sort _).mp hk)
  rw [hv]
  rfl

/-- Maps with the same keys and the same sorted listing agree on these keys. -/
theorem get_eq_of_sorted_eq [LinearOrder K] {m n : Map K V} (keys : m.keys = n.keys)
    (sorted : m.sorted = n.sorted) : ∀ k ∈ n.keys, m.get k = n.get k := by
  have h : ∀ ks : List K, (∀ k ∈ ks, k ∈ n.keys) → ks.filterMap m.get = ks.filterMap n.get →
      ∀ k ∈ ks, m.get k = n.get k := by
    intro ks
    induction ks with
    | nil => exact fun _ _ k hk => absurd hk List.not_mem_nil
    | cons j ks ih =>
        intro hks heq k hk
        obtain ⟨w, hw⟩ := (mem_keys_iff n j).mp (hks j List.mem_cons_self)
        obtain ⟨v, hv⟩ := (mem_keys_iff m j).mp (keys ▸ hks j List.mem_cons_self)
        rw [List.filterMap_cons_some hv, List.filterMap_cons_some hw] at heq
        obtain ⟨rfl, htail⟩ := List.cons.inj heq
        rcases List.mem_cons.mp hk with rfl | hk
        · exact hv.trans hw.symm
        · exact ih (fun k hk => hks k (List.mem_cons_of_mem j hk)) htail k hk
  rw [Map.sorted, keys, Map.sorted] at sorted
  exact fun k hk => h _ (fun j hj => (Finset.mem_sort _).mp hj) sorted k
    ((Finset.mem_sort _).mpr hk)

/-- A write that the sorted listing does not show wrote what was there. -/
theorem sorted_set_eq_iff [LinearOrder K] {m : Map K V} {k : K} {v : V} :
    (m.set k v).sorted = m.sorted ↔ m.get k = some v := by
  constructor
  · intro h
    have hk : k ∈ m.keys := by
      by_contra hk
      have hlen := congrArg List.length h
      rw [length_sorted, length_sorted, len, keys_set, Finset.card_insert_of_notMem hk, len] at hlen
      exact absurd hlen (Nat.succ_ne_self _)
    have hkeys : (m.set k v).keys = m.keys := (keys_set m k v).trans (Finset.insert_eq_of_mem hk)
    exact (get_eq_of_sorted_eq hkeys h k hk).symm.trans (get_set_self m k v)
  · intro h
    rw [set_of_get h]

theorem sorted_mapValues [LinearOrder K] (f : K → V → W) (g : V → W) (m : Map K V)
    (law : ∀ k v, m.get k = some v → f k v = g v) :
    (m.mapValues f).sorted = m.sorted.map g := by
  rw [sorted, keys_mapValues, sorted, List.map_filterMap]
  refine List.filterMap_congr fun k _ => ?_
  rw [get_mapValues]
  cases h : m.get k with
  | none => rfl
  | some v => simp only [Option.map_some, law k v h]

theorem map_key_sorted [LinearOrder K] {m : Map K V} {key : V → K} (keyed : m.Keyed key) :
    m.sorted.map key = m.keys.sort (· ≤ ·) := by
  have h : ∀ ks : List K, (∀ k ∈ ks, k ∈ m.keys) → (ks.filterMap m.get).map key = ks := by
    intro ks
    induction ks with
    | nil => intro _; rfl
    | cons k ks ih =>
        intro hks
        obtain ⟨v, hv⟩ := (mem_keys_iff m k).mp (hks k List.mem_cons_self)
        rw [List.filterMap_cons_some hv, List.map_cons, keyed k v hv,
          ih fun j hj => hks j (List.mem_cons_of_mem k hj)]
  exact h _ fun k hk => (Finset.mem_sort _).mp hk

/-- A listing in the order of the keys that has every value is the sorted one. -/
theorem sorted_eq [LinearOrder K] {m : Map K V} (key : V → K) {vs : List V}
    (ordered : (vs.map key).Pairwise (· < ·)) (listed : ∀ v ∈ vs, m.get (key v) = some v)
    (every : ∀ k v, m.get k = some v → k ∈ vs.map key) : m.sorted = vs := by
  have hkeys : m.keys = (vs.map key).toFinset := by
    ext k
    rw [mem_keys_iff, List.mem_toFinset]
    constructor
    · rintro ⟨v, hv⟩
      exact every k v hv
    · intro hk
      obtain ⟨v, hv, rfl⟩ := List.mem_map.mp hk
      exact ⟨v, listed v hv⟩
  have hsort : (vs.map key).toFinset.sort (· ≤ ·) = vs.map key :=
    (List.toFinset_sort (· ≤ ·) (ordered.imp fun h => ne_of_lt h)).mpr
      (ordered.imp fun h => le_of_lt h)
  rw [sorted, hkeys, hsort, List.filterMap_map]
  exact (List.filterMap_congr listed).trans List.filterMap_some

theorem get_iff_mem_sorted [LinearOrder K] {m : Map K V} {key : V → K} (keyed : m.Keyed key)
    (k : K) (v : V) : m.get k = some v ↔ v ∈ m.sorted ∧ key v = k := by
  rw [mem_sorted]
  constructor
  · intro hk
    exact ⟨⟨k, hk⟩, keyed k v hk⟩
  · rintro ⟨⟨j, hj⟩, rfl⟩
    rwa [keyed j v hj]

theorem find?_sorted [LinearOrder K] {m : Map K V} {key : V → K} (keyed : m.Keyed key) (k : K) :
    m.sorted.find? (fun v => key v = k) = m.get k := by
  cases hfind : m.sorted.find? (fun v => key v = k) with
  | some v =>
      have hv := List.find?_some hfind
      exact ((get_iff_mem_sorted keyed k v).mpr
        ⟨List.mem_of_find?_eq_some hfind, of_decide_eq_true hv⟩).symm
  | none =>
      cases hget : m.get k with
      | none => rfl
      | some v =>
          obtain ⟨hmem, hkey⟩ := (get_iff_mem_sorted keyed k v).mp hget
          exact absurd (decide_eq_true hkey) (List.find?_eq_none.mp hfind v hmem)

/-- A pass over distinct keys reaches each of them once. -/
theorem foldl_of_nodup {A : Type} (key : V → K) (f : V → A → A) (k : K) {xs : List V}
    (nodup : (xs.map key).Nodup) (a : A) :
    xs.foldl (fun a x => if key x = k then f x a else a) a =
      ((xs.find? fun x => key x = k).map (f · a)).getD a := by
  induction xs generalizing a with
  | nil => rfl
  | cons x xs ih =>
      obtain ⟨hx, hxs⟩ := List.nodup_cons.mp nodup
      rw [List.foldl_cons, ih hxs]
      by_cases hk : key x = k
      · have hnone : xs.find? (fun x => key x = k) = none := by
          refine List.find?_eq_none.mpr fun y hy hyk => hx ?_
          rw [hk, ← of_decide_eq_true hyk]
          exact List.mem_map_of_mem hy
        rw [hnone, if_pos hk, List.find?_cons, decide_eq_true hk]
        rfl
      · rw [if_neg hk, List.find?_cons, decide_eq_false hk]

theorem foldl_sorted [LinearOrder K] {A : Type} {m : Map K V} {key : V → K} (keyed : m.Keyed key)
    (f : V → A → A) (k : K) (a : A) :
    m.sorted.foldl (fun a v => if key v = k then f v a else a) a =
      ((m.get k).map (f · a)).getD a := by
  have hnodup : (m.sorted.map key).Nodup := by
    rw [map_key_sorted keyed]
    exact Finset.sort_nodup _ _
  rw [foldl_of_nodup key f k hnodup, find?_sorted keyed]

/-- Keyed maps with the same sorted listing are the same. -/
theorem sorted_inj [LinearOrder K] {m n : Map K V} {key : V → K} (hm : m.Keyed key)
    (hn : n.Keyed key) : m.sorted = n.sorted ↔ m = n := by
  constructor
  · intro h
    apply ext
    intro k
    rw [← find?_sorted hm, ← find?_sorted hn, h]
  · intro h
    rw [h]

/-- One write to a map: it leaves it, deletes a key, adds a `fresh` value under a free
key, or replaces a value by one that `keeps` what it was. -/
inductive Edit (fresh : K → V → Prop) (keeps : V → V → Prop) (m : Map K V) : Map K V → Prop
  | same : Edit fresh keeps m m
  | delete (k : K) : Edit fresh keeps m (m.delete k)
  | create {k : K} {v : V} (free : m.get k = none) (made : fresh k v) :
      Edit fresh keeps m (m.set k v)
  | replace {k : K} {v w : V} (held : m.get k = some v) (kept : keeps v w) :
      Edit fresh keeps m (m.set k w)

section Edit

variable {fresh : K → V → Prop} {keeps : V → V → Prop} {m n : Map K V}

/-- Where a value of the written map comes from. -/
theorem Edit.get (h : Edit fresh keeps m n) {k : K} {w : V} (hw : n.get k = some w) :
    (m.get k = none ∧ fresh k w) ∨ ∃ v, m.get k = some v ∧ (v = w ∨ keeps v w) := by
  cases h with
  | same => exact Or.inr ⟨w, hw, Or.inl rfl⟩
  | delete j =>
      rw [get_delete] at hw
      split at hw
      · cases hw
      · exact Or.inr ⟨w, hw, Or.inl rfl⟩
  | create free made =>
      rw [get_set] at hw
      split at hw
      · rename_i hk
        cases hw
        subst hk
        exact Or.inl ⟨free, made⟩
      · exact Or.inr ⟨w, hw, Or.inl rfl⟩
  | replace held kept =>
      rw [get_set] at hw
      split at hw
      · rename_i hk
        cases hw
        subst hk
        exact Or.inr ⟨_, held, Or.inr kept⟩
      · exact Or.inr ⟨w, hw, Or.inl rfl⟩

theorem Edit.keyed {key : V → K} (h : Edit fresh keeps m n) (made : ∀ k v, fresh k v → key v = k)
    (kept : ∀ v w, keeps v w → key w = key v) (keyed : m.Keyed key) : n.Keyed key := by
  intro k w hw
  rcases h.get hw with ⟨-, hfresh⟩ | ⟨v, hv, rfl | hkeeps⟩
  · exact made k w hfresh
  · exact keyed k v hv
  · exact (kept v w hkeeps).trans (keyed k v hv)

end Edit

end Map
end Go
