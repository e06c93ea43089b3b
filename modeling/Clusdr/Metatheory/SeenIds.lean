import Clusdr.Core.EventService
import Clusdr.Dedup.Recent
import Clusdr.Runs.Machine

/-!
The cache of event ids remembers the last `cap` ids it accepted as new, and
nothing else.
-/

namespace Clusdr

open Dedup (Fresh recent)

namespace IdCache

/-- The cache after accepting these ids, oldest first. -/
structure Holds (c : IdCache) (accepted : List String) : Prop where
  pos : 0 < c.cap
  queue : c.q = recent c.cap accepted
  set : ∀ id, c.m.get id = some () ↔ id ∈ c.q
  fresh : Fresh c.cap accepted

theorem holds_new (n : Int) : (newIDCache n).Holds [] := by
  refine ⟨?_, List.drop_nil.symm, ?_, Dedup.fresh_nil _⟩
  · unfold newIDCache
    dsimp only
    split <;> omega
  · intro id
    simp [newIDCache]

variable {c : IdCache} {past : List String}

theorem seenOrAdd_of_seen {id : String} (seen : (c.seenOrAdd id).2 = true) :
    (c.seenOrAdd id).1 = c := by
  unfold seenOrAdd at seen ⊢
  split
  · rfl
  · rename_i hget
    rw [hget] at seen
    cases seen

/-- What makes room for a new id: the oldest one, if the cache is full. -/
theorem evict_eq (c : IdCache) : c.evict =
    { c with
      q := if c.cap ≤ c.q.length then c.q.tail else c.q
      m := if c.cap ≤ c.q.length then (c.q.head?.map c.m.delete).getD c.m else c.m } := by
  unfold evict
  obtain ⟨m, q, cap⟩ := c
  cases q with
  | nil => simp
  | cons old q =>
      dsimp only
      split <;> rfl

theorem Holds.evict_set (holds : c.Holds past) (id : String) :
    c.evict.m.get id = some () ↔ id ∈ c.evict.q := by
  have hnodup := Dedup.nodup_recent holds.pos holds.fresh
  rw [← holds.queue] at hnodup
  have hset := holds.set id
  rw [evict_eq]
  dsimp only
  split
  · cases hq : c.q with
    | nil => simpa [hq] using hset
    | cons old q =>
        rw [hq] at hset hnodup
        obtain ⟨hold, -⟩ := List.nodup_cons.mp hnodup
        simp only [List.head?_cons, Option.map_some, Option.getD_some, List.tail_cons,
          Go.Map.get_delete]
        by_cases hid : id = old
        · simp [hid, hold]
        · simp [hid, hset]
  · exact hset

theorem Holds.add (holds : c.Holds past) {id : String} (unseen : (c.seenOrAdd id).2 = false) :
    (c.seenOrAdd id).1.Holds (past ++ [id]) ∧ (c.seenOrAdd id).1.cap = c.cap := by
  have hget : c.m.get id = none := by
    unfold seenOrAdd at unseen
    split at unseen
    · cases unseen
    · assumption
  have hnew : id ∉ c.q := fun h => by
    rw [(holds.set id).mpr h] at hget
    cases hget
  have hadd : (c.seenOrAdd id).1 =
      { c.evict with m := c.evict.m.set id (), q := c.evict.q ++ [id] } := by
    simp only [seenOrAdd, hget]
  have hcap : c.evict.cap = c.cap := by rw [evict_eq]
  have hqueue : c.evict.q ++ [id] = recent c.cap (past ++ [id]) := by
    rw [Dedup.recent_append_singleton holds.pos, evict_eq, holds.queue]
  rw [hadd]
  refine ⟨⟨?_, ?_, ?_, ?_⟩, hcap⟩
  · exact hcap ▸ holds.pos
  · exact hcap ▸ hqueue
  · intro x
    simp only [Go.Map.get_set, List.mem_append, List.mem_singleton]
    split
    · rename_i h
      simp [h]
    · rename_i h
      rw [holds.evict_set x]
      simp [h]
  · simp only [hcap]
    exact Dedup.fresh_append_singleton.mpr ⟨holds.fresh, holds.queue ▸ hnew⟩

/-- The ids for which a call answered that they are new, in the order of the calls. -/
def accepted (c : IdCache) : List String → List String
  | [] => []
  | id :: ids =>
      let (c, seen) := c.seenOrAdd id
      if seen then c.accepted ids else id :: c.accepted ids

theorem Holds.run (holds : c.Holds past) (ids : List String) :
    (Runs.run (Runs.next seenOrAdd) c ids).Holds (past ++ c.accepted ids) ∧
      (Runs.run (Runs.next seenOrAdd) c ids).cap = c.cap := by
  induction ids generalizing c past with
  | nil => exact ⟨(List.append_nil past).symm ▸ holds, rfl⟩
  | cons id ids ih =>
      rw [Runs.run_cons, accepted]
      cases hseen : (c.seenOrAdd id).2 with
      | true =>
          have hsame : Runs.next seenOrAdd c id = c := seenOrAdd_of_seen hseen
          simp only [hseen, if_true, seenOrAdd_of_seen hseen]
          rw [hsame]
          exact ih holds
      | false =>
          obtain ⟨hadd, hcap⟩ := holds.add hseen
          obtain ⟨hrun, hkeep⟩ := ih hadd
          rw [List.append_assoc] at hrun
          simp only [hseen, Bool.false_eq_true, if_false]
          exact ⟨hrun, hkeep.trans hcap⟩

theorem Holds.seen_iff (holds : c.Holds past) (id : String) :
    (c.seenOrAdd id).2 = true ↔ id ∈ recent c.cap past := by
  rw [← holds.queue, ← holds.set]
  unfold seenOrAdd
  cases c.m.get id with
  | none => simp
  | some u => simp

theorem Holds.keys (holds : c.Holds past) : c.m.keys = c.q.toFinset := by
  ext id
  rw [Go.Map.mem_keys_iff, List.mem_toFinset, ← holds.set]
  constructor
  · rintro ⟨u, hu⟩
    exact hu
  · intro h
    exact ⟨(), h⟩

end IdCache

theorem seenOrAdd_is_window (cap : Int) (pos : 1 ≤ cap) (ids : List String) (id : String) :
    let c := Runs.run (Runs.next IdCache.seenOrAdd) (newIDCache cap) ids
    ((c.seenOrAdd id).2 = true ↔ id ∈ recent cap.toNat ((newIDCache cap).accepted ids)) ∧
      c.m.keys = c.q.toFinset ∧ c.q.Nodup ∧ c.q.length ≤ cap.toNat := by
  intro c
  obtain ⟨holds, hcap⟩ := (IdCache.holds_new cap).run ids
  have hcap : c.cap = cap.toNat := hcap.trans (if_neg (by omega))
  have hnodup := Dedup.nodup_recent holds.pos holds.fresh
  rw [← holds.queue] at hnodup
  refine ⟨?_, holds.keys, hnodup, ?_⟩
  · rw [← hcap]
    exact holds.seen_iff id
  · rw [← hcap, holds.queue, Dedup.length_recent]
    exact Nat.min_le_left _ _

/-- With room for two, the first of three ids is new again. -/
theorem seenOrAdd_is_window_evicted :
    let c := Runs.run (Runs.next IdCache.seenOrAdd) (newIDCache 2) ["a", "b", "a", "c"]
    (c.seenOrAdd "a").2 = false ∧ (c.seenOrAdd "b").2 = true := by
  intro c
  have hnew : (newIDCache 2).accepted ["a", "b", "a", "c"] = ["a", "b", "c"] := by decide
  have ha := (seenOrAdd_is_window 2 (by decide) ["a", "b", "a", "c"] "a").1
  have hb := (seenOrAdd_is_window 2 (by decide) ["a", "b", "a", "c"] "b").1
  rw [hnew] at ha hb
  exact ⟨Bool.eq_false_iff.mpr fun h => absurd (ha.mp h) (by decide), hb.mpr (by decide)⟩

end Clusdr
