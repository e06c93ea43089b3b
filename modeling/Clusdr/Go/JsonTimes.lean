import Clusdr.Go.JsonRoundTrip
import Clusdr.Go.Rfc3339

/-!
Times in the text of JSON documents, where they are strings, and the reading of the
first document of a stream.
-/

namespace Go.Json

/-- `Time.MarshalJSON` of a time that is shown in a zone this many seconds from UTC. -/
def timeIn (offset : Int) (t : Time) : Except Error Json :=
  match Rfc3339.format offset t with
  | some s => .ok (.str (String.ofList s))
  | none => .error .timeRange

/-- `Time.UnmarshalJSON`. -/
def readTime (old : Time) : Json → Except Error Time
  | .str s =>
      match Rfc3339.parse s.toList with
      | some t => .ok t
      | none => .error .mismatch
  | .null => .ok old
  | _ => .error .mismatch

@[simp] theorem depth_null : Json.null.depth = 0 := by
  rw [depth] <;> nofun

@[simp] theorem depth_str (s : String) : (Json.str s).depth = 0 := by
  rw [depth] <;> nofun

@[simp] theorem depth_num (n : Int) : (Json.num n).depth = 0 := by
  rw [depth] <;> nofun

theorem readTime_timeIn {offset : Int} {t : Time} {j : Json} (h : timeIn offset t = .ok j)
    (old : Time) : readTime old j = .ok (Rfc3339.stands offset t) := by
  unfold timeIn at h
  split at h
  · rename_i s hs
    obtain rfl := Except.ok.inj h
    simp only [readTime, String.toList_ofList, Rfc3339.parse_format hs]
  · cases h

theorem depth_timeIn {offset : Int} {t : Time} {j : Json} (h : timeIn offset t = .ok j) :
    j.depth = 0 := by
  unfold timeIn at h
  split at h
  · obtain rfl := Except.ok.inj h
    exact depth_str _
  · cases h

/-- `Decoder.Decode`: what follows the first document is left in the stream. -/
def decodeFirst (text : List Char) : Except Error Json :=
  match value maxNestingDepth text with
  | some (j, _) => .ok j
  | none => .error .mismatch

theorem decodeFirst_text {j : Json} {t : List Char} (h : j.text = some t)
    (hd : j.depth ≤ maxNestingDepth) : decodeFirst t = .ok j := by
  have hv := value_text j maxNestingDepth [] h hd ends_nil
  rw [List.append_nil] at hv
  rw [decodeFirst, hv]

theorem depthElements_le {xs : List Json} {d : Nat} (h : ∀ x ∈ xs, x.depth ≤ d) :
    depthElements xs ≤ d := by
  induction xs with
  | nil => exact Nat.zero_le d
  | cons x xs ih =>
      rw [depthElements, Nat.max_le]
      exact ⟨h x List.mem_cons_self, ih fun x hx => h x (List.mem_cons_of_mem _ hx)⟩

/-- Elements that are read as something else than was written. -/
theorem mapM_reads {α β : Type} {encode : α → Except Error Json} {decode : Json → Except Error β}
    {reads : α → β} (law : ∀ a j, encode a = .ok j → decode j = .ok (reads a)) {as : List α}
    {js : List Json} (h : as.mapM encode = .ok js) : js.mapM decode = .ok (as.map reads) := by
  induction as generalizing js with
  | nil =>
      cases h
      rfl
  | cons a as ih =>
      rw [List.mapM_cons] at h
      obtain ⟨j, ha, h⟩ := bind_eq_ok.mp h
      obtain ⟨rest, has, h⟩ := bind_eq_ok.mp h
      obtain rfl := Except.ok.inj h
      rw [List.mapM_cons, law a j ha, ih has]
      rfl

/-- An empty list that was left out. -/
@[simp] theorem ok_map_of_empty {α β : Type} [DecidableEq α] (as : List α) (f : α → β) :
    (if as = [] then (.ok [] : Except Error (List β)) else .ok (as.map f)) = .ok (as.map f) := by
  split
  · rename_i h
    rw [h, List.map_nil]
  · rfl

theorem forall_mem_mapM {α : Type} {encode : α → Except Error Json} {P : Json → Prop}
    (law : ∀ a j, encode a = .ok j → P j) {as : List α} {js : List Json}
    (h : as.mapM encode = .ok js) : ∀ j ∈ js, P j := by
  induction as generalizing js with
  | nil =>
      cases h
      nofun
  | cons a as ih =>
      rw [List.mapM_cons] at h
      obtain ⟨j, ha, h⟩ := bind_eq_ok.mp h
      obtain ⟨rest, has, h⟩ := bind_eq_ok.mp h
      obtain rfl := Except.ok.inj h
      exact List.forall_mem_cons.mpr ⟨law a j ha, ih has⟩

end Go.Json
