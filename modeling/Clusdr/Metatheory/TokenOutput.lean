import Clusdr.Core.ClusdrCluster
import Clusdr.Core.InitCommand

/-!
What the operator reads from the output of `clusdr init`. The expression it looks for
starts at the start of a line, and the texts that `init` prints into its lines cannot
start one.
-/

namespace Clusdr

open Operator (findJoinToken isBlank joinTokenAt parseJoinToken)
open InitCommand (alreadyInitializedOutput initOutput printed)

/-- The first word of the text does not begin with the letter of `join token`. -/
def OtherWord (text : List Char) : Prop :=
  ∃ r rest, text.dropWhile isBlank = r :: rest ∧ r ≠ 'j'

instance (text : List Char) : Decidable (OtherWord text) :=
  match h : text.dropWhile isBlank with
  | [] => isFalse fun ⟨r, rest, hr, _⟩ => by
      rw [h] at hr
      cases hr
  | r :: rest =>
      if hr : r ≠ 'j' then isTrue ⟨r, rest, h, hr⟩
      else isFalse fun ⟨r', rest', h', hr'⟩ => by
        rw [h] at h'
        cases h'
        exact hr hr'

theorem OtherWord.append {text : List Char} (h : OtherWord text) (more : List Char) :
    OtherWord (text ++ more) := by
  obtain ⟨r, rest, hr, hne⟩ := h
  refine ⟨r, rest ++ more, ?_, hne⟩
  rw [List.dropWhile_append, hr]
  rfl

theorem joinTokenAt_of_otherWord {text : List Char} (h : OtherWord text) :
    joinTokenAt text = none := by
  obtain ⟨r, rest, hr, hne⟩ := h
  have hwords : "join token".toList.isPrefixOf (r :: rest) = false := by
    have hj : "join token".toList = 'j' :: "oin token".toList := rfl
    rw [hj, List.isPrefixOf, beq_false_of_ne hne.symm]
    rfl
  rw [joinTokenAt, hr]
  simp only [hwords]
  rfl

theorem findJoinToken_inside {line : List Char} (free : '\n' ∉ line) (rest : List Char) :
    findJoinToken false (line ++ '\n' :: rest) = findJoinToken true rest := by
  induction line with
  | nil => rfl
  | cons r line ih =>
      obtain ⟨hr, hline⟩ := List.ne_and_not_mem_of_not_mem_cons free
      have hne : (r == '\n') = false := beq_false_of_ne hr.symm
      rw [List.cons_append, findJoinToken, hne, ih hline]
      rfl

/-- A line at which nothing matches is passed over. -/
theorem findJoinToken_line {line : List Char} (free : '\n' ∉ line) {rest : List Char}
    (other : joinTokenAt (line ++ '\n' :: rest) = none) :
    findJoinToken true (line ++ '\n' :: rest) = findJoinToken true rest := by
  cases line with
  | nil =>
      rw [List.nil_append] at other ⊢
      rw [findJoinToken, if_pos rfl, other]
      rfl
  | cons r line =>
      obtain ⟨hr, hline⟩ := List.ne_and_not_mem_of_not_mem_cons free
      have hne : (r == '\n') = false := beq_false_of_ne hr.symm
      rw [List.cons_append] at other ⊢
      rw [findJoinToken, if_pos rfl, other, hne, findJoinToken_inside hline]
      rfl

theorem toList_printed (line : String) (lines : List String) :
    (printed (line :: lines)).toList = line.toList ++ '\n' :: (printed lines).toList := by
  have hprinted : printed (line :: lines) = line ++ "\n" ++ printed lines := rfl
  have hnewline : "\n".toList = ['\n'] := rfl
  rw [hprinted, String.toList_append, String.toList_append, hnewline, List.append_assoc]
  rfl

/-- A line whose first word is another. -/
theorem find_otherWord {line : String} (free : '\n' ∉ line.toList) (other : OtherWord line.toList)
    (lines : List String) :
    findJoinToken true (printed (line :: lines)).toList =
      findJoinToken true (printed lines).toList := by
  rw [toList_printed]
  exact findJoinToken_line free (joinTokenAt_of_otherWord (other.append _))

/-- An empty line before such a line. -/
theorem find_empty {line : String} (other : OtherWord ('\n' :: line.toList))
    (lines : List String) :
    findJoinToken true (printed ("" :: line :: lines)).toList =
      findJoinToken true (printed (line :: lines)).toList := by
  rw [toList_printed "", toList_printed]
  refine findJoinToken_line List.not_mem_nil (joinTokenAt_of_otherWord ?_)
  exact other.append _

/-- A line that begins with a label. -/
theorem find_label {label value : String} (label_free : '\n' ∉ label.toList)
    (other : OtherWord label.toList) (value_free : '\n' ∉ value.toList) (lines : List String) :
    findJoinToken true (printed ((label ++ value) :: lines)).toList =
      findJoinToken true (printed lines).toList := by
  refine find_otherWord ?_ ?_ lines
  · rw [String.toList_append, List.mem_append]
    exact fun h => h.elim label_free value_free
  · rw [String.toList_append]
    exact other.append _

/-- A word up to the end of its line. -/
theorem takeWhile_word {word : List Char} (unbroken : ∀ r ∈ word, isBlank r = false)
    (rest : List Char) :
    (word ++ '\n' :: rest).takeWhile (!isBlank ·) = word ∧
      (word ++ '\n' :: rest).dropWhile (!isBlank ·) = '\n' :: rest := by
  have hword : ∀ r ∈ word, (!isBlank r) = true := fun r hr => by rw [unbroken r hr]; rfl
  rw [List.takeWhile_append_of_pos hword, List.dropWhile_append_of_pos hword]
  exact ⟨List.append_nil word, rfl⟩

theorem joinTokenAt_token {token : List Char} (ne : token ≠ [])
    (unbroken : ∀ r ∈ token, isBlank r = false) (rest : List Char) :
    joinTokenAt ('\n' :: ("  join token      : ".toList ++ token ++ '\n' :: rest)) =
      some token := by
  have hwords :
      ('\n' :: ("  join token      : ".toList ++ token ++ '\n' :: rest)).dropWhile isBlank =
      "join token".toList ++ ("      : ".toList ++ (token ++ '\n' :: rest)) := by
    rw [List.append_assoc]
    rfl
  have hcolon : ("      : ".toList ++ (token ++ '\n' :: rest)).dropWhile isBlank =
      ':' :: ' ' :: (token ++ '\n' :: rest) := rfl
  have htoken : (' ' :: (token ++ '\n' :: rest)).dropWhile isBlank = token ++ '\n' :: rest := by
    cases token with
    | nil => exact absurd rfl ne
    | cons r token =>
        rw [List.dropWhile_cons_of_pos rfl, List.cons_append, List.dropWhile_cons_of_neg]
        rw [unbroken r List.mem_cons_self]
        exact Bool.false_ne_true
  obtain ⟨htake, hdrop⟩ := takeWhile_word unbroken rest
  have hstart : "join token".toList.isPrefixOf
      ("join token".toList ++ ("      : ".toList ++ (token ++ '\n' :: rest))) = true :=
    List.isPrefixOf_iff_prefix.mpr (List.prefix_append _ _)
  have hend : '\n' ∈ ('\n' :: rest).takeWhile isBlank := by
    rw [List.takeWhile_cons_of_pos rfl]
    exact List.mem_cons_self
  simp only [joinTokenAt, hwords, hstart, if_true, List.drop_left, hcolon, htoken, htake, hdrop]
  rw [if_pos ⟨ne, .inl hend⟩]

theorem find_token {token : String} (ne : token ≠ "")
    (unbroken : ∀ r ∈ token.toList, isBlank r = false) (lines : List String) :
    findJoinToken true (printed ("" :: ("  join token      : " ++ token) :: lines)).toList =
      some token.toList := by
  have hne : token.toList ≠ [] := fun h => ne (String.toList_eq_nil_iff.mp h)
  have hat := joinTokenAt_token hne unbroken (printed lines).toList
  rw [toList_printed "", toList_printed, String.toList_append]
  change findJoinToken true ('\n' :: _) = _
  rw [findJoinToken, if_pos rfl, hat]
  rfl

def isHexDigit (r : Char) : Bool :=
  ('0' ≤ r && r ≤ '9') || ('a' ≤ r && r ≤ 'f') || ('A' ≤ r && r ≤ 'F')

theorem hexDigit_bounds {r : Char} (h : isHexDigit r = true) : 48 ≤ r.toNat ∧ r.toNat ≤ 102 := by
  simp only [isHexDigit, Bool.or_eq_true, Bool.and_eq_true, decide_eq_true_eq, Char.le_def,
    UInt32.le_iff_toNat_le] at h
  change ((48 ≤ r.toNat ∧ r.toNat ≤ 57) ∨ (97 ≤ r.toNat ∧ r.toNat ≤ 102)) ∨
    (65 ≤ r.toNat ∧ r.toNat ≤ 70) at h
  omega

theorem not_isBlank_of_hex {r : Char} (h : isHexDigit r = true) : isBlank r = false := by
  have hbounds := hexDigit_bounds h
  simp only [isBlank, List.contains_eq_mem, List.mem_cons, List.not_mem_nil, or_false,
    Bool.decide_or, Bool.or_eq_false_iff, decide_eq_false_iff_not]
  omega

theorem not_isSpace_of_hex {r : Char} (h : isHexDigit r = true) : Go.isSpace r = false := by
  have hbounds := hexDigit_bounds h
  simp only [Go.isSpace, List.contains_eq_mem, List.mem_cons, List.not_mem_nil, or_false,
    Bool.decide_or, Bool.or_eq_false_iff, decide_eq_false_iff_not, Bool.and_eq_false_imp,
    decide_eq_true_eq, not_le]
  omega

theorem find_identity {clusterID nodeID path dataDir : String}
    (free : ∀ s ∈ [clusterID, nodeID, path, dataDir], '\n' ∉ s.toList) (lines : List String) :
    findJoinToken true (printed ("" :: ("  cluster id      : " ++ clusterID) ::
        ("  node id         : " ++ nodeID) :: ("  config          : " ++ path) ::
        ("  data dir        : " ++ dataDir) :: lines)).toList =
      findJoinToken true (printed lines).toList := by
  simp only [List.forall_mem_cons] at free
  obtain ⟨hcluster, hnode, hpath, hdir, -⟩ := free
  have hlabel : OtherWord ('\n' :: ("  cluster id      : " ++ clusterID).toList) := by
    have hfirst : OtherWord ('\n' :: "  cluster id      : ".toList) := by decide
    rw [String.toList_append]
    exact hfirst.append _
  rw [find_empty hlabel, find_label (by decide) (by decide) hcluster,
    find_label (by decide) (by decide) hnode, find_label (by decide) (by decide) hpath,
    find_label (by decide) (by decide) hdir]

theorem parse_initOutput {token clusterID nodeID path dataDir caPath fp : String} (ne : token ≠ "")
    (hex : ∀ r ∈ token.toList, isHexDigit r = true)
    (free : ∀ s ∈ [clusterID, nodeID, path, dataDir, caPath, fp], '\n' ∉ s.toList) :
    parseJoinToken (initOutput clusterID nodeID path dataDir caPath fp token) = .ok token := by
  have hidentity : ∀ s ∈ [clusterID, nodeID, path, dataDir], '\n' ∉ s.toList := fun s hs =>
    free s (List.mem_append_left [caPath, fp] hs)
  have hfind : findJoinToken true
      (initOutput clusterID nodeID path dataDir caPath fp token).toList = some token.toList := by
    rw [initOutput, find_otherWord (by decide) (by decide), find_identity hidentity,
      find_label (by decide) (by decide) (free caPath (by simp)),
      find_label (by decide) (by decide) (free fp (by simp)),
      find_token ne fun r hr => not_isBlank_of_hex (hex r hr)]
  have htrim : Go.trimSpace token = token :=
    Go.trimSpace_of_unspaced fun r hr => not_isSpace_of_hex (hex r hr)
  rw [parseJoinToken, hfind]
  simp only [String.ofList_toList, htrim, if_neg ne]

theorem parse_alreadyInitializedOutput {clusterID nodeID path dataDir : String}
    (free : ∀ s ∈ [clusterID, nodeID, path, dataDir], '\n' ∉ s.toList) :
    parseJoinToken (alreadyInitializedOutput clusterID nodeID path dataDir) =
      .error "join token not in init logs" := by
  have hfind : findJoinToken true
      (alreadyInitializedOutput clusterID nodeID path dataDir).toList = none := by
    rw [alreadyInitializedOutput, find_otherWord (by decide) (by decide), find_identity free]
    rfl
  rw [parseJoinToken, hfind]

theorem context_eq_ok {α : Type} {what : String} {x : Except String α} {a : α}
    (h : InitCommand.context what x = .ok a) : x = .ok a := by
  cases x with
  | error err => cases h
  | ok a' => exact h

/-- A run of `init` prints nothing but these two texts. -/
theorem run_printed [Go.Unicode] {c : InitCommand.Calls} {path : String} {force : Bool}
    {out : String} (ran : InitCommand.run c path force = .ok out) :
    (∃ clusterID nodeID dataDir,
      out = alreadyInitializedOutput clusterID nodeID path dataDir) ∨
    ∃ clusterID nodeID dataDir fp token, c.generate clusterID nodeID = .ok token ∧
      out = initOutput clusterID nodeID path dataDir (c.caPath dataDir) fp token := by
  unfold InitCommand.run at ran
  split at ran
  · obtain ⟨resolved, -, ran⟩ := Go.bind_eq_ok.mp ran
    obtain ⟨_, -, ran⟩ := Go.bind_eq_ok.mp ran
    cases hidentity : c.identity with
    | notInitialized =>
        rw [hidentity] at ran
        cases ran
    | failed err =>
        rw [hidentity] at ran
        cases ran
    | ids nodeID clusterID =>
        rw [hidentity] at ran
        exact .inl ⟨clusterID, nodeID, resolved.dataDir, (Except.ok.inj ran).symm⟩
  · obtain ⟨clusterID, -, ran⟩ := Go.bind_eq_ok.mp ran
    obtain ⟨nodeID, -, ran⟩ := Go.bind_eq_ok.mp ran
    obtain ⟨_, -, ran⟩ := Go.bind_eq_ok.mp ran
    obtain ⟨_, -, ran⟩ := Go.bind_eq_ok.mp ran
    obtain ⟨resolved, -, ran⟩ := Go.bind_eq_ok.mp ran
    obtain ⟨_, -, ran⟩ := Go.bind_eq_ok.mp ran
    obtain ⟨_, -, ran⟩ := Go.bind_eq_ok.mp ran
    obtain ⟨token, htoken, ran⟩ := Go.bind_eq_ok.mp ran
    obtain ⟨_, -, ran⟩ := Go.bind_eq_ok.mp ran
    obtain ⟨_, -, ran⟩ := Go.bind_eq_ok.mp ran
    obtain ⟨fp, -, ran⟩ := Go.bind_eq_ok.mp ran
    exact .inr ⟨clusterID, nodeID, resolved.dataDir, fp, token, context_eq_ok htoken,
      (Except.ok.inj ran).symm⟩

theorem operator_reads_token (token clusterID nodeID path dataDir caPath fp : String)
    (ne : token ≠ "") (hex : ∀ r ∈ token.toList, isHexDigit r = true)
    (free : ∀ s ∈ [clusterID, nodeID, path, dataDir, caPath, fp], '\n' ∉ s.toList) :
    parseJoinToken (initOutput clusterID nodeID path dataDir caPath fp token) = .ok token ∧
      ∃ err, parseJoinToken (alreadyInitializedOutput clusterID nodeID path dataDir) = .error err :=
  ⟨parse_initOutput ne hex free, _, parse_alreadyInitializedOutput fun s hs =>
    free s (List.mem_append_left [caPath, fp] hs)⟩

/-- Texts that look like a token line of their own. -/
theorem operator_reads_token_mimicked :
    parseJoinToken (initOutput "c1" "n1" "join token : 00" "/d" "/d/ca.crt" "sha256:ff" "c0ffee") =
      .ok "c0ffee" :=
  (operator_reads_token "c0ffee" "c1" "n1" "join token : 00" "/d" "/d/ca.crt" "sha256:ff"
    (by decide) (List.all_eq_true.mp (by decide)) (by decide)).1

end Clusdr
