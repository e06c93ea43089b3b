import Mathlib.Algebra.GroupWithZero.Nat

/-!
Text handling of the Go standard library: character classes and the `%q` verb.
The classes come from the Unicode tables of the toolchain that builds the
program, so they are a parameter: nothing below depends on their version.
-/

namespace Go

/-- Package `unicode`, as far as it is read. -/
class Unicode where
  isLetter : Char → Bool
  isDigit : Char → Bool
  isPrint : Char → Bool

/-- Tables restricted to ASCII, for evaluating definitions on concrete text. -/
@[reducible] def Unicode.ascii : Unicode where
  isLetter := Char.isAlpha
  isDigit := Char.isDigit
  isPrint c := decide (32 ≤ c.toNat) && decide (c.toNat < 127)

/-- `n` in lower-case hexadecimal, at least `width` digits. -/
def hexDigits (width n : Nat) : String :=
  let ds := Nat.toDigits 16 n
  String.ofList (List.replicate (width - ds.length) '0' ++ ds)

/-- `strings.HasPrefix`. -/
def hasPrefix (s lead : String) : Bool := lead.toList.isPrefixOf s.toList

/-- `strings.TrimPrefix`. -/
def trimPrefix (s lead : String) : String :=
  if hasPrefix s lead then String.ofList (s.toList.drop lead.toList.length) else s

theorem hasPrefix_append (lead s : String) : hasPrefix (lead ++ s) lead = true := by
  rw [hasPrefix, String.toList_append, List.isPrefixOf_iff_prefix]
  exact List.prefix_append _ _

theorem trimPrefix_append (lead s : String) : trimPrefix (lead ++ s) lead = s := by
  rw [trimPrefix, if_pos (hasPrefix_append lead s), String.toList_append, List.drop_left,
    String.ofList_toList]

theorem trimPrefix_of_not {s lead : String} (h : hasPrefix s lead = false) :
    trimPrefix s lead = s := by
  rw [trimPrefix, h]
  rfl

theorem append_trimPrefix {s lead : String} (h : hasPrefix s lead = true) :
    lead ++ trimPrefix s lead = s := by
  obtain ⟨rest, hrest⟩ := List.isPrefixOf_iff_prefix.mp h
  obtain rfl : s = lead ++ String.ofList rest := by
    rw [← String.toList_inj, String.toList_append, String.toList_ofList, hrest]
  rw [trimPrefix_append]

theorem trimPrefix_ne {s lead : String} (h : hasPrefix s lead = true) (ne : lead ≠ "") :
    trimPrefix s lead ≠ s := by
  intro same
  have hs := append_trimPrefix h
  rw [same] at hs
  have hlen := congrArg String.length hs
  rw [String.length_append] at hlen
  exact ne (String.length_eq_zero_iff.mp (by omega))

/-- `unicode.IsSpace`. -/
def isSpace (r : Char) : Bool :=
  [9, 10, 11, 12, 13, 32, 0x85, 0xA0, 0x1680, 0x2028, 0x2029, 0x202F, 0x205F, 0x3000].contains
      r.toNat || (0x2000 ≤ r.toNat && r.toNat ≤ 0x200A)

/-- `strings.TrimSpace`. -/
def trimSpace (s : String) : String :=
  String.ofList ((s.toList.dropWhile isSpace).reverse.dropWhile isSpace).reverse

theorem trimSpace_of_unspaced {s : String} (h : ∀ r ∈ s.toList, isSpace r = false) :
    trimSpace s = s := by
  have hdrop : ∀ rs : List Char, (∀ r ∈ rs, isSpace r = false) → rs.dropWhile isSpace = rs := by
    intro rs hrs
    cases rs with
    | nil => rfl
    | cons r rs =>
        rw [List.dropWhile_cons_of_neg]
        rw [hrs r List.mem_cons_self]
        exact Bool.false_ne_true
  have hreverse : ∀ r ∈ s.toList.reverse, isSpace r = false := fun r hr =>
    h r (List.mem_reverse.mp hr)
  rw [trimSpace, hdrop _ h, hdrop _ hreverse, List.reverse_reverse, String.ofList_toList]

/-- `strings.ToLower`, as a comparison with ASCII words sees it: two letters beyond
ASCII have an ASCII lower case. -/
def toLower (s : String) : String :=
  String.ofList (s.toList.map fun r =>
    if r.toNat = 0x130 then 'i' else if r.toNat = 0x212A then 'k' else r.toLower)

/-- `strconv.Atoi`; an error is `none`. -/
def atoi (s : String) : Option Int :=
  let magnitude (ds : List Char) : Option Nat :=
    if ds ≠ [] ∧ ds.all Char.isDigit then
      some (ds.foldl (fun n d => 10 * n + (d.toNat - '0'.toNat)) 0)
    else none
  match s.toList with
  | '-' :: ds => (magnitude ds).bind fun n => if n ≤ 2 ^ 63 then some (-n) else none
  | '+' :: ds | ds => (magnitude ds).bind fun n => if n < 2 ^ 63 then some n else none

/-- What follows the last `sep`, if there is one (`strings.LastIndex`). -/
def afterLast (sep : Char) (s : String) : Option String :=
  let tail := s.toList.reverse.takeWhile (· ≠ sep)
  if tail.length < s.toList.length then some (String.ofList tail.reverse) else none

variable [Unicode]

/-- One character of a quoted literal whose delimiter is `delim` (`strconv`). -/
def escapeRune (delim r : Char) : String :=
  if r = delim ∨ r = '\\' then String.ofList ['\\', r]
  else if Unicode.isPrint r then String.ofList [r]
  else match r.toNat with
    | 7 => "\\a"
    | 8 => "\\b"
    | 9 => "\\t"
    | 10 => "\\n"
    | 11 => "\\v"
    | 12 => "\\f"
    | 13 => "\\r"
    | n =>
      if n < 32 ∨ n = 127 then "\\x" ++ hexDigits 2 n
      else if n < 65536 then "\\u" ++ hexDigits 4 n
      else "\\U" ++ hexDigits 8 n

/-- `%q` of a rune. -/
def quoteRune (r : Char) : String :=
  let delim := Char.ofNat 39
  String.ofList [delim] ++ escapeRune delim r ++ String.ofList [delim]

/-- `%q` of a string. -/
def quote (s : String) : String :=
  let delim := Char.ofNat 34
  String.ofList [delim] ++ String.join (s.toList.map (escapeRune delim)) ++ String.ofList [delim]

end Go
