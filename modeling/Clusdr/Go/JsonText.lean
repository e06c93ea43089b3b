import Mathlib.Data.List.Basic
import Clusdr.Go.Json

/-!
The text of JSON documents: what `json.Marshal` writes and what `json.Unmarshal`
reads. Texts are sequences of characters. The text of a time depends on the zone
of the machine and is not opened up, so a document with a time has none.
-/

namespace Go.Json

/-! Writing. -/

/-- One character of a string, with the escapes for HTML. -/
def escape (r : Char) : List Char :=
  if r = '\x22' ∨ r = '\\' then ['\\', r]
  else match r.toNat with
    | 8 => ['\\', 'b']
    | 9 => ['\\', 't']
    | 10 => ['\\', 'n']
    | 12 => ['\\', 'f']
    | 13 => ['\\', 'r']
    | n =>
      if n < 32 ∨ r = '<' ∨ r = '>' ∨ r = '&' then
        ['\\', 'u', '0', '0', Nat.digitChar (n / 16), Nat.digitChar (n % 16)]
      else if n = 0x2028 ∨ n = 0x2029 then ['\\', 'u', '2', '0', '2', Nat.digitChar (n % 16)]
      else [r]

def quoted (s : String) : List Char := '\x22' :: (s.toList.flatMap escape ++ ['\x22'])

def intText : Int → List Char
  | .ofNat n => Nat.toDigits 10 n
  | .negSucc n => '-' :: Nat.toDigits 10 (n + 1)

mutual

def text : Json → Option (List Char)
  | .null => some "null".toList
  | .bool b => some (if b then "true" else "false").toList
  | .str s => some (quoted s)
  | .num n => some (intText n)
  | .time _ => none
  | .arr xs => (textElements xs).map fun t => '[' :: (t ++ [']'])
  | .obj fields => (textMembers fields).map fun t => '\x7b' :: (t ++ ['\x7d'])

def textElements : List Json → Option (List Char)
  | [] => some []
  | [x] => x.text
  | x :: xs => do return (← x.text) ++ ',' :: (← textElements xs)

def textMembers : List (String × Json) → Option (List Char)
  | [] => some []
  | [(key, x)] => do return quoted key ++ ':' :: (← x.text)
  | (key, x) :: fields => do
      return quoted key ++ ':' :: (← x.text) ++ ',' :: (← textMembers fields)

end

mutual

/-- How deep arrays and objects are nested. -/
def depth : Json → Nat
  | .arr xs => depthElements xs + 1
  | .obj fields => depthMembers fields + 1
  | _ => 0

def depthElements : List Json → Nat
  | [] => 0
  | x :: xs => max x.depth (depthElements xs)

def depthMembers : List (String × Json) → Nat
  | [] => 0
  | (_, x) :: fields => max x.depth (depthMembers fields)

end

/-! Reading. -/

def isSpace (r : Char) : Bool := r == ' ' || r == '\t' || r == '\r' || r == '\n'

def skipSpace (text : List Char) : List Char := text.dropWhile isSpace

def hexVal (r : Char) : Option Nat :=
  if '0' ≤ r ∧ r ≤ '9' then some (r.toNat - '0'.toNat)
  else if 'a' ≤ r ∧ r ≤ 'f' then some (r.toNat - 'a'.toNat + 10)
  else if 'A' ≤ r ∧ r ≤ 'F' then some (r.toNat - 'A'.toNat + 10)
  else none

/-- `getu4`, after the `u`. -/
def hex4 (a b c d : Char) : Option Nat := do
  return (((← hexVal a) * 16 + (← hexVal b)) * 16 + (← hexVal c)) * 16 + (← hexVal d)

def replacement : Char := Char.ofNat 0xFFFD

/-- `utf16.DecodeRune`. -/
def decodePair (hi lo : Nat) : Option Char :=
  if 0xD800 ≤ hi ∧ hi < 0xDC00 ∧ 0xDC00 ≤ lo ∧ lo < 0xE000 then
    some (Char.ofNat ((hi - 0xD800) * 0x400 + (lo - 0xDC00) + 0x10000))
  else none

/-- The escapes of one letter. -/
def letterEscape (r : Char) : Option Char :=
  if r = '\x22' ∨ r = '\\' ∨ r = '/' then some r
  else if r = 'b' then some (Char.ofNat 8)
  else if r = 'f' then some (Char.ofNat 12)
  else if r = 'n' then some '\n'
  else if r = 'r' then some '\r'
  else if r = 't' then some '\t'
  else none

/-- One character of a string. A surrogate without its partner is replaced. -/
def unescape : List Char → Option (Char × List Char)
  | '\\' :: 'u' :: a :: b :: c :: d :: text =>
      match hex4 a b c d with
      | none => none
      | some n =>
          if 0xD800 ≤ n ∧ n < 0xE000 then
            match text with
            | '\\' :: 'u' :: a :: b :: c :: d :: rest =>
                match (hex4 a b c d).bind (decodePair n) with
                | some r => some (r, rest)
                | none => some (replacement, text)
            | _ => some (replacement, text)
          else some (Char.ofNat n, text)
  | '\\' :: r :: text => (letterEscape r).map fun r => (r, text)
  | r :: text => if r = '\\' ∨ r.toNat < 32 then none else some (r, text)
  | [] => none

/-- The rest of a string after its opening quote. -/
def unquote : Nat → List Char → Option (List Char × List Char)
  | 0, text =>
      match text with
      | '\x22' :: text => some ([], text)
      | _ => none
  | fuel + 1, text =>
      match text with
      | '\x22' :: text => some ([], text)
      | text => do
          let (r, text) ← unescape text
          let (rs, text) ← unquote fuel text
          return (r :: rs, text)

/-- The digits a numeral must have here. -/
def someDigits (text : List Char) : Option (List Char) :=
  if text.takeWhile Char.isDigit = [] then none else some (text.dropWhile Char.isDigit)

def fraction : List Char → Option (Bool × List Char)
  | '.' :: text => (someDigits text).map fun text => (true, text)
  | text => some (false, text)

def dropSign : List Char → List Char
  | '+' :: text | '-' :: text => text
  | text => text

def exponent : List Char → Option (Bool × List Char)
  | 'e' :: text | 'E' :: text => (someDigits (dropSign text)).map fun text => (true, text)
  | text => some (false, text)

/-- What follows the integer part, and whether anything did. -/
def afterInteger (text : List Char) : Option (Bool × List Char) := do
  let (f, text) ← fraction text
  let (e, text) ← exponent text
  return (f || e, text)

/-- No field holds a numeral with a fraction or an exponent: it is read as a number
that is out of the range of all of them. -/
def outOfRange : Json := .num (2 ^ 64)

def number (negative : Bool) (text : List Char) : Option (Json × List Char) :=
  let digits := text.takeWhile Char.isDigit
  if digits = [] ∨ (digits.head? = some '0' ∧ digits.length ≠ 1) then none
  else do
    let (fraction, rest) ← afterInteger (text.dropWhile Char.isDigit)
    let n : Nat := Nat.ofDigitChars 10 digits 0
    return (if fraction then outOfRange else .num (if negative then -n else n), rest)

def scalar : List Char → Option (Json × List Char)
  | '\x22' :: text => do
      let (s, text) ← unquote text.length text
      return (.str (String.ofList s), text)
  | 'n' :: 'u' :: 'l' :: 'l' :: text => some (.null, text)
  | 't' :: 'r' :: 'u' :: 'e' :: text => some (.bool true, text)
  | 'f' :: 'a' :: 'l' :: 's' :: 'e' :: text => some (.bool false, text)
  | '-' :: text => number true text
  | text => number false text

/-- The elements of an array, and its closing bracket. -/
def elements (value : List Char → Option (Json × List Char)) :
    Nat → List Char → Option (List Json × List Char)
  | 0, _ => none
  | fuel + 1, text => do
      let (x, text) ← value text
      match skipSpace text with
      | ']' :: text => return ([x], text)
      | ',' :: text =>
          let (xs, text) ← elements value fuel text
          return (x :: xs, text)
      | _ => none

/-- One member of an object. -/
def member (value : List Char → Option (Json × List Char)) (text : List Char) :
    Option ((String × Json) × List Char) :=
  match skipSpace text with
  | '\x22' :: text => do
      let (key, text) ← unquote text.length text
      match skipSpace text with
      | ':' :: text =>
          let (x, text) ← value text
          return ((String.ofList key, x), text)
      | _ => none
  | _ => none

def members (value : List Char → Option (Json × List Char)) :
    Nat → List Char → Option (List (String × Json) × List Char)
  | 0, _ => none
  | fuel + 1, text => do
      let (field, text) ← member value text
      match skipSpace text with
      | '\x7d' :: text => return ([field], text)
      | ',' :: text =>
          let (fields, text) ← members value fuel text
          return (field :: fields, text)
      | _ => none

/-- A value that nests at most `depth` deep. -/
def value : Nat → List Char → Option (Json × List Char)
  | 0, text => scalar (skipSpace text)
  | depth + 1, text =>
      match skipSpace text with
      | '[' :: text =>
          match skipSpace text with
          | ']' :: text => some (.arr [], text)
          | _ => (elements (value depth) text.length text).map fun (xs, text) => (.arr xs, text)
      | '\x7b' :: text =>
          match skipSpace text with
          | '\x7d' :: text => some (.obj [], text)
          | _ => (members (value depth) text.length text).map fun (fields, text) =>
              (.obj fields, text)
      | text => scalar text

def maxNestingDepth : Nat := 10000

/-- `json.Unmarshal`, up to the document. -/
def parse (text : List Char) : Option Json :=
  match value maxNestingDepth text with
  | some (j, rest) => if skipSpace rest = [] then some j else none
  | none => none

end Go.Json
