import Clusdr.Go.Time
import Mathlib.Algebra.GroupWithZero.Nat
import Mathlib.Data.Nat.Log

/-!
Durations as text: `Duration.String` and `time.ParseDuration`.
-/

namespace Go

namespace Duration

theorem half_le {d : Duration} (pos : 0 < d) : d / 2 ≤ d := by
  have hpos : 0 < d.toInt := Int64.lt_iff_toInt_lt.mp pos
  have htwo : (2 : Int64).toInt = 2 := rfl
  rw [Int64.le_iff_toInt_le, Int64.toInt_div_of_ne_right _ _ (by decide), htwo,
    Int.tdiv_eq_ediv_of_nonneg (Int.le_of_lt hpos)]
  omega

/-- The digits of `n` behind the point, `prec` places, without trailing zeros. -/
def fraction (n prec : Nat) : String :=
  let ds := Nat.toDigits 10 (n % 10 ^ prec)
  let padded := List.replicate (prec - ds.length) '0' ++ ds
  let ds := (padded.reverse.dropWhile (· = '0')).reverse
  if ds.isEmpty then "" else "." ++ String.ofList ds

/-- `Duration.String`. -/
def text (d : Duration) : String :=
  let u := d.toInt.natAbs
  let small (prec : Nat) (unit : String) := toString (u / 10 ^ prec) ++ fraction u prec ++ unit
  let size :=
    if u = 0 then "0s"
    else if u < 1000 then small 0 "ns"
    else if u < 1000000 then small 3 "µs"
    else if u < 1000000000 then small 6 "ms"
    else
      let s := u / 1000000000
      let m := s / 60
      let h := m / 60
      (if h = 0 then "" else toString h ++ "h") ++
        (if m = 0 then "" else toString (m % 60) ++ "m") ++
        toString (s % 60) ++ fraction u 9 ++ "s"
  (if d < 0 then "-" else "") ++ size

example : text 75000000 = "75ms" := by decide
example : text (-5400500000000) = "-1h30m0.5s" := by decide

/-! `float64`, for the fractions `time.ParseDuration` accepts: a positive value is a
fraction, and a result is rounded to 53 bits, to the even one of two nearest. -/

def roundFloat (num den : Nat) : Nat × Nat :=
  let shift (num den : Nat) (e : Int) : Nat × Nat := (num * 2 ^ (-e).toNat, den * 2 ^ e.toNat)
  -- The quotient scaled by `e` lies between 2^52 and 2^54.
  let e : Int := Nat.log2 num - Nat.log2 den - 53
  let (n, d) := shift num den e
  let e := if n / d < 2 ^ 53 then e else e + 1
  let (n, d) := shift num den e
  let q := n / d
  let r := n % d
  let q := if d < 2 * r ∨ (d = 2 * r ∧ q % 2 = 1) then q + 1 else q
  (q * 2 ^ e.toNat, 2 ^ (-e).toNat)

/-- `uint64(float64(f) * (float64(unit) / scale))`, with `scale = 10 ^ digits`. -/
def scaleFraction (f digits unit : Nat) : Nat :=
  let (n₁, d₁) := roundFloat f 1
  let (n₂, d₂) := roundFloat unit (10 ^ digits)
  let (n, d) := roundFloat (n₁ * n₂) (d₁ * d₂)
  n / d

def isNumeral (c : Char) : Bool := '0' ≤ c && c ≤ '9'

def numeral (c : Char) : Nat := c.toNat - '0'.toNat

/-- `leadingInt`; `none` when the number exceeds 2^63. -/
def leadingInt (ds : List Char) : Option Nat :=
  let x := ds.foldl (fun x c => 10 * x + numeral c) 0
  if x ≤ 2 ^ 63 then some x else none

/-- `leadingFraction`: the number, and how many of its digits it has. A digit that
does not fit is skipped, and so are those after it. -/
def leadingFraction (ds : List Char) : Nat × Nat :=
  let (x, digits, _) := ds.foldl (fun (x, digits, overflow) c =>
    let y := 10 * x + numeral c
    if overflow ∨ (2 ^ 63 - 1) / 10 < x ∨ 2 ^ 63 < y then (x, digits, true)
    else (y, digits + 1, false)) (0, 0, false)
  (x, digits)

def unitNs (unit : String) : Option Nat :=
  if unit = "ns" then some 1
  else if unit = "us" ∨ unit = "µs" ∨ unit = "μs" then some 1000
  else if unit = "ms" then some 1000000
  else if unit = "s" then some 1000000000
  else if unit = "m" then some 60000000000
  else if unit = "h" then some 3600000000000
  else none

/-- One number with its unit, and what follows it. -/
def parseTerm (s : List Char) : Option (Nat × List Char) := do
  let whole := s.takeWhile isNumeral
  let s := s.dropWhile isNumeral
  let v ← leadingInt whole
  let (part, s) := match s with
    | '.' :: s => (s.takeWhile isNumeral, s.dropWhile isNumeral)
    | s => ([], s)
  guard (whole ≠ [] ∨ part ≠ [])
  let unit ← unitNs (String.ofList (s.takeWhile fun c => c ≠ '.' && !isNumeral c))
  let (f, digits) := leadingFraction part
  guard (v ≤ 2 ^ 63 / unit)
  let v := v * unit + if 0 < f then scaleFraction f digits unit else 0
  guard (v ≤ 2 ^ 63)
  return (v, s.dropWhile fun c => c ≠ '.' && !isNumeral c)

/-- The terms of a duration; each takes at least one character. -/
def parseTerms : Nat → Nat → List Char → Option Nat
  | _, d, [] => some d
  | 0, _, _ :: _ => none
  | fuel + 1, d, s => do
      let (v, s) ← parseTerm s
      let d := (d + v) % 2 ^ 64
      guard (d ≤ 2 ^ 63)
      parseTerms fuel d s

/-- `time.ParseDuration`; an error is `none`. -/
def parse (s : String) : Option Duration := do
  let (neg, s) := match s.toList with
    | '-' :: s => (true, s)
    | '+' :: s => (false, s)
    | s => (false, s)
  if s = ['0'] then return 0
  guard (s ≠ [])
  let d ← parseTerms s.length 0 s
  if neg then return Int64.ofInt (-d)
  guard (d < 2 ^ 63)
  return Int64.ofInt d

example : parse "150ms" = some 150000000 := by decide
example : parse "-1h30.5s" = some (-3630500000000) := by decide
example : parse "5" = none := by decide

end Duration

end Go
