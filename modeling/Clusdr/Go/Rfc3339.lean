import Mathlib.Data.List.DropRight
import Clusdr.Go.Calendar
import Clusdr.Go.Time

/-!
The text of times in JSON documents: RFC 3339 with the fraction of the second that
is needed. A text shows the clock of some zone and the distance of that zone from
UTC in minutes. Where the distance has seconds they are dropped, so the text stands
for another instant then.

Texts that only the lenient `time.Parse` reads are refused.
-/

namespace Go.Rfc3339

open Calendar (Date)

/-! Writing. -/

/-- `appendInt` of a number that has at most `width` digits. -/
def pad : Nat → Nat → List Char
  | 0, _ => []
  | width + 1, n => pad width (n / 10) ++ [Nat.digitChar (n % 10)]

/-- Nanoseconds from January 1 of year 0 to the Unix epoch. -/
def epoch : Int := 62167219200000000000

/-- `appendNano` with trailing zeros cut off. -/
def fraction (nano : Nat) : List Char :=
  match (pad 9 nano).rdropWhile (· == '0') with
  | [] => []
  | digits => '.' :: digits

/-- The zone, from its distance to UTC in seconds. -/
def zoneText (offset : Int) : List Char :=
  if offset = 0 then ['Z']
  else
    let zone := offset.tdiv 60
    (if zone < 0 then '-' else '+') :: (pad 2 (zone.natAbs / 60) ++ ':' :: pad 2 (zone.natAbs % 60))

def clockText (second : Nat) : List Char :=
  pad 2 (second / 3600) ++ ':' :: (pad 2 (second / 60 % 60) ++ ':' :: pad 2 (second % 60))

def dateText (date : Date) : List Char :=
  pad 4 date.year ++ '-' :: (pad 2 date.month ++ '-' :: pad 2 date.day)

/-- `appendStrictRFC3339`: years of more than four digits and zones of a day or more
are refused. -/
def format (offset : Int) (t : Time) : Option (List Char) :=
  let shown := epoch + t + offset * 1000000000
  if shown < 0 then none
  else
    let n := shown.toNat
    let date := Date.ofDays (n / 86400000000000)
    if 9999 < date.year ∨ 24 ≤ offset.natAbs / 3600 then none
    else some (dateText date ++ 'T' :: (clockText (n / 1000000000 % 86400) ++
      (fraction (n % 1000000000) ++ zoneText offset)))

/-! Reading. -/

/-- `parseUint` of the next `width` bytes. -/
def uint (width max : Nat) (s : List Char) : Option (Nat × List Char) :=
  let digits := s.take width
  let n := Nat.ofDigitChars 10 digits 0
  if digits.length = width ∧ digits.all Char.isDigit ∧ n ≤ max then some (n, s.drop width) else none

def mark (r : Char) : List Char → Option (List Char)
  | c :: s => if c = r then some s else none
  | [] => none

/-- `parseNanoseconds`, which reads nine digits and skips the rest. -/
def nanoseconds (digits : List Char) : Nat :=
  Nat.ofDigitChars 10 (digits.take 9) 0 * 10 ^ (9 - (digits.take 9).length)

def readFraction : List Char → Nat × List Char
  | '.' :: s =>
      if s.takeWhile Char.isDigit = [] then (0, '.' :: s)
      else (nanoseconds (s.takeWhile Char.isDigit), s.dropWhile Char.isDigit)
  | s => (0, s)

/-- The distance to UTC in seconds. -/
def readZone : List Char → Option Int
  | ['Z'] => some 0
  | sign :: s => do
      let (hr, s) ← uint 2 23 s
      let s ← mark ':' s
      let (mm, s) ← uint 2 59 s
      if s = [] then
        if sign = '+' then some ((hr * 60 + mm) * 60 : Nat)
        else if sign = '-' then some (-((hr * 60 + mm) * 60 : Nat))
        else none
      else none
  | [] => none

def readClock (s : List Char) : Option (Nat × List Char) := do
  let (hour, s) ← uint 2 23 s
  let s ← mark ':' s
  let (min, s) ← uint 2 59 s
  let s ← mark ':' s
  let (sec, s) ← uint 2 59 s
  return (hour * 3600 + min * 60 + sec, s)

def readDate (s : List Char) : Option (Date × List Char) := do
  let (year, s) ← uint 4 9999 s
  let s ← mark '-' s
  let (month, s) ← uint 2 12 s
  let s ← mark '-' s
  let (day, s) ← uint 2 31 s
  let date ← Date.ofParts year month day
  return (date, s)

/-- `parseRFC3339`. -/
def parse (s : List Char) : Option Time := do
  let (date, s) ← readDate s
  let s ← mark 'T' s
  let (second, s) ← readClock s
  let (nano, s) := readFraction s
  let offset ← readZone s
  return ((date.toDays * 86400 + second) * 1000000000 + nano : Nat) - epoch - offset * 1000000000

/-! What is written is read. -/

@[simp] theorem length_pad (width n : Nat) : (pad width n).length = width := by
  induction width generalizing n with
  | zero => rfl
  | succ width ih => simp [pad, ih]

theorem isDigit_of_mem_pad {width n : Nat} {r : Char} (h : r ∈ pad width n) :
    r.isDigit = true := by
  induction width generalizing n with
  | zero => exact absurd h List.not_mem_nil
  | succ width ih =>
      rcases List.mem_append.mp h with h | h
      · exact ih h
      · rw [List.mem_singleton.mp h, Nat.isDigit_digitChar]
        exact decide_eq_true (Nat.mod_lt n (by decide))

theorem digitChar_sub : ∀ n < 10, (Nat.digitChar n).toNat - '0'.toNat = n := by decide

theorem ofDigitChars_pad {width n : Nat} (h : n < 10 ^ width) :
    Nat.ofDigitChars 10 (pad width n) 0 = n := by
  induction width generalizing n with
  | zero => exact (Nat.lt_one_iff.mp h).symm
  | succ width ih =>
      have hhead := ih (n := n / 10) (Nat.div_lt_of_lt_mul (by rw [Nat.pow_succ] at h; omega))
      have hlast := digitChar_sub (n % 10) (Nat.mod_lt n (by decide))
      rw [pad, Nat.ofDigitChars_append, hhead, Nat.ofDigitChars_cons, Nat.ofDigitChars_nil, hlast]
      omega

theorem uint_pad (width : Nat) {max n : Nat} (rest : List Char) (hmax : n ≤ max)
    (h : n < 10 ^ width) : uint width max (pad width n ++ rest) = some (n, rest) := by
  have htake : (pad width n ++ rest).take width = pad width n := List.take_left' (length_pad _ _)
  have hdrop : (pad width n ++ rest).drop width = rest := List.drop_left' (length_pad _ _)
  have hall : (pad width n).all Char.isDigit = true :=
    List.all_eq_true.mpr fun r => isDigit_of_mem_pad
  simp only [uint, htake, hdrop, ofDigitChars_pad h]
  exact if_pos ⟨length_pad _ _, hall, hmax⟩

@[simp] theorem mark_cons (r : Char) (s : List Char) : mark r (r :: s) = some s := if_pos rfl

theorem readClock_clockText {second : Nat} (rest : List Char) (h : second < 86400) :
    readClock (clockText second ++ rest) = some (second, rest) := by
  have hhour : second / 3600 ≤ 23 := by omega
  have hmin : second / 60 % 60 ≤ 59 := by omega
  have hsec : second % 60 ≤ 59 := by omega
  have hsum : second / 3600 * 3600 + second / 60 % 60 * 60 + second % 60 = second := by omega
  simp only [readClock, clockText, List.append_assoc, List.cons_append, bind, Option.bind, pure,
    uint_pad 2 _ hhour (by omega), uint_pad 2 _ hmin (by omega), uint_pad 2 _ hsec (by omega),
    mark_cons, hsum]

theorem readDate_dateText {date : Date} (rest : List Char) (h : date.year ≤ 9999) :
    readDate (dateText date ++ rest) = some (date, rest) := by
  have hmonth := date.month_le
  have hday := date.day_le_thirtyOne
  simp only [readDate, dateText, List.append_assoc, List.cons_append, bind, Option.bind, pure,
    uint_pad 4 _ h (by omega), uint_pad 2 _ hmonth (by omega), uint_pad 2 _ hday (by omega),
    mark_cons, Date.ofParts_parts]

/-- The seconds of the zone are lost. -/
theorem readZone_zoneText {offset : Int} (h : offset.natAbs / 3600 < 24) :
    readZone (zoneText offset) = some (offset - offset.tmod 60) := by
  by_cases hzero : offset = 0
  · subst hzero
    rfl
  · have habs : (offset.tdiv 60).natAbs = offset.natAbs / 60 := Int.natAbs_tdiv offset 60
    have hwhole : offset - offset.tmod 60 = 60 * offset.tdiv 60 := by
      have := Int.mul_tdiv_add_tmod offset 60
      omega
    rw [hwhole, zoneText, if_neg hzero]
    generalize offset.tdiv 60 = zone at habs hwhole
    have hhr : zone.natAbs / 60 ≤ 23 := by omega
    have hmm : uint 2 59 (pad 2 (zone.natAbs % 60)) = some (zone.natAbs % 60, []) := by
      have := @uint_pad 2 59 (zone.natAbs % 60) [] (by omega) (by omega)
      rwa [List.append_nil] at this
    have hread : ∀ sign, readZone (sign :: (pad 2 (zone.natAbs / 60) ++
        ':' :: pad 2 (zone.natAbs % 60))) =
        if sign = '+' then some (60 * zone.natAbs : Int)
        else if sign = '-' then some (-(60 * zone.natAbs : Int)) else none := by
      intro sign
      have hne : ∀ hr, pad 2 hr ++ ':' :: pad 2 (zone.natAbs % 60) ≠ [] := by simp
      unfold readZone
      split
      · rename_i heq
        exact absurd (List.cons.inj heq).2 (hne _)
      · rename_i heq
        obtain ⟨rfl, rfl⟩ := List.cons.inj heq
        simp only [uint_pad 2 _ hhr (by omega), bind, Option.bind, mark_cons, hmm, if_true]
        have hsum : ((zone.natAbs / 60 * 60 + zone.natAbs % 60) * 60 : Nat) =
            (60 * zone.natAbs : Int) := by omega
        rw [hsum]
      · rename_i heq
        exact absurd heq (by simp)
    rw [hread]
    by_cases hneg : zone < 0
    · rw [if_pos hneg, if_neg (by decide), if_pos rfl]
      congr 1
      omega
    · rw [if_neg hneg, if_pos rfl]
      congr 1
      omega

theorem ofDigitChars_zeros (k init : Nat) :
    Nat.ofDigitChars 10 (List.replicate k '0') init = init * 10 ^ k := by
  induction k generalizing init with
  | zero => simp [Nat.ofDigitChars_nil]
  | succ k ih =>
      rw [List.replicate_succ, Nat.ofDigitChars_cons, ih, Nat.pow_succ]
      rw [Nat.sub_self, Nat.add_zero, Nat.mul_comm 10 init, Nat.mul_assoc, Nat.mul_comm 10]

/-- Digits with their trailing zeros cut off. -/
theorem nanoseconds_rdropWhile {digits : List Char} (h : digits.length = 9) :
    nanoseconds (digits.rdropWhile (· == '0')) = Nat.ofDigitChars 10 digits 0 := by
  have hsplit := @List.rdropWhile_append_rtakeWhile _ (· == '0') digits
  have hzeros : digits.rtakeWhile (· == '0') =
      List.replicate (digits.rtakeWhile (· == '0')).length '0' :=
    List.eq_replicate_iff.mpr ⟨rfl, fun r hr => by simpa using List.mem_rtakeWhile_imp hr⟩
  generalize digits.rtakeWhile (· == '0') = zeros at hsplit hzeros
  generalize digits.rdropWhile (· == '0') = kept at hsplit
  subst hsplit
  rw [List.length_append] at h
  have htake : kept.take 9 = kept := List.take_of_length_le (by omega)
  rw [nanoseconds, htake, Nat.ofDigitChars_append, hzeros, ofDigitChars_zeros]
  congr 2
  omega

/-- The fraction ends before the zone. -/
theorem readFraction_fraction {nano : Nat} {rest : List Char} (h : nano < 1000000000)
    (hrest : ∀ r ∈ rest.head?, r.isDigit = false ∧ r ≠ '.') :
    readFraction (fraction nano ++ rest) = (nano, rest) := by
  have hvalue : nanoseconds ((pad 9 nano).rdropWhile (· == '0')) = nano := by
    rw [nanoseconds_rdropWhile (length_pad 9 nano), ofDigitChars_pad h]
  have hdigits : ∀ r ∈ (pad 9 nano).rdropWhile (· == '0'), r.isDigit = true := fun r hr =>
    isDigit_of_mem_pad ((List.rdropWhile_prefix _ _).subset hr)
  unfold fraction
  generalize (pad 9 nano).rdropWhile (· == '0') = digits at hvalue hdigits
  have hstop : rest.takeWhile Char.isDigit = [] ∧ rest.dropWhile Char.isDigit = rest := by
    cases rest with
    | nil => exact ⟨rfl, rfl⟩
    | cons r rest => simp [(hrest r rfl).1]
  cases digits with
  | nil =>
      have hzero : nano = 0 := hvalue.symm
      rw [hzero]
      unfold readFraction
      split
      · rename_i s heq
        have hdot := (hrest '.' (by rw [← List.nil_append rest, heq]; rfl)).2
        exact absurd rfl hdot
      · rfl
  | cons d digits =>
      have htake : ((d :: digits) ++ rest).takeWhile Char.isDigit = d :: digits := by
        rw [List.takeWhile_append_of_pos hdigits, hstop.1, List.append_nil]
      have hdrop : ((d :: digits) ++ rest).dropWhile Char.isDigit = rest := by
        rw [List.dropWhile_append_of_pos hdigits, hstop.2]
      show (if ((d :: digits) ++ rest).takeWhile Char.isDigit = [] then _ else
        (nanoseconds (((d :: digits) ++ rest).takeWhile Char.isDigit),
          ((d :: digits) ++ rest).dropWhile Char.isDigit)) = (nano, rest)
      rw [htake, hdrop, hvalue, if_neg (List.cons_ne_nil _ _)]

theorem zoneText_head (offset : Int) :
    ∀ r ∈ (zoneText offset).head?, r.isDigit = false ∧ r ≠ '.' := by
  unfold zoneText
  split
  · rintro r ⟨⟩
    exact ⟨rfl, by decide⟩
  · simp only [List.head?_cons, Option.mem_some_iff, forall_eq']
    split <;> decide

/-- The instant a text stands for: later than the one it was written for by the seconds
of its zone. -/
def stands (offset : Int) (t : Time) : Time := t + offset.tmod 60 * 1000000000

theorem stands_minutes {offset : Int} (minutes : offset.tmod 60 = 0) (t : Time) :
    stands offset t = t := by
  rw [stands, minutes, Int.zero_mul, Int.add_zero]

theorem parse_format {offset : Int} {t : Time} {s : List Char} (h : format offset t = some s) :
    parse s = some (stands offset t) := by
  unfold format at h
  dsimp only at h
  split at h
  · cases h
  · rename_i hnonneg
    split at h
    · cases h
    · rename_i hrange
      rw [not_or, Nat.not_lt, Nat.not_le] at hrange
      obtain ⟨hyear, hzone⟩ := hrange
      obtain rfl := Option.some.inj h
      have hn : ((epoch + t + offset * 1000000000).toNat : Int) =
          epoch + t + offset * 1000000000 := Int.toNat_of_nonneg (by omega)
      generalize (epoch + t + offset * 1000000000).toNat = n at hn hyear
      have hparts : (n / 86400000000000 * 86400 + n / 1000000000 % 86400) * 1000000000 +
          n % 1000000000 = n := by omega
      simp only [parse, bind, Option.bind, pure, readDate_dateText _ hyear, mark_cons,
        readClock_clockText _ (Nat.mod_lt _ (by decide)),
        readFraction_fraction (Nat.mod_lt _ (by decide)) (zoneText_head offset),
        readZone_zoneText hzone, Date.toDays_ofDays, hparts, hn]
      have hshift : ∀ e t o r : Int,
          e + t + o * 1000000000 - e - (o - r) * 1000000000 = t + r * 1000000000 := by
        intro e t o r
        omega
      exact congrArg some (hshift _ _ _ _)

/-- A quarter of a second on a leap day, seen from New York. -/
example : format (-18000) 1709251199250000000 = some "2024-02-29T18:59:59.25-05:00".toList := by
  decide +kernel

/-- The mean time of Amsterdam was 19 minutes and 32 seconds ahead. -/
example : (format 1172 0).bind parse = some 32000000000 := by decide +kernel

end Go.Rfc3339
