import Mathlib.Algebra.GroupWithZero.Nat

/-!
The Gregorian calendar, counted in days from January 1 of year 0. A date is a
value only if its month has the day.
-/

namespace Go.Calendar

def isLeap (year : Nat) : Bool :=
  year % 4 == 0 && (year % 100 != 0 || year % 400 == 0)

/-- The days of the years before this one. -/
def daysBefore (year : Nat) : Nat :=
  365 * year + (year + 3) / 4 + (year + 399) / 400 - (year + 99) / 100

def daysInYear (year : Nat) : Nat := if isLeap year then 366 else 365

def monthLengths (year : Nat) : List Nat :=
  [31, if isLeap year then 29 else 28, 31, 30, 31, 30, 31, 31, 30, 31, 30, 31]

/-- `daysIn`; months are counted from 1. -/
def daysIn (month year : Nat) : Nat := (monthLengths year).getD (month - 1) 0

theorem daysBefore_succ (year : Nat) :
    daysBefore (year + 1) = daysBefore year + daysInYear year := by
  have four : (year + 1 + 3) / 4 = (year + 3) / 4 + if year % 4 = 0 then 1 else 0 := by
    split <;> omega
  have hundred : (year + 1 + 99) / 100 = (year + 99) / 100 + if year % 100 = 0 then 1 else 0 := by
    split <;> omega
  have fourHundred :
      (year + 1 + 399) / 400 = (year + 399) / 400 + if year % 400 = 0 then 1 else 0 := by
    split <;> omega
  have fewer : (year + 99) / 100 ≤ (year + 3) / 4 := by omega
  have hundred_four : year % 100 = 0 → year % 4 = 0 := by omega
  have fourHundred_hundred : year % 400 = 0 → year % 100 = 0 := by omega
  have leap : isLeap year = true ↔ year % 4 = 0 ∧ (year % 100 ≠ 0 ∨ year % 400 = 0) := by
    simp [isLeap]
  simp only [daysBefore, daysInYear, leap, four, hundred, fourHundred]
  -- the quotients count as numbers from here on
  generalize (year + 3) / 4 = a at fewer
  generalize (year + 99) / 100 = b at fewer
  by_cases h4 : year % 4 = 0
  · by_cases h100 : year % 100 = 0
    · by_cases h400 : year % 400 = 0
      · simp only [h4, h100, h400, ne_eq, not_true, or_true, and_true, if_true]
        omega
      · simp only [h4, h100, h400, ne_eq, not_true, or_false, and_false, if_true, if_false]
        omega
    · have h400 : ¬ year % 400 = 0 := fun h => h100 (fourHundred_hundred h)
      simp only [h4, h100, h400, ne_eq, not_false_eq_true, or_false, and_true, if_true, if_false]
      omega
  · have h100 : ¬ year % 100 = 0 := fun h => h4 (hundred_four h)
    have h400 : ¬ year % 400 = 0 := fun h => h100 (fourHundred_hundred h)
    simp only [h4, h100, h400, false_and, if_false]
    omega

theorem sum_monthLengths (year : Nat) : (monthLengths year).sum = daysInYear year := by
  unfold monthLengths daysInYear
  cases isLeap year <;> rfl

/-- The year of a day: the mean length of a year gives it up to one. -/
def yearOf (days : Nat) : Nat :=
  let year := 400 * days / 146097
  if days < daysBefore year then year - 1
  else if daysBefore (year + 1) ≤ days then year + 1
  else year

/-- The days of `year` years differ from their mean by less than two. -/
theorem daysBefore_near_mean (year : Nat) :
    146097 * year ≤ 400 * daysBefore year + 400 ∧ 400 * daysBefore year ≤ 146097 * year + 600 := by
  unfold daysBefore
  omega

theorem yearOf_bounds (days : Nat) :
    daysBefore (yearOf days) ≤ days ∧ days < daysBefore (yearOf days + 1) := by
  unfold yearOf
  have hlow : 146097 * (400 * days / 146097) ≤ 400 * days := Nat.mul_div_le _ _
  have hhigh : 400 * days < 146097 * (400 * days / 146097 + 1) :=
    Nat.lt_mul_div_succ _ (by decide)
  generalize 400 * days / 146097 = year at hlow hhigh
  dsimp only
  split
  · rename_i hbefore
    obtain ⟨previous, rfl⟩ : ∃ previous, year = previous + 1 := by
      refine Nat.exists_eq_succ_of_ne_zero ?_
      rintro rfl
      exact absurd hbefore (Nat.not_lt_zero days)
    rw [Nat.add_sub_cancel]
    have hmean := (daysBefore_near_mean previous).2
    exact ⟨by omega, hbefore⟩
  · split
    · rename_i hafter
      have hmean := (daysBefore_near_mean (year + 1 + 1)).1
      exact ⟨hafter, by omega⟩
    · omega

/-- Where the `n`-th day falls in stretches of these lengths: the stretch, and the day in it. -/
def locate : List Nat → Nat → Nat × Nat
  | [], n => (0, n)
  | length :: lengths, n =>
      if n < length then (0, n)
      else
        let (i, day) := locate lengths (n - length)
        (i + 1, day)

theorem locate_spec {lengths : List Nat} {n : Nat} (h : n < lengths.sum) :
    (locate lengths n).1 < lengths.length ∧
      (locate lengths n).2 < lengths.getD (locate lengths n).1 0 ∧
      (lengths.take (locate lengths n).1).sum + (locate lengths n).2 = n := by
  induction lengths generalizing n with
  | nil => exact absurd h (Nat.not_lt_zero n)
  | cons length lengths ih =>
      rw [List.sum_cons] at h
      unfold locate
      split
      · rename_i hfirst
        exact ⟨Nat.succ_pos _, hfirst, Nat.zero_add n⟩
      · rename_i hlater
        obtain ⟨hindex, hday, hsum⟩ := ih (n := n - length) (by omega)
        refine ⟨Nat.succ_lt_succ hindex, hday, ?_⟩
        simp only [List.take_succ_cons, List.sum_cons]
        omega

structure Date where
  year : Nat
  month : Nat
  day : Nat
  month_pos : 1 ≤ month
  month_le : month ≤ 12
  day_pos : 1 ≤ day
  day_le : day ≤ daysIn month year
deriving DecidableEq

namespace Date

def toDays (date : Date) : Nat :=
  daysBefore date.year + ((monthLengths date.year).take (date.month - 1)).sum + (date.day - 1)

/-- The date with these numbers, if there is one. -/
def ofParts (year month day : Nat) : Option Date :=
  if h : (1 ≤ month ∧ month ≤ 12) ∧ 1 ≤ day ∧ day ≤ daysIn month year then
    some ⟨year, month, day, h.1.1, h.1.2, h.2.1, h.2.2⟩
  else none

@[simp] theorem ofParts_parts (date : Date) :
    ofParts date.year date.month date.day = some date :=
  dif_pos ⟨⟨date.month_pos, date.month_le⟩, date.day_pos, date.day_le⟩

theorem day_le_thirtyOne (date : Date) : date.day ≤ 31 := by
  have hday := date.day_le
  have hlength : ∀ length ∈ monthLengths date.year, length ≤ 31 := by
    unfold monthLengths
    cases isLeap date.year <;> decide
  unfold daysIn at hday
  rw [List.getD_eq_getElem?_getD] at hday
  cases hget : (monthLengths date.year)[date.month - 1]? with
  | none =>
      rw [hget] at hday
      exact Nat.le_trans hday (Nat.zero_le 31)
  | some length =>
      rw [hget] at hday
      exact Nat.le_trans hday (hlength length (List.mem_of_getElem? hget))

theorem lt_sum_of_yearOf (days : Nat) :
    days - daysBefore (yearOf days) < (monthLengths (yearOf days)).sum := by
  obtain ⟨hlow, hhigh⟩ := yearOf_bounds days
  rw [daysBefore_succ] at hhigh
  rw [sum_monthLengths]
  omega

def ofDays (days : Nat) : Date where
  year := yearOf days
  month := (locate (monthLengths (yearOf days)) (days - daysBefore (yearOf days))).1 + 1
  day := (locate (monthLengths (yearOf days)) (days - daysBefore (yearOf days))).2 + 1
  month_pos := Nat.succ_pos _
  month_le := (locate_spec (lt_sum_of_yearOf days)).1
  day_pos := Nat.succ_pos _
  day_le := (locate_spec (lt_sum_of_yearOf days)).2.1

/-- A day is the day of its date. -/
@[simp] theorem toDays_ofDays (days : Nat) : (ofDays days).toDays = days := by
  have hsum := (locate_spec (lt_sum_of_yearOf days)).2.2
  have hlow := (yearOf_bounds days).1
  show daysBefore (yearOf days) + ((monthLengths (yearOf days)).take
    (locate (monthLengths (yearOf days)) (days - daysBefore (yearOf days))).1).sum +
    (locate (monthLengths (yearOf days)) (days - daysBefore (yearOf days))).2 = days
  omega

end Date

end Go.Calendar
