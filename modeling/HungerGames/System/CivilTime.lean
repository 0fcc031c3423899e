/-
# Civil time

Seconds since the beginning of 1970 and the fields of a date, by the Gregorian calendar and
without leap seconds.  A date is found by walking over the years, and over the months of the year
that is reached; `walk_spec` has what such a walk leaves, for pieces of any sizes.

`seconds_civil` has the fields say the time again, and `civil_bounds` that each is in its range.
-/
import Mathlib.Algebra.Group.Nat.Defs
import Mathlib.Order.Lattice

namespace HungerGames.System

/-! ## 1. Walking over pieces -/

/-- The sizes of the first pieces together. -/
def before (size : ℕ → ℕ) : ℕ → ℕ
  | 0 => 0
  | i + 1 => before size i + size i

/-- The piece that the next `n` units from piece `i` on end in, and how far into it. -/
def walk (size : ℕ → ℕ) : ℕ → ℕ → ℕ → ℕ × ℕ
  | 0, i, n => (i, n)
  | fuel + 1, i, n => if n < size i then (i, n) else walk size fuel (i + 1) (n - size i)

variable {size : ℕ → ℕ}

/-- **What a walk leaves**, over pieces that are not empty. -/
theorem walk_spec (hsize : ∀ i, 0 < size i) : ∀ (fuel : ℕ) {i n : ℕ}, n ≤ fuel →
    before size (walk size fuel i n).1 + (walk size fuel i n).2 = before size i + n ∧
      (walk size fuel i n).2 < size (walk size fuel i n).1
  | 0, i, n, hn => by
    obtain rfl : n = 0 := Nat.le_zero.mp hn
    exact ⟨rfl, hsize i⟩
  | fuel + 1, i, n, hn => by
    have hpos := hsize i
    unfold walk
    by_cases hlt : n < size i
    · rw [if_pos hlt]
      exact ⟨rfl, hlt⟩
    · rw [if_neg hlt]
      obtain ⟨hsum, hrest⟩ := walk_spec hsize fuel (i := i + 1) (n := n - size i) (by omega)
      refine ⟨?_, hrest⟩
      rw [hsum, before]
      omega

theorem before_mono {i j : ℕ} (h : i ≤ j) : before size i ≤ before size j := by
  induction h with
  | refl => exact le_refl _
  | step _ ih => exact le_trans ih (Nat.le_add_right _ _)

/-- A place before the end of a piece is in no later piece. -/
theorem lt_of_before_lt {i j n : ℕ} (h : before size i + n < before size j) : i < j := by
  by_contra hle
  have hmono : before size j ≤ before size i := before_mono (Nat.le_of_not_lt hle)
  omega

/-! ## 2. The calendar -/

def isLeap (year : ℕ) : Bool := year % 4 = 0 ∧ (year % 100 ≠ 0 ∨ year % 400 = 0)

/-- The days of the year that comes `i` years after 1970. -/
def yearDays (i : ℕ) : ℕ := if isLeap (1970 + i) then 366 else 365

/-- The days of a month, counted from 0. -/
def monthDays (leap : Bool) : ℕ → ℕ
  | 1 => if leap then 29 else 28
  | 3 | 5 | 8 | 10 => 30
  | _ => 31

/-- The fields of a time; months and the days of the week count from 0, Sunday being 0. -/
structure Civil where
  year : ℕ
  month : ℕ
  day : ℕ
  weekday : ℕ
  hour : ℕ
  minute : ℕ
  second : ℕ
  deriving DecidableEq

/-- The fields of a number of seconds. -/
def civil (t : ℕ) : Civil :=
  let days := t / 86400
  let y := walk yearDays days 0 days
  let m := walk (monthDays (isLeap (1970 + y.1))) y.2 0 y.2
  { year := 1970 + y.1
    month := m.1
    day := m.2 + 1
    weekday := (days + 4) % 7
    hour := t % 86400 / 3600
    minute := t % 3600 / 60
    second := t % 60 }

/-- The days before a date. -/
def daysBefore (year month day : ℕ) : ℕ :=
  before yearDays (year - 1970) + before (monthDays (isLeap year)) month + (day - 1)

/-- The seconds that some fields stand for; months past the year's end count on. -/
def seconds (c : Civil) : ℕ :=
  daysBefore (c.year + c.month / 12) (c.month % 12) c.day * 86400 + c.hour * 3600 +
    c.minute * 60 + c.second

theorem yearDays_pos (i : ℕ) : 0 < yearDays i := by
  unfold yearDays
  split <;> decide

theorem monthDays_pos (leap : Bool) (i : ℕ) : 0 < monthDays leap i := by
  unfold monthDays
  split <;> (try split) <;> decide

theorem monthDays_le (leap : Bool) (i : ℕ) : monthDays leap i ≤ 31 := by
  unfold monthDays
  split <;> (try split) <;> decide

/-- The months make up the year. -/
theorem before_twelve (i : ℕ) : before (monthDays (isLeap (1970 + i))) 12 = yearDays i := by
  unfold yearDays
  cases isLeap (1970 + i) <;> rfl

variable (t : ℕ)

/-- The year and the month that a time is in. -/
theorem civil_date :
    daysBefore (civil t).year (civil t).month (civil t).day = t / 86400 ∧
      (civil t).month < 12 ∧ 1 ≤ (civil t).day ∧ (civil t).day ≤ 31 := by
  unfold civil daysBefore
  dsimp only
  obtain ⟨hyear, hrest⟩ := walk_spec yearDays_pos (t / 86400) (i := 0) (le_refl (t / 86400))
  generalize walk yearDays (t / 86400) 0 (t / 86400) = y at *
  obtain ⟨hmonth, hday⟩ :=
    walk_spec (monthDays_pos (isLeap (1970 + y.1))) y.2 (i := 0) (le_refl y.2)
  generalize walk (monthDays (isLeap (1970 + y.1))) y.2 0 y.2 = m at *
  have hle := monthDays_le (isLeap (1970 + y.1)) m.1
  simp only [before, Nat.zero_add] at hyear hmonth
  rw [Nat.add_sub_cancel_left, Nat.add_sub_cancel]
  refine ⟨by omega, ?_, by omega, by omega⟩
  refine @lt_of_before_lt (monthDays (isLeap (1970 + y.1))) _ _ m.2 ?_
  rw [before_twelve]
  omega

/-- **Each field is in its range.** -/
theorem civil_bounds : (civil t).month < 12 ∧ 1 ≤ (civil t).day ∧ (civil t).day ≤ 31 ∧
    (civil t).weekday < 7 ∧ (civil t).hour < 24 ∧ (civil t).minute < 60 ∧ (civil t).second < 60 := by
  obtain ⟨-, hmonth, hday, hday'⟩ := civil_date t
  refine ⟨hmonth, hday, hday', ?_, ?_, ?_, ?_⟩ <;> simp only [civil] <;> omega

/-- **The fields of a time say the time.** -/
theorem seconds_civil : seconds (civil t) = t := by
  obtain ⟨hdate, hmonth, -, -⟩ := civil_date t
  unfold seconds
  rw [Nat.div_eq_of_lt hmonth, Nat.mod_eq_of_lt hmonth, Nat.add_zero, hdate]
  simp only [civil]
  omega

/-- The year of a time, by the first days of the years. -/
theorem civil_year {i j : ℕ} (hi : before yearDays i * 86400 ≤ t)
    (hj : t < before yearDays j * 86400) : 1970 + i ≤ (civil t).year ∧ (civil t).year < 1970 + j := by
  unfold civil
  dsimp only
  obtain ⟨hyear, hrest⟩ := walk_spec yearDays_pos (t / 86400) (i := 0) (le_refl (t / 86400))
  generalize walk yearDays (t / 86400) 0 (t / 86400) = y at *
  simp only [before, Nat.zero_add] at hyear
  constructor
  · have hlt : i < y.1 + 1 := by
      refine @lt_of_before_lt yearDays _ _ 0 ?_
      rw [before]
      omega
    omega
  · have hlt : y.1 < j := @lt_of_before_lt yearDays _ _ y.2 (by omega)
    omega

end HungerGames.System
