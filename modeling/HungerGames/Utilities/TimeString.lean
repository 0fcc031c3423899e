/-
# Durations as text (`Util.cpp`)

`secsToTimeString` prints a duration by days, hours, minutes and seconds and leaves the units out
of which there are none; `TimeStringToSecs` reads such a text, in 32 bits.

Nothing is lost between them but the bits above the 32nd (`timeStringToSecs_secsToTimeString`): the
reader multiplies and adds modulo `2^32` from the first digit on, so it does not matter where a
number wraps.
-/
import HungerGames.Lua.Text
import Mathlib.Algebra.Group.Nat.Defs

namespace HungerGames.Utilities

open HungerGames.Lua (Bytes bytes decimal isDigit)

/-! ## 1. The two functions -/

def MINUTE : ℕ := 60
def HOUR : ℕ := MINUTE * 60
def DAY : ℕ := HOUR * 24

/-- A number and its unit. -/
def amount (n : ℕ) (shortText : Bool) (short long : String) : Bytes :=
  decimal n ++ bytes (if shortText then short else long)

def secsToTimeString (timeInSecs : ℕ) (shortText hoursOnly : Bool) : Bytes :=
  let secs := timeInSecs % MINUTE
  let minutes := timeInSecs % HOUR / MINUTE
  let hours := timeInSecs % DAY / HOUR
  let days := timeInSecs / DAY
  (if days ≠ 0 then amount days shortText "d" " Day(s) " else []) ++
  ((if hours ≠ 0 ∨ hoursOnly then amount hours shortText "h" " Hour(s) " else []) ++
  (if hoursOnly then [] else
    (if minutes ≠ 0 then amount minutes shortText "m" " Minute(s) " else []) ++
    (if secs ≠ 0 ∨ (days = 0 ∧ hours = 0 ∧ minutes = 0) then
      amount secs shortText "s" " Second(s)." else [])))

/-- The `switch` of `TimeStringToSecs`. -/
def multiplier (c : UInt8) : Option ℕ :=
  if c = 'd'.toUInt8 then some DAY
  else if c = 'h'.toUInt8 then some HOUR
  else if c = 'm'.toUInt8 then some MINUTE
  else if c = 's'.toUInt8 then some 1
  else none

/-- The loop of `TimeStringToSecs`, on the rest of the text, with its `uint32` variables. -/
def timeStringLoop (secs buffer : ℕ) : Bytes → ℕ
  | [] => secs
  | c :: rest =>
    if isDigit c then
      timeStringLoop secs ((buffer * 10 % 2 ^ 32 + (c.toNat - '0'.toNat)) % 2 ^ 32) rest
    else
      match multiplier c with
      | some m => timeStringLoop ((secs + buffer * m % 2 ^ 32) % 2 ^ 32) 0 rest
      | none => 0

def timeStringToSecs (timestring : Bytes) : ℕ := timeStringLoop 0 0 timestring

/-! ## 2. One amount -/

theorem toNat_digit {c : Char} (hc : c.isDigit = true) :
    c.toNat.toUInt8.toNat = c.toNat ∧ 48 ≤ c.toNat ∧ c.toNat ≤ 57 := by
  have hbounds : 48 ≤ c.toNat ∧ c.toNat ≤ 57 := by
    simp only [Char.isDigit, Bool.and_eq_true, decide_eq_true_eq] at hc
    exact ⟨UInt32.le_iff_toNat_le.mp hc.1, UInt32.le_iff_toNat_le.mp hc.2⟩
  refine ⟨?_, hbounds⟩
  rw [Nat.toUInt8_eq, UInt8.toNat_ofNat']
  omega

/-- The loop takes digits modulo `2^32`. -/
theorem timeStringLoop_digits (secs : ℕ) (rest : Bytes) :
    ∀ (digits : List Char) (n : ℕ), (∀ c ∈ digits, c.isDigit = true) →
      timeStringLoop secs (n % 2 ^ 32) ((digits.map fun c => c.toNat.toUInt8) ++ rest) =
        timeStringLoop secs (Nat.ofDigitChars 10 digits n % 2 ^ 32) rest := by
  intro digits
  induction digits with
  | nil =>
    intro n _
    rfl
  | cons c digits ih =>
    intro n hdigits
    obtain ⟨hbyte, hlow, hhigh⟩ := toNat_digit (hdigits c List.mem_cons_self)
    have hdigit : isDigit c.toNat.toUInt8 = true := by
      unfold isDigit
      rw [Bool.and_eq_true, decide_eq_true_eq, decide_eq_true_eq, UInt8.le_iff_toNat_le,
        UInt8.le_iff_toNat_le, hbyte]
      exact ⟨hlow, hhigh⟩
    have hwrap : (n % 2 ^ 32 * 10 % 2 ^ 32 + (c.toNat - '0'.toNat)) % 2 ^ 32 =
        (10 * n + (c.toNat - '0'.toNat)) % 2 ^ 32 := by omega
    rw [List.map_cons, List.cons_append, timeStringLoop, if_pos hdigit, hbyte, hwrap,
      ih _ fun d hd => hdigits d (List.mem_cons_of_mem _ hd), Nat.ofDigitChars_cons]

/-- The loop reads an amount back. -/
theorem timeStringLoop_amount (secs n : ℕ) (rest : Bytes) (short long : String)
    (unit : UInt8) (m : ℕ) (hshort : bytes short = [unit]) (hunit : isDigit unit = false)
    (hm : multiplier unit = some m) :
    timeStringLoop (secs % 2 ^ 32) 0 (amount n true short long ++ rest) =
      timeStringLoop ((secs + n * m) % 2 ^ 32) 0 rest := by
  have hdigits := timeStringLoop_digits (secs % 2 ^ 32) (unit :: rest) (Nat.toDigits 10 n) 0
    fun c hc => Nat.isDigit_of_mem_toDigits (by decide) (by decide) hc
  have hwrap : (secs % 2 ^ 32 + n % 2 ^ 32 * m % 2 ^ 32) % 2 ^ 32 = (secs + n * m) % 2 ^ 32 := by
    rw [Nat.mod_mul_mod, ← Nat.add_mod]
  unfold amount
  rw [if_pos rfl, hshort, List.append_assoc, List.singleton_append]
  refine hdigits.trans ?_
  rw [Nat.ofDigitChars_ten_toDigits, timeStringLoop, hunit, if_neg Bool.false_ne_true, hm]
  exact congrArg (fun secs => timeStringLoop secs 0 rest) hwrap

/-- The loop reads an amount back that is left out where there is none. -/
theorem timeStringLoop_ite (secs n : ℕ) (rest : Bytes) (short long : String)
    (unit : UInt8) (m : ℕ) (hshort : bytes short = [unit]) (hunit : isDigit unit = false)
    (hm : multiplier unit = some m) {p : Prop} [Decidable p] (hp : ¬ p → n = 0) :
    timeStringLoop (secs % 2 ^ 32) 0 ((if p then amount n true short long else []) ++ rest) =
      timeStringLoop ((secs + n * m) % 2 ^ 32) 0 rest := by
  by_cases h : p
  · rw [if_pos h, timeStringLoop_amount secs n rest short long unit m hshort hunit hm]
  · rw [if_neg h, hp h, Nat.zero_mul, Nat.add_zero, List.nil_append]

/-! ## 3. The round trip -/

/-- **A duration comes back modulo `2^32`.** -/
theorem timeStringToSecs_mod (t : ℕ) :
    timeStringToSecs (secsToTimeString t true false) = t % 2 ^ 32 := by
  unfold timeStringToSecs secsToTimeString
  dsimp only
  rw [if_neg Bool.false_ne_true]
  have hsecs : ∀ secs, timeStringLoop (secs % 2 ^ 32) 0
      (if t % MINUTE ≠ 0 ∨ (t / DAY = 0 ∧ t % DAY / HOUR = 0 ∧ t % HOUR / MINUTE = 0) then
        amount (t % MINUTE) true "s" " Second(s)." else []) =
      (secs + t % MINUTE * 1) % 2 ^ 32 := by
    intro secs
    have hloop := timeStringLoop_ite secs (t % MINUTE) [] "s" " Second(s)." 's'.toUInt8 1 rfl rfl rfl
      (p := t % MINUTE ≠ 0 ∨ (t / DAY = 0 ∧ t % DAY / HOUR = 0 ∧ t % HOUR / MINUTE = 0))
      (fun h => not_not.mp (not_or.mp h).1)
    rw [List.append_nil] at hloop
    exact hloop
  show timeStringLoop (0 % 2 ^ 32) 0 _ = _
  rw [timeStringLoop_ite 0 _ _ "d" " Day(s) " 'd'.toUInt8 DAY rfl rfl rfl not_not.mp,
    timeStringLoop_ite _ _ _ "h" " Hour(s) " 'h'.toUInt8 HOUR rfl rfl rfl
      (fun h => not_not.mp (not_or.mp h).1),
    timeStringLoop_ite _ _ _ "m" " Minute(s) " 'm'.toUInt8 MINUTE rfl rfl rfl not_not.mp, hsecs]
  refine congrArg (· % 2 ^ 32) ?_
  unfold DAY HOUR MINUTE
  omega

/-- **A duration of 32 bits comes back.** -/
theorem timeStringToSecs_secsToTimeString {t : ℕ} (ht : t < 2 ^ 32) :
    timeStringToSecs (secsToTimeString t true false) = t := by
  rw [timeStringToSecs_mod, Nat.mod_eq_of_lt ht]

/-- A day and a second, without hours or minutes. -/
theorem timeStringToSecs_daySecond :
    timeStringToSecs (secsToTimeString 86401 true false) = 86401 :=
  timeStringToSecs_secsToTimeString (by decide)

end HungerGames.Utilities
