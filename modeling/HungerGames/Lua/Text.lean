/-
# Lua strings

A Lua string is a sequence of bytes.  This module has the operations of `string` that the
scripts use, on `List UInt8`: substrings with Lua's inclusive bounds, `%0wd` formatting,
`tonumber` on decimal digits, and the character classes of Lua's patterns in the `C` locale.
-/
import Mathlib.Data.List.Basic
import Mathlib.Data.Nat.Basic

namespace HungerGames.Lua

/-- A Lua string. -/
abbrev Bytes := List UInt8

/-- The byte string a literal of the script denotes. -/
def bytes (s : String) : Bytes := s.toList.map fun c => c.toNat.toUInt8

/-! ## 1. Substrings and loops -/

/-- `s:sub(i, j)` for `1 ≤ i`: both bounds are included, and both are clipped. -/
def sub (s : Bytes) (i j : ℕ) : Bytes := (s.drop (i - 1)).take (j + 1 - i)

/-- The values of the control variable of `for i = start, stop, step`. -/
def forRange (start stop step : ℕ) : List ℕ :=
  if start ≤ stop then (List.range ((stop - start) / step + 1)).map (start + step * ·) else []

/-- `string.starts(s, p)`: the first `p:len()` bytes of `s` are `p`. -/
def starts (s p : Bytes) : Bool := sub s 1 p.length == p

theorem length_sub (s : Bytes) (i j : ℕ) :
    (sub s i j).length = min (j + 1 - i) (s.length - (i - 1)) := by
  simp [sub]

/-! ## 2. Numbers -/

/-- The decimal digits of a number. -/
def decimal (n : ℕ) : Bytes := (Nat.toDigits 10 n).map fun c => c.toNat.toUInt8

/-- `string.format("%0wd", n)` -/
def formatZero (w n : ℕ) : Bytes :=
  List.replicate (w - (decimal n).length) 48 ++ decimal n

/-- `%d` -/
def isDigit (c : UInt8) : Bool := 48 ≤ c && c ≤ 57

/-- The value of a string of digits. -/
def digitsValue (s : Bytes) : ℕ := s.foldl (fun n c => 10 * n + (c.toNat - 48)) 0

/-- **Three digits carry every packet number.** -/
theorem formatZero_three : ∀ n < 1000,
    (formatZero 3 n).length = 3 ∧ (formatZero 3 n).all isDigit ∧ digitsValue (formatZero 3 n) = n := by
  decide +kernel

/-- **Two digits carry every link number.** -/
theorem formatZero_two : ∀ n < 100,
    (formatZero 2 n).length = 2 ∧ (formatZero 2 n).all isDigit ∧ digitsValue (formatZero 2 n) = n := by
  decide +kernel

/-! ## 3. Character classes -/

/-- `%s` -/
def isSpace (c : UInt8) : Bool := c == 32 || (9 ≤ c && c ≤ 13)

/-- `%w` -/
def isAlnum (c : UInt8) : Bool :=
  isDigit c || (65 ≤ c && c ≤ 90) || (97 ≤ c && c ≤ 122)

/-- `-` -/
def dash : UInt8 := 45

end HungerGames.Lua
