/-
# Big numbers (`BigNumber.cpp`)

A `BigNumber` wraps an OpenSSL `BIGNUM`; the server builds them from bytes, hexadecimal strings
and random bits, none of which makes a negative one, and does exact arithmetic with them.  So a
big number is a natural number here, and this module has the conversions.
-/
import HungerGames.Crypto.Primality

namespace HungerGames.Auth

open HungerGames.Crypto (powMod powMod_eq)

namespace BigNumber

/-- `SetBinary(bytes, len)`: the first byte is the least significant. -/
def setBinary (bytes : List UInt8) : ℕ := bytes.foldr (fun b n => b.toNat + 256 * n) 0

/-- `GetNumBytes()` -/
def getNumBytes (n : ℕ) : ℕ := if n = 0 then 0 else (Nat.log2 n + 8) / 8

/-- The `len` least significant bytes, the least significant first. -/
def lowBytes (n : ℕ) (len : ℕ) : List UInt8 :=
  (List.range len).map fun i => (n / 256 ^ i % 256).toUInt8

/-- `AsByteArray(minSize)`.  `BN_bn2bin` writes the most significant byte first, the array is
filled up with zeros BEHIND it and turned around: the zeros end up in front. -/
def asByteArray (n : ℕ) (minSize : ℕ) : List UInt8 :=
  List.replicate (minSize - getNumBytes n) 0 ++ lowBytes n (getNumBytes n)

/-- The value of a hexadecimal digit. -/
def hexDigit (c : UInt8) : Option ℕ :=
  if 48 ≤ c ∧ c ≤ 57 then some (c.toNat - 48)
  else if 65 ≤ c ∧ c ≤ 70 then some (c.toNat - 55)
  else if 97 ≤ c ∧ c ≤ 102 then some (c.toNat - 87)
  else none

/-- The number the leading hexadecimal digits of a string denote. -/
def hexValue : List UInt8 → ℕ → ℕ
  | [], n => n
  | c :: str, n =>
    match hexDigit c with
    | some d => hexValue str (16 * n + d)
    | none => n

/-- `SetHexStr(str)`; `BN_hex2bn` leaves the number alone when the string is empty. -/
def setHexStr (old : ℕ) (str : List UInt8) : ℕ :=
  if str = [] then old else hexValue str 0

/-- The digits `0 .. 9` and `A .. F`. -/
def hexChar (d : ℕ) : UInt8 := if d < 10 then (48 + d).toUInt8 else (55 + d).toUInt8

/-- `AsHexStr()`: two digits for each byte, the most significant first, and `0` for zero. -/
def asHexStr (n : ℕ) : List UInt8 :=
  if n = 0 then [48]
  else (lowBytes n (getNumBytes n)).reverse.flatMap fun b =>
    [hexChar (b.toNat / 16), hexChar (b.toNat % 16)]

/-- `ModExp(bn1, bn2)` -/
def modExp (n bn1 bn2 : ℕ) : ℕ := powMod n bn1 bn2

/-- `isZero()` -/
def isZero (n : ℕ) : Bool := n == 0

@[simp] theorem modExp_eq (n bn1 bn2 : ℕ) : modExp n bn1 bn2 = n ^ bn1 % bn2 :=
  powMod_eq n bn1 bn2

theorem isZero_eq_false {n : ℕ} : isZero n = false ↔ n ≠ 0 := by simp [isZero]

theorem setBinary_cons (b : UInt8) (bytes : List UInt8) :
    setBinary (b :: bytes) = b.toNat + 256 * setBinary bytes := rfl

/-- **The value of `k` bytes fits `k` bytes.** -/
theorem setBinary_lt : ∀ bytes : List UInt8, setBinary bytes < 256 ^ bytes.length
  | [] => Nat.one_pos
  | b :: bytes => by
    have ih := setBinary_lt bytes
    have hb := b.toNat_lt
    rw [setBinary_cons, List.length_cons, pow_succ]
    omega

/-- Every number that fits `k` bytes is the value of `k` bytes. -/
theorem setBinary_lowBytes (n : ℕ) : ∀ len, setBinary (lowBytes n len) = n % 256 ^ len := by
  intro len
  induction len generalizing n with
  | zero => simp [lowBytes, setBinary, Nat.mod_one]
  | succ len ih =>
    have hcons : lowBytes n (len + 1) = (n % 256).toUInt8 :: lowBytes (n / 256) len := by
      unfold lowBytes
      rw [List.range_succ_eq_map, List.map_cons, List.map_map]
      refine congrArg₂ List.cons (by simp) (List.map_congr_left fun i _ => ?_)
      simp only [Function.comp, Nat.succ_eq_add_one, pow_succ', Nat.div_div_eq_div_mul]
    have hbyte : (n % 256).toUInt8.toNat = n % 256 := by simp
    rw [hcons, setBinary_cons, ih, hbyte, pow_succ', Nat.mod_mul]

end BigNumber

/-! ## Random numbers -/

/-- A number `SetRand(bits)` can draw: `BN_rand` sets the highest bit and the lowest. -/
structure Rand (bits : ℕ) where
  val : ℕ
  highest : 2 ^ (bits - 1) ≤ val
  fits : val < 2 ^ bits
  lowest : val % 2 = 1

theorem Rand.pos {bits : ℕ} (r : Rand bits) : 0 < r.val :=
  Nat.lt_of_lt_of_le (Nat.two_pow_pos _) r.highest

end HungerGames.Auth
