/-
# The zeros of `AsByteArray` (`BigNumber.cpp`)

`AsByteArray` fills a number up to the size that is asked for, and `SetBinary` reads such an array
back.  OpenSSL writes the most significant byte first, so the zeros belong in front; they are put
behind and come to the front when the array is turned around, where they are the LEAST significant
bytes.

A number is multiplied by 256 for each of them (`setBinary_asByteArray`).  `SetVSFields` asks for
20 bytes to restore the leading zeros of a digest and moves them to its end instead
(`restored_iff`).
-/
import HungerGames.Auth.Handlers

namespace HungerGames.Auth

open HungerGames.Lua (Bytes bytes)
open HungerGames.Crypto (sha1 length_sha1)
open BigNumber

namespace BigNumber

/-! ## 1. The bytes of a number -/

theorem length_lowBytes (n len : ℕ) : (lowBytes n len).length = len := by
  simp [lowBytes]

/-- Bytes are the lowest bytes of their value. -/
theorem lowBytes_setBinary : ∀ bs : List UInt8, lowBytes (setBinary bs) bs.length = bs := by
  intro bs
  induction bs with
  | nil => rfl
  | cons b bs ih =>
    have hb := b.toNat_lt
    have hlow : (b.toNat + 256 * setBinary bs) % 256 = b.toNat := by omega
    have hrest : ∀ i, (b.toNat + 256 * setBinary bs) / 256 ^ (i + 1) = setBinary bs / 256 ^ i := by
      intro i
      rw [pow_succ', ← Nat.div_div_eq_div_mul]
      congr 1
      omega
    rw [setBinary_cons, List.length_cons, lowBytes, List.range_succ_eq_map, List.map_cons,
      List.map_map, pow_zero, Nat.div_one, hlow]
    refine congrArg₂ List.cons (UInt8.ofNat_toNat) ?_
    conv_rhs => rw [← ih]
    refine List.map_congr_left fun i _ => ?_
    simp only [Function.comp, hrest]

/-- Bytes of one length are told apart by their value. -/
theorem setBinary_injective {bs bs' : List UInt8} (hlength : bs.length = bs'.length)
    (h : setBinary bs = setBinary bs') : bs = bs' := by
  rw [← lowBytes_setBinary bs, ← lowBytes_setBinary bs', hlength, h]

/-- Zeros in front are the least significant bytes. -/
theorem setBinary_replicate_append (k : ℕ) (bs : List UInt8) :
    setBinary (List.replicate k 0 ++ bs) = 256 ^ k * setBinary bs := by
  induction k with
  | zero => rw [List.replicate_zero, List.nil_append, pow_zero, Nat.one_mul]
  | succ k ih =>
    rw [List.replicate_succ, List.cons_append, setBinary_cons, ih, pow_succ', Nat.mul_assoc]
    exact Nat.zero_add _

/-- The most significant byte is the last. -/
theorem setBinary_append_singleton (bs : List UInt8) (b : UInt8) :
    setBinary (bs ++ [b]) = setBinary bs + 256 ^ bs.length * b.toNat := by
  induction bs with
  | nil => simp [setBinary]
  | cons c bs ih =>
    rw [List.cons_append, setBinary_cons, setBinary_cons, ih, List.length_cons, pow_succ']
    ring

/-- **The number of bytes of a number**: the least that it fits. -/
theorem getNumBytes_le_iff (n k : ℕ) : getNumBytes n ≤ k ↔ n < 256 ^ k := by
  have hpow : 256 ^ k = 2 ^ (8 * k) := by
    rw [pow_mul]
    rfl
  rw [hpow]
  by_cases hn : n = 0
  · subst hn
    exact iff_of_true (Nat.zero_le k) (Nat.two_pow_pos _)
  · rw [← Nat.log2_lt hn, getNumBytes, if_neg hn]
    omega

/-! ## 2. The array -/

theorem length_asByteArray (x minSize : ℕ) :
    (asByteArray x minSize).length = max minSize (getNumBytes x) := by
  rw [asByteArray, List.length_append, List.length_replicate, length_lowBytes]
  omega

/-- **What `SetBinary` makes of the array**: each zero multiplies by 256. -/
theorem setBinary_asByteArray (x minSize : ℕ) :
    setBinary (asByteArray x minSize) = 256 ^ (minSize - getNumBytes x) * x := by
  rw [asByteArray, setBinary_replicate_append, setBinary_lowBytes,
    Nat.mod_eq_of_lt ((getNumBytes_le_iff x _).mp le_rfl)]

/-- The array reads back when it has no zeros but those of a zero. -/
theorem setBinary_asByteArray_iff (x minSize : ℕ) :
    setBinary (asByteArray x minSize) = x ↔ minSize ≤ getNumBytes x ∨ x = 0 := by
  rw [setBinary_asByteArray]
  constructor
  · intro h
    by_contra hne
    rw [not_or, not_le] at hne
    have hpow : 1 < 256 ^ (minSize - getNumBytes x) := Nat.one_lt_pow (by omega) (by decide)
    have hmul := Nat.mul_lt_mul_of_pos_right hpow (Nat.pos_of_ne_zero hne.2)
    omega
  · rintro (h | rfl)
    · rw [Nat.sub_eq_zero_of_le h, pow_zero, Nat.one_mul]
    · rw [Nat.mul_zero]

end BigNumber

/-! ## 3. The digest of a password -/

/-- `mDigest` of `SetVSFields`: the 20 bytes that come back of the hexadecimal string. -/
def mDigest (rI : Bytes) : Bytes := ((asByteArray (setHexStr 0 rI) 20).take 20).reverse

theorem hexDigit_hexChar : ∀ d < 16, hexDigit (hexChar d) = some d := by decide

/-- A hexadecimal string denotes its bytes, the first the most significant. -/
theorem hexValue_byteArrayToHexStr : ∀ (bs : Bytes) (n : ℕ),
    hexValue (byteArrayToHexStr bs) n = n * 256 ^ bs.length + setBinary bs.reverse := by
  intro bs
  induction bs with
  | nil => simp [byteArrayToHexStr, hexValue, setBinary]
  | cons b bs ih =>
    intro n
    have hb := b.toNat_lt
    have hhigh := hexDigit_hexChar (b.toNat / 16) (by omega)
    have hlow := hexDigit_hexChar (b.toNat % 16) (by omega)
    have hbyte : 16 * (16 * n + b.toNat / 16) + b.toNat % 16 = 256 * n + b.toNat := by omega
    have hcons : byteArrayToHexStr (b :: bs) =
        hexChar (b.toNat / 16) :: hexChar (b.toNat % 16) :: byteArrayToHexStr bs := rfl
    rw [hcons, hexValue, hhigh]
    dsimp only
    rw [hexValue, hlow]
    dsimp only
    rw [hbyte, ih, List.reverse_cons, setBinary_append_singleton, List.length_reverse,
      List.length_cons, pow_succ']
    ring

/-- The first byte of a digest decides whether it has 20 bytes as a number. -/
theorem le_getNumBytes_iff {b : UInt8} {bs : Bytes} :
    bs.length + 1 ≤ getNumBytes (setBinary (b :: bs).reverse) ↔ b ≠ 0 := by
  have hlt := setBinary_lt bs.reverse
  rw [List.length_reverse] at hlt
  rw [Nat.succ_le_iff, ← not_le, getNumBytes_le_iff, List.reverse_cons, setBinary_append_singleton,
    List.length_reverse, not_iff_not]
  constructor
  · intro h
    by_contra hne
    have hpos : 0 < b.toNat := Nat.pos_of_ne_zero fun h0 => hne (UInt8.toNat_inj.mp h0)
    have hle := Nat.le_mul_of_pos_right (256 ^ bs.length) hpos
    omega
  · rintro rfl
    rw [UInt8.toNat_zero, Nat.mul_zero, Nat.add_zero]
    exact hlt

/-- A digest without a leading zero, or of nothing but zeros. -/
def Kept (digest : Bytes) : Prop :=
  digest.head? ≠ some 0 ∨ digest = List.replicate 20 0

/-- The value of a digest is `0` if its bytes are. -/
theorem setBinary_eq_zero_iff {digest : Bytes} (hlength : digest.length = 20) :
    setBinary digest.reverse = 0 ↔ digest = List.replicate 20 0 := by
  have hzero : setBinary (List.replicate 20 0) = 0 := by decide
  constructor
  · intro h
    have hreverse : digest.reverse = List.replicate 20 0 :=
      setBinary_injective (by rw [List.length_reverse, hlength, List.length_replicate])
        (h.trans hzero.symm)
    rw [← digest.reverse_reverse, hreverse, List.reverse_replicate]
  · rintro rfl
    rw [List.reverse_replicate, hzero]

/-- **When a digest comes back from its hexadecimal string.** -/
theorem mDigest_iff {digest : Bytes} (hlength : digest.length = 20) :
    mDigest (byteArrayToHexStr digest) = digest ↔ Kept digest := by
  have hlen : digest.reverse.length = 20 := by rw [List.length_reverse, hlength]
  obtain ⟨b, bs, rfl⟩ : ∃ b bs, digest = b :: bs := by
    cases digest with
    | nil => cases hlength
    | cons b bs => exact ⟨b, bs, rfl⟩
  have hvalue : setHexStr 0 (byteArrayToHexStr (b :: bs)) = setBinary (b :: bs).reverse := by
    rw [setHexStr, if_neg (show byteArrayToHexStr (b :: bs) ≠ [] from List.cons_ne_nil _ _),
      hexValue_byteArrayToHexStr, Nat.zero_mul, Nat.zero_add]
  have hfits : getNumBytes (setBinary (b :: bs).reverse) ≤ 20 := by
    have hlt := setBinary_lt (b :: bs).reverse
    rw [hlen] at hlt
    exact (getNumBytes_le_iff _ _).mpr hlt
  have harray : (asByteArray (setBinary (b :: bs).reverse) 20).length = 20 := by
    rw [length_asByteArray, Nat.max_eq_left hfits]
  have hbs : bs.length + 1 = 20 := hlength
  calc mDigest (byteArrayToHexStr (b :: bs)) = b :: bs
      ↔ asByteArray (setBinary (b :: bs).reverse) 20 = (b :: bs).reverse := by
        rw [mDigest, hvalue, List.take_of_length_le (Nat.le_of_eq harray), List.reverse_eq_iff]
    _ ↔ setBinary (asByteArray (setBinary (b :: bs).reverse) 20) = setBinary (b :: bs).reverse :=
        ⟨congrArg setBinary, setBinary_injective (harray.trans hlen.symm)⟩
    _ ↔ 20 ≤ getNumBytes (setBinary (b :: bs).reverse) ∨ setBinary (b :: bs).reverse = 0 :=
        setBinary_asByteArray_iff _ _
    _ ↔ Kept (b :: bs) := by
        rw [← hbs, le_getNumBytes_iff, setBinary_eq_zero_iff hlength, Kept, List.head?_cons, ne_eq,
          ne_eq, Option.some_inj]

/-- **Arrays and digests that come back**: the length is always right; the value is when no zero is
filled in, and the digest when it has no leading zero, those that are nothing but zeros apart. -/
theorem asByteArray_roundTrip_iff (x minSize : ℕ) {digest : Bytes} (hlength : digest.length = 20) :
    (asByteArray x minSize).length = max minSize (getNumBytes x) ∧
      (setBinary (asByteArray x minSize) = x ↔ minSize ≤ getNumBytes x ∨ x = 0) ∧
      (mDigest (byteArrayToHexStr digest) = digest ↔ Kept digest) :=
  ⟨length_asByteArray x minSize, setBinary_asByteArray_iff x minSize, mDigest_iff hlength⟩

/-- Three bytes asked for, three bytes there; and the digest of the password `B` of `A`. -/
theorem asByteArray_roundTrip_abc : setBinary (asByteArray 0x030201 3) = 0x030201 ∧
    mDigest (byteArrayToHexStr (sha1 (bytes "A:B"))) = sha1 (bytes "A:B") := by
  have h := asByteArray_roundTrip_iff 0x030201 3 (length_sha1 (bytes "A:B"))
  exact ⟨h.2.1.mpr (Or.inl (by decide)), h.2.2.mpr (Or.inl (by decide +kernel))⟩

/-- A byte asked for as two comes back as 256; and the digest of the password `IM` of `A` starts
with a zero, which is at its end when it comes back. -/
theorem asByteArray_zeros : setBinary (asByteArray 1 2) = 256 ∧
    mDigest (byteArrayToHexStr (sha1 (bytes "A:IM"))) = (sha1 (bytes "A:IM")).tail ++ [0] ∧
    mDigest (byteArrayToHexStr (sha1 (bytes "A:IM"))) ≠ sha1 (bytes "A:IM") := by
  refine ⟨by decide, ?_, ?_⟩ <;> decide +kernel

end HungerGames.Auth
