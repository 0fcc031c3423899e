/-
# Accounts (`AccountMgr.cpp`)

`CreateAccount` takes a name of at most 16 characters, turns the letters `a` to `z` of all its
strings into capitals and inserts a row with a digest of the name and the password.

The capitals are made by `normalizeString` in a buffer of 17 wide units, one string after the
other.  A string that does not fit, or is no UTF-8, stays as it is, and nobody looks at the
returned value.  On the strings that fit it is the same as a `toupper` on each byte
(`normalizeString_normal`).
-/
import HungerGames.Auth.ByteArrays
import HungerGames.Utilities.WideStrings

namespace HungerGames.Accounts

open HungerGames.Auth (toUpper byteArrayToHexStr)
open HungerGames.Crypto (sha1)
open HungerGames.Lua (Bytes bytes)
open HungerGames.Utilities

/-! ## 1. The functions -/

def MAX_ACCOUNT_STR : ℕ := 16

inductive AccountOpResult where
  | ok
  | nameTooLong
  | nameAlreadyExist
deriving DecidableEq

/-- `utf8length`: the length, and the string, which is cleared if it is invalid. -/
def utf8length (utf8str : Bytes) : ℕ × Bytes :=
  match distance utf8str with
  | .ok n => (n, utf8str)
  | .error _ => (0, [])

/-- `Utf8toWStr` for a buffer: the first units in it, as many as there are characters; `none` when
it returns false. -/
def utf8toBuffer (utf8str : Bytes) (wsize : ℕ) : Option (List ℕ) :=
  match distance utf8str with
  | .error _ => none
  | .ok len =>
    if wsize < len then none
    else
      match utf8to16 utf8str with
      | (_, some _) => none
      | (units, none) => some (units.take len)

def isBasicLatinCharacter (wchar : ℕ) : Bool :=
  (0x61 ≤ wchar && wchar ≤ 0x7a) || (0x41 ≤ wchar && wchar ≤ 0x5a)

def wcharToUpper (wchar : ℕ) : ℕ :=
  if 0x61 ≤ wchar ∧ wchar ≤ 0x7a then wchar - 0x0020
  else if wchar = 0x00DF then 0x1E9E
  else if 0x00E0 ≤ wchar ∧ wchar ≤ 0x00F6 then wchar - 0x0020
  else if 0x00F8 ≤ wchar ∧ wchar ≤ 0x00FE then wchar - 0x0020
  else if 0x0101 ≤ wchar ∧ wchar ≤ 0x012F ∧ wchar % 2 = 1 then wchar - 0x0001
  else if 0x0430 ≤ wchar ∧ wchar ≤ 0x044F then wchar - 0x0020
  else if wchar = 0x0451 then 0x0401
  else wchar

def wcharToUpperOnlyLatin (wchar : ℕ) : ℕ :=
  if isBasicLatinCharacter wchar then wcharToUpper wchar else wchar

/-- `normalizeString`: what it makes of the string. -/
def normalizeString (utf8String : Bytes) : Bytes :=
  match utf8toBuffer utf8String MAX_ACCOUNT_STR with
  | none => utf8String
  | some buffer => (wStrToUtf8 (buffer.map wcharToUpperOnlyLatin)).2

def calculateShaPassHash (name password : Bytes) : Bytes :=
  byteArrayToHexStr (sha1 (name ++ bytes ":" ++ password))

/-- `CreateAccount`: its value, and the statements it executes. -/
def createAccount (accountId : Bytes → Option ℕ) (username password email : Bytes) :
    AccountOpResult × List Auth.Statement :=
  let (length, username) := utf8length username
  if MAX_ACCOUNT_STR < length then (.nameTooLong, [])
  else
    let username := normalizeString username
    let password := normalizeString password
    let email := normalizeString email
    -- GetId: 0 when there is no such account
    if (accountId username).getD 0 ≠ 0 then (.nameAlreadyExist, [])
    else
      (.ok, [.insAccount username (calculateShaPassHash username password) email email,
        .insRealmCharactersInit])

/-! ## 2. Capitals -/

theorem toNat_toUpper (c : Char) :
    c.toUpper.toNat = if 0x61 ≤ c.toNat ∧ c.toNat ≤ 0x7a then c.toNat - 0x20 else c.toNat := by
  have hval : c.val.toNat = c.toNat := rfl
  unfold Char.toUpper
  by_cases h : 'a'.val ≤ c.val ∧ c.val ≤ 'z'.val
  · have hbounds : 0x61 ≤ c.toNat ∧ c.toNat ≤ 0x7a :=
      ⟨UInt32.le_iff_toNat_le.mp h.1, UInt32.le_iff_toNat_le.mp h.2⟩
    rw [dif_pos h, if_pos hbounds]
    show (c.val + ('A'.val - 'a'.val)).toNat = _
    have hshift : ('A'.val - 'a'.val).toNat = 2 ^ 32 - 0x20 := by decide
    rw [UInt32.toNat_add, hshift, hval]
    omega
  · have hbounds : ¬ (0x61 ≤ c.toNat ∧ c.toNat ≤ 0x7a) := fun hb =>
      h ⟨UInt32.le_iff_toNat_le.mpr hb.1, UInt32.le_iff_toNat_le.mpr hb.2⟩
    rw [dif_neg h, if_neg hbounds]

/-- The octets of a character above ASCII are above ASCII. -/
theorem high_of_mem_utf8EncodeChar {c : Char} (h : 0x80 ≤ c.toNat) :
    ∀ b ∈ String.utf8EncodeChar c, 0x80 ≤ b.toNat := by
  have hval : c.val.toNat = c.toNat := rfl
  have hmax : c.toNat < 0x110000 := by
    rcases c.valid with h | ⟨-, h⟩ <;> omega
  unfold String.utf8EncodeChar
  rw [hval, if_neg (by omega)]
  split_ifs
  all_goals
    intro b hb
    simp only [List.mem_cons, List.not_mem_nil, or_false] at hb
  · rcases hb with rfl | rfl <;> rw [toNat_lead (by omega)] <;> omega
  · rcases hb with rfl | rfl | rfl <;> rw [toNat_lead (by omega)] <;> omega
  · rcases hb with rfl | rfl | rfl | rfl <;> rw [toNat_lead (by omega)] <;> omega

theorem toUpper_ascii : ∀ n < 0x80, toUpper [UInt8.ofNat n] =
    [UInt8.ofNat (if 0x61 ≤ n ∧ n ≤ 0x7a then n - 0x20 else n)] := by
  decide +kernel

/-- Octets above ASCII stay. -/
theorem toUpper_of_high {s : Bytes} (h : ∀ b ∈ s, 0x80 ≤ b.toNat) : toUpper s = s := by
  refine (List.map_congr_left fun b hb => ?_).trans (List.map_id s)
  have hhigh := h b hb
  rw [if_neg fun hletter => ?_]
  · rfl
  · have hle := UInt8.le_iff_toNat_le.mp hletter.2
    exact absurd hle (Nat.not_le_of_lt (Nat.lt_of_lt_of_le (by decide) hhigh))

/-- A `toupper` on each octet turns the letters of a character's UTF-8 into capitals. -/
theorem toUpper_utf8EncodeChar (c : Char) :
    toUpper (String.utf8EncodeChar c) = String.utf8EncodeChar c.toUpper := by
  have hascii : ∀ d : Char, d.toNat < 0x80 → String.utf8EncodeChar d = [UInt8.ofNat d.toNat] := by
    intro d hd
    exact if_pos (Nat.le_of_lt_succ hd)
  by_cases h : c.toNat < 0x80
  · have hupper := toNat_toUpper c
    have hle : c.toUpper.toNat < 0x80 := by
      rw [hupper]
      split <;> omega
    rw [hascii c h, hascii _ hle, toUpper_ascii _ h, hupper]
  · have hsame : c.toUpper = c := by
      refine Char.toNat_inj.mp ?_
      rw [toNat_toUpper, if_neg (by omega)]
    rw [hsame, toUpper_of_high (high_of_mem_utf8EncodeChar (Nat.le_of_not_lt h))]

theorem wcharToUpperOnlyLatin_eq (wchar : ℕ) : wcharToUpperOnlyLatin wchar =
    if 0x61 ≤ wchar ∧ wchar ≤ 0x7a then wchar - 0x20 else wchar := by
  unfold wcharToUpperOnlyLatin isBasicLatinCharacter wcharToUpper
  simp only [Bool.or_eq_true, Bool.and_eq_true, decide_eq_true_eq]
  split_ifs <;> omega

/-- The units of a character are letters only if it is one. -/
theorem map_wcharToUpper_units (c : Char) :
    (units c.toNat).map wcharToUpperOnlyLatin = units c.toUpper.toNat := by
  have hupper := toNat_toUpper c
  rcases units_cases c with ⟨hbasic, hunits, -⟩ | ⟨hhigh, lead, trail, hunits, hlead, htrail, -⟩
  · have hle : c.toUpper.toNat ≤ 0xffff := by
      rw [hupper]
      split <;> omega
    rw [hunits, List.map_singleton, wcharToUpperOnlyLatin_eq, ← hupper, units, if_neg (by omega),
      Nat.mod_eq_of_lt (by omega)]
  · have hsame : c.toUpper.toNat = c.toNat := by
      rw [hupper, if_neg (by omega)]
    unfold isLeadSurrogate at hlead
    unfold isTrailSurrogate at htrail
    rw [Bool.and_eq_true, decide_eq_true_eq, decide_eq_true_eq] at hlead htrail
    rw [hsame, hunits, List.map_cons, List.map_singleton, wcharToUpperOnlyLatin_eq,
      wcharToUpperOnlyLatin_eq, if_neg (by omega), if_neg (by omega)]

theorem toUpper_utf8 (chars : List Char) :
    toUpper (utf8 chars) = utf8 (chars.map Char.toUpper) := by
  induction chars with
  | nil => rfl
  | cons c chars ih =>
    have hcons : ∀ (d : Char) ds, utf8 (d :: ds) = String.utf8EncodeChar d ++ utf8 ds :=
      fun _ _ => rfl
    have happend : ∀ s t : Bytes, toUpper (s ++ t) = toUpper s ++ toUpper t := fun s t =>
      List.map_append
    rw [List.map_cons, hcons, hcons, happend, toUpper_utf8EncodeChar, ih]

theorem map_wcharToUpper_flatMap (chars : List Char) :
    (chars.flatMap fun c => units c.toNat).map wcharToUpperOnlyLatin =
      (chars.map Char.toUpper).flatMap fun c => units c.toNat := by
  rw [List.map_flatMap, List.flatMap_map]
  refine List.flatMap_congr fun c _ => ?_
  exact map_wcharToUpper_units c

/-! ## 3. What `normalizeString` makes of a string -/

/-- A string that fits the buffer: valid UTF-8, of at most 16 characters of the basic plane. -/
def Normal (s : Bytes) : Prop :=
  ∃ chars, s = utf8 chars ∧ Basic chars ∧ chars.length ≤ MAX_ACCOUNT_STR

/-- A string that is left alone: no valid UTF-8, or of more than 16 characters. -/
def LeftAlone (s : Bytes) : Prop := ∀ chars, s = utf8 chars → MAX_ACCOUNT_STR < chars.length

/-- A string that fits by its number of characters. -/
theorem utf8toBuffer_eq {chars : List Char} (h : chars.length ≤ MAX_ACCOUNT_STR) :
    utf8toBuffer (utf8 chars) MAX_ACCOUNT_STR =
      some ((chars.flatMap fun c => units c.toNat).take chars.length) := by
  unfold utf8toBuffer
  rw [distance_utf8, utf8to16_utf8]
  exact if_neg (Nat.not_lt_of_le h)

/-- **A string that fits is turned into capitals**, octet by octet. -/
theorem normalizeString_normal {s : Bytes} (h : Normal s) : normalizeString s = toUpper s := by
  obtain ⟨chars, rfl, hbasic, hlength⟩ := h
  unfold normalizeString
  rw [utf8toBuffer_eq hlength]
  dsimp only
  rw [← (length_flatMap_units chars).2.mpr hbasic, List.take_length, map_wcharToUpper_flatMap,
    wStrToUtf8_units, toUpper_utf8]

theorem normalizeString_leftAlone {s : Bytes} (h : LeftAlone s) : normalizeString s = s := by
  unfold normalizeString utf8toBuffer
  cases hdistance : distance s with
  | error fault => rfl
  | ok len =>
    obtain ⟨chars, hs, rfl⟩ := distance_ok_iff.mp hdistance
    dsimp only
    rw [if_pos (h chars hs)]

/-- The octets of characters are as many at least. -/
theorem length_le_utf8 (chars : List Char) : chars.length ≤ (utf8 chars).length := by
  induction chars with
  | nil => exact Nat.le_refl 0
  | cons c chars ih =>
    have hpos := c.utf8Size_pos
    have hcons : utf8 (c :: chars) = String.utf8EncodeChar c ++ utf8 chars := rfl
    rw [hcons, List.length_append, String.length_utf8EncodeChar, List.length_cons]
    omega

theorem basic_map_toUpper {chars : List Char} (h : Basic (chars.map Char.toUpper)) :
    Basic chars := by
  intro c hc
  have hupper := h _ (List.mem_map_of_mem hc)
  rw [toNat_toUpper] at hupper
  split at hupper <;> omega

/-- A string with a character above the basic plane is cut off. -/
theorem normalizeString_cut {chars : List Char} (hlength : chars.length ≤ MAX_ACCOUNT_STR)
    (hbasic : ¬ Basic chars) : (normalizeString (utf8 chars)).length < (utf8 chars).length := by
  obtain ⟨k, hk, fault, hunits, hback⟩ := utf16to8_take (chars.map Char.toUpper) chars.length
  -- one character at least has no room
  have hlost : k < chars.length := by
    by_contra hge
    rw [List.take_of_length_le (by rw [List.length_map]; omega)] at hunits
    obtain ⟨hle, hiff⟩ := length_flatMap_units (chars.map Char.toUpper)
    rw [List.length_map] at hle hiff
    exact hbasic (basic_map_toUpper (hiff.mp (Nat.le_antisymm hunits hle)))
  have htotal : (utf8 (chars.map Char.toUpper)).length = (utf8 chars).length := by
    rw [← toUpper_utf8]
    exact List.length_map _
  have hcut : (utf8 ((chars.map Char.toUpper).take k)).length < (utf8 chars).length := by
    have hsplit : utf8 (chars.map Char.toUpper) =
        utf8 ((chars.map Char.toUpper).take k) ++ utf8 ((chars.map Char.toUpper).drop k) := by
      unfold utf8
      rw [← List.flatMap_append, List.take_append_drop]
    have hdropped := length_le_utf8 ((chars.map Char.toUpper).drop k)
    rw [List.length_drop, List.length_map] at hdropped
    rw [← htotal, hsplit, List.length_append]
    omega
  unfold normalizeString
  rw [utf8toBuffer_eq hlength]
  dsimp only
  rw [List.map_take, map_wcharToUpper_flatMap]
  unfold wStrToUtf8
  rw [hback]
  cases fault with
  | some fault => exact Nat.lt_of_le_of_lt (Nat.zero_le _) hcut
  | none =>
    rw [resize_length]
    exact hcut

/-- **Every string fits, is left alone, or is cut off.** -/
theorem normalizeString_cases (s : Bytes) :
    (Normal s ∧ normalizeString s = toUpper s) ∨ (LeftAlone s ∧ normalizeString s = s) ∨
      (¬ Normal s ∧ ¬ LeftAlone s ∧ (normalizeString s).length < s.length) := by
  by_cases hnormal : Normal s
  · exact Or.inl ⟨hnormal, normalizeString_normal hnormal⟩
  by_cases halone : LeftAlone s
  · exact Or.inr (Or.inl ⟨halone, normalizeString_leftAlone halone⟩)
  · refine Or.inr (Or.inr ⟨hnormal, halone, ?_⟩)
    simp only [LeftAlone, not_forall, not_lt] at halone
    obtain ⟨chars, rfl, hlength⟩ := halone
    exact normalizeString_cut hlength fun hbasic => hnormal ⟨chars, rfl, hbasic, hlength⟩

end HungerGames.Accounts
