/-
# Wide strings (`Util.cpp`)

`Utf8toWStr` and `utf8truncate` reserve one wide unit for each code point, and `utf8to16` then
writes two for a code point above `U+FFFF`: with every such code point, one unit more goes past
the end of the string.  Without them everything is as it should be (`wideStrings_iff`), but for
one thing: of an empty string, `Utf8toWStr` leaves the wide string it is given as it was.

What a truncation leaves is a prefix of the string in any case.  Where it cuts a pair of
surrogates in two, that is the empty one.
-/
import HungerGames.Utilities.Utf8

namespace HungerGames.Utilities

open HungerGames.Lua (Bytes)

/-! ## 1. Strings that are written into -/

section Strings

variable {α : Type}

/-- `resize(n)` -/
def resize (str : List α) (n : ℕ) (zero : α) : List α :=
  str.take n ++ List.replicate (n - str.length) zero

/-- A string after units are written from its first on, as far as it has room for them. -/
def overwrite (str written : List α) : List α := written.take str.length ++ str.drop written.length

theorem resize_length (str : List α) (n : ℕ) (zero : α) : (resize str n zero).length = n := by
  rw [resize, List.length_append, List.length_take, List.length_replicate]
  omega

theorem resize_eq_take {str : List α} {n : ℕ} (h : n ≤ str.length) (zero : α) :
    resize str n zero = str.take n := by
  rw [resize, Nat.sub_eq_zero_of_le h, List.replicate_zero, List.append_nil]

/-- What has room is written. -/
theorem take_overwrite {str written : List α} (h : written.length ≤ str.length) :
    (overwrite str written).take written.length = written := by
  rw [overwrite, List.take_of_length_le h, List.take_left]

theorem length_overwrite (str written : List α) : (overwrite str written).length = str.length := by
  rw [overwrite, List.length_append, List.length_take, List.length_drop]
  omega

/-- A string is filled up. -/
theorem overwrite_of_le {str written : List α} (h : str.length ≤ written.length) :
    overwrite str written = written.take str.length := by
  rw [overwrite, List.drop_of_length_le h, List.append_nil]

end Strings

/-- How many units a string has room for, and how many are written into it. -/
structure Room where
  reserved : ℕ
  written : ℕ
deriving DecidableEq

/-- Nothing is written past the end. -/
def Room.Inside (r : Room) : Prop := r.written ≤ r.reserved

/-! ## 2. The conversions -/

/-- What `Utf8toWStr` leaves. -/
structure ToWide where
  done : Bool
  wstr : List ℕ
  wide : Room
deriving DecidableEq

def utf8toWStr (utf8str : Bytes) (wstr : List ℕ) : ToWide :=
  match distance utf8str with
  | .error _ => ⟨false, [], ⟨0, 0⟩⟩
  | .ok len =>
    if len = 0 then ⟨true, wstr, ⟨0, 0⟩⟩
    else
      match utf8to16 utf8str with
      | (units, some _) => ⟨false, [], ⟨len, units.length⟩⟩
      | (units, none) => ⟨true, overwrite (resize wstr len 0) units, ⟨len, units.length⟩⟩

/-- `WStrToUtf8`: its value, and the string. -/
def wStrToUtf8 (wstr : List ℕ) : Bool × Bytes :=
  match utf16to8 wstr with
  | (_, some _) => (false, [])
  | (octets, none) =>
    (true, resize (overwrite (List.replicate (wstr.length * 4) 0) octets) octets.length 0)

/-- What `utf8truncate` leaves: the string, and what it has written into the wide string and
back. -/
structure Truncated where
  utf8str : Bytes
  wide : Room
  narrow : Room
deriving DecidableEq

def utf8truncate (utf8str : Bytes) (len : ℕ) : Truncated :=
  match distance utf8str with
  | .error _ => ⟨[], ⟨0, 0⟩, ⟨0, 0⟩⟩
  | .ok wlen =>
    if wlen ≤ len then ⟨utf8str, ⟨0, 0⟩, ⟨0, 0⟩⟩
    else
      match utf8to16 utf8str with
      | (units, some _) => ⟨[], ⟨wlen, units.length⟩, ⟨0, 0⟩⟩
      | (units, none) =>
        let wstr := resize (overwrite (List.replicate wlen 0) units) len 0
        match utf16to8 wstr with
        | (octets, some _) => ⟨[], ⟨wlen, units.length⟩, ⟨utf8str.length, octets.length⟩⟩
        | (octets, none) =>
          ⟨resize (overwrite utf8str octets) octets.length 0, ⟨wlen, units.length⟩,
            ⟨utf8str.length, octets.length⟩⟩

/-! ## 3. The round trip -/

theorem appendOctets_ne_nil {cp : ℕ} {octets : Bytes} (h : appendOctets cp = .ok octets) :
    octets ≠ [] := by
  unfold appendOctets at h
  rintro rfl
  split at h
  · cases h
  split at h
  · cases h
  split at h
  · cases h
  split at h <;> cases h

/-- Only of nothing, nothing is made. -/
theorem utf16to8_eq_nil {wstr : List ℕ} (h : utf16to8 wstr = ([], none)) : wstr = [] := by
  have happend : ∀ cp following, appendThen cp following ≠ ([], none) := by
    intro cp following heq
    unfold appendThen at heq
    cases happend : appendOctets cp with
    | error fault =>
      rw [happend] at heq
      cases heq
    | ok octets =>
      rw [happend] at heq
      exact appendOctets_ne_nil happend (List.append_eq_nil_iff.mp (Prod.mk.inj heq).1).1
  cases wstr with
  | nil => rfl
  | cons unit rest =>
    rw [utf16to8.eq_def] at h
    dsimp only at h
    split at h
    · cases rest with
      | nil => cases h
      | cons unit' rest =>
        dsimp only at h
        split at h
        · exact absurd h (happend _ _)
        · cases h
    · split at h
      · cases h
      · exact absurd h (happend _ _)

theorem length_utf8_le (chars : List Char) :
    (utf8 chars).length ≤ (chars.flatMap fun c => units c.toNat).length * 4 := by
  have hoctets : (utf8 chars).length ≤ chars.length * 4 := by
    induction chars with
    | nil => exact Nat.le_refl 0
    | cons c chars ih =>
      have hsize := c.utf8Size_le_four
      have hcons : utf8 (c :: chars) = String.utf8EncodeChar c ++ utf8 chars := rfl
      rw [hcons, List.length_append, String.length_utf8EncodeChar, List.length_cons]
      omega
  have hunits := (length_flatMap_units chars).1
  omega

/-- The units of characters are written back as they were. -/
theorem wStrToUtf8_units (chars : List Char) :
    wStrToUtf8 (chars.flatMap fun c => units c.toNat) = (true, utf8 chars) := by
  have hroom : (utf8 chars).length ≤
      (List.replicate ((chars.flatMap fun c => units c.toNat).length * 4) (0 : UInt8)).length := by
    rw [List.length_replicate]
    exact length_utf8_le chars
  unfold wStrToUtf8
  rw [utf16to8_flatMap_units]
  dsimp only
  rw [resize_eq_take (by rwa [length_overwrite]), take_overwrite hroom]

/-- What comes back of a wide string is as long as what is written for it. -/
theorem wStrToUtf8_eq_nil {wstr : List ℕ} (h : wStrToUtf8 wstr = (true, [])) : wstr = [] := by
  unfold wStrToUtf8 at h
  rcases hback : utf16to8 wstr with ⟨octets, _ | fault⟩
  · rw [hback] at h
    have hlength := congrArg List.length (Prod.mk.inj h).2
    rw [resize_length] at hlength
    rw [List.eq_nil_of_length_eq_zero hlength] at hback
    exact utf16to8_eq_nil hback
  · rw [hback] at h
    cases h

/-- The basic plane. -/
def Basic (chars : List Char) : Prop := ∀ c ∈ chars, c.toNat ≤ 0xffff

/-- A conversion writes what it has reserved, and converts back. -/
def RoundTrip (utf8str : Bytes) (wstr : List ℕ) : Prop :=
  (utf8toWStr utf8str wstr).done = true ∧
    (utf8toWStr utf8str wstr).wide.written = (utf8toWStr utf8str wstr).wide.reserved ∧
      wStrToUtf8 (utf8toWStr utf8str wstr).wstr = (true, utf8str)

theorem roundTrip_iff (chars : List Char) (wstr : List ℕ) :
    RoundTrip (utf8 chars) wstr ↔ Basic chars ∧ (chars = [] → wstr = []) := by
  unfold RoundTrip utf8toWStr
  rw [distance_utf8, utf8to16_utf8]
  dsimp only
  cases chars with
  | nil =>
    rw [List.length_nil, if_pos rfl]
    constructor
    · rintro ⟨-, -, hback⟩
      exact ⟨List.forall_mem_nil _, fun _ => wStrToUtf8_eq_nil hback⟩
    · rintro ⟨-, hempty⟩
      rw [hempty rfl]
      exact ⟨rfl, rfl, rfl⟩
  | cons c chars =>
    obtain ⟨hle, hiff⟩ := length_flatMap_units (c :: chars)
    rw [if_neg (by rw [List.length_cons]; omega)]
    constructor
    · rintro ⟨-, hwritten, -⟩
      exact ⟨hiff.mp hwritten, fun h => by cases h⟩
    · rintro ⟨hbasic, -⟩
      have hlength := hiff.mpr hbasic
      refine ⟨rfl, hlength, ?_⟩
      rw [overwrite_of_le (by rw [resize_length]; exact hle), resize_length, ← hlength,
        List.take_length]
      exact wStrToUtf8_units _

/-! ## 4. Truncation -/

theorem length_utf8_take (chars : List Char) (k : ℕ) :
    (utf8 (chars.take k)).length ≤ (utf8 chars).length := by
  have hsplit : utf8 chars = utf8 (chars.take k) ++ utf8 (chars.drop k) := by
    unfold utf8
    rw [← List.flatMap_append, List.take_append_drop]
  rw [hsplit, List.length_append]
  exact Nat.le_add_right _ _

/-- What is left of a string that is too long, and what is written on the way. -/
theorem utf8truncate_eq {chars : List Char} {n : ℕ} (h : n < chars.length) :
    ∃ k ≤ n, ∃ kept ≤ n, utf8truncate (utf8 chars) n =
      ⟨utf8 (chars.take kept), ⟨chars.length, (chars.flatMap fun c => units c.toNat).length⟩,
        ⟨(utf8 chars).length, (utf8 (chars.take k)).length⟩⟩ := by
  have hle := (length_flatMap_units chars).1
  have hcut : resize (overwrite (List.replicate chars.length 0)
      (chars.flatMap fun c => units c.toNat)) n 0 =
      (chars.flatMap fun c => units c.toNat).take n := by
    rw [resize_eq_take (by rw [length_overwrite, List.length_replicate]; omega),
      overwrite_of_le (by rw [List.length_replicate]; exact hle), List.length_replicate,
      List.take_take, Nat.min_eq_left (by omega)]
  obtain ⟨k, hk, fault, -, hback⟩ := utf16to8_take chars n
  unfold utf8truncate
  rw [distance_utf8, utf8to16_utf8]
  dsimp only
  rw [if_neg (by omega), hcut, hback]
  cases fault with
  | none =>
    have hfits := length_utf8_take chars k
    refine ⟨k, hk, k, hk, ?_⟩
    dsimp only
    rw [resize_eq_take (by rwa [length_overwrite]), take_overwrite hfits]
  | some fault => exact ⟨k, hk, 0, Nat.zero_le n, rfl⟩

/-- **A truncation leaves a prefix**, and writes inside unless it is needed and some character is
above the basic plane. -/
theorem utf8truncate_spec (chars : List Char) (n : ℕ) :
    (∃ k ≤ n, (utf8truncate (utf8 chars) n).utf8str = utf8 (chars.take k)) ∧
      ((utf8truncate (utf8 chars) n).wide.Inside ∧ (utf8truncate (utf8 chars) n).narrow.Inside ↔
        Basic chars ∨ chars.length ≤ n) := by
  by_cases h : n < chars.length
  · obtain ⟨k, -, kept, hkept, heq⟩ := utf8truncate_eq h
    obtain ⟨hle, hiff⟩ := length_flatMap_units chars
    rw [heq]
    refine ⟨⟨kept, hkept, rfl⟩, ?_⟩
    constructor
    · rintro ⟨hwide, -⟩
      exact Or.inl (hiff.mp (Nat.le_antisymm hwide hle))
    · rintro (hbasic | hshort)
      · exact ⟨Nat.le_of_eq (hiff.mpr hbasic), length_utf8_take chars k⟩
      · omega
  · have hshort : chars.length ≤ n := Nat.le_of_not_lt h
    have heq : utf8truncate (utf8 chars) n = ⟨utf8 chars, ⟨0, 0⟩, ⟨0, 0⟩⟩ := by
      unfold utf8truncate
      rw [distance_utf8]
      exact if_pos hshort
    rw [heq]
    refine ⟨⟨chars.length, hshort, ?_⟩, iff_of_true ⟨le_rfl, le_rfl⟩ (Or.inr hshort)⟩
    rw [List.take_length]

/-- **Conversions and truncations.**  A valid string is converted in the room that is reserved, and
comes back, exactly when it has no character above the basic plane, and the wide string is empty
before if it is.  A truncated string is a prefix of at most `n` characters, and the truncation stays
in its room exactly when the string has no character above the basic plane or is short enough. -/
theorem wideStrings_iff (chars : List Char) (wstr : List ℕ) (n : ℕ) :
    (RoundTrip (utf8 chars) wstr ↔ Basic chars ∧ (chars = [] → wstr = [])) ∧
      (∃ k ≤ n, (utf8truncate (utf8 chars) n).utf8str = utf8 (chars.take k)) ∧
      ((utf8truncate (utf8 chars) n).wide.Inside ∧ (utf8truncate (utf8 chars) n).narrow.Inside ↔
        Basic chars ∨ chars.length ≤ n) :=
  ⟨roundTrip_iff chars wstr, utf8truncate_spec chars n⟩

/-- One character above the basic plane: one unit is reserved, two are written, and the string does
not come back. -/
theorem wideStrings_emoji :
    (utf8toWStr (utf8 [Char.ofNat 0x1F600]) []).wide = ⟨1, 2⟩ ∧
      ¬ RoundTrip (utf8 [Char.ofNat 0x1F600]) [] := by
  have hwide : (utf8toWStr (utf8 [Char.ofNat 0x1F600]) []).wide = ⟨1, 2⟩ := by
    unfold utf8toWStr
    rw [distance_utf8, utf8to16_utf8]
    rfl
  refine ⟨hwide, fun h => ?_⟩
  have hwritten := h.2.1
  rw [hwide] at hwritten
  cases hwritten

end HungerGames.Utilities
