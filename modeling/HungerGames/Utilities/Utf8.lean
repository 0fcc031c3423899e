/-
# UTF-8 and UTF-16 (`utf8/core.h`, `utf8/checked.h`)

The conversions of the string library: code points are taken one by one, each with the checks of
`validate_next`, and written as octets or as units of UTF-16.  A fault is an exception, and stops
a conversion after what it has written so far.

Valid UTF-8 is what Lean's `String.utf8EncodeChar` makes of characters, which are the code points
that are no surrogates.  On it, the library does what it should: `codePoints_utf8` and
`utf16to8_units`.
-/
import HungerGames.Lua.Text
import HungerGames.System.EarlyReturn
import Mathlib.Algebra.Group.Nat.Defs

namespace HungerGames.Utilities

open HungerGames.Lua (Bytes)
open HungerGames.System

/-! ## 1. Taking a code point -/

/-- What an exception is about: `utf_error`, and a surrogate out of place. -/
inductive Utf8Fault where
  | notEnoughRoom
  | invalidLead
  | incompleteSequence
  | overlongSequence
  | invalidCodePoint
  | invalidUtf16
deriving DecidableEq

def isTrail (oc : UInt8) : Bool := oc.toNat >>> 6 == 0x2

def isLeadSurrogate (cp : ℕ) : Bool := 0xd800 ≤ cp && cp ≤ 0xdbff

def isTrailSurrogate (cp : ℕ) : Bool := 0xdc00 ≤ cp && cp ≤ 0xdfff

def isSurrogate (cp : ℕ) : Bool := 0xd800 ≤ cp && cp ≤ 0xdfff

def isCodePointValid (cp : ℕ) : Bool := cp ≤ 0x10ffff && !isSurrogate cp

def sequenceLength (lead : UInt8) : ℕ :=
  if lead.toNat < 0x80 then 1
  else if lead.toNat >>> 5 = 0x6 then 2
  else if lead.toNat >>> 4 = 0xe then 3
  else if lead.toNat >>> 3 = 0x1e then 4
  else 0

def isOverlongSequence (cp length : ℕ) : Bool :=
  if cp < 0x80 then length != 1
  else if cp < 0x800 then length != 2
  else if cp < 0x10000 then length != 3
  else false

/-- `increase_safely`: the octet behind, which has to be there and to be a trail octet. -/
def increaseSafely : Bytes → Except Utf8Fault (ℕ × Bytes)
  | [] => .error .notEnoughRoom
  | oc :: rest => if isTrail oc then .ok (oc.toNat, rest) else .error .incompleteSequence

def getSequence2 (lead : ℕ) (rest : Bytes) : Except Utf8Fault (ℕ × Bytes) := do
  let (oc, rest) ← increaseSafely rest
  return ((lead <<< 6 &&& 0x7ff) + (oc &&& 0x3f), rest)

def getSequence3 (lead : ℕ) (rest : Bytes) : Except Utf8Fault (ℕ × Bytes) := do
  let (oc, rest) ← increaseSafely rest
  let (oc', rest) ← increaseSafely rest
  return ((lead <<< 12 &&& 0xffff) + (oc <<< 6 &&& 0xfff) + (oc' &&& 0x3f), rest)

def getSequence4 (lead : ℕ) (rest : Bytes) : Except Utf8Fault (ℕ × Bytes) := do
  let (oc, rest) ← increaseSafely rest
  let (oc', rest) ← increaseSafely rest
  let (oc'', rest) ← increaseSafely rest
  return ((lead <<< 18 &&& 0x1fffff) + (oc <<< 12 &&& 0x3ffff) + (oc' <<< 6 &&& 0xfff) +
    (oc'' &&& 0x3f), rest)

/-- The octets of a sequence of a length. -/
def getSequence (length : ℕ) (lead : ℕ) (rest : Bytes) : Except Utf8Fault (ℕ × Bytes) :=
  match length with
  | 1 => .ok (lead, rest)
  | 2 => getSequence2 lead rest
  | 3 => getSequence3 lead rest
  | 4 => getSequence4 lead rest
  | _ => .error .invalidLead

/-- `next`, with the checks of `validate_next`: the code point, and the octets behind it. -/
def next (lead : UInt8) (rest : Bytes) : Except Utf8Fault (ℕ × Bytes) := do
  let length := sequenceLength lead
  let (cp, rest) ← getSequence length lead.toNat rest
  if isCodePointValid cp then
    if isOverlongSequence cp length then .error .overlongSequence else .ok (cp, rest)
  else .error .invalidCodePoint

/-- What is left after taking octets is no longer than it was. -/
def Shortens (rest : Bytes) (x : Except Utf8Fault (ℕ × Bytes)) : Prop :=
  Ensures (fun _ => True) (fun p => p.2.length ≤ rest.length) x

theorem Shortens.bind {rest : Bytes} {x : Except Utf8Fault (ℕ × Bytes)}
    {f : ℕ × Bytes → Except Utf8Fault (ℕ × Bytes)} (hx : Shortens rest x)
    (hf : ∀ p, Shortens p.2 (f p)) : Shortens rest (x >>= f) :=
  Ensures.bind hx fun p hp => Ensures.mono (hf p) fun _ h => Nat.le_trans h hp

theorem increaseSafely_shortens (rest : Bytes) : Shortens rest (increaseSafely rest) := by
  cases rest with
  | nil => exact Ensures.throw trivial
  | cons oc rest => exact Ensures.ite (fun _ => Nat.le_succ _) fun _ => trivial

theorem getSequence_shortens (length lead : ℕ) (rest : Bytes) :
    Shortens rest (getSequence length lead rest) := by
  unfold getSequence
  split
  · exact Nat.le_refl _
  · exact (increaseSafely_shortens rest).bind fun p => Nat.le_refl _
  · exact (increaseSafely_shortens rest).bind fun p =>
      (increaseSafely_shortens p.2).bind fun p => Nat.le_refl _
  · exact (increaseSafely_shortens rest).bind fun p =>
      (increaseSafely_shortens p.2).bind fun p =>
        (increaseSafely_shortens p.2).bind fun p => Nat.le_refl _
  · trivial

theorem next_shortens (lead : UInt8) (rest : Bytes) : Shortens rest (next lead rest) :=
  (getSequence_shortens _ _ rest).bind fun _ =>
    Ensures.ite (fun _ => Ensures.ite (fun _ => trivial) fun _ => Nat.le_refl _) fun _ => trivial

/-- The code points that `next` takes one by one, and the exception that ends them. -/
def codePoints : Bytes → List ℕ × Option Utf8Fault
  | [] => ([], none)
  | lead :: rest =>
    match _h : next lead rest with
    | .error fault => ([], some fault)
    | .ok (cp, rest') =>
      let (cps, fault) := codePoints rest'
      (cp :: cps, fault)
termination_by utf8str => utf8str.length
decreasing_by
  have hshort := next_shortens lead rest
  rw [‹next lead rest = _›] at hshort
  exact Nat.lt_succ_of_le hshort

/-! ## 2. The conversions -/

def distance (utf8str : Bytes) : Except Utf8Fault ℕ :=
  match codePoints utf8str with
  | (cps, none) => .ok cps.length
  | (_, some fault) => .error fault

/-- The units `utf8to16` writes for a code point. -/
def units (cp : ℕ) : List ℕ :=
  if 0xffff < cp then
    -- LEAD_OFFSET = 0xd800 - (0x10000 >> 10)
    [((cp >>> 10) + 0xd7c0) % 2 ^ 16, ((cp &&& 0x3ff) + 0xdc00) % 2 ^ 16]
  else [cp % 2 ^ 16]

/-- `utf8to16`: what it writes, and its exception. -/
def utf8to16 (utf8str : Bytes) : List ℕ × Option Utf8Fault :=
  let (cps, fault) := codePoints utf8str
  (cps.flatMap units, fault)

/-- `append` -/
def appendOctets (cp : ℕ) : Except Utf8Fault Bytes :=
  if isCodePointValid cp = false then .error .invalidCodePoint
  else if cp < 0x80 then .ok [cp.toUInt8]
  else if cp < 0x800 then .ok [(cp >>> 6 ||| 0xc0).toUInt8, (cp &&& 0x3f ||| 0x80).toUInt8]
  else if cp < 0x10000 then
    .ok [(cp >>> 12 ||| 0xe0).toUInt8, (cp >>> 6 &&& 0x3f ||| 0x80).toUInt8,
      (cp &&& 0x3f ||| 0x80).toUInt8]
  else
    .ok [(cp >>> 18 ||| 0xf0).toUInt8, (cp >>> 12 &&& 0x3f ||| 0x80).toUInt8,
      (cp >>> 6 &&& 0x3f ||| 0x80).toUInt8, (cp &&& 0x3f ||| 0x80).toUInt8]

/-- A code point is appended in front of what follows. -/
def appendThen (cp : ℕ) (following : Bytes × Option Utf8Fault) : Bytes × Option Utf8Fault :=
  match appendOctets cp with
  | .error fault => ([], some fault)
  | .ok octets => (octets ++ following.1, following.2)

/-- A pair of surrogates as a code point; `SURROGATE_OFFSET` is a `uint32` below zero. -/
def ofSurrogates (lead trail : ℕ) : ℕ :=
  ((lead <<< 10) + trail + (2 ^ 32 + 0x10000 - (0xd800 <<< 10) - 0xdc00)) % 2 ^ 32

/-- `utf16to8`: what it writes, and its exception. -/
def utf16to8 : List ℕ → Bytes × Option Utf8Fault
  | [] => ([], none)
  | unit :: rest =>
    let cp := unit % 2 ^ 16
    if isLeadSurrogate cp then
      match rest with
      | [] => ([], some .invalidUtf16)
      | unit' :: rest =>
        let trail := unit' % 2 ^ 16
        if isTrailSurrogate trail then appendThen (ofSurrogates cp trail) (utf16to8 rest)
        else ([], some .invalidUtf16)
    else if isTrailSurrogate cp then ([], some .invalidUtf16)
    else appendThen cp (utf16to8 rest)

/-! ## 3. Valid strings -/

/-- The UTF-8 of characters. -/
def utf8 (chars : List Char) : Bytes := chars.flatMap String.utf8EncodeChar

theorem isCodePointValid_char (c : Char) : isCodePointValid c.toNat = true := by
  have hvalid := c.valid
  unfold isCodePointValid isSurrogate
  simp only [Bool.and_eq_true, Bool.not_eq_true', Bool.and_eq_false_iff, decide_eq_true_eq,
    decide_eq_false_iff_not]
  show c.val.toNat ≤ _ ∧ (¬ _ ≤ c.val.toNat ∨ ¬ c.val.toNat ≤ _)
  rcases hvalid with h | ⟨h, h'⟩ <;> omega

/-- A field is put below its mark. -/
theorem or_mark {x : ℕ} (k m : ℕ) (h : x < 2 ^ k) : x ||| 2 ^ k * m = x + 2 ^ k * m := by
  rw [Nat.or_comm, ← Nat.two_pow_add_eq_or_of_lt h, Nat.add_comm]

theorem and_3f (x : ℕ) : x &&& 0x3f = x % 64 := Nat.and_two_pow_sub_one_eq_mod x 6

/-- The trail octet of six bits. -/
theorem trail_mark (x : ℕ) : x &&& 0x3f ||| 0x80 = x % 64 + 0x80 := by
  rw [and_3f]
  exact or_mark 6 2 (Nat.mod_lt x (by decide))

theorem appendOctets_char (c : Char) : appendOctets c.toNat = .ok (String.utf8EncodeChar c) := by
  have hval : c.val.toNat = c.toNat := rfl
  have hmax : c.toNat < 0x110000 := by
    rcases c.valid with h | ⟨-, h⟩ <;> omega
  unfold appendOctets String.utf8EncodeChar
  rw [if_neg (by rw [isCodePointValid_char]; decide)]
  rw [hval]
  simp only [trail_mark, Nat.shiftRight_eq_div_pow]
  by_cases h1 : c.toNat < 0x80
  · rw [if_pos h1, if_pos (show c.toNat ≤ 0x7f by omega)]
  rw [if_neg h1, if_neg (show ¬ c.toNat ≤ 0x7f by omega)]
  by_cases h2 : c.toNat < 0x800
  · have hlead : c.toNat / 2 ^ 6 ||| 0xc0 = c.toNat / 64 % 0x20 + 0xc0 :=
      (or_mark 6 3 (by omega)).trans (by omega)
    rw [if_pos h2, if_pos (show c.toNat ≤ 0x7ff by omega), hlead]
  rw [if_neg h2, if_neg (show ¬ c.toNat ≤ 0x7ff by omega)]
  by_cases h3 : c.toNat < 0x10000
  · have hlead : c.toNat / 2 ^ 12 ||| 0xe0 = c.toNat / 4096 % 0x10 + 0xe0 :=
      (or_mark 4 14 (by omega)).trans (by omega)
    rw [if_pos h3, if_pos (show c.toNat ≤ 0xffff by omega), hlead]
  · have hlead : c.toNat / 2 ^ 18 ||| 0xf0 = c.toNat / 262144 % 0x08 + 0xf0 :=
      (or_mark 4 15 (by omega)).trans (by omega)
    rw [if_neg h3, if_neg (show ¬ c.toNat ≤ 0xffff by omega), hlead]

/-- An octet that is marked as a trail is taken as one. -/
theorem increaseSafely_trail (x : ℕ) (rest : Bytes) :
    increaseSafely (UInt8.ofNat (x % 0x40 + 0x80) :: rest) = .ok (x % 64 + 128, rest) := by
  have hvalue : (UInt8.ofNat (x % 0x40 + 0x80)).toNat = x % 64 + 128 := by
    rw [UInt8.toNat_ofNat']
    omega
  have htrail : isTrail (UInt8.ofNat (x % 0x40 + 0x80)) = true := by
    unfold isTrail
    rw [hvalue, Nat.shiftRight_eq_div_pow, beq_iff_eq]
    omega
  rw [increaseSafely, if_pos htrail, hvalue]

/-- The lead octet of a sequence. -/
theorem toNat_lead {x : ℕ} (h : x < 256) : (UInt8.ofNat x).toNat = x := by
  rw [UInt8.toNat_ofNat']
  omega

theorem sequenceLength_eq {lead : UInt8} {n : ℕ} (h : lead.toNat = n) :
    sequenceLength lead = if n < 0x80 then 1 else if n / 32 = 6 then 2 else if n / 16 = 14 then 3
      else if n / 8 = 30 then 4 else 0 := by
  unfold sequenceLength
  simp only [h, Nat.shiftRight_eq_div_pow]

theorem and_7ff (x : ℕ) : x &&& 0x7ff = x % 2048 := Nat.and_two_pow_sub_one_eq_mod x 11
theorem and_fff (x : ℕ) : x &&& 0xfff = x % 4096 := Nat.and_two_pow_sub_one_eq_mod x 12
theorem and_ffff (x : ℕ) : x &&& 0xffff = x % 65536 := Nat.and_two_pow_sub_one_eq_mod x 16
theorem and_3ffff (x : ℕ) : x &&& 0x3ffff = x % 262144 := Nat.and_two_pow_sub_one_eq_mod x 18
theorem and_1fffff (x : ℕ) : x &&& 0x1fffff = x % 2097152 := Nat.and_two_pow_sub_one_eq_mod x 21

/-- The fields of a sequence, put together. -/
theorem getSequence2_trail (lead x : ℕ) (rest : Bytes) :
    getSequence2 lead (UInt8.ofNat (x % 0x40 + 0x80) :: rest) =
      .ok (lead * 64 % 2048 + x % 64, rest) := by
  have hlow : (x % 64 + 128) % 64 = x % 64 := by omega
  simp only [getSequence2, increaseSafely_trail, Bind.bind, Except.bind, Pure.pure, Except.pure,
    and_7ff, and_3f, Nat.shiftLeft_eq, hlow]

theorem getSequence3_trail (lead x y : ℕ) (rest : Bytes) :
    getSequence3 lead (UInt8.ofNat (x % 0x40 + 0x80) :: UInt8.ofNat (y % 0x40 + 0x80) :: rest) =
      .ok (lead * 4096 % 65536 + x % 64 * 64 + y % 64, rest) := by
  have hmid : (x % 64 + 128) * 2 ^ 6 % 4096 = x % 64 * 64 := by omega
  have hlow : (y % 64 + 128) % 64 = y % 64 := by omega
  simp only [getSequence3, increaseSafely_trail, Bind.bind, Except.bind, Pure.pure, Except.pure,
    and_fff, and_ffff, and_3f, Nat.shiftLeft_eq, hlow, hmid]

theorem getSequence4_trail (lead x y z : ℕ) (rest : Bytes) :
    getSequence4 lead (UInt8.ofNat (x % 0x40 + 0x80) :: UInt8.ofNat (y % 0x40 + 0x80) ::
        UInt8.ofNat (z % 0x40 + 0x80) :: rest) =
      .ok (lead * 262144 % 2097152 + x % 64 * 4096 + y % 64 * 64 + z % 64, rest) := by
  have hhigh : (x % 64 + 128) * 2 ^ 12 % 262144 = x % 64 * 4096 := by omega
  have hmid : (y % 64 + 128) * 2 ^ 6 % 4096 = y % 64 * 64 := by omega
  have hlow : (z % 64 + 128) % 64 = z % 64 := by omega
  simp only [getSequence4, increaseSafely_trail, Bind.bind, Except.bind, Pure.pure, Except.pure,
    and_fff, and_3ffff, and_1fffff, and_3f, Nat.shiftLeft_eq, hlow, hmid, hhigh]

/-- `next` takes the octets of a character. -/
theorem next_char (c : Char) (rest : Bytes) : ∃ lead trails,
    String.utf8EncodeChar c = lead :: trails ∧ next lead (trails ++ rest) = .ok (c.toNat, rest) := by
  have hval : c.val.toNat = c.toNat := rfl
  have hmax : c.toNat < 0x110000 := by
    rcases c.valid with h | ⟨-, h⟩ <;> omega
  have hvalid := isCodePointValid_char c
  -- a sequence with the code point and the length that belongs to it passes the checks
  have hnext : ∀ (lead : UInt8) (trails : Bytes) (length cp : ℕ), sequenceLength lead = length →
      getSequence length lead.toNat (trails ++ rest) = .ok (cp, rest) → cp = c.toNat →
      isOverlongSequence c.toNat length = false →
      next lead (trails ++ rest) = .ok (c.toNat, rest) := by
    intro lead trails length cp hlength hsequence hcp hlong
    subst hcp
    simp only [next, hlength, hsequence, Bind.bind, Except.bind, hvalid, hlong, if_true,
      Bool.false_eq_true, if_false]
  unfold String.utf8EncodeChar
  rw [hval]
  by_cases h1 : c.toNat ≤ 0x7f
  · have hlead := toNat_lead (x := c.toNat) (by omega)
    rw [if_pos h1]
    refine ⟨_, _, rfl, hnext _ _ 1 c.toNat ?_ ?_ rfl ?_⟩
    · rw [sequenceLength_eq hlead, if_pos (by omega)]
    · rw [hlead]
      rfl
    · rw [isOverlongSequence, if_pos (by omega)]
      rfl
  rw [if_neg h1]
  by_cases h2 : c.toNat ≤ 0x7ff
  · have hlead := toNat_lead (x := c.toNat / 64 % 0x20 + 0xc0) (by omega)
    rw [if_pos h2]
    refine ⟨_, _, rfl, hnext _ _ 2 _ ?_ (getSequence2_trail _ _ _) ?_ ?_⟩
    · rw [sequenceLength_eq hlead, if_neg (by omega), if_pos (by omega)]
    · rw [hlead]
      omega
    · rw [isOverlongSequence, if_neg (by omega), if_pos (by omega)]
      rfl
  rw [if_neg h2]
  by_cases h3 : c.toNat ≤ 0xffff
  · have hlead := toNat_lead (x := c.toNat / 4096 % 0x10 + 0xe0) (by omega)
    rw [if_pos h3]
    refine ⟨_, _, rfl, hnext _ _ 3 _ ?_ (getSequence3_trail _ _ _ _) ?_ ?_⟩
    · rw [sequenceLength_eq hlead, if_neg (by omega), if_neg (by omega), if_pos (by omega)]
    · rw [hlead]
      omega
    · rw [isOverlongSequence, if_neg (by omega), if_neg (by omega), if_pos (by omega)]
      rfl
  · have hlead := toNat_lead (x := c.toNat / 262144 % 0x08 + 0xf0) (by omega)
    rw [if_neg h3]
    refine ⟨_, _, rfl, hnext _ _ 4 _ ?_ (getSequence4_trail _ _ _ _ _) ?_ ?_⟩
    · rw [sequenceLength_eq hlead, if_neg (by omega), if_neg (by omega), if_neg (by omega),
        if_pos (by omega)]
    · rw [hlead]
      omega
    · rw [isOverlongSequence, if_neg (by omega), if_neg (by omega), if_neg (by omega)]

/-- **The code points of valid UTF-8** are those of its characters, and there is no exception. -/
theorem codePoints_utf8 (chars : List Char) :
    codePoints (utf8 chars) = (chars.map Char.toNat, none) := by
  induction chars with
  | nil => rw [utf8, List.flatMap_nil, codePoints, List.map_nil]
  | cons c chars ih =>
    obtain ⟨lead, trails, hc, hnext⟩ := next_char c (utf8 chars)
    have hcons : utf8 (c :: chars) = lead :: (trails ++ utf8 chars) := by
      unfold utf8
      rw [List.flatMap_cons, hc, List.cons_append]
    rw [hcons, codePoints]
    split
    · next fault herror =>
      rw [hnext] at herror
      cases herror
    · next cp rest hok =>
      rw [hnext] at hok
      cases hok
      rw [ih, List.map_cons]

theorem distance_utf8 (chars : List Char) : distance (utf8 chars) = .ok chars.length := by
  rw [distance, codePoints_utf8]
  exact congrArg Except.ok (List.length_map _)

theorem utf8to16_utf8 (chars : List Char) :
    utf8to16 (utf8 chars) = (chars.flatMap fun c => units c.toNat, none) := by
  rw [utf8to16, codePoints_utf8]
  dsimp only
  rw [List.flatMap_map]

/-! ## 4. Back again -/

theorem appendThen_char (c : Char) (following : Bytes × Option Utf8Fault) :
    appendThen c.toNat following = (String.utf8EncodeChar c ++ following.1, following.2) := by
  rw [appendThen, appendOctets_char]

/-- The units of a character of the basic plane, and of any other. -/
theorem units_cases (c : Char) :
    (c.toNat ≤ 0xffff ∧ units c.toNat = [c.toNat] ∧ isSurrogate c.toNat = false) ∨
      (0xffff < c.toNat ∧ ∃ lead trail, units c.toNat = [lead, trail] ∧
        isLeadSurrogate lead = true ∧ isTrailSurrogate trail = true ∧
          ofSurrogates lead trail = c.toNat) := by
  have hvalid := isCodePointValid_char c
  unfold isCodePointValid at hvalid
  rw [Bool.and_eq_true, decide_eq_true_eq, Bool.not_eq_true'] at hvalid
  obtain ⟨hmax, hsurrogate⟩ := hvalid
  have h3ff : c.toNat &&& 0x3ff = c.toNat % 1024 := Nat.and_two_pow_sub_one_eq_mod _ 10
  unfold units
  by_cases h : 0xffff < c.toNat
  · refine Or.inr ⟨h, _, _, if_pos h, ?_, ?_, ?_⟩
    · unfold isLeadSurrogate
      rw [Bool.and_eq_true, decide_eq_true_eq, decide_eq_true_eq, Nat.shiftRight_eq_div_pow]
      omega
    · unfold isTrailSurrogate
      rw [Bool.and_eq_true, decide_eq_true_eq, decide_eq_true_eq, h3ff]
      omega
    · unfold ofSurrogates
      rw [h3ff, Nat.shiftRight_eq_div_pow, Nat.shiftLeft_eq, Nat.shiftLeft_eq]
      omega
  · refine Or.inl ⟨by omega, ?_, hsurrogate⟩
    rw [if_neg h, Nat.mod_eq_of_lt (by omega)]

variable {cp : ℕ}

theorem isSurrogate_lead (h : isLeadSurrogate cp = true) : cp % 2 ^ 16 = cp := by
  unfold isLeadSurrogate at h
  rw [Bool.and_eq_true, decide_eq_true_eq, decide_eq_true_eq] at h
  omega

theorem isSurrogate_trail (h : isTrailSurrogate cp = true) : cp % 2 ^ 16 = cp := by
  unfold isTrailSurrogate at h
  rw [Bool.and_eq_true, decide_eq_true_eq, decide_eq_true_eq] at h
  omega

theorem not_surrogate (h : isSurrogate cp = false) :
    isLeadSurrogate cp = false ∧ isTrailSurrogate cp = false := by
  unfold isSurrogate at h
  unfold isLeadSurrogate isTrailSurrogate
  rw [Bool.and_eq_false_iff, decide_eq_false_iff_not, decide_eq_false_iff_not] at h
  simp only [Bool.and_eq_false_iff, decide_eq_false_iff_not]
  omega

/-- **The units of a character are taken back.** -/
theorem utf16to8_units (c : Char) (following : List ℕ) :
    utf16to8 (units c.toNat ++ following) =
      (String.utf8EncodeChar c ++ (utf16to8 following).1, (utf16to8 following).2) := by
  rcases units_cases c with ⟨hbasic, hunits, hsurrogate⟩ |
    ⟨-, lead, trail, hunits, hlead, htrail, hpair⟩
  · obtain ⟨hlead, htrail⟩ := not_surrogate hsurrogate
    have hmod : c.toNat % 2 ^ 16 = c.toNat := by omega
    rw [hunits, List.singleton_append, utf16to8.eq_def]
    simp only [hmod, hlead, htrail, Bool.false_eq_true, if_false]
    exact appendThen_char c _
  · rw [hunits, List.cons_append, List.singleton_append, utf16to8]
    simp only [isSurrogate_lead hlead, hlead, isSurrogate_trail htrail, htrail, if_true]
    rw [hpair]
    exact appendThen_char c _

theorem utf16to8_flatMap_units (chars : List Char) :
    utf16to8 (chars.flatMap fun c => units c.toNat) = (utf8 chars, none) := by
  induction chars with
  | nil => rfl
  | cons c chars ih =>
    rw [List.flatMap_cons, utf16to8_units, ih]
    rfl

/-- **Units that are cut off** are those of the first characters, up to an exception where a pair
of surrogates is cut in two. -/
theorem utf16to8_take (chars : List Char) : ∀ n, ∃ k ≤ n, ∃ fault,
    ((chars.take k).flatMap fun c => units c.toNat).length ≤ n ∧
      utf16to8 ((chars.flatMap fun c => units c.toNat).take n) = (utf8 (chars.take k), fault) := by
  induction chars with
  | nil =>
    intro n
    refine ⟨0, Nat.zero_le n, none, Nat.zero_le n, ?_⟩
    rw [List.flatMap_nil, List.take_nil]
    rfl
  | cons c chars ih =>
    intro n
    by_cases hfits : (units c.toNat).length ≤ n
    · obtain ⟨k, hk, fault, hunits, hrest⟩ := ih (n - (units c.toNat).length)
      have hpos : 0 < (units c.toNat).length := by
        unfold units
        split <;> exact Nat.succ_pos _
      refine ⟨k + 1, by omega, fault, ?_, ?_⟩
      · rw [List.take_succ_cons, List.flatMap_cons, List.length_append]
        omega
      rw [List.flatMap_cons, List.take_append, List.take_of_length_le hfits, utf16to8_units, hrest,
        List.take_succ_cons]
      rfl
    · suffices hcut : ∃ fault, utf16to8
          (((c :: chars).flatMap fun c => units c.toNat).take n) = (utf8 [], fault) by
        obtain ⟨fault, hcut⟩ := hcut
        exact ⟨0, Nat.zero_le n, fault, Nat.zero_le n, hcut⟩
      rw [List.flatMap_cons, List.take_append_of_le_length (by omega)]
      rcases units_cases c with ⟨-, hunits, -⟩ | ⟨-, lead, trail, hunits, hlead, -, -⟩
      · have hn : n = 0 := by
          rw [hunits, List.length_singleton] at hfits
          omega
        rw [hn]
        exact ⟨none, rfl⟩
      · have hn : n = 0 ∨ n = 1 := by
          rw [hunits] at hfits
          simp only [List.length_cons, List.length_nil] at hfits
          omega
        rcases hn with rfl | rfl
        · exact ⟨none, rfl⟩
        · refine ⟨some .invalidUtf16, ?_⟩
          rw [hunits]
          simp only [List.take_succ_cons, List.take_zero, utf16to8, isSurrogate_lead hlead, hlead,
            if_true]
          rfl

/-- There are at least as many units as characters, and as many only on the basic plane. -/
theorem length_flatMap_units (chars : List Char) :
    chars.length ≤ (chars.flatMap fun c => units c.toNat).length ∧
      ((chars.flatMap fun c => units c.toNat).length = chars.length ↔
        ∀ c ∈ chars, c.toNat ≤ 0xffff) := by
  induction chars with
  | nil => exact ⟨le_rfl, iff_of_true rfl (List.forall_mem_nil _)⟩
  | cons c chars ih =>
    obtain ⟨hle, hiff⟩ := ih
    rw [List.flatMap_cons, List.length_append, List.length_cons, List.forall_mem_cons, ← hiff]
    rcases units_cases c with ⟨hbasic, hunits, -⟩ | ⟨hhigh, lead, trail, hunits, -⟩
    · rw [hunits, List.length_singleton]
      omega
    · rw [hunits]
      simp only [List.length_cons, List.length_nil]
      omega

/-! ## 5. What is taken is valid -/

theorem increaseSafely_ok {rest rest' : Bytes} {oc : ℕ}
    (h : increaseSafely rest = .ok (oc, rest')) :
    ∃ b : UInt8, rest = b :: rest' ∧ oc = b.toNat ∧ 0x80 ≤ oc ∧ oc < 0xc0 := by
  cases rest with
  | nil => cases h
  | cons b rest =>
    unfold increaseSafely at h
    dsimp only at h
    by_cases htrail : isTrail b = true
    · rw [if_pos htrail] at h
      cases h
      unfold isTrail at htrail
      rw [beq_iff_eq, Nat.shiftRight_eq_div_pow] at htrail
      exact ⟨b, rfl, rfl, by omega, by omega⟩
    · rw [if_neg htrail] at h
      cases h

/-- An exception is passed on by what follows. -/
theorem bind_ok {α β : Type} {x : Except Utf8Fault α} {f : α → Except Utf8Fault β} {b : β}
    (h : (x >>= f) = .ok b) : ∃ a, x = .ok a ∧ f a = .ok b := by
  cases x with
  | error fault => cases h
  | ok a => exact ⟨a, rfl, h⟩

/-- The octets of a sequence, by its length, with the code point they make. -/
theorem getSequence_ok {lead : ℕ} {length : ℕ} {rest rest' : Bytes}
    (h : getSequence length lead rest = .ok (cp, rest')) :
    (length = 1 ∧ cp = lead ∧ rest = rest') ∨
    (length = 2 ∧ ∃ x : UInt8, rest = x :: rest' ∧ 0x80 ≤ x.toNat ∧ x.toNat < 0xc0 ∧
      cp = lead * 64 % 2048 + x.toNat % 64) ∨
    (length = 3 ∧ ∃ x y : UInt8, rest = x :: y :: rest' ∧ 0x80 ≤ x.toNat ∧ x.toNat < 0xc0 ∧
      0x80 ≤ y.toNat ∧ y.toNat < 0xc0 ∧
      cp = lead * 4096 % 65536 + x.toNat * 64 % 4096 + y.toNat % 64) ∨
    (length = 4 ∧ ∃ x y z : UInt8, rest = x :: y :: z :: rest' ∧ 0x80 ≤ x.toNat ∧ x.toNat < 0xc0 ∧
      0x80 ≤ y.toNat ∧ y.toNat < 0xc0 ∧ 0x80 ≤ z.toNat ∧ z.toNat < 0xc0 ∧
      cp = lead * 262144 % 2097152 + x.toNat * 4096 % 262144 + y.toNat * 64 % 4096 +
        z.toNat % 64) := by
  unfold getSequence at h
  split at h
  · cases h
    exact Or.inl ⟨rfl, rfl, rfl⟩
  · obtain ⟨⟨oc, rest₁⟩, h₁, h⟩ := bind_ok h
    obtain ⟨x, rfl, rfl, hx, hx'⟩ := increaseSafely_ok h₁
    cases h
    refine Or.inr (Or.inl ⟨rfl, x, rfl, hx, hx', ?_⟩)
    rw [and_7ff, and_3f, Nat.shiftLeft_eq]
  · obtain ⟨⟨oc, rest₁⟩, h₁, h⟩ := bind_ok h
    obtain ⟨x, rfl, rfl, hx, hx'⟩ := increaseSafely_ok h₁
    obtain ⟨⟨oc, rest₂⟩, h₂, h⟩ := bind_ok h
    obtain ⟨y, rfl, rfl, hy, hy'⟩ := increaseSafely_ok h₂
    cases h
    refine Or.inr (Or.inr (Or.inl ⟨rfl, x, y, rfl, hx, hx', hy, hy', ?_⟩))
    rw [and_ffff, and_fff, and_3f, Nat.shiftLeft_eq, Nat.shiftLeft_eq]
  · obtain ⟨⟨oc, rest₁⟩, h₁, h⟩ := bind_ok h
    obtain ⟨x, rfl, rfl, hx, hx'⟩ := increaseSafely_ok h₁
    obtain ⟨⟨oc, rest₂⟩, h₂, h⟩ := bind_ok h
    obtain ⟨y, rfl, rfl, hy, hy'⟩ := increaseSafely_ok h₂
    obtain ⟨⟨oc, rest₃⟩, h₃, h⟩ := bind_ok h
    obtain ⟨z, rfl, rfl, hz, hz'⟩ := increaseSafely_ok h₃
    cases h
    refine Or.inr (Or.inr (Or.inr ⟨rfl, x, y, z, rfl, hx, hx', hy, hy', hz, hz', ?_⟩))
    rw [and_1fffff, and_3ffff, and_fff, and_3f, Nat.shiftLeft_eq, Nat.shiftLeft_eq, Nat.shiftLeft_eq]
  · cases h

/-- The lead octet of a length. -/
theorem lead_of_sequenceLength (lead : UInt8) :
    (sequenceLength lead = 1 → lead.toNat < 0x80) ∧
      (sequenceLength lead = 2 → lead.toNat / 32 = 6) ∧
      (sequenceLength lead = 3 → lead.toNat / 16 = 14) ∧
      (sequenceLength lead = 4 → lead.toNat / 8 = 30) := by
  have hcases := @sequenceLength_eq lead _ rfl
  refine ⟨fun h => ?_, fun h => ?_, fun h => ?_, fun h => ?_⟩ <;> rw [h] at hcases <;>
    split_ifs at hcases <;> omega

theorem exists_char (h : isCodePointValid cp = true) : ∃ c : Char, c.toNat = cp := by
  unfold isCodePointValid isSurrogate at h
  simp only [Bool.and_eq_true, Bool.not_eq_true', Bool.and_eq_false_iff, decide_eq_true_eq,
    decide_eq_false_iff_not] at h
  have htoNat : (UInt32.ofNat cp).toNat = cp := by
    rw [UInt32.toNat_ofNat']
    omega
  have hvalid : (UInt32.ofNat cp).isValidChar := by
    unfold UInt32.isValidChar Nat.isValidChar
    rw [htoNat]
    omega
  exact ⟨⟨UInt32.ofNat cp, hvalid⟩, htoNat⟩

/-- An octet is what it is computed to be. -/
theorem ofNat_eq {n : ℕ} {b : UInt8} (h : n = b.toNat) : UInt8.ofNat n = b := by
  rw [h, UInt8.ofNat_toNat]

/-- **A code point that `next` takes is a character**, and the octets are its UTF-8. -/
theorem next_sound {lead : UInt8} {rest rest' : Bytes} (h : next lead rest = .ok (cp, rest')) :
    ∃ c : Char, c.toNat = cp ∧ String.utf8EncodeChar c ++ rest' = lead :: rest := by
  obtain ⟨⟨cp', rest₁⟩, hsequence, h⟩ := bind_ok h
  dsimp only at h
  by_cases hvalid : isCodePointValid cp' = true
  · rw [if_pos hvalid] at h
    by_cases hlong : isOverlongSequence cp' (sequenceLength lead) = true
    · rw [if_pos hlong] at h
      cases h
    rw [if_neg hlong] at h
    cases h
    obtain ⟨c, hc⟩ := exists_char hvalid
    have hval : c.val.toNat = cp := hc
    have hlead := lead_of_sequenceLength lead
    have hbyte := lead.toNat_lt
    have hmax : cp < 0x110000 := by
      unfold isCodePointValid at hvalid
      rw [Bool.and_eq_true, decide_eq_true_eq] at hvalid
      omega
    unfold isOverlongSequence at hlong
    refine ⟨c, hc, ?_⟩
    unfold String.utf8EncodeChar
    rw [hval]
    rcases getSequence_ok hsequence with ⟨hlength, hcp, rfl⟩ | ⟨hlength, x, rfl, hx, hx', hcp⟩ |
      ⟨hlength, x, y, rfl, hx, hx', hy, hy', hcp⟩ |
      ⟨hlength, x, y, z, rfl, hx, hx', hy, hy', hz, hz', hcp⟩
    · rw [if_pos (by omega), ofNat_eq hcp]
      rfl
    · rw [hlength] at hlong hlead
      have h1 : ¬ cp < 0x80 := fun h => hlong (by rw [if_pos h]; rfl)
      rw [if_neg (by omega), if_pos (by omega), ofNat_eq (b := lead) (by omega),
        ofNat_eq (b := x) (by omega)]
      rfl
    · rw [hlength] at hlong hlead
      have h1 : ¬ cp < 0x80 := fun h => hlong (by rw [if_pos h]; rfl)
      have h2 : ¬ cp < 0x800 := fun h => hlong (by rw [if_neg h1, if_pos h]; rfl)
      rw [if_neg (by omega), if_neg (by omega), if_pos (by omega), ofNat_eq (b := lead) (by omega),
        ofNat_eq (b := x) (by omega), ofNat_eq (b := y) (by omega)]
      rfl
    · rw [hlength] at hlong hlead
      have h1 : ¬ cp < 0x80 := fun h => hlong (by rw [if_pos h]; rfl)
      have h2 : ¬ cp < 0x800 := fun h => hlong (by rw [if_neg h1, if_pos h]; rfl)
      have h3 : ¬ cp < 0x10000 := fun h => hlong (by rw [if_neg h1, if_neg h2, if_pos h]; rfl)
      rw [if_neg (by omega), if_neg (by omega), if_neg (by omega), ofNat_eq (b := lead) (by omega),
        ofNat_eq (b := x) (by omega), ofNat_eq (b := y) (by omega), ofNat_eq (b := z) (by omega)]
      rfl
  · rw [if_neg hvalid] at h
    cases h

/-- **A string without an exception is valid UTF-8.** -/
theorem codePoints_sound : ∀ (utf8str : Bytes) (cps : List ℕ), codePoints utf8str = (cps, none) →
    ∃ chars, utf8str = utf8 chars ∧ cps = chars.map Char.toNat := by
  intro utf8str
  induction utf8str using codePoints.induct with
  | case1 =>
    intro cps h
    rw [codePoints] at h
    cases h
    exact ⟨[], rfl, rfl⟩
  | case2 lead rest fault hnext =>
    intro cps h
    rw [codePoints] at h
    split at h
    · cases h
    · next hok =>
      rw [hnext] at hok
      cases hok
  | case3 lead rest cp rest' hnext _ _ _ ih =>
    intro cps h
    rw [codePoints] at h
    split at h
    · cases h
    · next hok =>
      rw [hnext] at hok
      cases hok
      rcases hrest : codePoints rest' with ⟨cps', fault⟩
      rw [hrest] at h
      cases h
      obtain ⟨c, rfl, hc⟩ := next_sound hnext
      obtain ⟨chars, rfl, rfl⟩ := ih cps' hrest
      refine ⟨c :: chars, ?_, rfl⟩
      rw [← hc]
      rfl

/-- **`utf8to16` takes valid UTF-8 and nothing else**, and `utf16to8` gives it back. -/
theorem utf8to16_eq_none_iff (utf8str : Bytes) : (utf8to16 utf8str).2 = none ↔
    ∃ chars, utf8str = utf8 chars ∧ utf16to8 (utf8to16 utf8str).1 = (utf8str, none) := by
  constructor
  · intro h
    have hpoints : codePoints utf8str = ((codePoints utf8str).1, none) := Prod.ext rfl h
    obtain ⟨chars, rfl, -⟩ := codePoints_sound utf8str _ hpoints
    rw [utf8to16_utf8]
    exact ⟨chars, rfl, utf16to8_flatMap_units chars⟩
  · rintro ⟨chars, rfl, -⟩
    rw [utf8to16_utf8]

/-- A string has a distance if it is valid UTF-8. -/
theorem distance_ok_iff {utf8str : Bytes} {n : ℕ} :
    distance utf8str = .ok n ↔ ∃ chars, utf8str = utf8 chars ∧ n = chars.length := by
  constructor
  · intro h
    unfold distance at h
    rcases hpoints : codePoints utf8str with ⟨cps, _ | fault⟩
    · rw [hpoints] at h
      cases h
      obtain ⟨chars, hchars, rfl⟩ := codePoints_sound utf8str cps hpoints
      exact ⟨chars, hchars, List.length_map _⟩
    · rw [hpoints] at h
      cases h
  · rintro ⟨chars, rfl, rfl⟩
    exact distance_utf8 chars

end HungerGames.Utilities
