/-
# Update masks (`UpdateMask.h`)

A mask has a bit for each of some fields, kept in bytes, as many as fill the last block of 32.  A
mask is combined with another, in place, over the fields of the first; the second must not have
more fields, which is asserted.  It may have fewer, and then the loop reads behind its last field,
and behind its last block when there are fields enough.

`lawful_iff` says for which masks the two operators, and sending, do what they should.
-/
import HungerGames.System.Run
import Mathlib.Algebra.Group.Nat.Defs

namespace HungerGames.Packets

/-! ## 1. Masks -/

/-- `CLIENT_UPDATE_MASK_BITS` -/
def clientUpdateMaskBits : ℕ := 32

/-- How many blocks `SetCount` makes, in 32 bits. -/
def blocksFor (valuesCount : ℕ) : ℕ :=
  (valuesCount + clientUpdateMaskBits - 1) % 2 ^ 32 / clientUpdateMaskBits

/-- The bytes of a mask are 0 or 1. -/
structure UpdateMask where
  fieldCount : ℕ
  blockCount : ℕ
  bits : Vector Bool (blockCount * clientUpdateMaskBits)
  fieldCount_lt : fieldCount < 2 ^ 32
  blockCount_eq : blockCount = blocksFor fieldCount

/-- What goes wrong: the assertion, or an access outside the bytes of a mask. -/
inductive MaskFault where
  | assertion
  | outOfBounds
deriving DecidableEq

namespace UpdateMask

/-- A mask without fields. -/
def empty : UpdateMask := ⟨0, 0, #v[], by decide, rfl⟩

def getCount (mask : UpdateMask) : ℕ := mask.fieldCount

def getBlockCount (mask : UpdateMask) : ℕ := mask.blockCount

/-- `GetBit`; where the mask has no byte there is no bit. -/
def getBit (mask : UpdateMask) (index : ℕ) : Bool := mask.bits[index]?.getD false

/-- `SetCount`: all bits are 0. -/
def setCount (valuesCount : ℕ) (h : valuesCount < 2 ^ 32) : UpdateMask where
  fieldCount := valuesCount
  blockCount := blocksFor valuesCount
  bits := Vector.replicate _ false
  fieldCount_lt := h
  blockCount_eq := rfl

/-- `SetBit` and `UnsetBit`. -/
def writeBit (mask : UpdateMask) (index : ℕ) (bit : Bool) : Except MaskFault UpdateMask :=
  if h : index < mask.blockCount * clientUpdateMaskBits then
    .ok { mask with bits := mask.bits.set index bit h }
  else .error .outOfBounds

/-- The copy constructor, and the assignment: as many bytes are copied as the copy was made for. -/
def copy (right : UpdateMask) : UpdateMask where
  fieldCount := right.fieldCount
  blockCount := blocksFor right.fieldCount
  bits := Vector.ofFn fun index => right.getBit index
  fieldCount_lt := right.fieldCount_lt
  blockCount_eq := rfl

/-! ## 2. The operators -/

/-- The loop of an operator, for so many more fields. -/
def combineLoop {n m : ℕ} (op : Bool → Bool → Bool) (right : Vector Bool m) :
    ℕ → ℕ → Vector Bool n → Except MaskFault (Vector Bool n)
  | 0, _, bits => .ok bits
  | turns + 1, i, bits =>
    if h : i < n ∧ i < m then
      combineLoop op right turns (i + 1) (bits.set i (op bits[i] right[i]))
    else .error .outOfBounds

/-- An operator, with what it does to a bit. -/
def combine (op : Bool → Bool → Bool) (mask right : UpdateMask) : Except MaskFault UpdateMask :=
  if right.getCount ≤ mask.getCount then do
    let bits ← combineLoop op right.bits mask.fieldCount 0 mask.bits
    .ok { mask with bits := bits }
  else .error .assertion

/-- `operator&=` -/
def andAssign (mask right : UpdateMask) : Except MaskFault UpdateMask := combine and mask right

/-- `operator|=` -/
def orAssign (mask right : UpdateMask) : Except MaskFault UpdateMask := combine or mask right

/-- `operator|` -/
def or (mask right : UpdateMask) : Except MaskFault UpdateMask := mask.copy.orAssign right

/-! ## 3. Sending -/

/-- The word of a block. -/
def maskPart (mask : UpdateMask) (i : ℕ) : BitVec 32 :=
  (List.range clientUpdateMaskBits).foldl (fun part j =>
    if mask.getBit (clientUpdateMaskBits * i + j) then part ||| (1#32 <<< j) else part) 0#32

/-- `AppendToPacket`, to a packet of words. -/
def appendToPacket (mask : UpdateMask) (data : List (BitVec 32)) : List (BitVec 32) :=
  (List.range mask.getBlockCount).foldl (fun data i => data ++ [mask.maskPart i]) data

/-! ## 4. What is expected -/

/-- A mask that an operator returns has the fields of the first, and each bit as it should be: up
to the fields of the second, and from there on. -/
structure Combined (mask right result : UpdateMask) (below above : Bool → Bool → Bool) : Prop where
  getCount : result.getCount = mask.getCount
  getBit_below : ∀ i, i < right.getCount →
    result.getBit i = below (mask.getBit i) (right.getBit i)
  getBit_above : ∀ i, right.getCount ≤ i →
    result.getBit i = above (mask.getBit i) (right.getBit i)

/-- **What is expected of the operators, and of sending**: no access is outside the bytes, behind
the fields of the second mask `&=` leaves no bit and `|=` the bits of the first, and the words that
are sent have the bits of the mask. -/
structure Lawful (mask right : UpdateMask) : Prop where
  andAssign : ∃ result, mask.andAssign right = .ok result ∧
    Combined mask right result (fun x y => x && y) (fun _ _ => false)
  orAssign : ∃ result, mask.orAssign right = .ok result ∧
    Combined mask right result (fun x y => x || y) (fun x _ => x)
  or : ∃ result, mask.or right = .ok result ∧
    Combined mask right result (fun x y => x || y) (fun x _ => x)
  appendToPacket : ∀ data, ∃ words, mask.appendToPacket data = data ++ words ∧
    words.length = mask.getBlockCount ∧
    ∀ k < mask.getBlockCount, ∃ word, words[k]? = some word ∧
      ∀ j < 32, word.getLsbD j = mask.getBit (32 * k + j)

/-- **When they do it.**  The blocks of the second mask have room for the fields of the first, and
no bit is on behind the fields of the first, nor in the second from its last field to there. -/
structure Fits (mask right : UpdateMask) : Prop where
  room : mask.getCount ≤ 32 * right.getBlockCount
  rest : ∀ i, right.getCount ≤ i → i < mask.getCount → right.getBit i = false
  ends : ∀ i, mask.getCount ≤ i → mask.getBit i = false

variable {mask right result : UpdateMask} {op : Bool → Bool → Bool} {n m : ℕ}

/-- A mask has blocks enough for its fields, unless these are so many that 32 bits are not. -/
theorem getCount_le (h : mask.getCount ≤ 32 * right.getBlockCount) :
    mask.getCount ≤ 32 * mask.getBlockCount := by
  have hright := right.blockCount_eq
  have hmask := mask.blockCount_eq
  simp only [blocksFor, clientUpdateMaskBits] at hright hmask
  simp only [getCount, getBlockCount] at h ⊢
  omega

/-! ## 5. The loop of an operator -/

/-- **What the loop does**: the bits from the one to the other are combined, if all of them are
there. -/
theorem combineLoop_ok {right : Vector Bool m} : ∀ (turns i : ℕ) (bits : Vector Bool n),
    i + turns ≤ n → i + turns ≤ m → ∃ out, combineLoop op right turns i bits = .ok out ∧
      ∀ k, out[k]? = if i ≤ k ∧ k < i + turns then
        some (op (bits[k]?.getD false) (right[k]?.getD false)) else bits[k]?
  | 0, i, bits, _, _ => by
    refine ⟨bits, rfl, fun k => ?_⟩
    rw [if_neg (by omega)]
  | turns + 1, i, bits, hn, hm => by
    have hi : i < n ∧ i < m := by omega
    obtain ⟨out, hout, hbits⟩ := combineLoop_ok turns (i + 1)
      (bits.set i (op bits[i] right[i])) (by omega) (by omega)
    refine ⟨out, ?_, fun k => ?_⟩
    · rw [combineLoop, dif_pos hi]
      exact hout
    · rw [hbits k, Vector.getElem?_set]
      by_cases hk : i = k
      · subst hk
        rw [if_neg (by omega), if_pos rfl, if_pos (by omega)]
        simp [hi.1, hi.2]
      · rw [if_neg hk]
        by_cases hrange : i + 1 ≤ k ∧ k < i + 1 + turns
        · rw [if_pos hrange, if_pos (by omega)]
        · rw [if_neg hrange, if_neg (by omega)]

/-- A loop that ends well had all its bits. -/
theorem of_combineLoop {right : Vector Bool m} : ∀ {turns i : ℕ} {bits out : Vector Bool n},
    combineLoop op right turns i bits = .ok out → turns = 0 ∨ (i + turns ≤ n ∧ i + turns ≤ m)
  | 0, _, _, _, _ => .inl rfl
  | turns + 1, i, bits, out, h => by
    rw [combineLoop] at h
    split at h
    · next hi =>
      refine .inr ?_
      rcases of_combineLoop h with rfl | hle
      · omega
      · omega
    · cases h

/-! ## 6. The operators -/

/-- **What an operator returns**, when the second mask has bytes enough. -/
theorem combine_ok (op : Bool → Bool → Bool) (hle : right.getCount ≤ mask.getCount)
    (hroom : mask.getCount ≤ 32 * right.getBlockCount) :
    ∃ result, combine op mask right = .ok result ∧ result.getCount = mask.getCount ∧
      ∀ i, result.getBit i =
        if i < mask.getCount then op (mask.getBit i) (right.getBit i) else mask.getBit i := by
  have hown : mask.getCount ≤ 32 * mask.getBlockCount := getCount_le hroom
  simp only [getCount, getBlockCount] at hroom hown
  have hmask : 0 + mask.fieldCount ≤ mask.blockCount * clientUpdateMaskBits := by
    simp only [clientUpdateMaskBits]
    omega
  have hright : 0 + mask.fieldCount ≤ right.blockCount * clientUpdateMaskBits := by
    simp only [clientUpdateMaskBits]
    omega
  obtain ⟨out, hout, hbits⟩ := @combineLoop_ok op _ _ right.bits mask.fieldCount 0 mask.bits hmask
    hright
  refine ⟨{ mask with bits := out }, ?_, rfl, fun i => ?_⟩
  · rw [combine, if_pos hle, hout]
    rfl
  · have hbit : getBit { mask with bits := out } i = out[i]?.getD false := rfl
    rw [hbit, hbits i]
    by_cases hi : i < mask.getCount
    · rw [if_pos hi, if_pos (by simp only [getCount] at hi; omega)]
      rfl
    · rw [if_neg hi, if_neg (by simp only [getCount] at hi; omega)]
      rfl

/-- An operator that returns had bytes enough. -/
theorem room_of_combine (h : combine op mask right = .ok result) :
    mask.getCount ≤ 32 * right.getBlockCount := by
  rw [combine] at h
  split at h
  · cases hloop : combineLoop op right.bits mask.fieldCount 0 mask.bits with
    | error fault =>
      rw [hloop] at h
      cases h
    | ok out =>
      have hturns := of_combineLoop hloop
      simp only [clientUpdateMaskBits] at hturns
      simp only [getCount, getBlockCount]
      omega
  · cases h

@[simp] theorem getCount_copy : mask.copy.getCount = mask.getCount := rfl

@[simp] theorem getBit_copy (i : ℕ) : mask.copy.getBit i = mask.getBit i := by
  have hblocks := mask.blockCount_eq
  rw [getBit, copy]
  by_cases hi : i < blocksFor mask.fieldCount * clientUpdateMaskBits
  · simp [hi]
  · have hnone : mask.bits[i]? = none := by
      rw [Vector.getElem?_eq_none]
      rw [hblocks]
      omega
    rw [getBit, hnone, Vector.getElem?_eq_none (Nat.not_lt.mp hi)]

/-! ## 7. Sending -/

/-- The word that is made of some bits has them. -/
theorem getLsbD_foldl (bit : ℕ → Bool) (j : ℕ) (hj : j < 32) : ∀ n,
    ((List.range n).foldl (fun part x => if bit x then part ||| (1#32 <<< x) else part)
      0#32).getLsbD j = (decide (j < n) && bit j)
  | 0 => by simp
  | n + 1 => by
    rw [List.range_succ, List.foldl_append, List.foldl_cons, List.foldl_nil]
    have ih := getLsbD_foldl bit j hj n
    by_cases hn : j = n
    · subst hn
      cases hbit : bit j with
      | false => simp [hbit, ih]
      | true => simp [hj]
    · have hlt : decide (j < n + 1) = decide (j < n) := by
        rw [decide_eq_decide]
        omega
      rw [hlt, ← ih]
      split
      · have hother : (1#32 <<< n).getLsbD j = false := by
          simp [hj]
          omega
        rw [BitVec.getLsbD_or, hother, Bool.or_false]
      · rfl

theorem getLsbD_maskPart (i : ℕ) {j : ℕ} (hj : j < 32) :
    (mask.maskPart i).getLsbD j = mask.getBit (32 * i + j) := by
  rw [maskPart, clientUpdateMaskBits, getLsbD_foldl _ _ hj, decide_eq_true hj, Bool.true_and]

/-- A word is appended for each block. -/
theorem foldl_append_words {α : Type} (word : ℕ → α) (data : List α) : ∀ n,
    (List.range n).foldl (fun data i => data ++ [word i]) data = data ++ (List.range n).map word
  | 0 => (List.append_nil data).symm
  | n + 1 => by
    rw [List.range_succ, List.foldl_append, foldl_append_words word data n, List.map_append,
      ← List.append_assoc]
    rfl

/-- **The words that are sent have the bits of the mask.** -/
theorem appendToPacket_words (mask : UpdateMask) (data : List (BitVec 32)) :
    ∃ words, mask.appendToPacket data = data ++ words ∧ words.length = mask.getBlockCount ∧
      ∀ k < mask.getBlockCount, ∃ word, words[k]? = some word ∧
        ∀ j < 32, word.getLsbD j = mask.getBit (32 * k + j) := by
  refine ⟨(List.range mask.getBlockCount).map mask.maskPart,
    foldl_append_words mask.maskPart data _, ?_, fun k hk => ⟨mask.maskPart k, ?_, fun j hj => ?_⟩⟩
  · rw [List.length_map, List.length_range]
  · rw [List.getElem?_map, List.getElem?_range hk]
    rfl
  · exact getLsbD_maskPart k hj

/-! ## 8. When the operators do as expected -/

theorem Combined.of_combine {below above : Bool → Bool → Bool}
    (hcount : result.getCount = mask.getCount)
    (hbits : ∀ i, result.getBit i =
      if i < mask.getCount then op (mask.getBit i) (right.getBit i) else mask.getBit i)
    (hle : right.getCount ≤ mask.getCount) (hbelow : ∀ x y, op x y = below x y)
    (habove : ∀ i, right.getCount ≤ i → i < mask.getCount →
      op (mask.getBit i) (right.getBit i) = above (mask.getBit i) (right.getBit i))
    (hends : ∀ i, mask.getCount ≤ i → mask.getBit i = above (mask.getBit i) (right.getBit i)) :
    Combined mask right result below above where
  getCount := hcount
  getBit_below := by
    intro i hi
    rw [hbits i, if_pos (by omega)]
    exact hbelow _ _
  getBit_above := by
    intro i hi
    rw [hbits i]
    split
    · next hlt => exact habove i hi hlt
    · next hge => exact hends i (Nat.not_lt.mp hge)

/-- Masks that fit are combined as expected. -/
theorem Fits.lawful (h : Fits mask right) (hle : right.getCount ≤ mask.getCount) :
    Lawful mask right := by
  have hor : ∀ i, right.getCount ≤ i → i < mask.getCount →
      (mask.getBit i || right.getBit i) = mask.getBit i := by
    intro i hi hlt
    rw [h.rest i hi hlt, Bool.or_false]
  refine ⟨?_, ?_, ?_, appendToPacket_words mask⟩
  · obtain ⟨result, hresult, hcount, hbits⟩ := combine_ok and hle h.room
    refine ⟨result, hresult, Combined.of_combine hcount hbits hle (fun _ _ => rfl) ?_ h.ends⟩
    intro i hi hlt
    exact (congrArg (and (mask.getBit i)) (h.rest i hi hlt)).trans (Bool.and_false _)
  · obtain ⟨result, hresult, hcount, hbits⟩ := combine_ok Bool.or hle h.room
    exact ⟨result, hresult,
      Combined.of_combine hcount hbits hle (fun _ _ => rfl) hor fun _ _ => rfl⟩
  · have hcopy : right.getCount ≤ mask.copy.getCount := hle
    obtain ⟨result, hresult, hcount, hbits⟩ := combine_ok Bool.or hcopy h.room
    simp only [getBit_copy, getCount_copy] at hbits hcount
    exact ⟨result, hresult,
      Combined.of_combine hcount hbits hle (fun _ _ => rfl) hor fun _ _ => rfl⟩

/-- Masks that are combined as expected fit. -/
theorem Lawful.fits (h : Lawful mask right) (hle : right.getCount ≤ mask.getCount) :
    Fits mask right := by
  obtain ⟨conjunction, hand, hconjunction⟩ := h.andAssign
  obtain ⟨disjunction, hor, hdisjunction⟩ := h.orAssign
  have hroom : mask.getCount ≤ 32 * right.getBlockCount := room_of_combine hand
  obtain ⟨result, hresult, -, handBits⟩ := combine_ok and hle hroom
  obtain rfl : result = conjunction := Except.ok.inj (hresult.symm.trans hand)
  obtain ⟨result', hresult', -, horBits⟩ := combine_ok Bool.or hle hroom
  obtain rfl : result' = disjunction := Except.ok.inj (hresult'.symm.trans hor)
  refine ⟨hroom, fun i hi hlt => ?_, fun i hi => ?_⟩
  · -- A bit of the second mask would be in the conjunction, or change the disjunction.
    have hzero := (handBits i).symm.trans (hconjunction.getBit_above i hi)
    have hsame := (horBits i).symm.trans (hdisjunction.getBit_above i hi)
    rw [if_pos hlt] at hzero hsame
    cases hright : right.getBit i with
    | false => rfl
    | true =>
      rw [hright] at hzero hsame
      have hmask : mask.getBit i = true := hsame.symm.trans (Bool.or_true _)
      rw [hmask] at hzero
      cases hzero
  · have hzero := (handBits i).symm.trans (hconjunction.getBit_above i (by omega))
    rw [if_neg (Nat.not_lt.mpr hi)] at hzero
    exact hzero

/-- **When the operators do as expected**: the blocks of the second mask have room for the fields of
the first, and no bit is on behind the fields. -/
theorem lawful_iff (mask right : UpdateMask) (hle : right.getCount ≤ mask.getCount) :
    Lawful mask right ↔ Fits mask right :=
  ⟨fun h => h.fits hle, fun h => h.lawful hle⟩

/-- Masks of 64 fields and of 32. -/
theorem lawful_iff_two_blocks :
    Lawful (setCount 64 (by decide)) (setCount 32 (by decide)) ↔
      Fits (setCount 64 (by decide)) (setCount 32 (by decide)) :=
  lawful_iff _ _ (by decide)

/-- A mask of 33 fields is combined with one of 32: the last field is behind the only block. -/
theorem last_field_outside :
    ¬ Lawful (setCount 33 (by decide)) (setCount 32 (by decide)) := by
  rintro ⟨⟨result, hresult, -⟩, -, -, -⟩
  have hroom : (setCount 33 (by decide)).getCount ≤ 32 * (setCount 32 (by decide)).getBlockCount :=
    room_of_combine hresult
  exact absurd hroom (by decide)

end UpdateMask

end HungerGames.Packets
