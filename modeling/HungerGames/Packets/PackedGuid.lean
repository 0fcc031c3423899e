/-
# Packed guids (`ByteBuffer.h`)

A packed guid is a mask and the bytes of the guid that are not zero, the least significant first;
a bit of the mask tells that its byte is there.  `appendPackGUID` shifts the guid until it is
zero, `readPackGUID` goes through the eight bits of the mask.

`Takes` says that a read takes some bytes at the read position, whatever is behind them.
`packedGuid_roundTrip` has what is written read back, from every position and before every other
content, and every shorter part of it refused.
-/
import HungerGames.World.ByteBuffer
import Mathlib.Data.Nat.Bitwise

namespace HungerGames.Packets

open HungerGames.Lua (Bytes)
open HungerGames.World
open HungerGames.Auth (BigNumber.setBinary)

/-! ## 1. Writing into a buffer -/

/-- A `ByteBuffer` that is written. -/
structure WriteBuffer where
  storage : Bytes
  wpos : ℕ

/-- Why `append` does not write: `ByteBufferSourceException`, or the assertion of the size. -/
inductive AppendFault where
  | source (pos size valueSize : ℕ)
  | assertion

/-- `append(src, cnt)` -/
def append (b : WriteBuffer) (src : Bytes) : Except AppendFault WriteBuffer :=
  if src.length = 0 then .error (.source b.wpos b.storage.length src.length)
  else if ¬ b.storage.length < 10000000 then .error .assertion
  else
    let storage := b.storage ++ List.replicate (b.wpos + src.length - b.storage.length) 0
    .ok ⟨storage.take b.wpos ++ src ++ storage.drop (b.wpos + src.length), b.wpos + src.length⟩

/-- What `append` has written lies at the old write position. -/
theorem append_ok {b b' : WriteBuffer} {src : Bytes} (h : append b src = .ok b') :
    b'.wpos = b.wpos + src.length ∧
      ∃ before after, b'.storage = before ++ src ++ after ∧ before.length = b.wpos := by
  unfold append at h
  split at h
  · cases h
  split at h
  · cases h
  cases h
  refine ⟨rfl, _, _, rfl, ?_⟩
  rw [List.length_take, List.length_append, List.length_replicate]
  omega

/-! ## 2. The codec -/

/-- The loop of `appendPackGUID`: the mask, and the bytes behind it. -/
def packLoop (guid i mask : ℕ) (packed : Bytes) : ℕ × Bytes :=
  if guid = 0 then (mask, packed)
  else if guid &&& 0xFF ≠ 0 then
    packLoop (guid >>> 8) (i + 1) (mask ||| 1 <<< i) (packed ++ [UInt8.ofNat (guid &&& 0xFF)])
  else packLoop (guid >>> 8) (i + 1) mask packed
termination_by guid
decreasing_by
  all_goals
    rw [Nat.shiftRight_eq_div_pow]
    omega

/-- The bytes that `appendPackGUID` appends. -/
def packGUID (guid : ℕ) : Bytes :=
  let packed := packLoop guid 0 0 []
  UInt8.ofNat packed.1 :: packed.2

def appendPackGUID (guid : ℕ) (b : WriteBuffer) : Except AppendFault WriteBuffer :=
  append b (packGUID guid)

/-- The loop of `readPackGUID` over bits of the mask.  The check before each byte throws what the
read of the byte throws. -/
def readPackLoop (guidmark : ℕ) : List ℕ → ℕ → Reader ℕ
  | [], guid => pure guid
  | i :: is, guid =>
    if guidmark &&& 1 <<< i ≠ 0 then do
      let bit ← readNat 1
      readPackLoop guidmark is (guid ||| bit <<< (i * 8))
    else readPackLoop guidmark is guid

def readPackGUID : Reader ℕ := do
  let guidmark ← readNat 1
  readPackLoop guidmark (List.range 8) 0

/-! ## 3. Reads that take some bytes -/

/-- On a buffer with `bs` at the read position, the read has the value `v` and goes past them. -/
def Takes {α : Type} (r : Reader α) (bs : Bytes) (v : α) : Prop :=
  ∀ (b : ByteBuffer) (after : Bytes), b.rest = bs ++ after →
    ∃ hn : b.rpos + bs.length ≤ b.storage.length, r b = .ok (v, b.skip bs.length hn)

section Takes

variable {α β : Type} {r : Reader α} {f : α → Reader β} {bs cs : Bytes} {v : α} {w : β}

theorem takes_pure (v : α) : Takes (pure v) [] v := fun b _ _ => ⟨b.inside, rfl⟩

theorem Takes.bind (hr : Takes r bs v) (hf : Takes (f v) cs w) : Takes (r >>= f) (bs ++ cs) w := by
  intro b after hb
  rw [List.append_assoc] at hb
  obtain ⟨hn, hok⟩ := hr b (cs ++ after) hb
  have hrest : (b.skip bs.length hn).rest = cs ++ after := by
    rw [ByteBuffer.rest_skip, hb, List.drop_left]
  obtain ⟨hn', hok'⟩ := hf _ after hrest
  have hlen : b.rpos + (bs ++ cs).length ≤ b.storage.length := by
    rw [List.length_append, ← Nat.add_assoc]
    exact hn'
  refine ⟨hlen, ?_⟩
  simp only [Bind.bind, StateT.bind, hok, Except.bind]
  rw [hok']
  simp only [ByteBuffer.skip, List.length_append, Nat.add_assoc]

theorem Takes.reads (hr : Takes r bs v) (after : Bytes) : Reads r (bs ++ after) v after := by
  intro b hb
  obtain ⟨hn, hok⟩ := hr b after hb
  refine ⟨_, hok, ?_⟩
  rw [ByteBuffer.rest_skip, hb, List.drop_left]

/-- One byte. -/
theorem takes_byte (c : UInt8) : Takes (readNat 1) [c] c.toNat := by
  intro b after hb
  have hlen : b.rpos + 1 ≤ b.storage.length := by
    have hrest := congrArg List.length hb
    rw [b.length_rest, List.length_append, List.length_singleton] at hrest
    omega
  refine ⟨hlen, ?_⟩
  have hread : read 1 b = .ok (b.rest.take 1, b.skip 1 hlen) := dif_pos hlen
  simp only [readNat, Bind.bind, StateT.bind, hread, Except.bind, hb]
  rfl

end Takes

/-! ## 4. The bytes of a guid -/

/-- Those of the lowest `n` bytes of a guid that are not zero. -/
def nonzeroBytes : ℕ → ℕ → Bytes
  | 0, _ => []
  | n + 1, guid =>
    if guid % 256 ≠ 0 then UInt8.ofNat (guid % 256) :: nonzeroBytes n (guid / 256)
    else nonzeroBytes n (guid / 256)

theorem nonzeroBytes_zero : ∀ n, nonzeroBytes n 0 = []
  | 0 => rfl
  | n + 1 => by
    unfold nonzeroBytes
    rw [if_neg (by simp)]
    exact nonzeroBytes_zero n

theorem and_ff (n : ℕ) : n &&& 0xFF = n % 256 := Nat.and_two_pow_sub_one_eq_mod n 8

theorem shiftRight_8 (n : ℕ) : n >>> 8 = n / 256 := Nat.shiftRight_eq_div_pow n 8

/-- A mask tells, from bit `i` on, which of the lowest `n` bytes of a guid are not zero. -/
def Marks (mask i n guid : ℕ) : Prop :=
  ∀ j < n, mask.testBit (i + j) = decide (guid / 256 ^ j % 256 ≠ 0)

theorem marks_succ {mask i n guid : ℕ} (hbit : mask.testBit i = decide (guid % 256 ≠ 0))
    (h : Marks mask (i + 1) n (guid / 256)) : Marks mask i (n + 1) guid := by
  intro j hj
  cases j with
  | zero =>
    rw [pow_zero, Nat.div_one]
    exact hbit
  | succ j =>
    have hrest := h j (Nat.lt_of_succ_lt_succ hj)
    rw [Nat.div_div_eq_div_mul, ← pow_succ'] at hrest
    rw [← Nat.add_assoc, Nat.add_right_comm]
    exact hrest

theorem Marks.tail {mask i n guid : ℕ} (h : Marks mask i (n + 1) guid) :
    Marks mask (i + 1) n (guid / 256) := by
  intro j hj
  have hbit := h (j + 1) (Nat.succ_lt_succ hj)
  rw [Nat.div_div_eq_div_mul, ← pow_succ', Nat.add_right_comm]
  exact hbit

/-- The bit that the writer sets. -/
theorem lt_two_pow_setBit {mask i : ℕ} (h : mask < 2 ^ i) : mask ||| 1 <<< i < 2 ^ (i + 1) := by
  have hlt : 2 ^ i < 2 ^ (i + 1) := Nat.pow_lt_pow_right (by decide) (Nat.lt_succ_self i)
  rw [Nat.one_shiftLeft]
  exact Nat.or_lt_two_pow (h.trans hlt) hlt

/-- **What the writer's loop leaves.** -/
theorem packLoop_spec : ∀ (n : ℕ) {guid i mask : ℕ} {packed : Bytes}, guid < 256 ^ n →
    mask < 2 ^ i →
    (packLoop guid i mask packed).2 = packed ++ nonzeroBytes n guid ∧
      (packLoop guid i mask packed).1 < 2 ^ (i + n) ∧
      Marks (packLoop guid i mask packed).1 i n guid ∧
      ∀ j < i, (packLoop guid i mask packed).1.testBit j = mask.testBit j := by
  intro n
  induction n with
  | zero =>
    intro guid i mask packed hguid hmask
    obtain rfl : guid = 0 := Nat.lt_one_iff.mp hguid
    rw [packLoop, if_pos rfl]
    exact ⟨(List.append_nil packed).symm, hmask, fun j hj => absurd hj (Nat.not_lt_zero j),
      fun _ _ => rfl⟩
  | succ n ih =>
    intro guid i mask packed hguid hmask
    by_cases hzero : guid = 0
    · rw [packLoop, if_pos hzero, hzero, nonzeroBytes_zero, List.append_nil]
      refine ⟨rfl, hmask.trans_le (Nat.pow_le_pow_right (by decide) (by omega)), fun j _ => ?_,
        fun _ _ => rfl⟩
      have hbit : mask.testBit (i + j) = false := Nat.testBit_lt_two_pow
        (hmask.trans_le (Nat.pow_le_pow_right (by decide) (Nat.le_add_right i j)))
      rw [hbit, Nat.zero_div]
      rfl
    have hguid' : guid / 256 < 256 ^ n := by
      rw [pow_succ] at hguid
      omega
    rw [packLoop, if_neg hzero, and_ff, shiftRight_8]
    unfold nonzeroBytes
    by_cases hbyte : guid % 256 ≠ 0
    · rw [if_pos hbyte, if_pos hbyte]
      obtain ⟨hpacked, hlt, hmarks, hlow⟩ := ih (i := i + 1) hguid' (lt_two_pow_setBit hmask)
      refine ⟨?_, ?_, marks_succ ?_ hmarks, fun j hj => ?_⟩
      · rw [hpacked, List.append_assoc]
        rfl
      · rw [Nat.add_comm n, ← Nat.add_assoc]
        exact hlt
      · rw [hlow i (Nat.lt_succ_self i), Nat.testBit_or, Nat.one_shiftLeft, Nat.testBit_two_pow_self,
          Bool.or_true, decide_eq_true hbyte]
      · rw [hlow j (Nat.lt_succ_of_lt hj), Nat.testBit_or, Nat.one_shiftLeft,
          Nat.testBit_two_pow_of_ne (by omega), Bool.or_false]
    · rw [if_neg hbyte, if_neg hbyte]
      have hmask' : mask < 2 ^ (i + 1) :=
        hmask.trans (Nat.pow_lt_pow_right (by decide) (Nat.lt_succ_self i))
      obtain ⟨hpacked, hlt, hmarks, hlow⟩ := ih (i := i + 1) hguid' hmask'
      refine ⟨hpacked, ?_, marks_succ ?_ hmarks, fun j hj => hlow j (Nat.lt_succ_of_lt hj)⟩
      · rw [Nat.add_comm n, ← Nat.add_assoc]
        exact hlt
      · rw [hlow i (Nat.lt_succ_self i), Nat.testBit_lt_two_pow hmask, decide_eq_false hbyte]

/-- The bytes that are written: a mask that marks the bytes behind it. -/
theorem packGUID_spec {guid : ℕ} (hguid : guid < 2 ^ 64) :
    ∃ mask < 256, packGUID guid = UInt8.ofNat mask :: nonzeroBytes 8 guid ∧
      Marks mask 0 8 guid := by
  have hguid' : guid < 256 ^ 8 := hguid
  obtain ⟨hpacked, hlt, hmarks, -⟩ :=
    @packLoop_spec 8 guid 0 0 [] hguid' Nat.one_pos
  refine ⟨_, hlt, ?_, hmarks⟩
  unfold packGUID
  dsimp only
  rw [hpacked, List.nil_append]

/-! ## 5. Reading them back -/

/-- The reader looks at the bit that the mask has for a byte. -/
theorem readPackLoop_cons (mask i acc : ℕ) (is : List ℕ) :
    readPackLoop mask (i :: is) acc =
      if mask.testBit i then do
        let bit ← readNat 1
        readPackLoop mask is (acc ||| bit <<< (i * 8))
      else readPackLoop mask is acc := by
  have hbit : mask &&& 1 <<< i ≠ 0 ↔ mask.testBit i = true := by
    rw [Nat.one_shiftLeft, Nat.and_two_pow]
    cases mask.testBit i <;> simp
  rw [readPackLoop]
  simp only [hbit]

/-- A byte is put above what is there. -/
theorem or_shiftLeft {acc i c : ℕ} (hacc : acc < 256 ^ i) :
    acc ||| c <<< (i * 8) = acc + c * 256 ^ i := by
  have hpow : 2 ^ (i * 8) = 256 ^ i := by
    rw [Nat.mul_comm, pow_mul]
    rfl
  have hor := Nat.two_pow_add_eq_or_of_lt (by rwa [hpow]) c
  rw [Nat.shiftLeft_eq, Nat.or_comm, Nat.mul_comm c, ← hor, hpow]
  ring

theorem toNat_ofNat_mod (n : ℕ) : (UInt8.ofNat (n % 256)).toNat = n % 256 := by
  rw [UInt8.toNat_ofNat']
  omega

section Reader

variable {mask guid i acc : ℕ}

/-- **The reader takes the bytes that the mask marks**, and puts them into their places. -/
theorem takes_readPackLoop : ∀ (n : ℕ) {i guid acc : ℕ}, Marks mask i n guid → guid < 256 ^ n →
    acc < 256 ^ i →
    Takes (readPackLoop mask (List.range' i n) acc) (nonzeroBytes n guid) (acc + guid * 256 ^ i) := by
  intro n
  induction n with
  | zero =>
    intro i guid acc _ hguid _
    obtain rfl : guid = 0 := Nat.lt_one_iff.mp hguid
    rw [Nat.zero_mul, Nat.add_zero]
    exact takes_pure acc
  | succ n ih =>
    intro i guid acc hmarks hguid hacc
    have hguid' : guid / 256 < 256 ^ n := by
      rw [pow_succ] at hguid
      omega
    have hbit : mask.testBit i = decide (guid % 256 ≠ 0) := by
      have h0 := hmarks 0 (Nat.succ_pos n)
      rwa [pow_zero, Nat.div_one, Nat.add_zero] at h0
    have hsplit : acc + guid % 256 * 256 ^ i + guid / 256 * 256 ^ (i + 1) = acc + guid * 256 ^ i := by
      calc acc + guid % 256 * 256 ^ i + guid / 256 * 256 ^ (i + 1)
          = acc + (guid % 256 + 256 * (guid / 256)) * 256 ^ i := by ring
        _ = acc + guid * 256 ^ i := by rw [Nat.mod_add_div]
    rw [List.range'_succ, readPackLoop_cons, hbit]
    unfold nonzeroBytes
    by_cases hbyte : guid % 256 ≠ 0
    · rw [if_pos (decide_eq_true hbyte), if_pos hbyte]
      refine (takes_byte (UInt8.ofNat (guid % 256))).bind (?_ : Takes _ (nonzeroBytes n (guid / 256)) _)
      rw [toNat_ofNat_mod, or_shiftLeft hacc, ← hsplit]
      refine ih hmarks.tail hguid' ?_
      have hlt : guid % 256 < 256 := Nat.mod_lt _ (by decide)
      have hmul : (guid % 256 + 1) * 256 ^ i ≤ 256 * 256 ^ i := Nat.mul_le_mul_right _ hlt
      rw [pow_succ']
      rw [Nat.succ_mul] at hmul
      omega
    · rw [if_neg (by simpa using hbyte), if_neg hbyte, ← hsplit]
      have hzero : guid % 256 = 0 := not_not.mp hbyte
      rw [hzero, Nat.zero_mul, Nat.add_zero]
      refine ih hmarks.tail hguid' (hacc.trans_le ?_)
      exact Nat.pow_le_pow_right (by decide) (Nat.le_succ i)

/-- **A byte that is marked and missing is noticed.** -/
theorem throws_readPackLoop : ∀ (n : ℕ) {i guid acc k : ℕ}, Marks mask i n guid →
    k < (nonzeroBytes n guid).length →
    Throws (readPackLoop mask (List.range' i n) acc) ((nonzeroBytes n guid).take k) := by
  intro n
  induction n with
  | zero => exact fun _ hk => absurd hk (Nat.not_lt_zero _)
  | succ n ih =>
    intro i guid acc k hmarks hk
    have hbit : mask.testBit i = decide (guid % 256 ≠ 0) := by
      have h0 := hmarks 0 (Nat.succ_pos n)
      rwa [pow_zero, Nat.div_one, Nat.add_zero] at h0
    rw [List.range'_succ, readPackLoop_cons, hbit]
    unfold nonzeroBytes at hk ⊢
    by_cases hbyte : guid % 256 ≠ 0
    · rw [if_pos hbyte] at hk
      rw [if_pos (decide_eq_true hbyte), if_pos hbyte]
      cases k with
      | zero => exact (throws_readNat Nat.zero_lt_one).bind
      | succ k =>
        exact ((takes_byte _).reads _).throws (ih hmarks.tail (Nat.lt_of_succ_lt_succ hk))
    · rw [if_neg hbyte] at hk
      rw [if_neg (by simpa using hbyte), if_neg hbyte]
      exact ih hmarks.tail hk

end Reader

/-- The bytes of a packed guid are taken, and give the guid. -/
theorem takes_readPackGUID {guid : ℕ} (hguid : guid < 2 ^ 64) :
    Takes readPackGUID (packGUID guid) guid := by
  obtain ⟨mask, hmask, hpack, hmarks⟩ := packGUID_spec hguid
  rw [hpack]
  refine (takes_byte (UInt8.ofNat mask)).bind (?_ : Takes _ (nonzeroBytes 8 guid) _)
  have hloop := @takes_readPackLoop mask 8 0 guid 0 hmarks hguid Nat.one_pos
  rw [pow_zero, Nat.mul_one, Nat.zero_add, ← List.range_eq_range'] at hloop
  rw [UInt8.toNat_ofNat', Nat.mod_eq_of_lt hmask]
  exact hloop

/-- A part of a packed guid is refused. -/
theorem throws_readPackGUID {guid k : ℕ} (hguid : guid < 2 ^ 64) (hk : k < (packGUID guid).length) :
    Throws readPackGUID ((packGUID guid).take k) := by
  obtain ⟨mask, hmask, hpack, hmarks⟩ := packGUID_spec hguid
  rw [hpack] at hk ⊢
  cases k with
  | zero => exact (throws_readNat Nat.zero_lt_one).bind
  | succ k =>
    refine ((takes_byte (UInt8.ofNat mask)).reads _).throws ?_
    have hloop := @throws_readPackLoop mask 8 0 guid 0 k hmarks (Nat.lt_of_succ_lt_succ hk)
    rw [← List.range_eq_range'] at hloop
    rw [UInt8.toNat_ofNat', Nat.mod_eq_of_lt hmask]
    exact hloop

/-- The bytes of a guid that are not zero. -/
def nonzeroCount (guid : ℕ) : ℕ := ((List.range 8).filter fun j => guid / 256 ^ j % 256 ≠ 0).length

theorem length_nonzeroBytes : ∀ n guid, (nonzeroBytes n guid).length =
    ((List.range n).filter fun j => guid / 256 ^ j % 256 ≠ 0).length := by
  intro n
  induction n with
  | zero => exact fun _ => rfl
  | succ n ih =>
    intro guid
    have hrest : ((List.range n).map (· + 1)).filter (fun j => guid / 256 ^ j % 256 ≠ 0) =
        ((List.range n).filter fun j => guid / 256 / 256 ^ j % 256 ≠ 0).map (· + 1) := by
      rw [List.filter_map]
      refine congrArg _ (List.filter_congr fun j _ => ?_)
      simp only [Function.comp, Nat.div_div_eq_div_mul, ← pow_succ']
    unfold nonzeroBytes
    rw [List.range_succ_eq_map, List.filter_cons, hrest, pow_zero, Nat.div_one]
    by_cases hbyte : guid % 256 ≠ 0
    · rw [if_pos hbyte, if_pos (decide_eq_true hbyte), List.length_cons, List.length_cons,
        List.length_map, ih]
    · rw [if_neg hbyte, if_neg (by simpa using hbyte), List.length_map, ih]

/-- **A packed guid comes back** from wherever it was written, with the bytes it takes; and no
part of it is taken for a guid. -/
theorem packedGuid_roundTrip {guid : ℕ} (hguid : guid < 2 ^ 64) {b b' : WriteBuffer}
    (hwrite : appendPackGUID guid b = .ok b') :
    b'.wpos = b.wpos + (1 + nonzeroCount guid) ∧
      (∃ h : b.wpos ≤ b'.storage.length, ∃ h' : b'.wpos ≤ b'.storage.length,
        readPackGUID ⟨b'.storage, b.wpos, h⟩ = .ok (guid, ⟨b'.storage, b'.wpos, h'⟩)) ∧
      ∀ (before : Bytes) (k : ℕ), k < 1 + nonzeroCount guid →
        ∃ e, readPackGUID ⟨before ++ (packGUID guid).take k, before.length, by simp⟩ = .error e := by
  have hlength : (packGUID guid).length = 1 + nonzeroCount guid := by
    obtain ⟨mask, -, hpack, -⟩ := packGUID_spec hguid
    rw [hpack, List.length_cons, length_nonzeroBytes, Nat.add_comm]
    rfl
  obtain ⟨hwpos, before, after, hstorage, hbefore⟩ := append_ok hwrite
  have hle : b.wpos ≤ b'.storage.length := by
    rw [hstorage, List.length_append, List.length_append]
    omega
  refine ⟨by rw [hwpos, hlength], ⟨hle, ?_⟩, fun before' k hk => ?_⟩
  · have hrest : (⟨b'.storage, b.wpos, hle⟩ : ByteBuffer).rest = packGUID guid ++ after := by
      unfold ByteBuffer.rest
      dsimp only
      rw [hstorage, List.append_assoc, ← hbefore, List.drop_left]
    obtain ⟨hn, hok⟩ := takes_readPackGUID hguid _ after hrest
    have h' : b'.wpos ≤ b'.storage.length := by
      rw [hwpos]
      exact hn
    refine ⟨h', ?_⟩
    rw [hok]
    unfold ByteBuffer.skip
    simp only [hwpos]
  · refine throws_readPackGUID hguid (k := k) (by rw [hlength]; exact hk) _ ?_
    unfold ByteBuffer.rest
    rw [List.drop_left]

/-- A guid with two bytes, written over a buffer from its second byte on. -/
theorem packedGuid_roundTrip_two : ∃ b', appendPackGUID 0x0500000001 ⟨[7, 7], 1⟩ = .ok b' ∧
    b'.wpos = 4 ∧ ∃ h r, readPackGUID ⟨b'.storage, 1, h⟩ = .ok (0x0500000001, r) := by
  have hpack : packGUID 0x0500000001 = [0x11, 1, 5] := by
    simp [packGUID, packLoop]
  have hwrite : appendPackGUID 0x0500000001 ⟨[7, 7], 1⟩ = .ok ⟨[7, 0x11, 1, 5], 4⟩ := by
    unfold appendPackGUID
    rw [hpack]
    rfl
  obtain ⟨hwpos, ⟨h, _, hread⟩, -⟩ := packedGuid_roundTrip (by decide) hwrite
  exact ⟨_, hwrite, hwpos, h, _, hread⟩

end HungerGames.Packets
