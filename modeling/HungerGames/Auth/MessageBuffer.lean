/-
# The read buffer (`MessageBuffer.h`)

Bytes arrive at the write position and are consumed at the read position; `Normalize` moves
what is left to the front.  A handler is given the read position and nothing else: what it reads
behind the write position are the bytes that happen to be there.  So the storage is all of
memory here, and the positions are all there is to a buffer's bounds.
-/
import Mathlib.Algebra.Group.Nat.Defs
import Mathlib.Data.List.Basic

namespace HungerGames.Auth

/-- `READ_BLOCK_SIZE`: the size of the window a read is given, and of a read buffer's storage. -/
def readBlockSize : ℕ := 4096

structure MessageBuffer where
  rpos : ℕ
  wpos : ℕ
  storage : ℕ → UInt8

namespace MessageBuffer

/-- An empty buffer over zeroed memory. -/
def empty : MessageBuffer := ⟨0, 0, fun _ => 0⟩

/-- `GetActiveSize()`: the difference of two `size_t`. -/
def getActiveSize (m : MessageBuffer) : ℕ := (m.wpos + 2 ^ 64 - m.rpos) % 2 ^ 64

def reset (m : MessageBuffer) : MessageBuffer := { m with rpos := 0, wpos := 0 }

def readCompleted (m : MessageBuffer) (bytes : ℕ) : MessageBuffer := { m with rpos := m.rpos + bytes }

/-- Bytes are put at the write position, and `WriteCompleted`. -/
def write (m : MessageBuffer) (data : List UInt8) : MessageBuffer where
  rpos := m.rpos
  wpos := m.wpos + data.length
  storage i := if m.wpos ≤ i then data.getD (i - m.wpos) (m.storage i) else m.storage i

/-- `Normalize()` -/
def normalize (m : MessageBuffer) : MessageBuffer :=
  if m.rpos = 0 then m
  else
    { rpos := 0
      wpos := m.getActiveSize
      storage := fun i => if i < m.getActiveSize then m.storage (m.rpos + i) else m.storage i }

/-- `GetReadPointer()[i]` -/
def byteAt (m : MessageBuffer) (i : ℕ) : UInt8 := m.storage (m.rpos + i)

/-- `len` bytes from `GetReadPointer() + i` on. -/
def bytesAt (m : MessageBuffer) (i len : ℕ) : List UInt8 :=
  (List.range' i len).map m.byteAt

@[simp] theorem length_bytesAt (m : MessageBuffer) (i len : ℕ) : (m.bytesAt i len).length = len := by
  simp [bytesAt]

/-- A `uint16` at `GetReadPointer() + i`, the low byte first. -/
def uint16At (m : MessageBuffer) (i : ℕ) : ℕ := (m.byteAt i).toNat + 256 * (m.byteAt (i + 1)).toNat

/-! ## The bytes that wait -/

/-- The positions are in order, and the difference of two of them is what it looks like. -/
def Sound (m : MessageBuffer) : Prop := m.rpos ≤ m.wpos ∧ m.wpos < 2 ^ 64

/-- The bytes between the positions. -/
def unread (m : MessageBuffer) : List UInt8 := m.bytesAt 0 m.getActiveSize

@[simp] theorem length_unread (m : MessageBuffer) : m.unread.length = m.getActiveSize :=
  m.length_bytesAt 0 _

variable {m : MessageBuffer}

theorem getActiveSize_eq (hm : m.Sound) : m.getActiveSize = m.wpos - m.rpos := by
  obtain ⟨hle, hlt⟩ := hm
  unfold getActiveSize
  omega

theorem getElem?_bytesAt (m : MessageBuffer) (i len k : ℕ) :
    (m.bytesAt i len)[k]? = if k < len then some (m.byteAt (i + k)) else none := by
  unfold bytesAt
  rw [List.getElem?_map]
  split
  · next hk => rw [List.getElem?_range' hk]; simp
  · next hk =>
    rw [List.getElem?_eq_none (by simpa using hk)]
    rfl

theorem getElem?_unread (m : MessageBuffer) (k : ℕ) :
    m.unread[k]? = if k < m.getActiveSize then some (m.byteAt k) else none := by
  rw [unread, getElem?_bytesAt, Nat.zero_add]

/-- The bytes a handler sees at the front are the first that wait. -/
theorem bytesAt_eq_take {len : ℕ} (hlen : len ≤ m.getActiveSize) :
    m.bytesAt 0 len = m.unread.take len := by
  refine List.ext_getElem? fun k => ?_
  rw [getElem?_bytesAt, List.getElem?_take, getElem?_unread, Nat.zero_add]
  split
  · next hk => rw [if_pos (by omega)]
  · rfl

theorem getActiveSize_write {data : List UInt8} (hm : m.Sound) (hm' : (m.write data).Sound) :
    (m.write data).getActiveSize = m.getActiveSize + data.length := by
  have hle := hm.1
  rw [getActiveSize_eq hm, getActiveSize_eq hm']
  simp only [write]
  omega

/-- Bytes that arrive wait behind those that wait already. -/
theorem unread_write {data : List UInt8} (hm : m.Sound) (hm' : (m.write data).Sound) :
    (m.write data).unread = m.unread ++ data := by
  refine List.ext_getElem? fun k => ?_
  have hle := hm.1
  have hactive := getActiveSize_eq hm
  rw [getElem?_unread, List.getElem?_append, length_unread, getElem?_unread,
    getActiveSize_write hm hm']
  by_cases hk : k < m.getActiveSize
  · rw [if_pos (by omega), if_pos hk, if_pos hk]
    simp only [byteAt, write]
    rw [if_neg (by omega)]
  · rw [if_neg hk]
    by_cases hk' : k < m.getActiveSize + data.length
    · have hoffset : m.rpos + k - m.wpos = k - m.getActiveSize := by omega
      have hin : k - m.getActiveSize < data.length := by omega
      rw [if_pos hk']
      simp only [byteAt, write]
      rw [if_pos (by omega), hoffset, List.getD_eq_getElem?_getD, List.getElem?_eq_getElem hin,
        Option.getD_some]
    · rw [if_neg hk', List.getElem?_eq_none (by omega)]

theorem readCompleted_readCompleted (m : MessageBuffer) (a b : ℕ) :
    (m.readCompleted a).readCompleted b = m.readCompleted (a + b) := by
  simp only [readCompleted, Nat.add_assoc]

@[simp] theorem wpos_readCompleted (m : MessageBuffer) (n : ℕ) : (m.readCompleted n).wpos = m.wpos :=
  rfl

theorem Sound.readCompleted {n : ℕ} (hm : m.Sound) (hn : m.rpos + n ≤ m.wpos) :
    (m.readCompleted n).Sound := ⟨hn, hm.2⟩

theorem getActiveSize_readCompleted {n : ℕ} (hm : m.Sound) (hn : m.rpos + n ≤ m.wpos) :
    (m.readCompleted n).getActiveSize = m.getActiveSize - n := by
  rw [getActiveSize_eq hm, getActiveSize_eq (hm.readCompleted hn)]
  simp only [MessageBuffer.readCompleted]
  omega

/-- What is consumed waits no more. -/
theorem unread_readCompleted {n : ℕ} (hm : m.Sound) (hn : m.rpos + n ≤ m.wpos) :
    (m.readCompleted n).unread = m.unread.drop n := by
  refine List.ext_getElem? fun k => ?_
  have hafter := getActiveSize_readCompleted hm hn
  rw [List.getElem?_drop, getElem?_unread, getElem?_unread, hafter]
  have hbyte : (m.readCompleted n).byteAt k = m.byteAt (n + k) := by
    simp only [byteAt, MessageBuffer.readCompleted, Nat.add_assoc]
  rw [hbyte]
  by_cases hk : n + k < m.getActiveSize
  · rw [if_pos hk, if_pos (by omega)]
  · rw [if_neg hk, if_neg (by omega)]

/-- At most `k` bytes are taken from the front, as many as wait. -/
theorem take_min (hm : m.Sound) (k : ℕ) :
    m.bytesAt 0 (min m.getActiveSize k) = m.unread.take k ∧
      (m.readCompleted (min m.getActiveSize k)).Sound ∧
        (m.readCompleted (min m.getActiveSize k)).unread = m.unread.drop k := by
  have hle := Nat.min_le_left m.getActiveSize k
  have hfits : m.rpos + min m.getActiveSize k ≤ m.wpos := by
    have := getActiveSize_eq hm
    have := hm.1
    omega
  refine ⟨?_, hm.readCompleted hfits, ?_⟩
  · rw [bytesAt_eq_take hle, ← m.length_unread, Nat.min_comm, ← List.take_take, List.take_length]
  · rw [unread_readCompleted hm hfits]
    rcases Nat.le_total m.getActiveSize k with hk | hk
    · rw [Nat.min_eq_left hk, List.drop_of_length_le (Nat.le_of_eq m.length_unread),
        List.drop_of_length_le (by rwa [length_unread])]
    · rw [Nat.min_eq_right hk]

theorem Sound.normalize (hm : m.Sound) : m.normalize.Sound := by
  unfold MessageBuffer.normalize
  split
  · exact hm
  · refine ⟨Nat.zero_le _, ?_⟩
    have := getActiveSize_eq hm
    have := hm.2
    simp only
    omega

@[simp] theorem rpos_normalize (m : MessageBuffer) : m.normalize.rpos = 0 := by
  unfold MessageBuffer.normalize
  split
  · assumption
  · rfl

theorem wpos_normalize (hm : m.Sound) : m.normalize.wpos = m.getActiveSize := by
  unfold MessageBuffer.normalize
  split
  · have := getActiveSize_eq hm
    omega
  · rfl

theorem getActiveSize_normalize (hm : m.Sound) : m.normalize.getActiveSize = m.getActiveSize := by
  rw [getActiveSize_eq hm.normalize, wpos_normalize hm, rpos_normalize, Nat.sub_zero]

theorem byteAt_normalize {k : ℕ} (hk : k < m.getActiveSize) :
    m.normalize.byteAt k = m.byteAt k := by
  unfold byteAt
  rw [rpos_normalize, Nat.zero_add]
  unfold MessageBuffer.normalize
  split
  · next hr => rw [hr, Nat.zero_add]
  · exact if_pos hk

/-- Where the bytes lie changes, which bytes wait does not. -/
theorem unread_normalize (hm : m.Sound) : m.normalize.unread = m.unread := by
  refine List.ext_getElem? fun k => ?_
  rw [getElem?_unread, getElem?_unread, getActiveSize_normalize hm]
  split
  · next hk => rw [byteAt_normalize hk]
  · rfl

@[simp] theorem getActiveSize_reset (m : MessageBuffer) : m.reset.getActiveSize = 0 := by
  simp only [getActiveSize, reset, Nat.zero_add, Nat.sub_zero, Nat.mod_self]

@[simp] theorem unread_reset (m : MessageBuffer) : m.reset.unread = [] := by
  rw [unread, getActiveSize_reset]
  rfl

end MessageBuffer

end HungerGames.Auth
