/-
# Reading a packet (`ByteBuffer.h`)

A packet is read front to back.  A read past the end throws; a string is different, it ends at
its `0` or at the end of the packet and never throws.
-/
import HungerGames.Auth.BigNumber
import HungerGames.Lua.Text

namespace HungerGames.World

open HungerGames.Lua (Bytes)
open HungerGames.Auth

/-- `ByteBufferPositionException`, with the arguments of its constructor. -/
structure ByteBufferPositionException where
  add : Bool
  pos : ℕ
  size : ℕ
  valueSize : ℕ
deriving DecidableEq

/-- A buffer that is read: the read position is inside. -/
structure ByteBuffer where
  storage : Bytes
  rpos : ℕ
  inside : rpos ≤ storage.length

namespace ByteBuffer

/-- A packet made of the bytes received. -/
def ofBytes (storage : Bytes) : ByteBuffer := ⟨storage, 0, Nat.zero_le _⟩

/-- The bytes not read yet. -/
def rest (b : ByteBuffer) : Bytes := b.storage.drop b.rpos

@[simp] theorem length_rest (b : ByteBuffer) : b.rest.length = b.storage.length - b.rpos :=
  List.length_drop

/-- Past the next `n` bytes. -/
def skip (b : ByteBuffer) (n : ℕ) (hn : b.rpos + n ≤ b.storage.length) : ByteBuffer :=
  ⟨b.storage, b.rpos + n, hn⟩

@[simp] theorem rest_skip (b : ByteBuffer) (n : ℕ) (hn : b.rpos + n ≤ b.storage.length) :
    (b.skip n hn).rest = b.rest.drop n := by
  simp only [rest, skip, List.drop_drop]

end ByteBuffer

/-- A read: its value and the buffer behind it, or the exception. -/
abbrev Reader (α : Type) := StateT ByteBuffer (Except ByteBufferPositionException) α

/-- `read(dest, len)`, and `read<T>()` for a `T` of `len` bytes. -/
def read (len : ℕ) : Reader Bytes := fun b =>
  if hn : b.rpos + len ≤ b.storage.length then .ok (b.rest.take len, b.skip len hn)
  else .error ⟨false, b.rpos, len, b.storage.length⟩

/-- `operator>>` for an unsigned number of `len` bytes. -/
def readNat (len : ℕ) : Reader ℕ := do
  let bs ← read len
  return BigNumber.setBinary bs

/-- The string at the front of some bytes, and what is behind it and its `0`. -/
def splitString (bs : Bytes) : Bytes × Bytes := (bs.takeWhile (· != 0), (bs.dropWhile (· != 0)).drop 1)

theorem length_splitString (bs : Bytes) : (splitString bs).2.length ≤ bs.length := by
  have hdrop : (bs.dropWhile (· != 0)).length ≤ bs.length := (List.dropWhile_sublist _).length_le
  simp only [splitString, List.length_drop]
  omega

/-- `operator>>` for a string. -/
def readString : Reader Bytes := fun b =>
  .ok ((splitString b.rest).1, b.skip (b.rest.length - (splitString b.rest).2.length) (by
    have := b.inside
    have := b.length_rest
    omega))

/-! ## What a read comes to -/

/-- On a buffer with the bytes `bs` before it, the read has the value `v` and leaves `after`. -/
def Reads {α : Type} (r : Reader α) (bs : Bytes) (v : α) (after : Bytes) : Prop :=
  ∀ b : ByteBuffer, b.rest = bs → ∃ b', r b = .ok (v, b') ∧ b'.rest = after

/-- On such a buffer the read throws. -/
def Throws {α : Type} (r : Reader α) (bs : Bytes) : Prop :=
  ∀ b : ByteBuffer, b.rest = bs → ∃ e, r b = .error e

section Rules

variable {α β : Type} {r : Reader α} {f : α → Reader β} {bs after : Bytes} {v : α}

theorem reads_pure (v : α) (bs : Bytes) : Reads (pure v) bs v bs :=
  fun b hb => ⟨b, rfl, hb⟩

theorem Reads.bind {w : β} {last : Bytes} (hr : Reads r bs v after) (hf : Reads (f v) after w last) :
    Reads (r >>= f) bs w last := by
  intro b hb
  obtain ⟨b', hok, hrest⟩ := hr b hb
  obtain ⟨b'', hok', hrest'⟩ := hf b' hrest
  refine ⟨b'', ?_, hrest'⟩
  simp only [Bind.bind, StateT.bind, hok, Except.bind]
  exact hok'

/-- The first of two reads throws. -/
theorem Throws.bind (hr : Throws r bs) : Throws (r >>= f) bs := by
  intro b hb
  obtain ⟨e, he⟩ := hr b hb
  refine ⟨e, ?_⟩
  simp only [Bind.bind, StateT.bind, he, Except.bind]

/-- The first of two reads has a value, and the second throws. -/
theorem Reads.throws (hr : Reads r bs v after) (hf : Throws (f v) after) : Throws (r >>= f) bs := by
  intro b hb
  obtain ⟨b', hok, hrest⟩ := hr b hb
  obtain ⟨e, he⟩ := hf b' hrest
  refine ⟨e, ?_⟩
  simp only [Bind.bind, StateT.bind, hok, Except.bind]
  exact he

theorem reads_read {len : ℕ} (hlen : len ≤ bs.length) :
    Reads (read len) bs (bs.take len) (bs.drop len) := by
  rintro b rfl
  have hinside := b.inside
  rw [b.length_rest] at hlen
  have hle : b.rpos + len ≤ b.storage.length := by omega
  exact ⟨b.skip len hle, dif_pos hle, b.rest_skip len hle⟩

theorem throws_read {len : ℕ} (hlen : bs.length < len) : Throws (read len) bs := by
  rintro b rfl
  rw [b.length_rest] at hlen
  exact ⟨_, dif_neg (by omega)⟩

theorem reads_readNat {len : ℕ} (hlen : len ≤ bs.length) :
    Reads (readNat len) bs (BigNumber.setBinary (bs.take len)) (bs.drop len) :=
  (reads_read hlen).bind (reads_pure _ _)

theorem throws_readNat {len : ℕ} (hlen : bs.length < len) : Throws (readNat len) bs :=
  (throws_read hlen).bind

theorem reads_readString (bs : Bytes) : Reads readString bs (splitString bs).1 (splitString bs).2 := by
  rintro b rfl
  refine ⟨_, rfl, ?_⟩
  rw [ByteBuffer.rest_skip]
  have hparts : b.rest = b.rest.takeWhile (· != 0) ++ b.rest.dropWhile (· != 0) :=
    List.takeWhile_append_dropWhile.symm
  have hlength := congrArg List.length hparts
  rw [List.length_append] at hlength
  unfold splitString
  generalize b.rest.takeWhile (· != 0) = value at hparts hlength ⊢
  generalize b.rest.dropWhile (· != 0) = behind at hparts hlength ⊢
  rw [hparts, List.length_append, List.length_drop]
  cases behind with
  | nil => simp
  | cons zero behind =>
    have hskip : value.length + (zero :: behind).length - ((zero :: behind).length - 1) =
        value.length + 1 := by
      rw [List.length_cons]
      omega
    rw [hskip, List.drop_append]
    simp

end Rules

end HungerGames.World
