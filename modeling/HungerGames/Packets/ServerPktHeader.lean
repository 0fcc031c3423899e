/-
# The header of a server packet (`ServerPktHeader.h`)

The header of a packet to the client is its size, which counts the opcode, and its opcode.  The
size is written in two bytes while it is below `0x8000`, else in three with the top bit set; so a
client knows from the first byte which it is.  `readServerPktHeader` is the client's side.

A size has 23 bits then, and nothing keeps a packet below `2^23` bytes: the buffer it is made of
stops at an append that finds ten million bytes there (`readsBack_iff`).
-/
import HungerGames.Packets.PackedGuid
import HungerGames.World.Outgoing

namespace HungerGames.Packets

open HungerGames.Lua (Bytes)
open HungerGames.World

/-- What a client makes of the bytes that come in: the size, the opcode and what is behind. -/
def readServerPktHeader : Bytes → Option (ℕ × ℕ × Bytes)
  | b0 :: bs =>
    if b0 < 0x80 then
      match bs with
      | b1 :: c0 :: c1 :: behind =>
        some (b0.toNat * 256 + b1.toNat, c0.toNat + 256 * c1.toNat, behind)
      | _ => none
    else
      match bs with
      | b1 :: b2 :: c0 :: c1 :: behind =>
        some ((b0.toNat - 128) * 65536 + b1.toNat * 256 + b2.toNat, c0.toNat + 256 * c1.toNat,
          behind)
      | _ => none
  | [] => none

/-- The client reads the size and the opcode of a packet from its header, whatever follows. -/
def ReadsBack (p : Outbound) : Prop :=
  ∀ behind, readServerPktHeader (p.header ++ behind) =
    some (p.payload.length + 2, p.opcode, behind)

theorem or_128 : ∀ n < 256, 128 ||| n = 128 + n % 128 := by decide +kernel

theorem toNat_marked (n : ℕ) : ((0x80 : UInt8) ||| UInt8.ofNat n).toNat = 128 + n % 128 := by
  rw [UInt8.toNat_or, UInt8.toNat_ofNat']
  have h := or_128 (n % 256) (Nat.mod_lt n (by decide))
  rw [Nat.mod_mod_of_dvd n (by decide : 128 ∣ 256)] at h
  exact h

theorem toNat_low (n : ℕ) : (UInt8.ofNat n).toNat = n % 256 := UInt8.toNat_ofNat'

theorem shiftRight_16 (n : ℕ) : n >>> 16 = n / 65536 := Nat.shiftRight_eq_div_pow n 16

/-- The two bytes of an opcode. -/
theorem opcode_bytes {cmd : ℕ} (hcmd : cmd < 2 ^ 16) :
    (UInt8.ofNat cmd).toNat + 256 * (UInt8.ofNat (cmd >>> 8)).toNat = cmd := by
  rw [toNat_low, toNat_low, shiftRight_8]
  omega

/-- A small header reads back. -/
theorem read_small {size cmd : ℕ} (hsize : size ≤ 0x7FFF) (hcmd : cmd < 2 ^ 16) (behind : Bytes) :
    readServerPktHeader (serverPktHeader size cmd ++ behind) = some (size, cmd, behind) := by
  have hfirst : UInt8.ofNat (size >>> 8) < 0x80 := by
    rw [UInt8.lt_iff_toNat_lt, toNat_low, shiftRight_8]
    show size / 256 % 256 < 128
    omega
  have hvalue : (UInt8.ofNat (size >>> 8)).toNat * 256 + (UInt8.ofNat size).toNat = size := by
    rw [toNat_low, toNat_low, shiftRight_8]
    omega
  unfold serverPktHeader
  rw [if_neg (by omega)]
  simp only [List.nil_append, List.cons_append, readServerPktHeader]
  rw [if_pos hfirst, hvalue, opcode_bytes hcmd]

/-- A large header gives the lowest 23 bits of the size. -/
theorem read_large {size cmd : ℕ} (hsize : 0x7FFF < size) (hcmd : cmd < 2 ^ 16) (behind : Bytes) :
    readServerPktHeader (serverPktHeader size cmd ++ behind) =
      some (size % 8388608, cmd, behind) := by
  have hfirst : ¬ (0x80 : UInt8) ||| UInt8.ofNat (size >>> 16) < 0x80 := by
    rw [UInt8.lt_iff_toNat_lt, toNat_marked]
    show ¬ 128 + size >>> 16 % 128 < 128
    omega
  have hvalue : (((0x80 : UInt8) ||| UInt8.ofNat (size >>> 16)).toNat - 128) * 65536 +
      (UInt8.ofNat (size >>> 8)).toNat * 256 + (UInt8.ofNat size).toNat = size % 8388608 := by
    rw [toNat_marked, toNat_low, toNat_low, shiftRight_8, shiftRight_16]
    omega
  unfold serverPktHeader
  rw [if_pos hsize]
  simp only [List.cons_append, List.nil_append, readServerPktHeader]
  rw [if_neg hfirst, hvalue, opcode_bytes hcmd]

/-- **A header reads back exactly while the size has 23 bits.** -/
theorem readsBack_iff {p : Outbound} (hopcode : p.opcode < 2 ^ 16) :
    ReadsBack p ↔ p.payload.length + 2 < 2 ^ 23 := by
  have hread : ∀ behind, ∃ size, readServerPktHeader (p.header ++ behind) =
      some (size, p.opcode, behind) ∧ size < 2 ^ 23 ∧
        (p.payload.length + 2 < 2 ^ 23 → size = p.payload.length + 2) := by
    intro behind
    by_cases hsize : (p.payload.length + 2) % 2 ^ 32 ≤ 0x7FFF
    · exact ⟨_, read_small hsize hopcode behind, by omega, fun h => by omega⟩
    · exact ⟨_, read_large (by omega) hopcode behind, by omega, fun h => by omega⟩
  constructor
  · intro h
    obtain ⟨size, hsize, hlt, -⟩ := hread []
    have heq := (h []).symm.trans hsize
    rw [Option.some_inj, Prod.mk.injEq] at heq
    rw [heq.1]
    exact hlt
  · intro h behind
    obtain ⟨size, hsize, -, heq⟩ := hread behind
    rw [hsize, heq h]

theorem exists_length (n : ℕ) : ∃ payload : Bytes, payload.length = n :=
  ⟨List.replicate n 0, List.length_replicate⟩

/-- The largest packet that reads back. -/
theorem readsBack_largest : ∃ p : Outbound, p.payload.length = 8388605 ∧ ReadsBack p := by
  obtain ⟨payload, hlength⟩ := exists_length 8388605
  have hopcode : (⟨0x1F6, payload⟩ : Outbound).opcode < 2 ^ 16 := by
    show 0x1F6 < 2 ^ 16
    decide
  refine ⟨⟨0x1F6, payload⟩, hlength, (readsBack_iff hopcode).mpr ?_⟩
  rw [hlength]
  decide

/-- One append makes a packet of `2^23` bytes, of which the client reads the size 0. -/
theorem size_lost : ∃ payload : Bytes, append ⟨[], 0⟩ payload = .ok ⟨payload, payload.length⟩ ∧
    ¬ ReadsBack ⟨0x1F6, payload⟩ := by
  obtain ⟨payload, hlength⟩ := exists_length 8388606
  refine ⟨payload, ?_, fun h => ?_⟩
  · unfold append
    rw [if_neg (by omega), if_neg (by decide)]
    simp only [List.nil_append, List.length_nil, Nat.sub_zero, Nat.zero_add, List.take_zero,
      List.drop_replicate, Nat.sub_self, List.replicate_zero, List.append_nil]
  · have hread := @read_large 8388608 0x1F6 (by decide) (by decide) []
    have hsize := h []
    unfold Outbound.header at hsize
    rw [hlength] at hsize
    have heq := hread.symm.trans hsize
    rw [Option.some_inj, Prod.mk.injEq] at heq
    exact absurd heq.1 (by decide)

end HungerGames.Packets
