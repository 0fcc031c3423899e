/-
# SHA-1

The hash of `SHA1Hash`, which hands its data to OpenSSL: the message is padded to blocks of 64
bytes, a block is expanded to 80 words, and each word turns the five registers once.
-/
import Mathlib.Algebra.Group.Nat.Defs
import Mathlib.Data.List.Basic

namespace HungerGames.Crypto

/-- The five registers. -/
structure Registers where
  a : UInt32
  b : UInt32
  c : UInt32
  d : UInt32
  e : UInt32

/-- `x` turned left by `n` bits. -/
def rotl (n x : UInt32) : UInt32 := (x <<< n) ||| (x >>> (32 - n))

/-- The first `n` pieces of `k` elements. -/
def pieces {α : Type} (k : ℕ) : ℕ → List α → List (List α)
  | 0, _ => []
  | n + 1, xs => xs.take k :: pieces k n (xs.drop k)

/-- Four bytes, the first the most significant. -/
def wordOf (bs : List UInt8) : UInt32 := bs.foldl (fun w b => (w <<< 8) ||| b.toUInt32) 0

def bytesOf (w : UInt32) : List UInt8 :=
  [(w >>> 24).toUInt8, (w >>> 16).toUInt8, (w >>> 8).toUInt8, w.toUInt8]

/-- The message schedule: the next `n` words, from the 16 that come next. -/
def schedule : ℕ → List UInt32 → List UInt32
  | n + 1, w :: ws =>
    w :: schedule n (ws ++ [rotl 1 (ws.getD 12 0 ^^^ ws.getD 7 0 ^^^ ws.getD 1 0 ^^^ w)])
  | _, _ => []

/-- The function and the constant of round `t`. -/
def mix (t : ℕ) (b c d : UInt32) : UInt32 :=
  if t < 20 then ((b &&& c) ||| (~~~b &&& d)) + 0x5A827999
  else if t < 40 then (b ^^^ c ^^^ d) + 0x6ED9EBA1
  else if t < 60 then ((b &&& c) ||| (b &&& d) ||| (c &&& d)) + 0x8F1BBCDC
  else (b ^^^ c ^^^ d) + 0xCA62C1D6

def round (h : Registers) (wt : UInt32 × ℕ) : Registers :=
  ⟨rotl 5 h.a + mix wt.2 h.b h.c h.d + h.e + wt.1, h.a, rotl 30 h.b, h.c, h.d⟩

/-- One block. -/
def compress (h : Registers) (block : List UInt8) : Registers :=
  let r := ((schedule 80 ((pieces 4 16 block).map wordOf)).zipIdx).foldl round h
  ⟨h.a + r.a, h.b + r.b, h.c + r.c, h.d + r.d, h.e + r.e⟩

/-- The message, a bit `1`, zeros, and the length in bits in 64 bits. -/
def pad (m : List UInt8) : List UInt8 :=
  m ++ [0x80] ++ List.replicate ((119 - m.length % 64) % 64) 0 ++
    (List.range 8).map fun i => (m.length * 8 / 256 ^ (7 - i)).toUInt8

def sha1 (m : List UInt8) : List UInt8 :=
  let h := (pieces 64 ((pad m).length / 64) (pad m)).foldl compress
    ⟨0x67452301, 0xEFCDAB89, 0x98BADCFE, 0x10325476, 0xC3D2E1F0⟩
  bytesOf h.a ++ bytesOf h.b ++ bytesOf h.c ++ bytesOf h.d ++ bytesOf h.e

@[simp] theorem length_sha1 (m : List UInt8) : (sha1 m).length = 20 := rfl

example : sha1 [97, 98, 99] = [0xA9, 0x99, 0x3E, 0x36, 0x47, 0x06, 0x81, 0x6A, 0xBA, 0x3E, 0x25,
    0x71, 0x78, 0x50, 0xC2, 0x6C, 0x9C, 0xD0, 0xD8, 0x9D] := by decide +kernel

end HungerGames.Crypto
