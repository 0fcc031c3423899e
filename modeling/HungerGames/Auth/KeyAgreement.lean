/-
# The shared key (`HandleLogonChallenge`, `HandleLogonProof`)

The server has the verifier `v = g^x` of a password and draws `b`; it sends `B = 3v + g^b`.  The
client knows `x` and draws `a`; it sends `A = g^a`.  The server takes `(A * v^u)^b` for the secret
and the client `(B - 3 g^x)^(a + u x)`: both are `g^(b (a + u x))` (`srp6_agreement`), wherever
the server reduces modulo `N` on the way.

The session key is made from two digests of the secret, byte by byte in turn, and has both.
-/
import HungerGames.Auth.ByteArrays
import HungerGames.Auth.Srp6

namespace HungerGames.Auth

open HungerGames.Lua (Bytes)
open HungerGames.Crypto
open BigNumber

/-! ## 1. The secret -/

/-- The secret of the client: `(B - 3 g^x)^(a + u x)` modulo `N`. -/
def clientSecret (B : ℤ) (a x u : ℕ) : ℤ := (B - 3 * (g : ℤ) ^ x) ^ (a + u * x) % N

/-- The public value is `3v + g^b` modulo `N`. -/
theorem cast_publicValue (v b : ℕ) :
    (publicValue v b : ZMod N) = 3 * (v : ZMod N) + (g : ZMod N) ^ b := by
  simp [publicValue, mul_comm]

/-- **Both sides have the same secret.** -/
theorem sharedSecret_eq_clientSecret (a b x u : ℕ) :
    (sharedSecret (modExp g a N) (modExp g x N) u b : ℤ) =
      clientSecret (publicValue (modExp g x N) b) a x u := by
  have hlt : ((sharedSecret (modExp g a N) (modExp g x N) u b : ℕ) : ℤ) < N :=
    Int.ofNat_lt.mpr (sharedSecret_lt ..)
  have hserver : (sharedSecret (modExp g a N) (modExp g x N) u b : ZMod N) =
      (g : ZMod N) ^ (b * (a + u * x)) := by
    rw [cast_sharedSecret, modExp_eq, modExp_eq, ZMod.natCast_mod, ZMod.natCast_mod, Nat.cast_pow,
      Nat.cast_pow]
    ring
  have hbase : ((publicValue (modExp g x N) b : ℕ) : ZMod N) - 3 * (g : ZMod N) ^ x =
      (g : ZMod N) ^ b := by
    rw [cast_publicValue, modExp_eq, ZMod.natCast_mod, Nat.cast_pow]
    ring
  have hmod : (sharedSecret (modExp g a N) (modExp g x N) u b : ℤ) % N =
      ((publicValue (modExp g x N) b : ℤ) - 3 * (g : ℤ) ^ x) ^ (a + u * x) % N := by
    refine (ZMod.intCast_eq_intCast_iff' _ _ _).mp ?_
    push_cast
    rw [hserver, hbase, pow_mul]
  rw [clientSecret, ← hmod, Int.emod_eq_of_lt (Int.natCast_nonneg _) hlt]

/-! ## 2. The key -/

/-- Two strings byte by byte in turn, as the loops write `vK`. -/
def interleave (t1 t2 : Bytes) : Bytes := (List.zip t1 t2).flatMap fun p => [p.1, p.2]

theorem getElem?_interleave : ∀ {t1 t2 : Bytes}, t1.length = t2.length →
    ∀ i, (interleave t1 t2)[2 * i]? = t1[i]? ∧ (interleave t1 t2)[2 * i + 1]? = t2[i]? := by
  intro t1
  induction t1 with
  | nil =>
    intro t2 hlength i
    rw [List.eq_nil_of_length_eq_zero hlength.symm]
    exact ⟨rfl, rfl⟩
  | cons b1 t1 ih =>
    intro t2 hlength i
    cases t2 with
    | nil => cases hlength
    | cons b2 t2 =>
      have hcons : interleave (b1 :: t1) (b2 :: t2) = b1 :: b2 :: interleave t1 t2 := rfl
      rw [hcons]
      cases i with
      | zero => exact ⟨rfl, rfl⟩
      | succ i => exact ih (Nat.succ.inj hlength) i

theorem length_interleave (t1 t2 : Bytes) :
    (interleave t1 t2).length = 2 * min t1.length t2.length := by
  simp [interleave, List.length_flatMap, Nat.mul_comm]

/-- **The session key has both digests**: 40 bytes, of which the even ones are those of the first
digest and the odd ones those of the second. -/
theorem lowBytes_interleavedKey (S : ℕ) :
    let t := everyOther ((asByteArray S 32).take 32)
    lowBytes (interleavedKey S) 40 = interleave (sha1 t.1) (sha1 t.2) := by
  intro t
  have hlength : (interleave (sha1 t.1) (sha1 t.2)).length = 40 := by
    rw [length_interleave, length_sha1, length_sha1]
    rfl
  rw [← hlength]
  exact lowBytes_setBinary (interleave (sha1 t.1) (sha1 t.2))

/-- **Server and client agree** on the secret, whatever they have drawn and whatever the
scrambler; and the key that is made of a secret keeps every byte of both of its digests. -/
theorem srp6_agreement (a b x u : ℕ) :
    (sharedSecret (modExp g a N) (modExp g x N) u b : ℤ) =
        clientSecret (publicValue (modExp g x N) b) a x u ∧
      ∀ S i, let t := everyOther ((asByteArray S 32).take 32)
        let vK := lowBytes (interleavedKey S) 40
        vK[2 * i]? = (sha1 t.1)[i]? ∧ vK[2 * i + 1]? = (sha1 t.2)[i]? := by
  refine ⟨sharedSecret_eq_clientSecret a b x u, fun S i => ?_⟩
  rw [lowBytes_interleavedKey S]
  exact getElem?_interleave (by rw [length_sha1, length_sha1]) i

end HungerGames.Auth
