/-
# The safeguard of the logon proof (`HandleLogonProof`)

`S = (A * v^u)^b mod N` is meant to be out of reach for a client that does not know the password
behind the verifier `v`.  A multiple of `N` as `A` makes it `0` for every verifier, and so the
handler turns `A = 0` away.  It looks at `A` itself, not at `A mod N`, and `2 N` is above `2^256`:
one multiple is left, and `safeguarded_iff` has it that nothing else is wrong.

What makes every other `A` safe is the choice of `N`, a safe prime.  The exponent `u * b` is not
divisible by the large factor `halfN` of `N - 1`, so `S` tells the verifier up to its sign.
-/
import HungerGames.Auth.Handlers

namespace HungerGames.Auth

open HungerGames.Crypto
open BigNumber

/-! ## 1. The modulus -/

/-- `(N - 1) / 2` -/
def halfN : ℕ := 31050033254578008671034748070451474931624879168000398464283220585146864324059

/-- Lucas' tests for the modulus and what they rest on. -/
def certificate : List (ℕ × ℕ × List ℕ) :=
  [(N, 7, [2, halfN]),
   (halfN, 2, [2, 11, 23, 73, 118574434367, 3110557453940813197,
     2279079126837977412406933585396045119937459]),
   (2279079126837977412406933585396045119937459, 3,
     [2, 3, 7, 31, 11839, 28086973, 3345116454683, 1573682880936379]),
   (1573682880936379, 2, [2, 3, 43, 6099546050141]),
   (6099546050141, 2, [2, 2, 5, 139, 2194081313]), (2194081313, 3, [2, 2, 2, 2, 2, 6079, 11279]),
   (11279, 7, [2, 5639]), (5639, 7, [2, 2819]), (2819, 2, [2, 1409]),
   (1409, 3, [2, 2, 2, 2, 2, 2, 2, 11]), (6079, 17, [2, 3, 1013]), (1013, 3, [2, 2, 11, 23]),
   (139, 2, [2, 3, 23]), (43, 3, [2, 3, 7]), (3345116454683, 2, [2, 311, 769, 6993499]),
   (6993499, 2, [2, 3, 1165583]), (1165583, 5, [2, 11, 52981]), (52981, 2, [2, 2, 3, 5, 883]),
   (883, 2, [2, 3, 3, 7, 7]), (769, 11, [2, 2, 2, 2, 2, 2, 2, 2, 3]), (311, 17, [2, 5, 31]),
   (28086973, 5, [2, 2, 3, 2340581]), (2340581, 2, [2, 2, 5, 11, 10639]),
   (10639, 6, [2, 3, 3, 3, 197]), (197, 2, [2, 2, 7, 7]), (11839, 3, [2, 3, 1973]),
   (1973, 2, [2, 2, 17, 29]), (3110557453940813197, 2, [2, 2, 3, 259213121161734433]),
   (259213121161734433, 10, [2, 2, 2, 2, 2, 3, 7, 11, 571, 226199, 271499]),
   (271499, 2, [2, 29, 31, 151]), (226199, 7, [2, 7, 107, 151]), (151, 6, [2, 3, 5, 5]),
   (107, 2, [2, 53]), (53, 2, [2, 2, 13]), (571, 3, [2, 3, 5, 19]),
   (118574434367, 5, [2, 59287217183]), (59287217183, 5, [2, 29643608591]),
   (29643608591, 7, [2, 5, 73, 40607683]), (40607683, 3, [2, 3, 719, 9413]),
   (9413, 3, [2, 2, 13, 181]), (181, 2, [2, 2, 3, 3, 5]), (719, 11, [2, 359]), (359, 7, [2, 179]),
   (179, 2, [2, 89]), (89, 3, [2, 2, 2, 11]), (73, 5, [2, 2, 2, 3, 3])]

theorem certified_certificate : certified certificate = true := by decide +kernel

theorem prime_N : N.Prime :=
  prime_of_certified certified_certificate (N, 7, [2, halfN]) List.mem_cons_self

theorem prime_halfN : halfN.Prime :=
  prime_of_certified certified_certificate _ (List.mem_cons_of_mem _ List.mem_cons_self)

instance : Fact N.Prime := ⟨prime_N⟩

theorem N_eq : N = 2 * halfN + 1 := rfl

/-- Both factors of the exponent are too small to have the factor `halfN`. -/
theorem not_halfN_dvd {u b : ℕ} (hu : 0 < u) (hu' : u < 2 ^ 160) (hb : 0 < b)
    (hb' : b < 2 ^ 152) : ¬ halfN ∣ u * b := by
  have hbig : 2 ^ 160 < halfN := by decide
  intro hdvd
  rcases prime_halfN.dvd_mul.mp hdvd with h | h
  · exact absurd (Nat.le_of_dvd hu h) (by omega)
  · exact absurd (Nat.le_of_dvd hb h) (by omega)

/-! ## 2. The shared secret -/

theorem sharedSecret_lt (A v u b : ℕ) : sharedSecret A v u b < N := by
  rw [sharedSecret, modExp_eq]
  exact Nat.mod_lt _ prime_N.pos

/-- The shared secret is `(A * v^u)^b` modulo `N`. -/
theorem cast_sharedSecret (A v u b : ℕ) :
    (sharedSecret A v u b : ZMod N) = ((A : ZMod N) * (v : ZMod N) ^ u) ^ b := by
  simp [sharedSecret]

theorem sharedSecret_eq_iff {A v v' u b : ℕ} :
    sharedSecret A v u b = sharedSecret A v' u b ↔
      ((A : ZMod N) * (v : ZMod N) ^ u) ^ b = ((A : ZMod N) * (v' : ZMod N) ^ u) ^ b := by
  rw [← cast_sharedSecret, ← cast_sharedSecret, ZMod.natCast_eq_natCast_iff',
    Nat.mod_eq_of_lt (sharedSecret_lt ..), Nat.mod_eq_of_lt (sharedSecret_lt ..)]

/-- **A multiple of the modulus forces the secret.** -/
theorem sharedSecret_eq_zero {A b : ℕ} (hA : A % N = 0) (hb : 0 < b) (v u : ℕ) :
    sharedSecret A v u b = 0 := by
  have hA' : (A : ZMod N) = 0 := (ZMod.natCast_eq_zero_iff A N).mpr (Nat.dvd_of_mod_eq_zero hA)
  have hcast : (sharedSecret A v u b : ZMod N) = 0 := by
    rw [cast_sharedSecret, hA', zero_mul, zero_pow hb.ne']
  exact Nat.eq_zero_of_dvd_of_lt ((ZMod.natCast_eq_zero_iff _ _).mp hcast) (sharedSecret_lt ..)

/-- **Any other `A` leaves the verifier in the secret**, which tells it up to the sign. -/
theorem verifier_of_sharedSecret {A v v' u b : ℕ} (hA : A % N ≠ 0) (hu : 0 < u)
    (hu' : u < 2 ^ 160) (hb : 0 < b) (hb' : b < 2 ^ 152)
    (h : sharedSecret A v u b = sharedSecret A v' u b) :
    (v : ZMod N) = v' ∨ (v : ZMod N) = -v' := by
  have hA' : (A : ZMod N) ≠ 0 := fun h0 =>
    hA (Nat.mod_eq_zero_of_dvd ((ZMod.natCast_eq_zero_iff A N).mp h0))
  have hpow : (v : ZMod N) ^ (u * b) = (v' : ZMod N) ^ (u * b) := by
    have heq := sharedSecret_eq_iff.mp h
    rw [mul_pow, mul_pow, ← pow_mul, ← pow_mul] at heq
    exact mul_left_cancel₀ (pow_ne_zero b hA') heq
  exact eq_or_eq_neg_of_pow_eq_pow N_eq prime_halfN (not_halfN_dvd hu hu' hb hb') hpow

/-- The secret is the same whatever the password is. -/
def Independent (A u b : ℕ) : Prop := ∃ S, ∀ x, sharedSecret A (modExp g x N) u b = S

/-- **When the secret leaves the verifier out**: `A` is a multiple of the modulus, or the
scrambler is `0`. -/
theorem independent_iff {A u b : ℕ} (hu : u < 2 ^ 160) (hb : 0 < b) (hb' : b < 2 ^ 152) :
    Independent A u b ↔ A % N = 0 ∨ u = 0 := by
  constructor
  · rintro ⟨S, hS⟩
    by_contra hne
    rw [not_or] at hne
    -- the passwords with the hashes 0 and 1 have the verifiers 1 and 7
    have hsame : sharedSecret A (modExp g 0 N) u b = sharedSecret A (modExp g 1 N) u b :=
      (hS 0).trans (hS 1).symm
    have hv := verifier_of_sharedSecret hne.1 (Nat.pos_of_ne_zero hne.2) hu hb hb' hsame
    revert hv
    decide
  · rintro (hA | rfl)
    · exact ⟨0, fun x => sharedSecret_eq_zero hA hb _ u⟩
    · exact ⟨sharedSecret A 0 0 b, fun x => sharedSecret_eq_iff.mpr (by rw [pow_zero, pow_zero])⟩

/-! ## 3. The safeguard -/

section Safeguard

variable (w : Backend) (session : Session) (m : MessageBuffer)

/-- The safeguard lets the packet at the read position through. -/
def LetThrough : Prop := isZero (readProof m).A = false

/-- 32 bytes have room for one multiple of the modulus other than `0`. -/
theorem eq_N_iff (h : LetThrough m) : (readProof m).A % N = 0 ↔ (readProof m).A = N := by
  have hpos : (readProof m).A ≠ 0 := isZero_eq_false.mp h
  have hlt : (readProof m).A < 256 ^ 32 := by
    have hbytes := setBinary_lt (m.bytesAt 1 32)
    rwa [MessageBuffer.length_bytesAt] at hbytes
  have hN : 256 ^ 32 < 2 * N := by decide
  constructor
  · intro hmod
    obtain ⟨k, hk⟩ := Nat.dvd_of_mod_eq_zero hmod
    have hk1 : k = 1 := by
      have h0 : k ≠ 0 := by
        rintro rfl
        exact hpos hk
      have h2 : k < 2 := by
        by_contra hge
        have hmul : N * 2 ≤ N * k := Nat.mul_le_mul_left N (by omega)
        omega
      omega
    rw [hk, hk1, mul_one]
  · intro hA
    rw [hA, Nat.mod_self]

/-- What the safeguard is for: an `A` that it lets through is no multiple of the modulus, and
does not settle the secret for every account at once, whatever `b` the server has drawn and
whatever scrambler comes of it.  A scrambler `0` is left out: `v^0` is `1`, for every `A`. -/
def Safeguarded : Prop :=
  LetThrough m → (readProof m).A % N ≠ 0 ∧
    ∀ (u : ℕ) (b : Rand (19 * 8)), 0 < u → u < 2 ^ 160 → ¬ Independent (readProof m).A u b.val

/-- **The safeguard misses the modulus itself, and nothing else.** -/
theorem safeguarded_iff : Safeguarded m ↔ (readProof m).A ≠ N := by
  constructor
  · intro h hA
    have hthrough : LetThrough m := by
      rw [LetThrough, hA]
      rfl
    exact (h hthrough).1 ((eq_N_iff m hthrough).mpr hA)
  · intro hne hthrough
    have hmod : (readProof m).A % N ≠ 0 := fun hmod => hne ((eq_N_iff m hthrough).mp hmod)
    refine ⟨hmod, fun u b hu hu' hindep => ?_⟩
    rcases (independent_iff hu' b.pos b.fits).mp hindep with hA | rfl
    · exact hmod hA
    · exact absurd hu (lt_irrefl 0)

end Safeguard

/-- A logon proof whose `A` is the modulus. -/
def modulusProof : MessageBuffer :=
  MessageBuffer.empty.write (0x01 :: lowBytes N 32 ++ List.replicate 42 0)

/-- The safeguard lets the modulus through, and the secret is `0` for every account. -/
theorem modulusProof_forces :
    LetThrough modulusProof ∧ (readProof modulusProof).A % N = 0 ∧
      ∀ (v u : ℕ) (b : Rand (19 * 8)), sharedSecret (readProof modulusProof).A v u b.val = 0 := by
  have hA : (readProof modulusProof).A = N := by decide +kernel
  rw [LetThrough, hA]
  exact ⟨rfl, Nat.mod_self N, fun v u b => sharedSecret_eq_zero (Nat.mod_self N) b.pos v u⟩

end HungerGames.Auth
