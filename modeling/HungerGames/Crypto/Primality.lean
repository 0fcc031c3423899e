/-
# Powers and primes

`powMod` is `b ^ e % m` by repeated squaring, which a computer can evaluate where the power
itself has no room.  With it Lucas' test becomes a computation: `p` is prime when some `a` has
order `p - 1` modulo `p`, and that is a question about the prime factors of `p - 1`.

`certified` asks it of a chain of numbers, each of which may use the ones behind it as factors.

Modulo a safe prime `p = 2 q + 1` there are few orders, so a power tells its base up to the sign
whenever `q` does not divide the exponent: `eq_or_eq_neg_of_pow_eq_pow`.
-/
import Mathlib.NumberTheory.LucasPrimality
import Mathlib.FieldTheory.Finite.Basic

namespace HungerGames.Crypto

/-! ## 1. Modular powers -/

/-- The recursion of `powMod`: the exponent is halved, `fuel` times at most. -/
def powModAux (m b : ℕ) : ℕ → ℕ → ℕ
  | 0, _ => 1 % m
  | fuel + 1, e => powModAux m b fuel (e / 2) ^ 2 % m * b ^ (e % 2) % m

/-- `b ^ e % m` -/
def powMod (b e m : ℕ) : ℕ := powModAux m b (Nat.log2 e + 1) e

theorem powModAux_eq (m b : ℕ) : ∀ (fuel e : ℕ), e < 2 ^ fuel → powModAux m b fuel e = b ^ e % m
  | 0, e, h => by
    obtain rfl : e = 0 := by simpa using h
    rw [pow_zero]
    rfl
  | fuel + 1, e, h => by
    have hhalf : e / 2 < 2 ^ fuel := by
      rw [pow_succ] at h
      omega
    have hsplit : e / 2 * 2 + e % 2 = e := Nat.div_add_mod' e 2
    calc powModAux m b fuel (e / 2) ^ 2 % m * b ^ (e % 2) % m
        = (b ^ (e / 2) % m) ^ 2 % m * b ^ (e % 2) % m := by rw [powModAux_eq m b fuel _ hhalf]
      _ = (b ^ (e / 2)) ^ 2 * b ^ (e % 2) % m := by rw [← Nat.pow_mod, Nat.mod_mul_mod]
      _ = b ^ e % m := by rw [← pow_mul, ← pow_add, hsplit]

theorem powMod_eq (b e m : ℕ) : powMod b e m = b ^ e % m :=
  powModAux_eq m b _ e Nat.lt_log2_self

/-! ## 2. Lucas' test -/

/-- `a` has order `p - 1` modulo `p`, as far as the divisors `fs` of `p - 1` can tell. -/
def lucasTest (p a : ℕ) (fs : List ℕ) : Bool :=
  1 < p && fs.prod == p - 1 && powMod a (p - 1) p == 1 &&
    fs.all fun f => powMod a ((p - 1) / f) p != 1

theorem zmod_pow_eq_one_iff {p : ℕ} (hp : 1 < p) (a e : ℕ) :
    (a : ZMod p) ^ e = 1 ↔ powMod a e p = 1 := by
  have hpow : (a : ZMod p) ^ e = ((a ^ e : ℕ) : ZMod p) := (Nat.cast_pow a e).symm
  have hone : (1 : ZMod p) = ((1 : ℕ) : ZMod p) := Nat.cast_one.symm
  rw [hpow, hone, ZMod.natCast_eq_natCast_iff', Nat.mod_eq_of_lt hp, powMod_eq]

theorem prime_of_lucasTest {p a : ℕ} {fs : List ℕ} (hfs : ∀ f ∈ fs, f.Prime)
    (h : lucasTest p a fs = true) : p.Prime := by
  simp only [lucasTest, Bool.and_eq_true, decide_eq_true_eq, beq_iff_eq, List.all_eq_true,
    bne_iff_ne] at h
  obtain ⟨⟨⟨hp, hprod⟩, hone⟩, hne⟩ := h
  refine lucas_primality p a ((zmod_pow_eq_one_iff hp a _).mpr hone) fun q hq hdvd => ?_
  rw [← hprod] at hdvd
  obtain ⟨f, hf, hqf⟩ := (Prime.dvd_prod_iff hq.prime).mp hdvd
  have heq : q = f := (Nat.prime_dvd_prime_iff_eq hq (hfs f hf)).mp hqf
  subst heq
  exact fun hpow => hne q hf ((zmod_pow_eq_one_iff hp a _).mp hpow)

/-! ## 3. Chains of tests -/

/-- Every number of the chain passes the test, with factors that are small primes or come
later in the chain. -/
def certified : List (ℕ × ℕ × List ℕ) → Bool
  | [] => true
  | (p, a, fs) :: rest =>
    fs.all (fun f => f ∈ rest.map Prod.fst || f ∈ [2, 3, 5, 7, 11, 13, 17, 19, 23, 29, 31]) &&
      lucasTest p a fs && certified rest

theorem prime_of_small : ∀ f ∈ [2, 3, 5, 7, 11, 13, 17, 19, 23, 29, 31], Nat.Prime f := by
  decide

/-- **A certified number is prime.** -/
theorem prime_of_certified : ∀ {cs : List (ℕ × ℕ × List ℕ)}, certified cs = true →
    ∀ c ∈ cs, c.1.Prime
  | [], _ => fun c hc => absurd hc List.not_mem_nil
  | (p, a, fs) :: rest, h => by
    simp only [certified, Bool.and_eq_true, List.all_eq_true, Bool.or_eq_true,
      decide_eq_true_eq] at h
    obtain ⟨⟨hfs, htest⟩, hrest⟩ := h
    have ih := prime_of_certified hrest
    intro c hc
    rcases List.mem_cons.mp hc with rfl | hc
    · refine prime_of_lucasTest (fun f hf => ?_) htest
      rcases hfs f hf with hmem | hsmall
      · obtain ⟨c, hc, rfl⟩ := List.mem_map.mp hmem
        exact ih c hc
      · exact prime_of_small f hsmall
    · exact ih c hc

/-! ## 4. Safe primes -/

section SafePrime

variable {p q : ℕ} [Fact p.Prime] (hp : p = 2 * q + 1) (hq : q.Prime)
include hp hq

/-- The order of a number divides `2 q`, and the part of it that is not `q` divides `2`. -/
theorem sq_eq_one_of_pow_eq_one {x : ZMod p} {e : ℕ} (he : ¬ q ∣ e) (h : x ^ e = 1) :
    x ^ 2 = 1 := by
  have he0 : e ≠ 0 := fun h0 => he (h0 ▸ dvd_zero q)
  have hx : x ≠ 0 := by
    rintro rfl
    exact zero_ne_one ((zero_pow he0).symm.trans h)
  have hdvd : orderOf x ∣ 2 * q := by
    have hcard : p - 1 = 2 * q := by omega
    exact hcard ▸ ZMod.orderOf_dvd_card_sub_one hx
  have hde : orderOf x ∣ e := orderOf_dvd_of_pow_eq_one h
  have hcop : (orderOf x).Coprime q :=
    ((Nat.Prime.coprime_iff_not_dvd hq).mpr fun hqx => he (hqx.trans hde)).symm
  exact orderOf_dvd_iff_pow_eq_one.mp (hcop.dvd_of_dvd_mul_right hdvd)

/-- **A power tells its base up to the sign.** -/
theorem eq_or_eq_neg_of_pow_eq_pow {x y : ZMod p} {e : ℕ} (he : ¬ q ∣ e) (h : x ^ e = y ^ e) :
    x = y ∨ x = -y := by
  have he0 : e ≠ 0 := fun h0 => he (h0 ▸ dvd_zero q)
  by_cases hy : y = 0
  · subst hy
    rw [zero_pow he0] at h
    exact Or.inl (pow_eq_zero_iff he0 |>.mp h)
  · have hquot : (x / y) ^ e = 1 := by
      rw [div_pow, h, div_self (pow_ne_zero e hy)]
    have hsq : x ^ 2 = y ^ 2 := by
      have h2 := sq_eq_one_of_pow_eq_one hp hq he hquot
      rwa [div_pow, div_eq_one_iff_eq (pow_ne_zero 2 hy)] at h2
    exact sq_eq_sq_iff_eq_or_eq_neg.mp hsq

end SafePrime

end HungerGames.Crypto
