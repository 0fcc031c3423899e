/-
# Arithmetic on machine words, with its faults

A computation on machine words has no value when it divides by zero; otherwise it has one, and it
may have wrapped on the way: an unsigned word keeps only its low bits.  `Arith α` records both, so
that one definition says what a program computes and whether it left its types in doing so.

* `Exact m v`: the computation yields `v` and never wrapped;
* `value_bind`, `exact_bind`: both take a computation apart step by step.
-/
import Mathlib.Algebra.Group.Nat.Defs
import Mathlib.Order.Lattice

namespace HungerGames.System

variable {α β : Type}

/-- A computation on machine words: its value, unless it divides by zero, and whether an operation
left its type. -/
structure Arith (α : Type) where
  value : Option α
  wraps : Bool
deriving DecidableEq

namespace Arith

def bind (m : Arith α) (f : α → Arith β) : Arith β :=
  match m.value with
  | none => ⟨none, m.wraps⟩
  | some a => ⟨(f a).value, m.wraps || (f a).wraps⟩

instance : Monad Arith where
  pure a := ⟨some a, false⟩
  bind := bind

/-! ## 1. The operations -/

/-- A result is put into an unsigned word of 32 bits. -/
def uint32 (n : ℕ) : Arith ℕ := ⟨some (n % 2 ^ 32), decide (2 ^ 32 ≤ n)⟩

/-- A remainder. -/
def mod (a b : ℕ) : Arith ℕ := ⟨if b = 0 then none else some (a % b), false⟩

/-! ## 2. The values -/

@[simp] theorem value_pure (a : α) : (pure a : Arith α).value = some a := rfl

@[simp] theorem value_bind (m : Arith α) (f : α → Arith β) :
    (m >>= f).value = m.value.bind fun a => (f a).value := by
  change (Arith.bind m f).value = _
  unfold Arith.bind
  cases m.value <;> rfl

/-! ## 3. Computations without a fault -/

/-- **The computation yields `v`, and no operation left its type.** -/
structure Exact (m : Arith α) (v : α) : Prop where
  value : m.value = some v
  unwrapped : m.wraps = false

@[simp] theorem exact_pure {a v : α} : Exact (pure a) v ↔ a = v :=
  ⟨fun h => Option.some.inj h.value, fun h => ⟨congrArg some h, rfl⟩⟩

@[simp] theorem exact_bind {m : Arith α} {f : α → Arith β} {v : β} :
    Exact (m >>= f) v ↔ ∃ a, Exact m a ∧ Exact (f a) v := by
  constructor
  · rintro ⟨hvalue, hwraps⟩
    change (Arith.bind m f).value = _ at hvalue
    change (Arith.bind m f).wraps = _ at hwraps
    unfold Arith.bind at hvalue hwraps
    cases hm : m.value with
    | none =>
      rw [hm] at hvalue
      cases hvalue
    | some a =>
      rw [hm] at hvalue hwraps
      obtain ⟨hfirst, hrest⟩ := Bool.or_eq_false_iff.mp hwraps
      exact ⟨a, ⟨hm, hfirst⟩, ⟨hvalue, hrest⟩⟩
  · rintro ⟨a, hm, hf⟩
    refine ⟨?_, ?_⟩
    · rw [value_bind, hm.value]
      exact hf.value
    · change (Arith.bind m f).wraps = _
      unfold Arith.bind
      rw [hm.value]
      exact Bool.or_eq_false_iff.mpr ⟨hm.unwrapped, hf.unwrapped⟩

@[simp] theorem exact_uint32 {n v : ℕ} : Exact (uint32 n) v ↔ n = v ∧ n < 2 ^ 32 := by
  constructor
  · rintro ⟨hvalue, hwraps⟩
    have hlt : n < 2 ^ 32 := Nat.lt_of_not_le (of_decide_eq_false hwraps)
    exact ⟨(Nat.mod_eq_of_lt hlt).symm.trans (Option.some.inj hvalue), hlt⟩
  · rintro ⟨rfl, hlt⟩
    exact ⟨congrArg some (Nat.mod_eq_of_lt hlt), decide_eq_false (Nat.not_le_of_lt hlt)⟩

@[simp] theorem exact_mod {a b v : ℕ} : Exact (mod a b) v ↔ b ≠ 0 ∧ a % b = v := by
  constructor
  · rintro ⟨hvalue, -⟩
    by_cases hb : b = 0
    · rw [mod, if_pos hb] at hvalue
      cases hvalue
    · rw [mod, if_neg hb] at hvalue
      exact ⟨hb, Option.some.inj hvalue⟩
  · rintro ⟨hb, rfl⟩
    exact ⟨if_neg hb, rfl⟩

end Arith

end HungerGames.System
