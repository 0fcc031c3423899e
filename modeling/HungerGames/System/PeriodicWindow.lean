/-
# Windows that open once a period

A window of length `L` opens at the start of every period of length `P`: a time lies in it when
its phase, the remainder by `P`, is below `L`.  `untilChange` is what is left until the window
closes or, outside of it, until it opens again, and nothing changes before.
-/
import Mathlib.Algebra.Group.Nat.Defs
import Mathlib.Order.Lattice

namespace HungerGames.System

/-- The time left in the window, or until the next one. -/
def untilChange (P L x : ℕ) : ℕ := if x % P < L then L - x % P else P - x % P

/-- The phase goes on by one until the period is over. -/
theorem phase_add {P x d : ℕ} (h : x % P + d < P) : (x + d) % P = x % P + d := by
  rw [Nat.add_mod, Nat.mod_eq_of_lt (by omega : d < P), Nat.mod_eq_of_lt h]

/-- **Until its next change the window is as it is now.** -/
theorem window_add {P L x d : ℕ} (hP : 0 < P) (h : d < untilChange P L x) :
    (x + d) % P < L ↔ x % P < L := by
  have hlt := Nat.mod_lt x hP
  unfold untilChange at h
  by_cases hin : x % P < L
  · rw [if_pos hin] at h
    refine iff_of_true ?_ hin
    by_cases hover : x % P + d < P
    · rw [phase_add hover]
      omega
    · -- the window is longer than the period: every phase lies in it
      have := Nat.mod_lt (x + d) hP
      omega
  · rw [if_neg hin] at h
    refine iff_of_false ?_ hin
    rw [phase_add (by omega)]
    omega

end HungerGames.System
