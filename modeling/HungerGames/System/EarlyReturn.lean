/-
# Procedures that may return early

A procedure with return statements in its middle is a chain in `Except ε`: `.error e` is an early
return of `e`, and `.ok a` goes on with `a`.  `Ensures done next` is a postcondition with two
sides, one for the returns and one for the runs that go on; the rules below take a chain apart
statement by statement.
-/

namespace HungerGames.System

variable {ε α β : Type}

/-- What returns early satisfies `done`, and what goes on satisfies `next`. -/
def Ensures (done : ε → Prop) (next : α → Prop) : Except ε α → Prop
  | .error e => done e
  | .ok a => next a

namespace Ensures

variable {done : ε → Prop} {next next' : α → Prop} {last : β → Prop}

theorem pure {a : α} (h : next a) : Ensures done next (.ok a) := h

theorem throw {e : ε} (h : done e) : Ensures (α := α) done next (.error e) := h

/-- **The rule of the semicolon.** -/
theorem bind {x : Except ε α} {f : α → Except ε β} (hx : Ensures done next x)
    (hf : ∀ a, next a → Ensures done last (f a)) : Ensures done last (x >>= f) := by
  cases x with
  | error e => exact hx
  | ok a => exact hf a hx

theorem mono {x : Except ε α} (hx : Ensures done next x) (h : ∀ a, next a → next' a) :
    Ensures done next' x := by
  cases x with
  | error e => exact hx
  | ok a => exact h a hx

/-- **The rule of the branch.** -/
theorem ite {p : Prop} [Decidable p] {x y : Except ε α} (hx : p → Ensures done next x)
    (hy : ¬ p → Ensures done next y) : Ensures done next (if p then x else y) := by
  by_cases hp : p
  · rw [if_pos hp]
    exact hx hp
  · rw [if_neg hp]
    exact hy hp

/-- **The rule of the loop**: a body that keeps `next` at every element keeps it over the list. -/
theorem foldlM {body : α → β → Except ε α} :
    ∀ (xs : List β) {a : α}, next a →
      (∀ x ∈ xs, ∀ a, next a → Ensures done next (body a x)) →
      Ensures done next (xs.foldlM body a)
  | [], _, ha, _ => ha
  | x :: xs, a, ha, hbody => by
    rw [List.foldlM_cons]
    refine bind (hbody x List.mem_cons_self a ha) fun a' ha' => ?_
    exact foldlM xs ha' fun y hy => hbody y (List.mem_cons_of_mem x hy)

end Ensures

end HungerGames.System
