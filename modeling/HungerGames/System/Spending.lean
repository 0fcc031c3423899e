/-
# Spending out of stacks

An amount is taken out of stacks, from the first one on: a stack goes as a whole while no more than
the amount is spent with it.  A place may have no stack.  `SpentWhole` names the stacks that go,
`Bounded` says that the sums up to the amount stay below a bound; the lemmas take both apart along
the list.
-/
import Mathlib.Algebra.GroupWithZero.Nat

namespace HungerGames.System

variable {α : Type} {f g : α → Option ℕ} {x : α} {xs ys : List α} {c n s bound : ℕ}

/-- What there is at some places. -/
def amountOf (f : α → Option ℕ) (xs : List α) : ℕ := (xs.map fun x => (f x).getD 0).sum

/-- There is no stack at any of them. -/
def NoStack (f : α → Option ℕ) (xs : List α) : Prop := ∀ x ∈ xs, f x = none

/-- Some stack is needed as a whole for an amount, of which `s` is spent before. -/
def SpentWhole (f : α → Option ℕ) (n s : ℕ) (xs : List α) (x : α) : Prop :=
  ∃ before after c, xs = before ++ x :: after ∧ f x = some c ∧
    (NoStack f before ∨ s + amountOf f before < n) ∧ s + amountOf f before + c ≤ n

/-- No sum passes a bound before it passes the amount. -/
def Bounded (f : α → Option ℕ) (n bound s : ℕ) (xs : List α) : Prop :=
  ∀ before x after c, xs = before ++ x :: after → f x = some c → s + amountOf f before < n →
    s + amountOf f before + c < bound

/-- Some sum, counted modulo a bound, comes to the amount. -/
def Reaches (f : α → Option ℕ) (n bound s : ℕ) (xs : List α) : Prop :=
  ∃ before x after c, xs = before ++ x :: after ∧ f x = some c ∧
    n ≤ (s + amountOf f before + c) % bound

@[simp] theorem amountOf_nil : amountOf f [] = 0 := rfl

@[simp] theorem amountOf_cons : amountOf f (x :: xs) = (f x).getD 0 + amountOf f xs := by
  unfold amountOf
  rw [List.map_cons, List.sum_cons]

@[simp] theorem amountOf_append : amountOf f (xs ++ ys) = amountOf f xs + amountOf f ys := by
  unfold amountOf
  rw [List.map_append, List.sum_append]

theorem amountOf_perm (h : xs.Perm ys) : amountOf f xs = amountOf f ys := (h.map _).sum_nat

theorem amountOf_congr (h : ∀ x ∈ xs, f x = g x) : amountOf f xs = amountOf g xs := by
  unfold amountOf
  rw [List.map_congr_left fun x hx => by rw [h x hx]]

theorem amountOf_le (h : ∀ x ∈ xs, (f x).getD 0 ≤ (g x).getD 0) :
    amountOf f xs ≤ amountOf g xs := by
  induction xs with
  | nil => exact Nat.le_refl 0
  | cons x xs ih =>
    obtain ⟨hx, hxs⟩ := List.forall_mem_cons.mp h
    rw [amountOf_cons, amountOf_cons]
    exact Nat.add_le_add hx (ih hxs)

theorem NoStack.amountOf (h : NoStack f xs) : amountOf f xs = 0 := by
  induction xs with
  | nil => rfl
  | cons x xs ih =>
    obtain ⟨hx, hxs⟩ := List.forall_mem_cons.mp h
    rw [amountOf_cons, hx, ih hxs]
    rfl

theorem noStack_cons : NoStack f (x :: xs) ↔ f x = none ∧ NoStack f xs := List.forall_mem_cons

/-! ## Along the list -/

/-- Where a list splits: at its head, or further on. -/
theorem cons_eq_append {y : α} {P : List α → List α → Prop} :
    (∃ before after, x :: xs = before ++ y :: after ∧ P before after) ↔
      (x = y ∧ P [] xs) ∨ ∃ before after, xs = before ++ y :: after ∧ P (x :: before) after := by
  constructor
  · rintro ⟨before, after, heq, h⟩
    cases before with
    | nil =>
      cases heq
      exact Or.inl ⟨rfl, h⟩
    | cons z before =>
      cases heq
      exact Or.inr ⟨before, after, rfl, h⟩
  · rintro (⟨rfl, h⟩ | ⟨before, after, rfl, h⟩)
    · exact ⟨[], xs, rfl, h⟩
    · exact ⟨x :: before, after, rfl, h⟩

theorem spentWhole_iff {y : α} : SpentWhole f n s xs y ↔ ∃ before after, xs = before ++ y :: after ∧
    ∃ c, f y = some c ∧ (NoStack f before ∨ s + amountOf f before < n) ∧
      s + amountOf f before + c ≤ n := by
  constructor
  · rintro ⟨before, after, c, heq, h⟩
    exact ⟨before, after, heq, c, h⟩
  · rintro ⟨before, after, heq, c, h⟩
    exact ⟨before, after, c, heq, h⟩

theorem spentWhole_cons_none {y : α} (hx : f x = none) :
    SpentWhole f n s (x :: xs) y ↔ SpentWhole f n s xs y := by
  rw [spentWhole_iff, spentWhole_iff, cons_eq_append]
  simp only [noStack_cons, amountOf_cons, hx, Option.getD_none, Nat.zero_add, true_and]
  refine or_iff_right ?_
  rintro ⟨rfl, c, hc, -⟩
  rw [hx] at hc
  cases hc

theorem spentWhole_cons_some {y : α} (hx : f x = some c) : SpentWhole f n s (x :: xs) y ↔
    (x = y ∧ s + c ≤ n) ∨ (s + c < n ∧ SpentWhole f n (s + c) xs y) := by
  rw [spentWhole_iff, spentWhole_iff, cons_eq_append]
  simp only [noStack_cons, amountOf_cons, hx, Option.getD_some, reduceCtorEq, false_and, false_or,
    ← Nat.add_assoc]
  refine or_congr (and_congr_right ?_) ?_
  · rintro rfl
    constructor
    · rintro ⟨c', hc', -, hle⟩
      cases hx.symm.trans hc'
      exact hle
    · exact fun hle => ⟨c, hx, Or.inl fun z hz => absurd hz List.not_mem_nil, hle⟩
  · constructor
    · rintro ⟨before, after, rfl, c', hc', hlt, hle⟩
      exact ⟨by omega, before, after, rfl, c', hc', Or.inr hlt, hle⟩
    · rintro ⟨hlt, before, after, rfl, c', hc', hbefore, hle⟩
      refine ⟨before, after, rfl, c', hc', ?_, hle⟩
      rcases hbefore with hnone | hlt'
      · rw [hnone.amountOf]
        exact hlt
      · exact hlt'

theorem reaches_cons_none (hx : f x = none) :
    Reaches f n bound s (x :: xs) ↔ Reaches f n bound s xs := by
  constructor
  · rintro ⟨before, y, after, c, heq, hc, hle⟩
    cases before with
    | nil =>
      cases heq
      rw [hx] at hc
      cases hc
    | cons z before =>
      cases heq
      rw [amountOf_cons, hx, Option.getD_none, Nat.zero_add] at hle
      exact ⟨before, y, after, c, rfl, hc, hle⟩
  · rintro ⟨before, y, after, c, rfl, hc, hle⟩
    refine ⟨x :: before, y, after, c, rfl, hc, ?_⟩
    rwa [amountOf_cons, hx, Option.getD_none, Nat.zero_add]

theorem reaches_cons_some (hx : f x = some c) : Reaches f n bound s (x :: xs) ↔
    n ≤ (s + c) % bound ∨ Reaches f n bound (s + c) xs := by
  constructor
  · rintro ⟨before, y, after, d, heq, hd, hle⟩
    cases before with
    | nil =>
      cases heq
      obtain rfl := Option.some.inj (hx.symm.trans hd)
      exact Or.inl hle
    | cons z before =>
      cases heq
      rw [amountOf_cons, hx, Option.getD_some, ← Nat.add_assoc] at hle
      exact Or.inr ⟨before, y, after, d, rfl, hd, hle⟩
  · rintro (hle | ⟨before, y, after, d, rfl, hd, hle⟩)
    · exact ⟨[], x, xs, c, rfl, hx, hle⟩
    · refine ⟨x :: before, y, after, d, rfl, hd, ?_⟩
      rwa [amountOf_cons, hx, Option.getD_some, ← Nat.add_assoc]

/-- What is reached is there. -/
theorem Reaches.le (h : Reaches f n bound s xs) : n ≤ s + amountOf f xs ∧ ¬NoStack f xs := by
  obtain ⟨before, y, after, d, rfl, hd, hle⟩ := h
  refine ⟨?_, fun hnone => ?_⟩
  · have hmod := Nat.mod_le (s + amountOf f before + d) bound
    rw [amountOf_append, amountOf_cons, hd, Option.getD_some]
    omega
  · rw [hnone y (List.mem_append_right _ List.mem_cons_self)] at hd
    cases hd

/-- What is there is reached, if it stays below the bound. -/
theorem reaches_of_lt : ∀ {xs : List α} {s : ℕ}, ¬NoStack f xs → s + amountOf f xs < bound →
    n ≤ s + amountOf f xs → Reaches f n bound s xs
  | [], _, hsome, _, _ => absurd (fun _ hx => absurd hx List.not_mem_nil) hsome
  | x :: xs, s, hsome, hlt, hle => by
    cases hx : f x with
    | none =>
      rw [amountOf_cons, hx, Option.getD_none, Nat.zero_add] at hlt hle
      rw [reaches_cons_none hx]
      exact reaches_of_lt (fun hnone => hsome (noStack_cons.mpr ⟨hx, hnone⟩)) hlt hle
    | some c =>
      rw [amountOf_cons, hx, Option.getD_some, ← Nat.add_assoc] at hlt hle
      rw [reaches_cons_some hx]
      by_cases hnone : NoStack f xs
      · rw [hnone.amountOf, Nat.add_zero] at hlt hle
        rw [Nat.mod_eq_of_lt hlt]
        exact Or.inl hle
      · exact Or.inr (reaches_of_lt hnone hlt hle)

theorem SpentWhole.mem {y : α} (h : SpentWhole f n s xs y) : y ∈ xs := by
  obtain ⟨before, after, -, rfl, -⟩ := h
  exact List.mem_append_right before List.mem_cons_self

theorem SpentWhole.congr {y : α} (h : ∀ x ∈ xs, f x = g x) (hspent : SpentWhole f n s xs y) :
    SpentWhole g n s xs y := by
  obtain ⟨before, after, c, rfl, hc, hbefore, hle⟩ := hspent
  have hsame : ∀ x ∈ before, f x = g x := fun x hx => h x (List.mem_append_left _ hx)
  refine ⟨before, after, c, rfl, ?_, ?_, ?_⟩
  · rw [← h y (List.mem_append_right _ List.mem_cons_self)]
    exact hc
  · rw [← amountOf_congr hsame]
    exact hbefore.imp_left fun hnone x hx => (hsame x hx).symm.trans (hnone x hx)
  · rwa [← amountOf_congr hsame]

theorem Bounded.congr (h : ∀ x ∈ xs, f x = g x) (hbounded : Bounded f n bound s xs) :
    Bounded g n bound s xs := by
  rintro before x after c rfl hc hlt
  have hsame : ∀ x ∈ before, f x = g x := fun x hx => h x (List.mem_append_left _ hx)
  rw [← amountOf_congr hsame] at hlt ⊢
  refine hbounded before x after c rfl ?_ hlt
  rw [h x (List.mem_append_right _ List.mem_cons_self)]
  exact hc

theorem Bounded.head (h : Bounded f n bound s (x :: xs)) (hx : f x = some c) (hs : s < n) :
    s + c < bound := h [] x xs c rfl hx hs

theorem Bounded.tail (h : Bounded f n bound s (x :: xs)) :
    Bounded f n bound (s + (f x).getD 0) xs := by
  rintro before y after c rfl hc hlt
  have hat := h (x :: before) y after c rfl hc
  rw [amountOf_cons, ← Nat.add_assoc] at hat
  exact hat hlt

theorem Bounded.left (h : Bounded f n bound s (xs ++ ys)) : Bounded f n bound s xs := by
  rintro before x after c rfl hc hlt
  exact h before x (after ++ ys) c (by simp) hc hlt

theorem Bounded.right (h : Bounded f n bound s (xs ++ ys)) :
    Bounded f n bound (s + amountOf f xs) ys := by
  rintro before x after c rfl hc hlt
  have hat := h (xs ++ before) x after c (by simp) hc
  rw [amountOf_append, ← Nat.add_assoc] at hat
  exact hat hlt

end HungerGames.System
