/-
# Filling places in order

A quantity is put away into places that are offered one after the other.  A place takes what it
has room for, or all that is left, and is not used twice; the filling stops when nothing is left.
Places are of any type, and what may be put at one is told by a relation `offers`.

`Sound` is the invariant of such a filling: distinct places, only what was offered, and the
quantity accounted for.  `pour` walks over a list of places, and `left_pour` says how much it
leaves when none of them was used before: what they have no room for.  `GoesOn` is the invariant of
a filling that goes on from places that were in use before.
-/
import Mathlib.Algebra.BigOperators.Group.List.Basic
import Mathlib.Algebra.GroupWithZero.Nat
import Mathlib.Order.Lattice

namespace HungerGames.System

variable {κ : Type}

/-- What has been put where, in order, and what is left to put away. -/
structure Filling (κ : Type) where
  placed : List (κ × ℕ)
  left : ℕ
  deriving DecidableEq

namespace Filling

variable {f : Filling κ} {offers : κ → ℕ → Prop} {total room : ℕ} {x : κ}

/-- The places in use. -/
def places (f : Filling κ) : List κ := f.placed.map Prod.fst

/-- What has been put away. -/
def amount (f : Filling κ) : ℕ := (f.placed.map Prod.snd).sum

/-- **The invariant of a filling** of `total` units. -/
structure Sound (offers : κ → ℕ → Prop) (total : ℕ) (f : Filling κ) : Prop where
  distinct : f.places.Nodup
  offered : ∀ p ∈ f.placed, offers p.1 p.2
  total : f.amount + f.left = total

theorem Sound.begin (offers : κ → ℕ → Prop) (total : ℕ) : Sound offers total ⟨[], total⟩ where
  distinct := List.nodup_nil
  offered := fun _ hp => absurd hp List.not_mem_nil
  total := Nat.zero_add total

/-- **A filling that goes on** from places that are in use: what is new was offered, and makes
`total` units with what is left. -/
structure GoesOn (begun : List (κ × ℕ)) (offers : κ → ℕ → Prop) (total : ℕ) (f : Filling κ) :
    Prop where
  distinct : f.places.Nodup
  more : ∃ new, f.placed = begun ++ new ∧ (∀ p ∈ new, offers p.1 p.2) ∧
    (new.map Prod.snd).sum + f.left = total

variable {begun : List (κ × ℕ)}

theorem GoesOn.begin (hbegun : (begun.map Prod.fst).Nodup) (offers : κ → ℕ → Prop) (total : ℕ) :
    GoesOn begun offers total ⟨begun, total⟩ where
  distinct := hbegun
  more := ⟨[], (List.append_nil begun).symm, fun _ hp => absurd hp List.not_mem_nil,
    Nat.zero_add total⟩

variable [DecidableEq κ]

/-- Puts what `x` has room for at `x`, unless it is in use. -/
def put (f : Filling κ) (x : κ) (room : ℕ) : Filling κ :=
  if x ∈ f.places then f else ⟨f.placed ++ [(x, min room f.left)], f.left - min room f.left⟩

theorem put_used (hx : x ∈ f.places) : f.put x room = f := if_pos hx

theorem put_new (hx : x ∉ f.places) :
    f.put x room = ⟨f.placed ++ [(x, min room f.left)], f.left - min room f.left⟩ := if_neg hx

theorem places_put (hx : x ∉ f.places) : (f.put x room).places = f.places ++ [x] := by
  simp only [put_new hx, places, List.map_append, List.map_cons, List.map_nil]

theorem left_put (hx : x ∉ f.places) : (f.put x room).left = f.left - room := by
  simp only [put_new hx]
  omega

/-- **A place that offers the room keeps the invariant.** -/
theorem Sound.put (h : Sound offers total f) (hleft : 0 < f.left) (hroom : 0 < room)
    (hoffers : ∀ n, 0 < n → n ≤ room → offers x n) : Sound offers total (f.put x room) := by
  by_cases hx : x ∈ f.places
  · rw [put_used hx]
    exact h
  · refine ⟨?_, ?_, ?_⟩
    · rw [places_put hx]
      exact (List.perm_append_singleton x f.places).nodup_iff.mpr
        (List.nodup_cons.mpr ⟨hx, h.distinct⟩)
    · rw [put_new hx]
      intro p hp
      rcases List.mem_append.mp hp with hp | hp
      · exact h.offered p hp
      · rw [List.mem_singleton.mp hp]
        exact hoffers _ (Nat.lt_min.mpr ⟨hroom, hleft⟩) (Nat.min_le_left _ _)
    · rw [put_new hx]
      have htotal := h.total
      simp only [amount, List.map_append, List.map_cons, List.map_nil, List.sum_append,
        List.sum_cons, List.sum_nil] at htotal ⊢
      omega

/-! ## A walk over a list of places -/

/-- Offers the places of a list in order; `room` is `none` at a place that is passed over. -/
def pour (room : κ → Option ℕ) : List κ → Filling κ → Filling κ
  | [], f => f
  | x :: xs, f =>
    match room x with
    | none => pour room xs f
    | some n =>
      if x ∈ f.places then pour room xs f
      else if (f.put x n).left = 0 then f.put x n else pour room xs (f.put x n)

variable {rooms : κ → Option ℕ}

/-- **What a put at each place keeps**, while something is left, a walk keeps. -/
theorem pour_induction {P : Filling κ → Prop} : ∀ (xs : List κ) {f : Filling κ}, P f → 0 < f.left →
    (∀ g, ∀ x ∈ xs, ∀ n, rooms x = some n → P g → 0 < g.left → P (g.put x n)) →
    P (pour rooms xs f)
  | [], _, h, _, _ => h
  | x :: xs, f, h, hleft, hput => by
    have hrest := fun g y hy => hput g y (List.mem_cons_of_mem x hy)
    unfold Filling.pour
    cases hx : rooms x with
    | none => exact pour_induction xs h hleft hrest
    | some n =>
      have hnext : P (f.put x n) := hput f x List.mem_cons_self n hx h hleft
      dsimp only
      by_cases hused : x ∈ f.places
      · rw [if_pos hused]
        exact pour_induction xs h hleft hrest
      · rw [if_neg hused]
        by_cases hdone : (f.put x n).left = 0
        · rw [if_pos hdone]
          exact hnext
        · rw [if_neg hdone]
          exact pour_induction xs hnext (Nat.pos_of_ne_zero hdone) hrest

/-- **A walk keeps the invariant**, when each place it does not pass over offers its room. -/
theorem Sound.pour (xs : List κ) (h : Sound offers total f) (hleft : 0 < f.left)
    (hoffers : ∀ x ∈ xs, ∀ n, rooms x = some n → 0 < n ∧ ∀ m, 0 < m → m ≤ n → offers x m) :
    Sound offers total (pour rooms xs f) :=
  pour_induction xs h hleft fun _ x hx n hn h hleft =>
    h.put hleft (hoffers x hx n hn).1 (hoffers x hx n hn).2

theorem mem_places_put {y : κ} (hy : y ∈ (f.put x room).places) : y ∈ f.places ∨ y = x := by
  by_cases hx : x ∈ f.places
  · rw [put_used hx] at hy
    exact Or.inl hy
  · rw [places_put hx] at hy
    exact (List.mem_append.mp hy).imp_right List.mem_singleton.mp

/-- The places a walk adds are on its list and not passed over. -/
theorem mem_places_pour {y : κ} : ∀ (xs : List κ) {f : Filling κ},
    y ∈ (pour rooms xs f).places → y ∈ f.places ∨ (y ∈ xs ∧ rooms y ≠ none)
  | [], _, hy => Or.inl hy
  | x :: xs, f, hy => by
    have hrest : ∀ {g : Filling κ}, y ∈ (pour rooms xs g).places →
        y ∈ g.places ∨ (y ∈ x :: xs ∧ rooms y ≠ none) := fun hy =>
      (mem_places_pour xs hy).imp_right fun h => ⟨List.mem_cons_of_mem x h.1, h.2⟩
    unfold Filling.pour at hy
    cases hx : rooms x with
    | none =>
      rw [hx] at hy
      exact hrest hy
    | some n =>
      rw [hx] at hy
      dsimp only at hy
      have hnew : y ∈ (f.put x n).places → y ∈ f.places ∨ (y ∈ x :: xs ∧ rooms y ≠ none) :=
        fun hy => (mem_places_put hy).imp_right fun heq => by
          rw [heq, hx]
          exact ⟨List.mem_cons_self, Option.some_ne_none n⟩
      by_cases hused : x ∈ f.places
      · rw [if_pos hused] at hy
        exact hrest hy
      · rw [if_neg hused] at hy
        by_cases hdone : (f.put x n).left = 0
        · rw [if_pos hdone] at hy
          exact hnew hy
        · rw [if_neg hdone] at hy
          exact (hrest hy).elim hnew Or.inr

/-- The room that the places of a list have. -/
def roomIn (rooms : κ → Option ℕ) (xs : List κ) : ℕ := (xs.map fun x => (rooms x).getD 0).sum

/-- **What a walk leaves** when none of its places is in use before it: something is left only
when every place has taken all it has room for. -/
theorem left_pour : ∀ (xs : List κ) {f : Filling κ}, xs.Nodup →
    (∀ x ∈ xs, rooms x ≠ none → x ∉ f.places) → (pour rooms xs f).left ≠ 0 →
    (pour rooms xs f).left + roomIn rooms xs = f.left
  | [], _, _, _, _ => rfl
  | x :: xs, f, hnodup, hnew, hleft => by
    obtain ⟨hx, hnodup⟩ := List.nodup_cons.mp hnodup
    have hnew' := fun y hy => hnew y (List.mem_cons_of_mem x hy)
    unfold Filling.pour at hleft ⊢
    simp only [roomIn, List.map_cons, List.sum_cons]
    cases hroom : rooms x with
    | none =>
      rw [hroom] at hleft
      have ih := left_pour xs hnodup hnew' hleft
      simp only [roomIn] at ih
      simp only [Option.getD_none]
      omega
    | some n =>
      rw [hroom] at hleft
      have hfree : x ∉ f.places :=
        hnew x List.mem_cons_self (by rw [hroom]; exact Option.some_ne_none n)
      dsimp only at hleft ⊢
      rw [if_neg hfree] at hleft ⊢
      by_cases hdone : (f.put x n).left = 0
      · rw [if_pos hdone] at hleft
        exact absurd hdone hleft
      · rw [if_neg hdone] at hleft ⊢
        have hnext : ∀ y ∈ xs, rooms y ≠ none → y ∉ (f.put x n).places := fun y hy hsome hused =>
          (mem_places_put hused).elim (hnew' y hy hsome) fun heq => hx (heq ▸ hy)
        have ih := left_pour xs hnodup hnext hleft
        have hput : (f.put x n).left = f.left - n := left_put hfree
        simp only [roomIn] at ih
        simp only [Option.getD_some]
        omega

/-! ## Going on from what is placed already -/

theorem GoesOn.put (h : GoesOn begun offers total f) (hleft : 0 < f.left) (hroom : 0 < room)
    (hoffers : ∀ n, 0 < n → n ≤ room → offers x n) : GoesOn begun offers total (f.put x room) := by
  by_cases hx : x ∈ f.places
  · rw [put_used hx]
    exact h
  · obtain ⟨new, hplaced, hoffered, htotal⟩ := h.more
    refine ⟨?_, new ++ [(x, min room f.left)], ?_, fun p hp => ?_, ?_⟩
    · rw [places_put hx]
      exact (List.perm_append_singleton x f.places).nodup_iff.mpr
        (List.nodup_cons.mpr ⟨hx, h.distinct⟩)
    · rw [put_new hx, hplaced, List.append_assoc]
    · rcases List.mem_append.mp hp with hp | hp
      · exact hoffered p hp
      · rw [List.mem_singleton.mp hp]
        exact hoffers _ (Nat.lt_min.mpr ⟨hroom, hleft⟩) (Nat.min_le_left _ _)
    · rw [put_new hx]
      simp only [List.map_append, List.map_cons, List.map_nil, List.sum_append, List.sum_cons,
        List.sum_nil]
      omega

/-- **A walk that goes on**, when each place it does not pass over offers its room. -/
theorem GoesOn.pour (xs : List κ) (h : GoesOn begun offers total f) (hleft : 0 < f.left)
    (hoffers : ∀ x ∈ xs, ∀ n, rooms x = some n → 0 < n ∧ ∀ m, 0 < m → m ≤ n → offers x m) :
    GoesOn begun offers total (pour rooms xs f) :=
  pour_induction xs h hleft fun _ x hx n hn h hleft =>
    h.put hleft (hoffers x hx n hn).1 (hoffers x hx n hn).2

end Filling

end HungerGames.System
