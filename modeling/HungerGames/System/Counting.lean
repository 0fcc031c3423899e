/-
# Counting

How many elements of a list without duplicates are as asked, when the answer changes for some of
them; and sums, when one of their terms changes.
-/
import Mathlib.Algebra.GroupWithZero.Nat
import HungerGames.System.SortedMap

namespace HungerGames.System

variable {α : Type} {xs ys : List α} {p q : α → Bool}

/-- The answer changes for some elements, which were not counted. -/
theorem countP_more [DecidableEq α] (hxs : xs.Nodup) (hys : ys.Nodup) (hsub : ∀ y ∈ ys, y ∈ xs)
    (hnew : ∀ y ∈ ys, p y = false) (hq : ∀ x ∈ xs, q x = (p x || decide (x ∈ ys))) :
    xs.countP q = xs.countP p + ys.length := by
  have hperm : (xs.filter fun x => decide (x ∈ ys)).Perm ys := by
    refine (List.perm_ext_iff_of_nodup (hxs.filter _) hys).mpr fun y => ?_
    rw [List.mem_filter, decide_eq_true_iff]
    exact and_iff_right_of_imp (hsub y)
  rw [← hperm.length_eq, ← List.countP_eq_length_filter]
  clear hperm hsub hxs
  induction xs with
  | nil => rfl
  | cons x xs ih =>
    obtain ⟨hx, hrest⟩ := List.forall_mem_cons.mp hq
    rw [List.countP_cons, List.countP_cons, List.countP_cons, ih hrest, hx]
    by_cases hmem : x ∈ ys
    · simp only [hnew x hmem, hmem, decide_true, Bool.or_true, if_true]
      simp only [Bool.false_eq_true, if_false]
      omega
    · simp only [hmem, decide_false, Bool.or_false]
      simp only [Bool.false_eq_true, if_false]
      omega

/-- It changes for one element. -/
theorem countP_one_more {x : α} (hxs : xs.Nodup) (hmem : x ∈ xs) (hp : p x = false)
    (hq : q x = true) (hsame : ∀ y ∈ xs, y ≠ x → q y = p y) :
    xs.countP q = xs.countP p + 1 := by
  classical
  refine countP_more hxs (List.nodup_singleton x) ?_ ?_ fun y hy => ?_
  · exact List.forall_mem_singleton.mpr hmem
  · exact List.forall_mem_singleton.mpr hp
  · by_cases hyx : y = x
    · rw [hyx, hq, hp, decide_eq_true (List.mem_singleton.mpr rfl), Bool.or_true]
    · rw [hsame y hy hyx, decide_eq_false fun h => hyx (List.mem_singleton.mp h), Bool.or_false]

/-- The answer may change for one element, either way. -/
theorem countP_change {x : α} (hxs : xs.Nodup) (hmem : x ∈ xs)
    (hsame : ∀ y ∈ xs, y ≠ x → q y = p y) :
    xs.countP q + (p x).toNat = xs.countP p + (q x).toNat := by
  obtain ⟨before, after, rfl⟩ := List.append_of_mem hmem
  have hnot : x ∉ before ++ after := (List.nodup_cons.mp (List.nodup_middle.mp hxs)).1
  have hrest : (before ++ after).countP q = (before ++ after).countP p := by
    refine List.countP_congr fun y hy => ?_
    rw [hsame y (List.perm_middle.mem_iff.mpr (List.mem_cons_of_mem x hy))
      fun heq => hnot (heq ▸ hy)]
  rw [List.perm_middle.countP_eq, List.perm_middle.countP_eq, List.countP_cons, List.countP_cons,
    hrest]
  cases p x <;> cases q x <;> simp

/-- A sum changes with one of its terms. -/
theorem sum_map_change {f g : α → ℕ} {x : α} (hxs : xs.Nodup) (hmem : x ∈ xs)
    (hsame : ∀ y, y ≠ x → g y = f y) : (xs.map g).sum + f x = (xs.map f).sum + g x := by
  obtain ⟨before, after, rfl⟩ := List.append_of_mem hmem
  have hnot : x ∉ before ++ after := (List.nodup_cons.mp (List.nodup_middle.mp hxs)).1
  have hrest : ∀ ys : List α, x ∉ ys → ys.map g = ys.map f := fun ys hys =>
    List.map_congr_left fun y hy => hsame y (ne_of_mem_of_not_mem hy hys)
  have hbefore := hrest before fun h => hnot (List.mem_append_left _ h)
  have hafter := hrest after fun h => hnot (List.mem_append_right _ h)
  simp only [List.map_append, List.map_cons, List.sum_append, List.sum_cons, hbefore, hafter]
  omega

/-- Two questions that are not both answered. -/
theorem countP_either {r : α → Bool} (hr : ∀ x ∈ xs, r x = (p x || q x))
    (hdisjoint : ∀ x ∈ xs, p x = true → q x = false) :
    xs.countP r = xs.countP p + xs.countP q := by
  induction xs with
  | nil => rfl
  | cons x xs ih =>
    obtain ⟨hx, hr⟩ := List.forall_mem_cons.mp hr
    obtain ⟨hnot, hdisjoint⟩ := List.forall_mem_cons.mp hdisjoint
    rw [List.countP_cons, List.countP_cons, List.countP_cons, ih hr hdisjoint, hx]
    cases hp : p x with
    | true =>
      rw [hnot hp]
      simp only [Bool.or_false, if_true, Bool.false_eq_true, if_false]
      omega
    | false =>
      simp only [Bool.false_or, Bool.false_eq_true, if_false]
      omega

namespace SortedMap

variable {κ : Type} [LinearOrder κ]

/-- A value is replaced, or there is one more. -/
theorem sum_insert (m : SortedMap κ α) (k : κ) (v : α) (f : α → ℕ) :
    ((m.insert k v).values.map f).sum + ((m.lookup k).map f).getD 0 =
      (m.values.map f).sum + f v := by
  obtain ⟨others, hvalues, hinsert, -⟩ := m.values_split k
  rw [((hinsert v).map f).sum_nat, (hvalues.map f).sum_nat]
  cases m.lookup k with
  | none =>
    simp only [Option.map_none, Option.getD_none, Option.toList_none, List.nil_append,
      List.map_cons, List.sum_cons]
    omega
  | some old =>
    simp only [Option.map_some, Option.getD_some, Option.toList_some, List.cons_append,
      List.nil_append, List.map_cons, List.sum_cons]
    omega

theorem mem_values_insert {m : SortedMap κ α} {k : κ} {v w : α}
    (h : w ∈ (m.insert k v).values) : w = v ∨ w ∈ m.values := by
  obtain ⟨⟨k', w'⟩, hmem, rfl⟩ := List.mem_map.mp h
  rcases mem_insert.mp hmem with ⟨-, rfl⟩ | ⟨-, hmem⟩
  · exact Or.inl rfl
  · exact Or.inr (List.mem_map.mpr ⟨_, hmem, rfl⟩)

theorem mem_values {m : SortedMap κ α} {w : α} : w ∈ m.values ↔ ∃ k, m.lookup k = some w := by
  constructor
  · intro h
    obtain ⟨⟨k, w⟩, hmem, rfl⟩ := List.mem_map.mp h
    exact ⟨k, lookup_eq_some.mpr hmem⟩
  · rintro ⟨k, hlookup⟩
    exact List.mem_map.mpr ⟨(k, w), lookup_eq_some.mp hlookup, rfl⟩

end SortedMap

end HungerGames.System
