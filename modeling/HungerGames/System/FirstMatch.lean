/-
# The first element that is found

Loops over a list often end at the first element with some property, which is then changed or
erased.  Both take a list apart at the same place.
-/
import Mathlib.Data.List.Basic

namespace HungerGames.System

variable {α β : Type} {p : α → Bool} {xs : List α} {x : α}

/-- The change is made where nothing before is found. -/
theorem modify_findIdx_append {f : α → α} {before after : List α}
    (hbefore : ∀ y ∈ before, p y = false) (hx : p x = true) :
    (before ++ x :: after).modify ((before ++ x :: after).findIdx p) f = before ++ f x :: after := by
  induction before with
  | nil =>
    rw [List.nil_append, List.findIdx_cons, hx, cond_true]
    rfl
  | cons y ys ih =>
    obtain ⟨hy, hys⟩ := List.forall_mem_cons.mp hbefore
    rw [List.cons_append, List.findIdx_cons, hy, cond_false, List.modify_succ_cons, ih hys]
    rfl

/-- **Where the first element is found**: it is erased there, or changed. -/
theorem find_split (h : xs.find? p = some x) : ∃ before after,
    xs = before ++ x :: after ∧ p x = true ∧ (∀ y ∈ before, p y = false) ∧
      xs.eraseP p = before ++ after ∧ ∀ f, xs.modify (xs.findIdx p) f = before ++ f x :: after := by
  obtain ⟨hx, before, after, rfl, hnot⟩ := List.find?_eq_some_iff_append.mp h
  have hbefore : ∀ y ∈ before, p y = false := fun y hy =>
    (Bool.not_eq_true' _).mp (hnot y hy)
  refine ⟨before, after, rfl, hx, hbefore, ?_, fun f => modify_findIdx_append hbefore hx⟩
  rw [List.eraseP_append_right _ fun y hy => Bool.eq_false_iff.mp (hbefore y hy),
    List.eraseP_cons_of_pos hx]

/-- The element, and the others. -/
theorem perm_eraseP (h : xs.find? p = some x) : xs.Perm (x :: xs.eraseP p) := by
  obtain ⟨before, after, hxs, -, -, herase, -⟩ := find_split h
  rw [herase, hxs]
  exact List.perm_middle

/-- Where the element is changed, each other is as it was. -/
theorem mem_modify_findIdx {f : α → α} (h : x ∈ xs) :
    x ∈ xs.modify (xs.findIdx p) f ∨ p x = true ∧ f x ∈ xs.modify (xs.findIdx p) f := by
  cases hfind : xs.find? p with
  | none =>
    have hidx : xs.findIdx p = xs.length :=
      List.findIdx_eq_length.mpr fun y hy => Bool.eq_false_iff.mpr (List.find?_eq_none.mp hfind y hy)
    rw [hidx, List.modify_eq_self (Nat.le_refl _)]
    exact Or.inl h
  | some y =>
    obtain ⟨before, after, hxs, hy, -, -, hmodify⟩ := find_split hfind
    rw [hmodify]
    rw [hxs] at h
    rcases List.mem_append.mp h with h | h
    · exact Or.inl (List.mem_append_left _ h)
    · rcases List.mem_cons.mp h with rfl | h
      · exact Or.inr ⟨hy, List.mem_append_right _ List.mem_cons_self⟩
      · exact Or.inl (List.mem_append_right _ (List.mem_cons_of_mem _ h))

/-- A change, when it is known what it does to some data of each element. -/
theorem map_modify {f : α → α} {g : α → β} {k : β → β} (h : ∀ x, g (f x) = k (g x)) (i : ℕ)
    (xs : List α) : (xs.modify i f).map g = (xs.map g).modify i k := by
  refine List.ext_getElem? fun j => ?_
  rw [List.getElem?_map, List.getElem?_modify, List.getElem?_modify, List.getElem?_map]
  cases xs[j]? with
  | none => rfl
  | some x =>
    refine congrArg some ?_
    split
    · exact h x
    · rfl

/-- A change that keeps some data of each element. -/
theorem map_modify_of_eq {f : α → α} {g : α → β} (h : ∀ x, g (f x) = g x) (i : ℕ) (xs : List α) :
    (xs.modify i f).map g = xs.map g := by
  rw [map_modify (k := id) h, List.modify_id]

end HungerGames.System
