/-
# A queue in order of time

A list of entries in the order of their keys, in which a new entry comes after those of its own
key, as in a `std::multimap`.  Which entries there are is all that most arguments need: `enqueue`
adds one, up to the order, and keeps the list sorted, so that the first entry has the least key.
-/
import Mathlib.Data.List.Basic
import Mathlib.Order.Lattice

namespace HungerGames.System

variable {κ α : Type} [LinearOrder κ]

/-- An entry is put after those whose keys are not greater. -/
def enqueue (k : κ) (v : α) : List (κ × α) → List (κ × α)
  | [] => [(k, v)]
  | x :: xs => if x.1 ≤ k then x :: enqueue k v xs else (k, v) :: x :: xs

/-- The keys do not decrease. -/
def InTime (xs : List (κ × α)) : Prop := xs.Pairwise fun x y => x.1 ≤ y.1

theorem enqueue_perm (k : κ) (v : α) : ∀ xs : List (κ × α),
    (enqueue k v xs).Perm ((k, v) :: xs)
  | [] => List.Perm.refl _
  | x :: xs => by
    unfold enqueue
    split
    · exact ((enqueue_perm k v xs).cons x).trans (List.Perm.swap ..)
    · exact List.Perm.refl _

theorem mem_enqueue {k : κ} {v : α} {xs : List (κ × α)} {x : κ × α} :
    x ∈ enqueue k v xs ↔ x = (k, v) ∨ x ∈ xs :=
  (enqueue_perm k v xs).mem_iff.trans List.mem_cons

theorem InTime.enqueue (k : κ) (v : α) : ∀ {xs : List (κ × α)}, InTime xs →
    InTime (enqueue k v xs)
  | [], _ => List.pairwise_singleton _ _
  | x :: xs, h => by
    obtain ⟨hx, hxs⟩ := List.pairwise_cons.mp h
    unfold System.enqueue
    split
    · rename_i hle
      refine List.pairwise_cons.mpr ⟨fun y hy => ?_, InTime.enqueue k v hxs⟩
      rcases mem_enqueue.mp hy with rfl | hmem
      · exact hle
      · exact hx y hmem
    · rename_i hlt
      have hle : k ≤ x.1 := le_of_lt (lt_of_not_ge hlt)
      refine List.pairwise_cons.mpr ⟨fun y hy => ?_, h⟩
      rcases List.mem_cons.mp hy with rfl | hmem
      · exact hle
      · exact le_trans hle (hx y hmem)

/-- An entry is put after a front part whose keys are not greater. -/
theorem enqueue_append {k : κ} {v : α} {ys : List (κ × α)} : ∀ {xs : List (κ × α)},
    (∀ x ∈ xs, x.1 ≤ k) → enqueue k v (xs ++ ys) = xs ++ enqueue k v ys
  | [], _ => rfl
  | x :: xs, h => by
    rw [List.cons_append, System.enqueue, if_pos (h x List.mem_cons_self),
      enqueue_append fun y hy => h y (List.mem_cons_of_mem x hy), List.cons_append]

/-- The first key is the least. -/
theorem InTime.head_le {x : κ × α} {xs : List (κ × α)} (h : InTime (x :: xs)) :
    ∀ y ∈ x :: xs, x.1 ≤ y.1 := by
  intro y hy
  rcases List.mem_cons.mp hy with rfl | hmem
  · exact le_refl _
  · exact (List.pairwise_cons.mp h).1 y hmem

/-- Values may be translated before they are put in, or after. -/
theorem map_enqueue {β : Type} (f : α → β) (k : κ) (v : α) : ∀ xs : List (κ × α),
    (enqueue k v xs).map (fun x => (x.1, f x.2)) =
      enqueue k (f v) (xs.map fun x => (x.1, f x.2))
  | [] => rfl
  | x :: xs => by
    rw [List.map_cons, enqueue, enqueue]
    split
    · rw [List.map_cons, map_enqueue f k v xs]
    · rfl

/-- Entries are put in one after another. -/
def enqueueAll (entries xs : List (κ × α)) : List (κ × α) :=
  entries.foldl (fun xs x => enqueue x.1 x.2 xs) xs

theorem enqueueAll_perm : ∀ entries xs : List (κ × α),
    (enqueueAll entries xs).Perm (entries ++ xs)
  | [], _ => List.Perm.refl _
  | x :: entries, xs => (enqueueAll_perm entries (enqueue x.1 x.2 xs)).trans
      (((enqueue_perm x.1 x.2 xs).append_left entries).trans List.perm_middle)

theorem InTime.enqueueAll : ∀ (entries : List (κ × α)) {xs : List (κ × α)}, InTime xs →
    InTime (enqueueAll entries xs)
  | [], _, h => h
  | x :: entries, _, h => InTime.enqueueAll entries (h.enqueue x.1 x.2)

theorem map_enqueueAll {β : Type} (f : α → β) : ∀ entries xs : List (κ × α),
    (enqueueAll entries xs).map (fun x => (x.1, f x.2)) =
      enqueueAll (entries.map fun x => (x.1, f x.2)) (xs.map fun x => (x.1, f x.2))
  | [], _ => rfl
  | x :: entries, xs => by
    have htail := map_enqueueAll f entries (enqueue x.1 x.2 xs)
    rw [map_enqueue] at htail
    exact htail

/-- What is left after the first entry of a queue that had one put in: the new entry, or the one
that was first. -/
theorem tail_enqueue (k : κ) (v : α) (x : κ × α) (xs : List (κ × α)) :
    (enqueue k v (x :: xs)).tail = if x.1 ≤ k then enqueue k v xs else x :: xs := by
  rw [enqueue]
  split
  · rfl
  · rfl

end HungerGames.System
