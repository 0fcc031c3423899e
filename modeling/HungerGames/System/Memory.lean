/-
# Memory

A block of memory is a list of cells.  Cells are read and written at an offset, a few at a time,
and only inside of the block.  A block may be written from its start, each piece where the one
before it ended, and there must be room for it (`write_filled`).  What is there already may be gone
over, each part being replaced by one of its length (`pass_eq`).
-/
import Mathlib.Algebra.BigOperators.Group.List.Basic
import Mathlib.Algebra.GroupWithZero.Nat

namespace HungerGames.System.Memory

variable {β : Type}

/-- The cells at an offset. -/
def slice (block : List β) (offset count : ℕ) : Option (List β) :=
  if offset + count ≤ block.length then some ((block.drop offset).take count) else none

/-- The cells at an offset are replaced. -/
def put (block : List β) (offset : ℕ) (cells : List β) : Option (List β) :=
  if offset + cells.length ≤ block.length then
    some (block.take offset ++ cells ++ block.drop (offset + cells.length))
  else none

theorem slice_append {before cells after : List β} {offset count : ℕ}
    (hoffset : before.length = offset) (hcount : cells.length = count) :
    slice (before ++ cells ++ after) offset count = some cells := by
  subst hoffset hcount
  unfold slice
  rw [if_pos (by simp)]
  simp

theorem slice_of_le {block : List β} {offset count : ℕ} (h : offset + count ≤ block.length) :
    slice block offset count = some ((block.drop offset).take count) := if_pos h

theorem put_append {before cells cells' after : List β} {offset : ℕ}
    (hoffset : before.length = offset) (hcells : cells.length = cells'.length) :
    put (before ++ cells ++ after) offset cells' = some (before ++ cells' ++ after) := by
  subst hoffset
  unfold put
  have hle : before.length + cells'.length ≤ (before ++ cells ++ after).length := by
    simp only [List.length_append]
    omega
  have hdrop : (before ++ cells ++ after).drop (before.length + cells'.length) = after := by
    rw [← hcells, ← List.length_append, List.drop_left]
  rw [if_pos hle, hdrop, List.append_assoc before cells after, List.take_left]

/-! ## Writing from the start -/

/-- A block, and where the next piece goes. -/
structure Tape (β : Type) where
  block : List β
  offset : ℕ

/-- A piece is written, and the offset moves on in a number with a limit. -/
def Tape.write (limit : ℕ) (t : Tape β) (piece : List β) : Option (Tape β) :=
  (put t.block t.offset piece).map fun block => ⟨block, (t.offset + piece.length) % limit⟩

/-- The tape with some cells written, of a block that had others. -/
def Tape.filled (block written : List β) : Tape β :=
  ⟨written ++ block.drop written.length, written.length⟩

variable {limit : ℕ} {block written : List β}

/-- **A piece is written where there is room for it**, and after what was written before. -/
theorem write_filled (hlimit : block.length < limit) (hwritten : written.length ≤ block.length)
    (piece : List β) : (Tape.filled block written).write limit piece =
      if written.length + piece.length ≤ block.length then
        some (Tape.filled block (written ++ piece))
      else none := by
  unfold Tape.write Tape.filled put
  have hlength : (written ++ block.drop written.length).length = block.length := by
    rw [List.length_append, List.length_drop]
    omega
  dsimp only
  rw [hlength]
  by_cases hroom : written.length + piece.length ≤ block.length
  · have hdrop : (written ++ block.drop written.length).drop (written.length + piece.length) =
        block.drop (written.length + piece.length) := by
      rw [← List.drop_drop, List.drop_left, List.drop_drop]
    rw [if_pos hroom, if_pos hroom, List.take_left, hdrop, Option.map_some, List.length_append,
      Nat.mod_eq_of_lt (by omega)]
  · rw [if_neg hroom, if_neg hroom]
    rfl

/-! ## Going over what is there -/

/-- **A pass over a block** of which each step turns one part into another, and goes on to the next
part, turns all parts. -/
theorem pass_eq {ε α : Type} {f : Tape β → α → Except ε (Tape β)} {old new : α → List β}
    (limit : ℕ) : ∀ (xs : List α), (∀ x ∈ xs, (old x).length = (new x).length) →
      (∀ x ∈ xs, ∀ before after, (before ++ old x ++ after).length < limit →
        f ⟨before ++ old x ++ after, before.length⟩ x =
          .ok ⟨before ++ new x ++ after, (before ++ new x).length⟩) →
      ∀ before after, (before ++ xs.flatMap old ++ after).length < limit →
        xs.foldlM f ⟨before ++ xs.flatMap old ++ after, before.length⟩ =
          .ok ⟨before ++ xs.flatMap new ++ after, (before ++ xs.flatMap new).length⟩
  | [], _, _, before, after, _ => by
    simp only [List.flatMap_nil, List.append_nil]
    rfl
  | x :: xs, hlength, hstep, before, after, hlimit => by
    have hx : before ++ (x :: xs).flatMap old ++ after =
        before ++ old x ++ (xs.flatMap old ++ after) := by
      simp only [List.flatMap_cons, List.append_assoc]
    have hnext : before ++ new x ++ (xs.flatMap old ++ after) =
        before ++ new x ++ xs.flatMap old ++ after := by
      simp only [List.append_assoc]
    have hlimit' : (before ++ new x ++ xs.flatMap old ++ after).length < limit := by
      have hxx := hlength x List.mem_cons_self
      simp only [List.flatMap_cons, List.length_append] at hlimit ⊢
      omega
    rw [List.foldlM_cons, hx, hstep x List.mem_cons_self before _ (hx ▸ hlimit), hnext]
    change xs.foldlM f ⟨before ++ new x ++ xs.flatMap old ++ after, (before ++ new x).length⟩ = _
    rw [pass_eq limit xs (fun y hy => hlength y (List.mem_cons_of_mem x hy))
      (fun y hy => hstep y (List.mem_cons_of_mem x hy)) (before ++ new x) after hlimit']
    simp only [List.flatMap_cons, List.append_assoc]

/-- The parts of a block that are all of one size. -/
theorem slice_flatMap {g : ℕ → List β} {size n : ℕ} (hsize : ∀ y < n, (g y).length = size)
    (after : List β) {y : ℕ} (hy : y < n) :
    slice ((List.range n).flatMap g ++ after) (y * size) size = some (g y) := by
  have hlength : ((List.range y).flatMap g).length = y * size := by
    have hmap : (List.range y).map (fun z => (g z).length) = (List.range y).map fun _ => size :=
      List.map_congr_left fun z hz => hsize z (Nat.lt_trans (List.mem_range.mp hz) hy)
    rw [List.length_flatMap, hmap, List.map_const', List.length_range, List.sum_replicate_nat]
  obtain ⟨m, rfl⟩ : ∃ m, n = y + 1 + m := ⟨n - (y + 1), by omega⟩
  have hsplit : (List.range (y + 1 + m)).flatMap g ++ after = (List.range y).flatMap g ++ g y ++
      (((List.range m).map (y + 1 + ·)).flatMap g ++ after) := by
    rw [List.range_add, List.range_succ]
    simp only [List.flatMap_append, List.flatMap_cons, List.flatMap_nil, List.append_nil,
      List.append_assoc]
  rw [hsplit]
  exact slice_append hlength (hsize y hy)

end HungerGames.System.Memory
