/-
# Vectors of bits that grow

A vector of bits has a size and a capacity.  Resizing within the capacity moves nothing; past
it, the vector is given a new capacity, of which only a lower bound is known: how much more it
is given is a parameter.  A bit outside the vector cannot be written.

`Marked` says which set of numbers the bits that are on stand for, and the lemmas how resizing
and writing change the set.
-/
import Mathlib.Data.Finset.Insert
import Mathlib.Data.Finset.Erase

namespace HungerGames.System

structure Bits where
  bits : List Bool
  capacity : ℕ
  fits : bits.length ≤ capacity

namespace Bits

def empty : Bits := ⟨[], 0, le_refl 0⟩

def size (v : Bits) : ℕ := v.bits.length

/-- The bits after a resize: new ones are off. -/
def resized (bits : List Bool) (n : ℕ) : List Bool :=
  bits.take n ++ List.replicate (n - bits.length) false

theorem length_resized (bits : List Bool) (n : ℕ) : (resized bits n).length = n := by
  unfold resized
  rw [List.length_append, List.length_take, List.length_replicate]
  omega

/-- `grow` is asked for a capacity by the old size and the new one, and given at least the new
size. -/
def resize (grow : ℕ → ℕ → ℕ) (v : Bits) (n : ℕ) : Bits where
  bits := resized v.bits n
  capacity := if n ≤ v.capacity then v.capacity else max n (grow v.size n)
  fits := by
    rw [length_resized]
    split
    · assumption
    · exact le_max_left _ _

def read (v : Bits) (i : ℕ) : Option Bool := v.bits[i]?

def write (v : Bits) (i : ℕ) (b : Bool) : Option Bits :=
  if i < v.size then
    some ⟨v.bits.set i b, v.capacity, by rw [List.length_set]; exact v.fits⟩
  else none

@[simp] theorem size_resize (grow : ℕ → ℕ → ℕ) (v : Bits) (n : ℕ) : (v.resize grow n).size = n :=
  length_resized v.bits n

variable {i : ℕ} {v : Bits}

theorem read_isSome : (v.read i).isSome ↔ i < v.size :=
  iff_of_eq (isSome_getElem? v.bits i)

theorem read_lt {b : Bool} (h : v.read i = some b) : i < v.size :=
  read_isSome.mp (h ▸ rfl)

/-- Growing keeps the bits that are on, and turns none on. -/
theorem read_resize_true (grow : ℕ → ℕ → ℕ) {n : ℕ} (h : v.size ≤ n) :
    (v.resize grow n).read i = some true ↔ v.read i = some true := by
  change (resized v.bits n)[i]? = some true ↔ v.bits[i]? = some true
  unfold resized
  rw [List.take_of_length_le h]
  by_cases hi : i < v.bits.length
  · rw [List.getElem?_append_left hi]
  · rw [List.getElem?_append_right (not_lt.mp hi), List.getElem?_eq_none (not_lt.mp hi),
      List.getElem?_replicate]
    split
    · exact iff_of_false (fun h => Bool.false_ne_true (Option.some.inj h)) nofun
    · exact Iff.rfl

theorem write_spec {v' : Bits} {b : Bool} (h : v.write i b = some v') :
    i < v.size ∧ v'.bits = v.bits.set i b ∧ v'.capacity = v.capacity := by
  unfold write at h
  by_cases hi : i < v.size
  · rw [if_pos hi] at h
    obtain rfl := Option.some.inj h
    exact ⟨hi, rfl, rfl⟩
  · rw [if_neg hi] at h
    cases h

theorem read_write {v' : Bits} {b : Bool} (h : v.write i b = some v') (j : ℕ) :
    v'.read j = if j = i then some b else v.read j := by
  obtain ⟨hi, hbits, -⟩ := write_spec h
  unfold read
  rw [hbits, List.getElem?_set]
  by_cases hj : j = i
  · rw [if_pos hj.symm, if_pos hj, if_pos (show i < v.bits.length from hi)]
  · rw [if_neg (Ne.symm hj), if_neg hj]

theorem size_write {v' : Bits} {b : Bool} (h : v.write i b = some v') :
    v'.size = v.size ∧ v'.capacity = v.capacity := by
  obtain ⟨-, hbits, hcapacity⟩ := write_spec h
  refine ⟨?_, hcapacity⟩
  unfold size
  rw [hbits, List.length_set]

theorem write_of_lt (b : Bool) (h : i < v.size) : ∃ v', v.write i b = some v' :=
  ⟨_, if_pos h⟩

/-- **The bits that are on** are those of a set. -/
def Marked (v : Bits) (marks : Finset ℕ) : Prop := ∀ i, v.read i = some true ↔ i ∈ marks

theorem marked_empty : empty.Marked ∅ := fun i =>
  iff_of_false (fun h => Nat.not_lt_zero i (read_lt h)) (Finset.notMem_empty i)

variable {marks : Finset ℕ}

theorem Marked.lt_size (h : v.Marked marks) (hi : i ∈ marks) : i < v.size :=
  read_lt ((h i).mpr hi)

/-- A bit of the vector that is off stands for a number outside the set. -/
theorem Marked.free_iff (h : v.Marked marks) (i : ℕ) :
    (i < v.size ∧ v.read i = some false ∨ v.size ≤ i) ↔ i ∉ marks := by
  rw [← h i]
  by_cases hi : i < v.size
  · obtain ⟨b, hb⟩ := Option.isSome_iff_exists.mp (read_isSome.mpr hi)
    rw [hb]
    cases b with
    | false => simp [hi]
    | true => simp [hi]
  · have hnone : v.read i = none := List.getElem?_eq_none (not_lt.mp hi)
    simp [hnone, not_lt.mp hi]

theorem Marked.resize (h : v.Marked marks) (grow : ℕ → ℕ → ℕ) {n : ℕ} (hn : v.size ≤ n) :
    (v.resize grow n).Marked marks :=
  fun i => (read_resize_true grow hn).trans (h i)

theorem Marked.mark {v' : Bits} (h : v.Marked marks) (hwrite : v.write i true = some v') :
    v'.Marked (insert i marks) := by
  intro j
  rw [read_write hwrite, Finset.mem_insert, ← h j]
  by_cases hj : j = i
  · simp [hj]
  · simp [hj]

theorem Marked.unmark {v' : Bits} (h : v.Marked marks) (hwrite : v.write i false = some v') :
    v'.Marked (marks.erase i) := by
  intro j
  rw [read_write hwrite, Finset.mem_erase, ← h j]
  by_cases hj : j = i
  · simp [hj]
  · simp [hj]

end Bits

end HungerGames.System
