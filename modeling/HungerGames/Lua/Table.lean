/-
# Lua tables with positional keys

The scripts keep every list in a Lua table: they append with `table.insert`, delete by
assigning `nil`, remove a position with `table.remove`, count with `#` and traverse with
`pairs`.  This module models the part of a table those operations see, its positive integer
keys, as a list of slots in which `none` is `nil`.

Two operations are not functions of the contents.  `#t` is only promised to be a BORDER of
`t` (an index whose slot is occupied and whose successor is not, or `0`), and a table with
holes has several; `pairs` visits every occupied slot once, in an order the language leaves
open.  Both depend on how the table happens to be laid out in memory (`luaH_getn` and
`luaH_next` in `ltable.c`).  `Layout` is one resolution of that freedom, and everything below
is stated for every layout.  Beyond borders and permutations a layout owes one thing: a table
whose keys were assigned in the order `1 .. n`, with none removed, is traversed in that order,
because such a table lives in the array part.
-/
import Mathlib.Algebra.Order.Ring.Int
import Mathlib.Data.List.Perm.Basic
import Mathlib.Data.List.Nodup
import Mathlib.Data.List.Count

namespace HungerGames.Lua

open scoped List

/-! ## 1. Slots -/

/-- The positive integer keys of a Lua table: entry `i` of `slots` is `t[i + 1]`. -/
structure Table (α : Type) where
  slots : List (Option α)
deriving DecidableEq, Repr

namespace Table

variable {α : Type}

/-- The table constructor `{x, y, z}`. -/
def ofList (xs : List α) : Table α := ⟨xs.map some⟩

/-- `{}` -/
def empty : Table α := ⟨[]⟩

/-- `t[k]` -/
def get (t : Table α) : ℕ → Option α
  | 0 => none
  | k + 1 => (t.slots[k]?).join

/-- `t[k] = v`, where `none` is `nil`.  Assigning past the end leaves `nil`s in between. -/
def set (t : Table α) : ℕ → Option α → Table α
  | 0, _ => t
  | k + 1, v =>
    if k < t.slots.length then ⟨t.slots.set k v⟩
    else ⟨t.slots ++ List.replicate (k - t.slots.length) none ++ [v]⟩

/-- The values of the table, in key order. -/
def values (t : Table α) : List α := t.slots.filterMap id

/-- The occupied keys, in increasing order. -/
def keys (t : Table α) : List ℕ :=
  (List.range' 1 t.slots.length).filter fun k => (t.get k).isSome

/-- How often a value stands in the table. -/
def count [DecidableEq α] (t : Table α) (x : α) : ℕ := t.slots.count (some x)

@[simp] theorem get_zero (t : Table α) : t.get 0 = none := rfl

theorem get_succ (t : Table α) (k : ℕ) : t.get (k + 1) = (t.slots[k]?).join := rfl

theorem set_succ (t : Table α) (k : ℕ) (v : Option α) :
    t.set (k + 1) v = if k < t.slots.length then ⟨t.slots.set k v⟩
      else ⟨t.slots ++ List.replicate (k - t.slots.length) none ++ [v]⟩ := rfl

@[simp] theorem get_empty (k : ℕ) : (empty : Table α).get k = none := by
  cases k <;> simp [get, empty]

variable {k : ℕ}

/-- No key is `0`. -/
theorem ne_zero_of_get {t : Table α} {x : α} (h : t.get k = some x) : k ≠ 0 := by
  rintro rfl
  exact absurd h (by simp)

/-- Only slots within the list are occupied. -/
theorem lt_of_get {t : Table α} {x : α} (h : t.get (k + 1) = some x) : k < t.slots.length := by
  by_contra hk
  rw [get_succ, List.getElem?_eq_none (by omega)] at h
  exact absurd h (by simp)

theorem get_set_self (t : Table α) (k : ℕ) (v : Option α) : (t.set (k + 1) v).get (k + 1) = v := by
  rw [set_succ]
  split
  · rename_i h
    simp [get_succ, h]
  · rename_i h
    have hk : (t.slots ++ List.replicate (k - t.slots.length) none).length = k := by
      simp; omega
    rw [get_succ]
    rw [List.getElem?_append_right (by omega), hk]
    simp

theorem get_set_ne (t : Table α) {j : ℕ} (v : Option α) (hne : j ≠ k) :
    (t.set k v).get j = t.get j := by
  cases k with
  | zero => rfl
  | succ k =>
    cases j with
    | zero => simp
    | succ j =>
      have hjk : k ≠ j := fun h => hne (by omega)
      rw [set_succ]
      split
      · simp [get_succ, List.getElem?_set_ne hjk]
      · rename_i h
        rw [get_succ, get_succ]
        rcases Nat.lt_or_ge j t.slots.length with hj | hj
        · rw [List.append_assoc, List.getElem?_append_left hj]
        · rw [List.getElem?_eq_none hj, List.append_assoc, List.getElem?_append_right hj]
          rcases Nat.lt_or_ge (j - t.slots.length) (k - t.slots.length) with hr | hr
          · rw [List.getElem?_append_left (by simpa using hr)]
            simp [hr]
          · rw [List.getElem?_append_right (by simpa using hr),
              List.getElem?_eq_none (by simp; omega)]

/-- Reading after an assignment, at any two keys. -/
theorem get_set (t : Table α) (hk : k ≠ 0) (v : Option α) (j : ℕ) :
    (t.set k v).get j = if j = k then v else t.get j := by
  split
  · rename_i h
    subst h
    obtain ⟨k, rfl⟩ := Nat.exists_eq_succ_of_ne_zero hk
    exact get_set_self t k v
  · rename_i h
    exact get_set_ne t v h

theorem mem_keys {t : Table α} : k ∈ t.keys ↔ (t.get k).isSome := by
  unfold keys
  rw [List.mem_filter]
  refine ⟨fun h => h.2, fun h => ⟨?_, h⟩⟩
  cases k with
  | zero => simp at h
  | succ k =>
    obtain ⟨x, hx⟩ := Option.isSome_iff_exists.mp h
    have := lt_of_get hx
    rw [List.mem_range'_1]
    omega

theorem nodup_keys (t : Table α) : t.keys.Nodup :=
  List.Nodup.filter _ List.nodup_range'

/-! ## 2. Counting -/

theorem mem_values {t : Table α} {x : α} : x ∈ t.values ↔ ∃ k, t.get k = some x := by
  have hsome : x ∈ t.values ↔ some x ∈ t.slots := by simp [values]
  rw [hsome, List.mem_iff_getElem?]
  constructor
  · rintro ⟨k, hk⟩
    exact ⟨k + 1, by rw [get_succ, hk]; rfl⟩
  · rintro ⟨k, hk⟩
    cases k with
    | zero => simp at hk
    | succ k =>
      refine ⟨k, ?_⟩
      have hlt := lt_of_get hk
      rw [get_succ, List.getElem?_eq_getElem hlt] at hk
      rw [List.getElem?_eq_getElem hlt]
      simpa using hk

section Count

variable [DecidableEq α]

theorem count_eq_values_count (t : Table α) (x : α) : t.count x = t.values.count x := by
  unfold count values
  induction t.slots with
  | nil => rfl
  | cons o l ih =>
    cases o with
    | none => simpa [List.count_cons] using ih
    | some y => simp [List.count_cons, ih]

theorem count_pos_iff {t : Table α} {x : α} : 0 < t.count x ↔ ∃ k, t.get k = some x := by
  rw [count_eq_values_count, List.count_pos_iff, mem_values]

theorem count_eq_zero_iff {t : Table α} {x : α} : t.count x = 0 ↔ ∀ k, t.get k ≠ some x := by
  have := count_pos_iff (t := t) (x := x)
  constructor
  · intro h k hk
    exact absurd (this.mpr ⟨k, hk⟩) (by omega)
  · intro h
    by_contra hc
    obtain ⟨k, hk⟩ := this.mp (by omega)
    exact h k hk

@[simp] theorem count_ofList (xs : List α) (x : α) : (ofList xs).count x = xs.count x := by
  simp only [count, ofList]
  exact List.count_map_of_injective xs some (fun _ _ h => Option.some.inj h) x

/-- **What one assignment does to the counts**: the old occupant leaves, the new one
arrives.  Stated without subtraction, so that `omega` can use it. -/
theorem count_set (t : Table α) (hk : k ≠ 0) (v : Option α) (x : α) :
    (t.set k v).count x + (if t.get k = some x then 1 else 0)
      = t.count x + (if v = some x then 1 else 0) := by
  obtain ⟨k, rfl⟩ := Nat.exists_eq_succ_of_ne_zero hk
  rw [set_succ]
  unfold count
  split
  · rename_i h
    have hget : t.get (k + 1) = t.slots[k] := by simp [get_succ, h]
    have hle : (if t.slots[k] = some x then 1 else 0) ≤ t.slots.count (some x) := by
      split
      · rename_i hx
        exact List.count_pos_iff.mpr (hx ▸ List.getElem_mem h)
      · exact Nat.zero_le _
    rw [hget]
    have := List.count_set (l := t.slots) (a := v) (b := some x) h
    simp only [beq_iff_eq] at this
    simp only [this]
    omega
  · rename_i h
    have hget : t.get (k + 1) = none := by
      rw [get_succ, List.getElem?_eq_none (by omega)]; rfl
    rw [hget]
    by_cases hv : v = some x
    · simp [hv, List.count_append, List.count_replicate]
    · simp [List.count_append, List.count_replicate, hv]

/-- A value stands in the table once when exactly one key has it. -/
theorem count_eq_one_iff {t : Table α} {x : α} :
    t.count x = 1 ↔ ∃ i, t.get i = some x ∧ ∀ j, t.get j = some x → j = i := by
  have hdrop : ∀ i, t.get i = some x → (t.set i none).count x + 1 = t.count x := by
    intro i hi
    have hi0 : i ≠ 0 := fun h => by
      rw [h] at hi
      simp at hi
    simpa [hi] using count_set t hi0 none x
  constructor
  · intro h
    obtain ⟨i, hi⟩ := count_pos_iff.mp (by omega : 0 < t.count x)
    refine ⟨i, hi, fun j hj => ?_⟩
    by_contra hne
    have hzero := count_eq_zero_iff.mp (by have := hdrop i hi; omega : (t.set i none).count x = 0)
    exact hzero j (by rw [get_set_ne t none hne, hj])
  · rintro ⟨i, hi, honce⟩
    have hi0 : i ≠ 0 := fun h => by
      rw [h] at hi
      simp at hi
    have hzero : (t.set i none).count x = 0 := count_eq_zero_iff.mpr fun j hj => by
      rw [get_set t hi0] at hj
      split at hj
      · exact absurd hj (by simp)
      · rename_i hne
        exact hne (honce j hj)
    have := hdrop i hi
    omega

end Count

/-! ## 3. Borders and layouts -/

/-- `j` is a border of a table whose occupied keys are `ks`. -/
def IsBorder (ks : List ℕ) (j : ℕ) : Prop := (j = 0 ∨ j ∈ ks) ∧ j + 1 ∉ ks

/-- The smallest border: count up while the next key is occupied. -/
def leastBorder (ks : List ℕ) : ℕ → ℕ → ℕ
  | 0, j => j
  | fuel + 1, j => if j + 1 ∈ ks then leastBorder ks fuel (j + 1) else j

end Table

/-- Which table an operation is about: two tables with the same keys may be laid out
differently. -/
inductive Site where
  /-- a local table, its keys assigned in increasing order and none removed -/
  | built
  /-- any other table, told apart by a number -/
  | named (n : ℕ)
deriving DecidableEq

/-- One resolution of what Lua leaves to the memory layout. -/
structure Layout where
  /-- `#t`, from the occupied keys of `t` -/
  len : Site → List ℕ → ℕ
  len_border : ∀ site ks, Table.IsBorder ks (len site ks)
  /-- the order in which `pairs` visits the occupied keys -/
  next : Site → List ℕ → List ℕ
  next_perm : ∀ site ks, (next site ks).Perm ks
  next_built : ∀ n, next .built (List.range' 1 n) = List.range' 1 n

namespace Table

variable {α : Type}

theorem leastBorder_isBorder (ks : List ℕ) :
    ∀ (fuel j : ℕ), (j = 0 ∨ j ∈ ks) → (∀ k ∈ ks, k ≤ j + fuel) →
      IsBorder ks (leastBorder ks fuel j)
  | 0, j, hj, hall => ⟨hj, fun h => absurd (hall (j + 1) h) (by omega)⟩
  | fuel + 1, j, hj, hall => by
    unfold leastBorder
    split
    · rename_i h
      exact leastBorder_isBorder ks fuel (j + 1) (Or.inr h)
        (fun k hk => by have := hall k hk; omega)
    · rename_i h
      exact ⟨hj, h⟩

/-- `#t` -/
def length (L : Layout) (site : Site) (t : Table α) : ℕ := L.len site t.keys

/-- The pairs `pairs(t)` yields. -/
def pairs (L : Layout) (site : Site) (t : Table α) : List (ℕ × α) :=
  (L.next site t.keys).filterMap fun k => (t.get k).map fun x => (k, x)

/-- `#t` is a border: its own slot is occupied (unless it is `0`), the next is not. -/
theorem length_border (L : Layout) (site : Site) (t : Table α) :
    (t.length L site = 0 ∨ (t.get (t.length L site)).isSome) ∧ t.get (t.length L site + 1) = none := by
  obtain ⟨h1, h2⟩ := L.len_border site t.keys
  refine ⟨h1.imp id mem_keys.mp, ?_⟩
  rw [mem_keys] at h2
  exact Option.not_isSome_iff_eq_none.mp h2

theorem mem_pairs {L : Layout} {site : Site} {t : Table α} {k : ℕ} {x : α} :
    (k, x) ∈ t.pairs L site ↔ t.get k = some x := by
  unfold pairs
  simp only [List.mem_filterMap, Option.map_eq_some_iff, Prod.mk.injEq]
  constructor
  · rintro ⟨k', -, x', hx, rfl, rfl⟩
    exact hx
  · intro h
    exact ⟨k, (L.next_perm site t.keys).mem_iff.mpr (mem_keys.mpr (by simp [h])), x, h, rfl, rfl⟩

/-- `pairs` visits every occupied key exactly once. -/
theorem map_fst_pairs (L : Layout) (site : Site) (t : Table α) :
    (t.pairs L site).map Prod.fst = L.next site t.keys := by
  have h : ∀ ks : List ℕ, (∀ k ∈ ks, (t.get k).isSome) →
      (ks.filterMap fun k => (t.get k).map fun x => (k, x)).map Prod.fst = ks := by
    intro ks
    induction ks with
    | nil => intro _; rfl
    | cons k ks ih =>
      intro hks
      obtain ⟨x, hx⟩ := Option.isSome_iff_exists.mp (hks k List.mem_cons_self)
      rw [List.filterMap_cons_some (b := (k, x)) (by rw [hx]; rfl), List.map_cons,
        ih fun j hj => hks j (List.mem_cons_of_mem _ hj)]
  exact h _ fun k hk => mem_keys.mp ((L.next_perm site t.keys).mem_iff.mp hk)

theorem nodup_map_fst_pairs (L : Layout) (site : Site) (t : Table α) :
    ((t.pairs L site).map Prod.fst).Nodup := by
  rw [map_fst_pairs]
  exact (L.next_perm site t.keys).nodup_iff.mpr t.nodup_keys

/-- Deleting entries leaves no more values of a kind, in whatever order both are visited. -/
theorem countP_pairs_le {L : Layout} {site : Site} {t t' : Table α} {f f' : α → Bool}
    (hsub : ∀ i x, t'.get i = some x → t.get i = some x)
    (hf : ∀ i x, t'.get i = some x → f' x = true → f x = true) :
    ((t'.pairs L site).map Prod.snd).countP f' ≤ ((t.pairs L site).map Prod.snd).countP f := by
  have hnd : (t'.pairs L site).Nodup := (nodup_map_fst_pairs L site t').of_map
  have hle : (t'.pairs L site).Subperm (t.pairs L site) :=
    List.subperm_of_subset hnd fun ix hix => mem_pairs.mpr (hsub _ _ (mem_pairs.mp hix))
  rw [List.countP_map, List.countP_map]
  calc (t'.pairs L site).countP (f' ∘ Prod.snd)
      ≤ (t'.pairs L site).countP (f ∘ Prod.snd) :=
        List.countP_mono_left fun ix hix hx => hf _ _ (mem_pairs.mp hix) hx
    _ ≤ (t.pairs L site).countP (f ∘ Prod.snd) := hle.countP_le _

/-! ## 4. `table.insert` and `table.remove` -/

/-- `table.insert(t, x)`: assign one past a border. -/
def insert (L : Layout) (site : Site) (t : Table α) (x : α) : Table α :=
  t.set (t.length L site + 1) (some x)

/-- The loop of `tremove`: `n` slots, from `pos` on, each take their successor's value, and
the slot behind them becomes `nil`. -/
def shiftDown (t : Table α) : ℕ → ℕ → Table α
  | 0, pos => t.set pos none
  | n + 1, pos => shiftDown (t.set pos (t.get (pos + 1))) n (pos + 1)

/-- `table.remove(t, pos)`; `none` is the error "position out of bounds". -/
def remove (L : Layout) (site : Site) (t : Table α) (pos : ℤ) : Option (Table α) :=
  let size : ℤ := t.length L site
  if pos ≠ size ∧ ¬ (1 ≤ pos ∧ pos ≤ size + 1) then none
  else some (shiftDown t (size - pos).toNat pos.toNat)

/-- Inserting never overwrites: the slot behind a border is free. -/
theorem get_insert (L : Layout) (site : Site) (t : Table α) (x : α) (k : ℕ) :
    (t.insert L site x).get k = if k = t.length L site + 1 then some x else t.get k :=
  get_set t (Nat.succ_ne_zero _) (some x) k

theorem count_insert [DecidableEq α] (L : Layout) (site : Site) (t : Table α) (x y : α) :
    (t.insert L site x).count y = t.count y + (if x = y then 1 else 0) := by
  have h := count_set t (Nat.succ_ne_zero (t.length L site)) (some x) y
  have hfree := (length_border L site t).2
  rw [Nat.succ_eq_add_one, hfree] at h
  simpa [insert] using h

/-- **The loop drops exactly the value at `pos`.** -/
theorem count_shiftDown [DecidableEq α] (x : α) :
    ∀ (n pos : ℕ) (t : Table α), pos ≠ 0 →
      (shiftDown t n pos).count x + (if t.get pos = some x then 1 else 0) = t.count x
  | 0, pos, t, hpos => by
    have h := count_set t hpos none x
    simpa [shiftDown] using h
  | n + 1, pos, t, hpos => by
    have ih := count_shiftDown x n (pos + 1) (t.set pos (t.get (pos + 1))) (Nat.succ_ne_zero pos)
    have hnext : (t.set pos (t.get (pos + 1))).get (pos + 1) = t.get (pos + 1) :=
      get_set_ne t _ (Nat.succ_ne_self pos)
    rw [hnext] at ih
    have h := count_set t hpos (t.get (pos + 1)) x
    rw [shiftDown]
    omega

/-- **`table.remove` drops exactly the value at its position**, whatever holes the table
has: when the position is one past the border there is nothing there. -/
theorem count_remove [DecidableEq α] {L : Layout} {site : Site} {t t' : Table α} {pos : ℤ}
    (h : t.remove L site pos = some t') (x : α) :
    t'.count x + (if t.get pos.toNat = some x then 1 else 0) = t.count x := by
  unfold remove at h
  simp only at h
  split at h
  · exact absurd h (by simp)
  · rename_i hin
    rw [Option.some.injEq] at h
    subst h
    by_cases hpos : pos.toNat = 0
    · have hz : (t.length L site : ℤ) - pos = 0 := by omega
      rw [hz, hpos]
      simp [shiftDown, set]
    · exact count_shiftDown x _ _ t hpos

/-! ## 5. Sequences

On a table with the keys `1 .. n` the only border is `n`. -/

theorem get_ofList (xs : List α) (k : ℕ) : (ofList xs).get (k + 1) = xs[k]? := by
  simp only [get_succ, ofList, List.getElem?_map]
  cases xs[k]? <;> rfl

theorem keys_ofList (xs : List α) : (ofList xs).keys = List.range' 1 xs.length := by
  have hlen : (ofList xs).slots.length = xs.length := by simp [ofList]
  unfold keys
  rw [hlen, List.filter_eq_self]
  intro k hk
  obtain ⟨h1, h2⟩ := List.mem_range'_1.mp hk
  obtain ⟨j, rfl⟩ := Nat.exists_eq_add_of_le' h1
  rw [get_ofList, List.getElem?_eq_getElem (by omega)]
  rfl

/-- Reading the keys in order gives the list back. -/
theorem map_get_ofList (xs : List α) :
    (List.range' 1 xs.length).map (ofList xs).get = xs.map some := by
  refine List.ext_getElem (by simp) fun j h1 h2 => ?_
  have hj : j < xs.length := by simpa using h2
  simp only [List.getElem_map, List.getElem_range', Nat.one_mul]
  rw [Nat.add_comm, get_ofList, List.getElem?_eq_getElem hj]

theorem length_ofList (L : Layout) (site : Site) (xs : List α) :
    (ofList xs).length L site = xs.length := by
  obtain ⟨h1, h2⟩ := L.len_border site (ofList xs).keys
  unfold length
  generalize L.len site (ofList xs).keys = n at h1 h2
  rw [keys_ofList, List.mem_range'_1] at h1 h2
  omega

theorem values_pairs_ofList (L : Layout) (xs : List α) :
    ((ofList xs).pairs L .built).map Prod.snd = xs := by
  unfold pairs
  rw [keys_ofList, L.next_built, List.map_filterMap]
  have h : (fun k => ((ofList xs).get k |>.map fun x => (k, x)).map Prod.snd)
      = id ∘ (ofList xs).get := by
    funext k
    show _ = (ofList xs).get k
    cases (ofList xs).get k <;> rfl
  rw [h, ← List.filterMap_map, map_get_ofList]
  simp

theorem mapM_get_ofList (xs : List α) :
    (List.range' 1 xs.length).mapM (ofList xs).get = some xs := by
  have hmapM : ∀ (ks : List ℕ) (ys : List α), ks.map (ofList xs).get = ys.map some →
      ks.mapM (ofList xs).get = some ys := by
    intro ks
    induction ks with
    | nil => intro ys h; cases ys <;> simp_all
    | cons k ks ih =>
      intro ys h
      cases ys with
      | nil => simp at h
      | cons y ys =>
        rw [List.map_cons, List.map_cons, List.cons.injEq] at h
        rw [List.mapM_cons, h.1, ih ys h.2]
        rfl
  exact hmapM _ _ (map_get_ofList xs)

/-- Assigning one past the end extends the list. -/
theorem set_ofList (xs : List α) (y : α) :
    (ofList xs).set (xs.length + 1) (some y) = ofList (xs ++ [y]) := by
  rw [set_succ, if_neg (by simp [ofList])]
  simp [ofList]

/-- The position `table.remove` accepts is within the border, or is one past it and free. -/
theorem le_length_of_remove {L : Layout} {site : Site} {t t' : Table α} {pos : ℤ}
    (h : t.remove L site pos = some t') :
    pos ≤ t.length L site ∨ t.get pos.toNat = none := by
  by_cases hle : pos ≤ t.length L site
  · exact Or.inl hle
  · right
    unfold remove at h
    simp only at h
    split at h
    · exact absurd h (by simp)
    · rename_i hin
      have hpos : pos.toNat = t.length L site + 1 := by omega
      rw [hpos]
      exact (length_border L site t).2

/-! ## 6. Rewriting every entry

The keys stay, and with them everything that depends on the keys alone. -/

section Map

variable {β : Type} (f : α → β) (t : Table α)

/-- Rewrite every value. -/
def map : Table β := ⟨t.slots.map (Option.map f)⟩

@[simp] theorem get_map (k : ℕ) : (t.map f).get k = (t.get k).map f := by
  cases k with
  | zero => rfl
  | succ k =>
    simp only [get_succ, map, List.getElem?_map]
    cases t.slots[k]? <;> rfl

@[simp] theorem keys_map : (t.map f).keys = t.keys := by
  unfold keys
  simp only [get_map, Option.isSome_map]
  simp [map]

@[simp] theorem length_map (L : Layout) (site : Site) : (t.map f).length L site = t.length L site := by
  unfold length
  rw [keys_map]

/-- Rewriting that changes no entry. -/
theorem map_eq_self {f : α → α} {t : Table α} (h : ∀ x ∈ t.values, f x = x) : t.map f = t := by
  unfold map
  congr 1
  refine (List.map_congr_left fun v hv => ?_).trans (List.map_id t.slots)
  cases v with
  | none => rfl
  | some x => exact congrArg some (h x (List.mem_filterMap.mpr ⟨some x, hv, rfl⟩))

theorem pairs_map (L : Layout) (site : Site) :
    (t.map f).pairs L site = (t.pairs L site).map fun kx => (kx.1, f kx.2) := by
  unfold pairs
  rw [keys_map, List.map_filterMap]
  congr 1
  funext k
  rw [get_map]
  cases t.get k <;> rfl

theorem set_map (k : ℕ) (v : Option α) : (t.map f).set k (v.map f) = (t.set k v).map f := by
  cases k with
  | zero => rfl
  | succ k =>
    simp only [set_succ, map, List.length_map]
    split
    · rw [List.map_set]
    · simp

theorem insert_map (L : Layout) (site : Site) (x : α) :
    (t.map f).insert L site (f x) = (t.insert L site x).map f := by
  unfold insert
  rw [length_map]
  exact set_map f t _ (some x)

end Map

end Table

/-! ## 7. The plainest layout -/

theorem le_foldr_max : ∀ (ks : List ℕ), ∀ k ∈ ks, k ≤ ks.foldr max 0
  | [], _, h => absurd h (by simp)
  | a :: ks, k, h => by
    rcases List.mem_cons.mp h with rfl | h
    · exact Nat.le_max_left _ _
    · exact (le_foldr_max ks k h).trans (Nat.le_max_right _ _)

/-- The layout in which `#` is always the smallest border and `pairs` goes by increasing
key. -/
def Layout.plain : Layout where
  len _ ks := Table.leastBorder ks (ks.foldr max 0) 0
  len_border _ ks := Table.leastBorder_isBorder ks _ 0 (Or.inl rfl)
    fun k hk => by rw [Nat.zero_add]; exact le_foldr_max ks k hk
  next _ ks := ks
  next_perm _ ks := List.Perm.refl ks
  next_built _ := rfl

end HungerGames.Lua
