/-
# Sorted maps

A map that is gone through by increasing keys: a list of entries in this order, each key once.
Inserting replaces the value of a key that is there.  The lemmas say what the entries, the keys
and the number of entries are after an operation.
-/
import Mathlib.Data.List.Nodup
import Mathlib.Order.Lattice

namespace HungerGames.System

variable {κ α β : Type} [LinearOrder κ]

structure SortedMap (κ α : Type) [LinearOrder κ] where
  entries : List (κ × α)
  sorted : entries.Pairwise fun x y => x.1 < y.1

/-- The entry of a key is replaced, or put where it belongs. -/
def insertEntry (k : κ) (v : α) : List (κ × α) → List (κ × α)
  | [] => [(k, v)]
  | x :: xs =>
    if k < x.1 then (k, v) :: x :: xs
    else if k = x.1 then (k, v) :: xs
    else x :: insertEntry k v xs

variable {k : κ}

theorem mem_of_mem_insertEntry {v : α} {xs : List (κ × α)} {y : κ × α}
    (h : y ∈ insertEntry k v xs) : y = (k, v) ∨ y ∈ xs := by
  induction xs with
  | nil => exact Or.inl (List.mem_singleton.mp h)
  | cons x xs ih =>
    unfold insertEntry at h
    split at h
    · exact List.mem_cons.mp h
    · split at h
      · rcases List.mem_cons.mp h with rfl | h
        · exact Or.inl rfl
        · exact Or.inr (List.mem_cons_of_mem x h)
      · rcases List.mem_cons.mp h with rfl | h
        · exact Or.inr List.mem_cons_self
        · exact (ih h).imp_right (List.mem_cons_of_mem x)

theorem pairwise_insertEntry (k : κ) (v : α) {xs : List (κ × α)}
    (h : xs.Pairwise fun x y => x.1 < y.1) :
    (insertEntry k v xs).Pairwise fun x y => x.1 < y.1 := by
  induction xs with
  | nil => exact List.pairwise_singleton _ _
  | cons x xs ih =>
    obtain ⟨hx, hxs⟩ := List.pairwise_cons.mp h
    unfold insertEntry
    split
    · rename_i hlt
      refine List.pairwise_cons.mpr ⟨fun y hy => ?_, h⟩
      rcases List.mem_cons.mp hy with rfl | hy
      · exact hlt
      · exact lt_trans hlt (hx y hy)
    · split
      · rename_i heq
        exact List.pairwise_cons.mpr ⟨fun y hy => heq ▸ hx y hy, hxs⟩
      · rename_i hlt hne
        refine List.pairwise_cons.mpr ⟨fun y hy => ?_, ih hxs⟩
        rcases mem_of_mem_insertEntry hy with rfl | hy
        · exact lt_of_le_of_ne (not_lt.mp hlt) (Ne.symm hne)
        · exact hx y hy

namespace SortedMap

def empty : SortedMap κ α := ⟨[], List.Pairwise.nil⟩

def insert (m : SortedMap κ α) (k : κ) (v : α) : SortedMap κ α :=
  ⟨insertEntry k v m.entries, pairwise_insertEntry k v m.sorted⟩

def lookup (m : SortedMap κ α) (k : κ) : Option α :=
  (m.entries.find? fun x => x.1 = k).map Prod.snd

def erase (m : SortedMap κ α) (k : κ) : SortedMap κ α :=
  ⟨m.entries.filter fun x => x.1 ≠ k, m.sorted.filter _⟩

def size (m : SortedMap κ α) : ℕ := m.entries.length

def keys (m : SortedMap κ α) : List κ := m.entries.map Prod.fst

def values (m : SortedMap κ α) : List α := m.entries.map Prod.snd

/-- The keys with other values, in their order. -/
def withValues (m : SortedMap κ α) (vs : List β) : SortedMap κ β where
  entries := m.keys.zip vs
  sorted := by
    have hkeys : m.keys.Pairwise (· < ·) := List.pairwise_map.mpr m.sorted
    have hzip : ((m.keys.zip vs).map Prod.fst).Sublist m.keys := by
      generalize m.keys = ks
      induction ks generalizing vs with
      | nil => exact List.Sublist.refl _
      | cons k ks ih =>
        cases vs with
        | nil => exact List.nil_sublist _
        | cons v vs => exact (ih vs).cons_cons k
    exact List.pairwise_map.mp (hkeys.sublist hzip)

theorem nodup_keys (m : SortedMap κ α) : m.keys.Nodup :=
  (List.pairwise_map.mpr m.sorted).imp ne_of_lt

theorem mem_keys {m : SortedMap κ α} : k ∈ m.keys ↔ ∃ v, (k, v) ∈ m.entries := by
  constructor
  · intro h
    obtain ⟨⟨k', v⟩, hmem, rfl⟩ := List.mem_map.mp h
    exact ⟨v, hmem⟩
  · rintro ⟨v, hmem⟩
    exact List.mem_map.mpr ⟨(k, v), hmem, rfl⟩

/-- A key has one value. -/
theorem value_unique {m : SortedMap κ α} {v v' : α} (h : (k, v) ∈ m.entries)
    (h' : (k, v') ∈ m.entries) : v = v' := by
  have heq := List.inj_on_of_nodup_map m.nodup_keys h h' rfl
  exact congrArg Prod.snd heq

theorem lookup_eq_some {m : SortedMap κ α} {v : α} : m.lookup k = some v ↔ (k, v) ∈ m.entries := by
  unfold lookup
  constructor
  · intro h
    obtain ⟨⟨k', v'⟩, hfind, rfl⟩ := Option.map_eq_some_iff.mp h
    have hkey := List.find?_some hfind
    obtain rfl : k' = k := of_decide_eq_true hkey
    exact List.mem_of_find?_eq_some hfind
  · intro h
    cases hfind : m.entries.find? fun x => x.1 = k with
    | none =>
      have hnone := List.find?_eq_none.mp hfind _ h
      exact absurd (decide_eq_true rfl) hnone
    | some x =>
      obtain ⟨k', v'⟩ := x
      have hkey := List.find?_some hfind
      obtain rfl : k' = k := of_decide_eq_true hkey
      exact congrArg some (value_unique (List.mem_of_find?_eq_some hfind) h)

/-- The entries after an insertion. -/
theorem mem_insert {m : SortedMap κ α} {k' : κ} {v v' : α} :
    (k', v') ∈ (m.insert k v).entries ↔
      k' = k ∧ v' = v ∨ k' ≠ k ∧ (k', v') ∈ m.entries := by
  have hself : ∀ xs : List (κ × α), (k, v) ∈ insertEntry k v xs := by
    intro xs
    induction xs with
    | nil => exact List.mem_singleton.mpr rfl
    | cons x xs ih =>
      unfold insertEntry
      split
      · exact List.mem_cons_self
      · split
        · exact List.mem_cons_self
        · exact List.mem_cons_of_mem x ih
  have hother : ∀ xs : List (κ × α), k' ≠ k → (k', v') ∈ xs → (k', v') ∈ insertEntry k v xs := by
    intro xs hne hmem
    induction xs with
    | nil => exact absurd hmem List.not_mem_nil
    | cons x xs ih =>
      unfold insertEntry
      split
      · exact List.mem_cons_of_mem _ hmem
      · split
        · rename_i heq
          rcases List.mem_cons.mp hmem with rfl | hmem
          · exact absurd heq.symm hne
          · exact List.mem_cons_of_mem _ hmem
        · rcases List.mem_cons.mp hmem with rfl | hmem
          · exact List.mem_cons_self
          · exact List.mem_cons_of_mem x (ih hmem)
  constructor
  · intro h
    by_cases hk : k' = k
    · subst hk
      exact Or.inl ⟨rfl, value_unique (m := m.insert k' v) h (hself m.entries)⟩
    · rcases mem_of_mem_insertEntry h with heq | hmem
      · exact absurd (congrArg Prod.fst heq) hk
      · exact Or.inr ⟨hk, hmem⟩
  · rintro (⟨rfl, rfl⟩ | ⟨hne, hmem⟩)
    · exact hself m.entries
    · exact hother m.entries hne hmem

theorem lookup_insert (m : SortedMap κ α) (k k' : κ) (v : α) :
    (m.insert k v).lookup k' = if k' = k then some v else m.lookup k' := by
  ext v'
  rw [lookup_eq_some, mem_insert]
  by_cases hk : k' = k
  · simp [hk, eq_comm]
  · simp [hk, lookup_eq_some]

/-- A new key is one entry more. -/
theorem size_insert (m : SortedMap κ α) (k : κ) (v : α) :
    (m.insert k v).size = if k ∈ m.keys then m.size else m.size + 1 := by
  have hsize : ∀ xs : List (κ × α), xs.Pairwise (fun x y => x.1 < y.1) →
      (insertEntry k v xs).length = if k ∈ xs.map Prod.fst then xs.length else xs.length + 1 := by
    intro xs
    induction xs with
    | nil => intro _; rfl
    | cons x xs ih =>
      intro h
      obtain ⟨hx, hxs⟩ := List.pairwise_cons.mp h
      unfold insertEntry
      split
      · rename_i hlt
        have hnot : k ∉ (x :: xs).map Prod.fst := by
          intro hmem
          rcases List.mem_cons.mp hmem with rfl | hmem
          · exact lt_irrefl _ hlt
          · obtain ⟨y, hy, rfl⟩ := List.mem_map.mp hmem
            exact lt_asymm hlt (hx y hy)
        rw [if_neg hnot]
        rfl
      · split
        · rename_i heq
          have hmem : k ∈ (x :: xs).map Prod.fst := heq ▸ List.mem_cons_self
          rw [if_pos hmem]
          rfl
        · rename_i hne
          rw [List.length_cons, ih hxs]
          simp only [List.map_cons, List.mem_cons, hne, false_or, List.length_cons]
          split <;> rfl
  exact hsize m.entries m.sorted

theorem mem_erase {m : SortedMap κ α} {k' : κ} {v : α} :
    (k', v) ∈ (m.erase k).entries ↔ k' ≠ k ∧ (k', v) ∈ m.entries := by
  unfold erase
  rw [List.mem_filter, decide_eq_true_iff, and_comm]

theorem lookup_erase (m : SortedMap κ α) (k k' : κ) :
    (m.erase k).lookup k' = if k' = k then none else m.lookup k' := by
  ext v
  rw [lookup_eq_some, mem_erase]
  by_cases hk : k' = k
  · simp [hk]
  · simp [hk, lookup_eq_some]

theorem insertEntry_append (v : α) {before after : List (κ × α)} (hbefore : ∀ x ∈ before, x.1 < k) :
    insertEntry k v (before ++ after) = before ++ insertEntry k v after := by
  induction before with
  | nil => rfl
  | cons x before ih =>
    have hx := hbefore x List.mem_cons_self
    rw [List.cons_append, insertEntry, if_neg (lt_asymm hx), if_neg (ne_of_gt hx),
      ih fun y hy => hbefore y (List.mem_cons_of_mem x hy), List.cons_append]

theorem insertEntry_lt (v : α) {after : List (κ × α)} (hafter : ∀ x ∈ after, k < x.1) :
    insertEntry k v after = (k, v) :: after := by
  cases after with
  | nil => rfl
  | cons x after => rw [insertEntry, if_pos (hafter x List.mem_cons_self)]

/-- The entries from that of a key on. -/
theorem mem_dropWhile_ne {m : SortedMap κ α} (hk : k ∈ m.keys) {x : κ × α} :
    x ∈ m.entries.dropWhile (fun y => y.1 ≠ k) ↔ x ∈ m.entries ∧ k ≤ x.1 := by
  have hdrop : ∀ xs : List (κ × α), xs.Pairwise (fun x y => x.1 < y.1) → k ∈ xs.map Prod.fst →
      (x ∈ xs.dropWhile (fun y => y.1 ≠ k) ↔ x ∈ xs ∧ k ≤ x.1) := by
    intro xs
    induction xs with
    | nil => exact fun _ h => absurd h List.not_mem_nil
    | cons y ys ih =>
      intro h hmem
      obtain ⟨hy, hys⟩ := List.pairwise_cons.mp h
      by_cases heq : y.1 = k
      · rw [List.dropWhile_cons_of_neg (by simpa using heq)]
        refine (and_iff_left_of_imp fun hx => ?_).symm
        rcases List.mem_cons.mp hx with rfl | hx
        · exact heq.ge
        · exact heq ▸ (hy x hx).le
      · have hmem' : k ∈ ys.map Prod.fst := (List.mem_cons.mp hmem).resolve_left (Ne.symm heq)
        rw [List.dropWhile_cons_of_pos (by simpa using heq), ih hys hmem', List.mem_cons]
        refine and_congr_left fun hle => (or_iff_right ?_).symm
        rintro rfl
        obtain ⟨z, hz, rfl⟩ := List.mem_map.mp hmem'
        exact absurd (hy z hz) (not_lt_of_ge hle)
  exact hdrop m.entries m.sorted hk

/-- **Where a key is**: an insertion puts the entry there, and an erasure takes it away. -/
theorem split_at (m : SortedMap κ α) (k : κ) : ∃ before after,
    m.entries = before ++ ((m.lookup k).map (Prod.mk k)).toList ++ after ∧
      (∀ v, (m.insert k v).entries = before ++ (k, v) :: after) ∧
        (m.erase k).entries = before ++ after := by
  have hcut : ∀ xs : List (κ × α), xs.Pairwise (fun x y => x.1 < y.1) →
      ∃ before after, (∀ x ∈ before, x.1 < k) ∧ (∀ x ∈ after, k < x.1) ∧
        (xs = before ++ after ∨ ∃ v, xs = before ++ (k, v) :: after) := by
    intro xs
    induction xs with
    | nil => exact fun _ => ⟨[], [], nofun, nofun, Or.inl rfl⟩
    | cons x xs ih =>
      intro h
      obtain ⟨hx, hxs⟩ := List.pairwise_cons.mp h
      rcases lt_trichotomy x.1 k with hlt | heq | hgt
      · obtain ⟨before, after, hbefore, hafter, hsplit⟩ := ih hxs
        refine ⟨x :: before, after, List.forall_mem_cons.mpr ⟨hlt, hbefore⟩, hafter, ?_⟩
        rcases hsplit with hsplit | ⟨v, hsplit⟩
        · exact Or.inl (by rw [hsplit, List.cons_append])
        · exact Or.inr ⟨v, by rw [hsplit, List.cons_append]⟩
      · exact ⟨[], xs, nofun, fun y hy => heq ▸ hx y hy, Or.inr ⟨x.2, by rw [← heq]; rfl⟩⟩
      · refine ⟨[], x :: xs, nofun, List.forall_mem_cons.mpr ⟨hgt, fun y hy => ?_⟩, Or.inl rfl⟩
        exact lt_trans hgt (hx y hy)
  obtain ⟨before, after, hbefore, hafter, hsplit⟩ := hcut m.entries m.sorted
  have hkeep : ∀ xs : List (κ × α), (∀ x ∈ xs, x.1 ≠ k) → xs.filter (fun x => x.1 ≠ k) = xs :=
    fun xs h => List.filter_eq_self.mpr fun x hx => decide_eq_true (h x hx)
  have hbefore' := hkeep before fun x hx => ne_of_lt (hbefore x hx)
  have hafter' := hkeep after fun x hx => ne_of_gt (hafter x hx)
  refine ⟨before, after, ?_, fun v => ?_, ?_⟩
  · rcases hsplit with hsplit | ⟨v, hsplit⟩
    · have hnone : m.lookup k = none := by
        unfold lookup
        rw [hsplit, Option.map_eq_none_iff, List.find?_eq_none]
        intro x hx heq
        rcases List.mem_append.mp hx with hx | hx
        · exact ne_of_lt (hbefore x hx) (of_decide_eq_true heq)
        · exact ne_of_gt (hafter x hx) (of_decide_eq_true heq)
      rw [hnone, hsplit]
      exact (congrArg (· ++ after) (List.append_nil before)).symm
    · have hsome : m.lookup k = some v := by
        rw [lookup_eq_some, hsplit]
        exact List.mem_append_right before List.mem_cons_self
      rw [hsome, hsplit, List.append_assoc]
      rfl
  · rcases hsplit with hsplit | ⟨old, hsplit⟩
    · change insertEntry k v m.entries = _
      rw [hsplit, insertEntry_append v hbefore, insertEntry_lt v hafter]
    · change insertEntry k v m.entries = _
      rw [hsplit, insertEntry_append v hbefore, insertEntry, if_neg (lt_irrefl k), if_pos rfl]
  · change m.entries.filter _ = _
    rcases hsplit with hsplit | ⟨v, hsplit⟩
    · rw [hsplit, List.filter_append, hbefore', hafter']
    · rw [hsplit, List.filter_append, hbefore', List.filter_cons_of_neg (by simp), hafter']

/-- The value of a key among all values. -/
theorem values_split (m : SortedMap κ α) (k : κ) : ∃ others,
    m.values.Perm ((m.lookup k).toList ++ others) ∧ (∀ v, (m.insert k v).values.Perm (v :: others)) ∧
      (m.erase k).values.Perm others := by
  obtain ⟨before, after, hentries, hinsert, herase⟩ := m.split_at k
  unfold values
  refine ⟨(before ++ after).map Prod.snd, ?_, fun v => ?_, ?_⟩
  · rw [hentries]
    cases m.lookup k with
    | none => exact List.Perm.of_eq (by simp)
    | some v =>
      rw [Option.map_some, Option.toList_some, Option.toList_some, List.append_assoc]
      exact (List.perm_middle.map Prod.snd)
  · rw [hinsert v]
    exact List.perm_middle.map Prod.snd
  · rw [herase]

theorem keys_withValues (m : SortedMap κ α) {vs : List β} (h : vs.length = m.size) :
    (m.withValues vs).keys = m.keys := by
  have hlength : m.keys.length ≤ vs.length := by
    rw [h, keys, List.length_map]
    exact Nat.le_refl _
  exact List.map_fst_zip hlength

theorem values_withValues (m : SortedMap κ α) {vs : List β} (h : vs.length = m.size) :
    (m.withValues vs).values = vs := by
  have hlength : vs.length ≤ m.keys.length := by
    rw [h, keys, List.length_map]
    exact Nat.le_refl _
  exact List.map_snd_zip hlength

theorem entries_withValues_map (m : SortedMap κ α) (f : κ × α → β) :
    (m.withValues (m.entries.map f)).entries = m.entries.map fun x => (x.1, f x) :=
  List.zip_map' ..

/-- Every value changed by a function, each under its key. -/
theorem lookup_withValues_map (m : SortedMap κ α) (f : α → β) (k : κ) :
    (m.withValues (m.values.map f)).lookup k = (m.lookup k).map f := by
  have hentries : (m.withValues (m.values.map f)).entries = m.entries.map fun x => (x.1, f x.2) := by
    unfold values
    rw [List.map_map]
    exact m.entries_withValues_map fun x => f x.2
  unfold lookup
  rw [hentries, List.find?_map]
  cases hfind : m.entries.find? fun x => x.1 = k with
  | none =>
    rw [show m.entries.find? ((fun x : κ × β => decide (x.1 = k)) ∘ fun x => (x.1, f x.2)) = none
      from hfind]
    rfl
  | some x =>
    rw [show m.entries.find? ((fun x : κ × β => decide (x.1 = k)) ∘ fun x => (x.1, f x.2)) = some x
      from hfind]
    rfl

/-- What is said of the values in their order is said of them under each key. -/
theorem mem_withValues {m : SortedMap κ α} {vs : List β} {R : α → β → Prop}
    (h : List.Forall₂ R m.values vs) {w : β} (hmem : (k, w) ∈ (m.withValues vs).entries) :
    ∃ v, (k, v) ∈ m.entries ∧ R v w := by
  have hzip : ∀ (xs : List (κ × α)) (ws : List β), List.Forall₂ R (xs.map Prod.snd) ws →
      (k, w) ∈ (xs.map Prod.fst).zip ws → ∃ v, (k, v) ∈ xs ∧ R v w := by
    intro xs
    induction xs with
    | nil => exact fun ws _ h => absurd h List.not_mem_nil
    | cons x xs ih =>
      intro ws h hmem
      cases h with
      | cons hx h =>
        rcases List.mem_cons.mp hmem with heq | hmem
        · obtain ⟨rfl, rfl⟩ := Prod.mk.inj heq
          exact ⟨x.2, List.mem_cons_self, hx⟩
        · obtain ⟨v, hv, hR⟩ := ih _ h hmem
          exact ⟨v, List.mem_cons_of_mem x hv, hR⟩
  exact hzip m.entries vs h hmem

end SortedMap

end HungerGames.System
