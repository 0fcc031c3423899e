/-
# Chains

A map from keys to keys is followed: from a key to its value, from there to the value of that, and
so on, until there is none.

A chain that stops does so in every map that has fewer links (`Stops.mono`), and so does a chain
that runs into one which stops (`Stops.of_path`).  Where all chains stop none comes back to where
it was (`acyclic_of_stops`), and the keys have depths that rise along the links (`exists_depth`).
-/
import HungerGames.System.SortedMap
import Mathlib.Algebra.Order.BigOperators.Group.List
import Mathlib.Algebra.Order.Group.Nat
import Mathlib.Order.WellFounded

namespace HungerGames.System

namespace SortedMap

variable {κ : Type} [LinearOrder κ] {m m' : SortedMap κ κ} {a b : κ}

/-- A link of the chains. -/
def Link (m : SortedMap κ κ) (a b : κ) : Prop := m.lookup a = some b

/-- The links of one map are links of another. -/
def Below (m' m : SortedMap κ κ) : Prop := ∀ a b, m'.Link a b → m.Link a b

/-- The chain from a key comes to an end. -/
def Stops (m : SortedMap κ κ) (a : κ) : Prop := Acc (fun b a => m.Link a b) a

theorem Link.unique (h : m.Link a b) {c : κ} (h' : m.Link a c) : b = c :=
  Option.some.inj (h.symm.trans h')

theorem Below.trans {m'' : SortedMap κ κ} (h : Below m'' m') (h' : Below m' m) : Below m'' m :=
  fun a b hab => h' a b (h a b hab)

theorem below_erase (m : SortedMap κ κ) (k : κ) : Below (m.erase k) m := by
  intro a b h
  simp only [Link, lookup_erase] at h ⊢
  split at h
  · nomatch h
  · exact h

theorem Stops.mono (h : m.Stops a) (hbelow : Below m' m) : m'.Stops a := by
  induction h with
  | intro a _ ih => exact Acc.intro a fun b hb => ih b (hbelow a b hb)

/-- A key without a value. -/
theorem Stops.of_none (h : m.lookup a = none) : m.Stops a :=
  Acc.intro a fun b (hb : m.lookup a = some b) => nomatch h.symm.trans hb

/-- **A chain that runs into one which stops**, where some links may have gone. -/
theorem Stops.of_path (hpath : Relation.ReflTransGen m.Link a b) (hbelow : Below m' m)
    (hb : m'.Stops b) : m'.Stops a := by
  induction hpath using Relation.ReflTransGen.head_induction_on with
  | refl => exact hb
  | head hac _ ih => exact Acc.intro _ fun d hd => (hac.unique (hbelow _ d hd)) ▸ ih

theorem acyclic_of_stops (h : ∀ a, m.Stops a) (a : κ) : ¬ Relation.TransGen m.Link a a := by
  have hwf : WellFounded fun b a => m.Link a b := ⟨h⟩
  intro hcycle
  have hback := Relation.transGen_swap.mpr hcycle
  exact hwf.transGen.asymmetric _ _ hback hback

/-! ## Depths -/

/-- How many links the chain has, of which at most `n` are followed. -/
def climb (m : SortedMap κ κ) : ℕ → κ → ℕ
  | 0, _ => 0
  | n + 1, a =>
    match m.lookup a with
    | none => 0
    | some b => m.climb n b + 1

/-- The chain from a key has so many links. -/
def HasLength (m : SortedMap κ κ) (a : κ) (n : ℕ) : Prop := ∀ k, n ≤ k → m.climb k a = n

theorem HasLength.succ {n : ℕ} (h : m.HasLength b n) (hab : m.Link a b) :
    m.HasLength a (n + 1) := by
  intro k hk
  obtain ⟨k, rfl⟩ : ∃ j, k = j + 1 := ⟨k - 1, by omega⟩
  simp only [Link] at hab
  simp only [climb, hab]
  rw [h k (by omega)]

theorem Stops.hasLength (h : m.Stops a) : ∃ n, m.HasLength a n := by
  induction h with
  | intro a _ ih =>
    cases hlookup : m.lookup a with
    | none =>
      refine ⟨0, fun k _ => ?_⟩
      cases k with
      | zero => rfl
      | succ k => simp only [climb, hlookup]
    | some b =>
      obtain ⟨n, hn⟩ := ih b hlookup
      exact ⟨n + 1, hn.succ hlookup⟩

theorem HasLength.unique {n n' : ℕ} (h : m.HasLength a n) (h' : m.HasLength a n') : n = n' :=
  (h (max n n') (Nat.le_max_left n n')).symm.trans (h' (max n n') (Nat.le_max_right n n'))

/-- **Where all chains stop** every key is less deep than its value. -/
theorem exists_depth (h : ∀ a, m.Stops a) : ∃ depth : κ → ℕ, ∀ a b, m.Link a b →
    depth a < depth b := by
  choose length hlength using fun a => (h a).hasLength
  have hsucc : ∀ a b, m.Link a b → length a = length b + 1 := fun a b hab =>
    (hlength a).unique ((hlength b).succ hab)
  refine ⟨fun a => (m.keys.map length).sum - length a, fun a b hab => ?_⟩
  have hkey : a ∈ m.keys := mem_keys.mpr ⟨b, lookup_eq_some.mp hab⟩
  have hle : length a ≤ (m.keys.map length).sum :=
    List.single_le_sum (fun _ _ => Nat.zero_le _) _ (List.mem_map_of_mem hkey)
  have hlink := hsucc a b hab
  simp only
  omega

end SortedMap

end HungerGames.System
