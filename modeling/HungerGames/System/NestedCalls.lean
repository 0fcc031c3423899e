/-
# Calls that are nested

A recursive function of which each call makes others in a loop is written with a bound on how deep
its calls are nested; a call that is nested too deep has no result.  A loop over such calls has a
result when each of them does (`foldlM_isSome`, `iterateM_isSome`), and then each has one
(`foldlM_visits`, `iterateM_visits`); so does a search that finds nothing (`anyM_visits`).

What calls what is a relation.  When it has finitely many targets and no cycle it is well founded
(`wellFounded_of_acyclic`).
-/
import Mathlib.Data.Finset.Card
import Mathlib.Order.WellFounded

namespace HungerGames.System

open Relation

variable {α σ : Type}

/-! ## 1. Loops over calls -/

variable {xs : List α}

theorem foldlM_isSome {f : σ → α → Option σ} (h : ∀ x ∈ xs, ∀ s, (f s x).isSome = true) (s : σ) :
    (xs.foldlM f s).isSome = true := by
  induction xs generalizing s with
  | nil => rfl
  | cons x xs ih =>
    obtain ⟨s', hs'⟩ := Option.isSome_iff_exists.mp (h x List.mem_cons_self s)
    rw [List.foldlM_cons, hs']
    exact ih (fun y hy => h y (List.mem_cons_of_mem x hy)) s'

/-- **A loop with a result** has visited all elements, and had a result for each. -/
theorem foldlM_visits {f : σ → α → Option σ} {s : σ} (h : (xs.foldlM f s).isSome = true) {x : α}
    (hx : x ∈ xs) : ∃ s', (f s' x).isSome = true := by
  induction xs generalizing s with
  | nil => cases hx
  | cons y xs ih =>
    rw [List.foldlM_cons] at h
    cases hy : f s y with
    | none =>
      rw [hy] at h
      cases h
    | some s' =>
      rw [hy] at h
      rcases List.mem_cons.mp hx with rfl | hx
      · exact ⟨s, hy ▸ rfl⟩
      · exact ih h hx

/-- A call made so many times. -/
def iterateM (f : σ → Option σ) : ℕ → σ → Option σ
  | 0, s => some s
  | n + 1, s => (f s).bind (iterateM f n)

theorem iterateM_isSome {f : σ → Option σ} (h : ∀ s, (f s).isSome = true) :
    ∀ (n : ℕ) (s : σ), (iterateM f n s).isSome = true
  | 0, _ => rfl
  | n + 1, s => by
    obtain ⟨s', hs'⟩ := Option.isSome_iff_exists.mp (h s)
    rw [iterateM, hs']
    exact iterateM_isSome h n s'

/-- A call that is made at all has a result when all have. -/
theorem iterateM_visits {f : σ → Option σ} {n : ℕ} {s : σ} (hn : 0 < n)
    (h : (iterateM f n s).isSome = true) : (f s).isSome = true := by
  obtain ⟨n, rfl⟩ : ∃ m, n = m + 1 := ⟨n - 1, by omega⟩
  rw [iterateM] at h
  cases hs : f s with
  | none =>
    rw [hs] at h
    cases h
  | some s' => rfl

variable {f : α → Option Bool}

/-- A search looks at the first element, and goes on if that is not it. -/
theorem anyM_cons {x : α} :
    (x :: xs).anyM f = (f x).bind fun b => if b then some true else xs.anyM f := by
  cases hx : f x with
  | none => simp [List.anyM, hx]
  | some b => cases b <;> simp [List.anyM, hx]

theorem anyM_isSome (h : ∀ x ∈ xs, (f x).isSome = true) : (xs.anyM f).isSome = true := by
  induction xs with
  | nil => rfl
  | cons x xs ih =>
    obtain ⟨b, hb⟩ := Option.isSome_iff_exists.mp (h x List.mem_cons_self)
    have hrest := ih fun y hy => h y (List.mem_cons_of_mem x hy)
    rw [anyM_cons, hb]
    cases b with
    | true => rfl
    | false => exact hrest

/-- A search for what is not there does not find it. -/
theorem anyM_ne_true (h : ∀ x ∈ xs, f x ≠ some true) : xs.anyM f ≠ some true := by
  induction xs with
  | nil => exact fun heq => absurd (Option.some.inj heq) Bool.false_ne_true
  | cons x xs ih =>
    rw [anyM_cons]
    cases hx : f x with
    | none => exact fun heq => nomatch heq
    | some b =>
      cases b with
      | true => exact absurd hx (h x List.mem_cons_self)
      | false => exact ih fun y hy => h y (List.mem_cons_of_mem x hy)

/-- **A search that does not find it** has looked at all elements. -/
theorem anyM_visits (hnot : ∀ x ∈ xs, f x ≠ some true) (h : (xs.anyM f).isSome = true) {x : α}
    (hx : x ∈ xs) : (f x).isSome = true := by
  induction xs with
  | nil => exact absurd hx List.not_mem_nil
  | cons y xs ih =>
    rw [anyM_cons] at h
    cases hy : f y with
    | none =>
      rw [hy] at h
      cases h
    | some b =>
      rcases List.mem_cons.mp hx with rfl | hx
      · exact hy ▸ rfl
      · cases b with
        | true => exact absurd hy (hnot y List.mem_cons_self)
        | false =>
          rw [hy] at h
          exact ih (fun z hz => hnot z (List.mem_cons_of_mem y hz)) h hx

/-! ## 2. Enough depth -/

/-- What holds of each element from some number on holds of all from some number on. -/
theorem eventually_all {P : α → ℕ → Prop} (h : ∀ x ∈ xs, ∃ m, ∀ n, m ≤ n → P x n) :
    ∃ m, ∀ x ∈ xs, ∀ n, m ≤ n → P x n := by
  induction xs with
  | nil => exact ⟨0, fun _ hx => absurd hx List.not_mem_nil⟩
  | cons x xs ih =>
    obtain ⟨m, hm⟩ := h x List.mem_cons_self
    obtain ⟨m', hm'⟩ := ih fun y hy => h y (List.mem_cons_of_mem x hy)
    refine ⟨max m m', fun y hy n hn => ?_⟩
    rcases List.mem_cons.mp hy with rfl | hy
    · exact hm n ((le_max_left m m').trans hn)
    · exact hm' y hy n ((le_max_right m m').trans hn)

/-- **A relation with finitely many targets and no cycle is well founded**: every step leaves less
to be reached. -/
theorem wellFounded_of_acyclic {R : α → α → Prop} (htargets : ∀ a b, R a b → b ∈ xs)
    (hacyclic : ∀ a, ¬ TransGen R a a) : WellFounded fun b a => R a b := by
  classical
  let reached (a : α) : Finset α := xs.toFinset.filter (TransGen R a)
  refine Subrelation.wf (r := fun b a => (reached b).card < (reached a).card) ?_
    (InvImage.wf (fun a => (reached a).card) Nat.lt_wfRel.wf)
  intro b a hab
  have hb : b ∈ reached a :=
    Finset.mem_filter.mpr ⟨List.mem_toFinset.mpr (htargets a b hab), TransGen.single hab⟩
  have hnot : b ∉ reached b := fun hmem => hacyclic b (Finset.mem_filter.mp hmem).2
  refine Finset.card_lt_card ⟨fun c hc => ?_, fun hsub => hnot (hsub hb)⟩
  obtain ⟨hc, hreach⟩ := Finset.mem_filter.mp hc
  exact Finset.mem_filter.mpr ⟨hc, TransGen.head hab hreach⟩

theorem acyclic_of_acc {R : α → α → Prop} {a : α} (h : Acc (fun b a => R a b) a) :
    ¬ TransGen R a a := by
  induction h with
  | intro a _ ih =>
    intro hcycle
    obtain ⟨b, hab, hba⟩ := TransGen.head'_iff.mp hcycle
    exact ih b hab (TransGen.tail' hba hab)

end HungerGames.System
