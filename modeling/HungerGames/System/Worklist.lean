/-
# Closing a set under links

A graph is given by the links of its nodes: `links x` is `none` for an `x` that is no node, so a
link may name one.  The nodes to be reached from a set are those a worklist finds: a node is
taken from the list, kept, and its links that are not kept yet are put on the list.

`Closing` is the invariant of such a loop, with one lemma for each turn it can take;
`Closing.finished` says what is kept when the list is empty.  `pending` is lowered by every turn,
so the list does become empty.
-/
import Mathlib.Algebra.Order.BigOperators.Group.Finset

namespace HungerGames.System

variable {κ : Type}

/-- The nodes that links lead to from a set of starts, the starts that are nodes among them. -/
inductive Reachable (links : κ → Option (Finset κ)) (starts : Finset κ) : κ → Prop
  | start {x : κ} : x ∈ starts → (links x).isSome → Reachable links starts x
  | link {x y : κ} {linked : Finset κ} : Reachable links starts x → links x = some linked →
      y ∈ linked → (links y).isSome → Reachable links starts y

variable {links : κ → Option (Finset κ)} {starts todo kept : Finset κ} {x : κ}

/-- **The invariant of a worklist.**  What is kept is reachable, what is listed is when it is a
node; the starts and the links of what is kept are kept or listed. -/
structure Closing (links : κ → Option (Finset κ)) (starts todo kept : Finset κ) : Prop where
  apart : Disjoint todo kept
  kept_reachable : ∀ x ∈ kept, Reachable links starts x
  todo_reachable : ∀ x ∈ todo, (links x).isSome → Reachable links starts x
  starts_met : ∀ x ∈ starts, (links x).isSome → x ∈ kept ∨ x ∈ todo
  links_met : ∀ x ∈ kept, ∀ linked, links x = some linked →
    ∀ y ∈ linked, (links y).isSome → y ∈ kept ∨ y ∈ todo

theorem Closing.begin (links : κ → Option (Finset κ)) (starts : Finset κ) :
    Closing links starts starts ∅ where
  apart := Finset.disjoint_empty_right starts
  kept_reachable := fun x hx => absurd hx (Finset.notMem_empty x)
  todo_reachable := fun _ hx hnode => Reachable.start hx hnode
  starts_met := fun _ hx _ => Or.inr hx
  links_met := fun x hx => absurd hx (Finset.notMem_empty x)

/-- **The end of the loop**: with an empty list, what is kept is what is reachable. -/
theorem Closing.finished (h : Closing links starts ∅ kept) :
    x ∈ kept ↔ Reachable links starts x := by
  refine ⟨h.kept_reachable x, fun hreach => ?_⟩
  have hlisted : ∀ {y : κ}, y ∈ kept ∨ y ∈ (∅ : Finset κ) → y ∈ kept :=
    fun hy => hy.resolve_right (Finset.notMem_empty _)
  induction hreach with
  | start hx hnode => exact hlisted (h.starts_met _ hx hnode)
  | link _ hlinks hy hnode ih => exact hlisted (h.links_met _ ih _ hlinks _ hy hnode)

variable [DecidableEq κ]

/-- What is no node is taken from the list. -/
theorem Closing.skip (h : Closing links starts todo kept) (hx : links x = none) :
    Closing links starts (todo.erase x) kept := by
  have hmet : ∀ y, (links y).isSome → y ∈ kept ∨ y ∈ todo → y ∈ kept ∨ y ∈ todo.erase x := by
    intro y hnode hy
    refine hy.imp_right fun hy => Finset.mem_erase.mpr ⟨?_, hy⟩
    rintro rfl
    rw [hx] at hnode
    exact absurd hnode Bool.false_ne_true
  exact {
    apart := h.apart.mono_left (Finset.erase_subset x todo)
    kept_reachable := h.kept_reachable
    todo_reachable := fun y hy => h.todo_reachable y (Finset.mem_of_mem_erase hy)
    starts_met := fun y hy hnode => hmet y hnode (h.starts_met y hy hnode)
    links_met := fun y hy linked hlinked z hz hnode =>
      hmet z hnode (h.links_met y hy linked hlinked z hz hnode) }

/-- A node is kept, and those of its links that are not kept are listed. -/
theorem Closing.keep (h : Closing links starts todo kept) {linked : Finset κ} (hx : x ∈ todo)
    (hlinks : links x = some linked) :
    Closing links starts (todo.erase x ∪ linked.filter fun y => y ∉ insert x kept)
      (insert x kept) := by
  have hreach : Reachable links starts x := h.todo_reachable x hx (by rw [hlinks]; rfl)
  have hmet : ∀ y, y ∈ kept ∨ y ∈ todo → y ∈ insert x kept ∨
      y ∈ todo.erase x ∪ linked.filter fun y => y ∉ insert x kept := by
    intro y hy
    by_cases hyx : y = x
    · exact Or.inl (Finset.mem_insert.mpr (Or.inl hyx))
    · exact hy.imp (Finset.mem_insert_of_mem ·)
        fun hy => Finset.mem_union_left _ (Finset.mem_erase.mpr ⟨hyx, hy⟩)
  refine ⟨?_, ?_, ?_, fun y hy hnode => hmet y (h.starts_met y hy hnode), ?_⟩
  · rw [Finset.disjoint_left]
    intro y hy hkept
    rcases Finset.mem_union.mp hy with hy | hy
    · obtain ⟨hyx, hytodo⟩ := Finset.mem_erase.mp hy
      rcases Finset.mem_insert.mp hkept with heq | hkept
      · exact hyx heq
      · exact Finset.disjoint_left.mp h.apart hytodo hkept
    · exact (Finset.mem_filter.mp hy).2 hkept
  · intro y hy
    rcases Finset.mem_insert.mp hy with rfl | hy
    · exact hreach
    · exact h.kept_reachable y hy
  · intro y hy hnode
    rcases Finset.mem_union.mp hy with hy | hy
    · exact h.todo_reachable y (Finset.mem_of_mem_erase hy) hnode
    · exact Reachable.link hreach hlinks (Finset.mem_filter.mp hy).1 hnode
  · intro y hy next hnext z hz hnode
    rcases Finset.mem_insert.mp hy with rfl | hy
    · obtain rfl : linked = next := Option.some.inj (hlinks.symm.trans hnext)
      by_cases hkept : z ∈ insert y kept
      · exact Or.inl hkept
      · exact Or.inr (Finset.mem_union_right _ (Finset.mem_filter.mpr ⟨hz, hkept⟩))
    · exact hmet z (h.links_met y hy next hnext z hz hnode)

/-- The number of links of a node. -/
def linkCount (links : κ → Option (Finset κ)) (x : κ) : ℕ := ((links x).getD ∅).card

/-- What is listed, and the links of the nodes that are not kept. -/
def pending (links : κ → Option (Finset κ)) (nodes todo kept : Finset κ) : ℕ :=
  todo.card + (nodes \ kept).sum (linkCount links)

theorem pending_skip (nodes : Finset κ) (hx : x ∈ todo) :
    pending links nodes (todo.erase x) kept < pending links nodes todo kept :=
  Nat.add_lt_add_right (Finset.card_erase_lt_of_mem hx) _

theorem pending_keep {nodes linked : Finset κ} (h : Closing links starts todo kept)
    (hx : x ∈ todo) (hnode : x ∈ nodes) (hlinks : links x = some linked) :
    pending links nodes (todo.erase x ∪ linked.filter fun y => y ∉ insert x kept)
      (insert x kept) < pending links nodes todo kept := by
  have hfresh : x ∈ nodes \ kept :=
    Finset.mem_sdiff.mpr ⟨hnode, Finset.disjoint_left.mp h.apart hx⟩
  have hsum : (nodes \ kept).sum (linkCount links) =
      linked.card + (nodes \ insert x kept).sum (linkCount links) := by
    rw [← Finset.add_sum_erase _ _ hfresh, ← Finset.sdiff_insert]
    unfold linkCount
    rw [hlinks]
    rfl
  have hlisted := Finset.card_union_le (todo.erase x) (linked.filter fun y => y ∉ insert x kept)
  have hfilter := Finset.card_filter_le linked fun y => y ∉ insert x kept
  have herase := Finset.card_erase_lt_of_mem hx
  unfold pending
  rw [hsum]
  omega

end HungerGames.System
