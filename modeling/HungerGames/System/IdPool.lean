/-
# Pools of ids

Ids are handed out from a queue of ids that were given back, and when it is empty the next after
the greatest so far.  An id that is given back lowers the greatest if it is this one, and joins the
queue otherwise.  Ids are words of `w` bits.

The pool is sound for a list of ids in use as long as only these are given back, each once, and
the greatest does not wrap.  An id may also get lost, which is handed out and never given back.
-/
import Mathlib.Data.List.Nodup
import Mathlib.Algebra.Group.Nat.Defs

namespace HungerGames.System

/-- `greatest` is the greatest id so far. -/
structure IdPool where
  free : List ℕ
  greatest : ℕ
deriving DecidableEq

namespace IdPool

/-- The next id, and the pool without it. -/
def take (w : ℕ) (p : IdPool) : ℕ × IdPool :=
  match p.free with
  | [] => ((p.greatest + 1) % 2 ^ w, ⟨[], (p.greatest + 1) % 2 ^ w⟩)
  | id :: free => (id, ⟨free, p.greatest⟩)

/-- An id is given back. -/
def release (w : ℕ) (p : IdPool) (id : ℕ) : IdPool :=
  if id = p.greatest then ⟨p.free, (p.greatest + (2 ^ w - 1)) % 2 ^ w⟩
  else ⟨p.free ++ [id], p.greatest⟩

/-- The id may be handed out. -/
def Available (p : IdPool) (id : ℕ) : Prop := id ∈ p.free ∨ p.greatest < id

/-- How many ids there are to hand out, before the greatest wraps. -/
def left (w : ℕ) (p : IdPool) : ℕ := p.free.length + (2 ^ w - 1 - p.greatest)

/-- The ids in use are distinct and not 0, and not available. -/
structure Sound (w : ℕ) (p : IdPool) (used : List ℕ) : Prop where
  nodup : used.Nodup
  positive : ∀ id ∈ used, id ≠ 0
  notFree : ∀ id ∈ used, id ∉ p.free
  bound : ∀ id ∈ used, id ≤ p.greatest
  freeNodup : p.free.Nodup
  freePositive : ∀ id ∈ p.free, id ≠ 0
  freeBound : ∀ id ∈ p.free, id ≤ p.greatest
  word : p.greatest < 2 ^ w

variable {w : ℕ} {p : IdPool} {used : List ℕ} {id : ℕ}

/-- Less ids are in use: the others are lost. -/
theorem Sound.sublist {used' : List ℕ} (h : Sound w p used) (hsub : used'.Sublist used) :
    Sound w p used' where
  nodup := hsub.nodup h.nodup
  positive id hid := h.positive id (hsub.subset hid)
  notFree id hid := h.notFree id (hsub.subset hid)
  bound id hid := h.bound id (hsub.subset hid)
  freeNodup := h.freeNodup
  freePositive := h.freePositive
  freeBound := h.freeBound
  word := h.word

/-- The order of the ids in use says nothing. -/
theorem Sound.perm {used' : List ℕ} (h : Sound w p used) (hperm : used.Perm used') :
    Sound w p used' where
  nodup := hperm.nodup_iff.mp h.nodup
  positive id hid := h.positive id (hperm.mem_iff.mpr hid)
  notFree id hid := h.notFree id (hperm.mem_iff.mpr hid)
  bound id hid := h.bound id (hperm.mem_iff.mpr hid)
  freeNodup := h.freeNodup
  freePositive := h.freePositive
  freeBound := h.freeBound
  word := h.word

theorem take_nil (h : p.free = []) :
    p.take w = ((p.greatest + 1) % 2 ^ w, ⟨[], (p.greatest + 1) % 2 ^ w⟩) := by
  unfold take
  rw [h]

theorem take_cons {free : List ℕ} (h : p.free = id :: free) :
    p.take w = (id, ⟨free, p.greatest⟩) := by
  unfold take
  rw [h]

theorem next_lt (hfree : p.free = []) (hleft : 0 < p.left w) : p.greatest + 1 < 2 ^ w := by
  unfold left at hleft
  rw [hfree, List.length_nil] at hleft
  omega

theorem left_take (hleft : 0 < p.left w) : (p.take w).2.left w + 1 = p.left w := by
  cases hfree : p.free with
  | nil =>
    have hnext := next_lt hfree hleft
    rw [take_nil hfree, Nat.mod_eq_of_lt hnext]
    unfold left
    rw [hfree]
    dsimp only
    omega
  | cons first free =>
    rw [take_cons hfree]
    unfold left
    rw [hfree, List.length_cons]
    dsimp only
    omega

/-- **The id that is handed out** is in use after it. -/
theorem Sound.take (h : Sound w p used) (hleft : 0 < p.left w) :
    Sound w (p.take w).2 ((p.take w).1 :: used) := by
  cases hfree : p.free with
  | nil =>
    have hnext := next_lt hfree hleft
    rw [take_nil hfree, Nat.mod_eq_of_lt hnext]
    have hbound : ∀ id ∈ used, id < p.greatest + 1 := fun id hid =>
      Nat.lt_succ_of_le (h.bound id hid)
    refine ⟨List.nodup_cons.mpr ⟨fun hmem => Nat.lt_irrefl _ (hbound _ hmem), h.nodup⟩, ?_,
      fun _ _ => List.not_mem_nil, ?_, List.nodup_nil, nofun, nofun, hnext⟩
    · exact List.forall_mem_cons.mpr ⟨Nat.succ_ne_zero _, h.positive⟩
    · exact List.forall_mem_cons.mpr ⟨Nat.le_refl _, fun id hid => Nat.le_of_lt (hbound id hid)⟩
  | cons first free =>
    rw [take_cons hfree]
    have hmem : first ∈ p.free := hfree ▸ List.mem_cons_self
    have hsub : ∀ id ∈ free, id ∈ p.free := fun id hid => hfree ▸ List.mem_cons_of_mem first hid
    obtain ⟨hfirst, hnodup⟩ := List.nodup_cons.mp (hfree ▸ h.freeNodup)
    refine ⟨List.nodup_cons.mpr ⟨fun hused => h.notFree first hused hmem, h.nodup⟩, ?_, ?_, ?_,
      hnodup, fun id hid => h.freePositive id (hsub id hid),
      fun id hid => h.freeBound id (hsub id hid), h.word⟩
    · exact List.forall_mem_cons.mpr ⟨h.freePositive first hmem, h.positive⟩
    · exact List.forall_mem_cons.mpr ⟨hfirst, fun id hid hfree => h.notFree id hid (hsub id hfree)⟩
    · exact List.forall_mem_cons.mpr ⟨h.freeBound first hmem, h.bound⟩

theorem release_greatest (h : id = p.greatest) (hpos : id ≠ 0) (hword : p.greatest < 2 ^ w) :
    p.release w id = ⟨p.free, p.greatest - 1⟩ := by
  unfold release
  have hsum : p.greatest + (2 ^ w - 1) = (p.greatest - 1) + 2 ^ w := by omega
  rw [if_pos h, hsum, Nat.add_mod_right, Nat.mod_eq_of_lt (by omega)]

/-- **An id in use is given back.** -/
theorem Sound.release (h : Sound w p (id :: used)) : Sound w (p.release w id) used := by
  obtain ⟨hnot, hnodup⟩ := List.nodup_cons.mp h.nodup
  have hpos := h.positive id List.mem_cons_self
  have hnotFree := h.notFree id List.mem_cons_self
  have hbound := h.bound id List.mem_cons_self
  have hused : ∀ other ∈ used, other ≠ id := fun other hother heq => hnot (heq ▸ hother)
  by_cases hid : id = p.greatest
  · rw [release_greatest hid hpos h.word]
    have hlower : ∀ other ≠ id, other ≤ p.greatest → other ≤ p.greatest - 1 := by omega
    refine ⟨hnodup, fun other hother => h.positive other (List.mem_cons_of_mem id hother),
      fun other hother => h.notFree other (List.mem_cons_of_mem id hother), ?_, h.freeNodup,
      h.freePositive, ?_, Nat.lt_of_le_of_lt (Nat.sub_le _ _) h.word⟩
    · intro other hother
      exact hlower other (hused other hother) (h.bound other (List.mem_cons_of_mem id hother))
    · intro other hother
      exact hlower other (fun heq => hnotFree (heq ▸ hother)) (h.freeBound other hother)
  · unfold IdPool.release
    rw [if_neg hid]
    refine ⟨hnodup, fun other hother => h.positive other (List.mem_cons_of_mem id hother), ?_,
      fun other hother => h.bound other (List.mem_cons_of_mem id hother), ?_, ?_, ?_, h.word⟩
    · intro other hother hmem
      rcases List.mem_append.mp hmem with hmem | hmem
      · exact h.notFree other (List.mem_cons_of_mem id hother) hmem
      · exact hused other hother (List.mem_singleton.mp hmem)
    · refine List.nodup_append.mpr ⟨h.freeNodup, List.nodup_singleton id, ?_⟩
      intro other hother last hlast heq
      rw [heq, List.mem_singleton.mp hlast] at hother
      exact hnotFree hother
    · exact List.forall_mem_append.mpr ⟨h.freePositive, List.forall_mem_singleton.mpr hpos⟩
    · exact List.forall_mem_append.mpr ⟨h.freeBound, List.forall_mem_singleton.mpr hbound⟩

/-- The id that is handed out is available. -/
theorem take_available (hleft : 0 < p.left w) : p.Available (p.take w).1 := by
  cases hfree : p.free with
  | nil =>
    rw [take_nil hfree, Nat.mod_eq_of_lt (next_lt hfree hleft)]
    exact Or.inr (Nat.lt_succ_self _)
  | cons first free =>
    rw [take_cons hfree]
    exact Or.inl (hfree ▸ List.mem_cons_self)

/-- Nothing becomes available when an id is handed out. -/
theorem available_take (hleft : 0 < p.left w) {other : ℕ} (h : (p.take w).2.Available other) :
    p.Available other := by
  cases hfree : p.free with
  | nil =>
    rw [take_nil hfree, Nat.mod_eq_of_lt (next_lt hfree hleft)] at h
    rcases h with h | h
    · nomatch h
    · exact Or.inr (Nat.lt_of_succ_lt h)
  | cons first free =>
    rw [take_cons hfree] at h
    exact h.imp_left fun h => hfree ▸ List.mem_cons_of_mem first h

/-- Only the id that is given back becomes available. -/
theorem available_release (hpos : id ≠ 0) (hword : p.greatest < 2 ^ w) {other : ℕ}
    (h : (p.release w id).Available other) : p.Available other ∨ other = id := by
  by_cases hid : id = p.greatest
  · rw [release_greatest hid hpos hword] at h
    rcases h with h | h
    · exact Or.inl (Or.inl h)
    · have h : p.greatest - 1 < other := h
      have hpos : 0 < p.greatest := Nat.pos_of_ne_zero (hid ▸ hpos)
      rcases (show other = p.greatest ∨ p.greatest < other by omega) with heq | hlt
      · exact Or.inr (heq.trans hid.symm)
      · exact Or.inl (Or.inr hlt)
  · unfold IdPool.release at h
    rw [if_neg hid] at h
    rcases h with h | h
    · rcases List.mem_append.mp h with h | h
      · exact Or.inl (Or.inl h)
      · exact Or.inr (List.mem_singleton.mp h)
    · exact Or.inl (Or.inr h)

/-- The pool is sound after a change, in which ids only moved between those in use and those
available. -/
structure Kept (w : ℕ) (p : IdPool) (used : List ℕ) (p' : IdPool) (used' : List ℕ) : Prop where
  sound : Sound w p' used'
  within : ∀ id, p'.Available id ∨ id ∈ used' → p.Available id ∨ id ∈ used

variable {p' p'' : IdPool} {used' used'' : List ℕ}

theorem Sound.refl (h : Sound w p used) : Kept w p used p used := ⟨h, fun _ hid => hid⟩

theorem Kept.trans (h : Kept w p used p' used') (h' : Kept w p' used' p'' used'') :
    Kept w p used p'' used'' :=
  ⟨h'.sound, fun id hid => h.within id (h'.within id hid)⟩

theorem Kept.sublist (h : Kept w p used p' used') (hsub : used''.Sublist used') :
    Kept w p used p' used'' :=
  ⟨h.sound.sublist hsub, fun id hid => h.within id (hid.imp_right fun hid => hsub.subset hid)⟩

theorem Kept.perm (h : Kept w p used p' used') (hperm : used'.Perm used'') :
    Kept w p used p' used'' :=
  ⟨h.sound.perm hperm, fun id hid => h.within id (hid.imp_right hperm.mem_iff.mpr)⟩

theorem Sound.kept_take (h : Sound w p used) (hleft : 0 < p.left w) :
    Kept w p used (p.take w).2 ((p.take w).1 :: used) := by
  refine ⟨h.take hleft, fun id hid => ?_⟩
  rcases hid with hid | hid
  · exact Or.inl (available_take hleft hid)
  · rcases List.mem_cons.mp hid with rfl | hid
    · exact Or.inl (take_available hleft)
    · exact Or.inr hid

theorem Sound.kept_release (h : Sound w p (id :: used)) :
    Kept w p (id :: used) (p.release w id) used := by
  refine ⟨h.release, fun other hother => ?_⟩
  rcases hother with hother | hother
  · rcases available_release (h.positive id List.mem_cons_self) h.word hother with hother | rfl
    · exact Or.inl hother
    · exact Or.inr List.mem_cons_self
  · exact Or.inr (List.mem_cons_of_mem id hother)

/-- All of some ids in use are given back, one after another. -/
theorem Sound.kept_releases (ids : List ℕ) : ∀ p : IdPool, Sound w p (ids ++ used) →
    Kept w p (ids ++ used) (ids.foldl (IdPool.release w) p) used := by
  induction ids with
  | nil => exact fun _ h => h.refl
  | cons id ids ih =>
    intro p h
    have hfirst : Kept w p (id :: (ids ++ used)) (p.release w id) (ids ++ used) := h.kept_release
    exact hfirst.trans (ih _ hfirst.sound)

end IdPool

end HungerGames.System
