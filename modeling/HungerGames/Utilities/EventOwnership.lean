/-
# Who owns an event (`EventProcessor.cpp`)

`Sound` describes the events between two steps: what waits, in order, and which events the
callbacks under way hold.  Each thing that happens to an event has one lemma about it.  `Placed`
then says how the multimap and the iterators of `KillAllEvents` go with what waits.

Nothing keeps a callback from adding an event while `KillAllEvents` is on its way, although it sets
`m_aborting` to "prevent event insertions": no function reads it.
-/
import HungerGames.Utilities.EventProcessor

namespace HungerGames.EventProcessor

open HungerGames.System

/-! ## 1. Histories -/

section Histories

variable {h : List Happening} {a : Happening} {x : Scheduled}

theorem ended_cons : Ended (a :: h) x ↔ a.ends = some x ∨ Ended h x := by
  simp only [Ended, List.mem_cons, exists_eq_or_imp]

theorem aborted_cons {event : ℕ} :
    Aborted (a :: h) event ↔ a.abortOf = some event ∨ Aborted h event := by
  simp only [Aborted, List.mem_cons, exists_eq_or_imp]

/-- What ends something makes it wait no longer; other things wait as before. -/
theorem waiting_cons (hadds : ∀ y, a ≠ .adds y) :
    Waiting (a :: h) x ↔ Waiting h x ∧ a.ends ≠ some x := by
  have hne : Happening.adds x ≠ a := (hadds x).symm
  simp only [Waiting, ended_cons, List.mem_cons, hne, false_or, not_or]
  exact ⟨fun ⟨hx, ha, hh⟩ => ⟨⟨hx, hh⟩, ha⟩, fun ⟨⟨hx, hh⟩, ha⟩ => ⟨hx, ha, hh⟩⟩

/-- What is called was added. -/
theorem Lawful.added : ∀ {h : List Happening}, Lawful h → Ended h x → .adds x ∈ h
  | [], _, ⟨_, hmem, _⟩ => absurd hmem List.not_mem_nil
  | a :: h, ⟨hright, hlawful⟩, hended => by
    rcases ended_cons.mp hended with ha | hended
    · have hcallable : Callable h x := by
        cases a with
        | executes y now => exact Option.some.inj ha ▸ hright.2
        | aborts y now => exact Option.some.inj ha ▸ hright.2
        | kills y now => exact Option.some.inj ha ▸ hright
        | _ => cases ha
      exact List.mem_cons_of_mem a hcallable.waits.1
    · exact List.mem_cons_of_mem a (hlawful.added hended)

end Histories

theorem Before.irrefl {x : Scheduled} (h : Before x x) : False := by
  rcases h with h | ⟨-, h⟩
  · exact Nat.lt_irrefl _ h
  · exact Nat.lt_irrefl _ h

theorem Before.le {x y : Scheduled} (h : Before x y) : x.1 ≤ y.1 := by
  rcases h with h | ⟨h, -⟩
  · exact Nat.le_of_lt h
  · exact Nat.le_of_eq h

/-- A multimap in the order of time and of insertion. -/
def InOrder (xs : List Scheduled) : Prop := xs.Pairwise Before

theorem InOrder.enqueue (t : ℕ) (node : Node) : ∀ {xs : List Scheduled}, InOrder xs →
    (∀ y ∈ xs, y.2.insertion < node.insertion) → InOrder (enqueue t node xs)
  | [], _, _ => List.pairwise_singleton _ _
  | x :: xs, h, hlast => by
    obtain ⟨hx, hxs⟩ := List.pairwise_cons.mp h
    have hlast' : ∀ y ∈ xs, y.2.insertion < node.insertion := fun y hy =>
      hlast y (List.mem_cons_of_mem x hy)
    unfold System.enqueue
    by_cases hle : x.1 ≤ t
    · rw [if_pos hle]
      refine List.pairwise_cons.mpr ⟨fun y hy => ?_, InOrder.enqueue t node hxs hlast'⟩
      rcases mem_enqueue.mp hy with rfl | hmem
      · rcases Nat.lt_or_eq_of_le hle with hlt | heq
        · exact Or.inl hlt
        · exact Or.inr ⟨heq, hlast x List.mem_cons_self⟩
      · exact hx y hmem
    · rw [if_neg hle]
      refine List.pairwise_cons.mpr ⟨fun y hy => Or.inl ?_, h⟩
      rcases List.mem_cons.mp hy with rfl | hmem
      · exact Nat.lt_of_not_le hle
      · exact Nat.lt_of_lt_of_le (Nat.lt_of_not_le hle) (hx y hmem).le

theorem InOrder.nodup {xs : List Scheduled} (h : InOrder xs) : xs.Nodup :=
  List.Pairwise.imp (fun hxy heq => (heq ▸ hxy).irrefl) h

/-! ## 2. Who holds an event -/

def eventOf (x : Scheduled) : ℕ := x.2.event

/-- **The invariant of the events.**  Each waits, or is held by a callback that executes it or that
aborts it, and only once; otherwise it is deleted. -/
structure Sound (w : World) (waiting : List Scheduled) (executing aborting : List ℕ) : Prop where
  defined : w.broken = false
  lawful : Lawful w.history
  order : InOrder waiting
  waits : ∀ x, x ∈ waiting ↔ Waiting w.history x
  inserted : ∀ x, .adds x ∈ w.history → x.2.insertion < w.insertions
  known : ∀ x, .adds x ∈ w.history → x.2.event < w.allocated
  nodup : (waiting.map eventOf ++ (executing ++ aborting)).Nodup
  live : ∀ e, e ∈ waiting.map eventOf ++ (executing ++ aborting) ↔ (w.object e).isSome = true
  fresh : ∀ e, (w.object e).isSome = true → e < w.allocated
  gone : ∀ e, .deletes e ∈ w.history → w.object e = none ∧ e < w.allocated
  left : ∀ e < w.allocated, w.object e = none → .deletes e ∈ w.history
  aborted : ∀ e, Aborted w.history e → e ∈ aborting ∨ .deletes e ∈ w.history

theorem sound_init : Sound .init [] [] [] where
  defined := rfl
  lawful := trivial
  order := List.Pairwise.nil
  waits x := iff_of_false List.not_mem_nil fun h => List.not_mem_nil h.1
  inserted x h := absurd h List.not_mem_nil
  known x h := absurd h List.not_mem_nil
  nodup := List.nodup_nil
  live e := by simp [World.init]
  fresh e h := by simp [World.init] at h
  gone e h := absurd h List.not_mem_nil
  left e h := absurd h (Nat.not_lt_zero e)
  aborted e h := absurd h fun ⟨_, hmem, _⟩ => List.not_mem_nil hmem

section Events

variable {w : World} {waiting : List Scheduled} {executing aborting : List ℕ} {x : Scheduled}

/-- What waits has its event. -/
theorem Sound.isSome (h : Sound w waiting executing aborting) (hx : x ∈ waiting) :
    (w.object x.2.event).isSome = true :=
  (h.live _).mp (List.mem_append_left _ (List.mem_map_of_mem hx))

variable {e : ℕ}

theorem Sound.isSome_executing (h : Sound w waiting (e :: executing) aborting) :
    (w.object e).isSome = true :=
  (h.live e).mp (List.mem_append_right _ List.mem_cons_self)

theorem Sound.isSome_aborting (h : Sound w waiting executing (e :: aborting)) :
    (w.object e).isSome = true :=
  (h.live e).mp (List.mem_append_right _ (List.mem_append_right _ List.mem_cons_self))

section

variable (h : Sound w (x :: waiting) executing aborting)
include h

/-- The first that waits may be called. -/
theorem Sound.callable :
    Callable w.history x where
  waits := (h.waits x).mp List.mem_cons_self
  first y hy := by
    rcases List.mem_cons.mp ((h.waits y).mpr hy) with heq | hmem
    · exact Or.inl heq
    · exact Or.inr ((List.pairwise_cons.mp h.order).1 y hmem)
  notAborted haborted := by
    have hsome := h.isSome (List.mem_cons_self (a := x))
    rcases h.aborted _ haborted with hmem | hdeleted
    · have hnodup := h.nodup
      rw [List.map_cons, List.cons_append] at hnodup
      exact (List.nodup_cons.mp hnodup).1
        (List.mem_append_right _ (List.mem_append_right _ hmem))
    · rw [(h.gone _ hdeleted).1] at hsome
      cases hsome
  notDeleted hdeleted := by
    have hsome := h.isSome (List.mem_cons_self (a := x))
    rw [(h.gone _ hdeleted).1] at hsome
    cases hsome

/-- **A call.**  The first that waits is executed or aborted, and held by the callback. -/
theorem Sound.call {executing' aborting' : List ℕ} (a : Happening) (hadds : ∀ y, a ≠ .adds y)
    (hdeletes : ∀ e, a ≠ .deletes e) (hends : a.ends = some x) (hright : Right w.history a)
    (hheld : (executing' ++ aborting').Perm (x.2.event :: (executing ++ aborting)))
    (hover : ∀ e, Aborted (a :: w.history) e → e ∈ aborting' ∨ .deletes e ∈ w.history) :
    Sound (w.note a) waiting executing' aborting' := by
  have hadded : ∀ y, .adds y ∈ a :: w.history ↔ .adds y ∈ w.history := fun y => by
    have hne : Happening.adds y ≠ a := (hadds y).symm
    simp only [List.mem_cons, hne, false_or]
  have hdeleted : ∀ e, .deletes e ∈ a :: w.history ↔ .deletes e ∈ w.history := fun e => by
    have hne : Happening.deletes e ≠ a := (hdeletes e).symm
    simp only [List.mem_cons, hne, false_or]
  have hperm : (waiting.map eventOf ++ (executing' ++ aborting')).Perm
      ((x :: waiting).map eventOf ++ (executing ++ aborting)) :=
    (hheld.append_left _).trans List.perm_middle
  have hx : x ∉ waiting := (List.nodup_cons.mp h.order.nodup).1
  exact
    { defined := h.defined
      lawful := ⟨hright, h.lawful⟩
      order := (List.pairwise_cons.mp h.order).2
      waits := fun y => by
        show y ∈ waiting ↔ Waiting (a :: w.history) y
        rw [waiting_cons hadds, ← h.waits y, hends, List.mem_cons, ne_eq, Option.some_inj]
        constructor
        · exact fun hy => ⟨Or.inr hy, fun heq => hx (heq ▸ hy)⟩
        · exact fun ⟨hy, hne⟩ => hy.resolve_left fun heq => hne heq.symm
      inserted := fun y hy => h.inserted y ((hadded y).mp hy)
      known := fun y hy => h.known y ((hadded y).mp hy)
      nodup := hperm.symm.nodup h.nodup
      live := fun e => hperm.mem_iff.trans (h.live e)
      fresh := h.fresh
      gone := fun e he => h.gone e ((hdeleted e).mp he)
      left := fun e he hnone => (hdeleted e).mpr (h.left e he hnone)
      aborted := fun e haborted => (hover e haborted).imp_right (hdeleted e).mpr }

/-- `Execute` is called. -/
theorem Sound.execute {now : ℕ} (hdue : x.1 ≤ now) :
    Sound (w.note (.executes x now)) waiting (x.2.event :: executing) aborting := by
  refine h.call _ (fun y heq => by cases heq) (fun e heq => by cases heq) rfl ⟨hdue, h.callable⟩
    (List.Perm.refl _) fun e haborted => h.aborted e ?_
  rcases aborted_cons.mp haborted with heq | haborted
  · cases heq
  · exact haborted

/-- `Abort` is called. -/
theorem Sound.abort {a : Happening} (hadds : ∀ y, a ≠ .adds y) (hdeletes : ∀ e, a ≠ .deletes e)
    (hends : a.ends = some x) (habort : a.abortOf = some x.2.event) (hright : Right w.history a) :
    Sound (w.note a) waiting executing (x.2.event :: aborting) := by
  refine h.call a hadds hdeletes hends hright List.perm_middle fun e haborted => ?_
  rcases aborted_cons.mp haborted with heq | haborted
  · rw [habort] at heq
    exact Or.inl (Option.some.inj heq ▸ List.mem_cons_self)
  · exact (h.aborted e haborted).imp_left (List.mem_cons_of_mem _)

end

/-- A loop ends. -/
theorem Sound.loopEnds (h : Sound w waiting executing aborting) {a : Happening}
    (hadds : ∀ y, a ≠ .adds y) (hdeletes : ∀ e, a ≠ .deletes e) (hends : a.ends = none)
    (habort : a.abortOf = none) (hright : Right w.history a) :
    Sound (w.note a) waiting executing aborting := by
  have hadded : ∀ y, .adds y ∈ a :: w.history ↔ .adds y ∈ w.history := fun y => by
    have hne : Happening.adds y ≠ a := (hadds y).symm
    simp only [List.mem_cons, hne, false_or]
  have hdeleted : ∀ e, .deletes e ∈ a :: w.history ↔ .deletes e ∈ w.history := fun e => by
    have hne : Happening.deletes e ≠ a := (hdeletes e).symm
    simp only [List.mem_cons, hne, false_or]
  exact
    { defined := h.defined
      lawful := ⟨hright, h.lawful⟩
      order := h.order
      waits := fun y => by
        show y ∈ waiting ↔ Waiting (a :: w.history) y
        rw [waiting_cons hadds, h.waits y, hends]
        exact ⟨fun hy => ⟨hy, fun heq => by cases heq⟩, fun hy => hy.1⟩
      inserted := fun y hy => h.inserted y ((hadded y).mp hy)
      known := fun y hy => h.known y ((hadded y).mp hy)
      nodup := h.nodup
      live := h.live
      fresh := h.fresh
      gone := fun e he => h.gone e ((hdeleted e).mp he)
      left := fun e he hnone => (hdeleted e).mpr (h.left e he hnone)
      aborted := fun e haborted => by
        rcases aborted_cons.mp haborted with heq | haborted
        · rw [habort] at heq
          cases heq
        · exact (h.aborted e haborted).imp_right (hdeleted e).mpr }

/-- A change to an event does not delete it. -/
theorem isSome_change (w : World) (event : ℕ) (f : BasicEvent → BasicEvent) (e : ℕ) :
    ((w.change event f).object e).isSome = (w.object e).isSome := by
  unfold World.change
  dsimp only
  by_cases he : e = event
  · rw [he, Function.update_self, Option.isSome_map]
  · rw [Function.update_of_ne he]

theorem eq_none_change (w : World) (event : ℕ) (f : BasicEvent → BasicEvent) (e : ℕ) :
    (w.change event f).object e = none ↔ w.object e = none := by
  rw [← Option.not_isSome_iff_eq_none, ← Option.not_isSome_iff_eq_none, isSome_change]

theorem Sound.change (h : Sound w waiting executing aborting) (event : ℕ)
    (f : BasicEvent → BasicEvent) : Sound (w.change event f) waiting executing aborting where
  defined := h.defined
  lawful := h.lawful
  order := h.order
  waits := h.waits
  inserted := h.inserted
  known := h.known
  nodup := h.nodup
  live e := by rw [isSome_change, h.live e]
  fresh e := by
    rw [isSome_change]
    exact h.fresh e
  gone e he := ⟨(eq_none_change ..).mpr (h.gone e he).1, (h.gone e he).2⟩
  left e he hnone := h.left e he ((eq_none_change ..).mp hnone)
  aborted := h.aborted

/-- A new event is held by who added it. -/
theorem Sound.allocate (h : Sound w waiting executing aborting) :
    Sound w.allocate waiting (w.allocated :: executing) aborting := by
  have hobject : ∀ e, w.allocate.object e = if e = w.allocated then some ⟨false, 0, 0⟩
      else w.object e := fun e => Function.update_apply ..
  have hnew : w.allocated ∉ waiting.map eventOf ++ (executing ++ aborting) := fun hmem =>
    Nat.lt_irrefl _ (h.fresh _ ((h.live _).mp hmem))
  have hheld : (waiting.map eventOf ++ (w.allocated :: executing ++ aborting)).Perm
      (w.allocated :: (waiting.map eventOf ++ (executing ++ aborting))) := List.perm_middle
  exact
    { defined := h.defined
      lawful := h.lawful
      order := h.order
      waits := h.waits
      inserted := h.inserted
      known := fun x hx => Nat.lt_succ_of_lt (h.known x hx)
      nodup := hheld.symm.nodup (List.nodup_cons.mpr ⟨hnew, h.nodup⟩)
      live := fun e => by
        rw [hheld.mem_iff, List.mem_cons, hobject e]
        by_cases he : e = w.allocated
        · rw [if_pos he]
          exact iff_of_true (Or.inl he) rfl
        · rw [if_neg he, ← h.live e]
          exact ⟨fun hmem => hmem.resolve_left he, Or.inr⟩
      fresh := fun e hsome => by
        rw [hobject e] at hsome
        by_cases he : e = w.allocated
        · exact he ▸ Nat.lt_succ_self _
        · rw [if_neg he] at hsome
          exact Nat.lt_succ_of_lt (h.fresh e hsome)
      gone := fun e he => by
        obtain ⟨hdead, hlt⟩ := h.gone e he
        rw [hobject e, if_neg (Nat.ne_of_lt hlt)]
        exact ⟨hdead, Nat.lt_succ_of_lt hlt⟩
      left := fun e he hdead => by
        rw [hobject e] at hdead
        by_cases heq : e = w.allocated
        · rw [if_pos heq] at hdead
          cases hdead
        · rw [if_neg heq] at hdead
          exact h.left e (Nat.lt_of_le_of_ne (Nat.le_of_lt_succ he) heq) hdead
      aborted := h.aborted }

/-- **`AddEvent`.**  An event that is held waits again. -/
theorem Sound.add (h : Sound w waiting (e :: executing) aborting) (t : ℕ)
    (f : BasicEvent → BasicEvent) {waiting' : List Scheduled} (horder : InOrder waiting')
    (hperm : waiting'.Perm ((t, ⟨e, w.insertions⟩) :: waiting)) :
    Sound (World.note { w.change e f with insertions := w.insertions + 1 }
      (.adds (t, ⟨e, w.insertions⟩))) waiting' executing aborting := by
  have hnew : Happening.adds (t, ⟨e, w.insertions⟩) ∉ w.history := fun hmem =>
    Nat.lt_irrefl _ (h.inserted _ hmem)
  have hdeleted : .deletes e ∉ w.history := fun hmem => by
    have hsome := h.isSome_executing
    rw [(h.gone e hmem).1] at hsome
    cases hsome
  have hheld : (waiting'.map eventOf ++ (executing ++ aborting)).Perm
      (waiting.map eventOf ++ (e :: executing ++ aborting)) :=
    ((hperm.map eventOf).append_right _).trans List.perm_middle.symm
  have hdeletes : ∀ e', Happening.deletes e' ∈
      Happening.adds (t, ⟨e, w.insertions⟩) :: w.history ↔ .deletes e' ∈ w.history := fun e' => by
    simp only [List.mem_cons, reduceCtorEq, false_or]
  exact
    { defined := h.defined
      lawful := ⟨⟨h.inserted, hdeleted⟩, h.lawful⟩
      order := horder
      waits := fun y => by
        rw [hperm.mem_iff, List.mem_cons, h.waits y]
        show _ ↔ .adds y ∈ Happening.adds (t, ⟨e, w.insertions⟩) :: w.history ∧
          ¬Ended (.adds (t, ⟨e, w.insertions⟩) :: w.history) y
        rw [ended_cons, List.mem_cons, Happening.adds.injEq]
        constructor
        · rintro (rfl | ⟨hy, hended⟩)
          · refine ⟨Or.inl rfl, fun hended => hnew (h.lawful.added (hended.resolve_left ?_))⟩
            exact fun heq => by cases heq
          · refine ⟨Or.inr hy, fun hended' => hended (hended'.resolve_left ?_)⟩
            exact fun heq => by cases heq
        · rintro ⟨rfl | hy, hended⟩
          · exact Or.inl rfl
          · exact Or.inr ⟨hy, fun hended' => hended (Or.inr hended')⟩
      inserted := fun y hy => by
        rcases List.mem_cons.mp hy with heq | hy
        · cases heq
          exact Nat.lt_succ_self _
        · exact Nat.lt_succ_of_lt (h.inserted y hy)
      known := fun y hy => by
        rcases List.mem_cons.mp hy with heq | hy
        · cases heq
          exact h.fresh e h.isSome_executing
        · exact h.known y hy
      nodup := hheld.symm.nodup h.nodup
      live := fun e' => by
        rw [hheld.mem_iff, h.live e']
        exact Bool.eq_iff_iff.mp (isSome_change w e f e').symm
      fresh := fun e' hsome => h.fresh e' ((isSome_change w e f e').symm.trans hsome)
      gone := fun e' he => by
        obtain ⟨hnone, hlt⟩ := h.gone e' ((hdeletes e').mp he)
        exact ⟨(eq_none_change w e f e').mpr hnone, hlt⟩
      left := fun e' he hnone =>
        (hdeletes e').mpr (h.left e' he ((eq_none_change w e f e').mp hnone))
      aborted := fun e' haborted => by
        rcases aborted_cons.mp haborted with heq | haborted
        · cases heq
        · exact (h.aborted e' haborted).imp_right (hdeletes e').mpr }

/-- **`delete`.**  An event that is held is gone. -/
theorem Sound.delete {executing' aborting' : List ℕ} (h : Sound w waiting executing aborting)
    (hheld : (executing ++ aborting).Perm (e :: (executing' ++ aborting')))
    (hover : ∀ e' ∈ aborting, e' = e ∨ e' ∈ aborting') :
    Sound (w.delete e) waiting executing' aborting' := by
  have hperm : (waiting.map eventOf ++ (executing ++ aborting)).Perm
      (e :: (waiting.map eventOf ++ (executing' ++ aborting'))) :=
    (hheld.append_left _).trans List.perm_middle
  have hnodup := List.nodup_cons.mp (hperm.nodup h.nodup)
  have hsome : (w.object e).isSome = true := (h.live e).mp (hperm.mem_iff.mpr List.mem_cons_self)
  have hobject : ∀ e', Function.update w.object e none e' = if e' = e then none else w.object e' :=
    fun e' => Function.update_apply ..
  have hdelete : w.delete e = { w with
      object := Function.update w.object e none
      history := .deletes e :: w.history } := if_pos hsome
  have hnew : .deletes e ∉ w.history := fun hmem => by
    rw [(h.gone e hmem).1] at hsome
    cases hsome
  have hadds : ∀ y, Happening.adds y ∈ Happening.deletes e :: w.history ↔ .adds y ∈ w.history :=
    fun y => by simp only [List.mem_cons, reduceCtorEq, false_or]
  rw [hdelete]
  exact
    { defined := h.defined
      lawful := ⟨⟨hnew, fun x hx heq => hnodup.1 (List.mem_append_left _
        (List.mem_map.mpr ⟨x, (h.waits x).mpr hx, heq⟩))⟩, h.lawful⟩
      order := h.order
      waits := fun y => by
        rw [waiting_cons (fun y heq => by cases heq), h.waits y]
        exact ⟨fun hy => ⟨hy, fun heq => by cases heq⟩, fun hy => hy.1⟩
      inserted := fun y hy => h.inserted y ((hadds y).mp hy)
      known := fun y hy => h.known y ((hadds y).mp hy)
      nodup := hnodup.2
      live := fun e' => by
        show _ ↔ (Function.update w.object e none e').isSome = true
        rw [hobject e']
        by_cases he : e' = e
        · rw [if_pos he, he]
          exact iff_of_false hnodup.1 (by decide)
        · rw [if_neg he, ← h.live e', hperm.mem_iff, List.mem_cons]
          exact ⟨Or.inr, fun hmem => hmem.resolve_left he⟩
      fresh := fun e' hsome' => by
        refine h.fresh e' ?_
        change (Function.update w.object e none e').isSome = true at hsome'
        rw [hobject e'] at hsome'
        by_cases he : e' = e
        · rw [if_pos he] at hsome'
          cases hsome'
        · rwa [if_neg he] at hsome'
      gone := fun e' he' => by
        show Function.update w.object e none e' = none ∧ _
        rw [hobject e']
        rcases List.mem_cons.mp he' with heq | he'
        · cases heq
          exact ⟨if_pos rfl, h.fresh e hsome⟩
        · obtain ⟨hnone, hlt⟩ := h.gone e' he'
          by_cases he : e' = e
          · exact ⟨if_pos he, hlt⟩
          · exact ⟨(if_neg he).trans hnone, hlt⟩
      left := fun e' hlt hnone => by
        change Function.update w.object e none e' = none at hnone
        rw [hobject e'] at hnone
        by_cases he : e' = e
        · rw [he]
          exact List.mem_cons_self
        · rw [if_neg he] at hnone
          exact List.mem_cons_of_mem _ (h.left e' hlt hnone)
      aborted := fun e' haborted => by
        rcases aborted_cons.mp haborted with heq | haborted
        · cases heq
        · rcases h.aborted e' haborted with hmem | hdeleted
          · rcases hover e' hmem with rfl | hmem
            · exact Or.inr List.mem_cons_self
            · exact Or.inl hmem
          · exact Or.inr (List.mem_cons_of_mem _ hdeleted) }

/-- What `Execute` did not add again. -/
theorem Sound.deleteExecuted (h : Sound w waiting (e :: executing) aborting) :
    Sound (w.delete e) waiting executing aborting :=
  h.delete (List.Perm.refl _) fun _ => Or.inr

/-- What `Abort` was called for. -/
theorem Sound.deleteAborted (h : Sound w waiting executing (e :: aborting)) :
    Sound (w.delete e) waiting executing aborting :=
  h.delete List.perm_middle fun _ => List.mem_cons.mp

end Events

/-! ## 3. Where the iterators are -/

def Frame.executing : Frame → Option ℕ
  | .execute x false => some x.2.event
  | _ => none

def Frame.aborting : Frame → Option ℕ
  | .abort x => some x.2.event
  | .kill _ iOld _ => some iOld.2.event
  | .execute _ _ => none

/-- Callbacks of `Update` are at the bottom. -/
inductive Bottom : List Frame → Prop
  | outside : Bottom []
  | execute (x : Scheduled) (readded : Bool) : Bottom [.execute x readded]
  | abort (x : Scheduled) : Bottom [.abort x]

/-- **`KillAllEvents` between two rounds**: what it has passed and what is to come.  What it forced
out stays in the multimap; the rest was added behind its back. -/
structure Partway (n : ℕ) (force : Bool) (i : Option Scheduled)
    (mEvents waiting done todo : List Scheduled) : Prop where
  order : InOrder mEvents
  inserted : ∀ y ∈ mEvents, y.2.insertion < n
  waits : waiting = (if force then [] else done) ++ todo
  iterator : (i = todo.head? ∧ (force = false → done = [])) ∨ (i = none ∧ force = false)

/-- How the multimap goes with what waits, and with the callbacks. -/
inductive Placed (n : ℕ) (mEvents waiting : List Scheduled) : List Frame → Prop
  | calling {stack : List Frame} (bottom : Bottom stack) (events : mEvents = waiting) :
    Placed n mEvents waiting stack
  | killing {stack : List Frame} {force : Bool} {iOld : Scheduled} {i : Option Scheduled}
    (done todo : List Scheduled) (bottom : Bottom stack) (events : mEvents = done ++ iOld :: todo)
    (partway : Partway n force i mEvents waiting done todo) :
    Placed n mEvents waiting (.kill force iOld i :: stack)

/-- **The invariant.** -/
def Inv (m : Machine) : Prop :=
  ∃ waiting, Sound m.world waiting (m.stack.filterMap Frame.executing)
      (m.stack.filterMap Frame.aborting) ∧
    Placed m.world.insertions m.mEvents waiting m.stack

theorem inv_init : Inv .init := ⟨[], sound_init, .calling .outside rfl⟩

/-- An entry is added behind the iterator, or after it found the last entry. -/
theorem Partway.enqueue {n t e : ℕ} {force : Bool} {iOld : Scheduled} {i : Option Scheduled}
    {waiting done todo : List Scheduled}
    (h : Partway n force i (done ++ iOld :: todo) waiting done todo)
    (hbehind : ∀ x ∈ i, x.1 ≤ t) (hforce : force = true → i.isSome = true) :
    ∃ waiting' done' todo', enqueue t ⟨e, n⟩ (done ++ iOld :: todo) = done' ++ iOld :: todo' ∧
      waiting'.Perm ((t, ⟨e, n⟩) :: waiting) ∧ InOrder waiting' ∧
      Partway (n + 1) force i (System.enqueue t ⟨e, n⟩ (done ++ iOld :: todo)) waiting' done'
        todo' := by
  have horder : InOrder (System.enqueue t ⟨e, n⟩ (done ++ iOld :: todo)) :=
    h.order.enqueue t ⟨e, n⟩ h.inserted
  have hinserted : ∀ y ∈ System.enqueue t ⟨e, n⟩ (done ++ iOld :: todo),
      y.2.insertion < n + 1 := by
    intro y hy
    rcases mem_enqueue.mp hy with rfl | hy
    · exact Nat.lt_succ_self n
    · exact Nat.lt_succ_of_lt (h.inserted y hy)
  have hsub : ∀ done' todo' : List Scheduled,
      ((if force then [] else done') ++ todo').Sublist (done' ++ iOld :: todo') := by
    intro done' todo'
    refine List.Sublist.append ?_ (List.sublist_cons_self ..)
    cases force with
    | true => exact List.nil_sublist _
    | false => exact List.Sublist.refl _
  -- the two parts of the new multimap, and the iterator
  obtain ⟨done', todo', hsplit, hperm, hiterator⟩ : ∃ done' todo',
      System.enqueue t ⟨e, n⟩ (done ++ iOld :: todo) = done' ++ iOld :: todo' ∧
      ((if force then [] else done') ++ todo').Perm
        ((t, ⟨e, n⟩) :: ((if force then [] else done) ++ todo)) ∧
      ((i = todo'.head? ∧ (force = false → done' = [])) ∨ (i = none ∧ force = false)) := by
    cases i with
    | some y =>
      obtain ⟨hhead, hdone⟩ := h.iterator.resolve_right fun hnone => by cases hnone.1
      cases todo with
      | nil => cases hhead
      | cons z rest =>
        obtain rfl : y = z := Option.some.inj hhead
        have hy : y.1 ≤ t := hbehind y rfl
        have hpre : ∀ x ∈ done ++ [iOld], x.1 ≤ t := by
          intro x hx
          have hpairs := h.order
          rw [List.append_cons] at hpairs
          exact Nat.le_trans
            ((List.pairwise_append.mp hpairs).2.2 x hx y List.mem_cons_self).le hy
        refine ⟨done, System.enqueue t ⟨e, n⟩ (y :: rest), ?_, ?_, Or.inl ⟨?_, hdone⟩⟩
        · rw [List.append_cons, enqueue_append hpre, ← List.append_cons]
        · exact ((enqueue_perm ..).append_left _).trans List.perm_middle
        · rw [System.enqueue, if_pos hy]
          rfl
    | none =>
      obtain rfl : force = false := by
        cases force with
        | false => rfl
        | true => cases hforce rfl
      have hperm := enqueue_perm t (⟨e, n⟩ : Node) (done ++ iOld :: todo)
      obtain ⟨done', todo', hsplit⟩ := List.append_of_mem
        (hperm.mem_iff.mpr (List.mem_cons_of_mem _ (List.mem_append_right done
          (List.mem_cons_self (a := iOld)))))
      rw [hsplit] at hperm
      refine ⟨done', todo', hsplit, ?_, Or.inr ⟨rfl, rfl⟩⟩
      have hboth := List.perm_middle.symm.trans (hperm.trans
        ((List.perm_middle.cons _).trans (List.Perm.swap ..)))
      exact (List.perm_cons iOld).mp hboth
  refine ⟨(if force then [] else done') ++ todo', done', todo', hsplit, ?_, ?_,
    ⟨horder, hinserted, rfl, hiterator⟩⟩
  · rw [h.waits]
    exact hperm
  · rw [hsplit] at horder
    exact List.Pairwise.sublist (hsub done' todo') horder

/-- An entry is added. -/
theorem Placed.enqueue {n t e : ℕ} {mEvents waiting : List Scheduled} {stack : List Frame}
    (h : Placed n mEvents waiting stack) (horder : InOrder waiting)
    (hinserted : ∀ y ∈ waiting, y.2.insertion < n)
    (htame : ∀ force iOld i, stack.head? = some (.kill force iOld i) →
      (∀ x ∈ i, x.1 ≤ t) ∧ (force = true → i.isSome = true)) :
    ∃ waiting', waiting'.Perm ((t, ⟨e, n⟩) :: waiting) ∧ InOrder waiting' ∧
      Placed (n + 1) (System.enqueue t ⟨e, n⟩ mEvents) waiting' stack := by
  cases h with
  | calling bottom events =>
    subst events
    exact ⟨_, enqueue_perm .., horder.enqueue t ⟨e, n⟩ hinserted, .calling bottom rfl⟩
  | killing done todo bottom events partway =>
    subst events
    obtain ⟨hbehind, hforce⟩ := htame _ _ _ rfl
    obtain ⟨waiting', done', todo', hsplit, hperm, horder', hpartway⟩ :=
      partway.enqueue hbehind hforce
    exact ⟨waiting', hperm, horder', .killing done' todo' bottom hsplit hpartway⟩

/-! ## 4. The loops -/

section Loops

variable {m : Machine} {waiting : List Scheduled}

/-- The loop of `Update` goes on to the next callback, or ends. -/
theorem inv_updateLoop (hstack : m.stack = []) (h : Sound m.world m.mEvents [] []) :
    Inv m.updateLoop := by
  have hends : (∀ y ∈ m.mEvents, m.mTime < y.1) →
      Inv { m with world := m.world.note (.updated m.mTime) } := by
    intro hlate
    refine ⟨m.mEvents, ?_, ?_⟩
    · rw [hstack]
      exact h.loopEnds (fun y heq => by cases heq) (fun e heq => by cases heq) rfl rfl
        fun x hx => hlate x ((h.waits x).mpr hx)
    · rw [hstack]
      exact .calling .outside rfl
  unfold Machine.updateLoop
  split
  · next hevents =>
    refine hends fun y hy => ?_
    rw [hevents] at hy
    exact absurd hy List.not_mem_nil
  · next x rest hevents =>
    rw [hevents] at h
    by_cases hdue : x.1 ≤ m.mTime
    · rw [if_pos hdue]
      obtain ⟨event, hevent⟩ := Option.isSome_iff_exists.mp (h.isSome List.mem_cons_self)
      rw [hevent, hstack]
      dsimp only
      cases habort : event.toAbort with
      | true =>
        exact ⟨rest, h.abort (fun y heq => by cases heq) (fun e heq => by cases heq) rfl rfl
          ⟨hdue, h.callable⟩, .calling (.abort x) rfl⟩
      | false => exact ⟨rest, h.execute hdue, .calling (.execute x false) rfl⟩
    · rw [if_neg hdue]
      refine hends fun y hy => ?_
      rw [hevents] at hy
      rcases List.mem_cons.mp hy with rfl | hmem
      · exact Nat.lt_of_not_le hdue
      · exact Nat.lt_of_lt_of_le (Nat.lt_of_not_le hdue)
          ((List.pairwise_cons.mp h.order).1 y hmem).le

/-- The iterator after an entry that does not stand further to the front. -/
theorem following_append {x : Scheduled} {rest : List Scheduled} : ∀ {done : List Scheduled},
    x ∉ done → Machine.following x (done ++ x :: rest) = rest.head?
  | [], _ => if_pos rfl
  | y :: done, hx => by
    have hne : y ≠ x := fun heq => hx (heq ▸ List.mem_cons_self)
    rw [List.cons_append, Machine.following, if_neg hne]
    exact following_append fun hmem => hx (List.mem_cons_of_mem y hmem)

/-- The loop of `KillAllEvents` goes on to the next callback, or ends. -/
theorem inv_killLoop {force : Bool} {i : Option Scheduled} (done todo : List Scheduled)
    (bottom : Bottom m.stack)
    (h : Sound m.world waiting (m.stack.filterMap Frame.executing)
      (m.stack.filterMap Frame.aborting))
    (hevents : m.mEvents = done ++ todo)
    (hpartway : Partway m.world.insertions force i m.mEvents waiting done todo) :
    Inv (m.killLoop force i) := by
  cases i with
  | none =>
    have hlast : force = true → todo = [] := fun hforce => by
      rcases hpartway.iterator with ⟨hhead, -⟩ | ⟨-, hunforced⟩
      · exact List.head?_eq_none_iff.mp hhead.symm
      · rw [hforce] at hunforced
        cases hunforced
    have hrest : (if force then [] else m.mEvents) = waiting := by
      rw [hpartway.waits, hevents]
      cases force with
      | true => rw [hlast rfl]; rfl
      | false => rfl
    refine ⟨waiting, ?_, .calling bottom hrest⟩
    refine h.loopEnds (fun y heq => by cases heq) (fun e heq => by cases heq) rfl rfl ?_
    intro hforce x hx
    rw [← h.waits x, ← hrest, if_pos hforce] at hx
    exact List.not_mem_nil hx
  | some x =>
    obtain ⟨hhead, hdone⟩ := hpartway.iterator.resolve_right fun hnone => by cases hnone.1
    cases todo with
    | nil => cases hhead
    | cons z rest =>
      obtain rfl : x = z := Option.some.inj hhead
      have hwaiting : waiting = x :: rest := by
        rw [hpartway.waits]
        cases force with
        | true => rfl
        | false => rw [hdone rfl]; rfl
      subst hwaiting
      have hmem : x ∈ m.mEvents := hevents ▸ List.mem_append_right done List.mem_cons_self
      have hx : x ∉ done := fun hx => by
        have horder := hpartway.order
        rw [hevents] at horder
        exact ((List.pairwise_append.mp horder).2.2 x hx x List.mem_cons_self).irrefl
      unfold Machine.killLoop
      dsimp only
      rw [if_pos ⟨hmem, h.isSome List.mem_cons_self⟩]
      refine ⟨rest, ?_, ?_⟩
      · exact (h.change x.2.event _).abort (fun y heq => by cases heq)
          (fun e heq => by cases heq) rfl rfl h.callable
      · refine .killing done rest bottom hevents ⟨hpartway.order, hpartway.inserted, ?_, ?_⟩
        · cases force with
          | true => rfl
          | false => rw [hdone rfl]; rfl
        · left
          refine ⟨?_, hdone⟩
          rw [hevents]
          exact following_append hx

/-- What `Abort` was called for is deleted, and the loop goes on. -/
theorem inv_afterAbort {force isDeletable : Bool} {iOld : Scheduled} {i : Option Scheduled}
    {done todo : List Scheduled} (bottom : Bottom m.stack)
    (h : Sound m.world waiting (m.stack.filterMap Frame.executing)
      (iOld.2.event :: m.stack.filterMap Frame.aborting))
    (hevents : m.mEvents = done ++ iOld :: todo)
    (hpartway : Partway m.world.insertions force i m.mEvents waiting done todo)
    (htame : force = true ∨ isDeletable = true) :
    Inv ((m.afterAbort force iOld isDeletable).killLoop force i) := by
  have hmem : iOld ∈ m.mEvents := hevents ▸ List.mem_append_right done List.mem_cons_self
  have hinsertions : (m.world.delete iOld.2.event).insertions = m.world.insertions := by
    unfold World.delete
    rw [if_pos h.isSome_aborting]
  have hafter : m.afterAbort force iOld isDeletable = { m with
      mEvents := if force then m.mEvents else m.mEvents.erase iOld
      world := m.world.delete iOld.2.event } := by
    unfold Machine.afterAbort
    rw [if_pos ⟨hmem, h.isSome_aborting⟩, if_pos (by simpa using htame)]
  rw [hafter]
  cases force with
  | true =>
    refine inv_killLoop (done ++ [iOld]) todo bottom h.deleteAborted
      (hevents.trans (List.append_cons ..)) ⟨hpartway.order, ?_, hpartway.waits, ?_⟩
    · rw [hinsertions]
      exact hpartway.inserted
    · exact hpartway.iterator.imp_left fun hfirst => ⟨hfirst.1, fun hforce => by cases hforce⟩
  | false =>
    have hiOld : iOld ∉ done := fun hin => by
      have horder := hpartway.order
      rw [hevents] at horder
      exact ((List.pairwise_append.mp horder).2.2 iOld hin iOld List.mem_cons_self).irrefl
    have herase : m.mEvents.erase iOld = done ++ todo := by
      rw [hevents, List.erase_append_right _ hiOld, List.erase_cons_head]
    refine inv_killLoop done todo bottom h.deleteAborted herase
      ⟨hpartway.order.sublist List.erase_sublist, ?_, hpartway.waits, hpartway.iterator⟩
    rw [hinsertions]
    exact fun y hy => hpartway.inserted y (List.mem_of_mem_erase hy)

/-- `AddEvent` of an event that is held. -/
theorem inv_addEvent {e t : ℕ} {setAddtime : Bool}
    (h : Sound m.world waiting (e :: m.stack.filterMap Frame.executing)
      (m.stack.filterMap Frame.aborting))
    (hplaced : Placed m.world.insertions m.mEvents waiting m.stack)
    (htame : ∀ force iOld i, m.stack.head? = some (.kill force iOld i) →
      (∀ x ∈ i, x.1 ≤ t) ∧ (force = true → i.isSome = true)) :
    Inv (m.addEvent e t setAddtime) := by
  unfold Machine.addEvent
  rw [if_pos h.isSome_executing]
  obtain ⟨waiting', hperm, horder, hplaced'⟩ := hplaced.enqueue (e := e) h.order
    (fun y hy => h.inserted y ((h.waits y).mp hy).1) htame
  exact ⟨waiting', h.add t _ horder hperm, hplaced'⟩

end Loops

/-! ## 5. Runs -/

/-- **A tame step keeps the invariant.** -/
theorem inv_step (m : Machine) (input : Input) (hinv : Inv m) (htame : Tame m input) :
    Inv (step m input) := by
  obtain ⟨waiting, h, hplaced⟩ := hinv
  unfold step
  rw [h.defined, if_neg Bool.false_ne_true]
  cases input with
  | addEvent eTime setAddtime =>
    exact inv_addEvent (m := { m with world := m.world.allocate }) h.allocate hplaced
      fun force iOld i hhead => htame _ hhead
  | readdEvent eTime setAddtime =>
    simp only [Machine.next]
    split
    · next x outer hstack =>
      rw [hstack] at h hplaced
      cases hplaced with
      | calling bottom events =>
        cases bottom
        exact inv_addEvent (m := { m with stack := [.execute x true] }) h
          (.calling (.execute x true) events) fun force iOld i hhead => by cases hhead
    · exact ⟨waiting, h, hplaced⟩
  | setAbort event => exact ⟨waiting, h.change event _, hplaced⟩
  | update pTime =>
    simp only [Machine.next]
    by_cases hstack : m.stack = []
    · rw [if_pos hstack]
      rw [hstack] at h hplaced
      cases hplaced with
      | calling bottom events =>
        subst events
        exact inv_updateLoop (m := { m with mTime := (m.mTime + pTime) % 2 ^ 64 }) hstack h
    · rw [if_neg hstack]
      exact ⟨waiting, h, hplaced⟩
  | killAllEvents force =>
    generalize hstack : m.stack = stack at h hplaced
    cases hplaced with
    | calling bottom events =>
      subst events
      refine inv_killLoop (m := { m with mAborting := true }) [] m.mEvents (hstack ▸ bottom)
        (hstack ▸ h) rfl ⟨h.order, fun y hy => ?_, ?_, ?_⟩
      · exact h.inserted y ((h.waits y).mp hy).1
      · rw [ite_self]
        rfl
      · exact Or.inl ⟨rfl, fun _ => rfl⟩
    | killing done todo bottom events partway =>
      have hfalse := htame _ (by rw [hstack]; rfl)
      exact absurd hfalse id
  | returns isDeletable =>
    simp only [Machine.next]
    split
    · exact ⟨waiting, h, hplaced⟩
    · next x readded outer hstack =>
      rw [hstack] at h hplaced
      cases hplaced with
      | calling bottom events =>
        subst events
        cases bottom
        refine inv_updateLoop rfl ?_
        cases readded with
        | true => exact h
        | false => exact h.deleteExecuted
    · next x outer hstack =>
      rw [hstack] at h hplaced
      cases hplaced with
      | calling bottom events =>
        subst events
        cases bottom
        exact inv_updateLoop rfl h.deleteAborted
    · next force iOld i outer hstack =>
      have hdeletable := htame (.kill force iOld i) (by rw [hstack]; rfl)
      rw [hstack] at h hplaced
      cases hplaced with
      | calling bottom events => cases bottom
      | killing done todo bottom events partway =>
        exact inv_afterAbort (m := { m with stack := outer }) bottom h events partway hdeletable

/-- What the invariant says. -/
theorem Inv.kept {m : Machine} (hinv : Inv m) : Kept m := by
  obtain ⟨waiting, h, hplaced⟩ := hinv
  refine ⟨h.defined, h.lawful, fun hnot x => ?_, fun hstack x hx => ?_⟩
  · generalize m.stack = stack at hplaced hnot
    cases hplaced with
    | calling bottom events => rw [events, h.waits x]
    | killing done todo bottom events partway => exact absurd rfl (hnot _ _ _)
  · rw [hstack] at h hplaced
    cases hplaced with
    | calling bottom events =>
      by_cases hsome : (m.world.object x.2.event).isSome = true
      · have hmem := (h.live _).mpr hsome
        simp only [List.filterMap_nil, List.append_nil] at hmem
        obtain ⟨y, hy, heq⟩ := List.mem_map.mp hmem
        exact Or.inr ⟨y, events ▸ hy, heq⟩
      · exact Or.inl (h.left _ (h.known x hx) (Option.not_isSome_iff_eq_none.mp hsome))

/-- **The processor keeps its promises** in every run that meets the condition. -/
theorem kept_of_tame {inputs : List Input} (h : Along step Tame .init inputs) :
    Kept (exec step .init inputs) :=
  (exec_invariant inv_step inv_init h).kept

/-- Two events are executed, the first one twice; what it adds is killed. -/
theorem kept_of_tame_readded : Kept (exec step .init [.addEvent 5 true, .addEvent 7 true, .update 6,
    .readdEvent 8 false, .addEvent 20 true, .returns true, .update 3, .returns true, .returns true,
    .killAllEvents false, .addEvent 4 true, .returns true, .killAllEvents true, .returns true]) :=
  kept_of_tame (by decide)

/-- An event is there when all are killed; as it is aborted, another one is added. -/
def addedWhileKilled : List Input :=
  [.addEvent 100 true, .killAllEvents true, .addEvent 50 true, .returns true]

/-- **The event is lost.**  It is neither executed nor aborted nor deleted. -/
theorem added_while_killed : ¬Kept (exec step .init addedWhileKilled) := by
  intro h
  obtain ⟨hright, -⟩ := h.lawful
  refine hright rfl (50, ⟨1, 1⟩) ⟨by decide, ?_⟩
  rintro ⟨a, hmem, hends⟩
  revert a
  decide

end HungerGames.EventProcessor
