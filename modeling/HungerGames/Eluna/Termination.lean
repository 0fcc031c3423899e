/-
# When an update comes to an end (`ElunaEventProcessor::Update`)

The loop puts an event in again before it calls it, at the time of the update plus its delay, and
goes on as long as the first event is due.  A delay of 0 puts it where the loop finds it again; so
does one with which the `uint64` wraps.  An event with a number of calls is through after so many
rounds.  One that is called for ever is never through: it is `Eternal`.

`budgets` counts the calls that are left to an update without such an event.  No script can make it
more by removing events, and every call makes it less (`finitelyMany_iff`).
-/
import HungerGames.Eluna.ElunaEventMgr
import Mathlib.Algebra.Order.BigOperators.Group.List
import Mathlib.Algebra.Order.Ring.Nat

namespace HungerGames.Eluna

open HungerGames.System

/-! ## 1. What an update still has to call -/

/-- An event that is due, is called for ever, and is due again when it is called. -/
def Eternal (p : Processor) (entry : ℕ × ℕ) : Prop :=
  entry.1 ≤ p.mTime ∧ ∃ event, p.object entry.2 = some event ∧ event.toAbort = false ∧
    event.calls = 0 ∧ p.due event ≤ p.mTime

/-- The calls of an event that are left to this update. -/
def Processor.budget (p : Processor) (entry : ℕ × ℕ) : ℕ :=
  match p.object entry.2 with
  | none => 0
  | some event =>
    if event.toAbort = true ∨ p.mTime < entry.1 then 0
    else if p.mTime < p.due event then 1 else event.calls

/-- The calls that are left to this update. -/
def Processor.budgets (p : Processor) : ℕ := (p.eventList.map p.budget).sum

/-- No event is called for ever. -/
def Mortal (p : Processor) : Prop := ∀ entry ∈ p.eventList, ¬ Eternal p entry

section Processors

variable {p q : Processor} {held : List ℕ} {a : ℕ} {event : LuaEvent}

theorem budget_congr (htime : q.mTime = p.mTime) {entry : ℕ × ℕ}
    (hobject : q.object entry.2 = p.object entry.2) : q.budget entry = p.budget entry := by
  unfold Processor.budget Processor.due
  rw [hobject, htime]

theorem eternal_congr (htime : q.mTime = p.mTime) {entry : ℕ × ℕ}
    (hobject : q.object entry.2 = p.object entry.2) : Eternal q entry ↔ Eternal p entry := by
  unfold Eternal Processor.due
  rw [hobject, htime]

theorem budgets_congr (htime : q.mTime = p.mTime) {entries : List (ℕ × ℕ)}
    (hobject : ∀ entry ∈ entries, q.object entry.2 = p.object entry.2) :
    (entries.map q.budget).sum = (entries.map p.budget).sum :=
  congrArg List.sum (List.map_congr_left fun entry hmem =>
    budget_congr htime (hobject entry hmem))

/-- The budget of an event that is due. -/
theorem budget_due {time : ℕ} (ha : p.object a = some event) (habort : event.toAbort = false)
    (htime : time ≤ p.mTime) :
    p.budget (time, a) = if p.mTime < p.due event then 1 else event.calls := by
  unfold Processor.budget
  rw [show p.object (time, a).2 = some event from ha]
  dsimp only
  rw [habort]
  exact if_neg (not_or.mpr ⟨Bool.false_ne_true, Nat.not_lt_of_le htime⟩)

/-- A step leaves no event that is called for ever, and takes each call from the budgets. -/
def Spends (p q : Processor) : Prop :=
  Mortal p → Mortal q ∧ q.executed.length + q.budgets ≤ p.executed.length + p.budgets

/-- Nothing changes for the events in the multimap. -/
theorem spends_of_same (htime : q.mTime = p.mTime) (hlist : q.eventList = p.eventList)
    (hexecuted : q.executed = p.executed)
    (hobject : ∀ entry ∈ p.eventList, q.object entry.2 = p.object entry.2) : Spends p q := by
  intro hmortal
  refine ⟨fun entry hmem => ?_, ?_⟩
  · rw [hlist] at hmem
    rw [eternal_congr htime (hobject entry hmem)]
    exact hmortal entry hmem
  · unfold Processor.budgets
    rw [hexecuted, hlist, budgets_congr htime hobject]

theorem spends_removeEvents (p : Processor) : Spends p p.removeEvents := by
  refine fun _ => ⟨List.forall_mem_nil _, ?_⟩
  have hexecuted : p.removeEvents.executed = p.executed := foldl_delete_logs _ p
  have hbudgets : p.removeEvents.budgets = 0 := rfl
  rw [hexecuted, hbudgets]
  exact Nat.le_add_right _ _

theorem spends_removeEvent (p : Processor) (eventId : ℤ) : Spends p (p.removeEvent eventId) := by
  intro hmortal
  unfold Processor.removeEvent
  cases hmap : p.eventMap eventId with
  | none => exact ⟨hmortal, Nat.le_refl _⟩
  | some a =>
    dsimp only
    have htime : (p.abort a).mTime = p.mTime := rfl
    have hlist : (p.abort a).eventList = p.eventList := rfl
    have hexecuted : (p.abort a).executed = p.executed := rfl
    have haborted : ∀ event, (p.abort a).object a = some event → event.toAbort = true := by
      intro event he
      unfold Processor.abort at he
      dsimp only at he
      rw [Function.update_self, Option.map_eq_some_iff] at he
      obtain ⟨e, -, rfl⟩ := he
      rfl
    have hothers : ∀ b, b ≠ a → (p.abort a).object b = p.object b := fun b hb =>
      Function.update_of_ne hb ..
    generalize p.abort a = q at *
    refine ⟨fun entry hmem heternal => ?_, ?_⟩
    · by_cases ha : entry.2 = a
      · obtain ⟨-, event, he, hrunning, -⟩ := heternal
        rw [ha] at he
        rw [haborted event he] at hrunning
        cases hrunning
      · rw [hlist] at hmem
        exact hmortal entry hmem ((eternal_congr htime (hothers _ ha)).mp heternal)
    · rw [hexecuted]
      refine Nat.add_le_add_left ?_ _
      unfold Processor.budgets
      rw [hlist]
      refine List.sum_le_sum fun entry _ => ?_
      by_cases ha : entry.2 = a
      · have hzero : q.budget entry = 0 := by
          unfold Processor.budget
          cases he : q.object entry.2 with
          | none => rfl
          | some event => exact if_pos (Or.inl (haborted event (by rw [← ha, he])))
        rw [hzero]
        exact Nat.zero_le _
      · rw [budget_congr htime (hothers _ ha)]

variable {time : ℕ} {rest : List (ℕ × ℕ)}

theorem budgets_cons (hlist : p.eventList = (time, a) :: rest) :
    p.budgets = p.budget (time, a) + (rest.map p.budget).sum := by
  unfold Processor.budgets
  rw [hlist, List.map_cons, List.sum_cons]

/-- A round that deletes an aborted event. -/
theorem spends_deleted (h : Owned p held) (hlist : p.eventList = (time, a) :: rest) :
    Spends p ((p.erase rest event).delete a) := by
  intro hmortal
  have hobject : ∀ entry ∈ rest,
      ((p.erase rest event).delete a).object entry.2 = p.object entry.2 := fun entry hmem =>
    Function.update_of_ne (ne_of_mem_rest h hlist entry hmem) ..
  have hnow : ((p.erase rest event).delete a).mTime = p.mTime := rfl
  have hentries : ((p.erase rest event).delete a).eventList = rest := rfl
  have hexecuted : ((p.erase rest event).delete a).executed = p.executed := rfl
  generalize (p.erase rest event).delete a = q at *
  refine ⟨fun entry hmem => ?_, ?_⟩
  · rw [hentries] at hmem
    rw [eternal_congr hnow (hobject entry hmem)]
    exact hmortal entry (hlist ▸ List.mem_cons_of_mem _ hmem)
  · rw [hexecuted, budgets_cons hlist, Processor.budgets, hentries, budgets_congr hnow hobject]
    omega

/-- A round that calls an event. -/
theorem spends_call (h : Owned p held) (hlist : p.eventList = (time, a) :: rest)
    (htime : time ≤ p.mTime) (ha : p.object a = some event) (habort : event.toAbort = false) :
    Spends p ((p.erase rest event).call a event) := by
  intro hmortal
  obtain ⟨hnow, hexecuted, hobjects, hentries⟩ := call_eq p a event rest
  generalize (p.erase rest event).call a event = q at *
  have hrest : ∀ entry ∈ rest, q.object entry.2 = p.object entry.2 := by
    intro entry hmem
    rw [hobjects, Function.update_of_ne (ne_of_mem_rest h hlist entry hmem)]
  have hself : q.object a = some { event with calls := event.calls - 1 } := by
    rw [hobjects, Function.update_self]
  have hbudget := budget_due ha habort htime
  -- an event that is called for ever is not due again
  have hnever : event.calls = 0 → p.mTime < p.due event := by
    intro hcalls
    by_contra hdue
    exact hmortal (time, a) (hlist ▸ List.mem_cons_self)
      ⟨htime, event, ha, habort, hcalls, Nat.le_of_not_lt hdue⟩
  have hmortal' : ∀ entry ∈ rest, ¬ Eternal q entry := fun entry hmem => by
    rw [eternal_congr hnow (hrest entry hmem)]
    exact hmortal entry (hlist ▸ List.mem_cons_of_mem _ hmem)
  have hsum : (rest.map q.budget).sum = (rest.map p.budget).sum := budgets_congr hnow hrest
  have hlength : q.executed.length = p.executed.length + 1 := by
    rw [hexecuted, List.length_cons]
  by_cases hlast : event.calls = 1
  · rw [if_pos hlast] at hentries
    have hpositive : 1 ≤ p.budget (time, a) := by
      rw [hbudget]
      split
      · exact Nat.le_refl 1
      · exact Nat.le_of_eq hlast.symm
    unfold Mortal Processor.budgets
    rw [hentries, hsum, hlength, show (p.eventList.map p.budget).sum = _ from budgets_cons hlist]
    exact ⟨hmortal', by omega⟩
  · rw [if_neg hlast] at hentries
    have hdue : q.due { event with calls := event.calls - 1 } = p.due event := by
      unfold Processor.due
      rw [hnow]
    have hagain : q.budget (p.due event, a) + 1 ≤ p.budget (time, a) := by
      rw [hbudget]
      by_cases hlater : p.mTime < p.due event
      · have hzero : q.budget (p.due event, a) = 0 := by
          unfold Processor.budget
          rw [show q.object (p.due event, a).2 = _ from hself]
          exact if_pos (Or.inr (hnow.symm ▸ hlater))
        rw [hzero, if_pos hlater]
      · have hcalls : event.calls ≠ 0 := fun h0 => hlater (hnever h0)
        have htime : p.due event ≤ q.mTime := hnow.symm ▸ Nat.le_of_not_lt hlater
        have hleft := budget_due hself habort htime
        rw [hdue, hnow, if_neg hlater] at hleft
        rw [hleft, if_neg hlater]
        show event.calls - 1 + 1 ≤ event.calls
        omega
    have hperm := enqueue_perm (p.due event) a rest
    unfold Mortal Processor.budgets
    rw [hentries, (hperm.map q.budget).sum_eq, List.map_cons, List.sum_cons, hsum, hlength,
      show (p.eventList.map p.budget).sum = _ from budgets_cons hlist]
    refine ⟨fun entry hmem => ?_, by omega⟩
    rcases mem_enqueue.mp hmem with rfl | hmem
    · rintro ⟨hdue', e, he, -, hcalls, -⟩
      rw [show q.object (p.due event, a).2 = _ from hself, Option.some_inj] at he
      rw [← he] at hcalls
      have hzero : event.calls - 1 = 0 := hcalls
      have hlater := hnever (by omega)
      rw [hnow] at hdue'
      exact absurd hdue' (Nat.not_le_of_lt hlater)
    · exact hmortal' entry hmem

end Processors

/-! ## 2. An update without eternal events -/

/-- What scripts do that add no events. -/
def Quiet : Input → Prop
  | .addEvent .. => False
  | .update _ => False
  | _ => True

theorem spends_step {c : Machine} (h : Sound c) {i : Input} (hi : Quiet i) :
    Spends c.processor (step c i).processor := by
  have hsame : Spends c.processor c.processor := fun hmortal => ⟨hmortal, Nat.le_refl _⟩
  cases i with
  | addEvent funcRef delay repeats => exact hi.elim
  | update diff => exact hi.elim
  | removeEvent eventId =>
    simp only [step]
    split
    · exact spends_removeEvent _ eventId
    · exact hsame
  | removeEvents =>
    simp only [step]
    split
    · exact spends_removeEvents _
    · exact hsame
  | round =>
    obtain ⟨p, stack⟩ := c
    simp only [step]
    cases stack with
    | nil => exact hsame
    | cons frame outer =>
      cases frame with
      | call a remove => exact hsame
      | update =>
        have howned : Owned p (outer.filterMap Frame.holds) := h
        rcases round_cases howned with ⟨hround, -⟩ |
          ⟨time, a, rest, event, hlist, htime, ha, ⟨-, hround⟩ | ⟨habort, hround⟩⟩
        · rw [hround]
          exact hsame
        · rw [hround]
          exact spends_deleted howned hlist
        · rw [hround]
          exact spends_call howned hlist htime ha habort
  | returns =>
    obtain ⟨p, stack⟩ := c
    simp only [step]
    cases stack with
    | nil => exact hsame
    | cons frame outer =>
      cases frame with
      | update => exact hsame
      | call a remove =>
        cases remove with
        | false => exact hsame
        | true =>
          -- the loop's event is not in the multimap
          have howned : Owned p (a :: outer.filterMap Frame.holds) := h
          have hnodup := List.perm_middle.nodup howned.nodup
          refine spends_of_same rfl rfl rfl fun entry hmem =>
            Function.update_of_ne (fun heq => ?_) ..
          exact (List.nodup_cons.mp hnodup).1
            (List.mem_append_left _ (List.mem_map.mpr ⟨entry, hmem, heq⟩))

/-- An update executes no more than finitely many events, whatever the scripts do that add
none. -/
def FinitelyMany (c : Machine) : Prop :=
  ∀ is : ℕ → Input, (∀ n, Quiet (is n)) →
    ∃ bound, ∀ n, (exec step c ((List.range n).map is)).processor.executed.length ≤ bound

theorem finitelyMany_of_mortal {c : Machine} (h : Sound c) (hmortal : Mortal c.processor) :
    FinitelyMany c := by
  intro is hquiet
  let bound := c.processor.executed.length + c.processor.budgets
  let I : Machine → Prop := fun d =>
    Sound d ∧ Mortal d.processor ∧ d.processor.executed.length + d.processor.budgets ≤ bound
  have hstep : ∀ d i, Quiet i → I d → I (step d i) := by
    intro d i hi hd
    obtain ⟨hmortal', hle⟩ := spends_step hd.1 hi hd.2.1
    exact ⟨sound_step hd.1 i, hmortal', hle.trans hd.2.2⟩
  refine ⟨bound, fun n => ?_⟩
  have hinputs : ∀ i ∈ (List.range n).map is, Quiet i := by
    intro i hi
    obtain ⟨k, -, rfl⟩ := List.mem_map.mp hi
    exact hquiet k
  have hrun := exec_invariant_of_mem hstep hinputs ⟨h, hmortal, Nat.le_refl _⟩
  exact (Nat.le_add_right _ _).trans hrun.2.2

/-! ## 3. An update with an eternal event -/

/-- An update is under way, and an event is called for ever. -/
structure Endless (c : Machine) : Prop where
  stack : c.stack = [.update]
  sound : Sound c
  eternal : ∃ entry ∈ c.processor.eventList, Eternal c.processor entry

/-- Whether an event is aborted. -/
def Processor.isAborted (p : Processor) (entry : ℕ × ℕ) : Bool :=
  (p.object entry.2).any LuaEvent.toAbort

/-- The aborted events in the multimap. -/
def Processor.aborted (p : Processor) : ℕ := p.eventList.countP p.isAborted

theorem countP_isAborted {p q : Processor} {entries : List (ℕ × ℕ)}
    (hobject : ∀ entry ∈ entries, q.object entry.2 = p.object entry.2) :
    entries.countP q.isAborted = entries.countP p.isAborted := by
  refine List.countP_congr fun entry hmem => ?_
  unfold Processor.isAborted
  rw [hobject entry hmem]

/-- The loop goes round, and the function it calls does nothing. -/
def idle (c : Machine) : Machine := step (step c .round) .returns

/-- A turn calls an event or deletes an aborted one, and the eternal event stays. -/
def Turns (c : Machine) : Prop :=
  Endless (idle c) ∧ (idle c).processor.executed.length + c.processor.aborted =
    c.processor.executed.length + (idle c).processor.aborted + 1

section Turning

variable {p q : Processor} {time a : ℕ} {entry : ℕ × ℕ} {rest : List (ℕ × ℕ)} {event : LuaEvent}

theorem aborted_cons (hlist : p.eventList = (time, a) :: rest) (ha : p.object a = some event) :
    p.aborted = rest.countP p.isAborted + if event.toAbort then 1 else 0 := by
  unfold Processor.aborted
  rw [hlist, List.countP_cons]
  unfold Processor.isAborted
  rw [ha, Option.any_some]

/-- An event that is called for ever is not one that is aborted, or called for the last time. -/
theorem Eternal.mem_rest (heternal : Eternal p entry) (hmem : entry ∈ (time, a) :: rest)
    (ha : p.object a = some event) (hends : event.toAbort = true ∨ event.calls = 1) :
    entry ∈ rest := by
  refine (List.mem_cons.mp hmem).resolve_left ?_
  rintro rfl
  obtain ⟨-, e, he, hrunning, hcalls, -⟩ := heternal
  rw [ha, Option.some_inj] at he
  subst he
  rcases hends with habort | hlast
  · rw [habort] at hrunning
    cases hrunning
  · rw [hcalls] at hlast
    cases hlast

/-- An aborted event is deleted. -/
theorem turns_deleted (hsound : Sound (idle ⟨p, [.update]⟩)) (howned : Owned p [])
    (hlist : p.eventList = (time, a) :: rest) (ha : p.object a = some event)
    (habort : event.toAbort = true) (hmem : entry ∈ p.eventList) (heternal : Eternal p entry)
    (hidle : idle ⟨p, [.update]⟩ = ⟨(p.erase rest event).delete a, [.update]⟩) :
    Turns ⟨p, [.update]⟩ := by
  have hobject : ∀ entry ∈ rest,
      ((p.erase rest event).delete a).object entry.2 = p.object entry.2 := fun entry hmem =>
    Function.update_of_ne (ne_of_mem_rest howned hlist entry hmem) ..
  have hnow : ((p.erase rest event).delete a).mTime = p.mTime := rfl
  have hcount := aborted_cons hlist ha
  have hcount' : ((p.erase rest event).delete a).aborted = rest.countP p.isAborted :=
    countP_isAborted hobject
  rw [hlist] at hmem
  have hrest := heternal.mem_rest hmem ha (Or.inl habort)
  have heternal' := (eternal_congr hnow (hobject _ hrest)).mpr heternal
  unfold Turns
  rw [hidle] at hsound ⊢
  refine ⟨⟨rfl, hsound, entry, hrest, heternal'⟩, ?_⟩
  rw [habort, if_pos rfl] at hcount
  rw [hcount, hcount']
  rfl

/-- An event is called for the last time. -/
theorem turns_last (hsound : Sound (idle ⟨p, [.update]⟩))
    (hlist : p.eventList = (time, a) :: rest) (ha : p.object a = some event)
    (habort : event.toAbort = false) (hlast : event.calls = 1) (hmem : entry ∈ p.eventList)
    (heternal : Eternal p entry) (hnow : q.mTime = p.mTime)
    (hexecuted : q.executed = (a, p.mTime) :: p.executed) (hentries : q.eventList = rest)
    (hobject : ∀ entry ∈ rest, (q.delete a).object entry.2 = p.object entry.2)
    (hidle : idle ⟨p, [.update]⟩ = ⟨q.delete a, [.update]⟩) :
    Turns ⟨p, [.update]⟩ := by
  have hcount := aborted_cons hlist ha
  rw [habort, if_neg Bool.false_ne_true, Nat.add_zero] at hcount
  rw [hlist] at hmem
  have hnow' : (q.delete a).mTime = p.mTime := hnow
  have hexecuted' : (q.delete a).executed = (a, p.mTime) :: p.executed := hexecuted
  have hentries' : (q.delete a).eventList = rest := hentries
  have hrest := heternal.mem_rest hmem ha (Or.inr hlast)
  have heternal' := (eternal_congr hnow' (hobject _ hrest)).mpr heternal
  unfold Turns
  rw [hidle] at hsound ⊢
  refine ⟨⟨rfl, hsound, entry, hentries' ▸ hrest, heternal'⟩, ?_⟩
  show (q.delete a).executed.length + p.aborted = p.executed.length + (q.delete a).aborted + 1
  rw [hexecuted', List.length_cons, hcount, Processor.aborted, hentries', countP_isAborted hobject]
  omega

/-- An event is called, and called again. -/
theorem turns_again (hsound : Sound (idle ⟨p, [.update]⟩))
    (hlist : p.eventList = (time, a) :: rest) (ha : p.object a = some event)
    (habort : event.toAbort = false) (hmem : entry ∈ p.eventList) (heternal : Eternal p entry)
    (hnow : q.mTime = p.mTime) (hexecuted : q.executed = (a, p.mTime) :: p.executed)
    (hentries : q.eventList = enqueue (p.due event) a rest)
    (hself : q.object a = some { event with calls := event.calls - 1 })
    (hobject : ∀ entry ∈ rest, q.object entry.2 = p.object entry.2)
    (hidle : idle ⟨p, [.update]⟩ = ⟨q, [.update]⟩) :
    Turns ⟨p, [.update]⟩ := by
  have hcount := aborted_cons hlist ha
  rw [habort, if_neg Bool.false_ne_true, Nat.add_zero] at hcount
  have hnotAborted : q.isAborted (p.due event, a) = false := by
    unfold Processor.isAborted
    rw [hself, Option.any_some]
    exact habort
  unfold Turns
  rw [hidle] at hsound ⊢
  refine ⟨⟨rfl, hsound, ?_⟩, ?_⟩
  · show ∃ entry ∈ q.eventList, Eternal q entry
    rw [hlist] at hmem
    rw [hentries]
    rcases List.mem_cons.mp hmem with rfl | hrest
    · obtain ⟨-, e, he, -, hcalls, hagain⟩ := heternal
      rw [ha, Option.some_inj] at he
      subst he
      have hdue : q.due { event with calls := event.calls - 1 } = p.due event := by
        unfold Processor.due
        rw [hnow]
      refine ⟨(p.due event, a), mem_enqueue.mpr (Or.inl rfl), ?_, _, hself, habort, ?_, ?_⟩
      · rw [hnow]
        exact hagain
      · show event.calls - 1 = 0
        rw [hcalls]
      · rw [hdue, hnow]
        exact hagain
    · exact ⟨entry, mem_enqueue.mpr (Or.inr hrest),
        (eternal_congr hnow (hobject _ hrest)).mpr heternal⟩
  · show q.executed.length + p.aborted = p.executed.length + q.aborted + 1
    rw [hexecuted, List.length_cons, hcount, Processor.aborted, hentries,
      (enqueue_perm _ _ _).countP_eq, List.countP_cons, hnotAborted, countP_isAborted hobject]
    simp only [Bool.false_eq_true, if_false]
    omega

end Turning

/-- **Each round calls an event or deletes an aborted one**, and the eternal event stays. -/
theorem Endless.idle {c : Machine} (h : Endless c) : Turns c := by
  have hsound : Sound (Eluna.idle c) := sound_step (sound_step h.sound _) _
  obtain ⟨entry, hmem, heternal⟩ := h.eternal
  obtain ⟨p, stack⟩ := c
  obtain rfl : stack = [.update] := h.stack
  have howned : Owned p [] := h.sound
  rcases round_cases howned with ⟨-, hlater⟩ |
    ⟨time, a, rest, event, hlist, -, ha, ⟨habort, hround⟩ | ⟨habort, hround⟩⟩
  · exact absurd heternal.1 (Nat.not_le_of_lt (hlater entry hmem))
  · refine turns_deleted hsound howned hlist ha habort hmem heternal ?_
    simp only [Eluna.idle, step, hround]
  · obtain ⟨hnow, hexecuted, hobjects, hentries⟩ := call_eq p a event rest
    have hne := ne_of_mem_rest howned hlist
    have hobject : ∀ entry ∈ rest,
        ((p.erase rest event).call a event).object entry.2 = p.object entry.2 := by
      intro entry hmem
      rw [hobjects, Function.update_of_ne (hne entry hmem)]
    have hself : ((p.erase rest event).call a event).object a =
        some { event with calls := event.calls - 1 } := by
      rw [hobjects, Function.update_self]
    generalize (p.erase rest event).call a event = q at *
    by_cases hlast : event.calls = 1
    · rw [if_pos hlast] at hentries
      refine turns_last hsound hlist ha habort hlast hmem heternal hnow hexecuted hentries
        (fun entry hmem =>
          (Function.update_of_ne (hne entry hmem) ..).trans (hobject entry hmem)) ?_
      simp only [Eluna.idle, step, hround, decide_eq_true hlast, if_true]
    · rw [if_neg hlast] at hentries
      refine turns_again hsound hlist ha habort hmem heternal hnow hexecuted hentries hself
        hobject ?_
      simp only [Eluna.idle, step, hround, decide_eq_false hlast, Bool.false_eq_true, if_false]

/-- The calls of functions that do nothing. -/
theorem exec_idle (c : Machine) : ∀ n, exec step c
    ((List.range (2 * n)).map fun k => if k % 2 = 0 then Input.round else .returns) =
      Eluna.idle^[n] c := by
  intro n
  induction n with
  | zero => rfl
  | succ n ih =>
    have hrange : List.range (2 * (n + 1)) = List.range (2 * n) ++ [2 * n, 2 * n + 1] := by
      rw [show 2 * (n + 1) = 2 * n + 1 + 1 by omega, List.range_succ, List.range_succ,
        List.append_assoc, List.singleton_append]
    rw [hrange, List.map_append, exec_append, ih, Function.iterate_succ_apply', List.map_cons,
      List.map_singleton, if_pos (by omega), if_neg (by omega)]
    rfl

theorem not_finitelyMany_of_endless {c : Machine} (h : Endless c) : ¬ FinitelyMany c := by
  intro hfinite
  have hgrow : ∀ n, Endless (Eluna.idle^[n] c) ∧
      (Eluna.idle^[n] c).processor.executed.length + c.processor.aborted =
        c.processor.executed.length + (Eluna.idle^[n] c).processor.aborted + n := by
    intro n
    induction n with
    | zero => exact ⟨h, rfl⟩
    | succ n ih =>
      obtain ⟨hendless, hcount⟩ := ih.1.idle
      rw [Function.iterate_succ_apply']
      exact ⟨hendless, by omega⟩
  obtain ⟨bound, hbound⟩ := hfinite (fun k => if k % 2 = 0 then .round else .returns) (by
    intro k
    split <;> trivial)
  have hle := hbound (2 * (bound + c.processor.aborted + 1))
  rw [exec_idle] at hle
  have hcount := (hgrow (bound + c.processor.aborted + 1)).2
  omega

/-! ## 4. Every update -/

/-- **An update executes finitely many events exactly when it finds no eternal one**: in every
state that a run reaches, and whatever scripts remove in the meantime. -/
theorem finitelyMany_iff (is : List Input) (diff : ℕ) (hidle : (exec step .init is).stack = []) :
    FinitelyMany (step (exec step .init is) (.update diff)) ↔
      ∀ entry ∈ (exec step .init is).processor.eventList,
        ¬ Eternal (step (exec step .init is) (.update diff)).processor entry := by
  have hsound : Sound (step (exec step .init is) (.update diff)) :=
    sound_step (sound_exec is) (.update diff)
  have hcalling : (exec step .init is).Calling := by
    unfold Machine.Calling
    rw [hidle]
    exact fun h => by cases h
  generalize exec step .init is = c at *
  have hstack : (step c (.update diff)).stack = [.update] := by
    simp only [step, if_pos hcalling, hidle]
  have hlist : (step c (.update diff)).processor.eventList = c.processor.eventList := by
    simp only [step, if_pos hcalling]
  rw [← hlist]
  refine ⟨fun hfinite entry hmem heternal => ?_, finitelyMany_of_mortal hsound⟩
  exact not_finitelyMany_of_endless ⟨hstack, hsound, entry, hmem, heternal⟩ hfinite

/-- An event that is called every second for ever does no harm to an update by five. -/
theorem finitelyMany_everySecond :
    FinitelyMany (step (exec step .init [.addEvent 1 1000 0]) (.update 5000)) := by
  refine (finitelyMany_iff [.addEvent 1 1000 0] 5000 rfl).mpr fun entry hmem heternal => ?_
  obtain rfl : entry = (1000, 0) := List.mem_singleton.mp hmem
  obtain ⟨-, event, hevent, -, -, hdue⟩ := heternal
  cases hevent
  exact absurd hdue (by decide)

/-- Without a delay, it is called again and again. -/
theorem not_finitelyMany_noDelay :
    ¬ FinitelyMany (step (exec step .init [.addEvent 1 0 0]) (.update 100)) := by
  refine not_finitelyMany_of_endless ⟨rfl, sound_step (sound_exec _) _, (0, 0),
    List.mem_singleton.mpr rfl, by decide, ⟨false, 1, 0, 0⟩, rfl, rfl, rfl, by decide⟩

end HungerGames.Eluna
