/-
# When events are started and stopped

A normal event is to be active in a window of `length` minutes at the start of every period of
`occurence` minutes, between its start and its end.  Update compares the active events with that
and says when it is to be called again.

* `Computes`: which events can be looked at without a division by zero and without a wrap;
* `active_until_look`: until an event asks to be looked at again, nothing about it changes,
  unless it starts in the very second of the Update;
* `update_right_iff`: when an Update is right until the next one.
-/
import HungerGames.Events.GameEventMgr
import HungerGames.System.PeriodicWindow
import Mathlib.Data.List.Range

namespace HungerGames.Events

open HungerGames.System

variable {mgr : GameEventMgr} {id t d : ℕ}

/-! ## 1. The window of an event -/

namespace GameEventData

/-- The length of a period, in seconds. -/
def period (event : GameEventData) : ℕ := event.occurence * MINUTE

/-- The length of the window, in seconds. -/
def window (event : GameEventData) : ℕ := event.length * MINUTE

/-- The event is to be active at a time. -/
def Running (event : GameEventData) (t : ℕ) : Prop :=
  event.start < t ∧ t < event.end_ ∧ (t - event.start) % event.period < event.window

instance (event : GameEventData) (t : ℕ) : Decidable (event.Running t) :=
  inferInstanceAs (Decidable (_ ∧ _ ∧ _))

/-- The seconds after which an event asks to be looked at again. -/
def untilLook (event : GameEventData) (t : ℕ) : ℕ :=
  if event.end_ < t then maxGeCheckDelay
  else if t < event.start then event.start - t
  else min (untilChange event.period event.window (t - event.start)) (event.end_ - t)

/-- **The event can be looked at**: between its start and its end it has a period, and period and
window fit into 32 bits; before its start, so does the time that is left. -/
structure Computes (event : GameEventData) (t : ℕ) : Prop where
  within : event.start ≤ t → t ≤ event.end_ →
    event.period ≠ 0 ∧ event.period < 2 ^ 32 ∧ event.window < 2 ^ 32
  before : t < event.start → t ≤ event.end_ → event.start - t < 2 ^ 32

instance (event : GameEventData) (t : ℕ) : Decidable (event.Computes t) :=
  decidable_of_iff
    ((event.start ≤ t → t ≤ event.end_ →
        event.period ≠ 0 ∧ event.period < 2 ^ 32 ∧ event.window < 2 ^ 32) ∧
      (t < event.start → t ≤ event.end_ → event.start - t < 2 ^ 32))
    ⟨fun h => ⟨h.1, h.2⟩, fun h => ⟨h.within, h.before⟩⟩

end GameEventData

open GameEventData

/-! ## 2. What the code computes -/

theorem untilChange_lt {P L x : ℕ} (hP : P < 2 ^ 32) (hL : L < 2 ^ 32) :
    untilChange P L x < 2 ^ 32 := by
  unfold untilChange
  split <;> omega

/-- In case the end is before the next check. -/
theorem exact_clamp {finish delay : ℕ} (hdelay : delay < 2 ^ 32) (hfinish : t ≤ finish) :
    (if finish < t + delay then Arith.uint32 (finish - t) else pure delay).Exact d ↔
      min delay (finish - t) = d := by
  by_cases hclamp : finish < t + delay
  · rw [if_pos hclamp, Arith.exact_uint32, Nat.min_eq_right (by omega)]
    exact and_iff_left (by omega)
  · rw [if_neg hclamp, Arith.exact_pure, Nat.min_eq_left (by omega)]

/-- **When the delay of an event is computed without a fault.** -/
theorem exact_nextCheck (h : (mgr.mGameEvent id).state = .normal) :
    (mgr.nextCheck id t).Exact d ↔
      (mgr.mGameEvent id).Computes t ∧ (mgr.mGameEvent id).untilLook t = d := by
  generalize hevent : mgr.mGameEvent id = event at h
  have hcode : mgr.nextCheck id t =
      if event.end_ < t then pure maxGeCheckDelay
      else if t < event.start then Arith.uint32 (event.start - t)
      else (do
        let period ← Arith.uint32 event.period
        let phase ← Arith.mod (t - event.start) period
        let window ← Arith.uint32 event.window
        let delay ← Arith.uint32 (if phase < window then window - phase else period - phase)
        if event.end_ < t + delay then Arith.uint32 (event.end_ - t) else pure delay) := by
    simp [GameEventMgr.nextCheck, hevent, h, period, window]
  rw [hcode]
  unfold untilLook
  by_cases hover : event.end_ < t
  · have hcomputes : event.Computes t :=
      ⟨fun _ hend => absurd hover (by omega), fun _ hend => absurd hover (by omega)⟩
    rw [if_pos hover, if_pos hover, Arith.exact_pure]
    exact (and_iff_right hcomputes).symm
  · rw [if_neg hover, if_neg hover]
    by_cases hbefore : t < event.start
    · rw [if_pos hbefore, if_pos hbefore, Arith.exact_uint32, and_comm]
      refine and_congr_left fun _ => ⟨fun hfits => ?_, fun hc => ?_⟩
      · exact ⟨fun hstart => absurd hbefore (by omega), fun _ _ => hfits⟩
      · exact hc.before hbefore (by omega)
    · rw [if_neg hbefore, if_neg hbefore]
      have hcomputes : event.Computes t ↔
          event.period ≠ 0 ∧ event.period < 2 ^ 32 ∧ event.window < 2 ^ 32 :=
        ⟨fun hc => hc.within (by omega) (by omega),
          fun hc => ⟨fun _ _ => hc, fun hstart => absurd hstart hbefore⟩⟩
      simp only [Arith.exact_bind, Arith.exact_uint32, Arith.exact_mod]
      constructor
      · rintro ⟨_, ⟨rfl, hP⟩, _, ⟨hP0, rfl⟩, _, ⟨rfl, hL⟩, _, ⟨rfl, hdelay⟩, hlast⟩
        exact ⟨hcomputes.mpr ⟨hP0, hP, hL⟩, (exact_clamp hdelay (by omega)).mp hlast⟩
      · rintro ⟨hc, hd⟩
        obtain ⟨hP0, hP, hL⟩ := hcomputes.mp hc
        exact ⟨_, ⟨rfl, hP⟩, _, ⟨hP0, rfl⟩, _, ⟨rfl, hL⟩, _, ⟨rfl, untilChange_lt hP hL⟩,
          (exact_clamp (untilChange_lt hP hL) (by omega)).mpr hd⟩

/-- **Whether an event is to be active is computed without a fault**, in its period. -/
theorem exact_checkOneGameEvent (h : (mgr.mGameEvent id).state = .normal)
    (hwithin : (mgr.mGameEvent id).start < t → t < (mgr.mGameEvent id).end_ →
      (mgr.mGameEvent id).period ≠ 0 ∧ (mgr.mGameEvent id).period < 2 ^ 32 ∧
        (mgr.mGameEvent id).window < 2 ^ 32) :
    (mgr.checkOneGameEvent id t).Exact (decide ((mgr.mGameEvent id).Running t)) := by
  generalize hevent : mgr.mGameEvent id = event at h hwithin ⊢
  have hcode : mgr.checkOneGameEvent id t =
      if event.start < t ∧ t < event.end_ then (do
        let period ← Arith.uint32 event.period
        let phase ← Arith.mod (t - event.start) period
        let window ← Arith.uint32 event.window
        pure (decide (phase < window))) else pure false := by
    simp [GameEventMgr.checkOneGameEvent, hevent, h, period, window]
  rw [hcode]
  by_cases hdates : event.start < t ∧ t < event.end_
  · obtain ⟨hP0, hP, hL⟩ := hwithin hdates.1 hdates.2
    rw [if_pos hdates]
    simp only [Arith.exact_bind, Arith.exact_uint32, Arith.exact_mod, Arith.exact_pure]
    refine ⟨_, ⟨rfl, hP⟩, _, ⟨hP0, rfl⟩, _, ⟨rfl, hL⟩, ?_⟩
    exact decide_eq_decide.mpr ⟨fun hin => ⟨hdates.1, hdates.2, hin⟩, fun hin => hin.2.2⟩
  · rw [if_neg hdates, Arith.exact_pure]
    exact (decide_eq_false fun hin => hdates ⟨hin.1, hin.2.1⟩).symm

/-! ## 3. Until an event asks to be looked at again -/

namespace GameEventData

variable {event : GameEventData}

/-- **The event starts in this very second**, and has not ended in the next one. -/
def StartsNow (event : GameEventData) (t : ℕ) : Prop :=
  event.start = t ∧ t + 1 < event.end_ ∧ event.length ≠ 0

/-- **In the next second the event may change**: it starts, it ends, or its window closes or
opens. -/
def ChangesNext (event : GameEventData) (t : ℕ) : Prop :=
  t ≤ event.end_ ∧
    (event.start = t + 1 ∨
      event.start ≤ t ∧
        (event.end_ ≤ t + 1 ∨
          (t - event.start) % event.period + 1 = event.window ∨
          event.window ≤ (t - event.start) % event.period ∧
            (t - event.start) % event.period + 1 = event.period))

instance (event : GameEventData) (t : ℕ) : Decidable (event.StartsNow t) :=
  inferInstanceAs (Decidable (_ ∧ _ ∧ _))

instance (event : GameEventData) (t : ℕ) : Decidable (event.ChangesNext t) :=
  inferInstanceAs (Decidable (_ ∧ (_ ∨ _ ∧ (_ ∨ _ ∨ _ ∧ _))))

theorem untilLook_over (h : event.end_ < t) : event.untilLook t = maxGeCheckDelay := if_pos h

theorem untilLook_before (h : t < event.start) (hend : t ≤ event.end_) :
    event.untilLook t = event.start - t := by
  unfold untilLook
  rw [if_neg (by omega), if_pos h]

theorem untilLook_within (h : event.start ≤ t) (hend : t ≤ event.end_) :
    event.untilLook t =
      min (untilChange event.period event.window (t - event.start)) (event.end_ - t) := by
  unfold untilLook
  rw [if_neg (by omega), if_neg (by omega)]

/-- An event that asks to be looked at in a second is about to change. -/
theorem untilLook_le_one_iff (hc : event.Computes t) :
    event.untilLook t ≤ 1 ↔ event.ChangesNext t := by
  unfold ChangesNext
  by_cases hover : event.end_ < t
  · rw [untilLook_over hover]
    exact iff_of_false (by decide) fun h => by omega
  · by_cases hbefore : t < event.start
    · rw [untilLook_before hbefore (by omega)]
      omega
    · obtain ⟨hP, -, -⟩ := hc.within (by omega) (by omega)
      have hlt := Nat.mod_lt (t - event.start) (Nat.pos_of_ne_zero hP)
      rw [untilLook_within (by omega) (by omega)]
      unfold untilChange
      split <;> omega

/-- What is computed now can be computed until the next look. -/
theorem Computes.later {t' : ℕ} (hc : event.Computes t) (hle : t ≤ t')
    (hlt : t' < t + event.untilLook t) (hstart : event.start < t') (hend : t' < event.end_) :
    event.period ≠ 0 ∧ event.period < 2 ^ 32 ∧ event.window < 2 ^ 32 := by
  refine hc.within ?_ (by omega)
  by_contra hbefore
  rw [untilLook_before (by omega) (by omega)] at hlt
  omega

/-- **Until an event asks to be looked at again, nothing changes**, unless it starts in this very
second. -/
theorem active_until_look {t' : ℕ} (hc : event.Computes t) (hstarts : ¬ event.StartsNow t)
    (hle : t ≤ t') (hlt : t' < t + event.untilLook t) : event.Running t' ↔ event.Running t := by
  unfold Running
  by_cases hover : event.end_ < t
  · omega
  by_cases hbefore : t < event.start
  · rw [untilLook_before hbefore (by omega)] at hlt
    omega
  obtain ⟨hP, -, -⟩ := hc.within (by omega) (by omega)
  rw [untilLook_within (by omega) (by omega)] at hlt
  by_cases hnow : event.start = t
  · -- an event that starts in this second is over in the next one, or has no window
    by_cases hempty : event.length = 0
    · have hwindow : event.window = 0 := by rw [window, hempty, Nat.zero_mul]
      omega
    · have hend : event.end_ ≤ t + 1 := by
        by_contra hlong
        exact hstarts ⟨hnow, by omega, hempty⟩
      omega
  · have hwindow := window_add (x := t - event.start) (d := t' - t) (Nat.pos_of_ne_zero hP)
      (by omega : t' - t < untilChange event.period event.window (t - event.start))
    have hphase : t - event.start + (t' - t) = t' - event.start := by omega
    rw [hphase] at hwindow
    omega

/-- **A start in this very second is missed**: a second later the event is to be active. -/
theorem running_after_start (hc : event.Computes t) (h : event.StartsNow t) :
    ¬ event.Running t ∧ event.Running (t + 1) := by
  obtain ⟨hstart, hend, hlength⟩ := h
  obtain ⟨hP, -, -⟩ := hc.within (by omega) (by omega)
  have hoccurence : event.occurence ≠ 0 := fun hzero => hP (by rw [period, hzero, Nat.zero_mul])
  have hPeriod : MINUTE ≤ event.period :=
    Nat.le_mul_of_pos_left MINUTE (Nat.pos_of_ne_zero hoccurence)
  have hWindow : MINUTE ≤ event.window := Nat.le_mul_of_pos_left MINUTE (Nat.pos_of_ne_zero hlength)
  have hMINUTE : MINUTE = 60 := rfl
  refine ⟨fun hrun => absurd hrun.1 (by omega), by omega, hend, ?_⟩
  rw [← hstart, Nat.add_sub_cancel_left, Nat.mod_eq_of_lt (by omega)]
  omega

end GameEventData

/-! ## 4. The walk over the events -/

/-- Every event is a standard one. -/
def GameEventMgr.Normal (mgr : GameEventMgr) : Prop :=
  ∀ id ∈ mgr.ids, (mgr.mGameEvent id).state = .normal

/-- Every event can be looked at. -/
def GameEventMgr.Computable (mgr : GameEventMgr) (t : ℕ) : Prop :=
  ∀ id ∈ mgr.ids, (mgr.mGameEvent id).Computes t

theorem foldl_min_le_iff {k : ℕ} :
    ∀ {xs : List ℕ} {a : ℕ}, xs.foldl min a ≤ k ↔ a ≤ k ∨ ∃ x ∈ xs, x ≤ k
  | [], a => by simp
  | x :: xs, a => by
    rw [List.foldl_cons, foldl_min_le_iff, List.exists_mem_cons_iff, min_le_iff, or_assoc]

/-- The delay in seconds until the next Update: the least of those asked for, and a day at most. -/
def GameEventMgr.leastLook (mgr : GameEventMgr) (t : ℕ) : ℕ :=
  (mgr.ids.map fun id => (mgr.mGameEvent id).untilLook t).foldl min maxGeCheckDelay

theorem leastLook_le (hid : id ∈ mgr.ids) :
    mgr.leastLook t ≤ (mgr.mGameEvent id).untilLook t :=
  foldl_min_le_iff.mpr (.inr ⟨_, List.mem_map_of_mem hid, le_refl _⟩)

theorem leastLook_le_one_iff (hc : mgr.Computable t) :
    mgr.leastLook t ≤ 1 ↔ ∃ id ∈ mgr.ids, (mgr.mGameEvent id).ChangesNext t := by
  unfold GameEventMgr.leastLook
  rw [foldl_min_le_iff, or_iff_right (by decide)]
  constructor
  · rintro ⟨_, hmem, hle⟩
    obtain ⟨id, hid, rfl⟩ := List.mem_map.mp hmem
    exact ⟨id, hid, (untilLook_le_one_iff (hc id hid)).mp hle⟩
  · rintro ⟨id, hid, hchange⟩
    exact ⟨_, List.mem_map_of_mem hid, (untilLook_le_one_iff (hc id hid)).mpr hchange⟩

namespace GameEventMgr

/-- What the walk has to say about an event: it is queued where its activity is to change. -/
def Pass.visited (pass : Pass) (t id : ℕ) : Pass :=
  { if (pass.mgr.mGameEvent id).Running t then pass.activated id else pass.deactivated id with
    nextEventDelay := min pass.nextEventDelay ((pass.mgr.mGameEvent id).untilLook t) }

@[simp] theorem Pass.mgr_visited (pass : Pass) (t id : ℕ) : (pass.visited t id).mgr = pass.mgr := by
  unfold Pass.visited Pass.activated Pass.deactivated
  split <;> split <;> rfl

theorem Pass.value_visit {pass : Pass} (h : (pass.mgr.mGameEvent id).state = .normal)
    (hc : (pass.mgr.mGameEvent id).Computes t) :
    (Pass.visit t pass id).value = some (pass.visited t id) := by
  have hcheck := exact_checkOneGameEvent h fun hstart hend => hc.within hstart.le hend.le
  have hdelayed : ∀ queued : Pass, queued.mgr = pass.mgr →
      queued.nextEventDelay = pass.nextEventDelay →
      (queued.delayed id t).value = some { queued with
        nextEventDelay := min pass.nextEventDelay ((pass.mgr.mGameEvent id).untilLook t) } := by
    intro queued hmgr hdelay
    have hnext := (exact_nextCheck h).mpr ⟨hc, rfl⟩
    rw [← hmgr] at hnext
    unfold Pass.delayed
    rw [Arith.value_bind, hnext.value, Option.bind_some, Arith.value_pure, hdelay, hmgr]
    congr 2
    split <;> omega
  unfold Pass.visit Pass.visited
  rw [Arith.value_bind, hcheck.value, Option.bind_some]
  by_cases hrun : (pass.mgr.mGameEvent id).Running t
  · rw [decide_eq_true hrun, if_pos rfl, h, if_neg (by simp), if_neg (by simp), if_pos hrun]
    exact hdelayed _ (by unfold Pass.activated; split <;> rfl)
      (by unfold Pass.activated; split <;> rfl)
  · rw [decide_eq_false hrun, if_neg (by simp), if_neg hrun]
    exact hdelayed _ (by unfold Pass.deactivated; split <;> rfl)
      (by unfold Pass.deactivated; split <;> rfl)

/-- What the queues and the delay of a walk have become. -/
structure Pass.Walked (pass last : Pass) (t : ℕ) (seen : List ℕ) : Prop where
  mgr : last.mgr = pass.mgr
  activate : ∀ id, id ∈ last.activate ↔ id ∈ pass.activate ∨
    id ∈ seen ∧ (pass.mgr.mGameEvent id).Running t ∧ id ∉ pass.mgr.m_ActiveEvents
  deactivate : ∀ id, id ∈ last.deactivate ↔ id ∈ pass.deactivate ∨
    id ∈ seen ∧ ¬ (pass.mgr.mGameEvent id).Running t ∧ id ∈ pass.mgr.m_ActiveEvents
  nextEventDelay : last.nextEventDelay =
    (seen.map fun id => (pass.mgr.mGameEvent id).untilLook t).foldl min pass.nextEventDelay

theorem Pass.mem_activate_visited {pass : Pass} {other : ℕ} :
    other ∈ (pass.visited t id).activate ↔ other ∈ pass.activate ∨
      other = id ∧ (pass.mgr.mGameEvent id).Running t ∧ id ∉ pass.mgr.m_ActiveEvents := by
  unfold Pass.visited Pass.activated Pass.deactivated
  by_cases hrun : (pass.mgr.mGameEvent id).Running t <;>
    by_cases hactive : id ∈ pass.mgr.m_ActiveEvents <;> simp [hrun, hactive]

theorem Pass.mem_deactivate_visited {pass : Pass} {other : ℕ} :
    other ∈ (pass.visited t id).deactivate ↔ other ∈ pass.deactivate ∨
      other = id ∧ ¬ (pass.mgr.mGameEvent id).Running t ∧ id ∈ pass.mgr.m_ActiveEvents := by
  unfold Pass.visited Pass.activated Pass.deactivated
  by_cases hrun : (pass.mgr.mGameEvent id).Running t <;>
    by_cases hactive : id ∈ pass.mgr.m_ActiveEvents <;> simp [hrun, hactive]

theorem walked_of_visits :
    ∀ (seen : List ℕ) (pass : Pass),
      (∀ id ∈ seen, (pass.mgr.mGameEvent id).state = .normal) →
      (∀ id ∈ seen, (pass.mgr.mGameEvent id).Computes t) →
      ∃ last, (seen.foldlM (Pass.visit t) pass).value = some last ∧ pass.Walked last t seen
  | [], pass, _, _ => ⟨pass, rfl, rfl, by simp, by simp, rfl⟩
  | id :: seen, pass, hnormal, hc => by
    have hvisit := Pass.value_visit (hnormal id List.mem_cons_self) (hc id List.mem_cons_self)
    obtain ⟨last, hlast, hwalked⟩ := walked_of_visits seen (pass.visited t id)
      (fun other hmem => by
        rw [Pass.mgr_visited]
        exact hnormal other (List.mem_cons_of_mem id hmem))
      (fun other hmem => by
        rw [Pass.mgr_visited]
        exact hc other (List.mem_cons_of_mem id hmem))
    refine ⟨last, ?_, ?_, fun other => ?_, fun other => ?_, ?_⟩
    · rw [List.foldlM_cons, Arith.value_bind, hvisit, Option.bind_some, hlast]
    · rw [hwalked.mgr, Pass.mgr_visited]
    · rw [hwalked.activate, Pass.mem_activate_visited, Pass.mgr_visited, or_assoc, List.mem_cons,
        or_and_right]
      refine or_congr_right (or_congr_left (and_congr_right ?_))
      rintro rfl
      exact Iff.rfl
    · rw [hwalked.deactivate, Pass.mem_deactivate_visited, Pass.mgr_visited, or_assoc,
        List.mem_cons, or_and_right]
      refine or_congr_right (or_congr_left (and_congr_right ?_))
      rintro rfl
      exact Iff.rfl
    · rw [hwalked.nextEventDelay, Pass.mgr_visited]
      rfl

/-! ## 5. Starting and stopping what was queued -/

theorem value_starts :
    ∀ (queued : List ℕ) (pass : Pass),
      (∀ id ∈ queued, (pass.mgr.mGameEvent id).state = .normal) →
      ∃ active, (∀ id, id ∈ active ↔ id ∈ pass.mgr.m_ActiveEvents ∨ id ∈ queued) ∧
        (queued.foldlM (Pass.start t) pass).value =
          some { pass with mgr := { pass.mgr with m_ActiveEvents := active } }
  | [], pass, _ => ⟨pass.mgr.m_ActiveEvents, by simp, rfl⟩
  | id :: queued, pass, hnormal => by
    have hstart : (Pass.start t pass id).value = some { pass with mgr :=
        { pass.mgr with m_ActiveEvents := insert id pass.mgr.m_ActiveEvents } } := by
      have hstart : pass.mgr.startEvent id t = pure
          ({ pass.mgr with m_ActiveEvents := insert id pass.mgr.m_ActiveEvents }, false) :=
        if_pos (.inl (hnormal id List.mem_cons_self))
      unfold Pass.start
      rw [hstart]
      rfl
    obtain ⟨active, hactive, hvalue⟩ := value_starts queued
      { pass with mgr := { pass.mgr with m_ActiveEvents := insert id pass.mgr.m_ActiveEvents } }
      fun other hmem => hnormal other (List.mem_cons_of_mem id hmem)
    refine ⟨active, fun other => ?_, ?_⟩
    · rw [hactive, Finset.mem_insert, List.mem_cons, or_comm (a := other = id), or_assoc]
    · rw [List.foldlM_cons, Arith.value_bind, hstart, Option.bind_some, hvalue]

theorem stops_eq :
    ∀ (queued : List ℕ) (mgr : GameEventMgr),
      (∀ id ∈ queued, (mgr.mGameEvent id).state = .normal) →
      ∃ active, (∀ id, id ∈ active ↔ id ∈ mgr.m_ActiveEvents ∧ id ∉ queued) ∧
        queued.foldl stopEvent mgr = { mgr with m_ActiveEvents := active }
  | [], mgr, _ => ⟨mgr.m_ActiveEvents, by simp, rfl⟩
  | id :: queued, mgr, hnormal => by
    have hstop : mgr.stopEvent id =
        { mgr with m_ActiveEvents := mgr.m_ActiveEvents.erase id } :=
      if_neg fun h => h.1 (hnormal id List.mem_cons_self)
    obtain ⟨active, hactive, hvalue⟩ := stops_eq queued
      { mgr with m_ActiveEvents := mgr.m_ActiveEvents.erase id }
      fun other hmem => hnormal other (List.mem_cons_of_mem id hmem)
    refine ⟨active, fun other => ?_, ?_⟩
    · rw [hactive, Finset.mem_erase, List.mem_cons, not_or, and_comm (a := other ≠ id), and_assoc]
    · rw [List.foldl_cons, hstop, hvalue]

/-- **What an Update does**: it makes the active events those that are to be active, and asks to
be called again a second after the first of them may change. -/
theorem update_spec (hnormal : mgr.Normal) (hc : mgr.Computable t) :
    ∃ active, (∀ id ∈ mgr.ids, (id ∈ active ↔ (mgr.mGameEvent id).Running t)) ∧
      (mgr.update t).value =
        some ({ mgr with m_ActiveEvents := active }, (mgr.leastLook t + 1) * IN_MILLISECONDS) := by
  obtain ⟨pass, hpass, hwalked⟩ :=
    walked_of_visits mgr.ids ⟨mgr, [], [], maxGeCheckDelay⟩ hnormal hc
  have hmgr : pass.mgr = mgr := hwalked.mgr
  obtain ⟨started, hstarted, hstarts⟩ := value_starts (t := t) pass.activate pass fun id hid => by
    obtain hmem | ⟨hmem, -⟩ := (hwalked.activate id).mp hid
    · cases hmem
    · rw [hmgr]
      exact hnormal id hmem
  obtain ⟨active, hactive, hstops⟩ := stops_eq pass.deactivate
    { pass.mgr with m_ActiveEvents := started } fun id hid => by
      obtain hmem | ⟨hmem, -⟩ := (hwalked.deactivate id).mp hid
      · cases hmem
      · change (pass.mgr.mGameEvent id).state = _
        rw [hmgr]
        exact hnormal id hmem
  refine ⟨active, fun id hid => ?_, ?_⟩
  · rw [hactive, hwalked.deactivate]
    rw [hstarted, hwalked.activate, hmgr]
    simp only [List.not_mem_nil, false_or, hid, true_and]
    by_cases hrun : (mgr.mGameEvent id).Running t <;>
      by_cases hmem : id ∈ mgr.m_ActiveEvents <;> simp [hrun, hmem]
  · unfold update
    rw [Arith.value_bind, hpass, Option.bind_some, Arith.value_bind, hstarts, Option.bind_some,
      Arith.value_pure]
    change some (pass.deactivate.foldl stopEvent { pass.mgr with m_ActiveEvents := started },
      (pass.nextEventDelay + 1) * IN_MILLISECONDS) = _
    rw [hstops, hwalked.nextEventDelay, hmgr]
    rfl

end GameEventMgr

/-! ## 6. What is loaded -/

namespace GameEventMgr

theorem normal_of_loadRow (hnormal : ∀ id, (mgr.mGameEvent id).state = .normal) {row : Row}
    (hrow : row.world_event = 0) : ∀ id, ((mgr.loadRow row).mGameEvent id).state = .normal := by
  intro id
  unfold loadRow
  split
  · exact hnormal id
  · by_cases hid : id = row.eventEntry <;> simp [write, hid, hrow, GameEventState.ofValue, hnormal]

theorem loadSaveRow_of_normal (hnormal : ∀ id, (mgr.mGameEvent id).state = .normal)
    (row : SaveRow) : mgr.loadSaveRow row = mgr := by
  unfold loadSaveRow
  split
  · rfl
  · exact if_neg fun h => h.1 (hnormal _)

/-- **Rows of standard events give standard events**, whatever their dates, and the saved states
do not touch them. -/
theorem normal_of_loadFromDB (size : ℕ) {rows : List Row}
    (hrows : ∀ row ∈ rows, row.world_event = 0) (saves : List SaveRow) :
    ((initializeEvents size).loadFromDB rows saves).Normal := by
  have hloaded : ∀ (rows : List Row) (mgr : GameEventMgr), (∀ row ∈ rows, row.world_event = 0) →
      (∀ id, (mgr.mGameEvent id).state = .normal) →
      ∀ id, ((rows.foldl loadRow mgr).mGameEvent id).state = .normal := by
    intro rows
    induction rows with
    | nil => exact fun mgr _ hnormal => hnormal
    | cons row rows ih =>
      intro mgr hrows hnormal
      exact ih _ (fun other hmem => hrows other (List.mem_cons_of_mem row hmem))
        (normal_of_loadRow hnormal (hrows row List.mem_cons_self))
  have hsaves : ∀ (saves : List SaveRow) (mgr : GameEventMgr),
      (∀ id, (mgr.mGameEvent id).state = .normal) → saves.foldl loadSaveRow mgr = mgr := by
    intro saves
    induction saves with
    | nil => exact fun mgr _ => rfl
    | cons save saves ih =>
      intro mgr hnormal
      rw [List.foldl_cons, loadSaveRow_of_normal hnormal, ih mgr hnormal]
  intro id _
  have hall := hloaded rows (initializeEvents size) hrows fun _ => rfl
  unfold loadFromDB
  rw [hsaves saves _ hall]
  exact hall id

end GameEventMgr

/-! ## 7. An Update is right until the next one -/

/-- **An Update at a time is right**: looking at the events never divides by zero and never wraps,
and after it the active events are those that are to be active, now and at any time before the
last second until the next Update. -/
structure GameEventMgr.UpdateRight (mgr : GameEventMgr) (t : ℕ) : Prop where
  computes : ∀ id ∈ mgr.ids,
    (∃ active, (mgr.checkOneGameEvent id t).Exact active) ∧
      ∃ delay, (mgr.nextCheck id t).Exact delay
  stays : ∃ mgr' delay, (mgr.update t).value = some (mgr', delay) ∧
    ∀ id ∈ mgr.ids, ∀ t', t ≤ t' → t' = t ∨ t' + 1 < t + delay / IN_MILLISECONDS →
      (mgr'.checkOneGameEvent id t').value = some (decide (id ∈ mgr'.m_ActiveEvents))

/-- An event that starts in the second of the Update is looked at again in the next one. -/
def GameEventMgr.StartsSeen (mgr : GameEventMgr) (t : ℕ) : Prop :=
  ∀ id ∈ mgr.ids, (mgr.mGameEvent id).StartsNow t →
    ∃ other ∈ mgr.ids, (mgr.mGameEvent other).ChangesNext t

instance (mgr : GameEventMgr) (t : ℕ) : Decidable (mgr.Computable t ∧ mgr.StartsSeen t) :=
  inferInstanceAs (Decidable ((∀ id ∈ mgr.ids, (mgr.mGameEvent id).Computes t) ∧
    ∀ id ∈ mgr.ids, (mgr.mGameEvent id).StartsNow t →
      ∃ other ∈ mgr.ids, (mgr.mGameEvent other).ChangesNext t))

theorem delay_seconds (n : ℕ) : (n + 1) * IN_MILLISECONDS / IN_MILLISECONDS = n + 1 :=
  Nat.mul_div_cancel _ (by decide)

theorem stays_of_seen (hnormal : mgr.Normal) (hc : mgr.Computable t) (hseen : mgr.StartsSeen t) :
    mgr.UpdateRight t := by
  have hnow : ∀ id ∈ mgr.ids,
      (mgr.checkOneGameEvent id t).Exact (decide ((mgr.mGameEvent id).Running t)) :=
    fun id hid => exact_checkOneGameEvent (hnormal id hid) fun hstart hend =>
      (hc id hid).within hstart.le hend.le
  obtain ⟨active, hactive, hupdate⟩ := GameEventMgr.update_spec hnormal hc
  refine ⟨fun id hid => ⟨⟨_, hnow id hid⟩, (mgr.mGameEvent id).untilLook t, ?_⟩, _, _, hupdate,
    fun id hid t' hle hlt => ?_⟩
  · exact (exact_nextCheck (hnormal id hid)).mpr ⟨hc id hid, rfl⟩
  rw [decide_eq_decide.mpr (hactive id hid)]
  by_cases hsame : t' = t
  · rw [hsame]
    exact (hnow id hid).value
  · have hlater := hlt.resolve_left hsame
    rw [delay_seconds] at hlater
    have hleast := leastLook_le (t := t) hid
    have hquiet : ¬ (mgr.mGameEvent id).StartsNow t := fun hstarts => by
      have := (leastLook_le_one_iff hc).mpr (hseen id hid hstarts)
      omega
    have hlook : t' < t + (mgr.mGameEvent id).untilLook t := by omega
    rw [← decide_eq_decide.mpr (active_until_look (hc id hid) hquiet hle hlook)]
    exact (exact_checkOneGameEvent (hnormal id hid)
      ((hc id hid).later hle (by omega))).value

theorem computable_of_right (hnormal : mgr.Normal) (h : mgr.UpdateRight t) :
    mgr.Computable t := fun id hid => by
  obtain ⟨-, delay, hdelay⟩ := h.computes id hid
  exact ((exact_nextCheck (hnormal id hid)).mp hdelay).1

theorem seen_of_right (hnormal : mgr.Normal) (h : mgr.UpdateRight t) : mgr.StartsSeen t := by
  have hc := computable_of_right hnormal h
  obtain ⟨mgr', delay, hupdate, hstays⟩ := h.stays
  obtain ⟨active, hactive, hspec⟩ := GameEventMgr.update_spec hnormal hc
  obtain ⟨rfl, rfl⟩ := Prod.mk.inj (Option.some.inj (hspec.symm.trans hupdate))
  intro id hid hstarts
  refine (leastLook_le_one_iff hc).mp (Nat.le_of_not_lt fun hlong => ?_)
  obtain ⟨hidle, hrun⟩ := running_after_start (hc id hid) hstarts
  have hmissed := hstays id hid (t + 1) (Nat.le_succ t)
    (.inr (by rw [delay_seconds]; omega))
  have hvalue := (exact_checkOneGameEvent (t := t + 1) (hnormal id hid) fun _ _ =>
    (hc id hid).within hstarts.1.le (by have := hstarts.2.1; omega)).value
  rw [decide_eq_true hrun] at hvalue
  change (mgr.checkOneGameEvent id (t + 1)).value = some (decide (id ∈ active)) at hmissed
  rw [hvalue, decide_eq_false fun hmem => hidle ((hactive id hid).mp hmem)] at hmissed
  cases hmissed

/-- **When an Update is right until the next one**: every event can be looked at, and none starts
in this very second, unless some event is to be looked at in the next one. -/
theorem update_right_iff (hnormal : mgr.Normal) (t : ℕ) :
    mgr.UpdateRight t ↔ mgr.Computable t ∧ mgr.StartsSeen t :=
  ⟨fun h => ⟨computable_of_right hnormal h, seen_of_right hnormal h⟩,
    fun h => stays_of_seen hnormal h.1 h.2⟩

/-- An event of ten minutes every hour, from second 1000 on. -/
def hourly : GameEventMgr.Row :=
  { eventEntry := 1, start_time := 1000, end_time := 100000, occurence := 60, length := 10,
    world_event := 0 }

theorem update_right_iff_hourly :
    ((GameEventMgr.initializeEvents 1).loadFromDB [hourly] []).UpdateRight 1001 :=
  (update_right_iff (GameEventMgr.normal_of_loadFromDB 1 (by decide) []) 1001).mpr (by decide)

/-- **A start is missed**: the row is accepted, the Update runs in the second in which the event
starts, and the next one comes ten minutes later. -/
theorem start_missed : hourly.Accepted ∧
    ¬ ((GameEventMgr.initializeEvents 1).loadFromDB [hourly] []).UpdateRight 1000 := by
  refine ⟨by decide, fun h => ?_⟩
  obtain ⟨mgr', delay, hupdate, hstays⟩ := h.stays
  cases hupdate
  have hmissed := hstays 1 (by decide) 1001 (by decide) (.inr (by decide))
  exact absurd hmissed (by decide)

end HungerGames.Events
