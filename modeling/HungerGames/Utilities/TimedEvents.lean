/-
# What an event map is for

A `Plan` is a multiset of events, each with the time that is left until it is due; a negative time
is that long overdue.  The class keeps the events in packed words, sorted by a timer it moves back
and forth; `agrees_step` shows, operation by operation, that it does to the plan what the
operation says, and `refines_run` that it does so along every run.

Delaying moves the timer back and not the events, so no event is delayed by more than the timer
shows (`delay_not_exact`).
-/
import HungerGames.Utilities.EventMap
import Mathlib.Data.Finset.Erase
import Mathlib.Data.Finset.Insert
import Mathlib.Algebra.Order.Group.Unbundled.Int

namespace HungerGames.Utilities

open HungerGames.System

/-! ## 1. Plans -/

structure Plan where
  /-- How far the timer has come. -/
  timer : ℕ
  /-- The phases the script is in. -/
  phases : Finset ℕ
  pending : Multiset (ℤ × ScriptEvent)
  /-- The event that was executed last. -/
  last : Option ScriptEvent

inductive Op where
  | update (time : ℕ)
  | setPhase (phase : ℕ)
  | addPhase (phase : ℕ)
  | removePhase (phase : ℕ)
  | schedule (eventId time group phase : ℕ)
  | reschedule (eventId time group phase : ℕ)
  | repeatEvent (time : ℕ)
  | delay (time : ℕ)
  | delayOf (time group : ℕ)
  | cancel (eventId : ℕ)
  | cancelGroup (group : ℕ)
  | execute
deriving DecidableEq

namespace Plan

def init : Plan := ⟨0, ∅, 0, none⟩

/-- An event may be executed: in its phase, if it has one and the script is in any. -/
def Eligible (phases : Finset ℕ) (event : ScriptEvent) : Prop :=
  phases = ∅ ∨ event.phase = 0 ∨ event.phase ∈ phases

/-- The event is of a group; 0 is not one. -/
def OfGroup (group : ℕ) (event : ScriptEvent) : Prop := group ≠ 0 ∧ event.group = group

instance (group : ℕ) (event : ScriptEvent) : Decidable (OfGroup group event) :=
  inferInstanceAs (Decidable (_ ∧ _))

/-- An event has more time. -/
def later (time : ℤ) (x : ℤ × ScriptEvent) : ℤ × ScriptEvent := (x.1 + time, x.2)

/-- **What each operation does to a plan**, and what it returns: the id of the event that was
executed, or 0. -/
inductive Step : Plan → Op → ℕ → Plan → Prop
  | update (plan : Plan) (time : ℕ) :
      Step plan (.update time) 0
        { plan with timer := plan.timer + time, pending := plan.pending.map (later (-time)) }
  | setPhase (plan : Plan) (phase : ℕ) :
      Step plan (.setPhase phase) 0
        { plan with phases := if phase = 0 then ∅ else {phase} }
  | addPhase (plan : Plan) (phase : ℕ) :
      Step plan (.addPhase phase) 0
        { plan with phases := if phase = 0 then plan.phases else insert phase plan.phases }
  | removePhase (plan : Plan) (phase : ℕ) :
      Step plan (.removePhase phase) 0 { plan with phases := plan.phases.erase phase }
  | schedule (plan : Plan) (eventId time group phase : ℕ) :
      Step plan (.schedule eventId time group phase) 0
        { plan with pending := ((time : ℤ), ⟨eventId, group, phase⟩) ::ₘ plan.pending }
  | reschedule (plan : Plan) (eventId time group phase : ℕ) :
      Step plan (.reschedule eventId time group phase) 0
        { plan with pending := ((time : ℤ), ⟨eventId, group, phase⟩) ::ₘ
            plan.pending.filter fun x => x.2.id ≠ eventId }
  | repeatEvent (plan : Plan) (event : ScriptEvent) (h : plan.last = some event) (time : ℕ) :
      Step plan (.repeatEvent time) 0 { plan with pending := ((time : ℤ), event) ::ₘ plan.pending }
  | delay (plan : Plan) (time : ℕ) :
      Step plan (.delay time) 0
        { plan with
          timer := plan.timer - min time plan.timer
          pending := plan.pending.map (later (min time plan.timer : ℕ)) }
  | delayOf (plan : Plan) (time group : ℕ) :
      Step plan (.delayOf time group) 0
        { plan with pending := plan.pending.map fun x =>
            if OfGroup group x.2 then later time x else x }
  | cancel (plan : Plan) (eventId : ℕ) :
      Step plan (.cancel eventId) 0
        { plan with pending := plan.pending.filter fun x => x.2.id ≠ eventId }
  | cancelGroup (plan : Plan) (group : ℕ) :
      Step plan (.cancelGroup group) 0
        { plan with pending := plan.pending.filter fun x => ¬ OfGroup group x.2 }
  | execute (plan : Plan) (x : ℤ × ScriptEvent) (dropped rest : Multiset (ℤ × ScriptEvent))
      (hpending : plan.pending = x ::ₘ (dropped + rest)) (hdue : x.1 ≤ 0)
      (heligible : Eligible plan.phases x.2)
      (hleast : ∀ y ∈ plan.pending, Eligible plan.phases y.2 → x.1 ≤ y.1)
      (hdropped : ∀ y ∈ dropped, y.1 ≤ 0 ∧ ¬ Eligible plan.phases y.2) :
      Step plan .execute x.2.id { plan with pending := rest, last := some x.2 }
  | idle (plan : Plan) (dropped rest : Multiset (ℤ × ScriptEvent))
      (hpending : plan.pending = dropped + rest)
      (hdropped : ∀ y ∈ dropped, y.1 ≤ 0 ∧ ¬ Eligible plan.phases y.2)
      (hrest : ∀ y ∈ rest, 0 < y.1) :
      Step plan .execute 0 { plan with pending := rest }

/-- A run, with what its operations return. -/
inductive Run : Plan → List Op → List ℕ → Plan → Prop
  | nil (plan : Plan) : Run plan [] [] plan
  | cons {plan next last : Plan} {op : Op} {ops : List Op} {out : ℕ} {outs : List ℕ}
      (hstep : Step plan op out next) (hrun : Run next ops outs last) :
      Run plan (op :: ops) (out :: outs) last

end Plan

/-! ## 2. Runs of the class -/

namespace EventMap

def step (map : EventMap) : Op → EventMap
  | .update time => map.update time
  | .setPhase phase => map.setPhase phase
  | .addPhase phase => map.addPhase phase
  | .removePhase phase => map.removePhase phase
  | .schedule eventId time group phase => map.scheduleEvent eventId time group phase
  | .reschedule eventId time group phase => map.rescheduleEvent eventId time group phase
  | .repeatEvent time => map.repeatEvent time
  | .delay time => map.delayEvents time
  | .delayOf time group => map.delayEventsOf time group
  | .cancel eventId => map.cancelEvent eventId
  | .cancelGroup group => map.cancelEventGroup group
  | .execute => map.executeEvent.2

/-- What an operation returns. -/
def output (map : EventMap) (op : Op) : ℕ := if op = .execute then map.executeEvent.1 else 0

def outputs : EventMap → List Op → List ℕ
  | _, [] => []
  | map, op :: ops => map.output op :: outputs (map.step op) ops

/-- The ids, groups and phases are those there are, no time overflows 32 bits, and an event is
repeated only when one has been executed. -/
def Allowed (map : EventMap) : Op → Prop
  | .update time => map._time + time < 2 ^ 32
  | .setPhase phase | .addPhase phase | .removePhase phase => phase ≤ 8
  | .schedule eventId time group phase | .reschedule eventId time group phase =>
    (0 < eventId ∧ eventId < 2 ^ 16 ∧ group ≤ 8 ∧ phase ≤ 8) ∧ map._time + time < 2 ^ 32
  | .repeatEvent time => map._lastEvent ≠ 0 ∧ map._time + time < 2 ^ 32
  | .delay _ => True
  | .delayOf time group =>
    group ≤ 8 ∧ ∀ x ∈ map._eventMap, hasGroup group x → x.1 + time < 2 ^ 32
  | .cancel eventId => 0 < eventId ∧ eventId < 2 ^ 16
  | .cancelGroup group => group ≤ 8
  | .execute => True

instance (map : EventMap) : DecidablePred map.Allowed
  | .update _ => Nat.decLt _ _
  | .setPhase _ | .addPhase _ | .removePhase _ | .cancelGroup _ => Nat.decLe _ _
  | .schedule .. | .reschedule .. => inferInstanceAs (Decidable ((_ ∧ _ ∧ _ ∧ _) ∧ _))
  | .repeatEvent _ | .cancel _ => inferInstanceAs (Decidable (_ ∧ _))
  | .delayOf time group => inferInstanceAs
      (Decidable (group ≤ 8 ∧ ∀ x ∈ map._eventMap, hasGroup group x → x.1 + time < 2 ^ 32))
  | .delay _ | .execute => inferInstanceAs (Decidable True)

end EventMap

/-! ## 3. A map and its plan -/

/-- An event that is due at a time, as it is kept. -/
def entry (x : ℕ × ScriptEvent) : ℕ × BitVec 32 := (x.1, x.2.word)

/-- The same event in a plan, when the timer shows `now`. -/
def remaining (now : ℕ) (x : ℕ × ScriptEvent) : ℤ × ScriptEvent := ((x.1 : ℤ) - now, x.2)

/-- **The map implements the plan.** -/
structure Agrees (map : EventMap) (plan : Plan) : Prop where
  timer : plan.timer = map._time
  phases : ∀ p, p ∈ plan.phases ↔ p ≠ 0 ∧ p ≤ 8 ∧ map._phase.getLsbD (p - 1) = true
  sorted : InTime map._eventMap
  entries : ∃ events : List (ℕ × ScriptEvent), map._eventMap = events.map entry ∧
    (∀ x ∈ events, x.2.Valid) ∧
    plan.pending = ((events.map (remaining map._time) : List (ℤ × ScriptEvent)) :
      Multiset (ℤ × ScriptEvent))
  last : map._lastEvent = (plan.last.map ScriptEvent.word).getD 0
  last_valid : ∀ event, plan.last = some event → event.Valid

theorem agrees_init : Agrees .init .init :=
  ⟨rfl, fun p => by simp [Plan.init, EventMap.init], List.Pairwise.nil, ⟨[], rfl, by simp, rfl⟩,
    rfl, fun _ h => by cases h⟩

/-! ## 4. The timer and the phases -/

variable {map : EventMap} {plan : Plan} {events : List (ℕ × ScriptEvent)}

open EventMap Plan

theorem uint32_of_lt {n : ℕ} (h : n < 2 ^ 32) : EventMap.uint32 n = n := Nat.mod_eq_of_lt h

theorem map_later_remaining (now now' : ℕ) (time : ℤ) (htime : (now : ℤ) = now' + time) :
    (((events.map (remaining now) : List (ℤ × ScriptEvent)) : Multiset (ℤ × ScriptEvent)).map
      (later time)) = ((events.map (remaining now') : List (ℤ × ScriptEvent)) :
        Multiset (ℤ × ScriptEvent)) := by
  rw [Multiset.map_coe, List.map_map]
  congr 1
  refine List.map_congr_left fun x _ => ?_
  unfold remaining later
  rw [Function.comp_apply]
  congr 1
  omega

theorem agrees_update (h : Agrees map plan) {time : ℕ} (htime : map._time + time < 2 ^ 32) :
    Agrees (map.update time)
      { plan with timer := plan.timer + time, pending := plan.pending.map (later (-time)) } := by
  obtain ⟨events, hentries, hvalid, hpending⟩ := h.entries
  have hnow : (map.update time)._time = map._time + time := uint32_of_lt htime
  refine ⟨?_, h.phases, h.sorted, ⟨events, hentries, hvalid, ?_⟩, h.last, h.last_valid⟩
  · rw [hnow, ← h.timer]
  · change plan.pending.map _ = _
    rw [hpending, hnow]
    exact map_later_remaining _ _ _ (by omega)

theorem agrees_delay (h : Agrees map plan) (time : ℕ) :
    Agrees (map.delayEvents time)
      { plan with
        timer := plan.timer - min time plan.timer
        pending := plan.pending.map (later (min time plan.timer : ℕ)) } := by
  obtain ⟨events, hentries, hvalid, hpending⟩ := h.entries
  have hnow : (map.delayEvents time)._time = plan.timer - min time plan.timer := by
    rw [h.timer]
    change (if time < map._time then map._time - time else 0) = _
    split <;> omega
  refine ⟨hnow.symm, h.phases, h.sorted, ⟨events, hentries, hvalid, ?_⟩, h.last, h.last_valid⟩
  rw [hpending, hnow]
  refine map_later_remaining _ _ _ ?_
  rw [h.timer]
  omega

theorem getLsbD_phase {p i : ℕ} (hi : i < 8) :
    (1#8 <<< p).getLsbD i = decide (i = p) := by
  rw [← BitVec.twoPow_eq, BitVec.getLsbD_twoPow]
  by_cases hp : i = p
  · rw [← hp, decide_eq_true hi, decide_eq_true rfl, Bool.true_and]
  · rw [decide_eq_false hp, decide_eq_false (Ne.symm hp), Bool.and_false]

theorem agrees_setPhase (h : Agrees map plan) {phase : ℕ} (hphase : phase ≤ 8) :
    Agrees (map.setPhase phase)
      { plan with phases := if phase = 0 then ∅ else {phase} } := by
  unfold EventMap.setPhase
  by_cases h0 : phase = 0
  · rw [if_pos h0, if_pos h0]
    refine ⟨h.timer, fun p => ?_, h.sorted, h.entries, h.last, h.last_valid⟩
    simp
  · rw [if_neg h0, if_pos hphase, if_neg h0]
    refine ⟨h.timer, fun p => ?_, h.sorted, h.entries, h.last, h.last_valid⟩
    rw [Finset.mem_singleton]
    by_cases hp : p ≠ 0 ∧ p ≤ 8
    · rw [getLsbD_phase (by omega), decide_eq_true_iff]
      omega
    · omega

theorem agrees_addPhase (h : Agrees map plan) {phase : ℕ} (hphase : phase ≤ 8) :
    Agrees (map.addPhase phase)
      { plan with phases := if phase = 0 then plan.phases else insert phase plan.phases } := by
  unfold EventMap.addPhase
  by_cases h0 : phase = 0
  · rw [if_neg fun hc => hc.1 h0, if_pos h0]
    exact h
  · rw [if_pos ⟨h0, hphase⟩, if_neg h0]
    refine ⟨h.timer, fun p => ?_, h.sorted, h.entries, h.last, h.last_valid⟩
    change p ∈ insert phase plan.phases ↔
      p ≠ 0 ∧ p ≤ 8 ∧ (map._phase ||| 1#8 <<< (phase - 1)).getLsbD (p - 1) = true
    rw [Finset.mem_insert, h.phases, BitVec.getLsbD_or, Bool.or_eq_true]
    by_cases hp : p ≠ 0 ∧ p ≤ 8
    · rw [getLsbD_phase (by omega), decide_eq_true_iff,
        (by omega : p - 1 = phase - 1 ↔ p = phase)]
      grind
    · grind

theorem agrees_removePhase (h : Agrees map plan) {phase : ℕ} (hphase : phase ≤ 8) :
    Agrees (map.removePhase phase) { plan with phases := plan.phases.erase phase } := by
  unfold EventMap.removePhase
  by_cases h0 : phase = 0
  · rw [if_neg fun hc => hc.1 h0]
    refine ⟨h.timer, fun p => ?_, h.sorted, h.entries, h.last, h.last_valid⟩
    rw [Finset.mem_erase, h.phases, h0]
    exact ⟨fun hp => hp.2, fun hp => ⟨hp.1, hp⟩⟩
  · rw [if_pos ⟨h0, hphase⟩]
    refine ⟨h.timer, fun p => ?_, h.sorted, h.entries, h.last, h.last_valid⟩
    change p ∈ plan.phases.erase phase ↔
      p ≠ 0 ∧ p ≤ 8 ∧ (map._phase &&& ~~~(1#8 <<< (phase - 1))).getLsbD (p - 1) = true
    rw [Finset.mem_erase, h.phases, BitVec.getLsbD_and, BitVec.getLsbD_not, Bool.and_eq_true,
      Bool.and_eq_true, Bool.not_eq_true']
    by_cases hp : p ≠ 0 ∧ p ≤ 8
    · rw [getLsbD_phase (by omega), decide_eq_true_iff, decide_eq_false_iff_not,
        (by omega : p - 1 = phase - 1 ↔ p = phase)]
      grind
    · grind

/-! ## 5. Putting in and taking out -/

theorem map_entry_enqueue (k : ℕ) (event : ScriptEvent) :
    (enqueue k event events).map entry = enqueue k event.word (events.map entry) :=
  map_enqueue ScriptEvent.word k event events

theorem agrees_insert (h : Agrees map plan) {event : ScriptEvent} (hevent : event.Valid)
    {time : ℕ} (htime : map._time + time < 2 ^ 32) :
    Agrees (map.insert time event.word)
      { plan with pending := ((time : ℤ), event) ::ₘ plan.pending } := by
  obtain ⟨events, hentries, hvalid, hpending⟩ := h.entries
  have hmap : (map.insert time event.word)._eventMap =
      enqueue (map._time + time) event.word map._eventMap := by
    rw [EventMap.insert, uint32_of_lt htime]
  refine ⟨h.timer, h.phases, ?_, ⟨enqueue (map._time + time) event events, ?_, fun x hx => ?_, ?_⟩,
    h.last, h.last_valid⟩
  · rw [hmap]
    exact h.sorted.enqueue _ _
  · rw [hmap, hentries, map_entry_enqueue]
  · obtain rfl | hmem := mem_enqueue.mp hx
    · exact hevent
    · exact hvalid x hmem
  · change _ ::ₘ plan.pending = ((_ : List (ℤ × ScriptEvent)) : Multiset (ℤ × ScriptEvent))
    have hperm := (enqueue_perm (map._time + time) event events).map (remaining map._time)
    rw [hpending]
    refine Eq.trans ?_ (Multiset.coe_eq_coe.mpr hperm).symm
    rw [List.map_cons, ← Multiset.cons_coe]
    congr 1
    congr 1
    push_cast
    omega

/-- Entries are filtered by what their words say. -/
theorem agrees_filter (h : Agrees map plan) (keepWord : ℕ × BitVec 32 → Bool)
    (keep : ScriptEvent → Prop) [DecidablePred keep]
    (hkeep : ∀ (event : ScriptEvent) (time : ℕ), event.Valid →
      keepWord (time, event.word) = decide (keep event)) :
    Agrees { map with _eventMap := map._eventMap.filter keepWord }
      { plan with pending := plan.pending.filter fun x => keep x.2 } := by
  obtain ⟨events, hentries, hvalid, hpending⟩ := h.entries
  have hsame : ∀ x ∈ events, (keepWord ∘ entry) x = decide (keep x.2) := fun x hx =>
    hkeep x.2 x.1 (hvalid x hx)
  refine ⟨h.timer, h.phases, List.Pairwise.filter _ h.sorted,
    ⟨events.filter fun x => keep x.2, ?_, fun x hx => hvalid x (List.mem_filter.mp hx).1, ?_⟩,
    h.last, h.last_valid⟩
  · change map._eventMap.filter keepWord = _
    rw [hentries, List.filter_map, List.filter_congr hsame]
  · change plan.pending.filter _ = _
    rw [hpending, Multiset.filter_coe, List.filter_map]
    rfl

theorem agrees_cancel (h : Agrees map plan) {eventId : ℕ} (hid : eventId < 2 ^ 16) :
    Agrees (map.cancelEvent eventId)
      { plan with pending := plan.pending.filter fun x => x.2.id ≠ eventId } := by
  refine agrees_filter h _ (fun event => event.id ≠ eventId) fun event time hevent => ?_
  rw [ScriptEvent.hasId_word hevent hid, decide_not]

theorem agrees_cancelGroup (h : Agrees map plan) {group : ℕ} (hgroup : group ≤ 8) :
    Agrees (map.cancelEventGroup group)
      { plan with pending := plan.pending.filter fun x => ¬ OfGroup group x.2 } := by
  unfold EventMap.cancelEventGroup
  by_cases h0 : group = 0
  · rw [if_pos (.inl h0), Multiset.filter_eq_self.mpr fun x _ hx => hx.1 h0]
    exact h
  · rw [if_neg (by omega)]
    refine agrees_filter h _ (fun event => ¬ OfGroup group event) fun event time hevent => ?_
    rw [ScriptEvent.hasGroup_word hevent h0 hgroup, decide_not]
    exact congrArg _ (decide_eq_decide.mpr (and_iff_right h0).symm)

/-- The events of a group are moved, the others are kept. -/
theorem perm_of_moved (c : ℕ × ScriptEvent → Prop) [DecidablePred c]
    (f : ℕ × ScriptEvent → ℕ × ScriptEvent) :
    (enqueueAll (enqueueAll ((events.filter c).map f) [])
      (events.filter fun x => !decide (c x))).Perm
        (events.map fun x => if c x then f x else x) := by
  have hmoved : (enqueueAll ((events.filter c).map f) []).Perm
      ((events.filter c).map fun x => if c x then f x else x) := by
    refine ((enqueueAll_perm _ _).trans (List.Perm.of_eq (List.append_nil _))).trans
      (List.Perm.of_eq (List.map_congr_left fun x hx => ?_))
    exact (if_pos (of_decide_eq_true (List.mem_filter.mp hx).2)).symm
  have hkept : (events.filter fun x => !decide (c x)) =
      (events.filter fun x => !decide (c x)).map fun x => if c x then f x else x := by
    refine Eq.trans (List.map_id _).symm (List.map_congr_left fun x hx => ?_)
    have hnot : decide (c x) = false := (Bool.not_eq_true' _).mp (List.mem_filter.mp hx).2
    exact (if_neg (of_decide_eq_false hnot)).symm
  refine (enqueueAll_perm _ _).trans ((hmoved.append (List.Perm.of_eq hkept)).trans ?_)
  rw [← List.map_append]
  exact (List.filter_append_perm _ _).map _

theorem agrees_delayOf (h : Agrees map plan) {time group : ℕ} (hgroup : group ≤ 8)
    (hfits : ∀ x ∈ map._eventMap, hasGroup group x → x.1 + time < 2 ^ 32) :
    Agrees (map.delayEventsOf time group)
      { plan with pending := plan.pending.map fun x =>
          if OfGroup group x.2 then later time x else x } := by
  unfold EventMap.delayEventsOf
  by_cases h0 : group = 0
  · rw [if_pos (.inl h0)]
    refine ⟨h.timer, h.phases, h.sorted, ?_, h.last, h.last_valid⟩
    rw [Multiset.map_congr rfl fun x _ => if_neg fun hx => hx.1 h0, Multiset.map_id']
    exact h.entries
  · rw [if_neg (by omega)]
    obtain ⟨events, hentries, hvalid, hpending⟩ := h.entries
    let moved : List (ℕ × ScriptEvent) :=
      (events.filter fun x => OfGroup group x.2).map fun x => (x.1 + time, x.2)
    let kept : List (ℕ × ScriptEvent) := events.filter fun x => !decide (OfGroup group x.2)
    have hword : ∀ x ∈ events, (hasGroup group ∘ entry) x = decide (OfGroup group x.2) := by
      intro x hx
      refine (ScriptEvent.hasGroup_word (hvalid x hx) h0 hgroup).trans ?_
      exact decide_eq_decide.mpr (and_iff_right h0).symm
    have hmoved : (map._eventMap.filter (hasGroup group)).map
        (fun x => (EventMap.uint32 (x.1 + time), x.2)) = moved.map entry := by
      rw [hentries, List.filter_map, List.filter_congr hword, List.map_map, List.map_map]
      refine List.map_congr_left fun x hx => ?_
      obtain ⟨hmem, hof⟩ := List.mem_filter.mp hx
      have hlt := hfits (entry x) (hentries ▸ List.mem_map_of_mem hmem) ((hword x hmem).trans hof)
      exact congrArg (Prod.mk · x.2.word) (uint32_of_lt hlt)
    have hkept : (map._eventMap.filter fun x => !hasGroup group x) = kept.map entry := by
      rw [hentries, List.filter_map]
      refine congrArg _ (List.filter_congr fun x hx => ?_)
      exact congrArg Bool.not (hword x hx)
    refine ⟨h.timer, h.phases, ?_, ⟨enqueueAll (enqueueAll moved []) kept, ?_, fun x hx => ?_, ?_⟩,
      h.last, h.last_valid⟩
    · exact InTime.enqueueAll _ (List.Pairwise.filter _ h.sorted)
    · change enqueueAll (enqueueAll _ []) _ = _
      rw [hmoved, hkept]
      exact ((map_enqueueAll ScriptEvent.word (enqueueAll moved []) kept).trans
        (congrArg (enqueueAll · _) (map_enqueueAll ScriptEvent.word moved []))).symm
    · obtain ⟨y, hy, rfl⟩ := List.mem_map.mp
        ((perm_of_moved (fun x => OfGroup group x.2) fun x => (x.1 + time, x.2)).mem_iff.mp hx)
      split <;> exact hvalid y hy
    · change plan.pending.map _ = ((_ : List (ℤ × ScriptEvent)) : Multiset (ℤ × ScriptEvent))
      have hperm := (@perm_of_moved events (fun x => OfGroup group x.2) _
        fun x => (x.1 + time, x.2)).map (remaining map._time)
      refine Eq.trans ?_ (Multiset.coe_eq_coe.mpr hperm).symm
      rw [hpending, Multiset.map_coe, List.map_map, List.map_map]
      congr 1
      refine List.map_congr_left fun x _ => ?_
      change (if OfGroup group x.2 then _ else _) = remaining map._time (if _ then _ else _)
      split
      · unfold later remaining
        congr 1
        push_cast
        omega
      · rfl

/-! ## 6. Executing -/

/-- The word is of a phase the map is not in. -/
def Blocked (mask : BitVec 8) (word : BitVec 32) : Prop :=
  mask ≠ 0 ∧ word &&& 0xFF000000#32 ≠ 0 ∧ word >>> 24 &&& mask.setWidth 32 = 0

theorem blocked_word (h : Agrees map plan) {event : ScriptEvent} (hevent : event.Valid) :
    Blocked map._phase event.word ↔ ¬ Eligible plan.phases event := by
  have hphase := hevent.phase_le
  have hmask : map._phase ≠ 0 ↔ plan.phases ≠ ∅ := by
    rw [ScriptEvent.ne_zero_iff, ← Finset.nonempty_iff_ne_empty]
    constructor
    · rintro ⟨i, hi, hbit⟩
      exact ⟨i + 1, (h.phases _).mpr ⟨by omega, by omega, hbit⟩⟩
    · rintro ⟨p, hp⟩
      obtain ⟨h0, h8, hbit⟩ := (h.phases p).mp hp
      exact ⟨p - 1, by omega, hbit⟩
  have hshift := not_congr (ScriptEvent.shift_and_mask hevent map._phase)
  unfold Blocked Eligible
  rw [hmask, ScriptEvent.hasPhase_word hevent, h.phases]
  rw [not_not] at hshift
  rw [hshift]
  grind

/-- **What the loop of `ExecuteEvent` drops**, and where it ends. -/
theorem nextEvent_spec (now : ℕ) (mask : BitVec 8) :
    ∀ xs : List (ℕ × BitVec 32), InTime xs →
      ∃ dropped, (∀ y ∈ dropped, y.1 ≤ now ∧ Blocked mask y.2) ∧
        ((∃ rest, nextEvent now mask xs = (none, rest) ∧ xs = dropped ++ rest ∧
            ∀ y ∈ rest, now < y.1) ∨
          ∃ x rest, nextEvent now mask xs = (some x.2, rest) ∧ xs = dropped ++ x :: rest ∧
            x.1 ≤ now ∧ ¬ Blocked mask x.2)
  | [], _ => ⟨[], by simp, .inl ⟨[], rfl, rfl, by simp⟩⟩
  | x :: xs, h => by
    rw [nextEvent]
    by_cases hlate : now < x.1
    · refine ⟨[], by simp, .inl ⟨x :: xs, if_pos hlate, rfl, fun y hy => ?_⟩⟩
      exact hlate.trans_le (h.head_le y hy)
    · rw [if_neg hlate]
      by_cases hblocked : Blocked mask x.2
      · have hif : (if mask ≠ 0 ∧ x.2 &&& 0xFF000000#32 ≠ 0 ∧ x.2 >>> 24 &&& mask.setWidth 32 = 0
            then nextEvent now mask xs else (some x.2, xs)) = nextEvent now mask xs := if_pos hblocked
        obtain ⟨dropped, hdropped, hcases⟩ := nextEvent_spec now mask xs (List.pairwise_cons.mp h).2
        refine ⟨x :: dropped, fun y hy => ?_, ?_⟩
        · obtain rfl | hmem := List.mem_cons.mp hy
          · exact ⟨Nat.le_of_not_lt hlate, hblocked⟩
          · exact hdropped y hmem
        · rw [hif]
          obtain ⟨rest, hnext, rfl, hrest⟩ | ⟨y, rest, hnext, rfl, hrest⟩ := hcases
          · exact .inl ⟨rest, hnext, rfl, hrest⟩
          · exact .inr ⟨y, rest, hnext, rfl, hrest⟩
      · exact ⟨[], by simp, .inr ⟨x, xs, if_neg hblocked, rfl, Nat.le_of_not_lt hlate, hblocked⟩⟩

/-- The events that are dropped, in the plan. -/
theorem remaining_dropped (h : Agrees map plan) {dropped : List (ℕ × ScriptEvent)}
    (hvalid : ∀ x ∈ dropped, x.2.Valid)
    (hdropped : ∀ y ∈ dropped.map entry, y.1 ≤ map._time ∧ Blocked map._phase y.2) :
    ∀ y ∈ ((dropped.map (remaining map._time) : List (ℤ × ScriptEvent)) :
      Multiset (ℤ × ScriptEvent)), y.1 ≤ 0 ∧ ¬ Eligible plan.phases y.2 := by
  intro y hy
  obtain ⟨x, hx, rfl⟩ := List.mem_map.mp (Multiset.mem_coe.mp hy)
  obtain ⟨hdue, hblocked⟩ := hdropped (entry x) (List.mem_map_of_mem hx)
  refine ⟨?_, (blocked_word h (hvalid x hx)).mp hblocked⟩
  have hle : x.1 ≤ map._time := hdue
  unfold remaining
  omega

theorem agrees_execute (h : Agrees map plan) :
    ∃ plan', plan.Step .execute map.executeEvent.1 plan' ∧ Agrees map.executeEvent.2 plan' := by
  obtain ⟨events, hentries, hvalid, hpending⟩ := h.entries
  obtain ⟨dropped, hdropped, hcases⟩ := nextEvent_spec map._time map._phase map._eventMap h.sorted
  obtain ⟨rest, hnext, hsplit, hrest⟩ | ⟨x, rest, hnext, hsplit, hdue, heligible⟩ := hcases
  · have hexecute : map.executeEvent = (0, { map with _eventMap := rest }) := by
      rw [EventMap.executeEvent, hnext]
    obtain ⟨dropped, rest, rfl, rfl, rfl⟩ :=
      List.map_eq_append_iff.mp (hentries.symm.trans hsplit)
    rw [hexecute]
    refine ⟨_, .idle plan (dropped.map (remaining map._time) : List (ℤ × ScriptEvent))
      (rest.map (remaining map._time) : List (ℤ × ScriptEvent)) ?_
      (remaining_dropped h (fun x hx => hvalid x (List.mem_append_left _ hx)) hdropped) ?_, ?_⟩
    · rw [hpending, List.map_append, Multiset.coe_add]
    · intro y hy
      obtain ⟨x, hx, rfl⟩ := List.mem_map.mp (Multiset.mem_coe.mp hy)
      have hlate : map._time < x.1 := hrest (entry x) (List.mem_map_of_mem hx)
      unfold remaining
      omega
    · refine ⟨h.timer, h.phases, ?_, ⟨rest, rfl, fun x hx => ?_, rfl⟩, h.last, h.last_valid⟩
      · exact (List.pairwise_append.mp (hsplit ▸ h.sorted)).2.1
      · exact hvalid x (List.mem_append_right _ hx)
  · have hexecute : map.executeEvent =
        ((x.2 &&& 0x0000FFFF#32).toNat, { map with _eventMap := rest, _lastEvent := x.2 }) := by
      rw [EventMap.executeEvent, hnext]
    obtain ⟨dropped, later, rfl, rfl, hlater⟩ :=
      List.map_eq_append_iff.mp (hentries.symm.trans hsplit)
    obtain ⟨x, rest, rfl, rfl, rfl⟩ := List.map_eq_cons_iff.mp hlater
    have hx : x.2.Valid := hvalid x (List.mem_append_right _ List.mem_cons_self)
    have hsorted : InTime (entry x :: rest.map entry) :=
      (List.pairwise_append.mp (hsplit ▸ h.sorted)).2.1
    have hallowed : Eligible plan.phases x.2 :=
      not_not.mp fun hnot => heligible ((blocked_word h hx).mpr hnot)
    have hdropped' := remaining_dropped h
      (fun y hy => hvalid y (List.mem_append_left _ hy)) hdropped
    have hid : (x.2.word &&& 0x0000FFFF#32).toNat = x.2.id := ScriptEvent.toNat_word_and_low hx
    rw [hexecute]
    change ∃ plan', plan.Step .execute (x.2.word &&& 0x0000FFFF#32).toNat plan' ∧ _
    rw [hid]
    have hsum : plan.pending = remaining map._time x ::ₘ
        (((dropped.map (remaining map._time) : List (ℤ × ScriptEvent)) :
          Multiset (ℤ × ScriptEvent)) + ((rest.map (remaining map._time) :
            List (ℤ × ScriptEvent)) : Multiset (ℤ × ScriptEvent))) := by
      rw [hpending, List.map_append, List.map_cons, Multiset.coe_add, Multiset.cons_coe]
      exact Multiset.coe_eq_coe.mpr List.perm_middle
    refine ⟨_, .execute plan (remaining map._time x) _ _ hsum ?_ hallowed ?_ hdropped', ?_⟩
    · have hle : x.1 ≤ map._time := hdue
      unfold remaining
      omega
    · intro y hy hyeligible
      rw [hsum] at hy
      obtain rfl | hy := Multiset.mem_cons.mp hy
      · exact le_refl _
      · obtain hy | hy := Multiset.mem_add.mp hy
        · exact absurd hyeligible (hdropped' y hy).2
        · obtain ⟨z, hz, rfl⟩ := List.mem_map.mp (Multiset.mem_coe.mp hy)
          have hle : x.1 ≤ z.1 :=
            hsorted.head_le (entry z) (List.mem_cons_of_mem _ (List.mem_map_of_mem hz))
          unfold remaining
          omega
    · refine ⟨h.timer, h.phases, (List.pairwise_cons.mp hsorted).2,
        ⟨rest, rfl, fun y hy => ?_, rfl⟩, rfl, ?_⟩
      · exact hvalid y (List.mem_append_right _ (List.mem_cons_of_mem _ hy))
      · rintro event ⟨⟩
        exact hx

/-! ## 7. Operations and runs -/

/-- **Every operation does to the plan what it says.** -/
theorem agrees_step (h : Agrees map plan) {op : Op} (hop : map.Allowed op) :
    ∃ plan', plan.Step op (map.output op) plan' ∧ Agrees (map.step op) plan' := by
  cases op with
  | update time => exact ⟨_, .update plan time, agrees_update h hop⟩
  | setPhase phase => exact ⟨_, .setPhase plan phase, agrees_setPhase h hop⟩
  | addPhase phase => exact ⟨_, .addPhase plan phase, agrees_addPhase h hop⟩
  | removePhase phase => exact ⟨_, .removePhase plan phase, agrees_removePhase h hop⟩
  | schedule eventId time group phase =>
    obtain ⟨⟨hpos, hid, hgroup, hphase⟩, htime⟩ := hop
    have hevent : ScriptEvent.Valid ⟨eventId, group, phase⟩ := ⟨hpos, hid, hgroup, hphase⟩
    exact ⟨_, .schedule plan eventId time group phase, agrees_insert h hevent htime⟩
  | reschedule eventId time group phase =>
    obtain ⟨⟨hpos, hid, hgroup, hphase⟩, htime⟩ := hop
    have hevent : ScriptEvent.Valid ⟨eventId, group, phase⟩ := ⟨hpos, hid, hgroup, hphase⟩
    exact ⟨_, .reschedule plan eventId time group phase,
      agrees_insert (agrees_cancel h hid) hevent htime⟩
  | repeatEvent time =>
    obtain ⟨hlast, htime⟩ := hop
    cases hevent : plan.last with
    | none =>
      rw [h.last, hevent] at hlast
      exact absurd rfl hlast
    | some event =>
      refine ⟨_, .repeatEvent plan event hevent time, ?_⟩
      have hword : map._lastEvent = event.word := by rw [h.last, hevent]; rfl
      change Agrees (map.insert time map._lastEvent) _
      rw [hword]
      exact agrees_insert h (h.last_valid event hevent) htime
  | delay time => exact ⟨_, .delay plan time, agrees_delay h time⟩
  | delayOf time group => exact ⟨_, .delayOf plan time group, agrees_delayOf h hop.1 hop.2⟩
  | cancel eventId => exact ⟨_, .cancel plan eventId, agrees_cancel h hop.2⟩
  | cancelGroup group => exact ⟨_, .cancelGroup plan group, agrees_cancelGroup h hop⟩
  | execute => exact agrees_execute h

theorem run_of_agrees : ∀ {ops : List Op} {map : EventMap} {plan : Plan}, Agrees map plan →
    Along EventMap.step EventMap.Allowed map ops →
    ∃ last, plan.Run ops (map.outputs ops) last ∧ Agrees (exec EventMap.step map ops) last
  | [], _, plan, h, _ => ⟨plan, .nil plan, h⟩
  | _ :: _, _, _, h, hops => by
    obtain ⟨next, hstep, hnext⟩ := agrees_step h hops.1
    obtain ⟨last, hrun, hlast⟩ := run_of_agrees hnext hops.2
    exact ⟨last, .cons hstep hrun, hlast⟩

/-- **An event map implements a plan along every run**: what its operations return is what the
plan's return, and the events that are left in it are those of the plan. -/
theorem refines_run (ops : List Op) (hops : Along EventMap.step EventMap.Allowed .init ops) :
    ∃ plan, Plan.init.Run ops (EventMap.init.outputs ops) plan ∧
      Agrees (exec EventMap.step .init ops) plan :=
  run_of_agrees agrees_init hops

/-- An event is scheduled, executed in its phase and repeated. -/
theorem refines_run_repeated :
    ∃ plan, Plan.init.Run
        [.schedule 1 500 2 3, .setPhase 3, .update 600, .execute, .repeatEvent 100, .delay 50]
        [0, 0, 0, 1, 0, 0] plan ∧
      Agrees ⟨550, 4, [(700, 0x04020001)], 0x04020001⟩ plan :=
  refines_run [.schedule 1 500 2 3, .setPhase 3, .update 600, .execute, .repeatEvent 100, .delay 50]
    (by decide)

/-- The times that are left. -/
def EventMap.timesLeft (map : EventMap) : List ℤ :=
  map._eventMap.map fun x => (x.1 : ℤ) - map._time

/-- **No event is delayed by more than the timer shows**: three milliseconds after the start, a
delay of ten postpones an event by three. -/
theorem delay_not_exact :
    ¬ ∀ (ops : List Op) (delay : ℕ), Along EventMap.step EventMap.Allowed .init ops →
      ((exec EventMap.step .init ops).delayEvents delay).timesLeft =
        (exec EventMap.step .init ops).timesLeft.map (· + (delay : ℤ)) := by
  intro h
  have hpostponed := h [.schedule 1 5 0 0, .update 3] 10 (by decide)
  exact absurd hpostponed (by decide)

end HungerGames.Utilities
