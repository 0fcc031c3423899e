/-
# How often, and when, an event is executed (`ElunaEventMgr.cpp`)

An event that a script adds is put in the multimap at the time it is added plus its delay, and
again, at the time of the update plus its delay, before each of its calls but the last.  Scripts
remove events while they are executed, and start updates in updates.

`Fate` says what one step can do to one event; `Life` is what holds of an event in every state
behind the one that added it.  From it come the results (`timedEvents`): no more calls than asked
for, and each a delay after the event was put in; as many as asked for when time enough passes and
nobody removes the event; none after a removal; every object deleted once.

All that as long as the times do not wrap (`NoWrap`): the sum of a time and a delay is a `uint64`,
and an event whose sum is too big is due at once (`wrapped_early`).
-/
import HungerGames.Eluna.ElunaEventMgr
import Mathlib.Data.List.Chain

namespace HungerGames.Eluna

open HungerGames.System

/-! ## 1. The fate of an event in a step -/

/-- When an object was executed, the last time first. -/
def Machine.times (c : Machine) (a : ℕ) : List ℕ :=
  (c.processor.executed.filter fun entry => entry.1 = a).map Prod.snd

/-- The event at the front of the multimap, with its time. -/
def Processor.front (p : Processor) : Option (ℕ × LuaEvent) :=
  p.eventList.head?.bind fun entry => (p.object entry.2).map (Prod.mk entry.1)

/-- What a step does to an object. -/
inductive Fate (c : Machine) (i : Input) (c' : Machine) (a : ℕ) : Prop where
  | stays (times : c'.times a = c.times a)
      (entries : ∀ t, (t, a) ∈ c'.processor.eventList ↔ (t, a) ∈ c.processor.eventList)
      (object : ∀ t, (t, a) ∈ c.processor.eventList →
        c'.processor.object a = c.processor.object a)
  | leaves (cause : i = .removeEvents ∨
        ∃ event, c.processor.object a = some event ∧ event.toAbort = true)
      (times : c'.times a = c.times a)
      (entries : ∀ t, (t, a) ∉ c'.processor.eventList)
  | aborted (event : LuaEvent) (old : c.processor.object a = some event)
      (cause : i = .removeEvent event.funcRef)
      (times : c'.times a = c.times a)
      (entries : ∀ t, (t, a) ∈ c'.processor.eventList ↔ (t, a) ∈ c.processor.eventList)
      (object : c'.processor.object a = some { event with toAbort := true })
  | called (time : ℕ) (event : LuaEvent) (cause : i = .round)
      (front : c.processor.front = some (time, event))
      (entry : (time, a) ∈ c.processor.eventList)
      (due : time ≤ c.processor.mTime)
      (old : c.processor.object a = some event)
      (running : event.toAbort = false)
      (times : c'.times a = c.processor.mTime :: c.times a)
      (entries : ∀ t, (t, a) ∈ c'.processor.eventList ↔
        event.calls ≠ 1 ∧ t = c.processor.due event)
      (object : c'.processor.object a = some { event with calls := event.calls - 1 })

section Fates

variable {c c' : Machine} {i : Input} {a b : ℕ} {event : LuaEvent}

theorem times_congr (h : c'.processor.executed = c.processor.executed) :
    c'.times a = c.times a := by
  unfold Machine.times
  rw [h]

/-- Nothing that concerns the multimap. -/
theorem Fate.of_same (hexecuted : c'.processor.executed = c.processor.executed)
    (hlist : c'.processor.eventList = c.processor.eventList)
    (hobject : ∀ t, (t, a) ∈ c.processor.eventList →
      c'.processor.object a = c.processor.object a) : Fate c i c' a :=
  .stays (times_congr hexecuted) (fun t => by rw [hlist]) hobject

theorem fate_newEvent (c : Machine) (i : Input) (hne : a ≠ c.processor.allocated) (funcRef : ℤ)
    (delay repeats : ℕ) :
    Fate c i { c with processor := c.processor.newEvent funcRef delay repeats } a := by
  refine .stays (times_congr rfl) (fun t => ?_) fun t _ => Function.update_of_ne hne ..
  refine mem_enqueue.trans (or_iff_right fun heq => ?_)
  exact hne (Prod.mk.inj heq).2

theorem fate_removeEvents (c : Machine) :
    Fate c .removeEvents { c with processor := c.processor.removeEvents } a :=
  .leaves (Or.inl rfl) (times_congr (foldl_delete_logs _ _)) fun _ => List.not_mem_nil

theorem fate_removeEvent {held : List ℕ} (h : Owned c.processor held) (eventId : ℤ) :
    Fate c (.removeEvent eventId)
      { c with processor := c.processor.removeEvent eventId } a := by
  unfold Processor.removeEvent
  cases hmap : c.processor.eventMap eventId with
  | none => exact .of_same rfl rfl fun _ _ => rfl
  | some b =>
    obtain ⟨-, event, hb, rfl⟩ := (h.mapped eventId b).mp hmap
    by_cases hab : a = b
    · subst hab
      refine .aborted event hb rfl (times_congr rfl) (fun _ => Iff.rfl) ?_
      show Function.update _ a _ a = _
      rw [Function.update_self, hb, Option.map_some]
    · exact .of_same rfl rfl fun _ _ => Function.update_of_ne hab ..

theorem fate_round {p : Processor} {outer : List Frame} (h : Sound ⟨p, .update :: outer⟩) :
    Fate ⟨p, .update :: outer⟩ .round (step ⟨p, .update :: outer⟩ .round) a := by
  have howned : Owned p (outer.filterMap Frame.holds) := h
  simp only [step]
  rcases round_cases howned with ⟨hround, -⟩ |
    ⟨time, b, rest, event, hlist, htime, hb, ⟨habort, hround⟩ | ⟨habort, hround⟩⟩
  · rw [hround]
    exact .of_same rfl rfl fun _ _ => rfl
  all_goals
    rw [hround]
    have hnone : ∀ t, (t, b) ∉ rest := fun t hmem => ne_of_mem_rest howned hlist (t, b) hmem rfl
    have hothers : a ≠ b → ∀ t, (t, a) ∈ p.eventList ↔ (t, a) ∈ rest := by
      intro hab t
      rw [hlist, List.mem_cons]
      exact or_iff_right fun heq => hab (Prod.mk.inj heq).2
  · by_cases hab : a = b
    · subst hab
      exact .leaves (Or.inr ⟨event, hb, habort⟩) (times_congr rfl) hnone
    · exact .stays (times_congr rfl) (fun t => (hothers hab t).symm)
        fun t _ => Function.update_of_ne hab ..
  · obtain ⟨-, hexecuted, hobjects, hentries⟩ := call_eq p b event rest
    generalize (p.erase rest event).call b event = q at *
    have hmem : ∀ t, (t, a) ∈ q.eventList ↔
        (event.calls ≠ 1 ∧ t = p.due event ∧ a = b) ∨ (t, a) ∈ rest := by
      intro t
      rw [hentries]
      by_cases hlast : event.calls = 1
      · rw [if_pos hlast]
        exact (or_iff_right fun h => h.1 hlast).symm
      · rw [if_neg hlast, mem_enqueue, Prod.mk.injEq, and_iff_right hlast]
    by_cases hab : a = b
    · subst hab
      refine .called time event rfl ?_ ?_ htime hb habort ?_ (fun t => ?_) ?_
      · show p.front = _
        rw [Processor.front, hlist, List.head?_cons, Option.bind_some, hb, Option.map_some]
      · exact hlist ▸ List.mem_cons_self
      · show Machine.times ⟨q, _⟩ a = _
        rw [Machine.times, hexecuted, List.filter_cons_of_pos (by simp)]
        rfl
      · rw [hmem t, or_iff_left (hnone t)]
        exact and_congr_right fun _ => and_iff_left rfl
      · show q.object a = _
        rw [hobjects, Function.update_self]
    · refine .stays ?_ (fun t => ?_) fun t _ => ?_
      · show Machine.times ⟨q, _⟩ a = _
        rw [Machine.times, hexecuted, List.filter_cons_of_neg (by simpa using Ne.symm hab)]
        rfl
      · rw [hmem t, hothers hab t]
        exact or_iff_right fun h => hab h.2.2
      · show q.object a = _
        rw [hobjects, Function.update_of_ne hab]

theorem fate_returns {p : Processor} {outer : List Frame} {remove : Bool}
    (h : Sound ⟨p, .call b remove :: outer⟩) :
    Fate ⟨p, .call b remove :: outer⟩ .returns (step ⟨p, .call b remove :: outer⟩ .returns) a := by
  simp only [step]
  cases remove with
  | false => exact .of_same rfl rfl fun _ _ => rfl
  | true =>
    -- the loop's event is not in the multimap
    have howned : Owned p (b :: outer.filterMap Frame.holds) := h
    have hnodup := List.perm_middle.nodup howned.nodup
    refine .of_same rfl rfl fun t hmem => Function.update_of_ne (fun heq => ?_) ..
    subst heq
    exact (List.nodup_cons.mp hnodup).1
      (List.mem_append_left _ (List.mem_map.mpr ⟨(t, a), hmem, rfl⟩))

/-- **What a step does to an object**, unless it makes it. -/
theorem fate_step (h : Sound c) {i : Input}
    (ha : a < c.processor.allocated ∨ (step c i).processor.allocated ≤ a) :
    Fate c i (step c i) a := by
  have hsame : Fate c i c a := .of_same rfl rfl fun _ _ => rfl
  cases i with
  | addEvent funcRef delay repeats =>
    simp only [step] at ha ⊢
    split
    · next hnew =>
      rw [if_pos hnew] at ha
      have hne : a ≠ c.processor.allocated := by
        rcases ha with hlt | hle
        · exact Nat.ne_of_lt hlt
        · exact Nat.ne_of_gt hle
      exact fate_newEvent c _ hne funcRef delay repeats
    · exact hsame
  | removeEvent eventId =>
    simp only [step]
    split
    · exact fate_removeEvent h eventId
    · exact hsame
  | removeEvents =>
    simp only [step]
    split
    · exact fate_removeEvents c
    · exact hsame
  | update diff =>
    simp only [step]
    split
    · exact .of_same rfl rfl fun _ _ => rfl
    · exact hsame
  | round =>
    obtain ⟨p, stack⟩ := c
    rcases stack with _ | ⟨_ | ⟨b, remove⟩, outer⟩
    · exact hsame
    · exact fate_round h
    · exact hsame
  | returns =>
    obtain ⟨p, stack⟩ := c
    rcases stack with _ | ⟨_ | ⟨b, remove⟩, outer⟩
    · exact hsame
    · exact hsame
    · exact fate_returns h

theorem foldl_delete_frame : ∀ (addresses : List ℕ) (p : Processor),
    (addresses.foldl Processor.delete p).allocated = p.allocated ∧
      (addresses.foldl Processor.delete p).mTime = p.mTime := by
  intro addresses
  induction addresses with
  | nil => exact fun _ => ⟨rfl, rfl⟩
  | cons a addresses ih => exact fun p => ih (p.delete a)

theorem removeEvent_frame (p : Processor) (eventId : ℤ) :
    (p.removeEvent eventId).allocated = p.allocated ∧
      (p.removeEvent eventId).mTime = p.mTime := by
  unfold Processor.removeEvent
  cases p.eventMap eventId with
  | none => exact ⟨rfl, rfl⟩
  | some a => exact ⟨rfl, rfl⟩

theorem removeEvent_lists (p : Processor) (eventId : ℤ) :
    (p.removeEvent eventId).eventList = p.eventList ∧
      (p.removeEvent eventId).executed = p.executed := by
  unfold Processor.removeEvent
  cases p.eventMap eventId with
  | none => exact ⟨rfl, rfl⟩
  | some a => exact ⟨rfl, rfl⟩

theorem call_frame (p : Processor) (a : ℕ) (event : LuaEvent) :
    (p.call a event).allocated = p.allocated ∧ (p.call a event).mTime = p.mTime := by
  unfold Processor.call
  split <;> exact ⟨rfl, rfl⟩

/-- How far a step moves the clock. -/
def advance (c : Machine) : Input → ℕ
  | .update diff => if c.Calling then diff else 0
  | _ => 0

/-- **Objects stay allocated, and only updates move the clock.** -/
theorem step_frame (h : Sound c) (i : Input) :
    c.processor.allocated ≤ (step c i).processor.allocated ∧
      ((step c i).processor.mTime = c.processor.mTime ∧ advance c i = 0 ∨
        ∃ diff, i = .update diff ∧ advance c i = diff ∧
          (step c i).processor.mTime = (c.processor.mTime + diff) % 2 ^ 64) := by
  cases i with
  | addEvent funcRef delay repeats =>
    simp only [step]
    split
    · exact ⟨Nat.le_succ _, Or.inl ⟨rfl, rfl⟩⟩
    · exact ⟨Nat.le_refl _, Or.inl ⟨rfl, rfl⟩⟩
  | removeEvent eventId =>
    simp only [step]
    split
    · obtain ⟨hallocated, htime⟩ := removeEvent_frame c.processor eventId
      exact ⟨Nat.le_of_eq hallocated.symm, Or.inl ⟨htime, rfl⟩⟩
    · exact ⟨Nat.le_refl _, Or.inl ⟨rfl, rfl⟩⟩
  | removeEvents =>
    simp only [step]
    split
    · obtain ⟨hallocated, htime⟩ :=
        foldl_delete_frame (c.processor.eventList.map Prod.snd) c.processor
      exact ⟨Nat.le_of_eq hallocated.symm, Or.inl ⟨htime, rfl⟩⟩
    · exact ⟨Nat.le_refl _, Or.inl ⟨rfl, rfl⟩⟩
  | update diff =>
    simp only [step, advance]
    split
    · exact ⟨Nat.le_refl _, Or.inr ⟨diff, rfl, rfl, rfl⟩⟩
    · exact ⟨Nat.le_refl _, Or.inl ⟨rfl, rfl⟩⟩
  | round =>
    obtain ⟨p, stack⟩ := c
    have hsame : p.allocated ≤ p.allocated ∧ (p.mTime = p.mTime ∧ advance ⟨p, stack⟩ .round = 0 ∨
        ∃ diff, Input.round = .update diff ∧ advance ⟨p, stack⟩ .round = diff ∧
          p.mTime = (p.mTime + diff) % 2 ^ 64) := ⟨Nat.le_refl _, Or.inl ⟨rfl, rfl⟩⟩
    rcases stack with _ | ⟨_ | ⟨b, remove⟩, outer⟩
    · exact hsame
    · have howned : Owned p (outer.filterMap Frame.holds) := h
      simp only [step]
      rcases round_cases howned with ⟨hround, -⟩ |
        ⟨time, b, rest, event, -, -, -, ⟨-, hround⟩ | ⟨-, hround⟩⟩
      · rw [hround]
        exact hsame
      · rw [hround]
        exact hsame
      · rw [hround]
        obtain ⟨hallocated, htime⟩ := call_frame (p.erase rest event) b event
        exact ⟨Nat.le_of_eq hallocated.symm, Or.inl ⟨htime, rfl⟩⟩
    · exact hsame
  | returns =>
    obtain ⟨p, stack⟩ := c
    rcases stack with _ | ⟨_ | ⟨b, remove⟩, outer⟩
    · exact ⟨Nat.le_refl _, Or.inl ⟨rfl, rfl⟩⟩
    · exact ⟨Nat.le_refl _, Or.inl ⟨rfl, rfl⟩⟩
    · cases remove with
      | false => exact ⟨Nat.le_refl _, Or.inl ⟨rfl, rfl⟩⟩
      | true => exact ⟨Nat.le_refl _, Or.inl ⟨rfl, rfl⟩⟩

end Fates

/-! ## 2. The life of an event -/

/-- No `uint64` sum of this step wraps: the time of an update, and that of an event that is put
in. -/
def NoWrap (c : Machine) : Input → Prop
  | .addEvent _ delay _ => c.processor.mTime + delay < 2 ^ 64
  | .update diff => c.processor.mTime + diff < 2 ^ 64
  | .round => ∀ entry ∈ c.processor.front, entry.1 ≤ c.processor.mTime →
      entry.2.toAbort = false → entry.2.calls ≠ 1 →
        c.processor.mTime + entry.2.delay < 2 ^ 64
  | _ => True

instance (c : Machine) : ∀ i, Decidable (NoWrap c i)
  | .addEvent .. => inferInstanceAs (Decidable (_ < _))
  | .update _ => inferInstanceAs (Decidable (_ < _))
  | .round => inferInstanceAs (Decidable (∀ entry ∈ c.processor.front, _))
  | .removeEvent _ => inferInstanceAs (Decidable True)
  | .removeEvents => inferInstanceAs (Decidable True)
  | .returns => inferInstanceAs (Decidable True)

/-- The clock of a run without wraps. -/
theorem mTime_step {c : Machine} (h : Sound c) {i : Input} (hi : NoWrap c i) :
    (step c i).processor.mTime = c.processor.mTime + advance c i := by
  rcases (step_frame h i).2 with ⟨htime, hadvance⟩ | ⟨diff, rfl, hadvance, htime⟩
  · rw [htime, hadvance, Nat.add_zero]
  · rw [htime, hadvance]
    exact Nat.mod_eq_of_lt hi

/-- The event that was put in at `start`, with its delay and its number of calls. -/
structure Request where
  address : ℕ
  start : ℕ
  funcRef : ℤ
  delay : ℕ
  repeats : ℕ

/-- When the event was put in last. -/
def Request.last (r : Request) (c : Machine) : ℕ := (c.times r.address).headD r.start

/-- Each time is `delay` or more after the one before. -/
def Spaced (delay : ℕ) (times : List ℕ) : Prop :=
  times.IsChain fun later earlier => earlier + delay ≤ later

instance (delay : ℕ) (times : List ℕ) : Decidable (Spaced delay times) :=
  inferInstanceAs (Decidable (List.IsChain _ times))

/-- **The invariant of an event.** -/
structure Life (r : Request) (c : Machine) : Prop where
  created : r.address < c.processor.allocated
  spaced : Spaced r.delay (c.times r.address ++ [r.start])
  past : r.last c ≤ c.processor.mTime
  often : 0 < r.repeats → (c.times r.address).length ≤ r.repeats
  /-- an event that waits is due a delay after it was put in -/
  waits : ∀ t, (t, r.address) ∈ c.processor.eventList → t = r.last c + r.delay ∧
    (0 < r.repeats → (c.times r.address).length < r.repeats) ∧
      ∃ event, c.processor.object r.address = some event ∧ event.funcRef = r.funcRef ∧
        event.delay = r.delay ∧ event.calls = r.repeats - (c.times r.address).length

section Lives

variable {r : Request} {c c' : Machine} {i : Input}

theorem last_cons {t : ℕ} (h : c'.times r.address = t :: c.times r.address) : r.last c' = t := by
  rw [Request.last, h, List.headD_cons]

theorem head?_append_singleton (xs : List ℕ) (x : ℕ) : (xs ++ [x]).head? = some (xs.headD x) := by
  cases xs <;> rfl

/-- **A step keeps the invariant.** -/
theorem life_step (h : Life r c) (hs : Sound c) (hi : NoWrap c i) : Life r (step c i) := by
  have hcreated := h.created.trans_le (step_frame hs i).1
  have htime : c.processor.mTime ≤ (step c i).processor.mTime := by
    rw [mTime_step hs hi]
    exact Nat.le_add_right _ _
  -- nothing but the entries matters as long as the event is not called
  have hkept : (step c i).times r.address = c.times r.address →
      (∀ t, (t, r.address) ∈ (step c i).processor.eventList →
        (t, r.address) ∈ c.processor.eventList ∧
          ∀ event, c.processor.object r.address = some event → ∃ event',
            (step c i).processor.object r.address = some event' ∧
              event'.funcRef = event.funcRef ∧ event'.delay = event.delay ∧
                event'.calls = event.calls) → Life r (step c i) := by
    intro htimes hentries
    have hlast : r.last (step c i) = r.last c := by
      unfold Request.last
      rw [htimes]
    refine ⟨hcreated, by rw [htimes]; exact h.spaced, hlast ▸ h.past.trans htime,
      by rw [htimes]; exact h.often, fun t ht => ?_⟩
    obtain ⟨hmem, hobject⟩ := hentries t ht
    obtain ⟨hdue, hmore, event, hevent, href, hdelay, hcalls⟩ := h.waits t hmem
    obtain ⟨event', hevent', href', hdelay', hcalls'⟩ := hobject event hevent
    rw [hlast, htimes]
    exact ⟨hdue, hmore, event', hevent', href'.trans href, hdelay'.trans hdelay,
      hcalls'.trans hcalls⟩
  cases fate_step hs (Or.inl h.created) (i := i) with
  | stays times entries object =>
    refine hkept times fun t ht => ?_
    have hmem := (entries t).mp ht
    exact ⟨hmem, fun event hevent => ⟨event, (object t hmem).trans hevent, rfl, rfl, rfl⟩⟩
  | leaves _ times entries => exact hkept times fun t ht => absurd ht (entries t)
  | aborted event old _ times entries object =>
    refine hkept times fun t ht => ⟨(entries t).mp ht, fun e he => ?_⟩
    obtain rfl := Option.some_inj.mp (old.symm.trans he)
    exact ⟨_, object, rfl, rfl, rfl⟩
  | called time event hround front entry due old running times entries object =>
    subst hround
    obtain ⟨hdue, hmore, e, he, href, hdelay, hcalls⟩ := h.waits time entry
    obtain rfl := Option.some_inj.mp (old.symm.trans he)
    have hlast := last_cons times
    refine ⟨hcreated, ?_, by rw [hlast]; exact htime, fun hpos => ?_, fun t ht => ?_⟩
    · rw [times, List.cons_append]
      refine List.IsChain.cons h.spaced fun y hy => ?_
      rw [head?_append_singleton, Option.mem_some_iff] at hy
      subst hy
      exact hdue ▸ due
    · rw [times]
      exact hmore hpos
    · obtain ⟨hagain, rfl⟩ := (entries t).mp ht
      have hsum := hi _ front due running hagain
      rw [hlast, times, List.length_cons]
      refine ⟨?_, fun hpos => ?_, _, object, href, hdelay, ?_⟩
      · rw [Processor.due, Nat.mod_eq_of_lt hsum, hdelay]
      · have hless := hmore hpos
        omega
      · show event.calls - 1 = _
        omega

/-- The event waits to be called, unless it is through. -/
def Waiting (r : Request) (c : Machine) : Prop :=
  (c.times r.address).length < r.repeats → ∃ t event, (t, r.address) ∈ c.processor.eventList ∧
    c.processor.object r.address = some event ∧ event.toAbort = false

/-- What is not made yet has not been called. -/
def Fresh (c : Machine) : Prop := ∀ a, c.processor.allocated ≤ a → c.times a = []

theorem fresh_step (h : Fresh c) (hs : Sound c) (i : Input) : Fresh (step c i) := by
  intro a ha
  have hle := (step_frame hs i).1.trans ha
  have hnone := hs.fresh a hle
  cases fate_step hs (Or.inr ha) with
  | stays times => exact times.trans (h a hle)
  | leaves _ times => exact times.trans (h a hle)
  | aborted _ _ _ times => exact times.trans (h a hle)
  | called _ _ _ _ _ _ old =>
    rw [hnone] at old
    cases old

/-- **A new event.** -/
theorem life_added {funcRef : ℤ} {delay repeats : ℕ} (h : Sound c) (hfresh : Fresh c) (hcalling : c.Calling)
    (hunused : c.processor.Unused funcRef) (hi : NoWrap c (.addEvent funcRef delay repeats)) :
    let r : Request := ⟨c.processor.allocated, c.processor.mTime, funcRef, delay, repeats⟩
    let c' := step c (.addEvent funcRef delay repeats)
    Life r c' ∧ Waiting r c' := by
  have hstep : step c (.addEvent funcRef delay repeats) =
      { c with processor := c.processor.newEvent funcRef delay repeats } :=
    if_pos ⟨hcalling, hunused⟩
  have htimes : (step c (.addEvent funcRef delay repeats)).times c.processor.allocated = [] := by
    rw [hstep]
    exact hfresh _ (Nat.le_refl _)
  have hobject : (step c (.addEvent funcRef delay repeats)).processor.object
      c.processor.allocated = some ⟨false, funcRef, delay, repeats⟩ := by
    rw [hstep]
    exact Function.update_self ..
  have hmem : ∀ t, (t, c.processor.allocated) ∈
      (step c (.addEvent funcRef delay repeats)).processor.eventList ↔
        t = c.processor.mTime + delay := by
    intro t
    rw [hstep]
    have hdue : (c.processor.newEvent funcRef delay repeats).eventList =
        enqueue ((c.processor.mTime + delay) % 2 ^ 64) c.processor.allocated
          c.processor.eventList := rfl
    rw [hdue, mem_enqueue, Nat.mod_eq_of_lt hi, Prod.mk.injEq, and_iff_left rfl]
    refine or_iff_left fun hmem => ?_
    obtain ⟨event, he⟩ := h.object_of_mem hmem
    rw [h.fresh _ (Nat.le_refl _)] at he
    cases he
  have hcreated : c.processor.allocated <
      (step c (.addEvent funcRef delay repeats)).processor.allocated := by
    rw [hstep]
    exact Nat.lt_succ_self _
  have hclock : (step c (.addEvent funcRef delay repeats)).processor.mTime =
      c.processor.mTime := mTime_step h hi
  generalize step c (.addEvent funcRef delay repeats) = c' at *
  have hlast : Request.last ⟨c.processor.allocated, c.processor.mTime, funcRef, delay, repeats⟩ c' =
      c.processor.mTime := by
    rw [Request.last, htimes, List.headD_nil]
  refine ⟨⟨hcreated, ?_, Nat.le_of_eq (hlast.trans hclock.symm), fun _ => ?_, fun t ht => ?_⟩,
    fun _ => ⟨_, _, (hmem _).mpr rfl, hobject, rfl⟩⟩
  · rw [htimes, List.nil_append]
    exact List.isChain_singleton _
  · rw [htimes]
    exact Nat.zero_le _
  · rw [hlast, htimes]
    exact ⟨(hmem t).mp ht, fun hpos => hpos, _, hobject, rfl, rfl, rfl⟩

/-- A step that removes the event. -/
def Request.Removes (r : Request) : Input → Prop
  | .removeEvents => True
  | .removeEvent eventId => eventId = r.funcRef
  | _ => False

/-- **An event that is not removed is called again.** -/
theorem waiting_step (hw : Waiting r c) (h : Life r c) (hs : Sound c) (hi : ¬ r.Removes i) :
    Waiting r (step c i) := by
  intro hless
  cases fate_step hs (Or.inl h.created) (i := i) with
  | stays times entries object =>
    obtain ⟨t, event, ht, hevent, hrunning⟩ := hw (times ▸ hless)
    exact ⟨t, event, (entries t).mpr ht, (object t ht).trans hevent, hrunning⟩
  | leaves cause times entries =>
    obtain ⟨t, event, ht, hevent, hrunning⟩ := hw (times ▸ hless)
    rcases cause with rfl | ⟨e, he, habort⟩
    · exact absurd trivial hi
    · obtain rfl := Option.some_inj.mp (hevent.symm.trans he)
      rw [habort] at hrunning
      cases hrunning
  | aborted event old cause times entries object =>
    subst cause
    obtain ⟨t, e, ht, he, -⟩ := hw (times ▸ hless)
    obtain ⟨-, -, e', he', href, -⟩ := h.waits t ht
    obtain rfl := Option.some_inj.mp (old.symm.trans he')
    exact absurd href hi
  | called time event hround front entry due old running times entries object =>
    rw [times, List.length_cons] at hless
    obtain ⟨-, -, e, he, -, -, hcalls⟩ := h.waits time entry
    obtain rfl := Option.some_inj.mp (old.symm.trans he)
    exact ⟨_, _, (entries _).mpr ⟨by omega, rfl⟩, object, running⟩

/-- Calls are not undone. -/
theorem times_suffix (hs : Sound c) {a : ℕ} (ha : a < c.processor.allocated) (i : Input) :
    c.times a <:+ (step c i).times a := by
  cases fate_step hs (Or.inl ha) (i := i) with
  | stays times => exact times ▸ List.suffix_refl _
  | leaves _ times => exact times ▸ List.suffix_refl _
  | aborted _ _ _ times => exact times ▸ List.suffix_refl _
  | called _ _ _ _ _ _ _ _ times =>
    rw [times]
    exact List.suffix_cons _ _

/-- A removed event: it is not in the multimap, or it is aborted. -/
structure Removed (a : ℕ) (c : Machine) : Prop where
  created : a < c.processor.allocated
  waits : ∀ t, (t, a) ∈ c.processor.eventList →
    ∃ event, c.processor.object a = some event ∧ event.toAbort = true

/-- **A removed event is not called.** -/
theorem removed_step {a : ℕ} (h : Removed a c) (hs : Sound c) (i : Input) :
    Removed a (step c i) ∧ (step c i).times a = c.times a := by
  have hcreated := h.created.trans_le (step_frame hs i).1
  cases fate_step hs (Or.inl h.created) (i := i) with
  | stays times entries object =>
    refine ⟨⟨hcreated, fun t ht => ?_⟩, times⟩
    have hmem := (entries t).mp ht
    rw [object t hmem]
    exact h.waits t hmem
  | leaves _ times entries => exact ⟨⟨hcreated, fun t ht => absurd ht (entries t)⟩, times⟩
  | aborted event _ _ times _ object => exact ⟨⟨hcreated, fun t _ => ⟨_, object, rfl⟩⟩, times⟩
  | called time event _ _ entry _ old running =>
    obtain ⟨e, he, habort⟩ := h.waits time entry
    obtain rfl := Option.some_inj.mp (old.symm.trans he)
    rw [habort] at running
    cases running

end Lives

/-! ## 3. Runs -/

theorem times_exec_of_removed {a : ℕ} : ∀ {c : Machine} (is : List Input), Sound c → Removed a c →
    (exec step c is).times a = c.times a
  | _, [], _, _ => rfl
  | c, i :: is, hs, h => by
    obtain ⟨h', htimes⟩ := removed_step h hs i
    rw [exec_cons, times_exec_of_removed is (sound_step hs i) h', htimes]

theorem times_suffix_exec {a : ℕ} : ∀ {c : Machine} (is : List Input), Sound c →
    a < c.processor.allocated → c.times a <:+ (exec step c is).times a
  | _, [], _, _ => List.suffix_refl _
  | _, i :: is, hs, ha => (times_suffix hs ha i).trans
      (times_suffix_exec is (sound_step hs i) (ha.trans_le (step_frame hs i).1))

/-- The invariant of an event holds in every state of a run without wraps. -/
theorem life_exec {r : Request} {c : Machine} {is : List Input} (h : Life r c) (hs : Sound c)
    (his : Along step NoWrap c is) : Life r (exec step c is) ∧ Sound (exec step c is) :=
  exec_invariant (I := fun c => Life r c ∧ Sound c)
    (fun _ i h hi => ⟨life_step h.1 h.2 hi, sound_step h.2 i⟩) ⟨h, hs⟩ his

theorem waiting_exec {r : Request} {c : Machine} {is : List Input} (hw : Waiting r c)
    (h : Life r c) (hs : Sound c) (his : Along step NoWrap c is)
    (hkeep : ∀ i ∈ is, ¬ r.Removes i) : Waiting r (exec step c is) := by
  induction is generalizing c with
  | nil => exact hw
  | cons i is ih =>
    exact ih (waiting_step hw h hs (hkeep i List.mem_cons_self)) (life_step h hs his.1)
      (sound_step hs i) his.2 fun j hj => hkeep j (List.mem_cons_of_mem i hj)

/-- An update is about to return. -/
def Machine.Returning (c : Machine) : Prop :=
  c.stack.head? = some .update ∧ (step c .round).stack = c.stack.tail

/-- So many updates return, the first of them `delay` or more after the start, and each `delay` or
more after the one before. -/
def EnoughTime (delay : ℕ) : ℕ → Machine → List Input → Prop
  | 0, _, _ => True
  | n + 1, c, is => ∃ js ks, is = js ++ ks ∧ (exec step c js).Returning ∧
      c.processor.mTime + delay ≤ (exec step c js).processor.mTime ∧
        EnoughTime delay n (exec step c js) ks

/-- When an update returns, nothing is due. -/
theorem Machine.Returning.later {c : Machine} (h : c.Returning) (hs : Sound c) :
    ∀ entry ∈ c.processor.eventList, c.processor.mTime < entry.1 := by
  obtain ⟨p, stack⟩ := c
  obtain ⟨hhead, hends⟩ := h
  rcases stack with _ | ⟨frame, outer⟩
  · cases hhead
  obtain rfl : frame = .update := Option.some_inj.mp hhead
  have howned : Owned p (outer.filterMap Frame.holds) := hs
  simp only [step] at hends
  rcases round_cases howned with ⟨-, hlater⟩ |
    ⟨time, b, rest, event, -, -, -, ⟨-, hround⟩ | ⟨-, hround⟩⟩
  · exact hlater
  · rw [hround] at hends
    exact absurd hends (List.cons_ne_self _ _)
  · rw [hround] at hends
    have hlength := congrArg List.length hends
    simp only [List.length_cons, List.tail_cons] at hlength
    omega

/-- **With time enough, an event is executed as often as it was asked for.** -/
theorem often_of_enoughTime {r : Request} : ∀ (n : ℕ) {c : Machine} {is : List Input}, Life r c →
    Waiting r c → Sound c → Along step NoWrap c is → (∀ i ∈ is, ¬ r.Removes i) →
      EnoughTime r.delay n c is →
        min r.repeats ((c.times r.address).length + n) ≤
          ((exec step c is).times r.address).length := by
  intro n
  induction n with
  | zero =>
    intro c is h hw hs his hkeep _
    exact (Nat.min_le_right _ _).trans (times_suffix_exec is hs h.created).length_le
  | succ n ih =>
    intro c is h hw hs his hkeep henough
    obtain ⟨js, ks, rfl, hreturning, htime, henough⟩ := henough
    rw [along_append] at his
    have hkeep₁ : ∀ i ∈ js, ¬ r.Removes i := fun i hi => hkeep i (List.mem_append_left _ hi)
    have hkeep₂ : ∀ i ∈ ks, ¬ r.Removes i := fun i hi => hkeep i (List.mem_append_right _ hi)
    obtain ⟨h₁, hs₁⟩ := life_exec h hs his.1
    have hw₁ := waiting_exec hw h hs his.1 hkeep₁
    have hsuffix := times_suffix_exec js hs h.created
    have hrun := ih h₁ hw₁ hs₁ his.2 hkeep₂ henough
    rw [exec_append]
    -- the event has been called once at least, or has been called often enough
    have hmore : min r.repeats ((c.times r.address).length + 1) ≤
        ((exec step c js).times r.address).length := by
      by_contra hfew
      have hless : ((exec step c js).times r.address).length < r.repeats := by omega
      have hsame : (exec step c js).times r.address = c.times r.address :=
        (hsuffix.eq_of_length (by have := hsuffix.length_le; omega)).symm
      obtain ⟨t, event, ht, -⟩ := hw₁ hless
      obtain ⟨rfl, -⟩ := h₁.waits t ht
      have hlater := hreturning.later hs₁ _ ht
      have hpast := h.past
      unfold Request.last at hlater hpast
      rw [hsame] at hlater
      omega
    omega

/-! ## 4. What the processor promises -/

/-- The time that passes in a run. -/
def elapsed : Machine → List Input → ℕ
  | _, [] => 0
  | c, i :: is => advance c i + elapsed (step c i) is

theorem mTime_exec : ∀ {c : Machine} {is : List Input}, Sound c → Along step NoWrap c is →
    (exec step c is).processor.mTime = c.processor.mTime + elapsed c is
  | _, [], _, _ => rfl
  | c, i :: is, hs, his => by
    rw [exec_cons, mTime_exec (sound_step hs i) his.2, mTime_step hs his.1, elapsed, Nat.add_assoc]

/-- **What the processor promises in a state**, of every run from there whose steps meet `P`. -/
structure TimedEvents (P : Machine → Input → Prop) (c : Machine) : Prop where
  /-- each call of a new event comes a delay after it was put in, and there are no more than asked
  for -/
  added : ∀ {funcRef : ℤ} {delay repeats : ℕ} {is : List Input}, c.Calling →
    c.processor.Unused funcRef → Along step P c (.addEvent funcRef delay repeats :: is) →
      let c' := exec step c (.addEvent funcRef delay repeats :: is)
      Spaced delay (c'.times c.processor.allocated ++ [c.processor.mTime]) ∧
        (0 < repeats → (c'.times c.processor.allocated).length ≤ repeats)
  /-- there are as many, when it is not removed and time enough passes -/
  called : ∀ {funcRef : ℤ} {delay repeats : ℕ} {is : List Input}, c.Calling →
    c.processor.Unused funcRef → Along step P c (.addEvent funcRef delay repeats :: is) →
      0 < repeats → (∀ i ∈ is, i ≠ .removeEvents ∧ i ≠ .removeEvent funcRef) →
        EnoughTime delay repeats (step c (.addEvent funcRef delay repeats)) is →
          ((exec step c (.addEvent funcRef delay repeats :: is)).times
            c.processor.allocated).length = repeats
  /-- no event is called behind `RemoveEvents` -/
  removedAll : c.Calling → ∀ is, ∀ a < c.processor.allocated,
    (exec step c (.removeEvents :: is)).times a = c.times a
  /-- nor behind `RemoveEvent` with its id -/
  removed : c.Calling → ∀ is a event, c.processor.object a = some event →
    (exec step c (.removeEvent event.funcRef :: is)).times a = c.times a
  /-- nor when it is deleted -/
  gone : ∀ is, ∀ a ∈ c.processor.deleted, (exec step c is).times a = c.times a
  /-- no object is deleted twice -/
  deletedOnce : c.processor.deleted.Nodup
  /-- the destructor leaves no object -/
  deletedAll : c.stack = [] →
    ∀ a, a ∈ (step c .removeEvents).processor.deleted ↔ a < c.processor.allocated

theorem timedEvents_of_sound {c : Machine} (hs : Sound c) (hfresh : Fresh c) : TimedEvents NoWrap c where
  added hcalling hunused his := by
    obtain ⟨hlife, -⟩ := life_added hs hfresh hcalling hunused his.1
    obtain ⟨hlife', -⟩ := life_exec hlife (sound_step hs _) his.2
    exact ⟨hlife'.spaced, hlife'.often⟩
  called {funcRef delay repeats is} hcalling hunused his hpos hkeep henough := by
    obtain ⟨hlife, hwaiting⟩ := life_added hs hfresh hcalling hunused his.1
    obtain ⟨hlife', -⟩ := life_exec hlife (sound_step hs _) his.2
    have hmany := often_of_enoughTime repeats hlife hwaiting (sound_step hs _) his.2
      (fun i hi hremoves => ?_) henough
    · refine Nat.le_antisymm (hlife'.often hpos) ?_
      exact (Nat.le_min.mpr ⟨Nat.le_refl _, Nat.le_add_left _ _⟩).trans hmany
    · obtain ⟨hall, hone⟩ := hkeep i hi
      cases i with
      | removeEvents => exact hall rfl
      | removeEvent eventId => exact hone (congrArg Input.removeEvent hremoves)
      | _ => exact hremoves
  removedAll hcalling is a ha := by
    have hstep : step c .removeEvents = { c with processor := c.processor.removeEvents } :=
      if_pos hcalling
    have hremoved : Removed a (step c .removeEvents) := by
      refine ⟨ha.trans_le (step_frame hs _).1, fun t ht => ?_⟩
      rw [hstep] at ht
      cases ht
    rw [exec_cons, times_exec_of_removed is (sound_step hs _) hremoved, hstep]
    exact times_congr (foldl_delete_logs _ _)
  removed hcalling is a event ha := by
    have hstep : step c (.removeEvent event.funcRef) =
        { c with processor := c.processor.removeEvent event.funcRef } := if_pos hcalling
    obtain ⟨hlist, hexecuted⟩ := removeEvent_lists c.processor event.funcRef
    have hremoved : Removed a (step c (.removeEvent event.funcRef)) := by
      refine ⟨(hs.lt_allocated ha).trans_le (step_frame hs _).1, fun t ht => ?_⟩
      rw [hstep] at ht ⊢
      have hmap := (hs.mapped event.funcRef a).mpr
        ⟨List.mem_map.mpr ⟨(t, a), hlist ▸ ht, rfl⟩, event, ha, rfl⟩
      refine ⟨{ event with toAbort := true }, ?_, rfl⟩
      rw [Processor.removeEvent, hmap]
      show Function.update _ a _ a = _
      rw [Function.update_self, ha, Option.map_some]
    rw [exec_cons, times_exec_of_removed is (sound_step hs _) hremoved, hstep]
    exact times_congr hexecuted
  gone is a ha := by
    obtain ⟨hcreated, hnone⟩ := (hs.gone a).mp ha
    refine times_exec_of_removed is hs ⟨hcreated, fun t ht => ?_⟩
    obtain ⟨event, he⟩ := hs.object_of_mem ht
    rw [hnone] at he
    cases he
  deletedOnce := hs.once
  deletedAll hstack a := by
    have hstep : step c .removeEvents = { c with processor := c.processor.removeEvents } :=
      if_pos (by rw [Machine.Calling, hstack]; decide)
    have hsound : Sound (step c .removeEvents) := sound_step hs _
    have hallocated : (step c .removeEvents).processor.allocated = c.processor.allocated := by
      rw [hstep]
      exact (foldl_delete_frame _ _).1
    rw [hsound.gone a, hallocated]
    refine and_iff_left_of_imp fun _ => ?_
    rw [hstep] at hsound ⊢
    have howned : Owned c.processor.removeEvents [] := by
      have hall : Owned c.processor.removeEvents (c.stack.filterMap Frame.holds) := hsound
      rw [hstack] at hall
      exact hall
    refine Option.eq_none_iff_forall_ne_some.mpr fun event he => ?_
    cases (howned.live a).mpr ⟨event, he⟩

/-- An event with two calls, twenty milliseconds apart. -/
def twoCalls : List Input :=
  [.addEvent 1 20 2, .update 20, .round, .returns, .round, .update 30, .round, .returns, .round]

/-- Updates while there is no event. -/
def idleUpdates (diff n : ℕ) : List Input := (List.replicate n [.update diff, .round]).flatten

/-- No event has ever been there. -/
def idleAt (time : ℕ) : Machine := ⟨{ Processor.init with mTime := time % 2 ^ 64 }, []⟩

theorem exec_idleUpdates (diff : ℕ) : ∀ n time,
    exec step (idleAt time) (idleUpdates diff n) = idleAt (time + n * diff)
  | 0, time => by
    rw [Nat.zero_mul, Nat.add_zero]
    rfl
  | n + 1, time => by
    have hturn : exec step (idleAt time) [.update diff, .round] = idleAt (time + diff) := by
      have hrun : exec step (idleAt time) [.update diff, .round] =
          ⟨{ Processor.init with mTime := (time % 2 ^ 64 + diff) % 2 ^ 64 }, []⟩ := rfl
      rw [hrun, Nat.mod_add_mod]
      rfl
    have hcons : idleUpdates diff (n + 1) = [.update diff, .round] ++ idleUpdates diff n := rfl
    rw [hcons, exec_append, hturn, exec_idleUpdates diff n, Nat.add_assoc, Nat.succ_mul,
      Nat.add_comm diff]

end HungerGames.Eluna
