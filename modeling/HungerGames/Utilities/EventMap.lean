/-
# Timed events of creature scripts (`EventMap` of `Util.h`)

A script schedules events by their ids, each after a time, and in a group and a phase if it likes.
All three are packed into one word: the id in the low sixteen bits, then a bit for the group and a
bit for the phase.  The map of the words is sorted by the time at which they are due on a timer
that `Update` moves forwards and `DelayEvents` backwards.

The operations are those of the class; the section on words says what can be read off a packed
word.
-/
import HungerGames.System.Run
import HungerGames.System.TimeQueue
import Mathlib.Algebra.Group.Nat.Defs

namespace HungerGames.Utilities

open HungerGames.System

/-! ## 1. The class -/

structure EventMap where
  _time : ℕ
  _phase : BitVec 8
  _eventMap : List (ℕ × BitVec 32)
  _lastEvent : BitVec 32
deriving DecidableEq

namespace EventMap

/-- The constructor. -/
def init : EventMap := ⟨0, 0, [], 0⟩

variable (map : EventMap)

/-- A time in 32 bits. -/
def uint32 (n : ℕ) : ℕ := n % 2 ^ 32

def update (time : ℕ) : EventMap := { map with _time := uint32 (map._time + time) }

def setPhase (phase : ℕ) : EventMap :=
  if phase = 0 then { map with _phase := 0 }
  else if phase ≤ 8 then { map with _phase := 1#8 <<< (phase - 1) }
  else map

def addPhase (phase : ℕ) : EventMap :=
  if phase ≠ 0 ∧ phase ≤ 8 then { map with _phase := map._phase ||| 1#8 <<< (phase - 1) } else map

def removePhase (phase : ℕ) : EventMap :=
  if phase ≠ 0 ∧ phase ≤ 8 then { map with _phase := map._phase &&& ~~~(1#8 <<< (phase - 1)) }
  else map

/-- The word of an event with its group and its phase. -/
def packed (eventId group phase : ℕ) : BitVec 32 :=
  let word := BitVec.ofNat 32 eventId
  let word := if group ≠ 0 ∧ group ≤ 8 then word ||| 1#32 <<< (group + 15) else word
  if phase ≠ 0 ∧ phase ≤ 8 then word ||| 1#32 <<< (phase + 23) else word

def insert (time : ℕ) (word : BitVec 32) : EventMap :=
  { map with _eventMap := enqueue (uint32 (map._time + time)) word map._eventMap }

def scheduleEvent (eventId time group phase : ℕ) : EventMap :=
  map.insert time (packed eventId group phase)

/-- The entries whose id is this one. -/
def hasId (eventId : ℕ) (x : ℕ × BitVec 32) : Bool :=
  BitVec.ofNat 32 eventId = x.2 &&& 0x0000FFFF#32

/-- The entries whose word has the bit of a group. -/
def hasGroup (group : ℕ) (x : ℕ × BitVec 32) : Bool := x.2 &&& 1#32 <<< (group + 15) ≠ 0

def cancelEvent (eventId : ℕ) : EventMap :=
  { map with _eventMap := map._eventMap.filter fun x => !hasId eventId x }

def cancelEventGroup (group : ℕ) : EventMap :=
  if group = 0 ∨ 8 < group then map
  else { map with _eventMap := map._eventMap.filter fun x => !hasGroup group x }

def rescheduleEvent (eventId time group phase : ℕ) : EventMap :=
  (map.cancelEvent eventId).scheduleEvent eventId time group phase

/-- `Repeat`: the word of the last event is used again. -/
def repeatEvent (time : ℕ) : EventMap := map.insert time map._lastEvent

/-- The loop of `ExecuteEvent`: the word it ends with, if it ends with one, and what is left. -/
def nextEvent (time : ℕ) (phase : BitVec 8) :
    List (ℕ × BitVec 32) → Option (BitVec 32) × List (ℕ × BitVec 32)
  | [] => (none, [])
  | x :: xs =>
    if time < x.1 then (none, x :: xs)
    else if phase ≠ 0 ∧ x.2 &&& 0xFF000000#32 ≠ 0 ∧ x.2 >>> 24 &&& phase.setWidth 32 = 0 then
      nextEvent time phase xs
    else (some x.2, xs)

def executeEvent : ℕ × EventMap :=
  match nextEvent map._time map._phase map._eventMap with
  | (none, rest) => (0, { map with _eventMap := rest })
  | (some word, rest) =>
    ((word &&& 0x0000FFFF#32).toNat, { map with _eventMap := rest, _lastEvent := word })

/-- `DelayEvents(delay)`: the timer goes back, to 0 at most. -/
def delayEvents (delay : ℕ) : EventMap :=
  { map with _time := if delay < map._time then map._time - delay else 0 }

/-- `DelayEvents(delay, group)`: the entries of the group go into a map of their own and back. -/
def delayEventsOf (delay group : ℕ) : EventMap :=
  if group = 0 ∨ 8 < group then map
  else
    let delayed := enqueueAll
      ((map._eventMap.filter (hasGroup group)).map fun x => (uint32 (x.1 + delay), x.2)) []
    { map with _eventMap :=
        enqueueAll delayed (map._eventMap.filter fun x => !hasGroup group x) }

end EventMap

/-! ## 2. Packed words -/

/-- An event as a script names it. -/
structure ScriptEvent where
  id : ℕ
  group : ℕ
  phase : ℕ
deriving DecidableEq

namespace ScriptEvent

/-- The ids, groups and phases there are; 0 stands for no group and no phase. -/
structure Valid (event : ScriptEvent) : Prop where
  id_pos : 0 < event.id
  id_lt : event.id < 2 ^ 16
  group_le : event.group ≤ 8
  phase_le : event.phase ≤ 8

def word (event : ScriptEvent) : BitVec 32 := EventMap.packed event.id event.group event.phase

variable {event : ScriptEvent}

variable {i : ℕ}

theorem getLsbD_shift {j : ℕ} : (1#32 <<< i).getLsbD j = (decide (i < 32) && decide (i = j)) := by
  rw [← BitVec.twoPow_eq, BitVec.getLsbD_twoPow]

/-- A bit is put into a word on a condition. -/
theorem getLsbD_marked {word : BitVec 32} {c : Prop} [Decidable c] {k : ℕ} (hk : c → k < 32) :
    (if c then word ||| 1#32 <<< k else word).getLsbD i =
      (word.getLsbD i || decide (c ∧ i = k)) := by
  by_cases hc : c
  · rw [if_pos hc, BitVec.getLsbD_or, getLsbD_shift, decide_eq_true (hk hc), Bool.true_and]
    congr 1
    exact decide_eq_decide.mpr ⟨fun h => ⟨hc, h.symm⟩, fun h => h.2.symm⟩
  · rw [if_neg hc, decide_eq_false fun h => hc h.1, Bool.or_false]

/-- **The bits of a packed word.** -/
theorem getLsbD_word (h : event.Valid) (hi : i < 32) :
    event.word.getLsbD i = (event.id.testBit i || decide (event.group ≠ 0 ∧ i = event.group + 15) ||
      decide (event.phase ≠ 0 ∧ i = event.phase + 23)) := by
  unfold word EventMap.packed
  rw [getLsbD_marked fun hc => by omega, getLsbD_marked fun hc => by omega, BitVec.getLsbD_ofNat,
    decide_eq_true hi, Bool.true_and]
  simp only [and_iff_left h.group_le, and_iff_left h.phase_le]

theorem testBit_id (h : event.Valid) (hi : 16 ≤ i) : event.id.testBit i = false :=
  Nat.testBit_lt_two_pow (h.id_lt.trans_le (Nat.pow_le_pow_right (by decide) hi))

/-- The low sixteen bits are the id. -/
theorem word_and_low (h : event.Valid) :
    event.word &&& 0x0000FFFF#32 = BitVec.ofNat 32 event.id := by
  refine BitVec.eq_of_getLsbD_eq fun i hi => ?_
  have hmask : (0x0000FFFF#32).getLsbD i = decide (i < 16) := by
    rw [show (0x0000FFFF#32) = BitVec.ofNat 32 (2 ^ 16 - 1) from rfl, BitVec.getLsbD_ofNat,
      Nat.testBit_two_pow_sub_one, decide_eq_true hi, Bool.true_and]
  rw [BitVec.getLsbD_and, hmask, getLsbD_word h hi, BitVec.getLsbD_ofNat, decide_eq_true hi,
    Bool.true_and]
  by_cases hlow : i < 16
  · rw [decide_eq_true hlow, Bool.and_true, decide_eq_false (by omega), decide_eq_false (by omega),
      Bool.or_false, Bool.or_false]
  · rw [decide_eq_false hlow, Bool.and_false, testBit_id h (by omega)]

theorem toNat_word_and_low (h : event.Valid) : (event.word &&& 0x0000FFFF#32).toNat = event.id := by
  rw [word_and_low h, BitVec.toNat_ofNat]
  exact Nat.mod_eq_of_lt (h.id_lt.trans (by decide))

theorem hasId_word (h : event.Valid) {eventId time : ℕ} (hid : eventId < 2 ^ 16) :
    EventMap.hasId eventId (time, event.word) = decide (event.id = eventId) := by
  unfold EventMap.hasId
  rw [word_and_low h]
  refine decide_eq_decide.mpr ⟨fun heq => ?_, fun heq => by rw [heq]⟩
  have hnat := congrArg BitVec.toNat heq
  have hlt := h.id_lt
  rw [BitVec.toNat_ofNat, BitVec.toNat_ofNat, Nat.mod_eq_of_lt (by omega),
    Nat.mod_eq_of_lt (by omega)] at hnat
  exact hnat.symm

theorem and_shift_ne_zero {word : BitVec 32} {k : ℕ} :
    word &&& 1#32 <<< k ≠ 0 ↔ word.getLsbD k = true := by
  rw [← BitVec.twoPow_eq, BitVec.and_twoPow]
  by_cases hbit : word.getLsbD k = true
  · rw [if_pos hbit]
    refine iff_of_true (fun hzero => ?_) hbit
    have hk : k < 32 := BitVec.lt_of_getLsbD hbit
    have hset : (BitVec.twoPow 32 k).getLsbD k = true := by
      rw [BitVec.getLsbD_twoPow, decide_eq_true hk, decide_eq_true rfl, Bool.true_and]
    rw [hzero] at hset
    exact absurd hset (by simp)
  · rw [if_neg hbit]
    exact iff_of_false (fun h => h rfl) hbit

theorem hasGroup_word (h : event.Valid) {group time : ℕ} (h0 : group ≠ 0) (h8 : group ≤ 8) :
    EventMap.hasGroup group (time, event.word) = decide (event.group = group) := by
  refine decide_eq_decide.mpr (and_shift_ne_zero.trans ?_)
  rw [getLsbD_word h (by omega), testBit_id h (by omega), Bool.false_or, Bool.or_eq_true,
    decide_eq_true_iff, decide_eq_true_iff]
  have := h.group_le
  omega

theorem ne_zero_iff {w : ℕ} {word : BitVec w} :
    word ≠ 0 ↔ ∃ i, i < w ∧ word.getLsbD i = true := by
  constructor
  · intro hne
    by_contra hall
    refine hne (BitVec.eq_of_getLsbD_eq fun i hi => ?_)
    change _ = (0#w).getLsbD i
    rw [BitVec.getLsbD_zero]
    exact Bool.eq_false_iff.mpr fun hbit => hall ⟨i, hi, hbit⟩
  · rintro ⟨i, -, hbit⟩ rfl
    change (0#w).getLsbD i = true at hbit
    rw [BitVec.getLsbD_zero] at hbit
    cases hbit

/-- The high eight bits are the phase. -/
theorem getLsbD_word_high (h : event.Valid) (hlow : 24 ≤ i) (hi : i < 32) :
    event.word.getLsbD i = decide (event.phase ≠ 0 ∧ i = event.phase + 23) := by
  have := h.group_le
  rw [getLsbD_word h hi, testBit_id h (by omega), decide_eq_false (by omega), Bool.false_or,
    Bool.false_or]

theorem getLsbD_high (hi : i < 32) : (0xFF000000#32).getLsbD i = decide (24 ≤ i) := by
  rw [show (0xFF000000#32) = BitVec.ofNat 32 ((2 ^ 8 - 1) * 2 ^ 24) from rfl, BitVec.getLsbD_ofNat,
    Nat.testBit_mul_two_pow, Nat.testBit_two_pow_sub_one, decide_eq_true hi, Bool.true_and]
  by_cases hlow : 24 ≤ i
  · rw [decide_eq_true hlow, decide_eq_true (by omega : i - 24 < 8), Bool.true_and]
  · rw [decide_eq_false hlow, Bool.false_and]

theorem hasPhase_word (h : event.Valid) : event.word &&& 0xFF000000#32 ≠ 0 ↔ event.phase ≠ 0 := by
  have hphase := h.phase_le
  rw [ne_zero_iff]
  constructor
  · rintro ⟨i, hi, hbit⟩
    rw [BitVec.getLsbD_and, getLsbD_high hi, Bool.and_eq_true] at hbit
    have hlow := of_decide_eq_true hbit.2
    rw [getLsbD_word_high h hlow hi, decide_eq_true_iff] at hbit
    exact hbit.1.1
  · intro h0
    refine ⟨event.phase + 23, by omega, ?_⟩
    rw [BitVec.getLsbD_and, getLsbD_high (by omega), getLsbD_word_high h (by omega) (by omega),
      decide_eq_true ⟨h0, rfl⟩, decide_eq_true (by omega), Bool.true_and]

/-- The phase of a word against the phases of the map. -/
theorem shift_and_mask (h : event.Valid) (mask : BitVec 8) :
    event.word >>> 24 &&& mask.setWidth 32 ≠ 0 ↔
      event.phase ≠ 0 ∧ mask.getLsbD (event.phase - 1) = true := by
  have hphase := h.phase_le
  rw [ne_zero_iff]
  constructor
  · rintro ⟨i, hi, hbit⟩
    rw [BitVec.getLsbD_and, BitVec.getLsbD_ushiftRight, BitVec.getLsbD_setWidth, Bool.and_eq_true,
      Bool.and_eq_true] at hbit
    obtain ⟨hword, -, hmask⟩ := hbit
    have hlt : i < 8 := BitVec.lt_of_getLsbD hmask
    rw [getLsbD_word_high h (by omega) (by omega), decide_eq_true_iff] at hword
    refine ⟨hword.1, ?_⟩
    rw [show event.phase - 1 = i by omega]
    exact hmask
  · rintro ⟨h0, hmask⟩
    refine ⟨event.phase - 1, by omega, ?_⟩
    rw [BitVec.getLsbD_and, BitVec.getLsbD_ushiftRight, BitVec.getLsbD_setWidth, hmask,
      getLsbD_word_high h (by omega) (by omega), decide_eq_true ⟨h0, by omega⟩,
      decide_eq_true (by omega : event.phase - 1 < 32)]
    rfl

end ScriptEvent

end HungerGames.Utilities
