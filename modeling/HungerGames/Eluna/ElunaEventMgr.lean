/-
# Timed events of scripts (`ElunaEventMgr.cpp`)

A script asks for a function to be called after a delay, a number of times or for ever.  The event
is an object on the heap; the time multimap owns it, an id map finds it for `RemoveEvent`, and
`Update` holds it in a local variable while its function is called.  The function may do all that
scripts do to events in the meantime, also to the one that is being executed.

So the machine has a stack: of the loops of `Update` that are under way, and of the calls they
make.  Every call of a script is a step, and so is each round of a loop and each return of a
function.  `Sound` says who owns what: an object that is not deleted is in the multimap, or in the
local variable of a loop that will delete it, in one of them and once.
-/
import HungerGames.System.Run
import HungerGames.System.TimeQueue
import Mathlib.Algebra.Group.Nat.Defs

namespace HungerGames.Eluna

open HungerGames.System

/-! ## 1. The processor -/

structure LuaEvent where
  toAbort : Bool
  funcRef : ℤ
  delay : ℕ
  calls : ℕ
deriving DecidableEq

/-- `ElunaEventProcessor`, with the heap its events are on. -/
structure Processor where
  mTime : ℕ
  /-- the times, with addresses -/
  eventList : List (ℕ × ℕ)
  eventMap : ℤ → Option ℕ
  /-- the objects that are not deleted -/
  object : ℕ → Option LuaEvent
  /-- the address of the next object -/
  allocated : ℕ
  /-- the addresses that `delete` has been called for, the last one first -/
  deleted : List ℕ
  /-- the addresses that `Execute` has been called for, and when, the last one first -/
  executed : List (ℕ × ℕ)

namespace Processor

/-- The constructor. -/
def init : Processor where
  mTime := 0
  eventList := []
  eventMap _ := none
  object _ := none
  allocated := 0
  deleted := []
  executed := []

/-- When an event is due that is put in now: a `uint64`. -/
def due (p : Processor) (event : LuaEvent) : ℕ := (p.mTime + event.delay) % 2 ^ 64

/-- `AddEvent(event)`, for the object at an address. -/
def addEvent (p : Processor) (address : ℕ) (event : LuaEvent) : Processor :=
  { p with
    eventList := enqueue (p.due event) address p.eventList
    eventMap := Function.update p.eventMap event.funcRef (some address) }

/-- `AddEvent(funcRef, delay, repeats)` -/
def newEvent (p : Processor) (funcRef : ℤ) (delay repeats : ℕ) : Processor :=
  let event : LuaEvent := ⟨false, funcRef, delay, repeats⟩
  addEvent
    { p with
      object := Function.update p.object p.allocated (some event)
      allocated := p.allocated + 1 }
    p.allocated event

/-- `delete event` -/
def delete (p : Processor) (address : ℕ) : Processor :=
  { p with
    object := Function.update p.object address none
    deleted := address :: p.deleted }

/-- `RemoveEvents()` -/
def removeEvents (p : Processor) : Processor :=
  { (p.eventList.map Prod.snd).foldl delete p with
    eventList := []
    eventMap := fun _ => none }

/-- `to_Abort = true` -/
def abort (p : Processor) (address : ℕ) : Processor :=
  { p with
    object := Function.update p.object address
      ((p.object address).map fun event => { event with toAbort := true }) }

/-- `RemoveEvent(eventId)` -/
def removeEvent (p : Processor) (eventId : ℤ) : Processor :=
  match p.eventMap eventId with
  | none => p
  | some address => p.abort address

/-- `Execute()`, up to the call. -/
def execute (p : Processor) (address : ℕ) (event : LuaEvent) : Processor :=
  { p with
    object := Function.update p.object address (some { event with calls := event.calls - 1 })
    executed := (address, p.mTime) :: p.executed }

/-- What a round of the loop of `Update` comes to. -/
inductive Round where
  /-- nothing is due -/
  | ends
  /-- an aborted event was deleted -/
  | deleted (p : Processor)
  /-- an event is executed, and deleted afterwards if it was its last call -/
  | calls (p : Processor) (address : ℕ) (remove : Bool)

/-- The event at the front is erased from both maps. -/
def erase (p : Processor) (rest : List (ℕ × ℕ)) (event : LuaEvent) : Processor :=
  { p with
    eventList := rest
    eventMap := Function.update p.eventMap event.funcRef none }

/-- The event is executed, and put in again before unless it is for the last time. -/
def call (p : Processor) (address : ℕ) (event : LuaEvent) : Processor :=
  let p := if event.calls = 1 then p else p.addEvent address event
  p.execute address event

def round (p : Processor) : Round :=
  match p.eventList with
  | [] => .ends
  | (time, address) :: rest =>
    if time ≤ p.mTime then
      match p.object address with
      -- a deleted object is in no list
      | none => .ends
      | some event =>
        let p := p.erase rest event
        if event.toAbort then .deleted (p.delete address)
        else .calls (p.call address event) address (event.calls = 1)
    else .ends

end Processor

/-! ## 2. The machine -/

/-- What is under way: a loop of `Update`, or the call of an event's function by the loop below. -/
inductive Frame where
  | update
  | call (address : ℕ) (remove : Bool)
deriving DecidableEq

structure Machine where
  processor : Processor
  stack : List Frame

def Machine.init : Machine := ⟨.init, []⟩

inductive Input where
  | addEvent (funcRef : ℤ) (delay repeats : ℕ)
  | removeEvent (eventId : ℤ)
  | removeEvents
  | update (diff : ℕ)
  /-- the loop on top goes round -/
  | round
  /-- the function on top returns -/
  | returns
deriving DecidableEq

/-- Calls come from outside, or from a function that is being called. -/
def Machine.Calling (c : Machine) : Prop := c.stack.head? ≠ some .update

instance (c : Machine) : Decidable c.Calling := inferInstanceAs (Decidable (_ ≠ _))

/-- `luaL_ref` gives a reference that no event has. -/
def Processor.Unused (p : Processor) (funcRef : ℤ) : Prop :=
  ∀ address < p.allocated, (p.object address).map LuaEvent.funcRef ≠ some funcRef

instance (p : Processor) (funcRef : ℤ) : Decidable (p.Unused funcRef) :=
  inferInstanceAs (Decidable (∀ address < p.allocated, _))

/-- A step of the machine; an input that does not fit is passed over. -/
def step (c : Machine) : Input → Machine
  | .addEvent funcRef delay repeats =>
    if c.Calling ∧ c.processor.Unused funcRef then
      { c with processor := c.processor.newEvent funcRef delay repeats }
    else c
  | .removeEvent eventId =>
    if c.Calling then { c with processor := c.processor.removeEvent eventId } else c
  | .removeEvents => if c.Calling then { c with processor := c.processor.removeEvents } else c
  | .update diff =>
    if c.Calling then
      { processor := { c.processor with mTime := (c.processor.mTime + diff) % 2 ^ 64 }
        stack := .update :: c.stack }
    else c
  | .round =>
    match c.stack with
    | .update :: outer =>
      match c.processor.round with
      | .ends => { c with stack := outer }
      | .deleted p => { c with processor := p }
      | .calls p address remove => ⟨p, .call address remove :: c.stack⟩
    | _ => c
  | .returns =>
    match c.stack with
    | .call address remove :: outer =>
      ⟨if remove then c.processor.delete address else c.processor, outer⟩
    | _ => c

/-! ## 3. Who owns an object -/

/-- **The invariant of the processor**, when the loops hold some objects to delete. -/
structure Owned (p : Processor) (held : List ℕ) : Prop where
  /-- the multimap is in order -/
  inTime : InTime p.eventList
  /-- no object is owned twice -/
  nodup : (p.eventList.map Prod.snd ++ held).Nodup
  /-- an object is owned as long as it is not deleted -/
  live : ∀ a, a ∈ p.eventList.map Prod.snd ++ held ↔ ∃ event, p.object a = some event
  /-- there is no object where the next one is put -/
  fresh : ∀ a, p.allocated ≤ a → p.object a = none
  /-- a reference belongs to one object -/
  refs : ∀ a b e e', p.object a = some e → p.object b = some e' → e.funcRef = e'.funcRef → a = b
  /-- the id map has the events in the multimap -/
  mapped : ∀ funcRef a, p.eventMap funcRef = some a ↔
    a ∈ p.eventList.map Prod.snd ∧ ∃ event, p.object a = some event ∧ event.funcRef = funcRef
  /-- what is deleted was an object, once -/
  gone : ∀ a, a ∈ p.deleted ↔ a < p.allocated ∧ p.object a = none
  once : p.deleted.Nodup

/-- The object a loop deletes when the function returns. -/
def Frame.holds : Frame → Option ℕ
  | .call address true => some address
  | _ => none

/-- **The invariant of the machine.** -/
def Sound (c : Machine) : Prop := Owned c.processor (c.stack.filterMap Frame.holds)

theorem sound_init : Sound .init where
  inTime := List.Pairwise.nil
  nodup := List.nodup_nil
  live a := by simp [Machine.init, Processor.init]
  fresh _ _ := rfl
  refs a b e e' ha := by cases ha
  mapped funcRef a := by simp [Machine.init, Processor.init]
  gone a := by simp [Machine.init, Processor.init]
  once := List.nodup_nil

section Operations

variable {p : Processor} {held : List ℕ} {a : ℕ} {event : LuaEvent}

theorem Owned.object_of_mem (h : Owned p held) {time : ℕ} (hmem : (time, a) ∈ p.eventList) :
    ∃ event, p.object a = some event :=
  (h.live a).mp (List.mem_append_left _ (List.mem_map_of_mem hmem))

theorem Owned.lt_allocated (h : Owned p held) (ha : p.object a = some event) :
    a < p.allocated := by
  by_contra hge
  rw [h.fresh a (Nat.le_of_not_lt hge)] at ha
  cases ha

/-- The first event is taken out of both maps. -/
theorem Owned.erase (h : Owned p held) {time : ℕ} {rest : List (ℕ × ℕ)}
    (hlist : p.eventList = (time, a) :: rest) (ha : p.object a = some event) :
    Owned (p.erase rest event) (a :: held) := by
  have htime := h.inTime
  have hnodup := h.nodup
  have hlive := h.live
  have hmapped := h.mapped
  rw [hlist] at htime hnodup hlive hmapped
  rw [List.map_cons, List.cons_append] at hnodup hlive
  have hfirst : a ∉ rest.map Prod.snd := fun hmem =>
    (List.nodup_cons.mp hnodup).1 (List.mem_append_left _ hmem)
  refine ⟨(List.pairwise_cons.mp htime).2, List.perm_middle.symm.nodup hnodup, fun b => ?_, h.fresh,
    h.refs, fun funcRef b => ?_, h.gone, h.once⟩
  · exact List.perm_middle.mem_iff.trans (hlive b)
  · show Function.update p.eventMap event.funcRef none funcRef = some b ↔ _
    by_cases href : funcRef = event.funcRef
    · subst href
      rw [Function.update_self]
      refine iff_of_false (fun hnone => by cases hnone) ?_
      rintro ⟨hmem, e, hb, he⟩
      rw [h.refs b a e event hb ha he] at hmem
      exact hfirst hmem
    · rw [Function.update_of_ne href, hmapped funcRef b, List.map_cons, List.mem_cons]
      constructor
      · rintro ⟨rfl | hmem, e, hb, he⟩
        · rw [ha] at hb
          cases hb
          exact absurd he.symm href
        · exact ⟨hmem, e, hb, he⟩
      · rintro ⟨hmem, hevent⟩
        exact ⟨Or.inr hmem, hevent⟩

/-- An object that a loop holds is deleted. -/
theorem Owned.delete (h : Owned p (a :: held)) : Owned (p.delete a) held := by
  obtain ⟨event, ha⟩ := (h.live a).mp (List.mem_append_right _ List.mem_cons_self)
  have hnodup := List.nodup_cons.mp (List.perm_middle.nodup h.nodup)
  have hnotin : a ∉ p.eventList.map Prod.snd := fun hmem =>
    hnodup.1 (List.mem_append_left _ hmem)
  have hobject : ∀ b e, (p.delete a).object b = some e ↔ b ≠ a ∧ p.object b = some e := by
    intro b e
    unfold Processor.delete
    dsimp only
    by_cases hb : b = a
    · subst hb
      rw [Function.update_self]
      exact iff_of_false (fun h => by cases h) fun h => h.1 rfl
    · rw [Function.update_of_ne hb]
      exact ⟨fun h => ⟨hb, h⟩, fun h => h.2⟩
  refine ⟨h.inTime, hnodup.2, fun b => ?_, fun b hb => ?_, fun b b' e e' hb hb' => ?_,
    fun funcRef b => ?_, fun b => ?_, ?_⟩
  · have hlive := (List.perm_middle.mem_iff (a := b)).symm.trans (h.live b)
    rw [List.mem_cons] at hlive
    simp only [hobject]
    constructor
    · intro hmem
      obtain ⟨e, he⟩ := hlive.mp (Or.inr hmem)
      exact ⟨e, fun hab => hnodup.1 (hab ▸ hmem), he⟩
    · rintro ⟨e, hne, he⟩
      exact (hlive.mpr ⟨e, he⟩).resolve_left hne
  · by_cases hba : b = a
    · rw [hba]
      exact Function.update_self ..
    · exact (Function.update_of_ne hba ..).trans (h.fresh b hb)
  · exact h.refs b b' e e' ((hobject b e).mp hb).2 ((hobject b' e').mp hb').2
  · have hmap : (p.delete a).eventMap funcRef = p.eventMap funcRef := rfl
    rw [hmap, h.mapped funcRef b]
    refine and_congr_right fun hmem => ?_
    have hne : b ≠ a := fun hab => hnotin (hab ▸ hmem)
    simp only [hobject, hne, ne_eq, not_false_eq_true, true_and]
  · have hlt := h.lt_allocated ha
    show b ∈ a :: p.deleted ↔ b < p.allocated ∧ Function.update p.object a none b = none
    rw [List.mem_cons, h.gone b]
    by_cases hba : b = a
    · subst hba
      rw [Function.update_self]
      exact iff_of_true (Or.inl rfl) ⟨hlt, rfl⟩
    · rw [Function.update_of_ne hba]
      exact ⟨fun h => h.resolve_left hba, Or.inr⟩
  · refine List.nodup_cons.mpr ⟨fun hmem => ?_, h.once⟩
    rw [((h.gone a).mp hmem).2] at ha
    cases ha

/-- Objects that a loop would hold are deleted one after the other. -/
theorem Owned.foldl_delete : ∀ (addresses : List ℕ) {p : Processor},
    Owned p (addresses ++ held) → Owned (addresses.foldl Processor.delete p) held := by
  intro addresses
  induction addresses with
  | nil => exact fun h => h
  | cons a addresses ih => exact fun h => ih h.delete

/-- `delete` leaves the maps alone. -/
theorem foldl_delete_maps (eventList : List (ℕ × ℕ)) (eventMap : ℤ → Option ℕ) :
    ∀ (addresses : List ℕ) (p : Processor),
      { addresses.foldl Processor.delete p with eventList := eventList, eventMap := eventMap } =
        addresses.foldl Processor.delete
          { p with eventList := eventList, eventMap := eventMap } := by
  intro addresses
  induction addresses with
  | nil => exact fun _ => rfl
  | cons a addresses ih => exact fun p => ih (p.delete a)

theorem foldl_delete_logs : ∀ (addresses : List ℕ) (p : Processor),
    (addresses.foldl Processor.delete p).executed = p.executed := by
  intro addresses
  induction addresses with
  | nil => exact fun _ => rfl
  | cons a addresses ih => exact fun p => ih (p.delete a)

theorem Owned.removeEvents (h : Owned p held) : Owned p.removeEvents held := by
  unfold Processor.removeEvents
  rw [foldl_delete_maps]
  refine Owned.foldl_delete _ ⟨List.Pairwise.nil, h.nodup, h.live, h.fresh, h.refs, fun funcRef a => ?_,
    h.gone, h.once⟩
  exact iff_of_false (fun hnone => by cases hnone) fun hmem => by cases hmem.1

/-- An object that a loop holds is put into the maps. -/
theorem Owned.addEvent (h : Owned p (a :: held)) (ha : p.object a = some event) :
    Owned (p.addEvent a event) held := by
  have hperm : ((enqueue (p.due event) a p.eventList).map Prod.snd ++ held).Perm
      (p.eventList.map Prod.snd ++ a :: held) :=
    (((enqueue_perm _ _ _).map Prod.snd).append_right held).trans List.perm_middle.symm
  have hnotin : a ∉ p.eventList.map Prod.snd := fun hmem =>
    (List.nodup_cons.mp (List.perm_middle.nodup h.nodup)).1 (List.mem_append_left _ hmem)
  refine ⟨h.inTime.enqueue _ _, hperm.symm.nodup h.nodup, fun b => ?_, h.fresh, h.refs,
    fun funcRef b => ?_, h.gone, h.once⟩
  · exact hperm.mem_iff.trans (h.live b)
  · have hmem : b ∈ (p.addEvent a event).eventList.map Prod.snd ↔
        b = a ∨ b ∈ p.eventList.map Prod.snd :=
      ((enqueue_perm (p.due event) a p.eventList).map Prod.snd).mem_iff.trans List.mem_cons
    rw [hmem]
    show Function.update p.eventMap event.funcRef (some a) funcRef = some b ↔ _
    by_cases href : funcRef = event.funcRef
    · subst href
      rw [Function.update_self, Option.some_inj]
      constructor
      · rintro rfl
        exact ⟨Or.inl rfl, event, ha, rfl⟩
      · rintro ⟨-, e, hb, he⟩
        exact h.refs a b event e ha hb he.symm
    · rw [Function.update_of_ne href, h.mapped funcRef b]
      constructor
      · rintro ⟨hmem, hevent⟩
        exact ⟨Or.inr hmem, hevent⟩
      · rintro ⟨rfl | hmem, e, hb, he⟩
        · rw [show (p.addEvent b event).object b = some event from ha] at hb
          cases hb
          exact absurd he.symm href
        · exact ⟨hmem, e, hb, he⟩

/-- An object changes, but for its reference. -/
theorem Owned.change (h : Owned p held) (ha : p.object a = some event) (event' : LuaEvent)
    (href : event'.funcRef = event.funcRef) (executed : List (ℕ × ℕ)) :
    Owned { p with
      object := Function.update p.object a (some event')
      executed := executed } held := by
  have hobject : ∀ (q : LuaEvent → Prop) (b : ℕ), (∀ e e', e.funcRef = e'.funcRef → (q e ↔ q e')) →
      ((∃ e, Function.update p.object a (some event') b = some e ∧ q e) ↔
        ∃ e, p.object b = some e ∧ q e) := by
    intro q b hq
    by_cases hb : b = a
    · subst hb
      simp only [Function.update_self, ha, Option.some_inj, exists_eq_left']
      exact hq _ _ href
    · rw [Function.update_of_ne hb]
  have hsome : ∀ b, (∃ e, Function.update p.object a (some event') b = some e) ↔
      ∃ e, p.object b = some e := by
    intro b
    have htrue := hobject (fun _ => True) b fun _ _ _ => Iff.rfl
    simpa only [and_true] using htrue
  have hnone : ∀ b, Function.update p.object a (some event') b = none ↔ p.object b = none := by
    intro b
    have hnot := not_congr (hsome b)
    rwa [← Option.ne_none_iff_exists', ← Option.ne_none_iff_exists', not_not, not_not] at hnot
  refine ⟨h.inTime, h.nodup, fun b => (h.live b).trans (hsome b).symm,
    fun b hb => (hnone b).mpr (h.fresh b hb), fun b b' e e' hb hb' heq => ?_,
    fun funcRef b => (h.mapped funcRef b).trans (and_congr_right fun _ => (hobject _ b ?_).symm),
    fun b => (h.gone b).trans (and_congr_right fun _ => (hnone b).symm), h.once⟩
  · obtain ⟨e₁, hb₁, he₁⟩ := (hobject (fun x => x.funcRef = e.funcRef) b
      (fun x y hxy => by rw [hxy])).mp ⟨e, hb, rfl⟩
    obtain ⟨e₂, hb₂, he₂⟩ := (hobject (fun x => x.funcRef = e'.funcRef) b'
      (fun x y hxy => by rw [hxy])).mp ⟨e', hb', rfl⟩
    exact h.refs b b' e₁ e₂ hb₁ hb₂ (he₁.trans (heq.trans he₂.symm))
  · intro x y hxy
    rw [hxy]

theorem Owned.removeEvent (h : Owned p held) (eventId : ℤ) : Owned (p.removeEvent eventId) held := by
  unfold Processor.removeEvent
  cases hmap : p.eventMap eventId with
  | none => exact h
  | some a =>
    obtain ⟨-, event, ha, -⟩ := (h.mapped eventId a).mp hmap
    dsimp only
    unfold Processor.abort
    rw [ha]
    exact h.change ha { event with toAbort := true } rfl p.executed

theorem Owned.execute (h : Owned p held) (ha : p.object a = some event) :
    Owned (p.execute a event) held :=
  h.change ha { event with calls := event.calls - 1 } rfl _

/-- A new object is put into the maps. -/
theorem Owned.newEvent (h : Owned p held) {funcRef : ℤ} (hunused : p.Unused funcRef)
    (delay repeats : ℕ) : Owned (p.newEvent funcRef delay repeats) held := by
  have hnew : p.object p.allocated = none := h.fresh _ (Nat.le_refl _)
  have hnotin : p.allocated ∉ p.eventList.map Prod.snd ++ held := by
    intro hmem
    obtain ⟨event, he⟩ := (h.live _).mp hmem
    rw [hnew] at he
    cases he
  have hunused' : ∀ b e, p.object b = some e → e.funcRef ≠ funcRef := by
    intro b e hb heq
    refine hunused b (h.lt_allocated hb) ?_
    rw [hb, Option.map_some, heq]
  -- the loops hold it until it is in the maps
  refine Owned.addEvent (p := { p with
    object := Function.update p.object p.allocated (some ⟨false, funcRef, delay, repeats⟩)
    allocated := p.allocated + 1 }) ⟨h.inTime, ?_, fun b => ?_, fun b hb => ?_,
      fun b b' e e' hb hb' heq => ?_, fun ref b => ?_, fun b => ?_, h.once⟩
    (Function.update_self ..)
  · exact List.perm_middle.symm.nodup (List.nodup_cons.mpr ⟨hnotin, h.nodup⟩)
  · rw [List.perm_middle.mem_iff, List.mem_cons]
    dsimp only
    by_cases hb : b = p.allocated
    · subst hb
      rw [Function.update_self]
      exact iff_of_true (Or.inl rfl) ⟨_, rfl⟩
    · rw [Function.update_of_ne hb, ← h.live b]
      exact ⟨fun hmem => hmem.resolve_left hb, Or.inr⟩
  · have hle : p.allocated + 1 ≤ b := hb
    exact (Function.update_of_ne (by omega) ..).trans (h.fresh b (by omega))
  · dsimp only at hb hb'
    by_cases hba : b = p.allocated
    · by_cases hba' : b' = p.allocated
      · rw [hba, hba']
      · rw [hba, Function.update_self, Option.some_inj] at hb
        rw [Function.update_of_ne hba'] at hb'
        exact absurd (heq.symm.trans (congrArg LuaEvent.funcRef hb.symm)) (hunused' b' e' hb')
    · rw [Function.update_of_ne hba] at hb
      by_cases hba' : b' = p.allocated
      · rw [hba', Function.update_self, Option.some_inj] at hb'
        exact absurd (heq.trans (congrArg LuaEvent.funcRef hb'.symm)) (hunused' b e hb)
      · rw [Function.update_of_ne hba'] at hb'
        exact h.refs b b' e e' hb hb' heq
  · refine (h.mapped ref b).trans (and_congr_right fun hmem => ?_)
    have hb : b ≠ p.allocated := fun heq => hnotin (heq ▸ List.mem_append_left _ hmem)
    dsimp only
    rw [Function.update_of_ne hb]
  · rw [h.gone b]
    dsimp only
    by_cases hb : b = p.allocated
    · subst hb
      rw [Function.update_self]
      exact iff_of_false (fun h => absurd h.1 (Nat.lt_irrefl _)) fun h => by cases h.2
    · rw [Function.update_of_ne hb]
      refine and_congr_left fun _ => ?_
      omega

/-- The address at the front is not behind it. -/
theorem ne_of_mem_rest (h : Owned p held) {time : ℕ}
    {rest : List (ℕ × ℕ)} (hlist : p.eventList = (time, a) :: rest) :
    ∀ entry ∈ rest, entry.2 ≠ a := by
  have hnodup := h.nodup
  rw [hlist, List.map_cons, List.cons_append] at hnodup
  intro entry hmem heq
  exact (List.nodup_cons.mp hnodup).1
    (List.mem_append_left _ (List.mem_map.mpr ⟨entry, hmem, heq⟩))

/-- What a call does to the processor. -/
theorem call_eq (p : Processor) (a : ℕ) (event : LuaEvent) (rest : List (ℕ × ℕ)) :
    let q := (p.erase rest event).call a event
    q.mTime = p.mTime ∧ q.executed = (a, p.mTime) :: p.executed ∧
      q.object = Function.update p.object a (some { event with calls := event.calls - 1 }) ∧
      q.eventList = if event.calls = 1 then rest else enqueue (p.due event) a rest := by
  unfold Processor.call
  by_cases hlast : event.calls = 1
  · simp only [if_pos hlast]
    exact ⟨rfl, rfl, rfl, rfl⟩
  · simp only [if_neg hlast]
    exact ⟨rfl, rfl, rfl, rfl⟩

end Operations

/-- **What one round of a loop does.** -/
theorem round_cases {p : Processor} {held : List ℕ} (h : Owned p held) :
    (p.round = .ends ∧ ∀ entry ∈ p.eventList, p.mTime < entry.1) ∨
      ∃ time a rest event, p.eventList = (time, a) :: rest ∧ time ≤ p.mTime ∧
        p.object a = some event ∧
        ((event.toAbort = true ∧ p.round = .deleted ((p.erase rest event).delete a)) ∨
          (event.toAbort = false ∧
            p.round = .calls ((p.erase rest event).call a event) a (event.calls = 1))) := by
  unfold Processor.round
  cases hlist : p.eventList with
  | nil => exact Or.inl ⟨rfl, List.forall_mem_nil _⟩
  | cons entry rest =>
    obtain ⟨time, a⟩ := entry
    obtain ⟨event, ha⟩ := h.object_of_mem (hlist ▸ List.mem_cons_self)
    dsimp only
    by_cases htime : time ≤ p.mTime
    · refine Or.inr ⟨time, a, rest, event, rfl, htime, ha, ?_⟩
      rw [if_pos htime, ha]
      cases habort : event.toAbort with
      | true => exact Or.inl ⟨rfl, if_pos habort⟩
      | false => exact Or.inr ⟨rfl, if_neg (by rw [habort]; decide)⟩
    · have hhead := (hlist ▸ h.inTime : InTime ((time, a) :: rest)).head_le
      exact Or.inl ⟨if_neg htime, fun y hy =>
        Nat.lt_of_lt_of_le (Nat.lt_of_not_le htime) (hhead y hy)⟩

/-- The event is in the multimap again, or the loop holds it. -/
theorem Owned.call {p : Processor} {held : List ℕ} {a : ℕ} {event : LuaEvent}
    (h : Owned p (a :: held)) (ha : p.object a = some event) :
    Owned (p.call a event) (if event.calls = 1 then a :: held else held) := by
  unfold Processor.call
  by_cases hlast : event.calls = 1
  · rw [if_pos hlast, if_pos hlast]
    exact h.execute ha
  · rw [if_neg hlast, if_neg hlast]
    exact (h.addEvent ha).execute ha

/-- **A step keeps the invariant.** -/
theorem sound_step {c : Machine} (h : Sound c) (i : Input) : Sound (step c i) := by
  cases i with
  | addEvent funcRef delay repeats =>
    simp only [step]
    split
    · next hnew => exact Owned.newEvent h hnew.2 delay repeats
    · exact h
  | removeEvent eventId =>
    simp only [step]
    split
    · exact Owned.removeEvent h eventId
    · exact h
  | removeEvents =>
    simp only [step]
    split
    · exact Owned.removeEvents h
    · exact h
  | update diff =>
    simp only [step]
    split
    · exact ⟨h.inTime, h.nodup, h.live, h.fresh, h.refs, h.mapped, h.gone, h.once⟩
    · exact h
  | round =>
    obtain ⟨p, stack⟩ := c
    simp only [step]
    cases stack with
    | nil => exact h
    | cons frame outer =>
      cases frame with
      | call a remove => exact h
      | update =>
        have howned : Owned p (outer.filterMap Frame.holds) := h
        rcases round_cases howned with ⟨hround, -⟩ |
          ⟨time, a, rest, event, hlist, -, ha, ⟨-, hround⟩ | ⟨-, hround⟩⟩
        · rw [hround]
          exact h
        · rw [hround]
          exact (howned.erase hlist ha).delete
        · rw [hround]
          have hcall := (howned.erase hlist ha).call ha
          by_cases hlast : event.calls = 1
          · rw [if_pos hlast] at hcall
            rw [decide_eq_true hlast]
            exact hcall
          · rw [if_neg hlast] at hcall
            rw [decide_eq_false hlast]
            exact hcall
  | returns =>
    obtain ⟨p, stack⟩ := c
    simp only [step]
    cases stack with
    | nil => exact h
    | cons frame outer =>
      cases frame with
      | update => exact h
      | call a remove =>
        cases remove with
        | true => exact Owned.delete h
        | false => exact h

/-- **The invariant holds in every state a run reaches.** -/
theorem sound_exec (is : List Input) : Sound (exec step .init is) :=
  exec_invariant_all (I := Sound) (fun _ i h => sound_step h i) _ is sound_init

/-- **No object is used after it is deleted**: in every state of every run what is in the multimap
and in the id map is there, and what was made is there or was deleted once. -/
theorem objects_live (is : List Input) :
    let p := (exec step .init is).processor
    (∀ entry ∈ p.eventList, (p.object entry.2).isSome = true) ∧
      (∀ funcRef a, p.eventMap funcRef = some a → (p.object a).isSome = true) ∧
        ∀ a < p.allocated, p.deleted.count a = if (p.object a).isSome = true then 0 else 1 := by
  intro p
  have h : Owned p _ := sound_exec is
  have hlive : ∀ a ∈ p.eventList.map Prod.snd, (p.object a).isSome = true := fun a ha =>
    Option.isSome_iff_exists.mpr ((h.live a).mp (List.mem_append_left _ ha))
  refine ⟨fun entry hentry => hlive _ (List.mem_map_of_mem hentry),
    fun funcRef a ha => hlive a ((h.mapped funcRef a).mp ha).1, fun a ha => ?_⟩
  rw [h.once.count]
  by_cases hnone : p.object a = none
  · rw [if_pos ((h.gone a).mpr ⟨ha, hnone⟩), hnone]
    rfl
  · rw [if_neg fun hgone => hnone ((h.gone a).mp hgone).2,
      if_pos (Option.isSome_iff_ne_none.mpr hnone)]

end HungerGames.Eluna
