/-
# The event processor (`EventProcessor.cpp`)

`Update` and `KillAllEvents` walk over the multimap of the events and call `Execute` and `Abort` of
each.  What these functions do is not known here, but for what they may do to the processor: add
events, put the event that is executed in again, kill all events.  So the machine has a stack of the
calls under way; each call of the processor is an input, and so is the return of a callback, which
lets the loop that made it go on to the next callback.

Besides the processor the machine has the events, which are deleted, and the history of what was
done to them.  `Lawful` says what a history should be: which event may be called next, and what may
be left when a loop ends.
-/
import HungerGames.System.Run
import HungerGames.System.TimeQueue
import Mathlib.Algebra.Group.Nat.Defs

namespace HungerGames.EventProcessor

open HungerGames.System

/-! ## 1. Events and what happens to them -/

/-- `BasicEvent` -/
structure BasicEvent where
  toAbort : Bool
  mAddTime : ℕ
  mExecTime : ℕ
deriving DecidableEq

/-- A node of the multimap: the event it points to, and which insertion it comes from. -/
structure Node where
  event : ℕ
  insertion : ℕ
deriving DecidableEq

/-- An event, scheduled for a time. -/
abbrev Scheduled := ℕ × Node

inductive Happening where
  /-- `AddEvent` puts it in -/
  | adds (x : Scheduled)
  /-- `Update` calls `Execute` -/
  | executes (x : Scheduled) (now : ℕ)
  /-- `Update` calls `Abort` -/
  | aborts (x : Scheduled) (now : ℕ)
  /-- `KillAllEvents` calls `Abort` -/
  | kills (x : Scheduled) (now : ℕ)
  | deletes (event : ℕ)
  /-- `Update` is done -/
  | updated (now : ℕ)
  /-- `KillAllEvents` is done -/
  | killed (force : Bool)
deriving DecidableEq

namespace Happening

/-- What was scheduled and has come to its end. -/
def ends : Happening → Option Scheduled
  | executes x _ => some x
  | aborts x _ => some x
  | kills x _ => some x
  | _ => none

/-- The event whose `Abort` is called. -/
def abortOf : Happening → Option ℕ
  | aborts x _ => some x.2.event
  | kills x _ => some x.2.event
  | _ => none

end Happening

/-- The events on the heap, and what has happened to them, the last thing first. -/
structure World where
  /-- the events that are not deleted -/
  object : ℕ → Option BasicEvent
  /-- the address of the next event -/
  allocated : ℕ
  /-- how often something was inserted -/
  insertions : ℕ
  history : List Happening
  /-- a deleted event or an invalid iterator was used -/
  broken : Bool

namespace World

def init : World := ⟨fun _ => none, 0, 0, [], false⟩

/-- `new BasicEvent`, or of a class that is derived from it. -/
def allocate (w : World) : World :=
  { w with
    object := Function.update w.object w.allocated (some ⟨false, 0, 0⟩)
    allocated := w.allocated + 1 }

def note (w : World) (a : Happening) : World := { w with history := a :: w.history }

def breakDown (w : World) : World := { w with broken := true }

/-- An event is changed, if there is one. -/
def change (w : World) (event : ℕ) (f : BasicEvent → BasicEvent) : World :=
  { w with object := Function.update w.object event ((w.object event).map f) }

/-- `delete Event` -/
def delete (w : World) (event : ℕ) : World :=
  if (w.object event).isSome then
    { w with
      object := Function.update w.object event none
      history := .deletes event :: w.history }
  else w.breakDown

end World

/-! ## 2. The processor -/

/-- A callback that is under way. -/
inductive Frame where
  /-- `Execute`, called by `Update`; has the event been added again? -/
  | execute (x : Scheduled) (readded : Bool)
  /-- `Abort`, called by `Update` -/
  | abort (x : Scheduled)
  /-- `Abort`, called by `KillAllEvents`, with its two iterators -/
  | kill (force : Bool) (iOld : Scheduled) (i : Option Scheduled)
deriving DecidableEq

structure Machine where
  mTime : ℕ
  mEvents : List Scheduled
  mAborting : Bool
  stack : List Frame
  world : World

namespace Machine

/-- The constructor. -/
def init : Machine := ⟨0, [], false, [], .init⟩

/-- `AddEvent(Event, e_time, set_addtime)` -/
def addEvent (m : Machine) (event eTime : ℕ) (setAddtime : Bool) : Machine :=
  if (m.world.object event).isSome then
    let node : Node := ⟨event, m.world.insertions⟩
    let w := m.world.change event fun e =>
      { e with mAddTime := if setAddtime then m.mTime else e.mAddTime, mExecTime := eTime }
    { m with
      mEvents := enqueue eTime node m.mEvents
      world := { w with insertions := w.insertions + 1 }.note (.adds (eTime, node)) }
  else { m with world := m.world.breakDown }

/-- The loop of `Update`, up to the next callback. -/
def updateLoop (m : Machine) : Machine :=
  match m.mEvents with
  | [] => { m with world := m.world.note (.updated m.mTime) }
  | x :: rest =>
    if x.1 ≤ m.mTime then
      match m.world.object x.2.event with
      | none => { m with world := m.world.breakDown }
      | some event =>
        if event.toAbort then
          { m with
            mEvents := rest
            stack := .abort x :: m.stack
            world := m.world.note (.aborts x m.mTime) }
        else
          { m with
            mEvents := rest
            stack := .execute x false :: m.stack
            world := m.world.note (.executes x m.mTime) }
    else { m with world := m.world.note (.updated m.mTime) }

/-- `Update(p_time)` -/
def update (m : Machine) (pTime : ℕ) : Machine :=
  { m with mTime := (m.mTime + pTime) % 2 ^ 64 }.updateLoop

/-- The iterator after the one at an entry; none is `end()`. -/
def following (x : Scheduled) : List Scheduled → Option Scheduled
  | [] => none
  | y :: ys => if y = x then ys.head? else following x ys

/-- The loop of `KillAllEvents`, with the iterator at an entry, up to the next callback. -/
def killLoop (m : Machine) (force : Bool) (i : Option Scheduled) : Machine :=
  match i with
  | none =>
    { m with
      mEvents := if force then [] else m.mEvents
      world := m.world.note (.killed force) }
  | some iOld =>
    if iOld ∈ m.mEvents ∧ (m.world.object iOld.2.event).isSome then
      let w := m.world.change iOld.2.event fun e => { e with toAbort := true }
      { m with
        stack := .kill force iOld (following iOld m.mEvents) :: m.stack
        world := w.note (.kills iOld m.mTime) }
    else { m with world := m.world.breakDown }

/-- `KillAllEvents(force)`; the destructor is `KillAllEvents(true)`. -/
def killAllEvents (m : Machine) (force : Bool) : Machine :=
  { m with mAborting := true }.killLoop force m.mEvents.head?

/-- The rest of a round of the loop of `KillAllEvents`, for what `IsDeletable` returns. -/
def afterAbort (m : Machine) (force : Bool) (iOld : Scheduled) (isDeletable : Bool) : Machine :=
  if iOld ∈ m.mEvents ∧ (m.world.object iOld.2.event).isSome then
    if force || isDeletable then
      { m with
        mEvents := if force then m.mEvents else m.mEvents.erase iOld
        world := m.world.delete iOld.2.event }
    else m
  else { m with world := m.world.breakDown }

end Machine

inductive Input where
  /-- a new event is added -/
  | addEvent (eTime : ℕ) (setAddtime : Bool)
  /-- `Execute` adds its own event again -/
  | readdEvent (eTime : ℕ) (setAddtime : Bool)
  /-- the flag of an event is set from outside -/
  | setAbort (event : ℕ)
  | update (pTime : ℕ)
  | killAllEvents (force : Bool)
  /-- the callback on top returns; what would `IsDeletable` of its event return now? -/
  | returns (isDeletable : Bool)
deriving DecidableEq

/-- What an input does; one that does not fit is passed over.  `Execute` returns false if its event
was added again and else true. -/
def Machine.next (m : Machine) : Input → Machine
  | .addEvent eTime setAddtime =>
    { m with world := m.world.allocate }.addEvent m.world.allocated eTime setAddtime
  | .readdEvent eTime setAddtime =>
    match m.stack with
    | .execute x false :: outer =>
      { m with stack := .execute x true :: outer }.addEvent x.2.event eTime setAddtime
    | _ => m
  | .setAbort event =>
    { m with world := m.world.change event fun e => { e with toAbort := true } }
  | .update pTime => if m.stack = [] then m.update pTime else m
  | .killAllEvents force => m.killAllEvents force
  | .returns isDeletable =>
    match m.stack with
    | [] => m
    | .execute x readded :: outer =>
      { m with
        stack := outer
        world := if readded then m.world else m.world.delete x.2.event }.updateLoop
    | .abort x :: outer =>
      { m with stack := outer, world := m.world.delete x.2.event }.updateLoop
    | .kill force iOld i :: outer =>
      ({ m with stack := outer }.afterAbort force iOld isDeletable).killLoop force i

/-- A step of the machine; there are none after undefined behaviour. -/
def step (m : Machine) (i : Input) : Machine := if m.world.broken then m else m.next i

/-! ## 3. What a history should be -/

section Lawfulness

variable (h : List Happening)

def Ended (x : Scheduled) : Prop := ∃ a ∈ h, a.ends = some x

/-- It was added and is still to be executed or aborted. -/
def Waiting (x : Scheduled) : Prop := .adds x ∈ h ∧ ¬Ended h x

def Aborted (event : ℕ) : Prop := ∃ a ∈ h, a.abortOf = some event

/-- The earlier one comes first, and of two for the same time the one inserted first. -/
def Before (x y : Scheduled) : Prop :=
  x.1 < y.1 ∨ x.1 = y.1 ∧ x.2.insertion < y.2.insertion

/-- **What may be called.**  It waits, before all others, its event is there, and `Abort` has not
been called for it. -/
structure Callable (x : Scheduled) : Prop where
  waits : Waiting h x
  first : ∀ y, Waiting h y → y = x ∨ Before x y
  notAborted : ¬Aborted h x.2.event
  notDeleted : .deletes x.2.event ∉ h

/-- What may happen after a history. -/
def Right : Happening → Prop
  | .adds x => (∀ y, .adds y ∈ h → y.2.insertion < x.2.insertion) ∧ .deletes x.2.event ∉ h
  | .executes x now => x.1 ≤ now ∧ Callable h x
  | .aborts x now => x.1 ≤ now ∧ Callable h x
  | .kills x _ => Callable h x
  | .deletes event => .deletes event ∉ h ∧ ∀ x, Waiting h x → x.2.event ≠ event
  | .updated now => ∀ x, Waiting h x → now < x.1
  | .killed force => force = true → ∀ x, ¬Waiting h x

end Lawfulness

/-- **A lawful history.** -/
def Lawful : List Happening → Prop
  | [] => True
  | a :: h => Right h a ∧ Lawful h

/-- **What the processor promises.**  Nothing undefined was done and the history is lawful.  But for
`KillAllEvents` on the way the multimap has what waits, and with no callback under way an event that
was ever added is deleted, if it does not wait. -/
structure Kept (m : Machine) : Prop where
  defined : m.world.broken = false
  lawful : Lawful m.world.history
  events : (∀ force iOld i, m.stack.head? ≠ some (.kill force iOld i)) →
    ∀ x, x ∈ m.mEvents ↔ Waiting m.world.history x
  deleted : m.stack = [] → ∀ x, .adds x ∈ m.world.history →
    .deletes x.2.event ∈ m.world.history ∨ ∃ y ∈ m.mEvents, y.2.event = x.2.event

/-- What may happen during a callback. -/
def Frame.Allows : Frame → Input → Prop
  | .kill force _ i, .addEvent eTime _ => (∀ x ∈ i, x.1 ≤ eTime) ∧ (force = true → i.isSome = true)
  | .kill _ _ _, .killAllEvents _ => False
  | .kill force _ _, .returns isDeletable => force = true ∨ isDeletable = true
  | _, _ => True

instance : ∀ (frame : Frame) (input : Input), Decidable (frame.Allows input)
  | .kill force _ i, .addEvent eTime _ =>
    inferInstanceAs (Decidable ((∀ x ∈ i, x.1 ≤ eTime) ∧ (force = true → i.isSome = true)))
  | .kill _ _ _, .killAllEvents _ => isFalse id
  | .kill force _ _, .returns isDeletable =>
    inferInstanceAs (Decidable (force = true ∨ isDeletable = true))
  | .kill _ _ _, .readdEvent _ _ => isTrue trivial
  | .kill _ _ _, .setAbort _ => isTrue trivial
  | .kill _ _ _, .update _ => isTrue trivial
  | .execute _ _, _ => isTrue trivial
  | .abort _, _ => isTrue trivial

/-- **The condition.**  While `KillAllEvents` aborts the events nothing kills them again, and what
is added is put behind the iterator, or else, if the events are not forced out, it finds the last
one; and what `KillAllEvents(false)` aborts can be deleted. -/
def Tame (m : Machine) (input : Input) : Prop := ∀ frame ∈ m.stack.head?, frame.Allows input

instance (m : Machine) (input : Input) : Decidable (Tame m input) :=
  inferInstanceAs (Decidable (∀ frame ∈ m.stack.head?, frame.Allows input))

end HungerGames.EventProcessor
