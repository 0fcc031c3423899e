/-
# Game events

The game event manager: the table of events, what is loaded into it, whether an event is to be
active at a time, when it is next to be looked at, and the Update that starts and stops events.

Times are seconds since the epoch.  `time_t` has 64 bits and neither the clock nor
`UNIX_TIMESTAMP` comes near its end, so they are natural numbers; the products and casts in 32
bits are kept with their wrap.
-/
import HungerGames.System.CheckedArith
import Mathlib.Data.Finset.Basic

namespace HungerGames.Events

open HungerGames.System

def MINUTE : ℕ := 60

def DAY : ℕ := 86400

def IN_MILLISECONDS : ℕ := 1000

/-- `max_ge_check_delay`, one day in seconds. -/
def maxGeCheckDelay : ℕ := DAY

/-- `GameEventState`, with the values that the column holds and the enumeration does not name. -/
inductive GameEventState where
  | normal
  | worldInactive
  | worldConditions
  | worldNextphase
  | worldFinished
  | internal
  | unnamed (value : ℕ)
deriving DecidableEq, Repr

def GameEventState.ofValue : ℕ → GameEventState
  | 0 => normal
  | 1 => worldInactive
  | 2 => worldConditions
  | 3 => worldNextphase
  | 4 => worldFinished
  | 5 => internal
  | value => unnamed value

structure GameEventFinishCondition where
  reqNum : Rat
  done : Rat
deriving DecidableEq

/-- `GameEventData`, with the initial values of its constructor. -/
structure GameEventData where
  start : ℕ := 1
  end_ : ℕ := 0
  nextstart : ℕ := 0
  occurence : ℕ := 0
  length : ℕ := 0
  state : GameEventState := .normal
  conditions : List GameEventFinishCondition := []
  prerequisiteEvents : List ℕ := []
deriving DecidableEq

structure GameEventMgr where
  /-- How many entries `mGameEvent` has. -/
  size : ℕ
  mGameEvent : ℕ → GameEventData
  m_ActiveEvents : Finset ℕ

namespace GameEventMgr

variable (mgr : GameEventMgr)

/-- The ids that Update walks: entry 0 is reserved. -/
def ids : List ℕ := List.range' 1 (mgr.size - 1)

def write (id : ℕ) (event : GameEventData) : GameEventMgr :=
  { mgr with mGameEvent := fun other => if other = id then event else mgr.mGameEvent other }

/-! ## 1. The tables -/

/-- A row of `game_event`: what its columns are read into. -/
structure Row where
  eventEntry : ℕ
  start_time : ℕ
  end_time : ℕ
  occurence : ℕ
  length : ℕ
  world_event : ℕ

/-- A row of `game_event_save`. -/
structure SaveRow where
  eventEntry : ℕ
  state : ℕ
  next_start : ℕ

/-- A manager with room for the events up to `maxEventId`. -/
def initializeEvents (maxEventId : ℕ) : GameEventMgr :=
  { size := maxEventId + 1, mGameEvent := fun _ => {}, m_ActiveEvents := ∅ }

/-- One row of `game_event`.  A row that is refused for its length has been written all the
same. -/
def loadRow (row : Row) : GameEventMgr :=
  if row.eventEntry = 0 then mgr
  else mgr.write row.eventEntry
    { mgr.mGameEvent row.eventEntry with
      start := row.start_time
      end_ := row.end_time
      occurence := row.occurence % 2 ^ 32
      length := row.length % 2 ^ 32
      state := .ofValue row.world_event
      nextstart := 0 }

/-- The rows that count as loaded. -/
def Row.Accepted (row : Row) : Prop :=
  row.eventEntry ≠ 0 ∧
    ¬ (row.length % 2 ^ 32 = 0 ∧ GameEventState.ofValue row.world_event = .normal)

instance (row : Row) : Decidable row.Accepted :=
  inferInstanceAs (Decidable (_ ∧ ¬ (_ ∧ _)))

/-- One row of `game_event_save`: only world events have a state to restore. -/
def loadSaveRow (row : SaveRow) : GameEventMgr :=
  if mgr.size ≤ row.eventEntry then mgr
  else if (mgr.mGameEvent row.eventEntry).state ≠ .normal ∧
      (mgr.mGameEvent row.eventEntry).state ≠ .internal then
    mgr.write row.eventEntry
      { mgr.mGameEvent row.eventEntry with
        state := .ofValue row.state
        nextstart := row.next_start }
  else mgr

def loadFromDB (rows : List Row) (saves : List SaveRow) : GameEventMgr :=
  saves.foldl loadSaveRow (rows.foldl loadRow mgr)

/-! ## 2. Whether an event is to be active, and when to look again -/

def checkOneGameEvent (entry currenttime : ℕ) : Arith Bool :=
  let event := mgr.mGameEvent entry
  match event.state with
  | .worldConditions | .worldNextphase => pure true
  | .worldFinished | .internal => pure false
  | .worldInactive =>
    if event.prerequisiteEvents.any fun id =>
        ((mgr.mGameEvent id).state ≠ .worldNextphase ∧
          (mgr.mGameEvent id).state ≠ .worldFinished) ∨
        currenttime < (mgr.mGameEvent id).nextstart then pure false
    else pure !event.prerequisiteEvents.isEmpty
  | .normal | .unnamed _ =>
    if event.start < currenttime ∧ currenttime < event.end_ then do
      let period ← Arith.uint32 (event.occurence * MINUTE)
      let phase ← Arith.mod (currenttime - event.start) period
      let window ← Arith.uint32 (event.length * MINUTE)
      pure (decide (phase < window))
    else pure false

def nextCheck (entry currenttime : ℕ) : Arith ℕ :=
  let event := mgr.mGameEvent entry
  if (event.state = .worldNextphase ∨ event.state = .worldFinished) ∧
      currenttime ≤ event.nextstart then
    Arith.uint32 (event.nextstart - currenttime)
  else if event.state = .worldConditions then
    if event.length ≠ 0 then Arith.uint32 (event.length * 60) else pure maxGeCheckDelay
  else if event.end_ < currenttime then pure maxGeCheckDelay
  else if currenttime < event.start then Arith.uint32 (event.start - currenttime)
  else do
    let period ← Arith.uint32 (event.occurence * MINUTE)
    let phase ← Arith.mod (currenttime - event.start) period
    let window ← Arith.uint32 (event.length * MINUTE)
    let delay ← Arith.uint32 (if phase < window then window - phase else period - phase)
    if event.end_ < currenttime + delay then Arith.uint32 (event.end_ - currenttime)
    else pure delay

/-! ## 3. Starting and stopping -/

/-- The conditions of a world event; where they are met, it enters its next phase. -/
def checkOneGameEventConditions (event_id currenttime : ℕ) : Arith (GameEventMgr × Bool) :=
  let event := mgr.mGameEvent event_id
  if event.conditions.any fun condition => condition.done < condition.reqNum then pure (mgr, false)
  else if event.nextstart = 0 then do
    let wait ← Arith.uint32 (event.length * 60)
    pure (mgr.write event_id
      { event with state := .worldNextphase, nextstart := currenttime + wait }, true)
  else pure (mgr.write event_id { event with state := .worldNextphase }, true)

/-- `StartEvent` without overwriting, and whether the conditions of the event are met. -/
def startEvent (event_id currenttime : ℕ) : Arith (GameEventMgr × Bool) :=
  let event := mgr.mGameEvent event_id
  let active := { mgr with m_ActiveEvents := insert event_id mgr.m_ActiveEvents }
  if event.state = .normal ∨ event.state = .internal then pure (active, false)
  else if event.state = .worldInactive then
    (active.write event_id { event with state := .worldConditions }).checkOneGameEventConditions
      event_id currenttime
  else active.checkOneGameEventConditions event_id currenttime

/-- `StopEvent` without overwriting: a world event that is not finished starts over. -/
def stopEvent (event_id : ℕ) : GameEventMgr :=
  let event := mgr.mGameEvent event_id
  let stopped := { mgr with m_ActiveEvents := mgr.m_ActiveEvents.erase event_id }
  if event.state ≠ .normal ∧ event.state ≠ .internal ∧ event.state ≠ .worldFinished then
    stopped.write event_id
      { event with
        nextstart := 0
        state := .worldInactive
        conditions := event.conditions.map fun condition => { condition with done := 0 } }
  else stopped

/-! ## 4. Update -/

/-- Where the walk over the events stands: the events to start and to stop, and the delay. -/
structure Pass where
  mgr : GameEventMgr
  activate : List ℕ
  deactivate : List ℕ
  nextEventDelay : ℕ

/-- An event is queued once. -/
def Pass.deactivated (pass : Pass) (itr : ℕ) : Pass :=
  if itr ∈ pass.mgr.m_ActiveEvents then { pass with deactivate := pass.deactivate ++ [itr] }
  else pass

def Pass.activated (pass : Pass) (itr : ℕ) : Pass :=
  if itr ∈ pass.mgr.m_ActiveEvents then pass
  else { pass with activate := pass.activate ++ [itr] }

/-- The delay is the least of those asked for. -/
def Pass.delayed (pass : Pass) (itr currenttime : ℕ) : Arith Pass := do
  let calcDelay ← pass.mgr.nextCheck itr currenttime
  pure { pass with
    nextEventDelay := if calcDelay < pass.nextEventDelay then calcDelay else pass.nextEventDelay }

/-- One event of the walk. -/
def Pass.visit (currenttime : ℕ) (pass : Pass) (itr : ℕ) : Arith Pass := do
  let event := pass.mgr.mGameEvent itr
  let active ← pass.mgr.checkOneGameEvent itr currenttime
  if active then
    if event.state = .worldNextphase ∧ event.nextstart ≤ currenttime then
      let finished := pass.mgr.write itr { event with state := .worldFinished, nextstart := 0 }
      pure ({ pass with mgr := finished }.deactivated itr)
    else if event.state = .worldConditions then do
      let (mgr, _) ← pass.mgr.checkOneGameEventConditions itr currenttime
      ({ pass with mgr := mgr }.activated itr).delayed itr currenttime
    else (pass.activated itr).delayed itr currenttime
  else (pass.deactivated itr).delayed itr currenttime

/-- An event of the queue is started; where its conditions are met, the next Update is due at
once. -/
def Pass.start (currenttime : ℕ) (pass : Pass) (id : ℕ) : Arith Pass := do
  let (mgr, conditionsMet) ← pass.mgr.startEvent id currenttime
  pure { pass with
    mgr := mgr, nextEventDelay := if conditionsMet then 0 else pass.nextEventDelay }

/-- Update, and the delay in milliseconds until the next one. -/
def update (currenttime : ℕ) : Arith (GameEventMgr × ℕ) := do
  let pass ← mgr.ids.foldlM (Pass.visit currenttime) ⟨mgr, [], [], maxGeCheckDelay⟩
  let pass ← pass.activate.foldlM (Pass.start currenttime) pass
  pure (pass.deactivate.foldl stopEvent pass.mgr, (pass.nextEventDelay + 1) * IN_MILLISECONDS)

end GameEventMgr

end HungerGames.Events
