/-
# The resets of instances

Normal instances are reset one by one, raids and heroic dungeons all at once by map and
difficulty.  Both kinds of reset are events of one queue in order of time.  An event has its type
(0 for a single instance, 1 to 3 for warnings of a global reset, 4 for the reset itself), its map
and difficulty, and the id of an instance in 16 bits.

`LoadResetTimes` fills the queue from the rows of the database; afterwards instances are
scheduled and cancelled, and `Update` handles what is due.  What the events do to maps and
players is left out.
-/
import HungerGames.System.SortedMap
import HungerGames.System.TimeQueue
import Mathlib.Algebra.Order.Ring.Int

namespace HungerGames.Resets

open HungerGames.System

/-! ## 1. Maps and events -/

def HOUR : ℤ := 3600

def DAY : ℤ := 86400

def MINUTE : ℤ := 60

structure MapEntry where
  instanceable : Bool
  isRaid : Bool
  deriving DecidableEq, Repr

/-- A map and a difficulty. -/
abbrev MapDiff : Type := ℕ × ℕ

/-- The maps of the client's files, and the reset times of their difficulties, in seconds; only
dungeons and raids have any. -/
structure MapData where
  lookupEntry : ℕ → Option MapEntry
  mapDifficultyMap : List (MapDiff × ℕ)
  keys : (mapDifficultyMap.map Prod.fst).Nodup
  small : ∀ x ∈ mapDifficultyMap, x.1.1 < 2 ^ 16 ∧ x.1.2 < 2 ^ 8
  dungeons : ∀ x ∈ mapDifficultyMap, x.2 ≠ 0 →
    ((lookupEntry x.1.1).map MapEntry.instanceable).getD false = true

namespace MapData

def isInstanceable (data : MapData) (mapid : ℕ) : Bool :=
  ((data.lookupEntry mapid).map MapEntry.instanceable).getD false

/-- `GetMapDifficultyData`, as its reset time. -/
def resetTimeOf (data : MapData) (key : MapDiff) : Option ℕ :=
  (data.mapDifficultyMap.find? fun x => x.1 = key).map Prod.snd

/-- The maps and difficulties with a reset period. -/
def periodic (data : MapData) : List MapDiff :=
  (data.mapDifficultyMap.filter fun x => x.2 ≠ 0).map Prod.fst

end MapData

/-- `CONFIG_INSTANCE_RESET_TIME_HOUR`, and what `RATE_INSTANCE_RESET_TIME` makes of a reset time,
which is computed in floats. -/
structure Config where
  resetTimeHour : ℕ
  scaled : ℕ → ℕ

/-- A number of 32 bits. -/
def uint32 (n : ℤ) : ℤ := n % 2 ^ 32

def Config.diff (config : Config) : ℤ := uint32 (config.resetTimeHour * HOUR)

/-- The time between two resets, at least a day. -/
def Config.period (config : Config) (resetTime : ℕ) : ℤ :=
  if uint32 (config.scaled resetTime) < DAY then DAY else uint32 (config.scaled resetTime)

/-- The fields are of 8 and 16 bits. -/
structure InstResetEvent where
  type : ℕ
  mapid : ℕ
  difficulty : ℕ
  instanceId : ℕ
  deriving DecidableEq, Repr

def InstResetEvent.make (t mapid d instanceid : ℕ) : InstResetEvent :=
  ⟨t % 2 ^ 8, mapid % 2 ^ 16, d % 2 ^ 8, instanceid % 2 ^ 16⟩

/-- `operator ==`. -/
def InstResetEvent.same (e event : InstResetEvent) : Bool := event.instanceId = e.instanceId

def InstResetEvent.key (event : InstResetEvent) : MapDiff := (event.mapid, event.difficulty)

abbrev ResetTimeQueue : Type := List (ℤ × InstResetEvent)

/-- `ResetTimeDelay[type - 1]`. -/
def resetTimeDelay : ℕ → ℤ
  | 1 => 3600
  | 2 => 900
  | 3 => 300
  | _ => 60

/-! ## 2. The manager -/

structure InstanceSave where
  mapid : ℕ
  difficulty : ℕ
  resetTime : ℤ
  deriving DecidableEq, Repr

/-- The manager, with the global resets it has performed: each with the reset time it had. -/
structure InstanceSaveManager where
  instanceSaveById : SortedMap ℕ InstanceSave
  resetTimeByMapDifficulty : MapDiff → ℤ
  resetTimeQueue : ResetTimeQueue
  performed : List (MapDiff × ℤ)

namespace InstanceSaveManager

def getResetTimeFor (mgr : InstanceSaveManager) (key : MapDiff) : ℤ :=
  mgr.resetTimeByMapDifficulty key

def setResetTimeFor (mgr : InstanceSaveManager) (key : MapDiff) (t : ℤ) : InstanceSaveManager :=
  { mgr with
    resetTimeByMapDifficulty := fun other =>
      if other = key then t else mgr.resetTimeByMapDifficulty other }

/-- `ScheduleReset(true, …)`. -/
def addReset (mgr : InstanceSaveManager) (time : ℤ) (event : InstResetEvent) :
    InstanceSaveManager :=
  { mgr with resetTimeQueue := enqueue time event mgr.resetTimeQueue }

/-- `ScheduleReset(false, …)`: an event like the given one is removed, at its time if there is
one. -/
def removeReset (mgr : InstanceSaveManager) (time : ℤ) (event : InstResetEvent) :
    InstanceSaveManager :=
  { mgr with
    resetTimeQueue :=
      if mgr.resetTimeQueue.any fun x => x.1 = time && x.2.same event then
        mgr.resetTimeQueue.eraseP fun x => x.1 = time && x.2.same event
      else mgr.resetTimeQueue.eraseP fun x => x.2.same event }

def addInstanceSave (data : MapData) (mgr : InstanceSaveManager) (mapId instanceId difficulty : ℕ)
    (resetTime now : ℤ) : InstanceSaveManager :=
  if (mgr.instanceSaveById.lookup instanceId).isSome then mgr
  else
    match data.lookupEntry mapId with
    | none => mgr
    | some entry =>
      if instanceId = 0 ∨ (if entry.isRaid then 4 else 3) ≤ difficulty then mgr
      else
        let save (mgr : InstanceSaveManager) (resetTime : ℤ) : InstanceSaveManager :=
          { mgr with
            instanceSaveById :=
              mgr.instanceSaveById.insert instanceId ⟨mapId, difficulty, resetTime⟩ }
        if resetTime ≠ 0 then save mgr resetTime
        else if entry.isRaid ∨ 0 < difficulty then
          save mgr (mgr.getResetTimeFor (mapId, difficulty))
        else
          save (mgr.addReset (now + 2 * HOUR) (InstResetEvent.make 0 mapId difficulty instanceId))
            (now + 2 * HOUR)

/-- `_ResetInstance`; the instance is reset if its map has instances. -/
def resetInstance (data : MapData) (mgr : InstanceSaveManager) (mapid instanceId : ℕ) :
    InstanceSaveManager × List ℕ :=
  if data.isInstanceable mapid then
    ({ mgr with instanceSaveById := mgr.instanceSaveById.erase instanceId }, [instanceId])
  else (mgr, [])

/-- The reset after a global one. -/
def nextReset (config : Config) (resetTime : ℤ) (period : ℕ) : ℤ :=
  uint32 ((resetTime + MINUTE) / DAY * DAY + config.period period + config.diff)

/-- The saves of the instances of other maps and difficulties. -/
def withoutSaves (mgr : InstanceSaveManager) (key : MapDiff) : SortedMap ℕ InstanceSave :=
  (mgr.instanceSaveById.keys.filter fun id => (mgr.instanceSaveById.lookup id).any fun save =>
    (save.mapid, save.difficulty) = key).foldl SortedMap.erase mgr.instanceSaveById

/-- `_ResetOrWarnAll`, as far as the queue is concerned. -/
def resetOrWarnAll (data : MapData) (config : Config) (mgr : InstanceSaveManager) (key : MapDiff)
    (warn : Bool) (resetTime : ℤ) : InstanceSaveManager :=
  if !data.isInstanceable key.1 then mgr
  else if warn then mgr
  else
    match data.resetTimeOf key with
    | none => mgr
    | some period =>
      if period = 0 then mgr
      else
        let next := nextReset config resetTime period
        let mgr := { mgr with
          instanceSaveById := mgr.withoutSaves key
          performed := (key, resetTime) :: mgr.performed }
        (mgr.setResetTimeFor key next).addReset (uint32 (next - 3600))
          (InstResetEvent.make 1 key.1 key.2 0)

/-- One turn of the loop of `Update`, and the instances it resets. -/
def updateTurn (data : MapData) (config : Config) (now : ℤ) (mgr : InstanceSaveManager) :
    Option (InstanceSaveManager × List ℕ) :=
  match mgr.resetTimeQueue with
  | [] => none
  | (t, event) :: rest =>
    if now ≤ t then none
    else if event.type = 0 then
      let done := mgr.resetInstance data event.mapid event.instanceId
      some ({ done.1 with resetTimeQueue := done.1.resetTimeQueue.tail }, done.2)
    else
      let resetTime := mgr.getResetTimeFor event.key
      let mgr := mgr.resetOrWarnAll data config event.key (event.type != 4) resetTime
      if event.type != 4 then
        -- the event is changed where it is, and its next copy is put into the queue
        let next := { event with type := (event.type + 1) % 2 ^ 8 }
        let mgr := { mgr with resetTimeQueue := (t, next) :: rest }
        let mgr := mgr.addReset (resetTime - resetTimeDelay next.type) next
        some ({ mgr with resetTimeQueue := mgr.resetTimeQueue.tail }, [])
      else some ({ mgr with resetTimeQueue := mgr.resetTimeQueue.tail }, [])

/-- The loop, for a number of turns. -/
def updateLoop (data : MapData) (config : Config) (now : ℤ) :
    ℕ → InstanceSaveManager → InstanceSaveManager × List ℕ
  | 0, mgr => (mgr, [])
  | turns + 1, mgr =>
    match mgr.updateTurn data config now with
    | none => (mgr, [])
    | some done =>
      let rest := updateLoop data config now turns done.1
      (rest.1, done.2 ++ rest.2)

/-- As many turns as an event can make necessary before a time. -/
def turnsOf (mgr : InstanceSaveManager) (now : ℤ) (x : ℤ × InstResetEvent) : ℕ :=
  if now ≤ x.1 then 0
  else if x.2.type = 0 then 1
  else 5 * (now - mgr.getResetTimeFor x.2.key + 3600).toNat + (5 - x.2.type)

def turnsFor (mgr : InstanceSaveManager) (now : ℤ) : ℕ :=
  (mgr.resetTimeQueue.map (mgr.turnsOf now)).sum

def update (data : MapData) (config : Config) (mgr : InstanceSaveManager) (now : ℤ) :
    InstanceSaveManager × List ℕ :=
  updateLoop data config now (mgr.turnsFor now) mgr

/-! ## 3. Loading -/

/-- A row of `instance`. -/
structure InstanceRow where
  id : ℕ
  map : ℕ
  difficulty : ℕ
  resettime : ℕ
  deriving DecidableEq, Repr

/-- A row of the respawns: the latest time, and the instance. -/
structure RespawnRow where
  time : ℕ
  instanceId : ℕ
  deriving DecidableEq, Repr

/-- A row of `instance_reset`. -/
structure ResetRow where
  mapid : ℕ
  difficulty : ℕ
  resettime : ℕ
  deriving DecidableEq, Repr

/-- What the queries give, each list as far as it has rows. -/
structure Database where
  instances : List InstanceRow
  respawns : List RespawnRow
  resets : List ResetRow

/-- The reset times of normal instances, by id. -/
abbrev InstResetTimes : Type := SortedMap ℕ (MapDiff × ℤ)

def readInstance (times : InstResetTimes) (row : InstanceRow) : InstResetTimes :=
  if row.resettime ≠ 0 then times.insert row.id ((row.map, row.difficulty), row.resettime)
  else times

def readRespawn (times : InstResetTimes) (row : RespawnRow) : InstResetTimes :=
  let resettime : ℤ := uint32 (row.time + 2 * HOUR)
  match times.lookup row.instanceId with
  | none => times
  | some (key, old) =>
    if old ≠ resettime then times.insert row.instanceId (key, resettime) else times

/-- The second query is read in a loop over the rows of the first, which has none left: its
first row is all that is read. -/
def readRespawns (db : Database) (times : InstResetTimes) : InstResetTimes :=
  if db.instances.isEmpty then times else (db.respawns.take 1).foldl readRespawn times

def instResetTimes (db : Database) : InstResetTimes :=
  readRespawns db (db.instances.foldl readInstance SortedMap.empty)

def scheduleInstance (now : ℤ) (mgr : InstanceSaveManager) (x : ℕ × MapDiff × ℤ) :
    InstanceSaveManager :=
  if now < x.2.2 then
    mgr.addReset x.2.2 (InstResetEvent.make 0 x.2.1.1 x.2.1.2 x.1)
  else mgr

def readReset (data : MapData) (config : Config) (mgr : InstanceSaveManager) (row : ResetRow) :
    InstanceSaveManager :=
  match data.resetTimeOf (row.mapid, row.difficulty) with
  | none => mgr
  | some _ =>
    mgr.setResetTimeFor (row.mapid, row.difficulty) (row.resettime / DAY * DAY + config.diff)

/-- The time of the next global reset. -/
def globalReset (config : Config) (now : ℤ) (stored : ℤ) (resetTime : ℕ) : ℤ :=
  let today := now / DAY * DAY
  let period := config.period resetTime
  let t := if stored = 0 then today + period + config.diff else stored
  if t < now then
    let day := t / DAY * DAY
    day + ((today - day) / period + 1) * period + config.diff
  else t

/-- The first warning that is still to come, or the reset. -/
def firstType (now t : ℤ) : ℕ :=
  if now < t - resetTimeDelay 1 then 1
  else if now < t - resetTimeDelay 2 then 2
  else if now < t - resetTimeDelay 3 then 3
  else 4

/-- The instances with a reset time of their own, by their ids. -/
def resetInstances (db : Database) (key : MapDiff) : List ℕ :=
  (db.instances.filter fun row => row.resettime ≠ 0 ∧ (row.map, row.difficulty) = key).map
    InstanceRow.id

def scheduleGlobal (db : Database) (config : Config) (now : ℤ) (mgr : InstanceSaveManager)
    (x : MapDiff × ℕ) : InstanceSaveManager :=
  if x.2 = 0 then mgr
  else
    let t := globalReset config now (mgr.getResetTimeFor x.1) x.2
    let type := firstType now t
    let mgr := (mgr.setResetTimeFor x.1 t).addReset (t - resetTimeDelay type)
      (InstResetEvent.make type x.1.1 x.1.2 0)
    (resetInstances db x.1).foldl (fun mgr id => mgr.addReset (t - resetTimeDelay type)
      (InstResetEvent.make type x.1.1 x.1.2 id)) mgr

def empty : InstanceSaveManager := ⟨SortedMap.empty, fun _ => 0, [], []⟩

def loadResetTimes (data : MapData) (config : Config) (db : Database) (now : ℤ) :
    InstanceSaveManager :=
  let mgr := (instResetTimes db).entries.foldl (scheduleInstance now) empty
  let mgr := db.resets.foldl (readReset data config) mgr
  data.mapDifficultyMap.foldl (scheduleGlobal db config now) mgr

end InstanceSaveManager

/-! ## 4. Steps -/

/-- An event that is scheduled from outside is that of a single instance. -/
inductive Op where
  | addInstanceSave (mapId instanceId difficulty : ℕ) (resetTime now : ℤ)
  | removeInstanceSave (instanceId : ℕ)
  | scheduleReset (add : Bool) (time : ℤ) (mapid difficulty instanceId : ℕ)
  | update (now : ℤ)
  deriving DecidableEq, Repr

def step (data : MapData) (config : Config) (mgr : InstanceSaveManager) :
    Op → InstanceSaveManager × List ℕ
  | .addInstanceSave mapId instanceId difficulty resetTime now =>
    (mgr.addInstanceSave data mapId instanceId difficulty resetTime now, [])
  | .removeInstanceSave instanceId =>
    ({ mgr with instanceSaveById := mgr.instanceSaveById.erase instanceId }, [])
  | .scheduleReset add time mapid difficulty instanceId =>
    let event := InstResetEvent.make 0 mapid difficulty instanceId
    (if add then mgr.addReset time event else mgr.removeReset time event, [])
  | .update now => mgr.update data config now

end HungerGames.Resets
