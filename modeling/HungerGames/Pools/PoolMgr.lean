/-
# Spawn pools

A pool has members, which are creatures, game objects, quests or pools, and a limit of how many of
them are active.  Spawning a pool rolls members until there are as many; when an active member is
to come back another may be rolled in its place.  A pool that becomes active is spawned itself.
Quests have a way of their own: all of them change at once, unless some are saved.

Of spawning there is only what becomes active.  The sets of what is active are lists without
duplicates, of which only random elements are taken.  The random numbers, and the rows that are
saved, are drawn from a list that is given with each operation; chances are rational.
-/
import Mathlib.Algebra.Order.Field.Rat
import Mathlib.Data.List.Nodup

namespace HungerGames.Pools

/-! ## 1. What is loaded -/

inductive ObjectKind where
  | creature
  | gameObject
  | quest
deriving DecidableEq

inductive Kind where
  | object (kind : ObjectKind)
  | pool
deriving DecidableEq

structure PoolObject where
  guid : ℕ
  chance : ℚ

structure PoolGroup where
  explicitlyChanced : List PoolObject
  equalChanced : List PoolObject

namespace PoolGroup

/-- In the order in which they despawn. -/
def objects (group : PoolGroup) : List PoolObject := group.equalChanced ++ group.explicitlyChanced

def guids (group : PoolGroup) : List ℕ := group.objects.map PoolObject.guid

end PoolGroup

/-- The pools, without circular references: child pools are less deep.  `motherOf` is
`IsPartOfAPool<Pool>`, which is zero for a pool without a mother. -/
structure LoadedPools where
  maxLimit : ℕ → ℕ
  group : Kind → ℕ → PoolGroup
  motherOf : ℕ → ℕ
  depth : ℕ → ℕ
  depth_lt : ∀ pool, ∀ child ∈ (group .pool pool).guids, depth child < depth pool
  motherOf_mem : ∀ child, motherOf child ≠ 0 → child ∈ (group .pool (motherOf child)).guids
  /-- The chance of a quest is none. -/
  quests_equal : ∀ pool, (group (.object .quest) pool).explicitlyChanced = []

/-! ## 2. What is active -/

structure ActivePoolData where
  spawned : ObjectKind → List ℕ
  spawnedPools : ℕ → Option ℕ

namespace ActivePoolData

variable (data : ActivePoolData)

def getActiveObjectCount (pool : ℕ) : ℕ := (data.spawnedPools pool).getD 0

def isActiveObject : Kind → ℕ → Bool
  | .object kind, guid => guid ∈ data.spawned kind
  | .pool, pool => (data.spawnedPools pool).isSome

/-- An entry of `mSpawnedPools`. -/
def setPool (pool : ℕ) (value : Option ℕ) : ActivePoolData :=
  { data with
    spawnedPools := fun other => if other = pool then value else data.spawnedPools other }

/-- One of the sets. -/
def setSpawned (kind : ObjectKind) (guids : List ℕ) : ActivePoolData :=
  { data with spawned := fun other => if other = kind then guids else data.spawned other }

def activateObject (kind : Kind) (guid pool : ℕ) : ActivePoolData :=
  let data := match kind with
    | .object kind => data.setSpawned kind ((data.spawned kind).insert guid)
    | .pool => data.setPool guid (some 0)
  data.setPool pool (some (data.getActiveObjectCount pool + 1))

def removeObject (kind : Kind) (guid pool : ℕ) : ActivePoolData :=
  let data := match kind with
    | .object kind => data.setSpawned kind ((data.spawned kind).filter (· ≠ guid))
    | .pool => data.setPool guid none
  data.setPool pool (some (data.getActiveObjectCount pool - 1))

end ActivePoolData

/-- A random number of each kind, and the rows of `pool_quest_save` for a pool. -/
structure Draw where
  chance : ℚ
  index : ℕ
  rows : List ℕ

/-- A call of `PoolGroup<Quest>::SpawnObject`, and what is active at that time. -/
structure QuestSpawn where
  pool : ℕ
  triggerFrom : ℕ
  rows : List ℕ
  data : ActivePoolData

/-- The state in an operation, with how much is drawn and the quests that were spawned. -/
structure Spawns where
  data : ActivePoolData
  drawn : ℕ
  questSpawns : List QuestSpawn

namespace Spawns

variable (P : LoadedPools) (draws : ℕ → Draw) (s : Spawns)

def next : Draw × Spawns := (draws s.drawn, { s with drawn := s.drawn + 1 })

def activate (kind : Kind) (guid pool : ℕ) : Spawns :=
  { s with data := s.data.activateObject kind guid pool }

def remove (kind : Kind) (guid pool : ℕ) : Spawns :=
  { s with data := s.data.removeObject kind guid pool }

/-! ## 3. Despawning -/

/-- `Despawn1Object`, where `despawnChild` is `DespawnPool`. -/
def despawn1Object (despawnChild : ℕ → Spawns → Spawns) : Kind → ℕ → Spawns → Spawns
  | .object _, _, s => s
  | .pool, child, s => despawnChild child s

/-- `DespawnObject`, of all when there is no guid. -/
def despawnObject (despawnChild : ℕ → Spawns → Spawns) (kind : Kind) (pool guid : ℕ) : Spawns :=
  (P.group kind pool).guids.foldl (fun s other =>
    if s.data.isActiveObject kind other ∧ (guid = 0 ∨ other = guid) then
      (despawn1Object despawnChild kind other s).remove kind other pool
    else s) s

/-- `DespawnPool`, where pools are less deep than `depth`. -/
def despawnPool : ℕ → ℕ → Spawns → Spawns
  | 0, _, s => s
  | depth + 1, pool, s =>
    [Kind.object .creature, .object .gameObject, .pool, .object .quest].foldl
      (fun s kind => s.despawnObject P (despawnPool depth) kind pool 0) s

/-! ## 4. Spawning -/

/-- The loop of `RollOne`. -/
def rollExplicitly (data : ActivePoolData) (kind : Kind) (triggerFrom : ℕ) :
    ℚ → List PoolObject → Option ℕ
  | _, [] => none
  | roll, obj :: objs =>
    if roll - obj.chance < 0 ∧ (obj.guid = triggerFrom ∨ data.isActiveObject kind obj.guid = false)
    then some obj.guid
    else rollExplicitly data kind triggerFrom (roll - obj.chance) objs

def rollOne (kind : Kind) (pool triggerFrom : ℕ) : Option ℕ × Spawns :=
  let group := P.group kind pool
  let explicitly := if group.explicitlyChanced = [] then (none, s)
    else (rollExplicitly s.data kind triggerFrom (s.next draws).1.chance group.explicitlyChanced,
      (s.next draws).2)
  match explicitly with
  | (some guid, s) => (some guid, s)
  | (none, s) =>
    match group.equalChanced[(s.next draws).1.index % group.equalChanced.length]? with
    | none => (none, s)
    | some obj =>
      if obj.guid = triggerFrom ∨ s.data.isActiveObject kind obj.guid = false then
        (some obj.guid, (s.next draws).2)
      else (none, (s.next draws).2)

/-- `Spawn1Object`, where `spawnChild` is `SpawnPool`. -/
def spawn1Object (spawnChild : ℕ → Spawns → Spawns) : Kind → ℕ → Spawns → Spawns
  | .object _, _, s => s
  | .pool, child, s => spawnChild child s

/-- The loop of `SpawnObject`, of so many turns. -/
def spawnLoop (spawnChild despawnChild : ℕ → Spawns → Spawns) (kind : Kind) (pool : ℕ) :
    ℕ → ℕ → ℕ → Spawns → Spawns
  | 0, _, _, s => s
  | turns + 1, triggerFrom, lastDespawned, s =>
    match s.rollOne P draws kind pool triggerFrom with
    | (none, s) => spawnLoop spawnChild despawnChild kind pool turns triggerFrom lastDespawned s
    | (some guid, s) =>
      if guid = lastDespawned then
        spawnLoop spawnChild despawnChild kind pool turns triggerFrom lastDespawned s
      else if guid = triggerFrom then
        spawnLoop spawnChild despawnChild kind pool turns 0 lastDespawned s
      else
        let s := spawn1Object spawnChild kind guid (s.activate kind guid pool)
        if triggerFrom ≠ 0 then
          spawnLoop spawnChild despawnChild kind pool turns 0 triggerFrom
            (s.despawnObject P despawnChild kind pool triggerFrom)
        else spawnLoop spawnChild despawnChild kind pool turns 0 lastDespawned s

/-- How many turns there are: the limit less what is active, as `int`. -/
def turnsOf (limit active triggerFrom : ℕ) : ℕ :=
  (((limit : ℤ) - active).bmod (2 ^ 32) + if triggerFrom ≠ 0 then 1 else 0).toNat

/-! ### Quests -/

/-- One less of a `uint32`. -/
def countDown (limit : ℕ) : ℕ := if limit = 0 then 2 ^ 32 - 1 else limit - 1

/-- The saved quests that are restored: the limit is counted down after each. -/
def restored : ℕ → List ℕ → List ℕ
  | _, [] => []
  | limit, questId :: rows =>
    questId :: if countDown limit = 0 then [] else restored (countDown limit) rows

/-- A random element of a set, which is not empty. -/
def selectRandom (index : ℕ) (quests : List ℕ) : ℕ := quests.getD (index % quests.length) 0

/-- Quests that are active are used again, as many as are missing. -/
def recycle (limit : ℕ) : ℕ → List ℕ → List ℕ → Spawns → List ℕ × Spawns
  | 0, _, newQuests, s => (newQuests, s)
  | left + 1, currentQuests, newQuests, s =>
    let questId := selectRandom (s.next draws).1.index currentQuests
    let newQuests := newQuests.insert questId
    let currentQuests := currentQuests.filter (· ≠ questId)
    if newQuests.length < limit ∧ currentQuests ≠ [] then
      recycle limit left currentQuests newQuests (s.next draws).2
    else (newQuests, (s.next draws).2)

/-- Random quests are activated, while there are and the limit is not reached. -/
def activateQuests (pool : ℕ) : ℕ → ℕ → List ℕ → Spawns → Spawns
  | 0, _, _, s => s
  | left + 1, limit, newQuests, s =>
    let questId := selectRandom (s.next draws).1.index newQuests
    let s := (s.next draws).2.activate (.object .quest) questId pool
    let newQuests := newQuests.filter (· ≠ questId)
    if countDown limit ≠ 0 ∧ newQuests ≠ [] then
      activateQuests pool left (countDown limit) newQuests s
    else s

/-- `PoolGroup<Quest>::SpawnObject` -/
def spawnQuests (pool triggerFrom : ℕ) : Spawns :=
  let limit := P.maxLimit pool
  let group := P.group (.object .quest) pool
  let rows := if triggerFrom = 0 then (s.next draws).1.rows else []
  let s := { s with
    drawn := s.drawn + 1
    questSpawns := ⟨pool, triggerFrom, rows, s.data⟩ :: s.questSpawns }
  if rows ≠ [] then
    (restored limit rows).foldl (fun s questId => s.activate (.object .quest) questId pool) s
  else
    let currentQuests := s.data.spawned .quest
    let newQuests := (group.equalChanced.map PoolObject.guid).filter fun questId =>
      s.data.isActiveObject (.object .quest) questId = false
    let s := s.despawnObject P (fun _ s => s) (.object .quest) pool 0
    let recycled := if newQuests.length < limit ∧ currentQuests ≠ [] then
      recycle draws limit currentQuests.length currentQuests newQuests s else (newQuests, s)
    if recycled.1 = [] then recycled.2
    else activateQuests draws pool recycled.1.length limit recycled.1 recycled.2

/-- `SpawnObject`, of the kind of the group. -/
def spawnObject (spawnChild despawnChild : ℕ → Spawns → Spawns) (kind : Kind)
    (pool triggerFrom : ℕ) : Spawns :=
  if (P.group kind pool).objects = [] then s
  else match kind with
    | .object .quest => s.spawnQuests P draws pool triggerFrom
    | kind => spawnLoop P draws spawnChild despawnChild kind pool
      (turnsOf (P.maxLimit pool) (s.data.getActiveObjectCount pool) triggerFrom) triggerFrom 0 s

/-- `SpawnPool`, where pools are less deep than `depth`. -/
def spawnPool : ℕ → ℕ → Spawns → Spawns
  | 0, _, s => s
  | depth + 1, pool, s =>
    [Kind.pool, .object .gameObject, .object .creature, .object .quest].foldl
      (fun s kind => s.spawnObject P draws (spawnPool depth) (despawnPool P depth) kind pool 0) s

/-- `UpdatePool`: it is the mother pool that is updated, if there is one. -/
def updatePool (kind : Kind) (pool guid : ℕ) : Spawns :=
  let mother := P.motherOf pool
  if mother ≠ 0 then
    s.spawnObject P draws (spawnPool P draws (P.depth mother)) (despawnPool P (P.depth mother))
      .pool mother pool
  else
    s.spawnObject P draws (spawnPool P draws (P.depth pool)) (despawnPool P (P.depth pool)) kind
      pool guid

end Spawns

/-! ## 5. Operations -/

inductive PoolOp where
  | spawnPool (pool : ℕ)
  | updatePool (kind : Kind) (pool guid : ℕ)
  | despawnPool (pool : ℕ)

namespace ActivePoolData

/-- An operation, with what is drawn in it. -/
def handle (P : LoadedPools) (data : ActivePoolData) : PoolOp × (ℕ → Draw) → Spawns
  | (.spawnPool pool, draws) => Spawns.spawnPool P draws (P.depth pool + 1) pool ⟨data, 0, []⟩
  | (.updatePool kind pool guid, draws) => Spawns.updatePool P draws ⟨data, 0, []⟩ kind pool guid
  | (.despawnPool pool, _) => Spawns.despawnPool P (P.depth pool + 1) pool ⟨data, 0, []⟩

def step (P : LoadedPools) (data : ActivePoolData) (op : PoolOp × (ℕ → Draw)) : ActivePoolData :=
  (data.handle P op).data

end ActivePoolData

end HungerGames.Pools
