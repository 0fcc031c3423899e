/-
# The recursion of spawning and despawning

`SpawnPool` spawns the groups of a pool, and spawning a group of pools spawns the pools that are
rolled; `DespawnPool` likewise.  Here the calls are counted: a call that is nested too deep has no
result.  Where the pools are without circular references each call has one, which is what the model
of spawning computes (`spawnPoolWithin_eq`, `despawnPoolWithin_eq`).

The pools that `LoadFromDB` leaves are such (`load_spec`).
-/
import HungerGames.Pools.Accounting
import HungerGames.Pools.Loading

namespace HungerGames.Pools

open HungerGames.System Relation

open scoped List

/-! ## 1. Calls, nested so deep -/

namespace Spawns

variable (P : LoadedPools) (draws : ℕ → Draw) (s : Spawns)

/-- `Despawn1Object` -/
def despawn1ObjectWithin (despawnChild : ℕ → Spawns → Option Spawns) :
    Kind → ℕ → Spawns → Option Spawns
  | .object _, _, s => some s
  | .pool, child, s => despawnChild child s

/-- `DespawnObject` -/
def despawnObjectWithin (despawnChild : ℕ → Spawns → Option Spawns) (kind : Kind)
    (pool guid : ℕ) : Option Spawns :=
  (P.group kind pool).guids.foldlM (fun s other =>
    if s.data.isActiveObject kind other ∧ (guid = 0 ∨ other = guid) then
      (despawn1ObjectWithin despawnChild kind other s).map (·.remove kind other pool)
    else some s) s

/-- `DespawnPool`, of which calls are nested at most `n` deep. -/
def despawnPoolWithin : ℕ → ℕ → Spawns → Option Spawns
  | 0, _, _ => none
  | n + 1, pool, s =>
    [Kind.object .creature, .object .gameObject, .pool, .object .quest].foldlM
      (fun s kind => s.despawnObjectWithin P (despawnPoolWithin n) kind pool 0) s

/-- `Spawn1Object` -/
def spawn1ObjectWithin (spawnChild : ℕ → Spawns → Option Spawns) :
    Kind → ℕ → Spawns → Option Spawns
  | .object _, _, s => some s
  | .pool, child, s => spawnChild child s

/-- The loop of `SpawnObject` -/
def spawnLoopWithin (spawnChild despawnChild : ℕ → Spawns → Option Spawns) (kind : Kind)
    (pool : ℕ) : ℕ → ℕ → ℕ → Spawns → Option Spawns
  | 0, _, _, s => some s
  | turns + 1, triggerFrom, lastDespawned, s =>
    match s.rollOne P draws kind pool triggerFrom with
    | (none, s) =>
      spawnLoopWithin spawnChild despawnChild kind pool turns triggerFrom lastDespawned s
    | (some guid, s) =>
      if guid = lastDespawned then
        spawnLoopWithin spawnChild despawnChild kind pool turns triggerFrom lastDespawned s
      else if guid = triggerFrom then
        spawnLoopWithin spawnChild despawnChild kind pool turns 0 lastDespawned s
      else do
        let s ← spawn1ObjectWithin spawnChild kind guid (s.activate kind guid pool)
        if triggerFrom ≠ 0 then
          let s ← s.despawnObjectWithin P despawnChild kind pool triggerFrom
          spawnLoopWithin spawnChild despawnChild kind pool turns 0 triggerFrom s
        else spawnLoopWithin spawnChild despawnChild kind pool turns 0 lastDespawned s

/-- `SpawnObject` -/
def spawnObjectWithin (spawnChild despawnChild : ℕ → Spawns → Option Spawns) (kind : Kind)
    (pool triggerFrom : ℕ) : Option Spawns :=
  if (P.group kind pool).objects = [] then some s
  else match kind with
    | .object .quest => some (s.spawnQuests P draws pool triggerFrom)
    | kind => spawnLoopWithin P draws spawnChild despawnChild kind pool
      (turnsOf (P.maxLimit pool) (s.data.getActiveObjectCount pool) triggerFrom) triggerFrom 0 s

/-- `SpawnPool`, of which calls are nested at most `n` deep. -/
def spawnPoolWithin : ℕ → ℕ → Spawns → Option Spawns
  | 0, _, _ => none
  | n + 1, pool, s =>
    [Kind.pool, .object .gameObject, .object .creature, .object .quest].foldlM
      (fun s kind =>
        s.spawnObjectWithin P draws (spawnPoolWithin n) (despawnPoolWithin P n) kind pool 0) s

end Spawns

/-! ## 2. Every call has a result -/

theorem foldlM_eq_some {α β : Type} {f : β → α → Option β} {g : β → α → β} {xs : List α}
    (h : ∀ x ∈ xs, ∀ s, f s x = some (g s x)) (s : β) : xs.foldlM f s = some (xs.foldl g s) := by
  induction xs generalizing s with
  | nil => rfl
  | cons x xs ih =>
    rw [List.foldlM_cons, h x List.mem_cons_self, List.foldl_cons]
    exact ih (fun y hy => h y (List.mem_cons_of_mem x hy)) _

variable {P : LoadedPools} {pool : ℕ}

/-- The calls for the pools under a pool have results. -/
def Answers (P : LoadedPools) (pool : ℕ) (callWithin : ℕ → Spawns → Option Spawns)
    (call : ℕ → Spawns → Spawns) : Prop :=
  ∀ child ∈ P.members .pool pool, ∀ s, callWithin child s = some (call child s)

namespace Spawns

section Calls

variable {spawnChild despawnChild : ℕ → Spawns → Spawns}
variable {spawnChildWithin despawnChildWithin : ℕ → Spawns → Option Spawns}

theorem despawnObjectWithin_eq (h : Answers P pool despawnChildWithin despawnChild) (kind : Kind)
    (guid : ℕ) (s : Spawns) :
    s.despawnObjectWithin P despawnChildWithin kind pool guid =
      some (s.despawnObject P despawnChild kind pool guid) := by
  refine foldlM_eq_some (fun other hother s => ?_) s
  split
  · cases kind with
    | object kind => rfl
    | pool =>
      simp only [despawn1ObjectWithin, despawn1Object]
      rw [h other hother]
      rfl
  · rfl

theorem spawn1ObjectWithin_eq (h : Answers P pool spawnChildWithin spawnChild) {kind : Kind}
    {guid : ℕ} (hmem : guid ∈ P.members kind pool) (s : Spawns) :
    spawn1ObjectWithin spawnChildWithin kind guid s = some (spawn1Object spawnChild kind guid s) := by
  cases kind with
  | object kind => rfl
  | pool => exact h guid hmem s

theorem spawnLoopWithin_eq (hspawn : Answers P pool spawnChildWithin spawnChild)
    (hdespawn : Answers P pool despawnChildWithin despawnChild) (draws : ℕ → Draw) (kind : Kind)
    (turns : ℕ) : ∀ (triggerFrom lastDespawned : ℕ) (s : Spawns),
    spawnLoopWithin P draws spawnChildWithin despawnChildWithin kind pool turns triggerFrom
        lastDespawned s =
      some (spawnLoop P draws spawnChild despawnChild kind pool turns triggerFrom lastDespawned
        s) := by
  induction turns with
  | zero => exact fun _ _ _ => rfl
  | succ turns ih =>
    intro triggerFrom lastDespawned s
    obtain ⟨-, -, hmem⟩ := rollOne_spec P draws s kind pool triggerFrom
    rw [spawnLoopWithin, spawnLoop]
    cases hroll : s.rollOne P draws kind pool triggerFrom with
    | mk rolled s' =>
      rw [hroll] at hmem
      cases rolled with
      | none => exact ih _ _ _
      | some guid =>
        obtain ⟨hguid, -⟩ := hmem guid rfl
        dsimp only
        split
        · exact ih _ _ _
        · split
          · exact ih _ _ _
          · rw [spawn1ObjectWithin_eq hspawn hguid]
            simp only [Option.bind_eq_bind, Option.bind_some]
            split
            · rw [despawnObjectWithin_eq hdespawn]
              exact ih _ _ _
            · exact ih _ _ _

theorem spawnObjectWithin_eq (hspawn : Answers P pool spawnChildWithin spawnChild)
    (hdespawn : Answers P pool despawnChildWithin despawnChild) (draws : ℕ → Draw) (kind : Kind)
    (triggerFrom : ℕ) (s : Spawns) :
    s.spawnObjectWithin P draws spawnChildWithin despawnChildWithin kind pool triggerFrom =
      some (s.spawnObject P draws spawnChild despawnChild kind pool triggerFrom) := by
  unfold spawnObjectWithin spawnObject
  split
  · rfl
  · cases kind with
    | pool => exact spawnLoopWithin_eq hspawn hdespawn draws _ _ _ _ _
    | object kind =>
      cases kind with
      | quest => rfl
      | creature => exact spawnLoopWithin_eq hspawn hdespawn draws _ _ _ _ _
      | gameObject => exact spawnLoopWithin_eq hspawn hdespawn draws _ _ _ _ _

end Calls

/-- **`DespawnPool` comes back.** -/
theorem despawnPoolWithin_eq (n : ℕ) : ∀ (depth : ℕ) {pool : ℕ}, P.depth pool < n →
    P.depth pool < depth → ∀ s, despawnPoolWithin P n pool s = some (despawnPool P depth pool s) := by
  induction n with
  | zero => exact fun _ _ h => absurd h (Nat.not_lt_zero _)
  | succ n ih =>
    intro depth pool hn hdepth s
    obtain ⟨depth, rfl⟩ : ∃ d, depth = d + 1 := ⟨depth - 1, by omega⟩
    refine foldlM_eq_some (fun kind _ s => despawnObjectWithin_eq (fun child hchild s => ?_) _ _ s) s
    have hlt := P.depth_lt pool child hchild
    exact ih depth (by omega) (by omega) s

/-- **`SpawnPool` comes back.** -/
theorem spawnPoolWithin_eq (draws : ℕ → Draw) (n : ℕ) : ∀ (depth : ℕ) {pool : ℕ},
    P.depth pool < n → P.depth pool < depth → ∀ s,
    spawnPoolWithin P draws n pool s = some (spawnPool P draws depth pool s) := by
  induction n with
  | zero => exact fun _ _ h => absurd h (Nat.not_lt_zero _)
  | succ n ih =>
    intro depth pool hn hdepth s
    obtain ⟨depth, rfl⟩ : ∃ d, depth = d + 1 := ⟨depth - 1, by omega⟩
    refine foldlM_eq_some (fun kind _ s =>
      spawnObjectWithin_eq (fun child hchild s => ?_) (fun child hchild s => ?_) draws _ _ s) s
    · have hlt := P.depth_lt pool child hchild
      exact ih depth (by omega) (by omega) s
    · have hlt := P.depth_lt pool child hchild
      exact despawnPoolWithin_eq n depth (by omega) (by omega) s

end Spawns

/-! ## 3. The pools that are loaded -/

/-- The pools, with depths that rise from children to mothers. -/
def PoolTables.loaded (db : PoolTables) (pools : PoolsOfPools) (hpools : Agrees pools)
    (depth : ℕ → ℕ) (hdepth : ∀ child mother, pools.searchMap.Link child mother →
      depth child < depth mother) : LoadedPools where
  maxLimit := db.maxLimit
  group
    | .object kind => db.object kind
    | .pool => pools.group
  motherOf child := (pools.searchMap.lookup child).getD 0
  depth := depth
  depth_lt mother child hchild := hdepth child mother ((hpools.iff child mother).mpr hchild)
  motherOf_mem child hne := by
    cases hlookup : pools.searchMap.lookup child with
    | none => simp [hlookup] at hne
    | some mother => exact (hpools.iff child mother).mp hlookup
  quests_equal := db.quests_equal

/-- **`LoadFromDB` leaves no circular references.**  Whatever `pool_pool` has, if no pool has two
mothers there, the check comes to an end.  After it the mothers of no pool lead back to it, in the
map and in the groups, which say the same; what is left was in the table, and what is gone was a
link of a circle, nothing else of the groups.  The calls of `SpawnPool` and `DespawnPool` then come back, for every pool and
whatever is active. -/
theorem load_spec (db : PoolTables) (hmother : ∀ row ∈ db.poolPool, ∀ row' ∈ db.poolPool,
      row.poolId = row'.poolId → row.motherPool = row'.motherPool) :
    ∃ n pools, (∀ m, n ≤ m → db.loadWithin m = some pools) ∧
      (∀ pool, ¬ TransGen pools.searchMap.Link pool pool) ∧
      (∀ pool, ¬ TransGen (fun child mother => child ∈ (pools.group mother).guids) pool pool) ∧
      (∀ child mother,
        pools.searchMap.lookup child = some mother ↔ child ∈ (pools.group mother).guids) ∧
      (∀ child mother, child ∈ (pools.group mother).guids → db.Link child mother) ∧
      (∀ child mother, db.Link child mother → child ∉ (pools.group mother).guids →
        ReflTransGen db.Link mother child) ∧
      (∀ mother, (pools.group mother).equalChanced <+ (db.loadRows.group mother).equalChanced ∧
        (pools.group mother).explicitlyChanced <+ (db.loadRows.group mother).explicitlyChanced) ∧
      ∃ P : LoadedPools, P.maxLimit = db.maxLimit ∧ P.group .pool = pools.group ∧
        (∀ kind, P.group (.object kind) = db.object kind) ∧
        (∀ child, P.motherOf child = (pools.searchMap.lookup child).getD 0) ∧
        ∀ pool draws s, ∃ n s', ∀ m, n ≤ m →
          Spawns.spawnPoolWithin P draws m pool s = some s' ∧
          (Spawns.despawnPoolWithin P m pool s).isSome := by
  obtain ⟨hagrees, hlinks⟩ := loadRows_spec hmother
  obtain ⟨n, pools, hload, hshrinks, hstops⟩ := checkWithin_spec db.loadRows db.maxPoolId
  have hpools := hshrinks.agrees hagrees
  have hkept : ∀ child mother, pools.searchMap.Link child mother → db.Link child mother :=
    fun child mother h => (hlinks child mother).mp (hshrinks.below child mother h)
  have hall := stops_all hkept hstops
  have hacyclic := SortedMap.acyclic_of_stops hall
  have hiff : pools.searchMap.Link = fun child mother => child ∈ (pools.group mother).guids :=
    funext fun child => funext fun mother => propext (hpools.iff child mother)
  have htable : db.loadRows.searchMap.Link = db.Link :=
    funext fun child => funext fun mother => propext (hlinks child mother)
  obtain ⟨depth, hdepth⟩ := SortedMap.exists_depth hall
  refine ⟨n, pools, hload, hacyclic, hiff ▸ hacyclic, hpools.iff, fun child mother hmem => ?_,
    fun child mother hlink hgone => ?_, fun mother => ⟨hshrinks.equal mother,
      hshrinks.explicit mother⟩, db.loaded pools hpools depth hdepth, rfl, rfl, fun _ => rfl,
    fun _ => rfl, fun pool draws s => ?_⟩
  · exact hkept child mother ((hpools.iff child mother).mpr hmem)
  · rw [← htable] at hlink ⊢
    exact hshrinks.circular child mother hlink fun h => hgone ((hpools.iff child mother).mp h)
  · refine ⟨depth pool + 1, _, fun m hm => ⟨Spawns.spawnPoolWithin_eq draws m (depth pool + 1)
      (Nat.lt_of_succ_le hm) (Nat.lt_succ_self _) s, ?_⟩⟩
    rw [Spawns.despawnPoolWithin_eq m (depth pool + 1) (Nat.lt_of_succ_le hm) (Nat.lt_succ_self _) s]
    rfl

/-- Three pools in a circle, and a fourth under one of them. -/
def circle : PoolTables where
  maxPoolId := 4
  maxLimit _ := 1
  poolPool := [⟨1, 2, 0⟩, ⟨2, 3, 50⟩, ⟨3, 1, 0⟩, ⟨4, 2, 100⟩]
  primaryKey := by decide
  object _ _ := ⟨[], []⟩
  quests_equal _ := rfl

theorem load_spec_circle : ∃ n pools, (∀ m, n ≤ m → circle.loadWithin m = some pools) ∧
    ∀ pool, ¬ TransGen pools.searchMap.Link pool pool := by
  obtain ⟨n, pools, hload, hacyclic, -⟩ := load_spec circle (by decide)
  exact ⟨n, pools, hload, hacyclic⟩

example : (circle.loadWithin 4).map (·.searchMap.entries) = some [(1, 2), (2, 3), (4, 2)] := by
  decide +kernel

end HungerGames.Pools
