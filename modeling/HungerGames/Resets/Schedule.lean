/-
# The schedule of resets

What the queue of events is for: single instances have a time at which they are to be reset, and
every map and difficulty with a reset period has one event that leads to its next global reset.

* `Implements`: the events of single instances are a schedule, instance by instance;
* `Governed`: there is one global event for each of the maps and difficulties, and its reset lies
  after those performed;
* `Good.turn`, `Good.update`: an Update resets what is due in the schedule, and ends;
* `Good.step`: what the operations do to the schedule, under the conditions of `Allowed`.
-/
import HungerGames.System.Run
import HungerGames.Resets.InstanceSaveMgr
import Mathlib.Data.List.Perm.Basic

namespace HungerGames.Resets

open HungerGames.System InstanceSaveManager

variable {data : MapData} {config : Config} {mgr : InstanceSaveManager}

/-! ## 1. Times -/

theorem uint32_of_lt {n : ℤ} (h : 0 ≤ n) (h' : n < 2 ^ 32) : uint32 n = n :=
  Int.emod_eq_of_lt h h'

theorem uint32_nonneg (n : ℤ) : 0 ≤ uint32 n := Int.emod_nonneg _ (by decide)

theorem Config.diff_nonneg (config : Config) : 0 ≤ config.diff := uint32_nonneg _

theorem Config.day_le_period (config : Config) (resetTime : ℕ) : DAY ≤ config.period resetTime := by
  unfold Config.period
  split
  · exact le_refl _
  · rename_i h
    exact le_of_not_gt h

/-- The clock is far enough from the end of 32 bits. -/
def FitsClock (data : MapData) (config : Config) (now : ℤ) : Prop :=
  ∀ x ∈ data.mapDifficultyMap, x.2 ≠ 0 →
    now + 3660 + config.period x.2 + config.diff < 2 ^ 32

instance (now : ℤ) : Decidable (FitsClock data config now) :=
  inferInstanceAs (Decidable (∀ x ∈ data.mapDifficultyMap, _ → _))

variable {now : ℤ}

/-- **The next reset is later.** -/
theorem nextReset_spec (config : Config) {resetTime : ℤ} (period : ℕ) (hpos : 0 ≤ resetTime)
    (hnow : resetTime < now + 3600)
    (hclock : now + 3660 + config.period period + config.diff < 2 ^ 32) :
    resetTime < nextReset config resetTime period ∧ 3600 ≤ nextReset config resetTime period ∧
      nextReset config resetTime period < 2 ^ 32 := by
  have hperiod := config.day_le_period period
  have hdiff := config.diff_nonneg
  have hdays : (resetTime + MINUTE) / DAY * DAY ≤ resetTime + MINUTE :=
    Int.ediv_mul_le _ (by decide)
  have hless : resetTime + MINUTE < (resetTime + MINUTE) / DAY * DAY + DAY := by
    have hlt := Int.lt_ediv_add_one_mul_self (resetTime + MINUTE) (b := DAY) (by decide)
    rw [Int.add_mul, Int.one_mul] at hlt
    exact hlt
  have hday : 0 ≤ (resetTime + MINUTE) / DAY * DAY :=
    Int.mul_nonneg (Int.ediv_nonneg (by unfold MINUTE; omega) (by decide)) (by decide)
  have hDAY : DAY = 86400 := rfl
  have hMINUTE : MINUTE = 60 := rfl
  unfold nextReset
  rw [uint32_of_lt (by omega) (by omega)]
  omega

theorem resetTimeDelay_bounds (type : ℕ) :
    0 ≤ resetTimeDelay type ∧ resetTimeDelay type ≤ 3600 := by
  unfold resetTimeDelay
  split <;> decide

/-! ## 2. The schedule of single instances -/

/-- When each instance is to be reset, if it is. -/
abbrev Schedule : Type := ℕ → Option ℤ

def Schedule.put (schedule : Schedule) (id : ℕ) (time : Option ℤ) : Schedule := fun other =>
  if other = id then time else schedule other

/-- What is left of a schedule when everything before a time has happened. -/
def Schedule.from (schedule : Schedule) (now : ℤ) : Schedule := fun id =>
  (schedule id).filter fun t => now ≤ t

/-- The events of single instances. -/
def individuals (queue : ResetTimeQueue) : List (ℕ × ℤ) :=
  (queue.filter fun x => x.2.type = 0).map fun x => (x.2.instanceId, x.1)

/-- **The queue implements a schedule**: it has one event for each instance that is to be reset,
at its time. -/
structure Implements (queue : ResetTimeQueue) (schedule : Schedule) : Prop where
  nodup : ((individuals queue).map Prod.fst).Nodup
  mem : ∀ id t, (id, t) ∈ individuals queue ↔ schedule id = some t

variable {queue : ResetTimeQueue}

theorem mem_individuals {id : ℕ} {t : ℤ} :
    (id, t) ∈ individuals queue ↔
      ∃ event, (t, event) ∈ queue ∧ event.type = 0 ∧ event.instanceId = id := by
  unfold individuals
  rw [List.mem_map]
  constructor
  · rintro ⟨⟨t', event⟩, hmem, heq⟩
    obtain ⟨hmem, htype⟩ := List.mem_filter.mp hmem
    obtain ⟨rfl, rfl⟩ := Prod.mk.inj heq
    exact ⟨event, hmem, of_decide_eq_true htype, rfl⟩
  · rintro ⟨event, hmem, htype, rfl⟩
    exact ⟨(t, event), List.mem_filter.mpr ⟨hmem, decide_eq_true htype⟩, rfl⟩

theorem individuals_perm {queue' : ResetTimeQueue} (h : queue'.Perm queue) :
    (individuals queue').Perm (individuals queue) :=
  (h.filter _).map _

variable {x : ℤ × InstResetEvent}

theorem individuals_cons_of_type (h : x.2.type = 0) (queue : ResetTimeQueue) :
    individuals (x :: queue) = (x.2.instanceId, x.1) :: individuals queue := by
  unfold individuals
  rw [List.filter_cons_of_pos (p := fun x : ℤ × InstResetEvent => decide (x.2.type = 0))
    (decide_eq_true h), List.map_cons]

theorem individuals_cons_of_ne (h : x.2.type ≠ 0) (queue : ResetTimeQueue) :
    individuals (x :: queue) = individuals queue := by
  unfold individuals
  rw [List.filter_cons_of_neg (by simpa using h)]

variable {schedule : Schedule}

theorem Implements.of_perm {queue' : ResetTimeQueue} (h : Implements queue schedule)
    (hperm : (individuals queue').Perm (individuals queue)) : Implements queue' schedule :=
  ⟨(hperm.map Prod.fst).nodup_iff.mpr h.nodup, fun id t => hperm.mem_iff.trans (h.mem id t)⟩

/-- An instance is put into the schedule. -/
theorem Implements.cons (h : Implements queue schedule) (htype : x.2.type = 0)
    (hnone : schedule x.2.instanceId = none) :
    Implements (x :: queue) (schedule.put x.2.instanceId (some x.1)) := by
  have hfree : ∀ t, (x.2.instanceId, t) ∉ individuals queue := by
    intro t hmem
    rw [h.mem, hnone] at hmem
    cases hmem
  rw [← Prod.eta x] at htype ⊢
  refine ⟨?_, fun id t => ?_⟩
  · rw [individuals_cons_of_type htype, List.map_cons]
    refine List.nodup_cons.mpr ⟨fun hmem => ?_, h.nodup⟩
    obtain ⟨⟨id, t⟩, hmem, rfl⟩ := List.mem_map.mp hmem
    exact hfree t hmem
  · rw [individuals_cons_of_type htype, List.mem_cons]
    unfold Schedule.put
    by_cases hid : id = x.2.instanceId
    · subst hid
      rw [if_pos rfl]
      constructor
      · rintro (heq | hmem)
        · rw [(Prod.mk.inj heq).2]
        · exact absurd hmem (hfree t)
      · intro heq
        rw [Option.some.inj heq]
        exact Or.inl rfl
    · rw [if_neg hid, ← h.mem]
      constructor
      · rintro (heq | hmem)
        · exact absurd (Prod.mk.inj heq).1 hid
        · exact hmem
      · exact Or.inr

/-- An instance is taken out of the schedule. -/
theorem Implements.of_cons (h : Implements (x :: queue) schedule) (htype : x.2.type = 0) :
    schedule x.2.instanceId = some x.1 ∧
      Implements queue (schedule.put x.2.instanceId none) := by
  obtain ⟨hnodup, hmem⟩ := h
  rw [individuals_cons_of_type htype, List.map_cons] at hnodup
  rw [individuals_cons_of_type htype] at hmem
  obtain ⟨hfree, hnodup⟩ := List.nodup_cons.mp hnodup
  refine ⟨(hmem _ _).mp List.mem_cons_self, hnodup, fun id t => ?_⟩
  unfold Schedule.put
  by_cases hid : id = x.2.instanceId
  · subst hid
    rw [if_pos rfl]
    constructor
    · intro hin
      exact absurd (List.mem_map.mpr ⟨_, hin, rfl⟩) hfree
    · nofun
  · rw [if_neg hid, ← hmem, List.mem_cons]
    constructor
    · exact Or.inr
    · rintro (heq | hin)
      · exact absurd (Prod.mk.inj heq).1 hid
      · exact hin

/-! ## 3. The global events -/

/-- The entry is the global event of a map and difficulty. -/
def isGlobal (key : MapDiff) (x : ℤ × InstResetEvent) : Bool :=
  x.2.instanceId = 0 ∧ x.2.key = key

/-- A warning or a reset of all instances of one of the maps and difficulties. -/
structure IsGlobalEvent (keys : List MapDiff) (event : InstResetEvent) : Prop where
  one_le : 1 ≤ event.type
  le_four : event.type ≤ 4
  instanceId : event.instanceId = 0
  key : event.key ∈ keys

/-- **The global events are governed**: each of the maps and difficulties has one, which is at most
an hour before its reset, and the reset lies after those performed. -/
structure Governed (keys : List MapDiff) (mgr : InstanceSaveManager) : Prop where
  events : ∀ x ∈ mgr.resetTimeQueue,
    x.2.type = 0 ∧ x.2.instanceId ≠ 0 ∨ IsGlobalEvent keys x.2
  small : ∀ x ∈ mgr.resetTimeQueue, x.2.instanceId < 2 ^ 16
  one : ∀ key ∈ keys, mgr.resetTimeQueue.countP (isGlobal key) = 1
  near : ∀ x ∈ mgr.resetTimeQueue, x.2.type ≠ 0 → mgr.getResetTimeFor x.2.key ≤ x.1 + 3600
  nonneg : ∀ key, 0 ≤ mgr.getResetTimeFor key
  after : ∀ r ∈ mgr.performed, r.2 < mgr.getResetTimeFor r.1

/-- What holds of the manager between operations. -/
structure Good (keys : List MapDiff) (mgr : InstanceSaveManager) (schedule : Schedule) : Prop where
  implements : Implements mgr.resetTimeQueue schedule
  governed : Governed keys mgr
  inTime : InTime mgr.resetTimeQueue

variable {event : InstResetEvent} {keys : List MapDiff}

theorem IsGlobalEvent.type_ne (h : IsGlobalEvent keys event) : event.type ≠ 0 := by
  have hone := h.one_le
  omega

theorem IsGlobalEvent.isGlobal (h : IsGlobalEvent keys x.2) : isGlobal x.2.key x = true :=
  decide_eq_true ⟨h.instanceId, rfl⟩

/-- The event is of a single instance, or global. -/
theorem Governed.type_ne (h : Governed keys mgr) (hx : x ∈ mgr.resetTimeQueue)
    (htype : x.2.type ≠ 0) : IsGlobalEvent keys x.2 :=
  (h.events x hx).resolve_left fun hboth => htype hboth.1

variable {rest : ResetTimeQueue}

/-- The first event is the only global one of its map and difficulty. -/
theorem Governed.others (h : Governed keys mgr) (hqueue : mgr.resetTimeQueue = x :: rest)
    (htype : x.2.type ≠ 0) : ∀ y ∈ rest, y.2.type ≠ 0 → y.2.key ≠ x.2.key := by
  intro y hy hytype hkey
  have hx := h.type_ne (hqueue ▸ List.mem_cons_self) htype
  have hyGlobal := h.type_ne (hqueue ▸ List.mem_cons_of_mem x hy) hytype
  have hone := h.one x.2.key hx.key
  rw [hqueue, List.countP_cons_of_pos hx.isGlobal] at hone
  have hpos : 0 < rest.countP (Resets.isGlobal x.2.key) :=
    List.countP_pos_iff.mpr ⟨y, hy, decide_eq_true ⟨hyGlobal.instanceId, hkey⟩⟩
  omega

/-! ## 4. One turn -/

/-- What is left when a new entry has been put in and the first one taken out: the first entry
has become the new one, or has stayed, in which case it is later. -/
theorem replace_first (k t : ℤ) (v event : InstResetEvent) (h : InTime ((t, event) :: rest)) :
    ∃ x, ((enqueue k v ((t, event) :: rest)).tail).Perm (x :: rest) ∧
      InTime (enqueue k v ((t, event) :: rest)).tail ∧
        (x = (k, v) ∨ k < t ∧ x = (t, event)) := by
  rw [tail_enqueue]
  split
  · exact ⟨(k, v), enqueue_perm k v rest, InTime.enqueue k v (List.pairwise_cons.mp h).2,
      Or.inl rfl⟩
  · rename_i hlt
    exact ⟨(t, event), List.Perm.refl _, h, Or.inr ⟨lt_of_not_ge hlt, rfl⟩⟩

/-- **The first event, a global one, is replaced** by another of its map and difficulty, and the
reset time may grow, as long as no earlier one than the last is performed. -/
theorem Good.replace (h : Good keys mgr schedule) {x' : ℤ × InstResetEvent}
    (hqueue : mgr.resetTimeQueue = x :: rest) (htype : x.2.type ≠ 0)
    (hglobal : IsGlobalEvent keys x'.2) (hkey : x'.2.key = x.2.key) (mgr' : InstanceSaveManager)
    (hperm : mgr'.resetTimeQueue.Perm (x' :: rest)) (hinTime : InTime mgr'.resetTimeQueue)
    (hnear : mgr'.getResetTimeFor x.2.key ≤ x'.1 + 3600)
    (hsame : ∀ key, key ≠ x.2.key → mgr'.getResetTimeFor key = mgr.getResetTimeFor key)
    (hle : mgr.getResetTimeFor x.2.key ≤ mgr'.getResetTimeFor x.2.key)
    (hperformed : ∀ r ∈ mgr'.performed, r ∈ mgr.performed ∨
      r.1 = x.2.key ∧ r.2 < mgr'.getResetTimeFor x.2.key) : Good keys mgr' schedule := by
  have hothers := h.governed.others hqueue htype
  have hx := h.governed.type_ne (hqueue ▸ List.mem_cons_self) htype
  have hrest : ∀ y ∈ rest, y ∈ mgr.resetTimeQueue := fun y hy =>
    hqueue ▸ List.mem_cons_of_mem x hy
  have hmem : ∀ y ∈ mgr'.resetTimeQueue, y = x' ∨ y ∈ rest := fun y hy =>
    List.mem_cons.mp (hperm.mem_iff.mp hy)
  have hgrow : ∀ key, mgr.getResetTimeFor key ≤ mgr'.getResetTimeFor key := by
    intro key
    by_cases heq : key = x.2.key
    · exact heq ▸ hle
    · exact le_of_eq (hsame key heq).symm
  refine ⟨h.implements.of_perm ?_, ⟨fun y hy => ?_, fun y hy => ?_, fun key hmemKey => ?_,
    fun y hy hytype => ?_, fun key => le_trans (h.governed.nonneg key) (hgrow key),
    fun r hr => ?_⟩, hinTime⟩
  · rw [hqueue, individuals_cons_of_ne htype]
    refine (individuals_perm hperm).trans ?_
    rw [individuals_cons_of_ne hglobal.type_ne]
  · rcases hmem y hy with rfl | hy
    · exact Or.inr hglobal
    · exact h.governed.events y (hrest y hy)
  · rcases hmem y hy with rfl | hy
    · rw [hglobal.instanceId]
      decide
    · exact h.governed.small y (hrest y hy)
  · have hone := h.governed.one key hmemKey
    rw [hqueue, List.countP_cons] at hone
    rw [hperm.countP_eq, List.countP_cons]
    have hequal : isGlobal key x' = isGlobal key x := by
      unfold isGlobal
      rw [hglobal.instanceId, hx.instanceId, hkey]
    rw [hequal]
    exact hone
  · rcases hmem y hy with rfl | hy
    · rw [hkey]
      exact hnear
    · rw [hsame _ (hothers y hy hytype)]
      exact h.governed.near y (hrest y hy) hytype
  · rcases hperformed r hr with hold | ⟨hr, hless⟩
    · exact lt_of_lt_of_le (h.governed.after r hold) (hgrow r.1)
    · rw [hr]
      exact hless

/-- The turns that the entries of a queue make necessary: those of the first grow fewer. -/
theorem turnsFor_replace (h : Governed keys mgr) {x' : ℤ × InstResetEvent}
    (hqueue : mgr.resetTimeQueue = x :: rest) (htype : x.2.type ≠ 0) (mgr' : InstanceSaveManager)
    (hperm : mgr'.resetTimeQueue.Perm (x' :: rest))
    (hsame : ∀ key, key ≠ x.2.key → mgr'.getResetTimeFor key = mgr.getResetTimeFor key)
    (hfewer : mgr'.turnsOf now x' < mgr.turnsOf now x) : mgr'.turnsFor now < mgr.turnsFor now := by
  have hothers := h.others hqueue htype
  have hrest : rest.map (mgr'.turnsOf now) = rest.map (mgr.turnsOf now) := by
    refine List.map_congr_left fun y hy => ?_
    unfold turnsOf
    by_cases hytype : y.2.type = 0
    · rw [if_pos hytype, if_pos hytype]
    · rw [hsame _ (hothers y hy hytype)]
  unfold turnsFor
  rw [(hperm.map _).sum_nat, hqueue, List.map_cons, List.map_cons, List.sum_cons, List.sum_cons,
    hrest]
  omega

/-- What a turn does: one instance that is due is reset and leaves the schedule, or the schedule
stays as it is; and fewer turns are left. -/
structure Turned (keys : List MapDiff) (mgr mgr' : InstanceSaveManager) (now : ℤ)
    (schedule schedule' : Schedule) (resets : List ℕ) : Prop where
  good : Good keys mgr' schedule'
  due : ∀ id, schedule' id = schedule id ∨
    schedule' id = none ∧ ∃ t, schedule id = some t ∧ t < now
  resets : ∀ id ∈ resets, ∃ t, schedule id = some t ∧ t < now
  fewer : mgr'.turnsFor now < mgr.turnsFor now

theorem periodic_spec {key : MapDiff} (h : key ∈ data.periodic) :
    data.isInstanceable key.1 = true ∧ ∃ period, data.resetTimeOf key = some period ∧
      period ≠ 0 ∧ (key, period) ∈ data.mapDifficultyMap := by
  obtain ⟨⟨key, period⟩, hmem, rfl⟩ := List.mem_map.mp h
  obtain ⟨hmem, hperiod⟩ := List.mem_filter.mp hmem
  have hne : period ≠ 0 := of_decide_eq_true hperiod
  refine ⟨data.dungeons _ hmem hne, period, ?_, hne, hmem⟩
  unfold MapData.resetTimeOf
  cases hfind : data.mapDifficultyMap.find? fun x => x.1 = key with
  | none => exact absurd (decide_eq_true rfl) (List.find?_eq_none.mp hfind _ hmem)
  | some found =>
    have hkey : found.1 = key :=
      of_decide_eq_true (List.find?_some (p := fun x : MapDiff × ℕ => decide (x.1 = key)) hfind)
    have hsame := List.inj_on_of_nodup_map data.keys (List.mem_of_find?_eq_some hfind) hmem hkey
    exact congrArg (fun x : MapDiff × ℕ => some x.2) hsame

variable {mgr' : InstanceSaveManager}

/-- **A single instance is reset.** -/
theorem Good.turn_instance (h : Good keys mgr schedule) {t : ℤ}
    (hqueue : mgr.resetTimeQueue = (t, event) :: rest) (htype : event.type = 0) (hdue : t < now)
    {resets : List ℕ} (hrest : mgr'.resetTimeQueue = rest)
    (htimes : mgr'.resetTimeByMapDifficulty = mgr.resetTimeByMapDifficulty)
    (hperformed : mgr'.performed = mgr.performed) (hresets : ∀ id ∈ resets, id = event.instanceId) :
    Turned keys mgr mgr' now schedule (schedule.put event.instanceId none) resets := by
  have himplements := h.implements
  rw [hqueue] at himplements
  obtain ⟨hscheduled, himplements⟩ := himplements.of_cons htype
  have hgetReset : ∀ key, mgr'.getResetTimeFor key = mgr.getResetTimeFor key :=
    fun key => congrFun htimes key
  have hmem : ∀ x ∈ rest, x ∈ mgr.resetTimeQueue := fun x hx =>
    hqueue ▸ List.mem_cons_of_mem _ hx
  have hinTime := h.inTime
  rw [hqueue] at hinTime
  refine ⟨⟨hrest ▸ himplements, ⟨?_, ?_, fun key hkey => ?_, ?_, fun key => ?_, ?_⟩, ?_⟩,
    fun id => ?_, fun id hid => ?_, ?_⟩
  · rw [hrest]
    exact fun x hx => h.governed.events x (hmem x hx)
  · rw [hrest]
    exact fun x hx => h.governed.small x (hmem x hx)
  · have hone := h.governed.one key hkey
    rw [hqueue, List.countP_cons_of_neg] at hone
    · rw [hrest]
      exact hone
    · have hid : event.instanceId ≠ 0 := by
        rcases h.governed.events _ (hqueue ▸ List.mem_cons_self) with hboth | hglobal
        · exact hboth.2
        · exact absurd htype hglobal.type_ne
      exact fun hglobal => hid (of_decide_eq_true hglobal).1
  · rw [hrest]
    intro x hx hxtype
    rw [hgetReset]
    exact h.governed.near x (hmem x hx) hxtype
  · rw [hgetReset]
    exact h.governed.nonneg key
  · rw [hperformed]
    intro r hr
    rw [hgetReset]
    exact h.governed.after r hr
  · rw [hrest]
    exact (List.pairwise_cons.mp hinTime).2
  · unfold Schedule.put
    by_cases hid : id = event.instanceId
    · rw [if_pos hid]
      exact Or.inr ⟨rfl, t, hid ▸ hscheduled, hdue⟩
    · rw [if_neg hid]
      exact Or.inl rfl
  · rw [hresets id hid]
    exact ⟨t, hscheduled, hdue⟩
  · have hturns : mgr'.turnsOf now = mgr.turnsOf now := by
      funext x
      unfold turnsOf
      rw [hgetReset]
    unfold turnsFor
    rw [hrest, hturns, hqueue, List.map_cons, List.sum_cons]
    unfold turnsOf
    rw [if_neg (not_le.mpr hdue), if_pos htype]
    omega

/-- **A warning is given**, and the next one is put into the queue. -/
theorem Good.turn_warning (h : Good keys mgr schedule) {t : ℤ}
    (hqueue : mgr.resetTimeQueue = (t, event) :: rest) (htype : event.type ≠ 0)
    (hfour : event.type ≠ 4) (hdue : t < now) {next : InstResetEvent}
    (hnext : next = { event with type := (event.type + 1) % 2 ^ 8 }) :
    Turned keys mgr
      { mgr with
        resetTimeQueue := (enqueue (mgr.getResetTimeFor event.key - resetTimeDelay next.type) next
          ((t, next) :: rest)).tail } now schedule schedule [] := by
  have hglobal := h.governed.type_ne (hqueue ▸ List.mem_cons_self) htype
  have hone := hglobal.one_le
  have hle := hglobal.le_four
  have hnextType : next.type = event.type + 1 := by
    rw [hnext]
    exact Nat.mod_eq_of_lt (by dsimp only at hle ⊢; omega)
  have hnextGlobal : IsGlobalEvent keys next := by
    refine ⟨?_, ?_, ?_, ?_⟩
    · omega
    · dsimp only at hle hone htype
      omega
    · rw [hnext]
      exact hglobal.instanceId
    · rw [hnext]
      exact hglobal.key
  have hkey : next.key = event.key := by rw [hnext]; rfl
  have hsorted : InTime ((t, next) :: rest) := by
    have hinTime := h.inTime
    rw [hqueue] at hinTime
    exact List.pairwise_cons.mpr (List.pairwise_cons.mp hinTime)
  set mgr' : InstanceSaveManager := { mgr with
    resetTimeQueue := (enqueue (mgr.getResetTimeFor event.key - resetTimeDelay next.type) next
      ((t, next) :: rest)).tail } with hmgr'
  obtain ⟨x, hperm, hinTime, hx⟩ := replace_first
    (mgr.getResetTimeFor event.key - resetTimeDelay next.type) t next next hsorted
  have hxEvent : x.2 = next := by
    rcases hx with rfl | ⟨-, rfl⟩
    · rfl
    · rfl
  have hnear : mgr.getResetTimeFor event.key ≤ x.1 + 3600 := by
    rcases hx with rfl | ⟨-, rfl⟩
    · have hdelay := (resetTimeDelay_bounds next.type).2
      omega
    · exact h.governed.near _ (hqueue ▸ List.mem_cons_self) htype
  refine ⟨h.replace hqueue htype (hxEvent ▸ hnextGlobal) (hxEvent ▸ hkey) mgr' hperm hinTime
    hnear (fun _ _ => rfl) (le_refl _) (fun r hr => Or.inl hr), fun _ => Or.inl rfl, nofun, ?_⟩
  refine turnsFor_replace h.governed hqueue htype mgr' hperm (fun _ _ => rfl) ?_
  have hsame : mgr'.getResetTimeFor next.key = mgr.getResetTimeFor event.key := by
    rw [hkey]
    rfl
  unfold turnsOf
  rw [if_neg (not_le.mpr hdue), if_neg htype, hxEvent, if_neg hnextGlobal.type_ne, hsame, hnextType]
  dsimp only at hle hone ⊢
  split
  · omega
  · omega

theorem resetOrWarnAll_warn (key : MapDiff) (resetTime : ℤ) :
    mgr.resetOrWarnAll data config key true resetTime = mgr := by
  unfold resetOrWarnAll
  split
  · rfl
  · rw [if_pos rfl]

theorem resetOrWarnAll_reset (config : Config) (mgr : InstanceSaveManager) {key : MapDiff}
    (hkey : key ∈ data.periodic) (resetTime : ℤ) :
    ∃ period, period ≠ 0 ∧ (key, period) ∈ data.mapDifficultyMap ∧
      mgr.resetOrWarnAll data config key false resetTime =
        ((⟨mgr.withoutSaves key, mgr.resetTimeByMapDifficulty, mgr.resetTimeQueue,
            (key, resetTime) :: mgr.performed⟩ : InstanceSaveManager).setResetTimeFor key
          (nextReset config resetTime period)).addReset
            (uint32 (nextReset config resetTime period - 3600))
              (InstResetEvent.make 1 key.1 key.2 0) := by
  obtain ⟨hinstanceable, period, hperiod, hne, hmem⟩ := periodic_spec hkey
  refine ⟨period, hne, hmem, ?_⟩
  unfold resetOrWarnAll
  rw [hinstanceable, hperiod]
  dsimp only
  rw [if_neg (by decide), if_neg Bool.false_ne_true, if_neg hne]

theorem setResetTimeFor_self (key : MapDiff) (t : ℤ) :
    (mgr.setResetTimeFor key t).getResetTimeFor key = t := if_pos rfl

theorem setResetTimeFor_other {key other : MapDiff} (h : other ≠ key) (t : ℤ) :
    (mgr.setResetTimeFor key t).getResetTimeFor other = mgr.getResetTimeFor other := if_neg h

/-- **A global reset is performed**, and the warnings of the next one begin. -/
theorem Good.turn_reset (h : Good data.periodic mgr schedule) {t : ℤ}
    (hqueue : mgr.resetTimeQueue = (t, event) :: rest) (htype : event.type = 4) (hdue : t < now)
    (hclock : FitsClock data config now)
    (hmgr' : mgr' = mgr.resetOrWarnAll data config event.key false
      (mgr.getResetTimeFor event.key)) :
    Turned data.periodic mgr { mgr' with resetTimeQueue := mgr'.resetTimeQueue.tail } now
      schedule schedule [] := by
  have hne : event.type ≠ 0 := by omega
  have hglobal := h.governed.type_ne (hqueue ▸ List.mem_cons_self) hne
  obtain ⟨period, hperiod, hmem, hreset⟩ :=
    resetOrWarnAll_reset config mgr hglobal.key (mgr.getResetTimeFor event.key)
  rw [hreset] at hmgr'
  have hnear := h.governed.near _ (hqueue ▸ List.mem_cons_self) hne
  dsimp only at hnear
  have hfits := hclock (event.key, period) hmem hperiod
  have hsoon : mgr.getResetTimeFor event.key < now + 3600 := by omega
  obtain ⟨hlater, hlow, hhigh⟩ := nextReset_spec config period (h.governed.nonneg event.key) hsoon
    hfits
  generalize nextReset config (mgr.getResetTimeFor event.key) period = nextTime at *
  rw [uint32_of_lt (by omega) (by omega)] at hmgr'
  have hsmall := data.small _ hmem
  have hmake : InstResetEvent.make 1 event.key.1 event.key.2 0 =
      ⟨1, event.mapid, event.difficulty, 0⟩ := by
    unfold InstResetEvent.make
    rw [Nat.mod_eq_of_lt hsmall.1, Nat.mod_eq_of_lt hsmall.2]
    rfl
  have hsorted := h.inTime
  rw [hqueue] at hsorted
  obtain ⟨x, hperm, hinTime, hx⟩ := replace_first (nextTime - 3600) t
    (InstResetEvent.make 1 event.key.1 event.key.2 0) event hsorted
  have hqueue' : mgr'.resetTimeQueue = enqueue (nextTime - 3600)
      (InstResetEvent.make 1 event.key.1 event.key.2 0) ((t, event) :: rest) := by
    rw [hmgr', ← hqueue]
    rfl
  have htime : mgr'.getResetTimeFor event.key = nextTime := by
    rw [hmgr']
    exact setResetTimeFor_self _ _
  have hsame : ∀ key, key ≠ event.key → mgr'.getResetTimeFor key = mgr.getResetTimeFor key := by
    intro key hkey
    rw [hmgr']
    exact setResetTimeFor_other hkey _
  have hperformed :
      mgr'.performed = (event.key, mgr.getResetTimeFor event.key) :: mgr.performed := by
    rw [hmgr']
    rfl
  rw [← hqueue'] at hperm hinTime
  have hxGlobal : IsGlobalEvent data.periodic x.2 ∧ x.2.key = event.key := by
    rcases hx with rfl | ⟨-, rfl⟩
    · rw [hmake]
      have hfour : 1 ≤ 4 := by decide
      exact ⟨⟨le_refl 1, hfour, rfl, hglobal.key⟩, rfl⟩
    · exact ⟨hglobal, rfl⟩
  have hxNear : nextTime ≤ x.1 + 3600 := by
    rcases hx with rfl | ⟨hlt, rfl⟩
    · dsimp only
      omega
    · dsimp only
      omega
  set mgr'' : InstanceSaveManager := { mgr' with resetTimeQueue := mgr'.resetTimeQueue.tail }
    with hmgr''
  have htime' : mgr''.getResetTimeFor event.key = nextTime := htime
  refine ⟨h.replace hqueue hne hxGlobal.1 hxGlobal.2 mgr'' hperm hinTime
    (htime'.trans_le hxNear) hsame ?_ ?_, fun _ => Or.inl rfl, nofun, ?_⟩
  · rw [htime']
    exact le_of_lt hlater
  · intro r hr
    rw [show mgr''.performed = _ from hperformed] at hr
    rcases List.mem_cons.mp hr with rfl | hr
    · exact Or.inr ⟨rfl, htime'.symm ▸ hlater⟩
    · exact Or.inl hr
  · refine turnsFor_replace h.governed hqueue hne mgr'' hperm hsame ?_
    have hold : mgr.turnsOf now (t, event) =
        5 * (now - mgr.getResetTimeFor event.key + 3600).toNat + 1 := by
      unfold turnsOf
      rw [if_neg (not_le.mpr hdue), if_neg hne, htype]
    have hnew : mgr''.turnsOf now x ≤
        if now ≤ x.1 then 0 else 5 * (now - nextTime + 3600).toNat + 4 := by
      unfold turnsOf
      split
      · exact le_refl _
      · rw [if_neg hxGlobal.1.type_ne, hxGlobal.2, htime']
        have hone := hxGlobal.1.one_le
        omega
    rw [hold]
    refine lt_of_le_of_lt hnew ?_
    split
    · omega
    · rename_i hlt
      have hdue' : nextTime - 3600 < now := by
        rcases hx with rfl | ⟨hless, rfl⟩
        · exact lt_of_not_ge hlt
        · omega
      omega

/-! ## 5. An Update -/

/-- **A turn of the loop** resets an instance that is due or leaves the schedule as it is. -/
theorem Good.turn (h : Good data.periodic mgr schedule) (hclock : FitsClock data config now)
    {done : InstanceSaveManager × List ℕ} (hturn : mgr.updateTurn data config now = some done) :
    ∃ schedule', Turned data.periodic mgr done.1 now schedule schedule' done.2 := by
  unfold updateTurn at hturn
  cases hqueue : mgr.resetTimeQueue with
  | nil => rw [hqueue] at hturn; cases hturn
  | cons first rest =>
    obtain ⟨t, event⟩ := first
    rw [hqueue] at hturn
    dsimp only at hturn
    by_cases hlate : now ≤ t
    · rw [if_pos hlate] at hturn
      cases hturn
    · rw [if_neg hlate] at hturn
      have hdue : t < now := lt_of_not_ge hlate
      by_cases htype : event.type = 0
      · rw [if_pos htype] at hturn
        obtain rfl := Option.some.inj hturn
        unfold resetInstance
        split
        · exact ⟨_, h.turn_instance hqueue htype hdue (congrArg List.tail hqueue) rfl rfl
            fun id hid => List.mem_singleton.mp hid⟩
        · exact ⟨_, h.turn_instance hqueue htype hdue (congrArg List.tail hqueue) rfl rfl nofun⟩
      · rw [if_neg htype] at hturn
        by_cases hfour : event.type = 4
        · rw [show (event.type != 4) = false by rw [hfour]; rfl, if_neg Bool.false_ne_true] at hturn
          obtain rfl := Option.some.inj hturn
          exact ⟨schedule, h.turn_reset hqueue hfour hdue hclock rfl⟩
        · rw [show (event.type != 4) = true by simpa using hfour, if_pos rfl,
            resetOrWarnAll_warn] at hturn
          obtain rfl := Option.some.inj hturn
          exact ⟨schedule, h.turn_warning hqueue htype hfour hdue rfl⟩

/-- The loop ends where nothing is due. -/
theorem updateTurn_none (h : mgr.updateTurn data config now = none)
    (hinTime : InTime mgr.resetTimeQueue) : ∀ x ∈ mgr.resetTimeQueue, now ≤ x.1 := by
  unfold updateTurn at h
  cases hqueue : mgr.resetTimeQueue with
  | nil => nofun
  | cons first rest =>
    rw [hqueue] at h hinTime
    dsimp only at h
    split at h
    · rename_i hlate
      exact fun x hx => le_trans hlate (hinTime.head_le x hx)
    · split at h
      · cases h
      · split at h
        · cases h
        · cases h

theorem Schedule.from_congr {schedule' : Schedule} (h : ∀ id, schedule' id = schedule id ∨
      schedule' id = none ∧ ∃ t, schedule id = some t ∧ t < now) :
    schedule'.from now = schedule.from now := by
  funext id
  unfold Schedule.from
  rcases h id with heq | ⟨hnone, t, hsome, hless⟩
  · rw [heq]
  · rw [hnone, hsome, Option.filter_none, Option.filter_some,
      if_neg fun hle => absurd (of_decide_eq_true hle) (not_le.mpr hless)]

/-- **An Update ends**, and has reset just what was due in the schedule. -/
theorem Good.updateLoop (hclock : FitsClock data config now) :
    ∀ {turns : ℕ} {mgr : InstanceSaveManager} {schedule : Schedule},
      Good data.periodic mgr schedule → mgr.turnsFor now ≤ turns →
      (mgr.updateLoop data config now turns).1.updateTurn data config now = none ∧
        Good data.periodic (mgr.updateLoop data config now turns).1 (schedule.from now) ∧
          ∀ id ∈ (mgr.updateLoop data config now turns).2,
            ∃ t, schedule id = some t ∧ t < now := by
  have hend : ∀ {mgr : InstanceSaveManager} {schedule : Schedule},
      Good data.periodic mgr schedule → mgr.updateTurn data config now = none →
      Good data.periodic mgr (schedule.from now) := by
    intro mgr schedule h hnone
    have hlate := updateTurn_none hnone h.inTime
    have hsame : schedule.from now = schedule := by
      funext id
      unfold Schedule.from
      cases hid : schedule id with
      | none => rfl
      | some t =>
        obtain ⟨event, hmem, -⟩ := mem_individuals.mp ((h.implements.mem id t).mpr hid)
        rw [Option.filter_some, if_pos (decide_eq_true (hlate _ hmem))]
    rw [hsame]
    exact h
  intro turns
  induction turns with
  | zero =>
    intro mgr schedule h hturns
    have hnone : mgr.updateTurn data config now = none := by
      cases hturn : mgr.updateTurn data config now with
      | none => rfl
      | some done =>
        obtain ⟨schedule', hturned⟩ := h.turn hclock hturn
        have hfewer := hturned.fewer
        omega
    exact ⟨hnone, hend h hnone, nofun⟩
  | succ turns ih =>
    intro mgr schedule h hturns
    rw [InstanceSaveManager.updateLoop]
    cases hturn : mgr.updateTurn data config now with
    | none => exact ⟨hturn, hend h hturn, nofun⟩
    | some done =>
      obtain ⟨schedule', hturned⟩ := h.turn hclock hturn
      have hfewer := hturned.fewer
      obtain ⟨hnone, hgood, hresets⟩ := ih hturned.good (by omega)
      rw [Schedule.from_congr hturned.due] at hgood
      refine ⟨hnone, hgood, fun id hid => ?_⟩
      rcases List.mem_append.mp hid with hid | hid
      · exact hturned.resets id hid
      · obtain ⟨t, hscheduled, hless⟩ := hresets id hid
        rcases hturned.due id with heq | ⟨hgone, -⟩
        · exact ⟨t, heq ▸ hscheduled, hless⟩
        · rw [hgone] at hscheduled
          cases hscheduled

/-! ## 6. The operations -/

/-- No event has the id. -/
def NonePending (mgr : InstanceSaveManager) (instanceId : ℕ) : Prop :=
  ∀ x ∈ mgr.resetTimeQueue, x.2.instanceId ≠ instanceId

instance (mgr : InstanceSaveManager) (instanceId : ℕ) : Decidable (NonePending mgr instanceId) :=
  inferInstanceAs (Decidable (∀ x ∈ mgr.resetTimeQueue, _))

/-- A new save schedules the reset of its instance. -/
def Schedules (data : MapData) (mgr : InstanceSaveManager) (mapId instanceId difficulty : ℕ)
    (resetTime : ℤ) : Bool :=
  (mgr.instanceSaveById.lookup instanceId).isNone && instanceId != 0 && resetTime == 0 &&
    difficulty == 0 && ((data.lookupEntry mapId).map fun entry => !entry.isRaid).getD false

/-- **The condition on an operation**: an instance that is scheduled has an id of 16 bits and no
event yet, an event that is taken out is taken out by such an id, and the clock is not near its
end.  No instance has the id 0. -/
def Allowed (data : MapData) (config : Config) (mgr : InstanceSaveManager) : Op → Prop
  | .addInstanceSave mapId instanceId difficulty resetTime _ =>
    Schedules data mgr mapId instanceId difficulty resetTime = true →
      instanceId < 2 ^ 16 ∧ NonePending mgr instanceId
  | .removeInstanceSave _ => True
  | .scheduleReset add _ _ _ instanceId =>
    0 < instanceId ∧
      if add then instanceId < 2 ^ 16 ∧ NonePending mgr instanceId
      else instanceId < 2 ^ 16 ∨ NonePending mgr (instanceId % 2 ^ 16)
  | .update now => FitsClock data config now

instance decidableAllowed (mgr : InstanceSaveManager) : ∀ op, Decidable (Allowed data config mgr op)
  | .addInstanceSave .. => inferInstanceAs (Decidable (_ → _))
  | .removeInstanceSave _ => isTrue trivial
  | .scheduleReset .. => inferInstanceAs (Decidable (_ ∧ ite _ _ _))
  | .update now => inferInstanceAs (Decidable (FitsClock data config now))

/-- What the operations are to do to the schedule. -/
def scheduleStep (data : MapData) (mgr : InstanceSaveManager) (schedule : Schedule) : Op → Schedule
  | .addInstanceSave mapId instanceId difficulty resetTime now =>
    if Schedules data mgr mapId instanceId difficulty resetTime then
      schedule.put instanceId (some (now + 2 * HOUR))
    else schedule
  | .removeInstanceSave _ => schedule
  | .scheduleReset add time _ _ instanceId =>
    schedule.put instanceId (if add then some time else none)
  | .update now => schedule.from now

section

variable (h : Good keys mgr schedule)
include h

theorem Good.schedule_none {id : ℕ} (hnone : NonePending mgr id) : schedule id = none := by
  cases hid : schedule id with
  | none => rfl
  | some t =>
    obtain ⟨event, hmem, -, hevent⟩ := mem_individuals.mp ((h.implements.mem id t).mpr hid)
    exact absurd hevent (hnone _ hmem)

/-- What is not in the queue and not a reset time does not matter. -/
theorem Good.of_same (hqueue : mgr'.resetTimeQueue = mgr.resetTimeQueue)
    (htimes : mgr'.resetTimeByMapDifficulty = mgr.resetTimeByMapDifficulty)
    (hperformed : mgr'.performed = mgr.performed) : Good keys mgr' schedule := by
  have hget : ∀ key, mgr'.getResetTimeFor key = mgr.getResetTimeFor key :=
    fun key => congrFun htimes key
  refine ⟨hqueue ▸ h.implements, ⟨?_, ?_, ?_, ?_, ?_, ?_⟩, hqueue ▸ h.inTime⟩
  · rw [hqueue]
    exact h.governed.events
  · rw [hqueue]
    exact h.governed.small
  · rw [hqueue]
    exact h.governed.one
  · rw [hqueue]
    exact fun x hx htype => (hget _).trans_le (h.governed.near x hx htype)
  · exact fun key => (h.governed.nonneg key).trans_eq (hget key).symm
  · rw [hperformed]
    exact fun r hr => (h.governed.after r hr).trans_eq (hget _).symm

/-- **An instance is scheduled.** -/
theorem Good.addReset {id : ℕ} (hpos : 0 < id) (hsmall : id < 2 ^ 16) (hnone : schedule id = none)
    (time : ℤ) (mapid difficulty : ℕ) :
    Good keys (mgr.addReset time (InstResetEvent.make 0 mapid difficulty id))
      (schedule.put id (some time)) := by
  have hid : (InstResetEvent.make 0 mapid difficulty id).instanceId = id := Nat.mod_eq_of_lt hsmall
  have htype : (InstResetEvent.make 0 mapid difficulty id).type = 0 := rfl
  generalize InstResetEvent.make 0 mapid difficulty id = event at hid htype
  have hperm := enqueue_perm time event mgr.resetTimeQueue
  have himplements := h.implements.cons (x := (time, event)) htype (by rw [hid]; exact hnone)
  rw [hid] at himplements
  refine ⟨himplements.of_perm (individuals_perm hperm), ⟨fun x hx => ?_, fun x hx => ?_,
    fun key hkey => ?_, fun x hx hxtype => ?_, h.governed.nonneg, h.governed.after⟩,
    h.inTime.enqueue time event⟩
  · rcases mem_enqueue.mp hx with rfl | hx
    · exact Or.inl ⟨htype, by rw [hid]; omega⟩
    · exact h.governed.events x hx
  · rcases mem_enqueue.mp hx with rfl | hx
    · exact hid.trans_lt hsmall
    · exact h.governed.small x hx
  · refine (hperm.countP_eq _).trans ?_
    rw [List.countP_cons_of_neg]
    · exact h.governed.one key hkey
    · intro hglobal
      have hzero := (of_decide_eq_true hglobal).1
      rw [hid] at hzero
      omega
  · rcases mem_enqueue.mp hx with rfl | hx
    · exact absurd htype hxtype
    · exact h.governed.near x hx hxtype

/-- An entry is taken out of the queue. -/
theorem Good.remove {before after : ResetTimeQueue}
    (hqueue : mgr.resetTimeQueue = before ++ x :: after) (hid : x.2.instanceId ≠ 0) :
    Good keys { mgr with resetTimeQueue := before ++ after }
      (schedule.put x.2.instanceId none) := by
  have hmem : ∀ y ∈ before ++ after, y ∈ mgr.resetTimeQueue := by
    intro y hy
    rw [hqueue]
    exact List.perm_middle.mem_iff.mpr (List.mem_cons_of_mem x hy)
  have htype : x.2.type = 0 := by
    have hx : x ∈ mgr.resetTimeQueue := by
      rw [hqueue]
      exact List.mem_append_right _ List.mem_cons_self
    rcases h.governed.events x hx with hboth | hglobal
    · exact hboth.1
    · exact absurd hglobal.instanceId hid
  have hperm : (x :: (before ++ after)).Perm mgr.resetTimeQueue := by
    rw [hqueue]
    exact List.perm_middle.symm
  have himplements := (h.implements.of_perm (individuals_perm hperm)).of_cons htype
  refine ⟨himplements.2, ⟨fun y hy => h.governed.events y (hmem y hy),
    fun y hy => h.governed.small y (hmem y hy), fun key hkey => ?_,
    fun y hy => h.governed.near y (hmem y hy), h.governed.nonneg, h.governed.after⟩, ?_⟩
  · have hone := h.governed.one key hkey
    rw [← hperm.countP_eq, List.countP_cons_of_neg] at hone
    · exact hone
    · exact fun hglobal => hid (of_decide_eq_true hglobal).1
  · have hinTime := h.inTime
    rw [hqueue] at hinTime
    exact hinTime.sublist (List.Sublist.append_left (List.sublist_cons_self x after) before)

/-- **An instance is taken out of the queue**: its event, and no other. -/
theorem Good.removeReset (event : InstResetEvent) (hpos : event.instanceId ≠ 0) (time : ℤ) :
    Good keys (mgr.removeReset time event) (schedule.put event.instanceId none) ∧
      ∀ x, x ∈ (mgr.removeReset time event).resetTimeQueue ↔
        x ∈ mgr.resetTimeQueue ∧ x.2.instanceId ≠ event.instanceId := by
  have hall : ∀ p : ℤ × InstResetEvent → Bool, (∀ x, p x = true → x.2.same event = true) →
      ((∃ x ∈ mgr.resetTimeQueue, p x = true) ∨ ∀ x ∈ mgr.resetTimeQueue, x.2.same event = false) →
      Good keys { mgr with resetTimeQueue := mgr.resetTimeQueue.eraseP p }
          (schedule.put event.instanceId none) ∧
        ∀ x, x ∈ mgr.resetTimeQueue.eraseP p ↔
          x ∈ mgr.resetTimeQueue ∧ x.2.instanceId ≠ event.instanceId := by
    intro p hp hfound
    rcases hfound with ⟨y, hy, hpy⟩ | hnone
    · obtain ⟨x, before, after, -, hpx, hqueue, herase⟩ := List.exists_of_eraseP hy hpy
      have hsame : event.instanceId = x.2.instanceId := of_decide_eq_true (hp x hpx)
      rw [herase, hsame]
      have hgood := h.remove hqueue (hsame ▸ hpos)
      refine ⟨hgood, fun z => ⟨fun hz => ⟨?_, fun hzid => ?_⟩, fun ⟨hz, hzid⟩ => ?_⟩⟩
      · rw [hqueue]
        exact List.perm_middle.mem_iff.mpr (List.mem_cons_of_mem x hz)
      · have hznone : (schedule.put x.2.instanceId none) z.2.instanceId = none := by
          unfold Schedule.put
          rw [if_pos hzid]
        have hztype : z.2.type = 0 := by
          rcases hgood.governed.events z hz with hboth | hglobal
          · exact hboth.1
          · exact absurd (hsame.trans (hzid.symm.trans hglobal.instanceId)) hpos
        have hzmem := mem_individuals.mpr ⟨z.2, hz, hztype, rfl⟩
        rw [hgood.implements.mem, hznone] at hzmem
        cases hzmem
      · rw [hqueue] at hz
        rcases List.mem_cons.mp (List.perm_middle.mem_iff.mp hz) with rfl | hz
        · exact absurd rfl hzid
        · exact hz
    · have herase : mgr.resetTimeQueue.eraseP p = mgr.resetTimeQueue := by
        refine List.eraseP_of_forall_not fun x hx hpx => ?_
        have htrue := hp x hpx
        rw [hnone x hx] at htrue
        cases htrue
      have hids : NonePending mgr event.instanceId := fun x hx heq =>
        (of_decide_eq_false (hnone x hx)) heq.symm
      have hsame : schedule.put event.instanceId none = schedule := by
        funext id
        unfold Schedule.put
        split
        · rename_i hid
          rw [hid, h.schedule_none hids]
        · rfl
      rw [herase, hsame]
      exact ⟨h, fun x => ⟨fun hx => ⟨hx, hids x hx⟩, And.left⟩⟩
  unfold InstanceSaveManager.removeReset
  split
  · rename_i hany
    obtain ⟨y, hy, hpy⟩ := List.any_eq_true.mp hany
    exact hall _ (fun x hx => (Bool.and_eq_true_iff.mp hx).2) (Or.inl ⟨y, hy, hpy⟩)
  · refine hall _ (fun x hx => hx) ?_
    by_cases hsome : ∃ x ∈ mgr.resetTimeQueue, x.2.same event = true
    · exact Or.inl hsome
    · refine Or.inr fun x hx => Bool.eq_false_iff.mpr fun htrue => hsome ⟨x, hx, htrue⟩

theorem Good.schedule_lt {id : ℕ} (hlarge : 2 ^ 16 ≤ id) : schedule id = none := by
  refine h.schedule_none fun x hx heq => ?_
  have hsmall := h.governed.small x hx
  omega

end

theorem Schedule.put_none {id : ℕ} (h : schedule id = none) : schedule.put id none = schedule := by
  funext other
  unfold Schedule.put
  split
  · rename_i heq
    rw [heq, h]
  · rfl

/-- Nothing is taken out when no event is like the given one. -/
theorem removeReset_of_none (h : NonePending mgr event.instanceId) (time : ℤ) :
    mgr.removeReset time event = mgr := by
  have hnone : ∀ x ∈ mgr.resetTimeQueue, x.2.same event = false := fun x hx =>
    decide_eq_false fun heq => h x hx heq.symm
  unfold InstanceSaveManager.removeReset
  have hqueue : (if mgr.resetTimeQueue.any fun x => x.1 = time && x.2.same event then
      mgr.resetTimeQueue.eraseP fun x => x.1 = time && x.2.same event
    else mgr.resetTimeQueue.eraseP fun x => x.2.same event) = mgr.resetTimeQueue := by
    split
    · refine List.eraseP_of_forall_not fun x hx hpx => ?_
      rw [hnone x hx, Bool.and_false] at hpx
      cases hpx
    · refine List.eraseP_of_forall_not fun x hx hpx => ?_
      rw [hnone x hx] at hpx
      cases hpx
  rw [hqueue]

theorem schedules_iff {mapId instanceId difficulty : ℕ} {resetTime : ℤ} :
    Schedules data mgr mapId instanceId difficulty resetTime = true ↔
      mgr.instanceSaveById.lookup instanceId = none ∧ instanceId ≠ 0 ∧ resetTime = 0 ∧
        difficulty = 0 ∧ ∃ entry, data.lookupEntry mapId = some entry ∧ entry.isRaid = false := by
  unfold Schedules
  cases data.lookupEntry mapId with
  | none => simp
  | some entry => simp [and_assoc]

/-- **A new save** puts the reset of its instance in the queue, or leaves the schedule as it is. -/
theorem addInstanceSave_cases (data : MapData) (mgr : InstanceSaveManager)
    (mapId instanceId difficulty : ℕ) (resetTime now : ℤ) : ∃ saves,
    Schedules data mgr mapId instanceId difficulty resetTime = true ∧ instanceId ≠ 0 ∧
      mgr.addInstanceSave data mapId instanceId difficulty resetTime now =
        { mgr.addReset (now + 2 * HOUR) (InstResetEvent.make 0 mapId difficulty instanceId) with
          instanceSaveById := saves } ∨
    Schedules data mgr mapId instanceId difficulty resetTime = false ∧
      mgr.addInstanceSave data mapId instanceId difficulty resetTime now =
        { mgr with instanceSaveById := saves } := by
  unfold InstanceSaveManager.addInstanceSave
  by_cases hyes : Schedules data mgr mapId instanceId difficulty resetTime = true
  · obtain ⟨hlookup, hid, htime, hdifficulty, entry, hentry, hraid⟩ := schedules_iff.mp hyes
    refine ⟨mgr.instanceSaveById.insert instanceId ⟨mapId, difficulty, now + 2 * HOUR⟩,
      Or.inl ⟨hyes, hid, ?_⟩⟩
    rw [hlookup, hentry, if_neg (by simp)]
    dsimp only
    rw [if_neg (by simp [hid, hdifficulty, hraid]), if_neg (not_not.mpr htime),
      if_neg (by simp [hdifficulty, hraid])]
    rfl
  · have hnot : Schedules data mgr mapId instanceId difficulty resetTime = false :=
      Bool.eq_false_iff.mpr hyes
    cases hlookup : mgr.instanceSaveById.lookup instanceId with
    | some save => exact ⟨_, Or.inr ⟨hnot, rfl⟩⟩
    | none =>
      rw [if_neg (by simp)]
      cases hentry : data.lookupEntry mapId with
      | none => exact ⟨_, Or.inr ⟨hnot, rfl⟩⟩
      | some entry =>
        dsimp only
        by_cases hrefused : instanceId = 0 ∨ (if entry.isRaid then 4 else 3) ≤ difficulty
        · rw [if_pos hrefused]
          exact ⟨_, Or.inr ⟨hnot, rfl⟩⟩
        rw [if_neg hrefused]
        by_cases htime : resetTime ≠ 0
        · rw [if_pos htime]
          exact ⟨_, Or.inr ⟨hnot, rfl⟩⟩
        rw [if_neg htime]
        by_cases hheroic : entry.isRaid = true ∨ 0 < difficulty
        · rw [if_pos hheroic]
          exact ⟨_, Or.inr ⟨hnot, rfl⟩⟩
        obtain ⟨hraid, hdifficulty⟩ := not_or.mp hheroic
        exact absurd (schedules_iff.mpr ⟨hlookup, fun hid => hrefused (Or.inl hid),
          not_not.mp htime, Nat.eq_zero_of_not_pos hdifficulty, entry, hentry,
          Bool.eq_false_iff.mpr hraid⟩) hyes

/-- **What the operations do** is what they are to do to the schedule. -/
theorem Good.step (h : Good data.periodic mgr schedule) {op : Op}
    (hallowed : Allowed data config mgr op) :
    Good data.periodic (step data config mgr op).1 (scheduleStep data mgr schedule op) := by
  cases op with
  | addInstanceSave mapId instanceId difficulty resetTime now =>
    unfold Resets.step scheduleStep
    dsimp only
    obtain ⟨saves, ⟨hyes, hid, hadd⟩ | ⟨hnot, hadd⟩⟩ :=
      addInstanceSave_cases data mgr mapId instanceId difficulty resetTime now
    · rw [hadd, if_pos hyes]
      obtain ⟨hsmall, hnone⟩ := hallowed hyes
      have hadded := h.addReset (Nat.pos_of_ne_zero hid) hsmall (h.schedule_none hnone)
      exact (hadded _ _ _).of_same rfl rfl rfl
    · rw [hadd, hnot]
      exact h.of_same rfl rfl rfl
  | removeInstanceSave instanceId => exact h.of_same rfl rfl rfl
  | scheduleReset add time mapid difficulty instanceId =>
    obtain ⟨hpos, hcond⟩ := hallowed
    unfold Resets.step scheduleStep
    dsimp only
    cases add with
    | true =>
      rw [if_pos rfl] at hcond
      obtain ⟨hsmall, hnone⟩ := hcond
      exact h.addReset hpos hsmall (h.schedule_none hnone) time mapid difficulty
    | false =>
      rw [if_neg Bool.false_ne_true] at hcond
      rw [if_neg Bool.false_ne_true, if_neg Bool.false_ne_true]
      by_cases hsmall : instanceId < 2 ^ 16
      · have hid : (InstResetEvent.make 0 mapid difficulty instanceId).instanceId = instanceId :=
          Nat.mod_eq_of_lt hsmall
        have hremove := (h.removeReset (InstResetEvent.make 0 mapid difficulty instanceId)
          (by rw [hid]; omega) time).1
        rw [hid] at hremove
        exact hremove
      · rw [removeReset_of_none (hcond.resolve_left hsmall),
          Schedule.put_none (h.schedule_lt (Nat.le_of_not_lt hsmall))]
        exact h
  | update now => exact (h.updateLoop hallowed (le_refl _)).2.1

end HungerGames.Resets
