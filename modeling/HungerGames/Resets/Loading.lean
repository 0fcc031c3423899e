/-
# Resets are loaded and run as scheduled

`LoadResetTimes` makes the schedule of `wanted`, and a global event for every map and difficulty
with a reset period, when its rows meet `Loadable`: among other things, the ids of normal
instances are below 2^16, and no row of the respawns but the first changes a reset time, as the
loop over them ends after one.  From there every run whose operations meet `Allowed` follows its
schedule (`resets_sound`).
-/
import HungerGames.Resets.Schedule

namespace HungerGames.Resets

open HungerGames.System InstanceSaveManager

variable {data : MapData} {config : Config} {db : Database} {now : ℤ}

/-! ## 1. What is wanted -/

/-- The latest respawn of a normal instance and two hours, or the time it was stored with. -/
def wantedTime (db : Database) (row : InstanceRow) : ℤ :=
  match db.respawns.find? fun r => r.instanceId = row.id with
  | some r => r.time + 2 * HOUR
  | none => row.resettime

/-- The row of a normal instance. -/
def normalRow (db : Database) (id : ℕ) : Option InstanceRow :=
  db.instances.find? fun row => row.id = id ∧ row.resettime ≠ 0

def wanted (db : Database) : Schedule := fun id => (normalRow db id).map (wantedTime db)

/-- **The condition on the rows.**  The ids of instances are different and not 0; those of normal
ones are of 16 bits, and their maps have no reset period; their times are still to come; and the
respawns that are not read, all but the first, change nothing. -/
structure Loadable (data : MapData) (db : Database) (now : ℤ) : Prop where
  ids : (db.instances.map InstanceRow.id).Nodup
  pos : ∀ row ∈ db.instances, 0 < row.id
  small : ∀ row ∈ db.instances, row.resettime ≠ 0 → row.id < 2 ^ 16
  single : ∀ row ∈ db.instances, row.resettime ≠ 0 →
    (row.map, row.difficulty) ∉ data.periodic
  due : ∀ row ∈ db.instances, row.resettime ≠ 0 → now < wantedTime db row
  fits : ∀ r ∈ db.respawns.take 1, ∀ row ∈ db.instances, row.resettime ≠ 0 →
    row.id = r.instanceId → r.time + 2 * HOUR < 2 ^ 32
  unread : ∀ r ∈ db.respawns.drop 1, ∀ row ∈ db.instances, row.resettime ≠ 0 →
    row.id = r.instanceId → r.time + 2 * HOUR = row.resettime

theorem normalRow_spec {id : ℕ} {row : InstanceRow} (h : normalRow db id = some row) :
    row ∈ db.instances ∧ row.id = id ∧ row.resettime ≠ 0 := by
  have hrow := of_decide_eq_true (List.find?_some
    (p := fun row : InstanceRow => decide (row.id = id ∧ row.resettime ≠ 0)) h)
  exact ⟨List.mem_of_find?_eq_some h, hrow⟩

/-! ## 2. The times of normal instances -/

/-- The rows of normal instances are read into the map. -/
theorem lookup_readInstances (id : ℕ) : ∀ {rows : List InstanceRow} (times : InstResetTimes),
    (rows.map InstanceRow.id).Nodup →
    (rows.foldl readInstance times).lookup id =
      ((rows.find? fun row => row.id = id ∧ row.resettime ≠ 0).map
        fun row => ((row.map, row.difficulty), (row.resettime : ℤ))).or (times.lookup id)
  | [], times, _ => rfl
  | row :: rows, times, h => by
    obtain ⟨hfresh, hnodup⟩ := List.nodup_cons.mp h
    rw [List.foldl_cons, lookup_readInstances id _ hnodup, List.find?_cons]
    unfold readInstance
    by_cases hnormal : row.resettime ≠ 0
    · rw [if_pos hnormal, SortedMap.lookup_insert]
      by_cases hid : row.id = id
      · have hnone : rows.find? (fun row => row.id = id ∧ row.resettime ≠ 0) = none := by
          refine List.find?_eq_none.mpr fun other hother heq => hfresh ?_
          rw [hid, ← (of_decide_eq_true heq).1]
          exact List.mem_map_of_mem hother
        rw [hnone, decide_eq_true ⟨hid, hnormal⟩, if_pos hid.symm]
        rfl
      · rw [decide_eq_false fun hboth => hid hboth.1, if_neg (Ne.symm hid)]
    · rw [if_neg hnormal, decide_eq_false fun hboth => hnormal hboth.2]

/-- Reading a row of the respawns changes the time of its instance only. -/
theorem lookup_readRespawn (times : InstResetTimes) (row : RespawnRow) (id : ℕ) :
    (readRespawn times row).lookup id = if id = row.instanceId then
      (times.lookup id).map fun x => (x.1, uint32 (row.time + 2 * HOUR))
    else times.lookup id := by
  unfold readRespawn
  by_cases hid : id = row.instanceId
  · subst hid
    rw [if_pos rfl]
    cases hlookup : times.lookup row.instanceId with
    | none =>
      rw [hlookup]
      rfl
    | some x =>
      obtain ⟨key, old⟩ := x
      dsimp only
      rw [Option.map_some]
      by_cases hsame : old = uint32 (row.time + 2 * HOUR)
      · rw [if_neg (not_not.mpr hsame), hlookup, ← hsame]
      · rw [if_pos hsame, SortedMap.lookup_insert, if_pos rfl]
  · rw [if_neg hid]
    cases hlookup : times.lookup row.instanceId with
    | none => rfl
    | some x =>
      dsimp only
      by_cases hsame : x.2 = uint32 (row.time + 2 * HOUR)
      · rw [if_neg (not_not.mpr hsame)]
      · rw [if_pos hsame, SortedMap.lookup_insert, if_neg hid]

/-- **The times of normal instances are those wanted.** -/
theorem lookup_instResetTimes (h : Loadable data db now) (id : ℕ) :
    (instResetTimes db).lookup id = (normalRow db id).map
      fun row => ((row.map, row.difficulty), wantedTime db row) := by
  have hread := lookup_readInstances id SortedMap.empty h.ids
  have hread : (db.instances.foldl readInstance SortedMap.empty).lookup id =
      (normalRow db id).map fun row => ((row.map, row.difficulty), (row.resettime : ℤ)) :=
    hread.trans Option.or_none
  unfold instResetTimes readRespawns
  cases hrespawns : db.respawns with
  | nil =>
    have hsame : (if db.instances.isEmpty = true then
        db.instances.foldl readInstance SortedMap.empty
      else ([].take 1).foldl readRespawn (db.instances.foldl readInstance SortedMap.empty)) =
        db.instances.foldl readInstance SortedMap.empty := by
      split
      · rfl
      · rfl
    rw [hsame, hread]
    congr 1
    funext row
    unfold wantedTime
    rw [hrespawns]
    rfl
  | cons r rs =>
    cases hrow : normalRow db id with
    | none =>
      rw [hrow] at hread
      split
      · exact hread
      · change (readRespawn _ r).lookup id = none
        rw [lookup_readRespawn, hread]
        split
        · rfl
        · rfl
    | some row =>
      obtain ⟨hmem, hid, hnormal⟩ := normalRow_spec hrow
      rw [hrow, Option.map_some] at hread
      have hsome : ¬ db.instances.isEmpty = true := by
        intro hempty
        rw [List.isEmpty_iff.mp hempty] at hmem
        cases hmem
      rw [if_neg hsome]
      change (readRespawn _ r).lookup id = some ((row.map, row.difficulty), wantedTime db row)
      rw [lookup_readRespawn, hread]
      unfold wantedTime
      rw [hrespawns, List.find?_cons]
      by_cases hfirst : id = r.instanceId
      · have hfits := h.fits r (by rw [hrespawns]; exact List.mem_cons_self) row hmem hnormal
          (hid.trans hfirst)
        have hpos : (0 : ℤ) ≤ r.time + 2 * HOUR := by
          unfold HOUR
          omega
        rw [if_pos hfirst, decide_eq_true (hfirst.symm.trans hid.symm), Option.map_some,
          uint32_of_lt hpos hfits]
      · rw [if_neg hfirst, decide_eq_false fun heq => hfirst (heq.trans hid).symm]
        cases hfind : rs.find? fun r => r.instanceId = row.id with
        | none => rfl
        | some other =>
          have hother : other.instanceId = row.id := of_decide_eq_true
            (List.find?_some (p := fun r : RespawnRow => decide (r.instanceId = row.id)) hfind)
          have hunread := h.unread other
            (by rw [hrespawns]; exact List.mem_of_find?_eq_some hfind) row hmem hnormal hother.symm
          dsimp only
          rw [hunread]

/-! ## 3. The queue is filled -/

theorem empty_good : Good [] empty fun _ => none :=
  ⟨⟨List.nodup_nil, fun _ _ => ⟨nofun, nofun⟩⟩,
    ⟨nofun, nofun, nofun, nofun, fun _ => le_refl _, nofun⟩, List.Pairwise.nil⟩

variable {keys : List MapDiff}

/-- The normal instances are scheduled, one after the other. -/
theorem Good.scheduleInstances (now : ℤ) : ∀ {xs : List (ℕ × MapDiff × ℤ)}
    {mgr : InstanceSaveManager} {schedule : Schedule}, Good keys mgr schedule →
    (xs.map Prod.fst).Nodup → (∀ x ∈ xs, (0 < x.1 ∧ x.1 < 2 ^ 16) ∧ now < x.2.2) →
    (∀ x ∈ xs, schedule x.1 = none) →
    Good keys (xs.foldl (scheduleInstance now) mgr) fun id =>
      ((xs.find? fun x => x.1 = id).map fun x => x.2.2).or (schedule id)
  | [], _, _, h, _, _, _ => h
  | x :: xs, mgr, schedule, h, hnodup, hfits, hfree => by
    obtain ⟨hfresh, hnodup⟩ := List.nodup_cons.mp hnodup
    obtain ⟨⟨⟨hpos, hsmall⟩, hdue⟩, hfits⟩ := List.forall_mem_cons.mp hfits
    obtain ⟨hnone, hfree⟩ := List.forall_mem_cons.mp hfree
    have hadded := h.addReset hpos hsmall hnone x.2.2 x.2.1.1 x.2.1.2
    have hstill : ∀ y ∈ xs, (schedule.put x.1 (some x.2.2)) y.1 = none := by
      intro y hy
      unfold Schedule.put
      rw [if_neg fun heq : y.1 = x.1 => hfresh (heq ▸ List.mem_map_of_mem hy)]
      exact hfree y hy
    have hrest := Good.scheduleInstances now hadded hnodup hfits hstill
    rw [List.foldl_cons, scheduleInstance, if_pos hdue]
    have hsame : (fun id => ((xs.find? fun y => y.1 = id).map fun y => y.2.2).or
          ((schedule.put x.1 (some x.2.2)) id)) =
        fun id => (((x :: xs).find? fun y => y.1 = id).map fun y => y.2.2).or (schedule id) := by
      funext id
      rw [List.find?_cons]
      unfold Schedule.put
      by_cases hid : id = x.1
      · have hnot : xs.find? (fun y => y.1 = id) = none := by
          refine List.find?_eq_none.mpr fun y hy heq => hfresh ?_
          rw [← hid, ← of_decide_eq_true heq]
          exact List.mem_map_of_mem hy
        rw [hnot, if_pos hid, decide_eq_true hid.symm]
        rfl
      · rw [if_neg hid, decide_eq_false fun heq => hid heq.symm]
    exact hsame ▸ hrest

/-- **The normal instances are scheduled** when they are wanted. -/
theorem scheduleInstances_wanted (h : Loadable data db now) :
    Good [] ((instResetTimes db).entries.foldl (scheduleInstance now) empty) (wanted db) := by
  have hentry : ∀ x ∈ (instResetTimes db).entries, ∃ row ∈ db.instances, row.id = x.1 ∧
      row.resettime ≠ 0 ∧ x.2.2 = wantedTime db row := by
    rintro ⟨id, key, t⟩ hx
    have hlookup := SortedMap.lookup_eq_some.mpr hx
    rw [lookup_instResetTimes h id] at hlookup
    obtain ⟨row, hrow, heq⟩ := Option.map_eq_some_iff.mp hlookup
    obtain ⟨hmem, hid, hnormal⟩ := normalRow_spec hrow
    exact ⟨row, hmem, hid, hnormal, (Prod.mk.inj heq).2.symm⟩
  have hgood := empty_good.scheduleInstances now (instResetTimes db).nodup_keys
    (fun x hx => by
      obtain ⟨row, hmem, hid, hnormal, htime⟩ := hentry x hx
      rw [← hid, htime]
      exact ⟨⟨h.pos row hmem, h.small row hmem hnormal⟩, h.due row hmem hnormal⟩)
    (fun _ _ => rfl)
  have hsame : (fun id => (((instResetTimes db).entries.find? fun x => x.1 = id).map
      fun x => x.2.2).or none) = wanted db := by
    funext id
    have hlookup := lookup_instResetTimes h id
    unfold SortedMap.lookup at hlookup
    have htimes := congrArg (Option.map Prod.snd) hlookup
    rw [Option.map_map, Option.map_map] at htimes
    rw [Option.or_none]
    exact htimes
  exact hsame ▸ hgood

/-- No global reset is performed when instances are scheduled. -/
theorem performed_scheduleInstances (now : ℤ) : ∀ (xs : List (ℕ × MapDiff × ℤ))
    (mgr : InstanceSaveManager), (xs.foldl (scheduleInstance now) mgr).performed = mgr.performed
  | [], _ => rfl
  | x :: xs, mgr => by
    rw [List.foldl_cons, performed_scheduleInstances now xs]
    unfold scheduleInstance
    split
    · rfl
    · rfl

theorem readReset_spec (data : MapData) (config : Config) (mgr : InstanceSaveManager)
    (row : ResetRow) :
    (readReset data config mgr row).resetTimeQueue = mgr.resetTimeQueue ∧
      (readReset data config mgr row).performed = mgr.performed ∧
        ((∀ key, 0 ≤ mgr.getResetTimeFor key) →
          ∀ key, 0 ≤ (readReset data config mgr row).getResetTimeFor key) := by
  unfold readReset
  split
  · exact ⟨rfl, rfl, id⟩
  · refine ⟨rfl, rfl, fun hnonneg key => ?_⟩
    have hdays : 0 ≤ (row.resettime : ℤ) / DAY * DAY :=
      Int.mul_nonneg (Int.ediv_nonneg (Int.natCast_nonneg _) (by decide)) (by decide)
    have hdiff := config.diff_nonneg
    by_cases hkey : key = (row.mapid, row.difficulty)
    · rw [hkey, setResetTimeFor_self]
      omega
    · rw [setResetTimeFor_other hkey]
      exact hnonneg key

variable {schedule : Schedule}

/-- The stored global resets are read before any global event is scheduled. -/
theorem Good.readResets (data : MapData) (config : Config) :
    ∀ (rows : List ResetRow) {mgr : InstanceSaveManager}, Good [] mgr schedule →
    mgr.performed = [] →
    Good [] (rows.foldl (readReset data config) mgr) schedule ∧
      (rows.foldl (readReset data config) mgr).performed = []
  | [], _, h, hperformed => ⟨h, hperformed⟩
  | row :: rows, mgr, h, hperformed => by
    obtain ⟨hqueue, hsame, hnonneg⟩ := readReset_spec data config mgr row
    refine Good.readResets data config rows ⟨hqueue ▸ h.implements, ⟨?_, ?_, nofun, ?_, ?_, ?_⟩,
      hqueue ▸ h.inTime⟩ (hsame.trans hperformed)
    · rw [hqueue]
      exact h.governed.events
    · rw [hqueue]
      exact h.governed.small
    · rw [hqueue]
      intro x hx htype
      cases (h.governed.type_ne hx htype).key
    · exact hnonneg h.governed.nonneg
    · rw [hsame, hperformed]
      nofun

/-! ## 4. The global events -/

theorem globalReset_nonneg (config : Config) (hnow : 0 ≤ now) {stored : ℤ} (hstored : 0 ≤ stored)
    (resetTime : ℕ) : 0 ≤ globalReset config now stored resetTime := by
  have hperiod : 0 ≤ config.period resetTime :=
    le_trans (by decide) (config.day_le_period resetTime)
  have hdiff := config.diff_nonneg
  have hday : ∀ t : ℤ, 0 ≤ t → 0 ≤ t / DAY * DAY := fun t ht =>
    Int.mul_nonneg (Int.ediv_nonneg ht (by decide)) (by decide)
  unfold globalReset
  dsimp only
  have htime : 0 ≤ if stored = 0 then now / DAY * DAY + config.period resetTime + config.diff
      else stored := by
    have htoday := hday now hnow
    split <;> omega
  generalize (if stored = 0 then now / DAY * DAY + config.period resetTime + config.diff
    else stored) = t at *
  split
  · rename_i hless
    have hmono : t / DAY * DAY ≤ now / DAY * DAY :=
      Int.mul_le_mul_of_nonneg_right (Int.ediv_le_ediv (by decide) (le_of_lt hless)) (by decide)
    have hturns : 0 ≤ (now / DAY * DAY - t / DAY * DAY) / config.period resetTime :=
      Int.ediv_nonneg (by omega) hperiod
    have hadded := Int.mul_nonneg (Int.le_add_one hturns) hperiod
    have hstart := hday t htime
    omega
  · exact htime

theorem firstType_bounds (now t : ℤ) : 1 ≤ firstType now t ∧ firstType now t ≤ 4 := by
  unfold firstType
  split
  · decide
  · split
    · decide
    · split
      · decide
      · decide

/-- **A global event is scheduled** for a map and difficulty that had none. -/
theorem Good.addGlobal (h : Good keys mgr schedule) {key : MapDiff} (hfresh : key ∉ keys)
    (hsmall : key.1 < 2 ^ 16 ∧ key.2 < 2 ^ 8) (hperformed : mgr.performed = []) {t : ℤ}
    (hnonneg : 0 ≤ t) {type : ℕ} (hone : 1 ≤ type) (hfour : type ≤ 4) :
    Good (keys ++ [key]) ((mgr.setResetTimeFor key t).addReset (t - resetTimeDelay type)
      (InstResetEvent.make type key.1 key.2 0)) schedule := by
  have hmake : InstResetEvent.make type key.1 key.2 0 = ⟨type, key.1, key.2, 0⟩ := by
    unfold InstResetEvent.make
    rw [Nat.mod_eq_of_lt hsmall.1, Nat.mod_eq_of_lt hsmall.2, Nat.mod_eq_of_lt (by omega)]
    rfl
  rw [hmake]
  have hglobal : IsGlobalEvent (keys ++ [key]) ⟨type, key.1, key.2, 0⟩ :=
    ⟨hone, hfour, rfl, List.mem_append_right _ (List.mem_singleton.mpr rfl)⟩
  have hkey : (⟨type, key.1, key.2, 0⟩ : InstResetEvent).key = key := rfl
  have htype : (⟨type, key.1, key.2, 0⟩ : InstResetEvent).type = type := rfl
  have hdelay := resetTimeDelay_bounds type
  generalize (⟨type, key.1, key.2, 0⟩ : InstResetEvent) = event at *
  have hperm := enqueue_perm (t - resetTimeDelay type) event mgr.resetTimeQueue
  refine ⟨h.implements.of_perm ?_, ⟨fun x hx => ?_, fun x hx => ?_, fun other hother => ?_,
    fun x hx hxtype => ?_, fun other => ?_, ?_⟩, h.inTime.enqueue _ event⟩
  · refine (individuals_perm hperm).trans ?_
    rw [individuals_cons_of_ne hglobal.type_ne]
  · rcases mem_enqueue.mp hx with rfl | hx
    · exact Or.inr hglobal
    · exact (h.governed.events x hx).imp_right fun hold =>
        ⟨hold.one_le, hold.le_four, hold.instanceId, List.mem_append_left _ hold.key⟩
  · rcases mem_enqueue.mp hx with rfl | hx
    · exact hglobal.instanceId.trans_lt (by decide)
    · exact h.governed.small x hx
  · refine (hperm.countP_eq _).trans ?_
    rw [List.countP_cons]
    rcases List.mem_append.mp hother with hold | hnew
    · rw [h.governed.one other hold, if_neg]
      intro hboth
      have hsame : event.key = other := (of_decide_eq_true hboth).2
      exact hfresh (hkey.symm.trans hsame ▸ hold)
    · have hnewGlobal : isGlobal key (t - resetTimeDelay type, event) = true :=
        decide_eq_true ⟨hglobal.instanceId, hkey⟩
      rw [List.mem_singleton.mp hnew, if_pos hnewGlobal]
      have hzero : mgr.resetTimeQueue.countP (isGlobal key) = 0 := by
        refine List.countP_eq_zero.mpr fun x hx hboth => ?_
        obtain ⟨hid, hxkey⟩ := of_decide_eq_true hboth
        rcases h.governed.events x hx with hsingle | hold
        · exact hsingle.2 hid
        · exact hfresh (hxkey ▸ hold.key)
      omega
  · rcases mem_enqueue.mp hx with rfl | hx
    · have htime : (mgr.setResetTimeFor key t).getResetTimeFor event.key = t := by
        rw [hkey, setResetTimeFor_self]
      refine htime.trans_le ?_
      omega
    · have hne : x.2.key ≠ key := fun heq => hfresh (heq ▸ (h.governed.type_ne hx hxtype).key)
      exact (setResetTimeFor_other hne t).trans_le (h.governed.near x hx hxtype)
  · by_cases hsame : other = key
    · exact hnonneg.trans_eq (hsame ▸ (setResetTimeFor_self key t).symm)
    · exact (h.governed.nonneg other).trans_eq (setResetTimeFor_other hsame t).symm
  · intro r hr
    change r ∈ mgr.performed at hr
    rw [hperformed] at hr
    cases hr

/-- One map and difficulty gets its global event, if it has a reset period. -/
theorem Good.scheduleGlobal (h : Good keys mgr schedule) (config : Config) {x : MapDiff × ℕ}
    (hfresh : x.1 ∉ keys) (hsmall : x.1.1 < 2 ^ 16 ∧ x.1.2 < 2 ^ 8)
    (hperformed : mgr.performed = []) (hnow : 0 ≤ now)
    (hsingle : x.2 ≠ 0 → resetInstances db x.1 = []) :
    Good (if x.2 = 0 then keys else keys ++ [x.1]) (scheduleGlobal db config now mgr x) schedule ∧
      (scheduleGlobal db config now mgr x).performed = [] := by
  unfold InstanceSaveManager.scheduleGlobal
  by_cases hperiod : x.2 = 0
  · rw [if_pos hperiod, if_pos hperiod]
    exact ⟨h, hperformed⟩
  · rw [if_neg hperiod, if_neg hperiod]
    rw [hsingle hperiod]
    obtain ⟨hone, hfour⟩ :=
      firstType_bounds now (globalReset config now (mgr.getResetTimeFor x.1) x.2)
    exact ⟨h.addGlobal hfresh hsmall hperformed
      (globalReset_nonneg config hnow (h.governed.nonneg x.1) x.2) hone hfour, hperformed⟩

/-- The maps and difficulties get their global events, one after the other. -/
theorem Good.scheduleGlobals (hnow : 0 ≤ now) :
    ∀ {xs : List (MapDiff × ℕ)} {keys : List MapDiff} {mgr : InstanceSaveManager},
      Good keys mgr schedule → mgr.performed = [] → (xs.map Prod.fst).Nodup →
      (∀ x ∈ xs, x.1 ∉ keys) → (∀ x ∈ xs, x.1.1 < 2 ^ 16 ∧ x.1.2 < 2 ^ 8) →
      (∀ x ∈ xs, x.2 ≠ 0 → resetInstances db x.1 = []) →
      Good (keys ++ (xs.filter fun x => x.2 ≠ 0).map Prod.fst)
        (xs.foldl (InstanceSaveManager.scheduleGlobal db config now) mgr) schedule
  | [], keys, mgr, h, _, _, _, _, _ => (List.append_nil keys).symm ▸ h
  | x :: xs, keys, mgr, h, hperformed, hnodup, hfresh, hsmall, hsingle => by
    obtain ⟨hx, hnodup⟩ := List.nodup_cons.mp hnodup
    obtain ⟨hxfresh, hfresh⟩ := List.forall_mem_cons.mp hfresh
    obtain ⟨hxsmall, hsmall⟩ := List.forall_mem_cons.mp hsmall
    obtain ⟨hxsingle, hsingle⟩ := List.forall_mem_cons.mp hsingle
    obtain ⟨hstep, hstill⟩ := h.scheduleGlobal config hxfresh hxsmall hperformed hnow
      hxsingle
    rw [List.foldl_cons]
    by_cases hperiod : x.2 = 0
    · rw [if_pos hperiod] at hstep
      rw [List.filter_cons_of_neg (by simpa using hperiod)]
      exact Good.scheduleGlobals hnow hstep hstill hnodup hfresh hsmall hsingle
    · rw [if_neg hperiod] at hstep
      rw [List.filter_cons_of_pos (by simpa using hperiod), List.map_cons]
      have hrest : ∀ y ∈ xs, y.1 ∉ keys ++ [x.1] := by
        intro y hy hmem
        rcases List.mem_append.mp hmem with hold | hnew
        · exact hfresh y hy hold
        · exact hx (List.mem_singleton.mp hnew ▸ List.mem_map_of_mem hy)
      have hgood := Good.scheduleGlobals hnow hstep hstill hnodup hrest hsmall hsingle
      rw [List.append_assoc] at hgood
      exact hgood

/-- **LoadResetTimes** schedules the normal instances as wanted, and a global event for every map
and difficulty with a reset period. -/
theorem loadResetTimes_good (h : Loadable data db now) (hnow : 0 ≤ now) :
    Good data.periodic (loadResetTimes data config db now) (wanted db) := by
  obtain ⟨hgood, hperformed⟩ := (scheduleInstances_wanted h).readResets data config db.resets
    (performed_scheduleInstances now _ _)
  refine hgood.scheduleGlobals hnow hperformed data.keys (fun _ _ => List.not_mem_nil) data.small
    fun x hx hperiod => ?_
  unfold resetInstances
  rw [List.map_eq_nil_iff, List.filter_eq_nil_iff]
  intro row hrow hboth
  obtain ⟨hnormal, hkey⟩ := of_decide_eq_true hboth
  exact h.single row hrow hnormal
    (hkey ▸ List.mem_map_of_mem (List.mem_filter.mpr ⟨hx, decide_eq_true hperiod⟩))

/-! ## 5. Runs -/

/-- The manager takes a step, and the schedule it is to follow. -/
def follow (data : MapData) (config : Config) (s : InstanceSaveManager × Schedule) (op : Op) :
    InstanceSaveManager × Schedule :=
  ((step data config s.1 op).1, scheduleStep data s.1 s.2 op)

def start (data : MapData) (config : Config) (db : Database) (now : ℤ) :
    InstanceSaveManager × Schedule :=
  (loadResetTimes data config db now, wanted db)

/-- The instance has an event, at the time. -/
def Pending (mgr : InstanceSaveManager) (id : ℕ) (t : ℤ) : Prop :=
  (id, t) ∈ individuals mgr.resetTimeQueue

instance (mgr : InstanceSaveManager) (id : ℕ) (t : ℤ) : Decidable (Pending mgr id t) :=
  inferInstanceAs (Decidable (_ ∈ _))

/-- An Update ends, and resets no instance but those it is time for. -/
def UpdateSound (data : MapData) (config : Config) (mgr : InstanceSaveManager)
    (schedule : Schedule) (now : ℤ) : Prop :=
  (mgr.update data config now).1.updateTurn data config now = none ∧
    ∀ id ∈ (mgr.update data config now).2, ∃ t, schedule id = some t ∧ t < now

/-- ScheduleReset(false, …) takes out the event of the instance, and no other. -/
def RemovesOwn (mgr : InstanceSaveManager) : Prop :=
  ∀ time mapid difficulty id, 0 < id → id < 2 ^ 16 → ∀ x,
    x ∈ (mgr.removeReset time (InstResetEvent.make 0 mapid difficulty id)).resetTimeQueue ↔
      x ∈ mgr.resetTimeQueue ∧ x.2.instanceId ≠ id

/-- There is one global event, and the reset it leads to is after those performed. -/
structure GlobalsSound (data : MapData) (mgr : InstanceSaveManager) : Prop where
  one : ∀ key ∈ data.periodic, mgr.resetTimeQueue.countP (isGlobal key) = 1
  after : ∀ r ∈ mgr.performed, r.2 < mgr.getResetTimeFor r.1

theorem Good.removesOwn (h : Good keys mgr schedule) : RemovesOwn mgr := by
  intro time mapid difficulty id hpos hsmall
  have hid : (InstResetEvent.make 0 mapid difficulty id).instanceId = id := Nat.mod_eq_of_lt hsmall
  have hremoved := (h.removeReset (InstResetEvent.make 0 mapid difficulty id)
    (by rw [hid]; omega) time).2
  rw [hid] at hremoved
  exact hremoved

theorem wanted_of_mem (h : Loadable data db now) {row : InstanceRow} (hrow : row ∈ db.instances)
    (hnormal : row.resettime ≠ 0) : wanted db row.id = some (wantedTime db row) := by
  unfold wanted
  cases hfind : normalRow db row.id with
  | none => exact absurd (decide_eq_true ⟨rfl, hnormal⟩) (List.find?_eq_none.mp hfind row hrow)
  | some other =>
    obtain ⟨hother, hid, -⟩ := normalRow_spec hfind
    rw [List.inj_on_of_nodup_map h.ids hother hrow hid]
    rfl

/-- **Resets are as scheduled** in every run whose operations are allowed, from rows that can be
loaded.  Normal instances are scheduled at the times wanted; afterwards the events of instances
are the schedule; and in every state an Update ends and resets just what is due, a removal takes
out the event of its instance only, and the global events are sound. -/
theorem resets_sound (data : MapData) (config : Config) (db : Database) {now : ℤ} (hnow : 0 ≤ now)
    (h : Loadable data db now) (ops : List Op)
    (hops : Along (follow data config) (fun s op => Allowed data config s.1 op)
      (start data config db now) ops) :
    (∀ row ∈ db.instances, row.resettime ≠ 0 →
      Pending (loadResetTimes data config db now) row.id (wantedTime db row)) ∧
    let s := exec (follow data config) (start data config db now) ops
    Implements s.1.resetTimeQueue s.2 ∧ GlobalsSound data s.1 ∧ RemovesOwn s.1 ∧
      ∀ now', FitsClock data config now' → UpdateSound data config s.1 s.2 now' := by
  have hstart : Good data.periodic (start data config db now).1 (start data config db now).2 :=
    loadResetTimes_good h hnow
  have hstep : ∀ (s : InstanceSaveManager × Schedule) op, Good data.periodic s.1 s.2 →
      Allowed data config s.1 op →
      Good data.periodic (follow data config s op).1 (follow data config s op).2 :=
    fun _ _ hgood hallowed => hgood.step hallowed
  have hgood := exec_invariant hstep hstart hops
  refine ⟨fun row hrow hnormal => (hstart.implements.mem _ _).mpr (wanted_of_mem h hrow hnormal),
    hgood.implements, ⟨hgood.governed.one, hgood.governed.after⟩, hgood.removesOwn,
    fun now' hclock => ?_⟩
  obtain ⟨hends, -, hresets⟩ := hgood.updateLoop hclock (le_refl _)
  exact ⟨hends, hresets⟩

/-- A dungeon with a normal and a heroic difficulty, which is reset every day. -/
def dungeon : MapData where
  lookupEntry mapid := if mapid = 33 then some ⟨true, false⟩ else none
  mapDifficultyMap := [((33, 0), 0), ((33, 1), 86400)]
  keys := by decide
  small := by decide
  dungeons := by decide

def daily : Config := ⟨4, id⟩

/-- One normal instance, whose creatures respawn within the hour. -/
def oneInstance : Database := ⟨[⟨5, 33, 0, 100000⟩], [⟨100000, 5⟩], []⟩

theorem oneInstance_loadable : Loadable dungeon oneInstance 90000 where
  ids := List.nodup_singleton _
  pos := by decide
  small := by decide
  single := by decide
  due := by decide
  fits := by decide
  unread := by decide

/-- An instance is added, and both are reset in time. -/
def twoResets : List Op :=
  [.addInstanceSave 33 6 0 0 95000, .update 103000, .scheduleReset false 0 33 0 5, .update 200000]

theorem resets_sound_two :
    GlobalsSound dungeon
      (exec (follow dungeon daily) (start dungeon daily oneInstance 90000) twoResets).1 :=
  (resets_sound dungeon daily oneInstance (by decide) oneInstance_loadable
    twoResets (by decide +kernel)).2.2.1

/-- Two normal instances with rows of respawns. -/
def twoInstances : Database :=
  ⟨[⟨5, 33, 0, 100000⟩, ⟨6, 33, 0, 100000⟩], [⟨110000, 5⟩, ⟨110000, 6⟩], []⟩

/-- **A new instance's reset is that of another**, whose id is the same in 16 bits; and the second
row of the respawns is not read. -/
theorem resets_other :
    (∃ id ∈ ((exec (follow dungeon daily) (start dungeon daily ⟨[], [], []⟩ 90000)
          [.addInstanceSave 33 65541 0 0 95000]).1.update dungeon daily 200000).2,
        (exec (follow dungeon daily) (start dungeon daily ⟨[], [], []⟩ 90000)
          [.addInstanceSave 33 65541 0 0 95000]).2 id = none) ∧
      ¬ Pending (loadResetTimes dungeon daily twoInstances 90000) 6
        (wantedTime twoInstances ⟨6, 33, 0, 100000⟩) := by
  refine ⟨⟨5, ?_, ?_⟩, ?_⟩
  · decide +kernel
  · decide +kernel
  · decide +kernel

end HungerGames.Resets
