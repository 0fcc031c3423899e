/-
# Instance ids

The map manager numbers the instances: a bit for each id that is in use, and the lowest id that
is not.  At start-up the ids of the database are registered; later ids are generated for new
instances and freed when an instance goes.

The vector of bits is made of multiples of 32 by a rounding that leaves a multiple of 32 as it
is, so the bit of such an id lies outside (`registered_outside`).  The lowest id is one of them
whenever the vector is full up to its capacity.  How the capacity grows is a parameter.

* `Sound`: the bits are those of the ids in use, `_nextInstanceId` is the lowest other one;
* `Fits`: the condition under which an operation stays inside the vector;
* `instance_ids_sound`: over every run that meets it, from every set of rows.
-/
import HungerGames.System.Run
import HungerGames.System.Bits
import Mathlib.Algebra.Group.Nat.Defs

namespace HungerGames.Instances

open HungerGames.System

/-! ## 1. The map manager -/

structure MapManager where
  instanceIds : Bits
  nextInstanceId : ℕ
  /-- `World::StopNow` has been called. -/
  stopped : Bool

/-- The size for an id, "a multiple of 32", in 32 bits. -/
def roundedSize (instanceId : ℕ) : ℕ :=
  (instanceId / 32 * 32 + if 0 < instanceId % 32 then 32 else 0) % 2 ^ 32

namespace MapManager

def new : MapManager := ⟨Bits.empty, 0, false⟩

/-- `InitInstanceIds`, where `maxId` is what `SELECT MAX(id)` returns, 0 without rows. -/
def initInstanceIds (grow : ℕ → ℕ → ℕ) (m : MapManager) (maxId : ℕ) : MapManager :=
  { m with nextInstanceId := 1, instanceIds := m.instanceIds.resize grow (roundedSize maxId) }

/-- `none` when the bit is outside the vector. -/
def registerInstanceId (m : MapManager) (instanceId : ℕ) : Option MapManager :=
  (m.instanceIds.write instanceId true).map fun ids => { m with instanceIds := ids }

/-- The search of `GenerateInstanceId`, for a number of turns from an id on. -/
def searchFree (ids : Bits) : ℕ → ℕ → Option ℕ
  | 0, _ => none
  | turns + 1, i =>
    if i < ids.size ∧ ids.read i = some false ∨ ids.size ≤ i then some i
    else searchFree ids turns (i + 1)

/-- The vector with space for a new id. -/
def allocated (grow : ℕ → ℕ → ℕ) (ids : Bits) (newInstanceId : ℕ) : Bits :=
  if ids.size % 2 ^ 32 ≤ newInstanceId then
    -- the size is matched to the capacity before anything is moved
    if ids.size < ids.capacity then ids.resize grow ids.capacity
    else ids.resize grow (roundedSize newInstanceId)
  else ids

def generateInstanceId (grow : ℕ → ℕ → ℕ) (m : MapManager) : Option (ℕ × MapManager) :=
  let newInstanceId := m.nextInstanceId
  let first := (m.nextInstanceId + 1) % 2 ^ 32
  -- when the search finds nothing, the increment is what remains
  let next := (searchFree m.instanceIds (0xFFFFFFFF - first) first).getD first
  let stopped := m.stopped || newInstanceId == next
  ((allocated grow m.instanceIds newInstanceId).write newInstanceId true).map fun ids =>
    (newInstanceId, ⟨ids, next, stopped⟩)

def freeInstanceId (m : MapManager) (instanceId : ℕ) : Option MapManager :=
  let next := if instanceId < m.nextInstanceId then instanceId else m.nextInstanceId
  (m.instanceIds.write instanceId false).map fun ids =>
    { m with instanceIds := ids, nextInstanceId := next }

/-- What `LoadResetTimes` does with the id of a row. -/
def loadInstanceId (m : MapManager) (instanceId : ℕ) : Option MapManager :=
  let next := if m.nextInstanceId = instanceId then (instanceId + 1) % 2 ^ 32 else m.nextInstanceId
  { m with nextInstanceId := next }.registerInstanceId instanceId

end MapManager

/-- The ids of the rows of `instance`, `ORDER BY id ASC`. -/
structure InstanceRows where
  ids : List ℕ
  ascending : ids.Pairwise (· < ·)
  uint32 : ∀ id ∈ ids, id < 2 ^ 32

def InstanceRows.maxId (rows : InstanceRows) : ℕ := rows.ids.getLast?.getD 0

/-! ## 2. The ids in use -/

/-- The manager and the ids in use: registered or generated, and not freed since. -/
structure State where
  manager : MapManager
  inUse : Finset ℕ

def State.load (s : State) (instanceId : ℕ) : Option State :=
  (s.manager.loadInstanceId instanceId).map fun m => ⟨m, insert instanceId s.inUse⟩

/-- The start of the server. -/
def start (grow : ℕ → ℕ → ℕ) (rows : InstanceRows) : Option State :=
  rows.ids.foldlM State.load ⟨MapManager.new.initInstanceIds grow rows.maxId, ∅⟩

inductive Operation
  | generate
  | free (instanceId : ℕ)

/-- One operation; there is no next state once a bit outside the vector has been written. -/
def State.perform (grow : ℕ → ℕ → ℕ) (s : State) : Operation → Option State
  | .generate =>
    (s.manager.generateInstanceId grow).map fun (id, m) => ⟨m, insert id s.inUse⟩
  | .free id => (s.manager.freeInstanceId id).map fun m => ⟨m, s.inUse.erase id⟩

def step (grow : ℕ → ℕ → ℕ) (s : Option State) (op : Operation) : Option State :=
  s.bind fun s => s.perform grow op

/-- **The ids are sound**: the bits that are on are the ids in use, and `_nextInstanceId` is the
lowest other id from 1 on. -/
structure Sound (s : State) : Prop where
  marked : s.manager.instanceIds.Marked s.inUse
  next_pos : 0 < s.manager.nextInstanceId
  next_free : s.manager.nextInstanceId ∉ s.inUse
  next_lowest : ∀ id, 0 < id → id ∉ s.inUse → s.manager.nextInstanceId ≤ id
  next_uint32 : s.manager.nextInstanceId < 2 ^ 32
  unallocated : s.manager.instanceIds.size = 0 → s.manager.instanceIds.capacity = 0

/-! ## 3. The parts of an operation -/

/-- The search finds the lowest free id from where it starts. -/
theorem searchFree_spec {ids : Bits} {marks : Finset ℕ} (h : ids.Marked marks) :
    ∀ {turns i : ℕ}, (∃ id, i ≤ id ∧ id < i + turns ∧ id ∉ marks) →
      ∃ j, MapManager.searchFree ids turns i = some j ∧ i ≤ j ∧ j < i + turns ∧ j ∉ marks ∧
        ∀ id, i ≤ id → id ∉ marks → j ≤ id
  | 0, i, hfree => by
    obtain ⟨id, hle, hlt, -⟩ := hfree
    omega
  | turns + 1, i, hfree => by
    unfold MapManager.searchFree
    by_cases hi : i ∈ marks
    · rw [if_neg fun hcond => (h.free_iff i).mp hcond hi]
      have hlater : ∃ id, i + 1 ≤ id ∧ id < i + 1 + turns ∧ id ∉ marks := by
        obtain ⟨id, hle, hlt, hid⟩ := hfree
        have hne : i ≠ id := fun heq => hid (heq ▸ hi)
        exact ⟨id, by omega, by omega, hid⟩
      obtain ⟨j, hsearch, hle, hlt, hj, hlowest⟩ := searchFree_spec h hlater
      refine ⟨j, hsearch, by omega, by omega, hj, fun id hid hnot => hlowest id ?_ hnot⟩
      have hne : i ≠ id := fun heq => hnot (heq ▸ hi)
      omega
    · rw [if_pos ((h.free_iff i).mpr hi)]
      exact ⟨i, rfl, le_refl i, by omega, hi, fun id hid _ => hid⟩

theorem roundedSize_lt {instanceId : ℕ} (hmod : instanceId % 32 ≠ 0)
    (hlt : instanceId < 2 ^ 32 - 32) : instanceId < roundedSize instanceId := by
  unfold roundedSize
  rw [if_pos (Nat.pos_of_ne_zero hmod)]
  omega

variable {s : State}

/-- The lowest free id is at most the size, once the vector has one. -/
theorem Sound.next_le_size (h : Sound s) (hsize : 0 < s.manager.instanceIds.size) :
    s.manager.nextInstanceId ≤ s.manager.instanceIds.size :=
  h.next_lowest _ hsize fun hmem => lt_irrefl _ (h.marked.lt_size hmem)

/-- There is room for the lowest free id: in the vector, in its capacity, or because the
rounding makes some. -/
def HasRoom (m : MapManager) : Prop :=
  m.instanceIds.size < 2 ^ 32 ∧
    (m.nextInstanceId < m.instanceIds.size ∨ m.instanceIds.size < m.instanceIds.capacity ∨
      m.nextInstanceId % 32 ≠ 0 ∧ m.nextInstanceId < 2 ^ 32 - 32)

instance (m : MapManager) : Decidable (HasRoom m) := inferInstanceAs (Decidable (_ ∧ _))

/-- The vector with space for the lowest free id. -/
theorem Sound.allocated (h : Sound s) (grow : ℕ → ℕ → ℕ) (hroom : HasRoom s.manager) :
    (MapManager.allocated grow s.manager.instanceIds s.manager.nextInstanceId).Marked s.inUse ∧
      s.manager.nextInstanceId <
        (MapManager.allocated grow s.manager.instanceIds s.manager.nextInstanceId).size := by
  obtain ⟨hsize, hroom⟩ := hroom
  unfold MapManager.allocated
  rw [Nat.mod_eq_of_lt hsize]
  by_cases hfull : s.manager.instanceIds.size ≤ s.manager.nextInstanceId
  · rw [if_pos hfull]
    by_cases hcapacity : s.manager.instanceIds.size < s.manager.instanceIds.capacity
    · rw [if_pos hcapacity]
      refine ⟨h.marked.resize grow (le_of_lt hcapacity), ?_⟩
      rw [Bits.size_resize]
      have hpos : 0 < s.manager.instanceIds.size := by
        refine Nat.pos_of_ne_zero fun hzero => ?_
        have hnone := h.unallocated hzero
        omega
      exact lt_of_le_of_lt (h.next_le_size hpos) hcapacity
    · rw [if_neg hcapacity]
      have hrounded : s.manager.nextInstanceId < roundedSize s.manager.nextInstanceId := by
        rcases hroom with hroom | hroom | ⟨hmod, hlt⟩
        · omega
        · exact absurd hroom hcapacity
        · exact roundedSize_lt hmod hlt
      refine ⟨h.marked.resize grow (by omega), ?_⟩
      rw [Bits.size_resize]
      exact hrounded
  · rw [if_neg hfull]
    exact ⟨h.marked, not_le.mp hfull⟩

/-! ## 4. Generating, freeing and loading -/

/-- What an id that is generated must be. -/
def Generates (grow : ℕ → ℕ → ℕ) (s s' : State) : Prop :=
  ∃ id, s.manager.generateInstanceId grow = some (id, s'.manager) ∧ id ≠ 0 ∧ id ∉ s.inUse ∧
    s'.manager.instanceIds.read id = some true ∧ s'.inUse = insert id s.inUse

theorem Sound.generate (h : Sound s) (grow : ℕ → ℕ → ℕ) (hroom : HasRoom s.manager)
    (hfree : ∃ id, s.manager.nextInstanceId < id ∧ id < 0xFFFFFFFF ∧ id ∉ s.inUse) :
    ∃ s', s.perform grow .generate = some s' ∧ Generates grow s s' ∧ Sound s' := by
  obtain ⟨hmarked, hinside⟩ := h.allocated grow hroom
  obtain ⟨ids, hwrite⟩ := Bits.write_of_lt true hinside
  have hfirst : (s.manager.nextInstanceId + 1) % 2 ^ 32 = s.manager.nextInstanceId + 1 := by
    obtain ⟨id, hlt, hbound, -⟩ := hfree
    exact Nat.mod_eq_of_lt (by omega)
  have hsearch : ∃ id, s.manager.nextInstanceId + 1 ≤ id ∧
      id < s.manager.nextInstanceId + 1 + (0xFFFFFFFF - (s.manager.nextInstanceId + 1)) ∧
        id ∉ s.inUse := by
    obtain ⟨id, hlt, hbound, hid⟩ := hfree
    exact ⟨id, hlt, by omega, hid⟩
  obtain ⟨next, hnext, hle, hlt, hnot, hlowest⟩ := searchFree_spec h.marked hsearch
  have hgenerate : s.manager.generateInstanceId grow = some (s.manager.nextInstanceId,
      ⟨ids, next, s.manager.stopped || s.manager.nextInstanceId == next⟩) := by
    unfold MapManager.generateInstanceId
    dsimp only
    rw [hfirst, hnext, hwrite]
    rfl
  have hread : ids.read s.manager.nextInstanceId = some true := by
    rw [Bits.read_write hwrite, if_pos rfl]
  refine ⟨⟨_, insert s.manager.nextInstanceId s.inUse⟩, ?_,
    ⟨_, hgenerate, Nat.ne_of_gt h.next_pos, h.next_free, hread, rfl⟩, ?_⟩
  · unfold State.perform
    rw [hgenerate]
    rfl
  · refine ⟨hmarked.mark hwrite, by dsimp only; omega, ?_, ?_, by dsimp only; omega, ?_⟩
    · intro hmem
      rcases Finset.mem_insert.mp hmem with heq | hmem
      · dsimp only at heq
        omega
      · exact hnot hmem
    · intro id hpos hid
      obtain ⟨hne, hid⟩ := not_or.mp fun hor => hid (Finset.mem_insert.mpr hor)
      have hge := h.next_lowest id hpos hid
      exact hlowest id (by omega) hid
    · intro hzero
      have hlt' := Bits.read_lt hread
      dsimp only at hzero
      omega

theorem Sound.free (h : Sound s) (grow : ℕ → ℕ → ℕ) {id : ℕ} (hid : id ∈ s.inUse) (hpos : id ≠ 0) :
    ∃ s', s.perform grow (.free id) = some s' ∧ Sound s' := by
  obtain ⟨ids, hwrite⟩ := Bits.write_of_lt false (h.marked.lt_size hid)
  refine ⟨⟨⟨ids, if id < s.manager.nextInstanceId then id else s.manager.nextInstanceId,
    s.manager.stopped⟩, s.inUse.erase id⟩, ?_, ?_⟩
  · unfold State.perform MapManager.freeInstanceId
    dsimp only
    rw [hwrite]
    rfl
  · obtain ⟨hsize, hcapacity⟩ := Bits.size_write hwrite
    have hnext := h.next_pos
    have huint32 := h.next_uint32
    refine ⟨h.marked.unmark hwrite, ?_, ?_, ?_, ?_, ?_⟩
    · dsimp only
      split
      · omega
      · exact hnext
    · dsimp only
      split
      · exact Finset.notMem_erase id s.inUse
      · exact fun hmem => h.next_free (Finset.mem_of_mem_erase hmem)
    · intro j hj hnot
      dsimp only
      by_cases hjid : j = id
      · split
        · omega
        · omega
      · have hlowest := h.next_lowest j hj fun hmem =>
          hnot (Finset.mem_erase.mpr ⟨hjid, hmem⟩)
        split
        · omega
        · exact hlowest
    · dsimp only
      split
      · omega
      · exact huint32
    · rw [hsize, hcapacity]
      exact h.unallocated

/-- A row whose id is above the ids before it. -/
theorem Sound.load (h : Sound s) {id : ℕ} (hbefore : ∀ j ∈ s.inUse, j < id)
    (hid : id < s.manager.instanceIds.size) (hlt : id + 1 < 2 ^ 32) :
    ∃ s', s.load id = some s' ∧ Sound s' ∧ s'.inUse = insert id s.inUse ∧
      s'.manager.instanceIds.size = s.manager.instanceIds.size := by
  obtain ⟨ids, hwrite⟩ := Bits.write_of_lt true hid
  have hmod : (id + 1) % 2 ^ 32 = id + 1 := Nat.mod_eq_of_lt hlt
  refine ⟨⟨⟨ids, if s.manager.nextInstanceId = id then id + 1 else s.manager.nextInstanceId,
    s.manager.stopped⟩, insert id s.inUse⟩, ?_, ?_, rfl, (Bits.size_write hwrite).1⟩
  · unfold State.load MapManager.loadInstanceId MapManager.registerInstanceId
    dsimp only
    rw [hwrite, hmod]
    rfl
  · have hnext := h.next_pos
    have huint32 := h.next_uint32
    refine ⟨h.marked.mark hwrite, ?_, ?_, ?_, ?_, ?_⟩
    · dsimp only
      split
      · omega
      · exact hnext
    · intro hmem
      dsimp only at hmem
      split at hmem
      · rcases Finset.mem_insert.mp hmem with heq | hmem
        · omega
        · have hless := hbefore _ hmem
          omega
      · rename_i hne
        exact h.next_free ((Finset.mem_insert.mp hmem).resolve_left hne)
    · intro j hj hnot
      obtain ⟨hne, hnot⟩ := not_or.mp fun hor => hnot (Finset.mem_insert.mpr hor)
      have hlowest := h.next_lowest j hj hnot
      dsimp only
      split
      · omega
      · exact hlowest
    · dsimp only
      split
      · exact hlt
      · exact huint32
    · obtain ⟨hsize, hcapacity⟩ := Bits.size_write hwrite
      intro hzero
      rw [hsize] at hzero
      omega

/-- All rows, in their order. -/
theorem Sound.loadAll : ∀ {ids : List ℕ} {s : State}, Sound s → ids.Pairwise (· < ·) →
    (∀ id ∈ ids, ∀ j ∈ s.inUse, j < id) →
    (∀ id ∈ ids, id < s.manager.instanceIds.size ∧ id + 1 < 2 ^ 32) →
    ∃ s', ids.foldlM State.load s = some s' ∧ Sound s'
  | [], s, h, _, _, _ => ⟨s, rfl, h⟩
  | id :: ids, s, h, hsorted, hbefore, hinside => by
    obtain ⟨hfirst, hsorted⟩ := List.pairwise_cons.mp hsorted
    obtain ⟨hid, hinside⟩ := List.forall_mem_cons.mp hinside
    obtain ⟨hbeforeId, hbefore⟩ := List.forall_mem_cons.mp hbefore
    obtain ⟨s', hload, hs', hinUse, hsize⟩ := h.load hbeforeId hid.1 hid.2
    have hbefore' : ∀ later ∈ ids, ∀ j ∈ s'.inUse, j < later := by
      intro later hlater j hj
      rw [hinUse] at hj
      rcases Finset.mem_insert.mp hj with rfl | hj
      · exact hfirst later hlater
      · exact hbefore later hlater j hj
    rw [← hsize] at hinside
    obtain ⟨last, hloads, hlast⟩ := hs'.loadAll hsorted hbefore' hinside
    refine ⟨last, ?_, hlast⟩
    rw [List.foldlM_cons, hload]
    exact hloads

/-! ## 5. Runs -/

/-- The highest id of the rows is rounded up to a multiple of 32. -/
def InstanceRows.Fits (rows : InstanceRows) : Prop :=
  rows.ids = [] ∨ rows.maxId % 32 ≠ 0 ∧ rows.maxId < 2 ^ 32 - 32

instance (rows : InstanceRows) : Decidable rows.Fits := inferInstanceAs (Decidable (_ ∨ _))

theorem InstanceRows.le_maxId {rows : InstanceRows} {id : ℕ} (h : id ∈ rows.ids) :
    id ≤ rows.maxId := by
  obtain ⟨front, last, hsplit⟩ : ∃ front last, rows.ids = front ++ [last] :=
    ⟨_, _, (List.dropLast_append_getLast (List.ne_nil_of_mem h)).symm⟩
  have hmax : rows.maxId = last := by
    unfold InstanceRows.maxId
    rw [hsplit, List.getLast?_concat]
    rfl
  have hascending := rows.ascending
  rw [hsplit] at h hascending
  rw [hmax]
  rcases List.mem_append.mp h with hid | hid
  · exact le_of_lt ((List.pairwise_append.mp hascending).2.2 id hid last List.mem_cons_self)
  · exact le_of_eq (List.mem_singleton.mp hid)

theorem start_sound (grow : ℕ → ℕ → ℕ) {rows : InstanceRows} (hrows : rows.Fits) :
    ∃ s, start grow rows = some s ∧ Sound s := by
  have hmarked : (Bits.empty.resize grow (roundedSize rows.maxId)).Marked ∅ :=
    Bits.marked_empty.resize grow (Nat.zero_le _)
  have hbegin : Sound ⟨MapManager.new.initInstanceIds grow rows.maxId, ∅⟩ := by
    refine ⟨hmarked, Nat.one_pos, Finset.notMem_empty 1, fun id hpos _ => hpos,
      Nat.one_lt_two_pow (by decide), ?_⟩
    intro hzero
    have hsize : roundedSize rows.maxId = 0 := (Bits.size_resize grow _ _).symm.trans hzero
    change (if roundedSize rows.maxId ≤ 0 then 0 else max _ _) = 0
    rw [if_pos (le_of_eq hsize)]
  refine hbegin.loadAll rows.ascending (fun _ _ j hj => absurd hj (Finset.notMem_empty j)) ?_
  intro id hid
  rcases hrows with hnone | ⟨hmod, hlt⟩
  · rw [hnone] at hid
    exact absurd hid List.not_mem_nil
  · have hle := InstanceRows.le_maxId hid
    have hrounded := roundedSize_lt hmod hlt
    refine ⟨?_, by omega⟩
    change id < (Bits.empty.resize grow (roundedSize rows.maxId)).size
    rw [Bits.size_resize]
    omega

/-- What an operation needs: generating, room for the lowest free id and another free one below
the last number; freeing, an id in use other than 0. -/
def Fits (s : State) : Operation → Prop
  | .generate => HasRoom s.manager ∧
      ∃ id, s.manager.nextInstanceId < id ∧ id < 0xFFFFFFFF ∧ id ∉ s.inUse
  | .free id => id ∈ s.inUse ∧ id ≠ 0

/-- What an operation does: its bits are inside the vector, and a generated id is new. -/
def Correct (grow : ℕ → ℕ → ℕ) (s : State) (op : Operation) : Prop :=
  ∃ s', s.perform grow op = some s' ∧ (op = .generate → Generates grow s s')

theorem Sound.perform (h : Sound s) (grow : ℕ → ℕ → ℕ) {op : Operation} (hop : Fits s op) :
    Correct grow s op ∧ ∃ s', s.perform grow op = some s' ∧ Sound s' := by
  cases op with
  | generate =>
    obtain ⟨s', hs', hgenerates, hsound⟩ := h.generate grow hop.1 hop.2
    exact ⟨⟨s', hs', fun _ => hgenerates⟩, s', hs', hsound⟩
  | free id =>
    obtain ⟨s', hs', hsound⟩ := h.free grow hop.1 hop.2
    exact ⟨⟨s', hs', Operation.noConfusion⟩, s', hs', hsound⟩

/-- **Instance ids are sound** in every run whose rows and operations fit: all bits are inside
the vector, generated ids are neither 0 nor in use, and `_nextInstanceId` is always the lowest
id that is not in use. -/
theorem instance_ids_sound (grow : ℕ → ℕ → ℕ) (rows : InstanceRows) (ops : List Operation)
    (hrows : rows.Fits)
    (hops : Along (step grow) (fun s op => ∀ s' ∈ s, Fits s' op) (start grow rows) ops) :
    Along (step grow) (fun s op => ∃ s' ∈ s, Correct grow s' op) (start grow rows) ops ∧
      ∃ s, exec (step grow) (start grow rows) ops = some s ∧ Sound s := by
  obtain ⟨s, hs, hsound⟩ := start_sound grow hrows
  have hstep : ∀ (s : Option State) op, (∃ s' ∈ s, Sound s') → (∀ s' ∈ s, Fits s' op) →
      (∃ s' ∈ step grow s op, Sound s') ∧ ∃ s' ∈ s, Correct grow s' op := by
    rintro s op ⟨s', rfl, hs'⟩ hop
    obtain ⟨hcorrect, next, hnext, hsound⟩ := hs'.perform grow (hop s' rfl)
    exact ⟨⟨next, hnext, hsound⟩, s', rfl, hcorrect⟩
  refine ⟨Along.of_invariant hstep ⟨s, hs, hsound⟩ hops, ?_⟩
  exact exec_invariant (I := fun s => ∃ s', s = some s' ∧ Sound s')
    (fun s op hI hop => (hstep s op hI hop).1) ⟨s, hs, hsound⟩ hops

/-- Whole words of 64 bits, at least twice the size. -/
def doubledWords (size wanted : ℕ) : ℕ := (size + max size (wanted - size) + 63) / 64 * 64

theorem instance_ids_sound_two :
    ∃ s, exec (step doubledWords) (start doubledWords ⟨[1, 5], by decide, by decide⟩)
      [.generate, .free 5] = some s ∧ Sound s := by
  refine (instance_ids_sound doubledWords ⟨[1, 5], by decide, by decide⟩ [.generate, .free 5]
    (by decide) ⟨?_, ?_, trivial⟩).2
  · rintro s ⟨⟩
    exact ⟨by decide, 3, by decide⟩
  · rintro s ⟨⟩
    exact ⟨by decide, by decide⟩

/-- One row, with the id 32: its bit is outside. -/
theorem row_32_outside : start doubledWords ⟨[32], by decide, by decide⟩ = none := by
  decide

end HungerGames.Instances
