/-
# What is counted as active

The number of a pool is that of its members that are active, each of which belongs to it, and is
within the limit; a child pool is active only with its mother.  Each change of what is active keeps
the account, and so does spawning a pool, whatever is rolled: in a turn that begins with a member
that is to come back there is one too many for a while, of that pool alone.

It is not so where quests are spawned.  Saved quests are counted whatever they are, and the quests
that are used again when there are too few may be those of other pools; neither looks at what else
is active in the pool.  Nor is it where a child pool is spawned by itself.
-/
import Mathlib.Data.List.Perm.Subperm
import HungerGames.Pools.PoolMgr
import HungerGames.System.Counting
import HungerGames.System.Run

namespace HungerGames.Pools

open HungerGames.System

variable {P : LoadedPools} {data data' data'' : ActivePoolData} {s s' s'' : Spawns}
variable {kind other : Kind} {guid pool child : ℕ}

/-! ## 1. Accounts -/

/-- The members of a pool. -/
def LoadedPools.members (P : LoadedPools) (kind : Kind) (pool : ℕ) : List ℕ :=
  (P.group kind pool).guids

/-- **No member is listed twice**, in one pool or in two. -/
structure LoadedPools.Distinct (P : LoadedPools) : Prop where
  nodup : ∀ kind pool, (P.members kind pool).Nodup
  unique : ∀ kind pool pool' guid, guid ∈ P.members kind pool → guid ∈ P.members kind pool' →
    pool = pool'

namespace ActivePoolData

/-- How many members of a kind are active. -/
def activeOf (P : LoadedPools) (data : ActivePoolData) (kind : Kind) (pool : ℕ) : ℕ :=
  (P.members kind pool).countP (data.isActiveObject kind)

/-- How many members other than quests are active. -/
def activeOthers (P : LoadedPools) (data : ActivePoolData) (pool : ℕ) : ℕ :=
  data.activeOf P (.object .creature) pool + data.activeOf P (.object .gameObject) pool +
    data.activeOf P .pool pool

/-- How many members are active. -/
def activeMembers (P : LoadedPools) (data : ActivePoolData) (pool : ℕ) : ℕ :=
  data.activeOthers P pool + data.activeOf P (.object .quest) pool

/-- **The account of the pools.** -/
structure Accounted (P : LoadedPools) (data : ActivePoolData) : Prop where
  count : ∀ pool, data.getActiveObjectCount pool = data.activeMembers P pool
  once : ∀ kind, (data.spawned kind).Nodup
  belongs : ∀ kind, ∀ guid ∈ data.spawned kind, ∃ pool, guid ∈ P.members (.object kind) pool
  mother : ∀ pool, ∀ child ∈ P.members .pool pool, data.isActiveObject .pool child = true →
    data.isActiveObject .pool pool = true

/-- The pools less deep than this are within their limits. -/
def Within (P : LoadedPools) (depth : ℕ) (data : ActivePoolData) : Prop :=
  ∀ pool, P.depth pool < depth → data.getActiveObjectCount pool ≤ P.maxLimit pool

/-- A pool that may be spawned: it is active, or the child of none. -/
def Rooted (P : LoadedPools) (data : ActivePoolData) (pool : ℕ) : Prop :=
  data.isActiveObject .pool pool = true ∨ ∀ mother, pool ∉ P.members .pool mother

/-- What is said of the pools that are as deep as this or deeper: nothing about them changes. -/
def Frame (P : LoadedPools) (depth : ℕ) (data data' : ActivePoolData) : Prop :=
  ∀ pool, depth ≤ P.depth pool → data'.spawnedPools pool = data.spawnedPools pool ∧
    ∀ kind, ∀ guid ∈ P.members kind pool,
      data'.isActiveObject kind guid = data.isActiveObject kind guid

/-! ## 2. What one change does -/

theorem isActiveObject_setPool (data : ActivePoolData) (pool : ℕ) (value : Option ℕ) (other : Kind)
    (x : ℕ) : (data.setPool pool value).isActiveObject other x =
      if other = .pool ∧ x = pool then value.isSome else data.isActiveObject other x := by
  cases other with
  | object other => exact (if_neg fun h => nomatch h.1).symm
  | pool =>
    change (if x = pool then value else data.spawnedPools x).isSome = _
    by_cases hpool : x = pool
    · rw [if_pos hpool, if_pos ⟨rfl, hpool⟩]
    · rw [if_neg hpool, if_neg fun h => hpool h.2]
      rfl

theorem isActiveObject_setSpawned (data : ActivePoolData) (kind : ObjectKind) (guids : List ℕ)
    (other : Kind) (x : ℕ) : (data.setSpawned kind guids).isActiveObject other x =
      if other = .object kind then decide (x ∈ guids) else data.isActiveObject other x := by
  cases other with
  | object other =>
    unfold isActiveObject setSpawned
    by_cases hkind : other = kind
    · simp only [hkind, if_true]
    · simp only [hkind, if_false, Kind.object.injEq]
  | pool => exact (if_neg nofun).symm

theorem isActiveObject_activate (data : ActivePoolData) (kind : Kind) (guid pool : ℕ) (other : Kind)
    (x : ℕ) : (data.activateObject kind guid pool).isActiveObject other x = true ↔
      (other = .pool ∧ x = pool) ∨ (other = kind ∧ x = guid) ∨
        data.isActiveObject other x = true := by
  unfold activateObject
  rw [isActiveObject_setPool]
  by_cases hpool : other = .pool ∧ x = pool
  · rw [if_pos hpool]
    exact iff_of_true rfl (Or.inl hpool)
  · rw [if_neg hpool, or_iff_right hpool]
    cases kind with
    | object kind =>
      rw [isActiveObject_setSpawned]
      by_cases hkind : other = .object kind
      · rw [if_pos hkind, decide_eq_true_iff, List.mem_insert_iff, hkind]
        exact or_congr (and_iff_right rfl).symm decide_eq_true_iff.symm
      · rw [if_neg hkind]
        exact (or_iff_right fun h => hkind h.1).symm
    | pool =>
      rw [isActiveObject_setPool]
      by_cases hguid : other = .pool ∧ x = guid
      · rw [if_pos hguid]
        exact iff_of_true rfl (Or.inl hguid)
      · rw [if_neg hguid]
        exact (or_iff_right hguid).symm

theorem isActiveObject_remove (data : ActivePoolData) (kind : Kind) (guid pool : ℕ) (other : Kind)
    (x : ℕ) : (data.removeObject kind guid pool).isActiveObject other x = true ↔
      (other = .pool ∧ x = pool) ∨
        ¬ (other = kind ∧ x = guid) ∧ data.isActiveObject other x = true := by
  unfold removeObject
  rw [isActiveObject_setPool]
  by_cases hpool : other = .pool ∧ x = pool
  · rw [if_pos hpool]
    exact iff_of_true rfl (Or.inl hpool)
  · rw [if_neg hpool, or_iff_right hpool]
    cases kind with
    | object kind =>
      rw [isActiveObject_setSpawned]
      by_cases hkind : other = .object kind
      · rw [if_pos hkind, decide_eq_true_iff, List.mem_filter, hkind, decide_eq_true_iff, and_comm]
        exact and_congr (not_congr (and_iff_right rfl).symm) decide_eq_true_iff.symm
      · rw [if_neg hkind]
        exact (and_iff_right fun h => hkind h.1).symm
    | pool =>
      rw [isActiveObject_setPool]
      by_cases hguid : other = .pool ∧ x = guid
      · rw [if_pos hguid]
        exact iff_of_false Bool.false_ne_true fun h => h.1 hguid
      · rw [if_neg hguid]
        exact (and_iff_right hguid).symm

variable {x : ℕ}

/-- Which entries of the pools a change leaves alone. -/
theorem spawnedPools_activate (hpool : x ≠ pool) (hguid : ¬ (kind = .pool ∧ x = guid)) :
    (data.activateObject kind guid pool).spawnedPools x = data.spawnedPools x := by
  unfold activateObject setPool
  dsimp only
  rw [if_neg hpool]
  cases kind with
  | object kind => rfl
  | pool => exact if_neg fun h => hguid ⟨rfl, h⟩

theorem spawnedPools_remove (hpool : x ≠ pool) (hguid : ¬ (kind = .pool ∧ x = guid)) :
    (data.removeObject kind guid pool).spawnedPools x = data.spawnedPools x := by
  unfold removeObject setPool
  dsimp only
  rw [if_neg hpool]
  cases kind with
  | object kind => rfl
  | pool => exact if_neg fun h => hguid ⟨rfl, h⟩

theorem count_setPool (data : ActivePoolData) (pool : ℕ) (value : Option ℕ) (x : ℕ) :
    (data.setPool pool value).getActiveObjectCount x =
      if x = pool then value.getD 0 else data.getActiveObjectCount x := by
  unfold getActiveObjectCount setPool
  dsimp only
  split <;> rfl

theorem count_activate (hne : kind = .pool → guid ≠ pool) (x : ℕ) :
    (data.activateObject kind guid pool).getActiveObjectCount x =
      if x = pool then data.getActiveObjectCount pool + 1
      else if kind = .pool ∧ x = guid then 0 else data.getActiveObjectCount x := by
  unfold activateObject
  rw [count_setPool, Option.getD_some]
  cases kind with
  | object kind => exact if_congr Iff.rfl rfl (if_neg fun h => nomatch h.1).symm
  | pool =>
    have hself : ∀ value, (data.setPool guid value).getActiveObjectCount pool =
        data.getActiveObjectCount pool := fun value => by
      rw [count_setPool, if_neg fun h => hne rfl h.symm]
    rw [hself, count_setPool]
    exact if_congr Iff.rfl rfl (if_congr (and_iff_right rfl).symm rfl rfl)

theorem count_remove (hne : kind = .pool → guid ≠ pool) (x : ℕ) :
    (data.removeObject kind guid pool).getActiveObjectCount x =
      if x = pool then data.getActiveObjectCount pool - 1
      else if kind = .pool ∧ x = guid then 0 else data.getActiveObjectCount x := by
  unfold removeObject
  rw [count_setPool, Option.getD_some]
  cases kind with
  | object kind => exact if_congr Iff.rfl rfl (if_neg fun h => nomatch h.1).symm
  | pool =>
    have hself : ∀ value, (data.setPool guid value).getActiveObjectCount pool =
        data.getActiveObjectCount pool := fun value => by
      rw [count_setPool, if_neg fun h => hne rfl h.symm]
    rw [hself, count_setPool]
    exact if_congr Iff.rfl rfl (if_congr (and_iff_right rfl).symm rfl rfl)

/-! ## 3. The account is kept -/

theorem isActiveObject_object {kind : ObjectKind} :
    data.isActiveObject (.object kind) x = true ↔ x ∈ data.spawned kind := decide_eq_true_iff

theorem count_of_inactive (h : ¬ data.isActiveObject .pool pool = true) :
    data.getActiveObjectCount pool = 0 := by
  unfold getActiveObjectCount
  rw [Option.not_isSome_iff_eq_none.mp h]
  rfl

/-- The members of a pool when one of them becomes active. -/
theorem activeMembers_one_more (kind : Kind)
    (hone : data'.activeOf P kind pool = data.activeOf P kind pool + 1)
    (hsame : ∀ other, other ≠ kind → data'.activeOf P other pool = data.activeOf P other pool) :
    data'.activeMembers P pool = data.activeMembers P pool + 1 := by
  unfold activeMembers activeOthers
  match kind with
  | .object .creature =>
    rw [hone, hsame (.object .gameObject) nofun, hsame (.object .quest) nofun, hsame .pool nofun]
    omega
  | .object .gameObject =>
    rw [hone, hsame (.object .creature) nofun, hsame (.object .quest) nofun, hsame .pool nofun]
    omega
  | .object .quest =>
    rw [hone, hsame (.object .creature) nofun, hsame (.object .gameObject) nofun, hsame .pool nofun]
    omega
  | .pool =>
    rw [hone, hsame (.object .creature) nofun, hsame (.object .gameObject) nofun,
      hsame (.object .quest) nofun]
    omega

theorem activeMembers_congr
    (hsame : ∀ kind, ∀ x ∈ P.members kind pool,
      data'.isActiveObject kind x = data.isActiveObject kind x) :
    data'.activeMembers P pool = data.activeMembers P pool := by
  have hkind : ∀ kind, data'.activeOf P kind pool = data.activeOf P kind pool := fun kind =>
    List.countP_congr fun x hx => by rw [hsame kind x hx]
  unfold activeMembers activeOthers
  rw [hkind, hkind, hkind, hkind]

theorem ne_of_mem_members (h : child ∈ P.members .pool pool) : child ≠ pool := by
  rintro rfl
  exact Nat.lt_irrefl _ (P.depth_lt child child h)

section activate

variable (hP : P.Distinct) (h : data.Accounted P) (hmem : guid ∈ P.members kind pool)
include hP h hmem

omit hP h in
theorem guid_ne_pool : kind = .pool → guid ≠ pool := by
  rintro rfl
  exact ne_of_mem_members hmem

omit hP h hmem in
/-- Which members are active when one of a rooted pool is activated. -/
theorem member_activate (hrooted : data.Rooted P pool) {q : ℕ} (hx : x ∈ P.members other q) :
    (data.activateObject kind guid pool).isActiveObject other x = true ↔
      (other = kind ∧ x = guid) ∨ data.isActiveObject other x = true := by
  rw [isActiveObject_activate]
  refine or_iff_right_of_imp ?_
  rintro ⟨rfl, rfl⟩
  rcases hrooted with hactive | hnone
  · exact Or.inr hactive
  · exact absurd hx (hnone q)

omit h in
theorem member_activate_of_ne (hrooted : data.Rooted P pool) {q : ℕ} (hq : q ≠ pool)
    (hx : x ∈ P.members other q) :
    (data.activateObject kind guid pool).isActiveObject other x = data.isActiveObject other x := by
  refine Bool.eq_iff_iff.mpr ((member_activate hrooted hx).trans (or_iff_right ?_))
  rintro ⟨rfl, rfl⟩
  exact hq (hP.unique other q pool x hx hmem)

/-- **A member is activated.** -/
theorem accounted_activate (hrooted : data.Rooted P pool)
    (hinactive : data.isActiveObject kind guid = false) :
    (data.activateObject kind guid pool).Accounted P := by
  have hmember : ∀ {other : Kind} {q x : ℕ}, x ∈ P.members other q →
      ((data.activateObject kind guid pool).isActiveObject other x = true ↔
        (other = kind ∧ x = guid) ∨ data.isActiveObject other x = true) := member_activate hrooted
  have hactive : (data.activateObject kind guid pool).isActiveObject kind guid = true :=
    (hmember hmem).mpr (Or.inl ⟨rfl, rfl⟩)
  have hself : (data.activateObject kind guid pool).isActiveObject .pool pool = true :=
    (isActiveObject_activate ..).mpr (Or.inl ⟨rfl, rfl⟩)
  constructor
  case count =>
    intro q
    rw [count_activate (guid_ne_pool hmem)]
    by_cases hq : q = pool
    · subst hq
      have hone : (data.activateObject kind guid q).activeMembers P q =
          data.activeMembers P q + 1 := by
        refine activeMembers_one_more kind ?_ fun other hother => ?_
        · refine countP_one_more (hP.nodup kind q) hmem hinactive hactive fun x hx hne => ?_
          exact Bool.eq_iff_iff.mpr ((hmember hx).trans (or_iff_right fun heq => hne heq.2))
        · exact List.countP_congr fun x hx =>
            (hmember hx).trans (or_iff_right fun heq => hother heq.1)
      rw [if_pos rfl, h.count, hone]
    · have hsame : (data.activateObject kind guid pool).activeMembers P q =
          data.activeMembers P q :=
        activeMembers_congr fun other x hx => member_activate_of_ne hP hmem hrooted hq hx
      rw [if_neg hq, hsame, ← h.count]
      split
      case isTrue hguid =>
        obtain ⟨rfl, rfl⟩ := hguid
        exact (count_of_inactive (Bool.eq_false_iff.mp hinactive)).symm
      case isFalse => rfl
  case once =>
    intro other
    cases kind with
    | object kind =>
      change (if other = kind then _ else _ : List ℕ).Nodup
      split
      · exact (h.once kind).insert
      · exact h.once other
    | pool => exact h.once other
  case belongs =>
    intro other x hx
    rcases (isActiveObject_activate ..).mp (isActiveObject_object.mpr hx) with
      ⟨heq, -⟩ | ⟨rfl, rfl⟩ | hx
    · nomatch heq
    · exact ⟨pool, hmem⟩
    · exact h.belongs other x (isActiveObject_object.mp hx)
  case mother =>
    intro q child hchild hactive'
    rcases (hmember hchild).mp hactive' with ⟨rfl, rfl⟩ | hold
    · exact hP.unique .pool q pool child hchild hmem ▸ hself
    · exact (isActiveObject_activate ..).mpr (Or.inr (Or.inr (h.mother q child hchild hold)))

omit hP in
/-- Its pool is active when a member is. -/
theorem active_of_member (hactive : data.isActiveObject kind guid = true) :
    0 < data.getActiveObjectCount pool ∧ data.isActiveObject .pool pool = true := by
  have hpos : 0 < data.getActiveObjectCount pool := by
    have hone : 0 < data.activeOf P kind pool := List.countP_pos_iff.mpr ⟨guid, hmem, hactive⟩
    rw [h.count]
    unfold activeMembers activeOthers
    match kind with
    | .object .creature | .object .gameObject | .object .quest | .pool => omega
  refine ⟨hpos, ?_⟩
  by_contra hinactive
  rw [count_of_inactive hinactive] at hpos
  exact Nat.lt_irrefl _ hpos

omit hP in
/-- Which members are active when one is removed. -/
theorem member_remove (hactive : data.isActiveObject kind guid = true) :
    (data.removeObject kind guid pool).isActiveObject other x = true ↔
      ¬ (other = kind ∧ x = guid) ∧ data.isActiveObject other x = true := by
  rw [isActiveObject_remove]
  refine or_iff_right_of_imp ?_
  rintro ⟨rfl, rfl⟩
  exact ⟨fun heq => guid_ne_pool hmem heq.1.symm heq.2.symm, (active_of_member h hmem hactive).2⟩

/-- **A member is removed**, and if it is a pool none of its own members is active. -/
theorem accounted_remove (hactive : data.isActiveObject kind guid = true)
    (hempty : kind = .pool → data.activeMembers P guid = 0) :
    (data.removeObject kind guid pool).Accounted P := by
  have hmember : ∀ {other : Kind} {x : ℕ},
      ((data.removeObject kind guid pool).isActiveObject other x = true ↔
        ¬ (other = kind ∧ x = guid) ∧ data.isActiveObject other x = true) :=
    member_remove h hmem hactive
  obtain ⟨hpos, hself⟩ := active_of_member h hmem hactive
  have hsame : ∀ other x, ¬ (other = kind ∧ x = guid) →
      (data.removeObject kind guid pool).isActiveObject other x = data.isActiveObject other x :=
    fun other x hne => Bool.eq_iff_iff.mpr (hmember.trans (and_iff_right hne))
  have hgone : (data.removeObject kind guid pool).isActiveObject kind guid = false :=
    Bool.eq_false_iff.mpr fun hstays => (hmember.mp hstays).1 ⟨rfl, rfl⟩
  constructor
  case count =>
    intro q
    rw [count_remove (guid_ne_pool hmem)]
    by_cases hq : q = pool
    · subst hq
      rw [if_pos rfl, h.count]
      have hone : data.activeMembers P q =
          (data.removeObject kind guid q).activeMembers P q + 1 := by
        refine activeMembers_one_more kind ?_ fun other hother => ?_
        · exact countP_one_more (hP.nodup kind q) hmem hgone hactive fun x _ hne =>
            (hsame kind x fun heq => hne heq.2).symm
        · exact List.countP_congr fun x _ => by rw [hsame other x fun heq => hother heq.1]
      omega
    · have hother : ∀ other, ∀ x ∈ P.members other q, ¬ (other = kind ∧ x = guid) := by
        rintro other x hx ⟨rfl, rfl⟩
        exact hq (hP.unique other q pool x hx hmem)
      rw [if_neg hq, activeMembers_congr fun other x hx => hsame other x (hother other x hx),
        ← h.count]
      split
      case isTrue hguid =>
        obtain ⟨rfl, rfl⟩ := hguid
        rw [h.count, hempty rfl]
      case isFalse => rfl
  case once =>
    intro other
    cases kind with
    | object kind =>
      change (if other = kind then _ else _ : List ℕ).Nodup
      split
      · exact (h.once kind).filter _
      · exact h.once other
    | pool => exact h.once other
  case belongs =>
    intro other x hx
    exact h.belongs other x (isActiveObject_object.mp (hmember.mp (isActiveObject_object.mpr hx)).2)
  case mother =>
    intro q child hchild hstays
    obtain ⟨hne, hold⟩ := hmember.mp hstays
    refine hmember.mpr ⟨?_, h.mother q child hchild hold⟩
    rintro ⟨rfl, rfl⟩
    -- the pool that is removed has no members left
    have hnone := hempty rfl
    rw [← h.count] at hnone
    exact Nat.lt_irrefl _ (hnone ▸ (active_of_member h hchild hold).1)

end activate

theorem Frame.mono {depth deeper : ℕ} (h : Frame P depth data data') (hle : depth ≤ deeper) :
    Frame P deeper data data' := fun q hq => h q (Nat.le_trans hle hq)

theorem Frame.trans {depth : ℕ} (h : Frame P depth data data') (h' : Frame P depth data' data'') :
    Frame P depth data data'' := fun q hq =>
  ⟨(h' q hq).1.trans (h q hq).1,
    fun kind x hx => ((h' q hq).2 kind x hx).trans ((h q hq).2 kind x hx)⟩

theorem Frame.count {depth : ℕ} (h : Frame P depth data data') (hpool : depth ≤ P.depth pool) :
    data'.getActiveObjectCount pool = data.getActiveObjectCount pool := by
  unfold getActiveObjectCount
  rw [(h pool hpool).1]

theorem Frame.self {depth : ℕ} (h : Frame P depth data data') (hpool : depth ≤ P.depth pool) :
    data'.isActiveObject .pool pool = data.isActiveObject .pool pool :=
  congrArg Option.isSome (h pool hpool).1

theorem Rooted.of_self (h : data.Rooted P pool)
    (hself : data.isActiveObject .pool pool = true → data'.isActiveObject .pool pool = true) :
    data'.Rooted P pool := h.imp hself id

end ActivePoolData

open ActivePoolData

/-! ## 4. Despawning -/

namespace Spawns

/-- What despawning leaves: nothing becomes active, and nothing changes that is as deep as this. -/
structure Despawns (P : LoadedPools) (depth : ℕ) (s s' : Spawns) : Prop where
  accounted : s'.data.Accounted P
  frame : Frame P depth s.data s'.data
  antitone : ∀ kind x, s'.data.isActiveObject kind x = true → s.data.isActiveObject kind x = true
  counts : ∀ q, s'.data.getActiveObjectCount q ≤ s.data.getActiveObjectCount q

namespace Despawns

theorem refl {depth : ℕ} (h : s.data.Accounted P) : Despawns P depth s s :=
  ⟨h, fun _ _ => ⟨rfl, fun _ _ _ => rfl⟩, fun _ _ => id, fun _ => Nat.le_refl _⟩

theorem trans {depth : ℕ} (h : Despawns P depth s s') (h' : Despawns P depth s' s'') :
    Despawns P depth s s'' where
  accounted := h'.accounted
  frame := h.frame.trans h'.frame
  antitone kind x hx := h.antitone kind x (h'.antitone kind x hx)
  counts q := Nat.le_trans (h'.counts q) (h.counts q)

theorem mono {depth deeper : ℕ} (h : Despawns P depth s s') (hle : depth ≤ deeper) :
    Despawns P deeper s s' := ⟨h.accounted, h.frame.mono hle, h.antitone, h.counts⟩

end Despawns

/-- What is asked of despawning a child pool: after it no member of it is active. -/
def DespawnsChildren (P : LoadedPools) (pool : ℕ) (despawnChild : ℕ → Spawns → Spawns) : Prop :=
  ∀ child ∈ P.members .pool pool, ∀ s, s.data.Accounted P →
    Despawns P (P.depth child + 1) s (despawnChild child s) ∧
      (despawnChild child s).data.activeMembers P child = 0

/-- What despawning members of a pool leaves of the pool. -/
structure DespawnsOf (P : LoadedPools) (pool : ℕ) (gone : Kind → ℕ → Prop) (s s' : Spawns) :
    Prop where
  despawns : Despawns P (P.depth pool + 1) s s'
  others : ∀ kind, ∀ x ∈ P.members kind pool, ¬ gone kind x →
    s'.data.isActiveObject kind x = s.data.isActiveObject kind x
  self : s'.data.isActiveObject .pool pool = s.data.isActiveObject .pool pool

variable {gone : Kind → ℕ → Prop}

theorem DespawnsOf.trans (h : DespawnsOf P pool gone s s') (h' : DespawnsOf P pool gone s' s'') :
    DespawnsOf P pool gone s s'' where
  despawns := h.despawns.trans h'.despawns
  others kind x hx hnot := (h'.others kind x hx hnot).trans (h.others kind x hx hnot)
  self := h'.self.trans h.self

theorem DespawnsOf.refl (h : s.data.Accounted P) :
    DespawnsOf P pool gone s s := ⟨.refl h, fun _ _ _ _ => rfl, rfl⟩

theorem DespawnsOf.mono {more : Kind → ℕ → Prop} (h : DespawnsOf P pool gone s s')
    (himp : ∀ kind x, gone kind x → more kind x) : DespawnsOf P pool more s s' :=
  ⟨h.despawns, fun kind x hx hnot => h.others kind x hx fun hgone => hnot (himp kind x hgone),
    h.self⟩

section despawn

variable {despawnChild : ℕ → Spawns → Spawns} (hP : P.Distinct)
  (hchild : kind = .pool → DespawnsChildren P pool despawnChild)
include hP hchild

/-- One member is despawned. -/
theorem despawnsOf_one (h : s.data.Accounted P) (hmem : guid ∈ P.members kind pool)
    (hactive : s.data.isActiveObject kind guid = true) :
    DespawnsOf P pool (fun other x => other = kind ∧ x = guid) s
      ((despawn1Object despawnChild kind guid s).remove kind guid pool) ∧
      ((despawn1Object despawnChild kind guid s).remove kind guid pool).data.isActiveObject kind
        guid = false := by
  obtain ⟨hfirst, hempty⟩ : Despawns P (P.depth pool) s (despawn1Object despawnChild kind guid s) ∧
      (kind = .pool → (despawn1Object despawnChild kind guid s).data.activeMembers P guid = 0) := by
    cases kind with
    | object kind => exact ⟨.refl h, nofun⟩
    | pool =>
      obtain ⟨hdespawns, hempty⟩ := hchild rfl guid hmem s h
      exact ⟨hdespawns.mono (P.depth_lt pool guid hmem), fun _ => hempty⟩
  generalize despawn1Object despawnChild kind guid s = between at hfirst hempty ⊢
  have hstill : between.data.isActiveObject kind guid = true :=
    ((hfirst.frame pool (Nat.le_refl _)).2 kind guid hmem).trans hactive
  have hmember : ∀ {other : Kind} {x : ℕ},
      (between.data.removeObject kind guid pool).isActiveObject other x = true ↔
        ¬ (other = kind ∧ x = guid) ∧ between.data.isActiveObject other x = true :=
    member_remove hfirst.accounted hmem hstill
  have hsame : ∀ other x, ¬ (other = kind ∧ x = guid) →
      (between.data.removeObject kind guid pool).isActiveObject other x =
        between.data.isActiveObject other x :=
    fun other x hne => Bool.eq_iff_iff.mpr (hmember.trans (and_iff_right hne))
  have hguid : kind = .pool → P.depth guid < P.depth pool := by
    rintro rfl
    exact P.depth_lt pool guid hmem
  have hpools : ∀ q, P.depth pool ≤ P.depth q → q ≠ pool →
      (between.data.removeObject kind guid pool).spawnedPools q = between.data.spawnedPools q :=
    fun q hdepth hq => spawnedPools_remove hq fun heq => Nat.lt_irrefl _
      (Nat.lt_of_lt_of_le (hguid heq.1) (heq.2 ▸ hdepth))
  refine ⟨⟨hfirst.mono (Nat.le_succ _) |>.trans ⟨?_, ?_, ?_, ?_⟩, ?_, ?_⟩, ?_⟩
  · exact accounted_remove hP hfirst.accounted hmem hstill hempty
  · intro q hq
    have hne : q ≠ pool := fun heq => Nat.lt_irrefl _ (heq ▸ hq)
    refine ⟨hpools q (Nat.le_of_succ_le hq) hne, fun other x hx => hsame other x ?_⟩
    rintro ⟨rfl, rfl⟩
    exact hne (hP.unique other q pool x hx hmem)
  · exact fun other x hx => (hmember.mp hx).2
  · intro q
    change (between.data.removeObject kind guid pool).getActiveObjectCount q ≤ _
    rw [count_remove (guid_ne_pool hmem)]
    split
    case isTrue hq => exact hq ▸ Nat.sub_le ..
    case isFalse =>
      split
      · exact Nat.zero_le _
      · exact Nat.le_refl _
  · intro other x hx hnot
    exact (hsame other x hnot).trans ((hfirst.frame pool (Nat.le_refl _)).2 other x hx)
  · refine (hsame .pool pool ?_).trans (hfirst.frame.self (Nat.le_refl _))
    exact fun heq => guid_ne_pool hmem heq.1.symm heq.2.symm
  · exact Bool.eq_false_iff.mpr fun hstays => (hmember.mp hstays).1 ⟨rfl, rfl⟩

/-- **`DespawnObject`** despawns the members that are asked for, one after the other. -/
theorem despawnsOf_fold {guids : List ℕ} (hall : ∀ x ∈ guids, x ∈ P.members kind pool)
    (h : s.data.Accounted P) :
    DespawnsOf P pool (fun other x => other = kind ∧ (guid = 0 ∨ x = guid)) s
      (guids.foldl (fun s other =>
        if s.data.isActiveObject kind other ∧ (guid = 0 ∨ other = guid) then
          (despawn1Object despawnChild kind other s).remove kind other pool
        else s) s) ∧
      ∀ x ∈ guids, guid = 0 ∨ x = guid →
        (guids.foldl (fun s other =>
          if s.data.isActiveObject kind other ∧ (guid = 0 ∨ other = guid) then
            (despawn1Object despawnChild kind other s).remove kind other pool
          else s) s).data.isActiveObject kind x = false := by
  induction guids generalizing s with
  | nil => exact ⟨.refl h, nofun⟩
  | cons x guids ih =>
    obtain ⟨hx, hguids⟩ := List.forall_mem_cons.mp hall
    rw [List.foldl_cons]
    by_cases hasked : s.data.isActiveObject kind x = true ∧ (guid = 0 ∨ x = guid)
    · obtain ⟨hone, hgone⟩ := despawnsOf_one hP hchild h hx hasked.1
      rw [if_pos hasked]
      obtain ⟨hrest, hall⟩ := ih hguids hone.despawns.accounted
      refine ⟨(hone.mono ?_).trans hrest, List.forall_mem_cons.mpr ⟨fun _ => ?_, hall⟩⟩
      · rintro other y ⟨rfl, rfl⟩
        exact ⟨rfl, hasked.2⟩
      · exact Bool.eq_false_iff.mpr fun hstays =>
          Bool.eq_false_iff.mp hgone (hrest.despawns.antitone kind x hstays)
    · rw [if_neg hasked]
      obtain ⟨hrest, hall⟩ := ih hguids h
      refine ⟨hrest, List.forall_mem_cons.mpr ⟨fun hguid => ?_, hall⟩⟩
      exact Bool.eq_false_iff.mpr fun hstays =>
        hasked ⟨hrest.despawns.antitone kind x hstays, hguid⟩

theorem despawnsOf_despawnObject (h : s.data.Accounted P) (guid : ℕ) :
    DespawnsOf P pool (fun other x => other = kind ∧ (guid = 0 ∨ x = guid)) s
      (s.despawnObject P despawnChild kind pool guid) ∧
      ∀ x ∈ P.members kind pool, guid = 0 ∨ x = guid →
        (s.despawnObject P despawnChild kind pool guid).data.isActiveObject kind x = false :=
  despawnsOf_fold hP hchild (fun _ => id) h

end despawn

/-! Despawning spawns no quests. -/

theorem calls_despawnObject {despawnChild : ℕ → Spawns → Spawns}
    (hchild : ∀ child s, (despawnChild child s).questSpawns = s.questSpawns) (s : Spawns)
    (kind : Kind) (pool guid : ℕ) :
    (s.despawnObject P despawnChild kind pool guid).questSpawns = s.questSpawns := by
  unfold despawnObject
  induction (P.group kind pool).guids generalizing s with
  | nil => rfl
  | cons x guids ih =>
    rw [List.foldl_cons, ih]
    split
    · cases kind with
      | object kind => rfl
      | pool => exact hchild x s
    · rfl

theorem calls_despawnPool (depth : ℕ) : ∀ pool s,
    (despawnPool P depth pool s).questSpawns = s.questSpawns := by
  induction depth with
  | zero => exact fun _ _ => rfl
  | succ depth ih =>
    intro pool s
    unfold despawnPool
    simp only [List.foldl_cons, List.foldl_nil, calls_despawnObject ih]

/-- **`DespawnPool`** leaves no member of the pool active. -/
theorem despawns_despawnPool (hP : P.Distinct) (depth : ℕ) : ∀ {pool : ℕ} {s : Spawns},
    P.depth pool < depth → s.data.Accounted P →
      Despawns P (P.depth pool + 1) s (despawnPool P depth pool s) ∧
        (despawnPool P depth pool s).data.activeMembers P pool = 0 := by
  induction depth with
  | zero => exact fun hdepth => absurd hdepth (Nat.not_lt_zero _)
  | succ depth ih =>
    intro pool s hdepth h
    have hchild : DespawnsChildren P pool (despawnPool P depth) := fun child hmem s h =>
      ih (Nat.lt_of_lt_of_le (P.depth_lt pool child hmem) (Nat.le_of_lt_succ hdepth)) h
    have hone : ∀ kind s, s.data.Accounted P →
        Despawns P (P.depth pool + 1) s (s.despawnObject P (despawnPool P depth) kind pool 0) ∧
          (s.despawnObject P (despawnPool P depth) kind pool 0).data.activeOf P kind pool = 0 := by
      intro kind s h
      have hchild : kind = .pool → DespawnsChildren P pool (despawnPool P depth) := fun _ => hchild
      obtain ⟨hdespawns, hgone⟩ := despawnsOf_despawnObject hP hchild h 0
      exact ⟨hdespawns.despawns, List.countP_eq_zero.mpr fun x hx =>
        Bool.eq_false_iff.mp (hgone x hx (Or.inl rfl))⟩
    have hstays : ∀ {s s' : Spawns} kind, Despawns P (P.depth pool + 1) s s' →
        s.data.activeOf P kind pool = 0 → s'.data.activeOf P kind pool = 0 :=
      fun kind hdespawns hzero => List.countP_eq_zero.mpr fun x hx hactive =>
        List.countP_eq_zero.mp hzero x hx (hdespawns.antitone kind x hactive)
    unfold despawnPool
    simp only [List.foldl_cons, List.foldl_nil]
    obtain ⟨hcreatures, hnoCreature⟩ := hone (.object .creature) s h
    obtain ⟨hgameObjects, hnoGameObject⟩ := hone (.object .gameObject) _ hcreatures.accounted
    obtain ⟨hpools, hnoPool⟩ := hone .pool _ hgameObjects.accounted
    obtain ⟨hquests, hnoQuest⟩ := hone (.object .quest) _ hpools.accounted
    refine ⟨((hcreatures.trans hgameObjects).trans hpools).trans hquests, ?_⟩
    unfold activeMembers activeOthers
    rw [hnoQuest, hstays .pool hquests hnoPool,
      hstays (.object .gameObject) (hpools.trans hquests) hnoGameObject,
      hstays (.object .creature) ((hgameObjects.trans hpools).trans hquests) hnoCreature]

/-! ## 5. Quests -/

/-- The quests of a pool that are not active. -/
def newQuests (P : LoadedPools) (data : ActivePoolData) (pool : ℕ) : List ℕ :=
  (P.members (.object .quest) pool).filter fun questId =>
    data.isActiveObject (.object .quest) questId = false

/-- **Where quests are spawned right.**  Saved quests are quests of the pool, once each, none is
active yet, and there is room for them.  If none is saved, the pool has room for as many quests as
there may be, and where too few are new only its own are active. -/
def Right (P : LoadedPools) (call : QuestSpawn) : Prop :=
  if call.rows ≠ [] then
    (restored (P.maxLimit call.pool) call.rows).Nodup ∧
      (∀ questId ∈ restored (P.maxLimit call.pool) call.rows,
        questId ∈ P.members (.object .quest) call.pool ∧ questId ∉ call.data.spawned .quest) ∧
      call.data.getActiveObjectCount call.pool +
        (restored (P.maxLimit call.pool) call.rows).length ≤ P.maxLimit call.pool
  else
    (P.maxLimit call.pool ≤ (newQuests P call.data call.pool).length ∨
        ∀ questId ∈ call.data.spawned .quest, questId ∈ P.members (.object .quest) call.pool) ∧
      (P.maxLimit call.pool ≠ 0 ∨ newQuests P call.data call.pool = []) ∧
      call.data.activeOthers P call.pool +
        min (P.maxLimit call.pool) (P.members (.object .quest) call.pool).length ≤
          P.maxLimit call.pool

instance (P : LoadedPools) (call : QuestSpawn) : Decidable (Right P call) := instDecidableIte

/-- What objects of a pool that become active leave. -/
structure Gains (P : LoadedPools) (pool more : ℕ) (data data' : ActivePoolData) : Prop where
  accounted : data'.Accounted P
  count : data'.getActiveObjectCount pool = data.getActiveObjectCount pool + more
  outer : ∀ q, q ≠ pool → data'.spawnedPools q = data.spawnedPools q ∧
    ∀ kind, ∀ x ∈ P.members kind q, data'.isActiveObject kind x = data.isActiveObject kind x
  rooted : data'.Rooted P pool

theorem gains_activateAll (hP : P.Distinct) {quests : List ℕ} (hnodup : quests.Nodup)
    (hmem : ∀ questId ∈ quests, questId ∈ P.members (.object .quest) pool)
    (hinactive : ∀ questId ∈ quests, data.isActiveObject (.object .quest) questId = false)
    (h : data.Accounted P) (hrooted : data.Rooted P pool) :
    Gains P pool quests.length data (quests.foldl (fun data questId =>
      data.activateObject (.object .quest) questId pool) data) := by
  induction quests generalizing data with
  | nil => exact ⟨h, rfl, fun _ _ => ⟨rfl, fun _ _ _ => rfl⟩, hrooted⟩
  | cons questId quests ih =>
    obtain ⟨hnot, hnodup⟩ := List.nodup_cons.mp hnodup
    obtain ⟨hquest, hquests⟩ := List.forall_mem_cons.mp hmem
    obtain ⟨hfirst, hothers⟩ := List.forall_mem_cons.mp hinactive
    have hone := accounted_activate hP h hquest hrooted hfirst
    have hself : (data.activateObject (.object .quest) questId pool).isActiveObject .pool pool =
        true := (isActiveObject_activate ..).mpr (Or.inl ⟨rfl, rfl⟩)
    have hstill : ∀ other ∈ quests, (data.activateObject (.object .quest) questId
        pool).isActiveObject (.object .quest) other = false := by
      intro other hother
      refine Bool.eq_false_iff.mpr fun hactive => ?_
      rcases (isActiveObject_activate ..).mp hactive with ⟨heq, -⟩ | ⟨-, rfl⟩ | hactive
      · nomatch heq
      · exact hnot hother
      · exact Bool.eq_false_iff.mp (hothers other hother) hactive
    have hrest := ih hnodup hquests hstill hone (Or.inl hself)
    rw [List.foldl_cons]
    refine ⟨hrest.accounted, ?_, fun q hq => ⟨?_, fun kind x hx => ?_⟩, hrest.rooted⟩
    · rw [hrest.count, count_activate (guid_ne_pool hquest), if_pos rfl, List.length_cons]
      omega
    · rw [(hrest.outer q hq).1]
      exact spawnedPools_activate hq fun heq => nomatch heq.1
    · rw [(hrest.outer q hq).2 kind x hx]
      exact member_activate_of_ne hP hquest hrooted hq hx

/-! ### What is drawn -/

variable {draws : ℕ → Draw}

theorem selectRandom_mem (index : ℕ) {quests : List ℕ} (h : quests ≠ []) :
    selectRandom index quests ∈ quests := by
  have hlt : index % quests.length < quests.length :=
    Nat.mod_lt _ (List.length_pos_of_ne_nil h)
  unfold selectRandom
  rw [List.getD_eq_getElem?_getD, List.getElem?_eq_getElem hlt]
  exact List.getElem_mem hlt

theorem length_filter_ne {quests : List ℕ} (hnodup : quests.Nodup) (hmem : guid ∈ quests) :
    (quests.filter (· ≠ guid)).length + 1 = quests.length := by
  have hsame : (fun x => decide (x ≠ guid)) = fun x => x != guid := by
    funext x
    by_cases hx : x = guid <;> simp [hx]
  rw [(List.perm_cons_erase hmem).length_eq, List.length_cons, hnodup.erase_eq_filter, hsame]

/-- Recycled are new quests and quests that were active. -/
theorem recycle_spec (draws : ℕ → Draw) (limit left : ℕ) : ∀ {current new : List ℕ} {s : Spawns},
    new.Nodup → current ≠ [] →
    (recycle draws limit left current new s).1.Nodup ∧
      (∀ questId ∈ (recycle draws limit left current new s).1, questId ∈ new ∨ questId ∈ current) ∧
      (recycle draws limit left current new s).2.data = s.data := by
  induction left with
  | zero => exact fun hnodup _ => ⟨hnodup, fun _ => Or.inl, rfl⟩
  | succ left ih =>
    intro current new s hnodup hcurrent
    have hselect := selectRandom_mem (s.next draws).1.index hcurrent
    unfold recycle
    dsimp only
    generalize selectRandom (s.next draws).1.index current = questId at hselect ⊢
    have hnew : ∀ other ∈ new.insert questId, other ∈ new ∨ other ∈ current := by
      intro other hother
      rcases List.mem_insert_iff.mp hother with rfl | hother
      · exact Or.inr hselect
      · exact Or.inl hother
    split
    case isTrue hmore =>
      obtain ⟨hdone, hfrom, hdata⟩ := ih (s := (s.next draws).2) (hnodup.insert) hmore.2
      refine ⟨hdone, fun other hother => ?_, hdata⟩
      rcases hfrom other hother with hother | hother
      · exact hnew other hother
      · exact Or.inr (List.mem_of_mem_filter hother)
    case isFalse => exact ⟨hnodup.insert, hnew, rfl⟩

theorem countDown_of_pos {limit : ℕ} (hpos : 0 < limit) : countDown limit = limit - 1 :=
  if_neg (Nat.ne_of_gt hpos)

/-- Of the quests as many are activated as the limit says. -/
theorem activateQuests_spec (draws : ℕ → Draw) (pool left : ℕ) : ∀ (limit : ℕ) {new : List ℕ}
    {s : Spawns}, new.Nodup → new.length = left → 0 < limit →
    ∃ quests : List ℕ, quests.Nodup ∧ (∀ questId ∈ quests, questId ∈ new) ∧
      quests.length = min limit left ∧
      (activateQuests draws pool left limit new s).data = quests.foldl (fun data questId =>
        data.activateObject (.object .quest) questId pool) s.data := by
  induction left with
  | zero => exact fun _ _ _ _ _ _ => ⟨[], List.nodup_nil, nofun, (Nat.min_zero _).symm, rfl⟩
  | succ left ih =>
    intro limit new s hnodup hlength hpos
    have hne : new ≠ [] := by
      rintro rfl
      nomatch hlength
    have hselect := selectRandom_mem (s.next draws).1.index hne
    have hlimit := countDown_of_pos hpos
    unfold activateQuests
    dsimp only
    rw [hlimit]
    generalize selectRandom (s.next draws).1.index new = questId at hselect ⊢
    have hless := length_filter_ne hnodup hselect
    split
    case isTrue hmore =>
      obtain ⟨quests, hquests, hfrom, hcount, hdata⟩ := ih (limit - 1)
        (s := (s.next draws).2.activate (.object .quest) questId pool)
        (hnodup.filter (· ≠ questId)) (by omega) (by omega)
      refine ⟨questId :: quests, List.nodup_cons.mpr ⟨fun hmem => ?_, hquests⟩, ?_, ?_, ?_⟩
      · exact of_decide_eq_true (List.mem_filter.mp (hfrom questId hmem)).2 rfl
      · exact List.forall_mem_cons.mpr ⟨hselect, fun other hother =>
          List.mem_of_mem_filter (hfrom other hother)⟩
      · rw [List.length_cons, hcount]
        omega
      · exact hdata
    case isFalse hdone =>
      refine ⟨[questId], List.nodup_singleton _, ?_, ?_, rfl⟩
      · exact fun other hother => List.mem_singleton.mp hother ▸ hselect
      · rw [List.length_singleton]
        rcases not_and_or.mp hdone with hone | hlast
        · omega
        · have hnil := List.length_eq_zero_iff.mpr (not_not.mp hlast)
          omega

/-! ### The quests of a pool -/

/-- What spawning at a pool leaves, from a state where the pool is rooted. -/
structure After (P : LoadedPools) (pool : ℕ) (data data' : ActivePoolData) : Prop where
  accounted : data'.Accounted P
  within : Within P (P.depth pool + 1) data'
  frame : Frame P (P.depth pool + 1) data data'
  rooted : data'.Rooted P pool

/-- **Spawning at a pool**: it spawns some quests, and where these are right the account is kept. -/
def Effect (P : LoadedPools) (pool : ℕ) (s s' : Spawns) : Prop :=
  ∃ calls, s'.questSpawns = calls ++ s.questSpawns ∧
    ((∀ call ∈ calls, Right P call) → s.data.Accounted P → Within P (P.depth pool + 1) s.data →
      s.data.Rooted P pool → After P pool s.data s'.data)

theorem Effect.refl : Effect P pool s s :=
  ⟨[], rfl, fun _ h hwithin hrooted => ⟨h, hwithin, fun _ _ => ⟨rfl, fun _ _ _ => rfl⟩, hrooted⟩⟩

theorem Effect.trans (h : Effect P pool s s') (h' : Effect P pool s' s'') :
    Effect P pool s s'' := by
  obtain ⟨calls, hcalls, hafter⟩ := h
  obtain ⟨calls', hcalls', hafter'⟩ := h'
  refine ⟨calls' ++ calls, by rw [hcalls', hcalls, List.append_assoc],
    fun hright h hwithin hrooted => ?_⟩
  obtain ⟨hright', hright⟩ := List.forall_mem_append.mp hright
  have hfirst := hafter hright h hwithin hrooted
  have hsecond := hafter' hright' hfirst.accounted hfirst.within hfirst.rooted
  exact ⟨hsecond.accounted, hsecond.within, hfirst.frame.trans hsecond.frame, hsecond.rooted⟩

/-- Quests that are gained, in a state from which some were despawned. -/
theorem after_of_gains (more : ℕ) (h : Despawns P (P.depth pool + 1) s s')
    (hgains : Gains P pool more s'.data data)
    (hwithin : Within P (P.depth pool + 1) s.data)
    (hlimit : data.getActiveObjectCount pool ≤ P.maxLimit pool) : After P pool s.data data where
  accounted := hgains.accounted
  within q hq := by
    by_cases hpool : q = pool
    · exact hpool ▸ hlimit
    · have hcount : data.getActiveObjectCount q = s'.data.getActiveObjectCount q := by
        unfold getActiveObjectCount
        rw [(hgains.outer q hpool).1]
      rw [hcount]
      exact Nat.le_trans (h.counts q) (hwithin q hq)
  frame := h.frame.trans fun q hq => hgains.outer q fun heq => Nat.lt_irrefl _ (heq ▸ hq)
  rooted := hgains.rooted

theorem members_quest (P : LoadedPools) (pool : ℕ) : P.members (.object .quest) pool =
    (P.group (.object .quest) pool).equalChanced.map PoolObject.guid := by
  unfold LoadedPools.members PoolGroup.guids PoolGroup.objects
  rw [P.quests_equal, List.append_nil]

/-- The calls that activate quests, as changes of what is active. -/
theorem data_foldl_activate (pool : ℕ) (quests : List ℕ) (s : Spawns) :
    (quests.foldl (fun s questId => s.activate (.object .quest) questId pool) s).data =
      quests.foldl (fun data questId => data.activateObject (.object .quest) questId pool) s.data ∧
    (quests.foldl (fun s questId => s.activate (.object .quest) questId pool) s).questSpawns =
      s.questSpawns := by
  induction quests generalizing s with
  | nil => exact ⟨rfl, rfl⟩
  | cons questId quests ih => exact ih (s.activate (.object .quest) questId pool)

variable {triggerFrom : ℕ}

theorem calls_recycle (limit left : ℕ) : ∀ current new s,
    (recycle draws limit left current new s).2.questSpawns = s.questSpawns := by
  induction left with
  | zero => exact fun _ _ _ => rfl
  | succ left ih =>
    intro current new s
    unfold recycle
    dsimp only
    split
    · exact ih _ _ _
    · rfl

theorem calls_activateQuests (left : ℕ) : ∀ limit new s,
    (activateQuests draws pool left limit new s).questSpawns = s.questSpawns := by
  induction left with
  | zero => exact fun _ _ _ => rfl
  | succ left ih =>
    intro limit new s
    unfold activateQuests
    dsimp only
    split
    · exact ih _ _ _
    · rfl

/-- The quests that are to be active: new ones, and where there are too few some that were. -/
def chosen (P : LoadedPools) (draws : ℕ → Draw) (pool : ℕ) (data : ActivePoolData) (s : Spawns) :
    List ℕ × Spawns :=
  if (newQuests P data pool).length < P.maxLimit pool ∧ data.spawned .quest ≠ [] then
    recycle draws (P.maxLimit pool) (data.spawned .quest).length (data.spawned .quest)
      (newQuests P data pool) s
  else (newQuests P data pool, s)

/-- Choosing and activating quests spawns none. -/
theorem calls_newQuests (data : ActivePoolData) (s : Spawns) :
    let recycled := chosen P draws pool data s
    (if recycled.1 = [] then recycled.2 else
      activateQuests draws pool recycled.1.length (P.maxLimit pool) recycled.1
        recycled.2).questSpawns = s.questSpawns := by
  intro recycled
  have hchosen : recycled.2.questSpawns = s.questSpawns := by
    change (ite _ _ _ : List ℕ × Spawns).2.questSpawns = _
    split
    · exact calls_recycle ..
    · rfl
  split
  · exact hchosen
  · rw [calls_activateQuests, hchosen]

/-- Where they are chosen right, they are quests of the pool. -/
theorem chosen_spec (draws : ℕ → Draw) (hP : P.Distinct)
    (hright : Right P ⟨pool, triggerFrom, [], data⟩) (s : Spawns) :
    (chosen P draws pool data s).1.Nodup ∧
      (∀ questId ∈ (chosen P draws pool data s).1, questId ∈ P.members (.object .quest) pool) ∧
      (chosen P draws pool data s).2.data = s.data ∧
      ((chosen P draws pool data s).1 ≠ [] → 0 < P.maxLimit pool) := by
  unfold Right at hright
  rw [if_neg fun h => h rfl] at hright
  obtain ⟨hown, hlimit, -⟩ := hright
  have hnodup : (newQuests P data pool).Nodup := (hP.nodup _ _).filter _
  have hnew : ∀ questId ∈ newQuests P data pool, questId ∈ P.members (.object .quest) pool :=
    fun _ => List.mem_of_mem_filter
  unfold chosen
  split
  case isTrue hfew =>
    obtain ⟨hdone, hfrom, hdata⟩ := recycle_spec draws (P.maxLimit pool)
      (data.spawned .quest).length (s := s) hnodup hfew.2
    refine ⟨hdone, fun questId hquest => ?_, hdata,
      fun _ => Nat.lt_of_le_of_lt (Nat.zero_le _) hfew.1⟩
    rcases hfrom questId hquest with hquest | hquest
    · exact hnew questId hquest
    · rcases hown with henough | hown
      · exact absurd hfew.1 (Nat.not_lt.mpr henough)
      · exact hown questId hquest
  case isFalse =>
    refine ⟨hnodup, hnew, rfl, fun hsome => ?_⟩
    rcases hlimit with hlimit | hnone
    · exact Nat.pos_of_ne_zero hlimit
    · exact absurd hnone hsome

/-- Quests that are not saved. -/
theorem after_newQuests (hP : P.Distinct) (hright : Right P ⟨pool, triggerFrom, [], s.data⟩)
    (h : s.data.Accounted P) (hwithin : Within P (P.depth pool + 1) s.data)
    (hrooted : s.data.Rooted P pool) :
    let despawned := s.despawnObject P (fun _ s => s) (.object .quest) pool 0
    let recycled := chosen P draws pool s.data despawned
    After P pool s.data (if recycled.1 = [] then recycled.2 else
      activateQuests draws pool recycled.1.length (P.maxLimit pool) recycled.1
        recycled.2).data := by
  intro despawned recycled
  have hchild : Kind.object .quest = .pool → DespawnsChildren P pool (fun _ s => s) := nofun
  obtain ⟨hdespawns, hgone⟩ := despawnsOf_despawnObject hP hchild h 0
  obtain ⟨hnodup, hmem, hdata, hpos⟩ := chosen_spec draws hP hright despawned
  have hrooted' : despawned.data.Rooted P pool := hrooted.of_self fun hself =>
    hdespawns.self.trans hself
  split
  case isTrue hnone =>
    rw [hdata]
    refine after_of_gains 0 hdespawns.despawns
      ⟨hdespawns.despawns.accounted, rfl, fun _ _ => ⟨rfl, fun _ _ _ => rfl⟩, hrooted'⟩ hwithin ?_
    exact Nat.le_trans (hdespawns.despawns.counts pool) (hwithin pool (Nat.lt_succ_self _))
  case isFalse hsome =>
    obtain ⟨quests, hquests, hfrom, hcount, hactivated⟩ := activateQuests_spec draws
      pool recycled.1.length (P.maxLimit pool) (s := recycled.2) hnodup rfl (hpos hsome)
    rw [hactivated, hdata]
    have hgains := gains_activateAll hP hquests
      (fun questId hquest => hmem questId (hfrom questId hquest))
      (fun questId hquest => hgone questId (hmem questId (hfrom questId hquest)) (Or.inl rfl))
      hdespawns.despawns.accounted hrooted'
    refine after_of_gains _ hdespawns.despawns hgains hwithin ?_
    have hothers : despawned.data.activeMembers P pool ≤ s.data.activeOthers P pool := by
      have hquest : despawned.data.activeOf P (.object .quest) pool = 0 :=
        List.countP_eq_zero.mpr fun x hx => Bool.eq_false_iff.mp (hgone x hx (Or.inl rfl))
      have hfewer : ∀ kind, despawned.data.activeOf P kind pool ≤ s.data.activeOf P kind pool :=
        fun kind => List.countP_mono_left fun x _ => hdespawns.despawns.antitone kind x
      unfold activeMembers activeOthers
      rw [hquest, Nat.add_zero]
      exact Nat.add_le_add (Nat.add_le_add (hfewer _) (hfewer _)) (hfewer _)
    have hmine : recycled.1.length ≤ (P.members (.object .quest) pool).length :=
      (List.subperm_of_subset hnodup hmem).length_le
    unfold Right at hright
    rw [if_neg fun h => h rfl] at hright
    have hroom : s.data.activeOthers P pool + min (P.maxLimit pool)
        (P.members (.object .quest) pool).length ≤ P.maxLimit pool := hright.2.2
    have hfit : min (P.maxLimit pool) recycled.1.length ≤
        min (P.maxLimit pool) (P.members (.object .quest) pool).length := by omega
    rw [hgains.count, hcount, hdespawns.despawns.accounted.count]
    exact Nat.le_trans (Nat.add_le_add hothers hfit) hroom

/-- **`SpawnObject` of quests.** -/
theorem effect_spawnQuests (hP : P.Distinct) :
    Effect P pool s (s.spawnQuests P draws pool triggerFrom) := by
  unfold spawnQuests
  generalize (if triggerFrom = 0 then (s.next draws).1.rows else []) = rows
  by_cases hrows : rows ≠ []
  · rw [if_pos hrows]
    obtain ⟨hdata, hcalls⟩ := data_foldl_activate pool (restored (P.maxLimit pool) rows)
      ⟨s.data, s.drawn + 1, ⟨pool, triggerFrom, rows, s.data⟩ :: s.questSpawns⟩
    refine ⟨[⟨pool, triggerFrom, rows, s.data⟩], hcalls, fun hright h hwithin hrooted => ?_⟩
    have hright := hright _ (List.mem_singleton.mpr rfl)
    unfold Right at hright
    rw [if_pos hrows] at hright
    obtain ⟨hnodup, hmem, hroom⟩ := hright
    have hgains := gains_activateAll hP hnodup (fun questId hquest => (hmem questId hquest).1)
      (fun questId hquest => decide_eq_false (hmem questId hquest).2) h hrooted
    rw [hdata]
    refine after_of_gains _ (Despawns.refl h) hgains hwithin ?_
    rw [hgains.count]
    exact hroom
  · rw [if_neg hrows]
    have hnone : rows = [] := not_not.mp hrows
    subst hnone
    rw [← members_quest]
    refine ⟨[⟨pool, triggerFrom, [], s.data⟩], ?_, fun hright h hwithin hrooted => ?_⟩
    · refine (calls_newQuests s.data _).trans ?_
      exact calls_despawnObject (fun _ _ => rfl) _ _ _ _
    · exact after_newQuests hP (s := ⟨s.data, s.drawn + 1,
        ⟨pool, triggerFrom, [], s.data⟩ :: s.questSpawns⟩) (hright _ (List.mem_singleton.mpr rfl))
        h hwithin hrooted

/-! ## 6. Turns -/

theorem rollExplicitly_spec {roll : ℚ} {objs : List PoolObject} (hguid :
    rollExplicitly data kind triggerFrom roll objs = some guid) :
    guid ∈ objs.map PoolObject.guid ∧
      (guid = triggerFrom ∨ data.isActiveObject kind guid = false) := by
  induction objs generalizing roll with
  | nil => nomatch hguid
  | cons obj objs ih =>
    unfold rollExplicitly at hguid
    split at hguid
    case isTrue hthis =>
      obtain rfl := Option.some.inj hguid
      exact ⟨List.mem_cons_self, hthis.2⟩
    case isFalse =>
      obtain ⟨hmem, hfree⟩ := ih hguid
      exact ⟨List.mem_cons_of_mem _ hmem, hfree⟩

/-- What is rolled is a member: the one that is to come back, or one that is not active. -/
theorem rollOne_spec (P : LoadedPools) (draws : ℕ → Draw) (s : Spawns) (kind : Kind)
    (pool triggerFrom : ℕ) :
    (s.rollOne P draws kind pool triggerFrom).2.data = s.data ∧
      (s.rollOne P draws kind pool triggerFrom).2.questSpawns = s.questSpawns ∧
      ∀ guid, (s.rollOne P draws kind pool triggerFrom).1 = some guid →
        guid ∈ P.members kind pool ∧
          (guid = triggerFrom ∨ s.data.isActiveObject kind guid = false) := by
  have hequal : ∀ index (obj : PoolObject), (P.group kind pool).equalChanced[index]? = some obj →
      obj.guid ∈ P.members kind pool := fun index obj hobj =>
    List.mem_map.mpr ⟨obj, List.mem_append_left _ (List.mem_of_getElem? hobj), rfl⟩
  have hexplicit : ∀ guid ∈ (P.group kind pool).explicitlyChanced.map PoolObject.guid,
      guid ∈ P.members kind pool := fun guid hguid =>
    List.map_subset _ (List.subset_append_right _ _) hguid
  have hexplicitly : ∀ rolled,
      (if (P.group kind pool).explicitlyChanced = [] then (none, s)
      else (rollExplicitly s.data kind triggerFrom (s.next draws).1.chance
        (P.group kind pool).explicitlyChanced, (s.next draws).2)) = rolled →
      rolled.2.data = s.data ∧ rolled.2.questSpawns = s.questSpawns ∧
        ∀ guid, rolled.1 = some guid → guid ∈ P.members kind pool ∧
          (guid = triggerFrom ∨ s.data.isActiveObject kind guid = false) := by
    rintro _ rfl
    split
    · exact ⟨rfl, rfl, nofun⟩
    · refine ⟨rfl, rfl, fun guid hguid => ?_⟩
      obtain ⟨hmem, hfree⟩ := rollExplicitly_spec hguid
      exact ⟨hexplicit guid hmem, hfree⟩
  unfold rollOne
  dsimp only
  split
  case h_1 guid between hrolled => exact hexplicitly _ hrolled
  case h_2 between hrolled =>
    obtain ⟨hdata, hcalls, -⟩ := hexplicitly _ hrolled
    split
    · exact ⟨hdata, hcalls, nofun⟩
    · split
      case isTrue hfree =>
        refine ⟨hdata, hcalls, fun guid hguid => ?_⟩
        obtain rfl := Option.some.inj hguid
        exact ⟨hequal _ _ ‹_›, hdata ▸ hfree⟩
      case isFalse => exact ⟨hdata, hcalls, nofun⟩

/-- The pools other than this one, and no deeper, are within their limits. -/
def OthersWithin (P : LoadedPools) (pool : ℕ) (data : ActivePoolData) : Prop :=
  ∀ q, q ≠ pool → P.depth q ≤ P.depth pool → data.getActiveObjectCount q ≤ P.maxLimit q

/-- A state in which members of a pool are spawned, and what led to it. -/
structure Spawning (P : LoadedPools) (pool : ℕ) (data data' : ActivePoolData) : Prop where
  accounted : data'.Accounted P
  others : OthersWithin P pool data'
  frame : Frame P (P.depth pool + 1) data data'
  rooted : data'.Rooted P pool

theorem Spawning.trans (h : Spawning P pool data data') (h' : Spawning P pool data' data'') :
    Spawning P pool data data'' := ⟨h'.accounted, h'.others, h.frame.trans h'.frame, h'.rooted⟩

/-- What is asked of spawning a child pool. -/
def SpawnsChildren (P : LoadedPools) (pool : ℕ) (spawnChild : ℕ → Spawns → Spawns) : Prop :=
  ∀ child ∈ P.members .pool pool, ∀ s, Effect P child s (spawnChild child s)

theorem Spawning.refl (h : data.Accounted P) (hothers : OthersWithin P pool data)
    (hrooted : data.Rooted P pool) : Spawning P pool data data :=
  ⟨h, hothers, fun _ _ => ⟨rfl, fun _ _ _ => rfl⟩, hrooted⟩

theorem Spawning.self (h : Spawning P pool data data') : Spawning P pool data' data' :=
  .refl h.accounted h.others h.rooted

/-- A member becomes active. -/
theorem spawning_activate (hP : P.Distinct) (h : Spawning P pool data data)
    (hmem : guid ∈ P.members kind pool) (hinactive : data.isActiveObject kind guid = false) :
    Spawning P pool data (data.activateObject kind guid pool) where
  accounted := accounted_activate hP h.accounted hmem h.rooted hinactive
  others q hq hdepth := by
    rw [count_activate (guid_ne_pool hmem), if_neg hq]
    split
    · exact Nat.zero_le _
    · exact h.others q hq hdepth
  frame q hq := by
    have hne : q ≠ pool := fun heq => Nat.lt_irrefl _ (heq ▸ hq)
    refine ⟨spawnedPools_activate hne ?_,
      fun other x hx => member_activate_of_ne hP hmem h.rooted hne hx⟩
    rintro ⟨rfl, rfl⟩
    exact Nat.lt_irrefl _ (Nat.lt_trans (P.depth_lt pool q hmem) hq)
  rooted := Or.inl ((isActiveObject_activate ..).mpr (Or.inl ⟨rfl, rfl⟩))

/-- A member is spawned: if it is a pool, its own members are. -/
theorem spawn1Object_spec {spawnChild : ℕ → Spawns → Spawns}
    (hchild : kind = .pool → SpawnsChildren P pool spawnChild) (hmem : guid ∈ P.members kind pool)
    (hactive : s.data.isActiveObject kind guid = true) :
    ∃ calls, (spawn1Object spawnChild kind guid s).questSpawns = calls ++ s.questSpawns ∧
      ((∀ call ∈ calls, Right P call) → Spawning P pool s.data s.data →
        Spawning P pool s.data (spawn1Object spawnChild kind guid s).data ∧
          Frame P (P.depth pool) s.data (spawn1Object spawnChild kind guid s).data) := by
  cases kind with
  | object kind => exact ⟨[], rfl, fun _ h => ⟨h, fun _ _ => ⟨rfl, fun _ _ _ => rfl⟩⟩⟩
  | pool =>
    obtain ⟨calls, hcalls, hafter⟩ := hchild rfl guid hmem s
    have hdepth := P.depth_lt pool guid hmem
    refine ⟨calls, hcalls, fun hright h => ?_⟩
    have hspawned := hafter hright h.accounted
      (fun q hq => h.others q (fun heq => by rw [heq] at hq; omega) (by omega)) (Or.inl hactive)
    have hframe : Frame P (P.depth pool) s.data (spawnChild guid s).data :=
      hspawned.frame.mono hdepth
    refine ⟨⟨hspawned.accounted, fun q hq hle => ?_, hframe.mono (Nat.le_succ _), ?_⟩, hframe⟩
    · by_cases hlow : P.depth q < P.depth guid + 1
      · exact hspawned.within q hlow
      · change (spawnChild guid s).data.getActiveObjectCount q ≤ _
        rw [hspawned.frame.count (Nat.not_lt.mp hlow)]
        exact h.others q hq hle
    · exact h.rooted.of_self fun hself => (hframe.self (Nat.le_refl _)).trans hself

/-- One member, which is active, is despawned: there is one less. -/
theorem despawnTrigger_spec {despawnChild : ℕ → Spawns → Spawns} (hP : P.Distinct)
    (hchild : kind = .pool → DespawnsChildren P pool despawnChild)
    (h : Spawning P pool s.data s.data) (hmem : guid ∈ P.members kind pool) (hguid : guid ≠ 0)
    (hactive : s.data.isActiveObject kind guid = true) :
    Spawning P pool s.data (s.despawnObject P despawnChild kind pool guid).data ∧
      s.data.getActiveObjectCount pool =
        (s.despawnObject P despawnChild kind pool guid).data.getActiveObjectCount pool + 1 := by
  obtain ⟨hdespawns, hgone⟩ := despawnsOf_despawnObject hP hchild h.accounted guid
  refine ⟨⟨hdespawns.despawns.accounted, fun q hq hdepth => ?_, hdespawns.despawns.frame, ?_⟩, ?_⟩
  · exact Nat.le_trans (hdespawns.despawns.counts q) (h.others q hq hdepth)
  · exact h.rooted.of_self fun hself => hdespawns.self.trans hself
  · rw [h.accounted.count, hdespawns.despawns.accounted.count]
    refine activeMembers_one_more kind ?_ fun other hother => ?_
    · refine countP_one_more (hP.nodup kind pool) hmem (hgone guid hmem (Or.inr rfl)) hactive ?_
      intro x hx hne
      exact (hdespawns.others kind x hx fun hx => hx.2.elim hguid hne).symm
    · exact List.countP_congr fun x hx => by
        rw [hdespawns.others other x hx fun heq => hother heq.1]

/-! ## 7. Spawning -/

/-- What is spawned in the loop: it keeps the account of the pool, and its limit. -/
def Loops (P : LoadedPools) (pool : ℕ) (s s' : Spawns) : Prop :=
  ∃ calls, s'.questSpawns = calls ++ s.questSpawns ∧
    ((∀ call ∈ calls, Right P call) → Spawning P pool s.data s'.data ∧
      s'.data.getActiveObjectCount pool ≤ P.maxLimit pool)

/-- A turn, and the turns after it. -/
theorem Loops.after {calls : List QuestSpawn} (hcalls : s'.questSpawns = calls ++ s.questSpawns)
    (hturn : (∀ call ∈ calls, Right P call) → Spawning P pool s.data s'.data ∧ Loops P pool s' s'')
    (hrest : ∃ calls', s''.questSpawns = calls' ++ s'.questSpawns) : Loops P pool s s'' := by
  obtain ⟨calls', hcalls'⟩ := hrest
  refine ⟨calls' ++ calls, by rw [hcalls', hcalls, List.append_assoc], fun hright => ?_⟩
  obtain ⟨hright', hright⟩ := List.forall_mem_append.mp hright
  obtain ⟨hfirst, calls'', hsame, hloops⟩ := hturn hright
  obtain rfl := List.append_cancel_right (hcalls'.symm.trans hsame)
  obtain ⟨hspawning, hlimit⟩ := hloops hright'
  exact ⟨hfirst.trans hspawning, hlimit⟩

theorem turnsOf_le {limit active : ℕ} (h : active ≤ limit) (triggerFrom : ℕ) :
    active + turnsOf limit active triggerFrom ≤ limit + if triggerFrom ≠ 0 then 1 else 0 := by
  have hless : ((limit : ℤ) - active).bmod (2 ^ 32) ≤ (limit : ℤ) - active := by
    have hword : ((2 ^ 32 : ℕ) : ℤ) = 4294967296 := rfl
    rw [Int.bmod_def, hword]
    split <;> omega
  unfold turnsOf
  split <;> omega

section spawn

variable {spawnChild despawnChild : ℕ → Spawns → Spawns} (hP : P.Distinct)
  (hspawn : kind = .pool → SpawnsChildren P pool spawnChild)
  (hdespawn : kind = .pool → DespawnsChildren P pool despawnChild)
  (hquiet : ∀ child s, (despawnChild child s).questSpawns = s.questSpawns)
include hspawn hquiet

/-- What quests are spawned is added to those that were. -/
theorem calls_spawnLoop (draws : ℕ → Draw) (turns : ℕ) : ∀ triggerFrom lastDespawned (s : Spawns),
    ∃ calls, (spawnLoop P draws spawnChild despawnChild kind pool turns triggerFrom lastDespawned
      s).questSpawns = calls ++ s.questSpawns := by
  induction turns with
  | zero => exact fun _ _ _ => ⟨[], rfl⟩
  | succ turns ih =>
    intro triggerFrom lastDespawned s
    obtain ⟨hdata, hcalls, hmember⟩ := rollOne_spec P draws s kind pool triggerFrom
    unfold spawnLoop
    generalize s.rollOne P draws kind pool triggerFrom = rolled at hdata hcalls hmember ⊢
    obtain ⟨guid, between⟩ := rolled
    cases guid with
    | none => exact hcalls ▸ ih triggerFrom lastDespawned between
    | some guid =>
      obtain ⟨hmem, -⟩ := hmember guid rfl
      dsimp only
      split
      · exact hcalls ▸ ih triggerFrom lastDespawned between
      · split
        · exact hcalls ▸ ih 0 lastDespawned between
        · obtain ⟨calls, hspawned, -⟩ := spawn1Object_spec (s := between.activate kind guid pool)
            hspawn hmem ((isActiveObject_activate ..).mpr (Or.inr (Or.inl ⟨rfl, rfl⟩)))
          have hmore : ∀ {s' : Spawns}, (∃ calls', s'.questSpawns = calls' ++
              (spawn1Object spawnChild kind guid (between.activate kind guid pool)).questSpawns) →
              ∃ calls', s'.questSpawns = calls' ++ s.questSpawns := by
            rintro s' ⟨calls', hcalls'⟩
            refine ⟨calls' ++ calls, ?_⟩
            rw [hcalls', hspawned, List.append_assoc]
            exact congrArg _ (congrArg _ hcalls)
          split
          · obtain ⟨calls', hcalls'⟩ := ih 0 triggerFrom
              ((spawn1Object spawnChild kind guid (between.activate kind guid pool)).despawnObject P
                despawnChild kind pool triggerFrom)
            exact hmore ⟨calls', hcalls'.trans (congrArg _ (calls_despawnObject hquiet _ _ _ _))⟩
          · exact hmore (ih 0 lastDespawned _)

include hP hdespawn

/-- **The loop of `SpawnObject`.**  While a member is to come back it is counted twice, and there is
one turn more. -/
theorem loops_spawnLoop (draws : ℕ → Draw) (turns : ℕ) : ∀ {triggerFrom : ℕ} (lastDespawned : ℕ)
    {s : Spawns},
    Spawning P pool s.data s.data →
    (triggerFrom ≠ 0 → triggerFrom ∈ P.members kind pool ∧
      s.data.isActiveObject kind triggerFrom = true) →
    s.data.getActiveObjectCount pool ≤ P.maxLimit pool →
    s.data.getActiveObjectCount pool + turns ≤
      P.maxLimit pool + (if triggerFrom ≠ 0 then 1 else 0) →
    Loops P pool s (spawnLoop P draws spawnChild despawnChild kind pool turns triggerFrom
      lastDespawned s) := by
  induction turns with
  | zero => exact fun _ _ h _ hlimit _ => ⟨[], rfl, fun _ => ⟨h, hlimit⟩⟩
  | succ turns ih =>
    intro triggerFrom lastDespawned s h htrigger hlimit hroom
    obtain ⟨hdata, hcalls, hmember⟩ := rollOne_spec P draws s kind pool triggerFrom
    unfold spawnLoop
    generalize s.rollOne P draws kind pool triggerFrom = rolled at hdata hcalls hmember ⊢
    obtain ⟨guid, between⟩ := rolled
    have hsame : ∀ {s' : Spawns}, Loops P pool between s' → Loops P pool s s' := by
      rintro s' ⟨calls, hcalls', hloops⟩
      refine ⟨calls, hcalls'.trans (congrArg _ hcalls), fun hright => ?_⟩
      exact hdata ▸ hloops hright
    have h' : Spawning P pool between.data between.data := hdata.symm ▸ h
    have htrigger' : triggerFrom ≠ 0 → triggerFrom ∈ P.members kind pool ∧
        between.data.isActiveObject kind triggerFrom = true := hdata.symm ▸ htrigger
    have hcount : between.data.getActiveObjectCount pool = s.data.getActiveObjectCount pool :=
      congrArg (ActivePoolData.getActiveObjectCount · pool) hdata
    cases guid with
    | none => exact hsame (ih _ h' htrigger' (by omega) (by omega))
    | some guid =>
      obtain ⟨hmem, hfree⟩ := hmember guid rfl
      dsimp only
      by_cases hlast : guid = lastDespawned
      · rw [if_pos hlast]
        exact hsame (ih _ h' htrigger' (by omega) (by omega))
      · rw [if_neg hlast]
        by_cases hback : guid = triggerFrom
        · rw [if_pos hback]
          refine hsame (ih _ h' (fun hne => absurd rfl hne) (by omega) ?_)
          rw [if_neg fun hne => hne rfl]
          split at hroom <;> omega
        · rw [if_neg hback]
          have hinactive : between.data.isActiveObject kind guid = false :=
            hdata.symm ▸ hfree.resolve_left hback
          have hactivate := spawning_activate hP h' hmem hinactive
          have hmore : (between.activate kind guid pool).data.getActiveObjectCount pool =
              between.data.getActiveObjectCount pool + 1 :=
            (count_activate (guid_ne_pool hmem) pool).trans (if_pos rfl)
          obtain ⟨calls, hspawned, hspawning⟩ := spawn1Object_spec hspawn hmem
            (s := between.activate kind guid pool)
            ((isActiveObject_activate ..).mpr (Or.inr (Or.inl ⟨rfl, rfl⟩)))
          have hquests := calls_spawnLoop hspawn hquiet draws turns
          by_cases hnone : triggerFrom = 0
          · rw [if_neg (not_not.mpr hnone)] at hroom ⊢
            refine hsame (.after hspawned (fun hright => ?_) (hquests ..))
            obtain ⟨hchildren, hframe⟩ := hspawning hright hactivate.self
            have hstays := hframe.count (Nat.le_refl (P.depth pool))
            refine ⟨hactivate.trans hchildren,
              ih _ hchildren.self (fun hne => absurd rfl hne) ?_ ?_⟩
            · omega
            · rw [if_neg fun hne => hne rfl]
              omega
          · rw [if_pos hnone] at hroom ⊢
            obtain ⟨hmine, hcomes⟩ := htrigger' hnone
            refine hsame (.after ((calls_despawnObject hquiet _ _ _ _).trans hspawned)
              (fun hright => ?_) (hquests ..))
            obtain ⟨hchildren, hframe⟩ := hspawning hright hactivate.self
            have hstays := hframe.count (Nat.le_refl (P.depth pool))
            have hstill : (spawn1Object spawnChild kind guid (between.activate kind guid
                pool)).data.isActiveObject kind triggerFrom = true :=
              ((hframe pool (Nat.le_refl _)).2 kind triggerFrom hmine).trans
                ((isActiveObject_activate ..).mpr (Or.inr (Or.inr hcomes)))
            obtain ⟨hdespawned, hone⟩ :=
              despawnTrigger_spec hP hdespawn hchildren.self hmine hnone hstill
            refine ⟨(hactivate.trans hchildren).trans hdespawned,
              ih _ hdespawned.self (fun hne => absurd rfl hne) ?_ ?_⟩
            · omega
            · rw [if_neg fun hne => hne rfl]
              omega

/-- **`SpawnObject`**, where a member that is to come back is active. -/
theorem effect_spawnObject (s : Spawns) (htrigger : s.data.Accounted P → triggerFrom ≠ 0 →
      triggerFrom ∈ P.members kind pool ∧ s.data.isActiveObject kind triggerFrom = true) :
    Effect P pool s (s.spawnObject P draws spawnChild despawnChild kind pool triggerFrom) := by
  unfold spawnObject
  split
  case isTrue => exact .refl
  case isFalse =>
    split
    case h_1 => exact effect_spawnQuests hP
    case h_2 =>
      obtain ⟨calls, hcalls⟩ := calls_spawnLoop hspawn hquiet draws
        (turnsOf (P.maxLimit pool) (s.data.getActiveObjectCount pool) triggerFrom) triggerFrom 0 s
      refine ⟨calls, hcalls, fun hright h hwithin hrooted => ?_⟩
      have hlimit := hwithin pool (Nat.lt_succ_self _)
      have hspawning : Spawning P pool s.data s.data :=
        .refl h (fun q _ hdepth => hwithin q (Nat.lt_succ_of_le hdepth)) hrooted
      obtain ⟨calls', hsame, hloops⟩ := loops_spawnLoop hP hspawn hdespawn hquiet draws _ 0
        hspawning (htrigger h) hlimit (turnsOf_le hlimit triggerFrom)
      obtain rfl := List.append_cancel_right (hcalls.symm.trans hsame)
      obtain ⟨hdone, hwithin'⟩ := hloops hright
      refine ⟨hdone.accounted, fun q hq => ?_, hdone.frame, hdone.rooted⟩
      by_cases hpool : q = pool
      · exact hpool ▸ hwithin'
      · exact hdone.others q hpool (Nat.le_of_lt_succ hq)

end spawn

/-- **`SpawnPool`**. -/
theorem effect_spawnPool (hP : P.Distinct) (depth : ℕ) : ∀ {pool : ℕ} {s : Spawns},
    P.depth pool < depth → Effect P pool s (spawnPool P draws depth pool s) := by
  induction depth with
  | zero => exact fun hdepth => absurd hdepth (Nat.not_lt_zero _)
  | succ depth ih =>
    intro pool s hdepth
    have hchild : ∀ child ∈ P.members .pool pool, P.depth child < depth := fun child hmem =>
      Nat.lt_of_lt_of_le (P.depth_lt pool child hmem) (Nat.le_of_lt_succ hdepth)
    have hone : ∀ kind s, Effect P pool s
        (s.spawnObject P draws (spawnPool P draws depth) (despawnPool P depth) kind pool 0) :=
      fun kind s => effect_spawnObject hP (fun _ child hmem _ => ih (hchild child hmem))
        (fun _ child hmem _ h => despawns_despawnPool hP depth (hchild child hmem) h)
        (calls_despawnPool depth) s fun _ hne => absurd rfl hne
    exact (((hone _ _).trans (hone _ _)).trans (hone _ _)).trans (hone _ _)

/-- **`UpdatePool`**, for a member of a pool that is active. -/
theorem effect_updatePool (hP : P.Distinct) (hmem : guid ∈ P.members kind pool)
    (hactive : s.data.isActiveObject kind guid = true) (h : s.data.Accounted P) :
    ∃ root, s.data.Rooted P root ∧ Effect P root s (s.updatePool P draws kind pool guid) := by
  have hself := (active_of_member h hmem hactive).2
  have hone : ∀ kind root guid, guid ∈ P.members kind root →
      s.data.isActiveObject kind guid = true →
      Effect P root s (s.spawnObject P draws (spawnPool P draws (P.depth root))
        (despawnPool P (P.depth root)) kind root guid) :=
    fun kind root guid hmem hactive => effect_spawnObject hP
      (fun _ child hchild _ => effect_spawnPool hP _ (P.depth_lt root child hchild))
      (fun _ child hchild _ h => despawns_despawnPool hP _ (P.depth_lt root child hchild) h)
      (calls_despawnPool _) s fun _ _ => ⟨hmem, hactive⟩
  unfold updatePool
  by_cases hmother : P.motherOf pool ≠ 0
  · rw [if_pos hmother]
    have hchild := P.motherOf_mem pool hmother
    exact ⟨P.motherOf pool, Or.inl (h.mother _ pool hchild hself), hone .pool _ pool hchild hself⟩
  · rw [if_neg hmother]
    exact ⟨pool, Or.inl hself, hone kind pool guid hmem hactive⟩

end Spawns

/-! ## 8. Runs -/

namespace ActivePoolData

/-- The account, and the limits. -/
structure Sound (P : LoadedPools) (data : ActivePoolData) : Prop where
  accounted : data.Accounted P
  limit : ∀ pool, data.getActiveObjectCount pool ≤ P.maxLimit pool

/-- Nothing is active before the first operation. -/
def empty : ActivePoolData := ⟨fun _ => [], fun _ => none⟩

theorem sound_empty (P : LoadedPools) : (empty : ActivePoolData).Sound P := by
  have hnone : ∀ kind x, ¬ (empty : ActivePoolData).isActiveObject kind x = true := by
    intro kind x
    cases kind with
    | object kind => exact fun hactive => List.not_mem_nil (isActiveObject_object.mp hactive)
    | pool => exact Bool.false_ne_true
  have hzero : ∀ kind pool, (empty : ActivePoolData).activeOf P kind pool = 0 := fun kind pool =>
    List.countP_eq_zero.mpr fun x _ => hnone kind x
  refine ⟨⟨fun pool => ?_, fun _ => List.nodup_nil, fun _ _ hmem => absurd hmem List.not_mem_nil,
    fun pool child _ hactive => absurd hactive (hnone .pool child)⟩, fun pool => Nat.zero_le _⟩
  unfold activeMembers activeOthers
  rw [hzero, hzero, hzero, hzero]
  rfl

/-- **What is asked of an operation.**  A pool is spawned by itself only if it is active or has no
mother; what comes back is an active member; and wherever quests are spawned they are right. -/
def Proper (P : LoadedPools) (data : ActivePoolData) (op : PoolOp × (ℕ → Draw)) : Prop :=
  (∀ call ∈ (data.handle P op).questSpawns, Spawns.Right P call) ∧
    match op.1 with
    | .spawnPool pool => data.Rooted P pool
    | .updatePool kind pool guid =>
      guid ∈ P.members kind pool ∧ data.isActiveObject kind guid = true
    | .despawnPool _ => True

theorem Sound.of_effect {root : ℕ} (h : data.Sound P) (hrooted : data.Rooted P root)
    (heffect : Spawns.Effect P root ⟨data, 0, []⟩ s)
    (hright : ∀ call ∈ s.questSpawns, Spawns.Right P call) : s.data.Sound P := by
  obtain ⟨calls, hcalls, hafter⟩ := heffect
  rw [List.append_nil] at hcalls
  have hdone := hafter (hcalls ▸ hright) h.accounted (fun q _ => h.limit q) hrooted
  refine ⟨hdone.accounted, fun q => ?_⟩
  by_cases hlow : P.depth q < P.depth root + 1
  · exact hdone.within q hlow
  · rw [hdone.frame.count (Nat.not_lt.mp hlow)]
    exact h.limit q

theorem sound_step (hP : P.Distinct) (h : data.Sound P) {op : PoolOp × (ℕ → Draw)}
    (hop : data.Proper P op) : (data.step P op).Sound P := by
  obtain ⟨op, draws⟩ := op
  obtain ⟨hright, hop⟩ := hop
  cases op with
  | spawnPool pool =>
    exact h.of_effect hop (Spawns.effect_spawnPool hP _ (Nat.lt_succ_self _)) hright
  | updatePool kind pool guid =>
    obtain ⟨root, hrooted, heffect⟩ := Spawns.effect_updatePool (s := ⟨data, 0, []⟩) hP hop.1 hop.2
      h.accounted
    exact h.of_effect hrooted heffect hright
  | despawnPool pool =>
    obtain ⟨hdespawns, -⟩ := Spawns.despawns_despawnPool (s := ⟨data, 0, []⟩) hP (P.depth pool + 1)
      (Nat.lt_succ_self _) h.accounted
    exact ⟨hdespawns.accounted, fun q => Nat.le_trans (hdespawns.counts q) (h.limit q)⟩

/-- Below a pool without active members nothing is active. -/
theorem activeMembers_below (h : data.Accounted P) (hzero : data.activeMembers P pool = 0)
    {below : ℕ} (hbelow : Relation.ReflTransGen (fun c m => c ∈ P.members .pool m) below pool) :
    data.activeMembers P below = 0 := by
  induction hbelow using Relation.ReflTransGen.head_induction_on with
  | refl => exact hzero
  | head hchild _ ih =>
    rw [← h.count] at ih ⊢
    refine count_of_inactive fun hactive => ?_
    exact absurd (active_of_member h hchild hactive).1 (ih ▸ Nat.lt_irrefl 0)

/-- **`DespawnPool` empties all pools below**, whatever has happened in a proper run. -/
theorem despawned_below (hP : P.Distinct) (ops : List (PoolOp × (ℕ → Draw)))
    (hops : Along (step P) (Proper P) .empty ops) (draws : ℕ → Draw) {below : ℕ}
    (hbelow : Relation.ReflTransGen (fun c m => c ∈ P.members .pool m) below pool) :
    ((exec (step P) .empty ops).step P (.despawnPool pool, draws)).activeMembers P below = 0 := by
  have hstep : ∀ (data : ActivePoolData) op, data.Sound P → data.Proper P op →
      (data.step P op).Sound P := fun _ _ h hop => sound_step hP h hop
  have hsound := exec_invariant hstep (sound_empty P) hops
  obtain ⟨hdespawns, hzero⟩ := Spawns.despawns_despawnPool (s := ⟨_, 0, []⟩) hP (P.depth pool + 1)
    (Nat.lt_succ_self _) hsound.accounted
  exact activeMembers_below hdespawns.accounted hzero hbelow

end ActivePoolData

/-- **Pool accounting**: in a run whose operations are all proper, from the start on. -/
theorem pool_accounting (P : LoadedPools) (hP : P.Distinct) (ops : List (PoolOp × (ℕ → Draw)))
    (hops : Along (ActivePoolData.step P) (ActivePoolData.Proper P) .empty ops) :
    (exec (ActivePoolData.step P) .empty ops).Sound P := by
  have hstep : ∀ (data : ActivePoolData) op, data.Sound P → data.Proper P op →
      (data.step P op).Sound P :=
    fun data op h hop => ActivePoolData.sound_step hP h hop
  exact exec_invariant hstep (ActivePoolData.sound_empty P) hops

/-! ### Two creatures in a pool that is the child of another, and two pools of a quest -/

/-- A kind, a pool, and a member. -/
def someMembers : List (Kind × ℕ × ℕ) :=
  [(.object .creature, 1, 10), (.object .creature, 1, 11), (.pool, 5, 1), (.object .quest, 2, 20),
    (.object .quest, 3, 30)]

def somePools : LoadedPools where
  maxLimit _ := 1
  group kind pool := ⟨[], (someMembers.filter fun m => m.1 = kind ∧ m.2.1 = pool).map fun m =>
    ⟨m.2.2, 0⟩⟩
  motherOf child := if child = 1 then 5 else 0
  depth pool := if pool = 5 then 1 else 0
  depth_lt pool child hchild := by
    obtain ⟨_, hobj, rfl⟩ := List.mem_map.mp hchild
    rw [PoolGroup.objects, List.append_nil] at hobj
    obtain ⟨m, hlisted, rfl⟩ := List.mem_map.mp hobj
    obtain ⟨hin, hat⟩ := List.mem_filter.mp hlisted
    obtain ⟨hkind, rfl⟩ := of_decide_eq_true hat
    have hless : ∀ m ∈ someMembers, m.1 = .pool →
        (if m.2.2 = 5 then 1 else 0) < if m.2.1 = 5 then 1 else 0 := by decide
    exact hless m hin hkind
  motherOf_mem child hmother := by
    split at hmother
    case isTrue hchild =>
      subst hchild
      decide
    case isFalse => exact absurd rfl hmother
  quests_equal _ := rfl

theorem mem_somePools : guid ∈ somePools.members kind pool ↔ (kind, pool, guid) ∈ someMembers := by
  constructor
  · intro hmem
    obtain ⟨_, hobj, rfl⟩ := List.mem_map.mp hmem
    have hobj := (List.mem_append.mp hobj).resolve_right List.not_mem_nil
    obtain ⟨m, hlisted, rfl⟩ := List.mem_map.mp hobj
    obtain ⟨hin, hat⟩ := List.mem_filter.mp hlisted
    obtain ⟨rfl, rfl⟩ := of_decide_eq_true hat
    exact hin
  · intro hmem
    have hobj : (⟨guid, 0⟩ : PoolObject) ∈ (somePools.group kind pool).equalChanced :=
      List.mem_map.mpr ⟨_, List.mem_filter.mpr ⟨hmem, decide_eq_true ⟨rfl, rfl⟩⟩, rfl⟩
    exact List.mem_map.mpr ⟨_, List.mem_append_left _ hobj, rfl⟩

/-- Always the first is drawn, and nothing is saved. -/
def firstDrawn : ℕ → Draw := fun _ => ⟨0, 0, []⟩

/-- Always the last of two is drawn. -/
def lastDrawn : ℕ → Draw := fun _ => ⟨0, 1, []⟩

theorem somePools_distinct : somePools.Distinct where
  nodup kind pool := by
    have hnodup : ∀ m ∈ someMembers, (somePools.members m.1 m.2.1).Nodup := by decide
    by_cases hnone : somePools.members kind pool = []
    · exact hnone ▸ List.nodup_nil
    · obtain ⟨guid, hguid⟩ := List.exists_mem_of_ne_nil _ hnone
      exact hnodup _ (mem_somePools.mp hguid)
  unique kind pool pool' guid hmem hmem' := by
    have hunique : ∀ m ∈ someMembers, ∀ m' ∈ someMembers, m.1 = m'.1 → m.2.2 = m'.2.2 →
        m.2.1 = m'.2.1 := by decide
    exact hunique _ (mem_somePools.mp hmem) _ (mem_somePools.mp hmem') rfl rfl

theorem pool_accounting_farm :
    (exec (ActivePoolData.step somePools) .empty [(.spawnPool 5, firstDrawn),
      (.updatePool (.object .creature) 1 10, firstDrawn), (.spawnPool 2, firstDrawn),
      (.despawnPool 5, firstDrawn)]).Sound somePools := by
  have hnone : ∀ pool ∈ [5, 2], ∀ mother, pool ∉ somePools.members .pool mother := by
    intro pool hpool mother hmem
    have hchild : ∀ m ∈ someMembers, m.1 = .pool → m.2.2 ∉ [5, 2] := by decide
    exact hchild _ (mem_somePools.mp hmem) rfl hpool
  exact pool_accounting somePools somePools_distinct _
    ⟨⟨by decide, Or.inr (hnone 5 (by decide))⟩, ⟨by decide, by decide, by decide⟩,
      ⟨by decide, Or.inr (hnone 2 (by decide))⟩, ⟨by decide, trivial⟩, trivial⟩

theorem despawned_below_farm : (ActivePoolData.step somePools (exec (ActivePoolData.step somePools)
    .empty [(.spawnPool 5, firstDrawn)]) (.despawnPool 5, firstDrawn)).activeMembers
      somePools 1 = 0 := by
  refine ActivePoolData.despawned_below somePools_distinct [(.spawnPool 5, firstDrawn)]
    ⟨⟨by decide, Or.inr fun m hmem => ?_⟩, trivial⟩ _ (.single (mem_somePools.mpr (by decide)))
  simpa [someMembers] using mem_somePools.mp hmem

/-- What the run is asked: what comes back is an active member. -/
def Triggered (P : LoadedPools) (data : ActivePoolData) (op : PoolOp × (ℕ → Draw)) : Prop :=
  match op.1 with
  | .updatePool kind pool guid =>
    guid ∈ P.members kind pool ∧ data.isActiveObject kind guid = true
  | _ => True

/-- **A quest of another pool is counted**: it is used again where it does not belong. -/
theorem recycled_quest_of_another_pool :
    ∃ ops, Along (ActivePoolData.step somePools) (Triggered somePools) .empty ops ∧
      ¬ (exec (ActivePoolData.step somePools) .empty ops).Sound somePools := by
  refine ⟨[(.spawnPool 2, firstDrawn), (.spawnPool 3, firstDrawn),
    (.updatePool (.object .quest) 3 30, lastDrawn)], ⟨trivial, trivial, ?_, trivial⟩, fun h => ?_⟩
  · exact ⟨by decide, by decide⟩
  · have hcount := h.accounted.count 3
    revert hcount
    decide

end HungerGames.Pools
