/-
# Filling a running battleground (`FillPlayersToBG`)

Groups are selected for a battleground that is running, in the order of the queue, as many as have
room on their side.  If the configuration asks for even sides, a loop then kicks groups of the side
that has fewer slots left, and selects smaller ones from farther back, until the sides have about
as many slots left.

Every turn of the loop that goes on has kicked a group, and a group that is kicked does not come
back: the loop does end (`fillPlayersToBG_loop`).  What is selected then is as it should be
(`fillPlayersToBG_spec`).
-/
import HungerGames.Battlegrounds.QueueStructure
import HungerGames.System.Loop

namespace HungerGames.Battlegrounds

open HungerGames.System

open scoped List

variable {q : BattlegroundQueue}

/-! ## 1. The loop -/

namespace BattlegroundQueue

variable (q : BattlegroundQueue)

/-- A turn of `while (abs(diffAli - diffHorde) > 1 && ..)`. -/
def fillTurn (x : Filling × Filling) : Turn (Filling × Filling) (Filling × Filling) :=
  match q.fillStep x.1 x.2 with
  | none => .done x
  | some (turn, false) => .done turn
  | some (turn, true) => .again turn

/-- One team before the loop. -/
def startFilling (bracket : BracketId) (free : TeamId → ℕ) (team : TeamId) : Filling :=
  let added := SelectionPool.init.addWhile q (free team) (q.queuedGroups ⟨bracket, .normal, team⟩)
  ⟨free team, added.1, added.2⟩

/-- `FillPlayersToBG`, of which the loop has at most `n` turns. -/
def fillPlayersWithin (n invitationType : ℕ) (bracket : BracketId) (free : TeamId → ℕ) :
    Option Pools := do
  let start := (q.startFilling bracket free .alliance, q.startFilling bracket free .horde)
  let filled ← if invitationType = 0 then some start else loop (fun x => some (q.fillTurn x)) n start
  return fun
    | .alliance => filled.1.pool
    | .horde => filled.2.pool

end BattlegroundQueue

/-! ## 2. One side -/

/-- **The invariant of one side.**  Of the queue `ids`, what is selected and what is still to come
are different places; the groups selected are not invited, the players are counted, and there is
room for them. -/
structure Fit (q : BattlegroundQueue) (ids : List ℕ) (x : Filling) : Prop where
  places : x.pool.selectedGroups ++ x.rest <+~ ids
  notInvited : ∀ id ∈ x.pool.selectedGroups, q.isInvited id = false
  count : x.pool.playerCount = (x.pool.selectedGroups.map q.size).sum
  room : x.pool.playerCount ≤ x.free

/-- What the loop lowers, of one side. -/
def Filling.weight (x : Filling) : ℕ := 2 * x.rest.length + x.pool.selectedGroups.length

theorem fillMeasure_eq (ali horde : Filling) :
    BattlegroundQueue.fillMeasure ali horde = ali.weight + horde.weight := by
  simp only [BattlegroundQueue.fillMeasure, Filling.weight]
  omega

section Side

variable {ids rest : List ℕ} {free desiredCount size : ℕ} {pool : SelectionPool}

/-- **Groups are added** as long as there is room. -/
theorem Fit.addWhile (hdesired : desiredCount ≤ free) (rest : List ℕ) :
    ∀ {pool : SelectionPool}, Fit q ids ⟨free, pool, rest⟩ →
      let added := pool.addWhile q desiredCount rest
      Fit q ids ⟨free, added.1, added.2⟩ ∧
        Filling.weight ⟨free, added.1, added.2⟩ ≤ Filling.weight ⟨free, pool, rest⟩ := by
  induction rest with
  | nil => exact fun h => ⟨h, Nat.le_refl _⟩
  | cons id rest ih =>
    intro pool h
    have hskip : Fit q ids ⟨free, pool, rest⟩ :=
      ⟨(((List.sublist_cons_self id rest).append_left _).subperm).trans h.places, h.notInvited,
        h.count, h.room⟩
    rcases addGroup_cases (q := q) desiredCount id pool with ⟨hfree, hle, heq⟩ | ⟨-, heq⟩
    · have hadded : Fit q ids
          ⟨free, ⟨pool.selectedGroups ++ [id], pool.playerCount + q.size id⟩, rest⟩ := by
        refine ⟨?_, fun id' hid' => ?_, ?_, hle.trans hdesired⟩
        · simpa using h.places
        · rcases List.mem_append.mp hid' with hid' | hid'
          · exact h.notInvited id' hid'
          · exact List.mem_singleton.mp hid' ▸ hfree
        · have hcount := h.count
          simp only at hcount
          simp [hcount]
      obtain ⟨hfit, hweight⟩ := ih hadded
      simp only [SelectionPool.addWhile, heq, if_true]
      refine ⟨hfit, hweight.trans ?_⟩
      simp only [Filling.weight, List.length_append, List.length_cons, List.length_nil]
      omega
    · simp only [SelectionPool.addWhile, heq]
      split
      · obtain ⟨hfit, hweight⟩ := ih hskip
        refine ⟨hfit, hweight.trans ?_⟩
        simp only [Filling.weight, List.length_cons]
        omega
      · exact ⟨h, Nat.le_refl _⟩

/-- Where there is no room for anybody, nobody is added. -/
theorem playerCount_addWhile_zero (rest : List ℕ) : ∀ {pool : SelectionPool},
    pool.playerCount = 0 → (pool.addWhile q 0 rest).1.playerCount = 0 := by
  induction rest with
  | nil => exact id
  | cons id rest ih =>
    intro pool h
    rcases addGroup_cases (q := q) 0 id pool with ⟨-, hle, heq⟩ | ⟨-, heq⟩
    · simp only [SelectionPool.addWhile, heq, if_true]
      exact ih (by simp only; omega)
    · simp only [SelectionPool.addWhile, heq, Nat.not_lt_zero, decide_false, Bool.false_eq_true,
        if_false]
      exact h

theorem mem_of_foldl_kick (f : ℕ × Bool → ℕ → ℕ × Bool)
    (hf : ∀ x id, (f x id).1 = x.1 ∨ (f x id).1 = id) (ids : List ℕ) :
    ∀ x, (ids.foldl f x).1 = x.1 ∨ (ids.foldl f x).1 ∈ ids := by
  induction ids with
  | nil => exact fun _ => Or.inl rfl
  | cons id ids ih =>
    intro x
    rw [List.foldl_cons]
    rcases ih (f x id) with h | h
    · rcases hf x id with h' | h'
      · exact Or.inl (h.trans h')
      · exact Or.inr (List.mem_cons.mpr (Or.inl (h.trans h')))
    · exact Or.inr (List.mem_cons_of_mem id h)

/-- The group to kick is one of those selected. -/
theorem groupToKick_mem {id : ℕ} (h : SelectionPool.groupToKick q size ids = some id) :
    id ∈ ids := by
  cases ids with
  | nil => nomatch h
  | cons first rest =>
    obtain rfl := Option.some.inj h
    refine (mem_of_foldl_kick _ (fun x id => ?_) _ (first, false)).elim
      (fun h => List.mem_cons.mpr (Or.inl h)) fun h => h
    dsimp only
    split
    · exact Or.inr rfl
    · split
      · exact Or.inr rfl
      · exact Or.inl rfl

/-- **A group is kicked** if anybody is selected, and else nothing happens. -/
theorem Fit.kickGroup (h : Fit q ids ⟨free, pool, rest⟩) (size : ℕ) :
    Fit q ids ⟨free, (pool.kickGroup q size).1, rest⟩ ∧
      (pool.playerCount = 0 → pool.kickGroup q size = (pool, true)) ∧
      (pool.kickGroup q size).1.selectedGroups.length + min pool.playerCount 1 ≤
        pool.selectedGroups.length := by
  simp only [SelectionPool.kickGroup]
  by_cases hzero : pool.playerCount = 0
  · simp only [hzero, if_true]
    exact ⟨h, fun _ => trivial, Nat.le_refl _⟩
  · simp only [if_neg hzero]
    cases hkick : SelectionPool.groupToKick q size pool.selectedGroups with
    | none =>
      have hnil : pool.selectedGroups = [] := by
        cases hsel : pool.selectedGroups with
        | nil => rfl
        | cons first groups =>
          rw [hsel] at hkick
          nomatch hkick
      have hcount := h.count
      simp only [hnil, List.map_nil, List.sum_nil] at hcount
      exact absurd hcount hzero
    | some id =>
      have hmem := groupToKick_mem hkick
      have hperm := List.perm_cons_erase hmem
      have hsum : (pool.selectedGroups.map q.size).sum =
          q.size id + ((pool.selectedGroups.erase id).map q.size).sum := by
        rw [(hperm.map q.size).sum_eq, List.map_cons, List.sum_cons]
      have hcount := h.count
      have hroom := h.room
      simp only at hcount hroom ⊢
      refine ⟨⟨?_, ?_, ?_, ?_⟩, fun h => absurd h hzero, ?_⟩
      · exact ((List.erase_sublist.append_right rest).subperm).trans h.places
      · exact fun id' hid' => h.notInvited id' (List.mem_of_mem_erase hid')
      · simp only [hcount, hsum]
        omega
      · simp only
        omega
      · have hpos := List.length_pos_of_mem hmem
        rw [List.length_erase_of_mem hmem]
        omega

end Side

/-! ## 3. One turn -/

/-- As many slots are left on both sides, or one less; or nobody is selected of the side that has
fewer. -/
def Balanced (x y : Filling) : Prop :=
  (x.diff - y.diff).natAbs ≤ 1 ∨ x.diff < y.diff ∧ x.pool.playerCount = 0 ∨
    y.diff < x.diff ∧ y.pool.playerCount = 0

theorem Balanced.symm {x y : Filling} (h : Balanced x y) : Balanced y x := by
  rcases h with h | h | h
  · exact Or.inl (by rwa [← Int.natAbs_neg, Int.neg_sub] at h)
  · exact Or.inr (Or.inr h)
  · exact Or.inr (Or.inl h)

section Turn

variable {ids ids' : List ℕ} {less more : Filling}

/-- What the side with fewer slots has after it was kicked from and added to, and what then. -/
theorem rebalance_eq (less more : Filling) (q : BattlegroundQueue) :
    ∃ added : SelectionPool × List ℕ,
      added = (if (less.pool.kickGroup q (more.diff - less.diff).toNat).2 = true then
          (less.pool.kickGroup q (more.diff - less.diff).toNat).1.addWhile q
            ((less.free : ℤ) - more.diff).toNat less.rest
        else ((less.pool.kickGroup q (more.diff - less.diff).toNat).1, less.rest)) ∧
      q.rebalance less more =
        if added.1.playerCount = 0 then
          if (less.free : ℤ) ≤ more.diff + 1 then
            (({ less with pool := added.1, rest := added.2 }, more), false)
          else (({ less with pool := added.1, rest := added.2 },
            { more with pool := (more.pool.kickGroup q (more.diff - less.diff).toNat).1 }), true)
        else (({ less with pool := added.1, rest := added.2 }, more), true) :=
  ⟨_, rfl, rfl⟩

/-- **A turn** keeps both sides as they should be.  If the loop goes on a group has been kicked, and
if it ends here it ends well. -/
theorem rebalance_spec (hless : Fit q ids less) (hmore : Fit q ids' more)
    (hdiff : less.diff < more.diff) :
    let turn := q.rebalance less more
    Fit q ids turn.1.1 ∧ Fit q ids' turn.1.2 ∧
      (turn.2 = true → turn.1.1.weight + turn.1.2.weight < less.weight + more.weight) ∧
      (turn.2 = false → Balanced turn.1.1 turn.1.2) ∧
      turn.1.1.free = less.free ∧ turn.1.2.free = more.free := by
  obtain ⟨added, hadd, heq⟩ := rebalance_eq less more q
  have hroom := hmore.room
  have hslots : more.diff = more.free - more.pool.playerCount := rfl
  have hslots' : less.diff = less.free - less.pool.playerCount := rfl
  have hdesired : ((less.free : ℤ) - more.diff).toNat ≤ less.free := by omega
  obtain ⟨hkicked, hnone, hfewer⟩ := hless.kickGroup (more.diff - less.diff).toNat
  obtain ⟨hkicked', -, hfewer'⟩ := hmore.kickGroup (more.diff - less.diff).toNat
  have hadded : Fit q ids { less with pool := added.1, rest := added.2 } ∧
      2 * added.2.length + added.1.selectedGroups.length ≤ 2 * less.rest.length +
        (less.pool.kickGroup q (more.diff - less.diff).toNat).1.selectedGroups.length := by
    subst hadd
    split
    · exact hkicked.addWhile hdesired less.rest
    · exact ⟨hkicked, Nat.le_refl _⟩
  -- a side with nobody to kick gets nobody either, for it has no slots to spare
  have hempty : less.pool.playerCount = 0 → added.1.playerCount = 0 := by
    intro hzero
    have hdesired : ((less.free : ℤ) - more.diff).toNat = 0 := by omega
    subst hadd
    rw [hnone hzero, hdesired]
    exact playerCount_addWhile_zero less.rest hzero
  have hweight := hadded.2
  simp only [heq]
  by_cases hzero : added.1.playerCount = 0
  · rw [if_pos hzero]
    by_cases hbreak : (less.free : ℤ) ≤ more.diff + 1
    · rw [if_pos hbreak]
      refine ⟨hadded.1, hmore, nofun, fun _ => ?_, rfl, rfl⟩
      change Balanced { less with pool := added.1, rest := added.2 } more
      have hleft : Filling.diff { less with pool := added.1, rest := added.2 } = less.free := by
        simp [Filling.diff, hzero]
      by_cases hfirst : (less.free : ℤ) < more.diff
      · exact Or.inr (Or.inl ⟨hleft ▸ hfirst, hzero⟩)
      · exact Or.inl (by rw [hleft]; omega)
    · rw [if_neg hbreak]
      refine ⟨hadded.1, hkicked', fun _ => ?_, nofun, rfl, rfl⟩
      have hpos : less.pool.playerCount ≠ 0 := by omega
      have hone : min less.pool.playerCount 1 = 1 := by omega
      rw [hone] at hfewer
      simp only [Filling.weight]
      omega
  · rw [if_neg hzero]
    refine ⟨hadded.1, hmore, fun _ => ?_, nofun, rfl, rfl⟩
    have hpos : less.pool.playerCount ≠ 0 := fun h => hzero (hempty h)
    have hone : min less.pool.playerCount 1 = 1 := by omega
    rw [hone] at hfewer
    simp only [Filling.weight]
    omega

end Turn

/-- Both sides. -/
def FitBoth (q : BattlegroundQueue) (bracket : BracketId) (free : TeamId → ℕ)
    (x : Filling × Filling) : Prop :=
  (Fit q (q.queuedGroups ⟨bracket, .normal, .alliance⟩) x.1 ∧ x.1.free = free .alliance) ∧
    Fit q (q.queuedGroups ⟨bracket, .normal, .horde⟩) x.2 ∧ x.2.free = free .horde

variable {bracket : BracketId} {free : TeamId → ℕ} {x : Filling × Filling}

theorem fillStep_spec (h : FitBoth q bracket free x) :
    match q.fillStep x.1 x.2 with
    | none => Balanced x.1 x.2
    | some (turn, true) =>
      FitBoth q bracket free turn ∧ turn.1.weight + turn.2.weight < x.1.weight + x.2.weight
    | some (turn, false) => FitBoth q bracket free turn ∧ Balanced turn.1 turn.2 := by
  obtain ⟨ali, horde⟩ := x
  obtain ⟨⟨hali, hfree⟩, hhorde, hfree'⟩ := h
  simp only [BattlegroundQueue.fillStep]
  by_cases hgo : 1 < (ali.diff - horde.diff).natAbs ∧
      (0 < horde.pool.playerCount ∨ 0 < ali.pool.playerCount)
  · rw [if_pos hgo]
    by_cases hlt : ali.diff < horde.diff
    · have hspec := rebalance_spec hali hhorde hlt
      rw [if_pos hlt]
      cases hturn : q.rebalance ali horde with
      | mk turn again =>
        rw [hturn] at hspec
        obtain ⟨hone, htwo, hagain, hdone, hslots, hslots'⟩ := hspec
        have hboth : FitBoth q bracket free turn :=
          ⟨⟨hone, hslots.trans hfree⟩, htwo, hslots'.trans hfree'⟩
        cases again with
        | true => exact ⟨hboth, hagain rfl⟩
        | false => exact ⟨hboth, hdone rfl⟩
    · have hlt : horde.diff < ali.diff := by omega
      have hspec := rebalance_spec hhorde hali hlt
      rw [if_neg hlt.not_gt]
      cases hturn : q.rebalance horde ali with
      | mk turn again =>
        rw [hturn] at hspec
        obtain ⟨hone, htwo, hagain, hdone, hslots, hslots'⟩ := hspec
        have hboth : FitBoth q bracket free turn.swap :=
          ⟨⟨htwo, hslots'.trans hfree⟩, hone, hslots.trans hfree'⟩
        cases again with
        | true =>
          refine ⟨hboth, ?_⟩
          have hless := hagain rfl
          simp only [Prod.fst_swap, Prod.snd_swap] at hless ⊢
          omega
        | false => exact ⟨hboth, (hdone rfl).symm⟩
  · rw [if_neg hgo]
    simp only [Balanced]
    omega

/-! ## 4. `FillPlayersToBG` -/

theorem fit_start (q : BattlegroundQueue) (bracket : BracketId) (free : TeamId → ℕ)
    (team : TeamId) :
    Fit q (q.queuedGroups ⟨bracket, .normal, team⟩) (q.startFilling bracket free team) := by
  have hinit : Fit q (q.queuedGroups ⟨bracket, .normal, team⟩)
      ⟨free team, .init, q.queuedGroups ⟨bracket, .normal, team⟩⟩ :=
    ⟨List.Subperm.refl _, fun _ h => absurd h List.not_mem_nil, rfl, Nat.zero_le _⟩
  exact (hinit.addWhile (Nat.le_refl _) _).1

/-- **The loop ends**, with the sides balanced, after no more turns than the model gives it. -/
theorem fillLoop_spec (n : ℕ) : ∀ {x : Filling × Filling}, FitBoth q bracket free x →
    x.1.weight + x.2.weight ≤ n →
    loop (fun x => some (q.fillTurn x)) (n + 1) x = some (q.fillLoop n x.1 x.2) ∧
      FitBoth q bracket free (q.fillLoop n x.1 x.2) ∧
      Balanced (q.fillLoop n x.1 x.2).1 (q.fillLoop n x.1 x.2).2 := by
  induction n with
  | zero =>
    intro x h hzero
    have hstep := fillStep_spec h
    simp only [Filling.weight] at hzero
    have hcount : x.1.pool.playerCount = 0 ∧ x.2.pool.playerCount = 0 := by
      have hnil : x.1.pool.selectedGroups = [] ∧ x.2.pool.selectedGroups = [] :=
        ⟨List.length_eq_zero_iff.mp (by omega), List.length_eq_zero_iff.mp (by omega)⟩
      have hone := h.1.1.count
      have htwo := h.2.1.count
      rw [hnil.1] at hone
      rw [hnil.2] at htwo
      exact ⟨hone, htwo⟩
    have hnone : q.fillStep x.1 x.2 = none := by
      simp only [BattlegroundQueue.fillStep, hcount]
      simp
    rw [hnone] at hstep
    simp only [loop, BattlegroundQueue.fillTurn, hnone, BattlegroundQueue.fillLoop]
    exact ⟨trivial, h, hstep⟩
  | succ n ih =>
    intro x h hle
    have hstep := fillStep_spec h
    rw [loop]
    simp only [BattlegroundQueue.fillTurn, BattlegroundQueue.fillLoop]
    cases hturn : q.fillStep x.1 x.2 with
    | none =>
      rw [hturn] at hstep
      exact ⟨rfl, h, hstep⟩
    | some turn =>
      obtain ⟨turn, again⟩ := turn
      rw [hturn] at hstep
      cases again with
      | true => exact ih hstep.1 (by have := hstep.2; omega)
      | false => exact ⟨rfl, hstep⟩

/-- **`FillPlayersToBG` comes to an end**, with what the model computes. -/
theorem fillPlayersToBG_loop (q : BattlegroundQueue) (invitationType : ℕ) (bracket : BracketId)
    (free : TeamId → ℕ) : ∃ n, ∀ m, n ≤ m →
    q.fillPlayersWithin m invitationType bracket free =
      some (q.fillPlayersToBG invitationType bracket free) := by
  have hboth : FitBoth q bracket free
      (q.startFilling bracket free .alliance, q.startFilling bracket free .horde) :=
    ⟨⟨fit_start q bracket free .alliance, rfl⟩, fit_start q bracket free .horde, rfl⟩
  have hloop := (fillLoop_spec _ hboth (fillMeasure_eq _ _).ge).1
  refine ⟨BattlegroundQueue.fillMeasure (q.startFilling bracket free .alliance)
    (q.startFilling bracket free .horde) + 1, fun m hm => ?_⟩
  have hloop' := loop_mono (fun _ _ h => h) hm hloop
  simp only [BattlegroundQueue.fillPlayersWithin, BattlegroundQueue.fillPlayersToBG]
  split
  · rfl
  · rw [hloop']
    rfl

/-- **A running battleground is filled as it should be.**  Whatever is queued and however many
slots are free, this comes to an end.  The players of the groups selected are counted, and there is
room for them; the groups were in the queue of their side, are not invited, and none is selected
twice.  If the sides are to be even, they have as many slots left but for one, or nobody is selected
of the side that has fewer. -/
theorem fillPlayersToBG_spec (q : BattlegroundQueue) (invitationType : ℕ) (bracket : BracketId)
    (free : TeamId → ℕ) :
    let pools := q.fillPlayersToBG invitationType bracket free
    (∃ n, ∀ m, n ≤ m → q.fillPlayersWithin m invitationType bracket free = some pools) ∧
    (∀ team,
      (pools team).playerCount = ((pools team).selectedGroups.map q.size).sum ∧
      (pools team).playerCount ≤ free team ∧
      (pools team).selectedGroups <+~ q.queuedGroups ⟨bracket, .normal, team⟩ ∧
      ∀ id ∈ (pools team).selectedGroups, q.isInvited id = false) ∧
    ((q.queuedGroups ⟨bracket, .normal, .alliance⟩ ++
        q.queuedGroups ⟨bracket, .normal, .horde⟩).Nodup →
      ((pools .alliance).selectedGroups ++ (pools .horde).selectedGroups).Nodup) ∧
    (invitationType ≠ 0 →
      let left team : ℤ := free team - (pools team).playerCount
      (left .alliance - left .horde).natAbs ≤ 1 ∨
        ∃ team, left team < left team.other ∧ (pools team).playerCount = 0 ∧
          ∀ id ∈ (pools team).selectedGroups, q.size id = 0) := by
  have hali := fit_start q bracket free .alliance
  have hhorde := fit_start q bracket free .horde
  have hboth : FitBoth q bracket free
      (q.startFilling bracket free .alliance, q.startFilling bracket free .horde) :=
    ⟨⟨hali, rfl⟩, hhorde, rfl⟩
  obtain ⟨filled, hpools, hfilled, hbalanced⟩ : ∃ filled : Filling × Filling,
      (∀ team, q.fillPlayersToBG invitationType bracket free team =
        match team with
        | .alliance => filled.1.pool
        | .horde => filled.2.pool) ∧
      FitBoth q bracket free filled ∧ (invitationType ≠ 0 → Balanced filled.1 filled.2) := by
    by_cases htype : invitationType = 0
    · refine ⟨_, fun team => ?_, hboth, fun h => absurd htype h⟩
      simp only [BattlegroundQueue.fillPlayersToBG, if_pos htype]
      rfl
    · obtain ⟨-, hfit, hbal⟩ := fillLoop_spec _ hboth (fillMeasure_eq _ _).ge
      refine ⟨_, fun team => ?_, hfit, fun _ => hbal⟩
      simp only [BattlegroundQueue.fillPlayersToBG, if_neg htype]
      rfl
  obtain ⟨⟨hone, hfree⟩, htwo, hfree'⟩ := hfilled
  have hnil : ∀ {ids : List ℕ} {x : Filling}, Fit q ids x → x.pool.playerCount = 0 →
      ∀ id ∈ x.pool.selectedGroups, q.size id = 0 := by
    intro ids x hfit hzero id hid
    exact List.sum_eq_zero_iff_forall_eq_nat.mp (hfit.count.symm.trans hzero) _
      (List.mem_map_of_mem hid)
  refine ⟨fillPlayersToBG_loop q invitationType bracket free, fun team => ?_, fun hnodup => ?_,
    fun htype => ?_⟩
  · rw [hpools]
    cases team with
    | alliance =>
      exact ⟨hone.count, hfree ▸ hone.room,
        (List.sublist_append_left _ _).subperm.trans hone.places, hone.notInvited⟩
    | horde =>
      exact ⟨htwo.count, hfree' ▸ htwo.room,
        (List.sublist_append_left _ _).subperm.trans htwo.places, htwo.notInvited⟩
  · rw [hpools, hpools]
    have hplaces := (List.sublist_append_left _ _).subperm.trans hone.places
    have hplaces' := (List.sublist_append_left _ _).subperm.trans htwo.places
    obtain ⟨ids, hperm, hsub⟩ := hplaces.append hplaces'
    exact hperm.nodup_iff.mp (hsub.nodup hnodup)
  · simp only [hpools]
    rcases hbalanced htype with h | h | h
    · exact Or.inl (by rw [← hfree, ← hfree']; exact h)
    · refine Or.inr ⟨.alliance, ?_, h.2, hnil hone h.2⟩
      simp only [TeamId.other, ← hfree, ← hfree']
      exact h.1
    · refine Or.inr ⟨.horde, ?_, h.2, hnil htwo h.2⟩
      simp only [TeamId.other, ← hfree, ← hfree']
      exact h.1

end HungerGames.Battlegrounds
