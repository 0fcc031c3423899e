/-
# Matches of normal groups

`CheckNormalMatch` fills a pool for each team until there are enough players in it, and then
invites more to the smaller one.  When an arena has no two sides this way,
`CheckSkirmishForSameFaction` takes both from one faction: it keeps what is selected of one team,
and goes on in the list of that team after the last group selected.

A match that is found has groups that are not invited, each on one side, and sides of a size
between the bounds.  There are two exceptions.  When arenas are tested one player is enough for a
side but a group of more may be selected, and then it is the Alliance that is kept, whether or not
anything is selected of it.  When battlegrounds are tested one side is enough, and that can have
any size.
-/
import HungerGames.Battlegrounds.QueueStructure

namespace HungerGames.Battlegrounds

variable {q q' : BattlegroundQueue}

/-! ## 1. What a match should be -/

/-- The players of the groups that are selected for a team. -/
def sidePlayers (q : BattlegroundQueue) (pools : Pools) (team : TeamId) : ℕ :=
  ((pools team).selectedGroups.map q.size).sum

structure FairMatch (q : BattlegroundQueue) (u : Update) (t : Template) (pools : Pools) :
    Prop where
  notInvited : ∀ team, ∀ id ∈ (pools team).selectedGroups, q.isInvited id = false
  apart : ∀ id ∈ (pools .alliance).selectedGroups, id ∉ (pools .horde).selectedGroups
  size : (u.isTesting = true → t.isArena = true) → ∀ team,
    u.minPlayers t ≤ sidePlayers q pools team ∧ sidePlayers q pools team ≤ u.maxPlayers t
  balanced : u.invitationType ≠ 0 → (q.checkNormalMatch u t).2 = true →
    ((sidePlayers q pools .horde : ℤ) - sidePlayers q pools .alliance).natAbs ≤ 2

/-- A match that is found in the queue, and that a battleground is made for, is fair; and the team
that a skirmish divides has a group that was selected last. -/
structure FormsWell (q : BattlegroundQueue) (u : Update) (t : Template) : Prop where
  fair : ∀ pools q' instanceId, q.findNormalMatch u t = some (pools, q') →
    u.newInstance = some instanceId → FairMatch q u t pools
  last : ∀ team, (q.checkNormalMatch u t).2 = false → t.isArena = true →
    BattlegroundQueue.skirmishTeam (u.minPlayers t) (q.checkNormalMatch u t).1 = some team →
      ((q.checkNormalMatch u t).1 team).selectedGroups ≠ []

/-- The first group of a team that is not invited and is not too large. -/
def firstFit (q : BattlegroundQueue) (u : Update) (t : Template) (team : TeamId) : Option ℕ :=
  (q.queuedGroups ⟨u.bracketId, .normal, team⟩).find? fun id =>
    q.isInvited id = false ∧ q.size id ≤ u.maxPlayers t

/-- Arenas are tested, and there is a group of two or more for the Horde and none for the
Alliance. -/
def KeepsNobody (q : BattlegroundQueue) (u : Update) (t : Template) : Prop :=
  t.isArena = true ∧ u.isArenaTesting = true ∧ firstFit q u t .alliance = none ∧
    ∃ id, firstFit q u t .horde = some id ∧ 1 < q.size id

/-- Battlegrounds are tested, and there is a group of three or more for one team and none for the
other, where the sides are to be nearly equal. -/
def OneSided (q : BattlegroundQueue) (u : Update) (t : Template) (team : TeamId) : Prop :=
  t.isArena = false ∧ u.isTesting = true ∧ u.invitationType ≠ 0 ∧ u.newInstance ≠ none ∧
    firstFit q u t team.other = none ∧ ∃ id, firstFit q u t team = some id ∧ 2 < q.size id

/-! ## 2. Pools -/

theorem InOrder.size_pos (hq : InOrder q) {p : Place} {id : ℕ} (h : id ∈ q.queuedGroups p) :
    0 < q.size id := by
  obtain ⟨g, hg⟩ := (hq.listed.stored id).mpr ⟨p, h⟩
  unfold BattlegroundQueue.size
  rw [BattlegroundQueue.group_eq hg]
  exact Finset.card_pos.mpr (hq.recorded.nonempty id g hg)

/-- A pool of groups from one list. -/
structure Selection (q : BattlegroundQueue) (p : Place) (pool : SelectionPool) : Prop where
  sublist : pool.selectedGroups.Sublist (q.queuedGroups p)
  notInvited : ∀ id ∈ pool.selectedGroups, q.isInvited id = false
  count : pool.playerCount = (pool.selectedGroups.map q.size).sum

theorem Takes.selection {p : Place} {pool pool' : SelectionPool} {ids taken : List ℕ}
    (hpool : Selection q p pool) (h : Takes q pool pool' ids taken)
    (hsub : (pool.selectedGroups ++ ids).Sublist (q.queuedGroups p)) : Selection q p pool' where
  sublist := by
    rw [h.selected]
    exact ((List.Sublist.refl _).append h.sublist).trans hsub
  notInvited := by
    intro id hid
    rw [h.selected] at hid
    rcases List.mem_append.mp hid with hid | hid
    · exact hpool.notInvited id hid
    · exact h.notInvited id hid
  count := by
    rw [h.count, h.selected, List.map_append, List.sum_append, hpool.count]

theorem Selection.init (p : Place) : Selection q p .init :=
  ⟨List.nil_sublist _, fun _ h => absurd h List.not_mem_nil, rfl⟩

/-- A pool without players has no groups. -/
theorem Selection.nil_iff {p : Place} {pool : SelectionPool} (hq : InOrder q)
    (h : Selection q p pool) : pool.selectedGroups = [] ↔ pool.playerCount = 0 := by
  rw [h.count]
  constructor
  · intro heq
    rw [heq]
    rfl
  · intro hsum
    refine List.eq_nil_iff_forall_not_mem.mpr fun id hid => ?_
    have hzero := List.sum_eq_zero_iff_forall_eq_nat.mp hsum _ (List.mem_map_of_mem hid)
    exact Nat.lt_irrefl 0 (hzero ▸ hq.size_pos (h.sublist.subset hid))

/-- The pool is from the groups before the one where the loop stops, and that one. -/
theorem takes_addUntil (minPlayers maxPlayers : ℕ) (ids : List ℕ) (pool : SelectionPool) :
    ∃ taken, Takes q pool (pool.addUntil q minPlayers maxPlayers ids).1 ids taken ∧
      (taken ++ (pool.addUntil q minPlayers maxPlayers ids).2.tail).Sublist ids := by
  induction ids generalizing pool with
  | nil => exact ⟨[], .nothing pool [], List.Sublist.refl []⟩
  | cons id ids ih =>
    unfold SelectionPool.addUntil
    split
    · obtain ⟨taken, h, hsub⟩ := ih pool
      exact ⟨taken, h.skip id, hsub.cons id⟩
    · rcases addGroup_cases (q := q) maxPlayers id pool with ⟨hfree, -, heq⟩ | ⟨-, heq⟩ <;>
        rw [heq] <;> dsimp only
      · split
        · exact ⟨[id], (Takes.nothing _ ids).cons hfree, List.Sublist.refl _⟩
        · obtain ⟨taken, h, hsub⟩ := ih ⟨pool.selectedGroups ++ [id], pool.playerCount + q.size id⟩
          exact ⟨id :: taken, h.cons hfree, hsub.cons_cons id⟩
      · split
        · exact ⟨[], .nothing pool _, List.sublist_cons_self id ids⟩
        · obtain ⟨taken, h, hsub⟩ := ih pool
          exact ⟨taken, h.skip id, hsub.cons id⟩

theorem addUntil_le (minPlayers maxPlayers : ℕ) (ids : List ℕ) (pool : SelectionPool)
    (hpool : pool.playerCount ≤ maxPlayers) :
    (pool.addUntil q minPlayers maxPlayers ids).1.playerCount ≤ maxPlayers := by
  induction ids generalizing pool with
  | nil => exact hpool
  | cons id ids ih =>
    unfold SelectionPool.addUntil
    split
    · exact ih pool hpool
    · rcases addGroup_cases (q := q) maxPlayers id pool with ⟨-, hle, heq⟩ | ⟨-, heq⟩ <;>
        rw [heq] <;> dsimp only <;> split
      · exact hle
      · exact ih _ hle
      · exact hpool
      · exact ih pool hpool

theorem addNotInvited_le {n : ℕ} (desiredCount : ℕ) (hdesired : desiredCount ≤ n) (ids : List ℕ)
    (pool : SelectionPool) (hpool : pool.playerCount ≤ n) :
    (pool.addNotInvited q desiredCount ids).playerCount ≤ n := by
  induction ids generalizing pool with
  | nil => exact hpool
  | cons id ids ih =>
    unfold SelectionPool.addNotInvited
    split
    · exact ih pool hpool
    · rcases addGroup_cases (q := q) desiredCount id pool with ⟨-, hle, heq⟩ | ⟨-, heq⟩ <;>
        rw [heq] <;> dsimp only
      · exact ih _ (hle.trans hdesired)
      · split
        · exact ih pool hpool
        · exact hpool

/-- The pool of a group, if there is one. -/
def poolOf (q : BattlegroundQueue) (o : Option ℕ) : SelectionPool :=
  ⟨o.toList, (o.toList.map q.size).sum⟩

/-- Where one player is enough, the loop stops at the first group that is selected. -/
theorem addUntil_one (maxPlayers : ℕ) (ids : List ℕ) (hpos : ∀ id ∈ ids, 0 < q.size id) :
    (SelectionPool.init.addUntil q 1 maxPlayers ids).1 =
      poolOf q (ids.find? fun id => q.isInvited id = false ∧ q.size id ≤ maxPlayers) := by
  induction ids with
  | nil => rfl
  | cons id ids ih =>
    have hrest := ih fun id' hid' => hpos id' (List.mem_cons_of_mem id hid')
    have hid := hpos id List.mem_cons_self
    unfold SelectionPool.addUntil
    rw [List.find?_cons]
    split
    · rename_i hinvited
      rw [hrest]
      simp [hinvited]
    · rename_i hfree
      rcases addGroup_cases (q := q) maxPlayers id .init with ⟨hfree, hle, heq⟩ | ⟨hno, heq⟩ <;>
        rw [heq] <;> dsimp only
      · have hfit : q.size id ≤ maxPlayers := (Nat.le_add_left _ _).trans hle
        have hone : 1 ≤ SelectionPool.init.playerCount + q.size id :=
          Nat.le_add_left_of_le hid
        rw [if_pos hone, decide_eq_true ⟨hfree, hfit⟩]
        simp [poolOf, SelectionPool.init]
      · have hlarge : ¬ q.size id ≤ maxPlayers := by
          rcases hno with hinvited | hlarge
          · exact absurd hinvited hfree
          · have hsize : SelectionPool.init.playerCount + q.size id = q.size id := Nat.zero_add _
            exact Nat.not_le_of_lt (hsize ▸ hlarge)
        rw [if_neg (by decide), hrest, decide_eq_false fun h => hlarge h.2]

/-! ## 3. `CheckNormalMatch` -/

/-- There are enough players in both pools. -/
def Enough (minPlayers : ℕ) (pools : Pools) : Prop := ∀ team, minPlayers ≤ (pools team).playerCount

theorem enough_iff (minPlayers : ℕ) (pools : Pools) : Enough minPlayers pools ↔
    minPlayers ≤ (pools .alliance).playerCount ∧ minPlayers ≤ (pools .horde).playerCount := by
  constructor
  · exact fun h => ⟨h .alliance, h .horde⟩
  · rintro ⟨hali, hhorde⟩ (_ | _)
    · exact hali
    · exact hhorde

/-- The pools before any more are invited to the smaller one. -/
def firstPools (q : BattlegroundQueue) (u : Update) (t : Template) : Pools := fun team =>
  (q.normalPools u.bracketId (u.minPlayers t) (u.maxPlayers t) team).1

/-- Two pools that are a match when nothing is said of their difference. -/
def Started (u : Update) (t : Template) (pools : Pools) : Prop :=
  (u.isTesting = true ∧ t.isArena = false ∧
    (0 < (pools .alliance).playerCount ∨ 0 < (pools .horde).playerCount)) ∨
    Enough (u.minPlayers t) pools

/-- The test of `CheckNormalMatch` for this. -/
def starts (u : Update) (t : Template) (pools : Pools) : Bool :=
  u.isTesting ∧ ¬ t.isArena ∧
      (0 < (pools .alliance).playerCount ∨ 0 < (pools .horde).playerCount) ∨
    (decide (u.minPlayers t ≤ (pools .alliance).playerCount ∧
      u.minPlayers t ≤ (pools .horde).playerCount) : Bool)

theorem starts_iff (u : Update) (t : Template) (pools : Pools) :
    starts u t pools = true ↔ Started u t pools := by
  unfold starts Started
  rw [decide_eq_true_iff, decide_eq_true_iff, enough_iff, Bool.not_eq_true]

/-- How many players one pool has more than the other. -/
def difference (pools : Pools) : ℕ :=
  (((pools .horde).playerCount : ℤ) - (pools .alliance).playerCount).natAbs

/-- The pools, where more are invited to the smaller one. -/
def levelled (q : BattlegroundQueue) (u : Update) (t : Template) : Pools :=
  let pools := firstPools q u t
  let team := BattlegroundQueue.smallerTeam pools
  Function.update pools team ((pools team).addNotInvited q (pools team.other).playerCount
    (q.normalPools u.bracketId (u.minPlayers t) (u.maxPlayers t) team).2)

theorem selection_firstPools (u : Update) (t : Template) (team : TeamId) :
    Selection q ⟨u.bracketId, .normal, team⟩ (firstPools q u t team) ∧
      ((firstPools q u t team).selectedGroups ++
        (q.normalPools u.bracketId (u.minPlayers t) (u.maxPlayers t) team).2).Sublist
          (q.queuedGroups ⟨u.bracketId, .normal, team⟩) ∧
      (firstPools q u t team).playerCount ≤ u.maxPlayers t := by
  obtain ⟨taken, htakes, hsub⟩ := takes_addUntil (q := q) (u.minPlayers t) (u.maxPlayers t)
    (q.queuedGroups ⟨u.bracketId, .normal, team⟩) .init
  refine ⟨htakes.selection (.init _) (List.Sublist.refl _), ?_, ?_⟩
  · have hselected : (firstPools q u t team).selectedGroups = taken := htakes.selected
    rw [hselected]
    exact hsub
  · exact addUntil_le _ _ _ _ (Nat.zero_le _)

theorem selection_levelled (u : Update) (t : Template) (team : TeamId) :
    Selection q ⟨u.bracketId, .normal, team⟩ (levelled q u t team) ∧
      (firstPools q u t team).playerCount ≤ (levelled q u t team).playerCount ∧
      (levelled q u t team).playerCount ≤ u.maxPlayers t := by
  obtain ⟨hfirst, hsub, hle⟩ := selection_firstPools (q := q) u t team
  unfold levelled
  by_cases hteam : team = BattlegroundQueue.smallerTeam (firstPools q u t)
  · subst hteam
    rw [Function.update_self]
    generalize BattlegroundQueue.smallerTeam (firstPools q u t) = team at *
    obtain ⟨taken, htakes⟩ := takes_addNotInvited (q := q)
      (firstPools q u t team.other).playerCount
      (q.normalPools u.bracketId (u.minPlayers t) (u.maxPlayers t) team).2 (firstPools q u t team)
    refine ⟨htakes.selection hfirst hsub, ?_, ?_⟩
    · rw [htakes.count]
      exact Nat.le_add_right _ _
    · exact addNotInvited_le _ (selection_firstPools u t team.other).2.2 _ _ hle
  · rw [Function.update_of_ne hteam]
    exact ⟨hfirst, le_rfl, hle⟩

/-- Either more are invited to the smaller pool and the difference counts, or not. -/
theorem checkNormalMatch_cases (q : BattlegroundQueue) (u : Update) (t : Template) :
    (u.invitationType ≠ 0 ∧ Enough (u.minPlayers t) (firstPools q u t) ∧
      (q.checkNormalMatch u t).1 = levelled q u t ∧
      ((q.checkNormalMatch u t).2 = true ↔ difference (levelled q u t) ≤ 2)) ∨
    (¬ (u.invitationType ≠ 0 ∧ Enough (u.minPlayers t) (firstPools q u t)) ∧
      (q.checkNormalMatch u t).1 = firstPools q u t ∧
      ((q.checkNormalMatch u t).2 = true ↔ Started u t (firstPools q u t))) := by
  by_cases h : u.invitationType ≠ 0 ∧ Enough (u.minPlayers t) (firstPools q u t)
  · have hcond := h
    rw [enough_iff] at hcond
    have henough : Enough (u.minPlayers t) (levelled q u t) := fun team =>
      (h.2 team).trans (selection_levelled u t team).2.1
    have heq : q.checkNormalMatch u t = if 2 < difference (levelled q u t)
        then (levelled q u t, false) else (levelled q u t, starts u t (levelled q u t)) := by
      exact if_pos ⟨hcond.1, decide_eq_true hcond.2⟩
    rw [heq, (starts_iff u t _).mpr (Or.inr henough)]
    refine Or.inl ⟨h.1, h.2, ?_⟩
    split
    · exact ⟨rfl, iff_of_false Bool.false_ne_true (Nat.not_le_of_lt ‹_›)⟩
    · exact ⟨rfl, iff_of_true rfl (Nat.le_of_not_lt ‹_›)⟩
  · have hcond := h
    rw [enough_iff] at hcond
    have heq : q.checkNormalMatch u t = (firstPools q u t, starts u t (firstPools q u t)) := by
      exact if_neg fun hc => hcond ⟨hc.1, of_decide_eq_true hc.2⟩
    rw [heq]
    exact Or.inr ⟨h, rfl, starts_iff u t _⟩

theorem selection_checkNormalMatch (q : BattlegroundQueue) (u : Update) (t : Template)
    (team : TeamId) :
    Selection q ⟨u.bracketId, .normal, team⟩ ((q.checkNormalMatch u t).1 team) ∧
      ((q.checkNormalMatch u t).1 team).playerCount ≤ u.maxPlayers t := by
  rcases checkNormalMatch_cases q u t with ⟨-, -, heq, -⟩ | ⟨-, heq, -⟩ <;> rw [heq]
  · exact ⟨(selection_levelled u t team).1, (selection_levelled u t team).2.2⟩
  · exact ⟨(selection_firstPools u t team).1, (selection_firstPools u t team).2.2⟩

theorem minPlayers_eq (u : Update) (t : Template) :
    (t.isArena = true ∧ u.isArenaTesting = true ∨ t.isArena = false ∧ u.isTesting = true →
      u.minPlayers t = 1) ∧
    (t.isArena = true ∧ u.isArenaTesting = false → u.minPlayers t = u.maxPlayers t) := by
  unfold Update.minPlayers Update.maxPlayers
  constructor
  · rintro (⟨harena, htesting⟩ | ⟨harena, htesting⟩) <;> simp [harena, htesting]
  · rintro ⟨harena, htesting⟩
    simp [harena, htesting]

variable {t : Template} {u : Update}

/-- Where one player is enough, a pool is the first group that fits. -/
theorem lt_firstPools (hq : InOrder q) (hmin : u.minPlayers t = 1) (team : TeamId) (n : ℕ) :
    n < (firstPools q u t team).playerCount ↔
      ∃ id, firstFit q u t team = some id ∧ n < q.size id := by
  have hpool : firstPools q u t team = poolOf q (firstFit q u t team) := by
    unfold firstPools BattlegroundQueue.normalPools
    rw [hmin]
    exact addUntil_one _ _ fun id hid => hq.size_pos hid
  rw [hpool]
  cases firstFit q u t team with
  | none => simp [poolOf]
  | some id => simp [poolOf]

theorem firstPools_eq_zero (hq : InOrder q) (hmin : u.minPlayers t = 1) (team : TeamId) :
    (firstPools q u t team).playerCount = 0 ↔ firstFit q u t team = none := by
  rw [← not_iff_not, ← ne_eq, ← ne_eq, ← Nat.pos_iff_ne_zero, lt_firstPools hq hmin,
    Option.ne_none_iff_exists']
  constructor
  · rintro ⟨id, hfit, -⟩
    exact ⟨id, hfit⟩
  · rintro ⟨id, hfit⟩
    exact ⟨id, hfit, hq.size_pos (List.mem_of_find?_eq_some hfit)⟩

/-! ## 4. `CheckSkirmishForSameFaction` -/

/-- What is selected up to `last` is not after it. -/
theorem not_mem_after {last : ℕ} (ids : List ℕ) : ∀ {selected rest : List ℕ},
    (selected ++ [last]).Sublist ids → ids.Nodup →
    BattlegroundQueue.after last ids = some rest → ∀ id ∈ selected ++ [last], id ∉ rest := by
  induction ids with
  | nil => exact fun _ _ h => nomatch h
  | cons x xs ih =>
    intro selected rest hsub hnodup hafter id hid hrest
    obtain ⟨hx, hxs⟩ := List.nodup_cons.mp hnodup
    unfold BattlegroundQueue.after at hafter
    split at hafter
    · rename_i heq
      obtain rfl := Option.some.inj hafter
      obtain rfl := heq
      -- `x` comes first, so nothing is selected before it
      have hselected : selected = [] := by
        cases selected with
        | nil => rfl
        | cons y ys =>
          have hmem : x ∈ ys ++ [x] := List.mem_append_right ys List.mem_cons_self
          exact absurd (hsub.of_cons_cons.subset hmem) hx
      rw [hselected] at hid
      exact hx (List.mem_singleton.mp hid ▸ hrest)
    · rename_i hne
      have hrest' := (BattlegroundQueue.sublist_of_after hafter).subset hrest
      cases selected with
      | nil =>
        have hlast : ([] ++ [last]).Sublist xs := by
          rcases List.sublist_cons_iff.mp hsub with h | ⟨r, heq, -⟩
          · exact h
          · exact absurd (List.cons.inj heq).1.symm hne
        exact ih hlast hxs hafter id hid hrest
      | cons y ys =>
        rcases List.sublist_cons_iff.mp hsub with h | ⟨r, heq, h⟩
        · exact ih h hxs hafter id hid hrest
        · obtain ⟨rfl, rfl⟩ := List.cons.inj heq
          rcases List.mem_cons.mp hid with rfl | hid
          · exact hx hrest'
          · exact ih h hxs hafter id hid hrest

/-- The team that is divided has enough players, unless arenas are tested and nobody of the
Alliance is selected. -/
theorem skirmishTeam_spec {pools : Pools} {team : TeamId} (harena : t.isArena = true)
    (hmax : ∀ team, (pools team).playerCount ≤ u.maxPlayers t)
    (h : BattlegroundQueue.skirmishTeam (u.minPlayers t) pools = some team) :
    u.minPlayers t ≤ (pools team).playerCount ∨
      team = .alliance ∧ u.isArenaTesting = true ∧ (pools .alliance).playerCount = 0 ∧
        1 < (pools .horde).playerCount := by
  unfold BattlegroundQueue.skirmishTeam at h
  split at h
  · nomatch h
  split at h
  · rename_i hhorde
    obtain rfl := Option.some.inj h
    exact Or.inl hhorde.ge
  obtain rfl := Option.some.inj h
  have hmaxHorde := hmax .horde
  by_cases htesting : u.isArenaTesting = true
  · have hmin := (minPlayers_eq u t).1 (Or.inl ⟨harena, htesting⟩)
    by_cases hali : (pools .alliance).playerCount = 0
    · exact Or.inr ⟨rfl, htesting, hali, by omega⟩
    · exact Or.inl (by omega)
  · have hmin := (minPlayers_eq u t).2 ⟨harena, Bool.eq_false_iff.mpr htesting⟩
    exact Or.inl (by omega)

theorem TeamId.other_other (team : TeamId) : team.other.other = team := by cases team <;> rfl

theorem TeamId.eq_or_eq_other (team team' : TeamId) : team' = team ∨ team' = team.other := by
  cases team <;> cases team' <;> decide

/-- A skirmish has the groups of one team on a side, and groups that come after them on the
other. -/
theorem checkSkirmish_spec (hq : InOrder q) {bracket : BracketId} {minPlayers : ℕ}
    {pools pools' : Pools}
    (hpools : ∀ team, Selection q ⟨bracket, .normal, team⟩ (pools team))
    (h : q.checkSkirmishForSameFaction bracket minPlayers pools = some (pools', q')) :
    ∃ team, BattlegroundQueue.skirmishTeam minPlayers pools = some team ∧
      (pools team).selectedGroups ≠ [] ∧ pools' team = pools team ∧
      Selection q ⟨bracket, .normal, team⟩ (pools' team.other) ∧
      (pools' team.other).playerCount = minPlayers ∧
      ∀ id ∈ (pools' team).selectedGroups, id ∉ (pools' team.other).selectedGroups := by
  unfold BattlegroundQueue.checkSkirmishForSameFaction at h
  split at h
  · nomatch h
  rename_i team hteam
  split at h
  · nomatch h
  rename_i last hlast
  split at h
  · nomatch h
  rename_i rest hafter
  dsimp only at h
  split at h
  · nomatch h
  rename_i hcount
  obtain ⟨rfl, -⟩ := Prod.mk.inj (Option.some.inj h)
  have hown : Function.update pools team.other
      (SelectionPool.init.addNotInvited q minPlayers rest) team = pools team :=
    Function.update_of_ne team.other_ne.symm _ _
  obtain ⟨selected, hselected⟩ := List.getLast?_eq_some_iff.mp hlast
  have hne : (pools team).selectedGroups ≠ [] := by
    rw [hselected]
    exact List.append_ne_nil_of_right_ne_nil selected (List.cons_ne_nil last [])
  obtain ⟨taken, htakes⟩ := takes_addNotInvited (q := q) minPlayers rest .init
  have htaken : (SelectionPool.init.addNotInvited q minPlayers rest).selectedGroups = taken :=
    htakes.selected
  refine ⟨team, hteam, hne, hown, ?_⟩
  rw [hown, Function.update_self]
  refine ⟨htakes.selection (.init _) (BattlegroundQueue.sublist_of_after hafter),
    not_not.mp hcount, fun id hid hother => ?_⟩
  rw [htaken] at hother
  have hsub := (hpools team).sublist
  rw [hselected] at hsub hid
  exact not_mem_after _ hsub (hq.listed.nodup _) hafter id hid (htakes.sublist.subset hother)

/-! ## 5. Matches that are found -/

/-- What is said of the pools of `CheckNormalMatch` when they are a match. -/
theorem fair_of_normal (hq : InOrder q) (h : (q.checkNormalMatch u t).2 = true)
    (hbalanced : u.invitationType ≠ 0 → difference (q.checkNormalMatch u t).1 ≤ 2) :
    FairMatch q u t (q.checkNormalMatch u t).1 := by
  have hselection := selection_checkNormalMatch q u t
  have hside : ∀ team, sidePlayers q (q.checkNormalMatch u t).1 team =
      ((q.checkNormalMatch u t).1 team).playerCount := fun team => (hselection team).1.count.symm
  refine ⟨fun team => (hselection team).1.notInvited, fun id hali hhorde => ?_, ?_, ?_⟩
  · have hplace := hq.listed.apart _ _ id ((hselection .alliance).1.sublist.subset hali)
      ((hselection .horde).1.sublist.subset hhorde)
    exact nomatch congrArg Place.team hplace
  · intro htesting team
    rw [hside]
    refine ⟨?_, (hselection team).2⟩
    rcases checkNormalMatch_cases q u t with ⟨-, henough, heq, -⟩ | ⟨-, heq, hiff⟩
    · rw [heq]
      exact (henough team).trans (selection_levelled u t team).2.1
    · rw [heq]
      rcases hiff.mp h with ⟨htest, harena, -⟩ | henough
      · exact absurd (htesting htest) (Bool.eq_false_iff.mp harena)
      · exact henough team
  · intro hinvitation _
    rw [hside, hside]
    exact hbalanced hinvitation

theorem fair_of_skirmish (hq : InOrder q) {pools : Pools} (harena : t.isArena = true)
    (hfalse : (q.checkNormalMatch u t).2 = false)
    (h : q.checkSkirmishForSameFaction u.bracketId (u.minPlayers t) (q.checkNormalMatch u t).1 =
      some (pools, q')) : FairMatch q u t pools := by
  have hselection := selection_checkNormalMatch q u t
  obtain ⟨team, hteam, hne, hown, hother, hcount, hapart⟩ :=
    checkSkirmish_spec hq (fun team => (hselection team).1) h
  have hselection' := (hselection team).1
  rw [← hown] at hselection'
  have hmin : u.minPlayers t ≤ (pools team).playerCount := by
    rw [hown]
    rcases skirmishTeam_spec harena (fun team => (hselection team).2) hteam with
      hmin | ⟨rfl, -, hzero, -⟩
    · exact hmin
    · exact absurd (((hselection .alliance).1.nil_iff hq).mpr hzero) hne
  have hmax : (pools team).playerCount ≤ u.maxPlayers t := hown ▸ (hselection team).2
  have hteams : ∀ team', Selection q ⟨u.bracketId, .normal, team⟩ (pools team') ∧
      u.minPlayers t ≤ (pools team').playerCount ∧
      (pools team').playerCount ≤ u.maxPlayers t := by
    intro team'
    rcases TeamId.eq_or_eq_other team team' with rfl | rfl
    · exact ⟨hselection', hmin, hmax⟩
    · exact ⟨hother, hcount.ge, hcount.le.trans (hmin.trans hmax)⟩
  refine ⟨fun team' => (hteams team').1.notInvited, ?_, fun _ team' => ?_, fun _ htrue => ?_⟩
  · intro id hali hhorde
    cases team with
    | alliance => exact hapart id hali hhorde
    | horde => exact hapart id hhorde hali
  · unfold sidePlayers
    rw [← (hteams team').1.count]
    exact (hteams team').2
  · exact absurd htrue (Bool.eq_false_iff.mp hfalse)

theorem difference_of_zero {pools : Pools} {team : TeamId} (h : (pools team).playerCount = 0) :
    difference pools = (pools team.other).playerCount := by
  unfold difference
  cases team <;> simp [h, TeamId.other]

/-- The pools of a match differ by too much only where battlegrounds are tested and one side is
enough. -/
theorem difference_le_iff (hq : InOrder q) (hnew : u.newInstance ≠ none)
    (htrue : (q.checkNormalMatch u t).2 = true) (hinvitation : u.invitationType ≠ 0) :
    difference (q.checkNormalMatch u t).1 ≤ 2 ↔ ∀ team, ¬ OneSided q u t team := by
  rcases checkNormalMatch_cases q u t with ⟨-, henough, heq, hiff⟩ | ⟨hnot, heq, hiff⟩
  · rw [heq]
    refine iff_of_true (hiff.mp htrue) ?_
    rintro team ⟨harena, htesting, -, -, hnone, -⟩
    have hmin := (minPlayers_eq u t).1 (Or.inr ⟨harena, htesting⟩)
    have hzero := (firstPools_eq_zero hq hmin team.other).mpr hnone
    exact absurd (henough team.other) (by omega)
  · rw [heq]
    have hnot : ¬ Enough (u.minPlayers t) (firstPools q u t) := fun h => hnot ⟨hinvitation, h⟩
    obtain ⟨htesting, harena, -⟩ := (hiff.mp htrue).resolve_right hnot
    have hmin := (minPlayers_eq u t).1 (Or.inr ⟨harena, htesting⟩)
    obtain ⟨team, hteam⟩ := not_forall.mp hnot
    have hzero : (firstPools q u t team).playerCount = 0 := by omega
    have hnone := (firstPools_eq_zero hq hmin team).mp hzero
    rw [difference_of_zero hzero, ← not_lt, lt_firstPools hq hmin]
    constructor
    · rintro hsmall team' ⟨-, -, -, -, hnone', id, hid, hlarge⟩
      rcases TeamId.eq_or_eq_other team team' with rfl | rfl
      · exact absurd (hid.symm.trans hnone) (Option.some_ne_none id)
      · exact hsmall ⟨id, hid, hlarge⟩
    · intro hall hlarge
      refine hall team.other ⟨harena, htesting, hinvitation, hnew, ?_, hlarge⟩
      rw [TeamId.other_other]
      exact hnone

theorem fair_iff (hq : InOrder q) (u : Update) (t : Template) :
    (∀ pools q' instanceId, q.findNormalMatch u t = some (pools, q') →
      u.newInstance = some instanceId → FairMatch q u t pools) ↔
    ∀ team, ¬ OneSided q u t team := by
  constructor
  · intro hfair team hone
    have hcase := hone
    obtain ⟨harena, htesting, hinvitation, hnew, hnone, id, hid, hlarge⟩ := hcase
    obtain ⟨instanceId, hinstance⟩ := Option.ne_none_iff_exists'.mp hnew
    have hmin := (minPlayers_eq u t).1 (Or.inr ⟨harena, htesting⟩)
    have hcount := (lt_firstPools hq hmin team 2).mpr ⟨id, hid, hlarge⟩
    have hstarted : Started u t (firstPools q u t) := by
      refine Or.inl ⟨htesting, harena, ?_⟩
      cases team with
      | alliance => exact Or.inl (by omega)
      | horde => exact Or.inr (by omega)
    have htrue : (q.checkNormalMatch u t).2 = true := by
      rcases checkNormalMatch_cases q u t with ⟨-, henough, -, -⟩ | ⟨-, -, hiff⟩
      · have hzero := (firstPools_eq_zero hq hmin team.other).mpr hnone
        exact absurd (henough team.other) (by omega)
      · exact hiff.mpr hstarted
    have hfound : q.findNormalMatch u t = some ((q.checkNormalMatch u t).1, q) := by
      exact if_pos htrue
    have hle := (hfair _ q instanceId hfound hinstance).balanced hinvitation htrue
    unfold sidePlayers at hle
    rw [← (selection_checkNormalMatch q u t .alliance).1.count,
      ← (selection_checkNormalMatch q u t .horde).1.count] at hle
    exact (difference_le_iff hq hnew htrue hinvitation).mp hle team hone
  · intro hone pools q' instanceId hfound hinstance
    have hnew : u.newInstance ≠ none := hinstance ▸ Option.some_ne_none instanceId
    unfold BattlegroundQueue.findNormalMatch at hfound
    dsimp only at hfound
    split at hfound
    · rename_i htrue
      obtain ⟨rfl, -⟩ := Prod.mk.inj (Option.some.inj hfound)
      exact fair_of_normal hq htrue fun h => (difference_le_iff hq hnew htrue h).mpr hone
    · rename_i hfalse
      split at hfound
      · exact fair_of_skirmish hq ‹_› (Bool.eq_false_iff.mpr hfalse) hfound
      · nomatch hfound

/-- The team that a skirmish divides has a group, unless the Alliance is kept with nobody in it. -/
theorem last_iff (hq : InOrder q) (u : Update) (t : Template) :
    (∀ team, (q.checkNormalMatch u t).2 = false → t.isArena = true →
      BattlegroundQueue.skirmishTeam (u.minPlayers t) (q.checkNormalMatch u t).1 = some team →
        ((q.checkNormalMatch u t).1 team).selectedGroups ≠ []) ↔
    ¬ KeepsNobody q u t := by
  have hselection := selection_checkNormalMatch q u t
  constructor
  · rintro hlast ⟨harena, htesting, hnone, hlarge⟩
    have hmin := (minPlayers_eq u t).1 (Or.inl ⟨harena, htesting⟩)
    have hali := (firstPools_eq_zero hq hmin .alliance).mpr hnone
    have hhorde := (lt_firstPools hq hmin .horde 1).mpr hlarge
    have hnot : ¬ Enough (u.minPlayers t) (firstPools q u t) := fun h => absurd (h .alliance) (by omega)
    rcases checkNormalMatch_cases q u t with ⟨-, henough, -, -⟩ | ⟨-, heq, hiff⟩
    · exact hnot henough
    have hfalse : (q.checkNormalMatch u t).2 = false := by
      refine Bool.eq_false_iff.mpr fun htrue => ?_
      rcases hiff.mp htrue with ⟨-, hbattleground, -⟩ | henough
      · exact Bool.eq_false_iff.mp hbattleground harena
      · exact hnot henough
    have hteam : BattlegroundQueue.skirmishTeam (u.minPlayers t) (q.checkNormalMatch u t).1 =
        some .alliance := by
      rw [heq]
      unfold BattlegroundQueue.skirmishTeam
      rw [if_neg (by omega), if_neg (by omega)]
    refine hlast .alliance hfalse harena hteam (((hselection .alliance).1.nil_iff hq).mpr ?_)
    rw [heq]
    exact hali
  · intro hkeeps team hfalse harena hteam hnil
    have hzero := ((hselection team).1.nil_iff hq).mp hnil
    rcases skirmishTeam_spec harena (fun team => (hselection team).2) hteam with
      hmin | ⟨rfl, htesting, -, hhorde⟩
    · -- `MinPlayersPerTeam` is zero, and then `CheckNormalMatch` comes to a match
      have hminZero : u.minPlayers t = 0 := by omega
      refine absurd hfalse (Bool.not_eq_false _ ▸ ?_)
      rcases checkNormalMatch_cases q u t with ⟨-, -, -, hiff⟩ | ⟨-, -, hiff⟩
      · have htesting : u.isArenaTesting = false := Bool.eq_false_iff.mpr fun htesting =>
          absurd ((minPlayers_eq u t).1 (Or.inl ⟨harena, htesting⟩)) (by omega)
        have hmax := (minPlayers_eq u t).2 ⟨harena, htesting⟩
        have hali := (selection_levelled (q := q) u t .alliance).2.2
        have hhorde := (selection_levelled (q := q) u t .horde).2.2
        refine hiff.mpr ?_
        unfold difference
        omega
      · exact hiff.mpr (Or.inr fun team => hminZero ▸ Nat.zero_le _)
    · refine hkeeps ⟨harena, htesting, ?_⟩
      have hmin := (minPlayers_eq u t).1 (Or.inl ⟨harena, htesting⟩)
      rcases checkNormalMatch_cases q u t with ⟨-, henough, heq, -⟩ | ⟨-, heq, -⟩
      · have hle := (henough .alliance).trans (selection_levelled u t .alliance).2.1
        rw [heq] at hzero
        exact absurd hle (by omega)
      · rw [heq] at hzero hhorde
        exact ⟨(firstPools_eq_zero hq hmin .alliance).mp hzero,
          (lt_firstPools hq hmin .horde 1).mp hhorde⟩

/-- The search for a match of normal groups is as it should be in each update that comes to it. -/
def SearchesWell (q : BattlegroundQueue) (u : Update) : Prop :=
  ∀ q' t, q.beforeSearch u = (q', some t) → u.isRated = false → FormsWell q' u t

/-- **A match is formed as it should be** just when it is not that arenas are tested and only the
Horde has a group, of two or more, nor that battlegrounds are tested and only one team has a
group, of three or more. -/
theorem searchesWell_iff (hq : InOrder q) (u : Update) : SearchesWell q u ↔
    ∀ q' t, q.beforeSearch u = (q', some t) → u.isRated = false →
      ¬ KeepsNobody q' u t ∧ ∀ team, ¬ OneSided q' u t team := by
  refine forall₂_congr fun q' t => forall₂_congr fun h _ => ?_
  have hq' : InOrder q' := by
    have hbefore := hq.beforeSearch u
    rw [h] at hbefore
    exact hbefore
  constructor
  · intro hforms
    exact ⟨(last_iff hq' u t).mp hforms.last, (fair_iff hq' u t).mp hforms.fair⟩
  · rintro ⟨hkeeps, hone⟩
    exact ⟨(fair_iff hq' u t).mpr hone, (last_iff hq' u t).mpr hkeeps⟩

/-- A group of two of the Horde queues for an arena of two against two. -/
def pairQueue : BattlegroundQueue :=
  BattlegroundQueue.empty.addGroup firstBracket .horde 1 [2] false false 0 0 0

/-- The update after that, when arenas are tested. -/
def testedArena : Update where
  bracketId := firstBracket
  arenaType := 2
  isRated := false
  arenaRating := 0
  running := []
  template := some ⟨true, 2, 2⟩
  isTesting := false
  isArenaTesting := true
  invitationType := 0
  time := 0
  premadeGroupWaitForMatch := 0
  maxRatingDifference := 0
  ratingDiscardTimer := 0
  premadeInstance := some 1
  newInstance := some 1

theorem tested_arena_keeps_nobody : ¬ SearchesWell pairQueue testedArena := by
  intro h
  have hsearch : pairQueue.beforeSearch testedArena = (pairQueue, some ⟨true, 2, 2⟩) := by rfl
  exact (h _ _ hsearch rfl).last .alliance (by decide) rfl (by decide) (by decide)

theorem searchesWell_iff_pair : SearchesWell pairQueue testedArena ↔
    ∀ q' t, pairQueue.beforeSearch testedArena = (q', some t) → testedArena.isRated = false →
      ¬ KeepsNobody q' testedArena t ∧ ∀ team, ¬ OneSided q' testedArena t team :=
  searchesWell_iff (InOrder.empty.addGroup _ _ _ _ _ _ _ _ _ (by decide)) testedArena

end HungerGames.Battlegrounds
