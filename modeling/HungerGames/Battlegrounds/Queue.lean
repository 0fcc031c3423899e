/-
# The queue of a battleground

Players queue for a battleground alone or as a group.  The queue keeps what it knows of a group
in an object, `GroupQueueInfo`, and the addresses of these objects in lists: four for each bracket
of levels, for premade and for normal groups of both teams.  A map leads from a player to the
object of his group.

`BattlegroundQueueUpdate` goes through the lists of one bracket.  It fills the battlegrounds that
are running, and looks for two sides for a new one: two premade groups, two sides of normal
groups, two sides of one faction for a skirmish, or two arena teams.  The groups it selects for a
side are in a `SelectionPool` meanwhile.

Objects are numbered in place of addresses.  What comes from outside (the battlegrounds that are
running, the template, the configuration and the time) is the input of an update.
-/
import Mathlib.Data.Finmap
import Mathlib.Data.Finset.Max
import Mathlib.Algebra.GroupWithZero.Nat

namespace HungerGames.Battlegrounds

/-! ## 1. The queue -/

/-- `TEAM_ALLIANCE` and `TEAM_HORDE` -/
inductive TeamId where
  | alliance
  | horde
deriving DecidableEq

def TeamId.other : TeamId → TeamId
  | .alliance => .horde
  | .horde => .alliance

/-- `MAX_BATTLEGROUND_BRACKETS` -/
def maxBattlegroundBrackets : ℕ := 16

abbrev BracketId := Fin maxBattlegroundBrackets

inductive GroupKind where
  | premade
  | normal
deriving DecidableEq

/-- A list of `m_QueuedGroups`.  The four `BattlegroundQueueGroupTypes` are two kinds for each of
two teams. -/
structure Place where
  bracket : BracketId
  kind : GroupKind
  team : TeamId
deriving DecidableEq

structure GroupQueueInfo where
  players : Finset ℕ
  team : TeamId
  isRated : Bool
  arenaTeamId : ℕ
  joinTime : ℕ
  isInvitedToBGInstanceGUID : ℕ
  arenaMatchmakerRating : ℕ
deriving DecidableEq

instance : Inhabited GroupQueueInfo := ⟨⟨∅, .alliance, false, 0, 0, 0, 0⟩⟩

/-- `groups` are the objects there are, and `next` is where the next one goes. -/
structure BattlegroundQueue where
  groups : ℕ → Option GroupQueueInfo
  next : ℕ
  queuedGroups : Place → List ℕ
  queuedPlayers : Finmap fun _ : ℕ => ℕ

namespace BattlegroundQueue

def empty : BattlegroundQueue := ⟨fun _ => none, 0, fun _ => [], ∅⟩

variable (q : BattlegroundQueue)

def group (id : ℕ) : GroupQueueInfo := (q.groups id).getD default

/-- `Players.size()` -/
def size (id : ℕ) : ℕ := (q.group id).players.card

def isInvited (id : ℕ) : Bool := (q.group id).isInvitedToBGInstanceGUID ≠ 0

/-- What is written to an object. -/
def modifyGroup (id : ℕ) (f : GroupQueueInfo → GroupQueueInfo) : BattlegroundQueue :=
  { q with groups := Function.update q.groups id ((q.groups id).map f) }

def setList (p : Place) (ids : List ℕ) : BattlegroundQueue :=
  { q with queuedGroups := Function.update q.queuedGroups p ids }

/-- A group leaves one list, and is the first of another. -/
def transfer (id : ℕ) (src dst : Place) : BattlegroundQueue :=
  (q.setList dst (id :: q.queuedGroups dst)).setList src ((q.queuedGroups src).erase id)

/-! ## 2. Groups come and go -/

/-- `AddGroup`: the leader and the others of his group. -/
def addGroup (bracket : BracketId) (team : TeamId) (leader : ℕ) (members : List ℕ)
    (isRated isPremade : Bool) (joinTime arenaTeamId matchmakerRating : ℕ) : BattlegroundQueue :=
  let kind := if ¬ isRated ∧ ¬ isPremade then .normal else .premade
  let p : Place := ⟨bracket, kind, team⟩
  { groups := Function.update q.groups q.next
      (some ⟨(leader :: members).toFinset, team, isRated, arenaTeamId, joinTime, 0,
        matchmakerRating⟩)
    next := q.next + 1
    queuedGroups := Function.update q.queuedGroups p (q.queuedGroups p ++ [q.next])
    queuedPlayers := (leader :: members).foldl (fun m guid => m.insert guid q.next)
      q.queuedPlayers }

/-- The list that `RemovePlayer` finds a group in: in the highest bracket, and there in the last
of the two lists of its team. -/
def findGroup (id : ℕ) (team : TeamId) : Option Place :=
  (List.finRange maxBattlegroundBrackets).reverse.findSome? fun bracket =>
    if id ∈ q.queuedGroups ⟨bracket, .normal, team⟩ then some ⟨bracket, .normal, team⟩
    else if id ∈ q.queuedGroups ⟨bracket, .premade, team⟩ then some ⟨bracket, .premade, team⟩
    else none

/-- An object is deleted, and its address leaves the list. -/
def deleteGroup (id : ℕ) (p : Place) : BattlegroundQueue :=
  { q.setList p ((q.queuedGroups p).erase id) with groups := Function.update q.groups id none }

def erasePlayer (guid : ℕ) : BattlegroundQueue :=
  { q with queuedPlayers := q.queuedPlayers.erase guid }

/-- `RemovePlayer` up to where it calls itself, and with whom: with the first of a rated group
that has not been invited. -/
def removeStep (guid : ℕ) : Option (BattlegroundQueue × Option ℕ) :=
  match q.queuedPlayers.lookup guid with
  | none => none
  | some id =>
    match q.findGroup id (q.group id).team with
    | none => none
    | some p =>
      let players := (q.group id).players.erase guid
      let q' := q.erasePlayer guid
      if h : players.Nonempty then
        some (q'.modifyGroup id fun g => { g with players },
          if ¬ q.isInvited id ∧ (q.group id).isRated then some (players.min' h) else none)
      else some (q'.deleteGroup id p, none)

theorem card_removeStep {q q' : BattlegroundQueue} {guid : ℕ} {o : Option ℕ}
    (h : q.removeStep guid = some (q', o)) :
    q'.queuedPlayers.keys.card < q.queuedPlayers.keys.card := by
  unfold removeStep at h
  split at h
  · nomatch h
  rename_i id hid
  have hlt : (q.queuedPlayers.erase guid).keys.card < q.queuedPlayers.keys.card := by
    rw [Finmap.keys_erase]
    refine Finset.card_erase_lt_of_mem (Finmap.mem_keys.mpr ?_)
    exact Finmap.mem_iff.mpr ⟨id, hid⟩
  split at h
  · nomatch h
  dsimp only at h
  split at h <;> obtain ⟨rfl, -⟩ := Prod.mk.inj (Option.some.inj h) <;> exact hlt

/-- `RemovePlayer` -/
def removePlayer (q : BattlegroundQueue) (guid : ℕ) : BattlegroundQueue :=
  match _h : q.removeStep guid with
  | none => q
  | some (q', none) => q'
  | some (q', some next) => q'.removePlayer next
termination_by q.queuedPlayers.keys.card
decreasing_by exact card_removeStep _h

/-- `InviteGroupToBG` -/
def inviteGroupToBG (id instanceId : ℕ) (side : TeamId) : BattlegroundQueue :=
  q.modifyGroup id fun g =>
    { g with
      team := side
      isInvitedToBGInstanceGUID :=
        if g.isInvitedToBGInstanceGUID = 0 then instanceId else g.isInvitedToBGInstanceGUID }

/-- Each of the selected groups is invited, to the team it has. -/
def inviteAll (instanceId : ℕ) (ids : List ℕ) : BattlegroundQueue :=
  ids.foldl (fun q id => q.inviteGroupToBG id instanceId (q.group id).team) q

end BattlegroundQueue

/-! ## 3. Selection pools -/

structure SelectionPool where
  selectedGroups : List ℕ
  playerCount : ℕ
deriving DecidableEq

namespace SelectionPool

def init : SelectionPool := ⟨[], 0⟩

variable (q : BattlegroundQueue)

/-- The group that `KickGroup` picks: the last of nearly this size, or of the largest. -/
def groupToKick (size : ℕ) : List ℕ → Option ℕ
  | [] => none
  | first :: rest =>
    some ((first :: rest).foldl
      (fun (kick, found) id =>
        if ((q.size id : ℤ) - size).natAbs ≤ 1 then (id, true)
        else if ¬ found ∧ q.size kick ≤ q.size id then (id, found)
        else (kick, found)) (first, false)).1

/-- `KickGroup`, and whether it tries to add new groups. -/
def kickGroup (size : ℕ) (pool : SelectionPool) : SelectionPool × Bool :=
  if pool.playerCount = 0 then (pool, true)
  else match groupToKick q size pool.selectedGroups with
    | none => (pool, true)
    | some id =>
      (⟨pool.selectedGroups.erase id, pool.playerCount - q.size id⟩, size + 1 < q.size id)

/-- `AddGroup`, and whether more can be invited. -/
def addGroup (desiredCount id : ℕ) (pool : SelectionPool) : SelectionPool × Bool :=
  if ¬ q.isInvited id ∧ pool.playerCount + q.size id ≤ desiredCount then
    (⟨pool.selectedGroups ++ [id], pool.playerCount + q.size id⟩, true)
  else (pool, pool.playerCount < desiredCount)

/-- The loop that adds groups until `AddGroup` returns `false`, and the groups it has not come
to. -/
def addWhile (desiredCount : ℕ) (pool : SelectionPool) : List ℕ → SelectionPool × List ℕ
  | [] => (pool, [])
  | id :: ids =>
    let added := pool.addGroup q desiredCount id
    if added.2 then addWhile desiredCount added.1 ids else (added.1, id :: ids)

/-- The same loop where it goes past the groups that are invited. -/
def addNotInvited (desiredCount : ℕ) (pool : SelectionPool) : List ℕ → SelectionPool
  | [] => pool
  | id :: ids =>
    if q.isInvited id then addNotInvited desiredCount pool ids
    else
      let added := pool.addGroup q desiredCount id
      if added.2 then addNotInvited desiredCount added.1 ids else added.1

/-- The loop of `CheckNormalMatch` over one team, and the groups from where it stops. -/
def addUntil (minPlayers maxPlayers : ℕ) (pool : SelectionPool) :
    List ℕ → SelectionPool × List ℕ
  | [] => (pool, [])
  | id :: ids =>
    if q.isInvited id then addUntil minPlayers maxPlayers pool ids
    else
      let pool := (pool.addGroup q maxPlayers id).1
      if minPlayers ≤ pool.playerCount then (pool, id :: ids)
      else addUntil minPlayers maxPlayers pool ids

end SelectionPool

abbrev Pools := TeamId → SelectionPool

def Pools.init : Pools := fun _ => .init

/-! ## 4. Running battlegrounds -/

/-- A battleground of the type and the bracket that is not rated and is waiting or in progress,
with what `GetFreeSlotsForTeam` says. -/
structure RunningBattleground where
  instanceId : ℕ
  free : TeamId → ℕ

/-- One team in `FillPlayersToBG`: the free slots, the pool, and the groups it has not come to. -/
structure Filling where
  free : ℕ
  pool : SelectionPool
  rest : List ℕ

/-- `diffAli`, or `diffHorde`. -/
def Filling.diff (x : Filling) : ℤ := x.free - x.pool.playerCount

namespace BattlegroundQueue

variable (q : BattlegroundQueue)

/-- One turn of the loop of `FillPlayersToBG`, which kicks a group of the team `less` that has
fewer slots left, or of the other if it has none; and whether the loop goes on. -/
def rebalance (less more : Filling) : (Filling × Filling) × Bool :=
  let size := (more.diff - less.diff).toNat
  let kicked := less.pool.kickGroup q size
  let added :=
    if kicked.2 then kicked.1.addWhile q ((less.free : ℤ) - more.diff).toNat less.rest
    else (kicked.1, less.rest)
  let less' : Filling := { less with pool := added.1, rest := added.2 }
  if added.1.playerCount = 0 then
    if (less.free : ℤ) ≤ more.diff + 1 then ((less', more), false)
    else ((less', { more with pool := (more.pool.kickGroup q size).1 }), true)
  else ((less', more), true)

/-- One turn, and `none` when the loop is over. -/
def fillStep (ali horde : Filling) : Option ((Filling × Filling) × Bool) :=
  if 1 < (ali.diff - horde.diff).natAbs ∧
      (0 < horde.pool.playerCount ∨ 0 < ali.pool.playerCount) then
    if ali.diff < horde.diff then some (q.rebalance ali horde)
    else
      let turn := q.rebalance horde ali
      some (turn.1.swap, turn.2)
  else none

/-- What a turn makes smaller, unless the loop is over. -/
def fillMeasure (ali horde : Filling) : ℕ :=
  2 * (ali.rest.length + horde.rest.length) +
    (ali.pool.selectedGroups.length + horde.pool.selectedGroups.length)

/-- The loop of `FillPlayersToBG`, of at most `n` turns. -/
def fillLoop : ℕ → Filling → Filling → Filling × Filling
  | 0, ali, horde => (ali, horde)
  | n + 1, ali, horde =>
    match q.fillStep ali horde with
    | none => (ali, horde)
    | some (turn, false) => turn
    | some (turn, true) => fillLoop n turn.1 turn.2

/-- `FillPlayersToBG`, with the type of invitation of the configuration. -/
def fillPlayersToBG (invitationType : ℕ) (bracket : BracketId) (free : TeamId → ℕ) : Pools :=
  let start team : Filling :=
    let added := SelectionPool.init.addWhile q (free team) (q.queuedGroups ⟨bracket, .normal, team⟩)
    ⟨free team, added.1, added.2⟩
  let filled :=
    if invitationType = 0 then (start .alliance, start .horde)
    else q.fillLoop (fillMeasure (start .alliance) (start .horde)) (start .alliance) (start .horde)
  fun
    | .alliance => filled.1.pool
    | .horde => filled.2.pool

/-- A running battleground is filled. -/
def fillRunning (invitationType : ℕ) (bracket : BracketId) (bg : RunningBattleground) :
    BattlegroundQueue :=
  let pools := q.fillPlayersToBG invitationType bracket bg.free
  (q.inviteAll bg.instanceId (pools .alliance).selectedGroups).inviteAll bg.instanceId
    (pools .horde).selectedGroups

end BattlegroundQueue

/-! ## 5. Matches -/

/-- A template of a battleground, whose map has the bracket. -/
structure Template where
  isArena : Bool
  minPlayersPerTeam : ℕ
  maxPlayersPerTeam : ℕ

/-- The input of `BattlegroundQueueUpdate`.  `premadeInstance` and `newInstance` are what
`CreateNewBattleground` makes, if it makes anything. -/
structure Update where
  bracketId : BracketId
  arenaType : ℕ
  isRated : Bool
  arenaRating : ℕ
  running : List RunningBattleground
  template : Option Template
  isTesting : Bool
  isArenaTesting : Bool
  invitationType : ℕ
  time : ℕ
  premadeGroupWaitForMatch : ℕ
  maxRatingDifference : ℕ
  ratingDiscardTimer : ℕ
  premadeInstance : Option ℕ
  newInstance : Option ℕ

/-- A time before, in 32 bits. -/
def timeBefore (time timer : ℕ) : ℕ := (time + 2 ^ 32 - timer) % 2 ^ 32

namespace Update

/-- `MinPlayersPerTeam`, as it is for this update. -/
def minPlayers (u : Update) (t : Template) : ℕ :=
  if t.isArena then if u.isArenaTesting then 1 else u.arenaType
  else if u.isTesting then 1
  else t.minPlayersPerTeam

/-- `MaxPlayersPerTeam` -/
def maxPlayers (u : Update) (t : Template) : ℕ :=
  if t.isArena then u.arenaType else t.maxPlayersPerTeam

end Update

namespace BattlegroundQueue

variable (q : BattlegroundQueue)

/-- The two pools of `CheckPremadeMatch`, when there is a premade group on each side. -/
def premadePools (bracket : BracketId) (maxPlayers : ℕ) : Option Pools :=
  let first team := (q.queuedGroups ⟨bracket, .premade, team⟩).find? fun id => ¬ q.isInvited id
  match first .alliance, first .horde with
  | some ali, some horde =>
    let aliPool := (SelectionPool.init.addGroup q maxPlayers ali).1
    let hordePool := (SelectionPool.init.addGroup q maxPlayers horde).1
    let desired := min aliPool.playerCount hordePool.playerCount
    some fun
      | .alliance => aliPool.addNotInvited q desired (q.queuedGroups ⟨bracket, .normal, .alliance⟩)
      | .horde => hordePool.addNotInvited q desired (q.queuedGroups ⟨bracket, .normal, .horde⟩)
  | _, _ => none

/-- The first premade group has waited too long, or has become too small. -/
def demotePremade (u : Update) (minPlayers : ℕ) (team : TeamId) : BattlegroundQueue :=
  let premade : Place := ⟨u.bracketId, .premade, team⟩
  match q.queuedGroups premade with
  | [] => q
  | id :: _ =>
    if ¬ q.isInvited id ∧
        ((q.group id).joinTime < timeBefore u.time u.premadeGroupWaitForMatch ∨
          q.size id < minPlayers) then
      q.transfer id premade ⟨u.bracketId, .normal, team⟩
    else q

/-- `CheckPremadeMatch` and what is done with its pools, and `false` where the update ends. -/
def checkPremadeMatch (u : Update) (t : Template) : BattlegroundQueue × Bool :=
  if t.isArena then (q, true)
  else match q.premadePools u.bracketId (u.maxPlayers t) with
    | some pools =>
      match u.premadeInstance with
      | none => (q, false)
      | some instanceId =>
        ((q.inviteAll instanceId (pools .alliance).selectedGroups).inviteAll instanceId
          (pools .horde).selectedGroups, true)
    | none =>
      ((q.demotePremade u (u.minPlayers t) .alliance).demotePremade u (u.minPlayers t) .horde, true)

/-- The pools of `CheckNormalMatch` before it tries to make them equal, and the groups that each
has not come to. -/
def normalPools (bracket : BracketId) (minPlayers maxPlayers : ℕ) (team : TeamId) :
    SelectionPool × List ℕ :=
  let added := SelectionPool.init.addUntil q minPlayers maxPlayers
    (q.queuedGroups ⟨bracket, .normal, team⟩)
  (added.1, added.2.tail)

/-- The team with fewer players. -/
def smallerTeam (pools : Pools) : TeamId :=
  if (pools .horde).playerCount < (pools .alliance).playerCount then .horde else .alliance

/-- `CheckNormalMatch`: its pools, and whether they are a match. -/
def checkNormalMatch (u : Update) (t : Template) : Pools × Bool :=
  let minPlayers := u.minPlayers t
  let added := q.normalPools u.bracketId minPlayers (u.maxPlayers t)
  let pools : Pools := fun team => (added team).1
  let enough (pools : Pools) : Bool :=
    minPlayers ≤ (pools .alliance).playerCount ∧ minPlayers ≤ (pools .horde).playerCount
  let started (pools : Pools) : Bool :=
    u.isTesting ∧ ¬ t.isArena ∧
        (0 < (pools .alliance).playerCount ∨ 0 < (pools .horde).playerCount) ∨
      enough pools
  if u.invitationType ≠ 0 ∧ enough pools then
    let team := smallerTeam pools
    let pools := Function.update pools team
      ((pools team).addNotInvited q (pools team.other).playerCount (added team).2)
    if 2 < (((pools .horde).playerCount : ℤ) - (pools .alliance).playerCount).natAbs then
      (pools, false)
    else (pools, started pools)
  else (pools, started pools)

/-- The team whose groups `CheckSkirmishForSameFaction` divides, if it does not give up at once. -/
def skirmishTeam (minPlayers : ℕ) (pools : Pools) : Option TeamId :=
  if (pools .alliance).playerCount < minPlayers ∧ (pools .horde).playerCount < minPlayers then none
  else if (pools .horde).playerCount = minPlayers then some .horde
  else some .alliance

/-- The groups after `last` in a list, if it is there. -/
def after (last : ℕ) : List ℕ → Option (List ℕ)
  | [] => none
  | id :: ids => if id = last then some ids else after last ids

/-- A list without a group that is after `last`. -/
def eraseAfter (last id : ℕ) : List ℕ → List ℕ
  | [] => []
  | x :: xs => if x = last then x :: xs.erase id else x :: eraseAfter last id xs

/-- A group goes over to the other team. -/
def changeTeam (bracket : BracketId) (team : TeamId) (last id : ℕ) : BattlegroundQueue :=
  let own : Place := ⟨bracket, .normal, team⟩
  let others : Place := ⟨bracket, .normal, team.other⟩
  ((q.modifyGroup id fun g => { g with team := team.other }).setList others
    (id :: q.queuedGroups others)).setList own (eraseAfter last id (q.queuedGroups own))

/-- `CheckSkirmishForSameFaction`, when it comes to a match.  It takes the last selected group of
a team; where there is none, what `back` gives is in no list. -/
def checkSkirmishForSameFaction (bracket : BracketId) (minPlayers : ℕ) (pools : Pools) :
    Option (Pools × BattlegroundQueue) :=
  match skirmishTeam minPlayers pools with
  | none => none
  | some team =>
    match (pools team).selectedGroups.getLast? with
    | none => none
    | some last =>
      match after last (q.queuedGroups ⟨bracket, .normal, team⟩) with
      | none => none
      | some rest =>
        let pool := SelectionPool.init.addNotInvited q minPlayers rest
        if pool.playerCount ≠ minPlayers then none
        else some (Function.update pools team.other pool,
          pool.selectedGroups.foldl (fun q id => q.changeTeam bracket team last id) q)

/-- What the search for a match of normal groups comes to: the pools and the queue. -/
def findNormalMatch (u : Update) (t : Template) : Option (Pools × BattlegroundQueue) :=
  let checked := q.checkNormalMatch u t
  if checked.2 then some (checked.1, q)
  else if t.isArena then q.checkSkirmishForSameFaction u.bracketId (u.minPlayers t) checked.1
  else none

/-- A battleground for normal groups. -/
def normalMatch (u : Update) (t : Template) : BattlegroundQueue :=
  match q.findNormalMatch u t with
  | none => q
  | some (pools, q) =>
    match u.newInstance with
    | none => q
    | some instanceId =>
      (q.inviteAll instanceId (pools .alliance).selectedGroups).inviteAll instanceId
        (pools .horde).selectedGroups

/-! ## 6. Rated arenas -/

/-- The rating that opponents are looked for around: of the team that has waited longest, if none
is given. -/
def searchRating (u : Update) : ℕ :=
  let front team := (q.queuedGroups ⟨u.bracketId, .premade, team⟩).head?
  if u.arenaRating ≠ 0 then u.arenaRating
  else match front .alliance, front .horde with
    | some ali, some horde =>
      if (q.group ali).joinTime < (q.group horde).joinTime then (q.group ali).arenaMatchmakerRating
      else (q.group horde).arenaMatchmakerRating
    | some ali, none => (q.group ali).arenaMatchmakerRating
    | none, some horde => (q.group horde).arenaMatchmakerRating
    | none, none => 0

/-- An arena team that is not invited, and has nearly the rating or has waited long enough. -/
def isOpponent (u : Update) (id : ℕ) : Bool :=
  let rating := q.searchRating u
  let teamRating := (q.group id).arenaMatchmakerRating
  ¬ q.isInvited id ∧
    (rating - u.maxRatingDifference ≤ teamRating ∧ teamRating ≤ rating + u.maxRatingDifference ∨
      (q.group id).joinTime < timeBefore u.time u.ratingDiscardTimer)

/-- Another team than `first`, in the list from where it is. -/
def findSecond (u : Update) (p : Place) (first : ℕ) : Option ℕ :=
  ((q.queuedGroups p).dropWhile (· ≠ first)).find? fun id =>
    q.isOpponent u id ∧ (q.group first).arenaTeamId ≠ (q.group id).arenaTeamId

/-- The two teams of a rated match: the first of each list, or two of one list. -/
def findRatedMatch (u : Update) : Option (ℕ × ℕ) :=
  let premade team : Place := ⟨u.bracketId, .premade, team⟩
  let first team := (q.queuedGroups (premade team)).find? (q.isOpponent u)
  match first .alliance, first .horde with
  | some ali, some horde => some (ali, horde)
  | some ali, none => (q.findSecond u (premade .alliance) ali).map fun id => (ali, id)
  | none, some horde => (q.findSecond u (premade .horde) horde).map fun id => (horde, id)
  | none, none => none

/-- A team that is to play for the other faction goes to the list of that. -/
def toSide (bracket : BracketId) (side : TeamId) (id : ℕ) : BattlegroundQueue :=
  if (q.group id).team ≠ side then
    q.transfer id ⟨bracket, .premade, side.other⟩ ⟨bracket, .premade, side⟩
  else q

/-- A rated match. -/
def ratedMatch (u : Update) : BattlegroundQueue :=
  match q.findRatedMatch u, u.newInstance with
  | some (aTeam, hTeam), some instanceId =>
    let q := (q.toSide u.bracketId .alliance aTeam).toSide u.bracketId .horde hTeam
    (q.inviteGroupToBG aTeam instanceId .alliance).inviteGroupToBG hTeam instanceId .horde
  | _, _ => q

/-! ## 7. An update -/

/-- No group is in the bracket. -/
def noPlayers (bracket : BracketId) : Bool :=
  q.queuedGroups ⟨bracket, .premade, .alliance⟩ = [] ∧
    q.queuedGroups ⟨bracket, .premade, .horde⟩ = [] ∧
    q.queuedGroups ⟨bracket, .normal, .alliance⟩ = [] ∧
    q.queuedGroups ⟨bracket, .normal, .horde⟩ = []

/-- `BattlegroundQueueUpdate` up to where it looks for normal groups or arena teams, with the
template if it comes there. -/
def beforeSearch (u : Update) : BattlegroundQueue × Option Template :=
  if q.noPlayers u.bracketId then (q, none)
  else
    let q := u.running.foldl (fun q bg => q.fillRunning u.invitationType u.bracketId bg) q
    match u.template with
    | none => (q, none)
    | some t =>
      let checked := q.checkPremadeMatch u t
      (checked.1, if checked.2 then some t else none)

/-- `BattlegroundQueueUpdate` -/
def battlegroundQueueUpdate (u : Update) : BattlegroundQueue :=
  match q.beforeSearch u with
  | (q, none) => q
  | (q, some t) =>
    if ¬ u.isRated then q.normalMatch u t
    else if t.isArena then q.ratedMatch u
    else q

end BattlegroundQueue

/-! ## 8. Runs -/

inductive Call where
  | addGroup (bracket : BracketId) (team : TeamId) (leader : ℕ) (members : List ℕ)
      (isRated isPremade : Bool) (joinTime arenaTeamId matchmakerRating : ℕ)
  | removePlayer (guid : ℕ)
  | update (u : Update)

def step (q : BattlegroundQueue) : Call → BattlegroundQueue
  | .addGroup bracket team leader members isRated isPremade joinTime arenaTeamId rating =>
    q.addGroup bracket team leader members isRated isPremade joinTime arenaTeamId rating
  | .removePlayer guid => q.removePlayer guid
  | .update u => q.battlegroundQueueUpdate u

end HungerGames.Battlegrounds
