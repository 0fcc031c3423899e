/-
# The queue of the dungeon finder

Players and groups are in the queue under their guid, each with the dungeons and the roles that
were selected.  `FindGroups` takes the guids from the list of new ones, one after another, and
searches for guids in the list of current ones that make a group with it.  How compatible some
guids are is found by `CheckCompatibility`, and cached under a string of the guids.  When they
make a group a proposal is handed to the manager, and they leave both lists.

What the manager answers (who is queued, who ignores whom, which groups are of the finder) does
not change meanwhile and is a `Manager` here, with the random numbers that are drawn.  The best
group found for an entry so far is left out: it is only shown to players.
-/
import HungerGames.Lfg.Roles
import HungerGames.System.SortedMap
import Mathlib.Data.List.Sort
import Mathlib.Data.List.Infix
import Mathlib.Algebra.Order.Ring.Int

namespace HungerGames.Lfg

open HungerGames.System

/-! ## 1. Guids -/

/-- The raw value of a guid. -/
abbrev ObjectGuid := ℕ

/-- The high part is `HIGHGUID_GROUP`. -/
def isGroup (guid : ObjectGuid) : Bool := guid / 2 ^ 48 % 2 ^ 16 = 0x1F50

/-- A string of guids. -/
abbrev Key := List Char

/-- `GetRawValue`, as it is written to a stream. -/
def rawValue (guid : ObjectGuid) : Key := Nat.toDigits 10 guid

/-- `ConcatenateGuids`: the set of the guids, in its order. -/
def concatenateGuids (check : List ObjectGuid) : Key :=
  List.intercalate ['|'] ((check.dedup.insertionSort (· ≤ ·)).map rawValue)

/-! ## 2. The queue -/

inductive LfgCompatibility where
  | pending
  | wrongGroupSize
  | tooMuchPlayers
  | multipleLfgGroups
  | hasIgnores
  | noRoles
  | noDungeons
  | withLessPlayers
  | badStates
  | isMatch
deriving DecidableEq

/-- Values under `LFG_COMPATIBLES_WITH_LESS_PLAYERS` are not compatible. -/
def LfgCompatibility.isCompatible : LfgCompatibility → Bool
  | .withLessPlayers | .badStates | .isMatch => true
  | _ => false

/-- `MAXGROUPSIZE` -/
def maxGroupSize : ℕ := 5

abbrev LfgRolesMap := SortedMap ObjectGuid Role

structure LfgQueueData where
  dungeons : List ℕ
  roles : LfgRolesMap

/-- What is not in the cache is pending. -/
structure LFGQueue where
  queueDataStore : ObjectGuid → Option LfgQueueData
  compatibleMapStore : Key → LfgCompatibility
  currentQueueStore : List ObjectGuid
  newToQueueStore : List ObjectGuid

namespace LFGQueue

def empty : LFGQueue := ⟨fun _ => none, fun _ => .pending, [], []⟩

variable (q : LFGQueue)

def addToNewQueue (guid : ObjectGuid) : LFGQueue :=
  { q with newToQueueStore := q.newToQueueStore ++ [guid] }

def removeFromNewQueue (guid : ObjectGuid) : LFGQueue :=
  { q with newToQueueStore := q.newToQueueStore.filter (· ≠ guid) }

def addToCurrentQueue (guid : ObjectGuid) : LFGQueue :=
  { q with currentQueueStore := q.currentQueueStore ++ [guid] }

def removeFromCurrentQueue (guid : ObjectGuid) : LFGQueue :=
  { q with currentQueueStore := q.currentQueueStore.filter (· ≠ guid) }

/-- An entry of the cache goes when the guid is found in its key as a string. -/
def removeFromCompatibles (guid : ObjectGuid) : LFGQueue :=
  { q with
    compatibleMapStore := fun key =>
      if rawValue guid <:+: key then .pending else q.compatibleMapStore key }

def setCompatibles (key : Key) (compatibles : LfgCompatibility) : LFGQueue :=
  { q with compatibleMapStore := Function.update q.compatibleMapStore key compatibles }

def getCompatibles (key : Key) : LfgCompatibility := q.compatibleMapStore key

def addToQueue (guid : ObjectGuid) : LFGQueue :=
  if (q.queueDataStore guid).isSome then q.addToNewQueue guid else q

def removeFromQueue (guid : ObjectGuid) : LFGQueue :=
  let q := ((q.removeFromNewQueue guid).removeFromCurrentQueue guid).removeFromCompatibles guid
  { q with queueDataStore := Function.update q.queueDataStore guid none }

def addQueueData (guid : ObjectGuid) (dungeons : List ℕ) (roles : LfgRolesMap) : LFGQueue :=
  addToQueue { q with
    queueDataStore := Function.update q.queueDataStore guid (some ⟨dungeons, roles⟩) } guid

/-- `QueueDataStore[guid]` -/
def data (guid : ObjectGuid) : LfgQueueData := (q.queueDataStore guid).getD ⟨[], .empty⟩

end LFGQueue

/-! ## 3. Proposals -/

inductive LfgState where
  | none
  | roleCheck
  | queued
  | proposal
  | boot
  | dungeon
  | finishedDungeon
  | raidBrowser
deriving DecidableEq

inductive LfgAnswer where
  | pending
  | deny
  | agree
deriving DecidableEq

inductive LfgProposalState where
  | initiating
  | failed
  | success
deriving DecidableEq

/-- `group` is 0 for a player without a group. -/
structure LfgProposalPlayer where
  role : Role
  accept : LfgAnswer
  group : ObjectGuid
deriving DecidableEq

structure LfgProposal where
  dungeonId : ℕ
  state : LfgProposalState
  group : ObjectGuid
  leader : ObjectGuid
  cancelTime : ℕ
  isNew : Bool
  queues : List ObjectGuid
  players : SortedMap ObjectGuid LfgProposalPlayer

/-- `LFG_TIME_PROPOSAL` -/
def lfgTimeProposal : ℕ := 45

/-- What is asked of the manager, and what is drawn when some guids make a group: the index of the
dungeon, and 0 or 1 for a player. -/
structure Manager where
  isLfgGroup : ObjectGuid → Bool
  hasIgnore : ObjectGuid → ObjectGuid → Bool
  allQueued : List ObjectGuid → Bool
  getOldState : ObjectGuid → LfgState
  time : ℕ
  dungeonRand : List ObjectGuid → ℕ
  leaderRand : List ObjectGuid → ObjectGuid → Bool

/-! ## 4. `CheckCompatibility` without the calls inside it -/

/-- What the loop over the guids finds out; `groups` is `proposalGroups`, and `group` is that of
the proposal. -/
structure Gathered where
  groups : ObjectGuid → ObjectGuid
  numPlayers : ℕ
  numLfgGroups : ℕ
  group : ObjectGuid

def Gathered.init : Gathered := ⟨fun _ => 0, 0, 0, 0⟩

namespace LFGQueue

variable (m : Manager) (q : LFGQueue)

/-- A guid that has queue data is counted, in 8 bits. -/
def gatherOne (guid : ObjectGuid) (data : LfgQueueData) (g : Gathered) : Gathered where
  groups := fun player =>
    if player ∈ data.roles.keys then (if isGroup guid then guid else 0) else g.groups player
  numPlayers := (g.numPlayers + data.roles.size) % 2 ^ 8
  numLfgGroups := if m.isLfgGroup guid then g.numLfgGroups + 1 else g.numLfgGroups
  group := if m.isLfgGroup guid ∧ g.numLfgGroups = 0 then guid else g.group

/-- The loop that counts the players and the groups; an error is a guid without queue data. -/
def gather : List ObjectGuid → Gathered → Except ObjectGuid Gathered
  | [], g => .ok g
  | guid :: guids, g =>
    if g.numLfgGroups < 2 ∧ g.numPlayers ≤ maxGroupSize then
      match q.queueDataStore guid with
      | none => .error guid
      | some data => gather guids (gatherOne m guid data g)
    else .ok g

/-- A player of one of the entries is taken, unless he ignores one who is. -/
def addPlayer (proposalRoles : LfgRolesMap) (player : ObjectGuid × Role) : LfgRolesMap :=
  if ∀ other ∈ proposalRoles.keys, player.1 = other ∨ ¬ m.hasIgnore player.1 other then
    proposalRoles.insert player.1 player.2
  else proposalRoles

/-- The players of all the entries, one entry after another. -/
def mergeRoles (check : List ObjectGuid) : LfgRolesMap :=
  (check.flatMap fun guid => (q.data guid).roles.entries).foldl (addPlayer m) .empty

/-- The dungeons of all the entries. -/
def commonDungeons : List ObjectGuid → List ℕ
  | [] => []
  | guid :: guids =>
    guids.foldl (fun dungeons guid => dungeons.filter (· ∈ (q.data guid).dungeons))
      (q.data guid).dungeons

/-- `CheckGroupRoles` on a map, which it changes. -/
def assignRoles (roles : LfgRolesMap) : LfgRolesMap × Bool :=
  match checkGroupRoles roles.values with
  | some assigned => (roles.withValues assigned, true)
  | none => (roles.withValues (removeLeader roles.values), false)

/-- The roles and the dungeons of a group, unless the entries are not compatible. -/
def combine (check : List ObjectGuid) (numPlayers : ℕ) :
    Except LfgCompatibility (LfgRolesMap × List ℕ) :=
  if 1 < check.length then
    let proposalRoles := q.mergeRoles m check
    let assigned := assignRoles proposalRoles
    let proposalDungeons := q.commonDungeons check
    if ((numPlayers : ℤ) - proposalRoles.size) % 2 ^ 8 ≠ 0 then .error .hasIgnores
    else if ¬ assigned.2 then .error .noRoles
    else if proposalDungeons = [] then .error .noDungeons
    else .ok (assigned.1, proposalDungeons)
  else
    let data := q.data (check.headD 0)
    .ok ((assignRoles data.roles).1, data.dungeons)

/-- `SelectRandomContainerElement` -/
def selectRandomContainerElement (rand : ℕ) (container : List ℕ) : ℕ :=
  container.getD (rand % container.length) 0

/-- The leader: the last that is drawn, in the order of the players; one with the flag of a leader
if there is one. -/
def drawLeader (check : List ObjectGuid) (roles : LfgRolesMap) : ObjectGuid :=
  (roles.entries.foldl
    (fun (chosen, leader) (player, role) =>
      if role &&& Role.leader ≠ 0 then
        (if ¬ leader ∨ chosen = 0 ∨ m.leaderRand check player then player else chosen, true)
      else if ¬ leader ∧ (chosen = 0 ∨ m.leaderRand check player) then (player, leader)
      else (chosen, leader)) ((0 : ObjectGuid), false)).1

/-- The proposal of a group. -/
def makeProposal (check : List ObjectGuid) (g : Gathered) (roles : LfgRolesMap)
    (dungeons : List ℕ) : LfgProposal :=
  let isNew : Bool := g.numLfgGroups ≠ 1 ∨ m.getOldState (check.headD 0) ≠ .dungeon
  { dungeonId := selectRandomContainerElement (m.dungeonRand check) dungeons
    state := .initiating
    group := g.group
    leader := drawLeader m check roles
    cancelTime := m.time + lfgTimeProposal
    isNew
    queues := check
    players := roles.withValues (roles.entries.map fun (player, role) =>
      { role
        accept :=
          if ¬ isNew ∧ g.groups player ≠ 0 ∧ g.groups player = g.group then .agree else .pending
        group := g.groups player }) }

/-- What some guids come to: a guid is not queued, or the group has this compatibility, which is
cached, or there is a proposal. -/
inductive Verdict where
  | notQueued (guid : ObjectGuid)
  | cached (compatibles : LfgCompatibility)
  | formed (proposal : LfgProposal)

/-- `CheckCompatibility` of the guids themselves. -/
def verdict (check : List ObjectGuid) : Verdict :=
  match q.gather m check .init with
  | .error guid => .notQueued guid
  | .ok g =>
    if check.length = 1 ∧ g.numPlayers ≠ maxGroupSize then .cached .withLessPlayers
    else if 1 < g.numLfgGroups then .cached .multipleLfgGroups
    else if maxGroupSize < g.numPlayers then .cached .tooMuchPlayers
    else match q.combine m check g.numPlayers with
      | .error compatibles => .cached compatibles
      | .ok (roles, dungeons) =>
        if g.numPlayers ≠ maxGroupSize then .cached .withLessPlayers
        else if ¬ m.allQueued check then .cached .badStates
        else .formed (makeProposal m check g roles dungeons)

end LFGQueue

/-! ## 5. The search -/

/-- The queue, and the proposals that were passed to `AddProposal`. -/
structure Search where
  queue : LFGQueue
  proposals : List LfgProposal

namespace Search

variable (m : Manager) (s : Search)

def setCompatibles (check : List ObjectGuid) (compatibles : LfgCompatibility) : Search :=
  { s with queue := s.queue.setCompatibles (concatenateGuids check) compatibles }

/-- The guids of a proposal leave the lists, and it is handed to the manager. -/
def propose (proposal : LfgProposal) : Search where
  queue := proposal.queues.foldl
    (fun q guid => (q.removeFromNewQueue guid).removeFromCurrentQueue guid) s.queue
  proposals := s.proposals ++ [proposal]

/-- `CheckCompatibility`, from where the rest of the guids is compatible. -/
def checkThese (check : List ObjectGuid) : LfgCompatibility × Search :=
  match s.queue.verdict m check with
  | .notQueued guid => (.pending, { s with queue := s.queue.removeFromQueue guid })
  | .cached compatibles => (compatibles, s.setCompatibles check compatibles)
  | .formed proposal => (.isMatch, (s.propose proposal).setCompatibles check .isMatch)

/-- `CheckCompatibility` -/
def checkCompatibility : List ObjectGuid → Search → LfgCompatibility × Search
  | [], s => (.wrongGroupSize, s)
  | front :: rest, s =>
    if maxGroupSize < (front :: rest).length then (.wrongGroupSize, s)
    else if 2 < (front :: rest).length then
      let child := checkCompatibility rest s
      if ¬ child.1.isCompatible then (child.1, child.2.setCompatibles (front :: rest) child.1)
      else child.2.checkThese m (front :: rest)
    else s.checkThese m (front :: rest)

/-- What `FindNewGroups` finds for the guids it has, cached or not. -/
def compatibilityOf (check : List ObjectGuid) : LfgCompatibility × Search :=
  let cached := s.queue.getCompatibles (concatenateGuids check)
  let found := if cached = .pending then checkCompatibility m check s else (cached, s)
  if found.1 = .badStates ∧ m.allQueued check then (.isMatch, found.2.setCompatibles check .isMatch)
  else found

/-- What is left of `all`: guids are taken from the front. -/
abbrev Rest (all : List ObjectGuid) : Type := { rest : List ObjectGuid // rest <:+ all }

mutual

/-- `FindNewGroups`, with what is left of `all`. -/
def findNewGroups (check all : List ObjectGuid) (s : Search) :
    LfgCompatibility × Rest all × Search :=
  let found := s.compatibilityOf m check
  if found.1 ≠ .withLessPlayers then (found.1, ⟨all, List.suffix_rfl⟩, found.2)
  else matchQueued check all found.2
termination_by (all.length, 1)

/-- The loop of `FindNewGroups` over the groups that are queued. -/
def matchQueued (check : List ObjectGuid) : (all : List ObjectGuid) → Search →
    LfgCompatibility × Rest all × Search
  | [], s => (.withLessPlayers, ⟨[], List.suffix_rfl⟩, s)
  | guid :: all, s =>
    let sub := findNewGroups (check ++ [guid]) all s
    if sub.1 = .isMatch then (.isMatch, ⟨sub.2.1.1, sub.2.1.2.trans (List.suffix_cons guid all)⟩, sub.2.2)
    else
      have hrest := sub.2.1.2
      let next := matchQueued check sub.2.1.1 sub.2.2
      (next.1, ⟨next.2.1.1, (next.2.1.2.trans hrest).trans (List.suffix_cons guid all)⟩, next.2.2)
termination_by all => (all.length, 0)
decreasing_by
  · exact Prod.Lex.left _ _ (Nat.lt_succ_self _)
  · exact Prod.Lex.left _ _ (Nat.lt_succ_of_le hrest.length_le)

end

/-- One turn of the loop of `FindGroups`, with the number it returns. -/
def findTurn (frontguid : ObjectGuid) (x : Search × ℕ) : Search × ℕ :=
  let s := { x.1 with queue := x.1.queue.removeFromNewQueue frontguid }
  let found := findNewGroups m [frontguid] s.queue.currentQueueStore s
  if found.1 = .isMatch then (found.2.2, (x.2 + 1) % 2 ^ 8)
  else ({ found.2.2 with queue := found.2.2.queue.addToCurrentQueue frontguid }, x.2)

/-- The loop, of at most `n` turns. -/
def findGroupsLoop : ℕ → Search × ℕ → Search × ℕ
  | 0, x => x
  | n + 1, x =>
    match x.1.queue.newToQueueStore with
    | [] => x
    | frontguid :: _ => findGroupsLoop n (findTurn m frontguid x)

end Search

/-- `FindGroups` -/
def LFGQueue.findGroups (m : Manager) (q : LFGQueue) : Search × ℕ :=
  Search.findGroupsLoop m q.newToQueueStore.length (⟨q, []⟩, 0)

end HungerGames.Lfg
