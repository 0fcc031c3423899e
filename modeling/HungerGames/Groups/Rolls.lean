/-
# Loot rolls of a group

For each item over the threshold `GroupLoot` or `NeedBeforeGreed` starts a roll, with a vote for
each member who is near and may have the item.  Votes come from the players, or the timer of the
loot ends its rolls.  A roll that ends goes to the best random number among those who need the
item, else among those who are greedy.

Of a group there are the members and the rolls; a roll keeps what the votes need.  The packets, and
how the item gets to the winner, are left out.  The loot of a roll lasts as long as the roll.
-/
import HungerGames.System.SortedMap
import HungerGames.System.FirstMatch
import Mathlib.Order.Nat
import Mathlib.Algebra.Group.Nat.Defs

namespace HungerGames.Groups

open HungerGames.System

/-! ## 1. Rolls -/

abbrev ObjectGuid := ℕ

inductive RollVote where
  | pass
  | need
  | greed
  | disenchant
  | notEmitedYet
  | notValid
deriving DecidableEq

/-- `ROLL_FLAG_TYPE_NEED` -/
def rollFlagTypeNeed : ℕ := 0x02

/-- `ROLL_FLAG_TYPE_DISENCHANT` -/
def rollFlagTypeDisenchant : ℕ := 0x08

/-- `ROLL_ALL_TYPE_NO_DISENCHANT` -/
def rollAllTypeNoDisenchant : ℕ := 0x07

/-- `MAX_ROLL_TYPE` -/
def maxRollType : ℕ := 4

/-- The vote of a roll type: `ROLL_PASS`, `ROLL_NEED`, `ROLL_GREED`, `ROLL_DISENCHANT`. -/
def voteOf : ℕ → Option RollVote
  | 0 => some .pass
  | 1 => some .need
  | 2 => some .greed
  | 3 => some .disenchant
  | _ => none

/-- The numbers are bytes.  `itemsEmpty` is that the loot has quest items only. -/
structure Roll where
  itemGUID : ObjectGuid
  loot : ℕ
  itemsEmpty : Bool
  itemSlot : ℕ
  playerVote : SortedMap ObjectGuid RollVote
  totalPlayersRolling : ℕ
  totalNeed : ℕ
  totalGreed : ℕ
  totalPass : ℕ
  rollVoteMask : ℕ

/-- One more of a byte. -/
def inc (n : ℕ) : ℕ := (n + 1) % 2 ^ 8

/-- One less of a byte. -/
def dec (n : ℕ) : ℕ := (n + (2 ^ 8 - 1)) % 2 ^ 8

namespace Roll

/-- A player may vote; one who passes on group loot has passed. -/
def enter (player : ObjectGuid) (passes : Bool) (r : Roll) : Roll :=
  { r with
    totalPlayersRolling := inc r.totalPlayersRolling
    playerVote := r.playerVote.insert player (if passes then .pass else .notEmitedYet)
    totalPass := if passes then inc r.totalPass else r.totalPass }

/-- The vote of a player is counted, whatever it was. -/
def vote (player : ObjectGuid) (choice : ℕ) (r : Roll) : Roll :=
  match voteOf choice with
  | some .pass =>
    { r with totalPass := inc r.totalPass, playerVote := r.playerVote.insert player .pass }
  | some .need =>
    { r with totalNeed := inc r.totalNeed, playerVote := r.playerVote.insert player .need }
  | some .greed =>
    { r with totalGreed := inc r.totalGreed, playerVote := r.playerVote.insert player .greed }
  | some .disenchant =>
    { r with totalGreed := inc r.totalGreed, playerVote := r.playerVote.insert player .disenchant }
  | _ => r

/-- A player leaves the roll with his vote. -/
def leave (player : ObjectGuid) (vote : RollVote) (r : Roll) : Roll :=
  { r with
    totalGreed := if vote = .greed ∨ vote = .disenchant then dec r.totalGreed else r.totalGreed
    totalNeed := if vote = .need then dec r.totalNeed else r.totalNeed
    totalPass := if vote = .pass then dec r.totalPass else r.totalPass
    totalPlayersRolling :=
      if vote ≠ .notValid then dec r.totalPlayersRolling else r.totalPlayersRolling
    playerVote := r.playerVote.erase player }

/-- The best random number among the votes that count. -/
def best (counts : RollVote → Bool) (rand : ObjectGuid → ℕ) (votes : List (ObjectGuid × RollVote)) :
    Option (ObjectGuid × ℕ × RollVote) :=
  votes.head?.map fun first =>
    votes.foldl (fun best x =>
      if counts x.2 ∧ best.2.1 < rand x.1 then (x.1, rand x.1, x.2) else best)
      (first.1, 0, .notValid)

/-- Who wins, with the number and the vote; nobody when all pass. -/
def winner (rand : ObjectGuid → ℕ) (r : Roll) : Option (ObjectGuid × ℕ × RollVote) :=
  if 0 < r.totalNeed then best (· = .need) rand r.playerVote.entries
  else if 0 < r.totalGreed then
    best (fun vote => vote = .greed ∨ vote = .disenchant) rand r.playerVote.entries
  else none

end Roll

/-! ## 2. Groups -/

/-- `minimum` is how many members a removal has to exceed, else the group is disbanded.  New items
get the guids from `nextGuid` on. -/
structure Group where
  members : List ObjectGuid
  rolls : List Roll
  minimum : ℕ
  lootThreshold : ℕ
  maxEnchantingLevel : ℤ
  nextGuid : ObjectGuid
  distinct : members.Nodup
  size : members.length ≤ 40

/-- What becomes known of a roll. -/
inductive RollEvent where
  | started (itemGUID : ObjectGuid)
  | resolved (itemGUID : ObjectGuid) (winner : Option (ObjectGuid × ℕ × RollVote))

/-- The random numbers of the players for an item. -/
abbrev Dice := ObjectGuid → ObjectGuid → ℕ

structure ItemTemplate where
  quality : ℕ
  disenchantID : ℕ
  requiredDisenchantSkill : ℤ
  /-- `ITEM_FLAGS_EXTRA_NEED_ROLL_DISABLED` -/
  needRollDisabled : Bool

structure LootItem where
  freeforall : Bool
  followLootRules : Bool
  template : Option ItemTemplate
  allowedForPlayer : ObjectGuid → Bool

structure Loot where
  id : ℕ
  items : List LootItem
  questItems : List LootItem

/-- What is asked of the members: a session in the world, being near, and passing on loot. -/
structure Party where
  hasSession : ObjectGuid → Bool
  isNear : ObjectGuid → Bool
  passOnGroupLoot : ObjectGuid → Bool

namespace Group

variable (g : Group)

def getRoll (itemGUID : ObjectGuid) : Option Roll := g.rolls.find? fun r => r.itemGUID = itemGUID

def setRoll (itemGUID : ObjectGuid) (change : Roll → Roll) : Group :=
  { g with rolls := g.rolls.modify (g.rolls.findIdx fun r => r.itemGUID = itemGUID) change }

/-- Whether a member votes for an item. -/
def rollsFor (party : Party) (item : LootItem) (member : ObjectGuid) : Bool :=
  party.hasSession member ∧ item.allowedForPlayer member ∧ party.isNear member

/-- A roll is started for an item, if there is anyone to vote; only then `canPass` members who pass
on loot. -/
def startRoll (party : Party) (loot : Loot) (itemSlot : ℕ) (item : LootItem) (mask : ℕ)
    (canPass : Bool) : Group × List RollEvent :=
  let r := (g.members.filter (rollsFor party item)).foldl
    (fun r member => r.enter member (canPass ∧ party.passOnGroupLoot member))
    ⟨g.nextGuid, loot.id, loot.items = [], itemSlot, .empty, 0, 0, 0, 0, mask⟩
  if 0 < r.totalPlayersRolling then
    ({ g with rolls := g.rolls ++ [r], nextGuid := g.nextGuid + 1 }, [.started g.nextGuid])
  else ({ g with nextGuid := g.nextGuid + 1 }, [])

/-- Which votes a roll for an item allows. -/
def voteMask (needBeforeGreed : Bool) (item : ItemTemplate) : ℕ :=
  let mask := if item.disenchantID ≠ 0 ∧ item.requiredDisenchantSkill ≤ g.maxEnchantingLevel then
    rollAllTypeNoDisenchant ||| rollFlagTypeDisenchant else rollAllTypeNoDisenchant
  if needBeforeGreed ∧ item.needRollDisabled then mask &&& (0xFF ^^^ rollFlagTypeNeed) else mask

/-- An item of the loot: there is a roll when it is over the threshold. -/
def lootItem (needBeforeGreed : Bool) (party : Party) (loot : Loot) (itemSlot : ℕ)
    (item : LootItem) : Group × List RollEvent :=
  match item.template with
  | none => (g, [])
  | some template =>
    if ¬ item.freeforall ∧ g.lootThreshold ≤ template.quality then
      g.startRoll party loot itemSlot item (g.voteMask needBeforeGreed template) true
    else (g, [])

/-- A quest item follows the loot rules, or has no roll. -/
def questItem (party : Party) (loot : Loot) (itemSlot : ℕ) (item : LootItem) :
    Group × List RollEvent :=
  if item.followLootRules ∧ item.template.isSome then
    g.startRoll party loot itemSlot item rollAllTypeNoDisenchant false
  else (g, [])

/-- One operation for each element, with what becomes known. -/
def each {α : Type} (f : Group → α → Group × List RollEvent) : Group → List α →
    Group × List RollEvent
  | g, [] => (g, [])
  | g, x :: xs => ((each f (f g x).1 xs).1, (f g x).2 ++ (each f (f g x).1 xs).2)

/-- The rolls for all items of a loot. -/
def rollLoot (needBeforeGreed : Bool) (party : Party) (loot : Loot) : Group × List RollEvent :=
  each (fun g (x : Bool × LootItem × ℕ) =>
      if x.1 then g.questItem party loot x.2.2 x.2.1
      else g.lootItem needBeforeGreed party loot x.2.2 x.2.1) g
    (loot.items.zipIdx.map (Prod.mk false) ++
      (loot.questItems.zipIdx loot.items.length).map (Prod.mk true))

def groupLoot (party : Party) (loot : Loot) : Group × List RollEvent := g.rollLoot false party loot

/-- It does not check that an item has a template. -/
def needBeforeGreed (party : Party) (loot : Loot) : Group × List RollEvent :=
  g.rollLoot true party loot

/-- `CountTheRoll`, of the roll that is found. -/
def countTheRoll (dice : Dice) (found : Roll → Bool) (r : Roll) : Group × List RollEvent :=
  ({ g with rolls := g.rolls.eraseP found }, [.resolved r.itemGUID (r.winner (dice r.itemGUID))])

def countRollVote (dice : Dice) (player itemGUID : ObjectGuid) (choice : ℕ) :
    Group × List RollEvent :=
  match g.getRoll itemGUID with
  | none => (g, [])
  | some r =>
    match r.playerVote.lookup player with
    | none => (g, [])
    | some _ =>
      if r.itemsEmpty then (g, [])
      else
        let r := r.vote player choice
        let g := g.setRoll itemGUID fun _ => r
        if r.totalPlayersRolling ≤ r.totalPass + r.totalNeed + r.totalGreed then
          g.countTheRoll dice (fun r => r.itemGUID = itemGUID) r
        else (g, [])

/-- The loop of `EndRoll`, of at most `n` turns. -/
def endRollLoop (dice : Dice) (loot : ℕ) : ℕ → Group → Group × List RollEvent
  | 0, g => (g, [])
  | n + 1, g =>
    match g.rolls.find? fun r => r.loot = loot with
    | none => (g, [])
    | some r =>
      let counted := g.countTheRoll dice (fun r => r.loot = loot) r
      let rest := endRollLoop dice loot n counted.1
      (rest.1, counted.2 ++ rest.2)

def endRoll (dice : Dice) (loot : ℕ) : Group × List RollEvent :=
  endRollLoop dice loot g.rolls.length g

/-- A player who leaves the group leaves the roll. -/
def leaveRoll (dice : Dice) (player itemGUID : ObjectGuid) : Group × List RollEvent :=
  match (g.getRoll itemGUID).bind fun r => r.playerVote.lookup player with
  | none => (g, [])
  | some vote => (g.setRoll itemGUID (Roll.leave player vote)).countRollVote dice player itemGUID
      maxRollType

/-- `Disband`: the rolls are deleted. -/
def disband : Group :=
  { g with members := [], rolls := [], distinct := List.nodup_nil, size := Nat.zero_le _ }

/-- `tooSmall` is that the group is too small after it. -/
def removeMember (dice : Dice) (player : ObjectGuid) (tooSmall : Bool) : Group × List RollEvent :=
  if g.minimum < g.members.length then
    let left := each (fun g itemGUID => g.leaveRoll dice player itemGUID) g
      (g.rolls.map Roll.itemGUID)
    let g := { left.1 with
      members := left.1.members.filter (· ≠ player)
      distinct := left.1.distinct.filter _
      size := Nat.le_trans (List.length_filter_le _ _) left.1.size }
    (if tooSmall then g.disband else g, left.2)
  else (g.disband, [])

/-- A player joins a group that is not full. -/
def addMember (player : ObjectGuid) : Group :=
  if h : player ∉ g.members ∧ g.members.length < 40 then
    { g with
      members := g.members ++ [player]
      distinct := List.nodup_append.mpr ⟨g.distinct, List.nodup_singleton _, fun a ha b hb heq =>
        h.1 (List.mem_singleton.mp hb ▸ heq ▸ ha)⟩
      size := by rw [List.length_append]; exact h.2 }
  else g

end Group

/-! ## 3. Runs -/

inductive RollInput where
  | groupLoot (party : Party) (loot : Loot)
  | needBeforeGreed (party : Party) (loot : Loot)
  | lootRoll (dice : Dice) (player itemGUID : ObjectGuid) (rollType : ℕ)
  | endRoll (dice : Dice) (loot : ℕ)
  | removeMember (dice : Dice) (player : ObjectGuid) (tooSmall : Bool)
  | addMember (player : ObjectGuid)

namespace Group

def handle (g : Group) : RollInput → Group × List RollEvent
  | .groupLoot party loot => g.groupLoot party loot
  | .needBeforeGreed party loot => g.needBeforeGreed party loot
  | .lootRoll dice player itemGUID rollType =>
    if player ∈ g.members then g.countRollVote dice player itemGUID rollType else (g, [])
  | .endRoll dice loot => g.endRoll dice loot
  | .removeMember dice player tooSmall => g.removeMember dice player tooSmall
  | .addMember player => (g.addMember player, [])

def step (g : Group) (i : RollInput) : Group := (g.handle i).1

def events (g : Group) (i : RollInput) : List RollEvent := (g.handle i).2

end Group

end HungerGames.Groups
