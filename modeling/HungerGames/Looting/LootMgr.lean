/-
# Loot

Loot has items, and quest items.  When it is filled for a player three lists are made for him: of
the quest items he may take, of the items that are free for all, and of those with a condition.
What is taken is noted in the item, and in the list by which it was taken; a number counts what is
left.  Items are taken by players, given by the master looter, or won by a roll.

The data of an item that only its owner needs are left out, and so is the notice to those who look
at the loot.  A player is what is asked of him, at the time of an operation.  `delivered` is not in
the source: it says what was handed out, and to whom.
-/
import Mathlib.Algebra.GroupWithZero.Nat
import HungerGames.System.Run
import HungerGames.System.SortedMap

namespace HungerGames.Looting

open HungerGames.System

/-! ## 1. Items and players -/

inductive Team where
  | alliance
  | horde
deriving DecidableEq

structure ItemTemplate where
  maxStackSize : ℕ
  quality : ℕ
  /-- `ITEM_PROTO_FLAG_PARTY_LOOT` -/
  partyLoot : Bool
  /-- `ITEM_PROTO_FLAG_SMART_LOOT` -/
  smartLoot : Bool
  requiredSkill : ℕ
  spellId : ℕ
  /-- `ITEM_FLAGS_EXTRA_HORDE_ONLY` -/
  hordeOnly : Bool
  /-- `ITEM_FLAGS_EXTRA_ALLIANCE_ONLY` -/
  allianceOnly : Bool
  /-- `ITEM_FLAGS_CU_IGNORE_QUEST_STATUS` -/
  ignoreQuestStatus : Bool
  startQuest : ℕ
  /-- `ITEM_FLAGS_CU_FOLLOW_LOOT_RULES` -/
  followLootRules : Bool
  isCurrencyToken : Bool

inductive LootMethod where
  | freeForAll
  | roundRobin
  | masterLoot
  | groupLoot
  | needBeforeGreed
deriving DecidableEq

structure Group where
  lootMethod : LootMethod
  masterLooterGuid : ℕ
  lootThreshold : ℕ

/-- A player is asked whether he meets conditions, which are numbers here, and whether he can store
so many of an item. -/
structure Player where
  guid : ℕ
  group : Option Group
  team : Team
  hasSkill : ℕ → Bool
  hasSpell : ℕ → Bool
  /-- `GetQuestStatus` is not `QUEST_STATUS_NONE`. -/
  hasQuestStatus : ℕ → Bool
  hasQuestForItem : ℕ → Bool
  meetsConditions : List ℕ → Bool
  canStoreNewItem : ℕ → ℕ → Bool

structure LootStoreItem where
  itemid : ℕ
  needsQuest : Bool
  conditions : List ℕ

structure LootItem where
  itemid : ℕ
  conditions : List ℕ
  count : ℕ
  isLooted : Bool
  isBlocked : Bool
  freeforall : Bool
  isUnderthreshold : Bool
  isCounted : Bool
  needsQuest : Bool
  followLootRules : Bool

/-- An entry of the list of a player. -/
structure QuestItem where
  index : ℕ
  isLooted : Bool
deriving DecidableEq

/-- Where an item is. -/
inductive Place where
  | item (index : ℕ)
  | quest (index : ℕ)
deriving DecidableEq

/-- `MAX_NR_LOOT_ITEMS` -/
def maxNrLootItems : ℕ := 16

/-- `MAX_NR_QUEST_ITEMS` -/
def maxNrQuestItems : ℕ := 32

/-- The template of an item, by its id. -/
abbrev Templates := ℕ → Option ItemTemplate

variable (T : Templates)

namespace LootItem

def ofStoreItem (li : LootStoreItem) : LootItem where
  itemid := li.itemid
  conditions := li.conditions
  count := 0
  isLooted := false
  isBlocked := false
  freeforall := (T li.itemid).any ItemTemplate.partyLoot
  isUnderthreshold := false
  isCounted := false
  needsQuest := li.needsQuest
  followLootRules := (T li.itemid).any ItemTemplate.followLootRules

def allowedForPlayer (item : LootItem) (player : Player) : Bool :=
  (item.conditions = [] ∨ player.meetsConditions item.conditions) ∧
    (T item.itemid).any fun proto =>
      ¬ (proto.smartLoot ∧
        (player.hasSkill proto.requiredSkill = false ∨ player.hasSpell proto.spellId)) ∧
      ¬ (proto.hordeOnly ∧ player.team ≠ .horde) ∧
      ¬ (proto.allianceOnly ∧ player.team ≠ .alliance) ∧
      ¬ (proto.ignoreQuestStatus = false ∧
        (item.needsQuest ∨ (proto.startQuest ≠ 0 ∧ player.hasQuestStatus proto.startQuest)) ∧
        player.hasQuestForItem item.itemid = false)

/-- A player in a group may see an item that follows the loot rules: with a master looter, he. -/
def followsLootRulesFor (item : LootItem) (player : Player) : Bool :=
  item.followLootRules ∧ player.group.any fun group =>
    (group.lootMethod = .masterLoot ∧ group.masterLooterGuid = player.guid) ∨
      group.lootMethod ≠ .masterLoot

end LootItem

/-! ## 2. Loot -/

abbrev QuestItemMap := SortedMap ℕ (List QuestItem)

/-- `unlootedCount` is a byte. -/
structure Loot where
  items : List LootItem
  questItems : List LootItem
  gold : ℕ
  unlootedCount : ℕ
  playerQuestItems : QuestItemMap
  playerFFAItems : QuestItemMap
  playerNonQuestNonFFAConditionalItems : QuestItemMap
  delivered : List (Place × ℕ)

namespace Loot

variable (loot : Loot)

def start (gold : ℕ) : Loot := ⟨[], [], gold, 0, .empty, .empty, .empty, []⟩

def isLooted : Bool := loot.gold = 0 ∧ loot.unlootedCount = 0

/-- The item at a place. -/
def itemAt : Place → Option LootItem
  | .item index => loot.items[index]?
  | .quest index => loot.questItems[index]?

/-- An item changes. -/
def modifyAt (place : Place) (f : LootItem → LootItem) : Loot :=
  match place with
  | .item index => { loot with items := loot.items.modify index f }
  | .quest index => { loot with questItems := loot.questItems.modify index f }

/-- So many more are left, in a byte. -/
def countMore (n : ℕ) : Loot := { loot with unlootedCount := (loot.unlootedCount + n) % 2 ^ 8 }

/-- One less is left, in a byte. -/
def countLess : Loot :=
  { loot with unlootedCount := (loot.unlootedCount + (2 ^ 8 - 1)) % 2 ^ 8 }

/-! ## 3. Filling -/

/-- The loop of `AddItem`, of so many stacks. -/
def addStacks (li : LootStoreItem) (proto : ItemTemplate) : ℕ → ℕ → Loot → Loot
  | 0, _, loot => loot
  | turns + 1, count, loot =>
    let generatedLoot := { LootItem.ofStoreItem T li with count := min count proto.maxStackSize }
    if (if li.needsQuest then loot.questItems.length < maxNrQuestItems
      else loot.items.length < maxNrLootItems) then
      let loot := if li.needsQuest then
          { loot with questItems := loot.questItems ++ [generatedLoot] }
        else { loot with items := loot.items ++ [generatedLoot] }
      let loot := if li.needsQuest = false ∧ li.conditions = [] ∧ proto.partyLoot = false then
        loot.countMore 1 else loot
      addStacks li proto turns (count - proto.maxStackSize) loot
    else loot

def addItem (li : LootStoreItem) (count : ℕ) : Loot :=
  match T li.itemid with
  | none => loot
  | some proto =>
    addStacks T li proto (count / proto.maxStackSize +
      if count % proto.maxStackSize ≠ 0 then 1 else 0) count loot

/-- The places in a list that are as asked. -/
def indexesOf (items : List LootItem) (asked : LootItem → Bool) : List ℕ :=
  (items.zipIdx.filter fun x => asked x.1).map Prod.snd

/-- A list of a player who has none; an empty list is not kept. -/
def newList (lists : QuestItemMap) (player : Player) (indexes : List ℕ) : QuestItemMap :=
  if indexes = [] then lists
  else lists.insert player.guid (indexes.map fun index => ⟨index, false⟩)

def fillFFALoot (player : Player) : Loot :=
  let indexes := indexesOf loot.items fun item =>
    item.isLooted = false ∧ item.freeforall ∧ item.allowedForPlayer T player
  if (loot.playerFFAItems.lookup player.guid).isSome then loot
  else { loot.countMore indexes.length with
    playerFFAItems := newList loot.playerFFAItems player indexes }

/-- Which quest items get on the list of a player: there is room for so many. -/
def questIndexes (player : Player) : List ℕ :=
  (indexesOf loot.questItems fun item => item.isLooted = false ∧
    (item.allowedForPlayer T player ∨ item.followsLootRulesFor player)).take
      (maxNrLootItems - loot.items.length)

/-- Whether a quest item is blocked when it is on the list of a player. -/
def blocksQuestItems (player : Player) : Bool :=
  player.group.all fun group => group.lootMethod ≠ .groupLoot ∧ group.lootMethod ≠ .roundRobin

/-- Quest items are counted unless they are blocked. -/
def countsAsQuestItem (item : LootItem) : Bool := item.freeforall ∨ item.isBlocked = false

def fillQuestLoot (player : Player) : Loot :=
  let indexes := loot.questIndexes T player
  if (loot.playerQuestItems.lookup player.guid).isSome then loot
  else { loot.countMore
      (indexes.countP fun index => (loot.questItems[index]?).any countsAsQuestItem) with
    playerQuestItems := newList loot.playerQuestItems player indexes
    questItems := loot.questItems.mapIdx fun index item =>
      if index ∈ indexes ∧ blocksQuestItems player then { item with isBlocked := true } else item }

/-- Which items with a condition get on the list of a player. -/
def hasConditionFor (player : Player) (item : LootItem) : Bool :=
  item.isLooted = false ∧ item.freeforall = false ∧
    (item.allowedForPlayer T player ∨ item.followsLootRulesFor player) ∧ item.conditions ≠ []

def fillNonQuestNonFFAConditionalLoot (player : Player) : Loot :=
  if (loot.playerNonQuestNonFFAConditionalItems.lookup player.guid).isSome then loot
  else { loot.countMore
      (loot.items.countP fun item => hasConditionFor T player item ∧ item.isCounted = false) with
    playerNonQuestNonFFAConditionalItems := newList loot.playerNonQuestNonFFAConditionalItems player
      (indexesOf loot.items (hasConditionFor T player))
    items := loot.items.map fun item =>
      if hasConditionFor T player item then { item with isCounted := true } else item }

/-! ## 4. Taking -/

/-- What is in a slot, for a player: the place, and the entries by which it would be taken. -/
structure Slot where
  place : Place
  qitem : Option ℕ
  ffaitem : Option ℕ
  conditem : Option ℕ

/-- The entry for an index in the list of a player. -/
def entryFor (lists : QuestItemMap) (guid index : ℕ) : Option ℕ :=
  (lists.lookup guid).bind fun list => list.findIdx? fun entry => entry.index = index

/-- Whether an entry is looted. -/
def entryLooted (lists : QuestItemMap) (guid entry : ℕ) : Bool :=
  (lists.lookup guid).any fun list => (list[entry]?).any QuestItem.isLooted

/-- An item that is on a list is looted when its entry is, else when the item is. -/
def lootItemInSlot (lootSlot guid : ℕ) : Option Slot :=
  match loot.items[lootSlot]? with
  | none =>
    let questSlot := lootSlot - loot.items.length
    (((loot.playerQuestItems.lookup guid).getD [])[questSlot]?).bind fun entry =>
      if entry.isLooted then none else some ⟨.quest entry.index, some questSlot, none, none⟩
  | some item =>
    if item.freeforall then
      match entryFor loot.playerFFAItems guid lootSlot with
      | none => if item.isLooted then none else some ⟨.item lootSlot, none, none, none⟩
      | some entry =>
        if entryLooted loot.playerFFAItems guid entry then none
        else some ⟨.item lootSlot, none, some entry, none⟩
    else if item.conditions ≠ [] then
      match entryFor loot.playerNonQuestNonFFAConditionalItems guid lootSlot with
      | none => if item.isLooted then none else some ⟨.item lootSlot, none, none, none⟩
      | some entry =>
        if entryLooted loot.playerNonQuestNonFFAConditionalItems guid entry then none
        else some ⟨.item lootSlot, none, none, some entry⟩
    else if item.isLooted then none else some ⟨.item lootSlot, none, none, none⟩

/-- An entry of the list of a player is looted. -/
def lootEntry (lists : QuestItemMap) (guid : ℕ) : Option ℕ → QuestItemMap
  | none => lists
  | some entry =>
    match lists.lookup guid with
    | none => lists
    | some list =>
      lists.insert guid (list.modify entry fun entry => { entry with isLooted := true })

/-- An item is handed to a player.  Of none nothing is created. -/
def deliver (place : Place) (item : LootItem) (guid : ℕ) : Loot :=
  if item.count = 0 then loot else { loot with delivered := (place, guid) :: loot.delivered }

/-- The marks of `StoreLootItem`: it is the entry that is looted, and the item unless it is free for
all. -/
def lootSlotEntries (slot : Slot) (guid : ℕ) : Loot :=
  { loot with
    playerQuestItems := lootEntry loot.playerQuestItems guid slot.qitem
    playerFFAItems := lootEntry loot.playerFFAItems guid slot.ffaitem
    playerNonQuestNonFFAConditionalItems :=
      lootEntry loot.playerNonQuestNonFFAConditionalItems guid slot.conditem }

/-- Whether `StoreLootItem` gets as far as to store the item. -/
def mayStore (player : Player) (slot : Slot) (item : LootItem) : Bool :=
  item.allowedForPlayer T player ∧ (slot.qitem.isSome ∨ item.isBlocked = false) ∧
    player.canStoreNewItem item.itemid item.count

/-- `Player::StoreLootItem` -/
def storeLootItem (player : Player) (lootSlot : ℕ) : Loot :=
  match loot.lootItemInSlot lootSlot player.guid with
  | none => loot
  | some slot =>
    match loot.itemAt slot.place with
    | none => loot
    | some item =>
      if mayStore T player slot item then
        let loot := (loot.deliver slot.place item player.guid).lootSlotEntries slot player.guid
        let loot := if item.freeforall = false then
          loot.modifyAt slot.place fun item => { item with isLooted := true } else loot
        loot.countLess
      else loot

def getMaxSlotInLootFor (guid : ℕ) : ℕ :=
  loot.items.length + ((loot.playerQuestItems.lookup guid).getD []).length

/-- The place that a slot has for all players. -/
def placeOf (slot : ℕ) : Place :=
  if slot < loot.items.length then .item slot else .quest (slot - loot.items.length)

/-- A turn of the loop for currency in `FillNotNormalLootFor`. -/
def storeCurrency (player : Player) (slot : ℕ) : Loot :=
  if (loot.itemAt (loot.placeOf slot)).any fun item =>
      item.isLooted = false ∧ item.freeforall ∧ item.allowedForPlayer T player ∧
        (T item.itemid).any ItemTemplate.isCurrencyToken then
    loot.storeLootItem T player slot
  else loot

/-- Whether the master looter may give an item to a player.  `together` is that both are in the same
raid, and in the same map. -/
def mayGive (master target : Player) (together : Bool) (item : LootItem) : Bool :=
  (master.group.any fun group =>
      group.masterLooterGuid = master.guid ∧ group.lootMethod = .masterLoot) ∧
    together ∧ target.canStoreNewItem item.itemid item.count ∧
    ¬ (item.followLootRules ∧ item.allowedForPlayer T target = false)

/-- `HandleLootMasterGiveOpcode`, where the target is found and it is this loot. -/
def lootMasterGive (master target : Player) (together : Bool) (slot : ℕ) : Loot :=
  match loot.itemAt (loot.placeOf slot) with
  | none => loot
  | some item =>
    if mayGive T master target together item then
      ((loot.deliver (loot.placeOf slot) item target.guid).modifyAt (loot.placeOf slot) fun item =>
        { item with count := 0, isLooted := true }).countLess
    else loot

/-- How a roll ends. -/
inductive RollResult where
  | allPassed
  | won (player : Player)
  | disenchanted (player : Player)
  /-- The winner is not found. -/
  | lost

/-- `CountTheRoll`: what it does to the loot. -/
def countTheRoll (itemSlot : ℕ) (result : RollResult) : Loot :=
  let place := loot.placeOf itemSlot
  match loot.itemAt place with
  | none => loot
  | some item =>
    match result with
    | .allPassed => loot.modifyAt place fun item => { item with isBlocked := false }
    | .won player =>
      if player.canStoreNewItem item.itemid item.count then
        ((loot.deliver place item player.guid).modifyAt place fun item =>
          { item with isLooted := true }).countLess
      else loot.modifyAt place fun item => { item with isBlocked := false }
    | .disenchanted player =>
      -- what it is made into is handed out, even of none
      ({ loot with delivered := (place, player.guid) :: loot.delivered }.modifyAt place fun item =>
        { item with isLooted := true }).countLess
    | .lost => loot

/-! ### What is blocked -/

/-- `GroupLoot` and `NeedBeforeGreed`: `rolls` is that there is a player who may roll for it. -/
def groupLoot (threshold : ℕ) (rolls : Place → Bool) : Loot :=
  { loot with
    items := loot.items.mapIdx fun index item =>
      match T item.itemid with
      | none => item
      | some proto =>
        if item.freeforall then item
        else if threshold ≤ proto.quality then
          { item with isBlocked := item.isBlocked || rolls (.item index) }
        else { item with isUnderthreshold := true }
    questItems := loot.questItems.mapIdx fun index item =>
      if item.followLootRules ∧ (T item.itemid).isSome then
        { item with isBlocked := item.isBlocked || rolls (.quest index) }
      else item }

/-- `MasterLoot` -/
def masterLoot : Loot :=
  { loot with
    items := loot.items.map fun item =>
      if item.freeforall then item else { item with isBlocked := !item.isUnderthreshold }
    questItems := loot.questItems.map fun item =>
      if item.followLootRules then { item with isBlocked := !item.isUnderthreshold } else item }

/-- The last loop of `FillLoot`. -/
def markUnderthreshold (threshold : ℕ) : Loot :=
  { loot with
    items := loot.items.map fun item =>
      if (T item.itemid).any fun proto => proto.quality < threshold then
        { item with isUnderthreshold := true }
      else item }

end Loot

/-! ## 5. Operations -/

/-- What filling is made of. -/
inductive FillOp where
  | addItem (li : LootStoreItem) (count : ℕ)
  | fillQuestLoot (player : Player)
  | fillFFALoot (player : Player)
  | fillNonQuestNonFFAConditionalLoot (player : Player)
  | storeCurrency (player : Player) (slot : ℕ)
  | markUnderthreshold (threshold : ℕ)

inductive LootOp where
  | storeLootItem (player : Player) (lootSlot : ℕ)
  | lootMasterGive (master target : Player) (together : Bool) (slot : ℕ)
  | countTheRoll (itemSlot : ℕ) (result : Loot.RollResult)
  | groupLoot (threshold : ℕ) (rolls : Place → Bool)
  | masterLoot
  | lootMoney

namespace Loot

def fill (loot : Loot) : FillOp → Loot
  | .addItem li count => loot.addItem T li count
  | .fillQuestLoot player => loot.fillQuestLoot T player
  | .fillFFALoot player => loot.fillFFALoot T player
  | .fillNonQuestNonFFAConditionalLoot player => loot.fillNonQuestNonFFAConditionalLoot T player
  | .storeCurrency player slot => loot.storeCurrency T player slot
  | .markUnderthreshold threshold => loot.markUnderthreshold T threshold

def handle (loot : Loot) : LootOp → Loot
  | .storeLootItem player lootSlot => loot.storeLootItem T player lootSlot
  | .lootMasterGive master target together slot =>
    loot.lootMasterGive T master target together slot
  | .countTheRoll itemSlot result => loot.countTheRoll itemSlot result
  | .groupLoot threshold rolls => loot.groupLoot T threshold rolls
  | .masterLoot => loot.masterLoot
  | .lootMoney => { loot with gold := 0 }

/-- The operations of `FillNotNormalLootFor`: the lists, then the currency for who is there. -/
def fillNotNormalLootFor (loot : Loot) (player : Player) (presentAtLooting : Bool) : List FillOp :=
  let lists := [FillOp.fillQuestLoot player, .fillFFALoot player,
    .fillNonQuestNonFFAConditionalLoot player]
  lists ++ if presentAtLooting then
    (List.range ((exec (fill T) loot lists).getMaxSlotInLootFor player.guid)).map
      (.storeCurrency player)
  else []

/-- Those for the members of a group, one after the other. -/
def fillForMembers : Loot → List (Player × Bool) → List FillOp
  | _, [] => []
  | loot, (player, presentAtLooting) :: members =>
    let ops := loot.fillNotNormalLootFor T player presentAtLooting
    ops ++ fillForMembers (exec (fill T) loot ops) members

/-- **The operations of `FillLoot`**: what is generated, then the lists, of all members of the group
of the owner unless the loot is his own. -/
def fillLoot (loot : Loot) (generated : List (LootStoreItem × ℕ)) (lootOwner : Player)
    (personal : Bool) (members : List (Player × Bool)) : List FillOp :=
  let adds := generated.map fun x => FillOp.addItem x.1 x.2
  let loot := exec (fill T) loot adds
  adds ++ match lootOwner.group with
    | none => loot.fillNotNormalLootFor T lootOwner true
    | some group =>
      if personal then loot.fillNotNormalLootFor T lootOwner true
      else fillForMembers T loot members ++ [.markUnderthreshold group.lootThreshold]

end Loot

end HungerGames.Looting
