/-
# The loot of a container, and the database

An item that can be opened has loot of its own.  It is generated when the item is first opened, and
saved at once, the gold in one table and the items in another; what is taken is deleted from there.
When the item is loaded anew, with the character of its owner, it is read from there, and it is
generated again only when nothing was read.

`Item::loot` is a `Loot` with the fields that this needs; forgetting them gives the loot of the
module on loot, and filling is what it is there.  The players who may loot an item (`allowedGUIDs`)
are left out: nothing here asks for them.  The statements are executed in the order in which they
are given.
-/
import HungerGames.System.FirstMatch
import HungerGames.Looting.LootMgr

namespace HungerGames.ContainerLoot

open HungerGames.System
open HungerGames.Looting (LootStoreItem QuestItem QuestItemMap Place Player Templates
  maxNrLootItems)

/-! ## 1. The tables -/

/-- The columns of `item_loot_items` besides the container. -/
structure Content where
  itemid : ℕ
  count : ℕ
  followLootRules : Bool
  freeforall : Bool
  isBlocked : Bool
  isCounted : Bool
  isUnderthreshold : Bool
  needsQuest : Bool
  randomPropertyId : ℤ
  randomSuffix : ℕ
deriving DecidableEq

/-- `item_loot_items` and `item_loot_money`: each row has the container first. -/
structure Database where
  items : List (ℕ × Content)
  money : List (ℕ × ℕ)

namespace Database

variable (db : Database) (container : ℕ)

/-- `CHAR_SEL_ITEMCONTAINER_ITEMS` -/
def selItems : List Content :=
  (db.items.filter fun row => row.1 = container).map Prod.snd

/-- `CHAR_DEL_ITEMCONTAINER_ITEMS` -/
def delItems : Database :=
  { db with items := db.items.filter fun row => row.1 ≠ container }

/-- `CHAR_DEL_ITEMCONTAINER_ITEM` -/
def delItem (itemID : ℕ) : Database :=
  { db with items := db.items.filter fun row => ¬ (row.1 = container ∧ row.2.itemid = itemID) }

/-- `CHAR_INS_ITEMCONTAINER_ITEMS`, one after the other. -/
def insItems (rows : List Content) : Database :=
  { db with items := db.items ++ rows.map (Prod.mk container) }

/-- `CHAR_SEL_ITEMCONTAINER_MONEY` -/
def selMoney : List ℕ :=
  (db.money.filter fun row => row.1 = container).map Prod.snd

/-- `CHAR_DEL_ITEMCONTAINER_MONEY` -/
def delMoney : Database :=
  { db with money := db.money.filter fun row => row.1 ≠ container }

/-- `CHAR_INS_ITEMCONTAINER_MONEY` -/
def insMoney (gold : ℕ) : Database := { db with money := db.money ++ [(container, gold)] }

end Database

/-! ## 2. The loot of an item -/

/-- `his` and `taken` are not in the source: that the owner of the container may have the item, as
his loot was generated, and that it was stored. -/
structure LootItem extends Looting.LootItem where
  randomPropertyId : ℤ
  randomSuffix : ℕ
  canSave : Bool
  his : Bool
  taken : Bool

/-- What is saved of an item. -/
def LootItem.content (item : LootItem) : Content where
  itemid := item.itemid
  count := item.count
  followLootRules := item.followLootRules
  freeforall := item.freeforall
  isBlocked := item.isBlocked
  isCounted := item.isCounted
  isUnderthreshold := item.isUnderthreshold
  needsQuest := item.needsQuest
  randomPropertyId := item.randomPropertyId
  randomSuffix := item.randomSuffix

/-- `saved` and `deleted` are not in the source: that the loot was saved or loaded, and the ids of
the items that were deleted from the database since. -/
structure Loot where
  items : List LootItem
  questItems : List LootItem
  gold : ℕ
  unlootedCount : ℕ
  playerQuestItems : QuestItemMap
  playerFFAItems : QuestItemMap
  playerNonQuestNonFFAConditionalItems : QuestItemMap
  containerID : ℕ
  saved : Bool
  deleted : List ℕ

namespace Loot

variable (loot : Loot)

/-- The loot without what only a container needs, and without the record of what was handed out. -/
def toLoot : Looting.Loot where
  items := loot.items.map LootItem.toLootItem
  questItems := loot.questItems.map LootItem.toLootItem
  gold := loot.gold
  unlootedCount := loot.unlootedCount
  playerQuestItems := loot.playerQuestItems
  playerFFAItems := loot.playerFFAItems
  playerNonQuestNonFFAConditionalItems := loot.playerNonQuestNonFFAConditionalItems
  delivered := []

def isLooted : Bool := loot.gold = 0 ∧ loot.unlootedCount = 0

/-- The item at a place. -/
def itemAt : Place → Option LootItem
  | .item index => loot.items[index]?
  | .quest index => loot.questItems[index]?

/-- An item changes. -/
def modifyAt (place : Place) (f : LootItem → LootItem) : Loot :=
  match place with
  | .item index => { loot with items := loot.items.modify index f }
  | .quest index => { loot with questItems := loot.questItems.modify index f }

/-- One less is left, in a byte. -/
def countLess : Loot :=
  { loot with unlootedCount := (loot.unlootedCount + (2 ^ 8 - 1)) % 2 ^ 8 }

/-- The marks of `StoreLootItem` in the lists of a player. -/
def lootSlotEntries (slot : Looting.Loot.Slot) (guid : ℕ) : Loot :=
  { loot with
    playerQuestItems := Looting.Loot.lootEntry loot.playerQuestItems guid slot.qitem
    playerFFAItems := Looting.Loot.lootEntry loot.playerFFAItems guid slot.ffaitem
    playerNonQuestNonFFAConditionalItems :=
      Looting.Loot.lootEntry loot.playerNonQuestNonFFAConditionalItems guid slot.conditem }

/-- The mark of `StoreLootItem` in an item that is not free for all. -/
def markLooted (item : LootItem) : LootItem := { item with isLooted := true }

/-- An item is stored. -/
def markTaken (item : LootItem) : LootItem := { item with taken := true }

/-- What `StoreLootItem` does in the loot. -/
def markStored (slot : Looting.Loot.Slot) (guid : ℕ) (freeforall : Bool) : Loot :=
  let loot := (loot.lootSlotEntries slot guid).modifyAt slot.place markTaken
  let loot := if freeforall = false then loot.modifyAt slot.place markLooted else loot
  loot.countLess

end Loot

/-- The loot of the container that is open, and the database. -/
structure World where
  loot : Loot
  db : Database

/-- An item that can be opened: its guid is counted from 1, and a template of its entry, if there
is one, has so many entries besides its groups. -/
structure Container where
  guid : ℕ
  guid_pos : 0 < guid
  template : Option (List LootStoreItem)

/-! ## 3. Taking -/

namespace World

variable (T : Templates) (w : World)

/-- `Loot::DeleteLootItemFromContainerItemDB`: the first item of the id is marked, to be saved. -/
def deleteLootItemFromContainerItemDB (itemID : ℕ) : World where
  db := w.db.delItem w.loot.containerID itemID
  loot := { w.loot with
    items := w.loot.items.modify (w.loot.items.findIdx fun item => item.itemid = itemID)
      fun item => { item with canSave := true }
    deleted := itemID :: w.loot.deleted }

/-- `Loot::DeleteLootMoneyFromContainerItemDB` -/
def deleteLootMoneyFromContainerItemDB : World :=
  { w with db := w.db.delMoney w.loot.containerID }

/-- `Player::StoreLootItem` -/
def storeLootItem (player : Player) (lootSlot : ℕ) : World :=
  match w.loot.toLoot.lootItemInSlot lootSlot player.guid with
  | none => w
  | some slot =>
    match w.loot.itemAt slot.place with
    | none => w
    | some item =>
      if Looting.Loot.mayStore T player slot item.toLootItem then
        let w := { w with loot := w.loot.markStored slot player.guid item.freeforall }
        if w.loot.containerID > 0 then w.deleteLootItemFromContainerItemDB item.itemid else w
      else w

/-- `HandleLootMoneyOpcode` on an item. -/
def lootMoney : World :=
  let w := { w with loot := { w.loot with gold := 0 } }
  if w.loot.containerID > 0 then w.deleteLootMoneyFromContainerItemDB else w

end World

/-- What the owner does with the open container. -/
inductive Op where
  | storeLootItem (player : Player) (lootSlot : ℕ)
  | lootMoney

def handle (T : Templates) (w : World) : Op → World
  | .storeLootItem player lootSlot => w.storeLootItem T player lootSlot
  | .lootMoney => w.lootMoney

/-! ## 4. Saving and loading -/

/-- `Item::ItemContainerSaveLootToDB` -/
def itemContainerSaveLootToDB (T : Templates) (owner : Player) (container : Container)
    (w : World) : World :=
  if w.loot.isLooted then w
  else
    let loot := { w.loot with containerID := container.guid, saved := true, deleted := [] }
    let db := if loot.gold > 0 then
      (w.db.delMoney container.guid).insMoney container.guid loot.gold else w.db
    let db := if loot.isLooted = false then
      (db.delItems container.guid).insItems container.guid
        ((loot.items.filter fun item =>
          item.canSave ∧ item.toLootItem.allowedForPlayer T owner).map LootItem.content)
      else db
    ⟨loot, db⟩

/-- `LootTemplate::CopyConditions`: those of the first entry of the template with the id. -/
def copyConditions (entries : List LootStoreItem) (itemid : ℕ) : List ℕ :=
  ((entries.find? fun entry => entry.itemid = itemid).map LootStoreItem.conditions).getD []

/-- A row that was read. -/
def loadItem (entries : List LootStoreItem) (row : Content) : LootItem where
  itemid := row.itemid
  conditions := copyConditions entries row.itemid
  count := row.count
  isLooted := false
  isBlocked := row.isBlocked
  freeforall := row.freeforall
  isUnderthreshold := row.isUnderthreshold
  isCounted := row.isCounted
  needsQuest := row.needsQuest
  followLootRules := row.followLootRules
  randomPropertyId := row.randomPropertyId
  randomSuffix := row.randomSuffix
  canSave := true
  his := true
  taken := false

/-- `Item::ItemContainerLoadLootFromDB`, of an item that was loaded itself: it has no loot yet. -/
def itemContainerLoadLootFromDB (container : Container) (db : Database) : Loot where
  items := match container.template with
    | none => []
    | some entries => (db.selItems container.guid).map (loadItem entries)
  questItems := []
  gold := (db.selMoney container.guid).head?.getD 0
  unlootedCount := match container.template with
    | none => 0
    | some _ => (db.selItems container.guid).length % 2 ^ 8
  playerQuestItems := .empty
  playerFFAItems := .empty
  playerNonQuestNonFFAConditionalItems := .empty
  containerID := container.guid
  saved := true
  deleted := []

/-! ## 5. Opening -/

/-- What is rolled when loot is generated, and for whom: gold, the items of the template with their
counts, and the random properties that they are given. -/
structure Roll where
  owner : Player
  gold : ℕ
  generated : List (LootStoreItem × ℕ)
  properties : Place → ℤ × ℕ

namespace Roll

variable (T : Templates) (roll : Roll) (container : Container)

/-- `generateMoneyLoot`, and `FillLoot`, which needs a template.  It stores currency at once. -/
def fillLoot : Looting.Loot :=
  match container.template with
  | none => .start roll.gold
  | some _ => exec (Looting.Loot.fill T) (.start roll.gold)
      (Looting.Loot.fillLoot T (.start roll.gold) roll.generated roll.owner true [])

/-- An item that was generated. -/
def generatedItem (filled : Looting.Loot) (place : Place) (item : Looting.LootItem) : LootItem where
  toLootItem := item
  randomPropertyId := (roll.properties place).1
  randomSuffix := (roll.properties place).2
  canSave := true
  his := item.allowedForPlayer T roll.owner
  taken := place ∈ filled.delivered.map Prod.fst

/-- The loot that was generated, in an item that nothing was loaded for. -/
def generatedLoot : Loot :=
  let filled := roll.fillLoot T container
  { items := filled.items.mapIdx fun index item =>
      roll.generatedItem T filled (.item index) item
    questItems := filled.questItems.mapIdx fun index item =>
      roll.generatedItem T filled (.quest index) item
    gold := filled.gold
    unlootedCount := filled.unlootedCount
    playerQuestItems := filled.playerQuestItems
    playerFFAItems := filled.playerFFAItems
    playerNonQuestNonFFAConditionalItems := filled.playerNonQuestNonFFAConditionalItems
    containerID := container.guid
    saved := false
    deleted := [] }

/-- What was stored at once is deleted from the database. -/
def deleteStored (db : Database) : Database :=
  let filled := roll.fillLoot T container
  filled.delivered.foldr (fun x db => match filled.itemAt x.1 with
    | none => db
    | some item => db.delItem container.guid item.itemid) db

end Roll

/-- `Player::SendLoot` on an item that was loaded: loot that cannot be loaded is generated, and
saved at once. -/
def sendLoot (T : Templates) (container : Container) (roll : Roll) (db : Database) : World :=
  let loot := itemContainerLoadLootFromDB container db
  if loot.isLooted = false then ⟨loot, db⟩
  else
    let w := ⟨roll.generatedLoot T container, roll.deleteStored T container db⟩
    if w.loot.gold > 0 ∨ w.loot.unlootedCount > 0 then
      itemContainerSaveLootToDB T roll.owner container w
    else w

/-- A container is opened, and left. -/
def session (T : Templates) (container : Container) (db : Database) (s : Roll × List Op) :
    Database :=
  (exec (handle T) (sendLoot T container s.1 db) s.2).db

/-! ## 6. The loot of the module on loot -/

namespace Loot

variable {loot : Loot}

theorem toLoot_itemAt (loot : Loot) (place : Place) :
    loot.toLoot.itemAt place = (loot.itemAt place).map LootItem.toLootItem := by
  cases place <;> exact List.getElem?_map

theorem toLoot_modifyAt (loot : Loot) (place : Place) (f : LootItem → LootItem)
    (g : Looting.LootItem → Looting.LootItem)
    (hfg : ∀ item, (f item).toLootItem = g item.toLootItem) :
    (loot.modifyAt place f).toLoot = loot.toLoot.modifyAt place g := by
  cases place with
  | item index =>
    simp only [modifyAt, toLoot, Looting.Loot.modifyAt, map_modify hfg]
  | quest index =>
    simp only [modifyAt, toLoot, Looting.Loot.modifyAt, map_modify hfg]

/-- The marks are those of the other module, whatever was handed out. -/
theorem toLoot_markStored (loot : Loot) (slot : Looting.Loot.Slot) (guid : ℕ)
    (freeforall : Bool) (delivered : List (Place × ℕ)) :
    (loot.markStored slot guid freeforall).toLoot =
      { (if freeforall = false then
          (Looting.Loot.lootSlotEntries { loot.toLoot with delivered := delivered } slot
            guid).modifyAt slot.place fun item => { item with isLooted := true }
        else Looting.Loot.lootSlotEntries { loot.toLoot with delivered := delivered } slot
          guid).countLess with delivered := [] } := by
  have htaken : ((loot.lootSlotEntries slot guid).modifyAt slot.place markTaken).toLoot =
      loot.toLoot.lootSlotEntries slot guid := by
    rw [toLoot_modifyAt _ _ markTaken id fun _ => rfl]
    cases slot.place <;> simp only [Looting.Loot.modifyAt, List.modify_id] <;> rfl
  cases freeforall with
  | true => exact congrArg Looting.Loot.countLess htaken
  | false =>
    have hlooted := toLoot_modifyAt ((loot.lootSlotEntries slot guid).modifyAt slot.place markTaken)
      slot.place markLooted (fun item => { item with isLooted := true }) fun _ => rfl
    rw [htaken] at hlooted
    refine (congrArg Looting.Loot.countLess hlooted).trans ?_
    cases slot.place <;> rfl

end Loot

/-- Deleting from the database leaves the loot as it is to the players. -/
theorem World.toLoot_deleteLootItemFromContainerItemDB (w : World) (itemID : ℕ) :
    (w.deleteLootItemFromContainerItemDB itemID).loot.toLoot = w.loot.toLoot := by
  have hitems : (w.deleteLootItemFromContainerItemDB itemID).loot.items.map LootItem.toLootItem =
      w.loot.items.map LootItem.toLootItem :=
    map_modify_of_eq (f := fun item : LootItem => { item with canSave := true }) (fun _ => rfl) _ _
  simp only [Loot.toLoot, hitems]
  rfl

/-- **Taking from a container is taking from loot**, when the database and what only a container
needs are forgotten. -/
theorem World.toLoot_storeLootItem (T : Templates) (w : World) (player : Player) (lootSlot : ℕ) :
    (w.storeLootItem T player lootSlot).loot.toLoot =
      { w.loot.toLoot.storeLootItem T player lootSlot with delivered := [] } := by
  rw [storeLootItem, Looting.Loot.storeLootItem]
  cases hslot : w.loot.toLoot.lootItemInSlot lootSlot player.guid with
  | none => rfl
  | some slot =>
    simp only [Loot.toLoot_itemAt]
    cases hitem : w.loot.itemAt slot.place with
    | none => rfl
    | some item =>
      obtain ⟨delivered, hdeliver⟩ : ∃ delivered,
          w.loot.toLoot.deliver slot.place item.toLootItem player.guid =
            { w.loot.toLoot with delivered := delivered } := by
        rw [Looting.Loot.deliver]
        split
        · exact ⟨_, rfl⟩
        · exact ⟨_, rfl⟩
      have hstored := Loot.toLoot_markStored w.loot slot player.guid item.freeforall delivered
      simp only [Option.map_some, hdeliver]
      by_cases hmay : Looting.Loot.mayStore T player slot item.toLootItem = true
      · simp only [hmay, if_true]
        by_cases hcontainer : (w.loot.markStored slot player.guid item.freeforall).containerID > 0
        · rw [if_pos hcontainer]
          exact (toLoot_deleteLootItemFromContainerItemDB _ _).trans hstored
        · rw [if_neg hcontainer]
          exact hstored
      · simp only [hmay, Bool.false_eq_true, if_false]
        rfl

end HungerGames.ContainerLoot
