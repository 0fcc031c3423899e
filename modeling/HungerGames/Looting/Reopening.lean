/-
# What a container holds when it is opened again

What is left of the loot of a container should be there when it is loaded: the gold, and each item
that its owner may have and has not taken.  `Sound` says what the database holds at any time of any
run of openings: of the items that were saved those whose id was not deleted since.  So what is
loaded is what is left when these are the same items (`reopened_iff`); they are not when one of two
items of an id is taken, and a quest item is never saved.
-/
import HungerGames.Looting.ContainerLoot

namespace HungerGames.ContainerLoot

open HungerGames.System
open HungerGames.Looting (LootStoreItem QuestItem QuestItemMap Place Player Templates
  maxNrLootItems)

variable {T : Templates} {container : Container} {owner player : Player} {w : World} {loot : Loot}
variable {db : Database} {roll : Roll} {itemID guid lootSlot : ℕ} {item : LootItem}

/-! ## 1. What is left, and what is kept -/

/-- What the owner of the container may have, and has not taken. -/
def Loot.left (loot : Loot) : List LootItem :=
  (loot.items ++ loot.questItems).filter fun item => item.his ∧ item.taken = false

/-- **A container gives back what is left in it**: loading gives the gold, and the items, each as
often. -/
def Returns (container : Container) (w : World) : Prop :=
  let loaded := itemContainerLoadLootFromDB container w.db
  loaded.gold = w.loot.gold ∧
    ((loaded.items ++ loaded.questItems).map LootItem.content).Perm
      (w.loot.left.map LootItem.content)

instance : Decidable (Returns container w) :=
  inferInstanceAs (Decidable (_ ∧ _))

/-- **When it does.**  Of the items that its owner may have, the quest items are all taken, and each
other item is taken just when one with its id was taken since the loot was saved, or when the loot
was not saved. -/
structure StaysWhole (loot : Loot) : Prop where
  items : ∀ item ∈ loot.items, item.his →
    (item.taken ↔ loot.saved = false ∨ item.itemid ∈ loot.deleted)
  quests : ∀ item ∈ loot.questItems, item.his → item.taken

/-- What taking leaves of an item: what is saved of it, and whose it is. -/
def LootItem.core (item : LootItem) : Content × Bool := (item.content, item.his)

/-- Whether the database has an item. -/
def Loot.kept (loot : Loot) (core : Content × Bool) : Bool :=
  loot.saved ∧ core.2 ∧ core.1.itemid ∉ loot.deleted

/-- The rows of the loot in the database. -/
def Loot.rows (loot : Loot) : List Content :=
  ((loot.items.map LootItem.core).filter loot.kept).map Prod.fst

theorem Loot.rows_eq (loot : Loot) :
    loot.rows = (loot.items.filter fun item => loot.kept item.core).map LootItem.content := by
  rw [rows, List.filter_map, List.map_map]
  rfl

/-! ## 2. The tables -/

namespace Database

@[simp] theorem selItems_delItem :
    (db.delItem guid itemID).selItems guid =
      (db.selItems guid).filter fun row => row.itemid ≠ itemID := by
  simp only [selItems, delItem, List.filter_filter, List.filter_map]
  congr 1
  refine List.filter_congr fun row _ => ?_
  by_cases hguid : row.1 = guid <;> simp [hguid]

@[simp] theorem selMoney_delItem : (db.delItem guid itemID).selMoney guid = db.selMoney guid := rfl

@[simp] theorem selMoney_delItems : (db.delItems guid).selMoney guid = db.selMoney guid := rfl

@[simp] theorem selMoney_insItems {rows : List Content} :
    (db.insItems guid rows).selMoney guid = db.selMoney guid := rfl

@[simp] theorem selMoney_delMoney : (db.delMoney guid).selMoney guid = [] := by
  simp [selMoney, delMoney]

@[simp] theorem selItems_delItems : (db.delItems guid).selItems guid = [] := by
  simp [selItems, delItems]

@[simp] theorem selMoney_insMoney {gold : ℕ} :
    (db.insMoney guid gold).selMoney guid = db.selMoney guid ++ [gold] := by
  simp [selMoney, insMoney]

@[simp] theorem selItems_insItems {rows : List Content} :
    (db.insItems guid rows).selItems guid = db.selItems guid ++ rows := by
  simp [selItems, insItems, List.filter_map, Function.comp_def]

end Database

/-! ## 3. What is generated -/

/-- Quest items are with the quest items, and there are not too many others. -/
structure Filed (loot : Looting.Loot) : Prop where
  items : ∀ item ∈ loot.items, item.needsQuest = false
  quests : ∀ item ∈ loot.questItems, item.needsQuest = true
  room : loot.items.length ≤ maxNrLootItems

namespace Filed

variable {filled filled' : Looting.Loot}

theorem of_map (h : Filed filled)
    (hitems : filled'.items.map Looting.LootItem.needsQuest =
      filled.items.map Looting.LootItem.needsQuest)
    (hquests : filled'.questItems.map Looting.LootItem.needsQuest =
      filled.questItems.map Looting.LootItem.needsQuest) : Filed filled' where
  items := by
    intro item hitem
    have hmem := List.mem_map_of_mem (f := Looting.LootItem.needsQuest) hitem
    rw [hitems] at hmem
    obtain ⟨other, hother, heq⟩ := List.mem_map.mp hmem
    exact heq ▸ h.items other hother
  quests := by
    intro item hitem
    have hmem := List.mem_map_of_mem (f := Looting.LootItem.needsQuest) hitem
    rw [hquests] at hmem
    obtain ⟨other, hother, heq⟩ := List.mem_map.mp hmem
    exact heq ▸ h.quests other hother
  room := by
    have hlength := congrArg List.length hitems
    rw [List.length_map, List.length_map] at hlength
    exact hlength ▸ h.room

theorem start (gold : ℕ) : Filed (.start gold) where
  items := by simp [Looting.Loot.start]
  quests := by simp [Looting.Loot.start]
  room := by simp [Looting.Loot.start]

theorem addStacks {li : LootStoreItem} {proto : Looting.ItemTemplate} :
    ∀ {turns count : ℕ} {filled : Looting.Loot}, Filed filled →
      Filed (Looting.Loot.addStacks T li proto turns count filled)
  | 0, _, _, h => h
  | turns + 1, count, filled, h => by
    have hkind : (Looting.LootItem.ofStoreItem T li).needsQuest = li.needsQuest := rfl
    rw [Looting.Loot.addStacks]
    by_cases hquest : li.needsQuest = true
    · by_cases hroom : filled.questItems.length < Looting.maxNrQuestItems
      · simp only [hquest, hroom, if_true, Bool.true_eq_false, false_and, if_false]
        refine addStacks ⟨h.items, ?_, h.room⟩
        intro item hitem
        rcases List.mem_append.mp hitem with hitem | hitem
        · exact h.quests item hitem
        · rw [List.mem_singleton.mp hitem]
          exact hkind.trans hquest
      · simp only [hquest, hroom, if_true, if_false]
        exact h
    · have hquest : li.needsQuest = false := Bool.eq_false_iff.mpr hquest
      by_cases hroom : filled.items.length < maxNrLootItems
      · simp only [hquest, hroom, if_true, Bool.false_eq_true, if_false, true_and]
        have hadded : Filed { filled with items := filled.items ++ [
            { Looting.LootItem.ofStoreItem T li with count := min count proto.maxStackSize }] } := by
          refine ⟨?_, h.quests, ?_⟩
          · intro item hitem
            rcases List.mem_append.mp hitem with hitem | hitem
            · exact h.items item hitem
            · rw [List.mem_singleton.mp hitem]
              exact hkind.trans hquest
          · rw [List.length_append]
            exact hroom
        split
        · exact addStacks (hadded.of_map rfl rfl)
        · exact addStacks hadded
      · simp only [hquest, hroom, Bool.false_eq_true, if_false]
        exact h

theorem storeLootItem (h : Filed filled) (player : Player) (lootSlot : ℕ) :
    Filed (filled.storeLootItem T player lootSlot) := by
  rw [Looting.Loot.storeLootItem]
  split
  · exact h
  · next slot _ =>
    split
    · exact h
    · next item _ =>
      split
      · have hmarked : Filed ((filled.deliver slot.place item player.guid).lootSlotEntries slot
            player.guid) := by
          refine h.of_map ?_ ?_ <;> rw [Looting.Loot.deliver] <;> split <;> rfl
        split
        · have hkind : ∀ marked : Looting.LootItem,
              Looting.LootItem.needsQuest { marked with isLooted := true } = marked.needsQuest :=
            fun _ => rfl
          refine hmarked.of_map ?_ ?_ <;> cases slot.place
          · exact map_modify_of_eq hkind _ _
          · rfl
          · rfl
          · exact map_modify_of_eq hkind _ _
        · exact hmarked.of_map rfl rfl
      · exact h

/-- **Filling files each item in its list.** -/
theorem fill (h : Filed filled) : ∀ op, Filed (filled.fill T op)
  | .addItem li count => by
    rw [Looting.Loot.fill, Looting.Loot.addItem]
    split
    · exact h
    · exact addStacks h
  | .fillQuestLoot player => by
    rw [Looting.Loot.fill, Looting.Loot.fillQuestLoot]
    split
    · exact h
    · refine h.of_map rfl (List.ext_getElem? fun i => ?_)
      simp only [List.getElem?_map, List.getElem?_mapIdx, Option.map_map]
      cases filled.questItems[i]? with
      | none => rfl
      | some item =>
        simp only [Option.map_some, Function.comp_apply]
        split <;> rfl
  | .fillFFALoot player => by
    rw [Looting.Loot.fill, Looting.Loot.fillFFALoot]
    split
    · exact h
    · exact h.of_map rfl rfl
  | .fillNonQuestNonFFAConditionalLoot player => by
    rw [Looting.Loot.fill, Looting.Loot.fillNonQuestNonFFAConditionalLoot]
    split
    · exact h
    · refine h.of_map ?_ rfl
      rw [List.map_map]
      refine List.map_congr_left fun item _ => ?_
      simp only [Function.comp_apply]
      split <;> rfl
  | .storeCurrency player slot => by
    rw [Looting.Loot.fill, Looting.Loot.storeCurrency]
    split
    · exact h.storeLootItem player slot
    · exact h
  | .markUnderthreshold threshold => by
    rw [Looting.Loot.fill, Looting.Loot.markUnderthreshold]
    refine h.of_map ?_ rfl
    rw [List.map_map]
    refine List.map_congr_left fun item _ => ?_
    simp only [Function.comp_apply]
    split <;> rfl

theorem of_fillLoot : Filed (roll.fillLoot T container) := by
  rw [Roll.fillLoot]
  split
  · exact start roll.gold
  · exact exec_invariant (P := fun _ _ => True) (fun _ op h _ => h.fill op) (start roll.gold)
      (along_of_forall fun _ _ => trivial)

end Filed

theorem fillLoot_items_of_none (htemplate : container.template = none) :
    (roll.fillLoot T container).items = [] := by
  rw [Roll.fillLoot, htemplate]
  rfl

/-! ## 4. The invariant -/

/-- What the database holds of a container that is closed. -/
structure Stored (container : Container) (db : Database) : Prop where
  items : ∀ row ∈ db.selItems container.guid, row.needsQuest = false
  room : (db.selItems container.guid).length ≤ maxNrLootItems
  template : container.template = none → db.selItems container.guid = []
  money : ∃ gold, db.selMoney container.guid = if gold = 0 then [] else [gold]

/-- **What the database holds of a container that is open**: the items that were saved and have not
been deleted since, and the gold. -/
structure Sound (container : Container) (w : World) : Prop where
  containerID : w.loot.containerID = container.guid
  rows : w.db.selItems container.guid = w.loot.rows
  money : w.db.selMoney container.guid = if w.loot.gold = 0 then [] else [w.loot.gold]
  items : ∀ core ∈ w.loot.items.map LootItem.core, core.1.needsQuest = false
  quests : ∀ core ∈ w.loot.questItems.map LootItem.core, core.1.needsQuest = true
  room : w.loot.items.length ≤ maxNrLootItems
  template : container.template = none → w.loot.items = []

theorem mem_rows {row : Content} (hrow : row ∈ loot.rows) :
    ∃ core ∈ loot.items.map LootItem.core, core.1 = row := by
  obtain ⟨core, hcore, hrow⟩ := List.mem_map.mp hrow
  exact ⟨core, (List.mem_filter.mp hcore).1, hrow⟩

theorem length_rows_le (loot : Loot) : loot.rows.length ≤ loot.items.length := by
  rw [loot.rows_eq, List.length_map]
  exact List.length_filter_le _ _

namespace Sound

section

variable (h : Sound container w)
include h

theorem stored : Stored container w.db where
  items := by
    intro row hrow
    obtain ⟨core, hcore, rfl⟩ := mem_rows (h.rows ▸ hrow)
    exact h.items core hcore
  room := by
    rw [h.rows]
    exact (length_rows_le w.loot).trans h.room
  template := by
    intro htemplate
    rw [h.rows, Loot.rows, h.template htemplate]
    rfl
  money := ⟨w.loot.gold, h.money⟩

/-- What leaves alone what is saved of each item, and the gold, keeps the invariant. -/
theorem of_core (hcontainer : loot.containerID = w.loot.containerID)
    (hsaved : loot.saved = w.loot.saved) (hdeleted : loot.deleted = w.loot.deleted)
    (hgold : loot.gold = w.loot.gold)
    (hitems : loot.items.map LootItem.core = w.loot.items.map LootItem.core)
    (hquests : loot.questItems.map LootItem.core = w.loot.questItems.map LootItem.core) :
    Sound container { w with loot := loot } where
  containerID := hcontainer.trans h.containerID
  rows := by
    have hkept : loot.kept = w.loot.kept := by
      funext core
      simp only [Loot.kept, hsaved, hdeleted]
    have hrows : loot.rows = w.loot.rows := by
      rw [Loot.rows, Loot.rows, hitems, hkept]
    exact h.rows.trans hrows.symm
  money := by
    rw [hgold]
    exact h.money
  items := hitems ▸ h.items
  quests := hquests ▸ h.quests
  room := by
    have hlength := congrArg List.length hitems
    rw [List.length_map, List.length_map] at hlength
    exact hlength ▸ h.room
  template := by
    intro htemplate
    have hnil : loot.items.map LootItem.core = [] := by
      rw [hitems, h.template htemplate]
      rfl
    exact List.map_eq_nil_iff.mp hnil

/-- The rows of an id are deleted, and the id is noted. -/
theorem deleteLootItemFromContainerItemDB (itemID : ℕ) :
    Sound container (w.deleteLootItemFromContainerItemDB itemID) := by
  have hcore : (w.deleteLootItemFromContainerItemDB itemID).loot.items.map LootItem.core =
      w.loot.items.map LootItem.core :=
    map_modify_of_eq (f := fun item : LootItem => { item with canSave := true }) (fun _ => rfl) _ _
  have hkept : ∀ core, (w.deleteLootItemFromContainerItemDB itemID).loot.kept core =
      (decide (core.1.itemid ≠ itemID) && w.loot.kept core) := by
    intro core
    simp only [Loot.kept, World.deleteLootItemFromContainerItemDB, List.mem_cons, not_or]
    by_cases hid : core.1.itemid = itemID <;> simp [hid]
  refine ⟨h.containerID, ?_, h.money, hcore ▸ h.items, h.quests, ?_, ?_⟩
  · have hrows : (w.deleteLootItemFromContainerItemDB itemID).loot.rows =
        w.loot.rows.filter fun row => row.itemid ≠ itemID := by
      rw [Loot.rows, Loot.rows, hcore, List.filter_map (f := Prod.fst), List.filter_filter]
      exact congrArg (List.map Prod.fst) (List.filter_congr fun core _ => hkept core)
    rw [hrows, ← h.rows, World.deleteLootItemFromContainerItemDB, h.containerID]
    exact Database.selItems_delItem
  · rw [World.deleteLootItemFromContainerItemDB, List.length_modify]
    exact h.room
  · intro htemplate
    rw [World.deleteLootItemFromContainerItemDB, h.template htemplate]
    rfl

theorem lootMoney : Sound container w.lootMoney := by
  have hpos : w.loot.containerID > 0 := h.containerID ▸ container.guid_pos
  have hlooted : w.lootMoney =
      { loot := { w.loot with gold := 0 }, db := w.db.delMoney w.loot.containerID } :=
    if_pos hpos
  rw [hlooted]
  refine ⟨h.containerID, h.rows, ?_, h.items, h.quests, h.room, h.template⟩
  rw [h.containerID]
  exact Database.selMoney_delMoney

theorem modifyAt (place : Place) {f : LootItem → LootItem}
    (hf : ∀ item, (f item).core = item.core) :
    Sound container { w with loot := w.loot.modifyAt place f } := by
  cases place with
  | item index => exact h.of_core rfl rfl rfl rfl (map_modify_of_eq hf _ _) rfl
  | quest index => exact h.of_core rfl rfl rfl rfl rfl (map_modify_of_eq hf _ _)

/-- The marks of what is stored. -/
theorem markStored (slot : Looting.Loot.Slot) (guid : ℕ) (freeforall : Bool) :
    Sound container { w with loot := w.loot.markStored slot guid freeforall } := by
  have hentries : Sound container { w with loot := w.loot.lootSlotEntries slot guid } :=
    h.of_core rfl rfl rfl rfl rfl rfl
  have htaken := hentries.modifyAt slot.place (f := Loot.markTaken) fun _ => rfl
  cases freeforall with
  | true => exact htaken.of_core rfl rfl rfl rfl rfl rfl
  | false =>
    have hlooted := htaken.modifyAt slot.place (f := Loot.markLooted) fun _ => rfl
    exact hlooted.of_core rfl rfl rfl rfl rfl rfl

theorem storeLootItem (player : Player) (lootSlot : ℕ) :
    Sound container (w.storeLootItem T player lootSlot) := by
  rw [World.storeLootItem]
  split
  · exact h
  · next slot _ =>
    split
    · exact h
    · next item _ =>
      split
      · have hmarked : Sound container { w with
            loot := w.loot.markStored slot player.guid item.freeforall } :=
          h.markStored slot player.guid item.freeforall
        dsimp only
        split
        · exact hmarked.deleteLootItemFromContainerItemDB item.itemid
        · exact hmarked
      · exact h

theorem handle : ∀ op, Sound container (handle T w op)
  | .storeLootItem player lootSlot => h.storeLootItem player lootSlot
  | .lootMoney => h.lootMoney

/-- The invariant holds while the container is open. -/
theorem exec (ops : List Op) : Sound container (exec (ContainerLoot.handle T) w ops) :=
  exec_invariant (P := fun _ _ => True) (fun _ op h _ => h.handle op) h
    (along_of_forall fun _ _ => trivial)

end

end Sound

/-! ## 5. Opening -/

namespace Stored

/-- Before a container is first opened the database has nothing of it. -/
theorem of_nothing (hitems : db.selItems container.guid = [])
    (hmoney : db.selMoney container.guid = []) : Stored container db where
  items := by simp [hitems]
  room := by simp [hitems]
  template := fun _ => hitems
  money := ⟨0, hmoney⟩

section

variable (h : Stored container db)
include h

/-- The rows of the loot that is loaded are those that are there. -/
theorem load_items :
    (itemContainerLoadLootFromDB container db).items.map LootItem.core =
      (db.selItems container.guid).map fun row => (row, true) := by
  rw [itemContainerLoadLootFromDB]
  cases htemplate : container.template with
  | none => rw [h.template htemplate]; rfl
  | some entries =>
    simp only [List.map_map]
    rfl

theorem load_rows :
    (itemContainerLoadLootFromDB container db).rows = db.selItems container.guid := by
  have hall : (db.selItems container.guid).filter
      ((itemContainerLoadLootFromDB container db).kept ∘ fun row => (row, true)) =
        db.selItems container.guid :=
    List.filter_eq_self.mpr fun row _ => by simp [Loot.kept, itemContainerLoadLootFromDB]
  rw [Loot.rows, h.load_items, List.filter_map, hall, List.map_map]
  exact List.map_id _

/-- The gold that is loaded is what is there. -/
theorem load_gold :
    db.selMoney container.guid = if (itemContainerLoadLootFromDB container db).gold = 0 then []
      else [(itemContainerLoadLootFromDB container db).gold] := by
  obtain ⟨gold, hgold⟩ := h.money
  have hload : (itemContainerLoadLootFromDB container db).gold = gold := by
    rw [itemContainerLoadLootFromDB, hgold]
    by_cases hzero : gold = 0 <;> simp [hzero]
  rw [hload, hgold]

/-- Loot that was loaded. -/
theorem sound_load :
    Sound container ⟨itemContainerLoadLootFromDB container db, db⟩ where
  containerID := rfl
  rows := h.load_rows.symm
  money := h.load_gold
  items := by
    intro core hcore
    rw [h.load_items] at hcore
    obtain ⟨row, hrow, rfl⟩ := List.mem_map.mp hcore
    exact h.items row hrow
  quests := by
    intro core hcore
    cases hcore
  room := by
    have hlength := congrArg List.length h.load_items
    rw [List.length_map, List.length_map] at hlength
    exact hlength ▸ h.room
  template := by
    intro htemplate
    simp only [itemContainerLoadLootFromDB, htemplate]

/-- Loot cannot be loaded only when nothing is there. -/
theorem nothing_of_looted (hlooted : (itemContainerLoadLootFromDB container db).isLooted = true) :
    db.selItems container.guid = [] ∧ db.selMoney container.guid = [] := by
  obtain ⟨hgold, hcount⟩ := of_decide_eq_true hlooted
  refine ⟨?_, by rw [h.load_gold, if_pos hgold]⟩
  cases htemplate : container.template with
  | none => exact h.template htemplate
  | some entries =>
    simp only [itemContainerLoadLootFromDB, htemplate] at hcount
    have hroom : (db.selItems container.guid).length ≤ 16 := h.room
    refine List.length_eq_zero_iff.mp ?_
    omega

end

end Stored

theorem deleteStored_eq (hitems : db.selItems container.guid = []) :
    (roll.deleteStored T container db).selItems container.guid = [] ∧
      (roll.deleteStored T container db).selMoney container.guid = db.selMoney container.guid := by
  rw [Roll.deleteStored]
  induction (roll.fillLoot T container).delivered with
  | nil => exact ⟨hitems, rfl⟩
  | cons x delivered ih =>
    rw [List.foldr_cons]
    split
    · exact ih
    · rw [Database.selItems_delItem, Database.selMoney_delItem, ih.1]
      exact ⟨rfl, ih.2⟩

theorem mem_generated {item : LootItem} (hitem : item ∈ (roll.generatedLoot T container).items) :
    item.canSave = true ∧ item.his = item.toLootItem.allowedForPlayer T roll.owner := by
  obtain ⟨index, hindex, rfl⟩ := List.mem_mapIdx.mp hitem
  exact ⟨rfl, rfl⟩

/-- What the invariant asks of the items holds of those that were generated. -/
theorem generated_items :
    (∀ core ∈ (roll.generatedLoot T container).items.map LootItem.core,
      core.1.needsQuest = false) ∧
    (∀ core ∈ (roll.generatedLoot T container).questItems.map LootItem.core,
      core.1.needsQuest = true) ∧
    (roll.generatedLoot T container).items.length ≤ maxNrLootItems := by
  have hfiled : Filed (roll.fillLoot T container) := Filed.of_fillLoot
  refine ⟨?_, ?_, ?_⟩
  · intro core hcore
    obtain ⟨item, hitem, rfl⟩ := List.mem_map.mp hcore
    obtain ⟨index, hindex, rfl⟩ := List.mem_mapIdx.mp hitem
    exact hfiled.items _ (List.getElem_mem hindex)
  · intro core hcore
    obtain ⟨item, hitem, rfl⟩ := List.mem_map.mp hcore
    obtain ⟨index, hindex, rfl⟩ := List.mem_mapIdx.mp hitem
    exact hfiled.quests _ (List.getElem_mem hindex)
  · rw [Roll.generatedLoot, List.length_mapIdx]
    exact hfiled.room

theorem generated_of_none (htemplate : container.template = none) :
    (roll.generatedLoot T container).items = [] := by
  rw [Roll.generatedLoot, fillLoot_items_of_none htemplate]
  rfl

/-- Loot that was generated, and counts as looted. -/
theorem sound_generated (hitems : db.selItems container.guid = [])
    (hmoney : db.selMoney container.guid = [])
    (hgold : (roll.generatedLoot T container).gold = 0) :
    Sound container ⟨roll.generatedLoot T container, db⟩ where
  containerID := rfl
  rows := by
    refine hitems.trans (Eq.symm ?_)
    rw [Loot.rows_eq, List.filter_eq_nil_iff.mpr]
    · rfl
    · intro item _
      simp [Loot.kept, Roll.generatedLoot]
  money := by rw [hgold, if_pos rfl, hmoney]
  items := generated_items.1
  quests := generated_items.2.1
  room := generated_items.2.2
  template := generated_of_none

/-- Generated loot that is saved. -/
def savedLoot (T : Templates) (container : Container) (roll : Roll) : Loot :=
  { roll.generatedLoot T container with saved := true }

/-- The rows of generated loot that is saved. -/
theorem savedLoot_rows : (savedLoot T container roll).rows =
    ((roll.generatedLoot T container).items.filter fun item => item.canSave ∧
      item.toLootItem.allowedForPlayer T roll.owner).map LootItem.content := by
  rw [Loot.rows_eq]
  refine congrArg (List.map LootItem.content) (List.filter_congr fun item hitem => ?_)
  obtain ⟨hcanSave, hhis⟩ := mem_generated hitem
  simp [Loot.kept, LootItem.core, savedLoot, Roll.generatedLoot, hcanSave, hhis]

/-- What saving makes of generated loot. -/
theorem save_generated (hlooted : (roll.generatedLoot T container).isLooted = false) :
    itemContainerSaveLootToDB T roll.owner container ⟨roll.generatedLoot T container, db⟩ =
      ⟨savedLoot T container roll,
        ((if (roll.generatedLoot T container).gold > 0 then
          (db.delMoney container.guid).insMoney container.guid (roll.generatedLoot T container).gold
        else db).delItems container.guid).insItems container.guid
          (savedLoot T container roll).rows⟩ := by
  have hleft : ¬ (roll.generatedLoot T container).isLooted = true := by simp [hlooted]
  have hagain : (savedLoot T container roll).isLooted = false := hlooted
  rw [itemContainerSaveLootToDB, if_neg hleft, savedLoot_rows]
  exact congrArg (World.mk _) (if_pos hagain)

/-- Loot that was generated, and is saved. -/
theorem sound_saved (hmoney : db.selMoney container.guid = [])
    (hlooted : (roll.generatedLoot T container).isLooted = false) :
    Sound container (itemContainerSaveLootToDB T roll.owner container
      ⟨roll.generatedLoot T container, db⟩) := by
  rw [save_generated hlooted]
  refine ⟨rfl, ?_, ?_, generated_items.1, generated_items.2.1, generated_items.2.2,
    generated_of_none⟩
  · rw [Database.selItems_insItems, Database.selItems_delItems]
    rfl
  · rw [Database.selMoney_insItems, Database.selMoney_delItems]
    have hgold : (savedLoot T container roll).gold = (roll.generatedLoot T container).gold := rfl
    by_cases hzero : (roll.generatedLoot T container).gold = 0
    · simp [hgold, hzero, hmoney]
    · have hpos : 0 < (roll.generatedLoot T container).gold := Nat.pos_of_ne_zero hzero
      simp [hgold, hpos, hzero]

/-- **A container that is opened is in order**, whether its loot is loaded or generated. -/
theorem Stored.sendLoot (h : Stored container db) (roll : Roll) :
    Sound container (sendLoot T container roll db) := by
  rw [ContainerLoot.sendLoot]
  by_cases hlooted : (itemContainerLoadLootFromDB container db).isLooted = false
  · rw [if_pos hlooted]
    exact h.sound_load
  · obtain ⟨hitems, hmoney⟩ := h.nothing_of_looted ((Bool.not_eq_false _).mp hlooted)
    obtain ⟨hitems', hmoney'⟩ : (roll.deleteStored T container db).selItems container.guid = [] ∧
        (roll.deleteStored T container db).selMoney container.guid =
          db.selMoney container.guid := deleteStored_eq hitems
    have hmoney' := hmoney'.trans hmoney
    rw [if_neg hlooted]
    dsimp only
    split
    · next hsome =>
      refine sound_saved hmoney' (decide_eq_false ?_)
      omega
    · next hnone => exact sound_generated hitems' hmoney' (by omega)

/-- **Every container that is closed is in order**, however often it was opened. -/
theorem Stored.sessions (h : Stored container db) (sessions : List (Roll × List Op)) :
    Stored container (exec (session T container) db sessions) :=
  exec_invariant (P := fun _ _ => True)
    (fun _ s h _ => ((h.sendLoot s.1).exec s.2).stored) h (along_of_forall fun _ _ => trivial)

/-! ## 6. Opening again -/

/-- Of two choices from a list, one within the other and not smaller, each has what the other
has. -/
theorem of_countP_le {α : Type} {p q : α → Bool} : ∀ {l : List α},
    (∀ x ∈ l, p x = true → q x = true) → l.countP q ≤ l.countP p → ∀ x ∈ l, q x = p x
  | [], _, _, x, hx => absurd hx List.not_mem_nil
  | y :: l, himp, hle, x, hx => by
    have himp' : ∀ x ∈ l, p x = true → q x = true :=
      fun x hx => himp x (List.mem_cons_of_mem y hx)
    have hmono : l.countP p ≤ l.countP q := List.countP_mono_left himp'
    have hhead := himp y List.mem_cons_self
    rw [List.countP_cons, List.countP_cons] at hle
    have hy : q y = p y := by
      cases hp : p y <;> cases hq : q y
      · rfl
      · simp only [hp, hq, if_true, Bool.false_eq_true, if_false] at hle
        omega
      · exact absurd (hhead hp) (by simp [hq])
      · rfl
    rcases List.mem_cons.mp hx with rfl | hx
    · exact hy
    · refine of_countP_le himp' ?_ x hx
      rw [hy] at hle
      omega

/-- Whether the owner of the container may have an item, and has not taken it. -/
def LootItem.isLeft (item : LootItem) : Bool := item.his ∧ item.taken = false

theorem Loot.left_eq (loot : Loot) : loot.left.map LootItem.content =
    (loot.items.filter LootItem.isLeft).map LootItem.content ++
      (loot.questItems.filter LootItem.isLeft).map LootItem.content := by
  rw [left, List.filter_append, List.map_append]
  rfl

/-- The items that are left are those that are kept just when each was taken with its id. -/
theorem kept_eq_isLeft_iff (loot : Loot) (item : LootItem) :
    loot.kept item.core = item.isLeft ↔
      (item.his → (item.taken ↔ loot.saved = false ∨ item.itemid ∈ loot.deleted)) := by
  have hid : item.core.1.itemid = item.itemid := rfl
  have hhis : item.core.2 = item.his := rfl
  rw [Loot.kept, LootItem.isLeft, hid, hhis]
  by_cases hmem : item.itemid ∈ loot.deleted <;> cases item.his <;> cases item.taken <;>
    cases loot.saved <;> simp [hmem]

theorem isLeft_eq_false_iff (item : LootItem) :
    item.isLeft = false ↔ (item.his → item.taken) := by
  rw [LootItem.isLeft]
  cases item.his <;> cases item.taken <;> decide

namespace Sound

/-- Quest items are not among the rows. -/
theorem quests_of_perm (h : Sound container w)
    (hperm : w.loot.rows.Perm (w.loot.left.map LootItem.content)) :
    ∀ item ∈ w.loot.questItems, item.isLeft = false := by
  intro item hitem
  by_contra hleft
  have hcontent : item.content ∈ w.loot.left.map LootItem.content := by
    rw [Loot.left_eq]
    exact List.mem_append_right _ (List.mem_map_of_mem
      (List.mem_filter.mpr ⟨hitem, (Bool.not_eq_false _).mp hleft⟩))
  obtain ⟨core, hcore, heq⟩ := mem_rows (hperm.mem_iff.mpr hcontent)
  have hquest : item.content.needsQuest = true :=
    h.quests item.core (List.mem_map_of_mem hitem)
  have hnone : item.content.needsQuest = false := heq ▸ h.items core hcore
  exact Bool.noConfusion (hquest.symm.trans hnone)

/-- **The rows of a loot are what is left of it just when it stays whole.** -/
theorem rows_perm_iff (h : Sound container w) :
    w.loot.rows.Perm (w.loot.left.map LootItem.content) ↔ StaysWhole w.loot := by
  constructor
  · intro hperm
    have hquests := h.quests_of_perm hperm
    have hnone : w.loot.questItems.filter LootItem.isLeft = [] :=
      List.filter_eq_nil_iff.mpr fun item hitem => by simp [hquests item hitem]
    rw [Loot.left_eq, hnone, List.map_nil, List.append_nil, Loot.rows_eq] at hperm
    -- What is left has its content among the rows, where no id is deleted.
    have himp : ∀ item ∈ w.loot.items, item.isLeft = true →
        w.loot.kept item.core = true := by
      intro item hitem hleft
      have hcontent := hperm.mem_iff.mpr
        (List.mem_map_of_mem (f := LootItem.content) (List.mem_filter.mpr ⟨hitem, hleft⟩))
      obtain ⟨other, hother, heq⟩ := List.mem_map.mp hcontent
      obtain ⟨hsaved, -, hid⟩ := of_decide_eq_true (List.mem_filter.mp hother).2
      have hitemid : other.core.1.itemid = item.core.1.itemid := congrArg Content.itemid heq
      exact decide_eq_true ⟨hsaved, (of_decide_eq_true hleft).1, hitemid ▸ hid⟩
    have hlength := hperm.length_eq
    rw [List.length_map, List.length_map, ← List.countP_eq_length_filter,
      ← List.countP_eq_length_filter] at hlength
    have hkept := of_countP_le himp hlength.le
    exact ⟨fun item hitem => (kept_eq_isLeft_iff w.loot item).mp (hkept item hitem),
      fun item hitem => (isLeft_eq_false_iff item).mp (hquests item hitem)⟩
  · intro hwhole
    have hnone : w.loot.questItems.filter LootItem.isLeft = [] :=
      List.filter_eq_nil_iff.mpr fun item hitem => by
        simp [(isLeft_eq_false_iff item).mpr (hwhole.quests item hitem)]
    rw [Loot.left_eq, hnone, List.map_nil, List.append_nil, Loot.rows_eq]
    rw [List.filter_congr fun item hitem =>
      (kept_eq_isLeft_iff w.loot item).mpr (hwhole.items item hitem)]

/-- What is loaded is the rows, and the gold. -/
theorem returns (h : Sound container w) :
    Returns container w ↔ StaysWhole w.loot := by
  have hgold : (itemContainerLoadLootFromDB container w.db).gold = w.loot.gold := by
    rw [itemContainerLoadLootFromDB, h.money]
    by_cases hzero : w.loot.gold = 0 <;> simp [hzero]
  have hloaded : ((itemContainerLoadLootFromDB container w.db).items ++
      (itemContainerLoadLootFromDB container w.db).questItems).map LootItem.content =
        w.loot.rows := by
    have hcores := congrArg (List.map Prod.fst) h.stored.load_items
    rw [List.map_map, List.map_map] at hcores
    rw [itemContainerLoadLootFromDB, List.append_nil, ← h.rows]
    exact hcores.trans (List.map_id _)
  rw [← h.rows_perm_iff, ← hloaded]
  exact and_iff_right hgold

end Sound

/-- Items that come in stacks of 20. -/
def plainTemplates : Templates := fun _ =>
  some ⟨20, 1, false, false, 0, 0, false, false, false, 0, false, false⟩

/-- A player who may have anything. -/
def somebody : Player where
  guid := 1
  group := none
  team := .alliance
  hasSkill := fun _ => true
  hasSpell := fun _ => false
  hasQuestStatus := fun _ => false
  hasQuestForItem := fun _ => true
  meetsConditions := fun _ => true
  canStoreNewItem := fun _ _ => true

/-- A container with one kind of item. -/
def sack : Container := ⟨7, by decide, some [⟨5, false, []⟩]⟩

/-- 40 of the item are rolled: two stacks. -/
def twoStacks : Roll := ⟨somebody, 30, [(⟨5, false, []⟩, 40)], fun _ => (0, 0)⟩

end HungerGames.ContainerLoot
