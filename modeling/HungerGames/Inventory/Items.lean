/-
# Items, bags and the slots they lie in

What a player carries lies in the slots of `m_items`: equipment, bags, backpack, bank, keyring
and currency.  A bag has slots of its own, and an item inside it is addressed by the bag's slot.

An object is told from another by its guid.  Counts are 32 bits wide.
-/
import Mathlib.Algebra.BigOperators.Group.List.Basic
import Mathlib.Algebra.GroupWithZero.Nat
import Mathlib.Order.Lattice

namespace HungerGames.Inventory

/-! ## 1. Numbers of 32 bits -/

def add32 (a b : ℕ) : ℕ := (a + b) % 4294967296

def sub32 (a b : ℕ) : ℕ := if b ≤ a then a - b else a + 4294967296 - b

theorem add32_of_lt {a b : ℕ} (h : a + b < 4294967296) : add32 a b = a + b := Nat.mod_eq_of_lt h

theorem sub32_of_le {a b : ℕ} (h : b ≤ a) : sub32 a b = a - b := if_pos h

/-! ## 2. Templates -/

/-- `InventoryResult`, as far as storing an item goes. -/
inductive InventoryResult where
  | ok
  | nonemptyBagOverOtherBag
  | itemDoesntGoIntoBag
  | cantCarryMoreOfThis
  | itemCantStack
  | itemCantBeEquipped
  | itemsCantBeSwapped
  | itemNotFound
  | canOnlyDoWithEmptyBags
  | dontOwnThatItem
  | alreadyLooted
  | inventoryFull
  | itemMaxLimitCategoryCountExceeded
  deriving DecidableEq

/-- `ItemTemplate`: what the loader has let through. -/
structure ItemTemplate where
  itemId : ℕ
  itemClass : ℕ
  subClass : ℕ
  flags : BitVec 32
  inventoryType : ℕ
  maxCount : ℤ
  stackable : ℤ
  containerSlots : ℕ
  bonding : ℕ
  bagFamily : BitVec 32
  itemLimitCategory : ℕ
  gemProperties : ℕ
  /-- `Socket[0].Color`. -/
  socketColor : ℕ
  slots_le : containerSlots ≤ 36
  maxCount_le : maxCount ≤ 2147483647
  stackable_le : stackable ≤ 2147483647

structure ItemLimitCategoryEntry where
  maxCount : ℕ
  mode : ℕ

/-- The stores that are looked up: an item template is found under its own id. -/
structure Stores where
  itemTemplate : ℕ → Option ItemTemplate
  itemTemplate_id : ∀ {entry : ℕ} {t : ItemTemplate}, itemTemplate entry = some t →
    t.itemId = entry
  itemLimitCategory : ℕ → Option ItemLimitCategoryEntry

namespace ItemTemplate

def getMaxStackSize (t : ItemTemplate) : ℕ :=
  if t.stackable = 2147483647 ∨ t.stackable ≤ 0 then 2147483646 else t.stackable.toNat

theorem getMaxStackSize_pos (t : ItemTemplate) : 0 < t.getMaxStackSize := by
  unfold getMaxStackSize
  split <;> omega

theorem getMaxStackSize_le (t : ItemTemplate) : t.getMaxStackSize ≤ 2147483646 := by
  have hle := t.stackable_le
  unfold getMaxStackSize
  split <;> omega

def inFamily (t : ItemTemplate) (mask : BitVec 32) : Bool := t.bagFamily &&& mask ≠ 0

/-- `BAG_FAMILY_MASK_KEYS`. -/
def isKey (t : ItemTemplate) : Bool := t.inFamily 0x100

def isCurrencyToken (t : ItemTemplate) : Bool := t.inFamily 0x2000

/-- `ITEM_PROTO_FLAG_BIND_TO_ACCOUNT`. -/
def isBoundAccountWide (t : ItemTemplate) : Bool := t.flags &&& 0x08000000 ≠ 0

/-- A plain bag: `ITEM_CLASS_CONTAINER` and `ITEM_SUBCLASS_CONTAINER`. -/
def isPlainBag (t : ItemTemplate) : Bool := t.itemClass = 1 ∧ t.subClass = 0

/-- The family that a bag for one family of items holds. -/
def heldFamily (t : ItemTemplate) : Option (BitVec 32) :=
  match t.itemClass, t.subClass with
  | 1, 1 => some 0x4       -- soul shards
  | 1, 2 => some 0x20      -- herbs
  | 1, 3 => some 0x40      -- enchanting
  | 1, 4 => some 0x80      -- engineering
  | 1, 5 => some 0x200     -- gems
  | 1, 6 => some 0x400     -- mining
  | 1, 7 => some 0x8       -- leatherworking
  | 1, 8 => some 0x10      -- inscription
  | 11, 2 => some 0x1      -- arrows
  | 11, 3 => some 0x2      -- bullets
  | _, _ => none

end ItemTemplate

/-- `ItemCanGoIntoBag`. -/
def itemCanGoIntoBag (pProto pBagProto : ItemTemplate) : Bool :=
  pBagProto.isPlainBag || pBagProto.heldFamily.any pProto.inFamily

/-! ## 3. Items and bags -/

structure Item where
  guid : ℕ
  entry : ℕ
  count : ℕ
  lootGenerated : Bool
  soulBound : Bool
  owner : ℕ
  /-- `ITEM_FLAG_BOP_TRADEABLE`. -/
  bopTradeable : Bool
  allowedGUIDs : List ℕ
  /-- The gems in the sockets, by item id. -/
  gems : List ℕ
  deriving DecidableEq

/-- An item, with what its slots hold when it is a bag. -/
structure ItemOrBag where
  item : Item
  bagslot : ℕ → Option Item

structure Player where
  guid : ℕ
  items : ℕ → Option ItemOrBag

/-- `pos >> 8` and `pos & 255` of a position. -/
structure Position where
  bag : ℕ
  slot : ℕ
  deriving DecidableEq

def nullBag : ℕ := 0
def nullSlot : ℕ := 255
def inventorySlotBag0 : ℕ := 255

/-- `EQUIPMENT_SLOT_START` to `INVENTORY_SLOT_ITEM_END`. -/
def carriedSlots : List ℕ := List.range 39
/-- `INVENTORY_SLOT_BAG_START` to `INVENTORY_SLOT_BAG_END`. -/
def bagSlots : List ℕ := List.range' 19 4
/-- `INVENTORY_SLOT_ITEM_START` to `INVENTORY_SLOT_ITEM_END`. -/
def packSlots : List ℕ := List.range' 23 16
/-- `BANK_SLOT_ITEM_START` to `BANK_SLOT_ITEM_END`. -/
def bankSlots : List ℕ := List.range' 39 28
/-- `BANK_SLOT_BAG_START` to `BANK_SLOT_BAG_END`. -/
def bankBagSlots : List ℕ := List.range' 67 7
/-- `KEYRING_SLOT_START` to `KEYRING_SLOT_START + GetMaxKeyringSize()`. -/
def keyringSlots : List ℕ := List.range' 86 32
/-- `CURRENCYTOKEN_SLOT_START` to `CURRENCYTOKEN_SLOT_END`. -/
def currencySlots : List ℕ := List.range' 118 32
/-- `KEYRING_SLOT_START` to `CURRENCYTOKEN_SLOT_END`. -/
def ringAndCurrencySlots : List ℕ := List.range' 86 64

/-- The slots of `m_items` that `GetItemByPos` reads. -/
def isOwnSlot (slot : ℕ) : Bool := slot < 74 ∨ (86 ≤ slot ∧ slot < 150)

/-- The slots that bags are worn in, in the bank also. -/
def isBagSlot (slot : ℕ) : Bool := (19 ≤ slot ∧ slot < 23) ∨ (67 ≤ slot ∧ slot < 74)

def isBagPos (pos : Position) : Bool := pos.bag = inventorySlotBag0 ∧ isBagSlot pos.slot

variable (S : Stores)

/-- `INVTYPE_BAG`. -/
def Item.isBag (i : Item) : Bool := (S.itemTemplate i.entry).any (·.inventoryType = 18)

namespace ItemOrBag

def getBagSize (b : ItemOrBag) : ℕ :=
  ((S.itemTemplate b.item.entry).map (·.containerSlots)).getD 0

def getItemByPos (b : ItemOrBag) (slot : ℕ) : Option Item :=
  if slot < b.getBagSize S then b.bagslot slot else none

/-- What lies in a bag. -/
def contents (b : ItemOrBag) : List Item := (List.range (b.getBagSize S)).filterMap b.bagslot

def isEmpty (b : ItemOrBag) : Bool := (List.range (b.getBagSize S)).all (b.bagslot · = none)

def isNotEmptyBag (b : ItemOrBag) : Bool := b.item.isBag S && !b.isEmpty S

end ItemOrBag

namespace Player

def getBagByPos (pl : Player) (bag : ℕ) : Option ItemOrBag :=
  if isBagSlot bag then (pl.items bag).filter (·.item.isBag S) else none

def getItemByPos (pl : Player) (pos : Position) : Option Item :=
  if pos.bag = inventorySlotBag0 ∧ isOwnSlot pos.slot then (pl.items pos.slot).map (·.item)
  else (pl.getBagByPos S pos.bag).bind (·.getItemByPos S pos.slot)

/-- The items of some slots of `m_items`. -/
def itemsIn (pl : Player) (slots : List ℕ) : List Item :=
  slots.filterMap fun slot => (pl.items slot).map (·.item)

/-- The bags of some slots of `m_items`. -/
def bagsIn (pl : Player) (slots : List ℕ) : List ItemOrBag := slots.filterMap (pl.getBagByPos S)

end Player

/-! ## 4. Counting what a player has -/

/-- An item is the one that is skipped. -/
def isSkipped (skipItem : Option ItemOrBag) (i : Item) : Bool :=
  skipItem.any (·.item.guid = i.guid)

def unitsOf (item : ℕ) (skipItem : Option ItemOrBag) (i : Item) : ℕ :=
  if !isSkipped skipItem i ∧ i.entry = item then i.count else 0

/-- `GetGemCountWithID`, asked only when the skipped item is a gem and the item has sockets. -/
def gemsOf (item : ℕ) (skipItem : Option ItemOrBag) (i : Item) : ℕ :=
  if skipItem.any (fun s => (S.itemTemplate s.item.entry).any (·.gemProperties ≠ 0)) ∧
      !isSkipped skipItem i ∧ (S.itemTemplate i.entry).any (·.socketColor ≠ 0) then
    i.gems.count item
  else 0

def unitsOfCategory (limitCategory : ℕ) (skipItem : Option ItemOrBag) (i : Item) : ℕ :=
  if !isSkipped skipItem i ∧ (S.itemTemplate i.entry).any (·.itemLimitCategory = limitCategory)
  then i.count else 0

def total (f : Item → ℕ) (items : List Item) : ℕ := (items.map f).sum

def ItemOrBag.getItemCount (b : ItemOrBag) (item : ℕ) (skipItem : Option ItemOrBag) : ℕ :=
  total (unitsOf item skipItem) (b.contents S) + total (gemsOf S item skipItem) (b.contents S)

def ItemOrBag.getItemCountWithLimitCategory (b : ItemOrBag) (limitCategory : ℕ)
    (skipItem : Option ItemOrBag) : ℕ :=
  total (unitsOfCategory S limitCategory skipItem) (b.contents S)

namespace Player

def getItemCount (pl : Player) (item : ℕ) (inBankAlso : Bool) (skipItem : Option ItemOrBag) : ℕ :=
  let units := fun slots => total (unitsOf item skipItem) (pl.itemsIn slots)
  let gems := fun slots => total (gemsOf S item skipItem) (pl.itemsIn slots)
  let inBags := fun slots => ((pl.bagsIn S slots).map (·.getItemCount S item skipItem)).sum
  (units carriedSlots + units (keyringSlots ++ currencySlots) + inBags bagSlots
    + gems carriedSlots
    + if inBankAlso then units (bankSlots ++ bankBagSlots) + inBags bankBagSlots + gems bankSlots
      else 0) % 4294967296

def getItemCountWithLimitCategory (pl : Player) (limitCategory : ℕ)
    (skipItem : Option ItemOrBag) : ℕ :=
  let units := fun slots => total (unitsOfCategory S limitCategory skipItem) (pl.itemsIn slots)
  let inBags := fun slots =>
    ((pl.bagsIn S slots).map (·.getItemCountWithLimitCategory S limitCategory skipItem)).sum
  (units carriedSlots + units (keyringSlots ++ currencySlots) + inBags bagSlots
    + units (bankSlots ++ bankBagSlots) + inBags bankBagSlots) % 4294967296

end Player

/-! ## 5. Reading a slot -/

namespace Player

variable {S} {pl : Player}

theorem getItemByPos_own {slot : ℕ} (h : isOwnSlot slot) :
    pl.getItemByPos S ⟨inventorySlotBag0, slot⟩ = (pl.items slot).map (·.item) :=
  if_pos ⟨rfl, h⟩

theorem getBagByPos_eq_some {bag : ℕ} {b : ItemOrBag} : pl.getBagByPos S bag = some b ↔
    isBagSlot bag ∧ pl.items bag = some b ∧ b.item.isBag S := by
  unfold getBagByPos
  by_cases h : isBagSlot bag
  · rw [if_pos h, Option.filter_eq_some_iff]
    exact ⟨fun hb => ⟨h, hb⟩, fun hb => hb.2⟩
  · rw [if_neg h]
    exact iff_of_false (Option.some_ne_none b).symm fun hb => h hb.1

theorem isBagSlot_lt {slot : ℕ} (h : isBagSlot slot) : slot < 74 := by
  unfold isBagSlot at h
  simp only [decide_eq_true_eq] at h
  omega

theorem getBagByPos_bag0 : pl.getBagByPos S inventorySlotBag0 = none := by
  exact if_neg (by decide)

/-- Below a bag slot, a position is read from the bag. -/
theorem getItemByPos_bag {bag : ℕ} {b : ItemOrBag} (hb : pl.getBagByPos S bag = some b) (slot : ℕ) :
    pl.getItemByPos S ⟨bag, slot⟩ = b.getItemByPos S slot := by
  have hne : bag ≠ inventorySlotBag0 := by
    rintro rfl
    rw [getBagByPos_bag0] at hb
    cases hb
  unfold getItemByPos
  rw [if_neg fun h => hne h.1, hb]
  rfl

end Player

end HungerGames.Inventory
