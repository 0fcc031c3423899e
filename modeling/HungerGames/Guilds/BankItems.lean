/-
# Items between the bank and a player

`_MoveItems` takes an item from a slot of the bank, or from the bags of a player, and puts it
somewhere else: beside what is there, in several slots where one does not have the room, or in
place of another item, which goes the other way.  A part of a stack is moved as a copy.

Where there is room is found out before anything is taken away (`CanStore`), and what was found
is used after (`StoreItem`), where nothing can be undone.  The item that moves is not seen where
it lies: its own slot counts as empty, unless the item is a copy.

Nothing is lost on the way, and nothing is there twice.  How a player finds room in his bags is
code of its own: `Inventory` has what is called of it, and `Conserves` what is relied on.
-/
import HungerGames.Guilds.BankLimits
import Mathlib.Algebra.BigOperators.Group.Finset.Basic

namespace HungerGames.Guilds

/-! ## 1. Items and where they lie -/

/-- `GUILD_BANK_MAX_SLOTS` -/
def guildBankMaxSlots : ℕ := 98

/-- `NULL_SLOT` -/
def nullSlot : ℕ := 255

/-- Two items are the same object if they have the same `guid`.  No count goes beyond the size of
a stack, so that it stays a `uint32`. -/
structure Item where
  guid : ℕ
  entry : ℕ
  count : ℕ
  soulBound : Bool
deriving DecidableEq

/-- `GetMaxStackSize`, of the `Stackable` of the template. -/
def getMaxStackSize (stackable : ℤ) : ℕ :=
  if stackable = 2147483647 ∨ stackable ≤ 0 then 0x7FFFFFFF - 1 else stackable.toNat

structure ItemPosCount where
  pos : ℕ
  count : ℕ
deriving DecidableEq

/-- The results of `InventoryResult` that the bank has, and those of the bags of a player. -/
inductive InventoryResult where
  | cantDropSoulbound
  | itemDoesntGoIntoBag
  | itemCantStack
  | bankFull
  | player (code : ℕ)
deriving DecidableEq

/-- What the bank calls of a player's inventory, at a bag and a slot of it.  What is moved there
may be stored in parts, which take new `guid`s.  `total` is how many there are of an entry. -/
structure Inventory (σ : Type) where
  getItemByPos : σ → ℕ → ℕ → Option Item
  isNotEmptyBag : σ → Item → Bool
  canBeTraded : σ → Item → Bool
  setCount : σ → ℕ → ℕ → ℕ → σ
  moveItemFromInventory : σ → ℕ → ℕ → σ
  canStoreItem : σ → ℕ → ℕ → Item → Bool → Except InventoryResult (List ItemPosCount)
  moveItemToInventory : σ → List ItemPosCount → Item → ℕ → σ × ℕ
  total : σ → ℕ → ℕ

/-- The items of a guild's bank by tab and slot, the bags of a player, and the next `guid`. -/
structure Vault (σ : Type) where
  guild : Guild
  items : ℕ × ℕ → Option Item
  bags : σ
  nextGuid : ℕ

/-- `MoveItemData`: a tab and a slot, or a bag and a slot. -/
inductive Side where
  | bank (tabId slotId : ℕ)
  | player (bag slotId : ℕ)
deriving DecidableEq

def Side.place : Side → Guild.Place
  | .bank tabId _ => .tab tabId
  | .player _ _ => .inventory

/-- `CheckItem`: all that is there is not a part of it. -/
def checkItem (item : Item) (splitedAmount : ℕ) : Option ℕ :=
  if item.count < splitedAmount then none
  else if splitedAmount = item.count then some 0
  else some splitedAmount

namespace Vault

variable {σ : Type} (I : Inventory σ) (stackable : ℕ → ℤ) (v : Vault σ)

/-- `_GetItem` -/
def getItem (tabId slotId : ℕ) : Option Item :=
  if tabId < v.guild.bankTabs.length ∧ slotId < guildBankMaxSlots then v.items (tabId, slotId)
  else none

/-- `SetItem` of the tab: `false`, and nothing, when there is no such slot. -/
def setItem (tabId slotId : ℕ) (item : Option Item) : Vault σ :=
  if guildBankMaxSlots ≤ slotId then v
  else { v with items := Function.update v.items (tabId, slotId) item }

/-- `InitItem` -/
def initItem : Side → Option Item
  | .bank tabId slotId => v.getItem tabId slotId
  | .player bag slotId =>
    (I.getItemByPos v.bags bag slotId).filter fun item =>
      ¬ I.isNotEmptyBag v.bags item ∧ I.canBeTraded v.bags item

/-- `Item::CloneItem` -/
def cloneItem (item : Item) (count : ℕ) : Option (Item × Vault σ) :=
  if count < 1 then none
  else some ({ item with guid := v.nextGuid, count := min count (getMaxStackSize (stackable item.entry)) },
    { v with nextGuid := v.nextGuid + 1 })

/-! ## 2. Room in the bank -/

/-- `m_vec`, and how many are still to be stored. -/
structure Reserved where
  vec : List ItemPosCount
  count : ℕ

/-- `_ReserveSpace`: a slot that is in the list already is passed over. -/
def reserveSpace (slotId : ℕ) (item : Item) (destItem : Option Item) (r : Reserved) :
    Option Reserved :=
  let maxStack := getMaxStackSize (stackable item.entry)
  if destItem.any fun dest => dest.entry ≠ item.entry ∨ maxStack ≤ dest.count then none
  else
    let requiredSpace := min (maxStack - destItem.elim 0 Item.count) r.count
    if slotId ∈ r.vec.map ItemPosCount.pos then some r
    else some ⟨r.vec ++ [⟨slotId, requiredSpace⟩], r.count - requiredSpace⟩

/-- What is seen in a slot, of an item that is to be stored: not the item itself. -/
def seen (tabId slotId : ℕ) (item : Item) : Option Item :=
  (v.getItem tabId slotId).filter fun dest => dest.guid ≠ item.guid

/-- `CanStoreItemInTab`: the stacks, or the empty slots, one after the other. -/
def canStoreItemInTab (tabId : ℕ) (item : Item) (skipSlotId : ℕ) (merge : Bool) (r : Reserved) :
    Reserved :=
  (List.range guildBankMaxSlots).foldl
    (fun r slotId =>
      if r.count = 0 ∨ slotId = skipSlotId then r
      else if (v.seen tabId slotId item).isSome ≠ merge then r
      else (reserveSpace stackable slotId item (v.seen tabId slotId item) r).getD r) r

/-- The slot that is specified, if one is. -/
def reserveSlot (tabId slotId : ℕ) (item : Item) (swap : Bool) : Option Reserved :=
  if slotId = nullSlot then some ⟨[], item.count⟩
  else reserveSpace stackable slotId item (if swap then none else v.seen tabId slotId item)
    ⟨[], item.count⟩

/-- `CanStore` of the bank. -/
def canStoreInBank (tabId slotId : ℕ) (item : Item) (swap : Bool) :
    Except InventoryResult (List ItemPosCount) :=
  if item.soulBound then .error .cantDropSoulbound
  else if v.guild.bankTabs.length ≤ tabId then .error .itemDoesntGoIntoBag
  else match v.reserveSlot stackable tabId slotId item swap with
    | none => .error .itemCantStack
    | some r =>
      let r :=
        if 1 < getMaxStackSize (stackable item.entry) then
          v.canStoreItemInTab stackable tabId item slotId true r
        else r
      let r := v.canStoreItemInTab stackable tabId item slotId false r
      if r.count = 0 then .ok r.vec else .error .bankFull

def canStore (side : Side) (item : Item) (swap : Bool) :
    Except InventoryResult (List ItemPosCount) :=
  match side with
  | .bank tabId slotId => v.canStoreInBank stackable tabId slotId item swap
  | .player bag slotId => I.canStoreItem v.bags bag slotId item swap

/-! ## 3. Removing and storing -/

/-- `RemoveItem`: a part of `item`, or all of it.  In the bank it is counted, unless it stays in
its tab. -/
def removeItem (player : ℕ) (side other : Side) (item : Item) (splitedAmount : ℕ) : Vault σ :=
  match side with
  | .bank tabId slotId =>
    let rest := if splitedAmount = 0 then none
      else some { item with count := item.count - splitedAmount }
    { v.setItem tabId slotId rest with
      guild := v.guild.removeItem player side.place other.place }
  | .player bag slotId =>
    { v with
      bags := if splitedAmount = 0 then I.moveItemFromInventory v.bags bag slotId
        else I.setCount v.bags bag slotId (item.count - splitedAmount) }

/-- `_StoreItem` -/
def storeItemAt (tabId : ℕ) (item : Item) (pos : ItemPosCount) (clone : Bool) : Vault σ :=
  match v.getItem tabId pos.pos with
  | some dest => v.setItem tabId pos.pos (some { dest with count := dest.count + pos.count })
  | none =>
    if clone then
      match v.cloneItem stackable item pos.count with
      | some (item, v) => v.setItem tabId pos.pos (some item)
      | none => v
    else v.setItem tabId pos.pos (some { item with count := pos.count })

/-- The loop of `StoreItem`: all but the last get a copy. -/
def storeItems (tabId : ℕ) (item : Item) : List ItemPosCount → Vault σ → Vault σ
  | [], v => v
  | pos :: vec, v => storeItems tabId item vec (v.storeItemAt stackable tabId item pos (vec ≠ []))

/-- `StoreItem` -/
def storeItem (side : Side) (vec : List ItemPosCount) (item : Item) : Vault σ :=
  match side with
  | .bank tabId _ =>
    if tabId < v.guild.bankTabs.length then storeItems stackable tabId item vec v else v
  | .player _ _ =>
    let stored := I.moveItemToInventory v.bags vec item v.nextGuid
    { v with bags := stored.1, nextGuid := stored.2 }

/-! ## 4. Moving -/

/-- `_DoItemsMove`, of `srcItem`, which is a copy if only a part is moved. -/
def doItemsMove (player : ℕ) (src dest : Side) (item srcItem : Item) (destItem : Option Item)
    (splitedAmount : ℕ) : Except InventoryResult (Vault σ) := do
  let vec ← v.canStore I stackable dest srcItem destItem.isSome
  match destItem with
  | none =>
    let v := v.removeItem I player src dest item splitedAmount
    return v.storeItem I stackable dest vec srcItem
  | some destItem =>
    let vec' ← v.canStore I stackable src destItem true
    let v := v.removeItem I player src dest item splitedAmount
    let v := v.removeItem I player dest src destItem 0
    let v := v.storeItem I stackable dest vec srcItem
    return v.storeItem I stackable src vec' destItem

/-- Why nothing is moved. -/
inductive Refusal where
  | noSlot
  | noItem
  | splitTooLarge
  | noRights
  | notCloned
  | noRoom (msg : InventoryResult)
deriving DecidableEq

/-- `_MoveItems` when all of `srcItem` is to be moved: beside what is there, or in its place. -/
def moveWhole (player : ℕ) (src dest : Side) (srcItem : Item) : Option Refusal × Vault σ :=
  match v.doItemsMove I stackable player src dest srcItem srcItem none 0 with
  | .ok v' => (none, v')
  | .error _ =>
    match v.initItem I dest with
    | none => (some .noItem, v)
    | some destItem =>
      if ¬ v.guild.hasStoreRights player src.place dest.place ∨
          ¬ v.guild.hasWithdrawRights player dest.place src.place then (some .noRights, v)
      else
        match v.doItemsMove I stackable player src dest srcItem srcItem (some destItem) 0 with
        | .ok v' => (none, v')
        | .error msg => (some (.noRoom msg), v)

/-- `_MoveItems` when a part of `srcItem` is to be moved. -/
def movePart (player : ℕ) (src dest : Side) (srcItem : Item) (splitedAmount : ℕ) :
    Option Refusal × Vault σ :=
  match v.cloneItem stackable srcItem splitedAmount with
  | none => (some .notCloned, v)
  | some (clone, v) =>
    match v.doItemsMove I stackable player src dest srcItem clone none splitedAmount with
    | .ok v' => (none, v')
    | .error msg => (some (.noRoom msg), v)

/-- `_MoveItems` -/
def moveItems (player : ℕ) (src dest : Side) (splitedAmount : ℕ) : Option Refusal × Vault σ :=
  match v.initItem I src with
  | none => (some .noItem, v)
  | some srcItem =>
    match checkItem srcItem splitedAmount with
    | none => (some .splitTooLarge, v)
    | some splitedAmount =>
      if ¬ v.guild.hasStoreRights player dest.place src.place ∨
          ¬ v.guild.hasWithdrawRights player src.place dest.place then (some .noRights, v)
      else if splitedAmount ≠ 0 then v.movePart I stackable player src dest srcItem splitedAmount
      else v.moveWhole I stackable player src dest srcItem

/-- `SwapItems` -/
def swapItems (player tabId slotId destTabId destSlotId splitedAmount : ℕ) :
    Option Refusal × Vault σ :=
  let tabs := v.guild.bankTabs.length
  if tabs ≤ tabId ∨ guildBankMaxSlots ≤ slotId ∨ tabs ≤ destTabId ∨
      guildBankMaxSlots ≤ destSlotId then (some .noSlot, v)
  else if tabId = destTabId ∧ slotId = destSlotId then (some .noSlot, v)
  else v.moveItems I stackable player (.bank tabId slotId) (.bank destTabId destSlotId)
    splitedAmount

/-- `SwapItemsWithInventory` -/
def swapItemsWithInventory (player : ℕ) (toChar : Bool)
    (tabId slotId playerBag playerSlotId splitedAmount : ℕ) : Option Refusal × Vault σ :=
  if (guildBankMaxSlots ≤ slotId ∧ slotId ≠ nullSlot) ∨ v.guild.bankTabs.length ≤ tabId then
    (some .noSlot, v)
  else
    let bankData : Side := .bank tabId slotId
    let charData : Side := .player playerBag playerSlotId
    if toChar then v.moveItems I stackable player bankData charData splitedAmount
    else v.moveItems I stackable player charData bankData splitedAmount

end Vault

/-! ## 5. What is kept -/

/-- How many of an entry there are in a slot. -/
def amount (entry : ℕ) : Option Item → ℕ
  | none => 0
  | some item => if item.entry = entry then item.count else 0

namespace Vault

variable {σ : Type}

/-- How many of an entry there are, in the bank and in the bags. -/
def total (I : Inventory σ) (v : Vault σ) (entry : ℕ) : ℕ :=
  ∑ p ∈ Finset.range v.guild.bankTabs.length ×ˢ Finset.range guildBankMaxSlots,
    amount entry (v.items p) + I.total v.bags entry

/-- No stack of the bank is empty or too large, no item is in two slots, and no item of it has a
`guid` that is still to be given. -/
structure Stocked (stackable : ℕ → ℤ) (v : Vault σ) : Prop where
  stack : ∀ tabId slotId, ∀ x ∈ v.getItem tabId slotId,
    0 < x.count ∧ x.count ≤ getMaxStackSize (stackable x.entry)
  unique : ∀ tabId slotId tabId' slotId', ∀ x ∈ v.getItem tabId slotId,
    ∀ x' ∈ v.getItem tabId' slotId', x.guid = x'.guid → tabId = tabId' ∧ slotId = slotId'
  known : ∀ tabId slotId, ∀ x ∈ v.getItem tabId slotId, x.guid < v.nextGuid

/-- No item of the bank has the `guid`. -/
def Lacks (v : Vault σ) (guid : ℕ) : Prop :=
  ∀ tabId slotId, ∀ x ∈ v.getItem tabId slotId, x.guid ≠ guid

/-- What the player carries at a bag and a slot is a stack like those of the bank, and is not in
the bank. -/
def Carried (I : Inventory σ) (stackable : ℕ → ℤ) (v : Vault σ) : Prop :=
  ∀ bag slotId, ∀ x ∈ I.getItemByPos v.bags bag slotId,
    (0 < x.count ∧ x.count ≤ getMaxStackSize (stackable x.entry)) ∧
      v.Lacks x.guid ∧ x.guid < v.nextGuid

end Vault

/-- The law of the bank for a player's inventory: what is taken out of it, wholly or in part, is
what it has less, and what it has found room for is what it has more. -/
structure Inventory.Conserves {σ : Type} (I : Inventory σ) : Prop where
  remove : ∀ s bag slotId item, I.getItemByPos s bag slotId = some item → ∀ entry,
    I.total (I.moveItemFromInventory s bag slotId) entry + amount entry (some item) =
      I.total s entry
  split : ∀ s bag slotId item n, I.getItemByPos s bag slotId = some item → n < item.count →
    ∀ entry, I.total (I.setCount s bag slotId (item.count - n)) entry +
      amount entry (some { item with count := n }) = I.total s entry
  store : ∀ s bag slotId item vec guid, I.canStoreItem s bag slotId item false = .ok vec →
    ∀ entry, I.total (I.moveItemToInventory s vec item guid).1 entry =
      I.total s entry + amount entry (some item)
  swap : ∀ s bag slotId item vec guid, I.canStoreItem s bag slotId item true = .ok vec →
    ∀ entry, I.total
        (I.moveItemToInventory (I.moveItemFromInventory s bag slotId) vec item guid).1 entry =
      I.total (I.moveItemFromInventory s bag slotId) entry + amount entry (some item)
  newGuids : ∀ s vec item guid, guid ≤ (I.moveItemToInventory s vec item guid).2

/-! ## 6. Slots -/

theorem getMaxStackSize_pos (stackable : ℤ) : 0 < getMaxStackSize stackable := by
  unfold getMaxStackSize
  split
  · decide
  · omega

theorem amount_add (entry : ℕ) (item : Item) (m n : ℕ) :
    amount entry (some { item with count := m + n }) =
      amount entry (some { item with count := m }) +
        amount entry (some { item with count := n }) := by
  unfold amount
  dsimp only
  split <;> rfl

theorem amount_zero (entry : ℕ) (item : Item) :
    amount entry (some { item with count := 0 }) = 0 := ite_self 0

namespace Vault

variable {σ : Type} {I : Inventory σ} {stackable : ℕ → ℤ} {v v' : Vault σ}

variable {slotId tabId : ℕ}

theorem getItem_some {x : Item} (h : v.getItem tabId slotId = some x) :
    tabId < v.guild.bankTabs.length ∧ slotId < guildBankMaxSlots := by
  unfold getItem at h
  split at h
  · assumption
  · nomatch h

@[simp] theorem guild_setItem (tabId slotId : ℕ) (x : Option Item) :
    (v.setItem tabId slotId x).guild = v.guild := by
  unfold setItem
  split <;> rfl

@[simp] theorem bags_setItem (tabId slotId : ℕ) (x : Option Item) :
    (v.setItem tabId slotId x).bags = v.bags := by
  unfold setItem
  split <;> rfl

@[simp] theorem nextGuid_setItem (tabId slotId : ℕ) (x : Option Item) :
    (v.setItem tabId slotId x).nextGuid = v.nextGuid := by
  unfold setItem
  split <;> rfl

/-- What is in the slots after one of them was set. -/
theorem getItem_setItem (htab : tabId < v.guild.bankTabs.length)
    (hslot : slotId < guildBankMaxSlots) (x : Option Item) (t s : ℕ) :
    (v.setItem tabId slotId x).getItem t s =
      if t = tabId ∧ s = slotId then x else v.getItem t s := by
  unfold setItem getItem
  rw [if_neg (Nat.not_le_of_lt hslot)]
  dsimp only
  by_cases heq : t = tabId ∧ s = slotId
  · obtain ⟨rfl, rfl⟩ := heq
    rw [if_pos ⟨htab, hslot⟩, if_pos ⟨rfl, rfl⟩, Function.update_self]
  · rw [if_neg heq, Function.update_of_ne fun h => heq (Prod.mk.inj h)]

theorem total_setItem (htab : tabId < v.guild.bankTabs.length) (hslot : slotId < guildBankMaxSlots)
    (x : Option Item) (entry : ℕ) :
    (v.setItem tabId slotId x).total I entry + amount entry (v.getItem tabId slotId) =
      v.total I entry + amount entry x := by
  have hmem : (tabId, slotId) ∈
      Finset.range v.guild.bankTabs.length ×ˢ Finset.range guildBankMaxSlots :=
    Finset.mem_product.mpr ⟨Finset.mem_range.mpr htab, Finset.mem_range.mpr hslot⟩
  have hold : v.getItem tabId slotId = v.items (tabId, slotId) := if_pos ⟨htab, hslot⟩
  unfold total setItem
  rw [if_neg (Nat.not_le_of_lt hslot), hold]
  dsimp only
  rw [← Finset.add_sum_erase _ _ hmem, ← Finset.add_sum_erase _ (fun p => amount entry (v.items p)) hmem,
    Function.update_self]
  have hrest : ∑ p ∈ (Finset.range v.guild.bankTabs.length ×ˢ
        Finset.range guildBankMaxSlots).erase (tabId, slotId),
      amount entry (Function.update v.items (tabId, slotId) x p) =
      ∑ p ∈ (Finset.range v.guild.bankTabs.length ×ˢ
        Finset.range guildBankMaxSlots).erase (tabId, slotId), amount entry (v.items p) :=
    Finset.sum_congr rfl fun p hp => by
      rw [Function.update_of_ne (Finset.ne_of_mem_erase hp)]
  rw [hrest]
  omega

theorem Stocked.of_getItem (h : v.Stocked stackable)
    (hitems : ∀ t s, v'.getItem t s = v.getItem t s) (hnext : v.nextGuid ≤ v'.nextGuid) :
    v'.Stocked stackable := by
  refine ⟨fun t s x hx => ?_, fun t s t' s' x hx x' hx' => ?_, fun t s x hx => ?_⟩
  · rw [hitems] at hx
    exact h.stack t s x hx
  · rw [hitems] at hx hx'
    exact h.unique t s t' s' x hx x' hx'
  · rw [hitems] at hx
    exact (h.known t s x hx).trans_le hnext

/-- A slot may be set to a stack that is nowhere else. -/
theorem Stocked.setItem (h : v.Stocked stackable) (htab : tabId < v.guild.bankTabs.length)
    (hslot : slotId < guildBankMaxSlots) {x : Option Item}
    (hx : ∀ y ∈ x, (0 < y.count ∧ y.count ≤ getMaxStackSize (stackable y.entry)) ∧
      y.guid < v.nextGuid ∧
      ∀ t s, ∀ z ∈ v.getItem t s, z.guid = y.guid → t = tabId ∧ s = slotId) :
    (v.setItem tabId slotId x).Stocked stackable := by
  refine ⟨fun t s y hy => ?_, fun t s t' s' y hy y' hy' heq => ?_, fun t s y hy => ?_⟩
  · rw [getItem_setItem htab hslot] at hy
    split at hy
    · exact (hx y hy).1
    · exact h.stack t s y hy
  · rw [getItem_setItem htab hslot] at hy hy'
    split at hy <;> split at hy'
    · rename_i hat hat'
      exact ⟨hat.1.trans hat'.1.symm, hat.2.trans hat'.2.symm⟩
    · rename_i hat _
      obtain ⟨ht, hs⟩ := (hx y hy).2.2 t' s' y' hy' heq.symm
      exact ⟨hat.1.trans ht.symm, hat.2.trans hs.symm⟩
    · rename_i _ hat'
      obtain ⟨ht, hs⟩ := (hx y' hy').2.2 t s y hy heq
      exact ⟨ht.trans hat'.1.symm, hs.trans hat'.2.symm⟩
    · exact h.unique t s t' s' y hy y' hy' heq
  · rw [getItem_setItem htab hslot] at hy
    rw [nextGuid_setItem]
    split at hy
    · exact (hx y hy).2.1
    · exact h.known t s y hy

/-! ## 7. What was found has room -/

/-- `vec` has room for its counts of `item` in a tab with these slots. -/
structure Fits (maxStack : ℕ) (slots : ℕ → Option Item) (item : Item) (vec : List ItemPosCount) :
    Prop where
  nodup : (vec.map ItemPosCount.pos).Nodup
  room : ∀ p ∈ vec, p.pos < guildBankMaxSlots ∧ 0 < p.count ∧ p.count ≤ maxStack ∧
    ∀ d ∈ slots p.pos, d.entry = item.entry ∧ d.count + p.count ≤ maxStack

variable {item : Item} {slots : ℕ → Option Item} {vec : List ItemPosCount}

/-- What is there when the items are stored may be less than what was seen. -/
theorem Fits.of_less {maxStack : ℕ} {slots' : ℕ → Option Item} (h : Fits maxStack slots item vec)
    (hless : ∀ s, ∀ d' ∈ slots' s, ∃ d ∈ slots s, d.entry = d'.entry ∧ d'.count ≤ d.count) :
    Fits maxStack slots' item vec := by
  refine ⟨h.nodup, fun p hp => ?_⟩
  obtain ⟨hslot, hpos, hle, hroom⟩ := h.room p hp
  refine ⟨hslot, hpos, hle, fun d' hd' => ?_⟩
  obtain ⟨d, hd, hentry, hcount⟩ := hless p.pos d' hd'
  obtain ⟨hsame, hsum⟩ := hroom d hd
  exact ⟨hentry.symm.trans hsame, by omega⟩

/-- What is reserved so far, and how many are left. -/
def Planned (maxStack : ℕ) (slots : ℕ → Option Item) (item : Item) (r : Reserved) : Prop :=
  Fits maxStack slots item r.vec ∧ (r.vec.map ItemPosCount.count).sum + r.count = item.count

theorem planned_nil (maxStack : ℕ) (slots : ℕ → Option Item) (item : Item) :
    Planned maxStack slots item ⟨[], item.count⟩ :=
  ⟨⟨List.nodup_nil, fun _ hp => absurd hp List.not_mem_nil⟩, Nat.zero_add _⟩

theorem Planned.reserveSpace {r r' : Reserved}
    (h : Planned (getMaxStackSize (stackable item.entry)) slots item r)
    (hslot : slotId < guildBankMaxSlots) (hcount : 0 < r.count)
    (hr' : Vault.reserveSpace stackable slotId item (slots slotId) r = some r') :
    Planned (getMaxStackSize (stackable item.entry)) slots item r' := by
  have hmax := getMaxStackSize_pos (stackable item.entry)
  unfold Vault.reserveSpace at hr'
  dsimp only at hr'
  split at hr'
  · nomatch hr'
  rename_i hdest
  split at hr'
  · exact Option.some.inj hr' ▸ h
  rename_i hnew
  obtain rfl := Option.some.inj hr'
  obtain ⟨⟨hnodup, hroom⟩, hsum⟩ := h
  refine ⟨⟨?_, fun p hp => ?_⟩, ?_⟩
  · rw [List.map_append, List.nodup_append]
    refine ⟨hnodup, List.nodup_singleton _, fun a ha b hb => ?_⟩
    rw [List.mem_singleton.mp hb]
    intro heq
    have hpos : a = slotId := heq
    exact hnew (hpos ▸ ha)
  · rcases List.mem_append.mp hp with hp | hp
    · exact hroom p hp
    · rw [List.mem_singleton.mp hp]
      dsimp only
      cases hd : slots slotId with
      | none =>
        rw [Option.elim_none]
        exact ⟨hslot, by omega, by omega, fun _ h => nomatch h⟩
      | some d =>
        rw [hd, Option.any_some, decide_eq_true_iff, not_or, not_not, Nat.not_le] at hdest
        rw [Option.elim_some]
        refine ⟨hslot, by omega, by omega, ?_⟩
        rintro _ ⟨⟩
        exact ⟨hdest.1, by omega⟩
  · rw [List.map_append, List.sum_append]
    simp only [List.map_cons, List.map_nil, List.sum_singleton]
    omega

theorem Planned.canStoreItemInTab {r : Reserved} {skipSlotId : ℕ} (merge : Bool)
    (hslots : ∀ s, s ≠ skipSlotId → slots s = v.seen tabId s item)
    (h : Planned (getMaxStackSize (stackable item.entry)) slots item r) :
    Planned (getMaxStackSize (stackable item.entry)) slots item
      (v.canStoreItemInTab stackable tabId item skipSlotId merge r) := by
  refine List.foldlRecOn _ _ h fun r h s hs => ?_
  have hslot := List.mem_range.mp hs
  split
  · exact h
  rename_i hgo
  obtain ⟨hcount, hskip⟩ := not_or.mp hgo
  split
  · exact h
  rw [← hslots s hskip]
  cases hr' : Vault.reserveSpace stackable s item (slots s) r with
  | none => exact h
  | some r' => exact h.reserveSpace hslot (Nat.pos_of_ne_zero hcount) hr'

/-- What `CanStore` sees of a tab: a slot that is swapped counts as empty. -/
def slotsSeen (v : Vault σ) (tabId slotId : ℕ) (item : Item) (swap : Bool) (s : ℕ) :
    Option Item :=
  if swap ∧ s = slotId then none else v.seen tabId s item

/-- **What `CanStore` finds has room for all of the item.** -/
theorem fits_of_canStore {swap : Bool} (hslot : slotId < guildBankMaxSlots ∨ slotId = nullSlot)
    (hcount : 0 < item.count) (h : v.canStoreInBank stackable tabId slotId item swap = .ok vec) :
    tabId < v.guild.bankTabs.length ∧
      Fits (getMaxStackSize (stackable item.entry)) (v.slotsSeen tabId slotId item swap) item vec ∧
      (vec.map ItemPosCount.count).sum = item.count := by
  have hslots : ∀ s, s ≠ slotId → v.slotsSeen tabId slotId item swap s = v.seen tabId s item :=
    fun s hs => if_neg fun h => hs h.2
  unfold canStoreInBank at h
  split at h
  · nomatch h
  split at h
  · nomatch h
  rename_i htab
  split at h
  · nomatch h
  rename_i r hr
  have hfirst : Planned (getMaxStackSize (stackable item.entry))
      (v.slotsSeen tabId slotId item swap) item r := by
    unfold reserveSlot at hr
    split at hr
    · exact Option.some.inj hr ▸ planned_nil _ _ _
    · rename_i hspecified
      have hseen : (if swap then none else v.seen tabId slotId item) =
          v.slotsSeen tabId slotId item swap slotId := by
        unfold slotsSeen
        cases swap <;> simp
      rw [hseen] at hr
      exact (planned_nil _ _ item).reserveSpace (hslot.resolve_right hspecified) hcount hr
  have hmerge : Planned (getMaxStackSize (stackable item.entry))
      (v.slotsSeen tabId slotId item swap) item
      (if 1 < getMaxStackSize (stackable item.entry) then
        v.canStoreItemInTab stackable tabId item slotId true r else r) := by
    split
    · exact hfirst.canStoreItemInTab true hslots
    · exact hfirst
  have hlast := hmerge.canStoreItemInTab false hslots
  dsimp only at h
  generalize v.canStoreItemInTab stackable tabId item slotId false _ = last at h hlast
  split at h
  · rename_i hdone
    obtain rfl := Except.ok.inj h
    obtain ⟨hfits, hsum⟩ := hlast
    exact ⟨Nat.lt_of_not_le htab, hfits, by omega⟩
  · nomatch h

theorem canStoreItemInTab_done {skipSlotId : ℕ} {merge : Bool} {r : Reserved} (h : r.count = 0) :
    v.canStoreItemInTab stackable tabId item skipSlotId merge r = r := by
  refine List.foldlRecOn (motive := fun r' => r' = r) _ _ rfl fun r' hr' s _ => ?_
  rw [hr']
  exact if_pos (Or.inl h)

/-- A swap finds the slot that is specified, and needs no other. -/
theorem canStore_swap (hslot : slotId < guildBankMaxSlots)
    (hle : item.count ≤ getMaxStackSize (stackable item.entry))
    (h : v.canStoreInBank stackable tabId slotId item true = .ok vec) :
    tabId < v.guild.bankTabs.length ∧ vec = [⟨slotId, item.count⟩] := by
  have hnull : slotId ≠ nullSlot := Nat.ne_of_lt (Nat.lt_trans hslot (by decide))
  have hreserved : v.reserveSlot stackable tabId slotId item true =
      some ⟨[⟨slotId, item.count⟩], 0⟩ := by
    unfold reserveSlot reserveSpace
    rw [if_neg hnull]
    simp [Nat.min_eq_right hle]
  unfold canStoreInBank at h
  split at h
  · nomatch h
  split at h
  · nomatch h
  rename_i htab
  rw [hreserved] at h
  dsimp only at h
  have hdone : ∀ merge, v.canStoreItemInTab stackable tabId item slotId merge
      ⟨[⟨slotId, item.count⟩], 0⟩ = ⟨[⟨slotId, item.count⟩], 0⟩ :=
    fun _ => canStoreItemInTab_done rfl
  rw [hdone true, ite_self, hdone false, if_pos rfl] at h
  exact ⟨Nat.lt_of_not_le htab, (Except.ok.inj h).symm⟩

/-! ## 8. Storing -/

/-- The slot gets more, a copy with a new `guid`, or the item itself. -/
theorem storeItemAt_cases (tabId : ℕ) (item : Item) (pos : ItemPosCount) (clone : Bool)
    (hpos : 0 < pos.count) (hle : pos.count ≤ getMaxStackSize (stackable item.entry)) :
    (∃ d, v.getItem tabId pos.pos = some d ∧ v.storeItemAt stackable tabId item pos clone =
      v.setItem tabId pos.pos (some { d with count := d.count + pos.count })) ∨
    v.getItem tabId pos.pos = none ∧
      (clone = true ∧ v.storeItemAt stackable tabId item pos clone =
        { v with nextGuid := v.nextGuid + 1 }.setItem tabId pos.pos
          (some { item with guid := v.nextGuid, count := pos.count }) ∨
      clone = false ∧ v.storeItemAt stackable tabId item pos clone =
        v.setItem tabId pos.pos (some { item with count := pos.count })) := by
  unfold storeItemAt
  cases hd : v.getItem tabId pos.pos with
  | some d => exact Or.inl ⟨d, rfl, rfl⟩
  | none =>
    refine Or.inr ⟨rfl, ?_⟩
    cases clone with
    | true =>
      refine Or.inl ⟨rfl, ?_⟩
      unfold cloneItem
      rw [if_neg (Nat.not_lt_of_le hpos), Nat.min_eq_left hle]
      rfl
    | false => exact Or.inr ⟨rfl, rfl⟩

/-- What storing does to the bank: it is stocked as before, has more of the item, and no item in
it that was in no slot before, unless it is the item itself or a copy. -/
structure Stores (I : Inventory σ) (stackable : ℕ → ℤ) (v v' : Vault σ) (item : Item) (n : ℕ) :
    Prop where
  stocked : v'.Stocked stackable
  total : ∀ entry, v'.total I entry = v.total I entry + amount entry (some { item with count := n })
  guild : v'.guild = v.guild
  bags : v'.bags = v.bags
  nextGuid : v.nextGuid ≤ v'.nextGuid
  lacks : ∀ guid, v.Lacks guid → guid ≠ item.guid → guid < v.nextGuid → v'.Lacks guid

theorem Stores.total_whole (h : Stores I stackable v v' item item.count) (entry : ℕ) :
    v'.total I entry = v.total I entry + amount entry (some item) := h.total entry

theorem stocked_nextGuid (h : v.Stocked stackable) (n : ℕ) (hn : v.nextGuid ≤ n) :
    { v with nextGuid := n }.Stocked stackable :=
  h.of_getItem (fun _ _ => rfl) hn

theorem stores_setItem (h : v.Stocked stackable) {n : ℕ} {x : Item}
    (htab : tabId < v.guild.bankTabs.length) (hslot : slotId < guildBankMaxSlots) (nextGuid : ℕ)
    (hnext : v.nextGuid ≤ nextGuid)
    (hstack : 0 < x.count ∧ x.count ≤ getMaxStackSize (stackable x.entry))
    (hknown : x.guid < nextGuid)
    (hunique : ∀ t s, ∀ z ∈ v.getItem t s, z.guid = x.guid → t = tabId ∧ s = slotId)
    (hcount : ∀ entry, amount entry (some x) =
      amount entry (v.getItem tabId slotId) + amount entry (some { item with count := n }))
    (hguid : ∀ guid, v.Lacks guid → guid ≠ item.guid → guid < v.nextGuid → x.guid ≠ guid) :
    Stores I stackable v ({ v with nextGuid }.setItem tabId slotId (some x)) item n := by
  have hstocked := stocked_nextGuid h nextGuid hnext
  refine ⟨hstocked.setItem htab hslot ?_, fun entry => ?_, guild_setItem .., bags_setItem .., ?_,
    fun guid hlacks hne hlt t s y hy => ?_⟩
  · rintro _ ⟨⟩
    exact ⟨hstack, hknown, hunique⟩
  · have htotal := total_setItem (I := I) (v := { v with nextGuid }) htab hslot (some x) entry
    have hentry := hcount entry
    have hsame : { v with nextGuid }.total I entry = v.total I entry := rfl
    have hsame' : { v with nextGuid }.getItem tabId slotId = v.getItem tabId slotId := rfl
    rw [hsame, hsame'] at htotal
    omega
  · rw [nextGuid_setItem]
    exact hnext
  · rw [getItem_setItem (v := { v with nextGuid }) htab hslot] at hy
    split at hy
    · rw [← Option.some.inj hy]
      exact hguid guid hlacks hne hlt
    · exact hlacks t s y hy

/-- One step of `StoreItem`. -/
theorem stores_storeItemAt (h : v.Stocked stackable) {pos : ItemPosCount} (clone : Bool)
    (htab : tabId < v.guild.bankTabs.length)
    (hfits : Fits (getMaxStackSize (stackable item.entry)) (v.getItem tabId) item [pos])
    (hlacks : v.Lacks item.guid) (hknown : item.guid < v.nextGuid) :
    Stores I stackable v (v.storeItemAt stackable tabId item pos clone) item pos.count ∧
      (∀ s, s ≠ pos.pos →
        (v.storeItemAt stackable tabId item pos clone).getItem tabId s = v.getItem tabId s) ∧
      (clone = true → (v.storeItemAt stackable tabId item pos clone).Lacks item.guid) := by
  obtain ⟨hslot, hpos, hle, hroom⟩ := hfits.room pos List.mem_cons_self
  have hframe : ∀ (v : Vault σ) x, tabId < v.guild.bankTabs.length → ∀ s, s ≠ pos.pos →
      (v.setItem tabId pos.pos x).getItem tabId s = v.getItem tabId s := by
    intro v x htab s hs
    rw [getItem_setItem htab hslot, if_neg fun h => hs h.2]
  rcases storeItemAt_cases (v := v) tabId item pos clone hpos hle with
    ⟨d, hd, heq⟩ | ⟨hempty, ⟨hclone, heq⟩ | ⟨hclone, heq⟩⟩ <;> rw [heq]
  · obtain ⟨hentry, hsum⟩ := hroom d hd
    refine ⟨stores_setItem h htab hslot v.nextGuid (Nat.le_refl _) ⟨?_, ?_⟩ ?_ ?_ ?_ ?_,
      hframe v _ htab, fun _ t s y hy => ?_⟩
    · exact Nat.add_pos_right _ hpos
    · rw [hentry]
      exact hsum
    · exact h.known tabId pos.pos d hd
    · exact fun t s z hz hguid => h.unique t s tabId pos.pos z hz d hd hguid
    · intro entry
      rw [hd, amount_add]
      unfold amount
      dsimp only
      rw [hentry]
    · exact fun guid hguid _ _ => hguid tabId pos.pos d hd
    · rw [getItem_setItem htab hslot] at hy
      split at hy
      · rw [← Option.some.inj hy]
        exact hlacks tabId pos.pos d hd
      · exact hlacks t s y hy
  · refine ⟨stores_setItem h htab hslot (v.nextGuid + 1) (Nat.le_succ _) ⟨hpos, hle⟩
      (Nat.lt_succ_self _) ?_ ?_ ?_, hframe { v with nextGuid := v.nextGuid + 1 } _ htab,
      fun _ t s y hy => ?_⟩
    · exact fun t s z hz hguid => absurd hguid (Nat.ne_of_lt (h.known t s z hz))
    · intro entry
      rw [hempty]
      exact (Nat.zero_add _).symm
    · exact fun guid _ _ hlt => Nat.ne_of_gt hlt
    · rw [getItem_setItem (v := { v with nextGuid := v.nextGuid + 1 }) htab hslot] at hy
      split at hy
      · rw [← Option.some.inj hy]
        exact Nat.ne_of_gt hknown
      · exact hlacks t s y hy
  · refine ⟨stores_setItem h htab hslot v.nextGuid (Nat.le_refl _) ⟨hpos, hle⟩ hknown ?_ ?_ ?_,
      hframe v _ htab, fun h => ?_⟩
    · exact fun t s z hz hguid => absurd hguid (hlacks t s z hz)
    · intro entry
      rw [hempty]
      exact (Nat.zero_add _).symm
    · exact fun guid _ hne _ => hne.symm
    · rw [hclone] at h
      nomatch h

theorem Stores.trans {v'' : Vault σ} {m n : ℕ} (h : Stores I stackable v v' item m)
    (h' : Stores I stackable v' v'' item n) : Stores I stackable v v'' item (m + n) where
  stocked := h'.stocked
  total entry := by
    rw [h'.total, h.total, amount_add, Nat.add_assoc]
  guild := h'.guild.trans h.guild
  bags := h'.bags.trans h.bags
  nextGuid := h.nextGuid.trans h'.nextGuid
  lacks guid hlacks hne hlt :=
    h'.lacks guid (h.lacks guid hlacks hne hlt) hne (hlt.trans_le h.nextGuid)

/-- **Storing keeps the bank in order.**  Induction on what is left of the list: no slot of it has
been touched, and the item itself is in none until the last is reached. -/
theorem stores_storeItems (vec : List ItemPosCount) (v : Vault σ) (h : v.Stocked stackable)
    (htab : tabId < v.guild.bankTabs.length)
    (hfits : Fits (getMaxStackSize (stackable item.entry)) (v.getItem tabId) item vec)
    (hlacks : vec ≠ [] → v.Lacks item.guid) (hknown : item.guid < v.nextGuid) :
    Stores I stackable v (storeItems stackable tabId item vec v) item
      (vec.map ItemPosCount.count).sum := by
  induction vec generalizing v with
  | nil =>
    refine ⟨h, fun entry => ?_, rfl, rfl, Nat.le_refl _, fun _ h _ _ => h⟩
    rw [List.map_nil, List.sum_nil, amount_zero]
    rfl
  | cons pos vec ih =>
    have hnodup := hfits.nodup
    rw [List.map_cons, List.nodup_cons] at hnodup
    have hpos : Fits (getMaxStackSize (stackable item.entry)) (v.getItem tabId) item [pos] :=
      ⟨List.nodup_singleton _, fun p hp => hfits.room p (List.mem_singleton.mp hp ▸
        List.mem_cons_self)⟩
    obtain ⟨hstores, hframe, hkeeps⟩ := stores_storeItemAt (I := I) h (vec ≠ []) htab hpos
      (hlacks (List.cons_ne_nil _ _)) hknown
    rw [List.map_cons, List.sum_cons]
    refine hstores.trans (ih _ hstores.stocked (hstores.guild ▸ htab) ⟨hnodup.2, ?_⟩ ?_ ?_)
    · intro p hp
      rw [hframe p.pos fun heq => hnodup.1 (heq ▸ List.mem_map_of_mem hp)]
      exact hfits.room p (List.mem_cons_of_mem _ hp)
    · exact fun hne => hkeeps (decide_eq_true hne)
    · exact hknown.trans_le hstores.nextGuid

theorem storeItem_vacant {slotId' : ℕ} (htab : tabId < v.guild.bankTabs.length)
    (hempty : v.getItem tabId slotId = none) :
    v.storeItem I stackable (.bank tabId slotId') [⟨slotId, item.count⟩] item =
      v.setItem tabId slotId (some item) := by
  unfold storeItem
  dsimp only
  rw [if_pos htab]
  unfold storeItems storeItemAt
  rw [hempty]
  rfl

/-- An item is stored where nothing is. -/
theorem stores_vacant (h : v.Stocked stackable) (htab : tabId < v.guild.bankTabs.length)
    (hslot : slotId < guildBankMaxSlots) (hempty : v.getItem tabId slotId = none)
    (hstack : 0 < item.count ∧ item.count ≤ getMaxStackSize (stackable item.entry))
    (hlacks : v.Lacks item.guid) (hknown : item.guid < v.nextGuid) :
    Stores I stackable v (v.setItem tabId slotId (some item)) item item.count := by
  refine stores_setItem h htab hslot v.nextGuid (Nat.le_refl _) hstack hknown ?_ ?_ ?_
  · exact fun t s z hz hguid => absurd hguid (hlacks t s z hz)
  · intro entry
    rw [hempty]
    exact (Nat.zero_add _).symm
  · exact fun guid _ hne _ => hne.symm

/-- What a player stores. -/
theorem storeItem_player (h : v.Stocked stackable) (hI : I.Conserves) (bag slotId : ℕ)
    (hmore : ∀ entry, I.total (I.moveItemToInventory v.bags vec item v.nextGuid).1 entry =
      I.total v.bags entry + amount entry (some item)) :
    (v.storeItem I stackable (.player bag slotId) vec item).Stocked stackable ∧
      ∀ entry, (v.storeItem I stackable (.player bag slotId) vec item).total I entry =
        v.total I entry + amount entry (some item) := by
  refine ⟨h.of_getItem (fun _ _ => rfl) (hI.newGuids v.bags vec item v.nextGuid),
    fun entry => ?_⟩
  unfold storeItem total
  rw [hmore, Nat.add_assoc]

/-! ## 9. Removing -/

/-- Counting does not change the tabs. -/
theorem bankTabs_removeItem (g : Guild) (player : ℕ) (place other : Guild.Place) :
    (g.removeItem player place other).bankTabs = g.bankTabs := by
  cases place with
  | inventory => rfl
  | tab tabId =>
    unfold Guild.removeItem Guild.updateMemberWithdrawSlots
    dsimp only
    split
    · rfl
    split
    · rfl
    split <;> rfl

theorem getItem_setGuild {g : Guild} (h : g.bankTabs = v.guild.bankTabs) (tabId slotId : ℕ) :
    { v with guild := g }.getItem tabId slotId = v.getItem tabId slotId := by
  unfold getItem
  rw [h]

theorem total_setGuild {g : Guild} (h : g.bankTabs = v.guild.bankTabs) (entry : ℕ) :
    { v with guild := g }.total I entry = v.total I entry := by
  unfold total
  rw [h]

/-- What removing does: there are `n` less of the item, and nothing else in any slot. -/
structure Removes (I : Inventory σ) (stackable : ℕ → ℤ) (v v' : Vault σ) (item : Item) (n : ℕ) :
    Prop where
  stocked : v'.Stocked stackable
  total : ∀ entry, v'.total I entry + amount entry (some { item with count := n }) =
    v.total I entry
  bankTabs : v'.guild.bankTabs = v.guild.bankTabs
  nextGuid : v'.nextGuid = v.nextGuid
  less : ∀ t s, ∀ d' ∈ v'.getItem t s,
    ∃ d ∈ v.getItem t s, d.guid = d'.guid ∧ d.entry = d'.entry ∧ d'.count ≤ d.count
  gone : n = item.count → v'.Lacks item.guid

theorem Removes.lacks {n guid : ℕ} (h : Removes I stackable v v' item n) (hlacks : v.Lacks guid) :
    v'.Lacks guid := by
  intro t s d' hd'
  obtain ⟨d, hd, hguid, -⟩ := h.less t s d' hd'
  exact hguid ▸ hlacks t s d hd

/-- What `RemoveItem` takes. -/
def taken (item : Item) (splitedAmount : ℕ) : ℕ :=
  if splitedAmount = 0 then item.count else splitedAmount

theorem Removes.total_whole (h : Removes I stackable v v' item (taken item 0)) (entry : ℕ) :
    v'.total I entry + amount entry (some item) = v.total I entry := h.total entry

variable {splitedAmount : ℕ}

/-- An item of the bank is removed. -/
theorem removes_bank (h : v.Stocked stackable) (player : ℕ) (other : Side)
    (hitem : v.getItem tabId slotId = some item) (hsplit : splitedAmount < item.count) :
    let v' := v.removeItem I player (.bank tabId slotId) other item splitedAmount
    Removes I stackable v v' item (taken item splitedAmount) ∧ v'.bags = v.bags ∧
      (∀ t s, ¬ (t = tabId ∧ s = slotId) → v'.getItem t s = v.getItem t s) ∧
      (splitedAmount = 0 → v'.getItem tabId slotId = none) := by
  intro v'
  obtain ⟨htab, hslot⟩ := getItem_some hitem
  obtain ⟨rest, hrest⟩ : ∃ rest, rest = (if splitedAmount = 0 then none
      else some { item with count := item.count - splitedAmount }) := ⟨_, rfl⟩
  have htabs : (v.guild.removeItem player (.tab tabId) other.place).bankTabs =
      (v.setItem tabId slotId rest).guild.bankTabs := by
    rw [bankTabs_removeItem, guild_setItem]
  have hv' : v' = { v.setItem tabId slotId rest with
      guild := v.guild.removeItem player (.tab tabId) other.place } := by
    rw [hrest]
    rfl
  have hget : ∀ t s, v'.getItem t s =
      if t = tabId ∧ s = slotId then rest else v.getItem t s := by
    intro t s
    rw [hv', getItem_setGuild htabs, getItem_setItem htab hslot]
  have hless : ∀ d' ∈ rest, item.guid = d'.guid ∧ item.entry = d'.entry ∧
      0 < d'.count ∧ d'.count ≤ item.count := by
    intro d' hd'
    rw [hrest] at hd'
    split at hd'
    · nomatch hd'
    · rw [← Option.some.inj hd']
      exact ⟨rfl, rfl, Nat.sub_pos_of_lt hsplit, Nat.sub_le _ _⟩
  have hstocked : (v.setItem tabId slotId rest).Stocked stackable := by
    refine h.setItem htab hslot fun d' hd' => ?_
    obtain ⟨hguid, hentry, hpos, hle⟩ := hless d' hd'
    rw [← hguid, ← hentry]
    refine ⟨⟨hpos, hle.trans (h.stack tabId slotId item hitem).2⟩,
      h.known tabId slotId item hitem, fun t s z hz heq => ?_⟩
    exact h.unique t s tabId slotId z hz item hitem heq
  refine ⟨⟨?_, fun entry => ?_, ?_, ?_, fun t s d' hd' => ?_, fun hall t s d' hd' => ?_⟩, ?_,
    fun t s hne => ?_, fun hall => ?_⟩
  · refine hstocked.of_getItem (fun t s => ?_) (Nat.le_of_eq ?_)
    · rw [hv', getItem_setGuild htabs]
    · rw [hv']
  · have htotal := total_setItem (I := I) htab hslot rest entry
    rw [hv', total_setGuild htabs]
    rw [hitem] at htotal
    have hparts : amount entry (some item) =
        amount entry rest + amount entry (some { item with count := taken item splitedAmount }) := by
      unfold taken
      rw [hrest]
      split
      · exact (Nat.zero_add _).symm
      · rw [← amount_add, Nat.sub_add_cancel hsplit.le]
    omega
  · rw [hv']
    exact htabs.trans (congrArg Guild.bankTabs (guild_setItem ..))
  · rw [hv']
    exact nextGuid_setItem ..
  · rw [hget] at hd'
    split at hd'
    · rename_i hat
      obtain ⟨hguid, hentry, -, hle⟩ := hless d' hd'
      exact ⟨item, hat.1 ▸ hat.2 ▸ hitem, hguid, hentry, hle⟩
    · exact ⟨d', hd', rfl, rfl, Nat.le_refl _⟩
  · have hzero : splitedAmount = 0 := by
      unfold taken at hall
      split at hall
      · assumption
      · omega
    rw [hget] at hd'
    split at hd'
    · rw [hrest, if_pos hzero] at hd'
      nomatch hd'
    · rename_i hne
      exact fun heq => hne (h.unique t s tabId slotId d' hd' item hitem heq)
  · rw [hv']
    exact bags_setItem ..
  · rw [hget, if_neg hne]
  · rw [hget, if_pos ⟨rfl, rfl⟩, hrest, if_pos hall]

variable {player : ℕ}

theorem bags_removeItem {bag : ℕ} {other : Side} :
    (v.removeItem I player (.player bag slotId) other item 0).bags =
      I.moveItemFromInventory v.bags bag slotId := rfl

/-- An item of the player is removed. -/
theorem removes_player (h : v.Stocked stackable) (hI : I.Conserves) (player : ℕ) (other : Side)
    {bag : ℕ} (hitem : I.getItemByPos v.bags bag slotId = some item) (hlacks : v.Lacks item.guid)
    (hsplit : splitedAmount < item.count) :
    Removes I stackable v (v.removeItem I player (.player bag slotId) other item splitedAmount) item
      (taken item splitedAmount) := by
  refine ⟨⟨h.stack, h.unique, h.known⟩, fun entry => ?_, rfl, rfl,
    fun t s d hd => ⟨d, hd, rfl, rfl, Nat.le_refl _⟩, fun _ => hlacks⟩
  unfold removeItem taken total
  dsimp only
  rw [Nat.add_assoc]
  congr 1
  split
  · exact hI.remove v.bags bag slotId item hitem entry
  · exact hI.split v.bags bag slotId item splitedAmount hitem hsplit entry

/-! ## 10. Moving -/

/-- The bank is in order, and there is as much of everything as before. -/
structure Kept (I : Inventory σ) (stackable : ℕ → ℤ) (v v' : Vault σ) : Prop where
  stocked : v'.Stocked stackable
  total : ∀ entry, v'.total I entry = v.total I entry

/-- Two sides items are moved between: two slots of the bank, or one of it and the player. -/
def Between : Side → Side → Prop
  | .bank tabId slotId, .bank destTabId destSlotId =>
    destSlotId < guildBankMaxSlots ∧ ¬ (destTabId = tabId ∧ destSlotId = slotId)
  | .player _ _, .bank _ slotId => slotId < guildBankMaxSlots ∨ slotId = nullSlot
  | .bank _ _, .player _ _ => True
  | .player _ _, .player _ _ => False

theorem getItemByPos_of_initItem {bag : ℕ} (h : v.initItem I (.player bag slotId) = some item) :
    I.getItemByPos v.bags bag slotId = some item :=
  (Option.filter_eq_some_iff.mp h).1

/-- The item at a side is a stack, and has a `guid`. -/
theorem initItem_spec (hv : v.Stocked stackable) (hc : v.Carried I stackable) {side : Side}
    (h : v.initItem I side = some item) :
    (0 < item.count ∧ item.count ≤ getMaxStackSize (stackable item.entry)) ∧
      item.guid < v.nextGuid := by
  cases side with
  | bank tabId slotId => exact ⟨hv.stack tabId slotId item h, hv.known tabId slotId item h⟩
  | player bag slotId =>
    obtain ⟨hstack, -, hknown⟩ := hc bag slotId item (getItemByPos_of_initItem h)
    exact ⟨hstack, hknown⟩

theorem removes_initItem (hv : v.Stocked stackable) (hI : I.Conserves) (hc : v.Carried I stackable)
    (player : ℕ) {side : Side} (other : Side) (h : v.initItem I side = some item)
    (hsplit : splitedAmount < item.count) :
    Removes I stackable v (v.removeItem I player side other item splitedAmount) item
      (taken item splitedAmount) := by
  cases side with
  | bank tabId slotId => exact (removes_bank hv player other h hsplit).1
  | player bag slotId =>
    have hitem := getItemByPos_of_initItem h
    exact removes_player hv hI player other hitem (hc bag slotId item hitem).2.1 hsplit

variable {dest src : Side}

/-- **What has been removed is stored** where `CanStore` found room for it before. -/
theorem kept_merge (srcItem : Item) {v₁ : Vault σ} (hI : I.Conserves) (hbetween : Between src dest)
    (hremoves : Removes I stackable v v₁ item srcItem.count) (hentry : srcItem.entry = item.entry)
    (hpos : 0 < srcItem.count) (hlacks : v₁.Lacks srcItem.guid) (hknown : srcItem.guid < v.nextGuid)
    (hbags : ∀ bag slotId, dest = .player bag slotId → v₁.bags = v.bags)
    (hvec : v.canStore I stackable dest srcItem false = .ok vec) :
    Kept I stackable v (v₁.storeItem I stackable dest vec srcItem) := by
  have hback : ∀ entry, v₁.total I entry + amount entry (some srcItem) = v.total I entry := by
    intro entry
    rw [← hremoves.total entry]
    unfold amount
    dsimp only
    rw [hentry]
  cases dest with
  | bank tabId slotId =>
    have hslot : slotId < guildBankMaxSlots ∨ slotId = nullSlot := by
      cases src with
      | bank => exact Or.inl hbetween.1
      | player => exact hbetween
    obtain ⟨htab, hfits, hsum⟩ := fits_of_canStore hslot hpos hvec
    have htab₁ : tabId < v₁.guild.bankTabs.length := by
      rw [hremoves.bankTabs]
      exact htab
    have hfits₁ : Fits (getMaxStackSize (stackable srcItem.entry)) (v₁.getItem tabId) srcItem vec := by
      refine hfits.of_less fun s d' hd' => ?_
      obtain ⟨d, hd, hguid, hentry, hle⟩ := hremoves.less tabId s d' hd'
      refine ⟨d, ?_, hentry, hle⟩
      have hother : d.guid ≠ srcItem.guid := hguid ▸ hlacks tabId s d' hd'
      unfold slotsSeen seen
      rw [if_neg fun h => Bool.false_ne_true h.1, Option.mem_def.mp hd]
      exact Option.filter_eq_some_iff.mpr ⟨rfl, decide_eq_true hother⟩
    have hstores := stores_storeItems (I := I) vec v₁ hremoves.stocked htab₁ hfits₁
      (fun _ => hlacks) (hremoves.nextGuid ▸ hknown)
    have hstore : v₁.storeItem I stackable (.bank tabId slotId) vec srcItem =
        storeItems stackable tabId srcItem vec v₁ := if_pos htab₁
    rw [hstore]
    refine ⟨hstores.stocked, fun entry => ?_⟩
    rw [hstores.total, hsum, hback]
  | player bag slotId =>
    have hsame := hbags bag slotId rfl
    obtain ⟨hstocked, htotal⟩ := storeItem_player hremoves.stocked hI bag slotId
      (fun entry => hsame ▸ hI.store v.bags bag slotId srcItem vec v₁.nextGuid hvec entry)
    refine ⟨hstocked, fun entry => ?_⟩
    rw [htotal, hback]

theorem doItemsMove_none {srcItem : Item}
    (h : v.doItemsMove I stackable player src dest item srcItem none splitedAmount = .ok v') :
    ∃ vec, v.canStore I stackable dest srcItem false = .ok vec ∧
      v' = (v.removeItem I player src dest item splitedAmount).storeItem I stackable dest vec
        srcItem := by
  unfold doItemsMove at h
  rw [Option.isSome_none] at h
  cases hvec : v.canStore I stackable dest srcItem false with
  | error msg =>
    rw [hvec] at h
    nomatch h
  | ok vec =>
    rw [hvec] at h
    exact ⟨vec, rfl, (Except.ok.inj h).symm⟩

variable {destItem : Item}

theorem doItemsMove_some {srcItem : Item}
    (h : v.doItemsMove I stackable player src dest item srcItem (some destItem) splitedAmount =
      .ok v') :
    ∃ vec vec', v.canStore I stackable dest srcItem true = .ok vec ∧
      v.canStore I stackable src destItem true = .ok vec' ∧
      v' = (((v.removeItem I player src dest item splitedAmount).removeItem I player dest src
        destItem 0).storeItem I stackable dest vec srcItem).storeItem I stackable src vec'
        destItem := by
  unfold doItemsMove at h
  rw [Option.isSome_some] at h
  cases hvec : v.canStore I stackable dest srcItem true with
  | error msg =>
    rw [hvec] at h
    nomatch h
  | ok vec =>
    rw [hvec] at h
    cases hvec' : v.canStore I stackable src destItem true with
    | error msg =>
      dsimp only [bind, Except.bind] at h
      rw [hvec'] at h
      nomatch h
    | ok vec' =>
      dsimp only [bind, Except.bind] at h
      rw [hvec'] at h
      exact ⟨vec, vec', rfl, rfl, (Except.ok.inj h).symm⟩

/-- All of an item is moved beside what is there. -/
theorem kept_moveWhole_merge (hI : I.Conserves) (hv : v.Stocked stackable)
    (hc : v.Carried I stackable) (hbetween : Between src dest)
    (hitem : v.initItem I src = some item)
    (h : v.doItemsMove I stackable player src dest item item none 0 = .ok v') :
    Kept I stackable v v' := by
  obtain ⟨vec, hvec, rfl⟩ := doItemsMove_none h
  obtain ⟨hstack, hknown⟩ := initItem_spec hv hc hitem
  have hremoves := removes_initItem hv hI hc player dest hitem hstack.1
  refine kept_merge item hI hbetween hremoves rfl hstack.1 (hremoves.gone rfl) hknown
    (fun bag slotId hdest => ?_) hvec
  cases src with
  | bank => exact bags_setItem ..
  | player =>
    subst hdest
    exact hbetween.elim

/-- A part of an item is moved. -/
theorem kept_movePart (hI : I.Conserves) (hv : v.Stocked stackable) (hc : v.Carried I stackable)
    (hbetween : Between src dest) (hitem : v.initItem I src = some item)
    (hsplit : splitedAmount < item.count) :
    Kept I stackable v (v.movePart I stackable player src dest item splitedAmount).2 := by
  have hself : Kept I stackable v v := ⟨hv, fun _ => rfl⟩
  obtain ⟨hstack, hknown⟩ := initItem_spec hv hc hitem
  unfold movePart cloneItem
  by_cases hzero : splitedAmount < 1
  · rw [if_pos hzero]
    exact hself
  rw [if_neg hzero, Nat.min_eq_left (hsplit.le.trans hstack.2)]
  dsimp only
  split
  swap
  · exact ⟨stocked_nextGuid hv _ (Nat.le_succ _), fun _ => rfl⟩
  rename_i v' hmove
  obtain ⟨vec, hvec, rfl⟩ := doItemsMove_none hmove
  have hv₁ := stocked_nextGuid hv (v.nextGuid + 1) (Nat.le_succ _)
  have hc₁ : { v with nextGuid := v.nextGuid + 1 }.Carried I stackable := by
    intro bag slotId x hx
    obtain ⟨hstack, hlacks, hknown⟩ := hc bag slotId x hx
    exact ⟨hstack, hlacks, Nat.lt_succ_of_lt hknown⟩
  have hitem₁ : { v with nextGuid := v.nextGuid + 1 }.initItem I src = some item := by
    cases src <;> exact hitem
  have hremoves := removes_initItem hv₁ hI hc₁ player dest hitem₁ hsplit
  have htaken : taken item splitedAmount = splitedAmount :=
    if_neg fun h => hzero (Nat.lt_one_iff.mpr h)
  rw [htaken] at hremoves
  have hnew : { v with nextGuid := v.nextGuid + 1 }.Lacks v.nextGuid :=
    fun t s x hx => Nat.ne_of_lt (hv.known t s x hx)
  have hkept := kept_merge { item with guid := v.nextGuid, count := splitedAmount } hI
    hbetween hremoves rfl (Nat.le_of_not_lt hzero) (hremoves.lacks hnew) (Nat.lt_succ_self _)
    (fun bag slotId hdest => ?_) hvec
  · exact ⟨hkept.stocked, hkept.total⟩
  · cases src with
    | bank => exact bags_setItem ..
    | player =>
      subst hdest
      exact hbetween.elim

/-- Two items of the bank change places. -/
theorem kept_swap_bank (hv : v.Stocked stackable) {destTabId destSlotId : ℕ}
    (hne : ¬ (destTabId = tabId ∧ destSlotId = slotId)) (hitem : v.getItem tabId slotId = some item)
    (hdest : v.getItem destTabId destSlotId = some destItem)
    (h : v.doItemsMove I stackable player (.bank tabId slotId) (.bank destTabId destSlotId) item item
      (some destItem) 0 = .ok v') : Kept I stackable v v' := by
  obtain ⟨vec, vec', hvec, hvec', rfl⟩ := doItemsMove_some h
  obtain ⟨htab, hslot⟩ := getItem_some hitem
  obtain ⟨htab', hslot'⟩ := getItem_some hdest
  have hstack := hv.stack tabId slotId item hitem
  have hstack' := hv.stack destTabId destSlotId destItem hdest
  obtain ⟨-, rfl⟩ := canStore_swap hslot' hstack.2 hvec
  obtain ⟨-, rfl⟩ := canStore_swap hslot hstack'.2 hvec'
  have hother : item.guid ≠ destItem.guid := by
    intro heq
    obtain ⟨ht, hs⟩ := hv.unique tabId slotId destTabId destSlotId item hitem destItem hdest heq
    exact hne ⟨ht.symm, hs.symm⟩
  -- both are removed
  obtain ⟨hremoves, -, hframe, hempty⟩ := removes_bank (I := I) hv player
    (.bank destTabId destSlotId) hitem hstack.1
  generalize v.removeItem I player (.bank tabId slotId) (.bank destTabId destSlotId) item 0 = v₁ at *
  have hdest₁ : v₁.getItem destTabId destSlotId = some destItem := by
    rw [hframe destTabId destSlotId hne, hdest]
  obtain ⟨hremoves', -, hframe', hempty'⟩ := removes_bank (I := I) hremoves.stocked player
    (.bank tabId slotId) hdest₁ hstack'.1
  generalize v₁.removeItem I player (.bank destTabId destSlotId) (.bank tabId slotId) destItem 0 =
    v₂ at *
  have htabs₂ : v₂.guild.bankTabs.length = v.guild.bankTabs.length := by
    rw [hremoves'.bankTabs, hremoves.bankTabs]
  have hnext₂ : v₂.nextGuid = v.nextGuid := hremoves'.nextGuid.trans hremoves.nextGuid
  have hsrc₂ : v₂.getItem tabId slotId = none := by
    rw [hframe' tabId slotId fun h => hne ⟨h.1.symm, h.2.symm⟩, hempty rfl]
  -- and stored
  rw [storeItem_vacant (htabs₂ ▸ htab') (hempty' rfl)]
  have hstores := stores_vacant (I := I) hremoves'.stocked (htabs₂ ▸ htab') hslot' (hempty' rfl)
    hstack (hremoves'.lacks (hremoves.gone rfl)) (hnext₂ ▸ hv.known tabId slotId item hitem)
  have hsrc₃ : (v₂.setItem destTabId destSlotId (some item)).getItem tabId slotId = none := by
    rw [getItem_setItem (htabs₂ ▸ htab') hslot', if_neg fun h => hne ⟨h.1.symm, h.2.symm⟩, hsrc₂]
  have htab₃ : tabId < (v₂.setItem destTabId destSlotId (some item)).guild.bankTabs.length := by
    rw [hstores.guild, htabs₂]
    exact htab
  have hknown' : destItem.guid < v₂.nextGuid :=
    hnext₂ ▸ hv.known destTabId destSlotId destItem hdest
  rw [storeItem_vacant htab₃ hsrc₃]
  have hstores' := stores_vacant (I := I) hstores.stocked htab₃ hslot hsrc₃ hstack'
    (hstores.lacks destItem.guid (hremoves'.gone rfl) hother.symm hknown')
    (hknown'.trans_le hstores.nextGuid)
  refine ⟨hstores'.stocked, fun entry => ?_⟩
  rw [hstores'.total_whole, hstores.total_whole, ← hremoves.total_whole, ← hremoves'.total_whole]
  omega

/-- An item of the bank goes to the player, and one of his takes its place. -/
theorem kept_swap_toChar (hI : I.Conserves) (hv : v.Stocked stackable) (hc : v.Carried I stackable)
    {bag playerSlotId : ℕ} (hitem : v.getItem tabId slotId = some item)
    (hdest : I.getItemByPos v.bags bag playerSlotId = some destItem)
    (h : v.doItemsMove I stackable player (.bank tabId slotId) (.player bag playerSlotId) item item
      (some destItem) 0 = .ok v') : Kept I stackable v v' := by
  obtain ⟨vec, vec', hvec, hvec', rfl⟩ := doItemsMove_some h
  obtain ⟨htab, hslot⟩ := getItem_some hitem
  have hstack := hv.stack tabId slotId item hitem
  obtain ⟨hstack', hlacks', hknown'⟩ := hc bag playerSlotId destItem hdest
  obtain ⟨-, rfl⟩ := canStore_swap hslot hstack'.2 hvec'
  -- both are removed
  obtain ⟨hremoves, hbags, -, hempty⟩ := removes_bank (I := I) hv player
    (.player bag playerSlotId) hitem hstack.1
  generalize v.removeItem I player (.bank tabId slotId) (.player bag playerSlotId) item 0 = v₁ at *
  have hremoves' := removes_player hremoves.stocked hI player (.bank tabId slotId)
    (hbags.symm ▸ hdest) (hremoves.lacks hlacks') hstack'.1
  have hbags₂ : (v₁.removeItem I player (.player bag playerSlotId) (.bank tabId slotId) destItem
      0).bags = I.moveItemFromInventory v.bags bag playerSlotId :=
    bags_removeItem.trans (congrArg (fun s => I.moveItemFromInventory s bag playerSlotId) hbags)
  have hempty₂ : (v₁.removeItem I player (.player bag playerSlotId) (.bank tabId slotId) destItem
      0).getItem tabId slotId = none := hempty rfl
  generalize v₁.removeItem I player (.player bag playerSlotId) (.bank tabId slotId) destItem 0 =
    v₂ at *
  -- and stored
  obtain ⟨hstocked₃, htotal₃⟩ := storeItem_player hremoves'.stocked hI bag
    playerSlotId (fun entry => hbags₂ ▸ hI.swap v.bags bag playerSlotId item vec v₂.nextGuid hvec entry)
  have hitems₃ : ∀ t s, (v₂.storeItem I stackable (.player bag playerSlotId) vec item).getItem t s =
      v₂.getItem t s := fun _ _ => rfl
  have hguild₃ : (v₂.storeItem I stackable (.player bag playerSlotId) vec item).guild = v₂.guild :=
    rfl
  have hnext₃ : v₂.nextGuid ≤
      (v₂.storeItem I stackable (.player bag playerSlotId) vec item).nextGuid :=
    hI.newGuids v₂.bags vec item v₂.nextGuid
  generalize v₂.storeItem I stackable (.player bag playerSlotId) vec item = v₃ at *
  have htab₃ : tabId < v₃.guild.bankTabs.length := by
    rw [hguild₃, hremoves'.bankTabs, hremoves.bankTabs]
    exact htab
  have hempty₃ : v₃.getItem tabId slotId = none := (hitems₃ tabId slotId).trans hempty₂
  have hlacks₃ : v₃.Lacks destItem.guid := by
    intro t s x hx
    rw [hitems₃] at hx
    exact hremoves'.gone rfl t s x hx
  have hknown₃ : destItem.guid < v₃.nextGuid := by
    refine Nat.lt_of_lt_of_le ?_ hnext₃
    rw [hremoves'.nextGuid, hremoves.nextGuid]
    exact hknown'
  rw [storeItem_vacant htab₃ hempty₃]
  have hstores := stores_vacant (I := I) hstocked₃ htab₃ hslot hempty₃ hstack' hlacks₃ hknown₃
  refine ⟨hstores.stocked, fun entry => ?_⟩
  rw [hstores.total_whole, htotal₃, ← hremoves.total_whole, ← hremoves'.total_whole]
  omega

/-- An item of the player goes to the bank, and he gets the one that was there. -/
theorem kept_swap_fromChar (hI : I.Conserves) (hv : v.Stocked stackable)
    (hc : v.Carried I stackable) {bag playerSlotId : ℕ}
    (hitem : I.getItemByPos v.bags bag playerSlotId = some item)
    (hdest : v.getItem tabId slotId = some destItem)
    (h : v.doItemsMove I stackable player (.player bag playerSlotId) (.bank tabId slotId) item item
      (some destItem) 0 = .ok v') : Kept I stackable v v' := by
  obtain ⟨vec, vec', hvec, hvec', rfl⟩ := doItemsMove_some h
  obtain ⟨htab, hslot⟩ := getItem_some hdest
  have hstack' := hv.stack tabId slotId destItem hdest
  obtain ⟨hstack, hlacks, hknown⟩ := hc bag playerSlotId item hitem
  obtain ⟨-, rfl⟩ := canStore_swap hslot hstack.2 hvec
  -- both are removed
  have hremoves := removes_player hv hI player (.bank tabId slotId) hitem hlacks
    hstack.1
  have hbags₁ : (v.removeItem I player (.player bag playerSlotId) (.bank tabId slotId) item
      0).bags = I.moveItemFromInventory v.bags bag playerSlotId := bags_removeItem
  have hdest₁ : (v.removeItem I player (.player bag playerSlotId) (.bank tabId slotId) item
      0).getItem tabId slotId = some destItem := hdest
  generalize v.removeItem I player (.player bag playerSlotId) (.bank tabId slotId) item 0 =
    v₁ at *
  obtain ⟨hremoves', hbags', -, hempty⟩ := removes_bank (I := I) hremoves.stocked player
    (.player bag playerSlotId) hdest₁ hstack'.1
  generalize v₁.removeItem I player (.bank tabId slotId) (.player bag playerSlotId) destItem 0 =
    v₂ at *
  have htab₂ : tabId < v₂.guild.bankTabs.length := by
    rw [hremoves'.bankTabs, hremoves.bankTabs]
    exact htab
  have hknown₂ : item.guid < v₂.nextGuid := by
    rw [hremoves'.nextGuid, hremoves.nextGuid]
    exact hknown
  -- and stored
  rw [storeItem_vacant htab₂ (hempty rfl)]
  have hstores := stores_vacant (I := I) hremoves'.stocked htab₂ hslot (hempty rfl) hstack
    (hremoves'.lacks (hremoves.gone rfl)) hknown₂
  have hbags₃ : (v₂.setItem tabId slotId (some item)).bags =
      I.moveItemFromInventory v.bags bag playerSlotId := by
    rw [bags_setItem, hbags', hbags₁]
  obtain ⟨hstocked, htotal⟩ := storeItem_player hstores.stocked hI bag playerSlotId
    (fun entry => hbags₃ ▸ hI.swap v.bags bag playerSlotId destItem vec' _ hvec' entry)
  refine ⟨hstocked, fun entry => ?_⟩
  rw [htotal, hstores.total_whole, ← hremoves.total_whole, ← hremoves'.total_whole]
  omega

theorem kept_swap (hI : I.Conserves) (hv : v.Stocked stackable) (hc : v.Carried I stackable)
    (hbetween : Between src dest) (hitem : v.initItem I src = some item)
    (hdest : v.initItem I dest = some destItem)
    (h : v.doItemsMove I stackable player src dest item item (some destItem) 0 = .ok v') :
    Kept I stackable v v' := by
  cases src with
  | bank tabId slotId =>
    cases dest with
    | bank destTabId destSlotId => exact kept_swap_bank hv hbetween.2 hitem hdest h
    | player bag slotId => exact kept_swap_toChar hI hv hc hitem (getItemByPos_of_initItem hdest) h
  | player bag slotId =>
    cases dest with
    | bank destTabId destSlotId =>
      exact kept_swap_fromChar hI hv hc (getItemByPos_of_initItem hitem) hdest h
    | player => exact hbetween.elim

/-! ## 11. What a move comes to -/

/-- What is refused has not begun. -/
structure Settles (I : Inventory σ) (stackable : ℕ → ℤ) (v : Vault σ)
    (outcome : Option Refusal × Vault σ) : Prop where
  kept : Kept I stackable v outcome.2
  refused : outcome.1 ≠ none → outcome.2.items = v.items ∧ outcome.2.bags = v.bags

theorem settles_moveItems (hI : I.Conserves) (hv : v.Stocked stackable) (hc : v.Carried I stackable)
    (player : ℕ) (hbetween : Between src dest) (splitedAmount : ℕ) :
    Settles I stackable v (v.moveItems I stackable player src dest splitedAmount) := by
  have hnothing : ∀ refusal, Settles I stackable v (refusal, v) :=
    fun refusal => ⟨⟨hv, fun _ => rfl⟩, fun _ => ⟨rfl, rfl⟩⟩
  unfold moveItems
  split
  · exact hnothing _
  rename_i item hitem
  split
  · exact hnothing _
  rename_i splitedAmount' hcheck
  split
  · exact hnothing _
  split
  · -- a part of the item
    rename_i hpart
    have hsplit : splitedAmount' < item.count := by
      unfold checkItem at hcheck
      split at hcheck
      · nomatch hcheck
      split at hcheck
      · exact absurd (Option.some.inj hcheck).symm hpart
      · have heq := Option.some.inj hcheck
        omega
    refine ⟨kept_movePart hI hv hc hbetween hitem hsplit, fun hrefused => ?_⟩
    unfold movePart at hrefused ⊢
    split
    · exact ⟨rfl, rfl⟩
    rename_i clone v₁ hclone
    have hsame : v₁.items = v.items ∧ v₁.bags = v.bags := by
      unfold cloneItem at hclone
      split at hclone
      · nomatch hclone
      · obtain ⟨-, rfl⟩ := Prod.mk.inj (Option.some.inj hclone)
        exact ⟨rfl, rfl⟩
    rw [hclone] at hrefused
    dsimp only at hrefused ⊢
    split
    · rename_i hmove
      rw [hmove] at hrefused
      exact absurd rfl hrefused
    · exact hsame
  · -- all of it
    unfold moveWhole
    split
    · rename_i hmove
      exact ⟨kept_moveWhole_merge hI hv hc hbetween hitem hmove, fun h => absurd rfl h⟩
    split
    · exact hnothing _
    rename_i destItem hdest
    split
    · exact hnothing _
    split
    · rename_i hmove
      exact ⟨kept_swap hI hv hc hbetween hitem hdest hmove, fun h => absurd rfl h⟩
    · exact hnothing _

/-- **Items are conserved.**  Whatever is moved, there is as much of everything as before, the
bank is in order, and what is refused has changed nothing. -/
theorem items_conserved (hI : I.Conserves) (hv : v.Stocked stackable) (hc : v.Carried I stackable) :
    (∀ player tabId slotId destTabId destSlotId splitedAmount, Settles I stackable v
      (v.swapItems I stackable player tabId slotId destTabId destSlotId splitedAmount)) ∧
    ∀ player toChar tabId slotId playerBag playerSlotId splitedAmount, Settles I stackable v
      (v.swapItemsWithInventory I stackable player toChar tabId slotId playerBag playerSlotId
        splitedAmount) := by
  have hnothing : ∀ refusal, Settles I stackable v (refusal, v) :=
    fun refusal => ⟨⟨hv, fun _ => rfl⟩, fun _ => ⟨rfl, rfl⟩⟩
  constructor
  · intro player tabId slotId destTabId destSlotId splitedAmount
    unfold swapItems
    dsimp only
    split
    · exact hnothing _
    rename_i hslots
    split
    · exact hnothing _
    rename_i hsame
    have hslot : destSlotId < guildBankMaxSlots :=
      Nat.lt_of_not_le fun h => hslots (Or.inr (Or.inr (Or.inr h)))
    have hbetween : Between (.bank tabId slotId) (.bank destTabId destSlotId) :=
      ⟨hslot, fun h => hsame ⟨h.1.symm, h.2.symm⟩⟩
    exact settles_moveItems hI hv hc player hbetween splitedAmount
  · intro player toChar tabId slotId playerBag playerSlotId splitedAmount
    unfold swapItemsWithInventory
    split
    · exact hnothing _
    rename_i hslots
    split
    · have hbetween : Between (.bank tabId slotId) (.player playerBag playerSlotId) := trivial
      exact settles_moveItems hI hv hc player hbetween splitedAmount
    · have hbetween : Between (.player playerBag playerSlotId) (.bank tabId slotId) := by
        by_cases hnull : slotId = nullSlot
        · exact Or.inr hnull
        · exact Or.inl (Nat.lt_of_not_le fun h => hslots (Or.inl ⟨h, hnull⟩))
      exact settles_moveItems hI hv hc player hbetween splitedAmount

/-! ## 12. What is counted -/

/-- What `_MoveItems` finds on its way. -/
def moving (I : Inventory σ) (stackable : ℕ → ℤ) (v : Vault σ) (src dest : Side)
    (splitedAmount : ℕ) : Guild.Moving :=
  match v.initItem I src with
  | none => ⟨false, false, false, false, false, false, false⟩
  | some item =>
    match checkItem item splitedAmount with
    | none => ⟨true, false, false, false, false, false, false⟩
    | some splitedAmount =>
      match v.cloneItem stackable item splitedAmount with
      | some (clone, v) =>
        ⟨true, true, true, true, (v.canStore I stackable dest clone false).isOk, false, false⟩
      | none =>
        { srcItem := true, splitFits := true, split := false, cloned := false
          merges := (v.canStore I stackable dest item false).isOk
          destItem := (v.initItem I dest).isSome
          swaps := (v.initItem I dest).any fun destItem =>
            (v.canStore I stackable dest item true).isOk &&
              (v.canStore I stackable src destItem true).isOk }

theorem guild_removeItem (player : ℕ) (side other : Side) (item : Item) (splitedAmount : ℕ) :
    (v.removeItem I player side other item splitedAmount).guild =
      v.guild.removeItem player side.place other.place := by
  cases side <;> rfl

theorem guild_storeItem (side : Side) (vec : List ItemPosCount) (item : Item) :
    (v.storeItem I stackable side vec item).guild = v.guild := by
  have hat : ∀ (v : Vault σ) tabId pos clone,
      (v.storeItemAt stackable tabId item pos clone).guild = v.guild := by
    intro v tabId pos clone
    unfold storeItemAt cloneItem
    split
    · exact guild_setItem ..
    split
    · split
      · rename_i hclone
        split at hclone
        · nomatch hclone
        · obtain ⟨-, rfl⟩ := Prod.mk.inj (Option.some.inj hclone)
          exact guild_setItem ..
      · rfl
    · exact guild_setItem ..
  have hloop : ∀ (vec : List ItemPosCount) (v : Vault σ) tabId,
      (storeItems stackable tabId item vec v).guild = v.guild := by
    intro vec
    induction vec with
    | nil => exact fun _ _ => rfl
    | cons pos vec ih => exact fun v tabId => (ih _ tabId).trans (hat v tabId pos _)
  cases side with
  | bank tabId slotId =>
    unfold storeItem
    dsimp only
    split
    · exact hloop vec v tabId
    · rfl
  | player => rfl

theorem guild_doItemsMove {srcItem : Item} {destItem : Option Item}
    (h : v.doItemsMove I stackable player src dest item srcItem destItem splitedAmount = .ok v') :
    v'.guild = if destItem.isSome then
        (v.guild.removeItem player src.place dest.place).removeItem player dest.place src.place
      else v.guild.removeItem player src.place dest.place := by
  cases destItem with
  | none =>
    obtain ⟨vec, -, rfl⟩ := doItemsMove_none h
    rw [guild_storeItem, guild_removeItem]
    rfl
  | some destItem =>
    obtain ⟨vec, vec', -, -, rfl⟩ := doItemsMove_some h
    rw [guild_storeItem, guild_storeItem, guild_removeItem, guild_removeItem]
    rfl

theorem isOk_doItemsMove_none (player splitedAmount : ℕ) (src dest : Side)
    (item srcItem : Item) :
    (v.doItemsMove I stackable player src dest item srcItem none splitedAmount).isOk =
      (v.canStore I stackable dest srcItem false).isOk := by
  unfold doItemsMove
  rw [Option.isSome_none]
  cases v.canStore I stackable dest srcItem false <;> rfl

theorem isOk_doItemsMove_some (player splitedAmount : ℕ) (src dest : Side)
    (item srcItem destItem : Item) :
    (v.doItemsMove I stackable player src dest item srcItem (some destItem) splitedAmount).isOk =
      ((v.canStore I stackable dest srcItem true).isOk &&
        (v.canStore I stackable src destItem true).isOk) := by
  unfold doItemsMove
  rw [Option.isSome_some]
  cases v.canStore I stackable dest srcItem true with
  | error => rfl
  | ok vec =>
    dsimp only [bind, Except.bind]
    cases v.canStore I stackable src destItem true <;> rfl

/-- A part that is moved is counted if there is room for it. -/
theorem guild_movePart (player : ℕ) (hstore : v.guild.hasStoreRights player dest.place src.place)
    (hwithdraw : v.guild.hasWithdrawRights player src.place dest.place)
    (hitem : v.initItem I src = some item) {splitedAmount' : ℕ}
    (hcheck : checkItem item splitedAmount' = some splitedAmount) (hpart : splitedAmount ≠ 0) :
    (v.movePart I stackable player src dest item splitedAmount).2.guild =
      v.guild.moveItems player src.place dest.place
        (v.moving I stackable src dest splitedAmount') := by
  obtain ⟨clone, v₁, hclone, hguild⟩ : ∃ clone v₁,
      v.cloneItem stackable item splitedAmount = some (clone, v₁) ∧ v₁.guild = v.guild :=
    ⟨_, _, if_neg fun h => hpart (Nat.lt_one_iff.mp h), rfl⟩
  have hmoving : v.moving I stackable src dest splitedAmount' =
      ⟨true, true, true, true, (v₁.canStore I stackable dest clone false).isOk, false, false⟩ := by
    unfold moving
    rw [hitem]
    dsimp only
    rw [hcheck]
    dsimp only
    rw [hclone]
  have hok : (v₁.doItemsMove I stackable player src dest item clone none splitedAmount).isOk =
      (v₁.canStore I stackable dest clone false).isOk := isOk_doItemsMove_none ..
  unfold movePart Guild.moveItems Guild.removals
  rw [hclone, hmoving, ← hok]
  simp only [hstore, hwithdraw, not_true_eq_false, or_self, if_false, if_true, true_and]
  cases hmove : v₁.doItemsMove I stackable player src dest item clone none splitedAmount with
  | ok v' =>
    have hafter := guild_doItemsMove hmove
    rw [hguild] at hafter
    exact hafter
  | error => exact hguild

/-- All of an item is counted if there is room beside what is there, or in its place. -/
theorem guild_moveWhole (player : ℕ) (hstore : v.guild.hasStoreRights player dest.place src.place)
    (hwithdraw : v.guild.hasWithdrawRights player src.place dest.place)
    (hitem : v.initItem I src = some item) (hcheck : checkItem item splitedAmount = some 0) :
    (v.moveWhole I stackable player src dest item).2.guild =
      v.guild.moveItems player src.place dest.place
        (v.moving I stackable src dest splitedAmount) := by
  have hmerges : (v.doItemsMove I stackable player src dest item item none 0).isOk =
      (v.canStore I stackable dest item false).isOk := isOk_doItemsMove_none ..
  have hmoving : v.moving I stackable src dest splitedAmount =
      { srcItem := true, splitFits := true, split := false, cloned := false
        merges := (v.canStore I stackable dest item false).isOk
        destItem := (v.initItem I dest).isSome
        swaps := (v.initItem I dest).any fun destItem =>
          (v.canStore I stackable dest item true).isOk &&
            (v.canStore I stackable src destItem true).isOk } := by
    unfold moving
    rw [hitem]
    dsimp only
    rw [hcheck]
    rfl
  unfold moveWhole Guild.moveItems Guild.removals
  rw [hmoving, ← hmerges]
  simp only [hstore, hwithdraw, not_true_eq_false, or_self, if_false, Bool.false_eq_true]
  cases hmerge : v.doItemsMove I stackable player src dest item item none 0 with
  | ok v' => exact guild_doItemsMove hmerge
  | error =>
    cases hdest : v.initItem I dest with
    | none => rfl
    | some destItem =>
      have hswaps : (v.doItemsMove I stackable player src dest item item (some destItem) 0).isOk =
          ((v.canStore I stackable dest item true).isOk &&
            (v.canStore I stackable src destItem true).isOk) := isOk_doItemsMove_some ..
      dsimp only
      rw [Option.any_some, ← hswaps]
      by_cases hback : v.guild.hasStoreRights player src.place dest.place
      swap
      · simp [hback, Except.isOk, Except.toBool]
      by_cases hback' : v.guild.hasWithdrawRights player dest.place src.place
      swap
      · simp [hback, hback', Except.isOk, Except.toBool]
      rw [if_neg (by simp [hback, hback'])]
      cases hswap : v.doItemsMove I stackable player src dest item item (some destItem) 0 with
      | ok v' =>
        have hafter := guild_doItemsMove hswap
        simpa [hback, hback', Except.isOk, Except.toBool] using hafter
      | error => simp [hback, hback', Except.isOk, Except.toBool]

/-- **The move counts** what the move of a `Moving` counts. -/
theorem guild_moveItems (player : ℕ) (src dest : Side) (splitedAmount : ℕ) :
    (v.moveItems I stackable player src dest splitedAmount).2.guild =
      v.guild.moveItems player src.place dest.place
        (v.moving I stackable src dest splitedAmount) := by
  cases hitem : v.initItem I src with
  | none =>
    have hmoving : v.moving I stackable src dest splitedAmount =
        ⟨false, false, false, false, false, false, false⟩ := by
      unfold moving
      rw [hitem]
    unfold moveItems
    rw [hitem, hmoving]
    rfl
  | some item =>
    cases hcheck : checkItem item splitedAmount with
    | none =>
      have hmoving : v.moving I stackable src dest splitedAmount =
          ⟨true, false, false, false, false, false, false⟩ := by
        unfold moving
        rw [hitem]
        dsimp only
        rw [hcheck]
      unfold moveItems
      rw [hitem, hmoving]
      dsimp only
      rw [hcheck]
      rfl
    | some n =>
      unfold moveItems
      rw [hitem]
      dsimp only
      rw [hcheck]
      dsimp only
      split
      · rename_i hrights
        have hnone : ∀ o, v.guild.removals player src.place dest.place o = [] := by
          intro o
          unfold Guild.removals
          rcases hrights with h | h <;> simp [h]
        exact (congrArg (List.foldl _ v.guild) (hnone _)).symm
      rename_i hrights
      obtain ⟨hstore, hwithdraw⟩ := not_or.mp hrights
      split
      · exact guild_movePart player (not_not.mp hstore) (not_not.mp hwithdraw) hitem hcheck ‹_›
      · rename_i hn
        obtain rfl : n = 0 := not_not.mp hn
        exact guild_moveWhole player (not_not.mp hstore) (not_not.mp hwithdraw) hitem hcheck

end Vault

/-! ## 13. One stack and one tab -/

/-- A player with one place for an item. -/
def onePlace : Inventory (Option Item) where
  getItemByPos s _ _ := s
  isNotEmptyBag _ _ := false
  canBeTraded _ item := !item.soulBound
  setCount s _ _ count := s.map fun item => { item with count }
  moveItemFromInventory _ _ _ := none
  canStoreItem s _ slotId item swap :=
    if s.isNone ∨ swap then .ok [⟨slotId, item.count⟩] else .error (.player 50)
  moveItemToInventory _ _ item guid := (some item, guid)
  total s entry := amount entry s

theorem conserves_onePlace : onePlace.Conserves where
  remove := by
    rintro s bag slotId item rfl entry
    exact Nat.zero_add _
  split := by
    rintro s bag slotId item n rfl hlt entry
    have hparts := amount_add entry item (item.count - n) n
    rw [Nat.sub_add_cancel hlt.le] at hparts
    exact hparts.symm
  store := by
    intro s bag slotId item vec guid h entry
    cases s with
    | none => exact (Nat.zero_add _).symm
    | some x => nomatch h
  swap _ _ _ _ _ _ _ _ := (Nat.zero_add _).symm
  newGuids _ _ _ guid := Nat.le_refl guid

/-- Five of an item lie in the first slot. -/
def fiveInBank : Vault (Option Item) where
  guild := { menders with bankTabs := [⟨"", "", ""⟩] }
  items p := if p = (0, 0) then some ⟨7, 2589, 5, false⟩ else none
  bags := none
  nextGuid := 8

theorem getItem_fiveInBank {tabId slotId : ℕ} {x : Item}
    (h : fiveInBank.getItem tabId slotId = some x) :
    tabId = 0 ∧ slotId = 0 ∧ x = ⟨7, 2589, 5, false⟩ := by
  unfold Vault.getItem at h
  split at h
  · have hat : (if (tabId, slotId) = (0, 0) then some (⟨7, 2589, 5, false⟩ : Item) else none) =
      some x := h
    split at hat
    · rename_i heq
      exact ⟨(Prod.mk.inj heq).1, (Prod.mk.inj heq).2, (Option.some.inj hat).symm⟩
    · nomatch hat
  · nomatch h

/-- Two of the five go to the player. -/
theorem items_conserved_two : fiveInBank.Settles onePlace (fun _ => 20)
    (fiveInBank.swapItemsWithInventory onePlace (fun _ => 20) 1 true 0 0 255 23 2) := by
  have hcarried : fiveInBank.Carried onePlace fun _ => 20 :=
    fun _ _ x (hx : none = some x) => nomatch hx
  refine (Vault.items_conserved conserves_onePlace ⟨?_, ?_, ?_⟩ hcarried).2 1 true 0 0 255 23 2
  · intro t s x hx
    obtain ⟨-, -, rfl⟩ := getItem_fiveInBank hx
    decide
  · intro t s t' s' x hx x' hx' _
    obtain ⟨rfl, rfl, -⟩ := getItem_fiveInBank hx
    obtain ⟨rfl, rfl, -⟩ := getItem_fiveInBank hx'
    exact ⟨rfl, rfl⟩
  · intro t s x hx
    obtain ⟨-, -, rfl⟩ := getItem_fiveInBank hx
    decide

end HungerGames.Guilds
