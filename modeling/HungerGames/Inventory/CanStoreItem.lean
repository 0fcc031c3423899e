/-
# Planning where an item is stored

`CanStoreItem` plans where `count` units of an item go: to the slot it is given, to the bag it
is given, then to stacks of the same item and to free slots all over the inventory.  Its passes
share one list of positions and one count of what is left, and it returns as soon as nothing is
left.  `no_space_count` is not always written: `none` stands for a return that leaves it alone.

The item that is moved counts as if its slot were empty.
-/
import HungerGames.Inventory.Items
import HungerGames.System.Filling

namespace HungerGames.Inventory

open HungerGames.System

/-- `ItemPosCountVec`. -/
abbrev ItemPosCountVec := List (Position × ℕ)

/-- The positions planned so far, and the units that are left. -/
abbrev Plan := Filling Position

/-! ## 1. How much one slot takes -/

def Item.canBeMergedPartlyWith (i : Item) (proto : ItemTemplate) : InventoryResult :=
  if i.lootGenerated then .alreadyLooted
  else if i.entry ≠ proto.itemId then .itemCantStack
  else if proto.getMaxStackSize ≤ i.count then .itemCantStack
  else .ok

/-- The slot of the moved item will be empty at the move. -/
def ignoreMoved (pSrcItem : Option ItemOrBag) (pItem2 : Option Item) : Option Item :=
  pItem2.filter fun i => !isSkipped pSrcItem i

/-- What a slot takes in a pass that looks for stacks, or for free slots. -/
def offered (pProto : ItemTemplate) (merge : Bool) : Option Item → Option ℕ
  | none => if merge then none else some pProto.getMaxStackSize
  | some i =>
    if merge ∧ i.canBeMergedPartlyWith pProto = .ok then some (pProto.getMaxStackSize - i.count)
    else none

variable (S : Stores) (pl : Player)

/-- The checks of an empty slot; every one fails with `EQUIP_ERR_ITEM_DOESNT_GO_INTO_BAG`. -/
def fitsSlot (pos : Position) (pProto : ItemTemplate) : Bool :=
  if pos.bag = inventorySlotBag0 then
    !(86 ≤ pos.slot && pos.slot < 118 && !pProto.isKey) &&
    !(118 ≤ pos.slot && pos.slot < 150 && !pProto.isCurrencyToken) &&
    !((74 ≤ pos.slot && pos.slot < 86) || 150 ≤ pos.slot)
  else
    match pl.getBagByPos S pos.bag with
    | none => false
    | some pBag =>
      match S.itemTemplate pBag.item.entry with
      | none => false
      | some pBagProto =>
        decide (pos.slot < pBagProto.containerSlots) && itemCanGoIntoBag pProto pBagProto

/-- The free space of the given slot. -/
def spaceInSpecificSlot (pos : Position) (pProto : ItemTemplate) (swap : Bool)
    (pSrcItem : Option ItemOrBag) : Except InventoryResult ℕ :=
  if pSrcItem.any (·.isNotEmptyBag S) ∧ ¬ isBagPos pos then .error .canOnlyDoWithEmptyBags
  else
    match if swap then none else ignoreMoved pSrcItem (pl.getItemByPos S pos) with
    | none =>
      if fitsSlot S pl pos pProto then .ok pProto.getMaxStackSize
      else .error .itemDoesntGoIntoBag
    | some pItem2 =>
      match pItem2.canBeMergedPartlyWith pProto with
      | .ok => .ok (pProto.getMaxStackSize - pItem2.count)
      | res => .error res

def canStoreItem_InSpecificSlot (pos : Position) (dest : Plan) (pProto : ItemTemplate)
    (swap : Bool) (pSrcItem : Option ItemOrBag) : InventoryResult × Plan :=
  match spaceInSpecificSlot S pl pos pProto swap pSrcItem with
  | .error res => (res, dest)
  | .ok needSpace => (.ok, dest.put pos needSpace)

/-- What the slots of a pass take; `skip` is the slot that was given. -/
def roomAt (pProto : ItemTemplate) (merge : Bool) (pSrcItem : Option ItemOrBag)
    (skip : Position → Bool) (pos : Position) : Option ℕ :=
  if skip pos then none
  else offered pProto merge (ignoreMoved pSrcItem (pl.getItemByPos S pos))

def canStoreItem_InBag (bag : ℕ) (dest : Plan) (pProto : ItemTemplate) (merge nonSpecialized : Bool)
    (pSrcItem : Option ItemOrBag) (skipBag skipSlot : ℕ) : InventoryResult × Plan :=
  if bag = skipBag then (.itemDoesntGoIntoBag, dest)
  else
    match pl.getBagByPos S bag with
    | none => (.itemDoesntGoIntoBag, dest)
    | some pBag =>
      if isSkipped pSrcItem pBag.item then (.itemDoesntGoIntoBag, dest)
      else if pSrcItem.any (·.isNotEmptyBag S) then (.canOnlyDoWithEmptyBags, dest)
      else
        match S.itemTemplate pBag.item.entry with
        | none => (.itemDoesntGoIntoBag, dest)
        | some pBagProto =>
          if nonSpecialized ≠ pBagProto.isPlainBag then (.itemDoesntGoIntoBag, dest)
          else if !itemCanGoIntoBag pProto pBagProto then (.itemDoesntGoIntoBag, dest)
          else
            (.ok, dest.pour (roomAt S pl pProto merge pSrcItem fun pos => pos.slot = skipSlot)
              ((List.range (pBag.getBagSize S)).map (⟨bag, ·⟩)))

/-- The positions of some slots of `m_items`. -/
def ownPositions (slots : List ℕ) : List Position := slots.map (⟨inventorySlotBag0, ·⟩)

/-- A pass over `m_items` skips the slot that was given. -/
def skipsOwn (skipBag skipSlot : ℕ) (pos : Position) : Bool :=
  inventorySlotBag0 = skipBag ∧ pos.slot = skipSlot

def canStoreItem_InInventorySlots (slots : List ℕ) (dest : Plan) (pProto : ItemTemplate)
    (merge : Bool) (pSrcItem : Option ItemOrBag) (skipBag skipSlot : ℕ) : InventoryResult × Plan :=
  if pSrcItem.any (·.isNotEmptyBag S) then (.canOnlyDoWithEmptyBags, dest)
  else
    (.ok, dest.pour (roomAt S pl pProto merge pSrcItem (skipsOwn skipBag skipSlot))
      (ownPositions slots))

/-! ## 2. Limits on similar items -/

/-- What `CanTakeMoreSimilarItems` returns and writes; `noSpaceCount` is 0 before the call. -/
structure Similar where
  result : InventoryResult
  noSpaceCount : ℕ
  itemLimitCategory : Option ℕ

/-- The limit on the items of one category. -/
def canTakeMoreOfCategory (pProto : ItemTemplate) (count : ℕ) (pItem : Option ItemOrBag) :
    Similar :=
  if pProto.itemLimitCategory = 0 then ⟨.ok, 0, none⟩
  else
    match S.itemLimitCategory pProto.itemLimitCategory with
    | none => ⟨.itemCantBeEquipped, count, none⟩
    | some limitEntry =>
      let curcount := pl.getItemCountWithLimitCategory S pProto.itemLimitCategory pItem
      if limitEntry.mode = 0 ∧ limitEntry.maxCount < add32 curcount count then
        ⟨.itemMaxLimitCategoryCountExceeded,
          sub32 (add32 count curcount) limitEntry.maxCount, some pProto.itemLimitCategory⟩
      else ⟨.ok, 0, none⟩

def canTakeMoreSimilarItems (entry count : ℕ) (pItem : Option ItemOrBag) : Similar :=
  match S.itemTemplate entry with
  | none => ⟨.cantCarryMoreOfThis, count, none⟩
  | some pProto =>
    if pItem.any (·.item.lootGenerated) then ⟨.alreadyLooted, 0, none⟩
    else if (pProto.maxCount ≤ 0 ∧ pProto.itemLimitCategory = 0) ∨ pProto.maxCount = 2147483647
    then ⟨.ok, 0, none⟩
    else
      let curcount := pl.getItemCount S pProto.itemId true pItem
      if 0 < pProto.maxCount ∧ pProto.maxCount.toNat < add32 curcount count then
        ⟨.cantCarryMoreOfThis, sub32 (add32 count curcount) pProto.maxCount.toNat, none⟩
      else canTakeMoreOfCategory S pl pProto count pItem

/-! ## 3. The planner -/

/-- What `CanStoreItem` returns and writes. -/
structure StoreAnswer where
  result : InventoryResult
  dest : ItemPosCountVec
  noSpaceCount : Option ℕ
  deriving DecidableEq

/-- The return with nothing left, when it is time for it. -/
def finished (noSimilarCount : ℕ) (plan : Plan) : Except StoreAnswer Plan :=
  if plan.left = 0 then
    if noSimilarCount = 0 then .error ⟨.ok, plan.placed, none⟩
    else .error ⟨.cantCarryMoreOfThis, plan.placed, some (add32 plan.left noSimilarCount)⟩
  else .ok plan

/-- A pass whose failure is the answer. -/
def attempt (noSimilarCount : ℕ) (pass : InventoryResult × Plan) : Except StoreAnswer Plan :=
  if pass.1 ≠ .ok then .error ⟨pass.1, pass.2.placed, some (add32 pass.2.left noSimilarCount)⟩
  else finished noSimilarCount pass.2

/-- A pass whose failure is passed over. -/
def attemptBag (noSimilarCount : ℕ) (pass : InventoryResult × Plan) : Except StoreAnswer Plan :=
  if pass.1 ≠ .ok then .ok pass.2 else finished noSimilarCount pass.2

section Planner

variable (pProto : ItemTemplate) (pItem : Option ItemOrBag) (bag slot noSimilarCount : ℕ)

/-- A pass over slots of `m_items`. -/
def passSlots (slots : List ℕ) (merge : Bool) (plan : Plan) : Except StoreAnswer Plan :=
  attempt noSimilarCount
    (canStoreItem_InInventorySlots S pl slots plan pProto merge pItem bag slot)

/-- A pass over the bags that are worn. -/
def passBags (merge nonSpecialized : Bool) (plan : Plan) : Except StoreAnswer Plan :=
  bagSlots.foldlM (fun plan i =>
    attemptBag noSimilarCount
      (canStoreItem_InBag S pl i plan pProto merge nonSpecialized pItem bag slot)) plan

/-- The given bag is tried as a specialised one and as a plain one. -/
def passGivenBag (merge : Bool) (plan : Plan) : Except StoreAnswer Plan :=
  let special := canStoreItem_InBag S pl bag plan pProto merge false pItem nullBag slot
  attempt noSimilarCount
    (if special.1 ≠ .ok then
      canStoreItem_InBag S pl bag special.2 pProto merge true pItem nullBag slot
    else special)

/-- In the given slot. -/
def inGivenSlot (swap : Bool) (plan : Plan) : Except StoreAnswer Plan :=
  if bag ≠ nullBag ∧ slot ≠ nullSlot then
    attempt noSimilarCount (canStoreItem_InSpecificSlot S pl ⟨bag, slot⟩ plan pProto swap pItem)
  else .ok plan

/-- In the given bag: first the stacks. -/
def mergeInGivenBag (plan : Plan) : Except StoreAnswer Plan :=
  if pProto.stackable = 1 then .ok plan
  else if bag = inventorySlotBag0 then do
    let plan ← passSlots S pl pProto pItem bag slot noSimilarCount ringAndCurrencySlots true plan
    passSlots S pl pProto pItem bag slot noSimilarCount packSlots true plan
  else passGivenBag S pl pProto pItem bag slot noSimilarCount true plan

/-- In the given bag: then the free slots. -/
def freeInGivenBag (plan : Plan) : Except StoreAnswer Plan :=
  if bag = inventorySlotBag0 then do
    let plan ←
      if pProto.isKey then do
        let plan ← passSlots S pl pProto pItem bag slot noSimilarCount keyringSlots false plan
        passSlots S pl pProto pItem bag slot noSimilarCount currencySlots false plan
      else if pProto.isCurrencyToken then
        passSlots S pl pProto pItem bag slot noSimilarCount currencySlots false plan
      else .ok plan
    passSlots S pl pProto pItem bag slot noSimilarCount packSlots false plan
  else passGivenBag S pl pProto pItem bag slot noSimilarCount false plan

def inGivenBag (plan : Plan) : Except StoreAnswer Plan :=
  if bag ≠ nullBag then do
    let plan ← mergeInGivenBag S pl pProto pItem bag slot noSimilarCount plan
    freeInGivenBag S pl pProto pItem bag slot noSimilarCount plan
  else .ok plan

/-- The stacks of the whole inventory. -/
def mergeAnywhere (plan : Plan) : Except StoreAnswer Plan :=
  if pProto.stackable = 1 then .ok plan
  else do
    let plan ← passSlots S pl pProto pItem bag slot noSimilarCount ringAndCurrencySlots true plan
    let plan ← passSlots S pl pProto pItem bag slot noSimilarCount packSlots true plan
    let plan ←
      if pProto.bagFamily ≠ 0 then
        passBags S pl pProto pItem bag slot noSimilarCount true false plan
      else .ok plan
    passBags S pl pProto pItem bag slot noSimilarCount true true plan

/-- The free slots for an item of some family. -/
def freeSpecial (plan : Plan) : Except StoreAnswer Plan :=
  if pProto.bagFamily ≠ 0 then do
    let plan ←
      if pProto.isKey then
        passSlots S pl pProto pItem bag slot noSimilarCount keyringSlots false plan
      else if pProto.isCurrencyToken then
        passSlots S pl pProto pItem bag slot noSimilarCount currencySlots false plan
      else .ok plan
    passBags S pl pProto pItem bag slot noSimilarCount false false plan
  else .ok plan

/-- The free slots of the backpack and the plain bags.  A bag that is not empty never comes to
them, and the count is not written then. -/
def freeAnywhere (plan : Plan) : Except StoreAnswer Plan :=
  if pItem.any (·.isNotEmptyBag S) then .error ⟨.nonemptyBagOverOtherBag, plan.placed, none⟩
  else do
    let plan ← passSlots S pl pProto pItem bag slot noSimilarCount packSlots false plan
    passBags S pl pProto pItem bag slot noSimilarCount false true plan

def planItem (swap : Bool) (plan : Plan) : Except StoreAnswer Plan := do
  let plan ← inGivenSlot S pl pProto pItem bag slot noSimilarCount swap plan
  let plan ← inGivenBag S pl pProto pItem bag slot noSimilarCount plan
  let plan ← mergeAnywhere S pl pProto pItem bag slot noSimilarCount plan
  let plan ← freeSpecial S pl pProto pItem bag slot noSimilarCount plan
  freeAnywhere S pl pProto pItem bag slot noSimilarCount plan

end Planner

/-- The end of the function: what goes on to it finds the inventory full. -/
def fullOr (noSimilarCount : ℕ) : Except StoreAnswer Plan → StoreAnswer
  | .error answer => answer
  | .ok plan => ⟨.inventoryFull, plan.placed, some (add32 plan.left noSimilarCount)⟩

def isBindedNotWith (i : Item) : Bool :=
  i.soulBound && i.owner ≠ pl.guid && !(i.bopTradeable && i.allowedGUIDs.contains pl.guid) &&
    !(S.itemTemplate i.entry).any (·.isBoundAccountWide)

def canStoreItem (bag slot : ℕ) (dest : ItemPosCountVec) (entry count : ℕ)
    (pItem : Option ItemOrBag) (swap : Bool) : StoreAnswer :=
  match S.itemTemplate entry with
  | none => ⟨if swap then .itemsCantBeSwapped else .itemNotFound, dest, some count⟩
  | some pProto =>
    if pItem.any (·.item.lootGenerated) then ⟨.alreadyLooted, dest, some count⟩
    else if pItem.any fun o => isBindedNotWith S pl o.item then
      ⟨.dontOwnThatItem, dest, some count⟩
    else
      let similar := canTakeMoreSimilarItems S pl entry count pItem
      if similar.result ≠ .ok ∧ count = similar.noSpaceCount then
        ⟨similar.result, dest, some similar.noSpaceCount⟩
      else
        let left := if similar.result ≠ .ok then sub32 count similar.noSpaceCount else count
        fullOr similar.noSpaceCount
          (planItem S pl pProto pItem bag slot similar.noSpaceCount swap ⟨dest, left⟩)

/-- `CanStoreNewItem`. -/
def canStoreNewItem (bag slot : ℕ) (dest : ItemPosCountVec) (item count : ℕ) : StoreAnswer :=
  canStoreItem S pl bag slot dest item count none false

/-- `CanStoreItem` of an item: the whole stack. -/
def canStoreStack (bag slot : ℕ) (dest : ItemPosCountVec) (pItem : Option ItemOrBag)
    (swap : Bool) : StoreAnswer :=
  match pItem with
  | none => ⟨.itemNotFound, dest, none⟩
  | some o => canStoreItem S pl bag slot dest o.item.entry o.item.count (some o) swap

end HungerGames.Inventory
