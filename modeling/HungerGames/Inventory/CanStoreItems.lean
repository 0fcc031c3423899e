/-
# Whether several items can be stored

`CanStoreItems` tells whether the items of a trade have room with a player, all at once.  It keeps a
table of the units at each slot, in which items that are traded away count as gone, and each item in
turn takes a stack that has room for the whole of it or a free slot.  The limits on similar items
are asked for each item alone.
-/
import HungerGames.Inventory.CanStoreItem

namespace HungerGames.Inventory

/-- The units at each slot. -/
abbrev SpaceTable := Position → ℕ

variable (S : Stores) (pl : Player)

/-- The table that is filled first. -/
def spaceTable (isInTrade : ℕ → Bool) : SpaceTable := fun pos =>
  match pl.getItemByPos S pos with
  | none => 0
  | some i => if isInTrade i.guid then 0 else i.count

/-- The slots of the bags that are worn, of some kind. -/
def positionsInBags (kind : ItemTemplate → Bool) : List Position :=
  bagSlots.flatMap fun t =>
    match pl.getBagByPos S t with
    | none => []
    | some bag =>
      if (S.itemTemplate bag.item.entry).any kind then
        (List.range (bag.getBagSize S)).map (⟨t, ·⟩)
      else []

/-- Where a stack to merge with is searched. -/
def mergePositions (pProto : ItemTemplate) : List Position :=
  ownPositions keyringSlots ++ ownPositions currencySlots ++ ownPositions packSlots ++
    positionsInBags S pl (itemCanGoIntoBag pProto)

/-- Where a free slot is searched. -/
def freePositions (pProto : ItemTemplate) : List Position :=
  (if pProto.bagFamily ≠ 0 then
    (if pProto.isKey then ownPositions keyringSlots else []) ++
      (if pProto.isCurrencyToken then ownPositions currencySlots else []) ++
        positionsInBags S pl fun pBagProto =>
          !pBagProto.isPlainBag && itemCanGoIntoBag pProto pBagProto
  else []) ++
    ownPositions packSlots ++ positionsInBags S pl (·.isPlainBag)

/-- A stack that has room for the whole item. -/
def takesWhole (pProto : ItemTemplate) (count : ℕ) (table : SpaceTable) (pos : Position) : Bool :=
  (pl.getItemByPos S pos).any fun i => i.canBeMergedPartlyWith pProto = .ok ∧
    add32 (table pos) count ≤ pProto.getMaxStackSize

/-- One item of `CanStoreItems`: none where the result is not `EQUIP_ERR_OK`. -/
def takeSpace (table : SpaceTable) (item : ItemOrBag) : Option SpaceTable :=
  match S.itemTemplate item.item.entry with
  | none => none
  | some pProto =>
    if item.item.lootGenerated then none
    else if isBindedNotWith S pl item.item then none
    else if (canTakeMoreSimilarItems S pl item.item.entry item.item.count (some item)).result ≠ .ok
    then none
    else
      match
        if pProto.stackable ≠ 1 then
          (mergePositions S pl pProto).find? (takesWhole S pl pProto item.item.count table)
        else none with
      | some pos => some (Function.update table pos (add32 (table pos) item.item.count))
      | none =>
        ((freePositions S pl pProto).find? (table · = 0)).map fun pos => Function.update table pos 1

/-- `CanStoreItems` returns `EQUIP_ERR_OK`. -/
def canStoreItems (isInTrade : ℕ → Bool) (items : List ItemOrBag) : Bool :=
  (items.foldlM (takeSpace S pl) (spaceTable S pl isInTrade)).isSome

end HungerGames.Inventory
