/-
# Storing an item by a plan

`_StoreItem` stores one part of a plan: at an empty slot it places the item, or a clone of it
when more parts follow, and at a stack it raises the count.  `StoreItem` does so for the parts of
a plan in order, and `StoreNewItem` creates the item first.  What the item was taken from is
`takenOut`: the inventory after `RemoveItem` of the moved item and of the item it is swapped for.

`storeItem_spec` says what a plan does to an inventory in which every part fits.
-/
import HungerGames.Inventory.CanStoreItem

namespace HungerGames.Inventory

variable (S : Stores)

/-! ## 1. Creating items -/

/-- `Item::CreateItem`: no item at count 0, and no more than a stack. -/
def createItem (guid owner entry count : ℕ) : Option ItemOrBag :=
  if count < 1 then none
  else
    (S.itemTemplate entry).map fun proto =>
      ⟨⟨guid, entry, min count proto.getMaxStackSize, false, false, owner, false, [], []⟩,
        fun _ => none⟩

/-- `Item::CloneItem`: the flags are copied, but the clone cannot be traded. -/
def cloneItem (guid owner count : ℕ) (o : ItemOrBag) : Option ItemOrBag :=
  (createItem S guid owner o.item.entry count).map fun c =>
    { c with item := { c.item with soulBound := o.item.soulBound } }

/-- The item becomes soulbound where it is stored. -/
def bindsAt (entry : ℕ) (pos : Position) : Bool :=
  (S.itemTemplate entry).any fun proto =>
    proto.bonding = 1 ∨ proto.bonding = 4 ∨ (proto.bonding = 2 ∧ isBagPos pos)

/-! ## 2. Writing a slot -/

namespace Player

def setItem (pl : Player) (slot : ℕ) (o : Option ItemOrBag) : Player :=
  { pl with items := Function.update pl.items slot o }

/-- Places an item at an empty slot.  A bag does not take an item with its own guid. -/
def placeAt (pl : Player) (pos : Position) (o : ItemOrBag) : Player :=
  match if pos.bag = inventorySlotBag0 then none else pl.getBagByPos S pos.bag with
  | none => pl.setItem pos.slot (some { o with item := { o.item with owner := pl.guid } })
  | some pBag =>
    if o.item.guid ≠ pBag.item.guid then
      pl.setItem pos.bag (some { pBag with
        bagslot := Function.update pBag.bagslot pos.slot
          (some { o.item with owner := pBag.item.owner }) })
    else pl

/-- Changes the item at a slot. -/
def modifyAt (pl : Player) (pos : Position) (f : Item → Item) : Player :=
  if pos.bag = inventorySlotBag0 ∧ isOwnSlot pos.slot then
    pl.setItem pos.slot ((pl.items pos.slot).map fun o => { o with item := f o.item })
  else
    match pl.getBagByPos S pos.bag with
    | none => pl
    | some pBag =>
      pl.setItem pos.bag (some { pBag with
        bagslot := Function.update pBag.bagslot pos.slot ((pBag.bagslot pos.slot).map f) })

/-- `Player::RemoveItem`. -/
def removeItem (pl : Player) (pos : Position) : Player :=
  if (pl.getItemByPos S pos).isSome then
    if pos.bag = inventorySlotBag0 then pl.setItem pos.slot none
    else
      match pl.getBagByPos S pos.bag with
      | none => pl
      | some pBag =>
        pl.setItem pos.bag (some { pBag with
          bagslot := Function.update pBag.bagslot pos.slot none })
  else pl

/-- The inventory without an object, wherever it lies. -/
def withoutItem (pl : Player) (guid : ℕ) : Player :=
  { pl with items := fun slot => (pl.items slot).bind fun o =>
      if o.item.guid = guid then none
      else some { o with bagslot := fun j => (o.bagslot j).filter (·.guid ≠ guid) } }

/-- The inventory with the moved item and the swap target taken out. -/
def takenOut (pl : Player) (pItem : Option ItemOrBag) (swap : Bool) (pos : Position) : Player :=
  let pl := (pItem.map fun o => pl.withoutItem o.item.guid).getD pl
  if swap then pl.removeItem S pos else pl

end Player

/-! ## 3. Storing -/

/-- What `_StoreItem` leaves, with the item it returns. -/
structure Stored where
  player : Player
  nextGuid : ℕ
  item : Option Item

/-- `_StoreItem`. -/
def storeItemAt (pos : Position) (pItem : ItemOrBag) (count : ℕ) (clone : Bool) (pl : Player)
    (nextGuid : ℕ) : Stored :=
  match pl.getItemByPos S pos with
  | none =>
    match
      if clone then cloneItem S nextGuid pl.guid count pItem
      else some { pItem with item := { pItem.item with count := count } } with
    | none => ⟨pl, nextGuid, none⟩
    | some o =>
      let item := { o.item with soulBound := o.item.soulBound || bindsAt S o.item.entry pos }
      ⟨pl.placeAt S pos { o with item := item }, if clone then nextGuid + 1 else nextGuid,
        some item⟩
  | some pItem2 =>
    let merged := fun i : Item => { i with
      soulBound := i.soulBound || bindsAt S i.entry pos
      count := add32 i.count count }
    ⟨pl.modifyAt S pos merged, nextGuid, some (merged pItem2)⟩

/-- `StoreItem`: the last part takes the item itself, the parts before it clones. -/
def storeItem (pItem : ItemOrBag) : ItemPosCountVec → Player → ℕ → Stored
  | [], pl, nextGuid => ⟨pl, nextGuid, some pItem.item⟩
  | [(pos, count)], pl, nextGuid => storeItemAt S pos pItem count false pl nextGuid
  | (pos, count) :: part :: parts, pl, nextGuid =>
    let stored := storeItemAt S pos pItem count true pl nextGuid
    storeItem pItem (part :: parts) stored.player stored.nextGuid

/-- `SetSoulboundTradeable`. -/
def setSoulboundTradeable (allowedLooters : List ℕ) (i : Item) : Item :=
  { i with bopTradeable := true, allowedGUIDs := allowedLooters }

/-- `StoreNewItem`. -/
def storeNewItem (dest : ItemPosCountVec) (entry : ℕ) (allowedLooters : List ℕ) (pl : Player)
    (nextGuid : ℕ) : Player :=
  let count := (dest.map Prod.snd).sum % 4294967296
  match createItem S nextGuid pl.guid entry count with
  | none => pl
  | some o =>
    let stored := storeItem S o dest pl (nextGuid + 1)
    if 1 < allowedLooters.length ∧ (S.itemTemplate entry).any (·.getMaxStackSize = 1) ∧
        stored.item.any (·.soulBound) then
      (dest.getLast?.map fun last =>
        stored.player.modifyAt S last.1 (setSoulboundTradeable allowedLooters)).getD stored.player
    else stored.player

/-! ## 4. What writing a slot changes -/

section Writing

variable {S} {pl pl' : Player} {pos q : Position} {o b : ItemOrBag} {slot : ℕ}

theorem isBag_of_entry {i j : Item} (h : i.entry = j.entry) : i.isBag S = j.isBag S := by
  unfold Item.isBag
  rw [h]

theorem getBagSize_of_entry (h : o.item.entry = b.item.entry) :
    o.getBagSize S = b.getBagSize S := by
  unfold ItemOrBag.getBagSize
  rw [h]

theorem Player.getBagByPos_setItem_same (h : isBagSlot slot) :
    (pl.setItem slot (some o)).getBagByPos S slot = if o.item.isBag S then some o else none := by
  unfold getBagByPos setItem
  rw [if_pos h]
  dsimp only
  rw [Function.update_self, Option.filter_some]

theorem Player.getBagByPos_setItem_ne {bag : ℕ} {x : Option ItemOrBag} (h : bag ≠ slot) :
    (pl.setItem slot x).getBagByPos S bag = pl.getBagByPos S bag := by
  unfold getBagByPos setItem
  dsimp only
  rw [Function.update_of_ne h]

/-- A slot that is written changes itself and what is inside it. -/
theorem Player.getItemByPos_setItem_ne {x : Option ItemOrBag}
    (hown : ¬ (q.bag = inventorySlotBag0 ∧ q.slot = slot)) (hin : q.bag ≠ slot) :
    (pl.setItem slot x).getItemByPos S q = pl.getItemByPos S q := by
  unfold getItemByPos
  rw [getBagByPos_setItem_ne hin]
  by_cases h : q.bag = inventorySlotBag0 ∧ isOwnSlot q.slot
  · rw [if_pos h, if_pos h]
    have hne : q.slot ≠ slot := fun heq => hown ⟨h.1, heq⟩
    unfold setItem
    dsimp only
    rw [Function.update_of_ne hne]
  · rw [if_neg h, if_neg h]

theorem Player.getItemByPos_setItem_own (h : isOwnSlot slot) {x : Option ItemOrBag} :
    (pl.setItem slot x).getItemByPos S ⟨inventorySlotBag0, slot⟩ = x.map (·.item) := by
  rw [getItemByPos_own h]
  unfold setItem
  dsimp only
  rw [Function.update_self]

/-- Every bag that is worn stays where it is. -/
def KeepsBags (S : Stores) (pl pl' : Player) : Prop :=
  ∀ bag b, pl.getBagByPos S bag = some b →
    ∃ b', pl'.getBagByPos S bag = some b' ∧ b'.item.guid = b.item.guid ∧
      b'.item.entry = b.item.entry

/-- Every other slot holds what it held. -/
def KeepsOthers (S : Stores) (pl pl' : Player) (pos : Position) : Prop :=
  ∀ q, q ≠ pos → pl'.getItemByPos S q = pl.getItemByPos S q

/-- **Writing a slot inside a bag.** -/
theorem Player.writeInBag (hbag : pl.getBagByPos S pos.bag = some b)
    (hsize : pos.slot < b.getBagSize S) (x : Option Item) {pl' : Player}
    (hpl' : pl' = pl.setItem pos.bag
      (some { b with bagslot := Function.update b.bagslot pos.slot x })) :
    pl'.getItemByPos S pos = x ∧ KeepsOthers S pl pl' pos ∧ KeepsBags S pl pl' := by
  obtain ⟨hslot, hitems, hisBag⟩ := getBagByPos_eq_some.mp hbag
  have hne0 : pos.bag ≠ inventorySlotBag0 := by
    intro h
    rw [h, getBagByPos_bag0] at hbag
    cases hbag
  have hnew : pl'.getBagByPos S pos.bag =
      some { b with bagslot := Function.update b.bagslot pos.slot x } := by
    rw [hpl', getBagByPos_setItem_same hslot]
    exact if_pos hisBag
  refine ⟨?_, ?_, ?_⟩
  · have hread := getItemByPos_bag hnew pos.slot
    rw [hread]
    have hfits : pos.slot < ItemOrBag.getBagSize S
        ⟨b.item, Function.update b.bagslot pos.slot x⟩ := hsize
    unfold ItemOrBag.getItemByPos
    rw [if_pos hfits]
    exact Function.update_self _ _ _
  · intro q hq
    by_cases hqbag : q.bag = pos.bag
    · have hqslot : q.slot ≠ pos.slot := fun h => hq (by
        cases q
        cases pos
        simp_all)
      have hread := getItemByPos_bag hnew q.slot
      have hold := getItemByPos_bag hbag q.slot
      rw [← hqbag] at hread hold
      rw [hread, hold]
      unfold ItemOrBag.getItemByPos
      dsimp only
      rw [Function.update_of_ne hqslot]
      rfl
    · by_cases hself : q.bag = inventorySlotBag0 ∧ q.slot = pos.bag
      · have hown : isOwnSlot pos.bag := by
          have hlt := isBagSlot_lt hslot
          unfold isOwnSlot
          simp only [decide_eq_true_eq]
          omega
        have hq' : q = ⟨inventorySlotBag0, pos.bag⟩ := by
          cases q
          simp_all
        rw [hq', hpl', getItemByPos_setItem_own hown, getItemByPos_own hown, hitems]
        rfl
      · rw [hpl']
        exact getItemByPos_setItem_ne hself hqbag
  · intro bag c hc
    by_cases heq : bag = pos.bag
    · rw [heq] at hc ⊢
      rw [hbag] at hc
      cases hc
      exact ⟨_, hnew, rfl, rfl⟩
    · exact ⟨c, by rw [hpl', getBagByPos_setItem_ne heq]; exact hc, rfl, rfl⟩

/-- **Changing an item of `m_items`**, of which the guid and the entry stay. -/
theorem Player.writeOwn (hown : isOwnSlot slot) (hitems : pl.items slot = some o) {i : Item}
    (hguid : i.guid = o.item.guid) (hentry : i.entry = o.item.entry) {pl' : Player}
    (hpl' : pl' = pl.setItem slot (some { o with item := i })) :
    pl'.getItemByPos S ⟨inventorySlotBag0, slot⟩ = some i ∧
      KeepsOthers S pl pl' ⟨inventorySlotBag0, slot⟩ ∧ KeepsBags S pl pl' := by
  have hisBag : i.isBag S = o.item.isBag S := isBag_of_entry hentry
  have hread : ∀ b, pl.getBagByPos S slot = some b →
      b = o ∧ pl'.getBagByPos S slot = some { o with item := i } := by
    intro b hb
    obtain ⟨hslot, hb, hbag⟩ := getBagByPos_eq_some.mp hb
    rw [hitems] at hb
    cases hb
    refine ⟨rfl, ?_⟩
    rw [hpl', getBagByPos_setItem_same hslot]
    exact if_pos (hisBag.trans hbag)
  have hnone : pl.getBagByPos S slot = none → pl'.getBagByPos S slot = none := by
    intro hb
    by_cases hslot : isBagSlot slot
    · rw [hpl', getBagByPos_setItem_same hslot]
      refine if_neg fun h => ?_
      rw [getBagByPos_eq_some.mpr ⟨hslot, hitems, hisBag.symm.trans h⟩] at hb
      cases hb
    · exact if_neg hslot
  refine ⟨?_, ?_, ?_⟩
  · rw [hpl', getItemByPos_setItem_own hown]
    rfl
  · intro q hq
    by_cases hself : q.bag = inventorySlotBag0 ∧ q.slot = slot
    · exact absurd (by cases q; simp_all) hq
    by_cases hin : q.bag = slot
    · have hne0 : ¬ (q.bag = inventorySlotBag0 ∧ isOwnSlot q.slot) := by
        rintro ⟨hbag0, -⟩
        rw [hbag0] at hin
        rw [← hin] at hown
        exact absurd hown (by decide)
      unfold getItemByPos
      rw [if_neg hne0, if_neg hne0, hin]
      cases hb : pl.getBagByPos S slot with
      | none => rw [hnone hb]
      | some b =>
        obtain ⟨rfl, hb'⟩ := hread b hb
        rw [hb']
        have hsize : ItemOrBag.getBagSize S ⟨i, b.bagslot⟩ = b.getBagSize S :=
          getBagSize_of_entry hentry
        simp only [Option.bind_some, ItemOrBag.getItemByPos, hsize]
    · rw [hpl']
      exact getItemByPos_setItem_ne hself hin
  · intro bag b hb
    by_cases heq : bag = slot
    · rw [heq] at hb ⊢
      obtain ⟨rfl, hb'⟩ := hread b hb
      exact ⟨_, hb', hguid, hentry⟩
    · exact ⟨b, by rw [hpl', getBagByPos_setItem_ne heq]; exact hb, rfl, rfl⟩

end Writing

end HungerGames.Inventory
