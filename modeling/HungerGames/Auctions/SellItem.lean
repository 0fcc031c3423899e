/-
# Putting items up for auction

`CMSG_AUCTION_SELL_ITEM` names stacks of one item, with the units to take of each.  A whole stack is
moved to the auction house as it is; else an item is cloned that has all the units, and the stacks
lose theirs.

`sellItem_right_iff`: what is put up is right, and the rest of the inventory stays; but the gold
that is saved with the auction still has the deposit in it.
-/
import HungerGames.Inventory.Stacks
import HungerGames.Trade.Agreement

namespace HungerGames.Auctions

open HungerGames.Inventory (Stores Player Position ItemOrBag Item weigh)
open HungerGames.Trade (Purse maxMoneyAmount)

/-! ## 1. Data -/

/-- What `CMSG_AUCTION_SELL_ITEM` brings: guids with counts, prices, and a time in minutes. -/
structure SellPacket where
  auctioneer : ℕ
  items : List (ℕ × ℕ)
  bid : ℕ
  buyout : ℕ
  etime : ℕ

/-- A new `AuctionEntry`, which has no bids. -/
structure AuctionEntry where
  id : ℕ
  auctioneer : ℕ
  itemGUIDLow : ℕ
  itemEntry : ℕ
  itemCount : ℕ
  owner : ℕ
  startbid : ℕ
  buyout : ℕ
  expireTime : ℕ
  deposit : ℕ
  houseId : ℕ

/-- What is asked of the surroundings.  The deposit and the time are computed with floating-point
rates. -/
structure Surroundings where
  /-- The house of an auctioneer that the player can interact with. -/
  auctionHouse : ℕ → Option ℕ
  /-- The owner can unequip the item and is not looting it, and no enchantment binds it. -/
  mayLeave : Item → Bool
  /-- `ITEM_FIELD_DURATION` -/
  duration : Item → ℕ
  sellPrice : ℕ → ℕ
  /-- The deposit for a house, a price, a time and a count. -/
  computedDeposit : ℕ → ℕ → ℕ → ℕ → ℕ
  /-- A time at `RATE_AUCTION_TIME`. -/
  auctionTime : ℕ → ℕ
  now : ℕ
  /-- `CONFIG_ALLOW_TWO_SIDE_INTERACTION_AUCTION` -/
  twoSide : Bool

/-- The table of auctions, and the money in the row of the player. -/
structure Database where
  auctions : List AuctionEntry
  gold : ℕ

/-- The player and the auctions.  `mAitems` are the items that lie in the auction houses. -/
structure World where
  player : Player
  purse : Purse
  mAitems : List Item
  auctions : List AuctionEntry
  nextGuid : ℕ
  nextAuctionId : ℕ
  database : Database

/-- A stack of a packet, where it lies, and the units to take of it. -/
structure Sold where
  pos : Position
  object : ItemOrBag
  count : ℕ

variable (S : Stores) (E : Surroundings) (packet : SellPacket) (w : World)

/-! ## 2. The checks -/

/-- `GetAItem` -/
def World.getAItem (guid : ℕ) : Option Item := w.mAitems.find? (·.guid = guid)

/-- `GetAuctionDeposit`, at least `AH_MINIMUM_DEPOSIT`. -/
def getAuctionDeposit (houseId time : ℕ) (item : Item) (count : ℕ) : ℕ :=
  if E.sellPrice item.entry = 0 then 100
  else if E.computedDeposit houseId (E.sellPrice item.entry) time count < 100 then 100
  else E.computedDeposit houseId (E.sellPrice item.entry) time count

/-- `ITEM_PROTO_FLAG_CONJURED` -/
def isConjured (entry : ℕ) : Bool := (S.itemTemplate entry).any (·.flags &&& 0x2 ≠ 0)

/-- What is checked of the packet alone. -/
def SellPacket.isFine : Bool :=
  packet.items.length ≤ 160 ∧ (∀ x ∈ packet.items, x.1 ≠ 0 ∧ x.2 ≠ 0 ∧ x.2 ≤ 1000) ∧
    packet.bid ≠ 0 ∧ packet.etime ≠ 0 ∧
    packet.bid ≤ maxMoneyAmount ∧ packet.buyout ≤ maxMoneyAmount

/-- `etime *= MINUTE`, in 32 bits. -/
def SellPacket.seconds : ℕ := packet.etime * 60 % 4294967296

/-- What is checked of a stack. -/
def sellable (itemEntry : ℕ) (x : Sold) : Bool :=
  (w.getAItem x.object.item.guid).isNone ∧
    Inventory.canBeTraded S E.mayLeave false x.pos x.object ∧ ¬ x.object.isNotEmptyBag S ∧
    ¬ isConjured S x.object.item.entry ∧ E.duration x.object.item = 0 ∧
    x.count ≤ x.object.item.count ∧ itemEntry = x.object.item.entry

/-- The stack of a guid. -/
def findSold (guid count : ℕ) : Option Sold :=
  (w.player.getItemByGuid S guid).bind fun pos =>
    (w.player.objectAt S pos).map fun object => ⟨pos, object, count⟩

/-- The stacks of a packet; the first says which item is sold. -/
def findAllSold : List (ℕ × ℕ) → ℕ → Option (List Sold)
  | [], _ => some []
  | (guid, count) :: rest, itemEntry =>
    (findSold S w guid count).bind fun x =>
      let itemEntry := if itemEntry = 0 then x.object.item.entry else itemEntry
      if sellable S E w itemEntry x then (findAllSold rest itemEntry).map (x :: ·) else none

/-- There are at most 160 counts of at most 1000. -/
def finalCount (sold : List Sold) : ℕ := (sold.map (·.count)).sum

/-- What is put up when no check fails. -/
structure Sale where
  houseId : ℕ
  first : Sold
  rest : List Sold
  deposit : ℕ

def Sale.sold (sale : Sale) : List Sold := sale.first :: sale.rest

/-- The checks of the stacks together, and of the deposit. -/
def checkSold (houseId : ℕ) : List Sold → Option Sale
  | [] => none
  | first :: rest =>
    let count := finalCount (first :: rest)
    let deposit := getAuctionDeposit E houseId packet.seconds first.object.item count
    if ¬ (packet.items.map Prod.fst).Nodup then none
    else if ∃ x ∈ first :: rest,
        (S.itemTemplate x.object.item.entry).any (·.getMaxStackSize < count) then none
    else if w.purse.1 < deposit then none
    else some ⟨houseId, first, rest, deposit⟩

/-- The checks of `HandleAuctionSellItem`. -/
def findSale : Option Sale :=
  if ¬ packet.isFine then none
  else
    (E.auctionHouse packet.auctioneer).bind fun houseId =>
      if packet.seconds ≠ 43200 ∧ packet.seconds ≠ 86400 ∧ packet.seconds ≠ 172800 then none
      else (findAllSold S E w packet.items 0).bind (checkSold S E packet w houseId)

/-! ## 3. Putting up -/

variable (sale : Sale)

def newEntry (item : Item) : AuctionEntry where
  id := w.nextAuctionId
  auctioneer := if E.twoSide then 23442 else packet.auctioneer
  itemGUIDLow := item.guid
  itemEntry := item.entry
  itemCount := item.count
  owner := w.player.guid
  startbid := packet.bid
  buyout := packet.buyout
  expireTime := E.now + E.auctionTime packet.seconds
  deposit := sale.deposit
  houseId := sale.houseId

/-- `AddAItem` and `AddAuction`. -/
def World.addAuction (w : World) (a : AuctionEntry) (item : Item) : World :=
  { w with
    mAitems := w.mAitems ++ [item]
    auctions := w.auctions ++ [a]
    nextAuctionId := w.nextAuctionId + 1 }

/-- The transaction with `AuctionEntry::SaveToDB` and `SaveInventoryAndGoldToDB`. -/
def World.commit (w : World) (a : AuctionEntry) : World :=
  { w with database := ⟨w.database.auctions ++ [a], w.purse.1⟩ }

/-- `ModifyMoney(-int32(deposit))` -/
def World.charge (w : World) (deposit : ℕ) : World :=
  { w with purse := Trade.Window.modifyMoney w.purse (-Trade.Window.toInt32 deposit) }

/-- A stack loses its units, or goes. -/
def takeUnits (pl : Player) (x : Sold) : Player :=
  if x.object.item.count = x.count then pl.removeItem S x.pos
  else pl.modifyAt S x.pos fun i => { i with count := i.count - x.count }

/-- A single stack is put up as it is; else an item is cloned. -/
def putUp : World :=
  if sale.sold.length = 1 ∧ sale.first.object.item.count = sale.first.count then
    let item := sale.first.object.item
    let a := newEntry E packet w sale item
    let w := w.addAuction a item
    ({ w with player := w.player.removeItem S sale.first.pos }.commit a).charge sale.deposit
  else
    match Inventory.cloneItem S w.nextGuid w.player.guid (finalCount sale.sold)
      sale.first.object with
    | none => w
    | some newItem =>
      let a := newEntry E packet w sale newItem.item
      let w := { w with nextGuid := w.nextGuid + 1 }.addAuction a newItem.item
      ({ w with player := sale.sold.foldl (takeUnits S) w.player }.commit a).charge sale.deposit

def handleAuctionSellItem : World :=
  match findSale S E packet w with
  | none => w
  | some sale => putUp S E packet w sale

/-! ## 4. What is right -/

/-- The units of some kinds in the auction houses. -/
def World.auctioned (w : World) (kinds : ℕ → Bool) : ℕ :=
  (w.mAitems.map fun i => weigh kinds (some i)).sum

/-- **An auction is created**, of an item with the units of the packet.  Each stack that is named
has lost its units, and nothing else has changed; the deposit is taken. -/
structure Created (w' : World) (a : AuctionEntry) (item : Item) : Prop where
  auctions : w'.auctions = w.auctions ++ [a]
  saved : w'.database.auctions = w.database.auctions ++ [a]
  mAitems : w'.mAitems = w.mAitems ++ [item]
  fresh : w.getAItem item.guid = none
  sells : a.itemGUIDLow = item.guid ∧ a.itemEntry = item.entry ∧ a.itemCount = item.count
  count : item.count = (packet.items.map Prod.snd).sum
  fits : ∀ t, S.itemTemplate item.entry = some t → item.count ≤ t.getMaxStackSize
  taken : ∀ x ∈ packet.items, ∃ pos i, w.player.getItemByPos S pos = some i ∧ i.guid = x.1 ∧
    i.entry = item.entry ∧ x.2 ≤ i.count ∧
    w'.player.getItemByPos S pos =
      if i.count = x.2 then none else some { i with count := i.count - x.2 }
  others : ∀ pos, (∀ i, w.player.getItemByPos S pos = some i → i.guid ∉ packet.items.map Prod.fst) →
    w'.player.getItemByPos S pos = w.player.getItemByPos S pos
  units : ∀ kinds, w'.player.units S kinds + w'.auctioned kinds =
    w.player.units S kinds + w.auctioned kinds
  deposit : a.deposit = getAuctionDeposit E a.houseId packet.seconds item item.count
  charged : w'.purse.1 + a.deposit = w.purse.1

/-- **A packet is handled right**: nothing happens; or an auction is created, and the gold that is
saved with it is what the player has left. -/
def SellsRight (w' : World) : Prop :=
  w' = w ∨ ∃ a item, Created S E packet w w' a item ∧ w'.database.gold = w'.purse.1

/-- What is so of every inventory: an object has a template and a guid that was given out, also in
the auction houses. -/
structure World.Valid : Prop where
  guids : ∀ {g}, w.player.Has g → g < w.nextGuid
  known : ∀ {pos i}, w.player.getItemByPos S pos = some i →
    i.entry ≠ 0 ∧ ∃ t, S.itemTemplate i.entry = some t
  mAitems : ∀ i ∈ w.mAitems, i.guid < w.nextGuid

/-! ## 5. Taking units from stacks -/

section Taking

variable {S} {pl pl' : Player} {pos q : Position} {x : Sold} {i : Item}

/-- No bag comes to be worn where an item changes but for its entry. -/
theorem bag_modifyAt {f : Item → Item} (hf : ∀ i, (f i).entry = i.entry) {bag : ℕ}
    (hb : pl.getBagByPos S bag = none) : (pl.modifyAt S pos f).getBagByPos S bag = none := by
  unfold Player.modifyAt
  split
  · by_cases hslot : bag = pos.slot
    · subst hslot
      unfold Player.getBagByPos at hb ⊢
      split at hb
      · rename_i hbag
        rw [if_pos hbag]
        unfold Player.setItem
        dsimp only
        rw [Function.update_self]
        cases hi : pl.items pos.slot with
        | none => rfl
        | some o =>
          rw [hi, Option.filter_some] at hb
          rw [Option.map_some, Option.filter_some, Inventory.isBag_of_entry (hf o.item)]
          split at hb
          · cases hb
          · rename_i hnot
            exact if_neg hnot
      · rename_i hbag
        exact if_neg hbag
    · rw [Player.getBagByPos_setItem_ne hslot, hb]
  · split
    · exact hb
    · rename_i b hbag
      have hne : bag ≠ pos.bag := by
        rintro rfl
        rw [hb] at hbag
        cases hbag
      rw [Player.getBagByPos_setItem_ne hne, hb]

/-- A stack of the inventory that has the units, and can be taken out. -/
structure Takable (S : Stores) (pl : Player) (x : Sold) : Prop where
  lies : pl.getItemByPos S x.pos = some x.object.item
  unworn : Inventory.Unworn S pl x.pos
  enough : x.count ≤ x.object.item.count

/-- What is left of a stack. -/
def leftOf (i : Item) (count : ℕ) : Option Item :=
  if i.count = count then none else some { i with count := i.count - count }

theorem weigh_leftOf (kinds : ℕ → Bool) {count : ℕ} (hle : count ≤ i.count) :
    weigh kinds (leftOf i count) + (if kinds i.entry then count else 0) = weigh kinds (some i) := by
  unfold leftOf weigh
  by_cases hall : i.count = count
  · rw [if_pos hall]
    dsimp only
    rw [hall, Nat.zero_add]
  · rw [if_neg hall]
    dsimp only
    split <;> omega

/-- **What taking units from a stack does.** -/
structure Takes (S : Stores) (pl pl' : Player) (x : Sold) : Prop where
  left : pl'.getItemByPos S x.pos = leftOf x.object.item x.count
  others : Inventory.KeepsOthers S pl pl' x.pos
  bags : ∀ {bag}, pl.getBagByPos S bag = none → pl'.getBagByPos S bag = none

theorem takes_takeUnits (h : Takable S pl x) : Takes S pl (takeUnits S pl x) x := by
  unfold takeUnits
  by_cases hall : x.object.item.count = x.count
  · rw [if_pos hall]
    refine ⟨?_, h.unworn.others, h.unworn.bag_removeItem⟩
    rw [Player.getItemByPos_removeItem_same]
    exact (if_pos hall).symm
  · rw [if_neg hall]
    let f := fun i : Item => { i with count := i.count - x.count }
    obtain ⟨hat, hothers, -⟩ := @Inventory.modifyAt_spec S pl x.pos _ f h.lies rfl rfl
    have hbags : ∀ i, (f i).entry = i.entry := fun _ => rfl
    refine ⟨?_, hothers, bag_modifyAt hbags⟩
    rw [hat]
    exact (if_neg hall).symm

theorem Takes.units (h : Takes S pl pl' x) (hx : Takable S pl x) (kinds : ℕ → Bool) :
    pl'.units S kinds + (if kinds x.object.item.entry then x.count else 0) = pl.units S kinds := by
  have hthere : Inventory.There S pl x.pos := Player.there_of_item hx.unworn.1
  have hchange := @Player.units_change S pl pl' x.pos kinds hthere.mem_places h.others
  have hleft := @weigh_leftOf x.object.item kinds x.count hx.enough
  rw [hx.lies, h.left] at hchange
  omega

theorem Takable.keeps {y : Sold} (h : Takable S pl y) (htakes : Takes S pl pl' x)
    (hne : y.pos ≠ x.pos) : Takable S pl' y := by
  have hsame := htakes.others y.pos hne
  exact ⟨hsame.trans h.lies, ⟨by rw [hsame]; exact h.unworn.1,
    fun hbag => htakes.bags (h.unworn.2 hbag)⟩, h.enough⟩

/-- **Taking units from several stacks.** -/
theorem takeUnits_spec : ∀ {sold : List Sold} {pl : Player}, (sold.map (·.pos)).Nodup →
    (∀ x ∈ sold, Takable S pl x) →
    (∀ x ∈ sold, (sold.foldl (takeUnits S) pl).getItemByPos S x.pos =
      leftOf x.object.item x.count) ∧
    (∀ q, (∀ x ∈ sold, q ≠ x.pos) →
      (sold.foldl (takeUnits S) pl).getItemByPos S q = pl.getItemByPos S q) ∧
    ∀ kinds, (sold.foldl (takeUnits S) pl).units S kinds +
      (sold.map fun x => if kinds x.object.item.entry then x.count else 0).sum = pl.units S kinds
  | [], _, _, _ => ⟨fun _ hx => absurd hx List.not_mem_nil, fun _ _ => rfl, fun _ => Nat.add_zero _⟩
  | x :: rest, pl, hnodup, htakable => by
    obtain ⟨hnew, hnodup⟩ := List.nodup_cons.mp hnodup
    have hx := htakable x List.mem_cons_self
    have htakes := takes_takeUnits hx
    have hne : ∀ y ∈ rest, y.pos ≠ x.pos := fun y hy heq =>
      hnew (List.mem_map.mpr ⟨y, hy, heq⟩)
    obtain ⟨hleft, hothers, hunits⟩ := takeUnits_spec hnodup fun y hy =>
      (htakable y (List.mem_cons_of_mem _ hy)).keeps htakes (hne y hy)
    rw [List.foldl_cons]
    refine ⟨fun y hy => ?_, fun q hq => ?_, fun kinds => ?_⟩
    · rcases List.mem_cons.mp hy with rfl | hy
      · rw [hothers y.pos fun z hz => (hne z hz).symm]
        exact htakes.left
      · exact hleft y hy
    · rw [hothers q fun y hy => hq y (List.mem_cons_of_mem _ hy)]
      exact htakes.others q (hq x List.mem_cons_self)
    · have hone := htakes.units hx kinds
      have hrest := hunits kinds
      rw [List.map_cons, List.sum_cons]
      omega

end Taking

/-! ## 6. The stacks of a packet -/

section Handling

variable {S E packet w} {sale : Sale} {sold : List Sold} {x : Sold} {guid count itemEntry : ℕ}

/-- What is found for a guid. -/
theorem findSold_spec (h : findSold S w guid count = some x) :
    w.player.getItemByPos S x.pos = some x.object.item ∧ w.player.objectAt S x.pos = some x.object ∧
      x.object.item.guid = guid ∧ x.count = count := by
  obtain ⟨pos, hpos, hfound⟩ := Option.bind_eq_some_iff.mp h
  obtain ⟨object, hobject, rfl⟩ := Option.map_eq_some_iff.mp hfound
  obtain ⟨i, hi, hguid⟩ := Player.getItemByGuid_spec hpos
  obtain ⟨object', hobject', rfl, -⟩ := Player.objectAt_spec hi
  rw [hobject] at hobject'
  obtain rfl := Option.some.inj hobject'
  exact ⟨hi, hobject, hguid, rfl⟩

/-- A stack of the packet. -/
structure IsOf (S : Stores) (w : World) (itemEntry : ℕ) (named : ℕ × ℕ) (x : Sold) : Prop where
  takable : Takable S w.player x
  guid : x.object.item.guid = named.1
  count : x.count = named.2
  entry : x.object.item.entry = itemEntry
  notSold : w.getAItem x.object.item.guid = none

theorem isOf_of_sellable {named : ℕ × ℕ} (hfind : findSold S w named.1 named.2 = some x)
    (h : sellable S E w itemEntry x) : IsOf S w itemEntry named x := by
  obtain ⟨hi, hobject, hguid, hcount⟩ := findSold_spec hfind
  unfold sellable at h
  simp only [decide_eq_true_eq] at h
  obtain ⟨hnew, htraded, -, -, -, henough, hentry⟩ := h
  exact ⟨⟨hi, (Inventory.unworn_of_canBeTraded hi hobject htraded).1, henough⟩, hguid, hcount,
    hentry.symm, Option.isNone_iff_eq_none.mp hnew⟩

/-- **The stacks of a packet** are all of one item. -/
theorem findAllSold_spec (hvalid : w.Valid S) : ∀ {items : List (ℕ × ℕ)} {itemEntry : ℕ}
    {sold : List Sold}, findAllSold S E w items itemEntry = some sold →
    ∃ entry, (itemEntry ≠ 0 → entry = itemEntry) ∧ List.Forall₂ (IsOf S w entry) items sold
  | [], itemEntry, sold, h => by
    obtain rfl := Option.some.inj h
    exact ⟨itemEntry, fun _ => rfl, .nil⟩
  | named :: rest, itemEntry, sold, h => by
    obtain ⟨x, hfind, h⟩ := Option.bind_eq_some_iff.mp h
    generalize hfirst : (if itemEntry = 0 then x.object.item.entry else itemEntry) = first at h
    by_cases hsellable : sellable S E w first x
    · rw [if_pos hsellable] at h
      obtain ⟨others, hrest, rfl⟩ := Option.map_eq_some_iff.mp h
      have hx := isOf_of_sellable hfind hsellable
      obtain ⟨entry, hentry, hall⟩ := findAllSold_spec hvalid hrest
      have hne : x.object.item.entry ≠ 0 := (hvalid.known hx.takable.lies).1
      obtain rfl := hentry (hx.entry ▸ hne)
      exact ⟨entry, fun hsome => hfirst.symm.trans (if_neg hsome), .cons hx hall⟩
    · rw [if_neg hsellable] at h
      cases h

variable {entry : ℕ} {items : List (ℕ × ℕ)}

theorem exists_named (h : List.Forall₂ (IsOf S w entry) items sold) :
    (∀ x ∈ sold, ∃ named ∈ items, IsOf S w entry named x) ∧
      ∀ named ∈ items, ∃ x ∈ sold, IsOf S w entry named x := by
  induction h with
  | nil => exact ⟨fun _ hx => absurd hx List.not_mem_nil, fun _ hx => absurd hx List.not_mem_nil⟩
  | @cons named x items sold hx _ ih =>
    refine ⟨fun y hy => ?_, fun other hother => ?_⟩
    · rcases List.mem_cons.mp hy with rfl | hy
      · exact ⟨named, List.mem_cons_self, hx⟩
      · obtain ⟨other, hother, hof⟩ := ih.1 y hy
        exact ⟨other, List.mem_cons_of_mem _ hother, hof⟩
    · rcases List.mem_cons.mp hother with rfl | hother
      · exact ⟨x, List.mem_cons_self, hx⟩
      · obtain ⟨y, hy, hof⟩ := ih.2 other hother
        exact ⟨y, List.mem_cons_of_mem _ hy, hof⟩

theorem finalCount_eq (h : List.Forall₂ (IsOf S w entry) items sold) :
    finalCount sold = (items.map Prod.snd).sum := by
  unfold finalCount
  induction h with
  | nil => rfl
  | cons hx _ ih => rw [List.map_cons, List.map_cons, List.sum_cons, List.sum_cons, ih, hx.count]

theorem sum_taken (kinds : ℕ → Bool) (h : List.Forall₂ (IsOf S w entry) items sold) :
    (sold.map fun x => if kinds x.object.item.entry then x.count else 0).sum =
      if kinds entry then finalCount sold else 0 := by
  unfold finalCount
  induction h with
  | nil => exact (ite_self 0).symm
  | cons hx _ ih =>
    rw [List.map_cons, List.sum_cons, ih, hx.entry, List.map_cons, List.sum_cons]
    split
    · rfl
    · rfl

/-- Distinct guids lie at distinct places. -/
theorem nodup_positions (h : List.Forall₂ (IsOf S w entry) items sold)
    (hnodup : (items.map Prod.fst).Nodup) : (sold.map (·.pos)).Nodup := by
  have hguids : ∀ {items : List (ℕ × ℕ)} {sold : List Sold},
      List.Forall₂ (IsOf S w entry) items sold →
      sold.map (·.object.item.guid) = items.map Prod.fst := by
    intro items sold h
    induction h with
    | nil => rfl
    | cons hx _ ih => rw [List.map_cons, List.map_cons, ih, hx.guid]
  have hlies : ∀ x ∈ sold, w.player.getItemByPos S x.pos = some x.object.item := by
    intro x hx
    obtain ⟨named, -, hof⟩ := (exists_named h).1 x hx
    exact hof.takable.lies
  rw [← hguids h] at hnodup
  refine List.Nodup.of_map (fun pos => (w.player.getItemByPos S pos).map (·.guid)) ?_
  have hsame : (sold.map (·.pos)).map (fun pos => (w.player.getItemByPos S pos).map (·.guid)) =
      (sold.map (·.object.item.guid)).map some := by
    rw [List.map_map, List.map_map]
    exact List.map_congr_left fun x hx => by simp [hlies x hx]
  rw [hsame]
  exact hnodup.map fun _ _ heq => Option.some.inj heq

/-- What a sale has been checked for. -/
structure Checked (S : Stores) (E : Surroundings) (packet : SellPacket) (w : World) (sale : Sale)
    (entry : ℕ) : Prop where
  all : List.Forall₂ (IsOf S w entry) packet.items sale.sold
  nodup : (packet.items.map Prod.fst).Nodup
  fits : ∀ t, S.itemTemplate entry = some t → finalCount sale.sold ≤ t.getMaxStackSize
  deposit : sale.deposit = getAuctionDeposit E sale.houseId packet.seconds sale.first.object.item
    (finalCount sale.sold)
  enough : sale.deposit ≤ w.purse.1
  some_units : 0 < finalCount sale.sold

theorem checked_of_findSale (hvalid : w.Valid S) (h : findSale S E packet w = some sale) :
    ∃ entry, Checked S E packet w sale entry := by
  unfold findSale at h
  split at h
  · cases h
  rename_i hfine
  obtain ⟨houseId, -, h⟩ := Option.bind_eq_some_iff.mp h
  split at h
  · cases h
  obtain ⟨sold, hsold, h⟩ := Option.bind_eq_some_iff.mp h
  obtain ⟨entry, -, hall⟩ := findAllSold_spec hvalid hsold
  cases sold with
  | nil => cases h
  | cons first rest =>
    unfold checkSold at h
    dsimp only at h
    split at h
    · cases h
    rename_i hnodup
    split at h
    · cases h
    rename_i hfits
    split at h
    · cases h
    rename_i henough
    obtain rfl := Option.some.inj h
    refine ⟨entry, hall, not_not.mp hnodup, fun t ht => ?_, rfl, Nat.le_of_not_lt henough, ?_⟩
    · by_contra hlt
      refine hfits ⟨first, List.mem_cons_self, ?_⟩
      obtain ⟨named, -, hof⟩ := (exists_named hall).1 first List.mem_cons_self
      rw [hof.entry, ht]
      exact decide_eq_true (Nat.lt_of_not_le hlt)
    · obtain ⟨named, hnamed, hof⟩ := (exists_named hall).1 first List.mem_cons_self
      rw [not_not] at hfine
      unfold SellPacket.isFine at hfine
      simp only [decide_eq_true_eq] at hfine
      have hcount := (hfine.2.1 named hnamed).2.1
      rw [← hof.count] at hcount
      have hsum : finalCount (first :: rest) = first.count + finalCount rest := List.sum_cons
      change 0 < finalCount (first :: rest)
      omega

/-- What is written when an item is put up for a sale. -/
def sellUp (S : Stores) (E : Surroundings) (packet : SellPacket) (w : World) (sale : Sale)
    (item : Item) (nextGuid : ℕ) : World :=
  let a := newEntry E packet w sale item
  let w' := { w with nextGuid := nextGuid }.addAuction a item
  ({ w' with player := sale.sold.foldl (takeUnits S) w.player }.commit a).charge sale.deposit

/-- **An item with the units of the packet is put up.** -/
theorem created_sellUp (h : Checked S E packet w sale entry) {item : Item} {nextGuid : ℕ}
    (hentry : item.entry = entry) (hcount : item.count = finalCount sale.sold)
    (hfresh : w.getAItem item.guid = none) :
    Created S E packet w (sellUp S E packet w sale item nextGuid) (newEntry E packet w sale item)
      item := by
  obtain ⟨hleft, hothers, hunits⟩ := takeUnits_spec (nodup_positions h.all h.nodup) fun x hx => by
    obtain ⟨named, -, hof⟩ := (exists_named h.all).1 x hx
    exact hof.takable
  obtain ⟨_, -, hfirst⟩ := (exists_named h.all).1 sale.first List.mem_cons_self
  refine ⟨rfl, rfl, rfl, hfresh, ⟨rfl, rfl, rfl⟩, hcount.trans (finalCount_eq h.all), ?_, ?_, ?_,
    ?_, ?_, ?_⟩
  · intro t ht
    rw [hcount]
    exact h.fits t (hentry ▸ ht)
  · intro named hnamed
    obtain ⟨x, hx, hof⟩ := (exists_named h.all).2 named hnamed
    refine ⟨x.pos, x.object.item, hof.takable.lies, hof.guid, hof.entry.trans hentry.symm,
      hof.count ▸ hof.takable.enough, ?_⟩
    rw [← hof.count]
    exact hleft x hx
  · intro pos hnot
    refine hothers pos fun x hx heq => ?_
    obtain ⟨named, hnamed, hof⟩ := (exists_named h.all).1 x hx
    exact hnot x.object.item (heq ▸ hof.takable.lies)
      (hof.guid ▸ List.mem_map.mpr ⟨named, hnamed, rfl⟩)
  · intro kinds
    have hsum := hunits kinds
    rw [sum_taken kinds h.all, ← hcount, ← hentry] at hsum
    have hmore : (sellUp S E packet w sale item nextGuid).auctioned kinds =
        w.auctioned kinds + weigh kinds (some item) := by
      change ((w.mAitems ++ [item]).map _).sum = _
      rw [List.map_append, List.sum_append]
      rfl
    rw [hmore]
    have hweigh : weigh kinds (some item) = if kinds item.entry then item.count else 0 := rfl
    change (sale.sold.foldl (takeUnits S) w.player).units S kinds + _ = _
    omega
  · have hsame : item.entry = sale.first.object.item.entry := hentry.trans hfirst.entry.symm
    change sale.deposit = getAuctionDeposit E sale.houseId packet.seconds item item.count
    rw [h.deposit, hcount]
    unfold getAuctionDeposit
    rw [hsame]
  · change (Trade.Window.modifyMoney w.purse (-Trade.Window.toInt32 sale.deposit)).1 +
      sale.deposit = w.purse.1
    rw [Trade.modifyMoney_give w.purse h.enough]
    exact Nat.sub_add_cancel h.enough

/-- **A sale puts up an item**: the stack itself, or a clone. -/
theorem putUp_eq (hvalid : w.Valid S) (h : Checked S E packet w sale entry) :
    ∃ item nextGuid, putUp S E packet w sale = sellUp S E packet w sale item nextGuid ∧
      item.entry = entry ∧ item.count = finalCount sale.sold ∧ w.getAItem item.guid = none := by
  obtain ⟨_, -, hfirst⟩ := (exists_named h.all).1 sale.first List.mem_cons_self
  unfold putUp
  by_cases hwhole : sale.sold.length = 1 ∧ sale.first.object.item.count = sale.first.count
  · rw [if_pos hwhole]
    have hrest : sale.rest = [] := List.eq_nil_of_length_eq_zero (Nat.succ.inj hwhole.1)
    refine ⟨sale.first.object.item, w.nextGuid, ?_, hfirst.entry, ?_, hfirst.notSold⟩
    · unfold sellUp Sale.sold
      rw [hrest, List.foldl_cons, List.foldl_nil]
      unfold takeUnits
      rw [if_pos hwhole.2]
      rfl
    · unfold finalCount Sale.sold
      rw [hrest, hwhole.2]
      exact (Nat.add_zero _).symm
  · rw [if_neg hwhole]
    obtain ⟨-, t, ht⟩ := hvalid.known hfirst.takable.lies
    have hsome := h.some_units
    have hfits := h.fits t (hfirst.entry ▸ ht)
    have hnot : ¬ finalCount sale.sold < 1 := Nat.not_lt.mpr hsome
    unfold Inventory.cloneItem Inventory.createItem
    rw [if_neg hnot, ht]
    refine ⟨_, w.nextGuid + 1, rfl, hfirst.entry, Nat.min_eq_left hfits, ?_⟩
    refine List.find?_eq_none.mpr fun i hi heq => ?_
    exact absurd (hvalid.mAitems i hi) (Nat.not_lt.mpr (of_decide_eq_true heq).ge)

/-- `AH_MINIMUM_DEPOSIT` -/
theorem getAuctionDeposit_pos (E : Surroundings) (houseId time : ℕ) (item : Item) (count : ℕ) :
    0 < getAuctionDeposit E houseId time item count := by
  unfold getAuctionDeposit
  split
  · decide
  · split
    · decide
    · omega

end Handling

/-! ## 7. The handler -/

/-- **Auction creation.**  A packet is handled right exactly if a check refuses it.  Where none
does, an auction is created as it should, but the gold that is saved still has the deposit. -/
theorem sellItem_right_iff {S : Stores} {E : Surroundings} {packet : SellPacket} {w : World}
    (hvalid : w.Valid S) :
    (SellsRight S E packet w (handleAuctionSellItem S E packet w) ↔ findSale S E packet w = none) ∧
      (findSale S E packet w ≠ none → ∃ a item,
        Created S E packet w (handleAuctionSellItem S E packet w) a item ∧
          (handleAuctionSellItem S E packet w).database.gold = w.purse.1) := by
  unfold handleAuctionSellItem
  cases hsale : findSale S E packet w with
  | none => exact ⟨iff_of_true (Or.inl rfl) rfl, fun hne => absurd rfl hne⟩
  | some sale =>
    obtain ⟨entry, hchecked⟩ := checked_of_findSale hvalid hsale
    obtain ⟨item, nextGuid, heq, hentry, hcount, hfresh⟩ := putUp_eq hvalid hchecked
    have hcreated := @created_sellUp S E packet w sale entry hchecked item nextGuid hentry hcount
      hfresh
    have hgold : (sellUp S E packet w sale item nextGuid).database.gold = w.purse.1 := rfl
    dsimp only
    rw [heq]
    refine ⟨iff_of_false ?_ (Option.some_ne_none sale), fun _ => ⟨_, item, hcreated, hgold⟩⟩
    rintro (hsame | ⟨a, item', hright, hsaved⟩)
    · have hlonger := congrArg (List.length ∘ World.auctions) hsame
      change (w.auctions ++ [_]).length = w.auctions.length at hlonger
      rw [List.length_append] at hlonger
      exact absurd hlonger (Nat.succ_ne_self _)
    · have hcharged := hright.charged
      have hpos := getAuctionDeposit_pos E a.houseId packet.seconds item' item'.count
      rw [← hright.deposit] at hpos
      rw [hgold] at hsaved
      omega

/-! ## 8. A part of a stack -/

open Inventory.Request (tokenStores holder)

/-- Three of five tokens. -/
def threeTokens : SellPacket := ⟨8, [(2, 3)], 10, 20, 720⟩

/-- Everything has the least deposit. -/
def quietHouse : Surroundings where
  auctionHouse _ := some 1
  mayLeave _ := true
  duration _ := 0
  sellPrice _ := 0
  computedDeposit _ _ _ _ := 0
  auctionTime time := time
  now := 1000
  twoSide := false

/-- A player with five tokens, and just the money for the deposit. -/
def seller : World where
  player := holder 5
  purse := Trade.pockets .first
  mAitems := []
  auctions := []
  nextGuid := 3
  nextAuctionId := 1
  database := ⟨[], 100⟩

theorem holder_lying {count slot : ℕ} {inside : Option ℕ} {i : Item}
    (hi : (holder count).lying slot inside = some i) : i.guid = 2 ∧ i.entry = 7 := by
  unfold Player.lying holder at hi
  cases inside with
  | none =>
    obtain ⟨o, ho, rfl⟩ := Option.map_eq_some_iff.mp hi
    dsimp only at ho
    split at ho
    · obtain rfl := Option.some.inj ho
      exact ⟨rfl, rfl⟩
    · cases ho
  | some j =>
    obtain ⟨o, ho, hj⟩ := Option.bind_eq_some_iff.mp hi
    dsimp only at ho
    split at ho
    · obtain rfl := Option.some.inj ho
      cases hj
    · cases ho

theorem seller_valid : seller.Valid tokenStores where
  guids := by
    rintro g ⟨slot, inside, i, hi, rfl⟩
    rw [(holder_lying hi).1]
    decide
  known := by
    intro pos i hi
    have hentry := (holder_lying (Player.lying_of_item hi)).2
    rw [hentry]
    exact ⟨by decide, Inventory.Request.token, rfl⟩
  mAitems := fun i hi => absurd hi List.not_mem_nil

theorem sellItem_right_iff_token : ∃ a item, Created tokenStores quietHouse threeTokens seller
    (handleAuctionSellItem tokenStores quietHouse threeTokens seller) a item := by
  have hfound : (findSale tokenStores quietHouse threeTokens seller).isSome := by decide +kernel
  obtain ⟨a, item, hcreated, -⟩ := (sellItem_right_iff seller_valid).2
    (Option.isSome_iff_ne_none.mp hfound)
  exact ⟨a, item, hcreated⟩

/-- The player has nothing left, and the database still has the deposit. -/
theorem deposit_not_saved : ∃ w : World, w.Valid tokenStores ∧
    (handleAuctionSellItem tokenStores quietHouse threeTokens w).auctions.length = 1 ∧
    (handleAuctionSellItem tokenStores quietHouse threeTokens w).purse.1 = 0 ∧
    (handleAuctionSellItem tokenStores quietHouse threeTokens w).database.gold = 100 ∧
    ¬ SellsRight tokenStores quietHouse threeTokens w
      (handleAuctionSellItem tokenStores quietHouse threeTokens w) := by
  have hauctions : (handleAuctionSellItem tokenStores quietHouse threeTokens seller).auctions.length
      = 1 := by decide +kernel
  have hpurse : (handleAuctionSellItem tokenStores quietHouse threeTokens seller).purse.1 = 0 := by
    decide +kernel
  have hgold : (handleAuctionSellItem tokenStores quietHouse threeTokens seller).database.gold =
      100 := by decide +kernel
  refine ⟨seller, seller_valid, hauctions, hpurse, hgold, ?_⟩
  rintro (hsame | ⟨a, item, -, hsaved⟩)
  · rw [hsame] at hauctions
    exact absurd hauctions (by decide)
  · rw [hgold, hpurse] at hsaved
    exact absurd hsaved (by decide)

end HungerGames.Auctions
