/-
# The trade window

Two players trade: each has a `TradeData` with the guids of the items offered, gold and a spell,
and whether he accepted.  The items themselves are in the inventories, where their stacks may be
changed meanwhile by anything that is not the trade.  When both have accepted, the second accept
executes the trade.

The packets that are sent are left out but for the extended status, which shows a trader what the
other offers.  What the inventories can store, the distance and the checks of the spells are asked
of the surroundings when a trade is accepted.
-/
import Mathlib.Logic.Function.Basic
import Mathlib.Algebra.Group.Nat.Defs

namespace HungerGames.Trade

/-! ## 1. What is offered -/

inductive Side where
  | first
  | second
deriving DecidableEq

def Side.other : Side → Side
  | .first => .second
  | .second => .first

/-- 0 is the empty guid. -/
abbrev ObjectGuid := ℕ

/-- One of `TRADE_SLOT_COUNT` slots. -/
abbrev TradeSlot := Fin 7

/-- `TRADE_SLOT_NONTRADED` -/
def tradeSlotNontraded : TradeSlot := 6

/-- The slots below `TRADE_SLOT_TRADED_COUNT`. -/
def tradedSlots : List TradeSlot := [0, 1, 2, 3, 4, 5]

/-- An item of an inventory: what is shown of it, and whether it can be traded, and is not bound
with the other trader. -/
structure Item where
  entry : ℕ
  count : ℕ
  canBeTraded : Bool
  isBindedNotWith : Bool
deriving DecidableEq

/-- `MAX_MONEY_AMOUNT` -/
def maxMoneyAmount : ℕ := 2 ^ 31 - 1

/-- The money of a player, which never exceeds the maximum. -/
abbrev Purse := { money : ℕ // money ≤ maxMoneyAmount }

structure TradeData where
  accepted : Bool
  money : ℕ
  spell : ℕ
  spellCastItem : ObjectGuid
  items : TradeSlot → ObjectGuid

/-- What `SMSG_TRADE_STATUS_EXTENDED` shows of an offer: entry and stack count for each item. -/
structure Shown where
  money : ℕ
  spell : ℕ
  items : TradeSlot → Option (ℕ × ℕ)

/-- The two `TradeData`, which are made and deleted together, the inventories and purses of both
players, and what each was last shown of the other's offer. -/
structure Window where
  isOpen : Bool
  trade : Side → TradeData
  items : Side → ObjectGuid → Option Item
  purse : Side → Purse
  shown : Side → Shown

namespace Window

variable (w : Window) (side : Side)

/-- `TradeData::GetItem` -/
def getItem (slot : TradeSlot) : Option Item :=
  if (w.trade side).items slot = 0 then none else w.items side ((w.trade side).items slot)

def hasEnoughMoney (amount : ℕ) : Bool := amount ≤ (w.purse side).1

/-- What there is to show of an offer. -/
def view : Shown where
  money := (w.trade side).money
  spell := (w.trade side).spell
  items slot := (w.getItem side slot).map fun item => (item.entry, item.count)

/-! ## 2. `TradeData` -/

/-- `TradeData::Update`: the other is shown the offer.  What is sent to the player himself is left
out. -/
def update : Window := { w with shown := Function.update w.shown side.other (w.view side) }

def setTrade (trade : TradeData) : Window := { w with trade := Function.update w.trade side trade }

def setAccepted (state : Bool) : Window :=
  w.setTrade side { w.trade side with accepted := state }

/-- Nobody has accepted. -/
def unaccept : Window := (w.setAccepted side false).setAccepted side.other false

def setSpell (spell : ℕ) (castItem : ObjectGuid) : Window :=
  if (w.trade side).spell = spell ∧ (w.trade side).spellCastItem = castItem then w
  else
    ((w.setTrade side { w.trade side with spell, spellCastItem := castItem }).unaccept side).update
      side

/-- The guid 0 clears the slot. -/
def setItem (slot : TradeSlot) (guid : ObjectGuid) : Window :=
  if (w.trade side).items slot = guid then w
  else
    let items := Function.update (w.trade side).items slot guid
    let w := ((w.setTrade side { w.trade side with items }).unaccept side).update side
    let w := if slot = tradeSlotNontraded then w.setSpell side.other 0 0 else w
    w.setSpell side 0 0

def setMoney (money : ℕ) : Window :=
  if (w.trade side).money = money then w
  else if ¬ w.hasEnoughMoney side money then w
  else ((w.setTrade side { w.trade side with money }).unaccept side).update side

/-! ## 3. The handlers -/

def handleSetTradeGold (gold : ℕ) : Window := if ¬ w.isOpen then w else w.setMoney side gold

/-- `guid` is that of the item at the position in the packet, 0 if there is none. -/
def handleSetTradeItem (tradeSlot : ℕ) (guid : ObjectGuid) : Window :=
  if ¬ w.isOpen then w
  else if h : tradeSlot < 7 then
    let slot : TradeSlot := ⟨tradeSlot, h⟩
    match if guid = 0 then none else w.items side guid with
    | none => w
    | some item =>
      if slot ≠ tradeSlotNontraded ∧ ¬ item.canBeTraded then w
      else if ∃ slot, (w.trade side).items slot = guid then w
      else if slot ≠ tradeSlotNontraded ∧ item.isBindedNotWith then w
      else w.setItem side slot guid
  else w

def handleClearTradeItem (tradeSlot : ℕ) : Window :=
  if ¬ w.isOpen then w
  else if h : tradeSlot < 7 then w.setItem side ⟨tradeSlot, h⟩ 0
  else w

/-- A spell on the slot that is not traded, from `Spell::cast`. -/
def castTradeSpell (spell : ℕ) (castItem : ObjectGuid) : Window :=
  if ¬ w.isOpen then w else w.setSpell side spell castItem

def handleUnacceptTrade : Window := if ¬ w.isOpen then w else w.setAccepted side false

/-- `TradeCancel` -/
def tradeCancel : Window := { w with isOpen := false }

/-- The end of `HandleInitiateTradeOpcode`: both windows open, and show nothing. -/
def initiateTrade : Window :=
  if w.isOpen then w
  else
    { w with
      isOpen := true
      trade := fun _ => ⟨false, 0, 0, 0, fun _ => 0⟩
      shown := fun _ => ⟨0, 0, fun _ => none⟩ }

/-! ## 4. Accepting -/

/-- What is asked when a trade is accepted. -/
structure Surroundings where
  isWithinDist : Bool
  hasSpellInfo : ℕ → Bool
  checkCast : Side → Bool
  canStoreItems : Side → Bool
  /-- The side can store the item that the other has in the slot. -/
  canStoreItem : Side → TradeSlot → Bool
  /-- The side can take its own item of the slot back. -/
  canTakeBack : Side → TradeSlot → Bool

/-- An item that is stored, with the side that gets it. -/
structure Stored where
  receiver : Side
  guid : ObjectGuid
  item : Item

/-- What an accept comes to: a check on a side refuses it, or the other has not accepted yet, or the
trade is executed, with the items that are stored. -/
inductive Outcome where
  | ignored
  | refused (side : Side)
  | waiting
  | executed (stored : List Stored)

/-- The item of a side that cannot be traded, in the first such slot. -/
def findInvalid : Option Side :=
  tradedSlots.findSome? fun slot =>
    match w.getItem side slot, w.getItem side.other slot with
    | some mine, his =>
      if ¬ mine.canBeTraded ∨ mine.isBindedNotWith then some side
      else if his.any fun item => ¬ item.canBeTraded then some side.other
      else none
    | none, his => if his.any fun item => ¬ item.canBeTraded then some side.other else none

/-- The spell of a side cannot be cast now. -/
def spellFails (env : Surroundings) : Bool :=
  (w.trade side).spell ≠ 0 ∧
    (¬ env.hasSpellInfo (w.trade side).spell ∨
      w.getItem side.other tradeSlotNontraded = none ∨
      ((w.trade side).spellCastItem ≠ 0 ∧ w.items side (w.trade side).spellCastItem = none) ∨
      ¬ env.checkCast side)

/-- `moveItems`: what is stored, and with whom.  Where an item cannot be stored, both of the slot go
back. -/
def moveItems (env : Surroundings) : List Stored :=
  tradedSlots.flatMap fun slot =>
    let mine := (w.getItem side slot).toList
    let his := (w.getItem side.other slot).toList
    let myGuid := (w.trade side).items slot
    let hisGuid := (w.trade side.other).items slot
    if (mine = [] ∨ env.canStoreItem side.other slot) ∧ (his = [] ∨ env.canStoreItem side slot) then
      mine.map (Stored.mk side.other myGuid) ++ his.map (Stored.mk side hisGuid)
    else
      (if env.canTakeBack side slot then mine.map (Stored.mk side myGuid) else []) ++
        if env.canTakeBack side.other slot then his.map (Stored.mk side.other hisGuid) else []

/-- The inventories without the items that are traded. -/
def removeItems (side : Side) (guid : ObjectGuid) : Option Item :=
  if guid ≠ 0 ∧ ∃ slot ∈ tradedSlots, (w.trade side).items slot = guid then none
  else w.items side guid

def storeItem (items : Side → ObjectGuid → Option Item) (stored : Stored) :
    Side → ObjectGuid → Option Item :=
  Function.update items stored.receiver
    (Function.update (items stored.receiver) stored.guid (some stored.item))

/-- The conversion of a `uint32` to an `int32`. -/
def toInt32 (n : ℕ) : ℤ := Int.bmod n (2 ^ 32)

/-- `Player::ModifyMoney` -/
def modifyMoney (purse : Purse) (amount : ℤ) : Purse :=
  if amount < 0 then ⟨purse.1 - amount.natAbs, Nat.le_trans (Nat.sub_le _ _) purse.2⟩
  else if h : purse.1 < maxMoneyAmount - amount.toNat then
    ⟨purse.1 + amount.toNat, by omega⟩
  else purse

/-- The trade is executed and closed.  The spells are cast after it. -/
def execute (env : Surroundings) : Window where
  isOpen := false
  trade := w.trade
  items := (w.moveItems side env).foldl storeItem w.removeItems
  purse giver :=
    modifyMoney (modifyMoney (w.purse giver) (-toInt32 (w.trade giver).money))
      (toInt32 (w.trade giver.other).money)
  shown := w.shown

def handleAcceptTrade (env : Surroundings) : Window × Outcome :=
  if ¬ w.isOpen then (w, .ignored)
  else
    let w := w.setAccepted side true
    let myMoney := (w.trade side).money
    let hisMoney := (w.trade side.other).money
    if ¬ env.isWithinDist then (w.setAccepted side false, .refused side)
    else if ¬ w.hasEnoughMoney side myMoney then (w.setAccepted side false, .refused side)
    else if ¬ w.hasEnoughMoney side.other hisMoney then
      (w.setAccepted side.other false, .refused side.other)
    else if maxMoneyAmount - hisMoney ≤ (w.purse side).1 then
      (w.setAccepted side false, .refused side)
    else if maxMoneyAmount - myMoney ≤ (w.purse side.other).1 then
      (w.setAccepted side.other false, .refused side.other)
    else
      match w.findInvalid side with
      | some invalid => (w, .refused invalid)
      | none =>
        if ¬ (w.trade side.other).accepted then (w, .waiting)
        else if w.spellFails side env then (w.setSpell side 0 0, .refused side)
        else if w.spellFails side.other env then (w.setSpell side.other 0 0, .refused side.other)
        else if ¬ env.canStoreItems side then (w.unaccept side, .refused side)
        else if ¬ env.canStoreItems side.other then (w.unaccept side, .refused side.other)
        else (w.execute side env, .executed (w.moveItems side env))

/-! ## 5. Runs -/

end Window

open Window in
inductive Input where
  | initiate
  | setItem (side : Side) (tradeSlot : ℕ) (guid : ObjectGuid)
  | clearItem (side : Side) (tradeSlot : ℕ)
  | setGold (side : Side) (gold : ℕ)
  | castSpell (side : Side) (spell : ℕ) (castItem : ObjectGuid)
  | accept (side : Side) (env : Surroundings)
  | unaccept (side : Side)
  | cancel
  /-- Anything that is not the trade changes the inventories and the purses. -/
  | outside (items : Side → ObjectGuid → Option Item) (purse : Side → Purse)

def Window.step (w : Window) : Input → Window
  | .initiate => w.initiateTrade
  | .setItem side tradeSlot guid => w.handleSetTradeItem side tradeSlot guid
  | .clearItem side tradeSlot => w.handleClearTradeItem side tradeSlot
  | .setGold side gold => w.handleSetTradeGold side gold
  | .castSpell side spell castItem => w.castTradeSpell side spell castItem
  | .accept side env => (w.handleAcceptTrade side env).1
  | .unaccept side => w.handleUnacceptTrade side
  | .cancel => w.tradeCancel
  | .outside items purse => { w with items, purse }

end HungerGames.Trade
