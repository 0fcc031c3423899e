/-
# Executing a trade

When both have accepted, the items offered are taken out of both inventories and stored with the
other player, slot by slot and both ways, against inventories that change meanwhile.  Where one of
the two items of a slot cannot be stored, both go back; the positions that were found for the
other's item are gone on from then.

`conserves_iff`: a trade is executed right if and only if no slot is given back after positions were
found for the other's item, and every item that is given back has room.
-/
import HungerGames.Inventory.Stacks
import HungerGames.Inventory.CanStoreItems
import HungerGames.Trade.Agreement

namespace HungerGames.Trade

open HungerGames.System
open HungerGames.Inventory (Stores Player Position ItemOrBag ItemPosCountVec StoreAnswer weigh
  canStoreStack nullBag nullSlot)

/-! ## 1. What is traded -/

/-- What an accept finds. -/
structure Deal where
  player : Side → Player
  purse : Side → Purse
  trade : Side → TradeData
  nextGuid : ℕ

/-- What is asked of the surroundings: `mayLeave` that the owner can unequip the item and is not
looting it, and that no enchantment binds it. -/
structure Checks where
  isWithinDist : Bool
  spellFails : Side → Bool
  mayLeave : Side → Inventory.Item → Bool

variable (S : Stores)

namespace Deal

variable (d : Deal)

/-- The bag and the slot of an item that is offered. -/
def position (c : Side) (slot : TradeSlot) : Option Position :=
  if (d.trade c).items slot = 0 then none
  else (d.player c).getItemByGuid S ((d.trade c).items slot)

/-- `TradeData::GetItem` -/
def item (c : Side) (slot : TradeSlot) : Option ItemOrBag :=
  (d.position S c slot).bind ((d.player c).objectAt S)

/-- The items of a side that are traded. -/
def traded (c : Side) : List ItemOrBag := tradedSlots.filterMap (d.item S c)

/-- The item of a slot can be traded. -/
def canBeTradedAt (env : Checks) (c : Side) (slot : TradeSlot) : Bool :=
  (d.position S c slot).all fun pos =>
    ((d.player c).objectAt S pos).all (Inventory.canBeTraded S (env.mayLeave c) true pos)

/-- No check of the item of `side`, who accepts, or of the other's refuses the trade. -/
def itemsPass (env : Checks) (side : Side) : Bool :=
  tradedSlots.all fun slot =>
    d.canBeTradedAt S env side slot &&
      (d.item S side slot).all (fun o =>
        !Inventory.isBindedNotWith S (d.player side.other) o.item) &&
      d.canBeTradedAt S env side.other slot

/-- `CanStoreItems` of a side for the other's items. -/
def canStoreItems (c : Side) : Bool :=
  Inventory.canStoreItems S (d.player c)
    (fun guid => (d.traded S c).any (·.item.guid = guid)) (d.traded S c.other)

/-- The accept of `side` executes the trade. -/
def passes (env : Checks) (side : Side) : Bool :=
  env.isWithinDist ∧
    (d.trade side).money ≤ (d.purse side).1 ∧
    (d.trade side.other).money ≤ (d.purse side.other).1 ∧
    ¬ maxMoneyAmount - (d.trade side.other).money ≤ (d.purse side).1 ∧
    ¬ maxMoneyAmount - (d.trade side).money ≤ (d.purse side.other).1 ∧
    d.itemsPass S env side ∧
    (d.trade side.other).accepted ∧
    ¬ env.spellFails side ∧ ¬ env.spellFails side.other ∧
    d.canStoreItems S side.other ∧ d.canStoreItems S side

end Deal

/-! ## 2. Moving the items -/

/-- Both players while items are moved, and the next guid. -/
structure Hands where
  player : Side → Player
  nextGuid : ℕ

section Moving

variable (items : Side → TradeSlot → Option ItemOrBag)

/-- What `CanStoreItem` answers a side for the other's item of a slot. -/
def answer (w : Hands) (slot : TradeSlot) (c : Side) : StoreAnswer :=
  match items c.other slot with
  | none => ⟨.ok, [], none⟩
  | some o => canStoreStack S (w.player c) nullBag nullSlot [] (some o) false

/-- `traderCanTrade` and `playerCanTrade`. -/
def canTrade (w : Hands) (slot : TradeSlot) (c : Side) : Bool :=
  (answer S items w slot c).result = .ok

/-- `MoveItemToInventory` -/
def moveItemToInventory (w : Hands) (c : Side) (dest : ItemPosCountVec) (o : ItemOrBag) : Hands :=
  let stored := Inventory.storeItem S o dest (w.player c) w.nextGuid
  ⟨Function.update w.player c stored.player, stored.nextGuid⟩

/-- A side stores the other's item. -/
def store (w : Hands) (slot : TradeSlot) (c : Side) (dest : ItemPosCountVec) : Hands :=
  match items c.other slot with
  | none => w
  | some o => moveItemToInventory S w c dest o

/-- What `CanStoreItem` answers a side for its own item, appended to the positions `dest`. -/
def backAnswer (w : Hands) (c : Side) (dest : ItemPosCountVec) (o : ItemOrBag) : StoreAnswer :=
  canStoreStack S (w.player c) nullBag nullSlot dest (some o) false

/-- A side takes its own item back. -/
def takeBack (w : Hands) (slot : TradeSlot) (c : Side) (dest : ItemPosCountVec) : Hands :=
  match items c slot with
  | none => w
  | some o =>
    if (backAnswer S w c dest o).result = .ok then
      moveItemToInventory S w c (backAnswer S w c dest o).dest o
    else w

/-- One slot of `moveItems`. -/
def moveSlot (side : Side) (w : Hands) (slot : TradeSlot) : Hands :=
  let dst := fun c => (answer S items w slot c).dest
  if canTrade S items w slot side.other ∧ canTrade S items w slot side then
    store S items (store S items w slot side.other (dst side.other)) slot side (dst side)
  else
    takeBack S items (takeBack S items w slot side (dst side)) slot side.other (dst side.other)

/-- `moveItems`, in the session of `side`. -/
def moveItems (side : Side) (w : Hands) : Hands := exec (moveSlot S items side) w tradedSlots

end Moving

namespace Deal

variable (d : Deal)

/-- `execute trade: 1. remove` -/
def removed : Hands where
  player c := (d.player c).takeOut S (tradedSlots.filterMap (d.position S c))
  nextGuid := d.nextGuid

/-- `execute trade: 2. store`, and the money. -/
def execute (side : Side) : Deal :=
  let w := moveItems S (d.item S) side (d.removed S)
  { d with
    player := w.player
    nextGuid := w.nextGuid
    purse giver := Window.modifyMoney
      (Window.modifyMoney (d.purse giver) (-Window.toInt32 (d.trade giver).money))
      (Window.toInt32 (d.trade giver.other).money) }

end Deal

/-! ## 3. What is conserved -/

section Slots

variable (items : Side → TradeSlot → Option ItemOrBag)

/-- The units of an item that is traded. -/
def worth (kinds : ℕ → Bool) (o : Option ItemOrBag) : ℕ := weigh kinds (o.map (·.item))

/-- A side gets exactly the units of an item. -/
def Gets (w w' : Hands) (c : Side) (o : Option ItemOrBag) : Prop :=
  ∀ kinds, (w'.player c).units S kinds = (w.player c).units S kinds + worth kinds o

/-- **A slot is moved right**: each side gets the other's item; or, where one cannot be stored, its
own again, at the positions that are found for it alone. -/
def SlotRight (side : Side) (w : Hands) (slot : TradeSlot) : Prop :=
  let w' := moveSlot S items side w slot
  ((∀ c, canTrade S items w slot c) → ∀ c, Gets S w w' c (items c.other slot)) ∧
    (¬ (∀ c, canTrade S items w slot c) → ∀ c, Gets S w w' c (items c slot) ∧
      ∀ o, items c slot = some o →
        (backAnswer S w c (answer S items w slot c).dest o).dest = (backAnswer S w c [] o).dest)

/-- Both items of a slot can be stored; or each has room with its own side again, where no position
was found for the other's. -/
def SlotFine (w : Hands) (slot : TradeSlot) : Prop :=
  (∀ c, canTrade S items w slot c) ∨ ∀ c o, items c slot = some o →
    (answer S items w slot c).dest = [] ∧ (backAnswer S w c [] o).result = .ok

end Slots

namespace Deal

variable (d : Deal)

/-- **What a trade conserves**: the items of each slot, the units of every kind, and the money. -/
structure Conserves (side : Side) : Prop where
  slots : Along (moveSlot S (d.item S) side) (SlotRight S (d.item S) side) (d.removed S) tradedSlots
  units : ∀ kinds, ((d.execute S side).player .first).units S kinds +
      ((d.execute S side).player .second).units S kinds =
    (d.player .first).units S kinds + (d.player .second).units S kinds
  money : ((d.execute S side).purse .first).1 + ((d.execute S side).purse .second).1 =
    (d.purse .first).1 + (d.purse .second).1

/-- Every slot is fine when its turn comes. -/
def Fine (side : Side) : Prop :=
  Along (moveSlot S (d.item S) side) (SlotFine S (d.item S)) (d.removed S) tradedSlots

/-- What is so of all inventories and offers: an object lies at one place and has some units,
nothing is inside anything but a bag, and no item is offered twice. -/
structure Valid : Prop where
  guids : ∀ {c g}, (d.player c).Has g → g < d.nextGuid
  unique : ∀ {c c' slot slot' inside inside' i i'}, (d.player c).lying slot inside = some i →
    (d.player c').lying slot' inside' = some i' → i.guid = i'.guid →
    c = c' ∧ (slot, inside) = (slot', inside')
  counts : ∀ {c slot inside i}, (d.player c).lying slot inside = some i →
    1 ≤ i.count ∧ i.count < 4294967296
  inside : ∀ c, (d.player c).OnlyBagsHold S
  once : ∀ {c slot slot'}, (d.trade c).items slot ≠ 0 →
    (d.trade c).items slot = (d.trade c).items slot' → slot = slot'

end Deal

/-! ## 4. Moving one slot -/

section Slots

variable {S} {items : Side → TradeSlot → Option ItemOrBag} {w w' : Hands} {slot : TradeSlot}
  {slots : List TradeSlot} {side c e : Side} {o : ItemOrBag} {dest : ItemPosCountVec}
  {kinds : ℕ → Bool}

/-- **What is moved lies nowhere**: the items of the slots that are left, which all differ. -/
structure Apart (items : Side → TradeSlot → Option ItemOrBag) (w : Hands) (slots : List TradeSlot) :
    Prop where
  has : ∀ {c g}, (w.player c).Has g → g < w.nextGuid
  loose : ∀ {c slot o}, slot ∈ slots → items c slot = some o → o.Loose w.nextGuid
  absent : ∀ {c slot o}, slot ∈ slots → items c slot = some o → ∀ e, ¬ (w.player e).Has o.item.guid
  distinct : ∀ {c c' slot slot' o o'}, slot ∈ slots → slot' ∈ slots → items c slot = some o →
    items c' slot' = some o' → o.item.guid = o'.item.guid → c = c' ∧ slot = slot'

theorem Apart.lacks (h : Apart items w slots) (hslot : slot ∈ slots) (ho : items c slot = some o)
    (e : Side) : (w.player e).Lacks o.item.guid w.nextGuid :=
  ⟨h.absent hslot ho e, fun _ => h.has⟩

@[simp] theorem moveItemToInventory_same : (moveItemToInventory S w c dest o).player c =
    (Inventory.storeItem S o dest (w.player c) w.nextGuid).player :=
  Function.update_self c _ w.player

@[simp] theorem moveItemToInventory_ne (hne : e ≠ c) :
    (moveItemToInventory S w c dest o).player e = w.player e :=
  Function.update_of_ne hne _ w.player

theorem store_ne (hne : e ≠ c) : (store S items w slot c dest).player e = w.player e := by
  unfold store
  split
  · rfl
  · exact moveItemToInventory_ne hne

theorem takeBack_ne (hne : e ≠ c) : (takeBack S items w slot c dest).player e = w.player e := by
  unfold takeBack
  split
  · rfl
  · split
    · exact moveItemToInventory_ne hne
    · rfl

theorem nextGuid_le_store : w.nextGuid ≤ (store S items w slot c dest).nextGuid := by
  unfold store
  split
  · exact Nat.le_refl _
  · exact Inventory.nextGuid_le_storeItem _ _ _

theorem nextGuid_le_takeBack : w.nextGuid ≤ (takeBack S items w slot c dest).nextGuid := by
  unfold takeBack
  split
  · exact Nat.le_refl _
  · split
    · exact Inventory.nextGuid_le_storeItem _ _ _
    · exact Nat.le_refl _

/-- Every unit of an item counts. -/
theorem worth_all (o : ItemOrBag) : worth (fun _ => true) (some o) = o.item.count := rfl

/-- **The other's item is stored**, in hands that are as they were on this side. -/
theorem gets_store (h : Apart items w slots) (hslot : slot ∈ slots)
    (hcan : canTrade S items w slot c) (hsame : w'.player c = w.player c)
    (hn : w.nextGuid ≤ w'.nextGuid) :
    Gets S w (store S items w' slot c (answer S items w slot c).dest) c (items c.other slot) := by
  intro kinds
  unfold store
  unfold canTrade answer at hcan
  unfold answer
  cases ho : items c.other slot with
  | none =>
    rw [hsame]
    exact (Nat.add_zero _).symm
  | some o =>
    rw [ho] at hcan
    rw [moveItemToInventory_same, hsame]
    exact Inventory.units_store (h.lacks hslot ho c) (h.loose hslot ho) hn (of_decide_eq_true hcan)

/-- **A side's own item is taken back** right exactly if there was no position for the other's, and
it has room. -/
theorem takeBack_right_iff (h : Apart items w slots) (hslot : slot ∈ slots)
    (hsame : w'.player c = w.player c) (hn : w.nextGuid ≤ w'.nextGuid) :
    (Gets S w (takeBack S items w' slot c (answer S items w slot c).dest) c (items c slot) ∧
      ∀ o, items c slot = some o →
        (backAnswer S w c (answer S items w slot c).dest o).dest = (backAnswer S w c [] o).dest) ↔
    ∀ o, items c slot = some o →
      (answer S items w slot c).dest = [] ∧ (backAnswer S w c [] o).result = .ok := by
  cases ho : items c slot with
  | none =>
    refine iff_of_true ⟨fun kinds => ?_, nofun⟩ nofun
    unfold takeBack
    rw [ho]
    rw [hsame]
    exact (Nat.add_zero _).symm
  | some o =>
    have hback : backAnswer S w' c = backAnswer S w c := by
      unfold backAnswer
      rw [hsame]
    have hlacks := h.lacks hslot ho c
    have hloose := h.loose hslot ho
    unfold takeBack
    rw [ho, hback]
    dsimp only
    generalize hdest : (answer S items w slot c).dest = dest
    constructor
    · rintro ⟨hgets, -⟩ o' ho'
      obtain rfl := Option.some.inj ho'
      have hall := hgets fun _ => true
      rw [worth_all] at hall
      split at hall
      · rename_i hok
        rw [moveItemToInventory_same, hsame] at hall
        by_cases hempty : dest = []
        · rw [hempty] at hok
          exact ⟨hempty, hok⟩
        · -- what was planned for the other's item is stored as well
          obtain ⟨other, hother⟩ : ∃ other, items c.other slot = some other := by
            by_contra hnone
            rw [not_exists] at hnone
            unfold answer at hdest
            cases hi : items c.other slot with
            | none =>
              rw [hi] at hdest
              exact hempty hdest.symm
            | some other => exact hnone other hi
          unfold answer at hdest
          rw [hother] at hdest
          have hmore := Inventory.lt_units_store hlacks hloose (h.lacks hslot hother c)
            (h.loose hslot hother) hn hdest.symm hempty hok
          exact absurd hall hmore.ne'
      · -- the item is lost
        rw [hsame] at hall
        have hsome := hloose.some_units
        omega
    · intro hfine
      obtain ⟨rfl, hok⟩ := hfine o rfl
      refine ⟨fun kinds => ?_, fun _ _ => rfl⟩
      rw [if_pos hok, moveItemToInventory_same, hsame]
      exact Inventory.units_store hlacks hloose hn hok

/-- **A slot is moved right exactly if it is fine.** -/
theorem slotRight_iff (h : Apart items w slots) (hslot : slot ∈ slots) :
    SlotRight S items side w slot ↔ SlotFine S items w slot := by
  have hne : side ≠ side.other := (Side.other_ne side).symm
  unfold SlotRight SlotFine moveSlot
  by_cases hcan : ∀ c, canTrade S items w slot c
  · rw [if_pos ⟨hcan side.other, hcan side⟩]
    refine iff_of_true ⟨fun _ c => ?_, fun hnot => absurd hcan hnot⟩ (Or.inl hcan)
    rcases Side.eq_or_other c side with rfl | rfl
    · exact gets_store h hslot (hcan _) (store_ne hne) nextGuid_le_store
    · intro kinds
      rw [store_ne (Side.other_ne side)]
      exact gets_store h hslot (hcan _) rfl (Nat.le_refl _) kinds
  · have hnot : ¬ (canTrade S items w slot side.other ∧ canTrade S items w slot side) :=
      fun ⟨hother, hself⟩ => hcan fun c => by
        rcases Side.eq_or_other c side with rfl | rfl
        · exact hself
        · exact hother
    rw [if_neg hnot, or_iff_right hcan]
    have hself := @takeBack_right_iff S items w w slot slots side h hslot rfl (Nat.le_refl _)
    have hother := @takeBack_right_iff S items w
      (takeBack S items w slot side (answer S items w slot side).dest) slot slots side.other h hslot
      (takeBack_ne (Side.other_ne side)) nextGuid_le_takeBack
    constructor
    · rintro ⟨-, hright⟩ c
      rcases Side.eq_or_other c side with rfl | rfl
      · refine hself.mp ⟨fun kinds => ?_, (hright hcan c).2⟩
        rw [← (hright hcan c).1 kinds, takeBack_ne hne]
      · exact hother.mp (hright hcan side.other)
    · intro hfine
      refine ⟨fun hall => absurd hall hcan, fun _ c => ?_⟩
      rcases Side.eq_or_other c side with rfl | rfl
      · obtain ⟨hgets, hdest⟩ := hself.mpr (hfine c)
        refine ⟨fun kinds => ?_, hdest⟩
        rw [takeBack_ne hne]
        exact hgets kinds
      · exact hother.mpr (hfine side.other)

/-! ## 5. Moving all the slots -/

/-- No object comes to a player but those of a slot, and new ones. -/
def Brings (items : Side → TradeSlot → Option ItemOrBag) (slot : TradeSlot) (w w' : Hands) : Prop :=
  w.nextGuid ≤ w'.nextGuid ∧ ∀ c g, (w'.player c).Has g → (w.player c).Has g ∨
    (∃ e o, items e slot = some o ∧ g = o.item.guid) ∨ w.nextGuid ≤ g ∧ g < w'.nextGuid

theorem Brings.refl (items : Side → TradeSlot → Option ItemOrBag) (slot : TradeSlot) (w : Hands) :
    Brings items slot w w := ⟨Nat.le_refl _, fun _ _ h => Or.inl h⟩

theorem Brings.trans {w₁ : Hands} (h : Brings items slot w w₁) (h' : Brings items slot w₁ w') :
    Brings items slot w w' := by
  refine ⟨Nat.le_trans h.1 h'.1, fun c g hg => ?_⟩
  rcases h'.2 c g hg with hg | hone | ⟨hge, hlt⟩
  · rcases h.2 c g hg with hg | hone | ⟨hge, hlt⟩
    · exact Or.inl hg
    · exact Or.inr (Or.inl hone)
    · exact Or.inr (Or.inr ⟨hge, Nat.lt_of_lt_of_le hlt h'.1⟩)
  · exact Or.inr (Or.inl hone)
  · exact Or.inr (Or.inr ⟨Nat.le_trans h.1 hge, hlt⟩)

theorem brings_moveItemToInventory (ho : items e slot = some o)
    (hinside : ∀ j, o.bagslot j = none) :
    Brings items slot w (moveItemToInventory S w c dest o) := by
  refine ⟨Inventory.nextGuid_le_storeItem _ _ _, fun f g hg => ?_⟩
  by_cases hf : f = c
  · subst hf
    rw [moveItemToInventory_same] at hg
    rcases hg.of_storeItem hinside with hg | hself | hnew
    · exact Or.inl hg
    · exact Or.inr (Or.inl ⟨e, o, ho, hself⟩)
    · exact Or.inr (Or.inr hnew)
  · rw [moveItemToInventory_ne hf] at hg
    exact Or.inl hg

/-- Nothing is inside the items of a slot. -/
def Closed (items : Side → TradeSlot → Option ItemOrBag) (slot : TradeSlot) : Prop :=
  ∀ {c o}, items c slot = some o → ∀ j, o.bagslot j = none

theorem brings_store (hclosed : Closed items slot) :
    Brings items slot w (store S items w slot c dest) := by
  unfold store
  cases ho : items c.other slot with
  | none => exact Brings.refl items slot w
  | some o => exact brings_moveItemToInventory ho (hclosed ho)

theorem brings_takeBack (hclosed : Closed items slot) :
    Brings items slot w (takeBack S items w slot c dest) := by
  unfold takeBack
  cases ho : items c slot with
  | none => exact Brings.refl items slot w
  | some o =>
    dsimp only
    split
    · exact brings_moveItemToInventory ho (hclosed ho)
    · exact Brings.refl items slot w

theorem brings_moveSlot (hclosed : Closed items slot) :
    Brings items slot w (moveSlot S items side w slot) := by
  unfold moveSlot
  split
  · exact (brings_store hclosed).trans (brings_store hclosed)
  · exact (brings_takeBack hclosed).trans (brings_takeBack hclosed)

/-- The items of the later slots stay apart. -/
theorem Apart.moveSlot (h : Apart items w (slot :: slots)) (hnew : slot ∉ slots) :
    Apart items (moveSlot S items side w slot) slots := by
  obtain ⟨hle, hbrings⟩ := @brings_moveSlot S items w slot side fun ho =>
    (h.loose List.mem_cons_self ho).nothing_inside
  have hmem : ∀ {later}, later ∈ slots → later ∈ slot :: slots := List.mem_cons_of_mem slot
  refine ⟨fun hg => ?_, fun hlater ho => ?_, fun hlater ho e hg => ?_, fun hlater hlater' => ?_⟩
  · rcases hbrings _ _ hg with hg | ⟨e, o, ho, rfl⟩ | ⟨-, hlt⟩
    · exact Nat.lt_of_lt_of_le (h.has hg) hle
    · exact Nat.lt_of_lt_of_le (h.loose List.mem_cons_self ho).known hle
    · exact hlt
  · have hloose := h.loose (hmem hlater) ho
    exact ⟨hloose.some_units, hloose.in_range, hloose.nothing_inside,
      Nat.lt_of_lt_of_le hloose.known hle⟩
  · rcases hbrings _ _ hg with hg | ⟨f, o', ho', heq⟩ | ⟨hge, -⟩
    · exact h.absent (hmem hlater) ho e hg
    · obtain ⟨-, rfl⟩ := h.distinct (hmem hlater) List.mem_cons_self ho ho' heq
      exact hnew hlater
    · exact absurd (h.loose (hmem hlater) ho).known (Nat.not_lt.mpr hge)
  · exact h.distinct (hmem hlater) (hmem hlater')

/-- **The slots are all moved right exactly if all are fine** when their turn comes. -/
theorem slotsRight_iff : ∀ {slots : List TradeSlot} {w : Hands}, slots.Nodup → Apart items w slots →
    (Along (moveSlot S items side) (SlotRight S items side) w slots ↔
      Along (moveSlot S items side) (SlotFine S items) w slots)
  | [], _, _, _ => Iff.rfl
  | slot :: slots, w, hnodup, h => by
    obtain ⟨hnew, hnodup⟩ := List.nodup_cons.mp hnodup
    exact and_congr (slotRight_iff h List.mem_cons_self) (slotsRight_iff hnodup (h.moveSlot hnew))

/-- The units of both players. -/
def Hands.units (S : Stores) (w : Hands) (kinds : ℕ → Bool) : ℕ :=
  (w.player .first).units S kinds + (w.player .second).units S kinds

/-- The units of both items of a slot. -/
def slotWorth (items : Side → TradeSlot → Option ItemOrBag) (kinds : ℕ → Bool) (slot : TradeSlot) :
    ℕ := worth kinds (items .first slot) + worth kinds (items .second slot)

theorem SlotRight.units (h : SlotRight S items side w slot) (kinds : ℕ → Bool) :
    (Trade.moveSlot S items side w slot).units S kinds =
      w.units S kinds + slotWorth items kinds slot := by
  unfold Hands.units slotWorth
  by_cases hcan : ∀ c, canTrade S items w slot c
  · have hfirst := h.1 hcan .first kinds
    have hsecond := h.1 hcan .second kinds
    simp only [Side.other] at hfirst hsecond
    omega
  · have hfirst := (h.2 hcan .first).1 kinds
    have hsecond := (h.2 hcan .second).1 kinds
    omega

/-- **Slots that are moved right** give both players together the units of their items. -/
theorem units_of_slotsRight : ∀ {slots : List TradeSlot} {w : Hands},
    Along (moveSlot S items side) (SlotRight S items side) w slots →
    (exec (moveSlot S items side) w slots).units S kinds =
      w.units S kinds + (slots.map (slotWorth items kinds)).sum
  | [], _, _ => (Nat.add_zero _).symm
  | slot :: slots, w, h => by
    rw [exec_cons, units_of_slotsRight h.2, h.1.units, List.map_cons, List.sum_cons, Nat.add_assoc]

end Slots

/-! ## 6. Taking the items out -/

namespace Deal

variable {S} {d : Deal} {c : Side} {slot : TradeSlot} {pos : Position} {o : ItemOrBag}
  {env : Checks} {side : Side} {kinds : ℕ → Bool}

/-- An item that is offered lies at its position, with its guid. -/
theorem position_spec (hpos : d.position S c slot = some pos) : (d.trade c).items slot ≠ 0 ∧
    ∃ i, (d.player c).getItemByPos S pos = some i ∧ i.guid = (d.trade c).items slot := by
  unfold position at hpos
  split at hpos
  · cases hpos
  · rename_i hguid
    exact ⟨hguid, Player.getItemByGuid_spec hpos⟩

theorem item_spec (ho : d.item S c slot = some o) : ∃ pos, d.position S c slot = some pos ∧
    (d.player c).objectAt S pos = some o ∧ (d.player c).getItemByPos S pos = some o.item ∧
    o.item.guid = (d.trade c).items slot ∧ (d.trade c).items slot ≠ 0 := by
  obtain ⟨pos, hpos, hobject⟩ := Option.bind_eq_some_iff.mp ho
  obtain ⟨hne, i, hi, hguid⟩ := position_spec hpos
  obtain ⟨o', ho', rfl, -⟩ := Player.objectAt_spec hi
  rw [hobject] at ho'
  obtain rfl := Option.some.inj ho'
  exact ⟨pos, hpos, hobject, hi, hguid, hne⟩

theorem worth_item : worth kinds (d.item S c slot) =
    ((d.position S c slot).map fun pos =>
      weigh kinds ((d.player c).getItemByPos S pos)).getD 0 := by
  unfold item
  cases hpos : d.position S c slot with
  | none => rfl
  | some pos =>
    obtain ⟨-, i, hi, -⟩ := position_spec hpos
    obtain ⟨o, ho, rfl, -⟩ := Player.objectAt_spec hi
    rw [Option.bind_some, ho, Option.map_some, hi]
    rfl

/-- What each item is checked for, whichever side accepts. -/
theorem canBeTraded_of_passes (h : d.itemsPass S env side) (hslot : slot ∈ tradedSlots) (c : Side) :
    d.canBeTradedAt S env c slot := by
  have hall := List.all_eq_true.mp h slot hslot
  simp only [Bool.and_eq_true] at hall
  rcases Side.eq_or_other c side with rfl | rfl
  · exact hall.1.1
  · exact hall.2

/-- **An item that can be traded** is not a bag that is worn, and has nothing inside. -/
theorem unworn_of_passes (hvalid : d.Valid S) (h : d.itemsPass S env side)
    (hslot : slot ∈ tradedSlots) (hpos : d.position S c slot = some pos) :
    Inventory.Unworn S (d.player c) pos ∧
      ∀ o, d.item S c slot = some o → ∀ j, o.bagslot j = none := by
  obtain ⟨-, i, hi, -⟩ := position_spec hpos
  obtain ⟨o, ho, rfl, -⟩ := Player.objectAt_spec hi
  have htraded := canBeTraded_of_passes h hslot c
  unfold canBeTradedAt at htraded
  rw [hpos, Option.all_some, ho, Option.all_some] at htraded
  obtain ⟨hunworn, hinside⟩ := Inventory.unworn_of_canBeTraded hi ho htraded
  refine ⟨hunworn, fun o' ho' => ?_⟩
  unfold item at ho'
  rw [hpos, Option.bind_some, ho] at ho'
  obtain rfl := Option.some.inj ho'
  exact hinside (hvalid.inside c)

/-- The positions of the items that a side trades. -/
def positions (S : Stores) (d : Deal) (c : Side) : List Position :=
  tradedSlots.filterMap (d.position S c)

theorem nodup_tradedSlots : tradedSlots.Nodup := by decide

theorem nodup_positions (hvalid : d.Valid S) : (d.positions S c).Nodup := by
  refine nodup_tradedSlots.filterMap ?_
  intro slot slot' pos hpos hpos'
  obtain ⟨hne, i, hi, hguid⟩ := position_spec (Option.mem_def.mp hpos)
  obtain ⟨-, i', hi', hguid'⟩ := position_spec (Option.mem_def.mp hpos')
  rw [hi] at hi'
  obtain rfl := Option.some.inj hi'
  exact hvalid.once hne (hguid.symm.trans hguid')

theorem takeOut_positions (hvalid : d.Valid S) (h : d.itemsPass S env side) (c : Side) :
    (∀ kinds, ((d.removed S).player c).units S kinds +
      ((d.positions S c).map fun pos => weigh kinds ((d.player c).getItemByPos S pos)).sum =
        (d.player c).units S kinds) ∧
    ∀ {slot inside i}, ((d.removed S).player c).lying slot inside = some i →
      (d.player c).lying slot inside = some i ∧
        ∀ pos ∈ d.positions S c, pos.place ≠ (slot, inside) := by
  refine Player.takeOut_spec (nodup_positions hvalid) fun pos hpos => ?_
  obtain ⟨slot, hslot, hpos⟩ := List.mem_filterMap.mp hpos
  exact (unworn_of_passes hvalid h hslot hpos).1

/-- **The items that are taken out lie nowhere.** -/
theorem apart_removed (hvalid : d.Valid S) (h : d.itemsPass S env side) :
    Apart (d.item S) (d.removed S) tradedSlots := by
  have hbefore : ∀ {c slot inside i}, ((d.removed S).player c).lying slot inside = some i →
      (d.player c).lying slot inside = some i ∧
        ∀ pos ∈ d.positions S c, pos.place ≠ (slot, inside) :=
    fun hi => (takeOut_positions hvalid h _).2 hi
  refine ⟨?_, ?_, ?_, ?_⟩
  · rintro c g ⟨slot, inside, i, hi, rfl⟩
    exact hvalid.guids ⟨slot, inside, i, (hbefore hi).1, rfl⟩
  · intro c slot o hslot ho
    obtain ⟨pos, hpos, -, hi, -⟩ := item_spec ho
    obtain ⟨hsome, hrange⟩ := hvalid.counts (Player.lying_of_item hi)
    exact ⟨hsome, hrange, (unworn_of_passes hvalid h hslot hpos).2 o ho,
      hvalid.guids (Player.has_of_item hi)⟩
  · rintro c slot o hslot ho e ⟨place, inside, i, hi, hguid⟩
    obtain ⟨pos, hpos, -, hi', -⟩ := item_spec ho
    obtain ⟨hlying, hplaces⟩ := hbefore hi
    obtain ⟨rfl, heq⟩ := hvalid.unique (Player.lying_of_item hi') hlying hguid.symm
    exact hplaces pos (List.mem_filterMap.mpr ⟨slot, hslot, hpos⟩) heq
  · intro c c' slot slot' o o' _ _ ho ho' hguid
    obtain ⟨pos, -, -, hi, hown, hne⟩ := item_spec ho
    obtain ⟨pos', -, -, hi', hown', -⟩ := item_spec ho'
    obtain ⟨rfl, -⟩ := hvalid.unique (Player.lying_of_item hi) (Player.lying_of_item hi') hguid
    exact ⟨rfl, hvalid.once hne (hown.symm.trans (hguid.trans hown'))⟩

theorem sum_positions (slots : List TradeSlot) :
    ((slots.filterMap (d.position S c)).map fun pos =>
      weigh kinds ((d.player c).getItemByPos S pos)).sum =
    (slots.map fun slot => worth kinds (d.item S c slot)).sum := by
  induction slots with
  | nil => rfl
  | cons slot slots ih =>
    rw [List.map_cons, List.sum_cons, ← ih, worth_item]
    cases hpos : d.position S c slot with
    | none => simp [hpos]
    | some pos => simp [hpos]

/-- **What is taken out** and what is left make up what there was. -/
theorem units_removed (hvalid : d.Valid S) (h : d.itemsPass S env side) (kinds : ℕ → Bool) :
    (d.removed S).units S kinds + (tradedSlots.map (slotWorth (d.item S) kinds)).sum =
      (d.player .first).units S kinds + (d.player .second).units S kinds := by
  have hfirst := (takeOut_positions hvalid h .first).1 kinds
  have hsecond := (takeOut_positions hvalid h .second).1 kinds
  have hboth : (tradedSlots.map (slotWorth (d.item S) kinds)).sum =
      (tradedSlots.map fun slot => worth kinds (d.item S .first slot)).sum +
        (tradedSlots.map fun slot => worth kinds (d.item S .second slot)).sum :=
    List.sum_map_add
  unfold positions at hfirst hsecond
  rw [sum_positions] at hfirst hsecond
  unfold Hands.units
  omega

/-! ## 7. The trade -/

/-- The checks of the money. -/
theorem money_of_passes (h : d.passes S env side) (c : Side) :
    (d.trade c).money ≤ (d.purse c).1 ∧
      (d.purse c).1 < maxMoneyAmount - (d.trade c.other).money := by
  unfold passes at h
  simp only [decide_eq_true_eq] at h
  obtain ⟨-, hmine, hhis, hroom, hroom', -⟩ := h
  rcases Side.eq_or_other c side with rfl | rfl
  · exact ⟨hmine, Nat.lt_of_not_le hroom⟩
  · refine ⟨hhis, ?_⟩
    rw [Side.other_other]
    exact Nat.lt_of_not_le hroom'

theorem itemsPass_of_passes (h : d.passes S env side) : d.itemsPass S env side := by
  unfold passes at h
  simp only [decide_eq_true_eq] at h
  exact h.2.2.2.2.2.1

/-- **Trade atomicity.**  A trade that passes the checks conserves every item and the money exactly
if every slot is fine when its turn comes. -/
theorem conserves_iff (hvalid : d.Valid S) (h : d.passes S env side) :
    d.Conserves S side ↔ d.Fine S side := by
  have hitems := itemsPass_of_passes h
  have hslots := @slotsRight_iff S (d.item S) side tradedSlots (d.removed S) nodup_tradedSlots
    (apart_removed hvalid hitems)
  refine ⟨fun hconserves => hslots.mp hconserves.slots, fun hfine => ⟨hslots.mpr hfine, ?_, ?_⟩⟩
  · intro kinds
    have hmoved := @units_of_slotsRight S (d.item S) side kinds _ _ (hslots.mpr hfine)
    exact hmoved.trans (units_removed hvalid hitems kinds)
  · obtain ⟨hmine, hroom⟩ := money_of_passes h .first
    obtain ⟨hmine', hroom'⟩ := money_of_passes h .second
    have hfirst := modifyMoney_trade (d.purse .first) hmine hroom
    have hsecond := modifyMoney_trade (d.purse .second) hmine' hroom'
    unfold execute
    dsimp only [Side.other] at hfirst hsecond ⊢
    omega

end Deal

/-! ## 8. Tokens of which a player may have three -/

/-- A token 7 and a token 8. -/
def twoTokens : Stores where
  itemTemplate entry :=
    if entry = 7 ∨ entry = 8 then some { Inventory.Request.token with itemId := entry } else none
  itemTemplate_id := by
    intro entry t ht
    split at ht
    · obtain rfl := Option.some.inj ht
      rfl
    · cases ht
  itemLimitCategory _ := none

/-- A player with single items in the backpack: slot, guid and entry of each. -/
def carrier (guid : ℕ) (l : List (ℕ × ℕ × ℕ)) : Player where
  guid := guid
  items slot := (l.lookup slot).map fun i =>
    ⟨⟨i.1, i.2, 1, false, false, guid, false, [], []⟩, fun _ => none⟩

/-- The first has two tokens 7. -/
def carried (second : List (ℕ × ℕ × ℕ)) (c : Side) : List (ℕ × ℕ × ℕ) :=
  if c = .first then [(23, 11, 7), (24, 12, 7)] else second

/-- The first offers both tokens 7, and the second a token 8 for the second of them. -/
def tokenDeal (second : List (ℕ × ℕ × ℕ)) : Deal where
  player c := carrier (if c = .first then 1 else 2) (carried second c)
  purse := pockets
  trade c := if c = .first then
      ⟨true, 30, 0, 0, fun slot => if slot.1 = 0 then 11 else if slot.1 = 1 then 12 else 0⟩
    else ⟨true, 5, 0, 0, fun slot => if slot.1 = 1 then 14 else 0⟩
  nextGuid := 20

def noObjection : Checks := ⟨true, fun _ => false, fun _ _ => true⟩

theorem lying_carrier {guid slot : ℕ} {l : List (ℕ × ℕ × ℕ)} {inside : Option ℕ}
    {i : Inventory.Item} (hi : (carrier guid l).lying slot inside = some i) :
    inside = none ∧ i.count = 1 ∧ ∃ p ∈ l, p.1 = slot ∧ p.2.1 = i.guid := by
  cases inside with
  | none =>
    obtain ⟨o, ho, rfl⟩ := Option.map_eq_some_iff.mp hi
    obtain ⟨p, hp, rfl⟩ := Option.map_eq_some_iff.mp ho
    obtain ⟨before, after, hl, -⟩ := List.lookup_eq_some_iff.mp hp
    exact ⟨rfl, rfl, (slot, p), hl ▸ by simp, rfl, rfl⟩
  | some j =>
    obtain ⟨o, ho, hj⟩ := Option.bind_eq_some_iff.mp hi
    obtain ⟨p, hp, rfl⟩ := Option.map_eq_some_iff.mp ho
    cases hj

theorem tokenDeal_valid {second : List (ℕ × ℕ × ℕ)}
    (hknown : ∀ c, ∀ p ∈ carried second c, p.2.1 < 20)
    (hunique : ∀ c c', ∀ p ∈ carried second c, ∀ p' ∈ carried second c', p.2.1 = p'.2.1 →
      c = c' ∧ p.1 = p'.1) : (tokenDeal second).Valid twoTokens where
  guids := by
    rintro c g ⟨slot, inside, i, hi, rfl⟩
    obtain ⟨-, -, p, hp, -, hguid⟩ := lying_carrier hi
    exact hguid ▸ hknown c p hp
  unique := by
    intro c c' slot slot' inside inside' i i' hi hi' hguid
    obtain ⟨rfl, -, p, hp, rfl, hp'⟩ := lying_carrier hi
    obtain ⟨rfl, -, q, hq, rfl, hq'⟩ := lying_carrier hi'
    obtain ⟨hc, hslot⟩ := hunique c c' p hp q hq (hp'.trans (hguid.trans hq'.symm))
    exact ⟨hc, by rw [hslot]⟩
  counts := by
    intro c slot inside i hi
    obtain ⟨-, hcount, -⟩ := lying_carrier hi
    rw [hcount]
    decide
  inside := by
    intro c slot o j ho hne
    obtain ⟨p, -, rfl⟩ := Option.map_eq_some_iff.mp ho
    exact absurd rfl hne
  once := by
    have hfirst : ∀ slot slot' : TradeSlot,
        (if slot.1 = 0 then 11 else if slot.1 = 1 then 12 else 0) ≠ 0 →
        (if slot.1 = 0 then 11 else if slot.1 = 1 then 12 else 0) =
          (if slot'.1 = 0 then 11 else if slot'.1 = 1 then 12 else 0) → slot = slot' := by decide
    have hsecond : ∀ slot slot' : TradeSlot, (if slot.1 = 1 then 14 else 0) ≠ 0 →
        (if slot.1 = 1 then 14 else 0) = (if slot'.1 = 1 then 14 else 0) → slot = slot' := by decide
    intro c slot slot' hne heq
    cases c with
    | first => exact hfirst slot slot' hne heq
    | second => exact hsecond slot slot' hne heq

/-- The second has no token 7: both can be stored. -/
theorem conserves_iff_tokens : (tokenDeal [(24, 14, 8)]).Conserves twoTokens .first :=
  (@Deal.conserves_iff twoTokens (tokenDeal [(24, 14, 8)]) noObjection .first
    (tokenDeal_valid (fun c => by cases c <;> decide)
      fun c c' => by cases c <;> cases c' <;> decide)
    (by decide +kernel)).mpr
    ⟨Or.inl fun c => by cases c <;> decide +kernel, Or.inl fun c => by cases c <;> decide +kernel,
      Or.inl fun c => by cases c <;> decide +kernel, Or.inl fun c => by cases c <;> decide +kernel,
      Or.inl fun c => by cases c <;> decide +kernel, Or.inl fun c => by cases c <;> decide +kernel,
      trivial⟩

/-- The second has two tokens 7.  Each of the first's two passes the check, but the second of them
cannot be stored: it is given back at the position of the token 8 as well, and five come of four. -/
theorem token_doubled : ∃ d : Deal, d.Valid twoTokens ∧ d.passes twoTokens noObjection .first ∧
    (∀ c, (d.player c).units twoTokens (· == 7) = 2) ∧
    (∀ c, ((d.execute twoTokens .first).player c).units twoTokens (· == 7) =
      if c = .first then 2 else 3) ∧
    ¬ d.Conserves twoTokens .first := by
  have hbefore : ∀ c, ((tokenDeal [(23, 13, 7), (24, 14, 8), (25, 15, 7)]).player c).units
      twoTokens (· == 7) = 2 := fun c => by cases c <;> decide +kernel
  have hafter : ∀ c, (((tokenDeal [(23, 13, 7), (24, 14, 8), (25, 15, 7)]).execute twoTokens
      .first).player c).units twoTokens (· == 7) = if c = .first then 2 else 3 :=
    fun c => by cases c <;> decide +kernel
  refine ⟨tokenDeal [(23, 13, 7), (24, 14, 8), (25, 15, 7)],
    tokenDeal_valid (fun c => by cases c <;> decide) fun c c' => by cases c <;> cases c' <;> decide,
    by decide +kernel, hbefore, hafter, fun hconserves => ?_⟩
  have hunits := hconserves.units (· == 7)
  rw [hbefore, hbefore, hafter, hafter] at hunits
  exact absurd hunits (by decide)

end HungerGames.Trade
