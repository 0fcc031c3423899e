/-
# The plan of `CanStoreItem` is right

A `Request` is a call of `CanStoreItem` with an empty `dest`.  `SoundAnswer` says that its
positions are distinct, that each accepts the item and has the free space that is planned, and
that the planned counts and the count without space are what was asked for.

It does not hold of every request.  `Ordinary` is the condition for it: the limit on similar
items is not exceeded already (the units that may still be taken would wrap around), a key does
not run out of keyring while a currency slot is free (the backpack's branch goes on to the
currency slots), a bag with something in it is not moved to any place at all (that return leaves
the count alone), and the plan does not reach into the moved item itself nor into a bag that it
is swapped for.
-/
import HungerGames.Inventory.CanStoreItem
import HungerGames.System.EarlyReturn

namespace HungerGames.Inventory

open HungerGames.System

/-! ## 1. Requests -/

/-- A call of `CanStoreItem` with an empty `dest`. -/
structure Request where
  stores : Stores
  player : Player
  proto : ItemTemplate
  item : Option ItemOrBag
  bag : ℕ
  slot : ℕ
  swap : Bool
  count : ℕ
  known : stores.itemTemplate proto.itemId = some proto
  count_pos : 1 ≤ count
  count_lt : count < 4294967296
  same : ∀ o ∈ item, o.item.entry = proto.itemId

namespace Request

variable (r : Request)

def answer : StoreAnswer :=
  canStoreItem r.stores r.player r.bag r.slot [] r.proto.itemId r.count r.item r.swap

def itemAt (pos : Position) : Option Item := r.player.getItemByPos r.stores pos

/-- The given slot, when its item is swapped for the moved one. -/
def swapsAt (pos : Position) : Bool := r.swap && (pos = ⟨r.bag, r.slot⟩ : Bool)

/-- The rules of `CanStoreItem_InSpecificSlot` let the item in. -/
def Accepts (pos : Position) : Prop :=
  (canStoreItem_InSpecificSlot r.stores r.player pos ⟨[], 1⟩ r.proto (r.swapsAt pos) r.item).1
    = .ok

/-- The slot is empty, or the moved item's own, or the swap target's, or a stack to merge with. -/
def Vacant (pos : Position) : Prop :=
  r.itemAt pos = none ∨ (∃ i, r.itemAt pos = some i ∧ isSkipped r.item i) ∨ r.swapsAt pos ∨
    ∃ i, r.itemAt pos = some i ∧ i.canBeMergedPartlyWith r.proto = .ok

/-- What a slot holds after the moved item and the swap target are taken out. -/
def leftAt (pos : Position) : Option Item :=
  if r.swapsAt pos then none else ignoreMoved r.item (r.itemAt pos)

def freeSpace (pos : Position) : ℕ :=
  r.proto.getMaxStackSize - ((r.leftAt pos).map (·.count)).getD 0

/-- **A planned part is right.** -/
structure PlannedRight (pos : Position) (n : ℕ) : Prop where
  accepted : r.Accepts pos
  vacant : r.Vacant pos
  some_units : 0 < n
  fits : n ≤ r.freeSpace pos

/-- The units that an answer has no space for; the caller's counter is 0 before the call. -/
def leftOver (a : StoreAnswer) : ℕ := a.noSpaceCount.getD 0

/-- **What an answer has to be.** -/
structure SoundAnswer (a : StoreAnswer) : Prop where
  distinct : (a.dest.map Prod.fst).Nodup
  planned : ∀ p ∈ a.dest, r.PlannedRight p.1 p.2
  total : (a.dest.map Prod.snd).sum + leftOver a = r.count
  ok_iff : a.result = .ok ↔ leftOver a = 0

/-! ## 2. The condition -/

/-- The moved item is a bag with something in it. -/
def movesFullBag : Bool := r.item.any (·.isNotEmptyBag r.stores)

/-- The check of similar items lets nothing in. -/
def letsNothingIn : Bool :=
  let similar := canTakeMoreSimilarItems r.stores r.player r.proto.itemId r.count r.item
  similar.result ≠ .ok ∧ r.count = similar.noSpaceCount

/-- The call is refused before anything is planned. -/
def isRefused : Bool :=
  r.item.any (·.item.lootGenerated) ||
    (r.item.any fun o => isBindedNotWith r.stores r.player o.item) || r.letsNothingIn

/-- What the player has of the item, and of its category, without the moved item. -/
def has : ℕ := r.player.getItemCount r.stores r.proto.itemId true r.item

def hasOfCategory : ℕ :=
  r.player.getItemCountWithLimitCategory r.stores r.proto.itemLimitCategory r.item

/-- The limit on the item itself stops the request. -/
def OverMaxCount : Prop :=
  0 < r.proto.maxCount ∧ r.proto.maxCount ≠ 2147483647 ∧
    r.proto.maxCount.toNat < add32 r.has r.count

instance : Decidable r.OverMaxCount := inferInstanceAs (Decidable (_ ∧ _ ∧ _))

/-- The limit on the items of its category, when items of it are limited in number. -/
def categoryMax : Option ℕ :=
  if r.proto.itemLimitCategory = 0 ∨ r.proto.maxCount = 2147483647 then none
  else ((r.stores.itemLimitCategory r.proto.itemLimitCategory).filter (·.mode = 0)).map (·.maxCount)

/-- The units that the limits let the player take. -/
def allowed : ℕ :=
  if r.OverMaxCount then r.proto.maxCount.toNat - r.has
  else
    match r.categoryMax with
    | none => r.count
    | some m => if m < add32 r.hasOfCategory r.count then m - r.hasOfCategory else r.count

/-- The space of the given slot, if the item may go there. -/
def givenSpace : Option ℕ :=
  if r.bag ≠ nullBag ∧ r.slot ≠ nullSlot then
    (spaceInSpecificSlot r.stores r.player ⟨r.bag, r.slot⟩ r.proto r.swap r.item).toOption
  else some 0

/-- The room in other slots of `m_items`: of stacks, or of free slots. -/
def ownRoom (merge : Bool) (slots : List ℕ) : ℕ :=
  Filling.roomIn (roomAt r.stores r.player r.proto merge r.item (skipsOwn r.bag r.slot))
    (ownPositions slots)

/-- The room for a key before the currency slots. -/
def keyRoom : ℕ :=
  (if r.proto.stackable = 1 then 0
    else r.ownRoom true ringAndCurrencySlots + r.ownRoom true packSlots)
    + r.ownRoom false keyringSlots

/-- **The condition for a right plan.** -/
structure Ordinary : Prop where
  maxCount : r.OverMaxCount → r.has ≤ r.proto.maxCount.toNat
  category : ¬ r.OverMaxCount → ∀ m, r.categoryMax = some m →
    m < add32 r.hasOfCategory r.count → r.hasOfCategory ≤ m
  keys : r.bag = inventorySlotBag0 → r.proto.isKey → ¬ r.proto.isCurrencyToken →
    ¬ r.movesFullBag → ∀ n, r.givenSpace = some n → n + r.keyRoom < r.allowed →
      r.ownRoom false currencySlots = 0
  fullBag : r.movesFullBag → r.bag = nullBag → r.proto.stackable = 1 →
    r.proto.isKey ∨ r.proto.isCurrencyToken
  itself : ∀ b, r.player.getBagByPos r.stores r.bag = some b → isSkipped r.item b.item →
    r.slot < b.getBagSize r.stores → r.givenSpace = none
  swapped : r.swap → r.bag = inventorySlotBag0 →
    ∀ b, r.player.getBagByPos r.stores r.slot = some b → ¬ isSkipped r.item b.item →
      r.givenSpace ≠ none → r.allowed ≤ r.proto.getMaxStackSize

/-! ## 3. The limits on similar items -/

variable {r}

/-- A limit that is not exceeded yet splits the request. -/
theorem limit_splits {has count m : ℕ} (hcount : count < 4294967296) (hle : has ≤ m)
    (hover : m < add32 has count) :
    0 < sub32 (add32 count has) m ∧ sub32 (add32 count has) m + (m - has) = count := by
  unfold add32 at hover
  unfold sub32 add32
  split <;> omega

/-- What a check of similar items says: no limit stops the request, or nothing may be taken, or a
limit lets in what is allowed. -/
def Splits (r : Request) (similar : Similar) : Prop :=
  (similar.result = .ok ∧ similar.noSpaceCount = 0 ∧ r.allowed = r.count) ∨
    (similar.result ≠ .ok ∧ similar.noSpaceCount = r.count) ∨
    (similar.result ≠ .ok ∧ 0 < similar.noSpaceCount ∧
      similar.noSpaceCount + r.allowed = r.count)

theorem splits_category (h : r.Ordinary) (hover : ¬ r.OverMaxCount)
    (hlimited : r.proto.maxCount ≠ 2147483647) :
    r.Splits (canTakeMoreOfCategory r.stores r.player r.proto r.count r.item) := by
  have hallowed : r.allowed = match r.categoryMax with
      | none => r.count
      | some m => if m < add32 r.hasOfCategory r.count then m - r.hasOfCategory else r.count :=
    if_neg hover
  unfold canTakeMoreOfCategory
  by_cases hzero : r.proto.itemLimitCategory = 0
  · rw [if_pos hzero]
    have hnone : r.categoryMax = none := if_pos (Or.inl hzero)
    rw [hnone] at hallowed
    exact Or.inl ⟨rfl, rfl, hallowed⟩
  rw [if_neg hzero]
  have hmax : r.categoryMax =
      ((r.stores.itemLimitCategory r.proto.itemLimitCategory).filter (·.mode = 0)).map
        (·.maxCount) :=
    if_neg fun hor => hor.elim hzero hlimited
  cases hentry : r.stores.itemLimitCategory r.proto.itemLimitCategory with
  | none => exact Or.inr (Or.inl ⟨fun hc => InventoryResult.noConfusion hc, rfl⟩)
  | some limitEntry =>
    rw [hentry] at hmax
    dsimp only
    by_cases hmode : limitEntry.mode = 0
    · have hsome : r.categoryMax = some limitEntry.maxCount := by
        rw [hmax, Option.filter_some, if_pos (decide_eq_true hmode)]
        rfl
      rw [hsome] at hallowed
      dsimp only at hallowed
      by_cases hstops : limitEntry.maxCount < add32 r.hasOfCategory r.count
      · rw [if_pos ⟨hmode, hstops⟩]
        rw [if_pos hstops] at hallowed
        obtain ⟨hpos, hsum⟩ :=
          limit_splits r.count_lt (h.category hover _ hsome hstops) hstops
        exact Or.inr (Or.inr ⟨fun hc => InventoryResult.noConfusion hc, hpos,
          by rw [hallowed]; exact hsum⟩)
      · rw [if_neg fun hand => hstops hand.2]
        rw [if_neg hstops] at hallowed
        exact Or.inl ⟨rfl, rfl, hallowed⟩
    · have hnone : r.categoryMax = none := by
        rw [hmax, Option.filter_some, if_neg (by simpa using hmode)]
        rfl
      rw [hnone] at hallowed
      rw [if_neg fun hand => hmode hand.1]
      exact Or.inl ⟨rfl, rfl, hallowed⟩

/-- **The check of similar items splits an ordinary request.** -/
theorem splits_similar (h : r.Ordinary) (hnot : ¬ r.item.any (·.item.lootGenerated)) :
    r.Splits (canTakeMoreSimilarItems r.stores r.player r.proto.itemId r.count r.item) := by
  unfold canTakeMoreSimilarItems
  rw [r.known]
  dsimp only
  rw [if_neg hnot]
  by_cases hfree : (r.proto.maxCount ≤ 0 ∧ r.proto.itemLimitCategory = 0) ∨
      r.proto.maxCount = 2147483647
  · rw [if_pos hfree]
    have hover : ¬ r.OverMaxCount := fun hover =>
      hfree.elim (fun hle => by have := hover.1; omega) hover.2.1
    have hnone : r.categoryMax = none := if_pos (hfree.imp_left And.right)
    refine Or.inl ⟨rfl, rfl, ?_⟩
    unfold allowed
    rw [if_neg hover, hnone]
  rw [if_neg hfree]
  have hlimited : r.proto.maxCount ≠ 2147483647 := fun hmax => hfree (Or.inr hmax)
  by_cases hstops : 0 < r.proto.maxCount ∧ r.proto.maxCount.toNat < add32 r.has r.count
  · have hover : r.OverMaxCount := ⟨hstops.1, hlimited, hstops.2⟩
    obtain ⟨hpos, hsum⟩ := limit_splits r.count_lt (h.maxCount hover) hstops.2
    have hallowed : r.allowed = r.proto.maxCount.toNat - r.has := if_pos hover
    unfold has at hstops
    rw [if_pos hstops]
    exact Or.inr (Or.inr ⟨fun hc => InventoryResult.noConfusion hc, hpos,
      by rw [hallowed]; exact hsum⟩)
  · have hover : ¬ r.OverMaxCount := fun hover => hstops ⟨hover.1, hover.2.2⟩
    unfold has at hstops
    rw [if_neg hstops]
    exact splits_category h hover hlimited

/-! ## 4. Right parts -/

/-- The slot is there. -/
def There (r : Request) (pos : Position) : Prop :=
  (pos.bag = inventorySlotBag0 ∧ isOwnSlot pos.slot) ∨
    ∃ b, r.player.getBagByPos r.stores pos.bag = some b ∧ pos.slot < b.getBagSize r.stores

/-- The bag of the place, if it is inside one, is neither moved nor swapped for what is moved. -/
def Stays (r : Request) (pos : Position) : Prop :=
  ∀ b, r.player.getBagByPos r.stores pos.bag = some b →
    ¬ isSkipped r.item b.item ∧ ¬ (r.swap ∧ r.bag = inventorySlotBag0 ∧ pos.bag = r.slot)

/-- A slot that is right for a part of the plan, and will be there when it is stored. -/
def Offers (r : Request) (pos : Position) (n : ℕ) : Prop := r.PlannedRight pos n ∧ r.Stays pos

/-- What a slot has space for in the moved item's stead. -/
def Spares (r : Request) (pos : Position) (room : ℕ) : Prop :=
  spaceInSpecificSlot r.stores r.player pos r.proto (r.swapsAt pos) r.item = .ok room

theorem leftAt_eq (pos : Position) : r.leftAt pos =
    if r.swapsAt pos then none else ignoreMoved r.item (r.itemAt pos) := rfl

variable {room : ℕ}

/-- A slot with space is empty then, or holds a stack that is not full. -/
theorem Spares.cases {pos : Position} (h : r.Spares pos room) :
    (r.leftAt pos = none ∧ fitsSlot r.stores r.player pos r.proto ∧
        room = r.proto.getMaxStackSize) ∨
      ∃ i, r.leftAt pos = some i ∧ i.canBeMergedPartlyWith r.proto = .ok ∧
        room = r.proto.getMaxStackSize - i.count := by
  have hleft := leftAt_eq (r := r) pos
  unfold Spares spaceInSpecificSlot at h
  unfold itemAt at hleft
  rw [← hleft] at h
  by_cases hfull : r.item.any (·.isNotEmptyBag r.stores) ∧ ¬ isBagPos pos
  · rw [if_pos hfull] at h
    cases h
  rw [if_neg hfull] at h
  cases hat : r.leftAt pos with
  | none =>
    rw [hat] at h
    by_cases hfits : fitsSlot r.stores r.player pos r.proto
    · rw [if_pos hfits] at h
      cases h
      exact Or.inl ⟨rfl, hfits, rfl⟩
    · rw [if_neg hfits] at h
      cases h
  | some i =>
    rw [hat] at h
    dsimp only at h
    cases hmerge : i.canBeMergedPartlyWith r.proto <;> rw [hmerge] at h <;> cases h
    exact Or.inr ⟨i, rfl, hmerge, rfl⟩

variable {proto : ItemTemplate}

/-- A stack that takes more units is of the same item and not full. -/
theorem merges {i : Item} (h : i.canBeMergedPartlyWith proto = .ok) :
    i.entry = proto.itemId ∧ i.count < proto.getMaxStackSize := by
  unfold Item.canBeMergedPartlyWith at h
  split at h
  · cases h
  split at h
  · cases h
  split at h
  · cases h
  rename_i hentry hcount
  exact ⟨not_not.mp hentry, Nat.lt_of_not_le hcount⟩

theorem Spares.pos {pos : Position} (h : r.Spares pos room) : 0 < room := by
  rcases h.cases with ⟨-, -, rfl⟩ | ⟨i, -, hmerge, rfl⟩
  · exact r.proto.getMaxStackSize_pos
  · exact Nat.sub_pos_of_lt (merges hmerge).2

/-- **Any part of the space is right.** -/
theorem Spares.planned {pos : Position} {n : ℕ} (h : r.Spares pos room) (hn : 0 < n)
    (hle : n ≤ room) : r.PlannedRight pos n := by
  have hfree : room = r.freeSpace pos := by
    unfold freeSpace
    rcases h.cases with ⟨hat, -, rfl⟩ | ⟨i, hat, -, rfl⟩
    · rw [hat]
      rfl
    · rw [hat]
      rfl
  refine ⟨?_, ?_, hn, hfree ▸ hle⟩
  · unfold Accepts canStoreItem_InSpecificSlot
    rw [h]
  · by_cases hswap : r.swapsAt pos
    · exact Or.inr (Or.inr (Or.inl hswap))
    have hleft : r.leftAt pos = ignoreMoved r.item (r.itemAt pos) := if_neg hswap
    rcases h.cases with ⟨hat, -, -⟩ | ⟨i, hat, hmerge, -⟩
    · rw [hleft] at hat
      cases hitem : r.itemAt pos with
      | none => exact Or.inl hitem
      | some i =>
        refine Or.inr (Or.inl ⟨i, hitem, ?_⟩)
        rw [hitem, ignoreMoved, Option.filter_eq_none_iff] at hat
        simpa using hat i rfl
    · rw [hleft] at hat
      exact Or.inr (Or.inr (Or.inr ⟨i, (Option.filter_eq_some_iff.mp hat).1, hmerge⟩))

/-- The free slots of `m_items` that a pass may look for. -/
theorem fitsSlot_own {slot : ℕ} (hslot : slot < 74 ∨ (86 ≤ slot ∧ slot < 118 ∧ proto.isKey) ∨
      (118 ≤ slot ∧ slot < 150 ∧ proto.isCurrencyToken)) (S : Stores) (pl : Player) :
    fitsSlot S pl ⟨inventorySlotBag0, slot⟩ proto := by
  unfold fitsSlot
  rw [if_pos rfl]
  rcases hslot with hslot | ⟨hlow, hhigh, hkey⟩ | ⟨hlow, hhigh, hcurrency⟩
  · simp
    omega
  · simp [hkey]
    omega
  · simp [hcurrency]
    omega

/-- The free slots of a bag that the item may go into. -/
theorem fitsSlot_bag {S : Stores} {pl : Player} {bag slot : ℕ} {b : ItemOrBag} {t : ItemTemplate}
    (hb : pl.getBagByPos S bag = some b) (ht : S.itemTemplate b.item.entry = some t)
    (hslot : slot ∈ List.range (b.getBagSize S)) (hgoes : itemCanGoIntoBag proto t) :
    fitsSlot S pl ⟨bag, slot⟩ proto := by
  have hsize : slot < t.containerSlots := by
    have hlt := List.mem_range.mp hslot
    unfold ItemOrBag.getBagSize at hlt
    rw [ht] at hlt
    exact hlt
  have hbag : bag ≠ inventorySlotBag0 := by
    rintro rfl
    rw [Player.getBagByPos_bag0] at hb
    cases hb
  unfold fitsSlot
  rw [if_neg hbag, hb]
  dsimp only
  rw [ht]
  exact Bool.and_eq_true_iff.mpr ⟨decide_eq_true hsize, hgoes⟩

/-- **A slot with space is there.** -/
theorem Spares.there {pos : Position} (h : r.Spares pos room) : r.There pos := by
  rcases h.cases with ⟨-, hfits, -⟩ | ⟨i, hat, -, -⟩
  · unfold fitsSlot at hfits
    by_cases hbag : pos.bag = inventorySlotBag0
    · rw [if_pos hbag] at hfits
      refine Or.inl ⟨hbag, ?_⟩
      unfold isOwnSlot
      simp at hfits ⊢
      omega
    · rw [if_neg hbag] at hfits
      cases hb : r.player.getBagByPos r.stores pos.bag with
      | none =>
        rw [hb] at hfits
        cases hfits
      | some b =>
        rw [hb] at hfits
        dsimp only at hfits
        refine Or.inr ⟨b, hb, ?_⟩
        unfold ItemOrBag.getBagSize
        cases ht : r.stores.itemTemplate b.item.entry with
        | none =>
          rw [ht] at hfits
          cases hfits
        | some t =>
          rw [ht] at hfits
          exact of_decide_eq_true (Bool.and_eq_true_iff.mp hfits).1
  · have hitem : r.itemAt pos = some i := by
      rw [leftAt_eq] at hat
      by_cases hswap : r.swapsAt pos
      · rw [if_pos hswap] at hat
        cases hat
      · rw [if_neg hswap] at hat
        exact (Option.filter_eq_some_iff.mp hat).1
    unfold itemAt Player.getItemByPos at hitem
    by_cases hown : pos.bag = inventorySlotBag0 ∧ isOwnSlot pos.slot
    · exact Or.inl hown
    · rw [if_neg hown] at hitem
      obtain ⟨b, hb, hi⟩ := Option.bind_eq_some_iff.mp hitem
      refine Or.inr ⟨b, hb, ?_⟩
      unfold ItemOrBag.getItemByPos at hi
      by_contra hsize
      rw [if_neg hsize] at hi
      cases hi

variable {merge : Bool}

/-- What a pass finds at a slot that is not the given one. -/
theorem spares_of_roomAt {pos : Position} {skip : Position → Bool}
    (hroom : roomAt r.stores r.player r.proto merge r.item skip pos = some room)
    (hgiven : ¬ skip pos → pos ≠ ⟨r.bag, r.slot⟩) (hempty : ¬ r.movesFullBag)
    (hfits : merge = false → fitsSlot r.stores r.player pos r.proto) : r.Spares pos room := by
  unfold roomAt at hroom
  by_cases hskip : skip pos
  · rw [if_pos hskip] at hroom
    cases hroom
  rw [if_neg hskip] at hroom
  have hswap : r.swapsAt pos = false := by
    unfold swapsAt
    rw [decide_eq_false (hgiven hskip), Bool.and_false]
  unfold Spares spaceInSpecificSlot
  rw [if_neg fun hfull => hempty hfull.1, hswap, if_neg Bool.false_ne_true]
  cases hat : ignoreMoved r.item (r.player.getItemByPos r.stores pos) with
  | none =>
    rw [hat] at hroom
    cases merge with
    | true => cases hroom
    | false =>
      rw [if_pos (hfits rfl)]
      exact congrArg Except.ok (Option.some.inj hroom)
  | some i =>
    rw [hat] at hroom
    unfold offered at hroom
    by_cases hmerge : merge ∧ i.canBeMergedPartlyWith r.proto = .ok
    · dsimp only at hroom ⊢
      rw [if_pos hmerge] at hroom
      rw [hmerge.2]
      exact congrArg Except.ok (Option.some.inj hroom)
    · dsimp only at hroom
      rw [if_neg hmerge] at hroom
      cases hroom

/-- A place in `m_items` is in no bag. -/
theorem stays_own {pos : Position} (hbag : pos.bag = inventorySlotBag0) : r.Stays pos := by
  intro b hb
  rw [hbag, Player.getBagByPos_bag0] at hb
  cases hb

/-! ## 5. The passes -/

/-- A right answer, of which the places will be there. -/
def Right (r : Request) (a : StoreAnswer) : Prop :=
  r.SoundAnswer a ∧ ∀ p ∈ a.dest, r.Stays p.1

/-- A plan with units that are left. -/
def Underway (r : Request) (plan : Plan) : Prop :=
  Filling.Sound r.Offers r.allowed plan ∧ 0 < plan.left

/-- What a pass leaves: units are left when it has failed. -/
structure Passed (r : Request) (pass : InventoryResult × Plan) : Prop where
  sound : Filling.Sound r.Offers r.allowed pass.2
  failed : pass.1 ≠ .ok → 0 < pass.2.left

theorem right_of_sound {plan : Plan} {a : StoreAnswer}
    (h : Filling.Sound r.Offers r.allowed plan) (hdest : a.dest = plan.placed)
    (htotal : plan.amount + leftOver a = r.count) (hok : a.result = .ok ↔ leftOver a = 0) :
    r.Right a := by
  refine ⟨⟨?_, ?_, ?_, hok⟩, ?_⟩ <;> rw [hdest]
  · exact h.distinct
  · exact fun p hp => (h.offered p hp).1
  · exact htotal
  · exact fun p hp => (h.offered p hp).2

section Passes

variable {noSimilar : ℕ}

/-- A failure before everything is planned, with the count that is left. -/
theorem right_failed {plan : Plan} {res : InventoryResult} (h : r.Underway plan)
    (hsim : noSimilar + r.allowed = r.count) (hres : res ≠ .ok) :
    r.Right ⟨res, plan.placed, some (add32 plan.left noSimilar)⟩ := by
  have htotal := h.1.total
  have hlt := r.count_lt
  have hpos := h.2
  have hadd : add32 plan.left noSimilar = plan.left + noSimilar := add32_of_lt (by omega)
  rw [hadd]
  refine right_of_sound h.1 rfl ?_ (iff_of_false hres ?_)
  · change plan.amount + (plan.left + noSimilar) = r.count
    omega
  · change plan.left + noSimilar ≠ 0
    omega

/-- **A plan is finished when nothing is left**, and right then. -/
theorem ensures_finished {plan : Plan} (h : Filling.Sound r.Offers r.allowed plan)
    (hsim : noSimilar + r.allowed = r.count) :
    Ensures r.Right (fun plan' => r.Underway plan' ∧ plan' = plan) (finished noSimilar plan) := by
  have htotal := h.total
  refine Ensures.ite (fun hleft => ?_) fun hleft =>
    Ensures.pure ⟨⟨h, Nat.pos_of_ne_zero hleft⟩, rfl⟩
  refine Ensures.ite (fun hnone => Ensures.throw ?_) fun hsome => Ensures.throw ?_
  · refine right_of_sound h rfl ?_ (iff_of_true rfl rfl)
    change plan.amount + 0 = r.count
    omega
  · have hlt := r.count_lt
    have hadd : add32 plan.left noSimilar = noSimilar := by
      rw [hleft, add32_of_lt (by omega), Nat.zero_add]
    rw [hadd]
    refine right_of_sound h rfl ?_
      (iff_of_false (fun hc => InventoryResult.noConfusion hc) hsome)
    change plan.amount + noSimilar = r.count
    omega

/-- **A pass whose failure is the answer.** -/
theorem ensures_attempt {pass : InventoryResult × Plan} (h : r.Passed pass)
    (hsim : noSimilar + r.allowed = r.count) :
    Ensures r.Right (fun plan => r.Underway plan ∧ plan = pass.2 ∧ pass.1 = .ok)
      (attempt noSimilar pass) := by
  refine Ensures.ite (fun hfailed => Ensures.throw ?_) fun hok => ?_
  · exact right_failed ⟨h.sound, h.failed hfailed⟩ hsim hfailed
  · exact (ensures_finished h.sound hsim).mono fun plan hplan =>
      ⟨hplan.1, hplan.2, not_not.mp hok⟩

/-- **A pass whose failure is passed over.** -/
theorem ensures_attemptBag {pass : InventoryResult × Plan} (h : r.Passed pass)
    (hsim : noSimilar + r.allowed = r.count) :
    Ensures r.Right r.Underway (attemptBag noSimilar pass) := by
  refine Ensures.ite (fun hfailed => Ensures.pure ⟨h.sound, h.failed hfailed⟩) fun _ => ?_
  exact (ensures_finished h.sound hsim).mono fun plan hplan => hplan.1

/-- A walk over slots of which each has the space, and stays. -/
theorem sound_pour {plan : Plan} (h : r.Underway plan) {skip : Position → Bool}
    {places : List Position} (hplaces : ∀ pos ∈ places, ∀ room,
      roomAt r.stores r.player r.proto merge r.item skip pos = some room →
        r.Spares pos room ∧ r.Stays pos) :
    Filling.Sound r.Offers r.allowed
      (plan.pour (roomAt r.stores r.player r.proto merge r.item skip) places) :=
  h.1.pour places h.2 fun pos hpos room hroom =>
    have hright := hplaces pos hpos room hroom
    ⟨hright.1.pos, fun _ hn hle => ⟨hright.1.planned hn hle, hright.2⟩⟩

/-- What a pass over `m_items` finds at a slot. -/
def roomOwn (r : Request) (merge : Bool) (pos : Position) : Option ℕ :=
  roomAt r.stores r.player r.proto merge r.item (skipsOwn r.bag r.slot) pos

/-- The free slots that a pass finds are for this item. -/
def Open (r : Request) (slots : List ℕ) (merge : Bool) : Prop :=
  merge = false → ∀ slot ∈ slots, r.roomOwn false ⟨inventorySlotBag0, slot⟩ ≠ none →
    slot < 74 ∨ (86 ≤ slot ∧ slot < 118 ∧ r.proto.isKey) ∨
      (118 ≤ slot ∧ slot < 150 ∧ r.proto.isCurrencyToken)

theorem passed_slots {plan : Plan} {slots : List ℕ} (h : r.Underway plan)
    (hopen : r.Open slots merge) :
    r.Passed (canStoreItem_InInventorySlots r.stores r.player slots plan r.proto merge r.item
      r.bag r.slot) := by
  unfold canStoreItem_InInventorySlots
  by_cases hfull : r.item.any (·.isNotEmptyBag r.stores)
  · rw [if_pos hfull]
    exact ⟨h.1, fun _ => h.2⟩
  rw [if_neg hfull]
  refine ⟨sound_pour h fun pos hpos room hroom => ?_, fun hne => absurd rfl hne⟩
  obtain ⟨slot, hslot, rfl⟩ := List.mem_map.mp hpos
  refine ⟨spares_of_roomAt hroom (fun hskip heq => hskip ?_) hfull fun hmerge =>
    fitsSlot_own (hopen hmerge slot hslot ?_) _ _, stays_own rfl⟩
  · exact decide_eq_true (Position.mk.inj heq)
  · unfold roomOwn
    rw [← hmerge, hroom]
    exact Option.some_ne_none room

/-- When the bag the item is swapped for goes away, nothing is stored in it. -/
def NoSwapBag (r : Request) : Prop :=
  r.swap → r.bag = inventorySlotBag0 →
    ∀ b, r.player.getBagByPos r.stores r.slot = some b → isSkipped r.item b.item

theorem passed_bag {plan : Plan} {bag skipBag : ℕ} {nonSpecialized : Bool} (h : r.Underway plan)
    (hswap : r.NoSwapBag) :
    r.Passed (canStoreItem_InBag r.stores r.player bag plan r.proto merge nonSpecialized r.item
      skipBag r.slot) := by
  have hfailed : ∀ res, r.Passed (res, plan) := fun res => ⟨h.1, fun _ => h.2⟩
  unfold canStoreItem_InBag
  by_cases hskip : bag = skipBag
  · rw [if_pos hskip]
    exact hfailed _
  rw [if_neg hskip]
  cases hb : r.player.getBagByPos r.stores bag with
  | none => exact hfailed _
  | some b =>
  dsimp only
  by_cases hitself : isSkipped r.item b.item
  · rw [if_pos hitself]
    exact hfailed _
  rw [if_neg hitself]
  by_cases hfull : r.item.any (·.isNotEmptyBag r.stores)
  · rw [if_pos hfull]
    exact hfailed _
  rw [if_neg hfull]
  cases ht : r.stores.itemTemplate b.item.entry with
  | none => exact hfailed _
  | some t =>
  dsimp only
  by_cases hplain : nonSpecialized ≠ t.isPlainBag
  · rw [if_pos hplain]
    exact hfailed _
  rw [if_neg hplain]
  by_cases hgoes : itemCanGoIntoBag r.proto t
  · rw [if_neg (by simpa using hgoes)]
    refine ⟨sound_pour h fun pos hpos room hroom => ?_, fun hne => absurd rfl hne⟩
    obtain ⟨slot, hslot, rfl⟩ := List.mem_map.mp hpos
    refine ⟨spares_of_roomAt hroom (fun hnot heq => hnot ?_) hfull fun _ =>
      fitsSlot_bag hb ht hslot hgoes, ?_⟩
    · cases heq
      exact decide_eq_true rfl
    · intro c hc
      rw [hb] at hc
      cases hc
      refine ⟨hitself, fun ⟨hto, hbag0, heq⟩ => hitself (hswap hto hbag0 b ?_)⟩
      rw [← heq]
      exact hb
  · rw [if_pos (by simpa using hgoes)]
    exact hfailed _

/-- A bag with something in it is not put into a bag. -/
theorem fullBag_fails {plan : Plan} {bag skipBag skipSlot : ℕ} {nonSpecialized : Bool}
    (hfull : r.movesFullBag) :
    (canStoreItem_InBag r.stores r.player bag plan r.proto merge nonSpecialized r.item skipBag
      skipSlot).1 ≠ .ok := by
  unfold movesFullBag at hfull
  unfold canStoreItem_InBag
  split
  · exact fun hc => InventoryResult.noConfusion hc
  split
  · exact fun hc => InventoryResult.noConfusion hc
  split
  · exact fun hc => InventoryResult.noConfusion hc
  exact fun hc => InventoryResult.noConfusion hc

theorem ensures_passSlots {plan : Plan} {slots : List ℕ} (h : r.Underway plan)
    (hopen : r.Open slots merge) (hsim : noSimilar + r.allowed = r.count) :
    Ensures r.Right
      (fun plan' => r.Underway plan' ∧ ¬ r.movesFullBag ∧
        plan' = plan.pour (r.roomOwn merge) (ownPositions slots))
      (passSlots r.stores r.player r.proto r.item r.bag r.slot noSimilar slots merge plan) := by
  refine (ensures_attempt (passed_slots h hopen) hsim).mono ?_
  rintro plan' ⟨hplan, rfl, hok⟩
  unfold canStoreItem_InInventorySlots at hok hplan ⊢
  by_cases hfull : r.item.any (·.isNotEmptyBag r.stores)
  · rw [if_pos hfull] at hok
    cases hok
  · rw [if_neg hfull] at hplan ⊢
    exact ⟨hplan, hfull, rfl⟩

theorem ensures_passBags {plan : Plan} {nonSpecialized : Bool} (h : r.Underway plan)
    (hswap : r.NoSwapBag) (hsim : noSimilar + r.allowed = r.count) :
    Ensures r.Right r.Underway
      (passBags r.stores r.player r.proto r.item r.bag r.slot noSimilar merge nonSpecialized
        plan) := by
  exact Ensures.foldlM bagSlots h fun _ _ _ h => ensures_attemptBag (passed_bag h hswap) hsim

theorem ensures_passGivenBag {plan : Plan} (h : r.Underway plan) (hswap : r.NoSwapBag)
    (hsim : noSimilar + r.allowed = r.count) :
    Ensures r.Right (fun plan' => r.Underway plan' ∧ ¬ r.movesFullBag)
      (passGivenBag r.stores r.player r.proto r.item r.bag r.slot noSimilar merge plan) := by
  have hspecial : r.Passed (canStoreItem_InBag r.stores r.player r.bag plan r.proto merge false
      r.item nullBag r.slot) := passed_bag h hswap
  unfold passGivenBag
  dsimp only
  by_cases hfailed : (canStoreItem_InBag r.stores r.player r.bag plan r.proto merge false r.item
      nullBag r.slot).1 ≠ .ok
  · rw [if_pos hfailed]
    refine (ensures_attempt (passed_bag ⟨hspecial.sound, hspecial.failed hfailed⟩ hswap)
      hsim).mono fun plan' hplan => ⟨hplan.1, fun hfull => fullBag_fails hfull hplan.2.2⟩
  · rw [if_neg hfailed]
    exact (ensures_attempt hspecial hsim).mono fun plan' hplan =>
      ⟨hplan.1, fun hfull => fullBag_fails hfull hplan.2.2⟩

end Passes

/-! ## 6. The units that a key uses up -/

/-- The units planned are `used`, and their places satisfy `P`. -/
def Counted (r : Request) (used : ℕ) (P : Position → Prop) (plan : Plan) : Prop :=
  plan.left + used = r.allowed ∧ ∀ pos ∈ plan.places, P pos

/-- A pass that leaves units has used up all the room of its slots. -/
theorem Counted.pour {used : ℕ} {P : Position → Prop} {plan : Plan} {slots : List ℕ}
    (h : r.Counted used P plan) (hnodup : slots.Nodup)
    (hnew : ∀ pos ∈ ownPositions slots, r.roomOwn merge pos ≠ none → ¬ P pos)
    (hleft : (plan.pour (r.roomOwn merge) (ownPositions slots)).left ≠ 0) :
    r.Counted (used + r.ownRoom merge slots)
      (fun pos => P pos ∨ (pos ∈ ownPositions slots ∧ r.roomOwn merge pos ≠ none))
      (plan.pour (r.roomOwn merge) (ownPositions slots)) := by
  have hplaces : (ownPositions slots).Nodup :=
    List.pairwise_map.mpr (hnodup.imp fun hne heq => hne (Position.mk.inj heq).2)
  have hpour := Filling.left_pour (ownPositions slots) hplaces
    (fun pos hpos hroom hused => hnew pos hpos hroom (h.2 pos hused)) hleft
  have hroom : r.ownRoom merge slots =
    Filling.roomIn (r.roomOwn merge) (ownPositions slots) := rfl
  have hcount := h.1
  refine ⟨by omega, fun pos hpos => ?_⟩
  exact (Filling.mem_places_pour _ hpos).imp_left (h.2 pos)

/-- The given slot is passed over. -/
theorem not_given_of_roomOwn {pos : Position} (hbag : r.bag = inventorySlotBag0)
    (hroom : r.roomOwn merge pos ≠ none) : pos ≠ ⟨r.bag, r.slot⟩ := by
  rintro rfl
  refine hroom (if_pos ?_)
  exact decide_eq_true ⟨hbag.symm, rfl⟩

/-- A slot that is free is not one with a stack. -/
theorem roomOwn_free {pos : Position} (hfree : r.roomOwn false pos ≠ none) :
    r.roomOwn true pos = none ∧ r.roomOwn false pos = some r.proto.getMaxStackSize := by
  unfold roomOwn roomAt at hfree ⊢
  by_cases hskip : skipsOwn r.bag r.slot pos
  · exact absurd (if_pos hskip) hfree
  rw [if_neg hskip] at hfree
  rw [if_neg hskip, if_neg hskip]
  cases hat : ignoreMoved r.item (r.player.getItemByPos r.stores pos) with
  | none => exact ⟨rfl, rfl⟩
  | some i =>
    rw [hat] at hfree
    unfold offered at hfree
    exact absurd (if_neg fun hmerge => Bool.false_ne_true hmerge.1) hfree

/-- No room in free slots means that no slot is free. -/
theorem no_free_slot {slots : List ℕ} (h : r.ownRoom false slots = 0) :
    ∀ slot ∈ slots, r.roomOwn false ⟨inventorySlotBag0, slot⟩ = none := by
  intro slot hslot
  by_contra hfree
  have hzero := List.sum_eq_zero_iff_forall_eq_nat.mp h
    (((r.roomOwn false ⟨inventorySlotBag0, slot⟩)).getD 0)
    (List.mem_map_of_mem (f := fun pos => (r.roomOwn false pos).getD 0)
      (List.mem_map_of_mem hslot))
  rw [(roomOwn_free hfree).2] at hzero
  exact absurd hzero (Nat.pos_iff_ne_zero.mp r.proto.getMaxStackSize_pos)

/-! ## 7. The whole planner -/

section Planner

variable {noSimilar : ℕ} {plan : Plan} {n : ℕ}

theorem swapsAt_given : r.swapsAt ⟨r.bag, r.slot⟩ = r.swap := by
  unfold swapsAt
  rw [decide_eq_true rfl, Bool.and_true]

/-- A slot without space says why. -/
theorem space_ne_error {S : Stores} {pl : Player} {pos : Position} {swap : Bool}
    {item : Option ItemOrBag} : spaceInSpecificSlot S pl pos proto swap item ≠ .error .ok := by
  unfold spaceInSpecificSlot
  split
  · exact fun hc => InventoryResult.noConfusion (Except.error.inj hc)
  split
  · split
    · exact fun hc => by cases hc
    · exact fun hc => InventoryResult.noConfusion (Except.error.inj hc)
  · split
    · exact fun hc => by cases hc
    · rename_i hne
      exact fun hc => hne (Except.error.inj hc)

/-- The given slot, when the item may go there. -/
theorem ensures_givenSlot (h : r.Ordinary) (hsim : noSimilar + r.allowed = r.count)
    (hallowed : 0 < r.allowed) (hgiven : r.bag ≠ nullBag ∧ r.slot ≠ nullSlot)
    (hspares : r.Spares ⟨r.bag, r.slot⟩ room) :
    Ensures r.Right
      (fun plan => r.Underway plan ∧ r.NoSwapBag ∧ ∃ n, r.givenSpace = some n ∧
        r.Counted n (· = ⟨r.bag, r.slot⟩) plan)
      (attempt noSimilar (canStoreItem_InSpecificSlot r.stores r.player ⟨r.bag, r.slot⟩
        ⟨[], r.allowed⟩ r.proto r.swap r.item)) := by
  have hspace : spaceInSpecificSlot r.stores r.player ⟨r.bag, r.slot⟩ r.proto r.swap r.item =
      .ok room := by
    unfold Spares at hspares
    rw [swapsAt_given] at hspares
    exact hspares
  have hgivenSpace : r.givenSpace = some room := by
    unfold givenSpace
    rw [if_pos hgiven, hspace]
    rfl
  have hstays : r.Stays ⟨r.bag, r.slot⟩ := by
    intro b hb
    refine ⟨fun hitself => ?_, fun ⟨_, hbag, _⟩ => ?_⟩
    · rcases hspares.there with ⟨hbag, -⟩ | ⟨c, hc, hsize⟩
      · rw [hbag, Player.getBagByPos_bag0] at hb
        cases hb
      · rw [hb] at hc
        cases hc
        have hnone := h.itself b hb hitself hsize
        rw [hgivenSpace] at hnone
        cases hnone
    · rw [hbag, Player.getBagByPos_bag0] at hb
      cases hb
  have hsound : Filling.Sound r.Offers r.allowed
      (Filling.put ⟨[], r.allowed⟩ ⟨r.bag, r.slot⟩ room) :=
    (Filling.Sound.begin r.Offers r.allowed).put hallowed hspares.pos fun m hm hle =>
      ⟨hspares.planned hm hle, hstays⟩
  have hcount : (Filling.put ⟨[], r.allowed⟩ (⟨r.bag, r.slot⟩ : Position) room).left =
      r.allowed - room := Filling.left_put List.not_mem_nil
  unfold canStoreItem_InSpecificSlot
  rw [hspace]
  refine (ensures_attempt ⟨hsound, fun hne => absurd rfl hne⟩ hsim).mono ?_
  rintro plan ⟨hplan, rfl, -⟩
  have hleft := hplan.2
  dsimp only at hleft hplan ⊢
  rw [hcount] at hleft
  refine ⟨hplan, fun hswap hbag b hb => ?_, room, hgivenSpace, by omega, fun pos hpos => ?_⟩
  · by_contra hother
    have hle := h.swapped hswap hbag b hb hother fun hnone => by
      rw [hgivenSpace] at hnone
      cases hnone
    have hmax : room = r.proto.getMaxStackSize := by
      have hat : r.leftAt ⟨r.bag, r.slot⟩ = none := if_pos (by rw [swapsAt_given]; exact hswap)
      rcases hspares.cases with ⟨-, -, hroom⟩ | ⟨i, hi, -⟩
      · exact hroom
      · rw [hat] at hi
        cases hi
    omega
  · rcases Filling.mem_places_put hpos with hold | hnew
    · exact absurd hold List.not_mem_nil
    · exact hnew

theorem ensures_inGivenSlot (h : r.Ordinary) (hsim : noSimilar + r.allowed = r.count)
    (hallowed : 0 < r.allowed) :
    Ensures r.Right
      (fun plan => r.Underway plan ∧ r.NoSwapBag ∧ ∃ n, r.givenSpace = some n ∧
        r.Counted n (· = ⟨r.bag, r.slot⟩) plan)
      (inGivenSlot r.stores r.player r.proto r.item r.bag r.slot noSimilar r.swap
        ⟨[], r.allowed⟩) := by
  have hbegin : r.Underway ⟨[], r.allowed⟩ := ⟨Filling.Sound.begin r.Offers r.allowed, hallowed⟩
  refine Ensures.ite (fun hgiven => ?_) fun hnot => Ensures.pure ⟨hbegin, ?_, 0, ?_, ?_⟩
  · cases hspace : spaceInSpecificSlot r.stores r.player ⟨r.bag, r.slot⟩ r.proto r.swap r.item with
    | ok room =>
      have hspares : r.Spares ⟨r.bag, r.slot⟩ room := by
        unfold Spares
        rw [swapsAt_given]
        exact hspace
      exact ensures_givenSlot h hsim hallowed hgiven hspares
    | error res =>
      have hres : res ≠ .ok := by
        rintro rfl
        exact space_ne_error hspace
      unfold canStoreItem_InSpecificSlot attempt
      rw [hspace]
      rw [if_pos hres]
      exact Ensures.throw (right_failed hbegin hsim hres)
  · intro _ hbag b hb
    have hslot : r.slot = nullSlot := by
      by_contra hslot
      refine hnot ⟨?_, hslot⟩
      rw [hbag]
      decide
    have hnone : r.player.getBagByPos r.stores r.slot = none := by
      rw [hslot]
      exact Player.getBagByPos_bag0
    rw [hnone] at hb
    cases hb
  · exact if_neg hnot
  · exact ⟨Nat.add_zero _, fun _ hpos => absurd hpos List.not_mem_nil⟩

/-- What is known of a plan after the stacks of the given place: for the backpack, the room of
the stacks is used up. -/
def Merged (r : Request) (n : ℕ) (plan : Plan) : Prop :=
  r.bag = inventorySlotBag0 →
    r.Counted
      (n + if r.proto.stackable = 1 then 0
        else r.ownRoom true ringAndCurrencySlots + r.ownRoom true packSlots)
      (fun pos => pos = ⟨r.bag, r.slot⟩ ∨ r.roomOwn true pos ≠ none) plan

theorem open_merge {slots : List ℕ} : r.Open slots true := fun h => absurd h.symm Bool.false_ne_true

theorem nodup_ring : ringAndCurrencySlots.Nodup := List.nodup_range'

theorem nodup_pack : packSlots.Nodup := List.nodup_range'

theorem nodup_keyring : keyringSlots.Nodup := List.nodup_range'

theorem ring_disjoint_pack {pos : Position} (h : pos ∈ ownPositions packSlots) :
    pos ∉ ownPositions ringAndCurrencySlots := by
  intro hring
  obtain ⟨slot, hslot, rfl⟩ := List.mem_map.mp h
  obtain ⟨slot', hslot', heq⟩ := List.mem_map.mp hring
  cases (Position.mk.inj heq).2
  have hlow := List.mem_range'_1.mp hslot
  have hhigh := List.mem_range'_1.mp hslot'
  omega

theorem ensures_mergeInGivenBag (h : r.Underway plan) (hswap : r.NoSwapBag)
    (hcounted : r.Counted n (· = ⟨r.bag, r.slot⟩) plan)
    (hsim : noSimilar + r.allowed = r.count) :
    Ensures r.Right (fun plan' => r.Underway plan' ∧ r.Merged n plan')
      (mergeInGivenBag r.stores r.player r.proto r.item r.bag r.slot noSimilar plan) := by
  refine Ensures.ite (fun hstack => Ensures.pure ⟨h, fun _ => ?_⟩) fun hstack => ?_
  · rw [if_pos hstack]
    exact ⟨hcounted.1, fun pos hpos => Or.inl (hcounted.2 pos hpos)⟩
  refine Ensures.ite (fun hbag => ?_) fun hbag =>
    (ensures_passGivenBag h hswap hsim).mono fun plan' hplan =>
      ⟨hplan.1, fun hc => absurd hc hbag⟩
  refine (ensures_passSlots h open_merge hsim).bind ?_
  rintro ring ⟨hring, -, rfl⟩
  have hcounted := hcounted.pour nodup_ring (fun pos _ hroom =>
    not_given_of_roomOwn hbag hroom) (Nat.ne_of_gt hring.2)
  refine (ensures_passSlots hring open_merge hsim).mono ?_
  rintro pack ⟨hpack, -, rfl⟩
  have hcounted := hcounted.pour nodup_pack (fun pos hpos hroom =>
    not_or.mpr ⟨not_given_of_roomOwn hbag hroom, fun hboth => ring_disjoint_pack hpos hboth.1⟩)
    (Nat.ne_of_gt hpack.2)
  refine ⟨hpack, fun _ => ?_⟩
  rw [if_neg hstack, ← Nat.add_assoc]
  refine ⟨hcounted.1, fun pos hpos => ?_⟩
  rcases hcounted.2 pos hpos with (hgiven | hboth) | hboth
  · exact Or.inl hgiven
  · exact Or.inr hboth.2
  · exact Or.inr hboth.2

theorem open_pack : r.Open packSlots false := fun _ _ hslot _ =>
  Or.inl (by have := List.mem_range'_1.mp hslot; omega)

theorem open_keyring (hkey : r.proto.isKey) : r.Open keyringSlots false := fun _ _ hslot _ =>
  Or.inr (Or.inl (by have := List.mem_range'_1.mp hslot; exact ⟨by omega, by omega, hkey⟩))

theorem open_currency (hcurrency : r.proto.isCurrencyToken) : r.Open currencySlots false :=
  fun _ _ hslot _ => Or.inr (Or.inr (by
    have := List.mem_range'_1.mp hslot
    exact ⟨by omega, by omega, hcurrency⟩))

/-- The free slots for a key in the backpack's branch: the currency slots have no room when the
keyring leaves units. -/
theorem ensures_keyBranch (h : r.Ordinary) (hplan : r.Underway plan)
    (hspace : r.givenSpace = some n) (hmerged : r.Merged n plan)
    (hbag : r.bag = inventorySlotBag0) (hkey : r.proto.isKey)
    (hsim : noSimilar + r.allowed = r.count) :
    Ensures r.Right r.Underway (do
      let plan ← passSlots r.stores r.player r.proto r.item r.bag r.slot noSimilar keyringSlots
        false plan
      passSlots r.stores r.player r.proto r.item r.bag r.slot noSimilar currencySlots false
        plan) := by
  refine (ensures_passSlots hplan (open_keyring hkey) hsim).bind ?_
  rintro ring ⟨hring, hempty, rfl⟩
  have hopen : r.Open currencySlots false := by
    by_cases hcurrency : r.proto.isCurrencyToken
    · exact open_currency hcurrency
    have hcounted := (hmerged hbag).pour nodup_keyring (fun pos _ hroom => ?_)
      (Nat.ne_of_gt hring.2)
    · have hlt : n + r.keyRoom < r.allowed := by
        have hcount := hcounted.1
        have hleft := hring.2
        unfold keyRoom
        omega
      have hnone := h.keys hbag hkey hcurrency hempty n hspace hlt
      exact fun _ slot hslot hroom => absurd (no_free_slot hnone slot hslot) hroom
    · exact not_or.mpr ⟨not_given_of_roomOwn hbag hroom, fun hne => hne (roomOwn_free hroom).1⟩
  exact (ensures_passSlots hring hopen hsim).mono fun plan' hplan => hplan.1

theorem ensures_freeInGivenBag (h : r.Ordinary) (hplan : r.Underway plan) (hswap : r.NoSwapBag)
    (hspace : r.givenSpace = some n) (hmerged : r.Merged n plan)
    (hsim : noSimilar + r.allowed = r.count) :
    Ensures r.Right (fun plan' => r.Underway plan' ∧ ¬ r.movesFullBag)
      (freeInGivenBag r.stores r.player r.proto r.item r.bag r.slot noSimilar plan) := by
  have hpack : ∀ {plan : Plan}, r.Underway plan →
      Ensures r.Right (fun plan' => r.Underway plan' ∧ ¬ r.movesFullBag)
        (passSlots r.stores r.player r.proto r.item r.bag r.slot noSimilar packSlots false plan) :=
    fun hplan => (ensures_passSlots hplan open_pack hsim).mono fun plan' h => ⟨h.1, h.2.1⟩
  refine Ensures.ite (fun hbag => ?_) fun _ => ensures_passGivenBag hplan hswap hsim
  refine Ensures.ite (fun hkey => ?_) fun _ => Ensures.ite (fun hcurrency => ?_) fun _ => ?_
  · have hbranch := ensures_keyBranch h hplan hspace hmerged hbag hkey hsim
    rw [← bind_assoc]
    exact hbranch.bind fun plan' hplan => hpack hplan
  · refine (ensures_passSlots hplan (open_currency hcurrency) hsim).bind fun plan' hplan => ?_
    exact hpack hplan.1
  · exact hpack hplan

theorem ensures_inGivenBag (h : r.Ordinary) (hplan : r.Underway plan) (hswap : r.NoSwapBag)
    (hspace : r.givenSpace = some n) (hcounted : r.Counted n (· = ⟨r.bag, r.slot⟩) plan)
    (hsim : noSimilar + r.allowed = r.count) :
    Ensures r.Right (fun plan' => r.Underway plan' ∧ (r.movesFullBag → r.bag = nullBag))
      (inGivenBag r.stores r.player r.proto r.item r.bag r.slot noSimilar plan) := by
  refine Ensures.ite (fun _ => ?_) fun hnull =>
    Ensures.pure ⟨hplan, fun _ => not_not.mp hnull⟩
  refine (ensures_mergeInGivenBag hplan hswap hcounted hsim).bind fun plan' hmerged => ?_
  exact (ensures_freeInGivenBag h hmerged.1 hswap hspace hmerged.2 hsim).mono fun plan'' hfree =>
    ⟨hfree.1, fun hfull => absurd hfull hfree.2⟩

theorem ensures_mergeAnywhere (hplan : r.Underway plan) (hswap : r.NoSwapBag)
    (hsim : noSimilar + r.allowed = r.count) :
    Ensures r.Right (fun plan' => r.Underway plan' ∧ (r.movesFullBag → r.proto.stackable = 1))
      (mergeAnywhere r.stores r.player r.proto r.item r.bag r.slot noSimilar plan) := by
  refine Ensures.ite (fun hstack => Ensures.pure ⟨hplan, fun _ => hstack⟩) fun _ => ?_
  refine (ensures_passSlots hplan open_merge hsim).bind fun ring hring => ?_
  refine (ensures_passSlots hring.1 open_merge hsim).bind fun pack hpack => ?_
  have hplain : ∀ {plan : Plan}, r.Underway plan →
      Ensures r.Right (fun plan' => r.Underway plan' ∧ (r.movesFullBag → r.proto.stackable = 1))
        (passBags r.stores r.player r.proto r.item r.bag r.slot noSimilar true true plan) :=
    fun hplan => (ensures_passBags hplan hswap hsim).mono fun plan' h =>
      ⟨h, fun hfull => absurd hfull hring.2.1⟩
  refine Ensures.ite (fun _ => ?_) fun _ => hplain hpack.1
  exact (ensures_passBags hpack.1 hswap hsim).bind fun plan' hplan => hplain hplan

theorem family_of_mask {mask : BitVec 32} (h : proto.inFamily mask) : proto.bagFamily ≠ 0 := by
  intro hzero
  unfold ItemTemplate.inFamily at h
  rw [hzero] at h
  simp at h

theorem ensures_freeSpecial (hplan : r.Underway plan) (hswap : r.NoSwapBag)
    (hsim : noSimilar + r.allowed = r.count) :
    Ensures r.Right
      (fun plan' => r.Underway plan' ∧
        (r.movesFullBag → ¬ (r.proto.isKey ∨ r.proto.isCurrencyToken)))
      (freeSpecial r.stores r.player r.proto r.item r.bag r.slot noSimilar plan) := by
  refine Ensures.ite (fun _ => ?_) fun hfamily => Ensures.pure ⟨hplan, fun _ hor => ?_⟩
  · dsimp only
    refine Ensures.ite (fun hkey => ?_) fun hkey =>
      Ensures.ite (fun hcurrency => ?_) fun hcurrency => ?_
    · refine (ensures_passSlots hplan (open_keyring hkey) hsim).bind fun ring hring => ?_
      exact (ensures_passBags hring.1 hswap hsim).mono fun plan' h =>
        ⟨h, fun hfull => absurd hfull hring.2.1⟩
    · refine (ensures_passSlots hplan (open_currency hcurrency) hsim).bind fun ring hring => ?_
      exact (ensures_passBags hring.1 hswap hsim).mono fun plan' h =>
        ⟨h, fun hfull => absurd hfull hring.2.1⟩
    · exact (ensures_passBags hplan hswap hsim).mono fun plan' h =>
        ⟨h, fun _ => not_or.mpr ⟨hkey, hcurrency⟩⟩
  · exact hfamily (hor.elim family_of_mask family_of_mask)

/-- **The whole planner**: every answer it returns is right. -/
theorem ensures_planItem (h : r.Ordinary) (hsim : noSimilar + r.allowed = r.count)
    (hallowed : 0 < r.allowed) :
    Ensures r.Right r.Underway
      (planItem r.stores r.player r.proto r.item r.bag r.slot noSimilar r.swap
        ⟨[], r.allowed⟩) := by
  refine (ensures_inGivenSlot h hsim hallowed).bind ?_
  rintro plan ⟨hplan, hswap, n, hspace, hcounted⟩
  refine (ensures_inGivenBag h hplan hswap hspace hcounted hsim).bind ?_
  rintro plan ⟨hplan, hbag⟩
  refine (ensures_mergeAnywhere hplan hswap hsim).bind ?_
  rintro plan ⟨hplan, hstack⟩
  refine (ensures_freeSpecial hplan hswap hsim).bind ?_
  rintro plan ⟨hplan, hspecial⟩
  refine Ensures.ite (fun hfull => ?_) fun _ => ?_
  · exact absurd (h.fullBag hfull (hbag hfull) (hstack hfull)) (hspecial hfull)
  · refine (ensures_passSlots hplan open_pack hsim).bind fun pack hpack => ?_
    exact ensures_passBags hpack.1 hswap hsim

/-- A refusal plans nothing. -/
theorem right_refused {res : InventoryResult} (hres : res ≠ .ok) :
    r.Right ⟨res, [], some r.count⟩ := by
  have hcount := r.count_pos
  refine ⟨⟨List.nodup_nil, fun _ hp => absurd hp List.not_mem_nil, Nat.zero_add _,
    iff_of_false hres ?_⟩, fun _ hp => absurd hp List.not_mem_nil⟩
  change r.count ≠ 0
  omega

theorem right_fullOr {x : Except StoreAnswer Plan} (h : Ensures r.Right r.Underway x)
    (hsim : noSimilar + r.allowed = r.count) : r.Right (fullOr noSimilar x) := by
  cases x with
  | error answer => exact h
  | ok plan => exact right_failed h hsim fun hc => InventoryResult.noConfusion hc

/-- **The answer to an ordinary request is right.** -/
theorem answer_right (h : ¬ r.isRefused → r.Ordinary) : r.Right r.answer := by
  unfold answer canStoreItem
  rw [r.known]
  dsimp only
  by_cases hlooted : r.item.any (·.item.lootGenerated)
  · rw [if_pos hlooted]
    exact right_refused fun hc => InventoryResult.noConfusion hc
  rw [if_neg hlooted]
  by_cases hbound : r.item.any fun o => isBindedNotWith r.stores r.player o.item
  · rw [if_pos hbound]
    exact right_refused fun hc => InventoryResult.noConfusion hc
  rw [if_neg hbound]
  by_cases hnothing : (canTakeMoreSimilarItems r.stores r.player r.proto.itemId r.count
      r.item).result ≠ .ok ∧
      r.count = (canTakeMoreSimilarItems r.stores r.player r.proto.itemId r.count
        r.item).noSpaceCount
  · rw [if_pos hnothing, ← hnothing.2]
    exact right_refused hnothing.1
  rw [if_neg hnothing]
  have hordinary : r.Ordinary := h (by
    unfold isRefused letsNothingIn
    rw [Bool.eq_false_of_not_eq_true hlooted, Bool.eq_false_of_not_eq_true hbound,
      decide_eq_false hnothing]
    decide)
  have hcount := r.count_pos
  have hsplits := splits_similar hordinary hlooted
  generalize canTakeMoreSimilarItems r.stores r.player r.proto.itemId r.count r.item = similar
    at hsplits hnothing ⊢
  rcases hsplits with ⟨hok, hnone, hall⟩ | ⟨hres, hevery⟩ | ⟨hres, hsome, hsum⟩
  · have hsim : similar.noSpaceCount + r.allowed = r.count := by omega
    rw [if_neg (not_not.mpr hok), ← hall]
    exact right_fullOr (ensures_planItem hordinary hsim (by omega)) hsim
  · exact absurd ⟨hres, hevery.symm⟩ hnothing
  · have hne : r.count ≠ similar.noSpaceCount := fun heq => hnothing ⟨hres, heq⟩
    have hleft : sub32 r.count similar.noSpaceCount = r.allowed := by
      rw [sub32_of_le (by omega)]
      omega
    rw [if_pos hres, hleft]
    exact right_fullOr (ensures_planItem hordinary hsum (by omega)) hsum

end Planner

end Request

end HungerGames.Inventory
