/-
# Paying with items

`HasItemCount` counts the units of an entry and `DestroyItemCount` takes some away.  Both walk over
the same places, in different orders, and pass over what lies in the trade window.  Their counts are
32 bits wide.

A bag that is destroyed goes with what is in it.  `walk_reads` says what a walk leaves at each
place, when the units up to the last one taken fit 32 bits; `walk_overflow` what happens otherwise.
-/
import HungerGames.Inventory.Units
import HungerGames.System.Spending

namespace HungerGames.Inventory

open HungerGames.System

/-! ## 1. Destroying an item -/

section Model

variable (S : Stores)

/-- `DestroyItem` of an item in a bag, which has nothing inside. -/
def Player.destroyInside (pl : Player) (pos : Position) : Player := pl.removeItem S pos

/-- `DestroyItem`: an item is taken out, and first what is in it. -/
def Player.destroyItem (pl : Player) (pos : Position) : Player :=
  if (pl.getItemByPos S pos).isSome then
    if pos.bag = inventorySlotBag0 then
      let emptied := if (pl.items pos.slot).any (·.isNotEmptyBag S) then
          (List.range 36).foldl (fun pl i => pl.destroyInside S ⟨pos.slot, i⟩) pl
        else pl
      emptied.setItem pos.slot none
    else pl.destroyInside S pos
  else pl

/-! ## 2. Counting and taking away -/

/-- The slots of some bags; `MAX_BAG_SIZE` is 36, and a slot that is not there holds nothing. -/
def inBags (slots : List ℕ) : List Position :=
  slots.flatMap fun bag => (List.range 36).map (⟨bag, ·⟩)

/-- Where `HasItemCount` counts, outside of the bank. -/
def countedPositions : List Position :=
  ownPositions carriedSlots ++ ownPositions ringAndCurrencySlots ++ inBags bagSlots

/-- Where both look in the bank. -/
def bankPositions : List Position := ownPositions bankSlots ++ inBags bankBagSlots

/-- `INVENTORY_SLOT_ITEM_START` to `INVENTORY_SLOT_ITEM_END`, `KEYRING_SLOT_START` to
`CURRENCYTOKEN_SLOT_END`, and the bags. -/
def unwornPositions : List Position :=
  ownPositions packSlots ++ ownPositions ringAndCurrencySlots ++ inBags bagSlots

/-- `EQUIPMENT_SLOT_START` to `INVENTORY_SLOT_BAG_END`. -/
def wornPositions : List Position := ownPositions (List.range 23)

variable (isInTrade : ℕ → Bool) (itemEntry count : ℕ)

/-- An item of the entry that is not in the trade window. -/
def Player.paysAt (pl : Player) (pos : Position) : Option Item :=
  (pl.getItemByPos S pos).filter fun i => i.entry = itemEntry && !isInTrade i.guid

/-- The units are counted until there are enough. -/
def countFrom (pl : Player) (tempcount : ℕ) : List Position → Bool
  | [] => false
  | pos :: rest =>
    match pl.paysAt S isInTrade itemEntry pos with
    | none => countFrom pl tempcount rest
    | some pItem =>
      let tempcount := add32 tempcount pItem.count
      if count ≤ tempcount then true else countFrom pl tempcount rest

/-- `HasItemCount` -/
def hasItemCount (pl : Player) (inBankAlso : Bool) : Bool :=
  countFrom S isInTrade itemEntry count pl 0
    (countedPositions ++ if inBankAlso then bankPositions else [])

/-- A round of a loop of `DestroyItemCount`, with `remcount`: an early return of the player, or on
to the next round. -/
def payAt (may : Player → Position → Bool) (s : Player × ℕ) (pos : Position) :
    Except Player (Player × ℕ) :=
  match s.1.paysAt S isInTrade itemEntry pos with
  | none => .ok s
  | some item =>
    if add32 item.count s.2 ≤ count then
      if may s.1 pos then
        let remcount := add32 s.2 item.count
        let pl := s.1.destroyItem S pos
        if count ≤ remcount then .error pl else .ok (pl, remcount)
      else .ok s
    else
      .error (s.1.modifyAt S pos fun i => { i with
        count := add32 (sub32 i.count count) s.2 })

/-- The player in the end. -/
def finish : Except Player (Player × ℕ) → Player
  | .error pl => pl
  | .ok s => s.1

/-- `DestroyItemCount`, but for the packets; `CanUnequipItem` is asked for what is worn. -/
def destroyItemCount (canUnequipItem : Player → Position → Bool) (pl : Player)
    (unequipCheck : Bool) : Player :=
  finish do
    let s ← unwornPositions.foldlM (payAt S isInTrade itemEntry count fun _ _ => true) (pl, 0)
    let s ← wornPositions.foldlM (payAt S isInTrade itemEntry count fun pl pos =>
      !unequipCheck || canUnequipItem pl pos) s
    bankPositions.foldlM (payAt S isInTrade itemEntry count fun _ _ => true) s

end Model

/-! ## 3. What is left where an item was destroyed -/

section Destroying

variable {S : Stores} {pl pl' : Player} {pos q : Position}

/-- The place is inside what is worn at another one. -/
def Inside (pos q : Position) : Prop :=
  pos.bag = inventorySlotBag0 ∧ isBagSlot pos.slot = true ∧ q.bag = pos.slot

theorem Player.setItem_setItem (slot : ℕ) (x y : Option ItemOrBag) :
    (pl.setItem slot x).setItem slot y = pl.setItem slot y := by
  unfold setItem
  rw [Function.update_idem]

theorem Player.setItem_self (slot : ℕ) : pl.setItem slot (pl.items slot) = pl := by
  unfold setItem
  rw [Function.update_eq_self]

/-- Only the bag itself changes while it is emptied. -/
theorem foldl_destroyInside {slot : ℕ} (hslot : slot ≠ inventorySlotBag0) : ∀ (is : List ℕ)
    (pl : Player), ∃ x, is.foldl (fun pl i => pl.destroyInside S ⟨slot, i⟩) pl = pl.setItem slot x
  | [], pl => ⟨pl.items slot, (Player.setItem_self slot).symm⟩
  | i :: is, pl => by
    have hone : ∃ x, pl.destroyInside S ⟨slot, i⟩ = pl.setItem slot x := by
      unfold Player.destroyInside Player.removeItem
      by_cases hsome : (pl.getItemByPos S ⟨slot, i⟩).isSome = true
      · rw [if_pos hsome, if_neg hslot]
        cases pl.getBagByPos S slot with
        | none => exact ⟨pl.items slot, (Player.setItem_self slot).symm⟩
        | some pBag => exact ⟨_, rfl⟩
      · rw [if_neg hsome]
        exact ⟨pl.items slot, (Player.setItem_self slot).symm⟩
    obtain ⟨x, hx⟩ := hone
    obtain ⟨y, hy⟩ := foldl_destroyInside hslot is (pl.setItem slot x)
    refine ⟨y, ?_⟩
    rw [List.foldl_cons, hx, hy, Player.setItem_setItem]

/-- A place of `m_items` is one that is there. -/
theorem isOwnSlot_of_some {slot : ℕ} {i : Item}
    (h : pl.getItemByPos S ⟨inventorySlotBag0, slot⟩ = some i) : isOwnSlot slot = true := by
  by_contra hnot
  unfold Player.getItemByPos at h
  rw [if_neg fun hown => hnot hown.2, Player.getBagByPos_bag0] at h
  cases h

/-- **What `DestroyItem` leaves**: nothing where the item was, nor inside it, and the rest. -/
theorem getItemByPos_destroyItem {i : Item} (hi : pl.getItemByPos S pos = some i) (q : Position) :
    ((q = pos ∨ Inside pos q) → (pl.destroyItem S pos).getItemByPos S q = none) ∧
      (¬(q = pos ∨ Inside pos q) →
        (pl.destroyItem S pos).getItemByPos S q = pl.getItemByPos S q) := by
  have hsome : (pl.getItemByPos S pos).isSome = true := by rw [hi]; rfl
  by_cases hbag : pos.bag = inventorySlotBag0
  · obtain ⟨slot, rfl⟩ := exists_own hbag
    have hown := isOwnSlot_of_some hi
    have hslot : slot ≠ inventorySlotBag0 := by
      rintro rfl
      exact absurd hown (by decide)
    have hdestroy : pl.destroyItem S ⟨inventorySlotBag0, slot⟩ = pl.setItem slot none := by
      unfold Player.destroyItem
      rw [if_pos hsome, if_pos hbag]
      split
      · obtain ⟨x, hx⟩ := @foldl_destroyInside S slot hslot (List.range 36) pl
        rw [hx, Player.setItem_setItem]
      · rfl
    rw [hdestroy]
    have hinside : q.bag = slot → (pl.setItem slot none).getItemByPos S q = none := by
      intro hq
      have hnone : (pl.setItem slot none).getBagByPos S slot = none := by
        unfold Player.getBagByPos Player.setItem
        dsimp only
        rw [Function.update_self]
        split <;> rfl
      unfold Player.getItemByPos
      rw [if_neg fun h => hslot (hq ▸ h.1), hq, hnone]
      rfl
    refine ⟨?_, fun hnot => ?_⟩
    · rintro (rfl | ⟨-, -, hq⟩)
      · exact Player.getItemByPos_setItem_own hown
      · exact hinside hq
    · by_cases hq : q.bag = slot
      · rw [hinside hq]
        have hnotBag : ¬isBagSlot slot = true := fun h => hnot (Or.inr ⟨rfl, h, hq⟩)
        unfold Player.getItemByPos
        rw [if_neg fun h => hslot (hq ▸ h.1), hq]
        unfold Player.getBagByPos
        rw [if_neg hnotBag]
        rfl
      · refine Player.getItemByPos_setItem_ne (fun h => hnot (Or.inl ?_)) hq
        obtain ⟨bag, slot'⟩ := q
        obtain ⟨rfl, rfl⟩ : bag = inventorySlotBag0 ∧ slot' = slot := h
        rfl
  · have hread := hi
    unfold Player.getItemByPos at hread
    rw [if_neg fun h => hbag h.1] at hread
    obtain ⟨b, hb, hb'⟩ := Option.bind_eq_some_iff.mp hread
    have hsize : pos.slot < b.getBagSize S := by
      by_contra hnot
      unfold ItemOrBag.getItemByPos at hb'
      rw [if_neg hnot] at hb'
      cases hb'
    have hdestroy : pl.destroyItem S pos = pl.setItem pos.bag
        (some { b with bagslot := Function.update b.bagslot pos.slot none }) := by
      unfold Player.destroyItem Player.destroyInside Player.removeItem
      rw [if_pos hsome, if_neg hbag, if_pos hsome, if_neg hbag, hb]
    obtain ⟨hat, hothers, -⟩ := Player.writeInBag hb hsize none hdestroy
    refine ⟨?_, fun hnot => hothers q fun h => hnot (Or.inl h)⟩
    rintro (rfl | hinside)
    · exact hat
    · exact absurd hinside.1 hbag

end Destroying

/-! ## 4. One place -/

section Walking

variable {S : Stores} {isInTrade : ℕ → Bool} {itemEntry count remcount : ℕ}
  {pl pl' pl'' : Player} {pos q : Position} {i j : Item}

variable (S isInTrade itemEntry) in
/-- The units to pay with at a place. -/
def stackAt (pl : Player) (pos : Position) : Option ℕ :=
  (pl.paysAt S isInTrade itemEntry pos).map (·.count)

theorem paysAt_eq_some : pl.paysAt S isInTrade itemEntry pos = some i ↔
    pl.getItemByPos S pos = some i ∧ i.entry = itemEntry ∧ isInTrade i.guid = false := by
  unfold Player.paysAt
  rw [Option.filter_eq_some_iff]
  simp

theorem stackAt_of_some (h : pl.paysAt S isInTrade itemEntry pos = some i) :
    stackAt S isInTrade itemEntry pl pos = some i.count := by
  unfold stackAt
  rw [h]
  rfl

theorem stackAt_eq_none : stackAt S isInTrade itemEntry pl pos = none ↔
    pl.paysAt S isInTrade itemEntry pos = none := Option.map_eq_none_iff

theorem paysAt_congr (h : pl'.getItemByPos S q = pl.getItemByPos S q) :
    pl'.paysAt S isInTrade itemEntry q = pl.paysAt S isInTrade itemEntry q := by
  unfold Player.paysAt
  rw [h]

theorem stackAt_congr (h : pl'.getItemByPos S q = pl.getItemByPos S q) :
    stackAt S isInTrade itemEntry pl' q = stackAt S isInTrade itemEntry pl q := by
  unfold stackAt
  rw [paysAt_congr h]

/-- Counts are 32 bits wide. -/
def Ranged (S : Stores) (pl : Player) : Prop :=
  ∀ pos i, pl.getItemByPos S pos = some i → i.count < 4294967296

variable (S isInTrade itemEntry) in
/-- **Items only go.**  What is there was there, or it is what is left of a stack to pay with. -/
def Shrinks (pl pl' : Player) : Prop :=
  ∀ q j, pl'.getItemByPos S q = some j → ∃ i, pl.getItemByPos S q = some i ∧
    (j = i ∨ pl.paysAt S isInTrade itemEntry q = some i ∧ ∃ c ≤ i.count, j = { i with count := c })

theorem Shrinks.refl (pl : Player) : Shrinks S isInTrade itemEntry pl pl :=
  fun _ j hj => ⟨j, hj, Or.inl rfl⟩

theorem Shrinks.trans (h : Shrinks S isInTrade itemEntry pl pl')
    (h' : Shrinks S isInTrade itemEntry pl' pl'') : Shrinks S isInTrade itemEntry pl pl'' := by
  intro q k hk
  obtain ⟨j, hj, hjk⟩ := h' q k hk
  obtain ⟨i, hi, hij⟩ := h q j hj
  refine ⟨i, hi, ?_⟩
  rcases hij with rfl | ⟨hpays, c, hc, rfl⟩
  · refine hjk.imp_right fun ⟨hpays, hsplit⟩ => ⟨?_, hsplit⟩
    exact paysAt_eq_some.mpr ⟨hi, (paysAt_eq_some.mp hpays).2⟩
  · rcases hjk with rfl | ⟨-, c', hc', rfl⟩
    · exact Or.inr ⟨hpays, c, hc, rfl⟩
    · exact Or.inr ⟨hpays, c', Nat.le_trans hc' hc, rfl⟩

theorem Ranged.shrinks (h : Ranged S pl) (hshrinks : Shrinks S isInTrade itemEntry pl pl') :
    Ranged S pl' := by
  intro q j hj
  obtain ⟨i, hi, hij⟩ := hshrinks q j hj
  rcases hij with rfl | ⟨-, c, hc, rfl⟩
  · exact h q j hi
  · exact Nat.lt_of_le_of_lt hc (h q i hi)

theorem Shrinks.paysAt_eq_none (h : Shrinks S isInTrade itemEntry pl pl')
    (hnone : pl.paysAt S isInTrade itemEntry q = none) :
    pl'.paysAt S isInTrade itemEntry q = none := by
  cases hj : pl'.paysAt S isInTrade itemEntry q with
  | none => rfl
  | some j =>
    obtain ⟨hread, hentry, htrade⟩ := paysAt_eq_some.mp hj
    obtain ⟨i, hi, hij⟩ := h q j hread
    rcases hij with rfl | ⟨hpays, -⟩
    · rw [paysAt_eq_some.mpr ⟨hi, hentry, htrade⟩] at hnone
      cases hnone
    · rw [hpays] at hnone
      cases hnone

theorem Shrinks.stackAt_le (h : Shrinks S isInTrade itemEntry pl pl') (q : Position) :
    (stackAt S isInTrade itemEntry pl' q).getD 0 ≤ (stackAt S isInTrade itemEntry pl q).getD 0 := by
  cases hj : pl'.paysAt S isInTrade itemEntry q with
  | none =>
    rw [stackAt_eq_none.mpr hj]
    exact Nat.zero_le _
  | some j =>
    obtain ⟨hread, hentry, htrade⟩ := paysAt_eq_some.mp hj
    obtain ⟨i, hi, hij⟩ := h q j hread
    rw [stackAt_of_some hj]
    rcases hij with rfl | ⟨hpays, c, hc, rfl⟩
    · rw [stackAt_of_some (paysAt_eq_some.mpr ⟨hi, hentry, htrade⟩)]
    · rw [stackAt_of_some hpays]
      exact hc

theorem shrinks_destroyItem (hi : pl.getItemByPos S pos = some i) :
    Shrinks S isInTrade itemEntry pl (pl.destroyItem S pos) := by
  intro q j hj
  obtain ⟨hgone, hkept⟩ := getItemByPos_destroyItem hi q
  by_cases hq : q = pos ∨ Inside pos q
  · rw [hgone hq] at hj
    cases hj
  · rw [hkept hq] at hj
    exact ⟨j, hj, Or.inl rfl⟩

/-- What is left of a stack that is not needed as a whole. -/
theorem split_count {c : ℕ} (hc : c < 4294967296) (hcount : count < 4294967296)
    (hrem : remcount ≤ count) (h : count < add32 c remcount) :
    count < c + remcount ∧ add32 (sub32 c count) remcount = c + remcount - count := by
  unfold add32 sub32 at *
  split
  · omega
  · omega

/-- The units of a stack are left that are not needed. -/
def splitAt (S : Stores) (count : ℕ) (pl : Player) (remcount : ℕ) (pos : Position) : Player :=
  pl.modifyAt S pos fun i => { i with count := add32 (sub32 i.count count) remcount }

theorem getItemByPos_splitAt (hi : pl.getItemByPos S pos = some i) :
    (splitAt S count pl remcount pos).getItemByPos S pos =
        some { i with count := add32 (sub32 i.count count) remcount } ∧
      KeepsOthers S pl (splitAt S count pl remcount pos) pos := by
  obtain ⟨hat, hothers, -⟩ := modifyAt_spec (f := fun i : Item => { i with
    count := add32 (sub32 i.count count) remcount }) hi rfl rfl
  exact ⟨hat, hothers⟩

/-- **What happens at a place.** -/
theorem payAt_cases (S : Stores) (isInTrade : ℕ → Bool) (itemEntry count : ℕ) (pl : Player)
    (remcount : ℕ) (pos : Position) :
    (pl.paysAt S isInTrade itemEntry pos = none ∧
      payAt S isInTrade itemEntry count (fun _ _ => true) (pl, remcount) pos =
        .ok (pl, remcount)) ∨
    ∃ i, pl.paysAt S isInTrade itemEntry pos = some i ∧
      ((add32 i.count remcount ≤ count ∧ count ≤ add32 remcount i.count ∧
        payAt S isInTrade itemEntry count (fun _ _ => true) (pl, remcount) pos =
          .error (pl.destroyItem S pos)) ∨
      (add32 i.count remcount ≤ count ∧ add32 remcount i.count < count ∧
        payAt S isInTrade itemEntry count (fun _ _ => true) (pl, remcount) pos =
          .ok (pl.destroyItem S pos, add32 remcount i.count)) ∨
      (count < add32 i.count remcount ∧
        payAt S isInTrade itemEntry count (fun _ _ => true) (pl, remcount) pos =
          .error (splitAt S count pl remcount pos))) := by
  unfold payAt splitAt
  cases hpays : pl.paysAt S isInTrade itemEntry pos with
  | none => exact Or.inl ⟨rfl, rfl⟩
  | some i =>
    refine Or.inr ⟨i, rfl, ?_⟩
    dsimp only
    by_cases hwhole : add32 i.count remcount ≤ count
    · rw [if_pos hwhole, if_pos rfl]
      by_cases henough : count ≤ add32 remcount i.count
      · exact Or.inl ⟨hwhole, henough, if_pos henough⟩
      · exact Or.inr (Or.inl ⟨hwhole, Nat.lt_of_not_le henough, if_neg henough⟩)
    · exact Or.inr (Or.inr ⟨Nat.lt_of_not_le hwhole, if_neg hwhole⟩)

theorem shrinks_splitAt (hrange : Ranged S pl) (hcount : count < 4294967296)
    (hrem : remcount ≤ count) (hpays : pl.paysAt S isInTrade itemEntry pos = some i)
    (h : count < add32 i.count remcount) :
    Shrinks S isInTrade itemEntry pl (splitAt S count pl remcount pos) := by
  obtain ⟨hi, -⟩ := paysAt_eq_some.mp hpays
  obtain ⟨hlt, hleft⟩ := split_count (hrange pos i hi) hcount hrem h
  intro q j hj
  obtain ⟨hat, hothers⟩ := @getItemByPos_splitAt S count remcount pl pos i hi
  by_cases hq : q = pos
  · subst hq
    rw [hat, hleft] at hj
    obtain rfl := Option.some.inj hj
    exact ⟨i, hi, Or.inr ⟨hpays, _, by omega, rfl⟩⟩
  · rw [hothers q hq] at hj
    exact ⟨j, hj, Or.inl rfl⟩

/-! ## 5. A walk over some places -/

variable (S isInTrade itemEntry count) in
/-- The loops of `DestroyItemCount`, when nothing that is worn has to stay. -/
def walk (s : Player × ℕ) (positions : List Position) : Except Player (Player × ℕ) :=
  positions.foldlM (payAt S isInTrade itemEntry count fun _ _ => true) s

theorem walk_cons_ok {s s' : Player × ℕ} {positions : List Position}
    (h : payAt S isInTrade itemEntry count (fun _ _ => true) s pos = .ok s') :
    walk S isInTrade itemEntry count s (pos :: positions) =
      walk S isInTrade itemEntry count s' positions := by
  unfold walk
  rw [List.foldlM_cons, h]
  rfl

theorem walk_cons_error {s : Player × ℕ} {positions : List Position}
    (h : payAt S isInTrade itemEntry count (fun _ _ => true) s pos = .error pl') :
    walk S isInTrade itemEntry count s (pos :: positions) = .error pl' := by
  unfold walk
  rw [List.foldlM_cons, h]
  rfl

theorem walk_append (s : Player × ℕ) (xs ys : List Position) :
    walk S isInTrade itemEntry count s (xs ++ ys) =
      (walk S isInTrade itemEntry count s xs >>= fun s' =>
        walk S isInTrade itemEntry count s' ys) := List.foldlM_append ..

/-- Nothing comes in a walk. -/
theorem shrinks_walk (hcount : count < 4294967296) : ∀ (positions : List Position) {pl : Player}
    {remcount : ℕ}, Ranged S pl → remcount ≤ count →
    Shrinks S isInTrade itemEntry pl
      (finish (walk S isInTrade itemEntry count (pl, remcount) positions)) := by
  intro positions
  induction positions with
  | nil => exact fun _ _ => Shrinks.refl _
  | cons pos positions ih =>
    intro pl remcount hrange hrem
    rcases payAt_cases S isInTrade itemEntry count pl remcount pos with ⟨-, h⟩ |
      ⟨i, hpays, ⟨-, -, h⟩ | ⟨-, hmore, h⟩ | ⟨hsplit, h⟩⟩
    · rw [walk_cons_ok h]
      exact ih hrange hrem
    · rw [walk_cons_error h]
      exact shrinks_destroyItem (paysAt_eq_some.mp hpays).1
    · rw [walk_cons_ok h]
      have hone := @shrinks_destroyItem S isInTrade itemEntry pl pos i (paysAt_eq_some.mp hpays).1
      exact hone.trans (ih (hrange.shrinks hone) (Nat.le_of_lt hmore))
    · rw [walk_cons_error h]
      exact shrinks_splitAt hrange hcount hrem hpays hsplit

/-- No place comes twice, or after the one it is inside of. -/
def Apart (positions : List Position) : Prop :=
  positions.Pairwise fun p q => ¬(q = p ∨ Inside p q)

/-- **What a walk leaves**, when `remcount` units were paid before and the sums fit 32 bits. -/
structure Paid (S : Stores) (isInTrade : ℕ → Bool) (itemEntry count remcount : ℕ) (pl : Player)
    (positions : List Position) (result : Except Player (Player × ℕ)) : Prop where
  /-- all stacks were needed as a whole -/
  goesOn : ∀ s, result = .ok s →
    s.2 = remcount + amountOf (stackAt S isInTrade itemEntry pl) positions ∧
    (NoStack (stackAt S isInTrade itemEntry pl) positions ∨ s.2 < count) ∧
    NoStack (stackAt S isInTrade itemEntry s.1) positions
  /-- there were enough -/
  returns : ∀ pl', result = .error pl' →
    ¬NoStack (stackAt S isInTrade itemEntry pl) positions ∧
    amountOf (stackAt S isInTrade itemEntry pl') positions + count =
      remcount + amountOf (stackAt S isInTrade itemEntry pl) positions
  /-- a stack that goes as a whole takes along what is in it -/
  gone : ∀ p, SpentWhole (stackAt S isInTrade itemEntry pl) count remcount positions p →
    ∀ q, q = p ∨ Inside p q → (finish result).getItemByPos S q = none
  /-- other places are as they were, but for stacks -/
  others : ∀ q, (∀ p, SpentWhole (stackAt S isInTrade itemEntry pl) count remcount positions p →
      ¬(q = p ∨ Inside p q)) →
    (finish result).getItemByPos S q ≠ pl.getItemByPos S q →
      q ∈ positions ∧ stackAt S isInTrade itemEntry pl q ≠ none

theorem Shrinks.stackAt_eq_none (h : Shrinks S isInTrade itemEntry pl pl')
    (hnone : stackAt S isInTrade itemEntry pl q = none) :
    stackAt S isInTrade itemEntry pl' q = none :=
  Inventory.stackAt_eq_none.mpr (h.paysAt_eq_none (Inventory.stackAt_eq_none.mp hnone))

section Rounds

variable {positions : List Position} {result : Except Player (Player × ℕ)} {c : ℕ}

/-- There is no stack at the first place. -/
theorem Paid.skip (h : Paid S isInTrade itemEntry count remcount pl positions result)
    (hnone : stackAt S isInTrade itemEntry pl pos = none)
    (hshrinks : Shrinks S isInTrade itemEntry pl (finish result)) :
    Paid S isInTrade itemEntry count remcount pl (pos :: positions) result := by
  refine ⟨?_, ?_, fun p hp => ?_, fun q hq hne => ?_⟩
  · rintro s rfl
    obtain ⟨hsum, hmore, hleft⟩ := h.goesOn s rfl
    refine ⟨?_, ?_, ?_⟩
    · rw [hsum, amountOf_cons, hnone, Option.getD_none, Nat.zero_add]
    · exact hmore.imp_left fun hrest => noStack_cons.mpr ⟨hnone, hrest⟩
    · exact noStack_cons.mpr ⟨hshrinks.stackAt_eq_none hnone, hleft⟩
  · rintro pl' rfl
    obtain ⟨hsome, hsum⟩ := h.returns pl' rfl
    refine ⟨fun hall => hsome (noStack_cons.mp hall).2, ?_⟩
    have hnone' : stackAt S isInTrade itemEntry pl' pos = none := hshrinks.stackAt_eq_none hnone
    rw [amountOf_cons, amountOf_cons, hnone, hnone', Option.getD_none, Nat.zero_add, Nat.zero_add]
    exact hsum
  · exact h.gone p ((spentWhole_cons_none hnone).mp hp)
  · obtain ⟨hmem, hstack⟩ := h.others q (fun p hp => hq p ((spentWhole_cons_none hnone).mpr hp)) hne
    exact ⟨List.mem_cons_of_mem pos hmem, hstack⟩

variable (S) in
/-- An item is gone, with what was in it. -/
def Destroyed (pl pl' : Player) (pos : Position) : Prop :=
  ∀ q, ((q = pos ∨ Inside pos q) → pl'.getItemByPos S q = none) ∧
    (¬(q = pos ∨ Inside pos q) → pl'.getItemByPos S q = pl.getItemByPos S q)

theorem Destroyed.stackAt (h : Destroyed S pl pl' pos)
    (hapart : ∀ q ∈ positions, ¬(q = pos ∨ Inside pos q)) :
    ∀ q ∈ positions, stackAt S isInTrade itemEntry pl' q = stackAt S isInTrade itemEntry pl q :=
  fun q hq => stackAt_congr ((h q).2 (hapart q hq))

theorem Destroyed.stackAt_self (h : Destroyed S pl pl' pos) :
    Inventory.stackAt S isInTrade itemEntry pl' pos = none := by
  unfold Inventory.stackAt Player.paysAt
  rw [(h pos).1 (Or.inl rfl)]
  rfl

/-- The first stack goes, and more has to be paid. -/
theorem Paid.whole (hdestroyed : Destroyed S pl pl' pos)
    (h : Paid S isInTrade itemEntry count (remcount + c) pl' positions result)
    (hsome : stackAt S isInTrade itemEntry pl pos = some c) (hmore : remcount + c < count)
    (hapart : ∀ q ∈ positions, ¬(q = pos ∨ Inside pos q))
    (hshrinks : Shrinks S isInTrade itemEntry pl' (finish result)) :
    Paid S isInTrade itemEntry count remcount pl (pos :: positions) result := by
  have hsame := @Destroyed.stackAt S isInTrade itemEntry pl pl' pos positions hdestroyed hapart
  have hamount := amountOf_congr hsame
  have hself := hshrinks.stackAt_eq_none hdestroyed.stackAt_self
  refine ⟨?_, ?_, fun p hp q hq => ?_, fun q hq hne => ?_⟩
  · rintro s rfl
    obtain ⟨hsum, hless, hleft⟩ := h.goesOn s rfl
    refine ⟨?_, Or.inr ?_, noStack_cons.mpr ⟨hself, hleft⟩⟩
    · rw [hsum, hamount, amountOf_cons, hsome, Option.getD_some, Nat.add_assoc]
    · rcases hless with hnone | hless
      · rw [hsum, hnone.amountOf]
        exact hmore
      · exact hless
  · rintro pl'' rfl
    obtain ⟨-, hsum⟩ := h.returns pl'' rfl
    refine ⟨fun hall => ?_, ?_⟩
    · rw [(noStack_cons.mp hall).1] at hsome
      cases hsome
    · have hself' : Inventory.stackAt S isInTrade itemEntry pl'' pos = none := hself
      rw [amountOf_cons, amountOf_cons, hself', hsome, Option.getD_none, Option.getD_some,
        Nat.zero_add, hsum, hamount, Nat.add_assoc]
  · rcases (spentWhole_cons_some hsome).mp hp with ⟨rfl, -⟩ | ⟨-, hp⟩
    · have hgone := (hdestroyed q).1 hq
      cases hread : (finish result).getItemByPos S q with
      | none => rfl
      | some j =>
        obtain ⟨i, hi, -⟩ := hshrinks q j hread
        rw [hgone] at hi
        cases hi
    · exact h.gone p (hp.congr fun x hx => (hsame x hx).symm) q hq
  · have hnot : ¬(q = pos ∨ Inside pos q) :=
      hq pos ((spentWhole_cons_some hsome).mpr (Or.inl ⟨rfl, Nat.le_of_lt hmore⟩))
    have hkept := (hdestroyed q).2 hnot
    obtain ⟨hmem, hstack⟩ := h.others q (fun p hp => hq p
      ((spentWhole_cons_some hsome).mpr (Or.inr ⟨hmore, hp.congr hsame⟩)))
      (by rwa [hkept])
    exact ⟨List.mem_cons_of_mem pos hmem, by rwa [← hsame q hmem]⟩

/-- The first stack goes, and is just enough. -/
theorem Paid.last (hdestroyed : Destroyed S pl pl' pos)
    (hsome : stackAt S isInTrade itemEntry pl pos = some c) (henough : remcount + c = count)
    (hapart : ∀ q ∈ positions, ¬(q = pos ∨ Inside pos q)) :
    Paid S isInTrade itemEntry count remcount pl (pos :: positions) (.error pl') := by
  have hsame := @Destroyed.stackAt S isInTrade itemEntry pl pl' pos positions hdestroyed hapart
  refine ⟨fun s hs => (by cases hs), ?_, fun p hp q hq => ?_, fun q hq hne => ?_⟩
  · rintro pl'' heq
    obtain rfl := Except.error.inj heq
    refine ⟨fun hall => ?_, ?_⟩
    · rw [(noStack_cons.mp hall).1] at hsome
      cases hsome
    · rw [amountOf_cons, amountOf_cons, hdestroyed.stackAt_self, hsome, amountOf_congr hsame]
      simp only [Option.getD_none, Option.getD_some]
      omega
  · rcases (spentWhole_cons_some hsome).mp hp with ⟨rfl, -⟩ | ⟨hless, -⟩
    · exact (hdestroyed q).1 hq
    · exact absurd hless (by omega)
  · have hnot := hq pos ((spentWhole_cons_some hsome).mpr (Or.inl ⟨rfl, Nat.le_of_eq henough⟩))
    exact absurd ((hdestroyed q).2 hnot) hne

/-- Only a part of the first stack is needed. -/
theorem Paid.split (hsome : pl.paysAt S isInTrade itemEntry pos = some i) {j : Item}
    (hj : pl'.paysAt S isInTrade itemEntry pos = some j) (hothers : KeepsOthers S pl pl' pos)
    (hleft : j.count + count = remcount + i.count) (hmore : count < remcount + i.count)
    (hapart : ∀ q ∈ positions, ¬(q = pos ∨ Inside pos q)) :
    Paid S isInTrade itemEntry count remcount pl (pos :: positions) (.error pl') := by
  have hstack := stackAt_of_some hsome
  have hspent : ∀ p, ¬SpentWhole (stackAt S isInTrade itemEntry pl) count remcount
      (pos :: positions) p := by
    intro p hp
    rcases (spentWhole_cons_some hstack).mp hp with ⟨-, hle⟩ | ⟨hless, -⟩
    · omega
    · omega
  have hsame : ∀ q ∈ positions, stackAt S isInTrade itemEntry pl' q =
      stackAt S isInTrade itemEntry pl q := fun q hq =>
    stackAt_congr (hothers q fun heq => hapart q hq (Or.inl heq))
  refine ⟨fun s hs => (by cases hs), ?_, fun p hp => absurd hp (hspent p), fun q _ hne => ?_⟩
  · rintro pl'' heq
    obtain rfl := Except.error.inj heq
    refine ⟨fun hall => ?_, ?_⟩
    · rw [(noStack_cons.mp hall).1] at hstack
      cases hstack
    · rw [amountOf_cons, amountOf_cons, stackAt_of_some hj, hstack, amountOf_congr hsame]
      simp only [Option.getD_some]
      omega
  · by_cases heq : q = pos
    · subst heq
      refine ⟨List.mem_cons_self, ?_⟩
      rw [hstack]
      exact Option.some_ne_none _
    · exact absurd (hothers q heq) hne

end Rounds

/-- **A walk pays**, one place after the other. -/
theorem paid_walk (hcount : count < 4294967296) : ∀ (positions : List Position) {pl : Player}
    {remcount : ℕ}, Ranged S pl → Apart positions → (remcount < count ∨ remcount = 0) →
    Bounded (stackAt S isInTrade itemEntry pl) count 4294967296 remcount positions →
    Paid S isInTrade itemEntry count remcount pl positions
      (walk S isInTrade itemEntry count (pl, remcount) positions) := by
  intro positions
  induction positions with
  | nil =>
    intro pl remcount hrange hapart hrem hbounded
    have hnone : ∀ f : Position → Option ℕ, NoStack f [] := fun f x hx =>
      absurd hx List.not_mem_nil
    refine ⟨?_, ?_, fun p hp => absurd hp.mem List.not_mem_nil, fun q _ hne => absurd rfl hne⟩
    · rintro s hs
      obtain rfl := Except.ok.inj hs
      exact ⟨rfl, Or.inl (hnone _), hnone _⟩
    · rintro pl' hpl'
      cases hpl'
  | cons pos positions ih =>
    intro pl remcount hrange hapart hrem hbounded
    obtain ⟨hfirst, hapart⟩ := List.pairwise_cons.mp hapart
    have hle : remcount ≤ count := by omega
    have htail := hbounded.tail
    rcases payAt_cases S isInTrade itemEntry count pl remcount pos with ⟨hpays, h⟩ |
      ⟨i, hpays, hcases⟩
    · have hnone := (@stackAt_eq_none S isInTrade itemEntry pl pos).mpr hpays
      rw [hnone, Option.getD_none, Nat.add_zero] at htail
      rw [walk_cons_ok h]
      exact (ih hrange hapart hrem htail).skip hnone (shrinks_walk hcount positions hrange hle)
    · have hstack := stackAt_of_some hpays
      obtain ⟨hi, hentry, htrade⟩ := paysAt_eq_some.mp hpays
      have hdestroyed : Destroyed S pl (pl.destroyItem S pos) pos := getItemByPos_destroyItem hi
      -- the sum fits
      have hfits : remcount + i.count < 4294967296 := by
        rcases hrem with hless | rfl
        · exact hbounded.head hstack hless
        · rw [Nat.zero_add]
          exact hrange pos i hi
      have hsum : add32 remcount i.count = remcount + i.count := add32_of_lt hfits
      have hsum' : add32 i.count remcount = remcount + i.count := by
        rw [← hsum]
        unfold add32
        rw [Nat.add_comm]
      rw [hsum, hsum'] at hcases
      rcases hcases with ⟨hwhole, henough, h⟩ | ⟨-, hmore, h⟩ | ⟨hsplit, h⟩
      · rw [walk_cons_error h]
        exact Paid.last hdestroyed hstack (Nat.le_antisymm hwhole henough) hfirst
      · rw [walk_cons_ok h]
        have hrange' := hrange.shrinks (@shrinks_destroyItem S isInTrade itemEntry pl pos i hi)
        rw [hstack, Option.getD_some] at htail
        refine Paid.whole hdestroyed (ih hrange' hapart (Or.inl hmore) ?_) hstack hmore hfirst
          (shrinks_walk hcount positions hrange' (Nat.le_of_lt hmore))
        exact htail.congr fun x hx => (hdestroyed.stackAt hfirst x hx).symm
      · rw [walk_cons_error h]
        obtain ⟨hlt, hleft⟩ := split_count (hrange pos i hi) hcount hle (hsum' ▸ hsplit)
        obtain ⟨hat, hothers⟩ := @getItemByPos_splitAt S count remcount pl pos i hi
        refine Paid.split hpays (paysAt_eq_some.mpr ⟨hat, hentry, htrade⟩) hothers ?_ hsplit hfirst
        dsimp only
        omega

/-- A stack goes, and the loop goes on. -/
theorem walk_destroys {positions : List Position}
    (hpays : pl.paysAt S isInTrade itemEntry pos = some i)
    (hmore : add32 remcount i.count < count) :
    walk S isInTrade itemEntry count (pl, remcount) (pos :: positions) =
      walk S isInTrade itemEntry count (pl.destroyItem S pos, add32 remcount i.count)
        positions := by
  have hcomm : add32 i.count remcount = add32 remcount i.count := by
    unfold add32
    rw [Nat.add_comm]
  rcases payAt_cases S isInTrade itemEntry count pl remcount pos with ⟨hnone, -⟩ | ⟨j, hj, hcases⟩
  · rw [hpays] at hnone
    cases hnone
  · rw [hpays] at hj
    obtain rfl := Option.some.inj hj
    rcases hcases with ⟨-, henough, -⟩ | ⟨-, -, h⟩ | ⟨hsplit, -⟩
    · exact absurd henough (Nat.not_le_of_lt hmore)
    · exact walk_cons_ok h
    · rw [hcomm] at hsplit
      exact absurd hsplit (Nat.lt_asymm hmore)

/-- **Where a sum does not fit 32 bits**, stacks go that are not needed. -/
theorem walk_overflow (hcount : count < 4294967296) : ∀ (before : List Position) {pl : Player}
    {remcount : ℕ} {after : List Position} {c : ℕ}, Ranged S pl →
    Apart (before ++ pos :: after) → stackAt S isInTrade itemEntry pl pos = some c →
    remcount + amountOf (stackAt S isInTrade itemEntry pl) before < count →
    4294967296 ≤ remcount + amountOf (stackAt S isInTrade itemEntry pl) before + c →
    amountOf (stackAt S isInTrade itemEntry (finish (walk S isInTrade itemEntry count (pl, remcount)
      (before ++ pos :: after)))) (before ++ pos :: after) + 4294967296 ≤
      remcount + amountOf (stackAt S isInTrade itemEntry pl) (before ++ pos :: after) := by
  intro before
  induction before with
  | nil =>
    intro pl remcount after c hrange hapart hc hless hover
    obtain ⟨hfirst, -⟩ := List.pairwise_cons.mp hapart
    rw [amountOf_nil, Nat.add_zero] at hless hover
    obtain ⟨i, hpays, rfl⟩ := Option.map_eq_some_iff.mp hc
    obtain ⟨hi, -⟩ := paysAt_eq_some.mp hpays
    have hdestroyed : Destroyed S pl (pl.destroyItem S pos) pos := getItemByPos_destroyItem hi
    have hmore : add32 remcount i.count < count := by
      have hlt := hrange pos i hi
      unfold add32
      omega
    have hrange' := hrange.shrinks (@shrinks_destroyItem S isInTrade itemEntry pl pos i hi)
    have hshrinks := @shrinks_walk S isInTrade itemEntry count hcount after _ _ hrange'
      (Nat.le_of_lt hmore)
    rw [List.nil_append, walk_destroys hpays hmore, amountOf_cons, amountOf_cons, hc,
      hshrinks.stackAt_eq_none hdestroyed.stackAt_self]
    have hrest := @amountOf_le Position _ _ after fun x _ => hshrinks.stackAt_le x
    rw [amountOf_congr (hdestroyed.stackAt hfirst)] at hrest
    simp only [Option.getD_none, Option.getD_some]
    omega
  | cons q before ih =>
    intro pl remcount after c hrange hapart hc hless hover
    obtain ⟨hfirst, hapart⟩ := List.pairwise_cons.mp hapart
    rw [List.cons_append]
    rw [amountOf_cons] at hless hover
    cases hq : stackAt S isInTrade itemEntry pl q with
    | none =>
      rw [hq, Option.getD_none, Nat.zero_add] at hless hover
      have hstep : payAt S isInTrade itemEntry count (fun _ _ => true) (pl, remcount) q =
          .ok (pl, remcount) := by
        unfold payAt
        rw [stackAt_eq_none.mp hq]
      have hshrinks := @shrinks_walk S isInTrade itemEntry count hcount (before ++ pos :: after) _ _
        hrange (Nat.le_of_lt (Nat.lt_of_le_of_lt (Nat.le_add_right ..) hless))
      rw [walk_cons_ok hstep, amountOf_cons, amountOf_cons, hq, hshrinks.stackAt_eq_none hq]
      simp only [Option.getD_none, Nat.zero_add]
      exact ih hrange hapart hc hless hover
    | some d =>
      rw [hq, Option.getD_some] at hless hover
      obtain ⟨i, hpays, rfl⟩ := Option.map_eq_some_iff.mp hq
      obtain ⟨hi, -⟩ := paysAt_eq_some.mp hpays
      have hdestroyed : Destroyed S pl (pl.destroyItem S q) q := getItemByPos_destroyItem hi
      have hsum : add32 remcount i.count = remcount + i.count := add32_of_lt (by omega)
      have hmore : add32 remcount i.count < count := by omega
      have hrange' := hrange.shrinks (@shrinks_destroyItem S isInTrade itemEntry pl q i hi)
      have hshrinks := @shrinks_walk S isInTrade itemEntry count hcount (before ++ pos :: after) _ _
        hrange' (Nat.le_of_lt hmore)
      have hsame := fun xs hxs => @Destroyed.stackAt S isInTrade itemEntry pl _ q xs hdestroyed hxs
      have hbefore := amountOf_congr (hsame before fun x hx =>
        hfirst x (List.mem_append_left _ hx))
      have hall := amountOf_congr (hsame (before ++ pos :: after) hfirst)
      have hih := @ih (pl.destroyItem S q) (remcount + i.count) after c hrange' hapart
        ((hsame [pos] (by simpa using hfirst pos (by simp)) pos List.mem_cons_self).trans hc)
        (by omega) (by omega)
      rw [walk_destroys hpays hmore, amountOf_cons, amountOf_cons, hq,
        hshrinks.stackAt_eq_none hdestroyed.stackAt_self, hsum]
      simp only [Option.getD_none, Option.getD_some]
      omega

end Walking

end HungerGames.Inventory
