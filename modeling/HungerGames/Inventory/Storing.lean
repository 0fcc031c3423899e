/-
# What storing by a plan does

`Fits` says that a part of a plan has room at its slot, and `Usable` that the slot is there: one
of `m_items`, or one of a bag that is worn and is not the stored item itself.  When every part
fits and is usable, `StoreItem` and `StoreNewItem` add exactly the planned counts
(`storeItem_spec`, `storeNewItem_spec`): no other slot changes, apart from the slots of the
stored item when it is a bag that is put on.
-/
import HungerGames.Inventory.StoreItem

namespace HungerGames.Inventory

variable {S : Stores} {pl pl' : Player} {pos q : Position} {o b : ItemOrBag} {g n count : ℕ}
  {t : ItemTemplate}

/-! ## 1. Slots and the room in them -/

/-- The slot is there, and not inside the object `g` or an object younger than `n`. -/
def Usable (S : Stores) (pl : Player) (g n : ℕ) (pos : Position) : Prop :=
  (pos.bag = inventorySlotBag0 ∧ isOwnSlot pos.slot) ∨
    ∃ b, pl.getBagByPos S pos.bag = some b ∧ pos.slot < b.getBagSize S ∧
      b.item.guid ≠ g ∧ b.item.guid < n

theorem Usable.keeps (h : Usable S pl g n pos) (hkeeps : KeepsBags S pl pl') :
    Usable S pl' g n pos := by
  refine h.imp_right ?_
  rintro ⟨b, hb, hslot, hg, hn⟩
  obtain ⟨b', hb', hguid, hentry⟩ := hkeeps pos.bag b hb
  exact ⟨b', hb', by rw [getBagSize_of_entry hentry]; exact hslot, by rw [hguid]; exact hg,
    by rw [hguid]; exact hn⟩

/-- A slot of `m_items` is below 150, so no position is inside it by its number 255. -/
theorem isOwnSlot_lt {slot : ℕ} (h : isOwnSlot slot) : slot < 150 := by
  unfold isOwnSlot at h
  simp only [decide_eq_true_eq] at h
  omega

theorem Usable.own (h : Usable S pl g n pos) (hbag : pos.bag = inventorySlotBag0) :
    isOwnSlot pos.slot := by
  rcases h with h | ⟨b, hb, -⟩
  · exact h.2
  · rw [hbag, Player.getBagByPos_bag0] at hb
    cases hb

/-- The units that a slot holds. -/
def held (S : Stores) (pl : Player) (pos : Position) : ℕ :=
  ((pl.getItemByPos S pos).map (·.count)).getD 0

/-- `count` more units of an item have room at a slot. -/
structure Fits (S : Stores) (pl : Player) (t : ItemTemplate) (pos : Position) (count : ℕ) :
    Prop where
  some_units : 0 < count
  room : held S pl pos + count ≤ t.getMaxStackSize
  same : ∀ i, pl.getItemByPos S pos = some i → i.entry = t.itemId

/-- A slot of a stored bag with `inside` in it, which comes with the bag when it is put on at
`pos`. -/
def Travels (S : Stores) (pl pl' : Player) (inside : ℕ → Option Item) (pos q : Position) : Prop :=
  pos.bag = inventorySlotBag0 ∧ q.bag = pos.slot ∧ pl.getItemByPos S pos = none ∧
    pl'.getItemByPos S q = inside q.slot ∧ inside q.slot ≠ none

/-- **What storing one part does.** -/
structure StoresOne (S : Stores) (pl pl' : Player) (inside : ℕ → Option Item) (entry : ℕ)
    (pos : Position) (count : ℕ) : Prop where
  stored : ∃ i, pl'.getItemByPos S pos = some i ∧ i.entry = entry ∧ i.count = count
  others : ∀ q, q ≠ pos →
    pl'.getItemByPos S q = pl.getItemByPos S q ∨ Travels S pl pl' inside pos q
  bags : KeepsBags S pl pl'

/-! ## 2. One part -/

theorem exists_own (h : pos.bag = inventorySlotBag0) : ∃ slot, pos = ⟨inventorySlotBag0, slot⟩ :=
  ⟨pos.slot, by rw [← h]⟩

/-- An empty slot of `m_items` takes the item, with what is inside it. -/
theorem placeAt_own {slot : ℕ} (hown : isOwnSlot slot)
    (hempty : pl.getItemByPos S ⟨inventorySlotBag0, slot⟩ = none) :
    StoresOne S pl (pl.placeAt S ⟨inventorySlotBag0, slot⟩ o) o.bagslot o.item.entry
      ⟨inventorySlotBag0, slot⟩ o.item.count := by
  have hitems : pl.items slot = none := by
    rw [Player.getItemByPos_own hown, Option.map_eq_none_iff] at hempty
    exact hempty
  have hplace : pl.placeAt S ⟨inventorySlotBag0, slot⟩ o =
      pl.setItem slot (some { o with item := { o.item with owner := pl.guid } }) := rfl
  have hnone : pl.getBagByPos S slot = none := by
    unfold Player.getBagByPos
    rw [hitems]
    split <;> rfl
  rw [hplace]
  refine ⟨⟨_, Player.getItemByPos_setItem_own hown, rfl, rfl⟩, fun q hq => ?_, fun bag b hb => ?_⟩
  · by_cases hself : q.bag = inventorySlotBag0 ∧ q.slot = slot
    · exact absurd (by cases q; simp_all) hq
    by_cases hin : q.bag = slot
    · have hlt := isOwnSlot_lt hown
      have hne0 : ¬ (q.bag = inventorySlotBag0 ∧ isOwnSlot q.slot) := by
        rintro ⟨hbag0, -⟩
        unfold inventorySlotBag0 at hbag0
        omega
      have hold : pl.getItemByPos S q = none := by
        unfold Player.getItemByPos
        rw [if_neg hne0, hin, hnone]
        rfl
      cases hnew : Player.getItemByPos S
          (pl.setItem slot (some { o with item := { o.item with owner := pl.guid } })) q with
      | none => exact Or.inl hold.symm
      | some i =>
        refine Or.inr ⟨rfl, hin, hempty, ?_⟩
        rw [hnew]
        unfold Player.getItemByPos at hnew
        rw [if_neg hne0, hin] at hnew
        obtain ⟨b, hb, hi⟩ := Option.bind_eq_some_iff.mp hnew
        obtain ⟨-, hb, -⟩ := Player.getBagByPos_eq_some.mp hb
        unfold Player.setItem at hb
        dsimp only at hb
        rw [Function.update_self] at hb
        cases hb
        unfold ItemOrBag.getItemByPos at hi
        by_cases hsize : q.slot < ItemOrBag.getBagSize S
            { o with item := { o.item with owner := pl.guid } }
        · rw [if_pos hsize] at hi
          exact ⟨hi.symm, by rw [hi]; exact Option.some_ne_none i⟩
        · rw [if_neg hsize] at hi
          cases hi
    · exact Or.inl (Player.getItemByPos_setItem_ne hself hin)
  · by_cases heq : bag = slot
    · rw [heq, hnone] at hb
      cases hb
    · exact ⟨b, by rw [Player.getBagByPos_setItem_ne heq]; exact hb, rfl, rfl⟩

/-- A slot inside a bag takes the item, unless the bag is the item itself. -/
theorem placeAt_inBag (hbag : pl.getBagByPos S pos.bag = some b)
    (hsize : pos.slot < b.getBagSize S) (hguid : b.item.guid ≠ o.item.guid) :
    StoresOne S pl (pl.placeAt S pos o) o.bagslot o.item.entry pos o.item.count := by
  have hne0 : pos.bag ≠ inventorySlotBag0 := by
    intro h
    rw [h, Player.getBagByPos_bag0] at hbag
    cases hbag
  have hplace : pl.placeAt S pos o = pl.setItem pos.bag (some { b with
      bagslot := Function.update b.bagslot pos.slot
        (some { o.item with owner := b.item.owner }) }) := by
    unfold Player.placeAt
    rw [if_neg hne0, hbag]
    exact if_pos hguid.symm
  obtain ⟨hstored, hothers, hkeeps⟩ := Player.writeInBag hbag hsize _ hplace
  exact ⟨⟨_, hstored, rfl, rfl⟩, fun q hq => Or.inl (hothers q hq), hkeeps⟩

theorem placeAt_spec (husable : Usable S pl o.item.guid n pos)
    (hempty : pl.getItemByPos S pos = none) :
    StoresOne S pl (pl.placeAt S pos o) o.bagslot o.item.entry pos o.item.count := by
  rcases husable with ⟨hbag, hown⟩ | ⟨b, hb, hsize, hguid, -⟩
  · obtain ⟨slot, rfl⟩ := exists_own hbag
    exact placeAt_own hown hempty
  · exact placeAt_inBag hb hsize hguid

/-- A stack is changed in its place. -/
theorem modifyAt_spec {i : Item} {f : Item → Item} (hi : pl.getItemByPos S pos = some i)
    (hguid : (f i).guid = i.guid) (hentry : (f i).entry = i.entry) :
    (pl.modifyAt S pos f).getItemByPos S pos = some (f i) ∧
      KeepsOthers S pl (pl.modifyAt S pos f) pos ∧ KeepsBags S pl (pl.modifyAt S pos f) := by
  by_cases hown : pos.bag = inventorySlotBag0 ∧ isOwnSlot pos.slot
  · obtain ⟨slot, rfl⟩ := exists_own hown.1
    have hslot : isOwnSlot slot := hown.2
    rw [Player.getItemByPos_own hslot] at hi
    obtain ⟨o, ho, rfl⟩ := Option.map_eq_some_iff.mp hi
    refine Player.writeOwn hslot ho hguid hentry ?_
    unfold Player.modifyAt
    rw [if_pos ⟨rfl, hslot⟩]
    rw [ho]
    rfl
  · unfold Player.getItemByPos at hi
    rw [if_neg hown] at hi
    obtain ⟨b, hb, hi⟩ := Option.bind_eq_some_iff.mp hi
    unfold ItemOrBag.getItemByPos at hi
    by_cases hsize : pos.slot < b.getBagSize S
    · rw [if_pos hsize] at hi
      refine Player.writeInBag hb hsize (some (f i)) ?_
      unfold Player.modifyAt
      rw [if_neg hown, hb]
      dsimp only
      rw [hi]
      rfl
    · rw [if_neg hsize] at hi
      cases hi

variable {entry : ℕ}

/-- A count that is in a stack's range is created as it is. -/
theorem createItem_eq {guid owner : ℕ} (ht : S.itemTemplate entry = some t) (hpos : 0 < count)
    (hle : count ≤ t.getMaxStackSize) :
    createItem S guid owner entry count =
      some ⟨⟨guid, entry, count, false, false, owner, false, [], []⟩, fun _ => none⟩ := by
  unfold createItem
  rw [if_neg (by omega), ht, Option.map_some, Nat.min_eq_left hle]

theorem held_of_some {i : Item} (hi : pl.getItemByPos S pos = some i) :
    held S pl pos = i.count := by
  unfold held
  rw [hi]
  rfl

theorem held_of_none (hi : pl.getItemByPos S pos = none) : held S pl pos = 0 := by
  unfold held
  rw [hi]
  rfl

/-- What is inside the part that is stored: a clone has nothing inside. -/
def inside (pItem : ItemOrBag) (clone : Bool) (j : ℕ) : Option Item :=
  if clone then none else pItem.bagslot j

variable {pItem : ItemOrBag} {clone : Bool} {nextGuid : ℕ}

/-- A part at a stack. -/
theorem storeItemAt_merge {i : Item} (hi : pl.getItemByPos S pos = some i)
    (hentry : pItem.item.entry = t.itemId) (hfits : Fits S pl t pos count) :
    StoresOne S pl (storeItemAt S pos pItem count clone pl nextGuid).player (inside pItem clone)
      pItem.item.entry pos (held S pl pos + count) := by
  have hstore : (storeItemAt S pos pItem count clone pl nextGuid).player =
      pl.modifyAt S pos fun i : Item => { i with
        soulBound := i.soulBound || bindsAt S i.entry pos
        count := add32 i.count count } := by
    unfold storeItemAt
    rw [hi]
  have hheld := held_of_some hi
  have hcount : add32 i.count count = held S pl pos + count := by
    have hroom := hfits.room
    have hmax := t.getMaxStackSize_le
    rw [hheld] at hroom ⊢
    exact add32_of_lt (by omega)
  rw [hstore]
  obtain ⟨hat, hothers, hkeeps⟩ := modifyAt_spec (f := fun i : Item => { i with
    soulBound := i.soulBound || bindsAt S i.entry pos, count := add32 i.count count }) hi rfl rfl
  exact ⟨⟨_, hat, (hfits.same i hi).trans hentry.symm, hcount⟩, fun q hq => Or.inl (hothers q hq),
    hkeeps⟩

/-- A part at an empty slot. -/
theorem storeItemAt_empty (hi : pl.getItemByPos S pos = none)
    (ht : S.itemTemplate pItem.item.entry = some t) (hfits : Fits S pl t pos count)
    (husable : Usable S pl pItem.item.guid n pos) (hn : n ≤ nextGuid) :
    StoresOne S pl (storeItemAt S pos pItem count clone pl nextGuid).player (inside pItem clone)
      pItem.item.entry pos (held S pl pos + count) := by
  have hroom : count ≤ t.getMaxStackSize := by
    have := hfits.room
    omega
  rw [held_of_none hi, Nat.zero_add]
  cases clone with
  | true =>
    have hfresh : Usable S pl nextGuid n pos :=
      husable.imp_right fun ⟨b, hb, hsize, _, hlt⟩ => ⟨b, hb, hsize, by omega, hlt⟩
    have hstore : (storeItemAt S pos pItem count true pl nextGuid).player = pl.placeAt S pos
        ⟨⟨nextGuid, pItem.item.entry, count, false,
          pItem.item.soulBound || bindsAt S pItem.item.entry pos, pl.guid, false, [], []⟩,
          fun _ => none⟩ := by
      unfold storeItemAt
      rw [hi]
      rw [if_pos rfl]
      unfold cloneItem
      rw [createItem_eq ht hfits.some_units hroom]
      rfl
    rw [hstore]
    exact placeAt_spec (o := ⟨⟨nextGuid, pItem.item.entry, count, false,
      pItem.item.soulBound || bindsAt S pItem.item.entry pos, pl.guid, false, [], []⟩,
      fun _ => none⟩) hfresh hi
  | false =>
    have hstore : (storeItemAt S pos pItem count false pl nextGuid).player = pl.placeAt S pos
        { pItem with item := { pItem.item with
          count := count
          soulBound := pItem.item.soulBound || bindsAt S pItem.item.entry pos } } := by
      unfold storeItemAt
      rw [hi]
      rfl
    rw [hstore]
    exact placeAt_spec (o := { pItem with item := { pItem.item with
      count := count, soulBound := pItem.item.soulBound || bindsAt S pItem.item.entry pos } })
      husable hi

/-- **One part of a plan.** -/
theorem storeItemAt_spec (ht : S.itemTemplate pItem.item.entry = some t)
    (hfits : Fits S pl t pos count) (husable : Usable S pl pItem.item.guid n pos)
    (hn : n ≤ nextGuid) :
    StoresOne S pl (storeItemAt S pos pItem count clone pl nextGuid).player (inside pItem clone)
      pItem.item.entry pos (held S pl pos + count) := by
  cases hi : pl.getItemByPos S pos with
  | none => exact storeItemAt_empty hi ht hfits husable hn
  | some i => exact storeItemAt_merge hi (S.itemTemplate_id ht).symm hfits

theorem nextGuid_le_storeItemAt (hn : n ≤ nextGuid) :
    n ≤ (storeItemAt S pos pItem count clone pl nextGuid).nextGuid := by
  unfold storeItemAt
  split
  · split
    · exact hn
    · dsimp only
      split <;> omega
  · exact hn

/-! ## 3. A whole plan -/

/-- **What storing by a plan does**: the planned counts are added, and no other slot changes
except for what comes with a bag that is put on. -/
structure Landed (S : Stores) (pl pl' : Player) (entry : ℕ) (inside : ℕ → Option Item)
    (dest : ItemPosCountVec) : Prop where
  added : ∀ p ∈ dest, ∃ i, pl'.getItemByPos S p.1 = some i ∧ i.entry = entry ∧
    i.count = held S pl p.1 + p.2
  others : ∀ q, q ∉ dest.map Prod.fst → pl'.getItemByPos S q = pl.getItemByPos S q ∨
    ∃ p ∈ dest, Travels S pl pl' inside p.1 q

/-- Every part of a plan has its slot, and fits there. -/
def Ready (S : Stores) (pl : Player) (t : ItemTemplate) (g n : ℕ) (dest : ItemPosCountVec) :
    Prop :=
  ∀ p ∈ dest, Usable S pl g n p.1 ∧ Fits S pl t p.1 p.2

variable {dest : ItemPosCountVec}

theorem ne_of_new {p : Position × ℕ} (hp : p ∈ dest) (hnew : pos ∉ dest.map Prod.fst) :
    p.1 ≠ pos := fun heq =>
  hnew (heq ▸ List.mem_map_of_mem hp)

/-- A clone brings nothing with it. -/
theorem StoresOne.keepsOthers (h : StoresOne S pl pl' (inside pItem true) entry pos count) :
    KeepsOthers S pl pl' pos := fun q hq =>
  (h.others q hq).resolve_right fun htravels => htravels.2.2.2.2 rfl

theorem Ready.tail {p : Position × ℕ} (hready : Ready S pl t g n (p :: dest))
    (hnew : p.1 ∉ dest.map Prod.fst) (hothers : KeepsOthers S pl pl' p.1)
    (hkeeps : KeepsBags S pl pl') : Ready S pl' t g n dest := by
  intro r hr
  obtain ⟨husable, hfits⟩ := hready r (List.mem_cons_of_mem p hr)
  have hne := ne_of_new hr hnew
  have hsame := hothers r.1 hne
  refine ⟨husable.keeps hkeeps, hfits.some_units, ?_, ?_⟩
  · have hroom := hfits.room
    unfold held at hroom ⊢
    rw [hsame]
    exact hroom
  · rw [hsame]
    exact hfits.same

/-- A slot that is usable is not inside a bag that is put on later. -/
theorem Usable.not_travels {pl₁ : Player} {within : ℕ → Option Item} (husable : Usable S pl g n pos)
    (hkeeps : KeepsBags S pl pl₁) {r : Position} (hr : Usable S pl₁ g n r) :
    ¬ Travels S pl₁ pl' within r pos := by
  rintro ⟨hbag, hin, hempty, -, -⟩
  have hown := hr.own hbag
  obtain ⟨slot, rfl⟩ := exists_own hbag
  rcases husable with ⟨hbag0, -⟩ | ⟨b, hb, -⟩
  · have hlt := isOwnSlot_lt hown
    rw [hbag0] at hin
    dsimp only at hin hlt
    unfold inventorySlotBag0 at hin
    omega
  · obtain ⟨b', hb', -, -⟩ := hkeeps pos.bag b hb
    rw [hin] at hb'
    obtain ⟨-, hitems, -⟩ := Player.getBagByPos_eq_some.mp hb'
    have hslot : isOwnSlot slot := hown
    rw [Player.getItemByPos_own hslot, hitems] at hempty
    cases hempty

/-- **`StoreItem` does what its plan says.** -/
theorem storeItem_spec (ht : S.itemTemplate pItem.item.entry = some t) :
    ∀ (dest : ItemPosCountVec) (pl : Player) (nextGuid : ℕ), n ≤ nextGuid →
      (dest.map Prod.fst).Nodup → Ready S pl t pItem.item.guid n dest →
      Landed S pl (storeItem S pItem dest pl nextGuid).player pItem.item.entry pItem.bagslot dest
  | [], _, _, _, _, _ => ⟨fun _ hp => absurd hp List.not_mem_nil, fun _ _ => Or.inl rfl⟩
  | [(pos, count)], pl, nextGuid, hn, _, hready => by
    obtain ⟨husable, hfits⟩ := hready (pos, count) List.mem_cons_self
    have hone : StoresOne S pl (storeItemAt S pos pItem count false pl nextGuid).player
        (inside pItem false) pItem.item.entry pos (held S pl pos + count) :=
      storeItemAt_spec ht hfits husable hn
    refine ⟨fun p hp => ?_, fun q hq => ?_⟩
    · cases List.mem_singleton.mp hp
      exact hone.stored
    · have hne : q ≠ pos := fun h => hq (by rw [h]; exact List.mem_singleton_self pos)
      exact (hone.others q hne).imp_right fun h => ⟨(pos, count), List.mem_cons_self, h⟩
  | (pos, count) :: second :: rest, pl, nextGuid, hn, hnodup, hready => by
    obtain ⟨husable, hfits⟩ := hready (pos, count) List.mem_cons_self
    have hone : StoresOne S pl (storeItemAt S pos pItem count true pl nextGuid).player
        (inside pItem true) pItem.item.entry pos (held S pl pos + count) :=
      storeItemAt_spec ht hfits husable hn
    obtain ⟨hnew, hnodup⟩ := List.nodup_cons.mp hnodup
    have hkept := hone.keepsOthers
    have hready' := hready.tail hnew hkept hone.bags
    have hn' : n ≤ (storeItemAt S pos pItem count true pl nextGuid).nextGuid :=
      nextGuid_le_storeItemAt hn
    have ih := storeItem_spec ht (second :: rest) _ _ hn' hnodup hready'
    unfold storeItem
    dsimp only
    generalize (storeItemAt S pos pItem count true pl nextGuid).player = pl₁ at *
    refine ⟨List.forall_mem_cons.mpr ⟨?_, fun p hp => ?_⟩, fun q hq => ?_⟩
    · obtain ⟨i, hi, hentry, hcount⟩ := hone.stored
      refine ⟨i, ?_, hentry, hcount⟩
      rcases ih.others pos hnew with h | ⟨r, hr, htravels⟩
      · rw [h]
        exact hi
      · exact absurd htravels (husable.not_travels hone.bags (hready' r hr).1)
    · obtain ⟨i, hi, hentry, hcount⟩ := ih.added p hp
      have hne := ne_of_new hp hnew
      refine ⟨i, hi, hentry, ?_⟩
      rw [hcount]
      unfold held
      rw [hkept p.1 hne]
    · obtain ⟨hne, hq⟩ : q ≠ pos ∧ q ∉ (second :: rest).map Prod.fst :=
        not_or.mp fun h => hq (List.mem_cons.mpr h)
      rcases ih.others q hq with h | ⟨r, hr, hbag, hin, hempty, hto, hsome⟩
      · exact Or.inl (h.trans (hkept q hne))
      · have hrne := ne_of_new hr hnew
        exact Or.inr ⟨r, List.mem_cons_of_mem _ hr, hbag, hin,
          (hkept r.1 hrne).symm.trans hempty, hto, hsome⟩

/-! ## 4. A new item -/

theorem createItem_of_pos (guid owner : ℕ) (ht : S.itemTemplate entry = some t) (hpos : 0 < count) :
    ∃ o, createItem S guid owner entry count = some o ∧
      o.item.guid = guid ∧ o.item.entry = entry ∧ o.bagslot = fun _ => none := by
  unfold createItem
  rw [if_neg (by omega), ht]
  exact ⟨_, rfl, rfl, rfl, rfl⟩

/-- Flags of a stored item are set without a count or another slot changing. -/
theorem Landed.modifyAt {pl₁ : Player} {within : ℕ → Option Item} {p : Position × ℕ}
    {f : Item → Item} (h : Landed S pl pl₁ entry within dest) (hp : p ∈ dest)
    (hf : ∀ i, (f i).guid = i.guid ∧ (f i).entry = i.entry ∧ (f i).count = i.count) :
    Landed S pl (pl₁.modifyAt S p.1 f) entry within dest := by
  obtain ⟨i, hi, hentry, hcount⟩ := h.added p hp
  obtain ⟨hat, hothers, -⟩ := modifyAt_spec hi (hf i).1 (hf i).2.1
  refine ⟨fun r hr => ?_, fun q hq => ?_⟩
  · by_cases heq : r.1 = p.1
    · obtain ⟨j, hj, hjentry, hjcount⟩ := h.added r hr
      rw [heq] at hj ⊢
      rw [hi] at hj
      cases hj
      rw [heq] at hjcount
      exact ⟨f i, hat, (hf i).2.1.trans hentry, (hf i).2.2.trans hjcount⟩
    · rw [hothers r.1 heq]
      exact h.added r hr
  · have hne : q ≠ p.1 := fun heq => hq (heq ▸ List.mem_map_of_mem hp)
    unfold Travels
    rw [hothers q hne]
    exact h.others q hq

/-- **`StoreNewItem` does what its plan says.** -/
theorem storeNewItem_spec {allowedLooters : List ℕ} {nextGuid : ℕ}
    (ht : S.itemTemplate entry = some t) (hnodup : (dest.map Prod.fst).Nodup)
    (hready : Ready S pl t g nextGuid dest) (hsum : (dest.map Prod.snd).sum < 4294967296) :
    Landed S pl (storeNewItem S dest entry allowedLooters pl nextGuid) entry (fun _ => none)
      dest := by
  cases dest with
  | nil => exact ⟨fun _ hp => absurd hp List.not_mem_nil, fun _ _ => Or.inl rfl⟩
  | cons first rest =>
    have hpos : 0 < ((first :: rest).map Prod.snd).sum := by
      have := (hready first List.mem_cons_self).2.some_units
      rw [List.map_cons, List.sum_cons]
      omega
    unfold storeNewItem
    dsimp only
    rw [Nat.mod_eq_of_lt hsum]
    obtain ⟨o, ho, hguid, rfl, hinside⟩ :=
      createItem_of_pos nextGuid pl.guid ht hpos
    rw [ho]
    dsimp only
    have hready' : Ready S pl t o.item.guid nextGuid (first :: rest) := fun p hp =>
      ⟨(hready p hp).1.imp_right fun ⟨b, hb, hsize, _, hlt⟩ =>
        ⟨b, hb, hsize, by rw [hguid]; exact Nat.ne_of_lt hlt, hlt⟩, (hready p hp).2⟩
    have hlanded := storeItem_spec ht (first :: rest) pl (nextGuid + 1) (Nat.le_succ nextGuid)
      hnodup hready'
    rw [hinside] at hlanded
    split
    · rw [List.getLast?_eq_some_getLast (List.cons_ne_nil first rest)]
      exact hlanded.modifyAt (List.getLast_mem _) fun i => ⟨rfl, rfl, rfl⟩
    · exact hlanded

end HungerGames.Inventory
