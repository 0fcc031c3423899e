/-
# The units that a player has

Storing a stack adds its units to what a player has, and changes no units of other items.
`storeItem_gains` says what each part of a plan adds.  A part that has no room for the item adds
units all the same: to another item's stack, or of a clone.
-/
import HungerGames.Inventory.Replanning
import HungerGames.Inventory.Storing
import HungerGames.System.Counting

namespace HungerGames.Inventory

open HungerGames.System

variable {S : Stores} {pl pl' : Player} {pos q : Position} {o b : ItemOrBag} {t : ItemTemplate}
  {g n count nextGuid : ℕ} {clone : Bool} {kinds : ℕ → Bool}

/-! ## 1. All the places there are -/

/-- The slots of `m_items` and those of the bags that are worn. -/
def places : List Position :=
  ownPositions (List.range 74 ++ List.range' 86 64) ++
    (bagSlots ++ bankBagSlots).flatMap fun bag => (List.range 36).map (⟨bag, ·⟩)

/-- The slot is there. -/
def There (S : Stores) (pl : Player) (pos : Position) : Prop :=
  (pos.bag = inventorySlotBag0 ∧ isOwnSlot pos.slot) ∨
    ∃ b, pl.getBagByPos S pos.bag = some b ∧ pos.slot < b.getBagSize S

theorem nodup_places : places.Nodup := by
  have hbags : (bagSlots ++ bankBagSlots).Nodup := by decide
  refine List.nodup_append.mpr ⟨?_, ?_, ?_⟩
  · have hslots : (List.range 74 ++ List.range' 86 64).Nodup := by decide +kernel
    exact hslots.map fun a b heq => (Position.mk.inj heq).2
  · refine List.nodup_flatMap.mpr ⟨fun bag _ => ?_, ?_⟩
    · exact List.nodup_range.map fun a b heq => (Position.mk.inj heq).2
    · refine hbags.imp fun {a b} hne pos ha hb => hne ?_
      obtain ⟨i, -, rfl⟩ := List.mem_map.mp ha
      obtain ⟨j, -, heq⟩ := List.mem_map.mp hb
      exact (Position.mk.inj heq).1.symm
  · intro p hp p' hp' heq
    obtain ⟨slot, -, rfl⟩ := List.mem_map.mp hp
    obtain ⟨bag, hbag, hp'⟩ := List.mem_flatMap.mp hp'
    obtain ⟨j, -, rfl⟩ := List.mem_map.mp hp'
    have hbag0 : inventorySlotBag0 = bag := (Position.mk.inj heq).1
    exact absurd (hbag0 ▸ hbag) (by decide)

theorem getBagSize_le (S : Stores) (b : ItemOrBag) : b.getBagSize S ≤ 36 := by
  unfold ItemOrBag.getBagSize
  cases S.itemTemplate b.item.entry with
  | none => exact Nat.zero_le _
  | some t => exact t.slots_le

theorem There.mem_places (h : There S pl pos) : pos ∈ places := by
  refine List.mem_append.mpr (h.imp ?_ ?_)
  · rintro ⟨hbag, hslot⟩
    obtain ⟨slot, rfl⟩ := exists_own hbag
    refine List.mem_map.mpr ⟨slot, ?_, rfl⟩
    have hslot' : isOwnSlot slot := hslot
    unfold isOwnSlot at hslot'
    simp only [decide_eq_true_eq] at hslot'
    simp only [List.mem_append, List.mem_range, List.mem_range'_1]
    omega
  · rintro ⟨b, hb, hslot⟩
    have hbagSlot := (Player.getBagByPos_eq_some.mp hb).1
    unfold isBagSlot at hbagSlot
    simp only [decide_eq_true_eq] at hbagSlot
    refine List.mem_flatMap.mpr ⟨pos.bag, ?_, List.mem_map.mpr ⟨pos.slot, ?_, rfl⟩⟩
    · unfold bagSlots bankBagSlots
      simp only [List.mem_append, List.mem_range'_1]
      omega
    · exact List.mem_range.mpr (Nat.lt_of_lt_of_le hslot (getBagSize_le S b))

theorem Usable.there (h : Usable S pl g n pos) : There S pl pos :=
  h.imp_right fun ⟨b, hb, hslot, _⟩ => ⟨b, hb, hslot⟩

/-! ## 2. The units of some kinds -/

/-- The units of an item, if it is of the kinds that are counted. -/
def weigh (kinds : ℕ → Bool) : Option Item → ℕ
  | none => 0
  | some i => if kinds i.entry then i.count else 0

/-- The units a player has of some kinds. -/
def Player.units (S : Stores) (pl : Player) (kinds : ℕ → Bool) : ℕ :=
  (places.map fun pos => weigh kinds (pl.getItemByPos S pos)).sum

/-- One slot changes. -/
theorem Player.units_change (hpos : pos ∈ places) (hothers : KeepsOthers S pl pl' pos) :
    pl'.units S kinds + weigh kinds (pl.getItemByPos S pos) =
      pl.units S kinds + weigh kinds (pl'.getItemByPos S pos) := by
  have hsame : ∀ q, q ≠ pos →
      weigh kinds (pl'.getItemByPos S q) = weigh kinds (pl.getItemByPos S q) := fun q hq => by
    rw [hothers q hq]
  exact sum_map_change nodup_places hpos hsame

/-- What comes of storing one part: units of an entry, at one slot. -/
structure Gains (S : Stores) (pl pl' : Player) (pos : Position) (entry gained : ℕ) : Prop where
  units : ∀ kinds, pl'.units S kinds = pl.units S kinds + if kinds entry then gained else 0
  others : KeepsOthers S pl pl' pos
  bags : KeepsBags S pl pl'

/-- A stack gets bigger. -/
theorem gains_of_some {i j : Item} (hthere : There S pl pos) (hi : pl.getItemByPos S pos = some i)
    (hj : pl'.getItemByPos S pos = some j) (hentry : j.entry = i.entry)
    (hcount : j.count = i.count + count) (hothers : KeepsOthers S pl pl' pos)
    (hbags : KeepsBags S pl pl') : Gains S pl pl' pos i.entry count := by
  refine ⟨fun kinds => ?_, hothers, hbags⟩
  have hchange := @Player.units_change S pl pl' pos kinds hthere.mem_places hothers
  rw [hi, hj] at hchange
  simp only [weigh, hentry, hcount] at hchange
  split
  · rename_i hkind
    simp only [hkind, if_true] at hchange
    omega
  · rename_i hkind
    simp only [hkind, Bool.false_eq_true, if_false] at hchange
    omega

/-- An empty slot is filled. -/
theorem gains_of_none {j : Item} (hthere : There S pl pos) (hi : pl.getItemByPos S pos = none)
    (hj : pl'.getItemByPos S pos = some j) (hothers : KeepsOthers S pl pl' pos)
    (hbags : KeepsBags S pl pl') : Gains S pl pl' pos j.entry j.count := by
  refine ⟨fun kinds => ?_, hothers, hbags⟩
  have hchange := @Player.units_change S pl pl' pos kinds hthere.mem_places hothers
  have hempty : weigh kinds none = 0 := rfl
  have hfull : weigh kinds (some j) = if kinds j.entry then j.count else 0 := rfl
  rw [hi, hj, hempty, hfull, Nat.add_zero] at hchange
  exact hchange

/-! ## 3. Storing a part -/

/-- Nothing travels in what has nothing inside. -/
theorem StoresOne.keepsOthers_of_empty {inside : ℕ → Option Item} {entry : ℕ}
    (h : StoresOne S pl pl' inside entry pos count) (hinside : ∀ j, inside j = none) :
    KeepsOthers S pl pl' pos := fun q hq =>
  (h.others q hq).resolve_right fun htravels => htravels.2.2.2.2 (hinside _)

/-- **One part of a plan adds units**, and those that were planned if it has room for the item. -/
theorem storeItemAt_gains (ht : S.itemTemplate o.item.entry = some t)
    (husable : Usable S pl o.item.guid n pos) (hn : n ≤ nextGuid)
    (hinside : ∀ j, o.bagslot j = none) (hcount : 0 < count)
    (hroom : held S pl pos + count < 4294967296) :
    ∃ entry gained,
      Gains S pl (storeItemAt S pos o count clone pl nextGuid).player pos entry gained ∧
      0 < gained ∧ (Fits S pl t pos count → (entry, gained) = (o.item.entry, count)) := by
  cases hi : pl.getItemByPos S pos with
  | some i =>
    have hstore : (storeItemAt S pos o count clone pl nextGuid).player =
        pl.modifyAt S pos fun i : Item => { i with
          soulBound := i.soulBound || bindsAt S i.entry pos
          count := add32 i.count count } := by
      unfold storeItemAt
      rw [hi]
    rw [held_of_some hi] at hroom
    obtain ⟨hat, hothers, hkeeps⟩ := modifyAt_spec (f := fun i : Item => { i with
      soulBound := i.soulBound || bindsAt S i.entry pos, count := add32 i.count count }) hi rfl rfl
    refine ⟨i.entry, count, ?_, hcount, fun hfits => ?_⟩
    · rw [hstore]
      exact gains_of_some husable.there hi hat rfl (add32_of_lt hroom) hothers hkeeps
    · rw [hfits.same i hi, S.itemTemplate_id ht]
  | none =>
    cases clone with
    | false =>
      have hstore : (storeItemAt S pos o count false pl nextGuid).player = pl.placeAt S pos
          { o with item := { o.item with
            count := count
            soulBound := o.item.soulBound || bindsAt S o.item.entry pos } } := by
        unfold storeItemAt
        rw [hi]
        rfl
      have hplaced := placeAt_spec (o := { o with item := { o.item with
        count := count, soulBound := o.item.soulBound || bindsAt S o.item.entry pos } }) husable hi
      obtain ⟨j, hj, hentry, hjcount⟩ := hplaced.stored
      refine ⟨o.item.entry, count, ?_, hcount, fun _ => rfl⟩
      rw [hstore]
      have hgains := gains_of_none husable.there hi hj (hplaced.keepsOthers_of_empty hinside)
        hplaced.bags
      rwa [hentry, hjcount] at hgains
    | true =>
      have hfresh : Usable S pl nextGuid n pos :=
        husable.imp_right fun ⟨b, hb, hsize, _, hlt⟩ => ⟨b, hb, hsize, by omega, hlt⟩
      have hstore : (storeItemAt S pos o count true pl nextGuid).player = pl.placeAt S pos
          ⟨⟨nextGuid, o.item.entry, min count t.getMaxStackSize, false,
            o.item.soulBound || bindsAt S o.item.entry pos, pl.guid, false, [], []⟩,
            fun _ => none⟩ := by
        have hnot : ¬ count < 1 := by omega
        unfold storeItemAt
        rw [hi]
        rw [if_pos rfl]
        unfold cloneItem createItem
        rw [if_neg hnot, ht]
        rfl
      have hplaced := placeAt_spec (o := ⟨⟨nextGuid, o.item.entry, min count t.getMaxStackSize,
        false, o.item.soulBound || bindsAt S o.item.entry pos, pl.guid, false, [], []⟩,
        fun _ => none⟩) hfresh hi
      obtain ⟨j, hj, hentry, hjcount⟩ := hplaced.stored
      have hmax := t.getMaxStackSize_pos
      refine ⟨o.item.entry, min count t.getMaxStackSize, ?_, by omega, fun hfits => ?_⟩
      · rw [hstore]
        have hgains := gains_of_none husable.there hi hj
          (hplaced.keepsOthers_of_empty fun _ => rfl) hplaced.bags
        rwa [hentry, hjcount] at hgains
      · have hle := hfits.room
        rw [Nat.min_eq_left (by omega)]

/-! ## 4. Storing by a plan -/

/-- A part can be stored: its slot is there, and its count is in range. -/
def Storable (S : Stores) (pl : Player) (g n : ℕ) (p : Position × ℕ) : Prop :=
  Usable S pl g n p.1 ∧ 0 < p.2 ∧ held S pl p.1 + p.2 < 4294967296

theorem Fits.keeps (h : Fits S pl t q count) (hsame : pl'.getItemByPos S q = pl.getItemByPos S q) :
    Fits S pl' t q count := by
  refine ⟨h.some_units, ?_, ?_⟩
  · unfold held
    rw [hsame]
    exact h.room
  · rw [hsame]
    exact h.same

theorem Storable.keeps {p : Position × ℕ} (h : Storable S pl g n p)
    (hsame : pl'.getItemByPos S p.1 = pl.getItemByPos S p.1) (hbags : KeepsBags S pl pl') :
    Storable S pl' g n p := by
  refine ⟨h.1.keeps hbags, h.2.1, ?_⟩
  unfold held
  rw [hsame]
  exact h.2.2

/-- What the parts of a plan add. -/
def gained (kinds : ℕ → Bool) (gains : List (ℕ × ℕ)) : ℕ :=
  (gains.map fun gain => if kinds gain.1 then gain.2 else 0).sum

@[simp] theorem gained_nil : gained kinds [] = 0 := rfl

@[simp] theorem gained_cons (entry count : ℕ) (gains : List (ℕ × ℕ)) :
    gained kinds ((entry, count) :: gains) =
      (if kinds entry then count else 0) + gained kinds gains := List.sum_cons

/-- A part adds units: those of the plan, if it is one of those that fit. -/
def Adds (fitting : Position × ℕ → Prop) (entry : ℕ) (p : Position × ℕ) (gain : ℕ × ℕ) : Prop :=
  0 < gain.2 ∧ (fitting p → gain = (entry, p.2))

/-- **What a plan adds**, part by part. -/
theorem storeItem_gains {fitting : Position × ℕ → Prop} (ht : S.itemTemplate o.item.entry = some t)
    (hinside : ∀ j, o.bagslot j = none) : ∀ (dest : ItemPosCountVec) (pl : Player) (nextGuid : ℕ),
    n ≤ nextGuid → (dest.map Prod.fst).Nodup → (∀ p ∈ dest, Storable S pl o.item.guid n p) →
    (∀ p ∈ dest, fitting p → Fits S pl t p.1 p.2) →
    ∃ gains : List (ℕ × ℕ), List.Forall₂ (Adds fitting o.item.entry) dest gains ∧
      ∀ kinds, (storeItem S o dest pl nextGuid).player.units S kinds =
        pl.units S kinds + gained kinds gains
  | [], _, _, _, _, _, _ => ⟨[], .nil, fun _ => (Nat.add_zero _).symm⟩
  | [(pos, count)], pl, nextGuid, hn, _, hall, hfitting => by
    obtain ⟨husable, hcount, hroom⟩ := hall (pos, count) List.mem_cons_self
    obtain ⟨entry, gain, hgains, hpos, hfits⟩ :=
      @storeItemAt_gains S pl pos o t n count nextGuid false ht husable hn hinside hcount hroom
    refine ⟨[(entry, gain)], .cons ⟨hpos, fun hfit => hfits ?_⟩ .nil, fun kinds => ?_⟩
    · exact hfitting (pos, count) List.mem_cons_self hfit
    · rw [gained_cons, gained_nil, Nat.add_zero]
      exact hgains.units kinds
  | (pos, count) :: second :: rest, pl, nextGuid, hn, hnodup, hall, hfitting => by
    obtain ⟨husable, hcount, hroom⟩ := hall (pos, count) List.mem_cons_self
    obtain ⟨entry, gain, hgains, hpos, hfits⟩ :=
      @storeItemAt_gains S pl pos o t n count nextGuid true ht husable hn hinside hcount hroom
    obtain ⟨hnew, hnodup⟩ := List.nodup_cons.mp hnodup
    have hn' : n ≤ (storeItemAt S pos o count true pl nextGuid).nextGuid :=
      nextGuid_le_storeItemAt hn
    unfold storeItem
    dsimp only
    generalize (storeItemAt S pos o count true pl nextGuid).nextGuid = next at hn'
    generalize (storeItemAt S pos o count true pl nextGuid).player = pl₁ at hgains ⊢
    -- the later parts find their slots as they were
    have hsame : ∀ p ∈ second :: rest, pl₁.getItemByPos S p.1 = pl.getItemByPos S p.1 :=
      fun p hp => hgains.others p.1 (ne_of_new hp hnew)
    obtain ⟨gains, hparts, hunits⟩ := storeItem_gains ht hinside (second :: rest) pl₁ next hn'
      hnodup
      (fun p hp => (hall p (List.mem_cons_of_mem _ hp)).keeps (hsame p hp) hgains.bags)
      fun p hp hfit => (hfitting p (List.mem_cons_of_mem _ hp) hfit).keeps (hsame p hp)
    refine ⟨(entry, gain) :: gains, .cons ⟨hpos, fun hfit => hfits ?_⟩ hparts, fun kinds => ?_⟩
    · exact hfitting (pos, count) List.mem_cons_self hfit
    · rw [hunits, hgains.units, gained_cons, Nat.add_assoc]

/-- **A plan of which every part fits** adds the item. -/
theorem units_storeItem {dest : ItemPosCountVec} (ht : S.itemTemplate o.item.entry = some t)
    (hinside : ∀ j, o.bagslot j = none) (hn : n ≤ nextGuid) (hnodup : (dest.map Prod.fst).Nodup)
    (hall : ∀ p ∈ dest, Storable S pl o.item.guid n p)
    (hfits : ∀ p ∈ dest, Fits S pl t p.1 p.2) (kinds : ℕ → Bool) :
    (storeItem S o dest pl nextGuid).player.units S kinds =
      pl.units S kinds + if kinds o.item.entry then (dest.map Prod.snd).sum else 0 := by
  obtain ⟨gains, hparts, hunits⟩ := @storeItem_gains S o t n (fun _ => True) ht hinside dest pl
    nextGuid hn hnodup hall fun p hp _ => hfits p hp
  rw [hunits, Nat.add_left_cancel_iff]
  clear hunits hnodup hall hfits
  induction hparts with
  | nil => simp
  | cons hadds _ ih =>
    obtain ⟨-, heq⟩ := hadds
    rw [heq trivial, gained_cons, ih, List.map_cons, List.sum_cons]
    split
    · rfl
    · rfl

/-- Every part adds at least one unit, and those that fit what was planned. -/
theorem le_gained {fitting : Position × ℕ → Prop} [DecidablePred fitting] {entry : ℕ}
    {dest : ItemPosCountVec} {gains : List (ℕ × ℕ)}
    (h : List.Forall₂ (Adds fitting entry) dest gains) :
    (dest.map fun p => if fitting p then p.2 else 1).sum ≤ gained (fun _ => true) gains := by
  induction h with
  | nil => exact Nat.le_refl 0
  | cons hadds _ ih =>
    obtain ⟨hpos, heq⟩ := hadds
    rw [List.map_cons, List.sum_cons, gained_cons, if_pos rfl]
    split
    · rename_i hfit
      rw [heq hfit]
      exact Nat.add_le_add_left ih _
    · exact Nat.add_le_add hpos ih

/-- **A plan with parts for something else** adds more than its own. -/
theorem lt_units_storeItem {begun new : ItemPosCountVec} (ht : S.itemTemplate o.item.entry = some t)
    (hinside : ∀ j, o.bagslot j = none) (hn : n ≤ nextGuid)
    (hnodup : ((begun ++ new).map Prod.fst).Nodup) (hbegun : begun ≠ [])
    (hall : ∀ p ∈ begun ++ new, Storable S pl o.item.guid n p)
    (hfits : ∀ p ∈ new, Fits S pl t p.1 p.2) :
    pl.units S (fun _ => true) + (new.map Prod.snd).sum <
      (storeItem S o (begun ++ new) pl nextGuid).player.units S fun _ => true := by
  obtain ⟨gains, hparts, hunits⟩ := @storeItem_gains S o t n (· ∈ new) ht hinside (begun ++ new)
    pl nextGuid hn hnodup hall fun p _ hp => hfits p hp
  have hpos : ∀ p ∈ begun ++ new, 0 < p.2 := fun p hp => (hall p hp).2.1
  have hleast := le_gained hparts
  obtain ⟨first, rest, rfl⟩ := List.exists_cons_of_ne_nil hbegun
  have hnew : (new.map fun p => if p ∈ new then p.2 else 1) = new.map Prod.snd :=
    List.map_congr_left fun p hp => if_pos hp
  have hfirst : 0 < if first ∈ new then first.2 else 1 := by
    split
    · exact hpos first List.mem_cons_self
    · exact Nat.one_pos
  rw [List.map_append, List.sum_append, hnew, List.map_cons, List.sum_cons] at hleast
  rw [hunits]
  omega

end HungerGames.Inventory
