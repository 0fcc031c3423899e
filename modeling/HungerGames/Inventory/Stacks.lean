/-
# Stacks that are taken out and stored

A stack that lies nowhere is planned for and stored with a player.  By a plan for it alone the
player gets its units (`units_store`); by a plan that goes on from one for something else, more
(`lt_units_store`).  No guid comes to lie with the player but that of the stack and new ones.
-/
import HungerGames.Inventory.Units
import HungerGames.Inventory.Planned

namespace HungerGames.Inventory

open HungerGames.System

variable {S : Stores} {pl pl' : Player} {pos q : Position} {o b : ItemOrBag} {t : ItemTemplate}
  {g n count nextGuid slot : ℕ} {clone : Bool} {kinds : ℕ → Bool} {i : Item}

/-! ## 1. Objects, wherever they lie -/

/-- What lies at a slot of `m_items`, or inside what does; also where it is not read. -/
def Player.lying (pl : Player) (slot : ℕ) : Option ℕ → Option Item
  | none => (pl.items slot).map (·.item)
  | some inside => (pl.items slot).bind (·.bagslot inside)

/-- An object lies somewhere. -/
def Player.Has (pl : Player) (g : ℕ) : Prop :=
  ∃ slot inside i, pl.lying slot inside = some i ∧ i.guid = g

/-- Where the item of a position lies. -/
def Position.place (pos : Position) : ℕ × Option ℕ :=
  if pos.bag = inventorySlotBag0 then (pos.slot, none) else (pos.bag, some pos.slot)

theorem Player.lying_of_item (hi : pl.getItemByPos S pos = some i) :
    pl.lying pos.place.1 pos.place.2 = some i := by
  unfold getItemByPos at hi
  by_cases hown : pos.bag = inventorySlotBag0 ∧ isOwnSlot pos.slot
  · rw [if_pos hown] at hi
    unfold Position.place
    rw [if_pos hown.1]
    exact hi
  · rw [if_neg hown] at hi
    obtain ⟨b, hb, hi⟩ := Option.bind_eq_some_iff.mp hi
    have hne : pos.bag ≠ inventorySlotBag0 := bag_ne_of_getBagByPos hb
    unfold ItemOrBag.getItemByPos at hi
    split at hi
    · unfold Position.place lying
      rw [if_neg hne]
      rw [(getBagByPos_eq_some.mp hb).2.1]
      exact hi
    · cases hi

theorem Player.has_of_item (hi : pl.getItemByPos S pos = some i) : pl.Has i.guid :=
  ⟨_, _, i, lying_of_item hi, rfl⟩

theorem Player.has_of_bag {bag : ℕ} (hb : pl.getBagByPos S bag = some b) : pl.Has b.item.guid :=
  ⟨bag, none, b.item, by rw [lying, (getBagByPos_eq_some.mp hb).2.1]; rfl, rfl⟩

/-- What is written at a slot. -/
theorem Player.lying_setItem {x : Option ItemOrBag} (other : ℕ) (inside : Option ℕ) :
    (pl.setItem slot x).lying other inside =
      if other = slot then match inside with
        | none => x.map (·.item)
        | some j => x.bind (·.bagslot j)
      else pl.lying other inside := by
  unfold setItem lying
  by_cases h : other = slot
  · subst h
    cases inside <;> simp
  · cases inside <;> simp [h]

/-- An item is placed where it was empty. -/
theorem Player.Has.of_placeAt (h : (pl.placeAt S pos o).Has g) (hinside : ∀ j, o.bagslot j = none) :
    pl.Has g ∨ g = o.item.guid := by
  obtain ⟨other, inside, i, hi, rfl⟩ := h
  unfold Player.placeAt at hi
  split at hi
  · rw [lying_setItem] at hi
    split at hi
    · cases inside with
      | none =>
        obtain rfl := Option.some.inj hi
        exact Or.inr rfl
      | some j =>
        have hnone : o.bagslot j = some i := hi
        rw [hinside j] at hnone
        cases hnone
    · exact Or.inl ⟨_, _, i, hi, rfl⟩
  · rename_i pBag hbag
    have hpBag : pl.items pos.bag = some pBag := by
      split at hbag
      · cases hbag
      · exact (getBagByPos_eq_some.mp hbag).2.1
    split at hi
    · rw [lying_setItem] at hi
      split at hi
      · cases inside with
        | none =>
          obtain rfl := Option.some.inj hi
          exact Or.inl ⟨pos.bag, none, pBag.item, by rw [lying, hpBag]; rfl, rfl⟩
        | some j =>
          have hwritten : Function.update pBag.bagslot pos.slot
              (some { o.item with owner := pBag.item.owner }) j = some i := hi
          by_cases hj : j = pos.slot
          · subst hj
            rw [Function.update_self] at hwritten
            obtain rfl := Option.some.inj hwritten
            exact Or.inr rfl
          · rw [Function.update_of_ne hj] at hwritten
            exact Or.inl ⟨pos.bag, some j, i, by rw [lying, hpBag]; exact hwritten, rfl⟩
      · exact Or.inl ⟨_, _, i, hi, rfl⟩
    · exact Or.inl ⟨_, _, i, hi, rfl⟩

/-- An item is changed but for its guid. -/
theorem Player.Has.of_modifyAt {f : Item → Item} (h : (pl.modifyAt S pos f).Has g)
    (hf : ∀ i, (f i).guid = i.guid) : pl.Has g := by
  obtain ⟨other, inside, i, hi, rfl⟩ := h
  unfold Player.modifyAt at hi
  split at hi
  · rw [lying_setItem] at hi
    split at hi
    · cases hitem : pl.items pos.slot with
      | none =>
        rw [hitem] at hi
        cases inside <;> cases hi
      | some o =>
        rw [hitem] at hi
        cases inside with
        | none =>
          obtain rfl := Option.some.inj hi
          exact ⟨pos.slot, none, o.item, by rw [lying, hitem]; rfl, (hf _).symm⟩
        | some j => exact ⟨pos.slot, some j, i, by rw [lying, hitem]; exact hi, rfl⟩
    · exact ⟨_, _, i, hi, rfl⟩
  · split at hi
    · exact ⟨_, _, i, hi, rfl⟩
    · rename_i pBag hbag
      have hpBag := (getBagByPos_eq_some.mp hbag).2.1
      rw [lying_setItem] at hi
      split at hi
      · cases inside with
        | none =>
          obtain rfl := Option.some.inj hi
          exact ⟨pos.bag, none, pBag.item, by rw [lying, hpBag]; rfl, rfl⟩
        | some j =>
          have hwritten : Function.update pBag.bagslot pos.slot
              ((pBag.bagslot pos.slot).map f) j = some i := hi
          by_cases hj : j = pos.slot
          · subst hj
            rw [Function.update_self] at hwritten
            obtain ⟨i', hi', rfl⟩ := Option.map_eq_some_iff.mp hwritten
            exact ⟨pos.bag, some pos.slot, i', by rw [lying, hpBag]; exact hi', (hf i').symm⟩
          · rw [Function.update_of_ne hj] at hwritten
            exact ⟨pos.bag, some j, i, by rw [lying, hpBag]; exact hwritten, rfl⟩
      · exact ⟨_, _, i, hi, rfl⟩

/-- **One part of a plan** brings the stack itself, or a new object. -/
theorem Player.Has.of_storeItemAt
    (h : (storeItemAt S pos o count clone pl nextGuid).player.Has g)
    (hinside : ∀ j, o.bagslot j = none) : pl.Has g ∨ g = o.item.guid ∨
      g = nextGuid ∧ nextGuid < (storeItemAt S pos o count clone pl nextGuid).nextGuid := by
  unfold storeItemAt at h ⊢
  cases hi : pl.getItemByPos S pos with
  | some i =>
    rw [hi] at h
    exact Or.inl (h.of_modifyAt fun _ => rfl)
  | none =>
    rw [hi] at h
    cases clone with
    | false =>
      exact (h.of_placeAt hinside).imp_right Or.inl
    | true =>
      rw [if_pos rfl] at h ⊢
      cases hclone : cloneItem S nextGuid pl.guid count o with
      | none =>
        rw [hclone] at h
        exact Or.inl h
      | some c =>
        rw [hclone] at h
        obtain ⟨c', hc', rfl⟩ := Option.map_eq_some_iff.mp hclone
        have hcreated : c'.item.guid = nextGuid ∧ ∀ j, c'.bagslot j = none := by
          unfold createItem at hc'
          split at hc'
          · cases hc'
          · obtain ⟨proto, -, rfl⟩ := Option.map_eq_some_iff.mp hc'
            exact ⟨rfl, fun _ => rfl⟩
        refine (h.of_placeAt hcreated.2).imp_right fun heq => Or.inr ⟨heq.trans hcreated.1, ?_⟩
        exact Nat.lt_succ_self nextGuid

theorem nextGuid_le_storeItem : ∀ (dest : ItemPosCountVec) (pl : Player) (nextGuid : ℕ),
    nextGuid ≤ (storeItem S o dest pl nextGuid).nextGuid
  | [], _, nextGuid => Nat.le_refl nextGuid
  | [(_, _)], _, nextGuid => nextGuid_le_storeItemAt (Nat.le_refl nextGuid)
  | (pos, count) :: part :: parts, pl, nextGuid =>
    Nat.le_trans (nextGuid_le_storeItemAt (Nat.le_refl nextGuid))
      (nextGuid_le_storeItem (part :: parts) (storeItemAt S pos o count true pl nextGuid).player
        (storeItemAt S pos o count true pl nextGuid).nextGuid)

/-- **A plan** brings the stack itself and new objects. -/
theorem Player.Has.of_storeItem (hinside : ∀ j, o.bagslot j = none) :
    ∀ {dest : ItemPosCountVec} {pl : Player} {nextGuid : ℕ},
      (storeItem S o dest pl nextGuid).player.Has g → pl.Has g ∨ g = o.item.guid ∨
        nextGuid ≤ g ∧ g < (storeItem S o dest pl nextGuid).nextGuid
  | [], _, _, h => Or.inl h
  | [(_, _)], _, _, h => (h.of_storeItemAt hinside).imp_right
      (Or.imp_right fun ⟨heq, hlt⟩ => ⟨heq.ge, heq ▸ hlt⟩)
  | (pos, count) :: part :: parts, pl, nextGuid, h => by
    have hle : nextGuid ≤ (storeItemAt S pos o count true pl nextGuid).nextGuid :=
      nextGuid_le_storeItemAt (Nat.le_refl _)
    have hmore := @nextGuid_le_storeItem S o (part :: parts)
      (storeItemAt S pos o count true pl nextGuid).player
      (storeItemAt S pos o count true pl nextGuid).nextGuid
    unfold storeItem at h ⊢
    rcases Player.Has.of_storeItem hinside h with hbefore | hself | hnew
    · rcases hbefore.of_storeItemAt hinside with hold | hself | ⟨rfl, hlt⟩
      · exact Or.inl hold
      · exact Or.inr (Or.inl hself)
      · exact Or.inr (Or.inr ⟨Nat.le_refl _, Nat.lt_of_lt_of_le hlt hmore⟩)
    · exact Or.inr (Or.inl hself)
    · exact Or.inr (Or.inr ⟨Nat.le_trans hle hnew.1, hnew.2⟩)

/-! ## 2. Stacks that lie nowhere -/

/-- A stack that was taken out: nothing is inside it, and its guid has been given out. -/
structure ItemOrBag.Loose (o : ItemOrBag) (n : ℕ) : Prop where
  some_units : 1 ≤ o.item.count
  in_range : o.item.count < 4294967296
  nothing_inside : ∀ j, o.bagslot j = none
  known : o.item.guid < n

/-- An object does not lie with a player, whose objects all have guids that have been given out. -/
def Player.Lacks (pl : Player) (g n : ℕ) : Prop := ¬ pl.Has g ∧ ∀ other, pl.Has other → other < n

/-- A slot with space for a stack that lies nowhere takes it as it is. -/
theorem fits_of_hasRoom (hlacks : pl.Lacks o.item.guid n)
    {known : S.itemTemplate o.item.entry = some t} {count_pos : 1 ≤ o.item.count}
    {count_lt : o.item.count < 4294967296}
    (h : (Request.anywhere S pl o t known count_pos count_lt).HasRoom pos count) :
    There S pl pos ∧ Fits S pl t pos count := by
  obtain ⟨room, hspares, hcount, hle⟩ := h
  have hleft : (Request.anywhere S pl o t known count_pos count_lt).leftAt pos =
      pl.getItemByPos S pos := by
    rw [Request.leftAt_eq, if_neg fun hswap => absurd hswap (by simp [Request.swapsAt,
      Request.anywhere])]
    cases hi : pl.getItemByPos S pos with
    | none =>
      have hread : (Request.anywhere S pl o t known count_pos count_lt).itemAt pos = none := hi
      rw [hread]
      rfl
    | some i =>
      have hread : (Request.anywhere S pl o t known count_pos count_lt).itemAt pos = some i := hi
      rw [hread]
      refine Option.filter_eq_some_iff.mpr ⟨rfl, ?_⟩
      have hne : o.item.guid ≠ i.guid := fun heq => hlacks.1 (heq ▸ Player.has_of_item hi)
      simp [isSkipped, Request.anywhere, hne]
  refine ⟨hspares.there, hcount, ?_, ?_⟩
  · rcases hspares.cases with ⟨hat, -, hroom⟩ | ⟨i, hat, hmerge, hroom⟩
    · rw [hleft] at hat
      rw [held_of_none hat, Nat.zero_add]
      exact hroom ▸ hle
    · rw [hleft] at hat
      rw [held_of_some hat]
      have hfull := (Request.merges hmerge).2
      have hmax : (Request.anywhere S pl o t known count_pos count_lt).proto = t := rfl
      rw [hmax] at hroom hfull
      omega
  · intro i hi
    rcases hspares.cases with ⟨hat, -, -⟩ | ⟨j, hat, hmerge, -⟩
    · rw [hleft, hi] at hat
      cases hat
    · rw [hleft, hi] at hat
      cases hat
      exact (Request.merges hmerge).1

/-- A slot that is there can be stored in. -/
theorem There.storable (h : There S pl pos) (hlacks : pl.Lacks g n)
    (hfits : Fits S pl t pos count) : Storable S pl g n (pos, count) := by
  have hmax := t.getMaxStackSize_le
  have hroom := hfits.room
  have hheld : held S pl pos + count < 4294967296 := by omega
  refine ⟨?_, hfits.some_units, hheld⟩
  refine h.imp_right ?_
  rintro ⟨b, hb, hslot⟩
  have hhas := Player.has_of_bag hb
  exact ⟨b, hb, hslot, fun heq => hlacks.1 (heq ▸ hhas), hlacks.2 _ hhas⟩

/-- A plan that `CanStoreItem` makes for a stack that lies nowhere. -/
theorem canStoreStack_there (hlacks : pl.Lacks o.item.guid n) (hloose : o.Loose n)
    {begun : ItemPosCountVec} (hbegun : (begun.map Prod.fst).Nodup) :
    ∃ new, Added S pl o begun new (canStoreStack S pl nullBag nullSlot begun (some o) false) ∧
      ∀ p ∈ new, ∃ t, S.itemTemplate o.item.entry = some t ∧ There S pl p.1 ∧
        Fits S pl t p.1 p.2 := by
  obtain ⟨new, hadded⟩ := canStoreStack_spec S pl hloose.some_units hloose.in_range hbegun
  refine ⟨new, hadded, fun p hp => ?_⟩
  obtain ⟨t, ht, hpos, hlt, hroom⟩ := hadded.room p hp
  exact ⟨t, ht, fits_of_hasRoom hlacks hroom⟩

/-- A good plan, of which every part has room for the item. -/
theorem canStoreStack_fits (hlacks : pl.Lacks o.item.guid n) (hloose : o.Loose n)
    {begun : ItemPosCountVec} (hbegun : (begun.map Prod.fst).Nodup)
    (hok : (canStoreStack S pl nullBag nullSlot begun (some o) false).result = .ok) :
    ∃ t new, S.itemTemplate o.item.entry = some t ∧
      Added S pl o begun new (canStoreStack S pl nullBag nullSlot begun (some o) false) ∧
      ∀ p ∈ new, There S pl p.1 ∧ Fits S pl t p.1 p.2 := by
  obtain ⟨new, hadded, hthere⟩ := @canStoreStack_there S pl o n hlacks hloose begun hbegun
  have htotal := hadded.total hok
  cases new with
  | nil =>
    have hsome := hloose.some_units
    rw [← htotal] at hsome
    exact absurd hsome (by decide)
  | cons p rest =>
    obtain ⟨t, ht, -⟩ := hthere p List.mem_cons_self
    refine ⟨t, p :: rest, ht, hadded, fun q hq => ?_⟩
    obtain ⟨t', ht', hfits⟩ := hthere q hq
    rw [ht] at ht'
    exact Option.some.inj ht' ▸ hfits

/-- **A stack is stored by a plan for it alone**: the player gets its units. -/
theorem units_store (hlacks : pl.Lacks o.item.guid n) (hloose : o.Loose n) (hn : n ≤ nextGuid)
    (hok : (canStoreStack S pl nullBag nullSlot [] (some o) false).result = .ok) :
    (storeItem S o (canStoreStack S pl nullBag nullSlot [] (some o) false).dest pl
      nextGuid).player.units S kinds = pl.units S kinds + weigh kinds (some o.item) := by
  obtain ⟨t, new, ht, hadded, hfits⟩ :=
    @canStoreStack_fits S pl o n hlacks hloose [] List.nodup_nil hok
  have htotal := hadded.total hok
  have hdistinct := hadded.distinct
  rw [hadded.dest, List.nil_append] at hdistinct ⊢
  rw [units_storeItem ht hloose.nothing_inside hn hdistinct
    (fun p hp => (hfits p hp).1.storable hlacks (hfits p hp).2) fun p hp => (hfits p hp).2, htotal]
  rfl

/-- **A stack is stored by a plan that goes on** from one for another: the player gets more. -/
theorem lt_units_store {other : ItemOrBag} (hlacks : pl.Lacks o.item.guid n) (hloose : o.Loose n)
    (hotherLacks : pl.Lacks other.item.guid n) (hotherLoose : other.Loose n) (hn : n ≤ nextGuid)
    {begun : ItemPosCountVec}
    (hbegun : begun = (canStoreStack S pl nullBag nullSlot [] (some other) false).dest)
    (hsome : begun ≠ [])
    (hok : (canStoreStack S pl nullBag nullSlot begun (some o) false).result = .ok) :
    pl.units S (fun _ => true) + o.item.count <
      (storeItem S o (canStoreStack S pl nullBag nullSlot begun (some o) false).dest pl
        nextGuid).player.units S fun _ => true := by
  obtain ⟨first, hfirst, hfirstThere⟩ :=
    @canStoreStack_there S pl other n hotherLacks hotherLoose [] List.nodup_nil
  have hfirstDistinct := hfirst.distinct
  rw [hfirst.dest, List.nil_append] at hbegun hfirstDistinct
  subst hbegun
  obtain ⟨t, new, ht, hadded, hfits⟩ := canStoreStack_fits hlacks hloose hfirstDistinct hok
  have hdistinct := hadded.distinct
  rw [hadded.dest] at hdistinct ⊢
  rw [← hadded.total hok]
  refine lt_units_storeItem ht hloose.nothing_inside hn hdistinct hsome (fun p hp => ?_) fun p hp =>
    (hfits p hp).2
  rcases List.mem_append.mp hp with hold | hnew
  · obtain ⟨_, -, hthere, hroom⟩ := hfirstThere p hold
    exact hthere.storable hlacks hroom
  · obtain ⟨hthere, hroom⟩ := hfits p hnew
    exact hthere.storable hlacks hroom

/-! ## 3. Taking stacks out -/

/-- Something lies at a position, and it is not a bag that is worn. -/
def Unworn (S : Stores) (pl : Player) (pos : Position) : Prop :=
  (pl.getItemByPos S pos).isSome ∧
    (pos.bag = inventorySlotBag0 → pl.getBagByPos S pos.slot = none)

/-- What is removed is removed from its slot, or from the bag it is in. -/
theorem Unworn.removeItem (h : Unworn S pl pos) :
    (pos.bag = inventorySlotBag0 ∧ pl.removeItem S pos = pl.setItem pos.slot none) ∨
      ∃ b, pl.getBagByPos S pos.bag = some b ∧ pos.slot < b.getBagSize S ∧
        pl.removeItem S pos = pl.setItem pos.bag (some { b with
          bagslot := Function.update b.bagslot pos.slot none }) := by
  unfold Player.removeItem
  rw [if_pos h.1]
  by_cases hbag : pos.bag = inventorySlotBag0
  · rw [if_pos hbag]
    exact Or.inl ⟨hbag, rfl⟩
  · rw [if_neg hbag]
    obtain ⟨hbag', -⟩ | ⟨b, hb, hslot⟩ := Player.there_of_item h.1
    · exact absurd hbag' hbag
    · refine Or.inr ⟨b, hb, hslot, ?_⟩
      rw [hb]

/-- No bag comes to be worn. -/
theorem Unworn.bag_removeItem (h : Unworn S pl pos) {bag : ℕ} (hb : pl.getBagByPos S bag = none) :
    (pl.removeItem S pos).getBagByPos S bag = none := by
  rcases h.removeItem with ⟨-, heq⟩ | ⟨b, hbag, -, heq⟩
  · rw [heq]
    by_cases hslot : bag = pos.slot
    · unfold Player.getBagByPos Player.setItem
      rw [hslot]
      simp
    · rw [Player.getBagByPos_setItem_ne hslot, hb]
  · have hne : bag ≠ pos.bag := by
      rintro rfl
      rw [hb] at hbag
      cases hbag
    rw [heq, Player.getBagByPos_setItem_ne hne, hb]

/-- No other slot changes. -/
theorem Unworn.others (h : Unworn S pl pos) : KeepsOthers S pl (pl.removeItem S pos) pos := by
  intro q hq
  by_cases hin : pos.bag = inventorySlotBag0 → isOwnSlot pos.slot → q.bag ≠ pos.slot
  · exact Player.getItemByPos_removeItem_ne hq hin
  · -- a position in a slot that holds no bag is empty before and after
    push Not at hin
    obtain ⟨hbag, hown, hslot⟩ := hin
    have hnone := h.2 hbag
    have hbefore : pl.getBagByPos S q.bag = none := by rw [hslot, hnone]
    have hafter := h.bag_removeItem hbefore
    have hne : q.bag ≠ inventorySlotBag0 := by
      intro hbag0
      have hlt := isOwnSlot_lt hown
      rw [← hslot, hbag0] at hlt
      exact absurd hlt (by decide)
    unfold Player.getItemByPos
    rw [if_neg fun hself => hne hself.1, if_neg fun hself => hne hself.1, hbefore, hafter]

theorem Unworn.keeps (h : Unworn S pl q) (hpos : Unworn S pl pos) (hne : q ≠ pos) :
    Unworn S (pl.removeItem S pos) q :=
  ⟨by rw [hpos.others q hne]; exact h.1, fun hbag => hpos.bag_removeItem (h.2 hbag)⟩

/-- **The units that are taken out.** -/
theorem Unworn.units (h : Unworn S pl pos) (kinds : ℕ → Bool) :
    (pl.removeItem S pos).units S kinds + weigh kinds (pl.getItemByPos S pos) =
      pl.units S kinds := by
  have hthere : There S pl pos := Player.there_of_item h.1
  have hchange :=
    @Player.units_change S pl (pl.removeItem S pos) pos kinds hthere.mem_places h.others
  have hempty : weigh kinds none = 0 := rfl
  rw [Player.getItemByPos_removeItem_same, hempty, Nat.add_zero] at hchange
  exact hchange

/-- What lies somewhere then lay there before, and was not taken out. -/
theorem Unworn.lying (h : Unworn S pl pos) {inside : Option ℕ}
    (hi : (pl.removeItem S pos).lying slot inside = some i) :
    pl.lying slot inside = some i ∧ pos.place ≠ (slot, inside) := by
  rcases h.removeItem with ⟨hbag, heq⟩ | ⟨b, hb, -, heq⟩
  · rw [heq, Player.lying_setItem] at hi
    split at hi
    · cases inside <;> cases hi
    · rename_i hne
      refine ⟨hi, fun hplace => hne ?_⟩
      unfold Position.place at hplace
      rw [if_pos hbag] at hplace
      exact (congrArg Prod.fst hplace).symm
  · have hitems := (Player.getBagByPos_eq_some.mp hb).2.1
    have hplace : pos.place = (pos.bag, some pos.slot) := if_neg (Player.bag_ne_of_getBagByPos hb)
    rw [heq, Player.lying_setItem] at hi
    rw [hplace]
    split at hi
    · rename_i hslot
      subst hslot
      cases inside with
      | none =>
        obtain rfl := Option.some.inj hi
        refine ⟨?_, fun hplace => Option.some_ne_none _ (congrArg Prod.snd hplace)⟩
        unfold Player.lying
        rw [hitems]
        rfl
      | some j =>
        have hread : Function.update b.bagslot pos.slot none j = some i := hi
        by_cases hj : j = pos.slot
        · rw [hj, Function.update_self] at hread
          cases hread
        · rw [Function.update_of_ne hj] at hread
          refine ⟨?_, fun hplace => hj (Option.some.inj (congrArg Prod.snd hplace)).symm⟩
          unfold Player.lying
          rw [hitems]
          exact hread
    · rename_i hne
      exact ⟨hi, fun hplace => hne (congrArg Prod.fst hplace).symm⟩

/-- What lies at some positions is taken out. -/
def Player.takeOut (S : Stores) (pl : Player) (positions : List Position) : Player :=
  positions.foldl (fun pl pos => pl.removeItem S pos) pl

theorem Player.takeOut_cons (pl : Player) (pos : Position) (rest : List Position) :
    pl.takeOut S (pos :: rest) = (pl.removeItem S pos).takeOut S rest := rfl

/-- **Taking out several**: their units go, and what is left lies where it lay. -/
theorem Player.takeOut_spec : ∀ {positions : List Position} {pl : Player}, positions.Nodup →
    (∀ pos ∈ positions, Unworn S pl pos) →
    (∀ kinds, (pl.takeOut S positions).units S kinds +
      (positions.map fun pos => weigh kinds (pl.getItemByPos S pos)).sum = pl.units S kinds) ∧
    ∀ {slot inside i}, (pl.takeOut S positions).lying slot inside = some i →
      pl.lying slot inside = some i ∧ ∀ pos ∈ positions, pos.place ≠ (slot, inside)
  | [], _, _, _ =>
    ⟨fun _ => Nat.add_zero _, fun hi => ⟨hi, fun _ hpos => absurd hpos List.not_mem_nil⟩⟩
  | pos :: rest, pl, hnodup, hunworn => by
    obtain ⟨hnew, hnodup⟩ := List.nodup_cons.mp hnodup
    have hpos := hunworn pos List.mem_cons_self
    have hne : ∀ q ∈ rest, q ≠ pos := fun q hq heq => hnew (heq ▸ hq)
    obtain ⟨hunits, hlying⟩ := Player.takeOut_spec hnodup fun q hq =>
      (hunworn q (List.mem_cons_of_mem _ hq)).keeps hpos (hne q hq)
    refine ⟨fun kinds => ?_, fun hi => ?_⟩
    · have hsame : (rest.map fun q => weigh kinds ((pl.removeItem S pos).getItemByPos S q)) =
          rest.map fun q => weigh kinds (pl.getItemByPos S q) :=
        List.map_congr_left fun q hq => by rw [hpos.others q (hne q hq)]
      have hrest := hunits kinds
      have hone := hpos.units kinds
      rw [hsame] at hrest
      rw [Player.takeOut_cons, List.map_cons, List.sum_cons]
      omega
    · obtain ⟨hbefore, hplaces⟩ := hlying hi
      obtain ⟨hbefore, hplace⟩ := hpos.lying hbefore
      exact ⟨hbefore, fun q hq => (List.mem_cons.mp hq).elim (fun heq => heq ▸ hplace) (hplaces q)⟩

/-! ## 4. Objects by their guid -/

/-- The slots in the order of `Player::GetItemByGuid`. -/
def lookupPositions : List Position :=
  ownPositions (carriedSlots ++ ringAndCurrencySlots ++ (bankSlots ++ bankBagSlots)) ++
    (bagSlots ++ bankBagSlots).flatMap fun bag => (List.range 36).map (⟨bag, ·⟩)

/-- `GetItemByGuid`: the position of the item. -/
def Player.getItemByGuid (S : Stores) (pl : Player) (guid : ℕ) : Option Position :=
  lookupPositions.find? fun pos => (pl.getItemByPos S pos).any (·.guid = guid)

/-- The item at a position, with what is inside it. -/
def Player.objectAt (S : Stores) (pl : Player) (pos : Position) : Option ItemOrBag :=
  if pos.bag = inventorySlotBag0 ∧ isOwnSlot pos.slot then pl.items pos.slot
  else (pl.getItemByPos S pos).map fun i => ⟨i, fun _ => none⟩

/-- `Item::CanBeTraded(false, trade)`; `mayLeave`: the owner can unequip the item and is not looting
it, and no enchantment binds it. -/
def canBeTraded (S : Stores) (mayLeave : Item → Bool) (trade : Bool) (pos : Position)
    (o : ItemOrBag) : Bool :=
  ¬ o.item.lootGenerated ∧ ¬ (o.item.soulBound ∧ (¬ o.item.bopTradeable ∨ ¬ trade)) ∧
    ¬ (o.item.isBag S ∧ (isBagPos pos ∨ ¬ o.isEmpty S)) ∧ mayLeave o.item

theorem Player.getItemByGuid_spec (h : pl.getItemByGuid S g = some pos) :
    ∃ i, pl.getItemByPos S pos = some i ∧ i.guid = g := by
  have hfound := List.find?_some h
  obtain ⟨i, hi, heq⟩ := (Option.any_eq_true _ _).mp hfound
  exact ⟨i, hi, of_decide_eq_true heq⟩

theorem Player.objectAt_spec (hi : pl.getItemByPos S pos = some i) :
    ∃ o, pl.objectAt S pos = some o ∧ o.item = i ∧
      ∀ j, o.bagslot j ≠ none → ∃ slot, pl.items slot = some o := by
  unfold objectAt
  by_cases hown : pos.bag = inventorySlotBag0 ∧ isOwnSlot pos.slot
  · rw [if_pos hown]
    unfold getItemByPos at hi
    rw [if_pos hown] at hi
    obtain ⟨o, ho, hitem⟩ := Option.map_eq_some_iff.mp hi
    exact ⟨o, ho, hitem, fun _ _ => ⟨pos.slot, ho⟩⟩
  · rw [if_neg hown, hi]
    exact ⟨_, rfl, rfl, fun _ hne => absurd rfl hne⟩

/-- Nothing is inside anything but a bag. -/
def Player.OnlyBagsHold (S : Stores) (pl : Player) : Prop :=
  ∀ {slot o j}, pl.items slot = some o → o.bagslot j ≠ none →
    o.item.isBag S ∧ j < o.getBagSize S

/-- **An item that can be traded** is not a bag that is worn, and has nothing inside. -/
theorem unworn_of_canBeTraded {mayLeave : Item → Bool} {trade : Bool}
    (hi : pl.getItemByPos S pos = some o.item) (ho : pl.objectAt S pos = some o)
    (h : canBeTraded S mayLeave trade pos o) :
    Unworn S pl pos ∧ (pl.OnlyBagsHold S → ∀ j, o.bagslot j = none) := by
  unfold canBeTraded at h
  simp only [decide_eq_true_eq] at h
  have hbag := h.2.2.1
  refine ⟨⟨by rw [hi]; rfl, fun hbag0 => ?_⟩, fun honly j => ?_⟩
  · rw [Option.eq_none_iff_forall_ne_some]
    intro b hb
    obtain ⟨hbagSlot, hitems, hisBag⟩ := Player.getBagByPos_eq_some.mp hb
    have hown : pos.bag = inventorySlotBag0 ∧ isOwnSlot pos.slot := by
      refine ⟨hbag0, ?_⟩
      have hlt := Player.isBagSlot_lt hbagSlot
      unfold isOwnSlot
      simp only [decide_eq_true_eq]
      omega
    unfold Player.getItemByPos at hi
    rw [if_pos hown, hitems] at hi
    have hsame : b.item = o.item := Option.some.inj hi
    exact hbag ⟨hsame ▸ hisBag, Or.inl (decide_eq_true ⟨hbag0, hbagSlot⟩)⟩
  · by_contra hne
    obtain ⟨o', ho', -, hinside⟩ := Player.objectAt_spec hi
    rw [ho] at ho'
    obtain rfl := Option.some.inj ho'
    obtain ⟨slot, hitems⟩ := hinside j hne
    obtain ⟨hisBag, hsize⟩ := honly hitems hne
    refine hbag ⟨hisBag, Or.inr fun hempty => hne ?_⟩
    exact of_decide_eq_true (List.all_eq_true.mp hempty j (List.mem_range.mpr hsize))

end HungerGames.Inventory
