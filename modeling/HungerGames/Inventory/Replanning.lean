/-
# Planning with positions that are planned already

`CanStoreItem` appends to the `dest` it is given.  What is in it already is passed over, and stays
in front: `canStoreStack_spec` says so for a stack that may go anywhere, in every answer, and that
the new parts have room and make up the stack when the answer is good.
-/
import HungerGames.Inventory.Planning

namespace HungerGames.Inventory

open HungerGames.System

/-! ## 1. Requests for any place -/

/-- A call of `CanStoreItem` for a stack, with `NULL_BAG` and `NULL_SLOT`. -/
def Request.anywhere (S : Stores) (pl : Player) (o : ItemOrBag) (t : ItemTemplate)
    (known : S.itemTemplate o.item.entry = some t) (count_pos : 1 ≤ o.item.count)
    (count_lt : o.item.count < 4294967296) : Request where
  stores := S
  player := pl
  proto := t
  item := some o
  bag := nullBag
  slot := nullSlot
  swap := false
  count := o.item.count
  known := (S.itemTemplate_id known).symm ▸ known
  count_pos := count_pos
  count_lt := count_lt
  same := fun _ ho => Option.mem_some.mp ho ▸ (S.itemTemplate_id known).symm

namespace Request

variable {r : Request} {begun : ItemPosCountVec} {total noSimilar : ℕ} {plan : Plan}

/-- A slot has the space for a part of the plan. -/
def HasRoom (r : Request) (pos : Position) (n : ℕ) : Prop :=
  ∃ room, r.Spares pos room ∧ 0 < n ∧ n ≤ room

/-- A plan that goes on from one that was begun, with units that are left. -/
def GoesOn (r : Request) (begun : ItemPosCountVec) (total : ℕ) (plan : Plan) : Prop :=
  Filling.GoesOn begun r.HasRoom total plan ∧ 0 < plan.left

/-- What an answer adds to the plan that was begun. -/
structure Continues (r : Request) (begun : ItemPosCountVec) (total noSimilar : ℕ)
    (a : StoreAnswer) : Prop where
  distinct : (a.dest.map Prod.fst).Nodup
  more : ∃ new, a.dest = begun ++ new ∧ (∀ p ∈ new, r.HasRoom p.1 p.2) ∧
    (a.result = .ok → noSimilar = 0 ∧ (new.map Prod.snd).sum = total)

theorem continues_failed {res : InventoryResult} {noSpaceCount : Option ℕ}
    (h : Filling.GoesOn begun r.HasRoom total plan) (hres : res ≠ .ok) :
    r.Continues begun total noSimilar ⟨res, plan.placed, noSpaceCount⟩ := by
  obtain ⟨new, hplaced, hroom, -⟩ := h.more
  exact ⟨h.distinct, new, hplaced, hroom, fun hok => absurd hok hres⟩

/-! ## 2. The passes -/

theorem continues_finished (h : Filling.GoesOn begun r.HasRoom total plan) :
    Ensures (r.Continues begun total noSimilar) (r.GoesOn begun total)
      (finished noSimilar plan) := by
  refine Ensures.ite (fun hleft => ?_) fun hleft =>
    Ensures.pure ⟨h, Nat.pos_of_ne_zero hleft⟩
  refine Ensures.ite (fun hnone => Ensures.throw ?_) fun _ => Ensures.throw ?_
  · obtain ⟨new, hplaced, hroom, htotal⟩ := h.more
    exact ⟨h.distinct, new, hplaced, hroom, fun _ => ⟨hnone, by omega⟩⟩
  · exact continues_failed h fun hc => InventoryResult.noConfusion hc

/-- What a pass leaves: units are left when it has failed. -/
structure Leaves (r : Request) (begun : ItemPosCountVec) (total : ℕ)
    (pass : InventoryResult × Plan) : Prop where
  goesOn : Filling.GoesOn begun r.HasRoom total pass.2
  failed : pass.1 ≠ .ok → 0 < pass.2.left

theorem continues_attempt {pass : InventoryResult × Plan} (h : r.Leaves begun total pass) :
    Ensures (r.Continues begun total noSimilar) (r.GoesOn begun total)
      (attempt noSimilar pass) := by
  refine Ensures.ite (fun hfailed => Ensures.throw ?_) fun _ => continues_finished h.goesOn
  exact continues_failed h.goesOn hfailed

theorem continues_attemptBag {pass : InventoryResult × Plan} (h : r.Leaves begun total pass) :
    Ensures (r.Continues begun total noSimilar) (r.GoesOn begun total)
      (attemptBag noSimilar pass) := by
  refine Ensures.ite (fun hfailed => Ensures.pure ⟨h.goesOn, h.failed hfailed⟩) fun _ => ?_
  exact continues_finished h.goesOn

variable {merge : Bool}

section

variable (h : r.GoesOn begun total plan)
include h

/-- A walk over slots of which each has the space. -/
theorem goesOn_pour {skip : Position → Bool} {places : List Position}
    (hplaces : ∀ pos ∈ places, ∀ room,
      roomAt r.stores r.player r.proto merge r.item skip pos = some room → r.Spares pos room) :
    Filling.GoesOn begun r.HasRoom total
      (plan.pour (roomAt r.stores r.player r.proto merge r.item skip) places) :=
  h.1.pour places h.2 fun pos hpos room hroom =>
    have hspares := hplaces pos hpos room hroom
    ⟨hspares.pos, fun _ hn hle => ⟨room, hspares, hn, hle⟩⟩

theorem leaves_slots {slots : List ℕ} (hopen : r.Open slots merge) :
    r.Leaves begun total (canStoreItem_InInventorySlots r.stores r.player slots plan r.proto merge
      r.item r.bag r.slot) := by
  unfold canStoreItem_InInventorySlots
  by_cases hfull : r.item.any (·.isNotEmptyBag r.stores)
  · rw [if_pos hfull]
    exact ⟨h.1, fun _ => h.2⟩
  rw [if_neg hfull]
  refine ⟨goesOn_pour h fun pos hpos room hroom => ?_, fun hne => absurd rfl hne⟩
  obtain ⟨slot, hslot, rfl⟩ := List.mem_map.mp hpos
  refine spares_of_roomAt hroom (fun hskip heq => hskip ?_) hfull fun hmerge =>
    fitsSlot_own (hopen hmerge slot hslot ?_) _ _
  · exact decide_eq_true (Position.mk.inj heq)
  · unfold roomOwn
    rw [← hmerge, hroom]
    exact Option.some_ne_none room

theorem leaves_bag {bag skipBag : ℕ} {nonSpecialized : Bool} :
    r.Leaves begun total (canStoreItem_InBag r.stores r.player bag plan r.proto merge nonSpecialized
      r.item skipBag r.slot) := by
  have hfailed : ∀ res, r.Leaves begun total (res, plan) := fun res => ⟨h.1, fun _ => h.2⟩
  unfold canStoreItem_InBag
  by_cases hskip : bag = skipBag
  · rw [if_pos hskip]
    exact hfailed _
  rw [if_neg hskip]
  cases hb : r.player.getBagByPos r.stores bag with
  | none => exact hfailed _
  | some b =>
  dsimp only
  by_cases hitself : isSkipped r.item b.item
  · rw [if_pos hitself]
    exact hfailed _
  rw [if_neg hitself]
  by_cases hfull : r.item.any (·.isNotEmptyBag r.stores)
  · rw [if_pos hfull]
    exact hfailed _
  rw [if_neg hfull]
  cases ht : r.stores.itemTemplate b.item.entry with
  | none => exact hfailed _
  | some t =>
  dsimp only
  by_cases hplain : nonSpecialized ≠ t.isPlainBag
  · rw [if_pos hplain]
    exact hfailed _
  rw [if_neg hplain]
  by_cases hgoes : itemCanGoIntoBag r.proto t
  · rw [if_neg (by simpa using hgoes)]
    refine ⟨goesOn_pour h fun pos hpos room hroom => ?_, fun hne => absurd rfl hne⟩
    obtain ⟨slot, hslot, rfl⟩ := List.mem_map.mp hpos
    refine spares_of_roomAt hroom (fun hnot heq => hnot ?_) hfull fun _ =>
      fitsSlot_bag hb ht hslot hgoes
    exact decide_eq_true (Position.mk.inj heq).2
  · rw [if_pos (by simpa using hgoes)]
    exact hfailed _

theorem continues_slots {slots : List ℕ} (hopen : r.Open slots merge) :
    Ensures (r.Continues begun total noSimilar) (r.GoesOn begun total)
      (passSlots r.stores r.player r.proto r.item r.bag r.slot noSimilar slots merge plan) :=
  continues_attempt (leaves_slots h hopen)

theorem continues_bags {nonSpecialized : Bool} :
    Ensures (r.Continues begun total noSimilar) (r.GoesOn begun total)
      (passBags r.stores r.player r.proto r.item r.bag r.slot noSimilar merge nonSpecialized
        plan) := by
  exact Ensures.foldlM bagSlots h fun _ _ _ h => continues_attemptBag (leaves_bag h)

end

/-! ## 3. The planner -/

theorem continues_mergeAnywhere (h : r.GoesOn begun total plan) :
    Ensures (r.Continues begun total noSimilar) (r.GoesOn begun total)
      (mergeAnywhere r.stores r.player r.proto r.item r.bag r.slot noSimilar plan) := by
  refine Ensures.ite (fun _ => Ensures.pure h) fun _ => ?_
  refine (continues_slots h open_merge).bind fun ring hring => ?_
  refine (continues_slots hring open_merge).bind fun pack hpack => ?_
  refine Ensures.ite (fun _ => ?_) fun _ => continues_bags hpack
  exact (continues_bags hpack).bind fun special hspecial => continues_bags hspecial

theorem continues_freeSpecial (h : r.GoesOn begun total plan) :
    Ensures (r.Continues begun total noSimilar) (r.GoesOn begun total)
      (freeSpecial r.stores r.player r.proto r.item r.bag r.slot noSimilar plan) := by
  refine Ensures.ite (fun _ => ?_) fun _ => Ensures.pure h
  refine Ensures.ite (fun hkey => ?_) fun _ => Ensures.ite (fun hcurrency => ?_) fun _ => ?_
  · exact (continues_slots h (open_keyring hkey)).bind fun _ hring => continues_bags hring
  · exact (continues_slots h (open_currency hcurrency)).bind fun _ hring => continues_bags hring
  · exact continues_bags h

theorem continues_freeAnywhere (h : r.GoesOn begun total plan) :
    Ensures (r.Continues begun total noSimilar) (r.GoesOn begun total)
      (freeAnywhere r.stores r.player r.proto r.item r.bag r.slot noSimilar plan) := by
  refine Ensures.ite (fun _ => Ensures.throw ?_) fun _ => ?_
  · exact continues_failed h.1 fun hc => InventoryResult.noConfusion hc
  · exact (continues_slots h open_pack).bind fun _ hpack => continues_bags hpack

/-- **The whole planner**, where no place is given. -/
theorem continues_planItem (hbag : r.bag = nullBag) (h : r.GoesOn begun total plan) :
    Ensures (r.Continues begun total noSimilar) (r.GoesOn begun total)
      (planItem r.stores r.player r.proto r.item r.bag r.slot noSimilar r.swap plan) := by
  have hslot : inGivenSlot r.stores r.player r.proto r.item r.bag r.slot noSimilar r.swap plan =
      .ok plan := if_neg fun hgiven => hgiven.1 hbag
  have hinBag : inGivenBag r.stores r.player r.proto r.item r.bag r.slot noSimilar plan =
      .ok plan := if_neg fun hgiven => hgiven hbag
  unfold planItem
  rw [hslot]
  change Ensures _ _ (inGivenBag r.stores r.player r.proto r.item r.bag r.slot noSimilar plan >>= _)
  rw [hinBag]
  refine (continues_mergeAnywhere h).bind fun merged hmerged => ?_
  refine (continues_freeSpecial hmerged).bind fun special hspecial => ?_
  exact continues_freeAnywhere hspecial

theorem continues_fullOr {x : Except StoreAnswer Plan}
    (h : Ensures (r.Continues begun total noSimilar) (r.GoesOn begun total) x) :
    r.Continues begun total noSimilar (fullOr noSimilar x) := by
  cases x with
  | error answer => exact h
  | ok plan => exact continues_failed h.1 fun hc => InventoryResult.noConfusion hc

end Request

/-! ## 4. The answer -/

/-- A limit that stops a request says how many units are too many. -/
theorem noSpaceCount_bounds {S : Stores} {pl : Player} {entry count : ℕ}
    {pItem : Option ItemOrBag} (hcount : 0 < count) (hlt : count < 4294967296)
    (hlooted : ¬ pItem.any (·.item.lootGenerated))
    (hres : (canTakeMoreSimilarItems S pl entry count pItem).result ≠ .ok) :
    0 < (canTakeMoreSimilarItems S pl entry count pItem).noSpaceCount ∧
      (canTakeMoreSimilarItems S pl entry count pItem).noSpaceCount < 4294967296 := by
  have hover : ∀ {curcount m : ℕ}, m < add32 curcount count →
      0 < sub32 (add32 count curcount) m ∧ sub32 (add32 count curcount) m < 4294967296 := by
    intro curcount m hm
    unfold sub32 add32 at *
    split <;> omega
  unfold canTakeMoreSimilarItems at hres ⊢
  cases ht : S.itemTemplate entry with
  | none => exact ⟨hcount, hlt⟩
  | some t =>
    rw [ht] at hres
    dsimp only at hres ⊢
    rw [if_neg hlooted] at hres ⊢
    split at hres
    · exact absurd rfl hres
    rename_i hfree
    rw [if_neg hfree]
    split at hres
    · rename_i hstops
      rw [if_pos hstops]
      exact hover hstops.2
    rename_i hstops
    rw [if_neg hstops]
    unfold canTakeMoreOfCategory at hres ⊢
    split at hres
    · exact absurd rfl hres
    rename_i hcategory
    rw [if_neg hcategory]
    cases hentry : S.itemLimitCategory t.itemLimitCategory with
    | none => exact ⟨hcount, hlt⟩
    | some limitEntry =>
      rw [hentry] at hres
      dsimp only at hres ⊢
      split at hres
      · rename_i hmode
        rw [if_pos hmode]
        exact hover hmode.2
      · exact absurd rfl hres

/-- **What `CanStoreItem` adds to a plan** for a stack that may go anywhere.  Its template is known
if it adds anything. -/
structure Added (S : Stores) (pl : Player) (o : ItemOrBag) (begun new : ItemPosCountVec)
    (a : StoreAnswer) : Prop where
  dest : a.dest = begun ++ new
  distinct : (a.dest.map Prod.fst).Nodup
  room : ∀ p ∈ new, ∃ t known count_pos count_lt,
    (Request.anywhere S pl o t known count_pos count_lt).HasRoom p.1 p.2
  total : a.result = .ok → (new.map Prod.snd).sum = o.item.count

theorem canStoreStack_spec (S : Stores) (pl : Player) {o : ItemOrBag} {begun : ItemPosCountVec}
    (hpos : 1 ≤ o.item.count) (hlt : o.item.count < 4294967296)
    (hbegun : (begun.map Prod.fst).Nodup) :
    ∃ new, Added S pl o begun new (canStoreStack S pl nullBag nullSlot begun (some o) false) := by
  have hrefused : ∀ res noSpaceCount, res ≠ .ok → ∃ new, Added S pl o begun new
      ⟨res, begun, noSpaceCount⟩ := fun res noSpaceCount hres =>
    ⟨[], (List.append_nil begun).symm, hbegun, nofun, fun hok => absurd hok hres⟩
  unfold canStoreStack
  dsimp only
  unfold canStoreItem
  cases ht : S.itemTemplate o.item.entry with
  | none => exact hrefused _ _ fun hc => InventoryResult.noConfusion hc
  | some t =>
    dsimp only
    split
    · exact hrefused _ _ fun hc => InventoryResult.noConfusion hc
    rename_i hlooted
    split
    · exact hrefused _ _ fun hc => InventoryResult.noConfusion hc
    split
    · rename_i hnothing
      exact hrefused _ _ hnothing.1
    rename_i hnothing
    have hsimilar := @noSpaceCount_bounds S pl o.item.entry o.item.count (some o) hpos hlt hlooted
    generalize canTakeMoreSimilarItems S pl o.item.entry o.item.count (some o) = similar
      at hsimilar hnothing ⊢
    generalize hleft : (if similar.result ≠ .ok then sub32 o.item.count similar.noSpaceCount
      else o.item.count) = left
    have hleftPos : 0 < left := by
      rw [← hleft]
      split
      · rename_i hres
        have hne : o.item.count ≠ similar.noSpaceCount := fun heq => hnothing ⟨hres, heq⟩
        have hbounds := hsimilar hres
        unfold sub32
        split <;> omega
      · exact hpos
    have hplan : Ensures
        ((Request.anywhere S pl o t ht hpos hlt).Continues begun left similar.noSpaceCount)
        ((Request.anywhere S pl o t ht hpos hlt).GoesOn begun left)
        (planItem S pl t (some o) nullBag nullSlot similar.noSpaceCount false ⟨begun, left⟩) :=
      Request.continues_planItem rfl ⟨Filling.GoesOn.begin hbegun _ left, hleftPos⟩
    have hanswer := Request.continues_fullOr hplan
    obtain ⟨new, hdest, hroom, hok⟩ := hanswer.more
    refine ⟨new, hdest, hanswer.distinct, fun p hp => ⟨t, ht, hpos, hlt, hroom p hp⟩,
      fun hres => ?_⟩
    obtain ⟨hnone, htotal⟩ := hok hres
    have hfree : similar.result = .ok := by
      by_contra hres
      have hbounds := hsimilar hres
      omega
    rw [htotal, ← hleft, if_neg (not_not_intro hfree)]

end HungerGames.Inventory
