/-
# What is left of loot

There is one delivery for each item that is not free for all and that some player may see, and one
for each entry of a player for an item that is.  Each operation that hands out such an item or
entry leaves one delivery less; the number that is kept is that of the deliveries, in a byte.

It is not so when something else is handed out.  An item that is on the lists of several players is
looted by the entry of one of them, and the others still have theirs; the master looter may give an
item that is looted, or free for all; an item that is free for all is never looted for a player who
has no entry for it.
-/
import HungerGames.Looting.LootMgr
import HungerGames.System.Counting
import HungerGames.System.FirstMatch

namespace HungerGames.Looting

open HungerGames.System

variable {T : Templates} {loot loot' : Loot} {item item' : LootItem} {place other : Place}
variable {lists : QuestItemMap} {guid index entry : ℕ} {player : Player}

/-! ## 1. Deliveries -/

/-- Whether an item without conditions may be seen by some player. -/
def LootItem.forSomeone (T : Templates) (item : LootItem) : Bool :=
  (T item.itemid).any fun proto => ¬ (proto.hordeOnly ∧ proto.allianceOnly)

/-- What does not change of an item when it is looted. -/
def LootItem.shape (item : LootItem) : ℕ × List ℕ × Bool × Bool :=
  (item.itemid, item.conditions, item.freeforall, item.isCounted)

theorem LootItem.shape_inj : item'.shape = item.shape ↔ item'.itemid = item.itemid ∧
    item'.conditions = item.conditions ∧ item'.freeforall = item.freeforall ∧
    item'.isCounted = item.isCounted := by
  simp only [shape, Prod.mk.injEq]

/-- How many entries of the players are as asked. -/
def entriesOf (lists : QuestItemMap) (asked : QuestItem → Bool) : ℕ :=
  (lists.values.map fun list => list.countP asked).sum

/-- Whether an index is on the list of some player. -/
def onList (lists : QuestItemMap) (index : ℕ) : Bool :=
  0 < entriesOf lists fun entry => entry.index = index

namespace Loot

/-- Whether some player may see the item at a place. -/
def mayBeSeen (T : Templates) (loot : Loot) : Place → Bool
  | .item index => (loot.itemAt (.item index)).any fun item =>
    if item.conditions = [] then item.forSomeone T
    else onList loot.playerNonQuestNonFFAConditionalItems index
  | .quest index => onList loot.playerQuestItems index

/-- An item for one player that is not taken. -/
def isLeft (T : Templates) (loot : Loot) (place : Place) : Bool :=
  (loot.itemAt place).any fun item =>
    item.freeforall = false ∧ item.isLooted = false ∧ loot.mayBeSeen T place

def places (loot : Loot) : List Place :=
  (List.range loot.items.length).map .item ++ (List.range loot.questItems.length).map .quest

/-- An entry for an item that is free for all, which is not taken. -/
def entryLeft (loot : Loot) (entry : QuestItem) : Bool :=
  entry.isLooted = false ∧ (loot.itemAt (.quest entry.index)).any LootItem.freeforall

/-- **The deliveries that are still possible.** -/
def deliveries (T : Templates) (loot : Loot) : ℕ :=
  loot.places.countP (loot.isLeft T) +
    entriesOf loot.playerFFAItems (fun entry => entry.isLooted = false) +
    entriesOf loot.playerQuestItems loot.entryLeft

/-- How many entries of a player for an index are looted. -/
def entriesLooted (lists : QuestItemMap) (guid index : ℕ) : ℕ :=
  ((lists.lookup guid).getD []).countP fun entry => entry.index = index ∧ entry.isLooted

/-- The list of a player by which an item at a place is taken when it is free for all. -/
def looterEntries (loot : Loot) (guid : ℕ) : Place → ℕ
  | .item index => entriesLooted loot.playerFFAItems guid index
  | .quest index => entriesLooted loot.playerQuestItems guid index

/-- The lists of players have each index once, and only of places that there are. -/
def Lists (lists : QuestItemMap) (indexes : ℕ → Prop) : Prop :=
  ∀ list ∈ lists.values, (list.map QuestItem.index).Nodup ∧
    ∀ index ∈ list.map QuestItem.index, indexes index

/-- How the lists of the players go with the items. -/
structure Formed (T : Templates) (loot : Loot) : Prop where
  quests : Lists loot.playerQuestItems fun index => (loot.itemAt (.quest index)).isSome = true
  ffas : Lists loot.playerFFAItems fun index =>
    (loot.itemAt (.item index)).any LootItem.freeforall = true
  conditionals : Lists loot.playerNonQuestNonFFAConditionalItems fun index =>
    (loot.itemAt (.item index)).isSome = true
  counted : ∀ index item, loot.itemAt (.item index) = some item → item.freeforall = false →
    item.conditions ≠ [] →
      item.isCounted = onList loot.playerNonQuestNonFFAConditionalItems index
  someone : ∀ index item, loot.itemAt (.item index) = some item → item.freeforall = false →
    item.conditions = [] → item.forSomeone T = true

/-- **What was handed out**: each thing once. -/
structure Once (loot : Loot) : Prop where
  known : ∀ d ∈ loot.delivered, (loot.itemAt d.1).isSome = true
  once : ∀ place item, loot.itemAt place = some item → item.freeforall = false →
    loot.delivered.countP (fun d => d.1 = place) ≤ item.isLooted.toNat
  onceEach : ∀ place item, loot.itemAt place = some item → item.freeforall = true → ∀ guid,
    loot.delivered.count (place, guid) ≤ loot.looterEntries guid place

/-- **The account of loot.** -/
structure Accounted (T : Templates) (loot : Loot) : Prop where
  formed : loot.Formed T
  once : loot.Once
  count : loot.unlootedCount = loot.deliveries T % 2 ^ 8

/-- What taking leaves: the account, and no more deliveries. -/
structure Leaves (T : Templates) (loot loot' : Loot) : Prop where
  accounted : loot'.Accounted T
  fewer : loot'.deliveries T ≤ loot.deliveries T

theorem Accounted.stays (h : loot.Accounted T) : Leaves T loot loot := ⟨h, Nat.le_refl _⟩

theorem Lists.imp {p q : ℕ → Prop} (h : Lists lists p) (himp : ∀ index, p index → q index) :
    Lists lists q :=
  fun list hlist => ⟨(h list hlist).1, fun index hindex => himp _ ((h list hlist).2 index hindex)⟩

variable {extra : List (Place × ℕ)}

/-- **Handing out keeps what was handed out once**, where an item that is handed out is looted by
it, or an entry for it. -/
theorem Once.grows (h : loot.Once) (hdelivered : loot'.delivered = extra ++ loot.delivered)
    (hextra : ∀ d ∈ extra, (loot.itemAt d.1).isSome = true)
    (hsome : ∀ place, (loot.itemAt place).isSome = true → (loot'.itemAt place).isSome = true)
    (hitem : ∀ place item item', loot.itemAt place = some item → loot'.itemAt place = some item' →
      item'.freeforall = item.freeforall ∧ (item.freeforall = false →
        extra.countP (fun d => d.1 = place) + item.isLooted.toNat ≤ item'.isLooted.toNat))
    (hentries : ∀ place item, loot.itemAt place = some item → item.freeforall = true → ∀ guid,
      extra.count (place, guid) + loot.looterEntries guid place ≤
        loot'.looterEntries guid place) : loot'.Once := by
  have hknown : ∀ d ∈ loot'.delivered, (loot.itemAt d.1).isSome = true := by
    intro d hd
    rw [hdelivered] at hd
    exact (List.mem_append.mp hd).elim (hextra d) (h.known d)
  have hnew : ∀ place, loot.itemAt place = none → ∀ d ∈ loot'.delivered, d.1 ≠ place := by
    rintro _ hnone d hd rfl
    have hsome := hknown d hd
    rw [hnone] at hsome
    nomatch hsome
  refine ⟨fun d hd => hsome _ (hknown d hd), fun place item' hat hfree => ?_,
    fun place item' hat hfree guid => ?_⟩
  · cases hold : loot.itemAt place with
    | none =>
      have hzero := List.countP_eq_zero.mpr fun d hd heq =>
        hnew place hold d hd (of_decide_eq_true heq)
      exact Nat.le_trans (Nat.le_of_eq hzero) (Nat.zero_le _)
    | some item =>
      obtain ⟨hsame, hlooted⟩ := hitem place item item' hold hat
      have honce := h.once place item hold (hsame ▸ hfree)
      have hmore := hlooted (hsame ▸ hfree)
      rw [hdelivered, List.countP_append]
      omega
  · cases hold : loot.itemAt place with
    | none =>
      have hzero := List.count_eq_zero.mpr fun hd => hnew place hold (place, guid) hd rfl
      exact Nat.le_trans (Nat.le_of_eq hzero) (Nat.zero_le _)
    | some item =>
      have hfree' := (hitem place item item' hold hat).1 ▸ hfree
      have honce := h.onceEach place item hold hfree' guid
      have hmore := hentries place item hold hfree' guid
      rw [hdelivered, List.count_append]
      omega

/-- What is looted stays so. -/
theorem Once.mono (h : loot.Once) (hdelivered : loot'.delivered = loot.delivered)
    (hsome : ∀ place, (loot.itemAt place).isSome = true → (loot'.itemAt place).isSome = true)
    (hitem : ∀ place item item', loot.itemAt place = some item → loot'.itemAt place = some item' →
      item'.freeforall = item.freeforall ∧ item'.isLooted = item.isLooted)
    (hentries : ∀ guid place, loot.looterEntries guid place ≤ loot'.looterEntries guid place) :
    loot'.Once := by
  refine h.grows (hdelivered.trans (List.nil_append _).symm) nofun hsome
    (fun place item item' hat hat' => ?_) fun place _ _ _ guid => ?_
  · obtain ⟨hfree, hlooted⟩ := hitem place item item' hat hat'
    rw [hlooted, List.countP_nil, Nat.zero_add]
    exact ⟨hfree, fun _ => Nat.le_refl _⟩
  · rw [List.count_nil, Nat.zero_add]
    exact hentries guid place

/-! ## 2. Places -/

theorem mem_places : place ∈ loot.places ↔ (loot.itemAt place).isSome = true := by
  unfold places
  rw [List.mem_append, List.mem_map, List.mem_map]
  cases place with
  | item index =>
    change _ ↔ (loot.items[index]?).isSome = true
    simp
  | quest index =>
    change _ ↔ (loot.questItems[index]?).isSome = true
    simp

theorem nodup_places (loot : Loot) : loot.places.Nodup := by
  refine List.nodup_append.mpr ⟨?_, ?_, ?_⟩
  · exact List.nodup_range.map fun _ _ h => Place.item.inj h
  · exact List.nodup_range.map fun _ _ h => Place.quest.inj h
  · intro a ha b hb heq
    obtain ⟨_, -, rfl⟩ := List.mem_map.mp ha
    obtain ⟨_, -, rfl⟩ := List.mem_map.mp hb
    nomatch heq

theorem getElem?_modify_map {α : Type} (xs : List α) (i j : ℕ) (f : α → α) :
    (xs.modify i f)[j]? = if j = i then (xs[j]?).map f else xs[j]? := by
  rw [List.getElem?_modify]
  by_cases h : i = j
  · rw [if_pos h.symm]
    simp [h]
  · rw [if_neg (Ne.symm h)]
    simp [h]

theorem itemAt_modifyAt (loot : Loot) (place other : Place) (f : LootItem → LootItem) :
    (loot.modifyAt place f).itemAt other =
      if other = place then (loot.itemAt other).map f else loot.itemAt other := by
  cases place with
  | item index =>
    cases other with
    | item other =>
      exact (getElem?_modify_map loot.items index other f).trans
        (if_congr ⟨congrArg Place.item, Place.item.inj⟩ rfl rfl)
    | quest other => exact (if_neg fun h => nomatch h).symm
  | quest index =>
    cases other with
    | item other => exact (if_neg fun h => nomatch h).symm
    | quest other =>
      exact (getElem?_modify_map loot.questItems index other f).trans
        (if_congr ⟨congrArg Place.quest, Place.quest.inj⟩ rfl rfl)

theorem modifyAt_playerQuestItems (loot : Loot) (place : Place) (f : LootItem → LootItem) :
    (loot.modifyAt place f).playerQuestItems = loot.playerQuestItems := by
  cases place <;> rfl

theorem modifyAt_playerFFAItems (loot : Loot) (place : Place) (f : LootItem → LootItem) :
    (loot.modifyAt place f).playerFFAItems = loot.playerFFAItems := by
  cases place <;> rfl

theorem modifyAt_conditionals (loot : Loot) (place : Place) (f : LootItem → LootItem) :
    (loot.modifyAt place f).playerNonQuestNonFFAConditionalItems =
      loot.playerNonQuestNonFFAConditionalItems := by
  cases place <;> rfl

theorem modifyAt_delivered (loot : Loot) (place : Place) (f : LootItem → LootItem) :
    (loot.modifyAt place f).delivered = loot.delivered := by
  cases place <;> rfl

theorem modifyAt_unlootedCount (loot : Loot) (place : Place) (f : LootItem → LootItem) :
    (loot.modifyAt place f).unlootedCount = loot.unlootedCount := by
  cases place <;> rfl

/-! ## 3. What items keep -/

theorem any_of_shape {o o' : Option LootItem} {f f' : LootItem → Bool}
    (h : o'.map LootItem.shape = o.map LootItem.shape)
    (hf : ∀ item item' : LootItem, item'.shape = item.shape → f' item' = f item) :
    o'.any f' = o.any f := by
  cases o <;> cases o'
  · rfl
  · nomatch h
  · nomatch h
  · exact hf _ _ (Option.some.inj h)

/-- The same items and lists, but for what does not matter to whom an item is left. -/
structure Same (loot loot' : Loot) : Prop where
  shape : ∀ place, (loot'.itemAt place).map LootItem.shape = (loot.itemAt place).map LootItem.shape
  quests : loot'.playerQuestItems = loot.playerQuestItems
  ffas : loot'.playerFFAItems = loot.playerFFAItems
  conditionals : loot'.playerNonQuestNonFFAConditionalItems =
    loot.playerNonQuestNonFFAConditionalItems

namespace Same

variable (h : Same loot loot')
include h

theorem isSome (place : Place) : (loot'.itemAt place).isSome = (loot.itemAt place).isSome := by
  rw [← Option.isSome_map (f := LootItem.shape), h.shape place, Option.isSome_map]

theorem some (hat : loot'.itemAt place = some item') :
    ∃ item, loot.itemAt place = some item ∧ item'.shape = item.shape := by
  have hplace := h.shape place
  rw [hat] at hplace
  obtain ⟨item, hitem, hshape⟩ := Option.map_eq_some_iff.mp hplace.symm
  exact ⟨item, hitem, hshape.symm⟩

theorem places_perm : loot'.places.Perm loot.places :=
  (List.perm_ext_iff_of_nodup (nodup_places _) (nodup_places _)).mpr fun place => by
    rw [mem_places, mem_places, h.isSome]

theorem freeforall (place : Place) :
    (loot'.itemAt place).any LootItem.freeforall = (loot.itemAt place).any LootItem.freeforall :=
  any_of_shape (h.shape place) fun _ _ hshape => (LootItem.shape_inj.mp hshape).2.2.1

theorem mayBeSeen (place : Place) : loot'.mayBeSeen T place = loot.mayBeSeen T place := by
  cases place with
  | item index =>
    refine any_of_shape (h.shape (.item index)) fun item item' hshape => ?_
    obtain ⟨hid, hconditions, -⟩ := LootItem.shape_inj.mp hshape
    unfold LootItem.forSomeone
    rw [hid, hconditions, h.conditionals]
  | quest index =>
    change onList loot'.playerQuestItems index = _
    rw [h.quests]
    rfl

theorem entryLeft : loot'.entryLeft = loot.entryLeft := by
  funext entry
  unfold Loot.entryLeft
  rw [h.freeforall]

theorem looterEntries (guid : ℕ) (place : Place) :
    loot'.looterEntries guid place = loot.looterEntries guid place := by
  cases place with
  | item index =>
    change entriesLooted loot'.playerFFAItems guid index = _
    rw [h.ffas]
    rfl
  | quest index =>
    change entriesLooted loot'.playerQuestItems guid index = _
    rw [h.quests]
    rfl

theorem formed (hformed : loot.Formed T) : loot'.Formed T where
  quests := h.quests ▸ hformed.quests.imp fun _ => (h.isSome _).trans
  ffas := h.ffas ▸ hformed.ffas.imp fun _ => (h.freeforall _).trans
  conditionals := h.conditionals ▸ hformed.conditionals.imp fun _ => (h.isSome _).trans
  counted index item' hat hfree hconditions := by
    obtain ⟨item, hat', hshape⟩ := h.some hat
    obtain ⟨-, hsame, hfree', hcounted⟩ := LootItem.shape_inj.mp hshape
    rw [hcounted, h.conditionals]
    exact hformed.counted index item hat' (hfree' ▸ hfree) (hsame ▸ hconditions)
  someone index item' hat hfree hconditions := by
    obtain ⟨item, hat', hshape⟩ := h.some hat
    obtain ⟨hid, hsame, hfree', -⟩ := LootItem.shape_inj.mp hshape
    unfold LootItem.forSomeone
    rw [hid]
    exact hformed.someone index item hat' (hfree' ▸ hfree) (hsame ▸ hconditions)

end Same

/-- Only flags are different that no delivery depends on. -/
theorem Accounted.congr (h : loot.Accounted T) (hsame : Same loot loot')
    (hlooted : ∀ place, (loot'.itemAt place).map LootItem.isLooted =
      (loot.itemAt place).map LootItem.isLooted)
    (hcount : loot'.unlootedCount = loot.unlootedCount)
    (hdelivered : loot'.delivered = loot.delivered) : Leaves T loot loot' := by
  have hitem : ∀ place item', loot'.itemAt place = some item' → ∃ item,
      loot.itemAt place = some item ∧ item'.shape = item.shape ∧
        item'.isLooted = item.isLooted := by
    intro place item' hat
    obtain ⟨item, hat', hshape⟩ := hsame.some hat
    have hplace := hlooted place
    rw [hat, hat'] at hplace
    exact ⟨item, hat', hshape, Option.some.inj hplace⟩
  have hdeliveries : loot'.deliveries T = loot.deliveries T := by
    have hleft : ∀ place, loot'.isLeft T place = loot.isLeft T place := by
      intro place
      unfold isLeft
      rw [hsame.mayBeSeen place]
      cases hat : loot'.itemAt place with
      | none =>
        have hnone := hsame.isSome place
        rw [hat] at hnone
        rw [Option.not_isSome_iff_eq_none.mp fun hsome => nomatch hnone.trans hsome]
      | some item' =>
        obtain ⟨item, hat', hshape, hsame'⟩ := hitem place item' hat
        rw [hat', Option.any_some, Option.any_some, hsame', (LootItem.shape_inj.mp hshape).2.2.1]
    have hplaces : loot'.places.countP (loot'.isLeft T) = loot.places.countP (loot.isLeft T) := by
      rw [hsame.places_perm.countP_eq]
      exact List.countP_congr fun place _ => by rw [hleft place]
    unfold deliveries
    rw [hplaces, hsame.ffas, hsame.quests, hsame.entryLeft]
  refine ⟨⟨hsame.formed h.formed, h.once.mono hdelivered (fun place => (hsame.isSome place).trans)
    (fun place item item' hat hat' => ?_) fun guid place => ?_,
    by rw [hcount, h.count, hdeliveries]⟩, Nat.le_of_eq hdeliveries⟩
  · obtain ⟨item₁, hat₁, hshape, hsame'⟩ := hitem place item' hat'
    obtain rfl := Option.some.inj (hat.symm.trans hat₁)
    exact ⟨(LootItem.shape_inj.mp hshape).2.2.1, hsame'⟩
  · exact Nat.le_of_eq (hsame.looterEntries guid place).symm

/-! ## 4. Entries -/

/-- An entry when it is looted. -/
def markLooted (entry : QuestItem) : QuestItem := { entry with isLooted := true }

theorem countP_modify {list : List QuestItem} {e : QuestItem} (f : QuestItem → Bool)
    (change : QuestItem → QuestItem) (hentry : list[entry]? = some e) :
    (list.modify entry change).countP f + (f e).toNat = list.countP f + (f (change e)).toNat := by
  have hbool : ∀ b : Bool, (if b = true then 1 else 0) = b.toNat := by decide
  induction list generalizing entry with
  | nil => nomatch hentry
  | cons x list ih =>
    cases entry with
    | zero =>
      obtain rfl := Option.some.inj hentry
      rw [List.modify_zero_cons, List.countP_cons, List.countP_cons, hbool, hbool]
      omega
    | succ entry =>
      have hrest := ih (show list[entry]? = some e from hentry)
      rw [List.modify_succ_cons, List.countP_cons, List.countP_cons, hbool]
      omega

/-- What becomes of the entries that are counted when one is looted. -/
theorem entriesOf_lootEntry {list : List QuestItem} {e : QuestItem} (f : QuestItem → Bool)
    (hlist : lists.lookup guid = some list) (hentry : list[entry]? = some e) :
    entriesOf (lootEntry lists guid (some entry)) f + (f e).toNat =
      entriesOf lists f + (f (markLooted e)).toNat := by
  have hmodify := countP_modify f markLooted hentry
  have hsum := lists.sum_insert guid (list.modify entry markLooted) fun list => list.countP f
  rw [hlist, Option.map_some, Option.getD_some] at hsum
  unfold entriesOf lootEntry
  rw [hlist]
  change ((lists.insert guid (list.modify entry markLooted)).values.map _).sum + _ = _
  omega

/-- Nothing is different that does not depend on it. -/
theorem entriesOf_lootEntry_same {f : QuestItem → Bool} (hf : ∀ e, f (markLooted e) = f e)
    (lists : QuestItemMap) (guid : ℕ) (entry : Option ℕ) :
    entriesOf (lootEntry lists guid entry) f = entriesOf lists f := by
  cases entry with
  | none => rfl
  | some entry =>
    cases hlist : lists.lookup guid with
    | none =>
      unfold lootEntry
      rw [hlist]
    | some list =>
      have hsum := lists.sum_insert guid (list.modify entry markLooted) fun list => list.countP f
      have hsame : (list.modify entry markLooted).countP f = list.countP f := by
        have hmap := map_modify_of_eq (g := f) hf entry list
        have hid : ∀ list : List QuestItem, (list.map f).countP id = list.countP f := fun list =>
          List.countP_map
        rw [← hid, hmap, hid]
      rw [hlist, Option.map_some, Option.getD_some, hsame] at hsum
      unfold entriesOf lootEntry
      rw [hlist]
      change ((lists.insert guid (list.modify entry markLooted)).values.map _).sum = _
      omega

theorem onList_lootEntry (lists : QuestItemMap) (guid : ℕ) (entry : Option ℕ) (index : ℕ) :
    onList (lootEntry lists guid entry) index = onList lists index := by
  unfold onList
  rw [entriesOf_lootEntry_same]
  exact fun _ => rfl

theorem lists_lootEntry {indexes : ℕ → Prop} (h : Lists lists indexes) (guid : ℕ)
    (entry : Option ℕ) : Lists (lootEntry lists guid entry) indexes := by
  cases entry with
  | none => exact h
  | some entry =>
    cases hlist : lists.lookup guid with
    | none =>
      unfold lootEntry
      rw [hlist]
      exact h
    | some list =>
      unfold lootEntry
      rw [hlist]
      intro list' hlist'
      rcases SortedMap.mem_values_insert hlist' with rfl | hold
      · have hmap : (list.modify entry markLooted).map QuestItem.index =
            list.map QuestItem.index :=
          map_modify_of_eq (f := markLooted) (fun _ => rfl) entry list
        change ((list.modify entry markLooted).map QuestItem.index).Nodup ∧
          ∀ index ∈ (list.modify entry markLooted).map QuestItem.index, indexes index
        rw [hmap]
        exact h list (SortedMap.mem_values.mpr ⟨guid, hlist⟩)
      · exact h list' hold

/-- How many entries for an index are looted when one is. -/
theorem entriesLooted_lootEntry {list : List QuestItem} {e : QuestItem}
    (hlist : lists.lookup guid = some list) (hentry : list[entry]? = some e)
    (hlooted : e.isLooted = false) (other index : ℕ) :
    entriesLooted (lootEntry lists guid (some entry)) other index =
      entriesLooted lists other index + if other = guid ∧ index = e.index then 1 else 0 := by
  unfold entriesLooted lootEntry
  rw [hlist]
  rw [SortedMap.lookup_insert]
  by_cases hother : other = guid
  · subst hother
    rw [if_pos rfl, hlist, Option.getD_some, Option.getD_some]
    have hmodify := countP_modify (fun entry => entry.index = index ∧ entry.isLooted) markLooted
      hentry
    have hnot : decide (e.index = index ∧ e.isLooted = true) = false :=
      decide_eq_false fun h => Bool.false_ne_true (hlooted.symm.trans h.2)
    have hnow : (decide ((markLooted e).index = index ∧ (markLooted e).isLooted = true)).toNat =
        if other = other ∧ index = e.index then 1 else 0 := by
      by_cases hindex : index = e.index
      · rw [if_pos ⟨rfl, hindex⟩, decide_eq_true ⟨hindex.symm, rfl⟩]
        rfl
      · rw [if_neg fun h => hindex h.2, decide_eq_false fun h => hindex h.1.symm]
        rfl
    rw [hnot, hnow] at hmodify
    exact hmodify
  · rw [if_neg hother, if_neg fun h => hother h.1]
    rfl

theorem entriesLooted_le_lootEntry (lists : QuestItemMap) (guid : ℕ) (entry : Option ℕ)
    (other index : ℕ) :
    entriesLooted lists other index ≤ entriesLooted (lootEntry lists guid entry) other index := by
  cases entry with
  | none => exact Nat.le_refl _
  | some entry =>
    unfold entriesLooted lootEntry
    cases hlist : lists.lookup guid with
    | none => exact Nat.le_refl _
    | some list =>
      rw [SortedMap.lookup_insert]
      split
      case isFalse => exact Nat.le_refl _
      case isTrue hother =>
        rw [hother, hlist, Option.getD_some, Option.getD_some]
        cases hentry : list[entry]? with
        | none =>
          rw [List.modify_eq_self (List.getElem?_eq_none_iff.mp hentry)]
        | some e =>
          have hmodify := countP_modify (fun entry => entry.index = index ∧ entry.isLooted)
            markLooted hentry
          have hle : (decide (e.index = index ∧ e.isLooted = true)).toNat ≤
              (decide ((markLooted e).index = index ∧ (markLooted e).isLooted = true)).toNat :=
            Bool.toNat_le_toNat fun h => decide_eq_true ⟨(of_decide_eq_true h).1, rfl⟩
          change _ ≤ (list.modify entry markLooted).countP _
          omega

/-! ## 5. Taking -/

theorem itemAt_lootSlotEntries (slot : Slot) (place : Place) :
    (loot.lootSlotEntries slot guid).itemAt place = loot.itemAt place := by
  cases place <;> rfl

theorem entryLeft_lootSlotEntries (slot : Slot) :
    (loot.lootSlotEntries slot guid).entryLeft = loot.entryLeft := by
  funext entry
  unfold entryLeft
  rw [itemAt_lootSlotEntries]

theorem isLeft_lootSlotEntries (slot : Slot) :
    (loot.lootSlotEntries slot guid).isLeft T = loot.isLeft T := by
  have hseen : ∀ place, (loot.lootSlotEntries slot guid).mayBeSeen T place =
      loot.mayBeSeen T place := by
    rintro (index | index)
    · change (loot.itemAt (.item index)).any _ = (loot.itemAt (.item index)).any _
      congr 1
      funext item
      exact if_congr Iff.rfl rfl (onList_lootEntry ..)
    · exact onList_lootEntry ..
  funext place
  unfold isLeft
  rw [itemAt_lootSlotEntries, hseen]

theorem Formed.lootSlotEntries (h : loot.Formed T) (slot : Slot) (guid : ℕ) :
    (loot.lootSlotEntries slot guid).Formed T := by
  refine ⟨?_, ?_, ?_, fun index item hat hfree hconditions => ?_, h.someone⟩
  · exact lists_lootEntry h.quests guid slot.qitem
  · exact lists_lootEntry h.ffas guid slot.ffaitem
  · exact lists_lootEntry h.conditionals guid slot.conditem
  · rw [h.counted index item hat hfree hconditions]
    exact (onList_lootEntry ..).symm

theorem looterEntries_le_lootSlotEntries (slot : Slot) (other : ℕ) (place : Place) :
    loot.looterEntries other place ≤
      (loot.lootSlotEntries slot guid).looterEntries other place := by
  cases place with
  | item index => exact entriesLooted_le_lootEntry ..
  | quest index => exact entriesLooted_le_lootEntry ..

/-- The entry of a player for an item that one player gets is looted. -/
theorem Accounted.lootSlotEntries {slot : Slot} (h : loot.Accounted T)
    (hffa : slot.ffaitem = none)
    (hquest : ∀ entry, slot.qitem = some entry → ∃ list e,
      loot.playerQuestItems.lookup guid = some list ∧ list[entry]? = some e ∧
      (loot.itemAt (.quest e.index)).any LootItem.freeforall = false) :
    Leaves T loot (loot.lootSlotEntries slot guid) := by
  have hentries : entriesOf (lootEntry loot.playerQuestItems guid slot.qitem) loot.entryLeft =
      entriesOf loot.playerQuestItems loot.entryLeft := by
    cases hqitem : slot.qitem with
    | none => rfl
    | some entry =>
      obtain ⟨list, e, hlist, hentry, hnot⟩ := hquest entry hqitem
      have hsum := entriesOf_lootEntry loot.entryLeft hlist hentry
      have hbefore : loot.entryLeft e = false := by
        unfold entryLeft
        rw [hnot]
        exact decide_eq_false fun hleft => Bool.false_ne_true hleft.2
      have hafter : loot.entryLeft (markLooted e) = false :=
        decide_eq_false fun hleft => Bool.false_ne_true hleft.1.symm
      rw [hbefore, hafter] at hsum
      exact hsum
  have hdeliveries : (loot.lootSlotEntries slot guid).deliveries T = loot.deliveries T := by
    unfold deliveries
    rw [isLeft_lootSlotEntries, entryLeft_lootSlotEntries]
    change loot.places.countP _ + entriesOf (lootEntry loot.playerFFAItems guid slot.ffaitem) _ +
      entriesOf (lootEntry loot.playerQuestItems guid slot.qitem) loot.entryLeft = _
    rw [hentries, hffa]
    rfl
  refine ⟨⟨h.formed.lootSlotEntries slot guid, h.once.mono rfl (fun _ hsome => hsome)
    (fun place item item' hat hat' => ?_) fun other place => looterEntries_le_lootSlotEntries ..,
    hdeliveries ▸ h.count⟩, Nat.le_of_eq hdeliveries⟩
  obtain rfl := Option.some.inj (hat.symm.trans hat')
  exact ⟨rfl, rfl⟩

/-- What is handed out: a thing, or of none nothing. -/
theorem deliver_eq (loot : Loot) (place : Place) (item : LootItem) (guid : ℕ) :
    ∃ extra : List (Place × ℕ), extra.Sublist [(place, guid)] ∧
      loot.deliver place item guid = { loot with delivered := extra ++ loot.delivered } := by
  unfold deliver
  split
  · exact ⟨[], List.nil_sublist _, rfl⟩
  · exact ⟨_, List.Sublist.refl _, rfl⟩

/-- At other places nothing is handed out. -/
theorem countP_extra (h : extra.Sublist [(place, guid)]) (other : Place) :
    extra.countP (fun d => d.1 = other) ≤ if other = place then 1 else 0 := by
  refine Nat.le_trans h.countP_le ?_
  by_cases hother : other = place
  · rw [if_pos hother]
    exact List.countP_le_length
  · rw [if_neg hother]
    exact Nat.le_of_eq (List.countP_cons_of_neg (by simpa using Ne.symm hother))

/-- An item that is left is one for one player, who may see it. -/
theorem isLeft_iff (hat : loot.itemAt place = some item) : loot.isLeft T place = true ↔
    item.freeforall = false ∧ item.isLooted = false ∧ loot.mayBeSeen T place = true := by
  unfold isLeft
  rw [hat, Option.any_some, decide_eq_true_iff]

/-- **An item for one player is taken**: there is one delivery less. -/
theorem Accounted.takeItem (h : loot.Accounted T) (hat : loot.itemAt place = some item)
    (hleft : loot.isLeft T place = true) {f : LootItem → LootItem}
    (hf : ∀ item, (f item).shape = item.shape ∧ (f item).isLooted = true)
    (hextra : extra.Sublist [(place, guid)]) :
    Leaves T loot
      ({ loot with delivered := extra ++ loot.delivered }.modifyAt place f).countLess := by
  obtain ⟨hfree, hnot, -⟩ := (isLeft_iff hat).mp hleft
  generalize hlog : extra ++ loot.delivered = delivered
  have hitemAt : ∀ other, (({ loot with delivered := delivered }.modifyAt place f).countLess).itemAt
      other = if other = place then (loot.itemAt other).map f else loot.itemAt other :=
    fun other => itemAt_modifyAt { loot with delivered := delivered } place other f
  have hsame : Same loot ({ loot with delivered := delivered }.modifyAt place f).countLess := by
    refine ⟨fun other => ?_, modifyAt_playerQuestItems .., modifyAt_playerFFAItems ..,
      modifyAt_conditionals ..⟩
    rw [hitemAt]
    split
    · rw [Option.map_map]
      exact Option.map_congr fun item _ => (hf item).1
    · rfl
  have hlog : ({ loot with delivered := delivered }.modifyAt place f).countLess.delivered =
      extra ++ loot.delivered := (modifyAt_delivered ..).trans hlog.symm
  have hcount : ({ loot with delivered := delivered }.modifyAt place f).countLess.unlootedCount =
      (loot.unlootedCount + (2 ^ 8 - 1)) % 2 ^ 8 := by
    change ((Loot.modifyAt _ place f).unlootedCount + _) % _ = _
    rw [modifyAt_unlootedCount]
  generalize ({ loot with delivered := delivered }.modifyAt place f).countLess = loot'
    at hitemAt hsame hlog hcount ⊢
  have hlooted : loot'.itemAt place = some (f item) := by
    rw [hitemAt, if_pos rfl, hat]
    rfl
  have hother : ∀ other, other ≠ place → loot'.itemAt other = loot.itemAt other := by
    intro other hne
    rw [hitemAt, if_neg hne]
  have hdeliveries : loot.deliveries T = loot'.deliveries T + 1 := by
    have hgone : loot'.isLeft T place = false := by
      refine Bool.eq_false_iff.mpr fun hstays => ?_
      exact Bool.false_ne_true (((isLeft_iff hlooted).mp hstays).2.1.symm.trans (hf item).2)
    have hrest : ∀ other, other ≠ place → loot'.isLeft T other = loot.isLeft T other := by
      intro other hne
      unfold isLeft
      rw [hother other hne, hsame.mayBeSeen]
    have hone : loot.places.countP (loot.isLeft T) = loot.places.countP (loot'.isLeft T) + 1 :=
      countP_one_more (nodup_places loot) (mem_places.mpr (Option.isSome_of_eq_some hat)) hgone
        hleft fun other _ hne => (hrest other hne).symm
    unfold deliveries
    rw [hone, hsame.places_perm.countP_eq, hsame.ffas, hsame.quests, hsame.entryLeft]
    omega
  refine ⟨⟨hsame.formed h.formed, h.once.grows hlog (fun d hd => ?_)
    (fun other => (hsame.isSome other).trans) (fun other old new hold hnew => ?_)
    fun other old hold hfree' player => ?_, by rw [hcount, h.count, hdeliveries]; omega⟩, by omega⟩
  · obtain rfl := List.mem_singleton.mp (hextra.subset hd)
    exact Option.isSome_of_eq_some hat
  · have hthis := countP_extra hextra other
    by_cases hplace : other = place
    · subst hplace
      obtain rfl := Option.some.inj (hold.symm.trans hat)
      obtain rfl := Option.some.inj (hnew.symm.trans hlooted)
      rw [if_pos rfl] at hthis
      rw [(hf old).2, hnot]
      exact ⟨(LootItem.shape_inj.mp (hf old).1).2.2.1, fun _ => hthis⟩
    · rw [hother other hplace, hold] at hnew
      obtain rfl := Option.some.inj hnew
      rw [if_neg hplace] at hthis
      exact ⟨rfl, fun _ => by omega⟩
  · rw [hsame.looterEntries, List.count_eq_zero.mpr fun hmem => ?_, Nat.zero_add]
    obtain ⟨rfl, -⟩ := Prod.mk.inj (List.mem_singleton.mp (hextra.subset hmem))
    obtain rfl := Option.some.inj (hold.symm.trans hat)
    exact Bool.false_ne_true (hfree.symm.trans hfree')

/-- The slot of an entry on a list of a player, which is not looted. -/
structure EntrySlot (loot : Loot) (slot : Slot) (guid entry : ℕ) (list : List QuestItem)
    (e : QuestItem) : Prop where
  found : list[entry]? = some e
  unlooted : e.isLooted = false
  lookup : slot = ⟨.quest e.index, some entry, none, none⟩ ∧
      loot.playerQuestItems.lookup guid = some list ∨
    slot = ⟨.item e.index, none, some entry, none⟩ ∧ loot.playerFFAItems.lookup guid = some list

section TakingEntries

variable {slot : Slot} {list : List QuestItem} {e : QuestItem}

/-- The two lists of entries lose one together. -/
theorem EntrySlot.entriesOf (hslot : loot.EntrySlot slot guid entry list e)
    (hat : loot.itemAt slot.place = some item) (hfree : item.freeforall = true) :
    entriesOf loot.playerFFAItems (fun entry => entry.isLooted = false) +
      Looting.entriesOf loot.playerQuestItems loot.entryLeft =
      Looting.entriesOf (loot.lootSlotEntries slot guid).playerFFAItems
          (fun entry => entry.isLooted = false) +
        Looting.entriesOf (loot.lootSlotEntries slot guid).playerQuestItems loot.entryLeft + 1 := by
  change _ = Looting.entriesOf (lootEntry loot.playerFFAItems guid slot.ffaitem) _ +
    Looting.entriesOf (lootEntry loot.playerQuestItems guid slot.qitem) _ + 1
  rcases hslot.lookup with ⟨rfl, hlist⟩ | ⟨rfl, hlist⟩
  · have hsum := entriesOf_lootEntry loot.entryLeft hlist hslot.found
    have hbefore : loot.entryLeft e = true := by
      refine decide_eq_true ⟨hslot.unlooted, ?_⟩
      rw [hat]
      exact hfree
    have hafter : loot.entryLeft (markLooted e) = false :=
      decide_eq_false fun hleft => Bool.false_ne_true hleft.1.symm
    rw [hbefore, hafter] at hsum
    change _ + _ = Looting.entriesOf loot.playerFFAItems _ + _ + 1
    simp only [Bool.toNat_true, Bool.toNat_false] at hsum
    dsimp only
    omega
  · have hsum := entriesOf_lootEntry (fun entry => entry.isLooted = false) hlist hslot.found
    rw [hslot.unlooted] at hsum
    change _ + _ = _ + Looting.entriesOf loot.playerQuestItems loot.entryLeft + 1
    simp only [markLooted, decide_true, Bool.toNat_true, Bool.true_eq_false, decide_false,
      Bool.toNat_false] at hsum
    dsimp only
    omega

/-- Only the entry of the player for this place is looted. -/
theorem EntrySlot.looterEntries (hslot : loot.EntrySlot slot guid entry list e) (other : ℕ)
    (place : Place) : (loot.lootSlotEntries slot guid).looterEntries other place =
      loot.looterEntries other place + if other = guid ∧ place = slot.place then 1 else 0 := by
  rcases hslot.lookup with ⟨rfl, hlist⟩ | ⟨rfl, hlist⟩
  · cases place with
    | item index =>
      rw [if_neg fun hboth => Place.noConfusion hboth.2]
      rfl
    | quest index =>
      have hmark := entriesLooted_lootEntry hlist hslot.found hslot.unlooted other index
      simp only [Place.quest.injEq]
      exact hmark
  · cases place with
    | item index =>
      have hmark := entriesLooted_lootEntry hlist hslot.found hslot.unlooted other index
      simp only [Place.item.injEq]
      exact hmark
    | quest index =>
      rw [if_neg fun hboth => Place.noConfusion hboth.2]
      rfl

/-- What is handed out is known, and handed out once. -/
theorem Once.takeEntry (h : loot.Once) (hslot : loot.EntrySlot slot guid entry list e)
    (hat : loot.itemAt slot.place = some item) (hfree : item.freeforall = true)
    (hextra : extra.Sublist [(slot.place, guid)]) :
    ({ loot with delivered := extra ++ loot.delivered }.lootSlotEntries slot
      guid).countLess.Once := by
  refine h.grows rfl (fun d hd => ?_) (fun _ hsome => hsome) (fun place item₁ item₂ h₁ h₂ => ?_)
    fun place _ _ _ other => ?_
  · obtain rfl := List.mem_singleton.mp (hextra.subset hd)
    exact Option.isSome_of_eq_some hat
  · obtain rfl := Option.some.inj (h₁.symm.trans h₂)
    refine ⟨rfl, fun hfree' => ?_⟩
    have hthis := countP_extra hextra place
    rw [if_neg] at hthis
    · omega
    · rintro rfl
      obtain rfl := Option.some.inj (h₁.symm.trans hat)
      exact Bool.false_ne_true (hfree'.symm.trans hfree)
  · change _ ≤ (loot.lootSlotEntries slot guid).looterEntries other place
    rw [hslot.looterEntries, Nat.add_comm]
    refine Nat.add_le_add_left (Nat.le_trans (hextra.count_le _) ?_) _
    rw [List.count_singleton]
    split
    · rename_i heq
      obtain ⟨rfl, rfl⟩ := Prod.mk.inj (beq_iff_eq.mp heq)
      rw [if_pos ⟨rfl, rfl⟩]
    · exact Nat.zero_le _

/-- **An entry for an item that is free for all is taken.** -/
theorem Accounted.takeEntry (h : loot.Accounted T) (hslot : loot.EntrySlot slot guid entry list e)
    (hat : loot.itemAt slot.place = some item) (hfree : item.freeforall = true)
    (hextra : extra.Sublist [(slot.place, guid)]) :
    Leaves T loot
      ({ loot with delivered := extra ++ loot.delivered }.lootSlotEntries slot guid).countLess := by
  have hcount := h.count
  have hdeliveries : loot.deliveries T = Loot.deliveries T
      ({ loot with delivered := extra ++ loot.delivered }.lootSlotEntries slot guid).countLess +
        1 := by
    change _ = (loot.lootSlotEntries slot guid).deliveries T + 1
    have hsum := hslot.entriesOf hat hfree
    have hplaces : (loot.lootSlotEntries slot guid).places = loot.places := rfl
    unfold deliveries
    rw [hplaces, isLeft_lootSlotEntries, entryLeft_lootSlotEntries]
    omega
  have hformed := h.formed.lootSlotEntries slot guid
  refine ⟨⟨⟨hformed.quests, hformed.ffas, hformed.conditionals, hformed.counted, hformed.someone⟩,
    h.once.takeEntry hslot hat hfree hextra, ?_⟩, by omega⟩
  change (loot.unlootedCount + (2 ^ 8 - 1)) % 2 ^ 8 = _
  omega

end TakingEntries

/-! ## 6. Who takes -/

/-- The entry that an index has on the list of a player. -/
theorem entryFor_eq_some {k : ℕ} (h : entryFor lists guid index = some k) :
    ∃ list e, lists.lookup guid = some list ∧ list[k]? = some e ∧ e.index = index := by
  obtain ⟨list, hlist, hfound⟩ := Option.bind_eq_some_iff.mp h
  obtain ⟨hlt, hindex, -⟩ := List.findIdx?_eq_some_iff_getElem.mp hfound
  exact ⟨list, list[k], hlist, List.getElem?_eq_getElem hlt, of_decide_eq_true hindex⟩

/-- **What is in a slot.**  A quest item is taken by an entry that is not looted; so is an item that
is free for all, unless the player has no entry for it. -/
theorem lootItemInSlot_spec {lootSlot : ℕ} {slot : Slot}
    (h : loot.lootItemInSlot lootSlot guid = some slot) :
    (∃ entry list e, slot = ⟨.quest e.index, some entry, none, none⟩ ∧
      loot.playerQuestItems.lookup guid = some list ∧ list[entry]? = some e ∧
      e.isLooted = false) ∨
    (∃ item, loot.itemAt slot.place = some item ∧ slot.qitem = none ∧
      (item.freeforall = true → slot.ffaitem.isSome = true → ∃ entry list e,
        slot = ⟨.item e.index, none, some entry, none⟩ ∧
        loot.playerFFAItems.lookup guid = some list ∧ list[entry]? = some e ∧
        e.isLooted = false) ∧
      (item.freeforall = false → slot.ffaitem = none)) := by
  unfold lootItemInSlot at h
  cases hitem : loot.items[lootSlot]? with
  | none =>
    rw [hitem] at h
    obtain ⟨e, he, hslot⟩ := Option.bind_eq_some_iff.mp h
    refine Or.inl ⟨lootSlot - loot.items.length, (loot.playerQuestItems.lookup guid).getD [], e, ?_⟩
    split at hslot
    case isTrue => nomatch hslot
    case isFalse hlooted =>
      obtain rfl := Option.some.inj hslot
      refine ⟨rfl, ?_, he, Bool.eq_false_iff.mpr hlooted⟩
      cases hlist : loot.playerQuestItems.lookup guid with
      | none =>
        rw [hlist] at he
        nomatch he
      | some list => rfl
  | some item =>
    rw [hitem] at h
    dsimp only at h
    have hat : loot.itemAt (.item lootSlot) = some item := hitem
    by_cases hfree : item.freeforall = true
    · rw [if_pos hfree] at h
      cases hentry : entryFor loot.playerFFAItems guid lootSlot with
      | none =>
        rw [hentry] at h
        dsimp only at h
        split at h
        · nomatch h
        · obtain rfl := Option.some.inj h
          exact Or.inr ⟨item, hat, rfl, nofun, fun _ => rfl⟩
      | some entry =>
        rw [hentry] at h
        dsimp only at h
        obtain ⟨list, e, hlist, he, rfl⟩ := entryFor_eq_some hentry
        split at h
        case isTrue => nomatch h
        case isFalse hlooted =>
          obtain rfl := Option.some.inj h
          have hnot : e.isLooted = false := by
            unfold entryLooted at hlooted
            rw [hlist, Option.any_some, he, Option.any_some] at hlooted
            exact Bool.eq_false_iff.mpr hlooted
          refine Or.inr ⟨item, hat, rfl, fun _ _ => ⟨entry, list, e, rfl, hlist, he, hnot⟩, ?_⟩
          exact fun hnotFree => absurd (hnotFree.symm.trans hfree) Bool.false_ne_true
    · rw [if_neg hfree] at h
      have hslot : slot.place = .item lootSlot ∧ slot.qitem = none ∧ slot.ffaitem = none := by
        repeat' split at h
        all_goals first
          | (obtain rfl := Option.some.inj h; exact ⟨rfl, rfl, rfl⟩)
          | nomatch h
      obtain ⟨hplace, hqitem, hffaitem⟩ := hslot
      exact Or.inr ⟨item, hplace ▸ hat, hqitem, fun hyes => absurd hyes hfree, fun _ => hffaitem⟩

/-- **Where `StoreLootItem` is right**: what is handed out is an item for one player that is left,
or, if it is free for all, there is an entry for it. -/
def storesRight (T : Templates) (loot : Loot) (player : Player) (lootSlot : ℕ) : Bool :=
  (loot.lootItemInSlot lootSlot player.guid).all fun slot =>
    (loot.itemAt slot.place).all fun item => !mayStore T player slot item ||
      if item.freeforall then slot.qitem.isSome || slot.ffaitem.isSome
      else loot.isLeft T slot.place

/-- **Where the master looter gives right**: the item is left. -/
def givesRight (T : Templates) (loot : Loot) (master target : Player) (together : Bool)
    (slot : ℕ) : Bool :=
  (loot.itemAt (loot.placeOf slot)).all fun item =>
    !mayGive T master target together item || loot.isLeft T (loot.placeOf slot)

/-- **Where a roll ends right**: an item that is won is left. -/
def rollsRight (T : Templates) (loot : Loot) (itemSlot : ℕ) (result : RollResult) : Bool :=
  (loot.itemAt (loot.placeOf itemSlot)).all fun item =>
    match result with
    | .won player => !player.canStoreNewItem item.itemid item.count ||
      loot.isLeft T (loot.placeOf itemSlot)
    | .disenchanted _ => loot.isLeft T (loot.placeOf itemSlot)
    | .allPassed | .lost => true

section

variable (h : loot.Accounted T)
include h

theorem Accounted.storeLootItem {lootSlot : ℕ}
    (hright : loot.storesRight T player lootSlot = true) :
    Leaves T loot (loot.storeLootItem T player lootSlot) := by
  unfold storesRight at hright
  unfold Loot.storeLootItem
  cases hslot : loot.lootItemInSlot lootSlot player.guid with
  | none => exact h.stays
  | some slot =>
    rw [hslot] at hright
    dsimp only
    cases hat : loot.itemAt slot.place with
    | none => exact h.stays
    | some item =>
      rw [Option.all_some, hat, Option.all_some] at hright
      dsimp only
      by_cases hmay : mayStore T player slot item = true
      · rw [if_pos hmay]
        rw [hmay, Bool.not_true, Bool.false_or] at hright
        obtain ⟨extra, hextra, hdeliver⟩ := loot.deliver_eq slot.place item player.guid
        rw [hdeliver]
        by_cases hfree : item.freeforall = true
        · rw [if_pos hfree, Bool.or_eq_true] at hright
          rw [if_neg fun hnot => Bool.false_ne_true (hnot.symm.trans hfree)]
          rcases lootItemInSlot_spec hslot with
            ⟨entry, list, e, rfl, hlist, he, hnot⟩ | ⟨item', hat', hqitem, hffa, -⟩
          · exact h.takeEntry ⟨he, hnot, Or.inl ⟨rfl, hlist⟩⟩ hat hfree hextra
          · obtain rfl := Option.some.inj (hat.symm.trans hat')
            have hentry : slot.ffaitem.isSome = true := hright.resolve_left fun hsome => by
              rw [hqitem] at hsome
              exact Bool.false_ne_true hsome
            obtain ⟨entry, list, e, rfl, hlist, he, hnot⟩ := hffa hfree hentry
            exact h.takeEntry ⟨he, hnot, Or.inr ⟨rfl, hlist⟩⟩ hat hfree hextra
        · rw [if_neg hfree] at hright
          rw [if_pos (Bool.eq_false_iff.mpr hfree)]
          have hnotFree := Bool.eq_false_iff.mpr hfree
          have hentries : slot.ffaitem = none ∧ ∀ entry, slot.qitem = some entry → ∃ list e,
              loot.playerQuestItems.lookup player.guid = some list ∧ list[entry]? = some e ∧
              (loot.itemAt (.quest e.index)).any LootItem.freeforall = false := by
            rcases lootItemInSlot_spec hslot with
              ⟨entry, list, e, rfl, hlist, he, -⟩ | ⟨item', hat', hqitem, -, hffa⟩
            · refine ⟨rfl, fun entry' hentry' => ?_⟩
              obtain rfl := Option.some.inj hentry'
              refine ⟨list, e, hlist, he, ?_⟩
              rw [hat]
              exact hnotFree
            · obtain rfl := Option.some.inj (hat.symm.trans hat')
              refine ⟨hffa hnotFree, fun entry hentry => ?_⟩
              rw [hqitem] at hentry
              nomatch hentry
          have hmarked := h.lootSlotEntries hentries.1 hentries.2
          have htaken := hmarked.accounted.takeItem
            (f := fun item => { item with isLooted := true }) hat
            ((congrFun (isLeft_lootSlotEntries slot) _).trans hright) (fun _ => ⟨rfl, rfl⟩) hextra
          exact ⟨htaken.accounted, Nat.le_trans htaken.fewer hmarked.fewer⟩
      · rw [if_neg hmay]
        exact h.stays

theorem Accounted.lootMasterGive {master target : Player} {together : Bool} {slot : ℕ}
    (hright : loot.givesRight T master target together slot = true) :
    Leaves T loot (loot.lootMasterGive T master target together slot) := by
  unfold givesRight at hright
  unfold Loot.lootMasterGive
  cases hat : loot.itemAt (loot.placeOf slot) with
  | none => exact h.stays
  | some item =>
    rw [hat, Option.all_some] at hright
    dsimp only
    by_cases hmay : mayGive T master target together item = true
    · rw [if_pos hmay]
      rw [hmay, Bool.not_true, Bool.false_or] at hright
      obtain ⟨extra, hextra, hdeliver⟩ :=
        loot.deliver_eq (loot.placeOf slot) item target.guid
      rw [hdeliver]
      exact h.takeItem (f := fun item => { item with count := 0, isLooted := true }) hat hright
        (fun _ => ⟨rfl, rfl⟩) hextra
    · rw [if_neg hmay]
      exact h.stays

/-- An item is no longer blocked. -/
theorem Accounted.unblock (place : Place) :
    Leaves T loot (loot.modifyAt place fun item => { item with isBlocked := false }) := by
  have hkeeps : ∀ {β : Type} (g : LootItem → β),
      (∀ item, g { item with isBlocked := false } = g item) → ∀ other,
      ((loot.modifyAt place fun item => { item with isBlocked := false }).itemAt other).map g =
        (loot.itemAt other).map g := by
    intro β g hg other
    rw [itemAt_modifyAt]
    split
    · rw [Option.map_map]
      exact Option.map_congr fun item _ => hg item
    · rfl
  exact h.congr ⟨hkeeps _ fun _ => rfl, modifyAt_playerQuestItems .., modifyAt_playerFFAItems ..,
    modifyAt_conditionals ..⟩ (hkeeps _ fun _ => rfl) (modifyAt_unlootedCount ..)
    (modifyAt_delivered ..)

theorem Accounted.countTheRoll {itemSlot : ℕ} {result : RollResult}
    (hright : loot.rollsRight T itemSlot result = true) :
    Leaves T loot (loot.countTheRoll itemSlot result) := by
  unfold rollsRight at hright
  unfold Loot.countTheRoll
  dsimp only
  cases hat : loot.itemAt (loot.placeOf itemSlot) with
  | none => exact h.stays
  | some item =>
    rw [hat, Option.all_some] at hright
    cases result with
    | allPassed => exact h.unblock _
    | won player =>
      dsimp only at hright ⊢
      by_cases hstore : player.canStoreNewItem item.itemid item.count = true
      · rw [if_pos hstore]
        rw [hstore, Bool.not_true, Bool.false_or] at hright
        obtain ⟨extra, hextra, hdeliver⟩ :=
          loot.deliver_eq (loot.placeOf itemSlot) item player.guid
        rw [hdeliver]
        exact h.takeItem (f := fun item => { item with isLooted := true }) hat hright
          (fun _ => ⟨rfl, rfl⟩) hextra
      · rw [if_neg hstore]
        exact h.unblock _
    | disenchanted player =>
      exact h.takeItem (f := fun item => { item with isLooted := true }) hat hright
        (fun _ => ⟨rfl, rfl⟩) (List.Sublist.refl _)
    | lost => exact h.stays

/-- Flags of items that no delivery depends on. -/
theorem Accounted.mapItems {items questItems : List LootItem} {f g : ℕ → LootItem → LootItem}
    (hitems : ∀ index, items[index]? = (loot.items[index]?).map (f index))
    (hquestItems : ∀ index, questItems[index]? = (loot.questItems[index]?).map (g index))
    (hf : ∀ index item, (f index item).shape = item.shape ∧
      (f index item).isLooted = item.isLooted)
    (hg : ∀ index item, (g index item).shape = item.shape ∧
      (g index item).isLooted = item.isLooted) :
    Leaves T loot { loot with items := items, questItems := questItems } := by
  have hkeeps : ∀ {β : Type} (k : LootItem → β),
      (∀ index item, k (f index item) = k item) → (∀ index item, k (g index item) = k item) →
      ∀ other, (({ loot with items := items, questItems := questItems } : Loot).itemAt
        other).map k = (loot.itemAt other).map k := by
    intro β k hfirst hsecond other
    cases other with
    | item index =>
      change (items[index]?).map k = (loot.items[index]?).map k
      rw [hitems, Option.map_map]
      exact Option.map_congr fun item _ => hfirst index item
    | quest index =>
      change (questItems[index]?).map k = (loot.questItems[index]?).map k
      rw [hquestItems, Option.map_map]
      exact Option.map_congr fun item _ => hsecond index item
  exact h.congr
    ⟨hkeeps _ (fun index item => (hf index item).1) fun index item => (hg index item).1, rfl, rfl,
      rfl⟩
    (hkeeps _ (fun index item => (hf index item).2) fun index item => (hg index item).2) rfl rfl

theorem Accounted.groupLoot (threshold : ℕ) (rolls : Place → Bool) :
    Leaves T loot (loot.groupLoot T threshold rolls) := by
  refine h.mapItems (fun _ => List.getElem?_mapIdx) (fun _ => List.getElem?_mapIdx)
    (fun index item => ?_) fun index item => ?_
  · split
    · exact ⟨rfl, rfl⟩
    · split
      · exact ⟨rfl, rfl⟩
      · split <;> exact ⟨rfl, rfl⟩
  · split <;> exact ⟨rfl, rfl⟩

theorem Accounted.masterLoot : Leaves T loot loot.masterLoot := by
  refine h.mapItems (f := fun _ item =>
      if item.freeforall then item else { item with isBlocked := !item.isUnderthreshold })
    (g := fun _ item =>
      if item.followLootRules then { item with isBlocked := !item.isUnderthreshold } else item)
    (fun _ => List.getElem?_map) (fun _ => List.getElem?_map) (fun index item => ?_)
    fun index item => ?_
  · split <;> exact ⟨rfl, rfl⟩
  · split <;> exact ⟨rfl, rfl⟩

theorem Accounted.markUnderthreshold (threshold : ℕ) :
    Leaves T loot (loot.markUnderthreshold T threshold) := by
  refine h.mapItems
    (f := fun _ item => if (T item.itemid).any fun proto => proto.quality < threshold then
      { item with isUnderthreshold := true } else item) (g := fun _ item => item)
    (fun _ => List.getElem?_map) (fun index => ?_) (fun index item => ?_) fun _ _ => ⟨rfl, rfl⟩
  · exact Option.map_id'.symm
  · split <;> exact ⟨rfl, rfl⟩

theorem Accounted.lootMoney : Leaves T loot { loot with gold := 0 } :=
  h.congr ⟨fun _ => rfl, rfl, rfl, rfl⟩ (fun _ => rfl) rfl rfl

end

/-! ## 7. Filling -/

theorem entriesOf_congr {f g : QuestItem → Bool}
    (hsame : ∀ list ∈ lists.values, ∀ e ∈ list, f e = g e) :
    entriesOf lists f = entriesOf lists g := by
  exact congrArg List.sum (List.map_congr_left fun list hlist =>
    List.countP_congr fun e he => by rw [hsame list hlist e he])

/-- An index that there is not is on no list. -/
theorem onList_eq_false {indexes : ℕ → Prop} (h : Lists lists indexes) (hindex : ¬ indexes index) :
    onList lists index = false := by
  have hzero : entriesOf lists (fun e => e.index = index) = 0 := by
    have hnone : entriesOf lists (fun e => e.index = index) = entriesOf lists fun _ => false := by
      refine entriesOf_congr fun list hlist e he => decide_eq_false ?_
      rintro rfl
      exact hindex ((h list hlist).2 _ (List.mem_map.mpr ⟨e, he, rfl⟩))
    rw [hnone]
    unfold entriesOf
    induction lists.values with
    | nil => rfl
    | cons list lists ih =>
      rw [List.map_cons, List.sum_cons, ih, List.countP_false]
      rfl
  unfold onList
  rw [hzero]
  rfl

/-- **An item is appended**, at a new place. -/
theorem Accounted.append (h : loot.Accounted T) (hnone : loot.itemAt place = none)
    (hnew : loot'.itemAt place = some item) (hlooted : item.isLooted = false)
    (hcounted : item.isCounted = false)
    (hothers : ∀ other, other ≠ place → loot'.itemAt other = loot.itemAt other)
    (hquests : loot'.playerQuestItems = loot.playerQuestItems)
    (hffas : loot'.playerFFAItems = loot.playerFFAItems)
    (hconditionals : loot'.playerNonQuestNonFFAConditionalItems =
      loot.playerNonQuestNonFFAConditionalItems)
    (hdelivered : loot'.delivered = loot.delivered)
    (hsomeone : (∃ index, place = .item index) → item.freeforall = false → item.conditions = [] →
      item.forSomeone T = true)
    (hcount : loot'.unlootedCount =
      (loot.unlootedCount + (loot'.isLeft T place).toNat) % 2 ^ 8) : loot'.Accounted T := by
  have hold : ∀ other, (loot.itemAt other).isSome = true → other ≠ place := by
    rintro _ hsome rfl
    rw [hnone] at hsome
    nomatch hsome
  have hany : ∀ other, (loot.itemAt other).any LootItem.freeforall = true → other ≠ place := by
    rintro _ hsome rfl
    rw [hnone] at hsome
    nomatch hsome
  have hseen : ∀ other, other ≠ place → loot'.mayBeSeen T other = loot.mayBeSeen T other := by
    rintro (index | index) hne
    · change (loot'.itemAt (.item index)).any _ = (loot.itemAt (.item index)).any _
      rw [hothers _ hne, hconditionals]
    · change onList loot'.playerQuestItems index = onList loot.playerQuestItems index
      rw [hquests]
  have hentries : ∀ guid other, loot'.looterEntries guid other = loot.looterEntries guid other := by
    rintro guid (index | index)
    · unfold looterEntries
      rw [hffas]
    · unfold looterEntries
      rw [hquests]
  have hdeliveries : loot'.deliveries T = loot.deliveries T + (loot'.isLeft T place).toNat := by
    have hplaces : loot'.places.Perm (place :: loot.places) := by
      refine (List.perm_ext_iff_of_nodup (nodup_places _) (List.nodup_cons.mpr
        ⟨fun hmem => hold _ (mem_places.mp hmem) rfl, nodup_places _⟩)).mpr fun other => ?_
      rw [mem_places, List.mem_cons, mem_places]
      by_cases hother : other = place
      · rw [hother, hnew]
        exact iff_of_true rfl (Or.inl rfl)
      · rw [hothers other hother, or_iff_right hother]
    have hleft : loot.places.countP (loot'.isLeft T) = loot.places.countP (loot.isLeft T) := by
      refine List.countP_congr fun other hmem => ?_
      have hne := hold other (mem_places.mp hmem)
      unfold isLeft
      rw [hothers other hne, hseen other hne]
    have hentry : entriesOf loot.playerQuestItems loot'.entryLeft =
        entriesOf loot.playerQuestItems loot.entryLeft := by
      refine entriesOf_congr fun list hlist e he => ?_
      have hsome := (h.formed.quests list hlist).2 e.index (List.mem_map.mpr ⟨e, he, rfl⟩)
      unfold entryLeft
      rw [hothers _ (hold _ hsome)]
    have hbool : ∀ b : Bool, (if b = true then 1 else 0) = b.toNat := by decide
    unfold deliveries
    rw [hplaces.countP_eq, List.countP_cons, hbool, hleft, hffas, hquests, hentry]
    omega
  refine ⟨⟨?_, ?_, ?_, ?_, ?_⟩, ?_, ?_⟩
  · rw [hquests]
    refine h.formed.quests.imp fun index hsome => ?_
    rw [hothers _ (hold _ hsome)]
    exact hsome
  · rw [hffas]
    refine h.formed.ffas.imp fun index hsome => ?_
    rw [hothers _ (hany _ hsome)]
    exact hsome
  · rw [hconditionals]
    refine h.formed.conditionals.imp fun index hsome => ?_
    rw [hothers _ (hold _ hsome)]
    exact hsome
  · intro index item' hat hfree hconditions
    rw [hconditionals]
    by_cases hplace : Place.item index = place
    · subst hplace
      obtain rfl := Option.some.inj (hat.symm.trans hnew)
      rw [hcounted, onList_eq_false h.formed.conditionals fun hsome => hold _ hsome rfl]
    · rw [hothers _ hplace] at hat
      exact h.formed.counted index item' hat hfree hconditions
  · intro index item' hat hfree hconditions
    by_cases hplace : Place.item index = place
    · subst hplace
      obtain rfl := Option.some.inj (hat.symm.trans hnew)
      exact hsomeone ⟨index, rfl⟩ hfree hconditions
    · rw [hothers _ hplace] at hat
      exact h.formed.someone index item' hat hfree hconditions
  · refine h.once.mono hdelivered (fun other hsome => ?_) (fun other old new hat hat' => ?_)
      fun guid other => Nat.le_of_eq (hentries guid other).symm
    · rw [hothers _ (hold _ hsome)]
      exact hsome
    · rw [hothers other (hold _ (Option.isSome_of_eq_some hat)), hat] at hat'
      obtain rfl := Option.some.inj hat'
      exact ⟨rfl, rfl⟩
  · rw [hcount, h.count, hdeliveries]
    omega

/-- **Where an item is generated right**: it is not for one team and also for the other. -/
def addsRight (T : Templates) (li : LootStoreItem) : Bool :=
  (T li.itemid).all fun proto => li.needsQuest || proto.partyLoot || li.conditions ≠ [] ||
    !(proto.hordeOnly && proto.allianceOnly)

theorem getElem?_append_of_ne {α : Type} {xs : List α} {x : α} {i : ℕ} (hne : i ≠ xs.length) :
    (xs ++ [x])[i]? = xs[i]? := by
  rcases Nat.lt_or_gt_of_ne hne with hlt | hgt
  · exact List.getElem?_append_left hlt
  · have hlength : (xs ++ [x]).length ≤ i := by
      rw [List.length_append, List.length_singleton]
      exact hgt
    rw [List.getElem?_eq_none hlength, List.getElem?_eq_none (Nat.le_of_lt hgt)]

/-- A new quest item is on no list. -/
theorem Accounted.appendQuest (h : loot.Accounted T) (hlooted : item.isLooted = false)
    (hcounted : item.isCounted = false) :
    { loot with questItems := loot.questItems ++ [item] }.Accounted T := by
  have hnone : loot.itemAt (.quest loot.questItems.length) = none :=
    List.getElem?_eq_none (Nat.le_refl _)
  have hnew : ({ loot with questItems := loot.questItems ++ [item] } : Loot).itemAt
      (.quest loot.questItems.length) = some item := List.getElem?_concat_length
  refine h.append hnone hnew hlooted hcounted ?_ rfl rfl rfl rfl (fun ⟨_, heq⟩ => nomatch heq) ?_
  · rintro (index | index) hne
    · rfl
    · exact getElem?_append_of_ne fun heq => hne (congrArg Place.quest heq)
  · have hnot : isLeft T { loot with questItems := loot.questItems ++ [item] }
        (.quest loot.questItems.length) = false := by
      refine Bool.eq_false_iff.mpr fun hleft => ?_
      have hseen : onList loot.playerQuestItems loot.questItems.length = true :=
        ((isLeft_iff hnew).mp hleft).2.2
      rw [onList_eq_false h.formed.quests fun hsome => by rw [hnone] at hsome; nomatch hsome]
        at hseen
      exact Bool.false_ne_true hseen
    rw [hnot]
    change loot.unlootedCount = (loot.unlootedCount + 0) % 2 ^ 8
    have hcount := h.count
    omega

/-- A new item is counted if it is for one player and has no conditions. -/
theorem Accounted.appendItem (h : loot.Accounted T) (hlooted : item.isLooted = false)
    (hcounted : item.isCounted = false)
    (hsomeone : item.freeforall = false → item.conditions = [] → item.forSomeone T = true) :
    (if item.conditions = [] ∧ item.freeforall = false then
      { loot with items := loot.items ++ [item] }.countMore 1
    else { loot with items := loot.items ++ [item] }).Accounted T := by
  have hnone : loot.itemAt (.item loot.items.length) = none :=
    List.getElem?_eq_none (Nat.le_refl _)
  have hbase : ∀ {loot' : Loot}, loot'.items = loot.items ++ [item] →
      loot'.questItems = loot.questItems → loot'.playerQuestItems = loot.playerQuestItems →
      loot'.playerFFAItems = loot.playerFFAItems → loot'.playerNonQuestNonFFAConditionalItems =
        loot.playerNonQuestNonFFAConditionalItems → loot'.delivered = loot.delivered →
      (item.freeforall = false → item.conditions = [] → item.forSomeone T = true) →
      loot'.unlootedCount = (loot.unlootedCount +
        if item.conditions = [] ∧ item.freeforall = false then 1 else 0) % 2 ^ 8 →
      loot'.Accounted T := by
    intro loot' hitems hquestItems hquests hffas hconditionals hdelivered hsomeone hcount
    have hnew : loot'.itemAt (.item loot.items.length) = some item := by
      change loot'.items[loot.items.length]? = _
      rw [hitems]
      exact List.getElem?_concat_length
    refine h.append hnone hnew hlooted hcounted ?_ hquests hffas hconditionals hdelivered
      (fun _ => hsomeone) ?_
    · rintro (index | index) hne
      · change loot'.items[index]? = loot.items[index]?
        rw [hitems]
        exact getElem?_append_of_ne fun heq => hne (congrArg Place.item heq)
      · change loot'.questItems[index]? = loot.questItems[index]?
        rw [hquestItems]
    · have hseen : loot'.mayBeSeen T (.item loot.items.length) =
          if item.conditions = [] then item.forSomeone T else false := by
        change (loot'.itemAt (.item loot.items.length)).any _ = _
        rw [hnew, Option.any_some, hconditionals,
          onList_eq_false h.formed.conditionals fun hsome => by rw [hnone] at hsome; nomatch hsome]
      have hleft : (loot'.isLeft T (.item loot.items.length)).toNat =
          if item.conditions = [] ∧ item.freeforall = false then 1 else 0 := by
        have hiff := isLeft_iff (T := T) hnew
        rw [hseen] at hiff
        split
        case isTrue hthis =>
          rw [hiff.mpr ⟨hthis.2, hlooted, by rw [if_pos hthis.1, hsomeone hthis.2 hthis.1]⟩]
          rfl
        case isFalse hthis =>
          have hnot : loot'.isLeft T (.item loot.items.length) = false := by
            refine Bool.eq_false_iff.mpr fun hyes => ?_
            obtain ⟨hfree, -, hmay⟩ := hiff.mp hyes
            rw [if_neg fun hconditions => hthis ⟨hconditions, hfree⟩] at hmay
            exact Bool.false_ne_true hmay
          rw [hnot]
          rfl
      rw [hleft]
      exact hcount
  split
  case isTrue hthis =>
    refine hbase rfl rfl rfl rfl rfl rfl hsomeone ?_
    rw [if_pos hthis]
    rfl
  case isFalse hthis =>
    refine hbase rfl rfl rfl rfl rfl rfl hsomeone ?_
    rw [if_neg hthis]
    have hcount := h.count
    change loot.unlootedCount = _
    omega

theorem Accounted.addStacks {li : LootStoreItem} {proto : ItemTemplate}
    (hproto : T li.itemid = some proto) (hright : addsRight T li = true) (turns : ℕ) :
    ∀ (count : ℕ) {loot : Loot}, loot.Accounted T →
      (Loot.addStacks T li proto turns count loot).Accounted T := by
  induction turns with
  | zero => exact fun _ _ h => h
  | succ turns ih =>
    intro count loot h
    unfold Loot.addStacks
    generalize hnew : ({ LootItem.ofStoreItem T li with
      count := min count proto.maxStackSize } : LootItem) = new
    have hlooted : new.isLooted = false := by rw [← hnew]; rfl
    have hcounted : new.isCounted = false := by rw [← hnew]; rfl
    have hfree : new.freeforall = proto.partyLoot := by
      rw [← hnew]
      change (T li.itemid).any _ = _
      rw [hproto]
      rfl
    have hconditions : new.conditions = li.conditions := by rw [← hnew]; rfl
    have hsomeone : li.needsQuest = false → new.freeforall = false → new.conditions = [] →
        new.forSomeone T = true := by
      intro hquest hnot hnone
      unfold addsRight at hright
      rw [hproto, Option.all_some, hquest, ← hfree, hnot, ← hconditions, hnone] at hright
      rw [← hnew]
      change (T li.itemid).any _ = _
      rw [hproto]
      simpa using hright
    cases hquest : li.needsQuest with
    | true =>
      simp only [if_true, Bool.true_eq_false, false_and, if_false]
      split
      · exact ih _ (h.appendQuest hlooted hcounted)
      · exact h
    | false =>
      simp only [Bool.false_eq_true, if_false, true_and]
      split
      · have happend := h.appendItem hlooted hcounted (hsomeone hquest)
        rw [hconditions, hfree] at happend
        exact ih _ happend
      · exact h

theorem Accounted.addItem (h : loot.Accounted T) {li : LootStoreItem}
    (hright : addsRight T li = true) (count : ℕ) : (loot.addItem T li count).Accounted T := by
  unfold Loot.addItem
  cases hproto : T li.itemid with
  | none => exact h
  | some proto => exact .addStacks hproto hright _ _ h

/-! ### Lists of a player -/

theorem mem_indexesOf {items : List LootItem} {asked : LootItem → Bool} :
    index ∈ indexesOf items asked ↔ ∃ item, items[index]? = some item ∧ asked item = true := by
  unfold indexesOf
  rw [List.mem_map]
  constructor
  · rintro ⟨⟨item, _⟩, hmem, rfl⟩
    obtain ⟨hmem, hasked⟩ := List.mem_filter.mp hmem
    exact ⟨item, List.mk_mem_zipIdx_iff_getElem?.mp hmem, hasked⟩
  · rintro ⟨item, hitem, hasked⟩
    exact ⟨(item, index), List.mem_filter.mpr
      ⟨List.mk_mem_zipIdx_iff_getElem?.mpr hitem, hasked⟩, rfl⟩

theorem nodup_indexesOf (items : List LootItem) (asked : LootItem → Bool) :
    (indexesOf items asked).Nodup := by
  have hall : (items.zipIdx.map Prod.snd).Nodup := by
    rw [List.zipIdx_map_snd]
    exact List.nodup_range'
  exact hall.sublist (List.filter_sublist.map Prod.snd)

theorem length_indexesOf (items : List LootItem) (asked : LootItem → Bool) :
    (indexesOf items asked).length = items.countP asked := by
  unfold indexesOf
  rw [List.length_map, ← List.countP_eq_length_filter]
  have hmap : (items.zipIdx.map Prod.fst).countP asked = items.countP asked := by
    rw [List.zipIdx_map_fst]
  rw [← hmap, List.countP_map]
  rfl

section newList

variable {indexes : List ℕ} (hnone : lists.lookup player.guid = none)
include hnone

theorem entriesOf_newList (indexes : List ℕ) (f : QuestItem → Bool) :
    entriesOf (newList lists player indexes) f =
      entriesOf lists f + indexes.countP fun index => f ⟨index, false⟩ := by
  unfold newList
  split
  case isTrue hnil =>
    rw [hnil]
    rfl
  case isFalse =>
    have hsum := lists.sum_insert player.guid
      (indexes.map fun index => (⟨index, false⟩ : QuestItem)) fun list => list.countP f
    rw [hnone, Option.map_none, Option.getD_none, List.countP_map] at hsum
    exact hsum

theorem onList_newList (hnodup : indexes.Nodup) (index : ℕ) :
    onList (newList lists player indexes) index =
      (onList lists index || decide (index ∈ indexes)) := by
  unfold onList
  rw [entriesOf_newList hnone indexes]
  have hcount : (indexes.countP fun other => decide (other = index)) =
      if index ∈ indexes then 1 else 0 := by
    have hsame : (indexes.countP fun other => decide (other = index)) = indexes.count index :=
      List.countP_congr fun other _ => by rw [decide_eq_true_iff, beq_iff_eq]
    rw [hsame, hnodup.count]
  rw [hcount]
  by_cases hmem : index ∈ indexes
  · rw [if_pos hmem, decide_eq_true hmem, Bool.or_true]
    exact decide_eq_true (Nat.succ_pos _)
  · rw [if_neg hmem, decide_eq_false hmem, Bool.or_false]
    rfl

theorem entriesLooted_newList (guid index : ℕ) :
    entriesLooted (newList lists player indexes) guid index = entriesLooted lists guid index := by
  unfold newList
  split
  case isTrue => rfl
  case isFalse =>
    unfold entriesLooted
    rw [SortedMap.lookup_insert]
    by_cases hguid : guid = player.guid
    · rw [if_pos hguid, hguid, hnone, Option.getD_some, Option.getD_none, List.countP_nil]
      refine List.countP_eq_zero.mpr fun e he hlooted => ?_
      obtain ⟨_, -, rfl⟩ := List.mem_map.mp he
      exact Bool.false_ne_true (of_decide_eq_true hlooted).2
    · rw [if_neg hguid]

omit hnone in
theorem lists_newList {p : ℕ → Prop} (h : Lists lists p) (hnodup : indexes.Nodup)
    (hindexes : ∀ index ∈ indexes, p index) : Lists (newList lists player indexes) p := by
  unfold newList
  split
  case isTrue => exact h
  case isFalse =>
    intro list hlist
    rcases SortedMap.mem_values_insert hlist with rfl | hold
    · have hmap : ((indexes.map fun index => (⟨index, false⟩ : QuestItem)).map QuestItem.index) =
          indexes := by
        rw [List.map_map]
        exact List.map_id _
      rw [hmap]
      exact ⟨hnodup, hindexes⟩
    · exact h list hold

end newList

theorem Accounted.fillFFALoot (h : loot.Accounted T) (player : Player) :
    (loot.fillFFALoot T player).Accounted T := by
  unfold Loot.fillFFALoot
  generalize hindexes : indexesOf loot.items (fun item => item.isLooted = false ∧
    item.freeforall ∧ item.allowedForPlayer T player) = indexes
  have hnodup : indexes.Nodup := hindexes ▸ nodup_indexesOf ..
  have hvalid : ∀ index ∈ indexes,
      (loot.itemAt (.item index)).any LootItem.freeforall = true := by
    intro index hindex
    rw [← hindexes] at hindex
    obtain ⟨item, hat, hasked⟩ := mem_indexesOf.mp hindex
    change (loot.items[index]?).any _ = true
    rw [hat]
    exact (of_decide_eq_true hasked).2.1
  split
  case isTrue => exact h
  case isFalse hsome =>
    have hnone := Option.not_isSome_iff_eq_none.mp hsome
    refine ⟨⟨h.formed.quests, lists_newList h.formed.ffas hnodup hvalid, h.formed.conditionals,
      h.formed.counted, h.formed.someone⟩, ⟨h.once.known, h.once.once, ?_⟩, ?_⟩
    · rintro (index | index) item hat hfree guid
      · refine Nat.le_trans (h.once.onceEach (.item index) item hat hfree guid) (Nat.le_of_eq ?_)
        exact (entriesLooted_newList hnone guid index).symm
      · exact h.once.onceEach (.quest index) item hat hfree guid
    · have hentries := entriesOf_newList hnone indexes fun entry => entry.isLooted = false
      have hall : (indexes.countP fun index =>
          decide ((⟨index, false⟩ : QuestItem).isLooted = false)) = indexes.length :=
        List.countP_eq_length.mpr fun _ _ => rfl
      rw [hall] at hentries
      change (loot.unlootedCount + indexes.length) % 2 ^ 8 = (loot.places.countP (loot.isLeft T) +
        entriesOf (newList loot.playerFFAItems player indexes) _ +
          entriesOf loot.playerQuestItems loot.entryLeft) % 2 ^ 8
      rw [hentries, h.count]
      unfold deliveries
      omega

/-- **Where quest items get on a list right**: an item for one player is blocked when it is on the
list of another player, and only then. -/
def questsRight (T : Templates) (loot : Loot) (player : Player) : Bool :=
  (loot.playerQuestItems.lookup player.guid).isSome ||
    (loot.questIndexes T player).all fun index => (loot.questItems[index]?).all fun item =>
      item.freeforall || item.isBlocked == onList loot.playerQuestItems index

/-- What a new entry for a quest item is counted as. -/
def questEntryCounts (loot : Loot) (index : ℕ) : Bool :=
  (loot.itemAt (.quest index)).any fun item =>
    item.freeforall || !onList loot.playerQuestItems index

theorem Accounted.newQuestList (h : loot.Accounted T) {indexes : List ℕ}
    (hnone : loot.playerQuestItems.lookup player.guid = none) (hnodup : indexes.Nodup)
    (hvalid : ∀ index ∈ indexes, ∃ item, loot.itemAt (.quest index) = some item ∧
      item.isLooted = false) :
    { loot.countMore (indexes.countP loot.questEntryCounts) with
      playerQuestItems := newList loot.playerQuestItems player indexes }.Accounted T := by
  have hsome : ∀ index ∈ indexes, (loot.itemAt (.quest index)).isSome = true := by
    intro index hindex
    obtain ⟨item, hat, -⟩ := hvalid index hindex
    exact Option.isSome_of_eq_some hat
  refine ⟨⟨lists_newList h.formed.quests hnodup hsome, h.formed.ffas, h.formed.conditionals,
    h.formed.counted, h.formed.someone⟩, ⟨h.once.known, h.once.once, ?_⟩, ?_⟩
  · rintro (index | index) item hat hfree guid
    · exact h.once.onceEach (.item index) item hat hfree guid
    · refine Nat.le_trans (h.once.onceEach (.quest index) item hat hfree guid) (Nat.le_of_eq ?_)
      exact (entriesLooted_newList hnone guid index).symm
  · -- the entries for items that are free for all, and the places that were on no list
    let isFree : ℕ → Bool := fun index => (loot.itemAt (.quest index)).any LootItem.freeforall
    let isNew : ℕ → Bool := fun index => !isFree index && !onList loot.playerQuestItems index
    have hsplit : indexes.countP loot.questEntryCounts =
        indexes.countP isFree + indexes.countP isNew := by
      refine countP_either (fun index hindex => ?_) fun index _ hfree => ?_
      · obtain ⟨item, hat, -⟩ := hvalid index hindex
        simp only [questEntryCounts, isFree, isNew, hat, Option.any_some]
        cases item.freeforall <;> cases onList loot.playerQuestItems index <;> rfl
      · simp only [isNew, hfree, Bool.not_true, Bool.false_and]
    have hentries := entriesOf_newList hnone indexes loot.entryLeft
    have hfree : (indexes.countP fun index => loot.entryLeft ⟨index, false⟩) =
        indexes.countP isFree := by
      refine List.countP_congr fun index _ => ?_
      unfold entryLeft
      rw [decide_eq_true_iff]
      exact and_iff_right rfl
    rw [hfree] at hentries
    have hplaces : loot.places.countP (isLeft T { loot.countMore (indexes.countP
          loot.questEntryCounts) with
        playerQuestItems := newList loot.playerQuestItems player indexes }) =
        loot.places.countP (loot.isLeft T) + ((indexes.filter isNew).map Place.quest).length := by
      refine countP_more (nodup_places _)
        ((hnodup.filter _).map fun _ _ heq => Place.quest.inj heq) ?_ ?_ ?_
      · intro place hplace
        obtain ⟨index, hindex, rfl⟩ := List.mem_map.mp hplace
        exact mem_places.mpr (hsome index (List.mem_of_mem_filter hindex))
      · intro place hplace
        obtain ⟨index, hindex, rfl⟩ := List.mem_map.mp hplace
        have hnew := (List.mem_filter.mp hindex).2
        refine Bool.eq_false_iff.mpr fun hleft => ?_
        obtain ⟨item, hat, -⟩ := hvalid index (List.mem_of_mem_filter hindex)
        have hseen : onList loot.playerQuestItems index = true := ((isLeft_iff hat).mp hleft).2.2
        simp only [isNew, hseen, Bool.not_true, Bool.and_false, Bool.false_eq_true] at hnew
      · intro place _
        cases place with
        | item index =>
          have hnot : Place.item index ∉ (indexes.filter isNew).map Place.quest := by
            intro hmem
            obtain ⟨_, -, heq⟩ := List.mem_map.mp hmem
            nomatch heq
          rw [decide_eq_false hnot, Bool.or_false]
          rfl
        | quest index =>
          have hmem : Place.quest index ∈ (indexes.filter isNew).map Place.quest ↔
              index ∈ indexes ∧ isNew index = true := by
            rw [List.mem_map]
            constructor
            · rintro ⟨_, hindex, heq⟩
              obtain rfl := Place.quest.inj heq
              exact List.mem_filter.mp hindex
            · exact fun hindex => ⟨index, List.mem_filter.mpr hindex, rfl⟩
          change (loot.itemAt (.quest index)).any (fun item => item.freeforall = false ∧
            item.isLooted = false ∧ onList (newList loot.playerQuestItems player indexes) index) =
            ((loot.itemAt (.quest index)).any (fun item => item.freeforall = false ∧
              item.isLooted = false ∧ onList loot.playerQuestItems index) || _)
          rw [onList_newList hnone hnodup]
          by_cases hindex : index ∈ indexes
          · obtain ⟨item, hat, hlooted⟩ := hvalid index hindex
            simp only [hmem, hindex, true_and, isNew, isFree, hat, Option.any_some, hlooted,
              decide_true, Bool.or_true]
            cases item.freeforall <;> cases onList loot.playerQuestItems index <;> rfl
          · simp only [hmem, hindex, false_and, decide_false, Bool.or_false]
    rw [List.length_map, ← List.countP_eq_length_filter] at hplaces
    change (loot.unlootedCount + indexes.countP loot.questEntryCounts) % 2 ^ 8 =
      (loot.places.countP (isLeft T { loot.countMore (indexes.countP loot.questEntryCounts) with
        playerQuestItems := newList loot.playerQuestItems player indexes }) +
        entriesOf loot.playerFFAItems _ +
          entriesOf (newList loot.playerQuestItems player indexes) loot.entryLeft) % 2 ^ 8
    rw [hplaces, hentries, hsplit, h.count]
    unfold deliveries
    omega

theorem Accounted.fillQuestLoot (h : loot.Accounted T)
    (hright : loot.questsRight T player = true) : (loot.fillQuestLoot T player).Accounted T := by
  unfold questsRight at hright
  have hnodup : (loot.questIndexes T player).Nodup :=
    (nodup_indexesOf ..).sublist (List.take_sublist ..)
  have hvalid : ∀ index ∈ loot.questIndexes T player, ∃ item,
      loot.questItems[index]? = some item ∧ item.isLooted = false := by
    intro index hindex
    obtain ⟨item, hat, hasked⟩ := mem_indexesOf.mp (List.mem_of_mem_take hindex)
    exact ⟨item, hat, (of_decide_eq_true hasked).1⟩
  unfold Loot.fillQuestLoot
  dsimp only
  generalize loot.questIndexes T player = indexes at hright hnodup hvalid ⊢
  split
  case isTrue => exact h
  case isFalse hsome =>
    have hnone := Option.not_isSome_iff_eq_none.mp hsome
    rw [hnone, Option.isSome_none, Bool.false_or, List.all_eq_true] at hright
    generalize hitems : (loot.questItems.mapIdx fun index item =>
      if index ∈ indexes ∧ blocksQuestItems player then { item with isBlocked := true }
      else item) = questItems
    have hat : ∀ index ∈ indexes, ∃ item item', loot.questItems[index]? = some item ∧
        questItems[index]? = some item' ∧ item'.freeforall = item.freeforall ∧
        item'.isLooted = item.isLooted ∧ item.isLooted = false := by
      intro index hindex
      obtain ⟨item, hitem, hlooted⟩ := hvalid index hindex
      refine ⟨item, _, hitem, by rw [← hitems, List.getElem?_mapIdx, hitem, Option.map_some], ?_⟩
      split <;> exact ⟨rfl, rfl, hlooted⟩
    have hblocked : Accounted T { loot with questItems := questItems } := by
      refine (h.mapItems (f := fun _ item => item)
        (g := fun index item => if index ∈ indexes ∧ blocksQuestItems player then
          { item with isBlocked := true } else item)
        (fun _ => Option.map_id'.symm) (fun _ => by rw [← hitems, List.getElem?_mapIdx])
        (fun _ _ => ⟨rfl, rfl⟩) fun index item => ?_).accounted
      split <;> exact ⟨rfl, rfl⟩
    have hcount : (indexes.countP fun index => (loot.questItems[index]?).any countsAsQuestItem) =
        indexes.countP (questEntryCounts { loot with questItems := questItems }) := by
      refine List.countP_congr fun index hindex => ?_
      obtain ⟨item, item', hitem, hitem', hfree, -, -⟩ := hat index hindex
      have hthis := hright index hindex
      change (loot.questItems[index]?).any _ = true ↔ (questItems[index]?).any _ = true
      rw [hitem, Option.all_some] at hthis
      rw [hitem, hitem', Option.any_some, Option.any_some, hfree]
      unfold countsAsQuestItem
      cases hcase : item.freeforall with
      | true => simp
      | false =>
        rw [hcase, Bool.false_or, beq_iff_eq] at hthis
        rw [hthis]
        simp
    rw [hcount]
    refine hblocked.newQuestList hnone hnodup fun index hindex => ?_
    obtain ⟨item, item', -, hitem', -, hsame, hlooted⟩ := hat index hindex
    exact ⟨item', hitem', hsame.trans hlooted⟩

/-! ### Conditions -/

/-- The mark of an item that is on a list by its conditions. -/
def markCounted (T : Templates) (player : Player) (item : LootItem) : LootItem :=
  if hasConditionFor T player item then { item with isCounted := true } else item

/-- An item that comes to a list for the first time. -/
def isNewFor (T : Templates) (player : Player) (item : LootItem) : Bool :=
  hasConditionFor T player item ∧ item.isCounted = false

/-- The loot with the list of one more player. -/
def withConditionals (T : Templates) (loot : Loot) (player : Player) : Loot :=
  { loot.countMore (loot.items.countP (isNewFor T player)) with
    playerNonQuestNonFFAConditionalItems := newList loot.playerNonQuestNonFFAConditionalItems player
      (indexesOf loot.items (hasConditionFor T player))
    items := loot.items.map (markCounted T player) }

section Conditionals

variable {player : Player}

theorem markCounted_spec (item : LootItem) : (markCounted T player item).itemid = item.itemid ∧
    (markCounted T player item).conditions = item.conditions ∧
    (markCounted T player item).freeforall = item.freeforall ∧
    (markCounted T player item).isLooted = item.isLooted := by
  unfold markCounted
  split <;> exact ⟨rfl, rfl, rfl, rfl⟩

theorem mem_indexesOf_of_item {asked : LootItem → Bool} (hat : loot.items[index]? = some item) :
    index ∈ indexesOf loot.items asked ↔ asked item = true := by
  refine mem_indexesOf.trans ⟨?_, fun hasked => ⟨item, hat, hasked⟩⟩
  rintro ⟨item', hat', hasked⟩
  exact Option.some.inj (hat.symm.trans hat') ▸ hasked

theorem itemAt_withConditionals (index : ℕ) :
    (loot.withConditionals T player).itemAt (.item index) =
      (loot.itemAt (.item index)).map (markCounted T player) :=
  List.getElem?_map ..

/-- Each item is the one from before, with its mark. -/
theorem of_itemAt_withConditionals {item' : LootItem}
    (hat : (loot.withConditionals T player).itemAt (.item index) = some item') :
    ∃ item, loot.itemAt (.item index) = some item ∧ item' = markCounted T player item := by
  rw [itemAt_withConditionals] at hat
  obtain ⟨item, hitem, hthis⟩ := Option.map_eq_some_iff.mp hat
  exact ⟨item, hitem, hthis.symm⟩

theorem isSome_withConditionals (index : ℕ) :
    ((loot.withConditionals T player).itemAt (.item index)).isSome =
      (loot.itemAt (.item index)).isSome := by
  rw [itemAt_withConditionals, Option.isSome_map]

theorem onList_withConditionals
    (hnone : loot.playerNonQuestNonFFAConditionalItems.lookup player.guid = none) (index : ℕ) :
    onList (loot.withConditionals T player).playerNonQuestNonFFAConditionalItems index =
      (onList loot.playerNonQuestNonFFAConditionalItems index ||
        decide (index ∈ indexesOf loot.items (hasConditionFor T player))) :=
  onList_newList hnone (nodup_indexesOf ..) index

theorem Formed.withConditionals (h : loot.Formed T)
    (hnone : loot.playerNonQuestNonFFAConditionalItems.lookup player.guid = none) :
    (loot.withConditionals T player).Formed T := by
  refine ⟨h.quests, ?_, ?_, ?_, ?_⟩
  · refine h.ffas.imp fun index hfree => ?_
    rw [itemAt_withConditionals, ← hfree]
    cases loot.itemAt (.item index) with
    | none => rfl
    | some item => exact (markCounted_spec item).2.2.1
  · refine lists_newList (h.conditionals.imp fun index => (isSome_withConditionals index).trans)
      (nodup_indexesOf ..) fun index hindex => (isSome_withConditionals index).trans ?_
    obtain ⟨item, hitem, -⟩ := mem_indexesOf.mp hindex
    exact Option.isSome_of_eq_some hitem
  · intro index item' hat hfree hconditions
    obtain ⟨item, hitem, rfl⟩ := of_itemAt_withConditionals hat
    obtain ⟨-, hsame, hfree', -⟩ := @markCounted_spec T player item
    rw [onList_withConditionals hnone,
      ← h.counted index item hitem (hfree' ▸ hfree) (hsame ▸ hconditions)]
    unfold markCounted
    by_cases hhas : hasConditionFor T player item = true
    · rw [if_pos hhas, decide_eq_true ((mem_indexesOf_of_item hitem).mpr hhas), Bool.or_true]
    · rw [if_neg hhas, decide_eq_false fun hindex => hhas ((mem_indexesOf_of_item hitem).mp hindex),
        Bool.or_false]
  · intro index item' hat hfree hconditions
    obtain ⟨item, hitem, rfl⟩ := of_itemAt_withConditionals hat
    obtain ⟨hid, hsame, hfree', -⟩ := @markCounted_spec T player item
    unfold LootItem.forSomeone
    rw [hid]
    exact h.someone index item hitem (hfree' ▸ hfree) (hsame ▸ hconditions)

theorem Once.withConditionals (h : loot.Once) : (loot.withConditionals T player).Once := by
  refine h.mono rfl ?_ ?_ ?_
  · rintro (index | index)
    · exact (isSome_withConditionals index).trans
    · exact fun hsome => hsome
  · rintro (index | index) item item' hat hat'
    · obtain ⟨item₁, hitem, rfl⟩ := of_itemAt_withConditionals hat'
      obtain rfl := Option.some.inj (hat.symm.trans hitem)
      exact (markCounted_spec item).2.2
    · obtain rfl := Option.some.inj (hat.symm.trans hat')
      exact ⟨rfl, rfl⟩
  · rintro guid (index | index) <;> exact Nat.le_refl _

/-- An item that is new for a player was not left to anybody. -/
theorem not_isLeft_of_isNewFor (h : loot.Formed T) (hitem : loot.itemAt (.item index) = some item)
    (hnew : isNewFor T player item = true) : loot.isLeft T (.item index) = false := by
  obtain ⟨hhas, hnot⟩ := of_decide_eq_true hnew
  obtain ⟨-, hfree, -, hconditions⟩ := of_decide_eq_true hhas
  refine Bool.eq_false_iff.mpr fun hleft => ?_
  have hseen : (loot.itemAt (.item index)).any _ = true := ((isLeft_iff hitem).mp hleft).2.2
  rw [hitem, Option.any_some, if_neg hconditions, ← h.counted index item hitem hfree hconditions,
    hnot] at hseen
  exact Bool.false_ne_true hseen

/-- **What is left then**: what was left before, and what is new for the player. -/
theorem isLeft_withConditionals (h : loot.Formed T)
    (hnone : loot.playerNonQuestNonFFAConditionalItems.lookup player.guid = none)
    (hitem : loot.itemAt (.item index) = some item) :
    (loot.withConditionals T player).isLeft T (.item index) =
      (loot.isLeft T (.item index) || isNewFor T player item) := by
  have hitem' : (loot.withConditionals T player).itemAt (.item index) =
      some (markCounted T player item) := by
    rw [itemAt_withConditionals, hitem]
    rfl
  obtain ⟨hid, hsame, hfree', hlooted'⟩ := @markCounted_spec T player item
  have hseen : (loot.withConditionals T player).mayBeSeen T (.item index) =
      if item.conditions = [] then item.forSomeone T
      else (onList loot.playerNonQuestNonFFAConditionalItems index ||
        decide (index ∈ indexesOf loot.items (hasConditionFor T player))) := by
    change ((loot.withConditionals T player).itemAt (.item index)).any _ = _
    rw [hitem', Option.any_some, hsame, ← onList_withConditionals hnone]
    unfold LootItem.forSomeone
    rw [hid]
  have hseen' : loot.mayBeSeen T (.item index) = if item.conditions = [] then
      item.forSomeone T else onList loot.playerNonQuestNonFFAConditionalItems index := by
    change (loot.itemAt (.item index)).any _ = _
    rw [hitem, Option.any_some]
  rw [Bool.eq_iff_iff, Bool.or_eq_true, isLeft_iff hitem', isLeft_iff hitem, hfree', hlooted',
    hseen, hseen']
  by_cases hhas : hasConditionFor T player item = true
  · obtain ⟨hnot, hfree, -, hconditions⟩ := of_decide_eq_true hhas
    rw [if_neg hconditions, if_neg hconditions,
      decide_eq_true ((mem_indexesOf_of_item hitem).mpr hhas), Bool.or_true,
      ← h.counted index item hitem hfree hconditions]
    have hnew : isNewFor T player item = true ↔ item.isCounted = false := by
      unfold isNewFor
      rw [decide_eq_true_iff, and_iff_right hhas]
    rw [hnew]
    simp only [hnot, hfree, true_and, true_iff]
    cases item.isCounted
    · exact Or.inr rfl
    · exact Or.inl rfl
  · have hnew : ¬ isNewFor T player item = true := fun hnew => hhas (of_decide_eq_true hnew).1
    rw [decide_eq_false fun hindex => hhas ((mem_indexesOf_of_item hitem).mp hindex),
      Bool.or_false, or_iff_left hnew]

/-- The items that are new for the player are the deliveries that come to it. -/
theorem deliveries_withConditionals (h : loot.Formed T)
    (hnone : loot.playerNonQuestNonFFAConditionalItems.lookup player.guid = none) :
    (loot.withConditionals T player).deliveries T =
      loot.deliveries T + loot.items.countP (isNewFor T player) := by
  have hplaces : (loot.withConditionals T player).places = loot.places := by
    change (List.range (loot.items.map _).length).map Place.item ++ _ = _
    rw [List.length_map]
    rfl
  have hmore : loot.places.countP ((loot.withConditionals T player).isLeft T) =
      loot.places.countP (loot.isLeft T) +
        ((indexesOf loot.items (isNewFor T player)).map Place.item).length := by
    refine countP_more (nodup_places _)
      ((nodup_indexesOf ..).map fun _ _ heq => Place.item.inj heq) ?_ ?_ ?_
    · intro place hplace
      obtain ⟨index, hindex, rfl⟩ := List.mem_map.mp hplace
      obtain ⟨item, hitem, -⟩ := mem_indexesOf.mp hindex
      exact mem_places.mpr (Option.isSome_of_eq_some hitem)
    · intro place hplace
      obtain ⟨index, hindex, rfl⟩ := List.mem_map.mp hplace
      obtain ⟨item, hitem, hnew⟩ := mem_indexesOf.mp hindex
      exact not_isLeft_of_isNewFor h hitem hnew
    · rintro (index | index) hplace
      · obtain ⟨item, hitem⟩ := Option.isSome_iff_exists.mp (mem_places.mp hplace)
        have hys :
            decide (Place.item index ∈ (indexesOf loot.items (isNewFor T player)).map Place.item) =
              isNewFor T player item := by
          rw [Bool.eq_iff_iff, decide_eq_true_iff, List.mem_map, ← mem_indexesOf_of_item hitem]
          refine ⟨?_, fun hindex => ⟨index, hindex, rfl⟩⟩
          rintro ⟨_, hindex, heq⟩
          exact Place.item.inj heq ▸ hindex
        rw [isLeft_withConditionals h hnone hitem, hys]
      · have hnot : Place.quest index ∉
            (indexesOf loot.items (isNewFor T player)).map Place.item := by
          intro hindex
          obtain ⟨_, -, heq⟩ := List.mem_map.mp hindex
          nomatch heq
        rw [decide_eq_false hnot, Bool.or_false]
        rfl
  rw [List.length_map, length_indexesOf] at hmore
  unfold deliveries
  rw [hplaces, hmore]
  change _ + entriesOf loot.playerFFAItems _ + entriesOf loot.playerQuestItems loot.entryLeft = _
  omega

theorem Accounted.fillNonQuestNonFFAConditionalLoot (h : loot.Accounted T) (player : Player) :
    (loot.fillNonQuestNonFFAConditionalLoot T player).Accounted T := by
  unfold Loot.fillNonQuestNonFFAConditionalLoot
  split
  case isTrue => exact h
  case isFalse hsome =>
    have hnone := Option.not_isSome_iff_eq_none.mp hsome
    change (loot.withConditionals T player).Accounted T
    refine ⟨h.formed.withConditionals hnone, h.once.withConditionals, ?_⟩
    rw [deliveries_withConditionals h.formed hnone]
    change (loot.unlootedCount + loot.items.countP (isNewFor T player)) % 2 ^ 8 = _
    rw [h.count]
    omega

end Conditionals

/-! ## 8. Runs -/

/-- **What is asked of filling.** -/
def FillsRight (T : Templates) (loot : Loot) : FillOp → Prop
  | .addItem li _ => addsRight T li = true
  | .fillQuestLoot player => loot.questsRight T player = true
  | .storeCurrency player slot => loot.storesRight T player slot = true
  | .fillFFALoot _ | .fillNonQuestNonFFAConditionalLoot _ | .markUnderthreshold _ => True

instance : ∀ op, Decidable (loot.FillsRight T op)
  | .addItem li _ => inferInstanceAs (Decidable (addsRight T li = true))
  | .fillQuestLoot player => inferInstanceAs (Decidable (loot.questsRight T player = true))
  | .storeCurrency player slot =>
    inferInstanceAs (Decidable (loot.storesRight T player slot = true))
  | .fillFFALoot _ | .fillNonQuestNonFFAConditionalLoot _ | .markUnderthreshold _ =>
    inferInstanceAs (Decidable True)

/-- **What is asked of taking**: wherever something is handed out it is left. -/
def TakesRight (T : Templates) (loot : Loot) : LootOp → Prop
  | .storeLootItem player lootSlot => loot.storesRight T player lootSlot = true
  | .lootMasterGive master target together slot =>
    loot.givesRight T master target together slot = true
  | .countTheRoll itemSlot result => loot.rollsRight T itemSlot result = true
  | .groupLoot _ _ | .masterLoot | .lootMoney => True

instance : ∀ op, Decidable (loot.TakesRight T op)
  | .storeLootItem player lootSlot =>
    inferInstanceAs (Decidable (loot.storesRight T player lootSlot = true))
  | .lootMasterGive master target together slot =>
    inferInstanceAs (Decidable (loot.givesRight T master target together slot = true))
  | .countTheRoll itemSlot result =>
    inferInstanceAs (Decidable (loot.rollsRight T itemSlot result = true))
  | .groupLoot _ _ | .masterLoot | .lootMoney => inferInstanceAs (Decidable True)

theorem Accounted.fill (h : loot.Accounted T) {op : FillOp} (hop : loot.FillsRight T op) :
    (loot.fill T op).Accounted T := by
  cases op with
  | addItem li count => exact h.addItem hop count
  | fillQuestLoot player => exact h.fillQuestLoot hop
  | fillFFALoot player => exact h.fillFFALoot player
  | fillNonQuestNonFFAConditionalLoot player => exact h.fillNonQuestNonFFAConditionalLoot player
  | storeCurrency player slot =>
    change (loot.storeCurrency T player slot).Accounted T
    unfold Loot.storeCurrency
    split
    · exact (h.storeLootItem hop).accounted
    · exact h
  | markUnderthreshold threshold => exact (h.markUnderthreshold threshold).accounted

theorem Accounted.handle (h : loot.Accounted T) {op : LootOp} (hop : loot.TakesRight T op) :
    Leaves T loot (loot.handle T op) := by
  cases op with
  | storeLootItem player lootSlot => exact h.storeLootItem hop
  | lootMasterGive master target together slot => exact h.lootMasterGive hop
  | countTheRoll itemSlot result => exact h.countTheRoll hop
  | groupLoot threshold rolls => exact h.groupLoot threshold rolls
  | masterLoot => exact h.masterLoot
  | lootMoney => exact h.lootMoney

theorem accounted_start (gold : ℕ) : (start gold).Accounted T where
  formed := ⟨nofun, nofun, nofun, nofun, nofun⟩
  once := by
    have hnone : ∀ place item, (start gold).itemAt place ≠ some item := by
      intro place item
      cases place <;> exact nofun
    exact ⟨nofun, fun place item hat => absurd hat (hnone place item),
      fun place item hat => absurd hat (hnone place item)⟩
  count := rfl

/-- **Each thing is handed out once, and the number is that of what is left.** -/
structure Sound (T : Templates) (loot : Loot) : Prop where
  once : ∀ place item, loot.itemAt place = some item → item.freeforall = false →
    loot.delivered.countP (fun d => d.1 = place) ≤ 1
  onceEach : ∀ place item, loot.itemAt place = some item → item.freeforall = true → ∀ guid,
    loot.delivered.count (place, guid) ≤ 1
  count : loot.unlootedCount = loot.deliveries T
  looted : loot.isLooted = true ↔ loot.gold = 0 ∧ loot.deliveries T = 0

/-- A player has one entry for an index. -/
theorem entriesLooted_le_one {p : ℕ → Prop} (h : Lists lists p) (guid index : ℕ) :
    entriesLooted lists guid index ≤ 1 := by
  unfold entriesLooted
  cases hlist : lists.lookup guid with
  | none => exact Nat.zero_le _
  | some list =>
    have hnodup := (h list (SortedMap.mem_values.mpr ⟨guid, hlist⟩)).1
    have hmap : (list.countP fun entry => decide (entry.index = index)) ≤ 1 := by
      have hcount := List.nodup_iff_count_le_one.mp hnodup index
      rwa [List.count, List.countP_map] at hcount
    refine Nat.le_trans (List.countP_mono_left fun entry _ hboth => ?_) hmap
    exact decide_eq_true (of_decide_eq_true hboth).1

theorem Accounted.sound (h : loot.Accounted T) (hfew : loot.deliveries T < 2 ^ 8) :
    loot.Sound T := by
  have hcount : loot.unlootedCount = loot.deliveries T := h.count.trans (Nat.mod_eq_of_lt hfew)
  refine ⟨fun place item hat hfree => ?_, fun place item hat hfree guid => ?_, hcount, ?_⟩
  · refine Nat.le_trans (h.once.once place item hat hfree) ?_
    cases item.isLooted <;> decide
  · refine Nat.le_trans (h.once.onceEach place item hat hfree guid) ?_
    cases place with
    | item index => exact entriesLooted_le_one h.formed.ffas guid index
    | quest index => exact entriesLooted_le_one h.formed.quests guid index
  · unfold isLooted
    rw [decide_eq_true_iff, hcount]

end Loot

open Loot

/-- **Loot is taken once and accounted for**: loot is generated, and things are taken from it. -/
theorem loot_accounted (T : Templates) (gold : ℕ) (generated : List (LootStoreItem × ℕ))
    (lootOwner : Player) (personal : Bool) (members : List (Player × Bool)) (ops : List LootOp)
    (hfill : Along (Loot.fill T) (FillsRight T) (start gold)
      ((start gold).fillLoot T generated lootOwner personal members))
    (hfew : (exec (Loot.fill T) (start gold)
      ((start gold).fillLoot T generated lootOwner personal members)).deliveries T < 2 ^ 8)
    (htake : Along (Loot.handle T) (TakesRight T) (exec (Loot.fill T) (start gold)
      ((start gold).fillLoot T generated lootOwner personal members)) ops) :
    (exec (Loot.handle T) (exec (Loot.fill T) (start gold)
      ((start gold).fillLoot T generated lootOwner personal members)) ops).Sound T := by
  have hfillStep : ∀ loot op, Accounted T loot → FillsRight T loot op →
      Accounted T (loot.fill T op) := fun _ _ h hop => h.fill hop
  have hfilled := exec_invariant hfillStep (accounted_start gold) hfill
  generalize exec (Loot.fill T) (start gold)
    ((start gold).fillLoot T generated lootOwner personal members) = loot at hfew htake hfilled ⊢
  have hstep : ∀ loot op, Accounted T loot ∧ loot.deliveries T < 2 ^ 8 → TakesRight T loot op →
      Accounted T (loot.handle T op) ∧ (loot.handle T op).deliveries T < 2 ^ 8 := by
    intro loot op h hop
    have hleaves := h.1.handle hop
    exact ⟨hleaves.accounted, Nat.lt_of_le_of_lt hleaves.fewer h.2⟩
  have htaken := exec_invariant hstep ⟨hfilled, hfew⟩ htake
  exact htaken.1.sound htaken.2

/-! ### Two players in a group -/

/-- The second item is free for all. -/
def someTemplates : Templates := fun itemid =>
  some ⟨20, 2, itemid = 2, false, 0, 0, false, false, false, 0, false, false⟩

/-- A player who may have anything, in a group where loot is free for all. -/
def somePlayer (guid : ℕ) : Player :=
  ⟨guid, some ⟨.freeForAll, 0, 2⟩, .alliance, fun _ => true, fun _ => false, fun _ => false,
    fun _ => true, fun _ => true, fun _ _ => true⟩

theorem loot_accounted_two :
    (exec (Loot.handle someTemplates) (exec (Loot.fill someTemplates) (start 5)
      ((start 5).fillLoot someTemplates [(⟨1, false, []⟩, 1), (⟨2, false, []⟩, 1),
        (⟨3, true, []⟩, 1)] (somePlayer 10) false [(somePlayer 10, true), (somePlayer 11, true)]))
      [.storeLootItem (somePlayer 10) 0, .storeLootItem (somePlayer 11) 1,
        .storeLootItem (somePlayer 10) 1, .storeLootItem (somePlayer 11) 2, .lootMoney]).Sound
      someTemplates :=
  loot_accounted someTemplates 5 _ (somePlayer 10) false _ _ (by decide) (by decide) (by decide)

/-- **An item with a condition is handed out twice**: each of two players has an entry for it, and
only his own is looted. -/
theorem conditional_item_twice :
    ¬ (exec (Loot.handle someTemplates) (exec (Loot.fill someTemplates) (start 0)
      ((start 0).fillLoot someTemplates [(⟨1, false, [7]⟩, 1)] (somePlayer 10) false
        [(somePlayer 10, true), (somePlayer 11, true)]))
      [.storeLootItem (somePlayer 10) 0, .storeLootItem (somePlayer 11) 0]).Sound
      someTemplates := by
  intro h
  have htwice := h.once (.item 0)
  revert htwice
  decide

end HungerGames.Looting
