/-
# The recursion of loot templates

A template is processed, and searched, through its references.  Whether that ends is a question of
which template refers to which: it does where the chain of references does (`answers_of_acc`), and
where it ends the chain does (`acc_of_answers`).  The loading checks that references exist, and
not where they lead.  So processing and searching end for all loot of the tables just where no
template of a store refers back to itself (`terminates_iff`).

References to a group are not followed, and groups have none.
-/
import HungerGames.Looting.LootStore

namespace HungerGames.Looting

open HungerGames.System Relation

/-! ## 1. References -/

/-- A template of the store refers to another as a whole, by an item of some kind. -/
def RefersBy (store : Store) (follows : TemplateItem → Prop) (id id' : ℕ) : Prop :=
  ∃ template item, store.lookup id = some template ∧ item ∈ template.entries ∧ follows item ∧
    item.group = 0 ∧ item.referenced = id' ∧ ∃ template', store.lookup id' = some template'

/-- **A template refers to another** of its store. -/
def Refers (store : Store) : ℕ → ℕ → Prop := RefersBy store fun item => item.isReference = true

/-- A reference that is rolled in some loot mode, at least once. -/
def Drops (rates : Rates) (item : TemplateItem) : Prop :=
  item.isReference = true ∧ item.lootmode ≠ 0 ∧ 0 < item.times rates

variable {store : Store} {follows : TemplateItem → Prop}

theorem refersBy_mono {follows' : TemplateItem → Prop} (h : ∀ item, follows item → follows' item)
    {id id' : ℕ} (hrefers : RefersBy store follows id id') : RefersBy store follows' id id' := by
  obtain ⟨template, item, hlookup, hitem, hfollows, hrest⟩ := hrefers
  exact ⟨template, item, hlookup, hitem, h item hfollows, hrest⟩

/-- Without a cycle all chains of references end. -/
theorem wellFounded_refersBy (h : ∀ id, ¬ TransGen (RefersBy store follows) id id) :
    WellFounded fun id' id => RefersBy store follows id id' := by
  have htargets : ∀ id id', RefersBy store follows id id' → id' ∈ store.keys := by
    rintro id id' ⟨-, -, -, -, -, -, -, template', hlookup⟩
    exact SortedMap.mem_keys.mpr ⟨template', SortedMap.lookup_eq_some.mp hlookup⟩
  exact wellFounded_of_acyclic htargets h

/-! ## 2. Recursion through references -/

section

/-! The calls of a recursive function at a depth have results, or not.  A group has one at once;
a template as a whole has one when what it follows has, one less deep. -/

variable {answers : ℕ → LootTemplate → ℕ → Prop}

/-- **What is followed ends**, so the template does. -/
theorem answers_of_targets (hgroup : ∀ n template groupId, groupId ≠ 0 →
      answers (n + 1) template groupId)
    (hentries : ∀ n template, (∀ item ∈ template.entries, follows item → ∀ template',
      store.lookup item.referenced = some template' → answers n template' item.group) →
        answers (n + 1) template 0)
    {template : LootTemplate} (h : ∀ item ∈ template.entries, follows item → item.group = 0 →
      ∀ template', store.lookup item.referenced = some template' →
        ∃ m, ∀ n, m ≤ n → ∀ groupId, answers n template' groupId) :
    ∃ m, ∀ n, m ≤ n → ∀ groupId, answers n template groupId := by
  have hall : ∀ item ∈ template.entries, ∃ m, ∀ n, m ≤ n → follows item → ∀ template',
      store.lookup item.referenced = some template' → answers n template' item.group := by
    intro item hitem
    by_cases hgroupId : item.group = 0
    · by_cases hfollows : follows item
      · cases hlookup : store.lookup item.referenced with
        | none => exact ⟨0, fun _ _ _ _ heq => nomatch heq⟩
        | some template' =>
          obtain ⟨m, hm⟩ := h item hitem hfollows hgroupId template' hlookup
          refine ⟨m, fun n hn _ template'' heq => ?_⟩
          rw [← Option.some.inj heq]
          exact hm n hn item.group
      · exact ⟨0, fun _ _ hyes => absurd hyes hfollows⟩
    · refine ⟨1, fun n hn _ template' _ => ?_⟩
      obtain ⟨n, rfl⟩ : ∃ k, n = k + 1 := ⟨n - 1, by omega⟩
      exact hgroup n template' item.group hgroupId
  obtain ⟨m, hm⟩ := eventually_all hall
  refine ⟨m + 1, fun n hn groupId => ?_⟩
  obtain ⟨n, rfl⟩ : ∃ k, n = k + 1 := ⟨n - 1, by omega⟩
  by_cases hgroupId : groupId = 0
  · rw [hgroupId]
    exact hentries n template fun item hitem => hm item hitem n (by omega)
  · exact hgroup n template groupId hgroupId

/-- **Where the chain of references ends** the recursion does. -/
theorem answers_of_acc (hgroup : ∀ n template groupId, groupId ≠ 0 →
      answers (n + 1) template groupId)
    (hentries : ∀ n template, (∀ item ∈ template.entries, follows item → ∀ template',
      store.lookup item.referenced = some template' → answers n template' item.group) →
        answers (n + 1) template 0)
    {id : ℕ} (hacc : Acc (fun id' id => RefersBy store follows id id') id) :
    ∀ template, store.lookup id = some template →
      ∃ m, ∀ n, m ≤ n → ∀ groupId, answers n template groupId := by
  induction hacc with
  | intro id _ ih =>
    intro template hlookup
    refine answers_of_targets hgroup hentries fun item hitem hfollows hgroupId template' htarget =>
      ih item.referenced ?_ template' htarget
    exact ⟨template, item, hlookup, hitem, hfollows, hgroupId, rfl, template', htarget⟩

/-- **Where the recursion ends** the chain of references does. -/
theorem acc_of_answers (hnone : ∀ template groupId, ¬ answers 0 template groupId)
    (hvisits : ∀ n id template, store.lookup id = some template → answers (n + 1) template 0 →
      ∀ item ∈ template.entries, follows item → ∀ template',
        store.lookup item.referenced = some template' → answers n template' item.group) :
    ∀ (n id : ℕ) (template : LootTemplate), store.lookup id = some template →
      answers n template 0 → Acc (fun id' id => RefersBy store follows id id') id
  | 0, _, template, _, h => absurd h (hnone template 0)
  | n + 1, id, template, hlookup, h => by
    refine Acc.intro id ?_
    rintro _ ⟨template₁, item, hlookup₁, hitem, hfollows, hgroupId, rfl, template', htarget⟩
    rw [hlookup] at hlookup₁
    obtain rfl := Option.some.inj hlookup₁
    have hanswers := hvisits n id template hlookup h item hitem hfollows template' htarget
    rw [hgroupId] at hanswers
    exact acc_of_answers hnone hvisits n item.referenced template' htarget hanswers

end

/-! ## 3. What is loaded -/

variable {T : Templates}

variable {item : TemplateItem} {template : LootTemplate}

/-- What a template has after an item is added to it. -/
theorem mem_addEntry {other : TemplateItem} (h : other ∈ (template.addEntry item).entries) :
    other ∈ template.entries ∨ other = item := by
  unfold LootTemplate.addEntry at h
  by_cases hgroup : 0 < item.group ∧ 0 < item.mincountOrRef
  · rw [if_pos hgroup] at h
    exact Or.inl h
  · rw [if_neg hgroup] at h
    rcases List.mem_append.mp h with h | h
    · exact Or.inl h
    · exact Or.inr (List.mem_singleton.mp h)

/-- What holds of the items of valid rows holds of all that is loaded. -/
theorem loadRows_items {P : TemplateItem → Prop}
    (hrow : ∀ row, (TemplateItem.ofRow row).isValid T = true → P (.ofRow row)) :
    ∀ (rows : List LootRow) {store : Store},
      (∀ id template, store.lookup id = some template → ∀ item ∈ template.entries, P item) →
      ∀ id template, (Store.loadRows T rows store).lookup id = some template →
        ∀ item ∈ template.entries, P item
  | [], _, hstore => hstore
  | row :: rows, store, hstore => by
    rw [Store.loadRows]
    by_cases hgroup : 128 ≤ row.group.toNat
    · rw [if_pos hgroup]
      exact hstore
    rw [if_neg hgroup]
    by_cases hvalid : (TemplateItem.ofRow row).isValid T = true
    · rw [if_pos hvalid]
      refine loadRows_items hrow rows fun id template hlookup item hitem => ?_
      unfold Store.addRow at hlookup
      rw [SortedMap.lookup_insert] at hlookup
      by_cases hid : id = row.entry
      · rw [if_pos hid] at hlookup
        obtain rfl := Option.some.inj hlookup
        rcases mem_addEntry hitem with hold | rfl
        · cases hfound : store.lookup row.entry with
          | none =>
            rw [hfound] at hold
            cases hold
          | some found =>
            rw [hfound] at hold
            exact hstore row.entry found hfound item hold
        · exact hrow row hvalid
      · rw [if_neg hid] at hlookup
        exact hstore id template hlookup item hitem
    · rw [if_neg hvalid]
      exact loadRows_items hrow rows hstore

/-- **A valid reference has a chance.** -/
theorem chance_of_isValid {row : LootRow} (hvalid : (TemplateItem.ofRow row).isValid T = true)
    (hreference : (TemplateItem.ofRow row).isReference = true) :
    0 < (TemplateItem.ofRow row).chance := by
  have hneg : row.mincountOrRef < 0 := of_decide_eq_true hreference
  unfold TemplateItem.isValid at hvalid
  rw [if_neg (show (TemplateItem.ofRow row).mincountOrRef ≠ 0 from by
    change row.mincountOrRef ≠ 0
    omega), if_neg (show ¬ 0 < (TemplateItem.ofRow row).mincountOrRef from by
    change ¬ 0 < row.mincountOrRef
    omega)] at hvalid
  change 0 < if row.chanceOrQuestChance < 0 then -row.chanceOrQuestChance
    else row.chanceOrQuestChance
  by_cases hquest : row.chanceOrQuestChance < 0
  · rw [if_pos hquest]
    exact Rat.lt_neg_iff.mp hquest
  · rw [if_neg hquest]
    rcases Bool.or_eq_true_iff.mp hvalid with h | h
    · exact absurd (of_decide_eq_true h) hquest
    · have hne : (TemplateItem.ofRow row).chance ≠ 0 := of_decide_eq_true h
      have heq : (TemplateItem.ofRow row).chance = row.chanceOrQuestChance := if_neg hquest
      rw [heq] at hne
      exact Rat.lt_of_le_of_ne (Rat.not_lt.mp hquest) hne.symm

theorem store_chance {tables : Tables} {name : StoreName} {id : ℕ}
    (hlookup : (tables.store T name).lookup id = some template) :
    ∀ item ∈ template.entries, item.isReference = true → 0 < item.chance :=
  loadRows_items (P := fun item => item.isReference = true → 0 < item.chance)
    (fun _ => chance_of_isValid) (tables name)
    (fun _ _ h => absurd (SortedMap.lookup_eq_some.mp h) List.not_mem_nil) id template hlookup

/-! ## 4. Searching -/

variable {asked : TemplateItem → Bool} {depth : ℕ}

theorem search_group {groupId : ℕ} (hgroupId : groupId ≠ 0) :
    template.search store asked (depth + 1) groupId =
      some ((template.group? groupId).any (LootGroup.hasDrop asked)) := if_pos hgroupId

theorem search_whole :
    template.search store asked (depth + 1) 0 = (template.entries.anyM (LootTemplate.searchEntry
      store (LootTemplate.search store asked depth) asked)).map fun found =>
        found || (template.groups.filterMap id).any (LootGroup.hasDrop asked) := rfl

/-- **A search ends where the chain of references does**, whatever is searched for. -/
theorem search_of_acc {id : ℕ} (hacc : Acc (fun id' id => Refers store id id') id)
    (hlookup : store.lookup id = some template) (groupId : ℕ) :
    ∃ depth, (template.search store asked depth groupId).isSome = true := by
  let answers (depth : ℕ) (template : LootTemplate) (groupId : ℕ) : Prop :=
    (LootTemplate.search store asked depth template groupId).isSome = true
  have hgroup : ∀ n template groupId, groupId ≠ 0 → answers (n + 1) template groupId := by
    intro n template groupId hgroupId
    change (LootTemplate.search store asked (n + 1) template groupId).isSome = true
    rw [search_group hgroupId]
    rfl
  have hentries : ∀ n template, (∀ item ∈ template.entries, item.isReference = true →
      ∀ template', store.lookup item.referenced = some template' →
        answers n template' item.group) → answers (n + 1) template 0 := by
    intro n template hentries
    change (LootTemplate.search store asked (n + 1) template 0).isSome = true
    rw [search_whole, Option.isSome_map]
    refine anyM_isSome fun item hitem => ?_
    unfold LootTemplate.searchEntry
    by_cases hreference : item.isReference = true
    · rw [if_pos hreference]
      cases htarget : store.lookup item.referenced with
      | none => rfl
      | some template' => exact hentries item hitem hreference template' htarget
    · rw [if_neg hreference]
      rfl
  obtain ⟨m, hm⟩ := answers_of_acc hgroup hentries hacc template hlookup
  exact ⟨m, hm m le_rfl groupId⟩

theorem searchEntry_nothing {call : LootTemplate → ℕ → Option Bool}
    (hcall : ∀ template, call template item.group ≠ some true) :
    LootTemplate.searchEntry store call (fun _ => false) item ≠ some true := by
  unfold LootTemplate.searchEntry
  by_cases hreference : item.isReference = true
  · rw [if_pos hreference]
    cases store.lookup item.referenced with
    | none => exact fun h => absurd (Option.some.inj h) Bool.false_ne_true
    | some template' => exact hcall template'
  · rw [if_neg hreference]
    exact fun h => absurd (Option.some.inj h) Bool.false_ne_true

/-- A search for nothing finds nothing. -/
theorem search_nothing : ∀ (depth : ℕ) (template : LootTemplate) (groupId : ℕ),
    template.search store (fun _ => false) depth groupId ≠ some true
  | 0, _, _ => fun h => nomatch h
  | depth + 1, template, groupId => by
    have hgroup : ∀ group : LootGroup, group.hasDrop (fun _ => false) = false := by
      intro group
      simp [LootGroup.hasDrop]
    by_cases hgroupId : groupId = 0
    · subst hgroupId
      rw [search_whole]
      intro h
      obtain ⟨found, hfound, hany⟩ := Option.map_eq_some_iff.mp h
      rcases Bool.or_eq_true_iff.mp hany with rfl | hany
      · exact anyM_ne_true (fun item _ => searchEntry_nothing fun template' =>
          search_nothing depth template' item.group) hfound
      · obtain ⟨group, -, hgroup'⟩ := List.any_eq_true.mp hany
        rw [hgroup group] at hgroup'
        cases hgroup'
    · rw [search_group hgroupId]
      cases template.group? groupId with
      | none => exact fun h => absurd (Option.some.inj h) Bool.false_ne_true
      | some group =>
        rw [Option.any_some, hgroup group]
        exact fun h => absurd (Option.some.inj h) Bool.false_ne_true

/-- **The chain of references ends** where a search for nothing does. -/
theorem acc_of_search {id : ℕ} (hlookup : store.lookup id = some template)
    (h : (template.search store (fun _ => false) depth 0).isSome = true) :
    Acc (fun id' id => Refers store id id') id := by
  let answers (depth : ℕ) (template : LootTemplate) (groupId : ℕ) : Prop :=
    (template.search store (fun _ => false) depth groupId).isSome = true
  have hvisits : ∀ n id template, store.lookup id = some template → answers (n + 1) template 0 →
      ∀ item ∈ template.entries, item.isReference = true → ∀ template',
        store.lookup item.referenced = some template' → answers n template' item.group := by
    intro n _ template _ h item hitem hreference template' htarget
    change (template.search store (fun _ => false) (n + 1) 0).isSome = true at h
    rw [search_whole, Option.isSome_map] at h
    have hentry := anyM_visits (fun item _ => searchEntry_nothing fun template' =>
      search_nothing n template' item.group) h hitem
    unfold LootTemplate.searchEntry at hentry
    rw [if_pos hreference, htarget] at hentry
    exact hentry
  have hnone : ∀ template groupId, ¬ answers 0 template groupId := fun _ _ h => nomatch h
  exact acc_of_answers hnone hvisits depth id template hlookup h

/-! ## 5. Processing -/

variable {rates : Rates} {draws : Draws} {maxDuplicates : ℕ} {rate : Bool} {lootMode : UInt16}

theorem process_group {groupId : ℕ} {s : Rolling} (hgroupId : groupId ≠ 0) :
    template.process T rates draws maxDuplicates store rate lootMode (depth + 1) groupId s =
      some ((template.group? groupId).elim s
        (LootGroup.process T draws maxDuplicates lootMode s)) := if_pos hgroupId

theorem isSome_process {s : Rolling} :
    (template.process T rates draws maxDuplicates store rate lootMode (depth + 1) 0 s).isSome =
      (template.entries.foldlM (LootTemplate.processEntry T rates draws store
        (LootTemplate.process T rates draws maxDuplicates store rate lootMode depth)
          rate lootMode) s).isSome := Option.isSome_map

/-- An entry that drops nothing makes no call. -/
theorem processEntry_isSome {call : LootTemplate → ℕ → Rolling → Option Rolling}
    (hcall : Drops rates item → ∀ template,
      store.lookup item.referenced = some template →
        ∀ s, (call template item.group s).isSome = true) (s : Rolling) :
    (LootTemplate.processEntry T rates draws store call rate lootMode s item).isSome = true := by
  unfold LootTemplate.processEntry
  by_cases hmode : item.lootmode &&& lootMode = 0
  · rw [if_pos hmode]
    rfl
  rw [if_neg hmode]
  by_cases hroll : (item.roll T rates draws rate s).1 = true
  · rw [if_pos hroll]
    by_cases hreference : item.isReference = true
    · rw [if_pos hreference]
      cases htarget : store.lookup item.referenced with
      | none => rfl
      | some template =>
        by_cases htimes : item.times rates = 0
        · rw [htimes]
          rfl
        · refine iterateM_isSome (hcall ⟨hreference, fun hzero => hmode ?_, ?_⟩ template htarget)
            _ _
          · rw [hzero, UInt16.zero_and]
          · exact Nat.pos_of_ne_zero htimes
    · rw [if_neg hreference]
      rfl
  · rw [if_neg hroll]
    rfl

/-- Processing ends within a depth, whatever is drawn. -/
def EndsWithin (T : Templates) (rates : Rates) (store : Store) (depth : ℕ)
    (template : LootTemplate) (groupId : ℕ) : Prop :=
  ∀ (draws : Draws) (maxDuplicates : ℕ) (rate : Bool) (lootMode : UInt16) (s : Rolling),
    (template.process T rates draws maxDuplicates store rate lootMode depth groupId s).isSome = true

theorem endsWithin_group (n : ℕ) (template : LootTemplate) (groupId : ℕ) (hgroupId : groupId ≠ 0) :
    EndsWithin T rates store (n + 1) template groupId := by
  intro draws maxDuplicates rate lootMode s
  rw [process_group hgroupId]
  rfl

theorem endsWithin_entries (n : ℕ) (template : LootTemplate)
    (h : ∀ item ∈ template.entries, Drops rates item → ∀ template',
      store.lookup item.referenced = some template' →
        EndsWithin T rates store n template' item.group) :
    EndsWithin T rates store (n + 1) template 0 := by
  intro draws maxDuplicates rate lootMode s
  rw [isSome_process]
  refine foldlM_isSome (fun item hitem s => processEntry_isSome ?_ s) s
  intro hdrops template' htarget
  exact h item hitem hdrops template' htarget draws maxDuplicates rate lootMode

/-- **Processing ends where the chain of references does.** -/
theorem process_of_wellFounded (hwf : WellFounded fun id' id => RefersBy store (Drops rates) id id')
    (template : LootTemplate) :
    ∃ depth, ∀ groupId, EndsWithin T rates store depth template groupId := by
  have htargets : ∀ item ∈ template.entries, Drops rates item → item.group = 0 → ∀ template',
      store.lookup item.referenced = some template' → ∃ m, ∀ n, m ≤ n → ∀ groupId,
        EndsWithin T rates store n template' groupId := fun item _ _ _ template' htarget =>
    answers_of_acc endsWithin_group endsWithin_entries (hwf.apply item.referenced) template' htarget
  obtain ⟨m, hm⟩ := answers_of_targets endsWithin_group endsWithin_entries htargets
  exact ⟨m, hm m le_rfl⟩

/-- The lowest numbers are drawn. -/
def lowest : Draws := ⟨fun _ => 0, fun _ => 0, fun _ => by decide⟩

/-- Every chance is taken when the lowest numbers are drawn. -/
theorem roll_lowest {s : Rolling} (hchance : 0 < item.chance) :
    (item.roll T rates lowest false s).1 = true := by
  unfold TemplateItem.roll
  by_cases hcertain : 100 ≤ item.chance
  · rw [if_pos hcertain]
  rw [if_neg hcertain]
  have hmodifier : (if item.isReference then if false = true then rates.referenced else 1
      else if false = true then (T item.itemid).elim 1 fun proto => rates.quality proto.quality
      else (1 : Rat)) = 1 := by
    simp
  simp only [hmodifier, Rat.mul_one]
  exact decide_eq_true hchance

/-- **The chain of references ends** where processing does, in all loot modes at once and with
every chance taken. -/
theorem acc_of_process (hchance : ∀ id template, store.lookup id = some template →
      ∀ item ∈ template.entries, item.isReference = true → 0 < item.chance) {id : ℕ} {s : Rolling}
    (hlookup : store.lookup id = some template)
    (h : (template.process T rates lowest maxDuplicates store false (-1) depth 0 s).isSome = true) :
    Acc (fun id' id => RefersBy store (Drops rates) id id') id := by
  let answers (depth : ℕ) (template : LootTemplate) (groupId : ℕ) : Prop := ∃ s,
    (template.process T rates lowest maxDuplicates store false (-1) depth groupId s).isSome = true
  have hvisits : ∀ n id template, store.lookup id = some template → answers (n + 1) template 0 →
      ∀ item ∈ template.entries, Drops rates item → ∀ template',
        store.lookup item.referenced = some template' → answers n template' item.group := by
    rintro n id template hlookup ⟨s, h⟩ item hitem ⟨hreference, hmode, htimes⟩ template' htarget
    rw [isSome_process] at h
    obtain ⟨s', hs'⟩ := foldlM_visits h hitem
    unfold LootTemplate.processEntry at hs'
    rw [if_neg (by rwa [UInt16.and_neg_one])] at hs'
    rw [if_pos (roll_lowest (hchance id template hlookup item hitem hreference)), if_pos hreference,
      htarget] at hs'
    exact ⟨_, iterateM_visits htimes hs'⟩
  have hnone : ∀ template groupId, ¬ answers 0 template groupId := fun _ _ h =>
    nomatch h.choose_spec
  exact acc_of_answers hnone hvisits depth id template hlookup ⟨s, h⟩

/-! ## 6. All loot -/

variable (T rates) in
/-- **Processing and searching end** for all loot of the tables: whatever is drawn, and whoever the
player is. -/
structure Terminates (tables : Tables) : Prop where
  process : ∀ name id template, (tables.store T name).lookup id = some template →
    ∀ (draws : Draws) (maxDuplicates : ℕ) (rate : Bool) (lootMode : UInt16) (groupId : ℕ)
      (s : Rolling), ∃ depth, (template.process T rates draws maxDuplicates
        (tables.store T .reference) rate lootMode depth groupId s).isSome = true
  hasQuestDrop : ∀ name id template, (tables.store T name).lookup id = some template →
    ∀ groupId, ∃ depth, (template.hasQuestDrop (tables.store T name) depth groupId).isSome = true
  hasQuestDropForPlayer : ∀ name id template,
    (tables.store T name).lookup id = some template → ∀ (player : Player) (groupId : ℕ), ∃ depth,
      (template.hasQuestDropForPlayer (tables.store T name) player depth groupId).isSome = true

/-- A player without quests. -/
def questless : Player where
  guid := 1
  group := none
  team := .alliance
  hasSkill _ := false
  hasSpell _ := false
  hasQuestStatus _ := false
  hasQuestForItem _ := false
  meetsConditions _ := false
  canStoreNewItem _ _ := false

/-- **Processing ends** for all loot just where no reference that drops leads back to itself. -/
theorem process_ends_iff (tables : Tables) :
    (∀ name id template, (tables.store T name).lookup id = some template →
      ∀ (draws : Draws) (maxDuplicates : ℕ) (rate : Bool) (lootMode : UInt16) (groupId : ℕ)
        (s : Rolling), ∃ depth, (template.process T rates draws maxDuplicates
          (tables.store T .reference) rate lootMode depth groupId s).isSome = true) ↔
      ∀ id, ¬ TransGen (RefersBy (tables.store T .reference) (Drops rates)) id id := by
  constructor
  · intro h id hcycle
    obtain ⟨id', ⟨template, -, hlookup, -⟩, -⟩ := TransGen.head'_iff.mp hcycle
    obtain ⟨depth, hdepth⟩ := h .reference id template hlookup lowest 0 false (-1) 0
      ⟨.start 0, 0⟩
    exact acyclic_of_acc (acc_of_process (fun _ _ => store_chance) hlookup hdepth) hcycle
  · intro h name id template _ draws maxDuplicates rate lootMode groupId s
    obtain ⟨depth, hdepth⟩ := process_of_wellFounded (T := T) (wellFounded_refersBy h) template
    exact ⟨depth, hdepth groupId draws maxDuplicates rate lootMode s⟩

/-- **Processing and searching end for all loot of the tables** just where no template of a store
refers back to itself, through other templates of the store or at once. -/
theorem terminates_iff (T : Templates) (rates : Rates) (tables : Tables) :
    Terminates T rates tables ↔
      ∀ name id, ¬ TransGen (Refers (tables.store T name)) id id := by
  constructor
  · intro h name id hcycle
    obtain ⟨id', ⟨template, -, hlookup, -⟩, -⟩ := TransGen.head'_iff.mp hcycle
    obtain ⟨depth, hdepth⟩ := h.hasQuestDropForPlayer name id template hlookup questless 0
    exact acyclic_of_acc (acc_of_search hlookup hdepth) hcycle
  · intro h
    have hdrops : RefersBy (tables.store T .reference) (Drops rates) ≤
        Refers (tables.store T .reference) := fun _ _ => refersBy_mono fun _ hdrops => hdrops.1
    refine ⟨(process_ends_iff tables).mpr fun id hcycle => ?_, ?_, ?_⟩
    · exact h .reference id (TransGen.mono hdrops id id hcycle)
    · intro name id template hlookup groupId
      exact search_of_acc ((wellFounded_refersBy (h name)).apply id) hlookup groupId
    · intro name id template hlookup player groupId
      exact search_of_acc ((wellFounded_refersBy (h name)).apply id) hlookup groupId

/-- A template of references that refers to itself. -/
def selfReference : Tables := fun name =>
  if name = .reference then [⟨1, 1, 100, 1, 0, -1, 1⟩] else []

/-- **The loading has nothing to report** of a template that refers to itself, and its loot has no
end. -/
theorem self_reference_loaded :
    selfReference.Clean (fun _ => none) ∧ ¬ Terminates (fun _ => none) ⟨1, 1, fun _ => 1⟩
      selfReference := by
  have hlookup : (selfReference.store (fun _ => none) .reference).lookup 1 =
      some ⟨[.ofRow ⟨1, 1, 100, 1, 0, -1, 1⟩], []⟩ := rfl
  refine ⟨⟨?_, ?_, ?_, ?_⟩, fun h => ?_⟩
  · intro name row hrow
    by_cases hname : name = .reference
    · subst hname
      obtain rfl := List.mem_singleton.mp hrow
      exact ⟨by decide, by decide +kernel⟩
    · rw [show selfReference name = [] from if_neg hname] at hrow
      cases hrow
  · intro name
    cases name <;> decide +kernel
  · intro name
    cases name <;> decide +kernel
  · intro id hid
    refine ⟨.reference, ?_⟩
    have hid' : id ∈ [1] := hid
    obtain rfl := List.mem_singleton.mp hid'
    decide +kernel
  · have hrefers : Refers (selfReference.store (fun _ => none) .reference) 1 1 :=
      ⟨_, _, hlookup, List.mem_singleton.mpr rfl, rfl, rfl, rfl, _, hlookup⟩
    obtain ⟨depth, hdepth⟩ := h.hasQuestDropForPlayer .reference 1 _ hlookup questless 0
    exact acyclic_of_acc (acc_of_search hlookup hdepth) (TransGen.single hrefers)

end HungerGames.Looting
