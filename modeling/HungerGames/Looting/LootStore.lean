/-
# Loot templates

The tables of loot have rows for items, in groups or not, and rows that refer to a template of the
table of references, which is rolled as often as the row says.  A store has the templates of one
table.  When loot is made a template is processed, which processes the templates it refers to; and
it is searched for quest items, for which it looks up references in its own store.

These functions call each other, as deep as a bound: a call that is nested deeper has no result.
Numbers with fractions are rational here.  What is random is drawn one by one.
-/
import HungerGames.System.NestedCalls
import HungerGames.Looting.LootMgr

namespace HungerGames.Looting

open HungerGames.System

/-! ## 1. Rows and templates -/

/-- The stores, by their tables. -/
inductive StoreName where
  | creature
  | disenchant
  | fishing
  | gameobject
  | item
  | mail
  | milling
  | pickpocketing
  | prospecting
  | reference
  | skinning
  | spell
deriving DecidableEq

/-- A row of a `*_loot_template` table. -/
structure LootRow where
  entry : ℕ
  item : ℕ
  chanceOrQuestChance : Rat
  lootmode : UInt16
  group : UInt8
  mincountOrRef : ℤ
  maxcount : UInt8

/-- `LootStoreItem`, with what decides whether it drops. -/
structure TemplateItem extends LootStoreItem where
  chance : Rat
  mincountOrRef : ℤ
  lootmode : UInt16
  group : ℕ
  maxcount : ℕ

structure LootGroup where
  explicitlyChanced : List TemplateItem
  equalChanced : List TemplateItem

structure LootTemplate where
  entries : List TemplateItem
  groups : List (Option LootGroup)

abbrev Store := SortedMap ℕ LootTemplate

namespace TemplateItem

/-- A negative chance is that of a quest item. -/
def ofRow (row : LootRow) : TemplateItem where
  itemid := row.item
  needsQuest := row.chanceOrQuestChance < 0
  conditions := []
  chance := if row.chanceOrQuestChance < 0 then -row.chanceOrQuestChance
    else row.chanceOrQuestChance
  mincountOrRef := row.mincountOrRef
  lootmode := row.lootmode
  group := row.group.toNat
  maxcount := row.maxcount.toNat

variable (item : TemplateItem)

def isReference : Bool := item.mincountOrRef < 0

/-- The id of the template that a reference refers to. -/
def referenced : ℕ := (-item.mincountOrRef).toNat

/-- `LootStoreItem::IsValid` -/
def isValid (T : Templates) : Bool :=
  if item.mincountOrRef = 0 then false
  else if 0 < item.mincountOrRef then
    if (T item.itemid).isNone then false
    else if item.chance = 0 ∧ item.group = 0 then false
    else if item.chance ≠ 0 ∧ item.chance < 1 / 1000000 then false
    else item.mincountOrRef ≤ item.maxcount
  else item.needsQuest || item.chance ≠ 0

end TemplateItem

namespace LootGroup

def addEntry (group : LootGroup) (item : TemplateItem) : LootGroup :=
  if item.chance ≠ 0 then { group with explicitlyChanced := group.explicitlyChanced ++ [item] }
  else { group with equalChanced := group.equalChanced ++ [item] }

/-- `HasQuestDrop` and `HasQuestDropForPlayer` of a group -/
def hasDrop (asked : TemplateItem → Bool) (group : LootGroup) : Bool :=
  group.explicitlyChanced.any asked || group.equalChanced.any asked

end LootGroup

namespace LootTemplate

def empty : LootTemplate := ⟨[], []⟩

/-- Items with a group are put there, and references with the others. -/
def addEntry (template : LootTemplate) (item : TemplateItem) : LootTemplate :=
  if 0 < item.group ∧ 0 < item.mincountOrRef then
    let groups := if template.groups.length ≤ item.group then
        template.groups ++ List.replicate (item.group - template.groups.length) none
      else template.groups
    { template with
      groups := groups.modify (item.group - 1) fun group =>
        some ((group.getD ⟨[], []⟩).addEntry item) }
  else { template with entries := template.entries ++ [item] }

end LootTemplate

/-! ## 2. Loading -/

namespace Store

/-- A row is added to the template of its entry. -/
def addRow (store : Store) (row : LootRow) : Store :=
  store.insert row.entry
    (((store.lookup row.entry).getD .empty).addEntry (.ofRow row))

/-- `LoadLootTable`: a row that is not valid is skipped, and one with a group that does not fit
ends the loading. -/
def loadRows (T : Templates) : List LootRow → Store → Store
  | [], store => store
  | row :: rows, store =>
    if 128 ≤ row.group.toNat then store
    else if (TemplateItem.ofRow row).isValid T then loadRows T rows (addRow store row)
    else loadRows T rows store

def loadLootTable (T : Templates) (rows : List LootRow) : Store := loadRows T rows .empty

/-- `LootGroup::RawTotalChance` -/
def rawTotalChance (group : LootGroup) : Rat :=
  (group.explicitlyChanced.filter fun item => !item.needsQuest).foldl
    (fun result item => result + item.chance) 0

/-- `LootGroup::Verify` finds nothing wrong. -/
def groupVerified (group : LootGroup) : Bool :=
  rawTotalChance group ≤ 101 && !(100 ≤ rawTotalChance group && !group.equalChanced.isEmpty)

/-- `Verify` finds nothing wrong in the groups of the templates. -/
def verified (store : Store) : Bool :=
  store.entries.all fun template => template.2.groups.all fun group => group.all groupVerified

/-- The references of a template, those of its groups among them. -/
def references (template : LootTemplate) : List ℕ :=
  ((template.entries ++ (template.groups.filterMap id).flatMap fun group =>
    group.explicitlyChanced ++ group.equalChanced).filter TemplateItem.isReference).map
      TemplateItem.referenced

/-- The references of a store to templates that do not exist, which `CheckLootRefs` reports. -/
def missingRefs (store reference : Store) : List ℕ :=
  (store.entries.flatMap fun template => references template.2).filter fun id =>
    (reference.lookup id).isNone

/-- The references of a store to templates that exist, which `CheckLootRefs` takes from the ids
that are not used. -/
def usedRefs (store reference : Store) : List ℕ :=
  (store.entries.flatMap fun template => references template.2).filter fun id =>
    (reference.lookup id).isSome

end Store

/-- The rows of all tables. -/
abbrev Tables := StoreName → List LootRow

namespace Tables

variable (T : Templates) (tables : Tables)

/-- The store of a table. -/
def store (name : StoreName) : Store := Store.loadLootTable T (tables name)

/-- The loading has nothing to report: each row is valid, each group verified, each reference to a
template that exists, and each template of the references referred to. -/
structure Clean : Prop where
  rows : ∀ name, ∀ row ∈ tables name,
    row.group.toNat < 128 ∧ (TemplateItem.ofRow row).isValid T = true
  groups : ∀ name, (tables.store T name).verified = true
  missing : ∀ name, (tables.store T name).missingRefs (tables.store T .reference) = []
  unused : ∀ id ∈ (tables.store T .reference).keys, ∃ name,
    id ∈ (tables.store T name).usedRefs (tables.store T .reference)

end Tables

/-! ## 3. Processing -/

/-- The rates of drops. -/
structure Rates where
  referenced : Rat
  referencedAmount : Rat
  quality : ℕ → Rat

/-- What is random: numbers of percent, and of a range. -/
structure Draws where
  chance : ℕ → Rat
  number : ℕ → ℕ
  inRange : ∀ n, 0 ≤ chance n ∧ chance n < 100

/-- The loot that is made, and how much has been drawn for it. -/
structure Rolling where
  loot : Loot
  drawn : ℕ

variable (T : Templates) (rates : Rates) (draws : Draws) (maxDuplicates : ℕ)

namespace Rolling

/-- `rand_chance` -/
def randChance (s : Rolling) : Rat × Rolling :=
  (draws.chance s.drawn, { s with drawn := s.drawn + 1 })

/-- `urand` -/
def urand (lo hi : ℕ) (s : Rolling) : ℕ × Rolling :=
  (lo + draws.number s.drawn % (hi - lo + 1), { s with drawn := s.drawn + 1 })

/-- `Loot::AddItem`, with its number of items drawn -/
def addItem (item : TemplateItem) (s : Rolling) : Rolling :=
  if (T item.itemid).isNone then s
  else
    let count := s.urand draws item.mincountOrRef.toNat item.maxcount
    { count.2 with loot := count.2.loot.addItem T item.toLootStoreItem count.1 }

end Rolling

/-- `LootStoreItem::Roll` -/
def TemplateItem.roll (item : TemplateItem) (rate : Bool) (s : Rolling) : Bool × Rolling :=
  if 100 ≤ item.chance then (true, s)
  else
    let modifier : Rat :=
      if item.isReference then if rate then rates.referenced else 1
      else if rate then (T item.itemid).elim 1 fun proto => rates.quality proto.quality
      else 1
    let rolled := s.randChance draws
    (rolled.1 < item.chance * modifier, rolled.2)

/-- How often a reference is processed. -/
def TemplateItem.times (item : TemplateItem) : ℕ :=
  ((item.maxcount : Rat) * rates.referencedAmount).floor.toNat

namespace LootGroup

/-- `LootGroupInvalidSelector` -/
def isInvalid (lootMode : UInt16) (loot : Loot) (item : TemplateItem) : Bool :=
  item.lootmode &&& lootMode = 0 ||
    (0 < maxDuplicates && maxDuplicates ≤ loot.items.countP fun other => other.itemid = item.itemid)

/-- Which of the items with chances is rolled. -/
def rollFrom : List TemplateItem → Rat → Option TemplateItem
  | [], _ => none
  | item :: items, roll =>
    if 100 ≤ item.chance then some item
    else if roll - item.chance < 0 then some item
    else rollFrom items (roll - item.chance)

/-- `LootGroup::Roll` -/
def roll (group : LootGroup) (lootMode : UInt16) (s : Rolling) : Option TemplateItem × Rolling :=
  let chanced := group.explicitlyChanced.filter fun item =>
    !isInvalid maxDuplicates lootMode s.loot item
  let rolled := if chanced.isEmpty then (none, s)
    else
      let drawn := s.randChance draws
      (rollFrom chanced drawn.1, drawn.2)
  match rolled with
  | (some item, s) => (some item, s)
  | (none, s) =>
    let equal := group.equalChanced.filter fun item =>
      !isInvalid maxDuplicates lootMode s.loot item
    if equal.isEmpty then (none, s)
    else
      let drawn := s.urand draws 0 (equal.length - 1)
      (equal[drawn.1]?, drawn.2)

/-- `LootGroup::Process` -/
def process (lootMode : UInt16) (s : Rolling) (group : LootGroup) : Rolling :=
  match group.roll draws maxDuplicates lootMode s with
  | (some item, s) => s.addItem T draws item
  | (none, s) => s

end LootGroup

namespace LootTemplate

/-- A group by its number, if there is one. -/
def group? (template : LootTemplate) (groupId : ℕ) : Option LootGroup :=
  template.groups[groupId - 1]?.join

/-- One of the items that are not in a group; `call` processes a template that is referred to. -/
def processEntry (reference : Store)
    (call : LootTemplate → ℕ → Rolling → Option Rolling) (rate : Bool) (lootMode : UInt16)
    (s : Rolling) (item : TemplateItem) : Option Rolling :=
  if item.lootmode &&& lootMode = 0 then some s
  else
    let rolled := item.roll T rates draws rate s
    if rolled.1 then
      if item.isReference then
        match reference.lookup item.referenced with
        | none => some rolled.2
        | some template => iterateM (call template item.group) (item.times rates) rolled.2
      else some (rolled.2.addItem T draws item)
    else some rolled.2

/-- `LootTemplate::Process`, with calls that are nested at most `depth` deep. -/
def process (reference : Store) (rate : Bool) (lootMode : UInt16) :
    ℕ → LootTemplate → ℕ → Rolling → Option Rolling
  | 0, _, _, _ => none
  | depth + 1, template, groupId, s =>
    if groupId ≠ 0 then
      some ((template.group? groupId).elim s (LootGroup.process T draws maxDuplicates lootMode s))
    else
      (template.entries.foldlM (processEntry T rates draws reference
        (process reference rate lootMode depth) rate lootMode) s).map fun s =>
          (template.groups.filterMap id).foldl (LootGroup.process T draws maxDuplicates lootMode) s

/-! ## 4. Searching -/

/-- One of the items that are not in a group; `call` searches a template that is referred to. -/
def searchEntry (store : Store) (call : LootTemplate → ℕ → Option Bool)
    (asked : TemplateItem → Bool) (item : TemplateItem) : Option Bool :=
  if item.isReference then
    match store.lookup item.referenced with
    | none => some false
    | some template => call template item.group
  else some (asked item)

/-- A template is searched for an item, with calls that are nested at most `depth` deep. -/
def search (store : Store) (asked : TemplateItem → Bool) : ℕ → LootTemplate → ℕ → Option Bool
  | 0, _, _ => none
  | depth + 1, template, groupId =>
    if groupId ≠ 0 then some ((template.group? groupId).any (LootGroup.hasDrop asked))
    else
      (template.entries.anyM (searchEntry store (search store asked depth) asked)).map fun found =>
        found || (template.groups.filterMap id).any (LootGroup.hasDrop asked)

/-- `HasQuestDrop` -/
def hasQuestDrop (store : Store) : ℕ → LootTemplate → ℕ → Option Bool :=
  search store fun item => item.needsQuest

/-- `HasQuestDropForPlayer` -/
def hasQuestDropForPlayer (store : Store) (player : Player) : ℕ → LootTemplate → ℕ → Option Bool :=
  search store fun item => player.hasQuestForItem item.itemid

end LootTemplate

end HungerGames.Looting
