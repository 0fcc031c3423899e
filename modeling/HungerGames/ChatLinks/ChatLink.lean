/-
# Links in chat messages

A chat message may hold links to items, quests, spells and so on, each a sequence of five
commands after pipes: the colour, the object, the caption and its two ends.  `IsValidMessage`
reads the message as a stream and checks every link against the server's data: the object must
exist, and the caption must be its name in some language.

Returning false is one way for the validation to end without success.  Two others are errors of
their own: `ReadSkip` never ends when the message does, and a caption that is just the name of a
skill line makes `ValidateName` move 4 GiB of memory.  A command that cannot be read leaves
`commandChar` as it was before it was declared; what it holds then is a parameter.
-/
import HungerGames.System.TextStream

namespace HungerGames.ChatLinks

open HungerGames.System HungerGames.System.Reader

/-! ## 1. The server's data -/

abbrev Text : Type := List UInt8

def TOTAL_LOCALES : ℕ := 9

def LOCALE_enUS : Fin TOTAL_LOCALES := ⟨0, by decide⟩

/-- A text in each of the languages; it is empty where there is no translation. -/
abbrev Localized : Type := Fin TOTAL_LOCALES → Text

structure ItemTemplate where
  itemId : ℕ
  quality : Fin 8
  name1 : Text

structure Quest where
  questId : ℕ
  title : Text

/-- `SPELL_ATTR0_TRADESPELL` is among its attributes or not. -/
structure SpellInfo where
  id : ℕ
  tradespell : Bool
  spellName : Localized

/-- The stores.  Of random properties and suffixes there are the suffixes of names, of talents
and glyphs their spells, and of the abilities of a spell the skill line of the first. -/
structure Stores where
  getItemTemplate : ℕ → Option ItemTemplate
  getItemLocale : ℕ → Option (List Text)
  itemRandomProperties : ℕ → Option Localized
  itemRandomSuffix : ℕ → Option Localized
  getQuestTemplate : ℕ → Option Quest
  getQuestLocale : ℕ → Option (List Text)
  getSpellInfo : ℕ → Option SpellInfo
  skillLineAbility : ℕ → Option ℕ
  skillLine : ℕ → Option Localized
  getAchievement : ℕ → Option Localized
  talent : ℕ → Option ℕ
  glyphProperties : ℕ → Option ℕ

/-- `ItemQualityColors` -/
def itemQualityColors : Fin 8 → ℕ
  | 0 => 0xff9d9d9d
  | 1 => 0xffffffff
  | 2 => 0xff1eff00
  | 3 => 0xff0070dd
  | 4 => 0xffa335ee
  | 5 => 0xffff8000
  | 6 => 0xffe6cc80
  | 7 => 0xffe6cc80

def CHAT_LINK_COLOR_TRADE : ℕ := 0xffffd000
def CHAT_LINK_COLOR_TALENT : ℕ := 0xff4e96f7
def CHAT_LINK_COLOR_SPELL : ℕ := 0xff71d5ff
def CHAT_LINK_COLOR_ENCHANT : ℕ := 0xffffd000
def CHAT_LINK_COLOR_ACHIEVEMENT : ℕ := 0xffffff00
def CHAT_LINK_COLOR_GLYPH : ℕ := 0xff66bbff

def STRONG_MAX_LEVEL : ℤ := 255

/-! ## 2. Reading -/

/-- How the validation ends when it does not accept. -/
inductive Fault where
  | refused
  | endless
  | overrun
  deriving DecidableEq, Repr

def DELIMITER : UInt8 := 58

def PIPE_CHAR : UInt8 := 124

/-- A number is read, and the stream is good afterwards. -/
def readNumber {α : Type} (base : ℕ) (convert : Numeral → Option α) : Reader Fault α := do
  let res ← extract base convert
  let eof ← isEof
  require .refused (eof = false)
  the .refused res

def readUInt32 : Reader Fault ℕ := readNumber 10 (Numeral.toUInt32 10)

def readInt32 : Reader Fault ℤ := readNumber 10 (Numeral.toInt32 10)

/-- The characters that are left, from which positions are told. -/
def left : Reader Fault ℕ := fun s => .ok (s.rest.length, s)

/-- When the position cannot be told, the stream is not good, and false is returned as well. -/
def readHex (length : ℕ) : Reader Fault ℕ := do
  let pos ← left
  let res ← extract 16 (Numeral.toUInt32 16)
  let pos' ← left
  require .refused (length = 0 ∨ pos - pos' = length)
  let eof ← isEof
  require .refused (eof = false)
  the .refused res

/-- At the end of the stream `peek` gives no character that ends the loop. -/
def readSkip (term : UInt8) : Reader Fault Text := fun s =>
  let more (c : UInt8) : Bool := c ≠ term && c ≠ 0
  if s.good then
    match s.rest.dropWhile more with
    | [] => .error .endless
    | c :: cs => .ok (s.rest.takeWhile more, { s with rest := c :: cs })
  else .error .endless

def checkDelimiter (delimiter : UInt8) : Reader Fault Unit := do
  let c ← peek
  require .refused (c = some delimiter)
  let _ ← getChar

/-! ## 3. The kinds of links -/

/-- A link: the links to talents, glyphs and so on are links to spells. -/
inductive ChatLink where
  | item (item : ItemTemplate) (suffixStrings : Option Localized)
  | quest (quest : Quest)
  | spell (spell : SpellInfo)
  | achievement (name : Localized)

variable (stores : Stores)

/-- One of the properties of an item; the one in the fifth place is random. -/
def readProperty (index : ℕ) (suffix : Option Localized) : Reader Fault (Option Localized) := do
  checkDelimiter DELIMITER
  let id ← readInt32
  if id ≠ 0 ∧ index = 5 then
    if 0 < id then some <$> the .refused (stores.itemRandomProperties id.toNat)
    else some <$> the .refused (stores.itemRandomSuffix (-id).toNat)
  else pure suffix

def readProperties : ℕ → ℕ → Option Localized → Reader Fault (Option Localized)
  | 0, _, suffix => pure suffix
  | count + 1, index, suffix => do
    let suffix ← readProperty stores index suffix
    readProperties count (index + 1) suffix

/-- `ItemChatLink::Initialize` -/
def initializeItem (color : ℕ) : Reader Fault ChatLink := do
  let itemEntry ← readUInt32
  let item ← the .refused (stores.getItemTemplate itemEntry)
  require .refused (color = itemQualityColors item.quality)
  let suffix ← readProperties stores 8 0 none
  pure (.item item suffix)

/-- `QuestChatLink::Initialize` -/
def initializeQuest : Reader Fault ChatLink := do
  let questId ← readUInt32
  let quest ← the .refused (stores.getQuestTemplate questId)
  checkDelimiter DELIMITER
  let questLevel ← readInt32
  require .refused (questLevel < STRONG_MAX_LEVEL)
  pure (.quest quest)

/-- `SpellChatLink::Initialize` -/
def initializeSpell (color : ℕ) : Reader Fault ChatLink := do
  require .refused (color = CHAT_LINK_COLOR_SPELL)
  let spellId ← readUInt32
  let spell ← the .refused (stores.getSpellInfo spellId)
  pure (.spell spell)

/-- The progress of an achievement is not looked at. -/
def skipProgress : ℕ → Reader Fault Unit
  | 0 => pure ()
  | count + 1 => do
    checkDelimiter DELIMITER
    let _ ← readUInt32
    skipProgress count

/-- `AchievementChatLink::Initialize` -/
def initializeAchievement (color : ℕ) : Reader Fault ChatLink := do
  require .refused (color = CHAT_LINK_COLOR_ACHIEVEMENT)
  let achievementId ← readUInt32
  let achievement ← the .refused (stores.getAchievement achievementId)
  checkDelimiter DELIMITER
  let _ ← readHex 0
  skipProgress 8
  pure (.achievement achievement)

/-- `TradeChatLink::Initialize` -/
def initializeTrade (color : ℕ) : Reader Fault ChatLink := do
  require .refused (color = CHAT_LINK_COLOR_TRADE)
  let spellId ← readUInt32
  let spell ← the .refused (stores.getSpellInfo spellId)
  checkDelimiter DELIMITER
  let _ ← readInt32
  checkDelimiter DELIMITER
  let _ ← readInt32
  checkDelimiter DELIMITER
  let _ ← readHex 0
  let _ ← readSkip PIPE_CHAR
  pure (.spell spell)

/-- `TalentChatLink::Initialize` -/
def initializeTalent : Reader Fault ChatLink := do
  let talentId ← readUInt32
  let spellId ← the .refused (stores.talent talentId)
  let spell ← the .refused (stores.getSpellInfo spellId)
  checkDelimiter DELIMITER
  let _ ← readInt32
  pure (.spell spell)

/-- `EnchantmentChatLink::Initialize` -/
def initializeEnchantment (color : ℕ) : Reader Fault ChatLink := do
  require .refused (color = CHAT_LINK_COLOR_ENCHANT)
  let spellId ← readUInt32
  let spell ← the .refused (stores.getSpellInfo spellId)
  pure (.spell spell)

/-- `GlyphChatLink::Initialize` -/
def initializeGlyph (color : ℕ) : Reader Fault ChatLink := do
  require .refused (color = CHAT_LINK_COLOR_GLYPH)
  let _ ← readUInt32
  checkDelimiter DELIMITER
  let glyphId ← readUInt32
  let spellId ← the .refused (stores.glyphProperties glyphId)
  let spell ← the .refused (stores.getSpellInfo spellId)
  pure (.spell spell)

/-- The types of links, by their names in messages. -/
inductive LinkType where
  | item | quest | trade | talent | spell | enchant | achievement | glyph
  deriving DecidableEq, Repr

namespace LinkType

def name : LinkType → Text
  | item => ascii "item"
  | quest => ascii "quest"
  | trade => ascii "trade"
  | talent => ascii "talent"
  | spell => ascii "spell"
  | enchant => ascii "enchant"
  | achievement => ascii "achievement"
  | glyph => ascii "glyph"

def all : List LinkType := [item, quest, trade, talent, spell, enchant, achievement, glyph]

def ofName (buffer : Text) : Option LinkType := all.find? fun t => buffer = t.name

/-- `Initialize` of the type's class. -/
def initializeLink (color : ℕ) : LinkType → Reader Fault ChatLink
  | item => initializeItem stores color
  | quest => initializeQuest stores
  | trade => initializeTrade stores color
  | talent => initializeTalent stores
  | spell => initializeSpell stores color
  | enchant => initializeEnchantment stores color
  | achievement => initializeAchievement stores color
  | glyph => initializeGlyph stores color

end LinkType

/-! ## 4. Names -/

/-- The name of an item in a language. -/
def itemName (item : ItemTemplate) (index : Fin TOTAL_LOCALES) (locale : Option (List Text)) :
    Text :=
  match locale with
  | none => item.name1
  | some names => (names[index.val]?).getD item.name1

/-- `ItemChatLink::FormatName` -/
def formatName (item : ItemTemplate) (index : Fin TOTAL_LOCALES) (locale : Option (List Text))
    (suffixStrings : Option Localized) : Text :=
  match suffixStrings with
  | none => itemName item index locale
  | some suffix => itemName item index locale ++ ascii " " ++ suffix index

def validateItemName (item : ItemTemplate) (suffixStrings : Option Localized) (buffer : Text) :
    Bool :=
  formatName item LOCALE_enUS none suffixStrings = buffer ||
    ((List.finRange TOTAL_LOCALES).drop 1).any fun index =>
      formatName item index (stores.getItemLocale item.itemId) suffixStrings = buffer

def validateQuestName (quest : Quest) (buffer : Text) : Bool :=
  quest.title = buffer ||
    (match stores.getQuestLocale quest.questId with
    | none => false
    | some titles => titles.any fun title => title = buffer)

def hasName (names : Localized) (buffer : Text) : Bool :=
  (List.finRange TOTAL_LOCALES).any fun i => names i ≠ [] && names i = buffer

/-- The name of the profession is taken from the front, with two more characters.  The length of
the rest is computed in 32 bits. -/
def removeProfession (skillLine : Localized) (buffer : Text) : Except Fault Text :=
  match (List.finRange TOTAL_LOCALES).find? fun i =>
    0 < (skillLine i).length && (skillLine i).isPrefixOf buffer with
  | none => .ok buffer
  | some i =>
    if buffer.length = (skillLine i).length then .error .overrun
    else if buffer.length = (skillLine i).length + 1 then .ok buffer
    else .ok (buffer.drop ((skillLine i).length + 2))

/-- `SpellChatLink::ValidateName`, up to the comparison. -/
def spellCaption (spell : SpellInfo) (buffer : Text) : Except Fault Text :=
  if spell.tradespell then
    match (stores.skillLineAbility spell.id).bind stores.skillLine with
    | none => .error .refused
    | some skillLine => removeProfession skillLine buffer
  else .ok buffer

/-- `ValidateName` -/
def validateName (link : ChatLink) (buffer : Text) : Reader Fault Unit :=
  match link with
  | .item item suffix => require .refused (validateItemName stores item suffix buffer = true)
  | .quest quest => require .refused (validateQuestName stores quest buffer = true)
  | .achievement names => require .refused (hasName names buffer = true)
  | .spell spell => do
    let caption ← (fun s => (spellCaption stores spell buffer).map fun text => (text, s) :
      Reader Fault Text)
    require .refused (hasName spell.spellName caption = true)

/-! ## 5. The message -/

/-- `validSequence` -/
def validSequence : List UInt8 := ascii "cHhhr"

/-- Where the message is in the sequence of a link, and what has been read of the link. -/
structure Cursor where
  place : ℕ
  color : ℕ
  link : Option ChatLink

/-- Outside of a link everything up to a pipe is left out; in one the pipe comes next. -/
def skipToPipe (place : ℕ) : Reader Fault Unit :=
  if place = 0 then ignore 255 PIPE_CHAR
  else do
    let c ← getChar
    require .refused (c = some PIPE_CHAR)

/-- The command after a pipe; none if the message ends there. -/
def readAfterPipe (junk : UInt8) : Reader Fault (Option UInt8) := do
  let next ← peek
  require .refused (next ≠ some 0)
  let eof ← isEof
  if eof then pure none
  else
    let commandChar ← readChar
    pure (some (commandChar.getD junk))

/-- The command is next in the sequence; a pipe in a normal message is escaped by another. -/
def checkSequence (place : ℕ) (commandChar : UInt8) : Reader Fault Unit :=
  if commandChar ≠ PIPE_CHAR then require .refused (validSequence[place]? = some commandChar)
  else require .refused (place = 0)

def nextPlace (place : ℕ) (commandChar : UInt8) : ℕ :=
  if commandChar = PIPE_CHAR then place else if place = 4 then 0 else place + 1

/-- The colour after `c`, the object after `H`, the caption after the first `h`. -/
def readPayload (cursor : Cursor) (place : ℕ) (commandChar : UInt8) : Reader Fault Cursor :=
  if commandChar = 99 then do
    let color ← readHex 8
    pure ⟨place, color, cursor.link⟩
  else if commandChar = 72 then do
    let buffer ← getline 256 DELIMITER
    let eof ← isEof
    require .refused (eof = false)
    let type ← the .refused (LinkType.ofName buffer)
    let link ← type.initializeLink stores cursor.color
    pure ⟨place, cursor.color, some link⟩
  else if commandChar = 104 then
    if validSequence[place]? = some 104 then do
      let c ← getChar
      require .refused (c = some 91)
      let buffer ← getline 256 93
      let eof ← isEof
      require .refused (eof = false)
      let link ← the .refused cursor.link
      validateName stores link buffer
      pure ⟨place, cursor.color, cursor.link⟩
    else pure ⟨place, cursor.color, cursor.link⟩
  else pure ⟨place, cursor.color, cursor.link⟩

/-- One turn of the loop; none if it is left. -/
def turn (junk : UInt8) (cursor : Cursor) : Reader Fault (Option Cursor) := do
  skipToPipe cursor.place
  let command ← readAfterPipe junk
  match command with
  | none => pure none
  | some commandChar =>
    checkSequence cursor.place commandChar
    let opened : Cursor := if cursor.place = 0 then { cursor with link := none } else cursor
    let next ← readPayload stores opened (nextPlace cursor.place commandChar) commandChar
    pure (some next)

/-- The loop, for a number of turns. -/
def loop (junk : UInt8) : ℕ → Cursor → Reader Fault Bool
  | 0, _ => fun _ => .error .endless
  | turns + 1, cursor => do
    let eof ← isEof
    if eof then pure (cursor.place = 0)
    else
      let next ← turn stores junk cursor
      match next with
      | none => pure (cursor.place = 0)
      | some cursor => loop junk turns cursor

/-- `LinkExtractor::IsValidMessage`; each turn but the last reads a character. -/
def isValidMessage (junk : UInt8) (message : Text) : Bool :=
  match loop stores junk (message.length + 2) ⟨0, 0, none⟩ (TextStream.on message) with
  | .ok (valid, _) => valid
  | .error _ => false

end HungerGames.ChatLinks
