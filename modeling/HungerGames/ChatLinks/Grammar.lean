/-
# What a chat message may be

`Sound` is what the validation is for: outside of links every pipe is one of a pair, and each link
is written in one way, names an object of the server's data in its colour, and has one of the
object's names for a caption.

`Reading` is a message as it is really taken apart: white space may follow a pipe, numbers may
have a sign, white space and a `0x`, and the last pipe may be alone.  `Faultless` says which
readings have nothing of the kind, and those are sound (`Reading.sound`).
-/
import HungerGames.ChatLinks.ChatLink

namespace HungerGames.ChatLinks

open HungerGames.System

variable {stores : Stores}

/-! ## 1. Fields -/

/-- The numbers in a link: the id of its object, others, and those in base 16. -/
inductive FieldKind where
  | id
  | unsigned
  | signed
  | hex
  deriving DecidableEq, Repr

namespace FieldKind

def base : FieldKind → ℕ
  | hex => 16
  | _ => 10

def value : FieldKind → Numeral → Option ℤ
  | signed, n => n.toInt32 10
  | hex, n => (n.toUInt32 16).map Nat.cast
  | _, n => (n.toUInt32 10).map Nat.cast

/-- Digits alone, and a minus where there may be one. -/
def Plain : FieldKind → Numeral → Prop
  | id, n => n.Plain ∧ n.sign = []
  | hex, n => n.Plain ∧ n.sign = []
  | _, n => n.Plain

end FieldKind

/-- The numerals are of their kinds, and have the values. -/
inductive Fields : List FieldKind → List Numeral → List ℤ → Prop
  | nil : Fields [] [] []
  | cons {kind : FieldKind} {n : Numeral} {v : ℤ} {kinds : List FieldKind} {ns : List Numeral}
      {vs : List ℤ} : n.Valid kind.base → kind.value n = some v → Fields kinds ns vs →
      Fields (kind :: kinds) (n :: ns) (v :: vs)

/-- Numerals with a delimiter before each. -/
def delimited (ns : List Numeral) : Text := ns.flatMap fun n => DELIMITER :: n.bytes

/-- Numerals with delimiters between them. -/
def joined : List Numeral → Text
  | [] => []
  | n :: ns => n.bytes ++ delimited ns

namespace LinkType

def fields : LinkType → List FieldKind
  | item => .id :: List.replicate 8 .signed
  | quest => [.id, .signed]
  | trade => [.id, .signed, .signed, .hex]
  | talent => [.id, .signed]
  | spell => [.id]
  | enchant => [.id]
  | achievement => .id :: .hex :: List.replicate 8 .unsigned
  | glyph => [.unsigned, .id]

end LinkType

/-! ## 2. Objects -/

variable (stores) in
/-- The suffix that goes with a random property of an item. -/
def randomSuffix (id : ℤ) : Option (Option Localized) :=
  if 0 < id then (stores.itemRandomProperties id.toNat).map some
  else if id < 0 then (stores.itemRandomSuffix (-id).toNat).map some
  else some none

variable (stores) in
/-- The object that the numbers of a link name. -/
def object : LinkType → List ℤ → Option ChatLink
  | .item, id :: properties =>
    (stores.getItemTemplate id.toNat).bind fun item =>
      (properties[5]?).bind fun property =>
        (randomSuffix stores property).map fun suffix => .item item suffix
  | .quest, [id, level] =>
    if level < STRONG_MAX_LEVEL then (stores.getQuestTemplate id.toNat).map .quest else none
  | .trade, id :: _ => (stores.getSpellInfo id.toNat).map .spell
  | .talent, id :: _ => ((stores.talent id.toNat).bind stores.getSpellInfo).map .spell
  | .spell, id :: _ => (stores.getSpellInfo id.toNat).map .spell
  | .enchant, id :: _ => (stores.getSpellInfo id.toNat).map .spell
  | .achievement, id :: _ => (stores.getAchievement id.toNat).map .achievement
  | .glyph, _ :: id :: _ => ((stores.glyphProperties id.toNat).bind stores.getSpellInfo).map .spell
  | _, _ => none

/-- The colour of a kind, or of the quality of an item.  Quests have none. -/
def kindColor : LinkType → ChatLink → Option ℕ
  | .item, .item item _ => some (itemQualityColors item.quality)
  | .trade, _ => some CHAT_LINK_COLOR_TRADE
  | .talent, _ => some CHAT_LINK_COLOR_TALENT
  | .spell, _ => some CHAT_LINK_COLOR_SPELL
  | .enchant, _ => some CHAT_LINK_COLOR_ENCHANT
  | .achievement, _ => some CHAT_LINK_COLOR_ACHIEVEMENT
  | .glyph, _ => some CHAT_LINK_COLOR_GLYPH
  | _, _ => none

variable (stores) in
/-- **The names of an object.**  The name of an item goes with its suffix, in one language; that of
a trade skill's spell may come after the name of its skill line. -/
def IsCaption : ChatLink → Text → Prop
  | .item item suffix, caption => ∃ index locale, itemName item index locale ≠ [] ∧
      (locale = none ∨ locale = stores.getItemLocale item.itemId) ∧
        caption = formatName item index locale suffix
  | .quest quest, caption => caption ≠ [] ∧
      (caption = quest.title ∨ ∃ titles ∈ stores.getQuestLocale quest.questId, caption ∈ titles)
  | .spell spell, caption => ∃ i, spell.spellName i ≠ [] ∧ (caption = spell.spellName i ∨
      spell.tradespell = true ∧
        ∃ skillLine ∈ (stores.skillLineAbility spell.id).bind stores.skillLine,
          ∃ j, caption = skillLine j ++ ascii ": " ++ spell.spellName i)
  | .achievement names, caption => ∃ i, names i ≠ [] ∧ caption = names i

/-! ## 3. Sound messages -/

/-- A link as it is to be written. -/
structure LinkText where
  digits : Text
  type : LinkType
  data : Text
  name : Text

def LinkText.bytes (l : LinkText) : Text :=
  ascii "|c" ++ l.digits ++ ascii "|H" ++ l.type.name ++ ascii ":" ++ l.data ++ ascii "|h[" ++
    l.name ++ ascii "]|h|r"

variable (stores) in
/-- The data name the object: plain numbers, and after those of a trade skill anything but a
pipe. -/
def DataNames (type : LinkType) (data : Text) (link : ChatLink) : Prop :=
  ∃ ns vs tail, data = joined ns ++ tail ∧ Fields type.fields ns vs ∧
    List.Forall₂ FieldKind.Plain type.fields ns ∧
      (tail = [] ∨ type = .trade ∧ PIPE_CHAR ∉ tail) ∧ object stores type vs = some link

variable (stores) in
/-- **A link is sound.** -/
structure LinkText.Sound (l : LinkText) : Prop where
  eight : l.digits.length = 8
  digits : ∀ c ∈ l.digits, isDigit 16 c = true
  object : ∃ link, DataNames stores l.type l.data link ∧
    (∀ color ∈ kindColor l.type link, digitsValue 16 l.digits = color) ∧
      IsCaption stores link l.name
  bracketed : 93 ∉ l.name

variable (stores) in
/-- **A message is sound.** -/
inductive Sound : Text → Prop
  | nil : Sound []
  | char {c : UInt8} {m : Text} : c ≠ PIPE_CHAR → Sound m → Sound (c :: m)
  | escaped {m : Text} : Sound m → Sound (PIPE_CHAR :: PIPE_CHAR :: m)
  | link {l : LinkText} {m : Text} : l.Sound stores → Sound m → Sound (l.bytes ++ m)

/-! ## 4. Readings -/

/-- A link as it is read, from its first command on; there may be white space before a command,
and the last one may not be there. -/
structure Link where
  gapC : Text
  color : Numeral
  gapH : Text
  type : LinkType
  fields : List Numeral
  tail : Text
  gapText : Text
  caption : Text
  gapEnd : Text
  gapR : Text
  closed : Bool

def Link.bytes (l : Link) : Text :=
  l.gapC ++ ascii "c" ++ l.color.bytes ++ ascii "|" ++ l.gapH ++ ascii "H" ++ l.type.name ++
    ascii ":" ++ joined l.fields ++ l.tail ++ ascii "|" ++ l.gapText ++ ascii "h[" ++ l.caption ++
      ascii "]" ++ ascii "|" ++ l.gapEnd ++ ascii "h" ++ ascii "|" ++ l.gapR ++
        if l.closed then ascii "r" else []

def IsBlank (xs : Text) : Prop := ∀ c ∈ xs, Reader.isSpace c = true

/-- The colour that is compared: a talent's is not. -/
def checkedColor : LinkType → ChatLink → Option ℕ
  | .talent, _ => none
  | type, link => kindColor type link

variable (stores) in
/-- **A link is read** in this way, and its object is the given one. -/
structure Link.Reads (junk : UInt8) (l : Link) (link : ChatLink) : Prop where
  gapC : IsBlank l.gapC
  color : l.color.Valid 16
  eight : l.color.bytes.length = 8
  gapH : IsBlank l.gapH
  fields : ∃ vs, Fields l.type.fields l.fields vs ∧ object stores l.type vs = some link
  tail : l.tail = [] ∨ l.type = .trade ∧ PIPE_CHAR ∉ l.tail
  checked : ∀ color ∈ checkedColor l.type link, l.color.toUInt32 16 = some color
  gapText : IsBlank l.gapText
  bracketed : 93 ∉ l.caption
  caption : ∃ s, validateName stores link l.caption s = .ok ((), s)
  gapEnd : IsBlank l.gapEnd
  gapR : IsBlank l.gapR
  closed : l.closed = false → l.gapR ≠ [] ∧ junk = 114

/-- What comes after a text: an escaped pipe or a link. -/
inductive Item where
  | escaped (gap : Text)
  | link (l : Link)

def Item.bytes : Item → Text
  | escaped gap => gap ++ ascii "|"
  | link l => l.bytes

/-- A text without pipes, a pipe, and an item.  After 255 characters there may be no pipe. -/
structure Segment where
  text : Text
  pipe : Bool
  item : Item

def pipeBytes (pipe : Bool) : Text := if pipe then ascii "|" else []

def Segment.bytes (s : Segment) : Text := s.text ++ pipeBytes s.pipe ++ s.item.bytes

/-- A message: segments, a text, and perhaps a pipe with nothing but white space after it. -/
structure Reading where
  segments : List Segment
  text : Text
  pipe : Bool
  gap : Text

def Reading.bytes (r : Reading) : Text :=
  r.segments.flatMap Segment.bytes ++ r.text ++ pipeBytes r.pipe ++ r.gap

variable (stores) in
def Item.Reads (junk : UInt8) : Item → Prop
  | escaped gap => IsBlank gap
  | link l => ∃ object, l.Reads stores junk object

variable (stores) in
/-- **A message is read** in this way. -/
structure Reading.Reads (junk : UInt8) (r : Reading) : Prop where
  texts : ∀ s ∈ r.segments, PIPE_CHAR ∉ s.text ∧ (s.pipe = false → s.text.length = 255)
  items : ∀ s ∈ r.segments, s.item.Reads stores junk
  text : PIPE_CHAR ∉ r.text
  gap : IsBlank r.gap
  blank : r.gap ≠ [] → junk = PIPE_CHAR

/-! ## 5. Faults -/

variable (stores) in
/-- No missing translation is taken for a name, and a skill line's name is cut off with a colon
and a space. -/
def CaptionFaultless : ChatLink → Text → Prop
  | .item item suffix, caption => ∀ index locale, itemName item index locale = [] →
      (locale = none ∨ locale = stores.getItemLocale item.itemId) →
        caption ≠ formatName item index locale suffix
  | .quest _, caption => caption ≠ []
  | .spell spell, caption => ∀ text, spellCaption stores spell caption = .ok text → text ≠ caption →
      ∃ skillLine ∈ (stores.skillLineAbility spell.id).bind stores.skillLine,
        ∃ j, caption = skillLine j ++ ascii ": " ++ text
  | .achievement _, _ => True

variable (stores) in
/-- **A link without faults**: no white space after a pipe, a colour of eight digits, plain
numbers, a talent in the colour of talents, and a caption without faults. -/
structure Link.Faultless (l : Link) (link : ChatLink) : Prop where
  gaps : l.gapC = [] ∧ l.gapH = [] ∧ l.gapText = [] ∧ l.gapEnd = [] ∧ l.gapR = []
  color : l.color.Plain ∧ l.color.sign = []
  fields : List.Forall₂ FieldKind.Plain l.type.fields l.fields
  talent : l.type = .talent → l.color.toUInt32 16 = some CHAT_LINK_COLOR_TALENT
  caption : CaptionFaultless stores link l.caption

variable (stores) in
def Item.Faultless (junk : UInt8) : Item → Prop
  | escaped gap => gap = []
  | link l => ∀ object, l.Reads stores junk object → l.Faultless stores object

variable (stores) in
/-- **A reading without faults**: every item comes after a pipe and has none, and there is no pipe
alone at the end. -/
structure Reading.Faultless (junk : UInt8) (r : Reading) : Prop where
  pipes : ∀ s ∈ r.segments, s.pipe = true
  items : ∀ s ∈ r.segments, s.item.Faultless stores junk
  pipe : r.pipe = false

end HungerGames.ChatLinks
