/-
# Where the validation goes out of bounds

The validation should end on every message, and stay within its buffer (`TotalAndBounded`).  The
lines it reads do, and so does every turn that refuses: what is left of the message gets shorter
with every turn (`Inside.turn`), so the loop has an end unless a turn has none.  Two kinds of turn
go wrong: a link to a trade skill that is cut off before a pipe, and the caption of a trade skill
that is just the name of its profession (`turn_error`).  The validation is total and bounded on
the messages whose turns meet neither, and on no others (`totalAndBounded_iff`).
-/
import Mathlib.Data.Fin.Tuple.Basic
import HungerGames.System.StreamRules
import HungerGames.ChatLinks.Soundness

namespace HungerGames.ChatLinks

open HungerGames.System HungerGames.System.Reader HungerGames.System.TextStream

variable {stores : Stores} {junk : UInt8} {cursor cursor' : Cursor} {s s' : TextStream}

/-! ## 1. Numbers and delimiters -/

theorem shortens_readNumber {α : Type} {base : ℕ} {convert : Numeral → Option α} :
    Shortens (readNumber base convert) :=
  Shortens.extract.bind fun _ => Shortens.isEof.bind fun _ => Shortens.require.bind fun _ =>
    Shortens.the

theorem shortens_left : Shortens left := by
  intro s n s' h
  rw [(left_ok.mp h).2]

theorem shortens_readHex {length : ℕ} : Shortens (readHex length) :=
  shortens_left.bind fun _ => Shortens.extract.bind fun _ => shortens_left.bind fun _ =>
    Shortens.require.bind fun _ => Shortens.isEof.bind fun _ => Shortens.require.bind fun _ =>
      Shortens.the

theorem shortens_checkDelimiter {d : UInt8} : Shortens (checkDelimiter d) :=
  Shortens.peek.bind fun _ => Shortens.require.bind fun _ => Shortens.getChar.bind fun _ =>
    Shortens.pure _

theorem shortens_readSkip {term : UInt8} : Shortens (readSkip term) := by
  intro s text s' h
  obtain ⟨⟨xs, rfl, rfl⟩, -⟩ := readSkip_ok h
  change xs.length ≤ (text ++ xs).length
  rw [List.length_append]
  exact Nat.le_add_left _ _

theorem refuses_readNumber {α : Type} {base : ℕ} {convert : Numeral → Option α} :
    OnlyFails .refused (readNumber base convert) :=
  OnlyFails.extract.bind fun _ => OnlyFails.isEof.bind fun _ => OnlyFails.require.bind fun _ =>
    OnlyFails.the

theorem refuses_left : OnlyFails .refused left := OnlyFails.of_ok fun s => ⟨(s.rest.length, s), rfl⟩

theorem refuses_readHex {length : ℕ} : OnlyFails .refused (readHex length) :=
  refuses_left.bind fun _ => OnlyFails.extract.bind fun _ => refuses_left.bind fun _ =>
    OnlyFails.require.bind fun _ => OnlyFails.isEof.bind fun _ => OnlyFails.require.bind fun _ =>
      OnlyFails.the

theorem refuses_checkDelimiter {d : UInt8} : OnlyFails .refused (checkDelimiter d) :=
  OnlyFails.peek.bind fun _ => OnlyFails.require.bind fun _ => OnlyFails.getChar.bind fun _ =>
    OnlyFails.pure _

variable {e : Fault}

/-- **What is skipped has an end**, or the skipping has none. -/
theorem readSkip_error {term : UInt8} {xs : Text} :
    readSkip term (on xs) = .error e ↔ e = .endless ∧ ∀ c ∈ xs, c ≠ term ∧ c ≠ 0 := by
  have hall : xs.dropWhile (fun c => decide (c ≠ term) && decide (c ≠ 0)) = [] ↔
      ∀ c ∈ xs, c ≠ term ∧ c ≠ 0 := by
    simp [List.dropWhile_eq_nil_iff]
  rw [← hall]
  unfold readSkip
  rw [if_pos (good_on xs)]
  split
  · next hdrop => exact ⟨fun h => ⟨(Except.error.inj h).symm, hdrop⟩, fun h => h.1 ▸ rfl⟩
  · next c cs hdrop =>
    refine ⟨fun h => (by cases h), fun h => ?_⟩
    have hnil := hdrop.symm.trans h.2
    cases hnil

/-! ## 2. The data of a link -/

variable (stores) in
/-- What is read of a link to a trade skill before its last part, which is skipped. -/
def tradeHeader (color : ℕ) : Reader Fault SpellInfo := do
  require .refused (color = CHAT_LINK_COLOR_TRADE)
  let spellId ← readUInt32
  let spell ← the .refused (stores.getSpellInfo spellId)
  checkDelimiter DELIMITER
  let _ ← readInt32
  checkDelimiter DELIMITER
  let _ ← readInt32
  checkDelimiter DELIMITER
  let _ ← readHex 0
  pure spell

theorem initializeTrade_eq (color : ℕ) : initializeTrade stores color = (do
    let spell ← tradeHeader stores color
    let _ ← readSkip PIPE_CHAR
    pure (.spell spell)) := by
  simp only [initializeTrade, tradeHeader, bind_assoc, pure_bind]

variable {color : ℕ}

theorem refuses_tradeHeader : OnlyFails .refused (tradeHeader stores color) :=
  OnlyFails.require.bind fun _ => refuses_readNumber.bind fun _ => OnlyFails.the.bind fun _ =>
    refuses_checkDelimiter.bind fun _ => refuses_readNumber.bind fun _ =>
      refuses_checkDelimiter.bind fun _ => refuses_readNumber.bind fun _ =>
        refuses_checkDelimiter.bind fun _ => refuses_readHex.bind fun _ => OnlyFails.pure _

theorem shortens_tradeHeader : Shortens (tradeHeader stores color) :=
  Shortens.require.bind fun _ => shortens_readNumber.bind fun _ => Shortens.the.bind fun _ =>
    shortens_checkDelimiter.bind fun _ => shortens_readNumber.bind fun _ =>
      shortens_checkDelimiter.bind fun _ => shortens_readNumber.bind fun _ =>
        shortens_checkDelimiter.bind fun _ => shortens_readHex.bind fun _ => Shortens.pure _

/-- The last number is read before the end, from a good stream. -/
theorem tradeHeader_on {spell : SpellInfo} (h : tradeHeader stores color s = .ok (spell, s')) :
    ∃ xs, s' = on xs := by
  simp only [tradeHeader, bind_ok, pure_ok] at h
  obtain ⟨_, _, -, _, _, -, _, _, -, _, _, -, _, _, -, _, _, -, _, _, -, _, _, -, _, _, hguid,
    heq⟩ := h
  obtain ⟨-, rfl⟩ := Prod.mk.inj heq
  obtain ⟨n, -, ⟨xs, -, hs⟩, -⟩ := readHex_ok hguid
  exact ⟨xs, hs⟩

theorem refuses_readProperty {index : ℕ} {suffix : Option Localized} :
    OnlyFails .refused (readProperty stores index suffix) := by
  refine refuses_checkDelimiter.bind fun _ => refuses_readNumber.bind fun id => ?_
  by_cases hrandom : id ≠ 0 ∧ index = 5
  · rw [if_pos hrandom]
    by_cases hpos : 0 < id
    · rw [if_pos hpos]
      exact OnlyFails.the.map
    · rw [if_neg hpos]
      exact OnlyFails.the.map
  · rw [if_neg hrandom]
    exact OnlyFails.pure _

theorem shortens_readProperty {index : ℕ} {suffix : Option Localized} :
    Shortens (readProperty stores index suffix) := by
  refine shortens_checkDelimiter.bind fun _ => shortens_readNumber.bind fun id => ?_
  by_cases hrandom : id ≠ 0 ∧ index = 5
  · rw [if_pos hrandom]
    by_cases hpos : 0 < id
    · rw [if_pos hpos]
      exact Shortens.the.map
    · rw [if_neg hpos]
      exact Shortens.the.map
  · rw [if_neg hrandom]
    exact Shortens.pure _

theorem refuses_readProperties : ∀ {count index : ℕ} {suffix : Option Localized},
    OnlyFails .refused (readProperties stores count index suffix)
  | 0, _, _ => OnlyFails.pure _
  | _ + 1, _, _ => refuses_readProperty.bind fun _ => refuses_readProperties

theorem shortens_readProperties : ∀ {count index : ℕ} {suffix : Option Localized},
    Shortens (readProperties stores count index suffix)
  | 0, _, _ => Shortens.pure _
  | _ + 1, _, _ => shortens_readProperty.bind fun _ => shortens_readProperties

theorem refuses_skipProgress : ∀ {count : ℕ}, OnlyFails .refused (skipProgress count)
  | 0 => OnlyFails.pure _
  | _ + 1 => refuses_checkDelimiter.bind fun _ => refuses_readNumber.bind fun _ =>
      refuses_skipProgress

theorem shortens_skipProgress : ∀ {count : ℕ}, Shortens (skipProgress count)
  | 0 => Shortens.pure _
  | _ + 1 => shortens_checkDelimiter.bind fun _ => shortens_readNumber.bind fun _ =>
      shortens_skipProgress

/-- **Only links to trade skills are skipped in**: the data of any other are read, or refused. -/
theorem refuses_initializeLink {type : LinkType} (htype : type ≠ .trade) :
    OnlyFails .refused (type.initializeLink stores color) := by
  cases type with
  | item => exact refuses_readNumber.bind fun _ => OnlyFails.the.bind fun _ =>
      OnlyFails.require.bind fun _ => refuses_readProperties.bind fun _ => OnlyFails.pure _
  | quest => exact refuses_readNumber.bind fun _ => OnlyFails.the.bind fun _ =>
      refuses_checkDelimiter.bind fun _ => refuses_readNumber.bind fun _ =>
        OnlyFails.require.bind fun _ => OnlyFails.pure _
  | trade => exact absurd rfl htype
  | talent => exact refuses_readNumber.bind fun _ => OnlyFails.the.bind fun _ =>
      OnlyFails.the.bind fun _ => refuses_checkDelimiter.bind fun _ =>
        refuses_readNumber.bind fun _ => OnlyFails.pure _
  | spell => exact OnlyFails.require.bind fun _ => refuses_readNumber.bind fun _ =>
      OnlyFails.the.bind fun _ => OnlyFails.pure _
  | enchant => exact OnlyFails.require.bind fun _ => refuses_readNumber.bind fun _ =>
      OnlyFails.the.bind fun _ => OnlyFails.pure _
  | achievement => exact OnlyFails.require.bind fun _ => refuses_readNumber.bind fun _ =>
      OnlyFails.the.bind fun _ => refuses_checkDelimiter.bind fun _ =>
        refuses_readHex.bind fun _ => refuses_skipProgress.bind fun _ => OnlyFails.pure _
  | glyph => exact OnlyFails.require.bind fun _ => refuses_readNumber.bind fun _ =>
      refuses_checkDelimiter.bind fun _ => refuses_readNumber.bind fun _ =>
        OnlyFails.the.bind fun _ => OnlyFails.the.bind fun _ => OnlyFails.pure _

theorem shortens_initializeLink {type : LinkType} :
    Shortens (type.initializeLink stores color) := by
  cases type with
  | item => exact shortens_readNumber.bind fun _ => Shortens.the.bind fun _ =>
      Shortens.require.bind fun _ => shortens_readProperties.bind fun _ => Shortens.pure _
  | quest => exact shortens_readNumber.bind fun _ => Shortens.the.bind fun _ =>
      shortens_checkDelimiter.bind fun _ => shortens_readNumber.bind fun _ =>
        Shortens.require.bind fun _ => Shortens.pure _
  | trade =>
    change Shortens (initializeTrade stores color)
    rw [initializeTrade_eq]
    exact shortens_tradeHeader.bind fun _ => shortens_readSkip.bind fun _ => Shortens.pure _
  | talent => exact shortens_readNumber.bind fun _ => Shortens.the.bind fun _ =>
      Shortens.the.bind fun _ => shortens_checkDelimiter.bind fun _ =>
        shortens_readNumber.bind fun _ => Shortens.pure _
  | spell => exact Shortens.require.bind fun _ => shortens_readNumber.bind fun _ =>
      Shortens.the.bind fun _ => Shortens.pure _
  | enchant => exact Shortens.require.bind fun _ => shortens_readNumber.bind fun _ =>
      Shortens.the.bind fun _ => Shortens.pure _
  | achievement => exact Shortens.require.bind fun _ => shortens_readNumber.bind fun _ =>
      Shortens.the.bind fun _ => shortens_checkDelimiter.bind fun _ =>
        shortens_readHex.bind fun _ => shortens_skipProgress.bind fun _ => Shortens.pure _
  | glyph => exact Shortens.require.bind fun _ => shortens_readNumber.bind fun _ =>
      shortens_checkDelimiter.bind fun _ => shortens_readNumber.bind fun _ =>
        Shortens.the.bind fun _ => Shortens.the.bind fun _ => Shortens.pure _

/-! ## 3. Captions -/

/-- **The caption is just the name of the profession**, in the first language whose name of it is
in front of the caption. -/
def IsProfession (names : Localized) (buffer : Text) : Prop :=
  ∃ i, names i = buffer ∧ buffer ≠ [] ∧ ∀ j < i, names j = [] ∨ ¬ names j <+: buffer

variable {buffer : Text}

/-- The profession in front is that of the first language where there is one. -/
theorem profession_iff {names : Localized} {i : Fin TOTAL_LOCALES} :
    ((List.finRange TOTAL_LOCALES).find? fun i =>
      0 < (names i).length && (names i).isPrefixOf buffer) = some i ↔
      (names i ≠ [] ∧ names i <+: buffer) ∧ ∀ j < i, names j = [] ∨ ¬ names j <+: buffer := by
  rw [← Fin.find?_eq_find?_finRange, Fin.find?_eq_some_iff]
  simp only [Bool.and_eq_true, decide_eq_true_eq, List.isPrefixOf_iff_prefix, List.length_pos_iff,
    Bool.eq_false_iff, ne_eq, not_and_or, not_not]

theorem removeProfession_error {names : Localized} :
    removeProfession names buffer = .error e ↔ e = .overrun ∧ IsProfession names buffer := by
  unfold removeProfession
  cases hfind : (List.finRange TOTAL_LOCALES).find? fun i =>
    0 < (names i).length && (names i).isPrefixOf buffer with
  | none =>
    refine ⟨fun h => (by cases h), ?_⟩
    rintro ⟨-, i, rfl, hne, hfirst⟩
    rw [profession_iff.mpr ⟨⟨hne, List.prefix_rfl⟩, hfirst⟩] at hfind
    cases hfind
  | some i =>
    obtain ⟨⟨hne, hprefix⟩, hfirst⟩ := profession_iff.mp hfind
    dsimp only
    by_cases hlength : buffer.length = (names i).length
    · rw [if_pos hlength]
      have heq : names i = buffer := hprefix.eq_of_length hlength.symm
      refine ⟨fun h => ⟨(Except.error.inj h).symm, i, heq, heq ▸ hne, hfirst⟩, fun h => ?_⟩
      rw [h.1]
    · rw [if_neg hlength]
      constructor
      · intro h
        by_cases hnext : buffer.length = (names i).length + 1
        · rw [if_pos hnext] at h
          cases h
        · rw [if_neg hnext] at h
          cases h
      · rintro ⟨-, k, rfl, hk, hkfirst⟩
        have hkfind := profession_iff.mpr ⟨⟨hk, List.prefix_rfl⟩, hkfirst⟩
        rw [hfind] at hkfind
        obtain rfl := Option.some.inj hkfind
        exact absurd rfl hlength

/-- What is left of a caption is not longer than the caption. -/
theorem length_removeProfession {names : Localized} {text : Text}
    (h : removeProfession names buffer = .ok text) : text.length ≤ buffer.length := by
  unfold removeProfession at h
  cases hfind : (List.finRange TOTAL_LOCALES).find? fun i =>
    0 < (names i).length && (names i).isPrefixOf buffer with
  | none =>
    rw [hfind] at h
    rw [Except.ok.inj h]
  | some i =>
    rw [hfind] at h
    dsimp only at h
    by_cases hlength : buffer.length = (names i).length
    · rw [if_pos hlength] at h
      cases h
    · rw [if_neg hlength] at h
      by_cases hnext : buffer.length = (names i).length + 1
      · rw [if_pos hnext] at h
        rw [Except.ok.inj h]
      · rw [if_neg hnext] at h
        rw [← Except.ok.inj h, List.length_drop]
        exact Nat.sub_le _ _

/-- **The caption overruns its buffer**: the link is to a trade skill, and the caption just the
name of the profession. -/
def Overruns (stores : Stores) (link : ChatLink) (buffer : Text) : Prop :=
  ∃ spell names, link = .spell spell ∧ spell.tradespell = true ∧
    (stores.skillLineAbility spell.id).bind stores.skillLine = some names ∧
    IsProfession names buffer

theorem spellCaption_error {spell : SpellInfo} (he : e ≠ .refused) :
    spellCaption stores spell buffer = .error e ↔
      e = .overrun ∧ Overruns stores (.spell spell) buffer := by
  have hoverruns : Overruns stores (.spell spell) buffer ↔ spell.tradespell = true ∧
      ∃ names, (stores.skillLineAbility spell.id).bind stores.skillLine = some names ∧
        IsProfession names buffer := by
    constructor
    · rintro ⟨_, names, hlink, htrade, hnames, his⟩
      obtain rfl := ChatLink.spell.inj hlink
      exact ⟨htrade, names, hnames, his⟩
    · rintro ⟨htrade, names, hnames, his⟩
      exact ⟨spell, names, rfl, htrade, hnames, his⟩
  rw [hoverruns]
  unfold spellCaption
  by_cases htrade : spell.tradespell = true
  · rw [if_pos htrade]
    cases hnames : (stores.skillLineAbility spell.id).bind stores.skillLine with
    | none =>
      refine ⟨fun h => absurd (Except.error.inj h).symm he, ?_⟩
      rintro ⟨-, -, names, hsome, -⟩
      cases hsome
    | some names =>
      rw [removeProfession_error]
      constructor
      · rintro ⟨rfl, his⟩
        exact ⟨rfl, htrade, names, rfl, his⟩
      · rintro ⟨rfl, -, _, hsome, his⟩
        obtain rfl := Option.some.inj hsome
        exact ⟨rfl, his⟩
  · rw [if_neg htrade]
    exact ⟨fun h => (by cases h), fun h => absurd h.2.1 htrade⟩

theorem validateName_error {link : ChatLink} (he : e ≠ .refused) :
    validateName stores link buffer s = .error e ↔ e = .overrun ∧ Overruns stores link buffer := by
  have hrefuses : ∀ {p : Prop} [Decidable p], ¬ (Reader.require .refused p : Reader Fault Unit) s =
      .error e := fun h => he (OnlyFails.require s e h)
  have hnot : ∀ {link : ChatLink}, (∀ spell, link ≠ .spell spell) →
      ¬ (e = .overrun ∧ Overruns stores link buffer) := by
    rintro link hlink ⟨-, spell, names, heq, -⟩
    exact hlink spell heq
  cases link with
  | item item suffix =>
    exact ⟨fun h => absurd h hrefuses, fun h => absurd h (hnot fun spell heq => by cases heq)⟩
  | quest quest =>
    exact ⟨fun h => absurd h hrefuses, fun h => absurd h (hnot fun spell heq => by cases heq)⟩
  | achievement names =>
    exact ⟨fun h => absurd h hrefuses, fun h => absurd h (hnot fun spell heq => by cases heq)⟩
  | spell spell =>
    rw [← spellCaption_error he]
    unfold validateName
    rw [bind_error]
    constructor
    · rintro (h | ⟨caption, s₁, -, h⟩)
      · cases hcaption : spellCaption stores spell buffer with
        | ok text =>
          rw [hcaption] at h
          cases h
        | error e' =>
          rw [hcaption] at h
          exact congrArg Except.error (Except.error.inj h)
      · exact absurd (OnlyFails.require _ _ h) he
    · intro h
      rw [h]
      exact Or.inl rfl

/-! ## 4. Turns -/

/-- A command in sequence is read, and the stream is at what comes after it. -/
def Commands (junk : UInt8) (place : ℕ) (c : UInt8) (s s' : TextStream) : Prop :=
  ∃ s₁, skipToPipe place s = .ok ((), s₁) ∧ readAfterPipe junk s₁ = .ok (some c, s') ∧
    (c ≠ PIPE_CHAR ∧ validSequence[place]? = some c ∨ c = PIPE_CHAR ∧ place = 0)

/-- **A link to a trade skill is cut off**: what is read of it is right, and then neither a pipe
nor a zero is left of the message. -/
def CutOff (stores : Stores) (color : ℕ) (s : TextStream) : Prop :=
  ∃ s₁ spell s₂, getline (ε := Fault) 256 DELIMITER s = .ok (LinkType.trade.name, s₁) ∧
    s₁.eofbit = false ∧ tradeHeader stores color s₁ = .ok (spell, s₂) ∧
      ∀ c ∈ s₂.rest, c ≠ PIPE_CHAR ∧ c ≠ 0

/-- **The caption is just the profession** of the trade skill that is linked. -/
def JustProfession (stores : Stores) (link : Option ChatLink) (s : TextStream) : Prop :=
  ∃ s₁ buffer s₂ object, getChar (ε := Fault) s = .ok (some 91, s₁) ∧
    getline (ε := Fault) 256 93 s₁ = .ok (buffer, s₂) ∧ s₂.eofbit = false ∧
      link = some object ∧ Overruns stores object buffer

/-- The cursor of a link when it is opened. -/
def opened (cursor : Cursor) : Cursor :=
  if cursor.place = 0 then { cursor with link := none } else cursor

variable {place : ℕ}

theorem refuses_skipToPipe : OnlyFails .refused (skipToPipe place) := by
  unfold skipToPipe
  by_cases hplace : place = 0
  · rw [if_pos hplace]
    exact OnlyFails.ignore
  · rw [if_neg hplace]
    exact OnlyFails.getChar.bind fun _ => OnlyFails.require

theorem shortens_skipToPipe : Shortens (skipToPipe place) := by
  unfold skipToPipe
  by_cases hplace : place = 0
  · rw [if_pos hplace]
    exact Shortens.ignore
  · rw [if_neg hplace]
    exact Shortens.getChar.bind fun _ => Shortens.require

theorem refuses_readAfterPipe : OnlyFails .refused (readAfterPipe junk) := by
  refine OnlyFails.peek.bind fun _ => OnlyFails.require.bind fun _ => OnlyFails.isEof.bind
    fun eof => ?_
  cases eof with
  | true => exact OnlyFails.pure _
  | false => exact OnlyFails.readChar.bind fun _ => OnlyFails.pure _

variable {c : UInt8}

theorem refuses_checkSequence : OnlyFails .refused (checkSequence place c) := by
  unfold checkSequence
  by_cases hc : c ≠ PIPE_CHAR
  · rw [if_pos hc]
    exact OnlyFails.require
  · rw [if_neg hc]
    exact OnlyFails.require

theorem checkSequence_of
    (h : c ≠ PIPE_CHAR ∧ validSequence[place]? = some c ∨ c = PIPE_CHAR ∧ place = 0) :
    checkSequence place c s = .ok ((), s) := by
  unfold checkSequence
  rcases h with ⟨hc, hnext⟩ | ⟨hc, hplace⟩
  · rw [if_pos hc]
    exact require_ok.mpr ⟨hnext, rfl⟩
  · rw [if_neg (not_not.mpr hc)]
    exact require_ok.mpr ⟨hplace, rfl⟩

/-- **A turn that goes on** has read a command and its payload. -/
theorem turn_some : turn stores junk cursor s = .ok (some cursor', s') ↔
    ∃ c s₁, Commands junk cursor.place c s s₁ ∧
      readPayload stores (opened cursor) (nextPlace cursor.place c) c s₁ = .ok (cursor', s') := by
  unfold turn
  simp only [bind_ok]
  constructor
  · rintro ⟨_, s₁, hskip, command, s₂, hread, h⟩
    cases command with
    | none => cases pure_ok.mp h
    | some c =>
      simp only [bind_ok, pure_ok] at h
      obtain ⟨_, s₃, hcheck, next, s₄, hpayload, heq⟩ := h
      obtain ⟨hnext, rfl⟩ := Prod.mk.inj heq
      obtain rfl := Option.some.inj hnext
      obtain ⟨hsequence, rfl⟩ := checkSequence_ok hcheck
      exact ⟨c, s₃, ⟨s₁, hskip, hread, hsequence⟩, hpayload⟩
  · rintro ⟨c, s₂, ⟨s₁, hskip, hread, hsequence⟩, hpayload⟩
    refine ⟨(), s₁, hskip, some c, s₂, hread, ?_⟩
    simp only [bind_ok, pure_ok]
    exact ⟨(), s₂, checkSequence_of hsequence, cursor', s', hpayload, rfl⟩

/-- A turn that does not refuse fails at the payload of a command. -/
theorem turn_payload (he : e ≠ .refused) : turn stores junk cursor s = .error e ↔
    ∃ c s₁, Commands junk cursor.place c s s₁ ∧
      readPayload stores (opened cursor) (nextPlace cursor.place c) c s₁ = .error e := by
  unfold turn
  simp only [bind_error]
  constructor
  · rintro (h | ⟨_, s₁, hskip, h | ⟨command, s₂, hread, h⟩⟩)
    · exact absurd (refuses_skipToPipe s e h) he
    · exact absurd (refuses_readAfterPipe s₁ e h) he
    · cases command with
      | none => cases h
      | some c =>
        simp only [bind_error] at h
        rcases h with h | ⟨_, s₃, hcheck, hpayload | ⟨next, s₄, -, h⟩⟩
        · exact absurd (refuses_checkSequence s₂ e h) he
        · obtain ⟨hsequence, rfl⟩ := checkSequence_ok hcheck
          exact ⟨c, s₃, ⟨s₁, hskip, hread, hsequence⟩, hpayload⟩
        · cases h
  · rintro ⟨c, s₂, ⟨s₁, hskip, hread, hsequence⟩, hpayload⟩
    refine Or.inr ⟨(), s₁, hskip, Or.inr ⟨some c, s₂, hread, ?_⟩⟩
    simp only [bind_error]
    exact Or.inr ⟨(), s₂, checkSequence_of hsequence, Or.inl hpayload⟩

/-- The object of a link is not found to have an end. -/
theorem initializeLink_error {type : LinkType} (he : e ≠ .refused) :
    type.initializeLink stores color s = .error e ↔ e = .endless ∧ type = .trade ∧
      ∃ spell s', tradeHeader stores color s = .ok (spell, s') ∧
        ∀ c ∈ s'.rest, c ≠ PIPE_CHAR ∧ c ≠ 0 := by
  by_cases htype : type = .trade
  · subst htype
    change initializeTrade stores color s = .error e ↔ _
    rw [initializeTrade_eq]
    simp only [bind_error]
    constructor
    · rintro (h | ⟨spell, s₁, hheader, h | ⟨_, s₂, -, h⟩⟩)
      · exact absurd (refuses_tradeHeader s e h) he
      · obtain ⟨xs, rfl⟩ := tradeHeader_on hheader
        obtain ⟨rfl, hnone⟩ := readSkip_error.mp h
        exact ⟨rfl, trivial, spell, on xs, hheader, hnone⟩
      · cases h
    · rintro ⟨rfl, -, spell, s', hheader, hnone⟩
      obtain ⟨xs, rfl⟩ := tradeHeader_on hheader
      exact Or.inr ⟨spell, on xs, hheader, Or.inl (readSkip_error.mpr ⟨rfl, hnone⟩)⟩
  · exact ⟨fun h => absurd (refuses_initializeLink htype s e h) he, fun h => absurd h.2.1 htype⟩

/-- **What a payload goes wrong at.** -/
theorem readPayload_error (he : e ≠ .refused) :
    readPayload stores cursor place c s = .error e ↔
      e = .endless ∧ c = 72 ∧ CutOff stores cursor.color s ∨
        e = .overrun ∧ c = 104 ∧ validSequence[place]? = some 104 ∧
          JustProfession stores cursor.link s := by
  have hrefuses : ∀ {p : Prop} [Decidable p] {s : TextStream},
      (Reader.require .refused p : Reader Fault Unit) s = .error e → False :=
    fun h => he (OnlyFails.require _ e h)
  unfold readPayload
  by_cases hcolor : c = 99
  · subst hcolor
    rw [if_pos rfl, bind_error]
    refine ⟨?_, fun h => ?_⟩
    · rintro (h | ⟨color, s₁, -, h⟩)
      · exact absurd (refuses_readHex s e h) he
      · cases h
    · rcases h with ⟨-, h, -⟩ | ⟨-, h, -⟩
      · exact absurd h (by decide)
      · exact absurd h (by decide)
  rw [if_neg hcolor]
  by_cases hobject : c = 72
  · subst hobject
    rw [if_pos rfl]
    simp only [bind_error]
    constructor
    · rintro (h | ⟨buffer, s₁, hline, h | ⟨eof, s₂, heof, h | ⟨_, s₃, hnot, h |
        ⟨type, s₄, hknown, h | ⟨link, s₅, -, h⟩⟩⟩⟩⟩)
      · exact absurd (OnlyFails.getline (e := .refused) s e h) he
      · exact absurd (OnlyFails.isEof (e := .refused) s₁ e h) he
      · exact absurd h hrefuses
      · exact absurd (OnlyFails.the s₃ e h) he
      · obtain ⟨rfl, rfl⟩ := isEof_ok.mp heof
        obtain ⟨hread, rfl⟩ := require_ok.mp hnot
        obtain ⟨htype, rfl⟩ := the_ok.mp hknown
        obtain ⟨rfl, rfl, spell, s', hheader, hnone⟩ := (initializeLink_error he).mp h
        obtain rfl := ofName_some htype
        exact Or.inl ⟨rfl, trivial, s₄, spell, s', hline, hread, hheader, hnone⟩
      · cases h
    · rintro (⟨rfl, -, s₁, spell, s₂, hline, heof, hheader, hnone⟩ | ⟨-, h, -⟩)
      · exact Or.inr ⟨_, s₁, hline, Or.inr ⟨_, s₁, isEof_ok.mpr ⟨rfl, rfl⟩, Or.inr ⟨(), s₁,
          require_ok.mpr ⟨heof, rfl⟩, Or.inr ⟨.trade, s₁, the_ok.mpr ⟨rfl, rfl⟩, Or.inl
            ((initializeLink_error he).mpr ⟨rfl, rfl, spell, s₂, hheader, hnone⟩)⟩⟩⟩⟩
      · exact absurd h (by decide)
  rw [if_neg hobject]
  have hnotObject : ¬ (e = .endless ∧ c = 72 ∧ CutOff stores cursor.color s) := fun h =>
    hobject h.2.1
  by_cases hcaption : c = 104 ∧ validSequence[place]? = some 104
  · obtain ⟨rfl, hplace⟩ := hcaption
    rw [if_pos rfl, if_pos hplace]
    simp only [bind_error]
    constructor
    · rintro (h | ⟨open', s₁, hopen, h | ⟨_, s₂, hbracket, h | ⟨buffer, s₃, hline, h |
        ⟨eof, s₄, heof, h | ⟨_, s₅, hnot, h | ⟨link, s₆, hlink, h | ⟨_, s₇, -, h⟩⟩⟩⟩⟩⟩⟩)
      · exact absurd (OnlyFails.getChar (e := .refused) s e h) he
      · exact absurd h hrefuses
      · exact absurd (OnlyFails.getline (e := .refused) s₂ e h) he
      · exact absurd (OnlyFails.isEof (e := .refused) s₃ e h) he
      · exact absurd h hrefuses
      · exact absurd (OnlyFails.the s₅ e h) he
      · obtain ⟨rfl, rfl⟩ := require_ok.mp hbracket
        obtain ⟨rfl, rfl⟩ := isEof_ok.mp heof
        obtain ⟨hread, rfl⟩ := require_ok.mp hnot
        obtain ⟨hsome, rfl⟩ := the_ok.mp hlink
        obtain ⟨rfl, hoverruns⟩ := (validateName_error he).mp h
        exact Or.inr ⟨rfl, trivial, hplace, s₂, buffer, s₆, link, hopen, hline, hread, hsome,
          hoverruns⟩
      · cases h
    · rintro (⟨-, h, -⟩ | ⟨rfl, -, -, s₁, buffer, s₂, link, hopen, hline, heof, hlink, hoverruns⟩)
      · exact absurd h (by decide)
      · exact Or.inr ⟨_, s₁, hopen, Or.inr ⟨(), s₁, require_ok.mpr ⟨rfl, rfl⟩, Or.inr ⟨_, s₂, hline,
          Or.inr ⟨_, s₂, isEof_ok.mpr ⟨rfl, rfl⟩, Or.inr ⟨(), s₂, require_ok.mpr ⟨heof, rfl⟩,
            Or.inr ⟨link, s₂, the_ok.mpr ⟨hlink, rfl⟩,
              Or.inl ((validateName_error he).mpr ⟨rfl, hoverruns⟩)⟩⟩⟩⟩⟩⟩
  · have hpure : (if c = 104 then if validSequence[place]? = some 104 then (do
          let c ← getChar
          require .refused (c = some 91)
          let buffer ← getline 256 93
          let eof ← isEof
          require .refused (eof = false)
          let link ← the .refused cursor.link
          validateName stores link buffer
          pure ⟨place, cursor.color, cursor.link⟩ : Reader Fault Cursor)
        else pure ⟨place, cursor.color, cursor.link⟩
        else pure ⟨place, cursor.color, cursor.link⟩) =
        (pure ⟨place, cursor.color, cursor.link⟩ : Reader Fault Cursor) := by
      by_cases hc : c = 104
      · rw [if_pos hc, if_neg fun h => hcaption ⟨hc, h⟩]
      · rw [if_neg hc]
    rw [hpure]
    refine ⟨fun h => (by cases h), ?_⟩
    rintro (h | ⟨-, hc, hplace, -⟩)
    · exact absurd h hnotObject
    · exact absurd ⟨hc, hplace⟩ hcaption

/-! ## 5. What is left of the message -/

/-- Between links the stream is good, or at its end. -/
def Steady (cursor : Cursor) (s : TextStream) : Prop :=
  cursor.place = 0 → s.good = true ∨ s.eofbit = true

/-- A stream at which a character may be read. -/
theorem good_of_steady (hsteady : Steady cursor s) (heof : s.eofbit = false)
    (hplace : cursor.place = 0) : s = on s.rest := by
  rcases hsteady hplace with hgood | hend
  · exact good_iff.mp hgood
  · rw [heof] at hend
    cases hend

/-- Up to the pipe nothing goes wrong where a command follows. -/
theorem skipToPipe_on {s₁ : TextStream} (hgood : place = 0 → s = on s.rest)
    (hskip : skipToPipe place s = .ok ((), s₁)) (hread : readAfterPipe junk s₁ = .ok (some c, s')) :
    ∃ xs, s₁ = on xs := by
  by_cases hplace : place = 0
  · subst hplace
    rw [hgood rfl] at hskip
    obtain ⟨-, -, -, ⟨⟨xs, -, hs₁⟩, -⟩ | ⟨-, -, hend⟩⟩ := skipToPipe_text hskip
    · exact ⟨xs, hs₁⟩
    · cases readAfterPipe_end hend hread
  · obtain ⟨xs, -, hs₁⟩ := skipToPipe_link hplace hskip
    exact ⟨xs, hs₁⟩

/-- **A command takes a character**, and leaves a good stream unless the message ends. -/
theorem Commands.takes (hgood : place = 0 → s = on s.rest) (h : Commands junk place c s s') :
    s'.rest.length < s.rest.length ∧ (s'.good = true ∨ s'.eofbit = true) := by
  obtain ⟨s₁, hskip, hread, -⟩ := h
  obtain ⟨xs, rfl⟩ := skipToPipe_on hgood hskip hread
  have hle : xs.length ≤ s.rest.length := shortens_skipToPipe s () (on xs) hskip
  rcases readAfterPipe_on hread with ⟨h, -⟩ | ⟨d, -, gap, -, ⟨ys, hs, rfl⟩ | ⟨hgap, -, hs, rfl⟩⟩
  · cases h
  · obtain rfl : xs = gap ++ [d] ++ ys := congrArg TextStream.rest hs
    rw [List.length_append, List.length_append, List.length_singleton] at hle
    refine ⟨?_, Or.inl rfl⟩
    change ys.length < s.rest.length
    omega
  · obtain rfl : xs = gap := congrArg TextStream.rest hs
    exact ⟨(List.length_pos_of_ne_nil hgap).trans_le hle, Or.inr rfl⟩

theorem shortens_readPayload : Shortens (readPayload stores cursor place c) := by
  unfold readPayload
  by_cases hcolor : c = 99
  · rw [if_pos hcolor]
    exact shortens_readHex.bind fun _ => Shortens.pure _
  rw [if_neg hcolor]
  by_cases hobject : c = 72
  · rw [if_pos hobject]
    exact Shortens.getline.bind fun _ => Shortens.isEof.bind fun _ => Shortens.require.bind fun _ =>
      Shortens.the.bind fun _ => shortens_initializeLink.bind fun _ => Shortens.pure _
  rw [if_neg hobject]
  by_cases hh : c = 104
  · rw [if_pos hh]
    by_cases hcaption : validSequence[place]? = some 104
    · rw [if_pos hcaption]
      refine Shortens.getChar.bind fun _ => Shortens.require.bind fun _ =>
        Shortens.getline.bind fun _ => Shortens.isEof.bind fun _ => Shortens.require.bind fun _ =>
          Shortens.the.bind fun _ => Shortens.bind ?_ fun _ => Shortens.pure _
      intro s u s' h
      rw [validateName_ok h]
    · rw [if_neg hcaption]
      exact Shortens.pure _
  · rw [if_neg hh]
    exact Shortens.pure _

/-- The place is that of the command. -/
theorem readPayload_place (h : readPayload stores cursor place c s = .ok (cursor', s')) :
    cursor'.place = place := by
  unfold readPayload at h
  split at h
  · obtain ⟨_, _, -, h⟩ := bind_ok.mp h
    rw [(Prod.mk.inj (pure_ok.mp h)).1]
  · split at h
    · simp only [bind_ok, pure_ok] at h
      obtain ⟨_, _, -, _, _, -, _, _, -, _, _, -, _, _, -, heq⟩ := h
      rw [(Prod.mk.inj heq).1]
    · split at h
      · split at h
        · simp only [bind_ok, pure_ok] at h
          obtain ⟨_, _, -, _, _, -, _, _, -, _, _, -, _, _, -, _, _, -, _, _, -, heq⟩ := h
          rw [(Prod.mk.inj heq).1]
        · rw [(Prod.mk.inj (pure_ok.mp h)).1]
      · rw [(Prod.mk.inj (pure_ok.mp h)).1]

/-- Where a link ends, nothing follows the command. -/
theorem readPayload_end (hnext : nextPlace place c = 0)
    (hsequence : c ≠ PIPE_CHAR ∧ validSequence[place]? = some c ∨ c = PIPE_CHAR ∧ place = 0)
    (h : readPayload stores cursor (nextPlace place c) c s = .ok (cursor', s')) : s' = s := by
  have hc : c = PIPE_CHAR ∨ c = 114 := by
    unfold nextPlace at hnext
    by_cases hpipe : c = PIPE_CHAR
    · exact Or.inl hpipe
    · rw [if_neg hpipe] at hnext
      by_cases hplace : place = 4
      · subst hplace
        rcases hsequence with ⟨-, hseq⟩ | ⟨-, hzero⟩
        · exact Or.inr (Option.some.inj hseq).symm
        · cases hzero
      · rw [if_neg hplace] at hnext
        cases hnext
  have hpayload : readPayload stores cursor (nextPlace place c) c =
      pure ⟨nextPlace place c, cursor.color, cursor.link⟩ := by
    rcases hc with rfl | rfl <;> rfl
  rw [hpayload] at h
  exact (Prod.mk.inj (pure_ok.mp h)).2

/-- **Every turn that goes on leaves less of the message.** -/
theorem Steady.turn (hsteady : Steady cursor s) (heof : s.eofbit = false)
    (h : turn stores junk cursor s = .ok (some cursor', s')) :
    Steady cursor' s' ∧ s'.rest.length < s.rest.length := by
  obtain ⟨c, s₁, hcommand, hpayload⟩ := turn_some.mp h
  obtain ⟨htakes, hend⟩ := hcommand.takes (good_of_steady hsteady heof)
  have hle := shortens_readPayload s₁ cursor' s' hpayload
  refine ⟨fun hplace => ?_, hle.trans_lt htakes⟩
  rw [readPayload_place hpayload] at hplace
  obtain ⟨_, -, -, hsequence⟩ := hcommand
  rw [readPayload_end hplace hsequence hpayload]
  exact hend

/-! ## 6. The loop -/

variable (stores junk) in
/-- The loop comes from one state to another, in turns. -/
inductive Reaches : Cursor → TextStream → Cursor → TextStream → Prop
  | here (cursor : Cursor) (s : TextStream) : Reaches cursor s cursor s
  | turn {cursor cursor₁ cursor' : Cursor} {s s₁ s' : TextStream} (heof : s.eofbit = false)
      (hturn : turn stores junk cursor s = .ok (some cursor₁, s₁))
      (hrest : Reaches cursor₁ s₁ cursor' s') : Reaches cursor s cursor' s'

/-- The next turn does not end: it is to read a link to a trade skill, which is cut off. -/
def NextIsCutOff (stores : Stores) (junk : UInt8) (cursor : Cursor) (s : TextStream) : Prop :=
  s.eofbit = false ∧ ∃ s₁, Commands junk cursor.place 72 s s₁ ∧ CutOff stores cursor.color s₁

/-- The next turn leaves its buffer: it is to check a caption, which is just a profession. -/
def NextIsProfession (stores : Stores) (junk : UInt8) (cursor : Cursor) (s : TextStream) : Prop :=
  s.eofbit = false ∧ cursor.place = 2 ∧
    ∃ s₁, Commands junk cursor.place 104 s s₁ ∧ JustProfession stores cursor.link s₁

theorem opened_color : (opened cursor).color = cursor.color := by
  unfold opened
  split <;> rfl

theorem opened_link {cursor : Cursor} (hplace : cursor.place ≠ 0) : opened cursor = cursor :=
  if_neg hplace

/-- A caption comes after the third command. -/
theorem caption_place (h : Commands junk place 104 s s') :
    validSequence[nextPlace place 104]? = some 104 ↔ place = 2 := by
  obtain ⟨_, -, -, ⟨-, hsequence⟩ | ⟨hpipe, -⟩⟩ := h
  · have hlt : place < 5 := (List.getElem?_eq_some_iff.mp hsequence).1
    have hall : ∀ place < 5, validSequence[place]? = some 104 →
        (validSequence[nextPlace place 104]? = some 104 ↔ place = 2) := by decide
    exact hall place hlt hsequence
  · cases hpipe

/-- **What a turn goes wrong at.** -/
theorem turn_error (he : e ≠ .refused) (heof : s.eofbit = false) :
    turn stores junk cursor s = .error e ↔ e = .endless ∧ NextIsCutOff stores junk cursor s ∨
      e = .overrun ∧ NextIsProfession stores junk cursor s := by
  rw [turn_payload he]
  constructor
  · rintro ⟨c, s₁, hcommand, hpayload⟩
    rcases (readPayload_error he).mp hpayload with ⟨rfl, rfl, hcut⟩ | ⟨rfl, rfl, hplace, hjust⟩
    · rw [opened_color] at hcut
      exact Or.inl ⟨rfl, heof, s₁, hcommand, hcut⟩
    · have htwo := (caption_place hcommand).mp hplace
      rw [opened_link (by omega)] at hjust
      exact Or.inr ⟨rfl, heof, htwo, s₁, hcommand, hjust⟩
  · rintro (⟨rfl, -, s₁, hcommand, hcut⟩ | ⟨rfl, -, htwo, s₁, hcommand, hjust⟩)
    · rw [← opened_color] at hcut
      exact ⟨72, s₁, hcommand, (readPayload_error he).mpr (Or.inl ⟨rfl, rfl, hcut⟩)⟩
    · have hplace := (caption_place hcommand).mpr htwo
      have hopened : opened cursor = cursor := opened_link (by omega)
      rw [← hopened] at hjust
      exact ⟨104, s₁, hcommand, (readPayload_error he).mpr (Or.inr ⟨rfl, rfl, hplace, hjust⟩)⟩

/-- The loop fails in its next turn, or afterwards. -/
theorem loop_error {turns : ℕ} : loop stores junk (turns + 1) cursor s = .error e ↔
    s.eofbit = false ∧ (turn stores junk cursor s = .error e ∨ ∃ cursor' s',
      turn stores junk cursor s = .ok (some cursor', s') ∧
        loop stores junk turns cursor' s' = .error e) := by
  rw [loop]
  simp only [bind_error]
  constructor
  · rintro (h | ⟨eof, s₁, heof, h⟩)
    · cases h
    · obtain ⟨rfl, rfl⟩ := isEof_ok.mp heof
      cases hend : s₁.eofbit with
      | true =>
        rw [hend] at h
        cases h
      | false =>
        rw [hend, if_neg Bool.false_ne_true] at h
        rcases bind_error.mp h with h | ⟨next, s', hturn, h⟩
        · exact ⟨rfl, Or.inl h⟩
        · cases next with
          | none => cases h
          | some cursor' => exact ⟨rfl, Or.inr ⟨cursor', s', hturn, h⟩⟩
  · rintro ⟨heof, h⟩
    refine Or.inr ⟨_, s, isEof_ok.mpr ⟨rfl, rfl⟩, ?_⟩
    rw [heof, if_neg Bool.false_ne_true, bind_error]
    rcases h with h | ⟨cursor', s', hturn, h⟩
    · exact Or.inl h
    · exact Or.inr ⟨some cursor', s', hturn, h⟩

theorem endless_ne : Fault.endless ≠ .refused := by decide

theorem overrun_ne : Fault.overrun ≠ .refused := by decide

/-- A link that is cut off is read forever. -/
theorem Reaches.endless (h : Reaches stores junk cursor s cursor' s')
    (hcut : NextIsCutOff stores junk cursor' s') :
    ∀ turns, loop stores junk turns cursor s = .error .endless := by
  induction h with
  | here cursor s =>
    intro turns
    cases turns with
    | zero => rfl
    | succ turns =>
      exact loop_error.mpr ⟨hcut.1,
        Or.inl ((turn_error endless_ne hcut.1).mpr (Or.inl ⟨rfl, hcut⟩))⟩
  | turn heof hturn _ ih =>
    intro turns
    cases turns with
    | zero => rfl
    | succ turns => exact loop_error.mpr ⟨heof, Or.inr ⟨_, _, hturn, ih hcut turns⟩⟩

/-- A caption that is just a profession is moved out of the buffer. -/
theorem Reaches.overrun (h : Reaches stores junk cursor s cursor' s')
    (hjust : NextIsProfession stores junk cursor' s') :
    ∃ turns, loop stores junk turns cursor s = .error .overrun := by
  induction h with
  | here cursor s =>
    exact ⟨1, loop_error.mpr ⟨hjust.1,
      Or.inl ((turn_error overrun_ne hjust.1).mpr (Or.inr ⟨rfl, hjust⟩))⟩⟩
  | turn heof hturn _ ih =>
    obtain ⟨turns, hloop⟩ := ih hjust
    exact ⟨turns + 1, loop_error.mpr ⟨heof, Or.inr ⟨_, _, hturn, hloop⟩⟩⟩

/-- **Where the loop goes wrong**: with a turn for each character that is left, it comes to a turn
that does. -/
theorem Steady.loop_error {turns : ℕ} (hsteady : Steady cursor s) (he : e ≠ .refused)
    (hturns : e = .endless → s.rest.length < turns)
    (h : loop stores junk turns cursor s = .error e) :
    ∃ cursor' s', Reaches stores junk cursor s cursor' s' ∧
      (e = .endless ∧ NextIsCutOff stores junk cursor' s' ∨
        e = .overrun ∧ NextIsProfession stores junk cursor' s') := by
  induction turns generalizing cursor s with
  | zero => exact absurd (hturns (Except.error.inj h).symm) (Nat.not_lt_zero _)
  | succ turns ih =>
    obtain ⟨heof, h | ⟨cursor₁, s₁, hturn, h⟩⟩ := ChatLinks.loop_error.mp h
    · exact ⟨cursor, s, .here _ _, (turn_error he heof).mp h⟩
    · obtain ⟨hsteady₁, hless⟩ := hsteady.turn heof hturn
      obtain ⟨cursor', s', hreaches, hwrong⟩ :=
        ih hsteady₁ (fun hendless => by have := hturns hendless; omega) h
      exact ⟨cursor', s', .turn heof hturn hreaches, hwrong⟩

/-! ## 7. Messages -/

/-- Where the validation of a message starts. -/
def start : Cursor := ⟨0, 0, none⟩

theorem steady_start (message : Text) : Steady start (TextStream.on message) := fun _ => Or.inl rfl

/-- **The validation of a message is total and bounded**: its loop has an end, no name is copied
with more characters than there are in the buffer, and lines and what is left of captions fit
into the buffer. -/
structure TotalAndBounded (stores : Stores) (junk : UInt8) (message : Text) : Prop where
  ends : ∃ turns, loop stores junk turns start (TextStream.on message) ≠ .error .endless
  copies : ∀ turns, loop stores junk turns start (TextStream.on message) ≠ .error .overrun
  lines : ∀ {delimiter : UInt8} {line : Text} {s s' : TextStream},
    getline (ε := Fault) 256 delimiter s = .ok (line, s') → line.length < 256
  captions : ∀ {names : Localized} {buffer text : Text},
    removeProfession names buffer = .ok text → text.length ≤ buffer.length

/-- The end of the validation is reached after a turn for each character, if there is one. -/
theorem endless_of_turns {message : Text} {turns : ℕ} (hturns : message.length < turns)
    (h : loop stores junk turns start (TextStream.on message) = .error .endless) :
    ∀ turns, loop stores junk turns start (TextStream.on message) = .error .endless := by
  obtain ⟨cursor, s, hreaches, ⟨-, hcut⟩ | ⟨hfault, -⟩⟩ :=
    (steady_start message).loop_error endless_ne (fun _ => hturns) h
  · exact hreaches.endless hcut
  · cases hfault

end HungerGames.ChatLinks
