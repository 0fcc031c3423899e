/-
# How messages are read

What each part of the validation leaves of the stream when it succeeds: `readNumber_ok` for a
number, `initializeLink_reads` for the data of a link, `loop_reads` for the rest of a message.
From these an accepted message has a reading (`isValidMessage_reads`).
-/
import HungerGames.ChatLinks.Grammar

namespace HungerGames.ChatLinks

open HungerGames.System HungerGames.System.Reader HungerGames.System.TextStream

variable {stores : Stores} {s s' : TextStream}

/-! ## 1. Numbers and delimiters -/

/-- The text is in front of a good stream, and is taken from it. -/
def Consumes (text : Text) (s s' : TextStream) : Prop := ∃ xs, s = on (text ++ xs) ∧ s' = on xs

variable {s₁ : TextStream}

theorem Consumes.trans {text text' : Text} (h : Consumes text s s₁) (h' : Consumes text' s₁ s') :
    Consumes (text ++ text') s s' := by
  obtain ⟨xs, rfl, rfl⟩ := h
  obtain ⟨ys, hs, rfl⟩ := h'
  obtain rfl : xs = text' ++ ys := congrArg TextStream.rest hs
  exact ⟨ys, by rw [List.append_assoc], rfl⟩

theorem isEof_ok {eof : Bool} :
    isEof (ε := Fault) s = .ok (eof, s') ↔ eof = s.eofbit ∧ s' = s := by
  unfold isEof
  rw [Except.ok.injEq, Prod.mk.injEq]
  exact and_congr eq_comm eq_comm

theorem left_ok {n : ℕ} : left s = .ok (n, s') ↔ n = s.rest.length ∧ s' = s := by
  unfold left
  rw [Except.ok.injEq, Prod.mk.injEq]
  exact and_congr eq_comm eq_comm

/-- What is left after a number is not the end. -/
theorem consumes_of_extract {α : Type} {base : ℕ} {convert : Numeral → Option α} {v : α}
    (h : extract (ε := Fault) base convert s = .ok (some v, s')) (heof : s'.eofbit = false) :
    ∃ n, n.Valid base ∧ Consumes n.bytes s s' ∧ convert n = some v := by
  obtain ⟨n, ys, hs, rfl, hvalid, hv⟩ := extract_some h
  cases ys with
  | nil => cases heof
  | cons c xs => exact ⟨n, hvalid, ⟨c :: xs, hs, rfl⟩, hv⟩

theorem readNumber_ok {α : Type} {base : ℕ} {convert : Numeral → Option α} {v : α}
    (h : readNumber base convert s = .ok (v, s')) :
    ∃ n, n.Valid base ∧ Consumes n.bytes s s' ∧ convert n = some v := by
  simp only [readNumber, bind_ok, isEof_ok, require_ok, the_ok] at h
  obtain ⟨res, s₁, hres, eof, s₂, ⟨rfl, rfl⟩, u, s₃, ⟨hnot, rfl⟩, rfl, rfl⟩ := h
  exact consumes_of_extract hres hnot

/-- The positions tell how long the number is. -/
theorem readHex_ok {length v : ℕ} (h : readHex length s = .ok (v, s')) :
    ∃ n : Numeral, n.Valid 16 ∧ Consumes n.bytes s s' ∧ n.toUInt32 16 = some v ∧
      (length = 0 ∨ n.bytes.length = length) := by
  simp only [readHex, bind_ok, left_ok, isEof_ok, require_ok, the_ok] at h
  obtain ⟨pos, s₁, ⟨rfl, rfl⟩, res, s₂, hres, pos', s₃, ⟨rfl, rfl⟩, u, s₄, ⟨hlength, rfl⟩, eof, s₅,
    ⟨rfl, rfl⟩, u', s₆, ⟨hnot, rfl⟩, rfl, rfl⟩ := h
  obtain ⟨n, hvalid, hconsumes, hv⟩ := consumes_of_extract hres hnot
  refine ⟨n, hvalid, hconsumes, hv, hlength.imp_right fun heq => ?_⟩
  obtain ⟨xs, rfl, rfl⟩ := hconsumes
  rw [← heq]
  simp [on]

theorem getChar_ok {c : UInt8} (h : getChar (ε := Fault) s = .ok (some c, s')) :
    Consumes [c] s s' := getChar_some h

theorem checkDelimiter_ok {d : UInt8} {u : Unit} (h : checkDelimiter d s = .ok (u, s')) :
    Consumes [d] s s' := by
  simp only [checkDelimiter, bind_ok, require_ok, pure_ok] at h
  obtain ⟨c, s₁, hpeek, u', s₂, ⟨rfl, rfl⟩, c', s₃, hget, heq⟩ := h
  obtain ⟨xs, rfl, rfl⟩ := peek_some hpeek
  obtain ⟨-, rfl⟩ := Prod.mk.inj (Except.ok.inj hget)
  exact ⟨xs, rfl, (Prod.mk.inj heq).2⟩

theorem readSkip_ok {term : UInt8} {text : Text} (h : readSkip term s = .ok (text, s')) :
    Consumes text s s' ∧ term ∉ text := by
  unfold readSkip at h
  by_cases hgood : s.good = true
  · rw [if_pos hgood] at h
    have hs := good_iff.mp hgood
    have hsplit := List.takeWhile_append_dropWhile
      (p := fun c => decide (c ≠ term) && decide (c ≠ 0)) (l := s.rest)
    cases hdrop : s.rest.dropWhile fun c => decide (c ≠ term) && decide (c ≠ 0) with
    | nil =>
      rw [hdrop] at h
      cases h
    | cons c xs =>
      rw [hdrop] at h hsplit
      obtain ⟨htext, hs'⟩ := Prod.mk.inj (Except.ok.inj h)
      rw [htext] at hsplit
      refine ⟨⟨c :: xs, hsplit ▸ hs, hs'.symm.trans ?_⟩, fun hmem => ?_⟩
      · rw [hs]
        rfl
      · have hmore := List.mem_takeWhile_imp (htext ▸ hmem)
        simp at hmore
  · rw [if_neg hgood] at h
    cases h

/-! ## 2. The data of a link -/

/-- A field is read, a numeral of its kind. -/
def FieldRead (kind : FieldKind) (v : ℤ) (s s' : TextStream) : Prop :=
  ∃ n, n.Valid kind.base ∧ kind.value n = some v ∧ Consumes n.bytes s s'

theorem readUInt32_id {v : ℕ} (h : readUInt32 s = .ok (v, s')) : FieldRead .id v s s' := by
  obtain ⟨n, hvalid, hconsumes, hv⟩ := readNumber_ok h
  exact ⟨n, hvalid, congrArg (Option.map Nat.cast) hv, hconsumes⟩

theorem readUInt32_unsigned {v : ℕ} (h : readUInt32 s = .ok (v, s')) :
    FieldRead .unsigned v s s' := by
  obtain ⟨n, hvalid, hconsumes, hv⟩ := readNumber_ok h
  exact ⟨n, hvalid, congrArg (Option.map Nat.cast) hv, hconsumes⟩

theorem readInt32_signed {v : ℤ} (h : readInt32 s = .ok (v, s')) : FieldRead .signed v s s' := by
  obtain ⟨n, hvalid, hconsumes, hv⟩ := readNumber_ok h
  exact ⟨n, hvalid, hv, hconsumes⟩

theorem readHex_hex {v : ℕ} (h : readHex 0 s = .ok (v, s')) : FieldRead .hex v s s' := by
  obtain ⟨n, hvalid, hconsumes, hv, -⟩ := readHex_ok h
  exact ⟨n, hvalid, congrArg (Option.map Nat.cast) hv, hconsumes⟩

/-- Fields are read, each after a delimiter. -/
def MoreRead (kinds : List FieldKind) (vs : List ℤ) (s s' : TextStream) : Prop :=
  ∃ ns, Fields kinds ns vs ∧ (ns = [] ∧ s' = s ∨ Consumes (delimited ns) s s')

theorem MoreRead.nil (s : TextStream) : MoreRead [] [] s s := ⟨[], .nil, Or.inl ⟨rfl, rfl⟩⟩

theorem MoreRead.cons {kind : FieldKind} {v : ℤ} {kinds : List FieldKind} {vs : List ℤ}
    {s₂ : TextStream} (hdelimiter : Consumes [DELIMITER] s s₁) (hfield : FieldRead kind v s₁ s₂)
    (hmore : MoreRead kinds vs s₂ s') : MoreRead (kind :: kinds) (v :: vs) s s' := by
  obtain ⟨n, hvalid, hv, hconsumes⟩ := hfield
  obtain ⟨ns, hfields, hrest⟩ := hmore
  refine ⟨n :: ns, .cons hvalid hv hfields, Or.inr ?_⟩
  have hfirst := hdelimiter.trans hconsumes
  rcases hrest with ⟨rfl, rfl⟩ | hrest
  · rw [delimited, List.flatMap_singleton]
    exact hfirst
  · exact hfirst.trans hrest

/-- **The data of a link are read**: the fields, and a tail after those of a trade skill. -/
def DataRead (type : LinkType) (vs : List ℤ) (s s' : TextStream) : Prop :=
  ∃ ns tail, Fields type.fields ns vs ∧ (tail = [] ∨ type = .trade ∧ PIPE_CHAR ∉ tail) ∧
    Consumes (joined ns ++ tail) s s'

theorem DataRead.of_fields {type : LinkType} {kind : FieldKind} {v : ℤ} {kinds : List FieldKind}
    {vs : List ℤ} (htype : type.fields = kind :: kinds) (hfield : FieldRead kind v s s₁)
    (hmore : MoreRead kinds vs s₁ s') : DataRead type (v :: vs) s s' := by
  obtain ⟨n, hvalid, hv, hconsumes⟩ := hfield
  obtain ⟨ns, hfields, hrest⟩ := hmore
  refine ⟨n :: ns, [], htype ▸ .cons hvalid hv hfields, Or.inl rfl, ?_⟩
  rw [List.append_nil, joined]
  rcases hrest with ⟨rfl, rfl⟩ | hrest
  · rw [delimited, List.flatMap_nil, List.append_nil]
    exact hconsumes
  · exact hconsumes.trans hrest

/-- After the fields of a trade skill, what comes before the pipe is left out. -/
theorem DataRead.tail {vs : List ℤ} {text : Text} (h : DataRead .trade vs s s₁)
    (htext : Consumes text s₁ s') (hnot : PIPE_CHAR ∉ text) : DataRead .trade vs s s' := by
  obtain ⟨ns, tail, hfields, htail, hconsumes⟩ := h
  refine ⟨ns, tail ++ text, hfields, Or.inr ⟨rfl, fun hmem => ?_⟩, ?_⟩
  · rcases List.mem_append.mp hmem with hmem | hmem
    · rcases htail with rfl | ⟨-, htail⟩
      · cases hmem
      · exact htail hmem
    · exact hnot hmem
  · rw [← List.append_assoc]
    exact hconsumes.trans htext

/-- What the link is, its colour and its data having been read. -/
def LinkRead (stores : Stores) (type : LinkType) (color : ℕ) (link : ChatLink)
    (s s' : TextStream) : Prop :=
  ∃ vs, DataRead type vs s s' ∧ object stores type vs = some link ∧
    ∀ c ∈ checkedColor type link, color = c

theorem the_toNat {α : Type} {f : ℕ → Option α} {v : ℕ} {a : α} (h : f v = some a) :
    f (v : ℤ).toNat = some a := by
  rw [Int.toNat_natCast]
  exact h

/-- The suffix after some of the properties. -/
def suffixAfter (stores : Stores) : ℕ → Option Localized → List ℤ → Option (Option Localized)
  | _, suffix, [] => some suffix
  | index, suffix, v :: vs =>
    (if v ≠ 0 ∧ index = 5 then randomSuffix stores v else some suffix).bind fun suffix =>
      suffixAfter stores (index + 1) suffix vs

theorem readProperty_read {index : ℕ} {suffix suffix' : Option Localized}
    (h : readProperty stores index suffix s = .ok (suffix', s')) :
    ∃ v s₁, Consumes [DELIMITER] s s₁ ∧ FieldRead .signed v s₁ s' ∧
      (if v ≠ 0 ∧ index = 5 then randomSuffix stores v else some suffix) = some suffix' := by
  obtain ⟨u, s₁, hdelimiter, h⟩ := bind_ok.mp h
  obtain ⟨v, s₂, hv, h⟩ := bind_ok.mp h
  have hfield := readInt32_signed hv
  refine ⟨v, s₁, checkDelimiter_ok hdelimiter, ?_⟩
  by_cases hrandom : v ≠ 0 ∧ index = 5
  · rw [if_pos hrandom] at h ⊢
    unfold randomSuffix
    by_cases hpos : 0 < v
    · rw [if_pos hpos] at h ⊢
      rw [map_eq_pure_bind] at h
      simp only [bind_ok, the_ok, pure_ok] at h
      obtain ⟨names, s₃, ⟨hnames, rfl⟩, heq⟩ := h
      obtain ⟨rfl, rfl⟩ := Prod.mk.inj heq
      rw [hnames]
      exact ⟨hfield, rfl⟩
    · rw [if_neg hpos] at h ⊢
      rw [if_pos (by omega)]
      rw [map_eq_pure_bind] at h
      simp only [bind_ok, the_ok, pure_ok] at h
      obtain ⟨names, s₃, ⟨hnames, rfl⟩, heq⟩ := h
      obtain ⟨rfl, rfl⟩ := Prod.mk.inj heq
      rw [hnames]
      exact ⟨hfield, rfl⟩
  · rw [if_neg hrandom] at h ⊢
    obtain ⟨rfl, rfl⟩ := Prod.mk.inj (pure_ok.mp h)
    exact ⟨hfield, rfl⟩

theorem readProperties_read : ∀ {count index : ℕ} {suffix suffix' : Option Localized}
    {s : TextStream}, readProperties stores count index suffix s = .ok (suffix', s') →
    ∃ vs, MoreRead (List.replicate count .signed) vs s s' ∧ vs.length = count ∧
      suffixAfter stores index suffix vs = some suffix'
  | 0, _, _, _, s, h => by
    obtain ⟨rfl, rfl⟩ := Prod.mk.inj (pure_ok.mp h)
    exact ⟨[], MoreRead.nil _, rfl, rfl⟩
  | count + 1, index, suffix, suffix', s, h => by
    rw [readProperties] at h
    obtain ⟨suffix₁, s₁, hproperty, h⟩ := bind_ok.mp h
    obtain ⟨v, s₂, hdelimiter, hfield, hsuffix⟩ := readProperty_read hproperty
    obtain ⟨vs, hmore, hlength, hafter⟩ := readProperties_read h
    refine ⟨v :: vs, hmore.cons hdelimiter hfield, congrArg (· + 1) hlength, ?_⟩
    rw [suffixAfter, hsuffix]
    exact hafter

/-- Of eight properties the sixth counts. -/
theorem suffixAfter_eight : ∀ {vs : List ℤ}, vs.length = 8 →
    suffixAfter stores 0 none vs = (vs[5]?).bind (randomSuffix stores)
  | [a, b, c, d, e, f, g, h], _ => by
    by_cases hf : f = 0
    · simp [suffixAfter, randomSuffix, hf]
    · simp [suffixAfter, hf]

variable {color : ℕ}

theorem initializeItem_read {link : ChatLink} (h : initializeItem stores color s = .ok (link, s')) :
    LinkRead stores .item color link s s' := by
  simp only [initializeItem, bind_ok, the_ok, require_ok, pure_ok] at h
  obtain ⟨id, s₁, hid, item, s₂, ⟨hitem, rfl⟩, u, s₃, ⟨hcolor, rfl⟩, suffix, s₄, hsuffix, heq⟩ := h
  obtain ⟨rfl, rfl⟩ := Prod.mk.inj heq
  obtain ⟨vs, hmore, hlength, hafter⟩ := readProperties_read hsuffix
  rw [suffixAfter_eight hlength] at hafter
  refine ⟨id :: vs, .of_fields rfl (readUInt32_id hid) hmore, ?_, fun c hc => ?_⟩
  · obtain ⟨v, hv, hrandom⟩ := Option.bind_eq_some_iff.mp hafter
    rw [object, the_toNat hitem, Option.bind_some, hv, Option.bind_some, hrandom]
    rfl
  · exact hcolor.trans (Option.some.inj hc)

theorem initializeQuest_read {link : ChatLink} (h : initializeQuest stores s = .ok (link, s')) :
    LinkRead stores .quest color link s s' := by
  simp only [initializeQuest, bind_ok, the_ok, require_ok, pure_ok] at h
  obtain ⟨id, s₁, hid, quest, s₂, ⟨hquest, rfl⟩, u, s₃, hdelimiter, level, s₄, hlevel, u', s₅,
    ⟨hless, rfl⟩, heq⟩ := h
  obtain ⟨rfl, rfl⟩ := Prod.mk.inj heq
  refine ⟨[id, level], .of_fields rfl (readUInt32_id hid) (.cons (checkDelimiter_ok hdelimiter)
    (readInt32_signed hlevel) (.nil _)), ?_, nofun⟩
  rw [object, if_pos hless, the_toNat hquest]
  rfl

theorem initializeSpell_read {link : ChatLink}
    (h : initializeSpell stores color s = .ok (link, s')) :
    LinkRead stores .spell color link s s' := by
  simp only [initializeSpell, bind_ok, the_ok, require_ok, pure_ok] at h
  obtain ⟨u, s₁, ⟨hcolor, rfl⟩, id, s₂, hid, spell, s₃, ⟨hspell, rfl⟩, heq⟩ := h
  obtain ⟨rfl, rfl⟩ := Prod.mk.inj heq
  refine ⟨[id], .of_fields rfl (readUInt32_id hid) (.nil _), ?_,
    fun c hc => hcolor.trans (Option.some.inj hc)⟩
  rw [object, the_toNat hspell]
  rfl

theorem skipProgress_read : ∀ {count : ℕ} {u : Unit} {s : TextStream},
    skipProgress count s = .ok (u, s') →
    ∃ vs, MoreRead (List.replicate count .unsigned) vs s s'
  | 0, _, s, h => by
    obtain ⟨-, rfl⟩ := Prod.mk.inj (pure_ok.mp h)
    exact ⟨[], MoreRead.nil _⟩
  | count + 1, _, s, h => by
    simp only [skipProgress, bind_ok] at h
    obtain ⟨u, s₁, hdelimiter, v, s₂, hv, h⟩ := h
    obtain ⟨vs, hmore⟩ := skipProgress_read h
    exact ⟨v :: vs, hmore.cons (checkDelimiter_ok hdelimiter) (readUInt32_unsigned hv)⟩

theorem initializeAchievement_read {link : ChatLink}
    (h : initializeAchievement stores color s = .ok (link, s')) :
    LinkRead stores .achievement color link s s' := by
  simp only [initializeAchievement, bind_ok, the_ok, require_ok, pure_ok] at h
  obtain ⟨u, s₁, ⟨hcolor, rfl⟩, id, s₂, hid, achievement, s₃, ⟨hachievement, rfl⟩, u', s₄,
    hdelimiter, guid, s₅, hguid, u'', s₆, hprogress, heq⟩ := h
  obtain ⟨rfl, rfl⟩ := Prod.mk.inj heq
  obtain ⟨vs, hmore⟩ := skipProgress_read hprogress
  refine ⟨id :: guid :: vs, .of_fields rfl (readUInt32_id hid)
    (.cons (checkDelimiter_ok hdelimiter) (readHex_hex hguid) hmore), ?_,
    fun c hc => hcolor.trans (Option.some.inj hc)⟩
  rw [object, the_toNat hachievement]
  rfl

theorem initializeTrade_read {link : ChatLink}
    (h : initializeTrade stores color s = .ok (link, s')) :
    LinkRead stores .trade color link s s' := by
  simp only [initializeTrade, bind_ok, the_ok, require_ok, pure_ok] at h
  obtain ⟨u, s₁, ⟨hcolor, rfl⟩, id, s₂, hid, spell, s₃, ⟨hspell, rfl⟩, u₁, s₄, hdelimiter₁, lo, s₅,
    hlo, u₂, s₆, hdelimiter₂, hi, s₇, hhi, u₃, s₈, hdelimiter₃, guid, s₉, hguid, text, s₁₀, hskip,
    heq⟩ := h
  obtain ⟨rfl, rfl⟩ := Prod.mk.inj heq
  obtain ⟨hskip, hnot⟩ := readSkip_ok hskip
  have hdata : DataRead .trade [id, lo, hi, guid] s₁ s₉ := .of_fields rfl (readUInt32_id hid)
    (.cons (checkDelimiter_ok hdelimiter₁) (readInt32_signed hlo)
      (.cons (checkDelimiter_ok hdelimiter₂) (readInt32_signed hhi)
        (.cons (checkDelimiter_ok hdelimiter₃) (readHex_hex hguid) (.nil _))))
  refine ⟨[id, lo, hi, guid], hdata.tail hskip hnot, ?_,
    fun c hc => hcolor.trans (Option.some.inj hc)⟩
  rw [object, the_toNat hspell]
  rfl

theorem initializeTalent_read {link : ChatLink} (h : initializeTalent stores s = .ok (link, s')) :
    LinkRead stores .talent color link s s' := by
  simp only [initializeTalent, bind_ok, the_ok, pure_ok] at h
  obtain ⟨id, s₁, hid, spellId, s₂, ⟨htalent, rfl⟩, spell, s₃, ⟨hspell, rfl⟩, u, s₄, hdelimiter,
    rank, s₅, hrank, heq⟩ := h
  obtain ⟨rfl, rfl⟩ := Prod.mk.inj heq
  refine ⟨[id, rank], .of_fields rfl (readUInt32_id hid) (.cons (checkDelimiter_ok hdelimiter)
    (readInt32_signed hrank) (.nil _)), ?_, nofun⟩
  rw [object, the_toNat htalent, Option.bind_some, hspell]
  rfl

theorem initializeEnchantment_read {link : ChatLink}
    (h : initializeEnchantment stores color s = .ok (link, s')) :
    LinkRead stores .enchant color link s s' := by
  simp only [initializeEnchantment, bind_ok, the_ok, require_ok, pure_ok] at h
  obtain ⟨u, s₁, ⟨hcolor, rfl⟩, id, s₂, hid, spell, s₃, ⟨hspell, rfl⟩, heq⟩ := h
  obtain ⟨rfl, rfl⟩ := Prod.mk.inj heq
  refine ⟨[id], .of_fields rfl (readUInt32_id hid) (.nil _), ?_,
    fun c hc => hcolor.trans (Option.some.inj hc)⟩
  rw [object, the_toNat hspell]
  rfl

theorem initializeGlyph_read {link : ChatLink}
    (h : initializeGlyph stores color s = .ok (link, s')) :
    LinkRead stores .glyph color link s s' := by
  simp only [initializeGlyph, bind_ok, the_ok, require_ok, pure_ok] at h
  obtain ⟨u, s₁, ⟨hcolor, rfl⟩, slot, s₂, hslot, u', s₃, hdelimiter, id, s₄, hid, spellId, s₅,
    ⟨hglyph, rfl⟩, spell, s₆, ⟨hspell, rfl⟩, heq⟩ := h
  obtain ⟨rfl, rfl⟩ := Prod.mk.inj heq
  refine ⟨[slot, id], .of_fields rfl (readUInt32_unsigned hslot)
    (.cons (checkDelimiter_ok hdelimiter) (readUInt32_id hid) (.nil _)), ?_,
    fun c hc => hcolor.trans (Option.some.inj hc)⟩
  rw [object, the_toNat hglyph, Option.bind_some, hspell]
  rfl

/-- **A link's object and data are read** by the function of its type. -/
theorem initializeLink_read {link : ChatLink} {type : LinkType}
    (h : type.initializeLink stores color s = .ok (link, s')) :
    LinkRead stores type color link s s' := by
  cases type with
  | item => exact initializeItem_read h
  | quest => exact initializeQuest_read h
  | trade => exact initializeTrade_read h
  | talent => exact initializeTalent_read h
  | spell => exact initializeSpell_read h
  | enchant => exact initializeEnchantment_read h
  | achievement => exact initializeAchievement_read h
  | glyph => exact initializeGlyph_read h

/-! ## 3. Commands -/

/-- A command is read after white space; or nothing else is there, and it is what the variable
holds. -/
def CommandRead (junk : UInt8) (c : UInt8) (s s' : TextStream) : Prop :=
  ∃ gap, IsBlank gap ∧ (Consumes (gap ++ [c]) s s' ∨
    gap ≠ [] ∧ c = junk ∧ s = on gap ∧ s' = ⟨[], true, true⟩)

variable {junk : UInt8}

/-- What comes after a pipe. -/
theorem readAfterPipe_on {xs : Text} {command : Option UInt8}
    (h : readAfterPipe junk (on xs) = .ok (command, s')) :
    command = none ∧ xs = [] ∨ ∃ c, command = some c ∧ CommandRead junk c (on xs) s' := by
  simp only [readAfterPipe, bind_ok, isEof_ok, require_ok] at h
  obtain ⟨next, s₁, hpeek, u, s₂, ⟨-, rfl⟩, eof, s₃, ⟨rfl, rfl⟩, h⟩ := h
  obtain ⟨-, rfl⟩ := peek_on hpeek
  cases xs with
  | nil => exact Or.inl ⟨(Prod.mk.inj (pure_ok.mp h)).1, rfl⟩
  | cons x xs =>
    change (readChar >>= fun commandChar => pure (some (commandChar.getD junk)) :
      Reader Fault (Option UInt8)) (on (x :: xs)) = _ at h
    simp only [bind_ok, pure_ok] at h
    obtain ⟨commandChar, s₄, hread, heq⟩ := h
    obtain ⟨rfl, rfl⟩ := Prod.mk.inj heq
    obtain ⟨gap, hblank, hcases⟩ := readChar_on hread
    refine Or.inr ⟨_, rfl, gap, hblank, ?_⟩
    rcases hcases with ⟨c, ys, hxs, rfl, rfl, -⟩ | ⟨hxs, rfl, rfl⟩
    · refine Or.inl ⟨ys, ?_, rfl⟩
      rw [hxs, List.append_assoc]
      rfl
    · exact Or.inr ⟨hxs ▸ List.cons_ne_nil x xs, rfl, congrArg on hxs, rfl⟩

/-- There is nothing after the end. -/
theorem readAfterPipe_end {command : Option UInt8} (heof : s.eofbit = true)
    (h : readAfterPipe junk s = .ok (command, s')) : command = none := by
  simp only [readAfterPipe, bind_ok, isEof_ok, require_ok] at h
  obtain ⟨next, s₁, hpeek, u, s₂, ⟨-, rfl⟩, eof, s₃, ⟨rfl, rfl⟩, h⟩ := h
  have hnot : ¬ s.good = true := by
    unfold good
    rw [heof]
    exact Bool.false_ne_true
  unfold peek at hpeek
  rw [if_neg hnot] at hpeek
  obtain ⟨-, rfl⟩ := Prod.mk.inj (Except.ok.inj hpeek)
  rw [if_pos (show s.fail.eofbit = true from heof)] at h
  exact (Prod.mk.inj (pure_ok.mp h)).1

/-- In a link a pipe comes next. -/
theorem skipToPipe_link {place : ℕ} {u : Unit} (hplace : place ≠ 0)
    (h : skipToPipe place s = .ok (u, s')) : Consumes (ascii "|") s s' := by
  unfold skipToPipe at h
  rw [if_neg hplace] at h
  simp only [bind_ok, require_ok] at h
  obtain ⟨c, s₁, hget, rfl, rfl⟩ := h
  exact getChar_ok hget

/-- Outside of a link there is a text before the pipe, and after 255 characters no pipe. -/
theorem skipToPipe_text {xs : Text} {u : Unit} (h : skipToPipe 0 (on xs) = .ok (u, s')) :
    ∃ text pipe, PIPE_CHAR ∉ text ∧ (Consumes (text ++ pipeBytes pipe) (on xs) s' ∧
      (pipe = false → text.length = 255) ∨ pipe = false ∧ xs = text ∧ s'.eofbit = true) := by
  unfold skipToPipe ignore at h
  rw [if_pos rfl, if_pos (good_on xs)] at h
  obtain ⟨-, rfl⟩ := Prod.mk.inj (Except.ok.inj h)
  obtain ⟨text, hnot, hcases⟩ := ignoreIn_spec PIPE_CHAR 255 xs
  rcases hcases with ⟨heq, hend⟩ | ⟨heq, hlength, hend⟩
  · refine ⟨text, true, hnot, Or.inl ⟨⟨(ignoreIn PIPE_CHAR 255 xs).1, ?_, ?_⟩, nofun⟩⟩
    · rw [List.append_assoc]
      exact congrArg on heq
    · change TextStream.mk _ (ignoreIn PIPE_CHAR 255 xs).2 false = _
      rw [hend]
      rfl
  · refine ⟨text, false, hnot, ?_⟩
    cases heof : (ignoreIn PIPE_CHAR 255 xs).2 with
    | false =>
      refine Or.inl ⟨⟨(ignoreIn PIPE_CHAR 255 xs).1, ?_, ?_⟩, fun _ => hlength heof⟩
      · rw [pipeBytes, if_neg Bool.false_ne_true, List.append_nil]
        exact congrArg on heq
      · change TextStream.mk _ (ignoreIn PIPE_CHAR 255 xs).2 false = _
        rw [heof]
        rfl
    | true =>
      refine Or.inr ⟨rfl, ?_, heof⟩
      rw [hend heof, List.append_nil] at heq
      exact heq

theorem validateName_ok {link : ChatLink} {buffer : Text} {u : Unit}
    (h : validateName stores link buffer s = .ok (u, s')) : s' = s := by
  cases link with
  | item item suffix => exact (require_ok.mp h).2
  | quest quest => exact (require_ok.mp h).2
  | achievement names => exact (require_ok.mp h).2
  | spell spell =>
    simp only [validateName, bind_ok, require_ok] at h
    obtain ⟨caption, s₁, hcaption, -, rfl⟩ := h
    cases hspell : spellCaption stores spell buffer with
    | error e =>
      rw [hspell] at hcaption
      cases hcaption
    | ok text =>
      rw [hspell] at hcaption
      exact (Prod.mk.inj (Except.ok.inj hcaption)).2.symm

/-! ## 4. Links -/

/-- The rest of the message is accepted. -/
def Accepts (stores : Stores) (junk : UInt8) (turns : ℕ) (cursor : Cursor) (s : TextStream) :
    Prop :=
  ∃ s', loop stores junk turns cursor s = .ok (true, s')

/-- The command is in sequence, and the message is accepted from there. -/
structure Follows (stores : Stores) (junk : UInt8) (turns : ℕ) (cursor : Cursor) (c : UInt8)
    (s : TextStream) : Prop where
  sequence : c ≠ PIPE_CHAR ∧ validSequence[cursor.place]? = some c ∨
    c = PIPE_CHAR ∧ cursor.place = 0
  payload : ∃ next s', readPayload stores
    (if cursor.place = 0 then { cursor with link := none } else cursor)
      (nextPlace cursor.place c) c s = .ok (next, s') ∧ Accepts stores junk turns next s'

/-- The command has been checked before its payload is read. -/
theorem checkSequence_ok {place : ℕ} {c : UInt8} {u : Unit}
    (h : checkSequence place c s = .ok (u, s')) :
    (c ≠ PIPE_CHAR ∧ validSequence[place]? = some c ∨ c = PIPE_CHAR ∧ place = 0) ∧ s' = s := by
  unfold checkSequence at h
  by_cases hc : c ≠ PIPE_CHAR
  · rw [if_pos hc] at h
    obtain ⟨hnext, hs⟩ := require_ok.mp h
    exact ⟨Or.inl ⟨hc, hnext⟩, hs⟩
  · rw [if_neg hc] at h
    obtain ⟨hplace, hs⟩ := require_ok.mp h
    exact ⟨Or.inr ⟨not_not.mp hc, hplace⟩, hs⟩

variable {cursor : Cursor} {turns : ℕ}

/-- **An accepted message** ends outside of a link, or a command follows. -/
theorem Accepts.cases (h : Accepts stores junk turns cursor s) :
    s.eofbit = true ∧ cursor.place = 0 ∨ s.eofbit = false ∧ ∃ rest s₁ command s₂,
      turns = rest + 1 ∧ skipToPipe cursor.place s = .ok ((), s₁) ∧
        readAfterPipe junk s₁ = .ok (command, s₂) ∧
          (command = none ∧ cursor.place = 0 ∨
            ∃ c, command = some c ∧ Follows stores junk rest cursor c s₂) := by
  obtain ⟨s', h⟩ := h
  cases turns with
  | zero => cases h
  | succ rest =>
    rw [loop] at h
    simp only [bind_ok, isEof_ok] at h
    obtain ⟨eof, s₁, ⟨rfl, rfl⟩, h⟩ := h
    by_cases heof : s₁.eofbit = true
    · rw [if_pos heof] at h
      have hplace := (Prod.mk.inj (pure_ok.mp h)).1
      exact Or.inl ⟨heof, of_decide_eq_true hplace.symm⟩
    · rw [if_neg heof] at h
      simp only [turn, bind_ok] at h
      obtain ⟨next, s₂, ⟨u, s₃, hskip, command, s₄, hread, hturn⟩, h⟩ := h
      refine Or.inr ⟨Bool.eq_false_iff.mpr heof, rest, s₃, command, s₄, rfl, hskip, hread, ?_⟩
      cases command with
      | none =>
        obtain ⟨rfl, rfl⟩ := Prod.mk.inj (pure_ok.mp hturn)
        have hplace := (Prod.mk.inj (pure_ok.mp h)).1
        exact Or.inl ⟨rfl, of_decide_eq_true hplace.symm⟩
      | some c =>
        simp only [bind_ok, pure_ok] at hturn
        obtain ⟨u', s₅, hcheck, cursor', s₆, hpayload, heq⟩ := hturn
        obtain ⟨hsequence, rfl⟩ := checkSequence_ok hcheck
        obtain ⟨rfl, rfl⟩ := Prod.mk.inj heq
        exact Or.inr ⟨c, rfl, hsequence, cursor', s₂, hpayload, s', h⟩

/-- In a link a pipe and a command follow. -/
theorem Accepts.command {c : UInt8} (h : Accepts stores junk turns cursor s)
    (hplace : cursor.place ≠ 0) (hc : validSequence[cursor.place]? = some c) :
    ∃ rest s₁ s₂ next s₃, turns = rest + 1 ∧ Consumes (ascii "|") s s₁ ∧
      CommandRead junk c s₁ s₂ ∧
        readPayload stores cursor (nextPlace cursor.place c) c s₂ = .ok (next, s₃) ∧
          Accepts stores junk rest next s₃ := by
  rcases h.cases with ⟨-, hzero⟩ | ⟨-, rest, s₁, command, s₂, rfl, hskip, hread, hcases⟩
  · exact absurd hzero hplace
  · have hpipe := skipToPipe_link hplace hskip
    obtain ⟨xs, hs, rfl⟩ := hpipe
    rcases hcases with ⟨-, hzero⟩ | ⟨c', rfl, hsequence, next, s₃, hpayload, haccepts⟩
    · exact absurd hzero hplace
    · rcases hsequence with ⟨-, hnext⟩ | ⟨-, hzero⟩
      · obtain rfl : c = c' := Option.some.inj (hc.symm.trans hnext)
        rw [if_neg hplace] at hpayload
        rcases readAfterPipe_on hread with ⟨hnone, -⟩ | ⟨c', heq, hcommand⟩
        · cases hnone
        · obtain rfl := Option.some.inj heq
          exact ⟨rest, on xs, s₂, next, s₃, rfl, ⟨xs, hs, rfl⟩, hcommand, hpayload, haccepts⟩
      · exact absurd hzero hplace

/-- Nothing is read after the end. -/
theorem not_consumes_end {text : Text} {s : TextStream} (heof : s.eofbit = true) :
    ¬ Consumes text s s' := by
  rintro ⟨xs, rfl, -⟩
  cases heof

theorem Accepts.not_end (h : Accepts stores junk turns cursor s) (hplace : cursor.place ≠ 0) :
    s.eofbit = false := by
  rcases h.cases with ⟨-, hzero⟩ | ⟨heof, -⟩
  · exact absurd hzero hplace
  · exact heof

/-- The last command of a link. -/
theorem Accepts.closing {link : Option ChatLink}
    (h : Accepts stores junk turns ⟨4, color, link⟩ s) :
    ∃ gapR, IsBlank gapR ∧ ((∃ rest s', rest < turns ∧
      Consumes (ascii "|" ++ gapR ++ ascii "r") s s' ∧
        Accepts stores junk rest ⟨0, color, link⟩ s') ∨
        gapR ≠ [] ∧ junk = 114 ∧ s = on (ascii "|" ++ gapR)) := by
  obtain ⟨rest, s₁, s₂, next, s₃, rfl, hpipe, ⟨gap, hblank, hcases⟩, hpayload, haccepts⟩ :=
    h.command (c := 114) (Nat.succ_ne_zero 3) rfl
  obtain ⟨rfl, rfl⟩ := Prod.mk.inj (pure_ok.mp hpayload)
  refine ⟨gap, hblank, ?_⟩
  rcases hcases with hread | ⟨hne, rfl, rfl, rfl⟩
  · refine Or.inl ⟨rest, s₃, Nat.lt_succ_self rest, ?_, haccepts⟩
    have hboth := hpipe.trans hread
    rw [← List.append_assoc] at hboth
    exact hboth
  · obtain ⟨xs, hs, heq⟩ := hpipe
    obtain rfl : gap = xs := congrArg TextStream.rest heq
    exact Or.inr ⟨hne, rfl, hs⟩

/-- The command after the caption. -/
theorem Accepts.ending {link : Option ChatLink} (h : Accepts stores junk turns ⟨3, color, link⟩ s) :
    ∃ gapEnd rest s', IsBlank gapEnd ∧ rest < turns ∧
      Consumes (ascii "|" ++ gapEnd ++ ascii "h") s s' ∧
        Accepts stores junk rest ⟨4, color, link⟩ s' := by
  obtain ⟨rest, s₁, s₂, next, s₃, rfl, hpipe, ⟨gap, hblank, hcases⟩, hpayload, haccepts⟩ :=
    h.command (c := 104) (Nat.succ_ne_zero 2) rfl
  obtain ⟨rfl, rfl⟩ := Prod.mk.inj (pure_ok.mp hpayload)
  rcases hcases with hread | ⟨-, -, -, rfl⟩
  · have hboth := hpipe.trans hread
    rw [← List.append_assoc] at hboth
    exact ⟨gap, rest, s₃, hblank, Nat.lt_succ_self rest, hboth, haccepts⟩
  · cases haccepts.not_end (Nat.succ_ne_zero 3)

/-- The command before the caption, and the caption. -/
theorem Accepts.text {link : Option ChatLink} (h : Accepts stores junk turns ⟨2, color, link⟩ s) :
    ∃ gapText caption object rest s', IsBlank gapText ∧ 93 ∉ caption ∧ link = some object ∧
      (∃ s, validateName stores object caption s = .ok ((), s)) ∧ rest < turns ∧
        Consumes (ascii "|" ++ gapText ++ ascii "h[" ++ caption ++ ascii "]") s s' ∧
          Accepts stores junk rest ⟨3, color, link⟩ s' := by
  obtain ⟨rest, s₁, s₂, next, s₃, rfl, hpipe, ⟨gap, hblank, hcases⟩, hpayload, haccepts⟩ :=
    h.command (c := 104) (Nat.succ_ne_zero 1) rfl
  change (getChar >>= fun c => require .refused (c = some 91) >>= fun _ =>
    getline 256 93 >>= fun buffer => isEof >>= fun eof =>
      require .refused (eof = false) >>= fun _ => the .refused link >>= fun object => validateName stores object buffer >>= fun _ =>
        pure (⟨3, color, link⟩ : Cursor) : Reader Fault Cursor) s₂ = _ at hpayload
  simp only [bind_ok, require_ok, isEof_ok, the_ok, pure_ok] at hpayload
  obtain ⟨c, s₄, hget, u, s₅, ⟨rfl, rfl⟩, caption, s₆, hline, eof, s₇, ⟨rfl, rfl⟩, u', s₈,
    ⟨hnot, rfl⟩, object, s₉, ⟨rfl, rfl⟩, u'', s₁₀, hname, heq⟩ := hpayload
  obtain ⟨rfl, rfl⟩ := Prod.mk.inj heq
  obtain rfl := validateName_ok hname
  have hopen := getChar_ok hget
  rcases hcases with hread | ⟨-, -, -, rfl⟩
  · rcases getline_ok hline hnot with ⟨ys, rfl, rfl, hfree⟩ | hfail
    · have hcaption : Consumes (caption ++ ascii "]") (on (caption ++ 93 :: ys)) (on ys) :=
        ⟨ys, by rw [List.append_assoc]; rfl, rfl⟩
      have hall := ((hpipe.trans hread).trans hopen).trans hcaption
      refine ⟨gap, caption, object, rest, on ys, hblank, hfree, rfl, ⟨_, hname⟩,
        Nat.lt_succ_self rest, ?_, haccepts⟩
      simp only [List.append_assoc] at hall ⊢
      exact hall
    · obtain ⟨gapEnd, rest', s', -, -, ⟨xs, hs, -⟩, -⟩ := haccepts.ending
      rw [hs] at hfail
      cases hfail
  · exact absurd hopen (not_consumes_end rfl)

theorem ofName_some {buffer : Text} {type : LinkType} (h : LinkType.ofName buffer = some type) :
    buffer = type.name :=
  of_decide_eq_true (List.find?_some (p := fun t : LinkType => decide (buffer = t.name)) h)

/-- The command before the object, and the object. -/
theorem Accepts.object {link : Option ChatLink} (h : Accepts stores junk turns ⟨1, color, link⟩ s) :
    ∃ gapH type object rest s₁ s', IsBlank gapH ∧ rest < turns ∧
      Consumes (ascii "|" ++ gapH ++ ascii "H" ++ LinkType.name type ++ ascii ":") s s₁ ∧
        LinkRead stores type color object s₁ s' ∧
          Accepts stores junk rest ⟨2, color, some object⟩ s' := by
  obtain ⟨rest, s₁, s₂, next, s₃, rfl, hpipe, ⟨gap, hblank, hcases⟩, hpayload, haccepts⟩ :=
    h.command (c := 72) (Nat.succ_ne_zero 0) rfl
  change (getline 256 DELIMITER >>= fun buffer => isEof >>= fun eof =>
    require .refused (eof = false) >>= fun _ =>
      the .refused (LinkType.ofName buffer) >>= fun type => type.initializeLink stores color >>= fun object =>
        pure (⟨2, color, some object⟩ : Cursor) : Reader Fault Cursor) s₂ = _ at hpayload
  simp only [bind_ok, require_ok, isEof_ok, the_ok, pure_ok] at hpayload
  obtain ⟨buffer, s₄, hline, eof, s₅, ⟨rfl, rfl⟩, u, s₆, ⟨hnot, rfl⟩, type, s₇, ⟨htype, rfl⟩,
    object, s₈, hobject, heq⟩ := hpayload
  obtain ⟨rfl, rfl⟩ := Prod.mk.inj heq
  have hlink := initializeLink_read hobject
  rcases getline_ok hline hnot with ⟨ys, rfl, rfl, -⟩ | hfail
  · rcases hcases with hread | ⟨-, -, -, heq⟩
    · have hname : Consumes (buffer ++ ascii ":") (on (buffer ++ DELIMITER :: ys)) (on ys) :=
        ⟨ys, by rw [List.append_assoc]; rfl, rfl⟩
      have hall := (hpipe.trans hread).trans hname
      rw [ofName_some htype] at hall
      refine ⟨gap, type, object, rest, on ys, s₃, hblank, Nat.lt_succ_self rest, ?_, hlink,
        haccepts⟩
      simp only [List.append_assoc] at hall ⊢
      exact hall
    · exact absurd (congrArg TextStream.eofbit heq) Bool.false_ne_true
  · obtain ⟨vs, ⟨ns, tail, -, -, ⟨xs, hs, -⟩⟩, -⟩ := hlink
    rw [hs] at hfail
    cases hfail

/-- What comes after a link: the rest of the message, or its end. -/
def AfterLink (stores : Stores) (junk : UInt8) (turns : ℕ) (l : Link) (ys : Text) : Prop :=
  l.closed = true ∧ (∃ rest color link, rest < turns ∧
    Accepts stores junk rest ⟨0, color, link⟩ (on ys)) ∨ l.closed = false ∧ ys = []

/-- **A link is read** from its first command on. -/
theorem Follows.link {gapC : Text} (h : Follows stores junk turns cursor 99 s)
    (hplace : cursor.place = 0) (hblank : IsBlank gapC) :
    ∃ l object ys, Link.Reads stores junk l object ∧ AfterLink stores junk turns l ys ∧
      ∃ xs, s = on xs ∧ gapC ++ ascii "c" ++ xs = l.bytes ++ ys := by
  obtain ⟨next, s₁, hpayload, haccepts⟩ := h.payload
  rw [hplace] at hpayload
  change (readHex 8 >>= fun color => pure (⟨1, color, none⟩ : Cursor) : Reader Fault Cursor) s = _
    at hpayload
  simp only [bind_ok, pure_ok] at hpayload
  obtain ⟨color, s₂, hcolor, heq⟩ := hpayload
  obtain ⟨rfl, rfl⟩ := Prod.mk.inj heq
  obtain ⟨n, hvalid, htakes, hv, hlength⟩ := readHex_ok hcolor
  obtain ⟨gapH, type, object, rest₁, s₃, s₄, hgapH, hless₁, hobject, hlink, haccepts⟩ :=
    haccepts.object
  obtain ⟨vs, ⟨ns, tail, hfields, htail, hdata⟩, hobjectOf, hchecked⟩ := hlink
  obtain ⟨gapText, caption, object', rest₂, s₅, hgapText, hfree, heq, hname, hless₂, htext,
    haccepts⟩ := haccepts.text
  obtain rfl := Option.some.inj heq
  obtain ⟨gapEnd, rest₃, s₆, hgapEnd, hless₃, hend, haccepts⟩ := haccepts.ending
  obtain ⟨gapR, hgapR, hclosing⟩ := haccepts.closing
  have hall := (((htakes.trans hobject).trans hdata).trans htext).trans hend
  have hreads : ∀ closed, (closed = false → gapR ≠ [] ∧ junk = 114) →
      Link.Reads stores junk
        ⟨gapC, n, gapH, type, ns, tail, gapText, caption, gapEnd, gapR, closed⟩ object :=
    fun closed hclosed => ⟨hblank, hvalid, hlength.resolve_left (by decide), hgapH,
      ⟨vs, hfields, hobjectOf⟩, htail, fun c hc => hv.trans (congrArg some (hchecked c hc)),
      hgapText, hfree, hname, hgapEnd, hgapR, hclosed⟩
  rcases hclosing with ⟨rest₄, s₇, hless₄, hclose, haccepts⟩ | ⟨hne, hjunk, rfl⟩
  · obtain ⟨ys, hs, rfl⟩ := hall.trans hclose
    refine ⟨_, object, ys, hreads true nofun,
      Or.inl ⟨rfl, rest₄, color, some object, by omega, haccepts⟩, _, hs, ?_⟩
    unfold Link.bytes
    simp only [List.append_assoc, if_true]
  · obtain ⟨ys, hs, heq⟩ := hall
    obtain rfl : ascii "|" ++ gapR = ys := congrArg TextStream.rest heq
    refine ⟨_, object, [], hreads false fun _ => ⟨hne, hjunk⟩, Or.inr ⟨rfl, rfl⟩, _, hs, ?_⟩
    unfold Link.bytes
    simp only [List.append_assoc, if_neg Bool.false_ne_true, List.append_nil]

/-! ## 5. Messages -/

/-- A segment in front. -/
def Reading.cons (segment : Segment) (r : Reading) : Reading :=
  { r with segments := segment :: r.segments }

theorem Reading.bytes_cons (segment : Segment) (r : Reading) :
    (r.cons segment).bytes = segment.bytes ++ r.bytes := by
  unfold Reading.bytes Reading.cons
  simp only [List.flatMap_cons, List.append_assoc]

theorem Reading.Reads.cons {segment : Segment} {r : Reading} (h : r.Reads stores junk)
    (htext : PIPE_CHAR ∉ segment.text) (hpipe : segment.pipe = false → segment.text.length = 255)
    (hitem : segment.item.Reads stores junk) : (r.cons segment).Reads stores junk :=
  ⟨List.forall_mem_cons.mpr ⟨⟨htext, hpipe⟩, h.texts⟩, List.forall_mem_cons.mpr ⟨hitem, h.items⟩,
    h.text, h.gap, h.blank⟩

/-- A message with no more pipes to come. -/
theorem Reading.reads_end {text gap : Text} (pipe : Bool) (htext : PIPE_CHAR ∉ text)
    (hgap : IsBlank gap) (hblank : gap ≠ [] → junk = PIPE_CHAR) :
    (⟨[], text, pipe, gap⟩ : Reading).Reads stores junk :=
  ⟨nofun, nofun, htext, hgap, hblank⟩

theorem isBlank_nil : IsBlank [] := nofun

/-- **What is accepted has been read.**  The induction is on the turns: an escaped pipe takes one,
a link five. -/
theorem Accepts.reading : ∀ {turns color : ℕ} {link : Option ChatLink} {xs : Text},
    Accepts stores junk turns ⟨0, color, link⟩ (on xs) →
    ∃ r : Reading, r.Reads stores junk ∧ r.bytes = xs := by
  intro turns
  induction turns using Nat.strong_induction_on with
  | _ turns ih =>
    intro color link xs h
    rcases h.cases with ⟨heof, -⟩ | ⟨-, rest, s₁, command, s₂, rfl, hskip, hread, hcases⟩
    · cases heof
    · obtain ⟨text, pipe, htext, hfirst⟩ := skipToPipe_text hskip
      rcases hfirst with ⟨⟨ys, hs, rfl⟩, hlength⟩ | ⟨-, rfl, heof⟩
      · obtain rfl : xs = text ++ pipeBytes pipe ++ ys := congrArg TextStream.rest hs
        have hmore : ∀ (segment : Segment) {zs : Text} {turns' color' : ℕ}
            {link' : Option ChatLink}, segment.text = text → segment.pipe = pipe →
            segment.item.Reads stores junk → turns' < rest + 1 →
            Accepts stores junk turns' ⟨0, color', link'⟩ (on zs) →
            ys = segment.item.bytes ++ zs →
            ∃ r : Reading, r.Reads stores junk ∧ r.bytes = text ++ pipeBytes pipe ++ ys := by
          intro segment zs turns' color' link' hsame hpipe hitem hless haccepts hys
          obtain ⟨r, hr, hbytes⟩ := ih turns' hless haccepts
          refine ⟨r.cons segment, hr.cons (hsame ▸ htext)
            (fun heq => hsame ▸ hlength (hpipe ▸ heq)) hitem, ?_⟩
          rw [Reading.bytes_cons, hbytes, hys, Segment.bytes, hsame, hpipe, List.append_assoc]
        rcases readAfterPipe_on hread with ⟨-, rfl⟩ | ⟨c, rfl, gap, hblank, hcommand⟩
        · exact ⟨⟨[], text, pipe, []⟩, Reading.reads_end pipe htext isBlank_nil
            fun hne => absurd rfl hne, rfl⟩
        · rcases hcases with ⟨hnone, -⟩ | ⟨c', heq, hfollows⟩
          · cases hnone
          · obtain rfl := Option.some.inj heq
            rcases hcommand with ⟨zs, hs, rfl⟩ | ⟨hne, hjunk, hs, rfl⟩
            · obtain rfl : ys = gap ++ [c] ++ zs := congrArg TextStream.rest hs
              rcases hfollows.sequence with ⟨-, hnext⟩ | ⟨rfl, -⟩
              · obtain rfl : 99 = c := Option.some.inj hnext
                obtain ⟨l, object, us, hreads, hafter, xs', hxs, hbytes⟩ :=
                  hfollows.link rfl hblank
                obtain rfl : zs = xs' := congrArg TextStream.rest hxs
                have hys : gap ++ [99] ++ zs = l.bytes ++ us := hbytes
                rcases hafter with ⟨-, rest', color', link', hless, haccepts⟩ | ⟨-, rfl⟩
                · exact hmore ⟨text, pipe, .link l⟩ rfl rfl ⟨object, hreads⟩
                    (by omega) haccepts hys
                · refine ⟨Reading.cons ⟨text, pipe, .link l⟩ ⟨[], [], false, []⟩,
                    (Reading.reads_end false List.not_mem_nil isBlank_nil
                      fun hne => absurd rfl hne).cons htext hlength ⟨object, hreads⟩, ?_⟩
                  rw [Reading.bytes_cons, hys, Segment.bytes, List.append_assoc]
                  rfl
              · obtain ⟨next, s', hpayload, haccepts⟩ := hfollows.payload
                obtain ⟨rfl, rfl⟩ := Prod.mk.inj (pure_ok.mp hpayload)
                exact hmore ⟨text, pipe, .escaped gap⟩ rfl rfl hblank
                  (Nat.lt_succ_self rest) haccepts rfl
            · obtain rfl : ys = gap := congrArg TextStream.rest hs
              rcases hfollows.sequence with ⟨-, hnext⟩ | ⟨rfl, -⟩
              · obtain rfl : 99 = c := Option.some.inj hnext
                obtain ⟨l, object, us, -, -, xs', hxs, -⟩ := hfollows.link rfl hblank
                cases congrArg TextStream.eofbit hxs
              · exact ⟨⟨[], text, pipe, ys⟩, Reading.reads_end pipe htext hblank
                  fun _ => hjunk.symm, rfl⟩
      · obtain rfl := readAfterPipe_end heof hread
        refine ⟨⟨[], xs, false, []⟩, Reading.reads_end false htext isBlank_nil
          fun hne => absurd rfl hne, ?_⟩
        unfold Reading.bytes
        simp [pipeBytes]

/-- **An accepted message has a reading.** -/
theorem isValidMessage_reads {message : Text} (h : isValidMessage stores junk message = true) :
    ∃ r : Reading, r.Reads stores junk ∧ r.bytes = message := by
  unfold isValidMessage at h
  cases hloop : loop stores junk (message.length + 2) ⟨0, 0, none⟩ (on message) with
  | error e =>
    rw [hloop] at h
    cases h
  | ok result =>
    obtain ⟨valid, s'⟩ := result
    rw [hloop] at h
    obtain rfl : valid = true := h
    exact Accepts.reading ⟨s', hloop⟩

end HungerGames.ChatLinks
