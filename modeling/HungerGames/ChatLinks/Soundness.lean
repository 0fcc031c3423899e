/-
# The links of accepted messages

A reading without faults is sound, piece by piece (`Reading.sound`).  So the validation does what
it is for on every message whose reading has no faults (`validation_sound`); it accepts others as
well, such as one that ends with a pipe (`accepts_pipe`).
-/
import HungerGames.ChatLinks.Reading

namespace HungerGames.ChatLinks

open HungerGames.System HungerGames.System.Reader HungerGames.System.TextStream

variable {stores : Stores}

/-! ## 1. Captions -/

variable {buffer : Text}

theorem isCaption_item {item : ItemTemplate} {suffix : Option Localized}
    (h : validateItemName stores item suffix buffer = true)
    (hfaultless : CaptionFaultless stores (.item item suffix) buffer) :
    IsCaption stores (.item item suffix) buffer := by
  rcases Bool.or_eq_true_iff.mp h with h | h
  · have hname : formatName item LOCALE_enUS none suffix = buffer := of_decide_eq_true h
    exact ⟨LOCALE_enUS, none, fun hempty => hfaultless _ _ hempty (Or.inl rfl) hname.symm,
      Or.inl rfl, hname.symm⟩
  · obtain ⟨index, -, hname⟩ := List.any_eq_true.mp h
    have hname := of_decide_eq_true hname
    exact ⟨index, _, fun hempty => hfaultless _ _ hempty (Or.inr rfl) hname.symm, Or.inr rfl,
      hname.symm⟩

theorem isCaption_quest {quest : Quest} (h : validateQuestName stores quest buffer = true)
    (hfaultless : CaptionFaultless stores (.quest quest) buffer) :
    IsCaption stores (.quest quest) buffer := by
  refine ⟨hfaultless, ?_⟩
  rcases Bool.or_eq_true_iff.mp h with h | h
  · exact Or.inl (of_decide_eq_true h).symm
  · cases hlocale : stores.getQuestLocale quest.questId with
    | none =>
      rw [hlocale] at h
      cases h
    | some titles =>
      rw [hlocale] at h
      obtain ⟨title, hmem, heq⟩ := List.any_eq_true.mp h
      obtain rfl := of_decide_eq_true heq
      exact Or.inr ⟨titles, rfl, hmem⟩

theorem hasName_iff {names : Localized} :
    hasName names buffer = true ↔ ∃ i, names i ≠ [] ∧ names i = buffer := by
  unfold hasName
  rw [List.any_eq_true]
  constructor
  · rintro ⟨i, -, hi⟩
    obtain ⟨hne, heq⟩ := Bool.and_eq_true_iff.mp hi
    exact ⟨i, of_decide_eq_true hne, of_decide_eq_true heq⟩
  · rintro ⟨i, hne, heq⟩
    exact ⟨i, List.mem_finRange i,
      Bool.and_eq_true_iff.mpr ⟨decide_eq_true hne, decide_eq_true heq⟩⟩

/-- What the name of a spell is compared with. -/
theorem validateName_spell {spell : SpellInfo} {s s' : TextStream} {u : Unit}
    (h : validateName stores (.spell spell) buffer s = .ok (u, s')) :
    ∃ text, spellCaption stores spell buffer = .ok text ∧
      ∃ i, spell.spellName i ≠ [] ∧ spell.spellName i = text := by
  simp only [validateName, bind_ok, require_ok] at h
  obtain ⟨text, s₁, htext, hname, rfl⟩ := h
  cases hcaption : spellCaption stores spell buffer with
  | error e =>
    rw [hcaption] at htext
    cases htext
  | ok text' =>
    rw [hcaption] at htext
    obtain ⟨rfl, -⟩ := Prod.mk.inj (Except.ok.inj htext)
    exact ⟨text', rfl, hasName_iff.mp hname⟩

theorem tradespell_of_ne {spell : SpellInfo} {text : Text}
    (h : spellCaption stores spell buffer = .ok text) (hne : text ≠ buffer) :
    spell.tradespell = true := by
  unfold spellCaption at h
  cases htrade : spell.tradespell with
  | true => rfl
  | false =>
    rw [htrade, if_neg Bool.false_ne_true] at h
    exact absurd (Except.ok.inj h).symm hne

theorem isCaption_spell {spell : SpellInfo} {s s' : TextStream} {u : Unit}
    (h : validateName stores (.spell spell) buffer s = .ok (u, s'))
    (hfaultless : CaptionFaultless stores (.spell spell) buffer) :
    IsCaption stores (.spell spell) buffer := by
  obtain ⟨text, htext, i, hne, rfl⟩ := validateName_spell h
  refine ⟨i, hne, ?_⟩
  by_cases hsame : spell.spellName i = buffer
  · exact Or.inl hsame.symm
  · obtain ⟨skillLine, hline, j, heq⟩ := hfaultless _ htext hsame
    exact Or.inr ⟨tradespell_of_ne htext hsame, skillLine, hline, j, heq⟩

variable {link : ChatLink}

/-- **A caption that is accepted is a name**, if it has no faults. -/
theorem isCaption_of_validateName {s s' : TextStream} {u : Unit}
    (h : validateName stores link buffer s = .ok (u, s'))
    (hfaultless : CaptionFaultless stores link buffer) : IsCaption stores link buffer := by
  cases link with
  | item item suffix => exact isCaption_item (require_ok.mp h).1 hfaultless
  | quest quest => exact isCaption_quest (require_ok.mp h).1 hfaultless
  | spell spell => exact isCaption_spell h hfaultless
  | achievement names =>
    obtain ⟨i, hne, heq⟩ := hasName_iff.mp (require_ok.mp h).1
    exact ⟨i, hne, heq.symm⟩

/-! ## 2. Links -/

theorem Numeral.bytes_of_plain {n : Numeral} (h : n.Plain) (hsign : n.sign = []) :
    n.bytes = n.digits := by
  unfold Numeral.bytes
  rw [h.blanks, hsign, h.mark]
  rfl

theorem Numeral.value_of_plain {n : Numeral} {v : ℕ} (hsign : n.sign = [])
    (h : n.toUInt32 16 = some v) : digitsValue 16 n.digits = v := by
  have hpositive : n.negative = false := by
    unfold Numeral.negative
    rw [hsign]
    rfl
  unfold Numeral.toUInt32 at h
  rw [hpositive] at h
  split at h
  · exact Option.some.inj h
  · cases h

/-- The colours that are not compared are those of talents. -/
theorem kindColor_of_checked {type : LinkType} {color : ℕ} (h : color ∈ kindColor type link)
    (hne : type ≠ .talent) : color ∈ checkedColor type link := by
  cases type with
  | talent => exact absurd rfl hne
  | item => exact h
  | quest => exact h
  | trade => exact h
  | spell => exact h
  | enchant => exact h
  | achievement => exact h
  | glyph => exact h

theorem kindColor_talent {color : ℕ} (h : color ∈ kindColor .talent link) :
    color = CHAT_LINK_COLOR_TALENT :=
  (Option.some.inj h).symm

/-- The link as it is written. -/
def Link.text (l : Link) : LinkText :=
  ⟨l.color.digits, l.type, joined l.fields ++ l.tail, l.caption⟩

/-- **A link without faults is sound.** -/
theorem Link.Reads.sound {junk : UInt8} {l : Link} (h : l.Reads stores junk link)
    (hfaultless : l.Faultless stores link) :
    l.text.Sound stores ∧ ascii "|" ++ l.bytes = l.text.bytes := by
  obtain ⟨hcolor, hsign⟩ := hfaultless.color
  have hdigits := Numeral.bytes_of_plain hcolor hsign
  obtain ⟨vs, hfields, hobject⟩ := h.fields
  obtain ⟨s, hname⟩ := h.caption
  refine ⟨⟨?_, h.color.digits, ⟨link, ⟨l.fields, vs, l.tail, rfl, hfields, hfaultless.fields,
    h.tail, hobject⟩, fun color hkind => ?_, isCaption_of_validateName hname hfaultless.caption⟩,
    h.bracketed⟩, ?_⟩
  · have height := h.eight
    rw [hdigits] at height
    exact height
  · by_cases htype : l.type = .talent
    · change color ∈ kindColor l.type link at hkind
      rw [htype] at hkind
      rw [kindColor_talent hkind]
      exact Numeral.value_of_plain hsign (hfaultless.talent htype)
    · exact Numeral.value_of_plain hsign (h.checked color (kindColor_of_checked hkind htype))
  · obtain ⟨hgapC, hgapH, hgapText, hgapEnd, hgapR⟩ := hfaultless.gaps
    have hclosed : l.closed = true := by
      cases hclosed : l.closed with
      | true => rfl
      | false => exact absurd hgapR (h.closed hclosed).1
    have hC : ascii "|c" = ascii "|" ++ ascii "c" := rfl
    have hH : ascii "|H" = ascii "|" ++ ascii "H" := rfl
    have hh : ascii "|h[" = ascii "|" ++ ascii "h[" := rfl
    have hr : ascii "]|h|r" = ascii "]" ++ ascii "|" ++ ascii "h" ++ ascii "|" ++ ascii "r" := rfl
    unfold Link.bytes LinkText.bytes Link.text
    rw [hgapC, hgapH, hgapText, hgapEnd, hgapR, hclosed, if_pos rfl, hdigits, hC, hH, hh, hr]
    simp only [List.append_assoc, List.nil_append]

/-! ## 3. Messages -/

theorem Sound.text {text m : Text} (h : PIPE_CHAR ∉ text) (hm : Sound stores m) :
    Sound stores (text ++ m) := by
  induction text with
  | nil => exact hm
  | cons c cs ih =>
    obtain ⟨hc, hcs⟩ := not_or.mp (fun hor => h (List.mem_cons.mpr hor))
    exact .char (Ne.symm hc) (ih hcs)

theorem not_pipe_of_blank {gap : Text} (h : IsBlank gap) : PIPE_CHAR ∉ gap := fun hmem =>
  absurd (h PIPE_CHAR hmem) (by decide)

/-- **A reading without faults is sound.** -/
theorem Reading.sound {junk : UInt8} {r : Reading} (h : r.Reads stores junk)
    (hfaultless : r.Faultless stores junk) : Sound stores r.bytes := by
  obtain ⟨segments, text, pipe, gap⟩ := r
  obtain rfl : pipe = false := hfaultless.pipe
  have hlast : Sound stores (text ++ gap) := by
    rw [← List.append_nil gap]
    exact .text h.text (.text (not_pipe_of_blank h.gap) .nil)
  have hsegments : ∀ {segments : List Segment},
      (∀ s ∈ segments, PIPE_CHAR ∉ s.text ∧ (s.pipe = false → s.text.length = 255)) →
      (∀ s ∈ segments, s.item.Reads stores junk) → (∀ s ∈ segments, s.pipe = true) →
      (∀ s ∈ segments, s.item.Faultless stores junk) →
      Sound stores (segments.flatMap Segment.bytes ++ (text ++ gap)) := by
    intro segments
    induction segments with
    | nil => exact fun _ _ _ _ => hlast
    | cons segment segments ih =>
      intro htexts hitems hpipes hfaults
      obtain ⟨htext, htexts⟩ := List.forall_mem_cons.mp htexts
      obtain ⟨hitem, hitems⟩ := List.forall_mem_cons.mp hitems
      obtain ⟨hpipe, hpipes⟩ := List.forall_mem_cons.mp hpipes
      obtain ⟨hfault, hfaults⟩ := List.forall_mem_cons.mp hfaults
      have hrest := ih htexts hitems hpipes hfaults
      rw [List.flatMap_cons, Segment.bytes, hpipe, pipeBytes, if_pos rfl]
      simp only [List.append_assoc] at hrest ⊢
      refine .text htext.1 ?_
      cases hcase : segment.item with
      | escaped gap =>
        rw [hcase] at hfault
        obtain rfl : gap = [] := hfault
        exact .escaped hrest
      | link l =>
        rw [hcase] at hitem hfault
        obtain ⟨object, hreads⟩ := hitem
        obtain ⟨hsound, hbytes⟩ := hreads.sound (hfault object hreads)
        have hlink := Sound.link hsound hrest
        rw [← hbytes, List.append_assoc] at hlink
        exact hlink
  have hall := hsegments h.texts h.items hfaultless.pipes hfaultless.items
  unfold Reading.bytes
  simpa only [pipeBytes, if_neg Bool.false_ne_true, List.append_assoc, List.nil_append] using hall

theorem pipe_mem_item (item : Item) : PIPE_CHAR ∈ item.bytes := by
  cases item with
  | escaped gap => exact List.mem_append_right _ (List.mem_singleton.mpr rfl)
  | link l =>
    unfold Item.bytes Link.bytes
    simp [ascii, PIPE_CHAR]

/-- A message without pipes has no faults. -/
theorem faultless_of_no_pipe {junk : UInt8} {message : Text} (h : PIPE_CHAR ∉ message)
    {r : Reading} (hbytes : r.bytes = message) : r.Faultless stores junk := by
  have hnot : ∀ s ∈ r.segments, False := by
    intro s hs
    refine h (hbytes ▸ ?_)
    have hitem : PIPE_CHAR ∈ r.segments.flatMap Segment.bytes :=
      List.mem_flatMap.mpr ⟨s, hs, List.mem_append_right _ (pipe_mem_item s.item)⟩
    exact List.mem_append_left _ (List.mem_append_left _ (List.mem_append_left _ hitem))
  refine ⟨fun s hs => (hnot s hs).elim, fun s hs => (hnot s hs).elim, ?_⟩
  cases hpipe : r.pipe with
  | false => rfl
  | true =>
    refine absurd (hbytes ▸ ?_) h
    unfold Reading.bytes
    rw [hpipe]
    exact List.mem_append_left _ (List.mem_append_right _ (List.mem_singleton.mpr rfl))

/-- Stores with a spell. -/
def spellStores : Stores where
  getItemTemplate _ := none
  getItemLocale _ := none
  itemRandomProperties _ := none
  itemRandomSuffix _ := none
  getQuestTemplate _ := none
  getQuestLocale _ := none
  getSpellInfo id := if id = 21563 then some ⟨21563, false, fun _ => ascii "Command"⟩ else none
  skillLineAbility _ := none
  skillLine _ := none
  getAchievement _ := none
  talent _ := none
  glyphProperties _ := none

/-- A link to the spell is accepted, with another name it is not. -/
example : isValidMessage spellStores 0 (ascii "hi |cff71d5ff|Hspell:21563|h[Command]|h|r") = true ∧
    isValidMessage spellStores 0 (ascii "hi |cff71d5ff|Hspell:21563|h[Charge]|h|r") = false := by
  decide +kernel

/-- Links begin with a pipe and their first command. -/
theorem LinkText.bytes_cons (l : LinkText) : ∃ rest, l.bytes = PIPE_CHAR :: 99 :: rest := ⟨_, rfl⟩

theorem Sound.of_char {c : UInt8} {m : Text} (h : Sound stores (c :: m)) (hc : c ≠ PIPE_CHAR) :
    Sound stores m := by
  generalize hm : c :: m = message at h
  cases h with
  | nil => cases hm
  | char hc' h =>
    obtain ⟨-, rfl⟩ := List.cons.inj hm
    exact h
  | escaped h => exact absurd (List.cons.inj hm).1 hc
  | @link l rest hl h =>
    obtain ⟨tail, hbytes⟩ := l.bytes_cons
    rw [hbytes] at hm
    exact absurd (List.cons.inj hm).1 hc

/-- After a pipe there is another, or the first command of a link. -/
theorem Sound.after_pipe {m : Text} (h : Sound stores (PIPE_CHAR :: m)) :
    ∃ c rest, m = c :: rest ∧ (c = PIPE_CHAR ∨ c = 99) := by
  generalize hm : PIPE_CHAR :: m = message at h
  cases h with
  | nil => cases hm
  | char hc h => exact absurd (List.cons.inj hm).1.symm hc
  | escaped h => exact ⟨PIPE_CHAR, _, (List.cons.inj hm).2, Or.inl rfl⟩
  | @link l rest hl h =>
    obtain ⟨tail, hbytes⟩ := l.bytes_cons
    rw [hbytes] at hm
    exact ⟨99, _, (List.cons.inj hm).2, Or.inr rfl⟩

end HungerGames.ChatLinks
