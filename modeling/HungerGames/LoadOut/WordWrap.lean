/-
# Wrapping a description (`LoadOut.lua`)

The loadout frame shows the description of a perk in lines of at most 42 characters.  `WordWrap`
cuts the text into words and fills the lines one after the other, twice: once as full as they get
and once with a character to spare.  Of the two it returns the one with fewer lines, or less space
left over.

A word that is longer than a line starts a line of its own, and what did not fit stays in the
array in its place, to start the next one.
-/
import HungerGames.Lua.Text
import HungerGames.System.Loop
import Mathlib.Algebra.Order.Ring.Int
import Mathlib.Data.List.TakeWhile

namespace HungerGames.LoadOut

open HungerGames.Lua HungerGames.System

/-! ## 1. The lines -/

/-- `input:gmatch("(%S+)")`: the longest runs of anything but white space. -/
def words (input : Bytes) : List Bytes := (input.splitOnP isSpace).filter (· ≠ [])

/-- `table.concat(t, " ")` -/
def concat (t : List Bytes) : Bytes := [32].intercalate t

/-- The variables of the loop that fills a line.  Indices are from 0 here. -/
structure Filling where
  exploded : List Bytes
  i : ℕ
  t : List Bytes
  len : ℕ

/-- `table.insert(t, str); len = len + #str + 1` -/
def Filling.insert (f : Filling) (str : Bytes) : Filling :=
  { f with t := f.t ++ [str], len := f.len + str.length + 1 }

/-- A turn of `while len < width`. -/
def fillTurn (width extra : ℕ) (f : Filling) : Turn Filling Filling :=
  if f.len < width then
    match f.exploded[f.i]? with
    | none => .done f
    | some str =>
      if f.len = 0 ∧ str.length ≥ width then
        if str.length = width then .again (Filling.insert { f with i := f.i + 1 } str)
        else .again (Filling.insert { f with exploded := f.exploded.set f.i (str.drop width) }
          (str.take width))
      else if f.len + str.length + extra > width then .done f
      else .again (Filling.insert { f with i := f.i + 1 } str)
  else .done f

/-- `res`, the lines and what they miss. -/
structure Res where
  lines : List Bytes
  missed : ℤ
  missedSq : ℤ
deriving DecidableEq

/-- The variables of the loop over the lines. -/
structure Wrapping where
  exploded : List Bytes
  i : ℕ
  res : Res

/-- What a line adds to `res`. -/
def Res.insert (res : Res) (width : ℕ) (line : Bytes) : Res where
  lines := res.lines ++ [line]
  missed := res.missed + (width - line.length)
  missedSq := res.missedSq + (width - line.length) ^ 2

/-- A turn of `while i <= #exploded`. -/
def lineTurn (n width extra : ℕ) (w : Wrapping) : Option (Turn Wrapping Res) :=
  if w.i < w.exploded.length then
    (loop (fun f => some (fillTurn width extra f)) n ⟨w.exploded, w.i, [], 0⟩).map fun f =>
      .again ⟨f.exploded, f.i, w.res.insert width (concat f.t)⟩
  else some (.done w.res)

/-- One of the two results. -/
def wrap (n : ℕ) (input : Bytes) (width extra : ℕ) : Option Res :=
  loop (lineTurn n width extra) n ⟨words input, 0, ⟨[], 0, 0⟩⟩

/-! ## 2. `WordWrap` -/

/-- `for _, res in ipairs(result)`: the current one, and whether it was replaced. -/
def choose (better : Res → Res → Prop) [DecidableRel better] (first : Res) (others : List Res) :
    Res × Bool :=
  others.foldl
    (fun (current, ret) res => if better res current then (res, true) else (current, ret))
    (first, false)

/-- The one that is returned. -/
def select (first : Res) (others : List Res) : Res :=
  let (current, ret) := choose (fun a b => a.lines.length < b.lines.length) first others
  if ret then current
  else
    let (current, ret) := choose (fun a b => a.missed < b.missed) first others
    if ret then current
    else (choose (fun a b => a.missedSq ≤ b.missedSq) first others).1

/-- `WordWrap`, with loops of at most `n` turns. -/
def wordWrap (n : ℕ) (input : Bytes) (width : ℕ) : Option (List Bytes) := do
  let first ← wrap n input width 0
  let second ← wrap n input width 1
  return (select first [second]).lines

/-! ## 3. Words -/

/-- Not empty, and without white space. -/
def IsWord (w : Bytes) : Prop := w ≠ [] ∧ ∀ c ∈ w, isSpace c = false

theorem words_cons_space {c : UInt8} (hc : isSpace c = true) (s : Bytes) :
    words (c :: s) = words s := by
  simp [words, List.splitOnP_cons_eq_if_modifyHead, hc]

theorem words_eq_singleton {w : Bytes} (hw : IsWord w) : words w = [w] := by
  simp [words, List.splitOnP_eq_singleton hw.2, hw.1]

theorem words_append_space {w : Bytes} (hw : IsWord w) {c : UInt8} (hc : isSpace c = true)
    (s : Bytes) : words (w ++ c :: s) = w :: words s := by
  simp [words, List.splitOnP_append_cons_of_forall_mem hw.2 c hc, hw.1]

/-- A string is white space, a word, or a word and more after white space. -/
theorem split_cases (s : Bytes) :
    s = [] ∨ (∃ c s', s = c :: s' ∧ isSpace c = true) ∨ IsWord s ∨
      ∃ w c s', s = w ++ c :: s' ∧ IsWord w ∧ isSpace c = true := by
  cases s with
  | nil => exact Or.inl rfl
  | cons c s =>
    cases hc : isSpace c with
    | true => exact Or.inr (Or.inl ⟨c, s, rfl, hc⟩)
    | false =>
      have hword : IsWord (c :: s.takeWhile (!isSpace ·)) := by
        refine ⟨List.cons_ne_nil _ _, fun d hd => ?_⟩
        rcases List.mem_cons.mp hd with rfl | hd
        · exact hc
        · simpa using List.mem_takeWhile_imp hd
      have hsplit := List.takeWhile_append_dropWhile (p := (!isSpace ·)) (l := s)
      cases hrest : s.dropWhile (!isSpace ·) with
      | nil =>
        rw [hrest, List.append_nil] at hsplit
        exact Or.inr (Or.inr (Or.inl (hsplit ▸ hword)))
      | cons d s' =>
        refine Or.inr (Or.inr (Or.inr ⟨_, d, s', ?_, hword, ?_⟩))
        · rw [List.cons_append, ← hrest, hsplit]
        · have hne : s.dropWhile (!isSpace ·) ≠ [] := by simp [hrest]
          have := List.head_dropWhile_not (!isSpace ·) hne
          simpa [hrest] using this

/-- Text, word by word. -/
theorem words_induction {motive : Bytes → Prop} (nil : motive [])
    (space : ∀ c s, isSpace c = true → motive s → motive (c :: s))
    (last : ∀ w, IsWord w → motive w)
    (word : ∀ w c s, IsWord w → isSpace c = true → motive s → motive (w ++ c :: s))
    (s : Bytes) : motive s := by
  induction hlen : s.length using Nat.strong_induction_on generalizing s with
  | _ n ih =>
    subst hlen
    rcases split_cases s with rfl | ⟨c, s', rfl, hc⟩ | hs | ⟨w, c, s', rfl, hw, hc⟩
    · exact nil
    · exact space c s' hc (ih _ (by simp) s' rfl)
    · exact last s hs
    · refine word w c s' hw hc (ih _ ?_ s' rfl)
      rw [List.length_append, List.length_cons]
      omega

theorem isWord_of_mem_words {s w : Bytes} (h : w ∈ words s) : IsWord w := by
  induction s using words_induction with
  | nil => exact absurd h (by simp [words])
  | space c s hc ih => exact ih (words_cons_space hc s ▸ h)
  | last w' hw =>
    rw [words_eq_singleton hw, List.mem_singleton] at h
    exact h ▸ hw
  | word w' c s hw hc ih =>
    rw [words_append_space hw hc, List.mem_cons] at h
    rcases h with rfl | h
    · exact hw
    · exact ih h

theorem filter_word {w : Bytes} (hw : IsWord w) : w.filter (!isSpace ·) = w :=
  List.filter_eq_self.mpr fun c hc => by simp [hw.2 c hc]

/-- The words are all there is but white space. -/
theorem flatten_words (s : Bytes) : (words s).flatten = s.filter (!isSpace ·) := by
  induction s using words_induction with
  | nil => rfl
  | space c s hc ih => simp [words_cons_space hc, ih, hc]
  | last w hw => simp [words_eq_singleton hw, filter_word hw]
  | word w c s hw hc ih => simp [words_append_space hw hc, ih, filter_word hw, hc]

theorem concat_cons (w v : Bytes) (t : List Bytes) :
    concat (w :: v :: t) = w ++ 32 :: concat (v :: t) := by
  simp [concat, List.intercalate_cons_cons]

theorem concat_singleton (w : Bytes) : concat [w] = w := by simp [concat]

/-- **The words of a line** are those that were put in it. -/
theorem words_concat {t : List Bytes} (h : ∀ w ∈ t, IsWord w) : words (concat t) = t := by
  induction t with
  | nil => rfl
  | cons w t ih =>
    cases t with
    | nil => rw [concat_singleton, words_eq_singleton (h w (List.mem_singleton_self w))]
    | cons v t =>
      rw [concat_cons, words_append_space (h w List.mem_cons_self) (by decide),
        ih fun u hu => h u (List.mem_cons_of_mem w hu)]

/-- `len`, which has a space after each word. -/
def spaced (t : List Bytes) : ℕ := (t.map fun w => w.length + 1).sum

theorem spaced_append (t : List Bytes) (w : Bytes) :
    spaced (t ++ [w]) = spaced t + w.length + 1 := by
  simp [spaced, Nat.add_assoc]

theorem length_concat {t : List Bytes} (h : t ≠ []) : (concat t).length + 1 = spaced t := by
  induction t with
  | nil => exact absurd rfl h
  | cons w t ih =>
    cases t with
    | nil => simp [concat_singleton, spaced]
    | cons v t =>
      have hlength := ih (List.cons_ne_nil v t)
      rw [concat_cons, List.length_append, List.length_cons, hlength]
      simp only [spaced, List.map_cons, List.sum_cons]
      omega

/-! ## 4. What becomes of the words -/

/-- Some words, of which those that are longer than a line have been cut at its width. -/
inductive Pieces (width : ℕ) : List Bytes → List Bytes → Prop where
  | nil : Pieces width [] []
  | whole (w : Bytes) {ws ps : List Bytes} : Pieces width ws ps → Pieces width (w :: ws) (w :: ps)
  | cut (w : Bytes) {ws ps : List Bytes} : width < w.length →
      Pieces width (w.drop width :: ws) ps → Pieces width (w :: ws) (w.take width :: ps)

theorem Pieces.flatten_eq {width : ℕ} {ws ps : List Bytes} (h : Pieces width ws ps) :
    ps.flatten = ws.flatten := by
  induction h with
  | nil => rfl
  | whole w _ ih => rw [List.flatten_cons, List.flatten_cons, ih]
  | cut w _ _ ih =>
    rw [List.flatten_cons, ih, List.flatten_cons, List.flatten_cons, ← List.append_assoc,
      List.take_append_drop]

/-- **A word that is no longer than a line is not cut.** -/
theorem Pieces.mem_of_length_le {width : ℕ} {ws ps : List Bytes} (h : Pieces width ws ps)
    {w : Bytes} (hw : w ∈ ws) (hlength : w.length ≤ width) : w ∈ ps := by
  induction h with
  | nil => exact hw
  | whole v _ ih =>
    rcases List.mem_cons.mp hw with rfl | hw
    · exact List.mem_cons_self
    · exact List.mem_cons_of_mem _ (ih hw)
  | cut v hlong _ ih =>
    rcases List.mem_cons.mp hw with rfl | hw
    · omega
    · exact List.mem_cons_of_mem _ (ih (List.mem_cons_of_mem _ hw))

/-! ## 5. One line -/

/-- What is left in the array. -/
def Filling.rest (f : Filling) : List Bytes := f.exploded.drop f.i

/-- The characters that are left. -/
def characters (ws : List Bytes) : ℕ := (ws.map List.length).sum

/-- **The invariant of the loop that fills a line**, which starts with the words `ws`. -/
structure Filled (width : ℕ) (ws : List Bytes) (f : Filling) : Prop where
  left : ∀ w ∈ f.rest, IsWord w
  taken : ∀ w ∈ f.t, IsWord w
  len : f.len = spaced f.t
  le : f.len ≤ width + 1
  fresh : f.t = [] → f.rest = ws
  fewer : f.t ≠ [] → characters f.rest < characters ws
  pieces : ∀ ps, Pieces width f.rest ps → Pieces width ws (f.t ++ ps)

theorem Filled.begin {width : ℕ} {exploded : List Bytes} {i : ℕ}
    (h : ∀ w ∈ exploded.drop i, IsWord w) :
    Filled width (exploded.drop i) ⟨exploded, i, [], 0⟩ where
  left := h
  taken := fun _ hw => absurd hw List.not_mem_nil
  len := rfl
  le := Nat.zero_le _
  fresh := fun _ => rfl
  fewer := fun h => absurd rfl h
  pieces := fun _ hps => hps

section Turn

variable {width extra : ℕ} {ws : List Bytes} {f : Filling} {str : Bytes}

theorem rest_eq_cons (h : f.exploded[f.i]? = some str) :
    f.rest = str :: f.exploded.drop (f.i + 1) := by
  obtain ⟨hi, rfl⟩ := List.getElem?_eq_some_iff.mp h
  exact List.drop_eq_getElem_cons hi

/-- A word is put into the line: what is left has fewer characters, and its pieces with the word
are pieces of what was left before. -/
theorem Filled.insert {f' : Filling} (h : Filled width ws f) (ht : f'.t = f.t)
    (hlen : f'.len = f.len) (hword : IsWord str) (hle : f.len + str.length ≤ width)
    (hleft : ∀ w ∈ f'.rest, IsWord w) (hfewer : characters f'.rest < characters f.rest)
    (hpieces : ∀ ps, Pieces width f'.rest ps → Pieces width f.rest (str :: ps)) :
    Filled width ws (f'.insert str) ∧ characters (f'.insert str).rest < characters f.rest := by
  refine ⟨⟨hleft, ?_, ?_, ?_, ?_, ?_, ?_⟩, hfewer⟩
  · intro w hw
    rw [Filling.insert, ht] at hw
    rcases List.mem_append.mp hw with hw | hw
    · exact h.taken w hw
    · exact List.mem_singleton.mp hw ▸ hword
  · simp only [Filling.insert, spaced_append, ht, hlen, h.len]
  · simp only [Filling.insert, hlen]
    omega
  · intro hnil
    simp [Filling.insert] at hnil
  · intro _
    rcases eq_or_ne f.t [] with hnil | hne
    · exact h.fresh hnil ▸ hfewer
    · exact Nat.lt_trans hfewer (h.fewer hne)
  · intro ps hps
    simp only [Filling.insert, ht, List.append_assoc, List.singleton_append]
    exact h.pieces _ (hpieces ps hps)

/-- The next word goes into the line. -/
theorem Filled.take (h : Filled width ws f) (hstr : f.exploded[f.i]? = some str)
    (hle : f.len + str.length ≤ width) :
    Filled width ws (Filling.insert { f with i := f.i + 1 } str) ∧
      characters (Filling.insert { f with i := f.i + 1 } str).rest < characters f.rest := by
  have hrest := rest_eq_cons hstr
  have hword : IsWord str := h.left str (hrest ▸ List.mem_cons_self)
  have hpos := List.length_pos_of_ne_nil hword.1
  refine h.insert rfl rfl hword hle (fun w hw => ?_) ?_ fun ps hps => hrest ▸ hps.whole str
  · exact h.left w (hrest ▸ List.mem_cons_of_mem str hw)
  · rw [hrest]
    simp only [Filling.rest, characters, List.map_cons, List.sum_cons]
    omega

/-- A word that is longer than a line is cut, and its end stays where it was. -/
theorem Filled.cut (h : Filled width ws f) (hstr : f.exploded[f.i]? = some str)
    (hwidth : 1 ≤ width) (hlen : f.len = 0) (hlong : width < str.length) :
    Filled width ws (Filling.insert { f with exploded := f.exploded.set f.i (str.drop width) }
        (str.take width)) ∧
      characters (Filling.insert { f with exploded := f.exploded.set f.i (str.drop width) }
        (str.take width)).rest < characters f.rest := by
  have hrest := rest_eq_cons hstr
  have hword : IsWord str := h.left str (hrest ▸ List.mem_cons_self)
  have hi : f.i < f.exploded.length := (List.getElem?_eq_some_iff.mp hstr).1
  have hset : Filling.rest { f with exploded := f.exploded.set f.i (str.drop width) } =
      str.drop width :: f.exploded.drop (f.i + 1) := by
    rw [Filling.rest, List.drop_eq_getElem_cons (by simpa using hi), List.getElem_set_self,
      List.drop_set_of_lt (Nat.lt_succ_self _)]
  have hfirst : IsWord (str.take width) := by
    refine ⟨fun hnil => ?_, fun c hc => hword.2 c (List.mem_of_mem_take hc)⟩
    rw [List.take_eq_nil_iff] at hnil
    rcases hnil with rfl | rfl
    · exact absurd hwidth (by decide)
    · exact hword.1 rfl
  have hlast : IsWord (str.drop width) := by
    refine ⟨fun hnil => ?_, fun c hc => hword.2 c (List.mem_of_mem_drop hc)⟩
    rw [List.drop_eq_nil_iff] at hnil
    omega
  refine h.insert rfl rfl hfirst (by rw [List.length_take]; omega) ?_ ?_ ?_
  · rw [hset, List.forall_mem_cons]
    exact ⟨hlast, fun w hw => h.left w (hrest ▸ List.mem_cons_of_mem str hw)⟩
  · rw [hset, hrest]
    simp only [characters, List.map_cons, List.sum_cons, List.length_drop]
    omega
  · intro ps hps
    exact hrest ▸ (hset ▸ hps).cut str hlong

/-- A turn puts a word into the line, or leaves the line with a word in it. -/
theorem fillTurn_ends (hwidth : 1 ≤ width) (hextra : extra ≤ 1) (hws : ws ≠ [])
    (h : Filled width ws f) :
    Ends (fun f => some (fillTurn width extra f))
      (fun f' => Filled width ws f' ∧ characters f'.rest < characters f.rest)
      (fun f' => Filled width ws f' ∧ f'.t ≠ []) f := by
  have hfresh : f.t = [] → f.len = 0 := fun ht => by simp [h.len, ht, spaced]
  by_cases hlt : f.len < width
  · cases hstr : f.exploded[f.i]? with
    | none =>
      refine .done (by simp [fillTurn, hlt, hstr]) ⟨h, fun ht => hws ?_⟩
      rw [← h.fresh ht]
      exact List.drop_eq_nil_of_le (List.getElem?_eq_none_iff.mp hstr)
    | some str =>
      by_cases hlong : f.len = 0 ∧ str.length ≥ width
      · by_cases heq : str.length = width
        · refine .again ?_ (h.take hstr (by omega))
          simp only [fillTurn, if_pos hlt, hstr, if_pos hlong, if_pos heq]
        · refine .again ?_ (h.cut hstr hwidth hlong.1 (by omega))
          simp only [fillTurn, if_pos hlt, hstr, if_pos hlong, if_neg heq]
      · by_cases hover : f.len + str.length + extra > width
        · refine .done ?_ ⟨h, fun ht => ?_⟩
          · simp only [fillTurn, if_pos hlt, hstr, if_neg hlong, if_pos hover]
          · have := hfresh ht
            omega
        · refine .again ?_ (h.take hstr (by omega))
          simp only [fillTurn, if_pos hlt, hstr, if_neg hlong, if_neg hover]
  · refine .done (by simp only [fillTurn, if_neg hlt]) ⟨h, fun ht => ?_⟩
    have := hfresh ht
    omega

end Turn

/-! ## 6. The lines -/

/-- Lines of words that come from the words `ws`. -/
structure Wrapped (width : ℕ) (ws : List Bytes) (lines : List Bytes) : Prop where
  line : ∀ line ∈ lines, line ≠ [] ∧ line.length ≤ width
  pieces : Pieces width ws (lines.flatMap words)

/-- **The invariant of the loop over the lines.** -/
structure Wrapping.Good (width : ℕ) (ws : List Bytes) (w : Wrapping) : Prop where
  left : ∀ v ∈ w.exploded.drop w.i, IsWord v
  line : ∀ line ∈ w.res.lines, line ≠ [] ∧ line.length ≤ width
  pieces : ∀ ps, Pieces width (w.exploded.drop w.i) ps →
    Pieces width ws (w.res.lines.flatMap words ++ ps)

/-- What the filled line adds. -/
theorem Wrapping.Good.next {width : ℕ} {ws : List Bytes} {w : Wrapping} {f : Filling}
    (h : w.Good width ws) (hf : Filled width (w.exploded.drop w.i) f) (ht : f.t ≠ []) :
    Wrapping.Good width ws ⟨f.exploded, f.i, w.res.insert width (concat f.t)⟩ := by
  have hlength := length_concat ht
  have hlen := hf.len
  have hle := hf.le
  refine ⟨hf.left, fun line hline => ?_, fun ps hps => ?_⟩
  · rcases List.mem_append.mp hline with hline | hline
    · exact h.line line hline
    · obtain rfl := List.mem_singleton.mp hline
      refine ⟨fun hnil => ht ?_, by omega⟩
      rw [← words_concat hf.taken, hnil]
      rfl
  · simp only [Res.insert, List.flatMap_append, List.flatMap_singleton, words_concat hf.taken,
      List.append_assoc]
    exact h.pieces _ (hf.pieces ps hps)

/-- **Both ways of filling the lines come to an end**, with lines as they should be. -/
theorem wrap_spec (input : Bytes) {width extra : ℕ} (hwidth : 1 ≤ width) (hextra : extra ≤ 1)
    {n : ℕ} (hn : characters (words input) < n) :
    ∃ res, wrap n input width extra = some res ∧ Wrapped width (words input) res.lines := by
  have hbegin : Wrapping.Good width (words input) ⟨words input, 0, ⟨[], 0, 0⟩⟩ :=
    ⟨fun _ hv => isWord_of_mem_words hv, fun _ hline => absurd hline List.not_mem_nil,
      fun _ hps => hps⟩
  let inv : Wrapping → Prop := fun w =>
    w.Good width (words input) ∧ characters (w.exploded.drop w.i) < n
  refine @loop_total _ _ _ inv _ (fun w => characters (w.exploded.drop w.i)) ?_ n _ ⟨hbegin, hn⟩ hn
  rintro w ⟨hw, hlt⟩
  by_cases hi : w.i < w.exploded.length
  · have hws : w.exploded.drop w.i ≠ [] := by
      rw [ne_eq, List.drop_eq_nil_iff]
      omega
    obtain ⟨f, hloop, hf, ht⟩ := loop_total (fun f : Filling => characters f.rest)
      (fun f hf => fillTurn_ends hwidth hextra hws hf) n _ (Filled.begin hw.left) hlt
    have hfewer := hf.fewer ht
    have hturn : lineTurn n width extra w =
        some (.again ⟨f.exploded, f.i, w.res.insert width (concat f.t)⟩) := by
      simp only [lineTurn, if_pos hi, hloop, Option.map_some]
    exact .again hturn ⟨⟨hw.next hf ht, Nat.lt_trans hfewer hlt⟩, hfewer⟩
  · refine .done (by simp only [lineTurn, if_neg hi]) ⟨hw.line, ?_⟩
    have hnil : w.exploded.drop w.i = [] := List.drop_eq_nil_of_le (by omega)
    simpa using hw.pieces [] (by rw [hnil]; exact .nil)

/-! ## 7. `WordWrap` -/

theorem choose_mem (better : Res → Res → Prop) [DecidableRel better] (first second : Res) :
    (choose better first [second]).1 ∈ [first, second] := by
  simp only [choose, List.foldl_cons, List.foldl_nil]
  split <;> simp

theorem select_mem (first second : Res) : select first [second] ∈ [first, second] := by
  simp only [select]
  split
  · exact choose_mem _ first second
  · split
    · exact choose_mem _ first second
    · exact choose_mem _ first second

theorem wrap_mono {n m : ℕ} (hnm : n ≤ m) {input : Bytes} {width extra : ℕ} {res : Res}
    (h : wrap n input width extra = some res) : wrap m input width extra = some res := by
  refine loop_mono (fun w t ht => ?_) hnm h
  simp only [lineTurn] at ht ⊢
  split at ht
  · rename_i hi
    obtain ⟨f, hf, rfl⟩ := Option.map_eq_some_iff.mp ht
    rw [if_pos hi, loop_mono (fun _ _ h => h) hnm hf]
    rfl
  · rename_i hi
    rw [if_neg hi, ht]

/-- **`WordWrap` comes to an end**, whatever the text and the width.  No line is empty or longer
than the width, nothing but white space is lost or added, and only words that are longer than a
line are cut. -/
theorem wordWrap_spec (input : Bytes) (width : ℕ) (hwidth : 1 ≤ width) :
    ∃ lines, (∃ n, ∀ m, n ≤ m → wordWrap m input width = some lines) ∧
      (∀ line ∈ lines, line ≠ [] ∧ line.length ≤ width) ∧
      lines.flatten.filter (!isSpace ·) = input.filter (!isSpace ·) ∧
      Pieces width (words input) (lines.flatMap words) ∧
      ∀ w ∈ words input, w.length ≤ width → w ∈ lines.flatMap words := by
  have hlt := Nat.lt_succ_self (characters (words input))
  obtain ⟨first, hfirst, hone⟩ := wrap_spec input hwidth (Nat.zero_le 1) hlt
  obtain ⟨second, hsecond, htwo⟩ := wrap_spec input hwidth (Nat.le_refl 1) hlt
  have hwrapped : Wrapped width (words input) (select first [second]).lines := by
    have hmem := select_mem first second
    rw [List.mem_pair] at hmem
    rcases hmem with h | h <;> rw [h] <;> assumption
  refine ⟨(select first [second]).lines, ⟨characters (words input) + 1, fun m hm => ?_⟩,
    hwrapped.line, ?_, hwrapped.pieces, fun w => hwrapped.pieces.mem_of_length_le⟩
  · simp only [wordWrap, wrap_mono hm hfirst, wrap_mono hm hsecond]
    rfl
  · have hwords : ∀ lines : List Bytes,
        (lines.flatMap words).flatten = lines.flatten.filter (!isSpace ·) := by
      intro lines
      induction lines with
      | nil => rfl
      | cons line lines ih => simp [flatten_words, ih]
    rw [← hwords, hwrapped.pieces.flatten_eq, flatten_words]

theorem wordWrap_spec_example :
    ∃ lines, (∃ n, ∀ m, n ≤ m → wordWrap m (bytes " abc de  fghijkl m") 5 = some lines) ∧
      (∀ line ∈ lines, line ≠ [] ∧ line.length ≤ 5) ∧
      lines.flatten.filter (!isSpace ·) = (bytes " abc de  fghijkl m").filter (!isSpace ·) ∧
      Pieces 5 (words (bytes " abc de  fghijkl m")) (lines.flatMap words) ∧
      ∀ w ∈ words (bytes " abc de  fghijkl m"), w.length ≤ 5 → w ∈ lines.flatMap words :=
  wordWrap_spec _ 5 (by decide)

example : wordWrap 99 (bytes " abc de  fghijkl m") 5 =
    some [bytes "abc", bytes "de", bytes "fghij", bytes "kl m"] := by
  decide

end HungerGames.LoadOut
