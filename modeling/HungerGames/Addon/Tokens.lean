/-
# Tokens of a list message

The lists the server sends are words joined with `-`, and `scen_split` is the client's idea
of the inverse: it collects letters, digits and white space into the current field, starts a
new field at every `-`, and skips every other byte.  A field that stays empty is never
created, and the fields behind it move up.

So the words come back when each of them is a `Word` (`scenSplit_joined`), and nothing but
words ever comes back (`word_of_mem_scenSplit`).
-/
import HungerGames.Addon.Client

namespace HungerGames.Addon

open HungerGames.Lua

/-! ## 1. Words -/

/-- Not empty, and made of bytes `scen_split` keeps in a field. -/
def Word (w : Bytes) : Prop := w ≠ [] ∧ ∀ c ∈ w, (isAlnum c || isSpace c) = true

instance (w : Bytes) : Decidable (Word w) :=
  @instDecidableAnd (w ≠ []) _ inferInstance (List.decidableBAll _ w)

/-- `h-w1-w2-..` -/
def joined (h : Bytes) (ws : List Bytes) : Bytes := h ++ ws.flatMap fun w => dash :: w

theorem joined_append (h : Bytes) (ws vs : List Bytes) :
    joined h (ws ++ vs) = joined (joined h ws) vs := by
  simp [joined]

/-! ## 2. `scen_split` -/

theorem set_last (xs : List Bytes) (x y : Bytes) :
    (Table.ofList (xs ++ [x])).set (xs.length + 1) (some y) = Table.ofList (xs ++ [y]) := by
  rw [Table.set_succ, if_pos (by simp [Table.ofList])]
  simp [Table.ofList]

/-- The rest of a word goes to the end of the current field. -/
theorem foldl_scenStep_word (fs : List Bytes) : ∀ (v w : Bytes),
    (∀ c ∈ v, (isAlnum c || isSpace c) = true) →
    v.foldl scenStep (Table.ofList (fs ++ [w]), fs.length + 1)
      = (Table.ofList (fs ++ [w ++ v]), fs.length + 1)
  | [], w, _ => by simp
  | c :: v, w, hv => by
    have hc := hv c List.mem_cons_self
    have hdash : c ≠ dash := fun h => by
      rw [h] at hc
      exact absurd hc (by decide)
    have hget : (Table.ofList (fs ++ [w])).get (fs.length + 1) = some w := by
      rw [Table.get_ofList]
      simp
    have hstep : scenStep (Table.ofList (fs ++ [w]), fs.length + 1) c
        = (Table.ofList (fs ++ [w ++ [c]]), fs.length + 1) := by
      unfold scenStep
      rw [if_neg hdash, if_pos hc]
      simp only [hget, Option.getD_some, set_last]
    rw [List.foldl_cons, hstep, foldl_scenStep_word fs v _ fun d hd => hv d (List.mem_cons_of_mem c hd)]
    simp

/-- **A word** becomes the next field. -/
theorem foldl_scenStep_first (fs : List Bytes) {w : Bytes} (hw : Word w) :
    w.foldl scenStep (Table.ofList fs, fs.length + 1) = (Table.ofList (fs ++ [w]), fs.length + 1) := by
  obtain ⟨hne, hw⟩ := hw
  cases w with
  | nil => exact absurd rfl hne
  | cons c v =>
    have hc := hw c List.mem_cons_self
    have hdash : c ≠ dash := fun h => by
      rw [h] at hc
      exact absurd hc (by decide)
    have hget : (Table.ofList fs).get (fs.length + 1) = none := by
      rw [Table.get_ofList]
      simp
    have hstep : scenStep (Table.ofList fs, fs.length + 1) c
        = (Table.ofList (fs ++ [[c]]), fs.length + 1) := by
      unfold scenStep
      rw [if_neg hdash, if_pos hc]
      simp only [hget, Option.getD_none, List.nil_append, Table.set_ofList]
    rw [List.foldl_cons, hstep,
      foldl_scenStep_word fs v [c] fun d hd => hw d (List.mem_cons_of_mem c hd)]
    simp

/-- Words behind a dash each. -/
theorem foldl_scenStep_words : ∀ (ws fs : List Bytes), fs ≠ [] → (∀ w ∈ ws, Word w) →
    (ws.flatMap fun w => dash :: w).foldl scenStep (Table.ofList fs, fs.length)
      = (Table.ofList (fs ++ ws), (fs ++ ws).length)
  | [], fs, _, _ => by simp
  | w :: ws, fs, hfs, hws => by
    have hdash : scenStep (Table.ofList fs, fs.length) dash = (Table.ofList fs, fs.length + 1) :=
      if_pos rfl
    rw [List.flatMap_cons, List.cons_append, List.foldl_cons, hdash, List.foldl_append,
      foldl_scenStep_first fs (hws w List.mem_cons_self)]
    have ih := foldl_scenStep_words ws (fs ++ [w]) (by simp) fun v hv =>
      hws v (List.mem_cons_of_mem w hv)
    rw [List.length_append, List.length_singleton, List.append_assoc] at ih
    exact ih

/-- **Words joined with `-` come back.** -/
theorem scenSplit_joined (L : Layout) {h : Bytes} {ws : List Bytes} (hh : Word h)
    (hws : ∀ w ∈ ws, Word w) : scenSplit L (joined h ws) = h :: ws := by
  have hfirst : h.foldl scenStep (Table.empty, 1) = (Table.ofList [h], 1) :=
    foldl_scenStep_first [] hh
  have hrest := foldl_scenStep_words ws [h] (by simp) hws
  rw [List.length_singleton] at hrest
  unfold scenSplit joined
  rw [List.foldl_append, hfirst, hrest]
  exact Table.values_pairs_ofList L ([h] ++ ws)

/-- The fields are words at every moment. -/
theorem word_of_foldl_scenStep : ∀ (str : Bytes) (bc : Table Bytes × ℕ), bc.2 ≠ 0 →
    (∀ k w, bc.1.get k = some w → Word w) →
    ∀ k w, (str.foldl scenStep bc).1.get k = some w → Word w
  | [], _, _, h => h
  | a :: str, (b, c), hc, h => by
    refine word_of_foldl_scenStep str (scenStep (b, c) a) ?_ ?_
    · unfold scenStep
      split
      · exact Nat.succ_ne_zero c
      · split <;> exact hc
    · intro k w hk
      unfold scenStep at hk
      split at hk
      · exact h k w hk
      · split at hk
        · rename_i ha
          rw [Table.get_set b hc] at hk
          split at hk
          · rw [Option.some.injEq] at hk
            subst hk
            refine ⟨by simp, fun d hd => ?_⟩
            rcases List.mem_append.mp hd with hd | hd
            · cases hget : b.get c with
              | none => simp [hget] at hd
              | some v =>
                rw [hget, Option.getD_some] at hd
                exact (h c v hget).2 d hd
            · rw [List.mem_singleton.mp hd]
              exact ha
          · exact h k w hk
        · exact h k w hk

/-- **Nothing but words comes back.** -/
theorem word_of_mem_scenSplit {L : Layout} {str t : Bytes} (h : t ∈ scenSplit L str) : Word t := by
  obtain ⟨⟨k, w⟩, hkw, rfl⟩ := List.mem_map.mp h
  exact word_of_foldl_scenStep str (Table.empty, 1) Nat.one_ne_zero (by simp) k w
    (Table.mem_pairs.mp hkw)

/-! ## 3. Rows -/

/-- The rows of the list of games: pairs of a status and a name. -/
def gameRows (ps : List (Bytes × Bytes)) : List Entry := ps.map fun p => ⟨some p.2, some p.1⟩

/-- The rows of the list of members. -/
def playerRows (names : List Bytes) : List Entry :=
  names.map fun name => ⟨some name, some (bytes "1")⟩

/-- The tokens of a list of pairs, behind the head of the message. -/
def pairTokens (ps : List (Bytes × Bytes)) : List Bytes := ps.flatMap fun p => [p.1, p.2]

theorem length_pairTokens (ps : List (Bytes × Bytes)) : (pairTokens ps).length = 2 * ps.length := by
  induction ps with
  | nil => rfl
  | cons p ps ih => simp only [pairTokens, List.flatMap_cons, List.length_append, List.length_cons,
      List.length_nil] at *; omega

theorem getElem?_pairTokens : ∀ (ps : List (Bytes × Bytes)) (j : ℕ),
    (pairTokens ps)[2 * j]? = (ps[j]?).map Prod.fst ∧
      (pairTokens ps)[2 * j + 1]? = (ps[j]?).map Prod.snd
  | [], j => by simp [pairTokens]
  | p :: ps, 0 => by simp [pairTokens]
  | p :: ps, j + 1 => by
    have hcons : pairTokens (p :: ps) = p.1 :: p.2 :: pairTokens ps := rfl
    have h1 : 2 * (j + 1) = 2 * j + 1 + 1 := by omega
    rw [hcons, h1]
    simpa using getElem?_pairTokens ps j

/-- A loop that fills the rows one after the other fills a list. -/
theorem foldl_rows (f : ℕ → Entry) : ∀ n,
    ((List.range n).map fun j => (f j, j + 1)).foldl (fun rows r => rows.set r.2 (some r.1))
      Table.empty = Table.ofList ((List.range n).map f)
  | 0 => rfl
  | n + 1 => by
    rw [List.range_succ, List.map_append, List.foldl_append, foldl_rows f n]
    have hset := Table.set_ofList ((List.range n).map f) (f n)
    rw [List.length_map, List.length_range] at hset
    simpa using hset

theorem zipIdx_map_range {α : Type} (f : ℕ → α) (n k : ℕ) :
    ((List.range n).map f).zipIdx k = (List.range n).map fun j => (f j, k + j) := by
  refine List.ext_getElem (by simp) fun j h1 h2 => ?_
  simp

/-- **The pairing loop** turns the tokens of a list of pairs into its rows. -/
theorem pairGames_pairTokens (h : Bytes) (ps : List (Bytes × Bytes)) :
    pairGames (h :: pairTokens ps) Table.empty = Table.ofList (gameRows ps) := by
  have hlen : (h :: pairTokens ps).length = 2 * ps.length + 1 := by
    rw [List.length_cons, length_pairTokens]
  have hrange : forRange 2 (2 * ps.length + 1) 2 = (List.range ps.length).map (2 + 2 * ·) := by
    unfold forRange
    split
    · have hn : (2 * ps.length + 1 - 2) / 2 + 1 = ps.length := by omega
      rw [hn]
    · have hn : ps.length = 0 := by omega
      rw [hn]
      rfl
  have hrow : (List.range ps.length).map (fun j =>
      (⟨(h :: pairTokens ps)[2 + 2 * j]?, (h :: pairTokens ps)[2 + 2 * j - 1]?⟩ : Entry))
      = gameRows ps := by
    refine List.ext_getElem (by simp [gameRows]) fun j h1 h2 => ?_
    have hj : j < ps.length := by simpa [gameRows] using h2
    obtain ⟨hfst, hsnd⟩ := getElem?_pairTokens ps j
    have hi : 2 + 2 * j = 2 * j + 1 + 1 := by omega
    simp only [List.getElem_map, List.getElem_range, gameRows, hi, Nat.add_sub_cancel,
      List.getElem?_cons_succ, hfst, hsnd, List.getElem?_eq_getElem hj, Option.map_some]
  have hfold := foldl_rows (fun j =>
    ⟨(h :: pairTokens ps)[2 + 2 * j]?, (h :: pairTokens ps)[2 + 2 * j - 1]?⟩) ps.length
  rw [List.foldl_map, hrow] at hfold
  unfold pairGames
  rw [hlen, hrange, zipIdx_map_range, List.foldl_map]
  simpa only [Nat.add_comm 1] using hfold

/-- **The loop of the member list** turns the names into its rows. -/
theorem listPlayers_cons (h : Bytes) (names : List Bytes) :
    listPlayers (h :: names) Table.empty = Table.ofList (playerRows names) := by
  have hrange : forRange 2 (h :: names).length 1 = (List.range names.length).map (2 + 1 * ·) := by
    unfold forRange
    rw [List.length_cons]
    split
    · have hn : (names.length + 1 - 2) / 1 + 1 = names.length := by omega
      rw [hn]
    · have hn : names.length = 0 := by omega
      rw [hn]
      rfl
  have hrow : (List.range names.length).map (fun j =>
      (⟨(h :: names)[2 + 1 * j - 1]?, some (bytes "1")⟩ : Entry)) = playerRows names := by
    refine List.ext_getElem (by simp [playerRows]) fun j h1 h2 => ?_
    have hj : j < names.length := by simpa [playerRows] using h2
    have hi : 2 + 1 * j - 1 = j + 1 := by omega
    simp only [List.getElem_map, List.getElem_range, playerRows, hi, List.getElem?_cons_succ,
      List.getElem?_eq_getElem hj]
  have hfold := foldl_rows (fun j => ⟨(h :: names)[2 + 1 * j - 1]?, some (bytes "1")⟩)
    names.length
  rw [List.foldl_map, hrow] at hfold
  unfold listPlayers
  rw [hrange, List.foldl_map]
  have hpos : ∀ j, 2 + 1 * j - 1 = j + 1 := fun j => by omega
  simpa only [hpos] using hfold

/-- Every name in the rows is a token, whatever the tokens are. -/
def NamesIn (tokens : List Bytes) (rows : Table Entry) : Prop :=
  ∀ k r n, rows.get k = some r → r.name = some n → n ∈ tokens

theorem namesIn_foldl {tokens : List Bytes} {β : Type} {f : Table Entry → β → Table Entry}
    (hf : ∀ rows x, NamesIn tokens rows → NamesIn tokens (f rows x)) :
    ∀ (xs : List β) (rows : Table Entry), NamesIn tokens rows → NamesIn tokens (xs.foldl f rows)
  | [], _, h => h
  | x :: xs, rows, h => namesIn_foldl hf xs (f rows x) (hf rows x h)

theorem namesIn_set {tokens : List Bytes} {rows : Table Entry} {r : Entry} (k : ℕ)
    (h : NamesIn tokens rows) (hr : ∀ n, r.name = some n → n ∈ tokens) :
    NamesIn tokens (rows.set k (some r)) := by
  intro j r' n hj hn
  by_cases hk : k = 0
  · subst hk
    exact h j r' n hj hn
  · rw [Table.get_set rows hk] at hj
    split at hj
    · rw [Option.some.injEq] at hj
      exact hr n (hj ▸ hn)
    · exact h j r' n hj hn

theorem namesIn_empty (tokens : List Bytes) : NamesIn tokens Table.empty :=
  fun _ _ _ hk _ => absurd hk (by simp)

theorem namesIn_pairGames (tokens : List Bytes) : NamesIn tokens (pairGames tokens Table.empty) :=
  namesIn_foldl (fun _ _ h => namesIn_set _ h fun _ hn => List.mem_of_getElem? hn) _ _
    (namesIn_empty tokens)

theorem namesIn_listPlayers (tokens : List Bytes) :
    NamesIn tokens (listPlayers tokens Table.empty) :=
  namesIn_foldl (fun _ _ h => namesIn_set _ h fun _ hn => List.mem_of_getElem? hn) _ _
    (namesIn_empty tokens)

end HungerGames.Addon
