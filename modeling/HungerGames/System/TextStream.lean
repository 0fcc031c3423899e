/-
# Streams of text

An input stream over a string, as `std::istringstream`: what is left of the string, and the two
bits that say that its end was met or that a read failed.  A stream with neither is good; nothing
can be read from another.  A `Reader` is a program that reads, and may end with an error.

Numbers are read in three steps: white space is skipped, the longest text that looks like a
number is taken, and the number it stands for must fit.  The text taken is a `Numeral`, and the
rules say how the string is taken apart by each read from a good stream.
-/
import Mathlib.Data.List.Basic
import Mathlib.Data.List.TakeWhile
import Mathlib.Algebra.Order.Ring.Int

namespace HungerGames.System

/-! ## 1. Streams and readers -/

/-- The characters of a literal. -/
def ascii (s : String) : List UInt8 := s.toList.map fun c => c.toNat.toUInt8

structure TextStream where
  rest : List UInt8
  eofbit : Bool
  failbit : Bool
  deriving DecidableEq, Repr

namespace TextStream

def good (s : TextStream) : Bool := !s.eofbit && !s.failbit

/-- A good stream. -/
def on (xs : List UInt8) : TextStream := ⟨xs, false, false⟩

/-- A read from a stream that is not good fails. -/
def fail (s : TextStream) : TextStream := { s with failbit := true }

end TextStream

abbrev Reader (ε α : Type) : Type := StateT TextStream (Except ε) α

namespace Reader

open TextStream

variable {ε α β : Type}

/-- A reader that does something first. -/
theorem bind_ok {x : Reader ε α} {f : α → Reader ε β} {s : TextStream} {r : β × TextStream} :
    (x >>= f) s = .ok r ↔ ∃ a s', x s = .ok (a, s') ∧ f a s' = .ok r := by
  change (x s >>= fun p => f p.1 p.2) = .ok r ↔ _
  cases hx : x s with
  | error e =>
    constructor
    · nofun
    · rintro ⟨a, s', heq, -⟩
      cases heq
  | ok p =>
    constructor
    · intro h
      exact ⟨p.1, p.2, rfl, h⟩
    · rintro ⟨a, s', heq, h⟩
      obtain rfl := Except.ok.inj heq
      exact h

theorem pure_ok {a : α} {s : TextStream} {r : α × TextStream} :
    (pure a : Reader ε α) s = .ok r ↔ r = (a, s) := by
  change Except.ok (a, s) = .ok r ↔ _
  rw [Except.ok.injEq]
  exact eq_comm

/-- The condition is met, or reading ends with the error. -/
def require (e : ε) (p : Prop) [Decidable p] : Reader ε Unit := fun s =>
  if p then .ok ((), s) else .error e

theorem require_ok {e : ε} {p : Prop} [Decidable p] {s s' : TextStream} {u : Unit} :
    require e p s = .ok (u, s') ↔ p ∧ s' = s := by
  unfold require
  split
  · rename_i h
    rw [Except.ok.injEq, Prod.mk.injEq]
    exact ⟨fun heq => ⟨h, heq.2.symm⟩, fun heq => ⟨rfl, heq.2.symm⟩⟩
  · rename_i h
    exact ⟨nofun, fun heq => absurd heq.1 h⟩

/-- The value that is there, or reading ends with the error. -/
def the (e : ε) (a : Option α) : Reader ε α := fun s =>
  match a with
  | some a => .ok (a, s)
  | none => .error e

theorem the_ok {e : ε} {a : Option α} {s s' : TextStream} {b : α} :
    the e a s = .ok (b, s') ↔ a = some b ∧ s' = s := by
  unfold the
  cases a with
  | none => exact ⟨nofun, nofun⟩
  | some a =>
    rw [Except.ok.injEq, Prod.mk.injEq, Option.some.injEq]
    exact and_congr_right fun _ => eq_comm

/-! ## 2. Single characters -/

def isEof : Reader ε Bool := fun s => .ok (s.eofbit, s)

/-- `get` -/
def getChar : Reader ε (Option UInt8) := fun s =>
  if s.good then
    match s.rest with
    | [] => .ok (none, ⟨[], true, true⟩)
    | c :: cs => .ok (some c, { s with rest := cs })
  else .ok (none, s.fail)

/-- `peek` -/
def peek : Reader ε (Option UInt8) := fun s =>
  if s.good then
    match s.rest with
    | [] => .ok (none, { s with eofbit := true })
    | c :: _ => .ok (some c, s)
  else .ok (none, s.fail)

/-- White space, in the locale of the language. -/
def isSpace (c : UInt8) : Bool := c == 32 || (9 ≤ c && c ≤ 13)

/-- `>>` to a character: the first one that is not white space. -/
def readChar : Reader ε (Option UInt8) := fun s =>
  if s.good then
    match s.rest.dropWhile isSpace with
    | [] => .ok (none, ⟨[], true, true⟩)
    | c :: cs => .ok (some c, { s with rest := cs })
  else .ok (none, s.fail)

/-- `ignore`: up to a number of characters are left out, a delimiter being the last. -/
def ignoreIn (delim : UInt8) : ℕ → List UInt8 → List UInt8 × Bool
  | 0, xs => (xs, false)
  | _ + 1, [] => ([], true)
  | n + 1, c :: cs => if c = delim then (cs, false) else ignoreIn delim n cs

def ignore (n : ℕ) (delim : UInt8) : Reader ε Unit := fun s =>
  if s.good then
    let left := ignoreIn delim n s.rest
    .ok ((), { s with rest := left.1, eofbit := left.2 })
  else .ok ((), s.fail)

/-- `getline` to a buffer: the characters before the delimiter, which is left out.  It fails when
the buffer is full, or nothing is there. -/
def getlineIn (delim : UInt8) : ℕ → List UInt8 → List UInt8 × TextStream
  | _, [] => ([], ⟨[], true, false⟩)
  | 0, c :: cs => if c = delim then ([], on cs) else ([], ⟨c :: cs, false, true⟩)
  | n + 1, c :: cs =>
    if c = delim then ([], on cs)
    else
      let line := getlineIn delim n cs
      (c :: line.1, line.2)

def getline (size : ℕ) (delim : UInt8) : Reader ε (List UInt8) := fun s =>
  if s.good then
    let line := getlineIn delim (size - 1) s.rest
    .ok (line.1, if s.rest.isEmpty then ⟨[], true, true⟩ else line.2)
  else .ok ([], s.fail)

end Reader

/-! ## 3. Numerals -/

/-- The value of a digit, which may be a letter in base 16. -/
def digitValue (base : ℕ) (c : UInt8) : Option ℕ :=
  if 48 ≤ c ∧ c ≤ 57 then some (c.toNat - 48)
  else if base = 16 ∧ 97 ≤ c ∧ c ≤ 102 then some (c.toNat - 87)
  else if base = 16 ∧ 65 ≤ c ∧ c ≤ 70 then some (c.toNat - 55)
  else none

def isDigit (base : ℕ) (c : UInt8) : Bool := (digitValue base c).isSome

def digitsValue (base : ℕ) (digits : List UInt8) : ℕ :=
  digits.foldl (fun n c => base * n + (digitValue base c).getD 0) 0

/-- The text of a number: white space, a sign, the `0x` of a number in base 16, and the digits. -/
structure Numeral where
  blanks : List UInt8
  sign : List UInt8
  mark : List UInt8
  digits : List UInt8
  deriving DecidableEq, Repr

namespace Numeral

def bytes (n : Numeral) : List UInt8 := n.blanks ++ n.sign ++ n.mark ++ n.digits

def negative (n : Numeral) : Bool := n.sign = [45]

def abs (base : ℕ) (n : Numeral) : ℕ := digitsValue base n.digits

/-- The number in 32 bits without a sign; a negative one is taken from 2^32. -/
def toUInt32 (base : ℕ) (n : Numeral) : Option ℕ :=
  if n.abs base < 2 ^ 32 then
    some (if n.negative then (2 ^ 32 - n.abs base) % 2 ^ 32 else n.abs base)
  else none

/-- The number in 32 bits with a sign. -/
def toInt32 (base : ℕ) (n : Numeral) : Option ℤ :=
  if n.negative then if n.abs base ≤ 2 ^ 31 then some (-(n.abs base : ℤ)) else none
  else if n.abs base < 2 ^ 31 then some (n.abs base) else none

/-- What a numeral is made of. -/
structure Valid (base : ℕ) (n : Numeral) : Prop where
  blanks : ∀ c ∈ n.blanks, Reader.isSpace c = true
  sign : n.sign = [] ∨ n.sign = [43] ∨ n.sign = [45]
  mark : n.mark = [] ∨ base = 16 ∧ (n.mark = [48, 120] ∨ n.mark = [48, 88])
  digits : ∀ c ∈ n.digits, isDigit base c = true
  some : n.digits ≠ []

/-- **A plain numeral**: digits, and perhaps a minus. -/
structure Plain (n : Numeral) : Prop where
  blanks : n.blanks = []
  sign : n.sign ≠ [43]
  mark : n.mark = []

end Numeral

/-- The sign in front. -/
def takeSign : List UInt8 → List UInt8 × List UInt8
  | 43 :: cs => ([43], cs)
  | 45 :: cs => ([45], cs)
  | cs => ([], cs)

/-- The `0x` in front. -/
def takeMark (base : ℕ) : List UInt8 → List UInt8 × List UInt8
  | 48 :: 120 :: cs => if base = 16 then ([48, 120], cs) else ([], 48 :: 120 :: cs)
  | 48 :: 88 :: cs => if base = 16 then ([48, 88], cs) else ([], 48 :: 88 :: cs)
  | cs => ([], cs)

/-- The numeral in front, and what comes after it. -/
def takeNumeral (base : ℕ) (xs : List UInt8) : Numeral × List UInt8 :=
  let sign := takeSign (xs.dropWhile Reader.isSpace)
  let mark := takeMark base sign.2
  (⟨xs.takeWhile Reader.isSpace, sign.1, mark.1, mark.2.takeWhile (isDigit base)⟩,
    mark.2.dropWhile (isDigit base))

theorem takeSign_spec (xs : List UInt8) : (takeSign xs).1 ++ (takeSign xs).2 = xs ∧
    ((takeSign xs).1 = [] ∨ (takeSign xs).1 = [43] ∨ (takeSign xs).1 = [45]) := by
  unfold takeSign
  split
  · exact ⟨rfl, Or.inr (Or.inl rfl)⟩
  · exact ⟨rfl, Or.inr (Or.inr rfl)⟩
  · exact ⟨rfl, Or.inl rfl⟩

theorem takeMark_spec (base : ℕ) (xs : List UInt8) :
    (takeMark base xs).1 ++ (takeMark base xs).2 = xs ∧ ((takeMark base xs).1 = [] ∨
      base = 16 ∧ ((takeMark base xs).1 = [48, 120] ∨ (takeMark base xs).1 = [48, 88])) := by
  unfold takeMark
  split
  · split
    · rename_i hbase
      exact ⟨rfl, Or.inr ⟨hbase, Or.inl rfl⟩⟩
    · exact ⟨rfl, Or.inl rfl⟩
  · split
    · rename_i hbase
      exact ⟨rfl, Or.inr ⟨hbase, Or.inr rfl⟩⟩
    · exact ⟨rfl, Or.inl rfl⟩
  · exact ⟨rfl, Or.inl rfl⟩

/-- **The numeral in front is one**, and no digit comes after it. -/
theorem takeNumeral_spec (base : ℕ) (xs : List UInt8) :
    (takeNumeral base xs).1.bytes ++ (takeNumeral base xs).2 = xs ∧
      ((takeNumeral base xs).1.digits ≠ [] → (takeNumeral base xs).1.Valid base) := by
  have hsign := takeSign_spec (xs.dropWhile Reader.isSpace)
  have hmark := takeMark_spec base (takeSign (xs.dropWhile Reader.isSpace)).2
  unfold takeNumeral Numeral.bytes
  refine ⟨?_, fun hsome => ⟨fun c hc => List.mem_takeWhile_imp hc, hsign.2, hmark.2,
    fun c hc => List.mem_takeWhile_imp hc, hsome⟩⟩
  rw [List.append_assoc, List.takeWhile_append_dropWhile, List.append_assoc, hmark.1,
    List.append_assoc, hsign.1, List.takeWhile_append_dropWhile]

namespace Reader

open TextStream

/-- `>>` to a number.  It fails when there is none or it does not fit. -/
def extract {ε α : Type} (base : ℕ) (convert : Numeral → Option α) : Reader ε (Option α) := fun s =>
  if s.good then
    let taken := takeNumeral base s.rest
    if taken.1.digits = [] then .ok (none, ⟨taken.2, taken.2.isEmpty, true⟩)
    else
      let value := convert taken.1
      .ok (value, ⟨taken.2, taken.2.isEmpty, value.isNone⟩)
  else .ok (none, s.fail)

/-! ## 4. Reads that succeed -/

variable {ε α : Type} {s s' : TextStream}

theorem good_on (xs : List UInt8) : (on xs).good = true := rfl

theorem good_iff : s.good = true ↔ s = on s.rest := by
  obtain ⟨rest, eofbit, failbit⟩ := s
  cases eofbit with
  | true => exact ⟨nofun, nofun⟩
  | false =>
    cases failbit with
    | true => exact ⟨nofun, nofun⟩
    | false => exact ⟨fun _ => rfl, fun _ => rfl⟩

/-- What is read from a stream that is not good is the last argument. -/
theorem of_good {x : TextStream → Except ε (α × TextStream)} {a : α} {r : α × TextStream}
    (h : (if s.good then x s else .ok (a, s.fail)) = .ok r) :
    (∃ xs, s = on xs ∧ x (on xs) = .ok r) ∨ s.good = false ∧ r = (a, s.fail) := by
  by_cases hgood : s.good = true
  · rw [if_pos hgood] at h
    have hs := good_iff.mp hgood
    exact Or.inl ⟨s.rest, hs, hs ▸ h⟩
  · rw [if_neg hgood] at h
    exact Or.inr ⟨Bool.eq_false_iff.mpr hgood, (Except.ok.inj h).symm⟩

/-- A character is got from a good stream, and it was the first. -/
theorem getChar_some {c : UInt8} (h : getChar (ε := ε) s = .ok (some c, s')) :
    ∃ xs, s = on (c :: xs) ∧ s' = on xs := by
  rcases of_good (x := fun s => match s.rest with
    | [] => .ok (none, ⟨[], true, true⟩)
    | c :: cs => .ok (some c, { s with rest := cs })) h with ⟨xs, hs, h⟩ | ⟨-, h⟩
  · cases xs with
    | nil => cases h
    | cons x xs =>
      obtain ⟨hc, hs'⟩ := Prod.mk.inj (Except.ok.inj h)
      obtain rfl := Option.some.inj hc
      exact ⟨xs, hs, hs'.symm⟩
  · cases h

theorem peek_some {c : UInt8} (h : peek (ε := ε) s = .ok (some c, s')) :
    ∃ xs, s = on (c :: xs) ∧ s' = s := by
  rcases of_good (x := fun s => match s.rest with
    | [] => .ok (none, { s with eofbit := true })
    | c :: _ => .ok (some c, s)) h with ⟨xs, hs, h⟩ | ⟨-, h⟩
  · cases xs with
    | nil => cases h
    | cons x xs =>
      obtain ⟨hc, hs'⟩ := Prod.mk.inj (Except.ok.inj h)
      obtain rfl := Option.some.inj hc
      exact ⟨xs, hs, hs'.symm.trans hs.symm⟩
  · cases h

/-- A peek at a good stream. -/
theorem peek_on {xs : List UInt8} {c : Option UInt8} (h : peek (ε := ε) (on xs) = .ok (c, s')) :
    c = xs.head? ∧ s' = { on xs with eofbit := xs.isEmpty } := by
  cases xs with
  | nil =>
    obtain ⟨hc, hs⟩ := Prod.mk.inj (Except.ok.inj h)
    exact ⟨hc.symm, hs.symm⟩
  | cons x xs =>
    obtain ⟨hc, hs⟩ := Prod.mk.inj (Except.ok.inj h)
    exact ⟨hc.symm, hs.symm⟩

/-- A character is read after white space, or there is nothing else and the stream ends. -/
theorem readChar_on {xs : List UInt8} {c : Option UInt8}
    (h : readChar (ε := ε) (on xs) = .ok (c, s')) :
    ∃ blanks, (∀ x ∈ blanks, isSpace x = true) ∧
      ((∃ x ys, xs = blanks ++ x :: ys ∧ c = some x ∧ s' = on ys ∧ isSpace x = false) ∨
        xs = blanks ∧ c = none ∧ s' = ⟨[], true, true⟩) := by
  refine ⟨xs.takeWhile isSpace, fun x hx => List.mem_takeWhile_imp hx, ?_⟩
  have hsplit := List.takeWhile_append_dropWhile (p := isSpace) (l := xs)
  unfold readChar at h
  rw [if_pos (good_on xs)] at h
  change (match xs.dropWhile isSpace with
    | [] => (.ok (none, ⟨[], true, true⟩) : Except ε (Option UInt8 × TextStream))
    | c :: cs => .ok (some c, on cs)) = .ok (c, s') at h
  cases hdrop : xs.dropWhile isSpace with
  | nil =>
    rw [hdrop] at h hsplit
    obtain ⟨hc, hs⟩ := Prod.mk.inj (Except.ok.inj h)
    exact Or.inr ⟨(hsplit.symm.trans (List.append_nil _)), hc.symm, hs.symm⟩
  | cons x ys =>
    rw [hdrop] at h hsplit
    obtain ⟨hc, hs⟩ := Prod.mk.inj (Except.ok.inj h)
    have hx : isSpace x = false := by
      have hne : xs.dropWhile isSpace ≠ [] := by
        rw [hdrop]
        exact List.cons_ne_nil x ys
      have hhead := List.head_dropWhile_not isSpace hne
      simpa [hdrop] using hhead
    exact Or.inl ⟨x, ys, hsplit.symm, hc.symm, hs.symm, hx⟩

/-- What is left out. -/
theorem ignoreIn_spec (delim : UInt8) : ∀ (n : ℕ) (xs : List UInt8),
    ∃ text, delim ∉ text ∧
      (xs = text ++ delim :: (ignoreIn delim n xs).1 ∧ (ignoreIn delim n xs).2 = false ∨
        xs = text ++ (ignoreIn delim n xs).1 ∧ ((ignoreIn delim n xs).2 = false → text.length = n) ∧
          ((ignoreIn delim n xs).2 = true → (ignoreIn delim n xs).1 = []))
  | 0, xs => ⟨[], List.not_mem_nil, Or.inr ⟨rfl, fun _ => rfl, nofun⟩⟩
  | n + 1, [] => ⟨[], List.not_mem_nil, Or.inr ⟨rfl, nofun, fun _ => rfl⟩⟩
  | n + 1, c :: cs => by
    unfold ignoreIn
    by_cases hc : c = delim
    · rw [if_pos hc]
      exact ⟨[], List.not_mem_nil, Or.inl ⟨by rw [hc]; rfl, rfl⟩⟩
    · rw [if_neg hc]
      obtain ⟨text, hnot, hcases⟩ := ignoreIn_spec delim n cs
      refine ⟨c :: text, fun hmem => ?_, ?_⟩
      · rcases List.mem_cons.mp hmem with heq | hmem
        · exact hc heq.symm
        · exact hnot hmem
      · rcases hcases with ⟨heq, hend⟩ | ⟨heq, hlength, hend⟩
        · exact Or.inl ⟨congrArg (c :: ·) heq, hend⟩
        · exact Or.inr ⟨congrArg (c :: ·) heq, fun h => congrArg (· + 1) (hlength h), hend⟩

/-- A line that ends before its stream: the delimiter comes after it, or the buffer is full. -/
theorem getlineIn_spec (delim : UInt8) : ∀ (n : ℕ) (xs : List UInt8),
    (getlineIn delim n xs).2.eofbit = false →
    (∃ ys, xs = (getlineIn delim n xs).1 ++ delim :: ys ∧ (getlineIn delim n xs).2 = on ys ∧
      delim ∉ (getlineIn delim n xs).1) ∨ (getlineIn delim n xs).2.failbit = true
  | 0, [], h => nomatch h
  | _ + 1, [], h => nomatch h
  | 0, c :: cs, h => by
    unfold getlineIn
    by_cases hc : c = delim
    · rw [if_pos hc]
      exact Or.inl ⟨cs, by rw [hc]; rfl, rfl, List.not_mem_nil⟩
    · rw [if_neg hc]
      exact Or.inr rfl
  | n + 1, c :: cs, h => by
    rw [getlineIn] at h ⊢
    by_cases hc : c = delim
    · rw [if_pos hc]
      exact Or.inl ⟨cs, by rw [hc]; rfl, rfl, List.not_mem_nil⟩
    · rw [if_neg hc] at h ⊢
      rcases getlineIn_spec delim n cs h with ⟨ys, heq, hs, hnot⟩ | hfail
      · refine Or.inl ⟨ys, congrArg (c :: ·) heq, hs, fun hmem => ?_⟩
        rcases List.mem_cons.mp hmem with heq | hmem
        · exact hc heq.symm
        · exact hnot hmem
      · exact Or.inr hfail

/-- **A line is got** before the end of the stream. -/
theorem getline_ok {size : ℕ} {delim : UInt8} {line : List UInt8}
    (h : getline (ε := ε) size delim s = .ok (line, s')) (heof : s'.eofbit = false) :
    (∃ ys, s = on (line ++ delim :: ys) ∧ s' = on ys ∧ delim ∉ line) ∨ s'.failbit = true := by
  rcases of_good (x := fun s =>
    let line := getlineIn delim (size - 1) s.rest
    .ok (line.1, if s.rest.isEmpty then ⟨[], true, true⟩ else line.2)) h with ⟨xs, hs, h⟩ | ⟨-, h⟩
  · obtain ⟨hline, hs'⟩ := Prod.mk.inj (Except.ok.inj h)
    change (if xs.isEmpty then ⟨[], true, true⟩ else (getlineIn delim (size - 1) xs).2) = s' at hs'
    by_cases hempty : xs.isEmpty = true
    · rw [if_pos hempty] at hs'
      exact Or.inr (hs' ▸ rfl)
    · rw [if_neg hempty] at hs'
      subst hs'
      rcases getlineIn_spec delim (size - 1) xs heof with ⟨ys, heq, hend, hnot⟩ | hfail
      · exact Or.inl ⟨ys, hline ▸ hs.trans (congrArg on heq), hend, hline ▸ hnot⟩
      · exact Or.inr hfail
  · exact Or.inr ((Prod.mk.inj h).2 ▸ rfl)

/-- **A number is read** from a good stream, and was a numeral in front. -/
theorem extract_some {base : ℕ} {convert : Numeral → Option α} {v : α}
    (h : extract (ε := ε) base convert s = .ok (some v, s')) :
    ∃ n ys, s = on (n.bytes ++ ys) ∧ s' = ⟨ys, ys.isEmpty, false⟩ ∧ n.Valid base ∧
      convert n = some v := by
  unfold extract at h
  by_cases hgood : s.good = true
  · rw [if_pos hgood] at h
    obtain ⟨hbytes, hvalid⟩ := takeNumeral_spec base s.rest
    by_cases hdigits : (takeNumeral base s.rest).1.digits = []
    · rw [if_pos hdigits] at h
      cases h
    · rw [if_neg hdigits] at h
      obtain ⟨hv, hs'⟩ := Prod.mk.inj (Except.ok.inj h)
      rw [hv] at hs'
      refine ⟨_, _, ?_, hs'.symm, hvalid hdigits, hv⟩
      rw [hbytes]
      exact good_iff.mp hgood
  · rw [if_neg hgood] at h
    cases h

end Reader

end HungerGames.System
