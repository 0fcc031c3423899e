/-
# What readers leave, and how they fail

Two things are worth knowing of a reader whatever it reads: that it never leaves more of the
stream than there was (`Shortens`), from which loops of readers end, and that it fails in one way
only (`OnlyFails`), so that another failure must come from elsewhere.  Both are put together from
the steps of the reader.
-/
import HungerGames.System.TextStream

namespace HungerGames.System.Reader

open TextStream

variable {ε α β : Type}

/-- **Nothing is put back**: no more is left than there was. -/
def Shortens (x : Reader ε α) : Prop :=
  ∀ s a s', x s = .ok (a, s') → s'.rest.length ≤ s.rest.length

/-- **It fails in one way** at most. -/
def OnlyFails (e : ε) (x : Reader ε α) : Prop := ∀ s e', x s = .error e' → e' = e

variable {f : α → Reader ε β} {x : Reader ε α}

/-- A reader that does something first fails at that, or afterwards. -/
theorem bind_error {s : TextStream} {e : ε} :
    (x >>= f) s = .error e ↔ x s = .error e ∨ ∃ a s', x s = .ok (a, s') ∧ f a s' = .error e := by
  change (x s >>= fun p => f p.1 p.2) = .error e ↔ _
  cases hx : x s with
  | error e' =>
    constructor
    · intro h
      have heq : e' = e := Except.error.inj h
      exact Or.inl (congrArg Except.error heq)
    · rintro (h | ⟨a, s', heq, -⟩)
      · exact congrArg Except.error (Except.error.inj h)
      · cases heq
  | ok p =>
    constructor
    · exact fun h => Or.inr ⟨p.1, p.2, rfl, h⟩
    · rintro (h | ⟨a, s', heq, h⟩)
      · cases h
      · obtain rfl := Except.ok.inj heq
        exact h

/-! ## 1. What is left -/

namespace Shortens

theorem bind (hx : Shortens x) (hf : ∀ a, Shortens (f a)) : Shortens (x >>= f) := by
  intro s b s' h
  obtain ⟨a, s₁, hxs, hfs⟩ := bind_ok.mp h
  exact (hf a s₁ b s' hfs).trans (hx s a s₁ hxs)

theorem pure (a : α) : Shortens (Pure.pure a : Reader ε α) := by
  intro s b s' h
  obtain ⟨-, rfl⟩ := Prod.mk.inj (pure_ok.mp h)
  exact le_rfl

theorem map {f : α → β} (hx : Shortens x) : Shortens (f <$> x) := by
  rw [map_eq_pure_bind]
  exact hx.bind fun a => pure (f a)

theorem require {e : ε} {p : Prop} [Decidable p] : Shortens (Reader.require e p) := by
  intro s u s' h
  rw [(require_ok.mp h).2]

theorem the {e : ε} {a : Option α} : Shortens (Reader.the e a) := by
  intro s b s' h
  rw [(the_ok.mp h).2]

theorem isEof : Shortens (Reader.isEof (ε := ε)) := by
  intro s b s' h
  obtain ⟨-, rfl⟩ := Prod.mk.inj (Except.ok.inj h)
  exact le_rfl

/-- A read from a stream that is not good leaves what there was. -/
theorem of_reads {x : TextStream → Except ε (α × TextStream)} {a₀ : α}
    (hx : ∀ xs a s', x (on xs) = .ok (a, s') → s'.rest.length ≤ xs.length) :
    Shortens (fun s => if s.good then x s else .ok (a₀, s.fail)) := by
  intro s a s' h
  rcases of_good h with ⟨xs, rfl, h⟩ | ⟨-, h⟩
  · exact hx xs a s' h
  · obtain ⟨-, rfl⟩ := Prod.mk.inj h
    exact le_rfl

theorem getChar : Shortens (Reader.getChar (ε := ε)) := by
  refine of_reads fun xs a s' h => ?_
  cases xs with
  | nil =>
    obtain ⟨-, rfl⟩ := Prod.mk.inj (Except.ok.inj h)
    exact le_rfl
  | cons c cs =>
    obtain ⟨-, rfl⟩ := Prod.mk.inj (Except.ok.inj h)
    exact Nat.le_succ _

theorem peek : Shortens (Reader.peek (ε := ε)) := by
  refine of_reads fun xs a s' h => ?_
  cases xs with
  | nil =>
    obtain ⟨-, rfl⟩ := Prod.mk.inj (Except.ok.inj h)
    exact le_rfl
  | cons c cs =>
    obtain ⟨-, rfl⟩ := Prod.mk.inj (Except.ok.inj h)
    exact le_rfl

theorem length_ignoreIn (delim : UInt8) : ∀ (n : ℕ) (xs : List UInt8),
    (ignoreIn delim n xs).1.length ≤ xs.length
  | 0, _ => le_rfl
  | _ + 1, [] => le_rfl
  | n + 1, c :: cs => by
    rw [ignoreIn]
    by_cases hc : c = delim
    · rw [if_pos hc]
      exact Nat.le_succ _
    · rw [if_neg hc]
      exact (length_ignoreIn delim n cs).trans (Nat.le_succ _)

theorem ignore {n : ℕ} {delim : UInt8} : Shortens (Reader.ignore (ε := ε) n delim) := by
  refine of_reads fun xs a s' h => ?_
  obtain ⟨-, rfl⟩ := Prod.mk.inj (Except.ok.inj h)
  exact length_ignoreIn delim n xs

theorem length_getlineIn (delim : UInt8) : ∀ (n : ℕ) (xs : List UInt8),
    (getlineIn delim n xs).2.rest.length ≤ xs.length
  | 0, [] => le_rfl
  | _ + 1, [] => le_rfl
  | 0, c :: cs => by
    rw [getlineIn]
    by_cases hc : c = delim
    · rw [if_pos hc]
      exact Nat.le_succ _
    · rw [if_neg hc]
  | n + 1, c :: cs => by
    rw [getlineIn]
    by_cases hc : c = delim
    · rw [if_pos hc]
      exact Nat.le_succ _
    · rw [if_neg hc]
      exact (length_getlineIn delim n cs).trans (Nat.le_succ _)

theorem getline {size : ℕ} {delim : UInt8} : Shortens (Reader.getline (ε := ε) size delim) := by
  refine of_reads fun xs a s' h => ?_
  obtain ⟨-, rfl⟩ := Prod.mk.inj (Except.ok.inj h)
  change (if xs.isEmpty then (⟨[], true, true⟩ : TextStream)
    else (getlineIn delim (size - 1) xs).2).rest.length ≤ xs.length
  by_cases hempty : xs.isEmpty = true
  · rw [if_pos hempty]
    exact Nat.zero_le _
  · rw [if_neg hempty]
    exact length_getlineIn delim (size - 1) xs

/-- A numeral is taken from the front. -/
theorem length_takeNumeral (base : ℕ) (xs : List UInt8) :
    (takeNumeral base xs).2.length ≤ xs.length := by
  have hbytes := congrArg List.length (takeNumeral_spec base xs).1
  rw [List.length_append] at hbytes
  omega

theorem extract {base : ℕ} {convert : Numeral → Option α} :
    Shortens (Reader.extract (ε := ε) base convert) := by
  refine of_reads fun xs a s' h => ?_
  change (if (takeNumeral base xs).1.digits = [] then
    .ok (none, ⟨(takeNumeral base xs).2, (takeNumeral base xs).2.isEmpty, true⟩)
    else .ok (convert (takeNumeral base xs).1, ⟨(takeNumeral base xs).2,
      (takeNumeral base xs).2.isEmpty, (convert (takeNumeral base xs).1).isNone⟩)) =
    Except.ok (a, s') at h
  by_cases hdigits : (takeNumeral base xs).1.digits = []
  · rw [if_pos hdigits] at h
    obtain ⟨-, rfl⟩ := Prod.mk.inj (Except.ok.inj h)
    exact length_takeNumeral base xs
  · rw [if_neg hdigits] at h
    obtain ⟨-, rfl⟩ := Prod.mk.inj (Except.ok.inj h)
    exact length_takeNumeral base xs

end Shortens

/-! ## 2. How it fails -/

namespace OnlyFails

variable {e : ε}

theorem bind (hx : OnlyFails e x) (hf : ∀ a, OnlyFails e (f a)) : OnlyFails e (x >>= f) := by
  intro s e' h
  rcases bind_error.mp h with h | ⟨a, s', -, h⟩
  · exact hx s e' h
  · exact hf a s' e' h

/-- A reader that never fails. -/
theorem of_ok (h : ∀ s, ∃ r, x s = .ok r) : OnlyFails e x := by
  intro s e' herror
  obtain ⟨r, hr⟩ := h s
  rw [hr] at herror
  cases herror

theorem pure (a : α) : OnlyFails e (Pure.pure a : Reader ε α) := of_ok fun s => ⟨(a, s), rfl⟩

theorem map {f : α → β} (hx : OnlyFails e x) : OnlyFails e (f <$> x) := by
  rw [map_eq_pure_bind]
  exact hx.bind fun a => pure (f a)

theorem require {p : Prop} [Decidable p] : OnlyFails e (Reader.require e p) := by
  intro s e' h
  unfold Reader.require at h
  by_cases hp : p
  · rw [if_pos hp] at h
    cases h
  · rw [if_neg hp] at h
    exact (Except.error.inj h).symm

theorem the {a : Option α} : OnlyFails e (Reader.the e a) := by
  intro s e' h
  cases a with
  | none => exact (Except.error.inj h).symm
  | some a => cases h

theorem isEof : OnlyFails e (Reader.isEof (ε := ε)) := of_ok fun s => ⟨(s.eofbit, s), rfl⟩

/-- Reading from a good stream succeeds, and from another as well. -/
theorem of_reads {x : TextStream → Except ε (α × TextStream)} {a₀ : α}
    (hx : ∀ xs, ∃ r, x (on xs) = .ok r) :
    OnlyFails e (fun s => if s.good then x s else .ok (a₀, s.fail)) := by
  refine of_ok fun s => ?_
  by_cases hgood : s.good = true
  · obtain ⟨r, hr⟩ := hx s.rest
    rw [← good_iff.mp hgood] at hr
    exact ⟨r, (if_pos hgood).trans hr⟩
  · exact ⟨_, if_neg hgood⟩

theorem getChar : OnlyFails e (Reader.getChar (ε := ε)) :=
  of_reads fun xs => by cases xs <;> exact ⟨_, rfl⟩

theorem peek : OnlyFails e (Reader.peek (ε := ε)) :=
  of_reads fun xs => by cases xs <;> exact ⟨_, rfl⟩

theorem readChar : OnlyFails e (Reader.readChar (ε := ε)) := by
  refine of_reads fun xs => ?_
  split
  · exact ⟨_, rfl⟩
  · exact ⟨_, rfl⟩

theorem ignore {n : ℕ} {delim : UInt8} : OnlyFails e (Reader.ignore (ε := ε) n delim) :=
  of_reads fun _ => ⟨_, rfl⟩

theorem getline {size : ℕ} {delim : UInt8} : OnlyFails e (Reader.getline (ε := ε) size delim) :=
  of_reads fun _ => ⟨_, rfl⟩

theorem extract {base : ℕ} {convert : Numeral → Option α} :
    OnlyFails e (Reader.extract (ε := ε) base convert) := by
  refine of_reads fun xs => ?_
  by_cases hdigits : (takeNumeral base xs).1.digits = []
  · exact ⟨_, if_pos hdigits⟩
  · exact ⟨_, if_neg hdigits⟩

end OnlyFails

/-! ## 3. Lines -/

theorem length_getlineIn (delim : UInt8) : ∀ (n : ℕ) (xs : List UInt8),
    (getlineIn delim n xs).1.length ≤ n
  | _, [] => by
    rw [getlineIn]
    exact Nat.zero_le _
  | 0, c :: cs => by
    rw [getlineIn]
    by_cases hc : c = delim
    · rw [if_pos hc]
      exact le_rfl
    · rw [if_neg hc]
      exact le_rfl
  | n + 1, c :: cs => by
    rw [getlineIn]
    by_cases hc : c = delim
    · rw [if_pos hc]
      exact Nat.zero_le _
    · rw [if_neg hc]
      exact Nat.succ_le_succ (length_getlineIn delim n cs)

/-- **A line and the character that ends it are no longer than the buffer.** -/
theorem length_getline {size : ℕ} {delim : UInt8} {s s' : TextStream} {line : List UInt8}
    (hsize : 0 < size) (h : getline (ε := ε) size delim s = .ok (line, s')) :
    line.length < size := by
  rcases of_good (x := fun s =>
    let line := getlineIn delim (size - 1) s.rest
    .ok (line.1, if s.rest.isEmpty then ⟨[], true, true⟩ else line.2)) h with ⟨xs, hs, h⟩ | ⟨-, h⟩
  · obtain ⟨rfl, -⟩ := Prod.mk.inj (Except.ok.inj h)
    have hle := length_getlineIn delim (size - 1) xs
    change (getlineIn delim (size - 1) xs).1.length < size
    omega
  · obtain ⟨rfl, -⟩ := Prod.mk.inj h
    exact hsize

end HungerGames.System.Reader
