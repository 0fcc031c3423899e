/-
# Loops

A loop is given by its turn: a turn either goes on from a state (`again`) or leaves the loop with
a result (`done`), and is `none` where something inside it, another loop say, was cut short.
`loop turn n` runs at most `n` turns.

`loop_total` is the rule for such a loop: an invariant that every turn keeps, and a number that
every turn which goes on lowers, so that the loop is left when there are enough turns.  More turns
than enough make no difference (`loop_mono`).
-/
import Mathlib.Data.Nat.Basic

namespace HungerGames.System

variable {σ α : Type}

/-- What a turn of a loop comes to. -/
inductive Turn (σ α : Type) where
  | again (s : σ)
  | done (a : α)

/-- The loop, of at most so many turns. -/
def loop (turn : σ → Option (Turn σ α)) : ℕ → σ → Option α
  | 0, _ => none
  | n + 1, s =>
    match turn s with
    | none => none
    | some (.done a) => some a
    | some (.again s') => loop turn n s'

/-- A turn from `s` is finished, and goes on with `next` or leaves the loop with `post`. -/
def Ends (turn : σ → Option (Turn σ α)) (next : σ → Prop) (post : α → Prop) (s : σ) : Prop :=
  (∃ s', turn s = some (.again s') ∧ next s') ∨ ∃ a, turn s = some (.done a) ∧ post a

variable {turn turn' : σ → Option (Turn σ α)}

theorem Ends.again {next : σ → Prop} {post : α → Prop} {s s' : σ}
    (h : turn s = some (.again s')) (hnext : next s') : Ends turn next post s :=
  Or.inl ⟨s', h, hnext⟩

theorem Ends.done {next : σ → Prop} {post : α → Prop} {s : σ} {a : α}
    (h : turn s = some (.done a)) (hpost : post a) : Ends turn next post s :=
  Or.inr ⟨a, h, hpost⟩

/-- **The rule of the loop.** -/
theorem loop_total {inv : σ → Prop} {post : α → Prop} (size : σ → ℕ)
    (hturn : ∀ s, inv s → Ends turn (fun s' => inv s' ∧ size s' < size s) post s) (n : ℕ) :
    ∀ s, inv s → size s < n → ∃ a, loop turn n s = some a ∧ post a := by
  induction n with
  | zero => exact fun _ _ h => absurd h (Nat.not_lt_zero _)
  | succ n ih =>
    intro s hs hsize
    rcases hturn s hs with ⟨s', h, hs', hlt⟩ | ⟨a, h, hpost⟩
    · simp only [loop, h]
      exact ih s' hs' (by omega)
    · simp only [loop, h]
      exact ⟨a, rfl, hpost⟩

/-- **More turns make no difference**, to the loop and to what is inside it. -/
theorem loop_mono (h : ∀ s t, turn s = some t → turn' s = some t) {n m : ℕ} (hnm : n ≤ m) :
    ∀ {s : σ} {a : α}, loop turn n s = some a → loop turn' m s = some a := by
  induction n generalizing m with
  | zero => exact fun h => nomatch h
  | succ n ih =>
    intro s a hloop
    obtain ⟨m, rfl⟩ : ∃ k, m = k + 1 := ⟨m - 1, by omega⟩
    simp only [loop] at hloop ⊢
    split at hloop
    · nomatch hloop
    · rename_i b hb
      rw [h s _ hb]
      exact hloop
    · rename_i s' hs'
      rw [h s _ hs']
      exact ih (by omega) hloop

end HungerGames.System
