/-
# Runs of a state machine

A component is a function `step : σ → ι → σ` from a state and an input to the next state; a
run feeds it a list of inputs.  `Along P` says that a condition on the state and the input
holds at every step of a run, and the two rules below are the only inductions on runs the
development needs: what every such step preserves holds in every state the run reaches, and
what every step of two runs keeps related stays related.
-/
import Mathlib.Data.List.Basic

namespace HungerGames.System

variable {σ ι : Type}

/-- The state after a run. -/
def exec (step : σ → ι → σ) : σ → List ι → σ
  | s, [] => s
  | s, i :: is => exec step (step s i) is

/-- `P` holds at every step of the run: of the state before the step and the input it takes. -/
def Along (step : σ → ι → σ) (P : σ → ι → Prop) : σ → List ι → Prop
  | _, [] => True
  | s, i :: is => P s i ∧ Along step P (step s i) is

instance decidableAlong (step : σ → ι → σ) (P : σ → ι → Prop) [∀ s i, Decidable (P s i)] :
    ∀ (s : σ) (is : List ι), Decidable (Along step P s is)
  | _, [] => isTrue trivial
  | s, i :: is =>
    have := decidableAlong step P (step s i) is
    inferInstanceAs (Decidable (P s i ∧ Along step P (step s i) is))

variable {step : σ → ι → σ}

@[simp] theorem exec_nil (s : σ) : exec step s [] = s := rfl

@[simp] theorem exec_cons (s : σ) (i : ι) (is : List ι) :
    exec step s (i :: is) = exec step (step s i) is := rfl

theorem exec_append : ∀ (s : σ) (is js : List ι),
    exec step s (is ++ js) = exec step (exec step s is) js
  | _, [], _ => rfl
  | s, i :: is, js => exec_append (step s i) is js

variable {P : σ → ι → Prop}

theorem along_append : ∀ {s : σ} {is js : List ι},
    Along step P s (is ++ js) ↔ Along step P s is ∧ Along step P (exec step s is) js
  | s, [], js => by simp [Along]
  | s, i :: is, js => by
    simp only [List.cons_append, Along, exec_cons, along_append, and_assoc]

/-- A condition that holds along a run holds at each of its steps. -/
theorem Along.at {s : σ} {is js : List ι} {i : ι} (h : Along step P s (is ++ i :: js)) :
    P (exec step s is) i :=
  (along_append.mp h).2.1

theorem Along.before {s : σ} {is js : List ι} (h : Along step P s (is ++ js)) :
    Along step P s is := (along_append.mp h).1

theorem along_of_forall (h : ∀ s i, P s i) : ∀ {s : σ} {is : List ι},
    Along step P s is
  | _, [] => trivial
  | s, i :: _ => ⟨h s i, along_of_forall h⟩

variable {Q : σ → ι → Prop}

theorem Along.mono (hPQ : ∀ s i, P s i → Q s i) :
    ∀ {s : σ} {is : List ι}, Along step P s is → Along step Q s is
  | _, [], _ => trivial
  | s, i :: _, h => ⟨hPQ s i h.1, Along.mono hPQ h.2⟩

variable {I : σ → Prop}

/-- **The invariant rule.**  `I` holds in every state of a run from a state with `I` whose
steps all meet `P`, when a step that meets `P` preserves `I`. -/
theorem exec_invariant (hstep : ∀ s i, I s → P s i → I (step s i)) :
    ∀ {s : σ} {is : List ι}, I s → Along step P s is → I (exec step s is)
  | _, [], hs, _ => hs
  | s, i :: is, hs, h => by
    rw [exec_cons]
    exact exec_invariant hstep (hstep s i hs h.1) h.2

/-- Along a run with an invariant, what holds of each step from it holds at every step. -/
theorem Along.of_invariant (hstep : ∀ s i, I s → P s i → I (step s i) ∧ Q s i) :
    ∀ {s : σ} {is : List ι}, I s → Along step P s is → Along step Q s is
  | _, [], _, _ => trivial
  | s, i :: _, hs, h =>
    have hboth := hstep s i hs h.1
    ⟨hboth.2, Along.of_invariant hstep hboth.1 h.2⟩

/-- The rule without a condition on the steps. -/
theorem exec_invariant_all (hstep : ∀ s i, I s → I (step s i)) :
    ∀ (s : σ) (is : List ι), I s → I (exec step s is)
  | _, [], hs => hs
  | s, i :: is, hs => exec_invariant_all hstep (step s i) is (hstep s i hs)

/-- The rule for a condition on the inputs alone. -/
theorem exec_invariant_of_mem {B : ι → Prop} (hstep : ∀ s i, B i → I s → I (step s i)) :
    ∀ {s : σ} {is : List ι}, (∀ i ∈ is, B i) → I s → I (exec step s is)
  | _, [], _, hs => hs
  | s, i :: is, hB, hs => by
    rw [exec_cons]
    exact exec_invariant_of_mem hstep (fun j hj => hB j (List.mem_cons_of_mem i hj))
      (hstep s i (hB i List.mem_cons_self) hs)

/-- **The rule for two conditions.**  Where `I` holds, `P` and `Q` say the same; what meets `P`
preserves `I`.  Then a run meets `P` all along exactly when it meets `Q` all along. -/
theorem along_congr {B : ι → Prop} (hstep : ∀ s i, B i → I s → P s i → I (step s i))
    (hiff : ∀ s i, B i → I s → (P s i ↔ Q s i)) :
    ∀ {s : σ} {is : List ι}, (∀ i ∈ is, B i) → I s → (Along step P s is ↔ Along step Q s is)
  | _, [], _, _ => Iff.rfl
  | s, i :: is, hB, hs => by
    have hi : B i := hB i List.mem_cons_self
    have hrest : ∀ j ∈ is, B j := fun j hj => hB j (List.mem_cons_of_mem i hj)
    rw [Along, Along, ← hiff s i hi hs]
    exact and_congr_right fun hP => along_congr hstep hiff hrest (hstep s i hi hs hP)

/-- What the run outputs, when each step of it outputs a list. -/
def outputs {ω : Type} (step : σ → ι → σ) (out : σ → ι → List ω) : σ → List ι → List ω
  | _, [] => []
  | s, i :: is => out s i ++ outputs step out (step s i) is

theorem outputs_append {ω : Type} (out : σ → ι → List ω) : ∀ (s : σ) (is js : List ι),
    outputs step out s (is ++ js) = outputs step out s is ++ outputs step out (exec step s is) js
  | _, [], _ => rfl
  | s, i :: is, js => by
    simp only [List.cons_append, outputs, exec_cons, outputs_append out (step s i) is js,
      List.append_assoc]

/-- **The two-run rule.**  Two runs on the same inputs, from related states, whose steps all
meet `P` on the left, stay related and output the same. -/
theorem outputs_eq_of_related {ω : Type} {out : σ → ι → List ω} {R : σ → σ → Prop}
    (hstep : ∀ s s' i, R s s' → P s i → R (step s i) (step s' i) ∧ out s i = out s' i) :
    ∀ {s s' : σ} {is : List ι}, R s s' → Along step P s is →
      outputs step out s is = outputs step out s' is
  | _, _, [], _, _ => rfl
  | s, s', i :: is, hR, h => by
    obtain ⟨hR', hout⟩ := hstep s s' i hR h.1
    have ih := outputs_eq_of_related hstep hR' h.2
    simp only [outputs, hout, ih]

end HungerGames.System
