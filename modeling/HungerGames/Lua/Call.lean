/-
# Protected calls

The engine runs every handler of a script through `lua_pcall` (`Eluna::ExecuteCall`): when the
handler raises an error the call ends there, the error is logged, and everything the handler
did before stays done.  `Outcome` is what such a call leaves behind: the state, what was sent,
and the error if there was one.  `bind` sequences two calls, `forEach` is a `for` loop whose
first error ends it.

The module knows nothing about the scripts: the state, the messages and the errors are
parameters.
-/
import Mathlib.Data.List.Nodup

namespace HungerGames.Lua

/-- What a protected call leaves behind. -/
structure Outcome (σ ω ε : Type) where
  state : σ
  sent : List ω
  error : Option ε

namespace Outcome

variable {σ ω ε α : Type}

/-! ## 1. Sequencing -/

/-- A call that does nothing but move to a state. -/
def ok (s : σ) : Outcome σ ω ε := ⟨s, [], none⟩

/-- A call that sends. -/
def send (ws : List ω) (s : σ) : Outcome σ ω ε := ⟨s, ws, none⟩

/-- A call that raises. -/
def raise (e : ε) (s : σ) : Outcome σ ω ε := ⟨s, [], some e⟩

/-- Run `f` after `o`, unless `o` raised. -/
def bind (o : Outcome σ ω ε) (f : σ → Outcome σ ω ε) : Outcome σ ω ε :=
  match o.error with
  | some _ => o
  | none => ⟨(f o.state).state, o.sent ++ (f o.state).sent, (f o.state).error⟩

/-- A `for` loop. -/
def forEach (f : α → σ → Outcome σ ω ε) : List α → σ → Outcome σ ω ε
  | [], s => ok s
  | x :: xs, s => (f x s).bind (forEach f xs)

/-- Forget a part of the state: the locals of a function go out of scope when it returns. -/
def mapState {τ : Type} (g : σ → τ) (o : Outcome σ ω ε) : Outcome τ ω ε :=
  ⟨g o.state, o.sent, o.error⟩

@[simp] theorem ok_state (s : σ) : (ok s : Outcome σ ω ε).state = s := rfl
@[simp] theorem ok_sent (s : σ) : (ok s : Outcome σ ω ε).sent = [] := rfl
@[simp] theorem ok_error (s : σ) : (ok s : Outcome σ ω ε).error = none := rfl
@[simp] theorem send_state (ws : List ω) (s : σ) : (send ws s : Outcome σ ω ε).state = s := rfl
@[simp] theorem send_sent (ws : List ω) (s : σ) : (send ws s : Outcome σ ω ε).sent = ws := rfl
@[simp] theorem raise_sent (e : ε) (s : σ) : (raise e s : Outcome σ ω ε).sent = [] := rfl
@[simp] theorem mapState_state {τ : Type} (g : σ → τ) (o : Outcome σ ω ε) :
    (o.mapState g).state = g o.state := rfl
@[simp] theorem mapState_error {τ : Type} (g : σ → τ) (o : Outcome σ ω ε) :
    (o.mapState g).error = o.error := rfl

variable {o : Outcome σ ω ε}

theorem bind_of_error {e : ε} (h : o.error = some e) (f : σ → Outcome σ ω ε) : o.bind f = o := by
  unfold bind
  rw [h]

theorem bind_of_ok (h : o.error = none) (f : σ → Outcome σ ω ε) :
    o.bind f = ⟨(f o.state).state, o.sent ++ (f o.state).sent, (f o.state).error⟩ := by
  unfold bind
  rw [h]

@[simp] theorem ok_bind (s : σ) (f : σ → Outcome σ ω ε) : (ok s).bind f = f s := by
  rw [bind_of_ok rfl]
  simp

@[simp] theorem forEach_nil (f : α → σ → Outcome σ ω ε) (s : σ) : forEach f [] s = ok s := rfl

theorem forEach_cons (f : α → σ → Outcome σ ω ε) (x : α) (xs : List α) (s : σ) :
    forEach f (x :: xs) s = (f x s).bind (forEach f xs) := rfl

/-! ## 2. Invariants

What holds of a state after a call is asked whether or not the call raised: the error does
not undo anything. -/

/-- After the call the state satisfies `I` and everything sent satisfies `W`. -/
def Leaves (I : σ → Prop) (W : ω → Prop) (o : Outcome σ ω ε) : Prop :=
  I o.state ∧ ∀ w ∈ o.sent, W w

variable {I : σ → Prop} {W : ω → Prop}

theorem Leaves.ok {s : σ} (h : I s) : Leaves I W (ok s : Outcome σ ω ε) :=
  ⟨h, fun _ hw => absurd hw (by simp)⟩

theorem Leaves.send {s : σ} {ws : List ω} (h : I s) (hw : ∀ w ∈ ws, W w) :
    Leaves I W (send ws s : Outcome σ ω ε) := ⟨h, hw⟩

theorem Leaves.raise {s : σ} {e : ε} (h : I s) : Leaves I W (raise e s : Outcome σ ω ε) :=
  ⟨h, fun _ hw => absurd hw (by simp)⟩

theorem Leaves.mapState {τ : Type} {g : σ → τ} {J : τ → Prop} (h : Leaves (fun s => J (g s)) W o) :
    Leaves J W (o.mapState g) := h

/-- The sequencing rule.  `J` is what holds between the two halves; it must imply `I`, for
the case that the first half raised. -/
theorem Leaves.bind {J : σ → Prop} {f : σ → Outcome σ ω ε} (ho : Leaves J W o)
    (hJI : J o.state → I o.state) (hf : J o.state → o.error = none → Leaves I W (f o.state)) :
    Leaves I W (o.bind f) := by
  cases h : o.error with
  | some e =>
    rw [bind_of_error h]
    exact ⟨hJI ho.1, ho.2⟩
  | none =>
    rw [bind_of_ok h]
    refine ⟨(hf ho.1 h).1, fun w hw => ?_⟩
    rcases List.mem_append.mp hw with hw | hw
    · exact ho.2 w hw
    · exact (hf ho.1 h).2 w hw

variable {J : List α → σ → Prop} {f : α → σ → Outcome σ ω ε}

/-- **The loop rule.**  `J` is the invariant of the loop; it may speak of the items that are
still to come.  An iteration that raises must leave `I`. -/
theorem Leaves.forEach_rest (hstep : ∀ x xs s, J (x :: xs) s → (∀ w ∈ (f x s).sent, W w) ∧
      ((f x s).error = none → J xs (f x s).state) ∧ ((f x s).error ≠ none → I (f x s).state))
    (hend : ∀ s, J [] s → I s) :
    ∀ {xs : List α} {s : σ}, J xs s → Leaves I W (Outcome.forEach f xs s)
  | [], s, hs => Leaves.ok (hend s hs)
  | x :: xs, s, hs => by
    obtain ⟨hW, hJ, hI⟩ := hstep x xs s hs
    rw [forEach_cons]
    cases he : (f x s).error with
    | some e =>
      rw [bind_of_error he]
      exact ⟨hI (by rw [he]; exact Option.some_ne_none e), hW⟩
    | none =>
      have ih := Leaves.forEach_rest hstep hend (hJ he)
      rw [bind_of_ok he]
      refine ⟨ih.1, fun w hw => ?_⟩
      rcases List.mem_append.mp hw with hw | hw
      · exact hW w hw
      · exact ih.2 w hw

/-- What every iteration preserves, the loop preserves. -/
theorem Leaves.forEach {xs : List α} {s : σ} (hf : ∀ x ∈ xs, ∀ s, I s → Leaves I W (f x s))
    (hs : I s) : Leaves I W (Outcome.forEach f xs s) := by
  refine Leaves.forEach_rest (J := fun rest s => (∀ x ∈ rest, x ∈ xs) ∧ I s) ?_
    (fun _ h => h.2) ⟨fun _ h => h, hs⟩
  rintro x rest s ⟨hmem, hI⟩
  have h := hf x (hmem x List.mem_cons_self) s hI
  exact ⟨h.2, fun _ => ⟨fun y hy => hmem y (List.mem_cons_of_mem x hy), h.1⟩, fun _ => h.1⟩

/-- **A loop completes** when every iteration completes and restores the invariant. -/
theorem forEach_completes
    (hstep : ∀ x xs s, J (x :: xs) s → (f x s).error = none ∧ J xs (f x s).state) :
    ∀ {xs : List α} {s : σ}, J xs s →
      (forEach f xs s).error = none ∧ J [] (forEach f xs s).state
  | [], _, hs => ⟨rfl, hs⟩
  | x :: xs, s, hs => by
    obtain ⟨he, hJ⟩ := hstep x xs s hs
    have ih := forEach_completes hstep hJ
    rw [forEach_cons, bind_of_ok he]
    exact ih

/-- **Every item of a loop that completes is reached**: its iteration starts from some state
the invariant allows, what it sends is sent by the loop, and the rest of the loop follows. -/
theorem forEach_reaches
    (hstep : ∀ x xs s, J (x :: xs) s → (f x s).error = none ∧ J xs (f x s).state) :
    ∀ {xs : List α} {s : σ} {x : α}, J xs s → x ∈ xs → ∃ rest s', J (x :: rest) s' ∧
      (∀ w ∈ (f x s').sent, w ∈ (forEach f xs s).sent) ∧
      (forEach f xs s).state = (forEach f rest (f x s').state).state
  | [], _, _, _, hx => absurd hx (by simp)
  | y :: ys, s, x, hs, hx => by
    obtain ⟨he, hJ⟩ := hstep y ys s hs
    rw [forEach_cons, bind_of_ok he]
    by_cases hxy : x = y
    · subst hxy
      exact ⟨ys, s, hs, fun w hw => List.mem_append_left _ hw, rfl⟩
    · obtain ⟨rest, s', hs', hsent, hstate⟩ :=
        forEach_reaches hstep hJ ((List.mem_cons.mp hx).resolve_left hxy)
      exact ⟨rest, s', hs', fun w hw => List.mem_append_right _ (hsent w hw), hstate⟩

/-- What a loop that completes sends, iteration by iteration. -/
theorem forEach_sent {β : Type} {p : ω → Option β} {g : α → List β}
    (hstep : ∀ x xs s, J (x :: xs) s →
      (f x s).error = none ∧ J xs (f x s).state ∧ (f x s).sent.filterMap p = g x) :
    ∀ {xs : List α} {s : σ}, J xs s → (forEach f xs s).sent.filterMap p = xs.flatMap g
  | [], _, _ => rfl
  | x :: xs, s, hs => by
    obtain ⟨he, hJ, hg⟩ := hstep x xs s hs
    have ih := forEach_sent hstep hJ
    rw [forEach_cons, bind_of_ok he, List.filterMap_append, hg, ih, List.flatMap_cons]

/-! ## 3. Two calls side by side

Two states that differ in something a call does not look at: one is the image of the other
under a function, and so are the two outcomes. -/

section MapState

variable {τ υ : Type}

theorem mapState_mapState (g : σ → τ) (h : τ → υ) (o : Outcome σ ω ε) :
    (o.mapState g).mapState h = o.mapState fun s => h (g s) := rfl

theorem bind_mapState {g : σ → τ} {o' : Outcome τ ω ε} {f : σ → Outcome σ ω ε}
    {f' : τ → Outcome τ ω ε} (ho : o' = o.mapState g) (hf : ∀ s, f' (g s) = (f s).mapState g) :
    o'.bind f' = (o.bind f).mapState g := by
  subst ho
  cases he : o.error with
  | some e =>
    have he' : (o.mapState g).error = some e := he
    rw [bind_of_error he, bind_of_error he']
  | none =>
    have he' : (o.mapState g).error = none := he
    rw [bind_of_ok he, bind_of_ok he', mapState_state, hf]
    rfl

theorem forEach_mapState {g : σ → τ} {f' : α → τ → Outcome τ ω ε} :
    ∀ (xs : List α), (∀ x ∈ xs, ∀ s, f' x (g s) = (f x s).mapState g) →
      ∀ s, forEach f' xs (g s) = (forEach f xs s).mapState g
  | [], _, _ => rfl
  | x :: xs, hf, s => by
    rw [forEach_cons, forEach_cons]
    refine bind_mapState (hf x List.mem_cons_self s) fun t => ?_
    exact forEach_mapState xs (fun y hy => hf y (List.mem_cons_of_mem x hy)) t

end MapState

end Outcome

end HungerGames.Lua
