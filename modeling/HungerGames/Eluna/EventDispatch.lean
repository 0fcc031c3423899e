/-
# Dispatch of an event to its handlers (`HookMgr.cpp`)

`EVENT_BEGIN` puts the handlers of an event on the Lua stack, and the id of the event.  When the
other parameters are there too, `EVENT_EXECUTE` calls the handlers, the last one first: each with
copies of the parameters, and behind the values the ones before it have returned.  At the end it
takes the parameters off again, and counts them from the bottom of the stack.

The parameters are at the bottom only if nothing else was on the stack before.  The handlers get
what they should, and so does `FOR_RETS`, whatever was there; but the lowest slots are what is left
of them and the parameters when as many as there are parameters are gone (`dispatched_iff`).
-/
import Mathlib.Data.List.Basic

namespace HungerGames.Eluna

/-! ## 1. A Lua stack -/

/-- A function, or a value that cannot be called. -/
inductive Value (φ α : Type) where
  | nil
  | function (f : φ)
  | other (v : α)
deriving DecidableEq

/-- A `lua_State`: the stack, the bottom first, and the calls of functions, the first first. -/
structure LuaState (φ α : Type) where
  stack : List (Value φ α)
  calls : List (φ × List (Value φ α))

/-- What functions do: the values they return, or an error with a message, when so many calls have
been made before. -/
abbrev Behaviour (φ α : Type) :=
  ℕ → φ → List (Value φ α) → Except (Value φ α) (List (Value φ α))

variable {φ α : Type}

/-- Values as many as are wanted; `none` is `LUA_MULTRET`. -/
def adjust : Option ℕ → List (Value φ α) → List (Value φ α)
  | none, values => values
  | some n, values => values.take n ++ List.replicate (n - values.length) .nil

namespace LuaState

variable (s : LuaState φ α)

/-- `lua_gettop` -/
def gettop : ℕ := s.stack.length

def push (value : Value φ α) : LuaState φ α := { s with stack := s.stack ++ [value] }

/-- `lua_pushvalue`, for an index from the bottom. -/
def pushvalue (i : ℕ) : LuaState φ α := s.push ((s.stack[i - 1]?).getD .nil)

/-- `lua_remove`, for an index from the bottom. -/
def remove (i : ℕ) : LuaState φ α := { s with stack := s.stack.eraseIdx (i - 1) }

/-- `lua_isnone`, for an index from the bottom. -/
def isnone (i : ℕ) : Bool := s.gettop < i

/-- `lua_pop` -/
def pop (n : ℕ) : LuaState φ α := { s with stack := s.stack.take (s.gettop - n) }

/-- `lua_settop` -/
def settop (n : ℕ) : LuaState φ α :=
  { s with stack := s.stack.take n ++ List.replicate (n - s.gettop) .nil }

/-- `ExecuteCall` -/
def executeCall (behaviour : Behaviour φ α) (params : ℕ) (res : Option ℕ) : LuaState φ α :=
  match s.stack[s.gettop - params - 1]? with
  | some (.function f) =>
    let below := s.stack.take (s.gettop - params - 1)
    let args := s.stack.drop (s.gettop - params)
    let calls := s.calls ++ [(f, args)]
    match behaviour s.calls.length f args with
    | .ok values => ⟨below ++ adjust res values, calls⟩
    -- `report` takes the message
    | .error message => pop ⟨below ++ [message], calls⟩ 1
  | _ => s.pop (params + 1)

/-- The first loop of `EVENT_EXECUTE`, for the functions below `funcTop`. -/
def callHandlers (behaviour : Behaviour φ α) (params : ℕ) (res : Option ℕ) :
    ℕ → ℕ → LuaState φ α → LuaState φ α
  | 0, _, s => s
  | j + 1, funcTop, s =>
    let s := (List.range (params + 1)).foldl (fun s i => s.pushvalue (funcTop + i)) s
    let s := s.executeCall behaviour params res
    callHandlers behaviour params res j (funcTop - 1) (s.remove funcTop)

/-- The second loop. -/
def removeParams : ℕ → LuaState φ α → LuaState φ α
  | 0, s => s
  | i + 1, s => removeParams i (if s.isnone (i + 1) then s else s.remove (i + 1))

/-- `EVENT_EXECUTE` -/
def eventExecute (behaviour : Behaviour φ α) (res : Option ℕ) (stackTop funcTop : ℕ) :
    LuaState φ α :=
  let params := s.gettop - funcTop
  removeParams params (callHandlers behaviour params res (funcTop - stackTop) funcTop s)

/-- The values `FOR_RETS` goes over. -/
def forRets (stackTop : ℕ) : List (Value φ α) :=
  (List.range' (stackTop + 1) (s.gettop - stackTop)).map fun i => (s.stack[i - 1]?).getD .nil

/-- `HasEvents`: an event gets its entry with its first function. -/
def hasEvents (bindings : List φ) : Bool := !bindings.isEmpty

/-- The call of an event: the values `FOR_RETS` goes over, and the stack after `ENDCALL`. -/
def callEvent (behaviour : Behaviour φ α) (bindings : List φ) (event : Value φ α)
    (params : List (Value φ α)) (res : Option ℕ) : List (Value φ α) × LuaState φ α :=
  if !hasEvents bindings then ([], s) else
  let stackTop := s.gettop
  let s := bindings.foldl (fun s f => s.push (.function f)) s
  let funcTop := s.gettop
  let s := params.foldl push (s.push event)
  let s := s.eventExecute behaviour res stackTop funcTop
  (s.forRets stackTop, s.settop stackTop)

end LuaState

/-! ## 2. The loops -/

/-- What a handler adds to the stack. -/
def returned (behaviour : Behaviour φ α) (res : Option ℕ) (n : ℕ) (args : List (Value φ α))
    (f : φ) : List (Value φ α) :=
  match behaviour n f args with
  | .ok values => adjust res values
  | .error _ => []

/-- What handlers add, one after the other. -/
def returnedAll (behaviour : Behaviour φ α) (res : Option ℕ) (args : List (Value φ α)) :
    ℕ → List φ → List (Value φ α)
  | _, [] => []
  | n, f :: fs => returned behaviour res n args f ++ returnedAll behaviour res args (n + 1) fs

section Loops

variable {behaviour : Behaviour φ α} {res : Option ℕ}

theorem foldl_push (values : List (Value φ α)) : ∀ s : LuaState φ α,
    values.foldl LuaState.push s = ⟨s.stack ++ values, s.calls⟩ := by
  induction values with
  | nil => exact fun s => by rw [List.append_nil]; rfl
  | cons value values ih =>
    intro s
    rw [List.foldl_cons, ih, LuaState.push, List.append_assoc, List.singleton_append]

theorem foldl_push_function (fs : List φ) : ∀ s : LuaState φ α,
    fs.foldl (fun s f => s.push (.function f)) s = ⟨s.stack ++ fs.map .function, s.calls⟩ := by
  intro s
  rw [← foldl_push, List.foldl_map]

/-- A part of the stack is pushed again. -/
theorem foldl_pushvalue (m : ℕ) : ∀ (n : ℕ) (s : LuaState φ α), m + n ≤ s.stack.length →
    (List.range n).foldl (fun s i => s.pushvalue (m + 1 + i)) s =
      ⟨s.stack ++ (s.stack.drop m).take n, s.calls⟩ := by
  intro n
  induction n with
  | zero => exact fun s _ => by simp
  | succ n ih =>
    intro s hle
    have hlt : m + n < s.stack.length := hle
    have hget := List.getElem?_eq_getElem hlt
    rw [List.range_succ, List.foldl_append, ih s (Nat.le_of_lt hlt), List.foldl_cons,
      List.foldl_nil, List.take_add_one, List.getElem?_drop, hget]
    unfold LuaState.pushvalue LuaState.push
    rw [Nat.add_right_comm, Nat.add_sub_cancel, List.getElem?_append_left hlt, hget,
      List.append_assoc]
    rfl

/-- One call of a handler, with copies of the parameters. -/
theorem executeCall_function {below args : List (Value φ α)} {f : φ}
    {calls : List (φ × List (Value φ α))} :
    LuaState.executeCall ⟨below ++ .function f :: args, calls⟩ behaviour args.length res =
      ⟨below ++ returned behaviour res calls.length args f, calls ++ [(f, args)]⟩ := by
  have htop : LuaState.gettop ⟨below ++ .function f :: args, calls⟩ =
      below.length + (args.length + 1) := by
    rw [LuaState.gettop, List.length_append, List.length_cons]
  have hbelow : below.length + (args.length + 1) - args.length - 1 = below.length := by omega
  have hargs : below.length + (args.length + 1) - args.length = below.length + 1 := by omega
  have hdrop : (below ++ .function f :: args).drop (below.length + 1) = args := by
    rw [List.drop_append, Nat.add_sub_cancel_left, List.drop_of_length_le (Nat.le_succ _)]
    rfl
  unfold LuaState.executeCall returned
  rw [htop, hbelow, hargs, List.getElem?_append_right (Nat.le_refl _), Nat.sub_self,
    List.getElem?_cons_zero]
  dsimp only
  rw [hdrop, List.take_left]
  cases behaviour calls.length f args with
  | ok values => rfl
  | error message =>
    unfold LuaState.pop LuaState.gettop
    dsimp only
    rw [List.length_append, List.length_singleton, Nat.add_sub_cancel, List.take_left,
      List.append_nil]

/-- **The first loop**: every handler is called with the parameters, and what they return is behind
them. -/
theorem callHandlers_eq {base args : List (Value φ α)} : ∀ (fs : List φ)
    (results : List (Value φ α)) (calls : List (φ × List (Value φ α))),
      LuaState.callHandlers behaviour args.length res fs.length (base.length + fs.length)
        ⟨base ++ fs.reverse.map .function ++ args ++ results, calls⟩ =
      ⟨base ++ args ++ (results ++ returnedAll behaviour res args calls.length fs),
        calls ++ fs.map fun f => (f, args)⟩ := by
  intro fs
  induction fs with
  | nil =>
    intro results calls
    rw [returnedAll, List.append_nil]
    simp [LuaState.callHandlers]
  | cons f fs ih =>
    intro results calls
    have hstack : base ++ (f :: fs).reverse.map Value.function ++ args ++ results =
        (base ++ fs.reverse.map .function) ++ .function f :: (args ++ results) := by
      simp
    have hlength : (base ++ fs.reverse.map (Value.function (α := α))).length =
        base.length + fs.length := by simp
    have hfunc : base.length + (f :: fs).length = base.length + fs.length + 1 := rfl
    rw [hstack, hfunc, List.length_cons, LuaState.callHandlers]
    generalize base ++ fs.reverse.map Value.function = below at *
    -- copies of the function and the parameters
    rw [← hlength, foldl_pushvalue below.length (args.length + 1) _ (by simp)]
    rw [List.drop_left, List.take_succ_cons, List.take_left, executeCall_function]
    -- the function itself goes away
    unfold LuaState.remove
    rw [Nat.add_sub_cancel, List.append_assoc, List.eraseIdx_append_of_length_le (Nat.le_refl _),
      Nat.sub_self, List.cons_append, List.eraseIdx_cons_zero]
    have hnext := ih (results ++ returned behaviour res calls.length args f)
      (calls ++ [(f, args)])
    rw [hlength, ← List.append_assoc below, ← List.append_assoc below,
      List.append_assoc (below ++ args), hnext, returnedAll]
    simp

/-- **The second loop** takes as many values as there are parameters from the bottom. -/
theorem removeParams_eq : ∀ (n : ℕ) (s : LuaState φ α),
    LuaState.removeParams n s = ⟨s.stack.drop n, s.calls⟩ := by
  intro n
  induction n with
  | zero => exact fun _ => rfl
  | succ n ih =>
    intro s
    rw [LuaState.removeParams, ih]
    by_cases hnone : s.isnone (n + 1) = true
    · have hle : s.stack.length ≤ n := Nat.le_of_lt_succ (of_decide_eq_true hnone)
      rw [if_pos hnone, List.drop_of_length_le hle, List.drop_of_length_le (Nat.le_succ_of_le hle)]
    · have hlt : n < s.stack.length := by
        simpa [LuaState.isnone, LuaState.gettop, Nat.lt_succ_iff] using hnone
      rw [if_neg hnone]
      unfold LuaState.remove
      rw [Nat.add_sub_cancel, List.eraseIdx_eq_take_drop_succ, List.drop_append,
        List.drop_of_length_le (List.length_take_le _ _), List.nil_append, List.length_take,
        Nat.min_eq_left (Nat.le_of_lt hlt), Nat.sub_self]
      rfl

end Loops

/-! ## 3. The whole dispatch -/

/-- **What the macros should do**: each handler is called once, the last one first, with the id of
the event and the parameters; `FOR_RETS` goes over what they return; and the stack is the one from
before. -/
structure Dispatched (behaviour : Behaviour φ α) (bindings : List φ) (event : Value φ α)
    (params : List (Value φ α)) (res : Option ℕ) (base : List (Value φ α)) : Prop where
  calls : (LuaState.callEvent ⟨base, []⟩ behaviour bindings event params res).2.calls =
    bindings.reverse.map fun f => (f, event :: params)
  returns : (LuaState.callEvent ⟨base, []⟩ behaviour bindings event params res).1 =
    returnedAll behaviour res (event :: params) 0 bindings.reverse
  kept : (LuaState.callEvent ⟨base, []⟩ behaviour bindings event params res).2.stack = base

/-- The values from an index on. -/
theorem forRets_append (below values : List (Value φ α)) (calls : List (φ × List (Value φ α))) :
    LuaState.forRets ⟨below ++ values, calls⟩ below.length = values := by
  unfold LuaState.forRets LuaState.gettop
  rw [List.length_append, Nat.add_sub_cancel_left]
  refine List.ext_getElem (by simp) fun i hi hi' => ?_
  simp only [List.getElem_map, List.getElem_range', Nat.one_mul]
  rw [Nat.add_right_comm, Nat.add_sub_cancel, List.getElem?_append_right (Nat.le_add_right _ _),
    Nat.add_sub_cancel_left, List.getElem?_eq_getElem hi', Option.getD_some]

/-- **What the macros do** when there are handlers, whatever is on the stack. -/
theorem callEvent_eq (behaviour : Behaviour φ α) {bindings : List φ} (event : Value φ α)
    (params : List (Value φ α)) (res : Option ℕ) (base : List (Value φ α))
    (hbindings : bindings ≠ []) :
    LuaState.callEvent ⟨base, []⟩ behaviour bindings event params res =
      (returnedAll behaviour res (event :: params) 0 bindings.reverse,
        ⟨(base ++ event :: params).drop (params.length + 1),
          bindings.reverse.map fun f => (f, event :: params)⟩) := by
  have hfunc : (base ++ bindings.map (Value.function (α := α))).length =
      base.length + bindings.reverse.length := by simp
  have hparams : (base ++ bindings.map Value.function ++ event :: params).length -
      (base ++ bindings.map (Value.function (α := α))).length = params.length + 1 := by
    rw [List.length_append, Nat.add_sub_cancel_left, List.length_cons]
  have hhandlers : base.length + bindings.reverse.length - base.length =
      bindings.reverse.length := Nat.add_sub_cancel_left _ _
  have hloop := @callHandlers_eq φ α behaviour res base (event :: params) bindings.reverse [] []
  rw [List.reverse_reverse, List.append_nil, List.nil_append, List.nil_append,
    List.length_cons] at hloop
  have hdrop : params.length + 1 ≤ (base ++ event :: params).length := by simp
  have hlength : ((base ++ event :: params).drop (params.length + 1)).length = base.length := by
    simp
  have hevents : ¬ (!LuaState.hasEvents bindings) = true := by simpa [LuaState.hasEvents]
  unfold LuaState.callEvent
  rw [if_neg hevents]
  dsimp only
  rw [foldl_push_function, foldl_push]
  unfold LuaState.eventExecute LuaState.gettop LuaState.push
  dsimp only
  rw [List.append_assoc (base ++ bindings.map Value.function), List.singleton_append, hparams,
    hfunc, hhandlers, hloop, removeParams_eq]
  rw [List.drop_append_of_le_length hdrop, ← hlength, forRets_append]
  unfold LuaState.settop LuaState.gettop
  rw [List.take_left, List.length_append, Nat.sub_eq_zero_of_le (Nat.le_add_right _ _),
    List.replicate_zero, List.append_nil]
  rfl

/-- **A dispatch leaves the stack as it was** if and only if there is no handler, or the values on
it and the parameters begin with the same values when as many as there are parameters are gone. -/
theorem dispatched_iff (behaviour : Behaviour φ α) (bindings : List φ) (event : Value φ α)
    (params : List (Value φ α)) (res : Option ℕ) (base : List (Value φ α)) :
    Dispatched behaviour bindings event params res base ↔
      bindings = [] ∨ (base ++ event :: params).drop (params.length + 1) = base := by
  by_cases hbindings : bindings = []
  · subst hbindings
    exact iff_of_true ⟨rfl, rfl, rfl⟩ (.inl rfl)
  have hcall := callEvent_eq behaviour event params res base hbindings
  constructor
  · intro h
    have hkept := h.kept
    rw [hcall] at hkept
    exact .inr hkept
  · rintro (hnone | hdrop)
    · exact absurd hnone hbindings
    · refine ⟨?_, ?_, ?_⟩ <;> rw [hcall]
      exact hdrop

/-- A handler that returns nothing. -/
def silent : Behaviour ℕ ℕ := fun _ _ _ => .ok []

/-- **The value below the parameters is lost.**  An event without further parameters is fired
inside a function that Lua has called with one argument: its id is there instead. -/
theorem not_dispatched_nested :
    ¬ Dispatched silent [0] (.other 3) [] none [.other 7] := by
  intro h
  have hkept := h.kept
  revert hkept
  decide

end HungerGames.Eluna
