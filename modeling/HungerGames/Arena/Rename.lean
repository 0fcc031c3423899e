/-
# A game under another name

The script never looks into a name: it stores it, compares it with what a player sent, and
sends it.  So a lobby in which one host's games have another name does the same things, as long
as nobody compares and nobody is sent the name.  `Retyped` says which host, which name and
which other name; `Retyped.lobby` is the lobby after the change, and every handler that
compares no name commutes with it.
-/
import Mathlib.Data.List.Find
import HungerGames.Arena.System

namespace HungerGames.Arena

open HungerGames.Lua
open HungerGames.Lua.Outcome

/-- The host typed `new` where he typed `old`. -/
structure Retyped where
  host : Guid
  old : Bytes
  new : Bytes

namespace Retyped

/-! ## 1. The change -/

variable (r : Retyped)

def game (g : Game) : Game :=
  { g with name := if g.host = r.host ∧ g.name = r.old then r.new else g.name }

def data (p : Guid) (v : Option Bytes) : Option Bytes :=
  if p = r.host ∧ v = some r.old then some r.new else v

def lobby (s : Lobby) : Lobby :=
  { s with
    games := s.games.map r.game
    gameData := fun p => r.data p (s.gameData p) }

/-- A loop's own variables stay. -/
def loop {α : Type} (st : Loop α) : Loop α := ⟨r.lobby st.lobby, st.vars⟩

/-- The host has a game registered under the name. -/
def Registered (s : Lobby) : Prop := ∃ g ∈ s.games.values, g.host = r.host ∧ g.name = r.old

instance (s : Lobby) : Decidable (r.Registered s) :=
  inferInstanceAs (Decidable (∃ g ∈ s.games.values, _))

/-- A name that is neither. -/
def Fresh (name : Bytes) : Prop := name ≠ r.old ∧ name ≠ r.new

instance (name : Bytes) : Decidable (r.Fresh name) := inferInstanceAs (Decidable (_ ∧ _))

variable {r} {s : Lobby}

@[simp] theorem mapId_lobby : (r.lobby s).mapId = s.mapId := rfl
@[simp] theorem games_lobby : (r.lobby s).games = s.games.map r.game := rfl
@[simp] theorem inWorld_lobby (p : Guid) : (r.lobby s).inWorld p = s.inWorld p := rfl
@[simp] theorem gameData_lobby (p : Guid) : (r.lobby s).gameData p = r.data p (s.gameData p) := rfl

theorem data_eq_self {p : Guid} {v : Option Bytes} (h : p ≠ r.host ∨ v ≠ some r.old) :
    r.data p v = v :=
  if_neg fun hp => h.elim (fun hne => hne hp.1) fun hne => hne hp.2

@[simp] theorem data_none {p : Guid} : r.data p none = none := data_eq_self (Or.inr (by simp))

/-- Whether a player has data stays. -/
theorem data_some (p : Guid) (name : Bytes) : ∃ name', r.data p (some name) = some name' := by
  unfold data
  split
  · exact ⟨r.new, rfl⟩
  · exact ⟨name, rfl⟩

theorem game_of_fresh {g : Game} {name : Bytes} (hn : r.Fresh name) :
    (r.game g).name = name ↔ g.name = name := by
  unfold game
  simp only
  split
  · rename_i h
    rw [h.2]
    exact iff_of_false (Ne.symm hn.2) (Ne.symm hn.1)
  · exact Iff.rfl

/-- Nothing to rename. -/
theorem games_of_not_registered (h : ¬ r.Registered s) : s.games.map r.game = s.games := by
  refine Table.map_eq_self fun g hg => ?_
  have hne : ¬ (g.host = r.host ∧ g.name = r.old) := fun hg' => h ⟨g, hg, hg'⟩
  unfold game
  rw [if_neg hne]

/-- Nothing to change at all. -/
theorem lobby_eq_self (h : ¬ r.Registered s) (hd : s.gameData r.host ≠ some r.old) :
    r.lobby s = s := by
  have hdata : (fun p => r.data p (s.gameData p)) = s.gameData := by
    funext p
    refine data_eq_self ?_
    by_cases hp : p = r.host
    · exact Or.inr (hp ▸ hd)
    · exact Or.inl hp
  unfold lobby
  rw [games_of_not_registered h, hdata]

/-! ## 2. Writing -/

theorem lobby_setGameData {p : Guid} {v v' : Option Bytes} (h : r.data p v = v') :
    (r.lobby s).setGameData p v' = r.lobby (s.setGameData p v) := by
  have hdata : ((r.lobby s).setGameData p v').gameData
      = (r.lobby (s.setGameData p v)).gameData := by
    funext q
    rw [Lobby.gameData_setGameData, gameData_lobby, gameData_lobby, Lobby.gameData_setGameData]
    by_cases hq : q = p
    · subst hq
      rw [if_pos rfl, if_pos rfl, h]
    · rw [if_neg hq, if_neg hq]
  exact congrArg (fun d => { r.lobby s with gameData := d }) hdata

theorem lobby_setGameData_none (p : Guid) :
    (r.lobby s).setGameData p none = r.lobby (s.setGameData p none) := lobby_setGameData data_none

theorem lobby_modifyGame {f : Game → Game} (hf : ∀ g, r.game (f g) = f (r.game g)) (k : ℕ) :
    (r.lobby s).modifyGame k f = r.lobby (s.modifyGame k f) := by
  unfold Lobby.modifyGame
  rw [games_lobby, Table.get_map]
  cases s.games.get k with
  | none => rfl
  | some g =>
    have hset := Table.set_map r.game s.games k (some (f g))
    rw [Option.map_some, hf] at hset
    exact congrArg (fun t => { r.lobby s with games := t }) hset

theorem lobby_removeGame (k : ℕ) : (r.lobby s).removeGame k = r.lobby (s.removeGame k) :=
  congrArg (fun t => { r.lobby s with games := t }) (Table.set_map r.game s.games k none)

/-! ## 3. Looking up a name -/

/-- The first game of a name is where it was, when the change makes no difference to who has
the name. -/
theorem firstNamed_lobby (e : Engine) {name name' : Bytes}
    (h : ∀ g ∈ s.games.values, ((r.game g).name = name' ↔ g.name = name)) :
    firstNamed e (r.lobby s) name'
      = (firstNamed e s name).map fun kv => (kv.1, r.game kv.2) := by
  unfold firstNamed
  rw [games_lobby, Table.pairs_map, List.find?_map]
  refine congrArg _ (List.find?_congr fun kv hkv => ?_)
  have hiff := h kv.2 (Table.mem_values.mpr ⟨kv.1, Table.mem_pairs.mp hkv⟩)
  simpa using hiff

theorem firstNamed_of_fresh (e : Engine) {name : Bytes} (hn : r.Registered s → r.Fresh name) :
    firstNamed e (r.lobby s) name
      = (firstNamed e s name).map fun kv => (kv.1, r.game kv.2) := by
  refine firstNamed_lobby e fun g hg => ?_
  by_cases hreg : r.Registered s
  · exact game_of_fresh (hn hreg)
  · have hne : ¬ (g.host = r.host ∧ g.name = r.old) := fun hg' => hreg ⟨g, hg, hg'⟩
    unfold game
    rw [if_neg hne]

/-! ## 4. The tick -/

theorem setPhaseMask_lobby (plr : Guid) (mask : ℕ) (s : Lobby) :
    setPhaseMask plr mask (r.lobby s) = (setPhaseMask plr mask s).mapState r.lobby := by
  unfold setPhaseMask
  split <;> rfl

theorem teleport_lobby (e : Engine) (plr : Guid) (map : ℕ) (loc : Location) (s : Lobby) :
    teleport e plr map loc (r.lobby s) = (teleport e plr map loc s).mapState r.lobby := by
  unfold teleport
  rw [mapId_lobby]
  split <;> rfl

/-- A call inside a loop. -/
theorem inLoop_loop {α : Type} {f : Lobby → Call}
    (hf : ∀ s, f (r.lobby s) = (f s).mapState r.lobby) (st : Loop α) :
    inLoop f (r.loop st) = (inLoop f st).mapState r.loop := by
  exact congrArg (mapState _) (hf st.lobby)

theorem startPlayer_loop (e : Engine) (id : ℕ) (locs : Table Location) (plr : Guid) (st : Loop ℕ) :
    startPlayer e id locs plr (r.loop st) = (startPlayer e id locs plr st).mapState r.loop := by
  unfold startPlayer
  have hin : (r.loop st).lobby.inWorld plr = st.lobby.inWorld plr := rfl
  rw [hin]
  split
  · refine bind_mapState (inLoop_loop (fun _ => rfl) st) fun st => ?_
    refine bind_mapState (inLoop_loop (setPhaseMask_lobby plr id) st) fun st => ?_
    have hvars : (r.loop st).vars = st.vars := rfl
    rw [hvars]
    cases locs.get st.vars with
    | none => rfl
    | some loc => exact bind_mapState (inLoop_loop (teleport_lobby e plr 800 loc) st) fun _ => rfl
  · rfl

theorem handleStartGame_lobby (e : Engine) (k : ℕ) (g : Game) (s : Lobby) :
    handleStartGame e k (r.game g) (r.lobby s) = (handleStartGame e k g s).mapState r.lobby := by
  unfold handleStartGame
  rw [lobby_modifyGame]
  case hf => exact fun _ => rfl
  refine bind_mapState ?_ fun s => ?_
  · have hloop := forEach_mapState (members e k g)
      (fun plr _ st => startPlayer_loop (r := r) e g.id
        (Table.ofList (shuffled (e.random k) locations)) plr st)
      ⟨s.modifyGame k fun game => { game with active := true, state := some 1 }, 1⟩
    exact congrArg (mapState Loop.lobby) hloop
  · rw [lobby_modifyGame]
    · rfl
    · exact fun _ => rfl

theorem removeFromQueue_lobby (plr : Guid) (s : Lobby) :
    removeFromQueue plr (r.lobby s) = (removeFromQueue plr s).mapState r.lobby := by
  unfold removeFromQueue
  rw [inWorld_lobby, lobby_setGameData_none]
  split <;> rfl

theorem purgePlayer_lobby (e : Engine) (k : ℕ) (entry : ℕ × Guid) (s : Lobby) :
    purgePlayer e k entry (r.lobby s) = (purgePlayer e k entry s).mapState r.lobby := by
  unfold purgePlayer
  rw [inWorld_lobby, mapId_lobby, lobby_modifyGame]
  case hf => exact fun _ => rfl
  split
  · split
    · exact teleport_lobby e entry.2 13 _ s
    · rfl
  · rfl

theorem handleInactiveGame_lobby (e : Engine) (k : ℕ) (g : Game) (s : Lobby) :
    handleInactiveGame e k (r.game g) (r.lobby s)
      = (handleInactiveGame e k g s).mapState r.lobby := by
  unfold handleInactiveGame
  have hhost : (r.game g).host = g.host := rfl
  rw [hhost, inWorld_lobby]
  split
  · refine bind_mapState (forEach_mapState _ (fun x _ s => purgePlayer_lobby e k x s) s) fun s => ?_
    rw [games_lobby, Table.get_map]
    cases s.games.get k with
    | none => rfl
    | some g =>
      simp only [Option.map_some]
      have hplayers : (r.game g).players = g.players := rfl
      rw [hplayers]
      split
      · exact handleStartGame_lobby e k g s
      · rfl
  · refine bind_mapState (forEach_mapState _ (fun x _ s => removeFromQueue_lobby x s) s) fun s => ?_
    rw [lobby_removeGame]
    rfl

theorem spawnFor_loop (e : Engine) (k id : ℕ) (data : Option GameData) (plr : Guid)
    (st : Loop (ℕ × List Obj)) :
    spawnFor e k id data plr (r.loop st) = (spawnFor e k id data plr st).mapState r.loop := by
  unfold spawnFor
  have hin : (r.loop st).lobby.inWorld plr = st.lobby.inWorld plr := rfl
  have hvars : (r.loop st).vars = st.vars := rfl
  rw [hin, hvars]
  split
  · cases locationAt data st.vars.1 with
    | none => rfl
    | some loc =>
      simp only
      split
      · refine bind_mapState rfl fun st => ?_
        have hvars : (r.loop st).vars = st.vars := rfl
        rw [hvars]
        cases e.spawn k st.vars.1 <;> rfl
      · rfl
  · rfl

theorem despawn_lobby (e : Engine) (obj : Obj) (s : Lobby) :
    despawn e obj (r.lobby s) = (despawn e obj s).mapState r.lobby := by
  unfold despawn
  split <;> rfl

theorem playStartSound_lobby (plr : Guid) (s : Lobby) :
    playStartSound plr (r.lobby s) = (playStartSound plr s).mapState r.lobby := by
  unfold playStartSound
  rw [inWorld_lobby]
  split <;> rfl

theorem handleActiveGame_lobby (e : Engine) (k : ℕ) (g : Game) (s : Lobby) :
    handleActiveGame e k (r.game g) (r.lobby s) = (handleActiveGame e k g s).mapState r.lobby := by
  unfold handleActiveGame
  have hstate : (r.game g).state = g.state := rfl
  rw [hstate]
  cases g.state with
  | none => rfl
  | some state =>
    simp only
    split
    · have hloop := forEach_mapState (members e k g)
        (fun plr _ st => spawnFor_loop (r := r) e k g.id g.data plr st) ⟨s, 1, []⟩
      refine congrArg (mapState Loop.lobby) (bind_mapState hloop fun st => ?_)
      unfold loop
      rw [lobby_modifyGame]
      · rfl
      · exact fun _ => rfl
    · split
      · rw [lobby_modifyGame]
        · rfl
        · exact fun _ => rfl
      · split
        · have hdata : (r.game g).data = g.data := rfl
          rw [hdata]
          cases g.data with
          | none => rfl
          | some d =>
            cases d with
            | locations t => rfl
            | objects objs =>
              refine bind_mapState (forEach_mapState _ (fun x _ s => despawn_lobby e x s) s)
                fun s => ?_
              refine bind_mapState (forEach_mapState _ (fun x _ s => playStartSound_lobby x s) s)
                fun s => ?_
              rw [lobby_modifyGame]
              · rfl
              · exact fun _ => rfl
        · rfl

theorem updateGame_lobby (e : Engine) (k : ℕ) (s : Lobby) :
    updateGame e k (r.lobby s) = (updateGame e k s).mapState r.lobby := by
  unfold updateGame
  rw [games_lobby, Table.get_map]
  cases s.games.get k with
  | none => rfl
  | some g =>
    refine bind_mapState rfl fun s => ?_
    have hactive : (r.game g).active = g.active := rfl
    rw [hactive]
    split
    · exact handleActiveGame_lobby e k g s
    · exact handleInactiveGame_lobby e k g s

/-- **The tick looks at no name.** -/
theorem updateAllGames_lobby (e : Engine) (s : Lobby) :
    updateAllGames e (r.lobby s) = (updateAllGames e s).mapState r.lobby := by
  unfold updateAllGames
  rw [games_lobby, Table.keys_map]
  exact forEach_mapState _ (fun k _ s => updateGame_lobby e k s) s

end Retyped

end HungerGames.Arena
