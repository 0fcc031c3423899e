/-
# The server as a state machine

What the lobby goes through is a list of events, each handled as one protected call: an
add-on message, a logout, a released spirit, the tick, and the moves of players between maps
that are none of the script's doing.  Every event comes with the engine's answers to the
calls its handler makes.
-/
import HungerGames.Arena.Tick
import HungerGames.System.Run

namespace HungerGames.Arena

open HungerGames.Lua
open HungerGames.Lua.Outcome
open HungerGames.System

/-- What can happen to the lobby. -/
inductive Event where
  /-- an add-on message, whispered to `receiver` -/
  | addon (plr : Guid) (pfx : Bytes) (msg : Option Bytes) (receiver : Guid)
  | logout (plr : Guid)
  | repop (plr : Guid)
  | tick
  /-- the player logs in: his client loads `map` -/
  | login (plr : Guid) (map : ℕ)
  /-- his client has loaded, and the engine puts him on `map` -/
  | loaded (plr : Guid) (map : ℕ)
  /-- the engine moves him to another map on its own account -/
  | moved (plr : Guid) (map : ℕ)
deriving DecidableEq

/-- The logout of a player: the handler of `Game.lua`, then `DestroyData` of
`ObjectVariables.ext`, which forgets the player's data whatever the first one ran into. -/
def logoutPlayer (e : Engine) (plr : Guid) (s : Lobby) : Call :=
  (playerEventOnLogout e plr s).mapState fun s =>
    (s.setGameData plr none).setPresence plr .offline

/-- Handle one event.  Packets of a player who is not in the world are not processed, nor are
events that cannot happen to a player where he is. -/
def handle (e : Engine) (ev : Event) (s : Lobby) : Call :=
  match ev with
  | .addon plr pfx msg receiver =>
    if s.inWorld plr then onReceiveAddonMsg e plr pfx msg receiver s else ok s
  | .logout plr => if s.online plr then logoutPlayer e plr s else ok s
  | .repop plr => if s.inWorld plr then playerEventOnRepop e plr s else ok s
  | .tick => updateAllGames e s
  | .login plr map =>
    if s.online plr then ok s else ok ((s.setPresence plr .loading).setMap plr map)
  | .loaded plr map =>
    if s.presence plr = .loading then ok ((s.setPresence plr .inWorld).setMap plr map) else ok s
  | .moved plr map =>
    if s.inWorld plr then ok ((s.setPresence plr .loading).setMap plr map) else ok s

/-- One step of the server. -/
def step (s : Lobby) (i : Engine × Event) : Lobby := (handle i.1 i.2 s).state

/-- The effects of one step. -/
def effects (s : Lobby) (i : Engine × Event) : List Effect := (handle i.1 i.2 s).sent

/-- The command a message carries to the script, when it gets that far. -/
def commandSent (s : Lobby) (plr : Guid) (pfx : Bytes) (msg : Option Bytes) (receiver : Guid) :
    Option (Command × Bytes) :=
  if s.inWorld plr = true ∧ receiver = plr then
    match msg, commandOf pfx with
    | some msg, some c => some (c, msg)
    | _, _ => none
  else none

/-- **A message does what its command does**, or nothing. -/
theorem handle_addon (e : Engine) (s : Lobby) (plr : Guid) (pfx : Bytes) (msg : Option Bytes)
    (receiver : Guid) :
    handle e (.addon plr pfx msg receiver) s =
      match commandSent s plr pfx msg receiver with
      | some (c, msg) => functionLookup e c plr msg s
      | none => ok s := by
  unfold handle commandSent onReceiveAddonMsg
  by_cases hin : s.inWorld plr = true
  · by_cases hr : receiver = plr
    · simp only [hin, hr, if_true, ne_eq, not_true_eq_false, if_false, and_self]
      cases msg with
      | none => rfl
      | some msg => cases commandOf pfx <;> rfl
    · simp only [hin, hr, if_true, ne_eq, not_false_eq_true, and_false, if_false]
  · simp only [hin, if_false, false_and, Bool.false_eq_true]

/-- Only players in the world send commands. -/
theorem inWorld_of_commandSent {s : Lobby} {plr receiver : Guid} {pfx : Bytes}
    {msg : Option Bytes} {cm : Command × Bytes}
    (h : commandSent s plr pfx msg receiver = some cm) : s.inWorld plr = true := by
  unfold commandSent at h
  split at h
  · rename_i hin
    exact hin.1
  · exact absurd h (by simp)

/-! ## Records outside the tick -/

/-- What an event other than the tick can do to the records: rewrite lists, or register a
game. -/
structure Keeps (s s' : Lobby) : Prop where
  games : ∀ k g', s'.games.get k = some g' →
    (∃ g t, s.games.get k = some g ∧ g' = { g with players := t }) ∨
      ∃ plr msg, g' = newGame s plr msg
  gameId : s'.gameId = s.gameId ∨ s'.gameId = numSucc s.gameId

theorem Keeps.of_games {s s' : Lobby} (hg : s'.games = s.games) (hid : s'.gameId = s.gameId) :
    Keeps s s' :=
  ⟨fun _ g' hk => Or.inl ⟨g', g'.players, hg ▸ hk, rfl⟩, Or.inl hid⟩

/-- Rewriting one list. -/
theorem Keeps.of_players {s s' : Lobby} {k : ℕ} (f : Table Guid → Table Guid)
    (hg : s'.games = (s.modifyGame k fun g => { g with players := f g.players }).games)
    (hid : s'.gameId = s.gameId) : Keeps s s' := by
  refine ⟨fun j g' hj => Or.inl ?_, Or.inl hid⟩
  rw [hg, Lobby.get_modifyGame] at hj
  split at hj
  · rename_i hjk
    obtain ⟨g, hget, rfl⟩ := Option.map_eq_some_iff.mp hj
    exact ⟨g, _, hjk ▸ hget, rfl⟩
  · exact ⟨g', g'.players, hj, rfl⟩

theorem keeps_functionLookup (e : Engine) (c : Command) (plr : Guid) (msg : Bytes) (s : Lobby) :
    Keeps s (functionLookup e c plr msg s).state := by
  have hsame : Keeps s s := Keeps.of_games rfl rfl
  cases c with
  | mainMenu => exact hsame
  | selectTalents => exact hsame
  | test => exact hsame
  | createGame =>
    simp only [functionLookup, createGame, filterUnwantedChars_eq, ok_bind]
    cases s.gameData plr with
    | some name => exact hsame
    | none =>
      refine ⟨fun k g' hk => ?_, Or.inr rfl⟩
      simp only [ok_state, Table.get_insert] at hk
      split at hk
      · exact Or.inr ⟨plr, msg, (Option.some.inj hk).symm⟩
      · exact Or.inl ⟨g', g'.players, hk, rfl⟩
  | plrslb =>
    simp only [functionLookup, plrslb, filterUnwantedChars_eq, ok_bind]
    cases s.gameData plr with
    | none => exact hsame
    | some name =>
      cases firstNamed e s msg with
      | none => exact hsame
      | some kv => exact hsame
  | joinGame =>
    simp only [functionLookup, joinGame, filterUnwantedChars_eq, ok_bind]
    cases s.gameData plr with
    | some name => exact hsame
    | none =>
      cases firstNamed e s msg with
      | none => exact hsame
      | some kv =>
        simp only
        split
        · exact hsame
        · exact Keeps.of_players (k := kv.1)
            (fun t => t.insert e.layout (Engine.playersSite kv.1) plr) rfl (by simp)
  | leaveGame =>
    simp only [functionLookup, leaveGame, filterUnwantedChars_eq, ok_bind]
    cases firstNamed e s msg with
    | none => exact hsame
    | some kv =>
      exact Keeps.of_players (k := kv.1) (fun t => eraseString t (guidString plr)) rfl (by simp)

theorem removePlayerAt_state (e : Engine) (k : ℕ) (v : Game) (pos : ℤ) (s : Lobby) :
    (removePlayerAt e k v pos s).state = s ∨ ∃ t,
      (removePlayerAt e k v pos s).state = s.modifyGame k fun v => { v with players := t } := by
  unfold removePlayerAt
  cases v.players.remove e.layout (Engine.playersSite k) pos with
  | none => exact Or.inl rfl
  | some t => exact Or.inr ⟨t, rfl⟩

theorem keeps_logoutPlayer (e : Engine) (plr : Guid) (s : Lobby) :
    Keeps s (logoutPlayer e plr s).state := by
  unfold logoutPlayer playerEventOnLogout
  rw [mapState_state]
  generalize toInt32 plr = pos
  cases s.gameData plr with
  | none => exact Keeps.of_games rfl rfl
  | some data =>
    simp only
    cases firstNamed e (s.setGameData plr none) data with
    | none => exact Keeps.of_games rfl rfl
    | some kv =>
      obtain ⟨k, v⟩ := kv
      simp only
      rcases removePlayerAt_state e k v pos (s.setGameData plr none) with h | ⟨t, h⟩
      · rw [h]
        exact Keeps.of_games rfl rfl
      · rw [h, Lobby.modifyGame_setGameData]
        exact Keeps.of_players (k := k) (fun _ => t) rfl (by simp)

/-- **Outside the tick** no game starts, ends or changes its id. -/
theorem keeps_step {s : Lobby} {i : Engine × Event} (hi : i.2 ≠ .tick) : Keeps s (step s i) := by
  have hsame : Keeps s s := Keeps.of_games rfl rfl
  obtain ⟨e, ev⟩ := i
  unfold step
  cases ev with
  | tick => exact absurd rfl hi
  | addon plr pfx msg receiver =>
    rw [handle_addon]
    cases commandSent s plr pfx msg receiver with
    | none => exact hsame
    | some cm => exact keeps_functionLookup e cm.1 plr cm.2 s
  | logout plr =>
    simp only [handle]
    split
    · exact keeps_logoutPlayer e plr s
    · exact hsame
  | repop plr =>
    simp only [handle]
    split
    · unfold playerEventOnRepop teleportHome
      rw [bind_of_ok rfl, bind_of_ok (teleport_error _ _ _ _ _)]
      exact Keeps.of_games (by simp) (by simp)
    · exact hsame
  | login plr map =>
    simp only [handle]
    split <;> exact Keeps.of_games rfl rfl
  | loaded plr map =>
    simp only [handle]
    split <;> exact Keeps.of_games rfl rfl
  | moved plr map =>
    simp only [handle]
    split <;> exact Keeps.of_games rfl rfl

/-- The games that have started in `s'` had in `s`, and only their lists have changed. -/
def StartedIn (s s' : Lobby) : Prop :=
  ∀ k g', s'.games.get k = some g' → g'.active = true →
    ∃ g t, s.games.get k = some g ∧ g' = { g with players := t }

/-- **Only the tick starts games**, in every run. -/
theorem only_tick_starts (s : Lobby) {is : List (Engine × Event)} (his : ∀ i ∈ is, i.2 ≠ .tick) :
    StartedIn s (exec step s is) := by
  refine exec_invariant_of_mem (I := StartedIn s) (fun s' i hi hs' k g' hk hactive => ?_) his
    fun k g' hk _ => ⟨g', g'.players, hk, rfl⟩
  rcases (keeps_step hi).games k g' hk with ⟨g, t, hg, rfl⟩ | ⟨plr, msg, rfl⟩
  · obtain ⟨g, -, hg, rfl⟩ := hs' k g hg hactive
    exact ⟨g, t, hg, rfl⟩
  · nomatch hactive

/-! ## A plain engine

For runs on concrete inputs. -/

/-- Every call succeeds, and every table is laid out the plain way. -/
def Engine.plain : Engine where
  layout := Layout.plain
  refuses _ _ := false
  spawn k n := some (100 * k + n)
  stillExists _ := true
  random _ i := i
  initialTime := 0

/-- The player logs in and loads the lobby's map. -/
def enter (plr : Guid) : List (Engine × Event) :=
  [(Engine.plain, .login plr 13), (Engine.plain, .loaded plr 13)]

/-- The player sends a command. -/
def say (plr : Guid) (c : Command) (msg : Bytes) : Engine × Event :=
  (Engine.plain, .addon plr c.key (some msg) plr)

/-- A second passes. -/
def second : Engine × Event := (Engine.plain, .tick)

theorem only_tick_starts_created : StartedIn (Lobby.init fun _ => [])
    (exec step (Lobby.init fun _ => []) (enter 1 ++ [say 1 .createGame [65]])) :=
  only_tick_starts _ (by simp [enter, say])

end HungerGames.Arena
