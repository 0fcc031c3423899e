/-
# The commands of a player (`Game.lua`, `z_Main.lua`, `Hooks.lua`)

A player's client talks to the server in add-on messages the player whispers to himself; the
prefix names the command (`functionLookup`).  This module has the commands, and the two
handlers the engine calls when a player logs out or releases his spirit.

Three things in the source are not what they look like.  `msg[i]` on a string looks up the
key `i` in the library table `string`, so the filter at the top of every command never
filters.  `games[k][5][plr:GetGUID()] = nil` deletes the entry whose KEY is the GUID's
string of digits, and the list has no such key.  `table.remove(v[5], player:GetGUID())` takes
the GUID for a POSITION.
-/
import HungerGames.Addon.Framing
import HungerGames.Arena.State

namespace HungerGames.Arena

open HungerGames.Lua
open HungerGames.Lua.Outcome
open HungerGames.Addon (sendAddonMessage)

/-! ## 1. Shared by the commands -/

/-- `msg[i]`: strings are indexed through the table `string`, whose keys are names. -/
def indexString (_msg : Bytes) (_i : ℕ) : Option UInt8 := none

/-- The loop `-- Filter unwanted chars`; `message` is a global nobody assigns. -/
def filterUnwantedChars (msg : Bytes) (s : Lobby) : Call :=
  forEach (fun i s => if indexString msg i = some dash then raise .indexNil s else ok s)
    (forRange 1 msg.length 1) s

/-- **The filter filters nothing.** -/
@[simp] theorem filterUnwantedChars_eq (msg : Bytes) (s : Lobby) :
    filterUnwantedChars msg s = ok s := by
  unfold filterUnwantedChars
  induction forRange 1 msg.length 1 with
  | nil => rfl
  | cons i is ih =>
    rw [forEach_cons, if_neg (by simp [indexString]), ok_bind]
    exact ih

/-- The frames of `sendAddonMessage(plr, msg, packet)`, whispered to the player. -/
def addonFrames (plr : Guid) (msg : Bytes) (packet : ℕ) : List Effect :=
  (sendAddonMessage msg packet).map (.addonMessage plr)

/-- The loop `for k, v in pairs(games) do if v[2] == msg`: the first game of that name. -/
def firstNamed (e : Engine) (s : Lobby) (msg : Bytes) : Option (ℕ × Game) :=
  (s.games.pairs e.layout Engine.gamesSite).find? fun kv => kv.2.name = msg

theorem firstNamed_some {e : Engine} {s : Lobby} {msg : Bytes} {k : ℕ} {v : Game}
    (h : firstNamed e s msg = some (k, v)) : s.games.get k = some v ∧ v.name = msg := by
  exact ⟨Table.mem_pairs.mp (List.mem_of_find?_eq_some h), by simpa using List.find?_some h⟩

/-- The message of a player who is in a game already. -/
def alreadyInGame (name : Bytes) : Bytes := bytes "ERROR: You are already in game: " ++ name

/-! ## 2. Creating, joining and leaving -/

/-- `JoinGame(plr, msg)` -/
def joinGame (e : Engine) (plr : Guid) (msg : Bytes) (s : Lobby) : Call :=
  (filterUnwantedChars msg s).bind fun s =>
  match s.gameData plr with
  | some name => send [.broadcast plr (alreadyInGame name)] s
  | none =>
    match firstNamed e s msg with
    | none => ok s
    | some (k, v) =>
      if v.active then
        send [.broadcast plr (bytes "You cannot join a game that is already in progress!")] s
      else
        send [.broadcast plr (bytes "You have joined: " ++ msg)]
          ((s.modifyGame k fun v =>
            { v with players := v.players.insert e.layout (Engine.playersSite k) plr }).setGameData
              plr (some msg))

/-- `t[key] = nil` for a key that is a string: no positional entry has it. -/
def eraseString (t : Table Guid) (_key : Bytes) : Table Guid := t

/-- `leaveGame(plr, msg)` -/
def leaveGame (e : Engine) (plr : Guid) (msg : Bytes) (s : Lobby) : Call :=
  (filterUnwantedChars msg s).bind fun s =>
  match firstNamed e s msg with
  | none => ok s
  | some (k, _) =>
    send [.broadcast plr (bytes "You have left: " ++ msg)]
      ((s.modifyGame k fun v =>
        { v with players := eraseString v.players (guidString plr) }).setGameData plr none)

/-- The record `CREATEGAME` registers. -/
def newGame (s : Lobby) (plr : Guid) (msg : Bytes) : Game where
  id := s.gameId
  name := msg
  active := false
  host := plr
  players := Table.ofList [plr]
  state := none
  data := none

/-- `CREATEGAME(plr, msg)` -/
def createGame (e : Engine) (plr : Guid) (msg : Bytes) (s : Lobby) : Call :=
  (filterUnwantedChars msg s).bind fun s =>
  match s.gameData plr with
  | some name => send [.broadcast plr (alreadyInGame name)] s
  | none =>
    ok { (s.setGameData plr (some msg)) with
      gameId := numSucc s.gameId
      games := s.games.insert e.layout Engine.gamesSite (newGame s plr msg) }

/-! ## 3. Listing games and members -/

/-- The message of `GetTheGamesAvailable`. -/
def gamesMessage (games : List Game) : Bytes :=
  games.foldl (fun gameNames v => gameNames ++ bytes (if v.active then "-2-" else "-1-") ++ v.name)
    (bytes "GAMES")

/-- `GetTheGamesAvailable(plr, msg)` -/
def getTheGamesAvailable (e : Engine) (plr : Guid) (s : Lobby) : Call :=
  let games := (s.games.pairs e.layout Engine.gamesSite).map Prod.snd
  send (addonFrames plr (gamesMessage games) 1) s

/-- The names of the members of a game that are in the world. -/
def membersInWorld (s : Lobby) (members : List Guid) : List Bytes :=
  (members.filter s.inWorld).map s.nameOf

/-- The message of `PLRSLB`. -/
def playersMessage (names : List Bytes) : Bytes :=
  names.foldl (fun peopleInGame name => peopleInGame ++ bytes "-" ++ name) (bytes "PLAYERS")

/-- The members of the game at `k` in the order of `pairs(v[5])`. -/
def members (e : Engine) (k : ℕ) (v : Game) : List Guid :=
  (v.players.pairs e.layout (Engine.playersSite k)).map Prod.snd

/-- `PLRSLB(plr, msg)` -/
def plrslb (e : Engine) (plr : Guid) (msg : Bytes) (s : Lobby) : Call :=
  (filterUnwantedChars msg s).bind fun s =>
  match s.gameData plr with
  | none => send [.broadcast plr (bytes "ERROR: You are not in a game.")] s
  | some _ =>
    match firstNamed e s msg with
    | none => ok s
    | some (k, v) =>
      send (addonFrames plr (playersMessage (membersInWorld s (members e k v))) 2) s

/-! ## 4. Dispatch -/

/-- The packet `SMSG_LOGIN_SETTIMESPEED` (66) that sets the time of day. -/
def timePacket (e : Engine) (plr : Guid) : Effect :=
  .sendPacket plr 66 e.initialTime (1.20000024 : ℚ) 0

/-- `test(plr, msg)` -/
def test (e : Engine) (plr : Guid) (s : Lobby) : Call :=
  send [.broadcast plr (bytes "Testing..."), timePacket e plr] s

/-- The keys of `functionLookup`. -/
inductive Command where
  | mainMenu
  | createGame
  | plrslb
  | joinGame
  | selectTalents
  | leaveGame
  | test
deriving DecidableEq

/-- `functionLookup[prefix]` -/
def functionLookup (e : Engine) : Command → Guid → Bytes → Lobby → Call
  | .mainMenu => fun plr _ => getTheGamesAvailable e plr
  | .createGame => createGame e
  | .plrslb => plrslb e
  | .joinGame => joinGame e
  -- writes a row of `character_perks`, touches no variable of the lobby and sends nothing
  | .selectTalents => fun _ _ => ok
  | .leaveGame => leaveGame e
  | .test => fun plr _ => test e plr

/-- The string a command is looked up by. -/
def Command.key : Command → Bytes
  | .mainMenu => bytes "MAINMENU"
  | .createGame => bytes "CREATEGAME"
  | .plrslb => bytes "PLRSLB"
  | .joinGame => bytes "JoinGame"
  | .selectTalents => bytes "SelectTalents"
  | .leaveGame => bytes "LEAVEGAME"
  | .test => bytes "TEST"

/-- The command of a prefix. -/
def commandOf (pfx : Bytes) : Option Command :=
  [Command.mainMenu, .createGame, .plrslb, .joinGame, .selectTalents, .leaveGame, .test].find?
    fun c => c.key = pfx

/-- `onReceiveAddonMsg(event, plr, Type, prefix, msg, receiver)` -/
def onReceiveAddonMsg (e : Engine) (plr : Guid) (pfx : Bytes) (msg : Option Bytes)
    (receiver : Guid) (s : Lobby) : Call :=
  if receiver ≠ plr then ok s
  else match msg with
    | none => ok s
    | some msg =>
      match commandOf pfx with
      | none => ok s
      | some c => functionLookup e c plr msg s

/-! ## 5. Logging out and releasing the spirit -/

/-- A Lua number as a C `int`: the conversion of `luaL_checkint`. -/
def toInt32 (n : ℕ) : ℤ := Int.bmod n (2 ^ 32)

/-- `table.remove(v[5], pos)` for the game `v` at `k` -/
def removePlayerAt (e : Engine) (k : ℕ) (v : Game) (pos : ℤ) (s : Lobby) : Call :=
  match v.players.remove e.layout (Engine.playersSite k) pos with
  | none => raise .outOfBounds s
  | some players => ok (s.modifyGame k fun v => { v with players := players })

/-- `PLAYER_EVENT_ON_LOGOUT` of `Game.lua` -/
def playerEventOnLogout (e : Engine) (plr : Guid) (s : Lobby) : Call :=
  match s.gameData plr with
  | none => ok s
  | some data =>
    let s := s.setGameData plr none
    match firstNamed e s data with
    | none => ok s
    | some (k, v) => removePlayerAt e k v (toInt32 plr) s

/-- `plr:Teleport(map, ..)`: to another map the engine takes the player out of the world at
once; on his own map he stays in it. -/
def teleport (e : Engine) (plr : Guid) (map : ℕ) (loc : Location) (s : Lobby) : Call :=
  send [.teleport plr map loc]
    (if e.refuses plr map ∨ s.mapId plr = map then s
      else (s.setPresence plr .loading).setMap plr map)

section Teleport

variable (e : Engine) (plr : Guid) (map : ℕ) (loc : Location) (s : Lobby)

@[simp] theorem teleport_error : (teleport e plr map loc s).error = none := rfl

@[simp] theorem teleport_games : (teleport e plr map loc s).state.games = s.games := by
  simp only [teleport, send_state]
  split <;> rfl

@[simp] theorem teleport_gameId : (teleport e plr map loc s).state.gameId = s.gameId := by
  simp only [teleport, send_state]
  split <;> rfl

end Teleport

/-- `Teleport(13, 0.0, 0.0, 0.0, 0.0)`: the lobby's map. -/
def teleportHome (e : Engine) (plr : Guid) (s : Lobby) : Call := teleport e plr 13 ⟨0, 0, 0, 0⟩ s

/-- `PLAYER_EVENT_ON_REPOP` of `Hooks.lua` -/
def playerEventOnRepop (e : Engine) (plr : Guid) (s : Lobby) : Call :=
  (send [.broadcast plr (bytes "Repop"), .resurrect plr] s).bind fun s =>
  (teleportHome e plr s).bind fun s =>
  send (addonFrames plr (bytes "RESET") 3) (s.setGameData plr none)

end HungerGames.Arena
