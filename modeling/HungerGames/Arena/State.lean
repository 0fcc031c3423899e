/-
# The state of the lobby (`Game.lua`)

`Game.lua` keeps the registered games in one table and a game in another, by position:
`{ id, name, active, host, {players}, state, data }`.  What it knows of a player is the string
`plr:GetData("GAME")`, the name of the game he is in.  Whether a player exists at all is the
engine's business: `GetPlayerByGUID` finds the players who are IN THE WORLD, and a player who
is being moved to another map is not, from the moment he leaves the old one until his client
has loaded the new one.

This module has that state, the answers the engine gives to a handler, and what a handler can
make the engine do.
-/
import Mathlib.Data.List.Sort
import Mathlib.Data.Rat.Defs
import HungerGames.Lua.Call
import HungerGames.Lua.Table
import HungerGames.Lua.Text

namespace HungerGames.Arena

open HungerGames.Lua

/-! ## 1. Games -/

/-- A player's GUID.  Its high part is `0`, so that `GetGUID` and `GetGUIDLow` are one number. -/
abbrev Guid := ℕ

/-- What `GetGUID` hands to Lua: the GUID as a string of digits. -/
def guidString (plr : Guid) : Bytes := decimal plr

/-- An entry `{x, y, z, o}` of the table of spawn locations. -/
structure Location where
  x : ℚ
  y : ℚ
  z : ℚ
  o : ℚ
deriving DecidableEq

/-- A game object, by its GUID. -/
abbrev Obj := ℕ

/-- `game[7]`: the spawn locations from the start of the game to its first tick, the spawned
objects from then on. -/
inductive GameData where
  | locations (t : Table Location)
  | objects (t : Table Obj)
deriving DecidableEq

/-- `Game = { id, name, active, host, {players}, state, data }` -/
structure Game where
  id : ℕ
  name : Bytes
  active : Bool
  host : Guid
  players : Table Guid
  state : Option ℕ
  data : Option GameData
deriving DecidableEq

/-! ## 2. The lobby -/

/-- Where the engine has a player. -/
inductive Presence where
  | offline
  /-- logged in, on no map: his client is loading one -/
  | loading
  | inWorld
deriving DecidableEq

/-- The script's variables, and the part of the engine's state its calls read or write. -/
structure Lobby where
  gameId : ℕ
  games : Table Game
  /-- `plr:GetData("GAME")` -/
  gameData : Guid → Option Bytes
  presence : Guid → Presence
  /-- the map a player is on, or is loading -/
  mapId : Guid → ℕ
  /-- `plr:GetName()` -/
  nameOf : Guid → Bytes

namespace Lobby

/-- `GetPlayerByGUID(g)` is not `nil`. -/
def inWorld (s : Lobby) (g : Guid) : Bool := s.presence g = .inWorld

/-- A session with the player logged in exists. -/
def online (s : Lobby) (g : Guid) : Bool := s.presence g ≠ .offline

/-- `plr:SetData("GAME", v)` -/
def setGameData (s : Lobby) (g : Guid) (v : Option Bytes) : Lobby :=
  { s with gameData := fun p => if p = g then v else s.gameData p }

def setPresence (s : Lobby) (g : Guid) (pr : Presence) : Lobby :=
  { s with presence := fun p => if p = g then pr else s.presence p }

def setMap (s : Lobby) (g : Guid) (map : ℕ) : Lobby :=
  { s with mapId := fun p => if p = g then map else s.mapId p }

/-- `games[k] = nil` -/
def removeGame (s : Lobby) (k : ℕ) : Lobby := { s with games := s.games.set k none }

/-- Assign to fields of the game at `k`. -/
def modifyGame (s : Lobby) (k : ℕ) (f : Game → Game) : Lobby :=
  match s.games.get k with
  | none => s
  | some game => { s with games := s.games.set k (some (f game)) }

/-- The server has just started. -/
def init (nameOf : Guid → Bytes) : Lobby where
  gameId := 1
  games := Table.empty
  gameData _ := none
  presence _ := .offline
  mapId _ := 0
  nameOf := nameOf

end Lobby

/-- `n + 1` in Lua, where numbers are doubles: from `2^53` on adding one changes nothing. -/
def numSucc (n : ℕ) : ℕ := if n < 2 ^ 53 then n + 1 else n

/-! ## 3. The engine -/

/-- The engine's answers to the calls of one handler. -/
structure Engine where
  layout : Layout
  /-- `Teleport` to another map is refused -/
  refuses : Guid → ℕ → Bool
  /-- the object the `n`-th spawn of a game yields, if any -/
  spawn : ℕ → ℕ → Option Obj
  /-- the object still exists -/
  stillExists : Obj → Bool
  /-- the draws behind `math.random()` for a game -/
  random : ℕ → ℕ → ℕ
  /-- `GetHungerGamesInitialTime()` -/
  initialTime : ℕ

namespace Engine

/-- `games` -/
def gamesSite : Site := .named 0

/-- The player list of the game at `k`. -/
def playersSite (k : ℕ) : Site := .named (k + 1)

end Engine

/-- What a handler makes the engine do. -/
inductive Effect where
  /-- `plr:SendBroadcastMessage(text)` -/
  | broadcast (plr : Guid) (text : Bytes)
  /-- `plr:SendAddonMessage(frame, "", 7, plr)` -/
  | addonMessage (plr : Guid) (frame : Bytes)
  | setPhaseMask (plr : Guid) (mask : ℕ)
  | teleport (plr : Guid) (map : ℕ) (loc : Location)
  /-- `plr:SendPacket(p)`, `p` made of an opcode, a `ULong`, a `Float` and a `ULong` -/
  | sendPacket (plr : Guid) (opcode time : ℕ) (speed : ℚ) (last : ℕ)
  | playSound (plr : Guid) (sound : ℕ)
  | resurrect (plr : Guid)
  /-- `PerformIngameSpawn(2, entry, map, 0, x, y, z, 0, false, 0, phase)` -/
  | spawn (entry map : ℕ) (x y z : ℚ) (phase : ℕ)
  | setScale (obj : Obj) (scale : ℚ)
  | setUInt32Value (obj : Obj) (index value : ℕ)
  | despawn (obj : Obj) (delay : ℕ)
  /-- no effect: the loop of `updateAllGames` has reached the game at `k` -/
  | visit (k : ℕ)
deriving DecidableEq

/-- The errors a handler can run into. -/
inductive LuaError where
  /-- "attempt to index a nil value" -/
  | indexNil
  /-- "attempt to compare nil with number" -/
  | compareNil
  /-- "bad argument": a value the C side refuses -/
  | badArgument
  /-- "position out of bounds" -/
  | outOfBounds
  /-- "pointer to nonexisting object" -/
  | noObject
deriving DecidableEq

/-- A handler's call. -/
abbrev Call := Outcome Lobby Effect LuaError

/-! ## 4. Reading after writing -/

namespace Lobby

variable (s : Lobby) (g : Guid) (k : ℕ)

@[simp] theorem games_setGameData (v : Option Bytes) : (s.setGameData g v).games = s.games := rfl
@[simp] theorem presence_setGameData (v : Option Bytes) :
    (s.setGameData g v).presence = s.presence := rfl
@[simp] theorem gameId_setGameData (v : Option Bytes) :
    (s.setGameData g v).gameId = s.gameId := rfl
@[simp] theorem gameData_setPresence (pr : Presence) :
    (s.setPresence g pr).gameData = s.gameData := rfl
@[simp] theorem gameId_setPresence (pr : Presence) :
    (s.setPresence g pr).gameId = s.gameId := rfl
@[simp] theorem gameData_setMap (map : ℕ) : (s.setMap g map).gameData = s.gameData := rfl
@[simp] theorem presence_setMap (map : ℕ) : (s.setMap g map).presence = s.presence := rfl
variable {s g k}

theorem gameData_setGameData (p : Guid) (v : Option Bytes) :
    (s.setGameData g v).gameData p = if p = g then v else s.gameData p := rfl

theorem presence_setPresence (p : Guid) (pr : Presence) :
    (s.setPresence g pr).presence p = if p = g then pr else s.presence p := rfl

section Modify

variable (f : Game → Game)

@[simp] theorem gameData_modifyGame : (s.modifyGame k f).gameData = s.gameData := by
  unfold modifyGame
  split <;> rfl

@[simp] theorem presence_modifyGame : (s.modifyGame k f).presence = s.presence := by
  unfold modifyGame
  split <;> rfl

@[simp] theorem mapId_modifyGame : (s.modifyGame k f).mapId = s.mapId := by
  unfold modifyGame
  split <;> rfl

@[simp] theorem gameId_modifyGame : (s.modifyGame k f).gameId = s.gameId := by
  unfold modifyGame
  split <;> rfl

/-- Writing to one game: the others are as they were. -/
theorem get_modifyGame (j : ℕ) :
    (s.modifyGame k f).games.get j = if j = k then (s.games.get k).map f else s.games.get j := by
  unfold modifyGame
  cases hk : s.games.get k with
  | none =>
    simp only [Option.map_none]
    split
    · rename_i h
      rw [h, hk]
    · rfl
  | some game =>
    exact Table.get_set s.games (Table.ne_zero_of_get hk) (some (f game)) j

theorem get_modifyGame_self {game : Game} (h : s.games.get k = some game) :
    (s.modifyGame k f).games.get k = some (f game) := by
  rw [get_modifyGame, if_pos rfl, h]
  rfl

theorem get_modifyGame_ne {j : ℕ} (h : j ≠ k) :
    (s.modifyGame k f).games.get j = s.games.get j := by
  rw [get_modifyGame, if_neg h]

theorem modifyGame_setGameData (g : Guid) (v : Option Bytes) :
    (s.setGameData g v).modifyGame k f = (s.modifyGame k f).setGameData g v := by
  unfold modifyGame
  rw [games_setGameData]
  split <;> rfl

end Modify

theorem inWorld_iff : s.inWorld g = true ↔ s.presence g = .inWorld := by simp [inWorld]

theorem online_iff : s.online g = true ↔ s.presence g ≠ .offline := by simp [online]

theorem online_of_inWorld (h : s.inWorld g = true) : s.online g = true := by
  rw [inWorld_iff] at h
  rw [online_iff, h]
  decide

end Lobby

end HungerGames.Arena
