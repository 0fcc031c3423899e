/-
# The one-second tick (`updateAllGames`)

Once a second the script walks through the registered games.  A waiting game whose host is
gone is dissolved, another one has its list purged of players who are not in the world, and
starts when `#` of what is left has reached three.  A started game spawns its chests on its
first tick and removes them on its thirtieth.

The whole walk is one protected call: an error in one game ends it for the games behind it.
-/
import HungerGames.Arena.Commands

namespace HungerGames.Arena

open HungerGames.Lua
open HungerGames.Lua.Outcome

/-! ## 1. Starting a game -/

/-- `local NUM_PLAYERS_TO_START_GAME = 3` -/
def numPlayersToStartGame : ℕ := 3

/-- The table `locations` of `handleStartGame`. -/
def locations : List Location :=
  [⟨-4088.836, 3880.989, 6.6, 3.952591⟩,
   ⟨-4105.4, 3897.5744, 6.6, 3.913325⟩,
   ⟨-4121.458, 3914.43, 6.6, 3.960447⟩,
   ⟨-4088.836, 3880.989, 6.6, 3.952591⟩,
   ⟨-4105.4, 3897.5744, 6.6, 3.913325⟩,
   ⟨-4121.458, 3914.43, 6.6, 3.960447⟩,
   ⟨-4088.836, 3880.989, 6.6, 3.952591⟩,
   ⟨-4105.4, 3897.5744, 6.6, 3.913325⟩,
   ⟨-4121.458, 3914.43, 6.6, 3.960447⟩,
   ⟨-4088.836, 3880.989, 6.6, 3.952591⟩]

/-- `shuffled(tab)`: order the indices by a random draw for each. -/
def shuffled {α : Type} (draw : ℕ → ℕ) (tab : List α) : List α :=
  ((tab.zipIdx 1).insertionSort fun a b => draw a.2 ≤ draw b.2).map Prod.fst

theorem perm_shuffled {α : Type} (draw : ℕ → ℕ) (tab : List α) : (shuffled draw tab).Perm tab := by
  have h := (List.perm_insertionSort (fun a b : α × ℕ => draw a.2 ≤ draw b.2)
    (tab.zipIdx 1)).map Prod.fst
  rwa [List.zipIdx_map_fst] at h

/-- The largest number `CHECKVAL<uint32>` accepts. -/
def maxUInt32 : ℕ := 4294967295

/-- `rPlr:SetPhaseMask(mask)` -/
def setPhaseMask (plr : Guid) (mask : ℕ) (s : Lobby) : Call :=
  if mask ≤ maxUInt32 then send [.setPhaseMask plr mask] s else raise .badArgument s

/-- A loop of the script runs on the lobby and on the loop's own variables. -/
structure Loop (α : Type) where
  lobby : Lobby
  vars : α

/-- A call of the lobby inside such a loop. -/
def inLoop {α : Type} (f : Lobby → Call) (st : Loop α) : Outcome (Loop α) Effect LuaError :=
  (f st.lobby).mapState fun s => ⟨s, st.vars⟩

/-- The body of the loop of `handleStartGame`; the loop's variable is `count`. -/
def startPlayer (e : Engine) (id : ℕ) (locs : Table Location) (plr : Guid) (st : Loop ℕ) :
    Outcome (Loop ℕ) Effect LuaError :=
  if st.lobby.inWorld plr then
    (inLoop (send [.broadcast plr (bytes "The game will start in 30 seconds!")]) st).bind fun st =>
    (inLoop (setPhaseMask plr id) st).bind fun st =>
    match locs.get st.vars with
    | none => raise .indexNil st
    | some loc =>
      (inLoop (teleport e plr 800 loc) st).bind fun st =>
      send (addonFrames plr (bytes "STARTINGGAME") 3 ++ [timePacket e plr])
        ⟨st.lobby, st.vars + 1⟩
  else ok st

/-- `handleStartGame(game)`, `game` the game at `k`. -/
def handleStartGame (e : Engine) (k : ℕ) (game : Game) (s : Lobby) : Call :=
  let s := s.modifyGame k fun game => { game with active := true, state := some 1 }
  let locs := Table.ofList (shuffled (e.random k) locations)
  ((forEach (startPlayer e game.id locs) (members e k game) ⟨s, 1⟩).mapState Loop.lobby).bind
    fun s => ok (s.modifyGame k fun game => { game with data := some (.locations locs) })

/-! ## 2. A waiting game -/

/-- The body of the loop for a bad host. -/
def removeFromQueue (plr : Guid) (s : Lobby) : Call :=
  if s.inWorld plr then
    send (addonFrames plr (bytes "RESET") 3 ++
        [.broadcast plr
          (bytes "You have been removed from the queue because the host went offline.")])
      (s.setGameData plr none)
  else ok s

/-- The body of the loop `-- Check we have enough players`. -/
def purgePlayer (e : Engine) (k : ℕ) (entry : ℕ × Guid) (s : Lobby) : Call :=
  if s.inWorld entry.2 then
    if s.mapId entry.2 ≠ 13 then teleportHome e entry.2 s else ok s
  else ok (s.modifyGame k fun game => { game with players := game.players.set entry.1 none })

/-- `handleInactiveGame(game, k)` -/
def handleInactiveGame (e : Engine) (k : ℕ) (game : Game) (s : Lobby) : Call :=
  if s.inWorld game.host then
    (forEach (purgePlayer e k) (game.players.pairs e.layout (Engine.playersSite k)) s).bind fun s =>
    match s.games.get k with
    | none => ok s
    | some game =>
      if game.players.length e.layout (Engine.playersSite k) ≥ numPlayersToStartGame then
        handleStartGame e k game s
      else ok s
  else
    (forEach removeFromQueue (members e k game) s).bind fun s => ok (s.removeGame k)

/-! ## 3. A started game -/

/-- `locations[count]`; indexing the result further fails when there is nothing. -/
def locationAt (data : Option GameData) (count : ℕ) : Option Location :=
  match data with
  | some (.locations t) => t.get count
  | _ => none

/-- The body of the spawning loop of `handleActiveGame`; its variables are `count` and
`temp`. -/
def spawnFor (e : Engine) (k id : ℕ) (data : Option GameData) (plr : Guid)
    (st : Loop (ℕ × List Obj)) : Outcome (Loop (ℕ × List Obj)) Effect LuaError :=
  if st.lobby.inWorld plr then
    match locationAt data st.vars.1 with
    | none => raise .indexNil st
    | some loc =>
      if id ≤ maxUInt32 then
        (send [.spawn 184719 800 loc.x loc.y loc.z id] st).bind fun st =>
        match e.spawn k st.vars.1 with
        | none => raise .indexNil st
        | some obj =>
          send [.setScale obj 0.05, .setUInt32Value obj (0x0006 + 0x0003) 0x1]
            ⟨st.lobby, st.vars.1 + 1, st.vars.2 ++ [obj]⟩
      else raise .badArgument st
  else ok st

/-- `obj:Despawn(0)` -/
def despawn (e : Engine) (obj : Obj) (s : Lobby) : Call :=
  if e.stillExists obj then send [.despawn obj 0] s else raise .noObject s

/-- `plr:PlaySoundToPlayer(3439)` for a player in the world. -/
def playStartSound (plr : Guid) (s : Lobby) : Call :=
  if s.inWorld plr then send [.playSound plr 3439] s else ok s

/-- `handleActiveGame(game)`, `game` the game at `k`. -/
def handleActiveGame (e : Engine) (k : ℕ) (game : Game) (s : Lobby) : Call :=
  match game.state with
  | none => raise .compareNil s
  | some state =>
    if state = 1 then
      ((forEach (spawnFor e k game.id game.data) (members e k game) ⟨s, 1, []⟩).bind fun st =>
        ok ⟨st.lobby.modifyGame k fun game =>
          { game with data := some (.objects (Table.ofList st.vars.2)), state := some 2 },
          st.vars⟩).mapState Loop.lobby
    else if state < 30 then ok (s.modifyGame k fun game => { game with state := some (state + 1) })
    else if state = 30 then
      match game.data with
      | some (.objects objs) =>
        (forEach (despawn e) ((objs.pairs e.layout .built).map Prod.snd) s).bind fun s =>
        (forEach playStartSound (members e k game) s).bind fun s =>
        ok (s.modifyGame k fun game => { game with state := some 31 })
      -- `pairs(nil)`, or a location asked to despawn
      | _ => raise .indexNil s
    else ok s

/-! ## 4. The walk -/

/-- The body of the loop of `updateAllGames` for the key `k`.  A game is a reference: what is
handled is the game as it is by now. -/
def updateGame (e : Engine) (k : ℕ) (s : Lobby) : Call :=
  match s.games.get k with
  | none => ok s
  | some game =>
    (send [.visit k] s).bind fun s =>
    if game.active then handleActiveGame e k game s else handleInactiveGame e k game s

/-- `updateAllGames()` -/
def updateAllGames (e : Engine) (s : Lobby) : Call :=
  forEach (updateGame e) (e.layout.next Engine.gamesSite s.games.keys) s

end HungerGames.Arena
