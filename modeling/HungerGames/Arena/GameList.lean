/-
# The lists the client shows

`GetTheGamesAvailable` and `PLRSLB` write their lists with `-` between the words, after a
filter that is there to keep `-` out of the names and does nothing.  `scen_split` cuts at
every `-`, skips the bytes it does not know, and closes up over a field that stays empty.  So
a list arrives as it was exactly when every name in it is a word: not empty, and made of
letters, digits and white space (`lists_arrive_iff`).
-/
import HungerGames.Addon.Tokens
import HungerGames.Arena.System

namespace HungerGames.Arena

open HungerGames.Lua
open HungerGames.Lua.Outcome
open HungerGames.System
open HungerGames.Addon

/-! ## 1. The messages as words -/

/-- `1` for a waiting game, `2` for an active one. -/
def Game.status (v : Game) : Bytes := bytes (if v.active then "2" else "1")

/-- What the client is to show of a list of games. -/
def statusName (games : List Game) : List (Bytes × Bytes) := games.map fun v => (v.status, v.name)

theorem word_status (v : Game) : Word v.status := by
  unfold Game.status
  split <;> decide

theorem status_append (v : Game) :
    bytes (if v.active then "-2-" else "-1-") ++ v.name = dash :: v.status ++ dash :: v.name := by
  unfold Game.status
  split <;> rfl

/-- **The message of the games** is its head and the tokens of the pairs. -/
theorem gamesMessage_eq (games : List Game) :
    gamesMessage games = joined (bytes "GAMES") (pairTokens (statusName games)) := by
  have hfold : ∀ (games : List Game) (h : Bytes),
      games.foldl (fun gameNames v =>
        gameNames ++ bytes (if v.active then "-2-" else "-1-") ++ v.name) h
      = joined h (pairTokens (statusName games)) := by
    intro games
    induction games with
    | nil => intro h; simp [joined, pairTokens, statusName]
    | cons v games ih =>
      intro h
      have hcons : pairTokens (statusName (v :: games))
          = [v.status, v.name] ++ pairTokens (statusName games) := rfl
      have hhead : joined h [v.status, v.name]
          = h ++ bytes (if v.active then "-2-" else "-1-") ++ v.name := by
        rw [List.append_assoc, status_append]
        simp [joined]
      rw [List.foldl_cons, ih, hcons, joined_append, hhead]
  exact hfold games (bytes "GAMES")

/-- **The message of the members** is its head and their names. -/
theorem playersMessage_eq (names : List Bytes) :
    playersMessage names = joined (bytes "PLAYERS") names := by
  have hfold : ∀ (names : List Bytes) (h : Bytes),
      names.foldl (fun peopleInGame name => peopleInGame ++ bytes "-" ++ name) h
        = joined h names := by
    intro names
    induction names with
    | nil => intro h; simp [joined]
    | cons name names ih =>
      intro h
      have hcons : name :: names = [name] ++ names := rfl
      have hhead : joined h [name] = h ++ bytes "-" ++ name := by
        simp [joined, bytes, dash]
      rw [List.foldl_cons, ih, hcons, joined_append, hhead]
  exact hfold names (bytes "PLAYERS")

/-! ## 2. The client's branches -/

theorem starts_append (p t : Bytes) : starts (p ++ t) p = true := by
  simp [starts, sub]

/-- A string that starts differently is a different string. -/
theorem append_ne_of_take {p q t : Bytes} (h : p.take 1 ≠ q.take 1) (hp : p ≠ []) :
    p ++ t ≠ q := by
  intro he
  obtain ⟨c, p, rfl⟩ := List.exists_cons_of_ne_nil hp
  refine h ?_
  rw [← he]
  simp

theorem handleFullMessage_games (L : Layout) (c : Client) (t : Bytes) :
    (handleFullMessage L c (bytes "GAMES-" ++ t)).onlinePlayers
      = pairGames (scenSplit L (bytes "GAMES-" ++ t)) c.onlinePlayers := by
  unfold handleFullMessage
  rw [if_neg (append_ne_of_take (by decide) (by decide)),
    if_neg (append_ne_of_take (by decide) (by decide)),
    if_neg (append_ne_of_take (by decide) (by decide)), if_pos (starts_append _ t)]

theorem handleFullMessage_players (L : Layout) (c : Client) (t : Bytes) :
    (handleFullMessage L c (bytes "PLAYERS-" ++ t)).onlinePlayers
      = listPlayers (scenSplit L (bytes "PLAYERS-" ++ t)) c.onlinePlayers := by
  have hstarts : ¬ starts (bytes "PLAYERS-" ++ t) (bytes "GAMES-") = true := by
    have hlen : (bytes "GAMES-").length = 6 := rfl
    have htake : sub (bytes "PLAYERS-" ++ t) 1 6 = bytes "PLAYER" := rfl
    rw [starts, hlen, htake]
    decide
  unfold handleFullMessage
  rw [if_neg (append_ne_of_take (by decide) (by decide)),
    if_neg (append_ne_of_take (by decide) (by decide)),
    if_neg (append_ne_of_take (by decide) (by decide)), if_neg hstarts,
    if_pos (starts_append _ t)]

/-- The rows the client holds after a full message, when it held none before. -/
def rowsAfter (L : Layout) (c : Client) (fullMessage : Bytes) : Table Entry :=
  (handleFullMessage L { c with onlinePlayers := Table.empty } fullMessage).onlinePlayers

/-- A list message is its head, a dash and more, when the list is not empty. -/
theorem joined_cons (h w : Bytes) (ws : List Bytes) :
    joined h (w :: ws) = (h ++ bytes "-") ++ (w ++ ws.flatMap fun w => dash :: w) := by
  simp [joined, bytes, dash]

theorem rowsAfter_gamesMessage (L : Layout) (c : Client) {games : List Game} (h : games ≠ []) :
    rowsAfter L c (gamesMessage games)
      = pairGames (scenSplit L (gamesMessage games)) Table.empty := by
  obtain ⟨v, games, rfl⟩ := List.exists_cons_of_ne_nil h
  have hcons : pairTokens (statusName (v :: games))
      = v.status :: v.name :: pairTokens (statusName games) := rfl
  rw [gamesMessage_eq, hcons, joined_cons]
  exact handleFullMessage_games L _ _

theorem rowsAfter_playersMessage (L : Layout) (c : Client) {names : List Bytes} (h : names ≠ []) :
    rowsAfter L c (playersMessage names)
      = listPlayers (scenSplit L (playersMessage names)) Table.empty := by
  obtain ⟨name, names, rfl⟩ := List.exists_cons_of_ne_nil h
  rw [playersMessage_eq, joined_cons]
  exact handleFullMessage_players L _ _

/-! ## 3. What arrives -/

/-- The names of the rows that arrive are words. -/
theorem word_of_rows {L : Layout} {str : Bytes} {rows : List Entry}
    (h : NamesIn (scenSplit L str) (Table.ofList rows)) {r : Entry} {n : Bytes} (hr : r ∈ rows)
    (hn : r.name = some n) : Word n := by
  obtain ⟨j, hj, rfl⟩ := List.getElem_of_mem hr
  refine word_of_mem_scenSplit (h (j + 1) rows[j] n ?_ hn)
  rw [Table.get_ofList]
  simp [hj]

/-- **The list of games arrives** exactly when every name is a word. -/
theorem games_arrive_iff (L : Layout) (c : Client) (games : List Game) :
    rowsAfter L c (gamesMessage games) = Table.ofList (gameRows (statusName games)) ↔
      ∀ v ∈ games, Word v.name := by
  by_cases hne : games = []
  · subst hne
    exact iff_of_true rfl (by simp)
  rw [rowsAfter_gamesMessage L c hne]
  constructor
  · intro h v hv
    have hin := namesIn_pairGames (scenSplit L (gamesMessage games))
    rw [h] at hin
    refine word_of_rows hin (r := ⟨some v.name, some v.status⟩) ?_ rfl
    exact List.mem_map.mpr ⟨(v.status, v.name), List.mem_map.mpr ⟨v, hv, rfl⟩, rfl⟩
  · intro h
    have hwords : ∀ w ∈ pairTokens (statusName games), Word w := by
      intro w hw
      obtain ⟨p, hp, hw⟩ := List.mem_flatMap.mp hw
      obtain ⟨v, hv, rfl⟩ := List.mem_map.mp hp
      rcases List.mem_pair.mp hw with rfl | rfl
      · exact word_status v
      · exact h v hv
    rw [gamesMessage_eq, scenSplit_joined L (by decide) hwords, pairGames_pairTokens]

/-- **The list of members arrives** exactly when every name is a word. -/
theorem players_arrive_iff (L : Layout) (c : Client) (names : List Bytes) :
    rowsAfter L c (playersMessage names) = Table.ofList (playerRows names) ↔
      ∀ name ∈ names, Word name := by
  by_cases hne : names = []
  · subst hne
    exact iff_of_true rfl (by simp)
  rw [rowsAfter_playersMessage L c hne]
  constructor
  · intro h name hname
    have hin := namesIn_listPlayers (scenSplit L (playersMessage names))
    rw [h] at hin
    refine word_of_rows hin (r := ⟨some name, some (bytes "1")⟩) ?_ rfl
    exact List.mem_map.mpr ⟨name, hname, rfl⟩
  · intro h
    rw [playersMessage_eq, scenSplit_joined L (by decide) h, listPlayers_cons]

/-- **The lists arrive as they were** exactly when every name in them is a word: the games with
their states, and the members the script finds with `GetPlayerByGUID`. -/
theorem lists_arrive_iff (L : Layout) (c : Client) (games : List Game) (s : Lobby)
    (members : List Guid) :
    (rowsAfter L c (gamesMessage games) = Table.ofList (gameRows (statusName games)) ↔
        ∀ v ∈ games, Word v.name) ∧
      (rowsAfter L c (playersMessage (membersInWorld s members))
          = Table.ofList (playerRows (membersInWorld s members)) ↔
        ∀ p ∈ members, s.inWorld p = true → Word (s.nameOf p)) := by
  refine ⟨games_arrive_iff L c games, (players_arrive_iff L c _).trans ?_⟩
  constructor
  · intro h p hp hin
    exact h (s.nameOf p) (List.mem_map.mpr ⟨p, List.mem_filter.mpr ⟨hp, hin⟩, rfl⟩)
  · intro h name hname
    obtain ⟨p, hp, rfl⟩ := List.mem_map.mp hname
    obtain ⟨hp, hin⟩ := List.mem_filter.mp hp
    exact h p hp hin

/-- The games `GetTheGamesAvailable` lists. -/
def listed (s : Lobby) : List Game :=
  (s.games.pairs Engine.plain.layout Engine.gamesSite).map Prod.snd

/-- Player 1 creates a game. -/
def named (msg : Bytes) : Lobby :=
  exec step (Lobby.init fun _ => []) (enter 1 ++ [say 1 .createGame msg])

/-- The game `A-B` arrives as two: a waiting game `A`, and one without a name in the state `B`. -/
theorem lists_arrive_garbled :
    statusName (listed (named (bytes "A-B"))) = [(bytes "1", bytes "A-B")] ∧
      rowsAfter Layout.plain (Client.fresh []) (gamesMessage (listed (named (bytes "A-B"))))
        = Table.ofList [⟨some (bytes "A"), some (bytes "1")⟩, ⟨none, some (bytes "B")⟩] ∧
      rowsAfter Layout.plain (Client.fresh []) (gamesMessage (listed (named (bytes "A-B"))))
        ≠ Table.ofList (gameRows (statusName (listed (named (bytes "A-B"))))) := by
  decide +kernel

end HungerGames.Arena
