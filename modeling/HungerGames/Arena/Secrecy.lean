/-
# The password of a game

The client's dialogue for a new game has a field for a password, which it hides while it is
typed, and sends `name-password` for the name of the game.  The server knows no password: what
it registers, lists and compares is that one string.  So whoever asks for the list of games is
sent the password, and whoever names it is told by the answer that it is the right one.

Two runs that differ in the password alone are one run and the same run under another name
(`Retyped`).  `Discreet` says of a step that it neither sends the name to another player nor
compares a name with it, and then the other players are sent the same in both runs
(`secret_of_discreet`).
-/
import HungerGames.Arena.Rename

namespace HungerGames.Arena

open HungerGames.Lua
open HungerGames.Lua.Outcome
open HungerGames.System
open HungerGames.Addon (createMessage)

/-! ## 1. What the others see -/

/-- The player an effect goes to. -/
def Effect.receiver : Effect → Option Guid
  | .broadcast plr _ => some plr
  | .addonMessage plr _ => some plr
  | .setPhaseMask plr _ => some plr
  | .teleport plr _ _ => some plr
  | .sendPacket plr .. => some plr
  | .playSound plr _ => some plr
  | .resurrect plr => some plr
  | .spawn .. => none
  | .setScale .. => none
  | .setUInt32Value .. => none
  | .despawn .. => none
  | .visit _ => none

/-- Not sent to `host`. -/
def notTo (host : Guid) (w : Effect) : Bool := w.receiver ≠ some host

/-- What one step sends to players other than `host`, and does to the world. -/
def othersSee (host : Guid) (s : Lobby) (i : Engine × Event) : List Effect :=
  (effects s i).filter (notTo host)

theorem filter_notTo {host : Guid} {ws : List Effect} (h : ∀ w ∈ ws, w.receiver = some host) :
    ws.filter (notTo host) = [] :=
  List.filter_eq_nil_iff.mpr fun w hw => by simp [notTo, h w hw]

theorem receiver_addonFrames {plr : Guid} {msg : Bytes} {packet : ℕ} :
    ∀ w ∈ addonFrames plr msg packet, w.receiver = some plr := by
  intro w hw
  obtain ⟨frame, -, rfl⟩ := List.mem_map.mp hw
  rfl

/-- One outcome is the other under the changed name, as far as the others see. -/
structure Agrees (r : Retyped) (o o' : Call) : Prop where
  state : o'.state = r.lobby o.state
  sent : o'.sent.filter (notTo r.host) = o.sent.filter (notTo r.host)

namespace Agrees

variable {r : Retyped}

theorem of_mapState {o o' : Call} (h : o' = o.mapState r.lobby) : Agrees r o o' := by
  subst h
  exact ⟨rfl, rfl⟩

theorem ok {s : Lobby} : Agrees r (ok s) (ok (r.lobby s)) := ⟨rfl, rfl⟩

theorem send {s s' : Lobby} {ws ws' : List Effect} (hs : s' = r.lobby s)
    (hw : ws = ws' ∨ ∀ w ∈ ws ++ ws', w.receiver = some r.host) :
    Agrees r (send ws s) (send ws' s') := by
  refine ⟨hs, ?_⟩
  rcases hw with rfl | hw
  · rfl
  · simp only [send_sent]
    rw [filter_notTo fun w h => hw w (List.mem_append_right ws h),
      filter_notTo fun w h => hw w (List.mem_append_left ws' h)]

theorem ite {c : Prop} [Decidable c] {o₁ o₂ o₁' o₂' : Call} (h₁ : c → Agrees r o₁ o₁')
    (h₂ : ¬ c → Agrees r o₂ o₂') :
    Agrees r (if c then o₁ else o₂) (if c then o₁' else o₂') := by
  split
  · rename_i hc
    exact h₁ hc
  · rename_i hc
    exact h₂ hc

end Agrees

/-! ## 2. Discretion -/

/-- A command that does not bring the name to light. -/
def DiscreetCommand (r : Retyped) (s : Lobby) (plr : Guid) : Command → Bytes → Prop
  -- nobody else is sent the list
  | .mainMenu, _ => r.Registered s → plr = r.host
  -- the host registers no second game under the name
  | .createGame, msg => plr = r.host → s.gameData plr = none → msg ≠ r.old
  -- nobody compares a name with it
  | .joinGame, msg => s.gameData plr = none → (r.Registered s ∨ plr = r.host) → r.Fresh msg
  | .leaveGame, msg => r.Registered s → r.Fresh msg
  | .plrslb, msg => s.gameData plr ≠ none → r.Registered s → plr ≠ r.host → r.Fresh msg
  | _, _ => True

instance (r : Retyped) (s : Lobby) (plr : Guid) :
    ∀ (c : Command) (msg : Bytes), Decidable (DiscreetCommand r s plr c msg)
  | .mainMenu, _ => inferInstanceAs (Decidable (_ → _))
  | .createGame, _ => inferInstanceAs (Decidable (_ → _))
  | .joinGame, _ => inferInstanceAs (Decidable (_ → _))
  | .leaveGame, _ => inferInstanceAs (Decidable (_ → _))
  | .plrslb, _ => inferInstanceAs (Decidable (_ → _))
  | .selectTalents, _ => isTrue trivial
  | .test, _ => isTrue trivial

/-- Only the host's own game has one of the names. -/
def Sole (r : Retyped) (s : Lobby) : Prop :=
  ∀ g ∈ s.games.values, g.name ≠ r.new ∧ (g.name = r.old → g.host = r.host)

instance (r : Retyped) (s : Lobby) : Decidable (Sole r s) :=
  inferInstanceAs (Decidable (∀ g ∈ s.games.values, _))

/-- A step that does not bring the name to light. -/
def Discreet (r : Retyped) (s : Lobby) (i : Engine × Event) : Prop :=
  match i.2 with
  | .addon plr pfx msg receiver =>
    match commandSent s plr pfx msg receiver with
    | some (c, msg) => DiscreetCommand r s plr c msg
    | none => True
  -- the logout looks up the game by the name in the player's data
  | .logout plr => ∀ name ∈ s.gameData plr,
      if plr = r.host then r.Fresh name ∨ (name = r.old ∧ Sole r s)
      else r.Registered s → r.Fresh name
  | _ => True

instance (r : Retyped) (s : Lobby) (i : Engine × Event) : Decidable (Discreet r s i) := by
  unfold Discreet
  split
  · split <;> infer_instance
  all_goals infer_instance

/-! ## 3. Commands -/

section Commands

variable {r : Retyped} {e : Engine} {s : Lobby} {plr : Guid} {msg msg' : Bytes}

/-- The answer to a player who is in a game already. -/
theorem agrees_alreadyInGame {name name' : Bytes} (h : r.data plr (some name) = some name') :
    Agrees r (send [.broadcast plr (alreadyInGame name)] s)
      (send [.broadcast plr (alreadyInGame name')] (r.lobby s)) := by
  refine Agrees.send rfl ?_
  by_cases hp : plr = r.host
  · subst hp
    exact Or.inr fun w hw => by
      rcases List.mem_pair.mp hw with rfl | rfl <;> rfl
  · left
    rw [Retyped.data_eq_self (Or.inl hp), Option.some.injEq] at h
    rw [h]

/-- **Creating a game** under the name, and under the changed one. -/
theorem createGame_lobby (hn : s.gameData plr = none)
    (hgame : r.game (newGame s plr msg) = newGame s plr msg')
    (hdata : r.data plr (some msg) = some msg') :
    createGame e plr msg' (r.lobby s) = (createGame e plr msg s).mapState r.lobby := by
  have hn' : (r.lobby s).gameData plr = none := by
    rw [Retyped.gameData_lobby, hn, Retyped.data_none]
  have hinsert := Table.insert_map r.game s.games e.layout Engine.gamesSite (newGame s plr msg)
  rw [hgame] at hinsert
  simp only [createGame, filterUnwantedChars_eq, ok_bind, hn, hn']
  rw [Retyped.lobby_setGameData hdata]
  exact congrArg (fun t => ok { r.lobby (s.setGameData plr (some msg)) with
    gameId := numSucc s.gameId, games := t }) hinsert

theorem agrees_mainMenu (hd : DiscreetCommand r s plr .mainMenu msg) :
    Agrees r (getTheGamesAvailable e plr s) (getTheGamesAvailable e plr (r.lobby s)) := by
  refine Agrees.send rfl ?_
  by_cases hreg : r.Registered s
  · rw [← hd hreg]
    refine Or.inr fun w hw => ?_
    rcases List.mem_append.mp hw with hw | hw <;> exact receiver_addonFrames w hw
  · left
    rw [Retyped.games_lobby, Retyped.games_of_not_registered hreg]

theorem agrees_createGame (hd : DiscreetCommand r s plr .createGame msg) :
    Agrees r (createGame e plr msg s) (createGame e plr msg (r.lobby s)) := by
  cases hn : s.gameData plr with
  | none =>
    have hne : plr ≠ r.host ∨ some msg ≠ some r.old := by
      by_cases hp : plr = r.host
      · exact Or.inr fun h => hd hp hn (Option.some.inj h)
      · exact Or.inl hp
    refine Agrees.of_mapState (createGame_lobby hn ?_ (Retyped.data_eq_self hne))
    unfold Retyped.game
    rw [if_neg fun h => hne.elim (fun hp => hp h.1) fun hm => hm (congrArg some h.2)]
  | some name =>
    obtain ⟨name', hname'⟩ := Retyped.data_some (r := r) plr name
    have hn' : (r.lobby s).gameData plr = some name' := by
      rw [Retyped.gameData_lobby, hn, hname']
    simp only [createGame, filterUnwantedChars_eq, ok_bind, hn, hn']
    exact agrees_alreadyInGame hname'

theorem agrees_joinGame (hd : DiscreetCommand r s plr .joinGame msg) :
    Agrees r (joinGame e plr msg s) (joinGame e plr msg (r.lobby s)) := by
  cases hn : s.gameData plr with
  | some name =>
    obtain ⟨name', hname'⟩ := Retyped.data_some (r := r) plr name
    have hn' : (r.lobby s).gameData plr = some name' := by
      rw [Retyped.gameData_lobby, hn, hname']
    simp only [joinGame, filterUnwantedChars_eq, ok_bind, hn, hn']
    exact agrees_alreadyInGame hname'
  | none =>
    have hn' : (r.lobby s).gameData plr = none := by
      rw [Retyped.gameData_lobby, hn, Retyped.data_none]
    have hfirst := Retyped.firstNamed_of_fresh e fun hreg => hd hn (Or.inl hreg)
    have hdata : r.data plr (some msg) = some msg := by
      refine Retyped.data_eq_self ?_
      by_cases hp : plr = r.host
      · exact Or.inr fun h => (hd hn (Or.inr hp)).1 (Option.some.inj h)
      · exact Or.inl hp
    simp only [joinGame, filterUnwantedChars_eq, ok_bind, hn, hn', hfirst]
    cases firstNamed e s msg with
    | none => exact Agrees.ok
    | some kv =>
      obtain ⟨k, v⟩ := kv
      simp only [Option.map_some]
      have hactive : (r.game v).active = v.active := rfl
      rw [hactive]
      split
      · exact Agrees.send rfl (Or.inl rfl)
      · refine Agrees.send ?_ (Or.inl rfl)
        rw [Retyped.lobby_modifyGame]
        · exact Retyped.lobby_setGameData hdata
        · exact fun _ => rfl

theorem agrees_leaveGame (hd : DiscreetCommand r s plr .leaveGame msg) :
    Agrees r (leaveGame e plr msg s) (leaveGame e plr msg (r.lobby s)) := by
  have hfirst := Retyped.firstNamed_of_fresh e hd
  simp only [leaveGame, filterUnwantedChars_eq, ok_bind, hfirst]
  cases firstNamed e s msg with
  | none => exact Agrees.ok
  | some kv =>
    refine Agrees.send ?_ (Or.inl rfl)
    rw [Retyped.lobby_modifyGame]
    · exact Retyped.lobby_setGameData_none plr
    · exact fun _ => rfl

/-- Asking for the members changes nothing, and the answer goes to whoever asked. -/
theorem plrslb_answers (e : Engine) (plr : Guid) (msg : Bytes) (s : Lobby) :
    (plrslb e plr msg s).state = s ∧ ∀ w ∈ (plrslb e plr msg s).sent, w.receiver = some plr := by
  simp only [plrslb, filterUnwantedChars_eq, ok_bind]
  cases s.gameData plr with
  | none => exact ⟨rfl, fun w hw => by rw [List.mem_singleton.mp hw]; rfl⟩
  | some name =>
    cases firstNamed e s msg with
    | none => exact ⟨rfl, fun w hw => absurd hw List.not_mem_nil⟩
    | some kv => exact ⟨rfl, receiver_addonFrames⟩

theorem agrees_plrslb (hd : DiscreetCommand r s plr .plrslb msg) :
    Agrees r (plrslb e plr msg s) (plrslb e plr msg (r.lobby s)) := by
  by_cases hp : plr = r.host
  · obtain ⟨hs, hsent⟩ := plrslb_answers e plr msg s
    obtain ⟨hs', hsent'⟩ := plrslb_answers e plr msg (r.lobby s)
    refine ⟨by rw [hs, hs'], ?_⟩
    rw [filter_notTo fun w hw => hp ▸ hsent' w hw, filter_notTo fun w hw => hp ▸ hsent w hw]
  · have hdata : (r.lobby s).gameData plr = s.gameData plr := Retyped.data_eq_self (Or.inl hp)
    simp only [plrslb, filterUnwantedChars_eq, ok_bind, hdata]
    cases hn : s.gameData plr with
    | none => exact Agrees.send rfl (Or.inl rfl)
    | some name =>
      have hfirst := Retyped.firstNamed_of_fresh e fun hreg => hd (by rw [hn]; simp) hreg hp
      simp only [hfirst]
      cases firstNamed e s msg with
      | none => exact Agrees.ok
      | some kv => exact Agrees.send rfl (Or.inl rfl)

theorem agrees_functionLookup {c : Command} (hd : DiscreetCommand r s plr c msg) :
    Agrees r (functionLookup e c plr msg s) (functionLookup e c plr msg (r.lobby s)) := by
  cases c with
  | mainMenu => exact agrees_mainMenu hd
  | createGame => exact agrees_createGame hd
  | plrslb => exact agrees_plrslb hd
  | joinGame => exact agrees_joinGame hd
  | selectTalents => exact Agrees.ok
  | leaveGame => exact agrees_leaveGame hd
  | test => exact Agrees.send rfl (Or.inl rfl)

end Commands

/-! ## 4. Logging out -/

theorem removePlayerAt_lobby {r : Retyped} (e : Engine) (k : ℕ) (v : Game) (pos : ℤ) (s : Lobby) :
    removePlayerAt e k (r.game v) pos (r.lobby s)
      = (removePlayerAt e k v pos s).mapState r.lobby := by
  unfold removePlayerAt
  have hplayers : (r.game v).players = v.players := rfl
  rw [hplayers]
  cases v.players.remove e.layout (Engine.playersSite k) pos with
  | none => rfl
  | some t =>
    simp only
    rw [Retyped.lobby_modifyGame]
    · rfl
    · exact fun _ => rfl

/-- The logout commutes with the change when both runs find the same game. -/
theorem logoutPlayer_lobby {r : Retyped} {e : Engine} {plr : Guid} {s : Lobby}
    (h : ∀ name name', s.gameData plr = some name → r.data plr (some name) = some name' →
      firstNamed e (r.lobby (s.setGameData plr none)) name'
        = (firstNamed e (s.setGameData plr none) name).map fun kv => (kv.1, r.game kv.2)) :
    logoutPlayer e plr (r.lobby s) = (logoutPlayer e plr s).mapState r.lobby := by
  have hcall : playerEventOnLogout e plr (r.lobby s)
      = (playerEventOnLogout e plr s).mapState r.lobby := by
    unfold playerEventOnLogout
    generalize toInt32 plr = pos
    cases hn : s.gameData plr with
    | none =>
      have hn' : (r.lobby s).gameData plr = none := by
        rw [Retyped.gameData_lobby, hn, Retyped.data_none]
      rw [hn']
      rfl
    | some name =>
      obtain ⟨name', hname'⟩ := Retyped.data_some (r := r) plr name
      have hn' : (r.lobby s).gameData plr = some name' := by
        rw [Retyped.gameData_lobby, hn, hname']
      simp only [hn', Retyped.lobby_setGameData_none, h name name' hn hname']
      cases firstNamed e (s.setGameData plr none) name with
      | none => rfl
      | some kv => exact removePlayerAt_lobby e kv.1 kv.2 pos _
  unfold logoutPlayer
  rw [hcall, mapState_mapState, mapState_mapState]
  refine congrArg (fun f => mapState f (playerEventOnLogout e plr s)) ?_
  funext t
  rw [Retyped.lobby_setGameData_none]
  rfl

/-- **A discreet logout** finds the same game in both runs. -/
theorem logout_lobby {r : Retyped} {e : Engine} {plr : Guid} {s : Lobby}
    (hd : Discreet r s (e, .logout plr)) :
    logoutPlayer e plr (r.lobby s) = (logoutPlayer e plr s).mapState r.lobby := by
  refine logoutPlayer_lobby fun name name' hn hname' => ?_
  have hd := hd name hn
  by_cases hp : plr = r.host
  · rw [if_pos hp] at hd
    rcases hd with hfresh | ⟨rfl, hsole⟩
    · rw [Retyped.data_eq_self (Or.inr fun h => hfresh.1 (Option.some.inj h)),
        Option.some.injEq] at hname'
      subst hname'
      exact Retyped.firstNamed_of_fresh e fun _ => hfresh
    · have hnew : name' = r.new := by
        unfold Retyped.data at hname'
        rw [if_pos ⟨hp, rfl⟩] at hname'
        exact (Option.some.inj hname').symm
      subst hnew
      refine Retyped.firstNamed_lobby e fun g hg => ?_
      obtain ⟨hne, hhost⟩ := hsole g hg
      unfold Retyped.game
      constructor
      · intro h
        by_contra hold
        rw [if_neg fun hg' => hold hg'.2] at h
        exact hne h
      · intro hold
        rw [if_pos ⟨hhost hold, hold⟩]
  · rw [if_neg hp] at hd
    rw [Retyped.data_eq_self (Or.inl hp), Option.some.injEq] at hname'
    subst hname'
    exact Retyped.firstNamed_of_fresh e hd

/-! ## 5. Runs -/

/-- **A discreet step** does the same under the changed name, as far as the others see. -/
theorem agrees_handle {r : Retyped} {e : Engine} {ev : Event} {s : Lobby}
    (hd : Discreet r s (e, ev)) : Agrees r (handle e ev s) (handle e ev (r.lobby s)) := by
  cases ev with
  | addon plr pfx msg receiver =>
    have hsame : commandSent (r.lobby s) plr pfx msg receiver
        = commandSent s plr pfx msg receiver := rfl
    rw [handle_addon, handle_addon, hsame]
    simp only [Discreet] at hd
    cases hc : commandSent s plr pfx msg receiver with
    | none => exact Agrees.ok
    | some cm =>
      obtain ⟨c, m⟩ := cm
      rw [hc] at hd
      exact agrees_functionLookup hd
  | logout plr =>
    exact Agrees.ite (fun _ => Agrees.of_mapState (logout_lobby hd)) fun _ => Agrees.ok
  | repop plr =>
    refine Agrees.ite (fun _ => Agrees.of_mapState ?_) fun _ => Agrees.ok
    refine bind_mapState rfl fun s => ?_
    refine bind_mapState (Retyped.teleport_lobby e plr 13 _ s) fun s => ?_
    rw [Retyped.lobby_setGameData_none]
    rfl
  | tick => exact Agrees.of_mapState (Retyped.updateAllGames_lobby e s)
  | login plr map => exact Agrees.ite (fun _ => Agrees.ok) fun _ => ⟨rfl, rfl⟩
  | loaded plr map => exact Agrees.ite (fun _ => ⟨rfl, rfl⟩) fun _ => Agrees.ok
  | moved plr map => exact Agrees.ite (fun _ => ⟨rfl, rfl⟩) fun _ => Agrees.ok

/-- **Discreet runs** show the others the same under the changed name. -/
theorem outputs_lobby {r : Retyped} {s : Lobby} {is : List (Engine × Event)}
    (h : Along step (Discreet r) s is) :
    outputs step (othersSee r.host) s is = outputs step (othersSee r.host) (r.lobby s) is := by
  refine outputs_eq_of_related (R := fun s s' => s' = r.lobby s) ?_ rfl h
  rintro s s' ⟨e, ev⟩ rfl hd
  have ha := agrees_handle hd
  exact ⟨ha.state, ha.sent.symm⟩

/-- The host creates a game: the message of `CreateGameBtn`. -/
def creates (e : Engine) (host : Guid) (gameName gamePassword : Bytes) : Engine × Event :=
  (e, .addon host Command.createGame.key (some (createMessage gameName gamePassword)) host)

theorem handle_creates (e : Engine) (host : Guid) (gameName gamePassword : Bytes) (s : Lobby) :
    handle e (creates e host gameName gamePassword).2 s
      = if s.inWorld host then createGame e host (createMessage gameName gamePassword) s
        else ok s := by
  have hkey : commandOf Command.createGame.key = some .createGame := by decide
  simp only [creates, handle, onReceiveAddonMsg, hkey, ne_eq, not_true_eq_false, if_false]
  rfl

/-- **Creating the game** leaves the two runs in lobbies that differ in its name alone, and
shows the others nothing. -/
theorem creates_lobby {e : Engine} {host : Guid} {gameName password password' : Bytes} {s : Lobby}
    (hreg : ¬ Retyped.Registered ⟨host, createMessage gameName password,
      createMessage gameName password'⟩ s) :
    (step s (creates e host gameName password) = step s (creates e host gameName password') ∨
      step s (creates e host gameName password') =
        Retyped.lobby ⟨host, createMessage gameName password, createMessage gameName password'⟩
          (step s (creates e host gameName password))) ∧
      othersSee host s (creates e host gameName password) = [] ∧
      othersSee host s (creates e host gameName password') = [] := by
  generalize hr : (⟨host, createMessage gameName password, createMessage gameName password'⟩ :
    Retyped) = r at hreg
  have hhost : r.host = host := hr ▸ rfl
  have hold : r.old = createMessage gameName password := hr ▸ rfl
  have hnew : r.new = createMessage gameName password' := hr ▸ rfl
  have hsteps : ∀ pw, step s (creates e host gameName pw)
      = (handle e (creates e host gameName pw).2 s).state := fun _ => rfl
  have hsees : ∀ pw, othersSee host s (creates e host gameName pw)
      = (handle e (creates e host gameName pw).2 s).sent.filter (notTo host) := fun _ => rfl
  rw [hsteps, hsteps, hsees, hsees]
  simp only [handle_creates]
  split
  · cases hn : s.gameData host with
    | some name =>
      have hsent : ∀ msg, createGame e host msg s
          = send [.broadcast host (alreadyInGame name)] s := fun msg => by
        simp only [createGame, filterUnwantedChars_eq, ok_bind, hn]
      rw [hsent, hsent]
      have hquiet : [Effect.broadcast host (alreadyInGame name)].filter (notTo host) = [] :=
        filter_notTo fun w hw => by rw [List.mem_singleton.mp hw]; rfl
      exact ⟨Or.inl rfl, hquiet, hquiet⟩
    | none =>
      have hself : r.lobby s = s := Retyped.lobby_eq_self hreg (by rw [hhost, hn]; simp)
      have hgame : r.game (newGame s host (createMessage gameName password))
          = newGame s host (createMessage gameName password') := by
        rw [Retyped.game, if_pos ⟨hhost.symm, hold.symm⟩, hnew]
        rfl
      have hdata : r.data host (some (createMessage gameName password))
          = some (createMessage gameName password') := by
        rw [Retyped.data, if_pos ⟨hhost.symm, congrArg some hold.symm⟩, hnew]
      have hcreate := createGame_lobby (e := e) hn hgame hdata
      rw [hself] at hcreate
      have hquiet : ∀ msg, (createGame e host msg s).sent = [] := fun msg => by
        simp only [createGame, filterUnwantedChars_eq, ok_bind, hn, ok_sent]
      refine ⟨Or.inr ?_, by rw [hquiet]; rfl, by rw [hquiet]; rfl⟩
      rw [hcreate, mapState_state]
  · exact ⟨Or.inl rfl, rfl, rfl⟩

/-- **The password stays secret in discreet runs.**  Two runs differ in the password of one
`CREATEGAME`, at a moment when the host has no game of that name; after it every step is
discreet.  Then the other players are sent the same. -/
theorem secret_of_discreet (nameOf : Guid → Bytes) (before after : List (Engine × Event))
    (e : Engine) (host : Guid) (gameName password password' : Bytes)
    (hreg : ¬ Retyped.Registered ⟨host, createMessage gameName password,
      createMessage gameName password'⟩ (exec step (Lobby.init nameOf) before))
    (h : Along step (Discreet ⟨host, createMessage gameName password,
        createMessage gameName password'⟩)
      (exec step (Lobby.init nameOf) (before ++ [creates e host gameName password])) after) :
    outputs step (othersSee host) (Lobby.init nameOf)
        (before ++ creates e host gameName password :: after)
      = outputs step (othersSee host) (Lobby.init nameOf)
        (before ++ creates e host gameName password' :: after) := by
  rw [exec_append] at h
  rw [outputs_append, outputs_append]
  obtain ⟨hstates, hsees, hsees'⟩ := creates_lobby (e := e) hreg
  simp only [outputs, hsees, hsees', List.nil_append]
  refine congrArg _ ?_
  rcases hstates with hs | hs
  · rw [hs]
  · rw [hs]
    exact outputs_lobby h

/-- Two players enter. -/
def twoEnter : List (Engine × Event) := enter 1 ++ enter 2

/-- Player 2 opens a game of his own and asks for its members; the host logs out, his game is
dissolved, and only then player 2 asks for the list of games. -/
def discreetRun : List (Engine × Event) :=
  [say 2 .createGame (bytes "B"), say 2 .plrslb (bytes "B"), second, (Engine.plain, .logout 1),
    second, say 2 .mainMenu []]

theorem secret_of_discreet_discreetRun :
    outputs step (othersSee 1) (Lobby.init fun _ => [])
        (twoEnter ++ creates Engine.plain 1 (bytes "A") (bytes "x") :: discreetRun)
      = outputs step (othersSee 1) (Lobby.init fun _ => [])
        (twoEnter ++ creates Engine.plain 1 (bytes "A") (bytes "y") :: discreetRun) :=
  secret_of_discreet (fun _ => []) twoEnter discreetRun Engine.plain 1 (bytes "A") (bytes "x")
    (bytes "y") (by decide +kernel) (by decide +kernel)

/-- Player 2 asks for the list of games, and is sent the password. -/
theorem secret_leaks :
    outputs step (othersSee 1) (Lobby.init fun _ => [])
        (twoEnter ++ creates Engine.plain 1 (bytes "A") (bytes "x") :: [say 2 .mainMenu []])
      ≠ outputs step (othersSee 1) (Lobby.init fun _ => [])
        (twoEnter ++ creates Engine.plain 1 (bytes "A") (bytes "y") :: [say 2 .mainMenu []]) := by
  decide +kernel

end HungerGames.Arena
