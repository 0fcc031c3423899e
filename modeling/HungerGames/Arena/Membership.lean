/-
# Who is in which game

The server keeps membership twice: `plr:GetData("GAME")` names a player's game, and the
game's list has his GUID.  The two are meant to agree (`Membership`), and five operations
break them apart.  Creating a game under a name that is taken gives two games one name.
Leaving a game and releasing one's spirit forget the name and leave the entry.  Logging out
deletes the entry at the POSITION that equals the GUID, somebody else's.  And the tick deletes
the entry of a player whose client is loading a map, who keeps the name.

`Orderly` says of a step that it is none of these, and then the two stay in agreement over any
run (`membership_of_orderly`).  The argument is an invariant (`Consistent`) that adds what
`Membership` leaves out: a player is in no list but his game's, and his game exists.
-/
import HungerGames.Arena.Walk

namespace HungerGames.Arena

open HungerGames.Lua
open HungerGames.Lua.Outcome
open HungerGames.System

/-! ## 1. The property and the invariant -/

/-- The two records of membership agree. -/
structure Membership (s : Lobby) : Prop where
  /-- no two registered games have the same name -/
  distinct : ∀ k k' g g', s.games.get k = some g → s.games.get k' = some g' → g.name = g'.name →
    k = k'
  /-- an online player whose data is `n` is in the list of the game named `n`, once -/
  joined : ∀ p n, s.online p = true → s.gameData p = some n →
    ∃ k g, s.games.get k = some g ∧ g.name = n ∧ g.players.count p = 1
  /-- an online player without data is in no list -/
  free : ∀ p, s.online p = true → s.gameData p = none → ∀ k g, s.games.get k = some g →
    g.players.count p = 0

/-- The inductive invariant. -/
structure Consistent (s : Lobby) : Prop where
  distinct : ∀ {k k' g g'}, s.games.get k = some g → s.games.get k' = some g' → g.name = g'.name →
    k = k'
  counts : ∀ {k g p}, s.games.get k = some g → s.online p = true →
    g.players.count p = if s.gameData p = some g.name then 1 else 0
  named : ∀ {p n}, s.online p = true → s.gameData p = some n →
    ∃ k g, s.games.get k = some g ∧ g.name = n
  offline : ∀ {p}, s.online p ≠ true → s.gameData p = none

variable {s : Lobby}

theorem Consistent.membership (h : Consistent s) : Membership s where
  distinct _ _ _ _ hk hk' hn := h.distinct hk hk' hn
  joined p n hp hn := by
    obtain ⟨k, g, hk, rfl⟩ := h.named hp hn
    exact ⟨k, g, hk, rfl, by rw [h.counts hk hp, if_pos hn]⟩
  free p hp hn k g hk := by
    rw [h.counts hk hp, if_neg (by rw [hn]; simp)]

theorem consistent_init (nameOf : Guid → Bytes) : Consistent (Lobby.init nameOf) where
  distinct hk := absurd hk (by simp [Lobby.init])
  counts hk := absurd hk (by simp [Lobby.init])
  named hp := absurd hp (by simp [Lobby.init, Lobby.online])
  offline _ := rfl

variable {k : ℕ}

/-- A player who is online is in the list of one game at most. -/
theorem Consistent.same_game (h : Consistent s) {k' : ℕ} {g g' : Game} {p i i' : ℕ}
    (hk : s.games.get k = some g) (hk' : s.games.get k' = some g') (hp : s.online p = true)
    (hi : g.players.get i = some p) (hi' : g'.players.get i' = some p) : k = k' := by
  have hname : ∀ {j : ℕ} {v : Game} {l : ℕ}, s.games.get j = some v → v.players.get l = some p →
      s.gameData p = some v.name := by
    intro j v l hj hl
    have hpos := Table.count_pos_iff.mpr ⟨l, hl⟩
    rw [h.counts hj hp] at hpos
    by_contra hne
    rw [if_neg hne] at hpos
    exact absurd hpos (by omega)
  have hnn := (hname hk hi).symm.trans (hname hk' hi')
  exact h.distinct hk hk' (Option.some.inj hnn)

/-! ## 2. Steps that change no membership -/

/-- The same games with the same online members, the same data, the same players online. -/
structure SameRoster (s s' : Lobby) : Prop where
  gameData : s'.gameData = s.gameData
  online : ∀ p, s'.online p = s.online p
  back : ∀ {k g'}, s'.games.get k = some g' → ∃ g, s.games.get k = some g ∧ g'.name = g.name ∧
    ∀ p, s.online p = true → g'.players.count p = g.players.count p
  forth : ∀ {k g}, s.games.get k = some g → ∃ g', s'.games.get k = some g' ∧ g'.name = g.name

variable {s' : Lobby}

theorem Consistent.of_roster (h : Consistent s) (hr : SameRoster s s') :
    Consistent s' where
  distinct hk hk' hn := by
    obtain ⟨g, hg, hgn, -⟩ := hr.back hk
    obtain ⟨v, hv, hvn, -⟩ := hr.back hk'
    exact h.distinct hg hv (hgn ▸ hvn ▸ hn)
  counts hk hp := by
    obtain ⟨g, hg, hgn, hcount⟩ := hr.back hk
    rw [hr.online] at hp
    rw [hcount _ hp, h.counts hg hp, hr.gameData, hgn]
  named hp hn := by
    rw [hr.online] at hp
    rw [hr.gameData] at hn
    obtain ⟨k, g, hk, hgn⟩ := h.named hp hn
    obtain ⟨g', hk', hgn'⟩ := hr.forth hk
    exact ⟨k, g', hk', hgn'.trans hgn⟩
  offline hp := by
    rw [hr.online] at hp
    rw [hr.gameData]
    exact h.offline hp

/-- Only the presence of players has changed, and nobody came or went. -/
theorem SameRoster.of_games (hd : s'.gameData = s.gameData) (hon : ∀ p, s'.online p = s.online p)
    (hg : s'.games = s.games) : SameRoster s s' where
  gameData := hd
  online := hon
  back hk := ⟨_, hg ▸ hk, rfl, fun _ _ => rfl⟩
  forth hk := ⟨_, hg ▸ hk, rfl⟩

/-- A turn that rewrites one record and keeps its name and its online members. -/
theorem SameRoster.of_touches {who : Guid → Prop} {game game' : Game} (ht : Touches k who s s')
    (hget : s.games.get k = some game) (hget' : s'.games.get k = some game')
    (hname : game'.name = game.name)
    (hcount : ∀ p, s.online p = true → game'.players.count p = game.players.count p) :
    SameRoster s s' where
  gameData := ht.gameData
  online := ht.online_eq
  back {j g'} hj := by
    by_cases hjk : j = k
    · subst hjk
      rw [hget', Option.some.injEq] at hj
      exact ⟨game, hget, hj ▸ hname, hj ▸ hcount⟩
    · exact ⟨g', (ht.others j hjk) ▸ hj, rfl, fun _ _ => rfl⟩
  forth {j g} hj := by
    by_cases hjk : j = k
    · subst hjk
      rw [hget, Option.some.injEq] at hj
      exact ⟨game', hget', hj ▸ hname⟩
    · exact ⟨g, (ht.others j hjk).trans hj, rfl⟩

/-! ## 3. The tick -/

/-- The members of the waiting game at `k` are in the world, as far as they are online. -/
def Ready (s : Lobby) (k : ℕ) : Prop :=
  ∀ g p i, s.games.get k = some g → g.active = false → g.players.get i = some p →
    s.online p = true → s.inWorld p = true

variable {e : Engine}

/-- **A purge of a ready game drops nobody who is online.** -/
theorem count_purged {game : Game} {t : Table Guid} (h : Consistent s)
    (hget : s.games.get k = some game) (hact : game.active = false) (hready : Ready s k)
    (ht : Purged e s [] game.players t) {p : Guid} (hp : s.online p = true) :
    t.count p = game.players.count p := by
  have hle : ∀ j, t.get j = some p → game.players.get j = some p := fun j hj => ht.sub j p hj
  have hcount := h.counts hget hp
  by_cases hn : s.gameData p = some game.name
  · rw [if_pos hn] at hcount
    obtain ⟨i, hi, honce⟩ := Table.count_eq_one_iff.mp hcount
    rw [hcount, Table.count_eq_one_iff]
    exact ⟨i, ht.kept i p hi (hready game p i hget hact hi hp) (Or.inr honce), fun j hj => honce j (hle j hj)⟩
  · rw [if_neg hn] at hcount
    rw [hcount, Table.count_eq_zero_iff]
    exact fun j hj => Table.count_eq_zero_iff.mp hcount j (hle j hj)

/-- **Dissolving a ready game** frees all its members. -/
theorem consistent_dissolved {game : Game} (h : Consistent s) (hget : s.games.get k = some game)
    (hact : game.active = false) (hready : Ready s k) :
    Consistent { s with
      games := s.games.set k none
      gameData := fun p =>
        if p ∈ members e k game ∧ s.inWorld p = true then none else s.gameData p } := by
  have hk0 : k ≠ 0 := Table.ne_zero_of_get hget
  have hleft : ∀ {j g}, (s.games.set k none).get j = some g → j ≠ k ∧ s.games.get j = some g := by
    intro j g hj
    rw [Table.get_set s.games hk0] at hj
    split at hj
    · exact absurd hj (by simp)
    · rename_i hjk
      exact ⟨hjk, hj⟩
  refine ⟨fun hj hj' hn => h.distinct (hleft hj).2 (hleft hj').2 hn, fun {j g p} hj hp => ?_,
    fun {p n} hp hn => ?_, fun {p} hp => ?_⟩
  · obtain ⟨hjk, hj⟩ := hleft hj
    simp only
    split
    · rename_i hmem
      obtain ⟨i, hi⟩ := mem_members.mp hmem.1
      -- he is in the list of the game that is going, so in no other
      rw [if_neg (by simp), Table.count_eq_zero_iff]
      exact fun l hl => hjk (h.same_game hj hget hp hl hi)
    · exact h.counts hj hp
  · simp only at hn
    split at hn
    · exact absurd hn (by simp)
    · rename_i hnot
      obtain ⟨j, g, hj, rfl⟩ := h.named hp hn
      refine ⟨j, g, ?_, rfl⟩
      have hjk : j ≠ k := by
        rintro rfl
        rw [hget, Option.some.injEq] at hj
        subst hj
        have hone := h.counts hget hp
        rw [if_pos hn] at hone
        obtain ⟨i, hi, -⟩ := Table.count_eq_one_iff.mp hone
        exact hnot ⟨mem_members.mpr ⟨i, hi⟩, hready game p i hget hact hi hp⟩
      rw [Table.get_set s.games hk0, if_neg hjk]
      exact hj
  · show (if _ then none else s.gameData p) = none
    split
    · rfl
    · exact h.offline hp

/-- **One turn of the tick.** -/
theorem consistent_turn (h : Consistent s) (hready : Ready s k) (hturn : Turn e k s s') :
    Consistent s' := by
  cases hturn with
  | absent _ => exact h
  | active n d hget _ ht hget' =>
    exact h.of_roster (SameRoster.of_touches ht hget hget' rfl fun _ _ => rfl)
  | dissolved hget hact _ => exact consistent_dissolved h hget hact hready
  | waiting hget hact _ ht hp _ hget' =>
    exact h.of_roster (SameRoster.of_touches ht.touches hget hget' rfl fun _ => count_purged h hget hact
      hready hp)
  | started d hget hact _ ht hp _ hget' =>
    exact h.of_roster (SameRoster.of_touches ht hget hget' rfl fun _ => count_purged h hget hact
      hready hp)

/-- A turn of another game leaves a game ready. -/
theorem ready_turn {j : ℕ} (h : Consistent s) (hjk : j ≠ k) (hready : Ready s j)
    (hturn : Turn e k s s') : Ready s' j := by
  have htouched : ∀ {game : Game} {who : Guid → Prop}, s.games.get k = some game →
      Touches k who s s' → (∀ p, who p → ∃ i, game.players.get i = some p) → Ready s' j := by
    intro game who hget ht hwho g p i hj hact hi hp
    rw [ht.others j hjk] at hj
    rw [ht.online_eq] at hp
    rw [ht.inWorld_eq fun hw => ?_]
    · exact hready g p i hj hact hi hp
    · obtain ⟨i', hi'⟩ := hwho p hw
      exact hjk (h.same_game hj hget hp hi hi')
  cases hturn with
  | absent _ => exact hready
  | active n d hget _ ht _ => exact htouched hget ht fun _ hf => hf.elim
  | dissolved hget _ _ =>
    intro g p i hj hact hi hp
    have hk0 : k ≠ 0 := Table.ne_zero_of_get hget
    rw [show _ = _ from Table.get_set s.games hk0 none j, if_neg hjk] at hj
    exact hready g p i hj hact hi hp
  | waiting hget _ _ ht _ _ _ => exact htouched hget ht.touches fun _ hw => hw
  | started d hget _ _ ht _ _ _ => exact htouched hget ht fun _ hw => hw

/-- **The tick** keeps the invariant when no member of a waiting game is loading a map. -/
theorem consistent_updateAllGames (e : Engine) (h : Consistent s) (hready : ∀ k, Ready s k) :
    Consistent (updateAllGames e s).state := by
  refine updateAllGames_rule (e := e) (I := Consistent)
    (J := fun ks s => Consistent s ∧ ks.Nodup ∧ ∀ k ∈ ks, Ready s k)
    (fun k ks s s' ⟨hc, hnd, hks⟩ hturn => ?_) (fun _ _ h => h.1)
    ⟨h, nodup_visited e s, fun k _ => hready k⟩
  obtain ⟨hk, hnd⟩ := List.nodup_cons.mp hnd
  refine ⟨consistent_turn hc (hks k List.mem_cons_self) hturn, hnd, fun j hj => ?_⟩
  have hjk : j ≠ k := fun hjk => hk (hjk ▸ hj)
  exact ready_turn hc hjk (hks j (List.mem_cons_of_mem k hj)) hturn

/-! ## 4. The commands -/

variable {plr : Guid}

/-- **Joining** puts a player without a game into one list, once. -/
theorem consistent_joined {v : Game} (h : Consistent s) (hp : s.online plr = true)
    (hn : s.gameData plr = none) (hget : s.games.get k = some v) :
    Consistent ((s.modifyGame k fun v =>
      { v with players := v.players.insert e.layout (Engine.playersSite k) plr }).setGameData
        plr (some v.name)) := by
  have hgames : ∀ {j g}, (s.modifyGame k fun v =>
      { v with players := v.players.insert e.layout (Engine.playersSite k) plr }).games.get j
        = some g → ∃ g', s.games.get j = some g' ∧ g.name = g'.name ∧ ∀ p,
          g.players.count p = g'.players.count p + if j = k ∧ p = plr then 1 else 0 := by
    intro j g hj
    rw [Lobby.get_modifyGame] at hj
    split at hj
    · rename_i hjk
      rw [hget, Option.map_some, Option.some.injEq] at hj
      refine ⟨v, hjk ▸ hget, hj ▸ rfl, fun p => ?_⟩
      rw [← hj, Table.count_insert]
      simp [hjk, eq_comm]
    · rename_i hjk
      exact ⟨g, hj, rfl, fun p => by simp [hjk]⟩
  have honline : ∀ p, ((s.modifyGame k fun v =>
      { v with players := v.players.insert e.layout (Engine.playersSite k) plr }).setGameData
        plr (some v.name)).online p = s.online p := fun p => by simp [Lobby.online]
  refine ⟨fun hj hj' hnn => ?_, fun {j g p} hj hpo => ?_, fun {p n} hpo hpn => ?_,
    fun {p} hpo => ?_⟩
  · obtain ⟨g, hg, hgn, -⟩ := hgames hj
    obtain ⟨g', hg', hgn', -⟩ := hgames hj'
    exact h.distinct hg hg' (hgn ▸ hgn' ▸ hnn)
  · obtain ⟨g', hg', hgn, hcount⟩ := hgames hj
    rw [honline] at hpo
    rw [hcount, h.counts hg' hpo, Lobby.gameData_setGameData, Lobby.gameData_modifyGame, hgn]
    by_cases hpp : p = plr
    · subst hpp
      rw [if_neg (by rw [hn]; simp), if_pos rfl]
      by_cases hjk : j = k
      · subst hjk
        rw [hget, Option.some.injEq] at hg'
        simp [hg']
      · have hne : v.name ≠ g'.name := fun hnn => hjk (h.distinct hg' hget hnn.symm)
        simp [hjk, hne]
    · simp [hpp]
  · rw [honline] at hpo
    rw [Lobby.gameData_setGameData, Lobby.gameData_modifyGame] at hpn
    have hforth : ∀ {j g}, s.games.get j = some g → ∃ k' g',
        ((s.modifyGame k fun v =>
          { v with players := v.players.insert e.layout (Engine.playersSite k) plr }).setGameData
            plr (some v.name)).games.get k' = some g' ∧ g'.name = g.name := by
      intro j g hj
      rw [Lobby.games_setGameData]
      by_cases hjk : j = k
      · subst hjk
        rw [hget, Option.some.injEq] at hj
        exact ⟨j, _, get_modifyGame_of hget _, hj ▸ rfl⟩
      · exact ⟨j, g, by rw [Lobby.get_modifyGame_ne _ hjk, hj], rfl⟩
    split at hpn
    · rw [Option.some.injEq] at hpn
      exact hpn ▸ hforth hget
    · obtain ⟨j, g, hj, rfl⟩ := h.named hpo hpn
      exact hforth hj
  · rw [honline] at hpo
    rw [Lobby.gameData_setGameData, Lobby.gameData_modifyGame, if_neg]
    · exact h.offline hpo
    · rintro rfl
      exact hpo hp

/-- **Creating a game under a new name** registers one game with one member. -/
theorem consistent_created {msg : Bytes} (h : Consistent s) (hp : s.online plr = true)
    (hn : s.gameData plr = none) (hnew : ∀ k g, s.games.get k = some g → g.name ≠ msg) :
    Consistent { (s.setGameData plr (some msg)) with
      gameId := numSucc s.gameId
      games := s.games.insert e.layout Engine.gamesSite (newGame s plr msg) } := by
  have hgames : ∀ {j g}, (s.games.insert e.layout Engine.gamesSite (newGame s plr msg)).get j
      = some g → g = newGame s plr msg ∧ j = s.games.length e.layout Engine.gamesSite + 1 ∨
        s.games.get j = some g := by
    intro j g hj
    rw [Table.get_insert] at hj
    split at hj
    · rename_i hjk
      exact Or.inl ⟨(Option.some.inj hj).symm, hjk⟩
    · exact Or.inr hj
  refine ⟨fun hj hj' hnn => ?_, fun {j g p} hj hpo => ?_, fun {p n} hpo hpn => ?_,
    fun {p} hpo => ?_⟩
  · rcases hgames hj with ⟨rfl, hk⟩ | hg <;> rcases hgames hj' with ⟨rfl, hk'⟩ | hg'
    · exact hk.trans hk'.symm
    · exact absurd hnn.symm (hnew _ _ hg')
    · exact absurd hnn (hnew _ _ hg)
    · exact h.distinct hg hg' hnn
  · simp only [Lobby.setGameData]
    rcases hgames hj with ⟨rfl, -⟩ | hg
    · by_cases hpp : p = plr
      · simp [newGame, hpp]
      · have hne : s.gameData p ≠ some msg := by
          intro hpm
          obtain ⟨k, v, hk, hv⟩ := h.named hpo hpm
          exact hnew k v hk hv
        simp [newGame, hpp, hne, Ne.symm hpp]
    · rw [h.counts hg hpo]
      by_cases hpp : p = plr
      · subst hpp
        have hne := hnew _ _ hg
        simp [hn, Ne.symm hne]
      · simp [hpp]
  · simp only [Lobby.setGameData] at hpn
    split at hpn
    · rw [Option.some.injEq] at hpn
      refine ⟨s.games.length e.layout Engine.gamesSite + 1, newGame s plr msg, ?_, hpn⟩
      rw [Table.get_insert, if_pos rfl]
    · obtain ⟨k, g, hk, hg⟩ := h.named hpo hpn
      refine ⟨k, g, ?_, hg⟩
      rw [Table.get_insert, if_neg]
      · exact hk
      · rintro rfl
        rw [(Table.length_border e.layout Engine.gamesSite s.games).2] at hk
        exact absurd hk (by simp)
  · show (if p = plr then some msg else s.gameData p) = none
    rw [if_neg]
    · exact h.offline hpo
    · rintro rfl
      exact hpo hp

/-- Setting the data of a player to what it is changes nothing. -/
theorem setGameData_eq_self {v : Option Bytes} (h : s.gameData plr = v) :
    s.setGameData plr v = s := by
  have hdata : (fun p => if p = plr then v else s.gameData p) = s.gameData := by
    funext p
    split
    · rename_i hp
      rw [hp, h]
    · rfl
  unfold Lobby.setGameData
  rw [hdata]

/-! ## 5. Logging out -/

/-- **What `table.remove` does to the lists**: at most the player at the position loses an
entry. -/
theorem removePlayerAt_spec (e : Engine) {v : Game} (pos : ℤ) (hget : s.games.get k = some v) :
    (removePlayerAt e k v pos s).state.presence = s.presence ∧
      (removePlayerAt e k v pos s).state.gameData = s.gameData ∧
      ∃ t, (∀ j, (removePlayerAt e k v pos s).state.games.get j
          = if j = k then some { v with players := t } else s.games.get j) ∧
        ∀ p, (pos ≤ v.players.length e.layout (Engine.playersSite k) →
          v.players.get pos.toNat ≠ some p) → t.count p = v.players.count p := by
  have hsame : ∀ j, s.games.get j = if j = k then some v else s.games.get j := by
    intro j
    split
    · rename_i hjk
      rw [hjk, hget]
    · rfl
  unfold removePlayerAt
  cases hrem : v.players.remove e.layout (Engine.playersSite k) pos with
  | none => exact ⟨rfl, rfl, v.players, hsame, fun _ _ => rfl⟩
  | some players =>
    refine ⟨by simp, by simp, players, fun j => ?_, fun p hp => ?_⟩
    · simp only [ok_state, Lobby.get_modifyGame, hget, Option.map_some]
    · have hcount := Table.count_remove hrem p
      rw [if_neg] at hcount
      · exact hcount
      · intro hat
        rcases Table.le_length_of_remove hrem with hle | hfree
        · exact hp hle hat
        · rw [hfree] at hat
          exact absurd hat (by simp)

/-- **A player who goes offline** may leave entries behind; for the others nothing has
changed. -/
theorem consistent_gone (h : Consistent s) (hpres : s'.presence = s.presence)
    (hdata : ∀ p, p ≠ plr → s'.gameData p = s.gameData p)
    (hback : ∀ k g', s'.games.get k = some g' → ∃ g, s.games.get k = some g ∧ g'.name = g.name ∧
      ∀ p, p ≠ plr → s.online p = true → g'.players.count p = g.players.count p)
    (hforth : ∀ k g, s.games.get k = some g → ∃ g', s'.games.get k = some g' ∧ g'.name = g.name) :
    Consistent ((s'.setGameData plr none).setPresence plr .offline) := by
  have honline : ∀ p, ((s'.setGameData plr none).setPresence plr .offline).online p = true →
      p ≠ plr ∧ s.online p = true := by
    intro p hp
    rw [Lobby.online_iff, Lobby.presence_setPresence] at hp
    split at hp
    · exact absurd rfl hp
    · rename_i hne
      rw [Lobby.presence_setGameData, hpres] at hp
      exact ⟨hne, Lobby.online_iff.mpr hp⟩
  have hdata' : ∀ p, p ≠ plr →
      ((s'.setGameData plr none).setPresence plr .offline).gameData p = s.gameData p := by
    intro p hne
    rw [Lobby.gameData_setPresence, Lobby.gameData_setGameData, if_neg hne, hdata p hne]
  refine ⟨fun hj hj' hnn => ?_, fun {j g p} hj hp => ?_, fun {p n} hp hn => ?_, fun {p} hp => ?_⟩
  · obtain ⟨g, hg, hgn, -⟩ := hback _ _ hj
    obtain ⟨g', hg', hgn', -⟩ := hback _ _ hj'
    exact h.distinct hg hg' (hgn ▸ hgn' ▸ hnn)
  · obtain ⟨g', hg', hgn, hcount⟩ := hback _ _ hj
    obtain ⟨hne, hpo⟩ := honline p hp
    rw [hcount p hne hpo, h.counts hg' hpo, hdata' p hne, hgn]
  · obtain ⟨hne, hpo⟩ := honline p hp
    rw [hdata' p hne] at hn
    obtain ⟨k, g, hk, rfl⟩ := h.named hpo hn
    obtain ⟨g', hk', hgn⟩ := hforth k g hk
    exact ⟨k, g', hk', hgn⟩
  · by_cases hne : p = plr
    · simp [hne, Lobby.gameData_setGameData]
    · rw [hdata' p hne]
      refine h.offline fun hpo => hp ?_
      rw [Lobby.online_iff, Lobby.presence_setPresence, if_neg hne, Lobby.presence_setGameData,
        hpres]
      exact Lobby.online_iff.mp hpo

/-- **Logging out** keeps the invariant when the position deleted has nobody else who is
online. -/
theorem consistent_logoutPlayer (h : Consistent s)
    (hpos : ∀ k g, s.games.get k = some g → s.gameData plr = some g.name →
      toInt32 plr ≤ g.players.length e.layout (Engine.playersSite k) →
      ∀ q, g.players.get (toInt32 plr).toNat = some q → q = plr ∨ s.online q ≠ true) :
    Consistent (logoutPlayer e plr s).state := by
  unfold logoutPlayer playerEventOnLogout
  rw [mapState_state]
  -- nothing below depends on how the GUID is turned into a position
  generalize toInt32 plr = pos at hpos ⊢
  cases hn : s.gameData plr with
  | none =>
    exact consistent_gone h rfl (fun _ _ => rfl) (fun k g hk => ⟨g, hk, rfl, fun _ _ _ => rfl⟩)
      fun k g hk => ⟨g, hk, rfl⟩
  | some data =>
    have hdata : ∀ p, p ≠ plr → (s.setGameData plr none).gameData p = s.gameData p := by
      intro p hne
      rw [Lobby.gameData_setGameData, if_neg hne]
    simp only
    cases hfirst : firstNamed e (s.setGameData plr none) data with
    | none =>
      exact consistent_gone h rfl hdata (fun k g hk => ⟨g, hk, rfl, fun _ _ _ => rfl⟩)
        fun k g hk => ⟨g, hk, rfl⟩
    | some kv =>
      obtain ⟨k, v⟩ := kv
      obtain ⟨hget, hname⟩ := firstNamed_some hfirst
      simp only
      obtain ⟨hpres, hd, t, ht, hcount⟩ := removePlayerAt_spec e pos hget
      refine consistent_gone h hpres (fun p hne => (congrFun hd p).trans (hdata p hne))
        (fun j g hj => ?_) fun j g hj => ?_
      · rw [ht] at hj
        split at hj
        · rename_i hjk
          rw [Option.some.injEq] at hj
          refine ⟨v, hjk ▸ hget, hj ▸ rfl, fun p hne hpo => ?_⟩
          rw [← hj]
          refine hcount p fun hle hat => ?_
          rcases hpos k v hget (hname ▸ hn) hle p hat with hp | hp
          · exact hne hp
          · exact hp hpo
        · exact ⟨g, hj, rfl, fun _ _ _ => rfl⟩
      · rw [ht]
        split
        · rename_i hjk
          rw [hjk] at hj
          have hgv : g = v := Option.some.inj (hj.symm.trans hget)
          exact ⟨_, rfl, hgv ▸ rfl⟩
        · exact ⟨g, hj, rfl⟩

/-! ## 6. Runs -/

/-- A command that does not break the two records apart. -/
def OrderlyCommand (s : Lobby) (plr : Guid) : Command × Bytes → Prop
  -- a new game has a new name
  | (.createGame, name) => s.gameData plr = none → ∀ g ∈ s.games.values, g.name ≠ name
  -- whoever leaves a registered game is in none
  | (.leaveGame, name) => s.gameData plr ≠ none → ∀ g ∈ s.games.values, g.name ≠ name
  | _ => True

instance (s : Lobby) (plr : Guid) : ∀ c : Command × Bytes, Decidable (OrderlyCommand s plr c)
  | (.createGame, _) => inferInstanceAs (Decidable (_ → _))
  | (.leaveGame, _) => inferInstanceAs (Decidable (_ → _))
  | (.mainMenu, _) => isTrue trivial
  | (.joinGame, _) => isTrue trivial
  | (.plrslb, _) => isTrue trivial
  | (.selectTalents, _) => isTrue trivial
  | (.test, _) => isTrue trivial

/-- The step is none of the five that break the two records apart. -/
def Orderly (s : Lobby) (i : Engine × Event) : Prop :=
  match i.2 with
  | .addon plr pfx msg receiver => ∀ c ∈ commandSent s plr pfx msg receiver, OrderlyCommand s plr c
  -- whoever releases his spirit is in no game
  | .repop plr => s.inWorld plr = true → s.gameData plr = none
  -- the position that equals the GUID is his own, or of nobody who is online
  | .logout plr => ∀ k ∈ s.games.keys, ∀ g ∈ s.games.get k, s.gameData plr = some g.name →
      toInt32 plr ≤ g.players.length i.1.layout (Engine.playersSite k) →
      ∀ q ∈ g.players.get (toInt32 plr).toNat, q = plr ∨ s.online q ≠ true
  -- no member of a waiting game is loading a map
  | .tick => ∀ g ∈ s.games.values, g.active = false → ∀ p ∈ g.players.values,
      s.presence p ≠ .loading
  -- whoever logs in is in no list
  | .login plr _ => s.online plr ≠ true → ∀ g ∈ s.games.values, plr ∉ g.players.values
  | _ => True

instance (s : Lobby) : ∀ i : Engine × Event, Decidable (Orderly s i)
  | (_, .addon plr pfx msg receiver) =>
    inferInstanceAs (Decidable (∀ c ∈ commandSent s plr pfx msg receiver, OrderlyCommand s plr c))
  | (_, .repop _) => inferInstanceAs (Decidable (_ → _))
  | (_, .logout _) => inferInstanceAs (Decidable (∀ k ∈ s.games.keys, _))
  | (_, .tick) => inferInstanceAs (Decidable (∀ g ∈ s.games.values, _))
  | (_, .login _ _) => inferInstanceAs (Decidable (_ → _))
  | (_, .loaded _ _) => isTrue trivial
  | (_, .moved _ _) => isTrue trivial

/-- **Commands.** -/
theorem consistent_functionLookup {c : Command} {msg : Bytes} (h : Consistent s)
    (hp : s.online plr = true)
    (hcreate : c = .createGame → s.gameData plr = none → ∀ g ∈ s.games.values, g.name ≠ msg)
    (hleave : c = .leaveGame → s.gameData plr ≠ none → ∀ g ∈ s.games.values, g.name ≠ msg) :
    Consistent (functionLookup e c plr msg s).state := by
  cases c with
  | mainMenu => exact h
  | selectTalents => exact h
  | test => exact h
  | createGame =>
    simp only [functionLookup, createGame, filterUnwantedChars_eq, ok_bind]
    cases hn : s.gameData plr with
    | some name => exact h
    | none =>
      exact consistent_created h hp hn fun k g hk =>
        hcreate rfl hn g (Table.mem_values.mpr ⟨k, hk⟩)
  | plrslb =>
    simp only [functionLookup, plrslb, filterUnwantedChars_eq, ok_bind]
    cases s.gameData plr with
    | none => exact h
    | some name =>
      cases firstNamed e s msg with
      | none => exact h
      | some kv => exact h
  | joinGame =>
    simp only [functionLookup, joinGame, filterUnwantedChars_eq, ok_bind]
    cases hn : s.gameData plr with
    | some name => exact h
    | none =>
      cases hfirst : firstNamed e s msg with
      | none => exact h
      | some kv =>
        obtain ⟨k, v⟩ := kv
        obtain ⟨hget, rfl⟩ := firstNamed_some hfirst
        simp only
        split
        · exact h
        · exact consistent_joined h hp hn hget
  | leaveGame =>
    simp only [functionLookup, leaveGame, filterUnwantedChars_eq, ok_bind]
    cases hfirst : firstNamed e s msg with
    | none => exact h
    | some kv =>
      obtain ⟨k, v⟩ := kv
      obtain ⟨hget, rfl⟩ := firstNamed_some hfirst
      have hn : s.gameData plr = none := by
        by_contra hne
        exact hleave rfl hne v (Table.mem_values.mpr ⟨k, hget⟩) rfl
      have htouch : Touches k (fun _ => False) s (s.modifyGame k fun v =>
          { v with players := eraseString v.players (guidString plr) }) := Touches.modifyGame _
      have hroster := SameRoster.of_touches htouch hget (get_modifyGame_of hget _) rfl fun _ _ => rfl
      simp only [send_state]
      rw [setGameData_eq_self (by simpa using hn)]
      exact h.of_roster hroster

/-- **A player logs in** who is in no list. -/
theorem consistent_login (h : Consistent s) (hoff : s.online plr ≠ true)
    (hfree : ∀ g ∈ s.games.values, plr ∉ g.players.values) {map : ℕ} :
    Consistent ((s.setPresence plr .loading).setMap plr map) := by
  have hon : ∀ p, p ≠ plr →
      ((s.setPresence plr .loading).setMap plr map).online p = s.online p := by
    intro p hne
    simp [Lobby.online, Lobby.presence_setPresence, hne]
  have hdata := h.offline hoff
  refine ⟨fun hj hj' hnn => h.distinct hj hj' hnn, fun {j g p} hj hp => ?_, fun {p n} hp hn => ?_,
    fun {p} hp => ?_⟩
  · by_cases hpp : p = plr
    · subst hpp
      have hg := hfree g (Table.mem_values.mpr ⟨j, hj⟩)
      simp only [Lobby.gameData_setMap, Lobby.gameData_setPresence, hdata]
      rw [if_neg (by simp), Table.count_eq_zero_iff]
      exact fun l hl => hg (Table.mem_values.mpr ⟨l, hl⟩)
    · exact h.counts hj ((hon p hpp).symm.trans hp)
  · by_cases hpp : p = plr
    · subst hpp
      simp only [Lobby.gameData_setMap, Lobby.gameData_setPresence, hdata] at hn
      exact absurd hn (by simp)
    · exact h.named ((hon p hpp).symm.trans hp) hn
  · by_cases hpp : p = plr
    · exact hpp ▸ hdata
    · exact h.offline fun hpo => hp ((hon p hpp).trans hpo)

/-- Whoever is online stays in his lists, wherever he comes to. -/
theorem sameRoster_setPresence {presence : Presence} (map : ℕ) (hpresence : presence ≠ .offline)
    (honline : s.presence plr ≠ .offline) :
    SameRoster s ((s.setPresence plr presence).setMap plr map) := by
  refine SameRoster.of_games rfl (fun p => ?_) rfl
  by_cases hpp : p = plr
  · simp [Lobby.online, Lobby.presence_setPresence, hpp, hpresence, honline]
  · simp [Lobby.online, Lobby.presence_setPresence, hpp]

/-- **One step.** -/
theorem consistent_step {i : Engine × Event} (h : Consistent s) (ho : Orderly s i) :
    Consistent (step s i) := by
  obtain ⟨e, ev⟩ := i
  unfold step
  cases ev with
  | addon plr pfx msg receiver =>
    rw [handle_addon]
    cases hc : commandSent s plr pfx msg receiver with
    | none => exact h
    | some cm =>
      obtain ⟨c, m⟩ := cm
      have hcommand : OrderlyCommand s plr (c, m) := ho (c, m) hc
      refine consistent_functionLookup h (Lobby.online_of_inWorld (inWorld_of_commandSent hc)) ?_ ?_
      · rintro rfl
        exact hcommand
      · rintro rfl
        exact hcommand
  | logout plr =>
    simp only [handle]
    split
    · exact consistent_logoutPlayer h fun k g hk hn hle q hq =>
        ho k (Table.mem_keys.mpr (by simp [hk])) g hk hn hle q hq
    · exact h
  | repop plr =>
    simp only [handle]
    split
    · rename_i hin
      have hn := ho hin
      have ht : Touches 0 (fun _ => True) s _ :=
        teleport_touches e 13 ⟨0, 0, 0, 0⟩ s hin trivial
      unfold playerEventOnRepop teleportHome
      rw [bind_of_ok rfl, send_state, bind_of_ok rfl, send_state,
        setGameData_eq_self (by rw [ht.gameData, hn])]
      exact h.of_roster (SameRoster.of_games ht.gameData ht.online_eq (teleport_games e plr 13 _ s))
    · exact h
  | tick =>
    refine consistent_updateAllGames e h fun k g p i hk hact hi hp => ?_
    have hnl := ho g (Table.mem_values.mpr ⟨k, hk⟩) hact p (Table.mem_values.mpr ⟨i, hi⟩)
    rw [Lobby.inWorld_iff]
    rw [Lobby.online_iff] at hp
    cases hpr : s.presence p with
    | offline => exact absurd hpr hp
    | loading => exact absurd hpr hnl
    | inWorld => rfl
  | login plr map =>
    simp only [handle]
    split
    · exact h
    · rename_i hoff
      exact consistent_login h hoff (ho hoff)
  | loaded plr map =>
    simp only [handle]
    split
    · rename_i hloading
      refine h.of_roster (sameRoster_setPresence map (by decide) ?_)
      rw [hloading]
      decide
    · exact h
  | moved plr map =>
    simp only [handle]
    split
    · rename_i hin
      refine h.of_roster (sameRoster_setPresence map (by decide) ?_)
      rw [Lobby.inWorld_iff.mp hin]
      decide
    · exact h

/-- **The two records agree in every state of an orderly run.** -/
theorem membership_of_orderly (nameOf : Guid → Bytes) (is : List (Engine × Event))
    (h : Along step Orderly (Lobby.init nameOf) is) :
    Membership (exec step (Lobby.init nameOf) is) :=
  (exec_invariant (fun _ _ hc ho => consistent_step hc ho) (consistent_init nameOf) h).membership

/-- Two players, one game; one of them logs out, at the position that equals his GUID. -/
def orderlyRun : List (Engine × Event) :=
  enter 1 ++ enter 2 ++ [say 1 .createGame (bytes "A"), say 2 .joinGame (bytes "A"), second,
    (Engine.plain, .logout 2)]

theorem membership_of_orderly_orderlyRun :
    Membership (exec step (Lobby.init fun _ => []) orderlyRun) :=
  membership_of_orderly (fun _ => []) orderlyRun (by decide +kernel)

/-- Two games are created under one name. -/
def sameNameRun : List (Engine × Event) :=
  enter 1 ++ enter 2 ++ [say 1 .createGame (bytes "A"), say 2 .createGame (bytes "A")]

/-- Player 2 logs out of the list `7, 8, 2`. -/
def wrongEntryRun : List (Engine × Event) :=
  enter 7 ++ enter 8 ++ enter 2 ++ [say 7 .createGame (bytes "A"), say 8 .joinGame (bytes "A"),
    say 2 .joinGame (bytes "A"), (Engine.plain, .logout 2)]

/-- A player creates a game and leaves it. -/
def leftRun : List (Engine × Event) :=
  enter 1 ++ [say 1 .createGame (bytes "A"), say 1 .leaveGame (bytes "A")]

/-- The parts of `Membership` fail, one after the other: two games share a name, a member is
in no list, and a player in no game is in one. -/
theorem membership_fails :
    ¬ Membership (exec step (Lobby.init fun _ => []) sameNameRun) ∧
      ¬ Membership (exec step (Lobby.init fun _ => []) wrongEntryRun) ∧
      ¬ Membership (exec step (Lobby.init fun _ => []) leftRun) := by
  refine ⟨fun h => ?_, fun h => ?_, fun h => ?_⟩
  · have h1 : ((exec step (Lobby.init fun _ => []) sameNameRun).games.get 1).map Game.name
        = some (bytes "A") := by decide +kernel
    have h2 : ((exec step (Lobby.init fun _ => []) sameNameRun).games.get 2).map Game.name
        = some (bytes "A") := by decide +kernel
    obtain ⟨g, hg, hn⟩ := Option.map_eq_some_iff.mp h1
    obtain ⟨g', hg', hn'⟩ := Option.map_eq_some_iff.mp h2
    exact absurd (h.distinct 1 2 g g' hg hg' (hn.trans hn'.symm)) (by decide)
  · have hall : ∀ g ∈ (exec step (Lobby.init fun _ => []) wrongEntryRun).games.values,
        g.players.count 8 = 0 := by decide +kernel
    obtain ⟨k, g, hk, -, hone⟩ := h.joined 8 (bytes "A") (by decide +kernel) (by decide +kernel)
    exact absurd (hall g (Table.mem_values.mpr ⟨k, hk⟩)) (by omega)
  · have hone : ((exec step (Lobby.init fun _ => []) leftRun).games.get 1).map
        (fun g => g.players.count 1) = some 1 := by decide +kernel
    obtain ⟨g, hg, hcount⟩ := Option.map_eq_some_iff.mp hone
    have := h.free 1 (by decide +kernel) (by decide +kernel) 1 g hg
    omega

end HungerGames.Arena
