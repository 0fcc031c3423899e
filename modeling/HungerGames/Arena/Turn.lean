/-
# What one game's turn of the tick can do

The results about the tick rest on the same few facts: the turn of a game writes that game's
record and no other, it takes members of the game out of the world and nobody else, and it
deletes an entry of the list only when the player it names is not in the world at that
moment.  They are proved here once, loop by loop, and hold whether or not the turn ran into
an error.
-/
import HungerGames.Arena.System

namespace HungerGames.Arena

open HungerGames.Lua
open HungerGames.Lua.Outcome

/-! ## 1. The frame of a turn -/

/-- Everything but the record of the game at `k` is as it was, except that some of the
players `who` have been taken out of the world. -/
structure Touches (k : ℕ) (who : Guid → Prop) (s s' : Lobby) : Prop where
  gameId : s'.gameId = s.gameId
  gameData : s'.gameData = s.gameData
  others : ∀ j, j ≠ k → s'.games.get j = s.games.get j
  presence : ∀ p, s'.presence p = s.presence p ∨
    (who p ∧ s.presence p = .inWorld ∧ s'.presence p = .loading)
  mapId : ∀ p, s'.inWorld p = true → s'.mapId p = s.mapId p

namespace Touches

variable {k : ℕ} {who : Guid → Prop} {s s' s'' : Lobby}

theorem refl : Touches k who s s := ⟨rfl, rfl, fun _ _ => rfl, fun _ => Or.inl rfl, fun _ _ => rfl⟩

section

variable (h : Touches k who s s')
include h

/-- Nobody enters the world. -/
theorem inWorld_of {p : Guid} (hp : s'.inWorld p = true) : s.inWorld p = true := by
  rw [Lobby.inWorld_iff] at hp ⊢
  rcases h.presence p with h | ⟨-, h, -⟩
  · exact h ▸ hp
  · exact h

/-- Nobody logs in or out. -/
theorem online_eq (p : Guid) : s'.online p = s.online p := by
  unfold Lobby.online
  rcases h.presence p with h | ⟨-, h, h'⟩
  · rw [h]
  · rw [h, h']
    rfl

/-- Who is not among `who` stays where he is. -/
theorem inWorld_eq {p : Guid} (hp : ¬ who p) : s'.inWorld p = s.inWorld p := by
  unfold Lobby.inWorld
  rcases h.presence p with h | ⟨hw, -, -⟩
  · rw [h]
  · exact absurd hw hp

theorem trans (h' : Touches k who s' s'') : Touches k who s s'' where
  gameId := h'.gameId.trans h.gameId
  gameData := h'.gameData.trans h.gameData
  others j hj := (h'.others j hj).trans (h.others j hj)
  presence p := by
    rcases h.presence p with h1 | ⟨hw, h1, h1'⟩
    · rcases h'.presence p with h2 | ⟨hw, h2, h2'⟩
      · exact Or.inl (h2.trans h1)
      · exact Or.inr ⟨hw, h1 ▸ h2, h2'⟩
    · rcases h'.presence p with h2 | ⟨-, h2, -⟩
      · exact Or.inr ⟨hw, h1, h2.trans h1'⟩
      · rw [h1'] at h2
        exact absurd h2 (by decide)
  mapId p hp := (h'.mapId p hp).trans (h.mapId p (h'.inWorld_of hp))

theorem mono {who' : Guid → Prop} (hw : ∀ p, who p → who' p) : Touches k who' s s' :=
  ⟨h.gameId, h.gameData, h.others, fun p => (h.presence p).imp id fun ⟨hp, h⟩ => ⟨hw p hp, h⟩,
    h.mapId⟩

end

theorem modifyGame (f : Game → Game) : Touches k who s (s.modifyGame k f) where
  gameId := by simp
  gameData := by simp
  others j hj := Lobby.get_modifyGame_ne f hj
  presence p := by simp
  mapId p _ := by simp

end Touches

/-- The record of the game a turn starts from survives as `f` of it. -/
theorem get_modifyGame_of {s : Lobby} {k : ℕ} {game : Game} (h : s.games.get k = some game)
    (f : Game → Game) : (s.modifyGame k f).games.get k = some (f game) :=
  Lobby.get_modifyGame_self f h

/-! ## 2. Moving a player -/

section Teleport

variable (e : Engine) {plr : Guid} (map : ℕ) (loc : Location) (s : Lobby)

theorem teleport_touches {k : ℕ} {who : Guid → Prop} (hin : s.inWorld plr = true)
    (hw : who plr) : Touches k who s (teleport e plr map loc s).state := by
  simp only [teleport, send_state]
  split
  · exact Touches.refl
  · refine ⟨rfl, rfl, fun _ _ => rfl, fun p => ?_, fun p hp => ?_⟩
    · rw [Lobby.presence_setMap, Lobby.presence_setPresence]
      split
      · rename_i h
        subst h
        exact Or.inr ⟨hw, Lobby.inWorld_iff.mp hin, rfl⟩
      · exact Or.inl rfl
    · rw [Lobby.inWorld_iff, Lobby.presence_setMap, Lobby.presence_setPresence] at hp
      show (if p = plr then map else s.mapId p) = s.mapId p
      split
      · rename_i h
        rw [if_pos h] at hp
        exact absurd hp (by decide)
      · rfl

/-- The others stay where they are. -/
theorem teleport_inWorld_of_ne {p : Guid} (hne : p ≠ plr) :
    (teleport e plr map loc s).state.inWorld p = s.inWorld p := by
  simp only [teleport, send_state]
  split
  · rfl
  · simp [Lobby.inWorld, Lobby.presence_setPresence, hne]

end Teleport

/-! ## 3. The purge of a waiting game's list -/

/-- The player stays in the world when the purge comes to him: he is in the lobby already, or
the engine refuses to move him there. -/
def stays (e : Engine) (s : Lobby) (p : Guid) : Bool :=
  s.inWorld p && (s.mapId p == 13 || e.refuses p 13)

/-- The list `t` in a purge that began with the list `t₀` in the state `s`, while the entries
`rest` are still to come; at its end, when `rest` is empty. -/
structure Purged (e : Engine) (s : Lobby) (rest : List ℕ) (t₀ t : Table Guid) : Prop where
  ahead : ∀ i ∈ rest, t.get i = t₀.get i
  /-- entries are deleted, never moved -/
  sub : ∀ i p, t.get i = some p → t₀.get i = some p
  /-- what is left was in the world -/
  inWorld : ∀ i p, t.get i = some p → i ∉ rest → s.inWorld p = true
  /-- a player in the world is left when he is listed once or stays -/
  kept : ∀ i p, t₀.get i = some p → s.inWorld p = true →
    (stays e s p = true ∨ ∀ j, t₀.get j = some p → j = i) → t.get i = some p

/-- The invariant of the purging loop, `rest` the entries still to come. -/
structure Purging (e : Engine) (k : ℕ) (game : Game) (s : Lobby) (rest : List (ℕ × Guid))
    (s' : Lobby) : Prop where
  nodup : (rest.map Prod.fst).Nodup
  listed : ∀ ip ∈ rest, game.players.get ip.1 = some ip.2
  touches : Touches k (fun p => ∃ i, game.players.get i = some p) s s'
  /-- a player none of whose entries has been reached is where he was -/
  unmoved : ∀ p, s.inWorld p = true → (∀ i, game.players.get i = some p →
    i ∈ rest.map Prod.fst) → s'.inWorld p = true
  stayed : ∀ p, stays e s p = true → s'.inWorld p = true
  /-- who is still in the world after the purge has come to him stays -/
  moved : ∀ i p, game.players.get i = some p → i ∉ rest.map Prod.fst → s'.inWorld p = true →
    stays e s p = true
  list : ∃ t, s'.games.get k = some { game with players := t } ∧
    Purged e s (rest.map Prod.fst) game.players t

namespace Purging

variable {e : Engine} {k : ℕ} {game : Game} {s s' : Lobby} {i : ℕ} {p : Guid}
  {rest : List (ℕ × Guid)}

section

variable (h : Purging e k game s ((i, p) :: rest) s')
include h

/-- The entry the loop has reached. -/
theorem head :
    game.players.get i = some p ∧ i ∉ rest.map Prod.fst ∧ (rest.map Prod.fst).Nodup ∧
      ∀ ip ∈ rest, game.players.get ip.1 = some ip.2 := by
  obtain ⟨hi, hnd⟩ := List.nodup_cons.mp (List.map_cons (f := Prod.fst) ▸ h.nodup)
  exact ⟨h.listed (i, p) List.mem_cons_self, hi, hnd,
    fun ip hip => h.listed ip (List.mem_cons_of_mem (i, p) hip)⟩

/-- A player in the world keeps his entry. -/
theorem list_kept (hp : s'.inWorld p = true) :
    ∃ t, s'.games.get k = some { game with players := t } ∧
      Purged e s (rest.map Prod.fst) game.players t := by
  obtain ⟨t, hget, ht⟩ := h.list
  refine ⟨t, hget, fun j hj => ht.ahead j (List.mem_cons_of_mem i hj), ht.sub, fun j q hj hjr => ?_,
    ht.kept⟩
  by_cases hji : j = i
  · subst hji
    have hqp : q = p := Option.some.inj ((ht.sub j q hj).symm.trans h.head.1)
    exact hqp ▸ h.touches.inWorld_of hp
  · exact ht.inWorld j q hj fun hmem => (List.mem_cons.mp hmem).elim hji hjr

/-- **A player who is in the lobby** is left alone. -/
theorem here (hp : s'.inWorld p = true) (hmap : s'.mapId p = 13) : Purging e k game s rest s' := by
  obtain ⟨hi, -, hnd, hlisted⟩ := h.head
  refine ⟨hnd, hlisted, h.touches, fun q hq hqr => h.unmoved q hq fun j hj =>
    List.mem_cons_of_mem i (hqr j hj), h.stayed, fun j q hj hjr hq => ?_, h.list_kept hp⟩
  by_cases hji : j = i
  · subst hji
    have hqp : q = p := Option.some.inj (hj.symm.trans hi)
    subst hqp
    simp [stays, h.touches.inWorld_of hp, ← h.touches.mapId q hp, hmap]
  · exact h.moved j q hj (fun hmem => (List.mem_cons.mp hmem).elim hji hjr) hq

/-- **A player who is elsewhere** is sent to the lobby, and leaves the world unless the engine
refuses. -/
theorem sentHome (hp : s'.inWorld p = true) (hmap : s'.mapId p ≠ 13) :
    Purging e k game s rest (teleportHome e p s').state := by
  obtain ⟨hi, hir, hnd, hlisted⟩ := h.head
  have hstate : (e.refuses p 13 = true ∧ (teleportHome e p s').state = s') ∨
      (teleportHome e p s').state.inWorld p ≠ true := by
    unfold teleportHome teleport
    by_cases hr : e.refuses p 13 = true
    · exact Or.inl ⟨hr, by simp [hr]⟩
    · right
      simp [hr, hmap, Lobby.inWorld, Lobby.presence_setPresence]
  have hne : ∀ q, q ≠ p → (teleportHome e p s').state.inWorld q = s'.inWorld q := fun q hq =>
    teleport_inWorld_of_ne e 13 ⟨0, 0, 0, 0⟩ s' hq
  refine ⟨hnd, hlisted, h.touches.trans (teleport_touches e 13 ⟨0, 0, 0, 0⟩ s' hp ⟨i, hi⟩),
    fun q hq hqr => ?_, fun q hq => ?_, fun j q hj hjr hq => ?_, ?_⟩
  · -- an entry of his has been reached now, if he is `p`
    have hqp : q ≠ p := fun hqp => hir (hqr i (hqp ▸ hi))
    rw [hne q hqp]
    exact h.unmoved q hq fun j hj => List.mem_cons_of_mem i (hqr j hj)
  · by_cases hqp : q = p
    · subst hqp
      rcases hstate with ⟨-, hs⟩ | hout
      · rw [hs]
        exact hp
      · simp only [stays, ← h.touches.mapId q hp, Bool.and_eq_true, Bool.or_eq_true, beq_iff_eq,
          hmap, false_or] at hq
        simpa [teleportHome, teleport, hq.2] using hp
    · rw [hne q hqp]
      exact h.stayed q hq
  · by_cases hqp : q = p
    · subst hqp
      rcases hstate with ⟨hr, -⟩ | hout
      · simp [stays, h.touches.inWorld_of hp, hr]
      · exact absurd hq hout
    · rw [hne q hqp] at hq
      refine h.moved j q hj (fun hmem => ?_) hq
      rcases List.mem_cons.mp hmem with hji | hjr'
      · exact hqp (Option.some.inj (hj.symm.trans (hji ▸ hi)))
      · exact hjr hjr'
  · rw [teleportHome, teleport_games]
    exact h.list_kept hp

/-- **A player who is not in the world** loses the entry. -/
theorem deleted (hp : s'.inWorld p ≠ true) :
    Purging e k game s rest
      (s'.modifyGame k fun game => { game with players := game.players.set i none }) := by
  obtain ⟨hi, hir, hnd, hlisted⟩ := h.head
  obtain ⟨t, hget, ht⟩ := h.list
  have hi0 : i ≠ 0 := fun h0 => by
    rw [h0] at hi
    simp at hi
  have hset : ∀ {j q}, (t.set i none).get j = some q → j ≠ i ∧ t.get j = some q := by
    intro j q hj
    rw [Table.get_set t hi0] at hj
    split at hj
    · exact absurd hj (by simp)
    · rename_i hji
      exact ⟨hji, hj⟩
  have hin : ∀ q, (s'.modifyGame k fun game =>
      { game with players := game.players.set i none }).inWorld q = s'.inWorld q := fun q => by
    simp [Lobby.inWorld]
  refine ⟨hnd, hlisted, h.touches.trans (Touches.modifyGame _), fun q hq hqr => ?_,
    fun q hq => ?_, fun j q hj hjr hq => ?_, t.set i none, get_modifyGame_of hget _, ?_⟩
  · rw [hin]
    exact h.unmoved q hq fun j hj => List.mem_cons_of_mem i (hqr j hj)
  · rw [hin]
    exact h.stayed q hq
  · rw [hin] at hq
    refine h.moved j q hj (fun hmem => ?_) hq
    rcases List.mem_cons.mp hmem with hji | hjr'
    · have hqp : q = p := Option.some.inj (hj.symm.trans (hji ▸ hi))
      exact hp (hqp ▸ hq)
    · exact hjr hjr'
  · refine ⟨fun j hj => ?_, fun j q hj => ht.sub j q (hset hj).2, fun j q hj hjr => ?_,
      fun j q hj hq hor => ?_⟩
    · have hji : j ≠ i := fun h => hir (h ▸ hj)
      rw [Table.get_set_ne t none hji]
      exact ht.ahead j (List.mem_cons_of_mem i hj)
    · obtain ⟨hji, hj⟩ := hset hj
      exact ht.inWorld j q hj fun hmem => (List.mem_cons.mp hmem).elim hji hjr
    · rw [Table.get_set t hi0]
      split
      · rename_i hji
        have hqp : q = p := Option.some.inj (hj.symm.trans (hji ▸ hi))
        subst hqp
        -- he was in the world, and nothing has taken him out of it
        rcases hor with hstay | honce
        · exact absurd (h.stayed q hstay) hp
        · refine absurd (h.unmoved q hq fun l hl => ?_) hp
          rw [honce l hl, hji]
          exact List.mem_cons_self
      · exact ht.kept j q hj hq hor

end

end Purging

/-- **The purge**: it completes, and what it leaves of the list and of the world. -/
theorem purge_spec (e : Engine) {k : ℕ} {game : Game} {s : Lobby}
    (hget : s.games.get k = some game) :
    let o := forEach (purgePlayer e k) (game.players.pairs e.layout (Engine.playersSite k)) s
    o.error = none ∧ Purging e k game s [] o.state := by
  have hstart : Purging e k game s (game.players.pairs e.layout (Engine.playersSite k)) s := by
    have hall : ∀ i p, game.players.get i = some p →
        i ∈ (game.players.pairs e.layout (Engine.playersSite k)).map Prod.fst := fun i p hi =>
      List.mem_map_of_mem (f := Prod.fst) (Table.mem_pairs.mpr hi)
    exact ⟨Table.nodup_map_fst_pairs _ _ _, fun ip hip => Table.mem_pairs.mp hip, Touches.refl,
      fun p hp _ => hp, fun p hp => (Bool.and_eq_true_iff.mp hp).1,
      fun i p hi hni => absurd (hall i p hi) hni, game.players, hget, fun _ _ => rfl,
      fun _ _ h => h, fun i p hi hni => absurd (hall i p hi) hni, fun _ _ h _ _ => h⟩
  refine forEach_completes (J := Purging e k game s) (fun ip rest s' h => ?_) hstart
  obtain ⟨i, p⟩ := ip
  unfold purgePlayer
  by_cases hp : s'.inWorld p = true
  · rw [if_pos hp]
    by_cases hmap : s'.mapId p ≠ 13
    · rw [if_pos hmap]
      exact ⟨rfl, h.sentHome hp hmap⟩
    · rw [if_neg hmap]
      exact ⟨rfl, h.here hp (not_not.mp hmap)⟩
  · rw [if_neg hp]
    exact ⟨rfl, h.deleted hp⟩

/-! ## 4. The start of a game -/

theorem mem_members {e : Engine} {k : ℕ} {v : Game} {p : Guid} :
    p ∈ members e k v ↔ ∃ i, v.players.get i = some p := by
  simp [members, Table.mem_pairs]

/-- What the loop of `handleStartGame` does for one entry. -/
theorem startPlayer_eq (e : Engine) (id : ℕ) (locs : Table Location) (plr : Guid) (st : Loop ℕ) :
    startPlayer e id locs plr st =
      if st.lobby.inWorld plr then
        if id ≤ maxUInt32 then
          match locs.get st.vars with
          | none => ⟨st, [.broadcast plr (bytes "The game will start in 30 seconds!"),
              .setPhaseMask plr id], some .indexNil⟩
          | some loc => ⟨⟨(teleport e plr 800 loc st.lobby).state, st.vars + 1⟩,
              [.broadcast plr (bytes "The game will start in 30 seconds!"), .setPhaseMask plr id,
                .teleport plr 800 loc] ++ (addonFrames plr (bytes "STARTINGGAME") 3 ++
                  [timePacket e plr]), none⟩
        else ⟨st, [.broadcast plr (bytes "The game will start in 30 seconds!")],
          some .badArgument⟩
      else ok st := by
  unfold startPlayer setPhaseMask
  by_cases hin : st.lobby.inWorld plr = true
  · by_cases hid : id ≤ maxUInt32
    · cases hloc : locs.get st.vars <;>
        simp [hin, hid, hloc, inLoop, mapState, Outcome.bind, send, raise, teleport]
    · simp [hin, hid, inLoop, mapState, Outcome.bind, send, raise]
  · simp [hin]

/-- **The loop of `handleStartGame`**, whether it completes or not: it takes members out of
the world. -/
theorem startLoop_touches (e : Engine) (k id : ℕ) (locs : Table Location) (who : Guid → Prop)
    {ms : List Guid} (st : Loop ℕ) (hms : ∀ p ∈ ms, who p) :
    let s' := (forEach (startPlayer e id locs) ms st).state.lobby
    Touches k who st.lobby s' ∧ s'.games = st.lobby.games := by
  refine (Leaves.forEach (W := fun _ => True)
    (I := fun st' : Loop ℕ =>
      Touches k who st.lobby st'.lobby ∧ st'.lobby.games = st.lobby.games)
    (fun p hp st' h => ⟨?_, fun _ _ => trivial⟩) ⟨Touches.refl, rfl⟩).1
  rw [startPlayer_eq]
  split
  · rename_i hin
    split
    · cases locs.get st'.vars with
      | none => exact h
      | some loc =>
        exact ⟨h.1.trans (teleport_touches e 800 loc _ hin (hms p hp)),
          (teleport_games e p 800 loc _).trans h.2⟩
    · exact h
  · exact h

/-- **The loop of `handleStartGame` completes** while the counter stays within the list, and
then it has sent everyone who was in the world to a location of the list. -/
theorem startLoop_completes {e : Engine} {id : ℕ} {locs : Table Location} (hid : id ≤ maxUInt32)
    (hlocs : ∀ i, 1 ≤ i → i ≤ 10 → ∃ loc ∈ locations, locs.get i = some loc) :
    ∀ (ms : List Guid) (st : Loop ℕ), 1 ≤ st.vars → st.vars + ms.countP st.lobby.inWorld ≤ 11 →
      (forEach (startPlayer e id locs) ms st).error = none ∧
        ∀ p ∈ ms, st.lobby.inWorld p = true →
          ∃ loc ∈ locations, .teleport p 800 loc ∈ (forEach (startPlayer e id locs) ms st).sent
  | [], _, _, _ => ⟨rfl, fun _ hp => absurd hp (by simp)⟩
  | p :: ms, st, hpos, hle => by
    rw [forEach_cons, startPlayer_eq]
    by_cases hin : st.lobby.inWorld p = true
    · rw [List.countP_cons_of_pos hin] at hle
      obtain ⟨loc, hloc, hget⟩ := hlocs st.vars hpos (by omega)
      rw [if_pos hin, if_pos hid, hget]
      have htouch : Touches 0 (fun _ => True) st.lobby _ :=
        teleport_touches e 800 loc st.lobby hin trivial
      have hcount : ms.countP (teleport e p 800 loc st.lobby).state.inWorld
          ≤ ms.countP st.lobby.inWorld :=
        List.countP_mono_left fun q _ hq => htouch.inWorld_of hq
      obtain ⟨he, hsent⟩ := startLoop_completes hid hlocs ms
        ⟨(teleport e p 800 loc st.lobby).state, st.vars + 1⟩ (Nat.le_add_left 1 _)
        (by simp only; omega)
      rw [bind_of_ok rfl]
      refine ⟨he, fun q hq hqin => ?_⟩
      by_cases hqp : q = p
      · subst hqp
        exact ⟨loc, hloc, by simp⟩
      · have hqin' : (teleport e p 800 loc st.lobby).state.inWorld q = true := by
          rw [teleport_inWorld_of_ne _ _ _ _ hqp]
          exact hqin
        obtain ⟨loc', hloc', hmem⟩ := hsent q ((List.mem_cons.mp hq).resolve_left hqp) hqin'
        exact ⟨loc', hloc', List.mem_append_right _ hmem⟩
    · rw [if_neg hin, ok_bind]
      rw [List.countP_cons_of_neg hin] at hle
      obtain ⟨he, hsent⟩ := startLoop_completes hid hlocs ms st hpos hle
      refine ⟨he, fun q hq hqin => hsent q ((List.mem_cons.mp hq).resolve_left ?_) hqin⟩
      rintro rfl
      exact hin hqin

/-- Every entry of the shuffled table is a location of the list. -/
theorem get_shuffled (draw : ℕ → ℕ) (i : ℕ) (h1 : 1 ≤ i) (h10 : i ≤ 10) :
    ∃ loc ∈ locations, (Table.ofList (shuffled draw locations)).get i = some loc := by
  have hperm := perm_shuffled draw locations
  have hlen : (shuffled draw locations).length = 10 := hperm.length_eq.trans (by decide)
  obtain ⟨j, rfl⟩ := Nat.exists_eq_add_of_le' h1
  have hj : j < (shuffled draw locations).length := by omega
  exact ⟨(shuffled draw locations)[j], hperm.mem_iff.mp (List.getElem_mem hj),
    by rw [Table.get_ofList, List.getElem?_eq_getElem hj]⟩

/-- A game that `handleStartGame` has started, with the locations when it got to its end. -/
def Game.started (game : Game) (data : Option GameData) : Game :=
  { game with active := true, state := some 1, data := data }

/-- **`handleStartGame`, whether it completes or not.** -/
theorem handleStartGame_touches (e : Engine) {k : ℕ} {game : Game} {s : Lobby}
    (hget : s.games.get k = some game) :
    Touches k (· ∈ members e k game) s (handleStartGame e k game s).state ∧
      ∃ d, (handleStartGame e k game s).state.games.get k = some (game.started d) := by
  have hget' := get_modifyGame_of hget fun game => { game with active := true, state := some 1 }
  obtain ⟨htouch, hgames⟩ := startLoop_touches e k game.id
    (Table.ofList (shuffled (e.random k) locations)) (· ∈ members e k game)
    ⟨s.modifyGame k fun game => { game with active := true, state := some 1 }, 1⟩ fun p hp => hp
  unfold handleStartGame
  simp only
  generalize forEach (startPlayer e game.id _) (members e k game) _ = o at htouch hgames ⊢
  simp only at htouch hgames
  rw [← hgames] at hget'
  have htouch' := (Touches.modifyGame _).trans htouch
  cases he : o.error with
  | some err =>
    rw [bind_of_error (e := err) (by rw [mapState_error, he])]
    exact ⟨htouch', game.data, hget'⟩
  | none =>
    rw [bind_of_ok (by rw [mapState_error, he])]
    exact ⟨htouch'.trans (Touches.modifyGame _), _, get_modifyGame_of hget' _⟩

/-- **`handleStartGame` completes** when at most ten of the members are in the world. -/
theorem handleStartGame_completes (e : Engine) {k : ℕ} {game : Game} {s : Lobby}
    (hget : s.games.get k = some game) (hid : game.id ≤ maxUInt32)
    (hten : (members e k game).countP s.inWorld ≤ 10) :
    (handleStartGame e k game s).error = none ∧
      (handleStartGame e k game s).state.games.get k = some (game.started
        (some (.locations (Table.ofList (shuffled (e.random k) locations))))) ∧
      ∀ p ∈ members e k game, s.inWorld p = true →
        ∃ loc ∈ locations, .teleport p 800 loc ∈ (handleStartGame e k game s).sent := by
  have hget' := get_modifyGame_of hget fun game => { game with active := true, state := some 1 }
  obtain ⟨-, hgames⟩ := startLoop_touches e k game.id
    (Table.ofList (shuffled (e.random k) locations)) (· ∈ members e k game)
    ⟨s.modifyGame k fun game => { game with active := true, state := some 1 }, 1⟩ fun p hp => hp
  have hin : ∀ p, (s.modifyGame k fun game =>
      { game with active := true, state := some 1 }).inWorld p = s.inWorld p := by
    intro p
    simp [Lobby.inWorld]
  obtain ⟨he, hsent⟩ := startLoop_completes hid (get_shuffled (e.random k)) (members e k game)
    ⟨s.modifyGame k fun game => { game with active := true, state := some 1 }, 1⟩ (le_refl 1)
    (by simp only [funext hin]; omega)
  unfold handleStartGame
  simp only
  generalize forEach (startPlayer e game.id _) (members e k game) _ = o at he hsent hgames ⊢
  simp only at hgames
  rw [← hgames] at hget'
  rw [bind_of_ok (by rw [mapState_error, he])]
  refine ⟨rfl, get_modifyGame_of hget' _, fun p hp hpin => ?_⟩
  obtain ⟨loc, hloc, hmem⟩ := hsent p hp (by rw [hin]; exact hpin)
  exact ⟨loc, hloc, List.mem_append_left _ hmem⟩

/-! ## 5. A waiting game's turn -/

/-- The number `#` finds in a waiting game's list decides. -/
def enough (e : Engine) (k : ℕ) (t : Table Guid) : Prop :=
  numPlayersToStartGame ≤ t.length e.layout (Engine.playersSite k)

/-- **A waiting game whose host is there**: the list is purged, and the game started when
enough is left. -/
theorem handleInactiveGame_purges (e : Engine) {k : ℕ} {game : Game} {s : Lobby}
    (hget : s.games.get k = some game) (hhost : s.inWorld game.host = true) :
    ∃ s₁ t ws, Purging e k game s [] s₁ ∧ s₁.games.get k = some { game with players := t } ∧
      Purged e s [] game.players t ∧
      ((¬ enough e k t ∧ handleInactiveGame e k game s = send ws s₁) ∨
        (enough e k t ∧ handleInactiveGame e k game s
          = (send ws s₁).bind (handleStartGame e k { game with players := t }))) := by
  obtain ⟨he, hp⟩ := purge_spec e hget
  unfold handleInactiveGame
  rw [if_pos hhost]
  generalize forEach (purgePlayer e k) _ s = o at he hp ⊢
  obtain ⟨t, ht, hpurged⟩ := hp.list
  refine ⟨o.state, t, o.sent, hp, ht, hpurged, ?_⟩
  have ho : o = send o.sent o.state := by rw [send, ← he]
  rw [ho, bind_of_ok rfl, bind_of_ok rfl]
  simp only [send_state, ht]
  by_cases hn : t.length e.layout (Engine.playersSite k) ≥ numPlayersToStartGame
  · rw [if_pos hn]
    exact Or.inr ⟨hn, rfl⟩
  · rw [if_neg hn]
    refine Or.inl ⟨hn, ?_⟩
    simp [send]

/-- The invariant of the loop that dissolves a game. -/
theorem removeLoop_spec (ms : List Guid) (s : Lobby) :
    let o := forEach removeFromQueue ms s
    o.error = none ∧ o.state = { s with
      gameData := fun p => if p ∈ ms ∧ s.inWorld p = true then none else s.gameData p } := by
  induction ms generalizing s with
  | nil => exact ⟨rfl, by simp⟩
  | cons q ms ih =>
    rw [forEach_cons]
    by_cases hq : s.inWorld q = true
    · have hhead : removeFromQueue q s = send (addonFrames q (bytes "RESET") 3 ++ [.broadcast q
          (bytes "You have been removed from the queue because the host went offline.")])
          (s.setGameData q none) := if_pos hq
      rw [hhead, bind_of_ok rfl]
      obtain ⟨he, hs⟩ := ih (s.setGameData q none)
      refine ⟨he, ?_⟩
      show (forEach removeFromQueue ms (s.setGameData q none)).state = _
      rw [hs]
      have hdata : ∀ p, (if p ∈ ms ∧ s.inWorld p = true then none
          else (s.setGameData q none).gameData p)
          = if p ∈ q :: ms ∧ s.inWorld p = true then none else s.gameData p := by
        intro p
        by_cases hp : p = q
        · simp [hp, hq, Lobby.gameData_setGameData]
        · simp [hp, Lobby.gameData_setGameData]
      exact congrArg (fun d => { s with gameData := d }) (funext hdata)
    · have hhead : removeFromQueue q s = ok s := if_neg hq
      rw [hhead, ok_bind]
      obtain ⟨he, hs⟩ := ih s
      refine ⟨he, ?_⟩
      rw [hs]
      have hdata : ∀ p, (if p ∈ ms ∧ s.inWorld p = true then none else s.gameData p)
          = if p ∈ q :: ms ∧ s.inWorld p = true then none else s.gameData p := by
        intro p
        by_cases hp : p = q
        · simp [hp, hq]
        · simp [hp]
      exact congrArg (fun d => { s with gameData := d }) (funext hdata)

/-- **A waiting game whose host is gone** is dissolved. -/
theorem handleInactiveGame_dissolves (e : Engine) (k : ℕ) (game : Game) (s : Lobby)
    (hhost : s.inWorld game.host ≠ true) :
    (handleInactiveGame e k game s).error = none ∧
      (handleInactiveGame e k game s).state = { s with
        games := s.games.set k none
        gameData := fun p =>
          if p ∈ members e k game ∧ s.inWorld p = true then none else s.gameData p } := by
  obtain ⟨he, hs⟩ := removeLoop_spec (members e k game) s
  unfold handleInactiveGame
  rw [if_neg hhost, bind_of_ok he]
  refine ⟨rfl, ?_⟩
  simp only [ok_state, hs, Lobby.removeGame]

/-! ## 6. A started game's turn -/

/-- The spawning loop leaves the lobby alone. -/
theorem spawnLoop_lobby (e : Engine) (k id : ℕ) (data : Option GameData) (ms : List Guid)
    (st : Loop (ℕ × List Obj)) :
    (forEach (spawnFor e k id data) ms st).state.lobby = st.lobby := by
  refine (Leaves.forEach (W := fun _ => True)
    (I := fun st' : Loop (ℕ × List Obj) => st'.lobby = st.lobby)
    (fun p _ st' h => ⟨?_, fun _ _ => trivial⟩) rfl).1
  unfold spawnFor
  split
  · cases locationAt data st'.vars.1 with
    | none => exact h
    | some loc =>
      simp only
      split
      · rw [bind_of_ok rfl]
        simp only [send_state]
        cases e.spawn k st'.vars.1 <;> exact h
      · exact h
  · exact h

/-- Neither does the loop that plays the sound, nor the one that removes the objects. -/
theorem despawnLoop_state (e : Engine) (objs : List Obj) (s : Lobby) :
    (forEach (despawn e) objs s).state = s := by
  refine (Leaves.forEach (W := fun _ => True) (I := fun s' : Lobby => s' = s)
    (fun obj _ s' h => ⟨?_, fun _ _ => trivial⟩) rfl).1
  unfold despawn
  split <;> exact h

theorem soundLoop_spec (ms : List Guid) (s : Lobby) :
    (forEach playStartSound ms s).error = none ∧ (forEach playStartSound ms s).state = s := by
  refine forEach_completes (J := fun (_ : List Guid) (s' : Lobby) => s' = s)
    (fun p rest s' h => ?_) rfl
  unfold playStartSound
  split <;> exact ⟨rfl, h⟩

/-- **A started game's turn** writes its `state` and its `data`. -/
theorem handleActiveGame_touches (e : Engine) {k : ℕ} {game : Game} {s : Lobby}
    (hget : s.games.get k = some game) :
    Touches k (fun _ => False) s (handleActiveGame e k game s).state ∧
      ∃ n d, (handleActiveGame e k game s).state.games.get k
        = some { game with state := n, data := d } := by
  have hsame : Touches k (fun _ => False) s s ∧
      ∃ n d, s.games.get k = some { game with state := n, data := d } :=
    ⟨Touches.refl, game.state, game.data, hget⟩
  unfold handleActiveGame
  cases hstate : game.state with
  | none => exact hsame
  | some n =>
    simp only
    split
    · have hlobby := spawnLoop_lobby e k game.id game.data (members e k game) ⟨s, 1, []⟩
      generalize forEach (spawnFor e k game.id game.data) _ _ = o at hlobby ⊢
      cases he : o.error with
      | some err =>
        rw [bind_of_error he, mapState_state, hlobby]
        exact hsame
      | none =>
        rw [bind_of_ok he, mapState_state]
        simp only [ok_state, hlobby]
        exact ⟨Touches.modifyGame _, _, _, get_modifyGame_of hget _⟩
    · split
      · exact ⟨Touches.modifyGame _, _, game.data, get_modifyGame_of hget _⟩
      · split
        · cases game.data with
          | none => exact hsame
          | some data =>
            cases data with
            | locations t => exact hsame
            | objects objs =>
              simp only
              have hobjs := despawnLoop_state e ((objs.pairs e.layout .built).map Prod.snd) s
              generalize forEach (despawn e) _ s = o at hobjs ⊢
              cases he : o.error with
              | some err =>
                rw [bind_of_error he, hobjs]
                exact hsame
              | none =>
                rw [bind_of_ok he, hobjs]
                obtain ⟨he', hs'⟩ := soundLoop_spec (members e k game) s
                rw [bind_of_ok he', hs']
                exact ⟨Touches.modifyGame _, _, _, get_modifyGame_of hget _⟩
        · exact hsame

/-! ## 7. Every turn -/

/-- **All that a turn can do**, whether it completes or not. -/
inductive Turn (e : Engine) (k : ℕ) (s : Lobby) : Lobby → Prop where
  | absent : s.games.get k = none → Turn e k s s
  | active {game : Game} {s' : Lobby} (n : Option ℕ) (d : Option GameData) :
      s.games.get k = some game → game.active = true → Touches k (fun _ => False) s s' →
      s'.games.get k = some { game with state := n, data := d } → Turn e k s s'
  | dissolved {game : Game} :
      s.games.get k = some game → game.active = false → s.inWorld game.host ≠ true →
      Turn e k s { s with
        games := s.games.set k none
        gameData := fun p =>
          if p ∈ members e k game ∧ s.inWorld p = true then none else s.gameData p }
  | waiting {game : Game} {s' : Lobby} {t : Table Guid} :
      s.games.get k = some game → game.active = false → s.inWorld game.host = true →
      Purging e k game s [] s' → Purged e s [] game.players t →
      ¬ enough e k t → s'.games.get k = some { game with players := t } → Turn e k s s'
  | started {game : Game} {s' : Lobby} {t : Table Guid} (d : Option GameData) :
      s.games.get k = some game → game.active = false → s.inWorld game.host = true →
      Touches k (fun p => ∃ i, game.players.get i = some p) s s' →
      Purged e s [] game.players t → enough e k t →
      s'.games.get k = some ({ game with players := t }.started d) → Turn e k s s'

theorem updateGame_eq {s : Lobby} {k : ℕ} {game : Game} (e : Engine)
    (hget : s.games.get k = some game) :
    updateGame e k s = (send [.visit k] s).bind fun s =>
      if game.active then handleActiveGame e k game s else handleInactiveGame e k game s := by
  unfold updateGame
  rw [hget]

/-- **The turn of a game is one of these.** -/
theorem updateGame_turn (e : Engine) (k : ℕ) (s : Lobby) : Turn e k s (updateGame e k s).state := by
  cases hget : s.games.get k with
  | none =>
    unfold updateGame
    rw [hget]
    exact Turn.absent hget
  | some game =>
    rw [updateGame_eq e hget, bind_of_ok rfl]
    simp only [send_state]
    cases hact : game.active with
    | true =>
      obtain ⟨htouch, n, d, hd⟩ := handleActiveGame_touches e hget
      simp only [if_true]
      exact Turn.active n d hget hact htouch hd
    | false =>
      simp only [Bool.false_eq_true, if_false]
      by_cases hhost : s.inWorld game.host = true
      · obtain ⟨s₁, t, ws, hpurging, ht, hpurged, ⟨hn, heq⟩ | ⟨hn, heq⟩⟩ :=
          handleInactiveGame_purges e hget hhost
        · rw [heq]
          exact Turn.waiting hget hact hhost hpurging hpurged hn ht
        · rw [heq, bind_of_ok rfl]
          obtain ⟨htouch, d, hd⟩ := handleStartGame_touches e ht
          refine Turn.started d hget hact hhost (hpurging.touches.trans (htouch.mono fun p hp => ?_))
            hpurged hn hd
          obtain ⟨i, hi⟩ := mem_members.mp hp
          exact ⟨i, hpurged.sub i p hi⟩
      · rw [(handleInactiveGame_dissolves e k game s hhost).2]
        exact Turn.dissolved hget hact hhost

/-- What a turn leaves alone. -/
structure TurnFrame (k : ℕ) (s s' : Lobby) : Prop where
  gameId : s'.gameId = s.gameId
  others : ∀ j, j ≠ k → s'.games.get j = s.games.get j
  /-- a player in the world was in it before, on the same map -/
  world : ∀ p, s'.inWorld p = true → s.inWorld p = true ∧ s'.mapId p = s.mapId p

theorem Touches.frame {k : ℕ} {who : Guid → Prop} {s s' : Lobby} (h : Touches k who s s') :
    TurnFrame k s s' :=
  ⟨h.gameId, h.others, fun p hp => ⟨h.inWorld_of hp, h.mapId p hp⟩⟩

/-- **A turn is its game's own.** -/
theorem Turn.frame {e : Engine} {k : ℕ} {s s' : Lobby} (h : Turn e k s s') : TurnFrame k s s' := by
  cases h with
  | absent _ => exact ⟨rfl, fun _ _ => rfl, fun _ hp => ⟨hp, rfl⟩⟩
  | active _ _ _ _ ht _ => exact ht.frame
  | waiting _ _ _ hp _ _ _ => exact hp.touches.frame
  | started _ _ _ _ ht _ _ _ => exact ht.frame
  | dissolved _ _ _ =>
    exact ⟨rfl, fun j hjk => Table.get_set_ne s.games none hjk, fun _ hp => ⟨hp, rfl⟩⟩

end HungerGames.Arena
