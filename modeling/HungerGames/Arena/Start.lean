/-
# When a game starts

A waiting game is to start when its host is online and three players are queued in it.  What
the tick looks at is `#` of the purged list.  That is a border, and the purge leaves holes: a
list that still has players at the positions 1, 3 and 4 may count as one entry or as four.
Nor is an entry a queued player.  Whoever leaves keeps his entry and gets another when he
comes back, and a player loading a map loses it.

The two agree on a tick when the list looks as if none of this had happened (`StartsInTime`):
no entry from the third position on counts for nothing, and when three players are queued the
first three positions hold players who will be there when the tick comes to the game.
-/
import HungerGames.Arena.TickSafety

namespace HungerGames.Arena

open HungerGames.Lua
open HungerGames.Lua.Outcome
open HungerGames.System

/-! ## 1. The property -/

/-- The players queued in a game: listed, online and in no other game, each once. -/
def queued (s : Lobby) (g : Game) : List Guid :=
  (g.players.values.filter fun p => s.online p && decide (s.gameData p = some g.name)).dedup

/-- The host is online and enough players are queued. -/
def shouldStart (s : Lobby) (g : Game) : Bool :=
  s.online g.host && decide (numPlayersToStartGame ≤ (queued s g).length)

/-- A waiting game becomes active on the tick exactly when it should. -/
def StartsRight (e : Engine) (s : Lobby) : Prop :=
  ∀ k g, s.games.get k = some g → g.active = false →
    ((∃ g', (updateAllGames e s).state.games.get k = some g' ∧ g'.active = true) ↔
      shouldStart s g = true)

/-! ## 2. The condition -/

/-- The position holds a player in the world whom the purge of this game keeps. -/
def firm (e : Engine) (s : Lobby) (g : Game) (i : ℕ) : Bool :=
  (g.players.get i).any fun p => s.inWorld p && (stays e s p || g.players.count p == 1)

/-- What `#` will find is what is queued. -/
def StartsInTime (e : Engine) (s : Lobby) : Prop :=
  ∀ k ∈ s.games.keys, ∀ g ∈ s.games.get k, g.active = false →
    (mayStart s g = true → shouldStart s g = true) ∧
    (shouldStart s g = true → s.inWorld g.host = true ∧ (∀ i ∈ [1, 2, 3], firm e s g i = true) ∧
      ∀ k' ∈ s.games.keys, k' ≠ k → ∀ g' ∈ s.games.get k', mayTake e s g' g.host = false ∧
        ∀ i ∈ [1, 2, 3], ∀ p ∈ g.players.get i, mayTake e s g' p = false)

section Decide

attribute [local instance] instDecidableForall

instance (e : Engine) (s : Lobby) : Decidable (StartsInTime e s) :=
  inferInstanceAs (Decidable (∀ k ∈ s.games.keys, ∀ g ∈ s.games.get k, _ → _))

end Decide

theorem firm_iff {e : Engine} {s : Lobby} {g : Game} {i : ℕ} :
    firm e s g i = true ↔ ∃ p, g.players.get i = some p ∧ s.inWorld p = true ∧
      (stays e s p = true ∨ ∀ j, g.players.get j = some p → j = i) := by
  simp only [firm, Option.any_eq_true, Bool.and_eq_true, Bool.or_eq_true, beq_iff_eq]
  refine exists_congr fun p => and_congr_right fun hi => and_congr_right fun _ => ?_
  refine or_congr_right ?_
  rw [Table.count_eq_one_iff]
  constructor
  · rintro ⟨l, -, honce⟩ j hj
    rw [honce j hj, honce i hi]
  · exact fun honce => ⟨i, hi, honce⟩

/-- **Three leading entries make every border three or more.** -/
theorem enough_of_leading {e : Engine} {k : ℕ} {t : Table Guid}
    (h : ∀ i ∈ [1, 2, 3], (t.get i).isSome) : enough e k t := by
  obtain ⟨-, hfree⟩ := Table.length_border e.layout (Engine.playersSite k) t
  unfold enough numPlayersToStartGame
  by_contra hlt
  have hmem : t.length e.layout (Engine.playersSite k) + 1 ∈ [1, 2, 3] := by
    simp only [List.mem_cons, List.not_mem_nil, or_false]
    omega
  have hsome := h _ hmem
  rw [hfree] at hsome
  exact absurd hsome (by simp)

/-- **A game that should start does**, when the tick gets to it. -/
theorem starts_of_shouldStart {e : Engine} {s₀ : Lobby} {k : ℕ} {g : Game} (hok : TickOk e s₀)
    (hwf : ∀ k g, s₀.games.get k = some g → WellFormed g) (hk : s₀.games.get k = some g)
    (hact : g.active = false) (hhost : s₀.inWorld g.host = true)
    (hfirm : ∀ i ∈ [1, 2, 3], firm e s₀ g i = true)
    (htake : ∀ j v, j ≠ k → s₀.games.get j = some v → mayTake e s₀ v g.host = false ∧
      ∀ i ∈ [1, 2, 3], ∀ p ∈ g.players.get i, mayTake e s₀ v p = false) :
    ∃ g', (updateAllGames e s₀).state.games.get k = some g' ∧ g'.active = true := by
  obtain ⟨rest, s, hw, hp, hfinal, -⟩ := updateAllGames_reaches
    (P := fun p => p = g.host ∨ ∃ i ∈ [1, 2, 3], g.players.get i = some p) hok hwf
    (by rw [hk]; rfl)
    (by
      rintro p (rfl | ⟨i, hi, hip⟩)
      · exact hhost
      · obtain ⟨q, hq, hin, -⟩ := firm_iff.mp (hfirm i hi)
        exact Option.some.inj (hq.symm.trans hip) ▸ hin)
    (by
      rintro p (rfl | ⟨i, hi, hip⟩) j v hj hv
      · exact (htake j v hj hv).1
      · exact (htake j v hj hv).2 i hi p hip)
  have hget : s.games.get k = some g := (hw.ahead k List.mem_cons_self).trans hk
  obtain ⟨s₁, t, ws, -, hs₁, hpurged, ⟨hn, -⟩ | ⟨-, heq⟩⟩ :=
    handleInactiveGame_purges e hget (hp g.host (Or.inl rfl))
  · refine absurd (enough_of_leading fun i hi => ?_) hn
    obtain ⟨p, hip, -, hor⟩ := firm_iff.mp (hfirm i hi)
    have hin := hp p (Or.inr ⟨i, hi, hip⟩)
    have hor' : stays e s p = true ∨ ∀ j, g.players.get j = some p → j = i :=
      hor.imp (fun hstay => (stays_of_walk hw).mpr ⟨hstay, hin⟩) id
    simp [hpurged.kept i p hip hin hor']
  · have hidle : ¬ g.active = true := by rw [hact]; decide
    obtain ⟨-, d, hd⟩ := handleStartGame_touches e hs₁
    refine ⟨{ g with players := t }.started d, ?_, rfl⟩
    rw [hfinal, updateGame_eq e hget, bind_of_ok rfl]
    simp only [send_state, if_neg hidle]
    rw [heq, bind_of_ok rfl]
    exact hd

/-- **The tick starts the right games.** -/
theorem startsRight_of_inTime {e : Engine} {s : Lobby} (hok : TickOk e s)
    (hwf : ∀ k g, s.games.get k = some g → WellFormed g) (htime : StartsInTime e s) :
    StartsRight e s := by
  intro k g hk hact
  have hkeys : ∀ {j : ℕ} {v : Game}, s.games.get j = some v → j ∈ s.games.keys := fun hj =>
    Table.mem_keys.mpr (by simp [hj])
  obtain ⟨hmay, hshould⟩ := htime k (hkeys hk) g hk hact
  constructor
  · rintro ⟨g', hk', hact'⟩
    obtain ⟨g₀, hg₀, -, hgrown⟩ := (updateAllGames_grown e s).2 k g' hk'
    obtain rfl : g = g₀ := Option.some.inj (hk.symm.trans hg₀)
    exact hmay ((hgrown hact').resolve_left (by rw [hact]; decide))
  · intro hs
    obtain ⟨hhost, hfirm, htake⟩ := hshould hs
    exact starts_of_shouldStart hok hwf hk hact hhost hfirm fun j v hj hv => htake j (hkeys hv) hj v hv

/-! ## 3. Runs -/

/-- A tick finds nothing in its way, and lists that say who is queued. -/
def TickTimely (s : Lobby) (i : Engine × Event) : Prop :=
  i.2 = .tick → TickOk i.1 s ∧ StartsInTime i.1 s

instance (s : Lobby) (i : Engine × Event) : Decidable (TickTimely s i) :=
  inferInstanceAs (Decidable (_ → _))

/-- Two players wait for a second, and a third joins them. -/
def thirdRun : List (Engine × Event) :=
  enter 1 ++ enter 2 ++ enter 3 ++ [say 1 .createGame (bytes "A"), say 2 .joinGame (bytes "A"),
    second, say 3 .joinGame (bytes "A")]

/-- Player 2 joins, leaves and joins again. -/
def rejoinRun : List (Engine × Event) :=
  enter 1 ++ enter 2 ++ [say 1 .createGame (bytes "A"), say 2 .joinGame (bytes "A"),
    say 2 .leaveGame (bytes "A"), say 2 .joinGame (bytes "A")]

/-- The second of four players logs out. -/
def holeRun : List (Engine × Event) :=
  enter 5 ++ enter 6 ++ enter 7 ++ enter 8 ++ [say 5 .createGame (bytes "A"),
    say 6 .joinGame (bytes "A"), say 7 .joinGame (bytes "A"), say 8 .joinGame (bytes "A"),
    (Engine.plain, .logout 6)]

end HungerGames.Arena
