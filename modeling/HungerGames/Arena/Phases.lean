/-
# Phases of simultaneous games

A player sees an object, and can fight it, when their phase masks have a bit in common.  A
game's phase mask is its id, and ids come from a counter, 1, 2, 3, ..: the bits of two ids are
disjoint only by luck, and the games with the ids 1 and 3 share an arena.

The counter never yields `0`, so every game sees itself.  Games that are active together keep
to themselves in every run in which a game starts only beside games whose ids have no bit of
its own (`isolated_of_phasesFree`).
-/
import HungerGames.Arena.Walk

namespace HungerGames.Arena

open HungerGames.Lua
open HungerGames.System

/-- Two games active at one time have phase masks without a common bit, and not `0`. -/
def ArenasIsolated (s : Lobby) : Prop :=
  ∀ k k' g g', s.games.get k = some g → s.games.get k' = some g' → k ≠ k' →
    g.active = true → g'.active = true → g.id &&& g'.id = 0 ∧ g.id ≠ 0 ∧ g'.id ≠ 0

/-- On a tick, a game that may start shares no bit with a game that is active or may start. -/
def PhasesFree (s : Lobby) (i : Engine × Event) : Prop :=
  i.2 = .tick → ∀ k ∈ s.games.keys, ∀ g ∈ s.games.get k, ∀ k' ∈ s.games.keys,
    ∀ g' ∈ s.games.get k', k ≠ k' → mayStart s g = true →
      (g'.active = true ∨ mayStart s g' = true) → g.id &&& g'.id = 0

instance (s : Lobby) (i : Engine × Event) : Decidable (PhasesFree s i) :=
  inferInstanceAs (Decidable (_ → _))

/-- The inductive invariant. -/
structure Phased (s : Lobby) : Prop where
  gameId : s.gameId ≠ 0
  ids : ∀ k g, s.games.get k = some g → g.id ≠ 0
  disjoint : ∀ k k' g g', s.games.get k = some g → s.games.get k' = some g' → k ≠ k' →
    g.active = true → g'.active = true → g.id &&& g'.id = 0

theorem Phased.isolated {s : Lobby} (h : Phased s) : ArenasIsolated s :=
  fun k k' g g' hk hk' hne hg hg' =>
    ⟨h.disjoint k k' g g' hk hk' hne hg hg', h.ids k g hk, h.ids k' g' hk'⟩

theorem phased_init (nameOf : Guid → Bytes) : Phased (Lobby.init nameOf) where
  gameId := Nat.one_ne_zero
  ids _ _ hk := absurd hk (by simp [Lobby.init])
  disjoint _ _ _ _ hk := absurd hk (by simp [Lobby.init])

theorem numSucc_ne_zero {n : ℕ} (h : n ≠ 0) : numSucc n ≠ 0 := by
  unfold numSucc
  split <;> omega

/-- **The tick.** -/
theorem phased_updateAllGames (e : Engine) {s : Lobby} (h : Phased s)
    (hfree : PhasesFree s (e, .tick)) : Phased (updateAllGames e s).state := by
  obtain ⟨hid, hg⟩ := updateAllGames_grown e s
  refine ⟨hid ▸ h.gameId, fun j g hj => ?_, fun j j' g g' hj hj' hne hact hact' => ?_⟩
  · obtain ⟨g₀, hg₀, hid, -⟩ := hg j g hj
    exact hid ▸ h.ids j g₀ hg₀
  · obtain ⟨g₀, hg₀, hid, hgrown⟩ := hg j g hj
    obtain ⟨g₀', hg₀', hid', hgrown'⟩ := hg j' g' hj'
    have hkeys : ∀ {l v}, s.games.get l = some v → l ∈ s.games.keys := fun hl =>
      Table.mem_keys.mpr (by simp [hl])
    rw [hid, hid']
    rcases hgrown hact with hold | hstart
    · rcases hgrown' hact' with hold' | hstart'
      · exact h.disjoint j j' g₀ g₀' hg₀ hg₀' hne hold hold'
      · rw [Nat.and_comm]
        exact hfree rfl j' (hkeys hg₀') g₀' hg₀' j (hkeys hg₀) g₀ hg₀ hne.symm hstart' (Or.inl hold)
    · exact hfree rfl j (hkeys hg₀) g₀ hg₀ j' (hkeys hg₀') g₀' hg₀' hne hstart (hgrown' hact')

/-- **One step.** -/
theorem phased_step {s : Lobby} {i : Engine × Event} (h : Phased s) (hfree : PhasesFree s i) :
    Phased (step s i) := by
  by_cases hi : i.2 = .tick
  · obtain ⟨e, ev⟩ := i
    obtain rfl : ev = .tick := hi
    exact phased_updateAllGames e h hfree
  · obtain ⟨hgames, hid⟩ := keeps_step (s := s) hi
    have hold : ∀ k g', (step s i).games.get k = some g' →
        (∃ g, s.games.get k = some g ∧ g'.id = g.id ∧ g'.active = g.active) ∨
          g'.id = s.gameId ∧ g'.active = false := by
      intro k g' hk
      rcases hgames k g' hk with ⟨g, t, hg, rfl⟩ | ⟨plr, msg, rfl⟩
      · exact Or.inl ⟨g, hg, rfl, rfl⟩
      · exact Or.inr ⟨rfl, rfl⟩
    refine ⟨?_, fun k g hk => ?_, fun k k' g g' hk hk' hne hact hact' => ?_⟩
    · rcases hid with hid | hid
      · exact hid ▸ h.gameId
      · exact hid ▸ numSucc_ne_zero h.gameId
    · rcases hold k g hk with ⟨g₀, hg₀, hid, -⟩ | ⟨hid, -⟩
      · exact hid ▸ h.ids k g₀ hg₀
      · exact hid ▸ h.gameId
    · rcases hold k g hk with ⟨g₀, hg₀, hid, ha⟩ | ⟨-, ha⟩
      · rcases hold k' g' hk' with ⟨g₀', hg₀', hid', ha'⟩ | ⟨-, ha'⟩
        · rw [hid, hid']
          exact h.disjoint k k' g₀ g₀' hg₀ hg₀' hne (ha ▸ hact) (ha' ▸ hact')
        · exact absurd (ha'.symm.trans hact') (by decide)
      · exact absurd (ha.symm.trans hact) (by decide)

/-- **Active games are isolated in every state of a run whose games start only beside games
with disjoint ids.** -/
theorem isolated_of_phasesFree (nameOf : Guid → Bytes) (is : List (Engine × Event))
    (h : Along step PhasesFree (Lobby.init nameOf) is) :
    ArenasIsolated (exec step (Lobby.init nameOf) is) :=
  (exec_invariant (fun _ _ hp hf => phased_step hp hf) (phased_init nameOf) h).isolated

/-- Seven players: games with the ids 1, 2 and 3, of which the first and the last have three
members. -/
def threeGames (third : Bytes) : List (Engine × Event) :=
  ([1, 2, 3, 4, 5, 6, 7].map enter).flatten ++ [say 1 .createGame (bytes "A"),
    say 2 .joinGame (bytes "A"), say 3 .joinGame (bytes "A"), say 4 .createGame (bytes "B"),
    say 5 .createGame (bytes "C"), say 6 .joinGame third, say 7 .joinGame third]

theorem isolated_of_phasesFree_threeGames :
    ArenasIsolated (exec step (Lobby.init fun _ => []) (threeGames (bytes "B") ++ [second])) :=
  isolated_of_phasesFree (fun _ => []) (threeGames (bytes "B") ++ [second]) (by decide +kernel)

/-- The games 1 and 3 start together. -/
theorem arenas_shared :
    ¬ ArenasIsolated (exec step (Lobby.init fun _ => []) (threeGames (bytes "C") ++ [second])) := by
  intro h
  have h1 : ((exec step (Lobby.init fun _ => []) (threeGames (bytes "C") ++ [second])).games.get 1).map
      (fun g => (g.id, g.active)) = some (1, true) := by decide +kernel
  have h3 : ((exec step (Lobby.init fun _ => []) (threeGames (bytes "C") ++ [second])).games.get 3).map
      (fun g => (g.id, g.active)) = some (3, true) := by decide +kernel
  obtain ⟨g, hg, hv⟩ := Option.map_eq_some_iff.mp h1
  obtain ⟨g', hg', hv'⟩ := Option.map_eq_some_iff.mp h3
  rw [Prod.mk.injEq] at hv hv'
  have hand := (h 1 3 g g' hg hg' (by decide) hv.2 hv'.2).1
  rw [hv.1, hv'.1] at hand
  exact absurd hand (by decide)

end HungerGames.Arena
