/-
# The walk through the games

A tick is a walk: the turns of the registered games, one after the other, until one of them
runs into an error.  What a tick does is shown by an invariant of the walk, which may speak of
the games that are still to be visited: their records are as they were when the walk began,
and nobody has entered the world since.

Whether a game starts on a tick depends on its list, on `#`, and on what the turns before have
done to its members.  `mayStart` and `mayTake` are the two conditions on the state BEFORE the
tick that bound this from outside.
-/
import HungerGames.Arena.Turn

namespace HungerGames.Arena

open HungerGames.Lua
open HungerGames.Lua.Outcome

/-! ## 1. The rule for the tick -/

/-- The keys in the order the walk visits them. -/
def visited (e : Engine) (s : Lobby) : List ℕ := e.layout.next Engine.gamesSite s.games.keys

variable {e : Engine} {s : Lobby}

variable {k : ℕ}

theorem mem_visited : k ∈ visited e s ↔ (s.games.get k).isSome :=
  ((e.layout.next_perm _ _).mem_iff).trans Table.mem_keys

theorem nodup_visited (e : Engine) (s : Lobby) : (visited e s).Nodup :=
  (e.layout.next_perm _ _).nodup_iff.mpr s.games.nodup_keys

/-- **The rule for the tick.**  `J` is the invariant of the walk, and may speak of the games
still to be visited. -/
theorem updateAllGames_rule {J : List ℕ → Lobby → Prop} {I : Lobby → Prop}
    (hturn : ∀ k ks s s', J (k :: ks) s → Turn e k s s' → J ks s') (hI : ∀ ks s, J ks s → I s)
    (hs : J (visited e s) s) : I (updateAllGames e s).state := by
  refine (Leaves.forEach_rest (J := J) (W := fun _ => True) (fun k ks s h => ?_)
    (fun s h => hI [] s h) hs).1
  have h' := hturn k ks s _ h (updateGame_turn e k s)
  exact ⟨fun _ _ => trivial, fun _ => h', fun _ => hI ks _ h'⟩

variable {ks : List ℕ}

/-- The turns of other games leave a record alone. -/
theorem get_walk_of_notMem (e : Engine) (s : Lobby) (hk : k ∉ ks) :
    (forEach (updateGame e) ks s).state.games.get k = s.games.get k := by
  refine (Leaves.forEach (W := fun _ => True) (I := fun s' : Lobby => s'.games.get k = s.games.get k)
    (fun j hj s' h => ⟨?_, fun _ _ => trivial⟩) rfl).1
  have hkj : k ≠ j := fun hkj => hk (hkj ▸ hj)
  exact ((updateGame_turn e j s').frame.others k hkj).trans h

/-! ## 2. Which games may start -/

/-- The game may start on a tick from here: it waits, its host is in the world, and somebody
in the world is listed at the third position or behind it. -/
def mayStart (s : Lobby) (g : Game) : Bool :=
  !g.active && s.inWorld g.host &&
    g.players.keys.any fun i => 3 ≤ i && (g.players.get i).any s.inWorld

theorem mayStart_iff {g : Game} :
    mayStart s g = true ↔ g.active = false ∧ s.inWorld g.host = true ∧
      ∃ i p, 3 ≤ i ∧ g.players.get i = some p ∧ s.inWorld p = true := by
  simp only [mayStart, Bool.and_eq_true, Bool.not_eq_true', List.any_eq_true, decide_eq_true_eq,
    Option.any_eq_true, and_assoc]
  refine and_congr_right fun _ => and_congr_right fun _ => ?_
  constructor
  · rintro ⟨i, -, hi, p, hp, hin⟩
    exact ⟨i, p, hi, hp, hin⟩
  · rintro ⟨i, p, hi, hp, hin⟩
    exact ⟨i, Table.mem_keys.mpr (by simp [hp]), hi, p, hp, hin⟩

/-- **Only such a game starts**: a border of three or more is an entry the purge has left. -/
theorem mayStart_of_enough {game : Game} {t : Table Guid} (hact : game.active = false)
    (hhost : s.inWorld game.host = true) (ht : Purged e s [] game.players t) (hn : enough e k t) :
    mayStart s game = true := by
  unfold enough numPlayersToStartGame at hn
  have hsome := (Table.length_border e.layout (Engine.playersSite k) t).1.resolve_left (by omega)
  obtain ⟨p, hp⟩ := Option.isSome_iff_exists.mp hsome
  exact mayStart_iff.mpr ⟨hact, hhost, _, p, hn, ht.sub _ p hp, ht.inWorld _ p hp (by simp)⟩

theorem mayStart_mono {s' : Lobby} {g : Game} (h : ∀ p, s'.inWorld p = true → s.inWorld p = true)
    (hg : mayStart s' g = true) : mayStart s g = true := by
  obtain ⟨hact, hhost, i, p, hi, hp, hin⟩ := mayStart_iff.mp hg
  exact mayStart_iff.mpr ⟨hact, h _ hhost, i, p, hi, hp, h p hin⟩

/-- Where the walk stands: it began in the state `s₀` and has the games `ks` still to visit. -/
structure Walk (s₀ : Lobby) (ks : List ℕ) (s : Lobby) : Prop where
  nodup : ks.Nodup
  ahead : ∀ k ∈ ks, s.games.get k = s₀.games.get k
  world : ∀ p, s.inWorld p = true → s₀.inWorld p = true ∧ s.mapId p = s₀.mapId p

theorem walk_start (e : Engine) (s : Lobby) : Walk s (visited e s) s :=
  ⟨nodup_visited e s, fun _ _ => rfl, fun _ hp => ⟨hp, rfl⟩⟩

theorem Walk.next {s₀ s' : Lobby} (h : Walk s₀ (k :: ks) s) (ht : Turn e k s s') :
    Walk s₀ ks s' := by
  obtain ⟨hk, hnd⟩ := List.nodup_cons.mp h.nodup
  refine ⟨hnd, fun j hj => ?_, fun p hp => ?_⟩
  · have hjk : j ≠ k := fun hjk => hk (hjk ▸ hj)
    rw [ht.frame.others j hjk]
    exact h.ahead j (List.mem_cons_of_mem k hj)
  · obtain ⟨hp', hm⟩ := ht.frame.world p hp
    obtain ⟨hp₀, hm₀⟩ := h.world p hp'
    exact ⟨hp₀, hm.trans hm₀⟩

/-- A record of the walk, against the record the walk began with. -/
def Grown (s₀ : Lobby) (g₀ g : Game) : Prop :=
  g.id = g₀.id ∧ (g.active = true → g₀.active = true ∨ mayStart s₀ g₀ = true)

/-- **One turn**: a game that has started could be seen to start when the walk began. -/
theorem grown_turn {s₀ s' : Lobby} (hw : Walk s₀ (k :: ks) s) (ht : Turn e k s s')
    (h : ∀ j g, s.games.get j = some g → ∃ g₀, s₀.games.get j = some g₀ ∧ Grown s₀ g₀ g) :
    ∀ j g, s'.games.get j = some g → ∃ g₀, s₀.games.get j = some g₀ ∧ Grown s₀ g₀ g := by
  intro j g hj
  by_cases hjk : j = k
  · subst hjk
    cases ht with
    | absent hnone =>
      rw [hnone] at hj
      exact absurd hj (by simp)
    | @active game _ n d hget hact _ hget' =>
      rw [hget', Option.some.injEq] at hj
      subst hj
      obtain ⟨g₀, hg₀, hid, hgrown⟩ := h j game hget
      exact ⟨g₀, hg₀, hid, fun _ => hgrown hact⟩
    | @dissolved game hget _ _ =>
      have hj0 : j ≠ 0 := Table.ne_zero_of_get hget
      rw [show _ = _ from Table.get_set s.games hj0 none j, if_pos rfl] at hj
      exact absurd hj (by simp)
    | @waiting game _ t hget hact _ _ _ _ hget' =>
      rw [hget', Option.some.injEq] at hj
      subst hj
      obtain ⟨g₀, hg₀, hid, -⟩ := h j game hget
      exact ⟨g₀, hg₀, hid, fun hg => absurd (hact.symm.trans hg) (by decide)⟩
    | @started game _ t d hget hact hhost _ hp hn hget' =>
      rw [hget', Option.some.injEq] at hj
      subst hj
      have hstart := mayStart_mono (fun p hp => (hw.world p hp).1)
        (mayStart_of_enough hact hhost hp hn)
      have hg₀ : s₀.games.get j = some game := (hw.ahead j List.mem_cons_self).symm.trans hget
      exact ⟨game, hg₀, rfl, fun _ => Or.inr hstart⟩
  · exact h j g ((ht.frame.others j hjk).symm.trans hj)

/-- **The tick starts only games that could be seen to start**, and keeps every id. -/
theorem updateAllGames_grown (e : Engine) (s : Lobby) :
    (updateAllGames e s).state.gameId = s.gameId ∧
      ∀ j g, (updateAllGames e s).state.games.get j = some g →
        ∃ g₀, s.games.get j = some g₀ ∧ Grown s g₀ g :=
  updateAllGames_rule (e := e)
    (I := fun s' => s'.gameId = s.gameId ∧
      ∀ j g, s'.games.get j = some g → ∃ g₀, s.games.get j = some g₀ ∧ Grown s g₀ g)
    (J := fun ks s' => Walk s ks s' ∧ s'.gameId = s.gameId ∧
      ∀ j g, s'.games.get j = some g → ∃ g₀, s.games.get j = some g₀ ∧ Grown s g₀ g)
    (fun _ _ _ _ ⟨hw, hid, hg⟩ ht => ⟨hw.next ht, ht.frame.gameId.trans hid, grown_turn hw ht hg⟩)
    (fun _ _ h => h.2) ⟨walk_start e s, rfl, fun _ g hj => ⟨g, hj, rfl, Or.inl⟩⟩

/-! ## 3. Who may be taken out of the world -/

/-- The turn of the game may take the player out of the world: the game waits and lists him,
and it may start, or the player is not where the purge wants him. -/
def mayTake (e : Engine) (s : Lobby) (g : Game) (p : Guid) : Bool :=
  !g.active && g.players.values.contains p && (mayStart s g || !stays e s p)

theorem stays_of_walk {s₀ : Lobby} {p : Guid} (hw : Walk s₀ ks s) :
    stays e s p = true ↔ stays e s₀ p = true ∧ s.inWorld p = true := by
  unfold stays
  constructor
  · intro h
    obtain ⟨hin, hor⟩ := Bool.and_eq_true_iff.mp h
    obtain ⟨hin₀, hm⟩ := hw.world p hin
    rw [hin₀, ← hm]
    exact ⟨by simpa using hor, hin⟩
  · rintro ⟨h, hin⟩
    obtain ⟨-, hor⟩ := Bool.and_eq_true_iff.mp h
    rw [hin, (hw.world p hin).2]
    simpa using hor

/-- **Who cannot be taken stays in the world** through the turn. -/
theorem Walk.inWorld {s₀ s' : Lobby} {p : Guid} (hw : Walk s₀ (k :: ks) s) (ht : Turn e k s s')
    (hp : ∀ g, s₀.games.get k = some g → mayTake e s₀ g p = false) (hin : s.inWorld p = true) :
    s'.inWorld p = true := by
  have hfree : ∀ {game : Game}, s.games.get k = some game → game.active = false →
      (∃ i, game.players.get i = some p) → mayStart s₀ game = false ∧ stays e s p = true := by
    intro game hget hact hi
    have hnot := hp game ((hw.ahead k List.mem_cons_self).symm.trans hget)
    have hlisted : game.players.values.contains p = true :=
      List.contains_iff_mem.mpr (Table.mem_values.mpr hi)
    rw [mayTake, hact, hlisted] at hnot
    simp only [Bool.not_false, Bool.true_and, Bool.or_eq_false_iff, Bool.not_eq_false'] at hnot
    exact ⟨hnot.1, (stays_of_walk hw).mpr ⟨hnot.2, hin⟩⟩
  cases ht with
  | absent _ => exact hin
  | active _ _ _ _ ht _ => exact (ht.inWorld_eq fun hf => hf).trans hin
  | dissolved _ _ _ => exact hin
  | @waiting game _ t hget hact _ hpurging _ _ _ =>
    by_cases hi : ∃ i, game.players.get i = some p
    · exact hpurging.stayed p (hfree hget hact hi).2
    · exact (hpurging.touches.inWorld_eq hi).trans hin
  | @started game _ t d hget hact hhost ht hpurged hn _ =>
    refine (ht.inWorld_eq fun hi => ?_).trans hin
    have hstart := mayStart_mono (fun p hp => (hw.world p hp).1)
      (mayStart_of_enough hact hhost hpurged hn)
    rw [(hfree hget hact hi).1] at hstart
    exact absurd hstart (by decide)

end HungerGames.Arena
