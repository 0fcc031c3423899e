/-
# The tick completes

One error ends the tick for every game behind it, and there are three ways into one.  The
table of spawn locations has ten entries, and both loops that index it count the members of
the game who are in the world, however many there are.  A game's id has to fit the 32 bits of
a phase mask.  And the engine may fail to spawn a chest, or have lost one by the time it is to
be removed.

`TickOk` says that none of this happens on the tick; it is a condition on the state before it
and on the engine.  Then the tick visits every registered game once and ends without an
error, in every run (`tickDone_of_tickOk`), because the records the tick leaves are well formed
for the next one (`WellFormed`).  That a game which starts really brings its players to the
arena takes more: the purge sends members who are on another map to the lobby in the same
second, and they are not in the world when the game starts without them (`AllAboard`).
-/
import HungerGames.Arena.Walk

namespace HungerGames.Arena

open HungerGames.Lua
open HungerGames.Lua.Outcome
open HungerGames.System

/-! ## 1. Well-formed records -/

/-- A table the spawning loops can index with `1 .. 10`. -/
def TenLocations (t : Table Location) : Prop :=
  ∀ i, 1 ≤ i → i ≤ 10 → ∃ loc ∈ locations, t.get i = some loc

/-- A started game has a state, its locations until the first tick and its objects after. -/
def WellFormed (g : Game) : Prop :=
  g.active = true → ∃ n, g.state = some n ∧ 1 ≤ n ∧
    (n = 1 → g.id ≤ maxUInt32 ∧ ∃ t, g.data = some (.locations t) ∧ TenLocations t) ∧
    (n ≠ 1 → ∃ t, g.data = some (.objects t))

/-- The objects of a game. -/
def objectsOf (e : Engine) : Option GameData → List Obj
  | some (.objects t) => (t.pairs e.layout .built).map Prod.snd
  | _ => []

/-! ## 2. A started game -/

/-- What a started game's turn needs of the engine and of the number of its members. -/
def ActiveOk (e : Engine) (s : Lobby) (k : ℕ) (g : Game) : Prop :=
  (g.state = some 1 → (members e k g).countP s.inWorld ≤ 10 ∧
    ∀ n ∈ List.range' 1 ((members e k g).countP s.inWorld), (e.spawn k n).isSome) ∧
  (g.state = some 30 → ∀ obj ∈ objectsOf e g.data, e.stillExists obj = true)

instance (e : Engine) (s : Lobby) (k : ℕ) (g : Game) : Decidable (ActiveOk e s k g) :=
  inferInstanceAs (Decidable (_ ∧ _))

variable {e : Engine} {k : ℕ}

/-- What the spawning loop does for a member in the world when nothing is in its way. -/
theorem spawnFor_ok {id : ℕ} {data : Option GameData} {p : Guid} {loc : Location} {obj : Obj}
    {st : Loop (ℕ × List Obj)} (hin : st.lobby.inWorld p = true)
    (hloc : locationAt data st.vars.1 = some loc) (hid : id ≤ maxUInt32)
    (hobj : e.spawn k st.vars.1 = some obj) :
    spawnFor e k id data p st = send [.spawn 184719 800 loc.x loc.y loc.z id, .setScale obj 0.05,
      .setUInt32Value obj (0x0006 + 0x0003) 0x1]
        ⟨st.lobby, st.vars.1 + 1, st.vars.2 ++ [obj]⟩ := by
  unfold spawnFor
  rw [if_pos hin, hloc]
  simp only [if_pos hid]
  rw [bind_of_ok rfl]
  simp only [send_state, hobj]
  rfl

variable {s : Lobby}

/-- **The spawning loop completes** while the counter stays within the list. -/
theorem spawnLoop_completes {id : ℕ} {t : Table Location} (hid : id ≤ maxUInt32)
    (ht : TenLocations t) :
    ∀ (ms : List Guid) (st : Loop (ℕ × List Obj)), st.lobby = s → 1 ≤ st.vars.1 →
      st.vars.1 + ms.countP s.inWorld ≤ 11 →
      (∀ n, st.vars.1 ≤ n → n < st.vars.1 + ms.countP s.inWorld → (e.spawn k n).isSome) →
      (forEach (spawnFor e k id (some (.locations t))) ms st).error = none
  | [], _, _, _, _, _ => rfl
  | p :: ms, st, hst, hpos, hle, hspawn => by
    rw [forEach_cons]
    by_cases hin : s.inWorld p = true
    · rw [List.countP_cons_of_pos hin] at hle hspawn
      obtain ⟨loc, -, hloc⟩ := ht st.vars.1 hpos (by omega)
      obtain ⟨obj, hobj⟩ := Option.isSome_iff_exists.mp (hspawn st.vars.1 le_rfl (by omega))
      have hat : locationAt (some (.locations t)) st.vars.1 = some loc := hloc
      rw [spawnFor_ok (hst ▸ hin) hat hid hobj, bind_of_ok rfl]
      refine spawnLoop_completes hid ht ms ⟨st.lobby, st.vars.1 + 1, st.vars.2 ++ [obj]⟩ hst
        (Nat.le_add_left 1 _) ?_ fun n h1 h2 => ?_
      · show st.vars.1 + 1 + _ ≤ 11
        omega
      · exact hspawn n (Nat.le_of_succ_le h1) (by simp only at h2; omega)
    · rw [List.countP_cons_of_neg hin] at hle hspawn
      have hskip : spawnFor e k id (some (.locations t)) p st = ok st := if_neg (hst ▸ hin)
      rw [hskip, ok_bind]
      exact spawnLoop_completes hid ht ms st hst hpos hle hspawn

theorem despawnLoop_completes {objs : List Obj} (h : ∀ obj ∈ objs, e.stillExists obj = true) :
    (forEach (despawn e) objs s).error = none := by
  refine (forEach_completes (J := fun rest (_ : Lobby) => ∀ obj ∈ rest, e.stillExists obj = true)
    (fun obj rest s' hrest => ?_) h).1
  unfold despawn
  rw [if_pos (hrest obj List.mem_cons_self)]
  exact ⟨rfl, fun obj' hobj' => hrest obj' (List.mem_cons_of_mem obj hobj')⟩

/-- **A started game's turn completes** and leaves its record well formed. -/
theorem handleActiveGame_completes {game : Game} (hget : s.games.get k = some game)
    (hact : game.active = true) (hwf : WellFormed game) (hok : ActiveOk e s k game) :
    (handleActiveGame e k game s).error = none ∧
      ∀ g', (handleActiveGame e k game s).state.games.get k = some g' → WellFormed g' := by
  obtain ⟨n, hstate, hn, hfirst, hlater⟩ := hwf hact
  have hset : ∀ (m : ℕ) (t : Table Obj) (g' : Game), m ≠ 1 → 1 ≤ m →
      some { game with state := some m, data := some (.objects t) } = some g' → WellFormed g' := by
    rintro m t g' hm1 hm hg' -
    rw [← Option.some.inj hg']
    exact ⟨m, rfl, hm, fun h => absurd h hm1, fun _ => ⟨t, rfl⟩⟩
  unfold handleActiveGame
  rw [hstate]
  simp only
  by_cases h1 : n = 1
  · obtain ⟨hid, t, hdata, ht⟩ := hfirst h1
    have hone : game.state = some 1 := h1 ▸ hstate
    have he := spawnLoop_completes (e := e) (k := k) (s := s) hid ht (members e k game) ⟨s, 1, []⟩
      rfl le_rfl (by have := (hok.1 hone).1; simp only; omega) fun m hm1 hm2 =>
        (hok.1 hone).2 m (List.mem_range'_1.mpr ⟨hm1, hm2⟩)
    have hlobby := spawnLoop_lobby e k game.id game.data (members e k game) ⟨s, 1, []⟩
    rw [if_pos h1]
    rw [hdata] at hlobby ⊢
    generalize forEach (spawnFor e k game.id _) _ _ = o at he hlobby ⊢
    rw [bind_of_ok he]
    refine ⟨rfl, fun g' hg' => ?_⟩
    simp only [mapState_state, ok_state, hlobby, get_modifyGame_of hget] at hg'
    exact hset 2 _ g' (by decide) (by decide) hg'
  · obtain ⟨objs, hobjs⟩ := hlater h1
    rw [if_neg h1]
    by_cases h30 : n < 30
    · rw [if_pos h30]
      refine ⟨rfl, fun g' hg' => ?_⟩
      rw [ok_state, get_modifyGame_of hget] at hg'
      exact hset (n + 1) objs g' (by omega) (by omega) (hobjs ▸ hg')
    · rw [if_neg h30]
      by_cases heq : n = 30
      · have hexist : ∀ obj ∈ (objs.pairs e.layout .built).map Prod.snd, e.stillExists obj = true :=
          fun obj hobj => hok.2 (heq ▸ hstate) obj (by rw [hobjs]; exact hobj)
        have he := despawnLoop_completes (s := s) hexist
        have hs := despawnLoop_state e ((objs.pairs e.layout .built).map Prod.snd) s
        rw [if_pos heq, hobjs]
        simp only
        generalize forEach (despawn e) _ s = o at he hs ⊢
        obtain ⟨he', hs'⟩ := soundLoop_spec (members e k game) s
        rw [bind_of_ok he, hs, bind_of_ok he', hs']
        refine ⟨rfl, fun g' hg' => ?_⟩
        simp only [ok_state, get_modifyGame_of hget] at hg'
        exact hset 31 objs g' (by decide) (by decide) (hobjs ▸ hg')
      · rw [if_neg heq]
        refine ⟨rfl, fun g' hg' => ?_⟩
        rw [ok_state, hget, Option.some.injEq] at hg'
        exact hg' ▸ hwf

/-! ## 3. The condition on a tick -/

/-- Nothing is in the way of the game's turn: if it may start, at most ten of its members will
be there and its id fits a phase mask; if it has started, it finds what it needs. -/
def GameOk (e : Engine) (s : Lobby) (k : ℕ) (g : Game) : Prop :=
  (mayStart s g = true → g.id ≤ maxUInt32 ∧ (members e k g).countP (stays e s) ≤ 10) ∧
  (g.active = true → ActiveOk e s k g)

instance (e : Engine) (s : Lobby) (k : ℕ) (g : Game) : Decidable (GameOk e s k g) :=
  inferInstanceAs (Decidable (_ ∧ _))

/-- Nothing is in the way of the tick. -/
def TickOk (e : Engine) (s : Lobby) : Prop :=
  ∀ k ∈ s.games.keys, ∀ g ∈ s.games.get k, GameOk e s k g

instance (e : Engine) (s : Lobby) : Decidable (TickOk e s) :=
  inferInstanceAs (Decidable (∀ k ∈ s.games.keys, ∀ g ∈ s.games.get k, _))

theorem TickOk.game {g : Game} (h : TickOk e s) (hk : s.games.get k = some g) : GameOk e s k g :=
  h k (Table.mem_keys.mpr (by simp [hk])) g hk

variable {s₀ : Lobby}

/-- Fewer members are in the world when the walk comes to the game. -/
theorem activeOk_of_tickOk {ks : List ℕ} {g : Game} (h : TickOk e s₀) (hw : Walk s₀ (k :: ks) s)
    (hk : s₀.games.get k = some g) (hact : g.active = true) : ActiveOk e s k g := by
  obtain ⟨hone, hthirty⟩ := (h.game hk).2 hact
  have hle : (members e k g).countP s.inWorld ≤ (members e k g).countP s₀.inWorld :=
    List.countP_mono_left fun p _ hp => (hw.world p hp).1
  refine ⟨fun h1 => ⟨hle.trans (hone h1).1, fun n hn => (hone h1).2 n ?_⟩, hthirty⟩
  rw [List.mem_range'_1] at hn ⊢
  omega

/-- After the purge, only members who stay are left in the world. -/
theorem countP_members_purged {s₁ : Lobby} {ks : List ℕ} {g : Game} {t : Table Guid}
    (hw : Walk s₀ ks s) (hp : Purging e k g s [] s₁) (ht : Purged e s [] g.players t) :
    (members e k { g with players := t }).countP s₁.inWorld
      ≤ (members e k g).countP (stays e s₀) := by
  refine Table.countP_pairs_le ht.sub fun i p hi hin => ?_
  exact ((stays_of_walk hw).mp (hp.moved i p (ht.sub i p hi) (by simp) hin)).1

/-- **A game's turn completes**, and leaves its record well formed. -/
theorem updateGame_completes {ks : List ℕ} (h : TickOk e s₀) (hw : Walk s₀ (k :: ks) s)
    (hwf : ∀ g, s.games.get k = some g → WellFormed g) :
    (updateGame e k s).error = none ∧
      ∀ g', (updateGame e k s).state.games.get k = some g' → WellFormed g' := by
  have hinactive : ∀ g' : Game, g'.active = false → WellFormed g' := fun g' hg' hact =>
    absurd (hg'.symm.trans hact) (by decide)
  cases hget : s.games.get k with
  | none =>
    unfold updateGame
    rw [hget]
    exact ⟨rfl, fun g' hg' => absurd (hget.symm.trans hg') (by simp)⟩
  | some game =>
    have hget₀ : s₀.games.get k = some game := (hw.ahead k List.mem_cons_self).symm.trans hget
    rw [updateGame_eq e hget, bind_of_ok rfl]
    simp only [send_state]
    cases hact : game.active with
    | true =>
      simp only [if_true]
      exact handleActiveGame_completes hget hact (hwf game hget) (activeOk_of_tickOk h hw hget₀ hact)
    | false =>
      simp only [Bool.false_eq_true, if_false]
      by_cases hhost : s.inWorld game.host = true
      · obtain ⟨s₁, t, ws, hpurging, hs₁, hpurged, ⟨-, heq⟩ | ⟨hn, heq⟩⟩ :=
          handleInactiveGame_purges e hget hhost
        · rw [heq]
          refine ⟨rfl, fun g' hg' => hinactive g' ?_⟩
          rw [send_state, hs₁, Option.some.injEq] at hg'
          exact hg' ▸ hact
        · have hstart := mayStart_mono (fun p hp => (hw.world p hp).1)
            (mayStart_of_enough hact hhost hpurged hn)
          obtain ⟨hid, hten⟩ := (h.game hget₀).1 hstart
          obtain ⟨he, hs', -⟩ := handleStartGame_completes e hs₁ hid
            ((countP_members_purged hw hpurging hpurged).trans hten)
          rw [heq, bind_of_ok rfl]
          refine ⟨he, fun g' hg' _ => ?_⟩
          have hg := hs'.symm.trans hg'
          rw [Option.some.injEq] at hg
          rw [← hg]
          exact ⟨1, rfl, le_rfl, fun _ => ⟨hid, _, rfl, get_shuffled (e.random k)⟩,
            fun h1 => absurd rfl h1⟩
      · obtain ⟨he, hs'⟩ := handleInactiveGame_dissolves e k game s hhost
        refine ⟨he, fun g' hg' => ?_⟩
        have hk0 : k ≠ 0 := Table.ne_zero_of_get hget
        rw [hs', show _ = _ from Table.get_set s.games hk0 none k, if_pos rfl] at hg'
        exact absurd hg' (by simp)

/-! ## 4. The tick -/

/-- The invariant of a walk that completes. -/
structure Sound (s₀ : Lobby) (ks : List ℕ) (s : Lobby) : Prop where
  walk : Walk s₀ ks s
  wellFormed : ∀ k g, s.games.get k = some g → WellFormed g
  registered : ∀ k ∈ ks, (s₀.games.get k).isSome

theorem sound_start (e : Engine) (h : ∀ k g, s.games.get k = some g → WellFormed g) :
    Sound s (visited e s) s :=
  ⟨walk_start e s, h, fun _ hk => mem_visited.mp hk⟩

/-- **One turn of a walk that completes.** -/
theorem Sound.next {ks : List ℕ} (hok : TickOk e s₀) (h : Sound s₀ (k :: ks) s) :
    (updateGame e k s).error = none ∧ Sound s₀ ks (updateGame e k s).state := by
  have hturn := updateGame_turn e k s
  obtain ⟨he, hwf⟩ := updateGame_completes hok h.walk fun g hg => h.wellFormed k g hg
  refine ⟨he, h.walk.next hturn, fun j g hj => ?_,
    fun j hj => h.registered j (List.mem_cons_of_mem k hj)⟩
  by_cases hjk : j = k
  · exact hwf g (hjk ▸ hj)
  · exact h.wellFormed j g ((hturn.frame.others j hjk).symm.trans hj)

/-- The game a visit is to. -/
def visitKey : Effect → Option ℕ
  | .visit k => some k
  | _ => none

/-- A call that visits no game. -/
def Still (σ : Type) (o : Outcome σ Effect LuaError) : Prop :=
  Leaves (fun _ => True) (fun w => visitKey w = none) o

theorem still_addonFrames (plr : Guid) (msg : Bytes) (packet : ℕ) :
    ∀ w ∈ addonFrames plr msg packet, visitKey w = none := by
  intro w hw
  obtain ⟨frame, -, rfl⟩ := List.mem_map.mp hw
  rfl

theorem still_handleStartGame (e : Engine) (k : ℕ) (game : Game) (s : Lobby) :
    Still _ (handleStartGame e k game s) := by
  unfold handleStartGame
  refine Leaves.bind (J := fun _ => True)
    (Leaves.mapState (Leaves.forEach (fun p _ st _ => ⟨trivial, fun w hw => ?_⟩) trivial)) id
    fun _ _ => Leaves.ok trivial
  rw [startPlayer_eq] at hw
  split at hw
  · split at hw
    · split at hw
      · simp only [List.mem_cons, List.not_mem_nil, or_false] at hw
        rcases hw with rfl | rfl <;> rfl
      · simp only [List.mem_append, List.mem_cons, List.not_mem_nil, or_false] at hw
        rcases hw with (rfl | rfl | rfl) | hw | rfl
        · rfl
        · rfl
        · rfl
        · exact still_addonFrames p _ _ w hw
        · rfl
    · rw [List.mem_singleton] at hw
      exact hw ▸ rfl
  · exact absurd hw (by simp)

theorem still_handleInactiveGame (e : Engine) (k : ℕ) (game : Game) (s : Lobby) :
    Still _ (handleInactiveGame e k game s) := by
  unfold handleInactiveGame
  split
  · refine Leaves.bind (J := fun _ => True) (Leaves.forEach (fun ip _ s _ => ?_) trivial) id
      fun _ _ => ?_
    · unfold purgePlayer
      split
      · split
        · exact ⟨trivial, fun w hw => by rw [List.mem_singleton.mp hw]; rfl⟩
        · exact Leaves.ok trivial
      · exact Leaves.ok trivial
    · split
      · exact Leaves.ok trivial
      · split
        · exact still_handleStartGame _ _ _ _
        · exact Leaves.ok trivial
  · refine Leaves.bind (J := fun _ => True) (Leaves.forEach (fun p _ s _ => ?_) trivial) id
      fun _ _ => Leaves.ok trivial
    unfold removeFromQueue
    split
    · refine Leaves.send trivial fun w hw => ?_
      rcases List.mem_append.mp hw with hw | hw
      · exact still_addonFrames p _ _ w hw
      · rw [List.mem_singleton.mp hw]
        rfl
    · exact Leaves.ok trivial

theorem still_handleActiveGame (e : Engine) (k : ℕ) (game : Game) (s : Lobby) :
    Still _ (handleActiveGame e k game s) := by
  unfold handleActiveGame
  cases game.state with
  | none => exact Leaves.raise trivial
  | some n =>
    simp only
    split
    · refine Leaves.mapState (Leaves.bind (J := fun _ => True)
        (Leaves.forEach (fun p _ st _ => ?_) trivial) id fun _ _ => Leaves.ok trivial)
      unfold spawnFor
      split
      · split
        · exact Leaves.raise trivial
        · split
          · refine Leaves.bind (J := fun _ => True) (Leaves.send trivial fun w hw => ?_) id
              fun _ _ => ?_
            · rw [List.mem_singleton.mp hw]
              rfl
            · split
              · exact Leaves.raise trivial
              · refine Leaves.send trivial fun w hw => ?_
                simp only [List.mem_cons, List.not_mem_nil, or_false] at hw
                rcases hw with rfl | rfl <;> rfl
          · exact Leaves.raise trivial
      · exact Leaves.ok trivial
    · split
      · exact Leaves.ok trivial
      · split
        · split
          · refine Leaves.bind (J := fun _ => True) (Leaves.forEach (fun obj _ s _ => ?_) trivial)
              id fun _ _ => Leaves.bind (J := fun _ => True)
                (Leaves.forEach (fun p _ s _ => ?_) trivial) id fun _ _ => Leaves.ok trivial
            · unfold despawn
              split
              · exact Leaves.send trivial fun w hw => by rw [List.mem_singleton.mp hw]; rfl
              · exact Leaves.raise trivial
            · unfold playStartSound
              split
              · exact Leaves.send trivial fun w hw => by rw [List.mem_singleton.mp hw]; rfl
              · exact Leaves.ok trivial
          · exact Leaves.raise trivial
        · exact Leaves.ok trivial

/-- A turn visits its own game, once. -/
theorem visits_updateGame (h : (s.games.get k).isSome) :
    (updateGame e k s).sent.filterMap visitKey = [k] := by
  obtain ⟨game, hget⟩ := Option.isSome_iff_exists.mp h
  rw [updateGame_eq e hget, bind_of_ok rfl]
  have hstill : Still _ (if game.active then handleActiveGame e k game (send [.visit k] s :
      Call).state else handleInactiveGame e k game (send [.visit k] s : Call).state) := by
    split
    · exact still_handleActiveGame _ _ _ _
    · exact still_handleInactiveGame _ _ _ _
  simp only [List.filterMap_append, List.filterMap_eq_nil_iff.mpr hstill.2, List.append_nil]
  rfl

/-- **The tick visits every registered game once and ends without an error.** -/
theorem updateAllGames_completes (hok : TickOk e s)
    (hwf : ∀ k g, s.games.get k = some g → WellFormed g) :
    (updateAllGames e s).error = none ∧
      (∀ k g, (updateAllGames e s).state.games.get k = some g → WellFormed g) ∧
      (updateAllGames e s).sent.filterMap visitKey = visited e s := by
  have hstep : ∀ k ks s', Sound s (k :: ks) s' → (updateGame e k s').error = none ∧
      Sound s ks (updateGame e k s').state := fun k ks s' h => h.next hok
  obtain ⟨he, hs⟩ := forEach_completes hstep (sound_start e hwf)
  refine ⟨he, hs.wellFormed, ?_⟩
  have hvisits := forEach_sent (p := visitKey) (g := fun k => [k]) (fun k ks s' h => by
    obtain ⟨he', hs'⟩ := hstep k ks s' h
    have hsome : (s'.games.get k).isSome := by
      rw [h.walk.ahead k List.mem_cons_self]
      exact h.registered k List.mem_cons_self
    exact ⟨he', hs', visits_updateGame hsome⟩) (sound_start e hwf)
  exact hvisits.trans (by simp)

/-- **The tick reaches every game**, and with it in the world every player whom no other game's
turn may take out of it. -/
theorem updateAllGames_reaches {P : Guid → Prop} (hok : TickOk e s₀)
    (hwf : ∀ k g, s₀.games.get k = some g → WellFormed g) (hk : (s₀.games.get k).isSome)
    (hin : ∀ p, P p → s₀.inWorld p = true)
    (htake : ∀ p, P p → ∀ j g, j ≠ k → s₀.games.get j = some g → mayTake e s₀ g p = false) :
    ∃ rest s, Walk s₀ (k :: rest) s ∧ (∀ p, P p → s.inWorld p = true) ∧
      (updateAllGames e s₀).state.games.get k = (updateGame e k s).state.games.get k ∧
      ∀ w ∈ (updateGame e k s).sent, w ∈ (updateAllGames e s₀).sent := by
  have hstep : ∀ j ks s, (Sound s₀ (j :: ks) s ∧ (k ∈ j :: ks → ∀ p, P p → s.inWorld p = true)) →
      (updateGame e j s).error = none ∧ Sound s₀ ks (updateGame e j s).state ∧
        (k ∈ ks → ∀ p, P p → (updateGame e j s).state.inWorld p = true) := by
    rintro j ks s ⟨hs, hp⟩
    obtain ⟨he, hs'⟩ := hs.next hok
    refine ⟨he, hs', fun hkks p hpp => ?_⟩
    have hjk : j ≠ k := fun hjk => (List.nodup_cons.mp hs.walk.nodup).1 (hjk ▸ hkks)
    exact hs.walk.inWorld (updateGame_turn e j s) (fun g hg => htake p hpp j g hjk hg)
      (hp (List.mem_cons_of_mem j hkks) p hpp)
  obtain ⟨rest, s, ⟨hs, hp⟩, hsent, hstate⟩ := forEach_reaches
    (J := fun ks s => Sound s₀ ks s ∧ (k ∈ ks → ∀ p, P p → s.inWorld p = true)) hstep
    ⟨sound_start e hwf, fun _ => hin⟩ (mem_visited.mpr hk)
  refine ⟨rest, s, hs.walk, hp List.mem_cons_self, ?_, hsent⟩
  have hrest := get_walk_of_notMem e (updateGame e k s).state (List.nodup_cons.mp hs.walk.nodup).1
  exact (congrArg (fun s' => s'.games.get k) hstate).trans hrest

/-! ## 5. Bringing the players to the arena -/

/-- Every member of a game that may start, who is in the world, will be there when it does: he
is in the lobby already, and no other game takes him. -/
def AllAboard (e : Engine) (s : Lobby) : Prop :=
  ∀ k ∈ s.games.keys, ∀ g ∈ s.games.get k, mayStart s g = true → ∀ p ∈ g.players.values,
    s.inWorld p = true → stays e s p = true ∧
      ∀ k' ∈ s.games.keys, k' ≠ k → ∀ g' ∈ s.games.get k', mayTake e s g' p = false

section Decide

attribute [local instance] instDecidableForall

instance (e : Engine) (s : Lobby) : Decidable (AllAboard e s) :=
  inferInstanceAs (Decidable (∀ k ∈ s.games.keys, ∀ g ∈ s.games.get k, _ → _))

end Decide

/-- A game that is active after its turn, and was not before, has started on that turn. -/
theorem started_of_active {g g' : Game} (hget : s.games.get k = some g) (hact : g.active = false)
    (hget' : (updateGame e k s).state.games.get k = some g') (hact' : g'.active = true) :
    ∃ s₁ t ws, Purging e k g s [] s₁ ∧ s₁.games.get k = some { g with players := t } ∧
      Purged e s [] g.players t ∧ enough e k t ∧ s.inWorld g.host = true ∧
      updateGame e k s = (send [.visit k] s).bind fun _ =>
        (send ws s₁).bind (handleStartGame e k { g with players := t }) := by
  have hidle : ¬ g.active = true := by rw [hact]; decide
  rw [updateGame_eq e hget, bind_of_ok rfl] at hget' ⊢
  simp only [send_state, if_neg hidle] at hget' ⊢
  by_cases hhost : s.inWorld g.host = true
  · obtain ⟨s₁, t, ws, hpurging, hs₁, hpurged, ⟨-, heq⟩ | ⟨hn, heq⟩⟩ :=
      handleInactiveGame_purges e hget hhost
    · rw [heq, send_state, hs₁, Option.some.injEq] at hget'
      rw [← hget'] at hact'
      exact absurd (hact.symm.trans hact') (by decide)
    · exact ⟨s₁, t, ws, hpurging, hs₁, hpurged, hn, hhost, by rw [heq, bind_of_ok rfl]; rfl⟩
  · have hk0 : k ≠ 0 := Table.ne_zero_of_get hget
    rw [(handleInactiveGame_dissolves e k g s hhost).2,
      show _ = _ from Table.get_set s.games hk0 none k, if_pos rfl] at hget'
    exact absurd hget' (by simp)

/-- **A game that starts brings everybody** to a location of the list. -/
theorem teleports_of_allAboard (hok : TickOk e s₀)
    (hwf : ∀ k g, s₀.games.get k = some g → WellFormed g) (hall : AllAboard e s₀) {i : ℕ}
    {g g' : Game} {p : Guid} (hk : s₀.games.get k = some g) (hact : g.active = false)
    (hk' : (updateAllGames e s₀).state.games.get k = some g') (hact' : g'.active = true)
    (hi : g.players.get i = some p) (hin : s₀.inWorld p = true) :
    ∃ loc ∈ locations, .teleport p 800 loc ∈ (updateAllGames e s₀).sent := by
  have hkeys : ∀ {j : ℕ} {v : Game}, s₀.games.get j = some v → j ∈ s₀.games.keys := fun hj =>
    Table.mem_keys.mpr (by simp [hj])
  have hstart : mayStart s₀ g = true := by
    obtain ⟨g₀, hg₀, -, hgrown⟩ := (updateAllGames_grown e s₀).2 k g' hk'
    obtain rfl : g = g₀ := Option.some.inj (hk.symm.trans hg₀)
    exact (hgrown hact').resolve_left (by rw [hact]; decide)
  obtain ⟨hstay, htake⟩ := hall k (hkeys hk) g hk hstart p (Table.mem_values.mpr ⟨i, hi⟩) hin
  obtain ⟨rest, s, hw, hp, hfinal, hsent⟩ := updateAllGames_reaches (P := fun q => q = p) hok hwf
    (by simp [hk]) (fun q hq => hq ▸ hin)
    fun q hq j v hj hv => hq ▸ htake j (hkeys hv) hj v hv
  have hget : s.games.get k = some g := (hw.ahead k List.mem_cons_self).trans hk
  obtain ⟨s₁, t, ws, hpurging, hs₁, hpurged, -, -, heq⟩ :=
    started_of_active hget hact (hfinal ▸ hk') hact'
  have hstay' : stays e s p = true := (stays_of_walk hw).mpr ⟨hstay, hp p rfl⟩
  obtain ⟨hid, hten⟩ := (hok.game hk).1 hstart
  obtain ⟨-, -, hteleport⟩ := handleStartGame_completes e hs₁ hid
    ((countP_members_purged hw hpurging hpurged).trans hten)
  have hmem : p ∈ members e k { g with players := t } :=
    mem_members.mpr ⟨i, hpurged.kept i p hi (hp p rfl) (Or.inl hstay')⟩
  obtain ⟨loc, hloc, hw'⟩ := hteleport p hmem (hpurging.stayed p hstay')
  refine ⟨loc, hloc, hsent _ ?_⟩
  rw [heq, bind_of_ok rfl, bind_of_ok rfl]
  exact List.mem_append_right _ (List.mem_append_right _ hw')

/-! ## 6. Runs -/

/-- The tick ends without an error, visits every registered game once, and brings every player
of a game it starts to a location of the list. -/
structure TickDone (e : Engine) (s : Lobby) : Prop where
  completes : (updateAllGames e s).error = none
  visits : ((updateAllGames e s).sent.filterMap visitKey).Perm s.games.keys
  starts : ∀ k g g' i p, s.games.get k = some g → g.active = false →
    (updateAllGames e s).state.games.get k = some g' → g'.active = true →
    g.players.get i = some p → s.inWorld p = true →
    ∃ loc ∈ locations, .teleport p 800 loc ∈ (updateAllGames e s).sent

/-- A tick finds nothing in its way and everybody where he should be. -/
def TickReady (s : Lobby) (i : Engine × Event) : Prop :=
  i.2 = .tick → TickOk i.1 s ∧ AllAboard i.1 s

instance (s : Lobby) (i : Engine × Event) : Decidable (TickReady s i) :=
  inferInstanceAs (Decidable (_ → _))

/-- **Every record stays well formed.** -/
theorem wellFormed_step {i : Engine × Event} (h : ∀ k g, s.games.get k = some g → WellFormed g)
    (hok : i.2 = .tick → TickOk i.1 s) : ∀ k g, (step s i).games.get k = some g → WellFormed g := by
  by_cases hi : i.2 = .tick
  · obtain ⟨e, ev⟩ := i
    obtain rfl : ev = .tick := hi
    exact (updateAllGames_completes (hok rfl) h).2.1
  · intro k g' hk
    rcases (keeps_step (s := s) hi).games k g' hk with ⟨g, t, hg, rfl⟩ | ⟨plr, msg, rfl⟩
    · exact h k g hg
    · exact fun hact => absurd hact (by simp [newGame])

/-- A run whose ticks find nothing in their way keeps every record well formed. -/
theorem wellFormed_exec (nameOf : Guid → Bytes) {is : List (Engine × Event)}
    (h : Along step (fun s i => i.2 = .tick → TickOk i.1 s) (Lobby.init nameOf) is) :
    ∀ k g, (exec step (Lobby.init nameOf) is).games.get k = some g → WellFormed g :=
  exec_invariant (I := fun s => ∀ k g, s.games.get k = some g → WellFormed g)
    (fun _ _ hs hok => wellFormed_step hs hok) (fun _ _ hk => absurd hk (by simp [Lobby.init])) h

/-- **The tick does its work after every run whose ticks are ready.** -/
theorem tickDone_of_tickReady (nameOf : Guid → Bytes) (is : List (Engine × Event)) (e : Engine)
    (h : Along step TickReady (Lobby.init nameOf) (is ++ [(e, .tick)])) :
    TickDone e (exec step (Lobby.init nameOf) is) := by
  obtain ⟨hok, hall⟩ := h.at rfl
  have hwf := wellFormed_exec nameOf (h.before.mono fun s i hr hi => (hr hi).1)
  obtain ⟨he, -, hvisits⟩ := updateAllGames_completes hok hwf
  refine ⟨he, ?_, fun k g g' i p hk hact hk' hact' hi hin =>
    teleports_of_allAboard hok hwf hall hk hact hk' hact' hi hin⟩
  rw [hvisits]
  exact e.layout.next_perm _ _

/-- Three players in a game, and the tick that starts it. -/
def startRun : List (Engine × Event) :=
  enter 1 ++ enter 2 ++ enter 3 ++ [say 1 .createGame (bytes "A"), say 2 .joinGame (bytes "A"),
    say 3 .joinGame (bytes "A"), second]

theorem tickDone_of_tickReady_startRun :
    TickDone Engine.plain (exec step (Lobby.init fun _ => []) startRun) :=
  tickDone_of_tickReady (fun _ => []) startRun Engine.plain (by decide +kernel)

/-- Eleven players in one game, and a twelfth who waits in his own. -/
def crowdedRun : List (Engine × Event) :=
  ((List.range' 1 12).map enter).flatten ++ [say 1 .createGame (bytes "A")] ++
    (List.range' 2 10).map (fun p => say p .joinGame (bytes "A")) ++
    [say 12 .createGame (bytes "B")]

/-- The eleventh player finds no location, and the second game is not visited. -/
theorem tick_fails :
    (updateAllGames Engine.plain (exec step (Lobby.init fun _ => []) crowdedRun)).error
        = some .indexNil ∧
      (exec step (Lobby.init fun _ => []) crowdedRun).games.keys = [1, 2] ∧
      (updateAllGames Engine.plain (exec step (Lobby.init fun _ => []) crowdedRun)).sent.filterMap
        visitKey = [1] ∧
      ¬ TickDone Engine.plain (exec step (Lobby.init fun _ => []) crowdedRun) := by
  have he : (updateAllGames Engine.plain (exec step (Lobby.init fun _ => []) crowdedRun)).error
      = some .indexNil := by decide +kernel
  refine ⟨he, by decide +kernel, by decide +kernel, fun h => ?_⟩
  rw [h.completes] at he
  exact absurd he (by decide)

end HungerGames.Arena
