/-
# Proposals are sound

A proposal comes from entries that were counted, merged and given roles.  The players of all the
entries are counted first, in 8 bits; then they are merged into one map, which leaves out players
who ignore others.  Only when both numbers are the same does the check go on, so nobody has been
left out and nobody is in two entries.  Then the roles of five players are a tank, a healer and
three damage dealers.

`CheckCompatibility` calls itself for the rest of the guids, and may hand a proposal to the manager
there.  What it finds for some guids depends on the entries of the queue only, and these are the
same after the call.
-/
import HungerGames.Lfg.Queue

namespace HungerGames.Lfg

open HungerGames.System

variable {m : Manager} {q q' : LFGQueue}

/-! ## 1. What a proposal should be -/

/-- Each entry has dungeons, as `JoinLfg` sees to, at most five players, and roles that make a
group. -/
def WellFilled (q : LFGQueue) : Prop :=
  ∀ guid data, q.queueDataStore guid = some data →
    data.dungeons ≠ [] ∧ data.roles.size ≤ maxGroupSize ∧
      (checkGroupRoles data.roles.values).isSome = true

structure SoundProposal (m : Manager) (q : LFGQueue) (p : LfgProposal) : Prop where
  queued : ∀ guid ∈ p.queues, (q.queueDataStore guid).isSome = true
  distinct : p.players.keys.Nodup
  size : p.players.keys.length = maxGroupSize
  members : ∀ player, player ∈ p.players.keys ↔
    ∃ guid ∈ p.queues, player ∈ (q.data guid).roles.keys
  tank : (p.players.values.map LfgProposalPlayer.role).count .tank = 1
  healer : (p.players.values.map LfgProposalPlayer.role).count .healer = 1
  damage : (p.players.values.map LfgProposalPlayer.role).count .damage = 3
  selected : ∀ player data, (player, data) ∈ p.players.entries →
    ∃ guid ∈ p.queues, ∃ role, (player, role) ∈ (q.data guid).roles.entries ∧ Allows role data.role
  oneLfgGroup : p.queues.countP (fun guid => m.isLfgGroup guid) ≤ 1
  noIgnores : p.queues.Pairwise fun guid guid' => ∀ player ∈ (q.data guid).roles.keys,
    ∀ player' ∈ (q.data guid').roles.keys, m.hasIgnore player' player = false
  dungeon : ∀ guid ∈ p.queues, p.dungeonId ∈ (q.data guid).dungeons

/-! ## 2. Players are counted -/

/-- The players of the entries, one entry after another. -/
def players (q : LFGQueue) (check : List ObjectGuid) : List (ObjectGuid × Role) :=
  check.flatMap fun guid => (q.data guid).roles.entries

theorem data_eq {guid : ObjectGuid} {data : LfgQueueData} (h : q.queueDataStore guid = some data) :
    q.data guid = data := by
  unfold LFGQueue.data
  rw [h]
  rfl

/-- Where the loop comes to no end before, all the guids have entries. -/
theorem queued_of_gather (check : List ObjectGuid) : ∀ {g g' : Gathered},
    q.gather m check g = .ok g' → g'.numLfgGroups < 2 → g'.numPlayers ≤ maxGroupSize →
    ∀ guid ∈ check, (q.queueDataStore guid).isSome = true := by
  induction check with
  | nil => exact fun _ _ _ _ h => absurd h List.not_mem_nil
  | cons guid check ih =>
    intro g g' h hgroups hplayers guid' hguid'
    unfold LFGQueue.gather at h
    split at h
    · split at h
      · nomatch h
      · rename_i data hdata
        rcases List.mem_cons.mp hguid' with rfl | hguid'
        · rw [hdata]
          rfl
        · exact ih h hgroups hplayers guid' hguid'
    · rename_i hstops
      obtain rfl := Except.ok.inj h
      exact absurd ⟨hgroups, hplayers⟩ hstops

/-- All of them are counted, and their players. -/
theorem gather_spec (hq : WellFilled q) (check : List ObjectGuid) : ∀ {g g' : Gathered},
    q.gather m check g = .ok g' → g'.numLfgGroups < 2 → g'.numPlayers ≤ maxGroupSize →
    g'.numLfgGroups = g.numLfgGroups + check.countP (fun guid => m.isLfgGroup guid) ∧
      g'.numPlayers = g.numPlayers + (players q check).length := by
  induction check with
  | nil =>
    intro g g' h _ _
    obtain rfl := Except.ok.inj h
    exact ⟨rfl, rfl⟩
  | cons guid check ih =>
    intro g g' h hgroups hplayers
    unfold LFGQueue.gather at h
    split at h
    · rename_i hgoes
      split at h
      · nomatch h
      · rename_i data hdata
        obtain ⟨hcount, hnum⟩ := ih h hgroups hplayers
        have hsize := (hq guid data hdata).2.1
        constructor
        · rw [hcount, List.countP_cons]
          unfold LFGQueue.gatherOne
          dsimp only
          split <;> omega
        · have hsum : g.numPlayers + data.roles.size < 2 ^ 8 := by
            unfold maxGroupSize at hgoes hsize
            omega
          rw [hnum]
          unfold players LFGQueue.gatherOne
          rw [List.flatMap_cons, List.length_append, data_eq hdata, ← Nat.add_assoc]
          exact congrArg (· + _) (Nat.mod_eq_of_lt hsum)
    · rename_i hstops
      obtain rfl := Except.ok.inj h
      exact absurd ⟨hgroups, hplayers⟩ hstops

/-! ## 3. Players are merged -/

/-- All the players are taken: each is new, and ignores none of those before him. -/
structure TakesAll (m : Manager) (roles roles' : LfgRolesMap) (added : List (ObjectGuid × Role)) :
    Prop where
  entries : ∀ x, x ∈ roles'.entries ↔ x ∈ roles.entries ∨ x ∈ added
  before : ∀ x ∈ roles.entries, ∀ y ∈ added, m.hasIgnore y.1 x.1 = false
  among : added.Pairwise fun x y => m.hasIgnore y.1 x.1 = false

theorem size_addPlayer_le (roles : LfgRolesMap) (x : ObjectGuid × Role) :
    (LFGQueue.addPlayer m roles x).size ≤ roles.size + 1 := by
  unfold LFGQueue.addPlayer
  split
  · rw [SortedMap.size_insert]
    split <;> omega
  · omega

theorem size_foldl_addPlayer_le (added : List (ObjectGuid × Role)) (roles : LfgRolesMap) :
    (added.foldl (LFGQueue.addPlayer m) roles).size ≤ roles.size + added.length := by
  induction added generalizing roles with
  | nil => exact le_rfl
  | cons x added ih =>
    rw [List.foldl_cons, List.length_cons]
    have hone := size_addPlayer_le (m := m) roles x
    have hrest := ih (LFGQueue.addPlayer m roles x)
    omega

/-- A player more means that he is new and was taken. -/
theorem addPlayer_spec (roles : LfgRolesMap) (x : ObjectGuid × Role)
    (h : (LFGQueue.addPlayer m roles x).size = roles.size + 1) :
    (∀ y, y ∈ (LFGQueue.addPlayer m roles x).entries ↔ y ∈ roles.entries ∨ y = x) ∧
      ∀ y ∈ roles.entries, m.hasIgnore x.1 y.1 = false := by
  unfold LFGQueue.addPlayer at *
  split at h
  · rename_i hall
    rw [if_pos hall]
    rw [SortedMap.size_insert] at h
    split at h
    · omega
    · rename_i hnew
      constructor
      · rintro ⟨player, role⟩
        rw [SortedMap.mem_insert]
        constructor
        · rintro (⟨rfl, rfl⟩ | ⟨-, hmem⟩)
          · exact Or.inr rfl
          · exact Or.inl hmem
        · rintro (hmem | rfl)
          · have hkey := SortedMap.mem_keys.mpr ⟨role, hmem⟩
            exact Or.inr ⟨fun heq => hnew (heq ▸ hkey), hmem⟩
          · exact Or.inl ⟨rfl, rfl⟩
      · rintro ⟨player, role⟩ hmem
        have hkey := SortedMap.mem_keys.mpr ⟨role, hmem⟩
        rcases hall player hkey with heq | hignore
        · exact absurd (heq ▸ hkey) hnew
        · exact Bool.eq_false_iff.mpr hignore
  · omega

theorem takesAll_of_size (added : List (ObjectGuid × Role)) : ∀ (roles : LfgRolesMap),
    (added.foldl (LFGQueue.addPlayer m) roles).size = roles.size + added.length →
    TakesAll m roles (added.foldl (LFGQueue.addPlayer m) roles) added := by
  induction added with
  | nil =>
    intro roles _
    exact ⟨fun x => (or_iff_left List.not_mem_nil).symm, fun _ _ _ h => absurd h List.not_mem_nil,
      List.Pairwise.nil⟩
  | cons x added ih =>
    intro roles h
    rw [List.foldl_cons, List.length_cons] at h
    have hone := size_addPlayer_le (m := m) roles x
    have hrest := size_foldl_addPlayer_le (m := m) added (LFGQueue.addPlayer m roles x)
    obtain ⟨hentries, hignores⟩ := addPlayer_spec (m := m) roles x (by omega)
    have htakes := ih (LFGQueue.addPlayer m roles x) (by omega)
    refine ⟨fun y => ?_, fun y hy z hz => ?_, List.pairwise_cons.mpr ⟨fun y hy => ?_, htakes.among⟩⟩
    · rw [List.foldl_cons, htakes.entries, hentries, List.mem_cons, or_assoc]
    · rcases List.mem_cons.mp hz with rfl | hz
      · exact hignores y hy
      · exact htakes.before y ((hentries y).mpr (Or.inl hy)) z hz
    · exact htakes.before x ((hentries x).mpr (Or.inr rfl)) y hy

/-! ## 4. Dungeons -/

variable {check : List ObjectGuid}

theorem mem_commonDungeons {dungeon : ℕ} (h : dungeon ∈ q.commonDungeons check) :
    ∀ guid ∈ check, dungeon ∈ (q.data guid).dungeons := by
  cases check with
  | nil => exact fun _ h => absurd h List.not_mem_nil
  | cons guid check =>
    have hfold : ∀ dungeons : List ℕ,
        dungeon ∈ check.foldl
          (fun dungeons guid => dungeons.filter (· ∈ (q.data guid).dungeons)) dungeons →
        dungeon ∈ dungeons ∧ ∀ guid ∈ check, dungeon ∈ (q.data guid).dungeons := by
      clear h
      induction check with
      | nil => exact fun dungeons h => ⟨h, fun _ h => absurd h List.not_mem_nil⟩
      | cons guid check ih =>
        intro dungeons h
        obtain ⟨hmem, hrest⟩ := ih _ h
        obtain ⟨hdungeon, hown⟩ := List.mem_filter.mp hmem
        refine ⟨hdungeon, fun guid' hguid' => ?_⟩
        rcases List.mem_cons.mp hguid' with rfl | hguid'
        · exact of_decide_eq_true hown
        · exact hrest guid' hguid'
    obtain ⟨hfirst, hrest⟩ := hfold _ h
    intro guid' hguid'
    rcases List.mem_cons.mp hguid' with rfl | hguid'
    · exact hfirst
    · exact hrest guid' hguid'

theorem select_mem (rand : ℕ) {container : List ℕ} (h : container ≠ []) :
    LFGQueue.selectRandomContainerElement rand container ∈ container := by
  have hlt := Nat.mod_lt rand (List.length_pos_iff.mpr h)
  unfold LFGQueue.selectRandomContainerElement
  rw [List.getD_eq_getElem?_getD, List.getElem?_eq_getElem hlt]
  exact List.getElem_mem hlt

/-! ## 5. The verdict -/

/-- A group of five, from entries that do not ignore each other and have these dungeons. -/
structure Combined (m : Manager) (q : LFGQueue) (check : List ObjectGuid) (roles : LfgRolesMap)
    (dungeons : List ℕ) : Prop where
  size : roles.size = maxGroupSize
  members : ∀ player, player ∈ roles.keys ↔ ∃ guid ∈ check, player ∈ (q.data guid).roles.keys
  selected : ∀ player role, (player, role) ∈ roles.entries →
    ∃ guid ∈ check, ∃ own, (player, own) ∈ (q.data guid).roles.entries ∧ Allows own role
  tank : roles.values.count .tank = 1
  healer : roles.values.count .healer = 1
  damage : roles.values.count .damage = 3
  noIgnores : check.Pairwise fun guid guid' => ∀ player ∈ (q.data guid).roles.keys,
    ∀ player' ∈ (q.data guid').roles.keys, m.hasIgnore player' player = false
  dungeons_ne : dungeons ≠ []
  dungeon : ∀ dungeon ∈ dungeons, ∀ guid ∈ check, dungeon ∈ (q.data guid).dungeons

theorem mem_keys_players {player : ObjectGuid} :
    (∃ role, (player, role) ∈ players q check) ↔
      ∃ guid ∈ check, player ∈ (q.data guid).roles.keys := by
  constructor
  · rintro ⟨role, hmem⟩
    obtain ⟨guid, hguid, hmem⟩ := List.mem_flatMap.mp hmem
    exact ⟨guid, hguid, SortedMap.mem_keys.mpr ⟨role, hmem⟩⟩
  · rintro ⟨guid, hguid, hkey⟩
    obtain ⟨role, hmem⟩ := SortedMap.mem_keys.mp hkey
    exact ⟨role, List.mem_flatMap.mpr ⟨guid, hguid, hmem⟩⟩

variable {roles : LfgRolesMap}

/-- Five players who are assigned roles. -/
theorem assigned_full (hsize : roles.size = maxGroupSize)
    (h : (checkGroupRoles roles.values).isSome = true) :
    ∃ assigned, (LFGQueue.assignRoles roles) = (roles.withValues assigned, true) ∧
      Assigned roles.values assigned ∧ assigned.length = roles.size := by
  obtain ⟨assigned, hassigned⟩ := Option.isSome_iff_exists.mp h
  have hlength : roles.values.length = roles.size := List.length_map _
  have hspec : Assigned roles.values assigned :=
    checkGroupRoles_spec (by rw [hlength, hsize]; decide) hassigned
  refine ⟨assigned, ?_, hspec, ?_⟩
  · unfold LFGQueue.assignRoles
    rw [hassigned]
  · rw [← hspec.allowed.length_eq, hlength]

/-- The roles of a map of five players, who are those of the entries. -/
theorem combined_of_assigned {assigned : List Role} {dungeons : List ℕ}
    (hsize : roles.size = maxGroupSize) (hassigned : Assigned roles.values assigned)
    (hlength : assigned.length = roles.size)
    (hentries : ∀ x, x ∈ roles.entries ↔ x ∈ players q check)
    (hignores : check.Pairwise fun guid guid' => ∀ player ∈ (q.data guid).roles.keys,
      ∀ player' ∈ (q.data guid').roles.keys, m.hasIgnore player' player = false)
    (hne : dungeons ≠ [])
    (hdungeon : ∀ dungeon ∈ dungeons, ∀ guid ∈ check, dungeon ∈ (q.data guid).dungeons) :
    Combined m q check (roles.withValues assigned) dungeons := by
  have hkeys := roles.keys_withValues hlength
  have hvalues := roles.values_withValues hlength
  have hfull := hassigned.full ((List.length_map _).trans hsize)
  refine ⟨?_, fun player => ?_, fun player role hmem => ?_, ?_, ?_, ?_, hignores, hne, hdungeon⟩
  · have hsame := congrArg List.length hkeys
    unfold SortedMap.keys at hsame
    rw [List.length_map, List.length_map] at hsame
    exact hsame.trans hsize
  · rw [hkeys, SortedMap.mem_keys, ← mem_keys_players]
    exact exists_congr fun role => hentries (player, role)
  · obtain ⟨own, hown, hallows⟩ := SortedMap.mem_withValues hassigned.allowed hmem
    obtain ⟨guid, hguid, hown⟩ := List.mem_flatMap.mp ((hentries _).mp hown)
    exact ⟨guid, hguid, own, hown, hallows⟩
  · rw [hvalues]
    exact hfull.1
  · rw [hvalues]
    exact hfull.2.1
  · rw [hvalues]
    exact hfull.2.2

theorem combine_spec (hq : WellFilled q) {dungeons : List ℕ}
    (hqueued : ∀ guid ∈ check, (q.queueDataStore guid).isSome = true) (hne : check ≠ [])
    (hlength : (players q check).length = maxGroupSize)
    (h : q.combine m check maxGroupSize = .ok (roles, dungeons)) :
    Combined m q check roles dungeons := by
  unfold LFGQueue.combine at h
  split at h
  · dsimp only at h
    split at h
    · nomatch h
    rename_i hcount
    split at h
    · nomatch h
    rename_i hassigned
    split at h
    · nomatch h
    rename_i hdungeons
    obtain ⟨rfl, rfl⟩ := Prod.mk.inj (Except.ok.inj h)
    have hle := size_foldl_addPlayer_le (m := m) (players q check) .empty
    have hempty : (SortedMap.empty : LfgRolesMap).size = 0 := rfl
    -- the two numbers are the same in 8 bits, and both are at most five
    have hsize : (q.mergeRoles m check).size = maxGroupSize := by
      change (q.mergeRoles m check).size ≤ _ at hle
      have hmod := not_not.mp hcount
      unfold maxGroupSize at *
      omega
    have htakes := takesAll_of_size (m := m) (players q check) .empty
      (by rw [hempty, hlength, Nat.zero_add]; exact hsize)
    have hsome : (checkGroupRoles (q.mergeRoles m check).values).isSome = true := by
      cases hfound : checkGroupRoles (q.mergeRoles m check).values with
      | some => rfl
      | none =>
        unfold LFGQueue.assignRoles at hassigned
        rw [hfound] at hassigned
        exact absurd Bool.false_ne_true hassigned
    obtain ⟨assigned, heq, hspec, hsame⟩ := assigned_full hsize hsome
    rw [heq]
    refine combined_of_assigned hsize hspec hsame (fun x => ?_) ?_ hdungeons fun _ =>
      mem_commonDungeons
    · exact (htakes.entries x).trans (or_iff_right List.not_mem_nil)
    · have hpairs := (List.pairwise_flatMap.mp htakes.among).2
      refine hpairs.imp fun {guid guid'} hall player hplayer player' hplayer' => ?_
      obtain ⟨role, hmem⟩ := SortedMap.mem_keys.mp hplayer
      obtain ⟨role', hmem'⟩ := SortedMap.mem_keys.mp hplayer'
      exact hall _ hmem _ hmem'
  · rename_i hone
    obtain ⟨guid, rfl⟩ : ∃ guid, check = [guid] := by
      cases check with
      | nil => exact absurd rfl hne
      | cons guid check =>
        cases check with
        | nil => exact ⟨guid, rfl⟩
        | cons => exact absurd (by simp) hone
    obtain ⟨rfl, rfl⟩ := Prod.mk.inj (Except.ok.inj h)
    obtain ⟨data, hdata⟩ := Option.isSome_iff_exists.mp (hqueued guid List.mem_cons_self)
    obtain ⟨hdungeons, -, hroles⟩ := hq guid data hdata
    rw [List.headD_cons, data_eq hdata]
    have hentries : ∀ x, x ∈ data.roles.entries ↔ x ∈ players q [guid] := by
      intro x
      unfold players
      rw [List.flatMap_singleton, data_eq hdata]
    have hsize : data.roles.size = maxGroupSize := by
      unfold players at hlength
      rw [List.flatMap_singleton, data_eq hdata] at hlength
      exact hlength
    obtain ⟨assigned, heq, hspec, hsame⟩ := assigned_full hsize hroles
    rw [heq]
    refine combined_of_assigned hsize hspec hsame hentries (List.pairwise_singleton _ _) hdungeons ?_
    intro dungeon hmem guid' hguid'
    obtain rfl := List.mem_singleton.mp hguid'
    rw [data_eq hdata]
    exact hmem

theorem sound_makeProposal {g : Gathered} {dungeons : List ℕ}
    (hqueued : ∀ guid ∈ check, (q.queueDataStore guid).isSome = true)
    (hgroups : check.countP (fun guid => m.isLfgGroup guid) ≤ 1)
    (h : Combined m q check roles dungeons) :
    SoundProposal m q (LFGQueue.makeProposal m check g roles dungeons) := by
  have hentries := SortedMap.entries_withValues_map roles fun x : ObjectGuid × Role =>
    ({ role := x.2
       accept :=
        if ¬ (decide (g.numLfgGroups ≠ 1 ∨ m.getOldState (check.headD 0) ≠ .dungeon) : Bool) ∧
          g.groups x.1 ≠ 0 ∧ g.groups x.1 = g.group then .agree else .pending
       group := g.groups x.1 } : LfgProposalPlayer)
  have hplayers : (LFGQueue.makeProposal m check g roles dungeons).players.entries = _ := hentries
  have hkeys : (LFGQueue.makeProposal m check g roles dungeons).players.keys = roles.keys := by
    unfold SortedMap.keys
    rw [hplayers, List.map_map]
    rfl
  have hvalues : (LFGQueue.makeProposal m check g roles dungeons).players.values.map
      LfgProposalPlayer.role = roles.values := by
    unfold SortedMap.values
    rw [hplayers, List.map_map, List.map_map]
    rfl
  refine ⟨hqueued, SortedMap.nodup_keys _, ?_, ?_, ?_, ?_, ?_, ?_, hgroups, h.noIgnores, ?_⟩
  · rw [hkeys]
    exact (List.length_map _).trans h.size
  · intro player
    rw [hkeys]
    exact h.members player
  · rw [hvalues]
    exact h.tank
  · rw [hvalues]
    exact h.healer
  · rw [hvalues]
    exact h.damage
  · intro player data hmem
    rw [hplayers] at hmem
    obtain ⟨⟨player', role⟩, hrole, heq⟩ := List.mem_map.mp hmem
    obtain ⟨rfl, rfl⟩ := Prod.mk.inj heq
    exact h.selected player' role hrole
  · exact h.dungeon _ (select_mem _ h.dungeons_ne)

/-- What there is when guids come to a proposal. -/
structure Formed (m : Manager) (q : LFGQueue) (check : List ObjectGuid) (p : LfgProposal) (g : Gathered)
    (roles : LfgRolesMap) (dungeons : List ℕ) : Prop where
  gathered : q.gather m check .init = .ok g
  numLfgGroups : g.numLfgGroups < 2
  numPlayers : g.numPlayers = maxGroupSize
  combined : q.combine m check maxGroupSize = .ok (roles, dungeons)
  proposal : p = LFGQueue.makeProposal m check g roles dungeons

variable {p : LfgProposal}

theorem formed_of_verdict (h : q.verdict m check = .formed p) :
    ∃ g roles dungeons, Formed m q check p g roles dungeons := by
  unfold LFGQueue.verdict at h
  split at h
  · nomatch h
  rename_i g hgather
  split at h
  · nomatch h
  split at h
  · nomatch h
  split at h
  · nomatch h
  split at h
  · nomatch h
  rename_i roles dungeons hcombine
  split at h
  · nomatch h
  rename_i hfive
  split at h
  · nomatch h
  have hfive := not_not.mp hfive
  exact ⟨g, roles, dungeons, hgather, by omega, hfive, hfive ▸ hcombine,
    (LFGQueue.Verdict.formed.inj h).symm⟩

/-- The entries of a proposal are the guids it was found for, which are queued. -/
theorem queues_of_verdict (h : q.verdict m check = .formed p) :
    p.queues = check ∧ ∀ guid ∈ check, (q.queueDataStore guid).isSome = true := by
  obtain ⟨g, roles, dungeons, hformed⟩ := formed_of_verdict h
  exact ⟨congrArg LfgProposal.queues hformed.proposal,
    queued_of_gather check hformed.gathered hformed.numLfgGroups hformed.numPlayers.le⟩

/-- A proposal that guids come to is sound. -/
theorem sound_of_verdict (hq : WellFilled q) (hne : check ≠ [])
    (h : q.verdict m check = .formed p) : SoundProposal m q p := by
  obtain ⟨g, roles, dungeons, hformed⟩ := formed_of_verdict h
  have hqueued := (queues_of_verdict h).2
  obtain ⟨hcount, hnum⟩ := gather_spec hq check hformed.gathered hformed.numLfgGroups
    hformed.numPlayers.le
  have hlength : (players q check).length = maxGroupSize := by
    rw [← hformed.numPlayers, hnum]
    exact (Nat.zero_add _).symm
  have hcombined := combine_spec hq hqueued hne hlength hformed.combined
  have hgroups : check.countP (fun guid => m.isLfgGroup guid) ≤ 1 := by
    have hinit : Gathered.init.numLfgGroups = 0 := rfl
    have hlt := hformed.numLfgGroups
    omega
  rw [hformed.proposal]
  exact sound_makeProposal hqueued hgroups hcombined

/-! ## 6. `CheckCompatibility` -/

/-- The entries that the queue has are the same, and the verdict on guids depends on them only. -/
theorem verdict_congr (h : q'.queueDataStore = q.queueDataStore) (check : List ObjectGuid) :
    q'.verdict m check = q.verdict m check := by
  have hgather : ∀ check g, q'.gather m check g = q.gather m check g := by
    intro check
    induction check with
    | nil => exact fun _ => rfl
    | cons guid check ih =>
      intro g
      unfold LFGQueue.gather
      rw [h]
      split
      · split
        · rfl
        · exact ih _
      · rfl
  have hdata : q'.data = q.data := by
    unfold LFGQueue.data
    rw [h]
  have hmerge : q'.mergeRoles m check = q.mergeRoles m check := by
    unfold LFGQueue.mergeRoles
    rw [hdata]
  have hcommon : q'.commonDungeons check = q.commonDungeons check := by
    unfold LFGQueue.commonDungeons
    rw [hdata]
  have hcombine : ∀ n, q'.combine m check n = q.combine m check n := by
    intro n
    unfold LFGQueue.combine
    rw [hmerge, hcommon, hdata]
  unfold LFGQueue.verdict
  rw [hgather]
  simp only [hcombine]

/-- A guid that is found not to be queued has no entry. -/
theorem verdict_notQueued {guid : ObjectGuid} (h : q.verdict m check = .notQueued guid) :
    q.queueDataStore guid = none := by
  have hgather : ∀ check g, q.gather m check g = .error guid → q.queueDataStore guid = none := by
    intro check
    induction check with
    | nil => exact fun _ h => nomatch h
    | cons guid' check ih =>
      intro g h
      unfold LFGQueue.gather at h
      split at h
      · split at h
        · rename_i hnone
          exact Except.error.inj h ▸ hnone
        · exact ih _ h
      · nomatch h
  unfold LFGQueue.verdict at h
  split at h
  · rename_i guid' hfound
    obtain rfl := LFGQueue.Verdict.notQueued.inj h
    exact hgather check .init hfound
  · split at h
    · nomatch h
    split at h
    · nomatch h
    split at h
    · nomatch h
    split at h
    · nomatch h
    split at h
    · nomatch h
    split at h <;> nomatch h

namespace Search

variable {s : Search}

theorem queueDataStore_propose (p : LfgProposal) :
    (s.propose p).queue.queueDataStore = s.queue.queueDataStore := by
  unfold propose
  generalize s.queue = q
  induction p.queues generalizing q with
  | nil => rfl
  | cons guid guids ih => exact ih _

/-- The entries are the same after `CheckCompatibility`: what it removes from the queue has none. -/
theorem queueDataStore_checkThese (check : List ObjectGuid) :
    (s.checkThese m check).2.queue.queueDataStore = s.queue.queueDataStore := by
  unfold checkThese
  split
  · rename_i guid h
    exact Function.update_eq_self_iff.mpr (verdict_notQueued h).symm
  · rfl
  · exact queueDataStore_propose _

theorem queueDataStore_checkCompatibility (check : List ObjectGuid) : ∀ s : Search,
    (checkCompatibility m check s).2.queue.queueDataStore = s.queue.queueDataStore := by
  induction check with
  | nil => exact fun _ => rfl
  | cons front rest ih =>
    intro s
    unfold checkCompatibility
    split
    · rfl
    · split
      · dsimp only
        split
        · exact ih s
        · exact (queueDataStore_checkThese _).trans (ih s)
      · exact queueDataStore_checkThese _

/-- A proposal that is handed to the manager is sound, if those before are. -/
theorem sound_checkThese (hq : WellFilled s.queue) (hne : check ≠ [])
    (h : p ∈ (s.checkThese m check).2.proposals) : p ∈ s.proposals ∨ SoundProposal m s.queue p := by
  unfold checkThese at h
  split at h
  · exact Or.inl h
  · exact Or.inl h
  · rename_i p' hverdict
    rcases List.mem_append.mp h with h | h
    · exact Or.inl h
    · obtain rfl := List.mem_singleton.mp h
      exact Or.inr (sound_of_verdict hq hne hverdict)

end Search

theorem WellFilled.of_eq (hq : WellFilled q) (h : q'.queueDataStore = q.queueDataStore) :
    WellFilled q' := by
  unfold WellFilled
  rw [h]
  exact hq

theorem SoundProposal.of_eq (hp : SoundProposal m q' p) (h : q'.queueDataStore = q.queueDataStore) :
    SoundProposal m q p := by
  have hdata : q'.data = q.data := by
    unfold LFGQueue.data
    rw [h]
  exact ⟨h ▸ hp.queued, hp.distinct, hp.size, hdata ▸ hp.members, hp.tank, hp.healer, hp.damage,
    hdata ▸ hp.selected, hp.oneLfgGroup, hdata ▸ hp.noIgnores, hdata ▸ hp.dungeon⟩

theorem sound_checkCompatibility (check : List ObjectGuid) : ∀ {s : Search},
    WellFilled s.queue → ∀ {p : LfgProposal},
      p ∈ (Search.checkCompatibility m check s).2.proposals →
        p ∈ s.proposals ∨ SoundProposal m s.queue p := by
  induction check with
  | nil => exact fun _ _ h => Or.inl h
  | cons front rest ih =>
    intro s hq p h
    unfold Search.checkCompatibility at h
    split at h
    · exact Or.inl h
    split at h
    · dsimp only at h
      split at h
      · exact ih hq h
      · have hsame := Search.queueDataStore_checkCompatibility (m := m) rest s
        rcases Search.sound_checkThese (hq.of_eq hsame) (List.cons_ne_nil _ _) h with h | hsound
        · exact ih hq h
        · exact Or.inr (hsound.of_eq hsame)
    · exact Search.sound_checkThese hq (List.cons_ne_nil _ _) h

/-- **Proposals are sound**: five players of entries that do not ignore each other, with the roles
of a group which they have selected, for a dungeon of all the entries. -/
theorem proposals_sound (m : Manager) (q : LFGQueue) (hq : WellFilled q) (check : List ObjectGuid) :
    ∀ p ∈ (Search.checkCompatibility m check ⟨q, []⟩).2.proposals, SoundProposal m q p := by
  intro p hp
  exact (sound_checkCompatibility check hq hp).resolve_left List.not_mem_nil

/-- A manager to whom everybody is queued, and nobody ignores anybody. -/
def fairManager : Manager where
  isLfgGroup _ := false
  hasIgnore _ _ := false
  allQueued _ := true
  getOldState _ := .none
  time := 0
  dungeonRand _ := 0
  leaderRand _ _ := false

/-- A group of five is queued under 9. -/
def fiveQueue : LFGQueue where
  queueDataStore guid :=
    if guid = 9 then
      some ⟨[1], ((((SortedMap.empty.insert 1 0x02).insert 2 0x0C).insert 3 0x0C).insert 4 0x08).insert
        5 0x08⟩
    else none
  compatibleMapStore _ := .pending
  currentQueueStore := []
  newToQueueStore := [9]

theorem wellFilled_fiveQueue : WellFilled fiveQueue := by
  intro guid data h
  change (if guid = 9 then _ else none) = some data at h
  split at h
  · obtain rfl := Option.some.inj h
    decide
  · nomatch h

theorem proposals_sound_five :
    (Search.checkCompatibility fairManager [9] ⟨fiveQueue, []⟩).2.proposals.length = 1 ∧
      ∀ p ∈ (Search.checkCompatibility fairManager [9] ⟨fiveQueue, []⟩).2.proposals,
        SoundProposal fairManager fiveQueue p :=
  ⟨by decide, proposals_sound fairManager fiveQueue wellFilled_fiveQueue [9]⟩

end HungerGames.Lfg
