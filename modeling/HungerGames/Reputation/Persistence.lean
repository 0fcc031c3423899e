/-
# What is saved is loaded

The manager is built from the factions and the rows of the database, one after the other; each
step keeps it sound for the factions met so far (`initializeFactions_sound`, `loadFromDB_spec`).
Saving leaves a row for every faction (`lookup_saveToDB`), so loading makes each state anew from
its own row, and what comes back is what `loadedFlags_eq_iff` says.
-/
import HungerGames.Reputation.Consistency

namespace HungerGames.Reputation

open HungerGames.System

variable {φ : Type} {realm : Realm φ} {db : SortedMap ℕ ReputationMgr.Row}

/-! ## 1. The states a manager begins with -/

variable {known : List (FactionEntry φ)} {mgr : ReputationMgr}

theorem rankCount_congr {mgr' : ReputationMgr}
    (h : ∀ entry ∈ known, entry.canHaveReputation = true →
      mgr'.stateOf entry = mgr.stateOf entry) (rank : ReputationRank) :
    mgr'.rankCount realm known rank = mgr.rankCount realm known rank := by
  refine List.countP_congr fun entry hentry => ?_
  cases hlist : entry.canHaveReputation with
  | false => rfl
  | true => rw [ReputationMgr.getRank_congr (h entry hentry hlist)]

theorem visibleCount_congr {mgr' : ReputationMgr}
    (h : ∀ entry ∈ known, entry.canHaveReputation = true →
      mgr'.stateOf entry = mgr.stateOf entry) :
    mgr'.visibleCount known = mgr.visibleCount known := by
  unfold ReputationMgr.visibleCount ReputationMgr.isVisible
  refine List.countP_congr fun entry hentry => ?_
  cases hlist : entry.canHaveReputation with
  | false => rfl
  | true => rw [h entry hentry hlist]

variable {entry : FactionEntry φ}

theorem newFaction_sound (h : entry ∈ realm.factions.rows) :
    StateSound realm db entry (ReputationMgr.newFaction realm entry) where
  id := rfl
  reputationListID := rfl
  range := fun _ => by
    change InRange (realm.getBaseReputation entry + 0)
    rw [Int.add_zero]
    exact realm.base_inRange h
  flags := FlagsFrom.refl _
  saved := fun hneed => absurd hneed.symm Bool.false_ne_true

/-- One more faction is known. -/
theorem Sound.initializeOne (h : Sound realm db known mgr)
    (hsub : (known ++ [entry]).Sublist realm.factions.rows) :
    Sound realm db (known ++ [entry]) (ReputationMgr.initializeOne realm mgr entry) ∧
      (∀ other ∈ known, other.canHaveReputation = true →
        (ReputationMgr.initializeOne realm mgr entry).stateOf other = mgr.stateOf other) ∧
        (entry.canHaveReputation = true →
          (ReputationMgr.initializeOne realm mgr entry).stateOf entry =
            some (ReputationMgr.newFaction realm entry)) := by
  have hentry : entry ∈ realm.factions.rows :=
    hsub.subset (List.mem_append_right known List.mem_cons_self)
  have hnew : entry ∉ known := by
    have hnodup := hsub.nodup realm.factions.nodup_rows
    exact fun hmem => (List.nodup_append.mp hnodup).2.2 entry hmem entry List.mem_cons_self rfl
  unfold ReputationMgr.initializeOne
  cases hlist : entry.canHaveReputation with
  | false =>
    rw [if_neg Bool.false_ne_true]
    have hrank : ∀ rank, mgr.rankCount realm (known ++ [entry]) rank =
        mgr.rankCount realm known rank := by
      intro rank
      unfold ReputationMgr.rankCount
      rw [List.countP_append, List.countP_singleton, hlist]
      rfl
    have hvisible : mgr.visibleCount (known ++ [entry]) = mgr.visibleCount known := by
      unfold ReputationMgr.visibleCount
      rw [List.countP_append, List.countP_singleton, hlist]
      rfl
    refine ⟨⟨hsub, fun other hother hlist' => ?_, fun key state hstate => ?_,
      h.visible.trans hvisible.symm, h.honored.trans (hrank _).symm,
      h.revered.trans (hrank _).symm, h.exalted.trans (hrank _).symm⟩, fun _ _ _ => rfl, nofun⟩
    · rcases List.mem_append.mp hother with hother | hother
      · exact h.states other hother hlist'
      · rw [List.mem_singleton.mp hother, hlist] at hlist'
        cases hlist'
    · obtain ⟨other, hother, hboth⟩ := h.only key state hstate
      exact ⟨other, List.mem_append_left _ hother, hboth⟩
  | true =>
    rw [if_pos rfl]
    set state := ReputationMgr.newFaction realm entry with hstate
    have hothers : ∀ other ∈ known, other.canHaveReputation = true →
        (mgr.put state.reputationListID state state.flags.visible).stateOf other =
          mgr.stateOf other := fun other hother hlist' =>
      ReputationMgr.stateOf_put_other hentry hlist (h.sub.subset hother) hlist'
        (fun heq => hnew (heq ▸ hother)) state _
    have hself : (mgr.put state.reputationListID state state.flags.visible).stateOf entry =
        some state := mgr.stateOf_put_self entry state _
    have hbase : reputationToRank (int32 (realm.getBaseReputation entry + state.standing)) =
        reputationToRank (realm.getBaseReputation entry) := by
      change reputationToRank (int32 (realm.getBaseReputation entry + 0)) = _
      rw [Int.add_zero, int32_of_inRange (realm.base_inRange hentry)]
    have hcounter : ∀ (count : ℕ) (rank : ReputationRank), REP_HOSTILE < rank →
        count = mgr.rankCount realm known rank →
        plusIf (rank ≤ reputationToRank (realm.getBaseReputation entry))
            (minusIf (rank ≤ REP_HOSTILE) count) =
          (mgr.put state.reputationListID state state.flags.visible).rankCount realm
            (known ++ [entry]) rank := by
      rintro count rank hrank rfl
      rw [decide_eq_false (not_le.mpr hrank)]
      refine plusIf_eq (realm.factions.count_le h.sub _) ?_
      unfold ReputationMgr.rankCount
      rw [List.countP_append, List.countP_singleton, hlist, Bool.true_and,
        ReputationMgr.getRank_of_state hlist hself, hbase]
      congr 1
      · exact rankCount_congr hothers rank
      · cases decide (rank ≤ reputationToRank (realm.getBaseReputation entry)) <;> rfl
    refine ⟨⟨hsub, fun other hother hlist' => ?_, fun key other hother => ?_, ?_,
      hcounter _ _ (by decide) h.honored, hcounter _ _ (by decide) h.revered,
      hcounter _ _ (by decide) h.exalted⟩, hothers, fun _ => hself⟩
    · rcases List.mem_append.mp hother with hother | hother
      · obtain ⟨old, hold, hsound⟩ := h.states other hother hlist'
        exact ⟨old, (hothers other hother hlist').trans hold, hsound⟩
      · obtain rfl := List.mem_singleton.mp hother
        exact ⟨state, hself, newFaction_sound hentry⟩
    · have hput : (mgr.put state.reputationListID state state.flags.visible).factions.lookup key =
          some other := hother
      rw [show (mgr.put state.reputationListID state state.flags.visible).factions.lookup key = _
        from SortedMap.lookup_insert _ _ _ _] at hput
      split at hput
      · rename_i hkey
        exact ⟨entry, List.mem_append_right _ List.mem_cons_self, hlist, hkey.symm⟩
      · obtain ⟨owner, howner, hboth⟩ := h.only key other hput
        exact ⟨owner, List.mem_append_left _ howner, hboth⟩
    · change plusIf state.flags.visible mgr.visibleFactionCount =
        (mgr.put state.reputationListID state state.flags.visible).visibleCount (known ++ [entry])
      rw [h.visible]
      refine plusIf_eq (realm.factions.count_le h.sub _) ?_
      unfold ReputationMgr.visibleCount
      rw [List.countP_append, List.countP_singleton, hlist, Bool.true_and]
      congr 1
      · exact visibleCount_congr hothers
      · unfold ReputationMgr.isVisible
        rw [hself, Option.map_some, Option.getD_some]
        cases state.flags.visible <;> rfl

theorem Sound.initializeRest : ∀ {rest known : List (FactionEntry φ)} {mgr : ReputationMgr},
    Sound realm db known mgr → (known ++ rest).Sublist realm.factions.rows →
    (∀ entry ∈ known, entry.canHaveReputation = true →
      mgr.stateOf entry = some (ReputationMgr.newFaction realm entry)) →
    Sound realm db (known ++ rest) (rest.foldl (ReputationMgr.initializeOne realm) mgr) ∧
      ∀ entry ∈ known ++ rest, entry.canHaveReputation = true →
        (rest.foldl (ReputationMgr.initializeOne realm) mgr).stateOf entry =
          some (ReputationMgr.newFaction realm entry)
  | [], known, mgr, h, _, hnew => by
    rw [List.append_nil]
    exact ⟨h, hnew⟩
  | entry :: rest, known, mgr, h, hsub, hnew => by
    rw [List.append_cons] at hsub ⊢
    obtain ⟨hsound, hothers, hself⟩ := h.initializeOne ((List.sublist_append_left _ _).trans hsub)
    refine hsound.initializeRest hsub fun other hother hlist => ?_
    rcases List.mem_append.mp hother with hother | hother
    · exact (hothers other hother hlist).trans (hnew other hother hlist)
    · obtain rfl := List.mem_singleton.mp hother
      exact hself hlist

/-- **Initialising** gives every faction its first state. -/
theorem initializeFactions_sound (realm : Realm φ) (db : SortedMap ℕ ReputationMgr.Row) :
    Sound realm db realm.factions.rows (ReputationMgr.initializeFactions realm) ∧
      ∀ entry ∈ realm.factions.rows, entry.canHaveReputation = true →
        (ReputationMgr.initializeFactions realm).stateOf entry =
          some (ReputationMgr.newFaction realm entry) := by
  have hempty : Sound realm db [] ReputationMgr.empty :=
    ⟨List.nil_sublist _, nofun, nofun, rfl, rfl, rfl, rfl⟩
  exact hempty.initializeRest (List.Sublist.refl ([] ++ realm.factions.rows)) nofun

/-! ## 2. Loading a row -/

namespace ReputationMgr

/-- The faction of a row holds the player hostile. -/
def rowHostile (realm : Realm φ) (entry : FactionEntry φ) (row : Row) : Bool :=
  decide (reputationToRank (int32 (realm.getBaseReputation entry + row.standing)) ≤ REP_HOSTILE)

/-- A loaded state, before it is compared with its row. -/
def appliedState (realm : Realm φ) (entry : FactionEntry φ) (state : FactionState) (row : Row) :
    FactionState :=
  let placed := { state with standing := row.standing }
  let seen := if row.flags.testBit 0 then placed.setVisible else placed
  let idle := if row.flags.testBit 5 then seen.setInactive true else seen
  let warring :=
    if row.flags.testBit 1 then idle.setAtWar true
    else if idle.flags.visible then idle.setAtWar false
    else idle
  if rowHostile realm entry row then warring.setAtWar true else warring

theorem loadedState_eq (realm : Realm φ) (entry : FactionEntry φ) (state : FactionState)
    (row : Row) : loadedState realm entry state row =
      if (appliedState realm entry state row).flags.toNat = row.flags then
        { appliedState realm entry state row with needSend := false, needSave := false }
      else appliedState realm entry state row := by
  unfold loadedState appliedState rowHostile
  dsimp only
  by_cases hhostile : reputationToRank (int32 (realm.getBaseReputation entry + row.standing)) ≤
      REP_HOSTILE
  · rw [if_pos hhostile, decide_eq_true hhostile, if_pos rfl]
  · rw [if_neg hhostile, decide_eq_false hhostile, if_neg Bool.false_ne_true]

end ReputationMgr

open ReputationMgr in
/-- What the row makes of a state: the standing of the row, the flags the row leaves, and a state
that is to be saved unless the flags are those of the row. -/
theorem appliedState_spec (realm : Realm φ) (entry : FactionEntry φ) (state : FactionState)
    (row : Row) :
    SameFaction { state with standing := row.standing } (appliedState realm entry state row) ∧
      (appliedState realm entry state row).flags =
        loadedFlags state.flags (row.flags.testBit 0) (row.flags.testBit 5)
          (row.flags.testBit 1) (rowHostile realm entry row) ∧
      (appliedState realm entry state row).flags.visible.toNat = state.flags.visible.toNat +
        (row.flags.testBit 0 &&
          { state with standing := row.standing }.becomesVisible).toNat := by
  unfold appliedState loadedFlags
  generalize rowHostile realm entry row = hostile
  generalize row.flags.testBit 0 = bit0
  generalize row.flags.testBit 5 = bit5
  generalize row.flags.testBit 1 = bit1
  set placed := { state with standing := row.standing } with hplaced
  have hseen : SameFaction placed (if bit0 then placed.setVisible else placed) ∧
      (if bit0 then placed.setVisible else placed).flags =
        (if bit0 then state.flags.makeVisible else state.flags) ∧
      (if bit0 then placed.setVisible else placed).flags.visible.toNat =
        state.flags.visible.toNat + (bit0 && placed.becomesVisible).toNat := by
    cases bit0 with
    | true =>
      exact ⟨sameFaction_setVisible placed, flags_setVisible placed, visible_setVisible placed⟩
    | false => exact ⟨⟨rfl, rfl, rfl⟩, rfl, rfl⟩
  dsimp only
  generalize (if bit0 then placed.setVisible else placed) = seen at hseen
  generalize (if bit0 then state.flags.makeVisible else state.flags) = seenFlags at hseen
  obtain ⟨hsame, rfl, hvisible⟩ := hseen
  have hidle : SameFaction placed (if bit5 then seen.setInactive true else seen) ∧
      (if bit5 then seen.setInactive true else seen).flags =
        (if bit5 then seen.flags.makeInactive true else seen.flags) ∧
      (if bit5 then seen.setInactive true else seen).flags.visible = seen.flags.visible := by
    cases bit5 with
    | true => exact ⟨hsame.trans (sameFaction_setInactive seen true), flags_setInactive seen true,
        visible_setInactive seen true⟩
    | false => exact ⟨hsame, rfl, rfl⟩
  generalize (if bit5 then seen.setInactive true else seen) = idle at hidle
  generalize (if bit5 then seen.flags.makeInactive true else seen.flags) = idleFlags at hidle
  obtain ⟨hsame', rfl, hvisible'⟩ := hidle
  have hwar : ∀ warring : FactionState, ∀ atWar, SameFaction placed warring →
      SameFaction placed (warring.setAtWar atWar) ∧
        (warring.setAtWar atWar).flags = warring.flags.makeAtWar atWar ∧
        (warring.setAtWar atWar).flags.visible = warring.flags.visible := fun warring atWar h =>
    ⟨h.trans (sameFaction_setAtWar warring atWar), flags_setAtWar warring atWar,
      visible_setAtWar warring atWar⟩
  have hwarring : ∃ warring : FactionState, warring = (if bit1 then idle.setAtWar true
      else if idle.flags.visible then idle.setAtWar false else idle) ∧
      SameFaction placed warring ∧ warring.flags = (if bit1 then idle.flags.makeAtWar true
        else if idle.flags.visible then idle.flags.makeAtWar false else idle.flags) ∧
      warring.flags.visible = idle.flags.visible := by
    refine ⟨_, rfl, ?_⟩
    cases bit1 with
    | true => exact hwar idle true hsame'
    | false =>
      rw [if_neg Bool.false_ne_true, if_neg Bool.false_ne_true]
      cases hv : idle.flags.visible with
      | true =>
        rw [if_pos rfl, if_pos rfl, ← hv]
        exact hwar idle false hsame'
      | false =>
        rw [if_neg Bool.false_ne_true, if_neg Bool.false_ne_true]
        exact ⟨hsame', rfl, hv⟩
  obtain ⟨warring, heq, hsame'', hflags, hvisible''⟩ := hwarring
  rw [← heq, ← hflags]
  cases hostile with
  | true =>
    rw [if_pos rfl, if_pos rfl]
    obtain ⟨hlast, hlastFlags, hlastVisible⟩ := hwar warring true hsame''
    exact ⟨hlast, hlastFlags, by rw [hlastVisible, hvisible'', hvisible', hvisible]⟩
  | false =>
    rw [if_neg Bool.false_ne_true, if_neg Bool.false_ne_true]
    exact ⟨hsame'', rfl, by rw [hvisible'', hvisible', hvisible]⟩

variable {state : FactionState}

/-- What is to be saved stays so. -/
theorem needSave_of_unsaved {state' : FactionState} (h : state'.needSave = false → state' = state)
    (hneed : state.needSave = true) : state'.needSave = true := by
  by_contra hnot
  have hfalse := Bool.eq_false_iff.mpr hnot
  rw [h hfalse, hneed] at hfalse
  cases hfalse

theorem appliedState_needSave (realm : Realm φ) (entry : FactionEntry φ) (row : ReputationMgr.Row)
    (h : state.needSave = true) :
    (ReputationMgr.appliedState realm entry state row).needSave = true := by
  have hvisible : ∀ s : FactionState, s.needSave = true → s.setVisible.needSave = true :=
    fun _ => needSave_of_unsaved setVisible_unsaved
  have hidle : ∀ s : FactionState, s.needSave = true → (s.setInactive true).needSave = true :=
    fun _ => needSave_of_unsaved setInactive_unsaved
  have hwar : ∀ (s : FactionState) atWar, s.needSave = true → (s.setAtWar atWar).needSave = true :=
    fun _ _ => needSave_of_unsaved setAtWar_unsaved
  have hif : ∀ (c : Bool) (s t : FactionState), s.needSave = true → t.needSave = true →
      (if c then s else t).needSave = true := by
    intro c s t hs ht
    cases c with
    | true => exact hs
    | false => exact ht
  have hseen : ∀ s : FactionState, s.needSave = true →
      (if row.flags.testBit 0 then s.setVisible else s).needSave = true :=
    fun s hs => hif _ _ _ (hvisible s hs) hs
  have hidled : ∀ s : FactionState, s.needSave = true →
      (if row.flags.testBit 5 then s.setInactive true else s).needSave = true :=
    fun s hs => hif _ _ _ (hidle s hs) hs
  have hwarred : ∀ s : FactionState, s.needSave = true → (if row.flags.testBit 1 then
      s.setAtWar true else if s.flags.visible then s.setAtWar false else s).needSave = true :=
    fun s hs => hif _ _ _ (hwar s true hs) (hif _ _ _ (hwar s false hs) hs)
  have hhostile : ∀ s : FactionState, s.needSave = true →
      (if ReputationMgr.rowHostile realm entry row then s.setAtWar true else s).needSave = true :=
    fun s hs => hif _ _ _ (hwar s true hs) hs
  exact hhostile _ (hwarred _ (hidled _ (hseen _ h)))

/-- The state of a loaded row, and that it is sound with the row in the database. -/
theorem loadedState_sound {row : ReputationMgr.Row} (hrow : db.lookup entry.id = some row) :
    StateSound realm db entry (ReputationMgr.loadedState realm entry
      (ReputationMgr.newFaction realm entry) row) := by
  obtain ⟨hsame, hflags, -⟩ :=
    appliedState_spec realm entry (ReputationMgr.newFaction realm entry) row
  rw [ReputationMgr.loadedState_eq]
  have hfrom := FlagsFrom.loaded (realm.getDefaultStateFlags entry) (row.flags.testBit 0)
    (row.flags.testBit 5) (row.flags.testBit 1) (ReputationMgr.rowHostile realm entry row)
  have hfrom : FlagsFrom (realm.getDefaultStateFlags entry) (ReputationMgr.appliedState realm entry
      (ReputationMgr.newFaction realm entry) row).flags := hflags ▸ hfrom
  split
  · rename_i heq
    refine ⟨hsame.id, hsame.reputationListID, fun hrange => ?_, hfrom, fun _ => ?_⟩
    · dsimp only
      rw [hsame.standing]
      exact hrange row hrow
    · rw [hrow]
      unfold ReputationMgr.savedRow
      rw [hsame.standing, heq]
  · refine ⟨hsame.id, hsame.reputationListID, fun hrange => ?_, hfrom, fun hneed => ?_⟩
    · rw [hsame.standing]
      exact hrange row hrow
    · rw [appliedState_needSave realm entry row rfl] at hneed
      cases hneed

theorem loadedState_spec (realm : Realm φ) (entry : FactionEntry φ) (state : FactionState)
    (row : ReputationMgr.Row) :
    (ReputationMgr.loadedState realm entry state row).standing = row.standing ∧
      (ReputationMgr.loadedState realm entry state row).flags.visible.toNat =
        state.flags.visible.toNat + (row.flags.testBit 0 &&
          { state with standing := row.standing }.becomesVisible).toNat := by
  obtain ⟨hsame, -, hshown⟩ := appliedState_spec realm entry state row
  rw [ReputationMgr.loadedState_eq]
  split
  · exact ⟨hsame.standing, hshown⟩
  · exact ⟨hsame.standing, hshown⟩

theorem loadedState_flags (realm : Realm φ) (entry : FactionEntry φ) (state : FactionState)
    (row : ReputationMgr.Row) : (ReputationMgr.loadedState realm entry state row).flags =
      loadedFlags state.flags (row.flags.testBit 0) (row.flags.testBit 5) (row.flags.testBit 1)
        (ReputationMgr.rowHostile realm entry row) := by
  obtain ⟨-, hflags, -⟩ := appliedState_spec realm entry state row
  rw [← hflags, ReputationMgr.loadedState_eq]
  split
  · rfl
  · rfl

/-- A faction begins with the rank of its base reputation. -/
theorem newFaction_rank (h : entry ∈ realm.factions.rows) :
    reputationToRank (int32 (realm.getBaseReputation entry +
        (ReputationMgr.newFaction realm entry).standing)) =
      reputationToRank (realm.getBaseReputation entry) := by
  change reputationToRank (int32 (realm.getBaseReputation entry + 0)) = _
  rw [Int.add_zero, int32_of_inRange (realm.base_inRange h)]

/-- **A row is loaded** into the state its faction began with. -/
theorem Sound.loadRow (h : Sound realm db realm.factions.rows mgr) {id : ℕ}
    {row : ReputationMgr.Row} (hrow : db.lookup id = some row)
    (hnew : ∀ entry ∈ realm.factions.rows, entry.canHaveReputation = true → entry.id = id →
      mgr.stateOf entry = some (ReputationMgr.newFaction realm entry)) :
    Sound realm db realm.factions.rows (mgr.loadRow realm id row) ∧
      ∀ entry ∈ realm.factions.rows, entry.canHaveReputation = true →
        (mgr.loadRow realm id row).stateOf entry = if entry.id = id then
          some (ReputationMgr.loadedState realm entry (ReputationMgr.newFaction realm entry) row)
        else mgr.stateOf entry := by
  unfold ReputationMgr.loadRow
  cases hlookup : realm.factions.lookupEntry id with
  | none =>
    refine ⟨h, fun entry hentry _ => (if_neg fun hid => ?_).symm⟩
    rw [← hid, FactionStore.lookupEntry_of_mem hentry] at hlookup
    cases hlookup
  | some owner =>
    obtain ⟨howner, rfl⟩ := FactionStore.lookupEntry_mem hlookup
    dsimp only
    by_cases hlist : owner.canHaveReputation = true
    · rw [if_pos hlist]
      have hstate := hnew owner howner hlist rfl
      rw [show mgr.factions.lookup owner.key = some (ReputationMgr.newFaction realm owner) from
        hstate]
      dsimp only
      refine ⟨?_, fun entry hentry hlist' => ?_⟩
      · have hsound : StateSound realm db owner _ := loadedState_sound hrow
        obtain ⟨hstanding, hvisible⟩ :=
          loadedState_spec realm owner (ReputationMgr.newFaction realm owner) row
        have hbase := newFaction_rank howner
        generalize ReputationMgr.newFaction realm owner = state at *
        generalize ReputationMgr.loadedState realm owner state row = loaded at *
        exact h.replace howner hlist hstate hsound hvisible hbase.symm (by rw [hstanding])
      · by_cases hid : entry.id = owner.id
        · obtain rfl := FactionStore.eq_of_id hentry howner hid
          rw [if_pos rfl]
          exact (SortedMap.lookup_insert _ _ _ _).trans (if_pos rfl)
        · rw [if_neg hid]
          refine (SortedMap.lookup_insert _ _ _ _).trans (if_neg fun hkey => hid ?_)
          rw [FactionStore.eq_of_key hentry howner hlist' hlist hkey]
    · rw [if_neg hlist]
      refine ⟨h, fun entry hentry hlist' => (if_neg fun hid => hlist ?_).symm⟩
      rw [← FactionStore.eq_of_id hentry howner hid]
      exact hlist'

/-- The state a faction is loaded with. -/
def loadedFrom (realm : Realm φ) (entry : FactionEntry φ) :
    Option ReputationMgr.Row → FactionState
  | none => ReputationMgr.newFaction realm entry
  | some row => ReputationMgr.loadedState realm entry (ReputationMgr.newFaction realm entry) row

theorem Sound.loadRows :
    ∀ {rows : List (ℕ × ReputationMgr.Row)} {mgr : ReputationMgr},
      Sound realm db realm.factions.rows mgr → (∀ x ∈ rows, db.lookup x.1 = some x.2) →
      (rows.map Prod.fst).Nodup →
      (∀ x ∈ rows, ∀ entry ∈ realm.factions.rows, entry.canHaveReputation = true →
        entry.id = x.1 → mgr.stateOf entry = some (ReputationMgr.newFaction realm entry)) →
      Sound realm db realm.factions.rows
          (rows.foldl (fun mgr x => mgr.loadRow realm x.1 x.2) mgr) ∧
        ∀ entry ∈ realm.factions.rows, entry.canHaveReputation = true →
          (rows.foldl (fun mgr x => mgr.loadRow realm x.1 x.2) mgr).stateOf entry =
            match rows.find? fun x => x.1 = entry.id with
            | none => mgr.stateOf entry
            | some x => some (loadedFrom realm entry (some x.2))
  | [], mgr, h, _, _, _ => ⟨h, fun _ _ _ => rfl⟩
  | x :: rows, mgr, h, hrows, hnodup, hnew => by
    obtain ⟨hx, hrest⟩ := List.forall_mem_cons.mp hrows
    obtain ⟨hfresh, hnodup⟩ := List.nodup_cons.mp hnodup
    obtain ⟨hnewx, hnewRest⟩ := List.forall_mem_cons.mp hnew
    obtain ⟨hsound, hstates⟩ := h.loadRow hx hnewx
    have hlater : ∀ y ∈ rows, y.1 ≠ x.1 := fun y hy heq =>
      hfresh (List.mem_map.mpr ⟨y, hy, heq⟩)
    obtain ⟨hend, hendStates⟩ := hsound.loadRows hrest hnodup fun y hy entry hentry hlist hid => by
      rw [hstates entry hentry hlist, if_neg (hid.trans_ne (hlater y hy))]
      exact hnewRest y hy entry hentry hlist hid
    refine ⟨hend, fun entry hentry hlist => ?_⟩
    rw [List.foldl_cons, hendStates entry hentry hlist, hstates entry hentry hlist,
      List.find?_cons]
    by_cases hid : entry.id = x.1
    · have hnone : rows.find? (fun y => y.1 = entry.id) = none := by
        refine List.find?_eq_none.mpr fun y hy heq => hlater y hy ?_
        exact (of_decide_eq_true heq).trans hid
      rw [hnone, decide_eq_true hid.symm, if_pos hid]
      rfl
    · rw [decide_eq_false (Ne.symm hid), if_neg hid]

/-- **Loading gives every faction the state of its row**, or the one it begins with. -/
theorem loadFromDB_spec (realm : Realm φ) (db : SortedMap ℕ ReputationMgr.Row) :
    Sound realm db realm.factions.rows (ReputationMgr.loadFromDB realm db) ∧
      ∀ entry ∈ realm.factions.rows, entry.canHaveReputation = true →
        (ReputationMgr.loadFromDB realm db).stateOf entry =
          some (loadedFrom realm entry (db.lookup entry.id)) := by
  obtain ⟨hsound, hnew⟩ := initializeFactions_sound realm db
  obtain ⟨hloaded, hstates⟩ := hsound.loadRows
    (fun x (hx : x ∈ db.entries) => SortedMap.lookup_eq_some.mpr hx) db.nodup_keys
    fun x _ entry hentry hlist _ => hnew entry hentry hlist
  refine ⟨hloaded, fun entry hentry hlist => ?_⟩
  refine (hstates entry hentry hlist).trans ?_
  unfold SortedMap.lookup
  cases db.entries.find? fun x => x.1 = entry.id with
  | none => exact hnew entry hentry hlist
  | some x => rfl

/-! ## 3. Saving -/

/-- Saving some states leaves the row of one that is to be saved, and any other row alone. -/
theorem lookup_saveStates (hsmall : state.id < 2 ^ 16) :
    ∀ {states : List FactionState} {db : SortedMap ℕ ReputationMgr.Row},
      (∀ s ∈ states, s.id < 2 ^ 16) → (∀ s ∈ states, s.id = state.id → s = state) →
      (states.foldl ReputationMgr.saveOne db).lookup state.id =
        if state ∈ states ∧ state.needSave = true then some (ReputationMgr.savedRow state)
        else db.lookup state.id
  | [], db, _, _ => (if_neg fun h => List.not_mem_nil h.1).symm
  | s :: states, db, hids, hunique => by
    obtain ⟨hid, hids⟩ := List.forall_mem_cons.mp hids
    obtain ⟨hself, hunique⟩ := List.forall_mem_cons.mp hunique
    rw [List.foldl_cons, lookup_saveStates hsmall hids hunique]
    have hone : (ReputationMgr.saveOne db s).lookup state.id =
        if s = state ∧ state.needSave = true then some (ReputationMgr.savedRow state)
        else db.lookup state.id := by
      unfold ReputationMgr.saveOne
      by_cases heq : s = state
      · subst heq
        by_cases hneed : s.needSave = true
        · rw [if_pos hneed, if_pos ⟨rfl, hneed⟩, SortedMap.lookup_insert, Nat.mod_eq_of_lt hid,
            if_pos rfl]
        · rw [if_neg hneed, if_neg fun h : s = s ∧ s.needSave = true => hneed h.2]
      · rw [if_neg fun h : s = state ∧ state.needSave = true => heq h.1]
        split
        · rw [SortedMap.lookup_insert, Nat.mod_eq_of_lt hid,
            if_neg fun h => heq (hself h.symm)]
        · rfl
    rw [hone]
    by_cases hneed : state.needSave = true
    · by_cases hmem : state ∈ states
      · rw [if_pos ⟨hmem, hneed⟩, if_pos ⟨List.mem_cons_of_mem _ hmem, hneed⟩]
      · rw [if_neg fun h => hmem h.1]
        by_cases heq : s = state
        · rw [if_pos ⟨heq, hneed⟩, if_pos ⟨heq ▸ List.mem_cons_self, hneed⟩]
        · rw [if_neg fun h => heq h.1, if_neg fun h => ?_]
          rcases List.mem_cons.mp h.1 with h | h
          · exact heq h.symm
          · exact hmem h
    · rw [if_neg fun h => hneed h.2, if_neg fun h => hneed h.2, if_neg fun h => hneed h.2]

/-- **Saving leaves the row of every faction.** -/
theorem lookup_saveToDB (h : Sound realm db realm.factions.rows mgr)
    (hentry : entry ∈ realm.factions.rows) (hstate : mgr.stateOf entry = some state) :
    (mgr.saveToDB db).2.lookup entry.id = some (ReputationMgr.savedRow state) := by
  obtain ⟨-, hsound⟩ := h.state_of_entry hentry hstate
  have hvalue : ∀ s ∈ mgr.factions.values, ∃ owner ∈ realm.factions.rows,
      s.id = owner.id ∧ mgr.stateOf owner = some s := by
    intro s hs
    obtain ⟨⟨key, s⟩, hmem, rfl⟩ := List.mem_map.mp hs
    obtain ⟨owner, howner, -, -, hown, hsound⟩ :=
      h.state_of_lookup (SortedMap.lookup_eq_some.mpr hmem)
    exact ⟨owner, howner, hsound.id, hown⟩
  have hmem : state ∈ mgr.factions.values :=
    List.mem_map.mpr ⟨(entry.key, state), SortedMap.lookup_eq_some.mp hstate, rfl⟩
  have hids : ∀ s ∈ mgr.factions.values, s.id < 2 ^ 16 := by
    intro s hs
    obtain ⟨owner, howner, hid, -⟩ := hvalue s hs
    exact hid ▸ realm.factions.id_lt owner howner
  have hunique : ∀ s ∈ mgr.factions.values, s.id = state.id → s = state := by
    intro s hs hsame
    obtain ⟨owner, howner, hid, hown⟩ := hvalue s hs
    have heq := FactionStore.eq_of_id howner hentry (hid.symm.trans (hsame.trans hsound.id))
    rw [heq] at hown
    exact Option.some.inj (hown.symm.trans hstate)
  have hsaved : (mgr.saveToDB db).2.lookup state.id = _ :=
    lookup_saveStates (hids state hmem) hids hunique
  rw [hsound.id] at hsaved
  refine hsaved.trans ?_
  by_cases hneed : state.needSave = true
  · rw [if_pos ⟨hmem, hneed⟩]
  · rw [if_neg fun h => hneed h.2]
    exact hsound.saved (Bool.eq_false_iff.mpr hneed)

theorem Sound.saveToDB (h : Sound realm db realm.factions.rows mgr) :
    Sound realm (mgr.saveToDB db).2 realm.factions.rows (mgr.saveToDB db).1 :=
  h.mapStates (f := fun state => { state with needSave := false })
    (fun _ => ⟨⟨rfl, rfl, rfl⟩, rfl⟩)
    (fun entry hentry _ state hstate => by
      have hrow := lookup_saveToDB h hentry hstate
      exact ⟨fun hrange => hrange _ hrow, fun _ => hrow⟩)
    rfl ⟨rfl, rfl, rfl, rfl⟩

/-! ## 4. Runs -/

/-- A manager and the rows of its player. -/
structure World where
  mgr : ReputationMgr
  db : SortedMap ℕ ReputationMgr.Row

inductive Op (φ : Type) where
  | load
  | save
  | setReputation (entry : FactionEntry φ) (standing : ℤ) (incremental : Bool)
  | setVisible (entry : FactionEntry φ)
  | setVisibleTemplate (faction : ℕ)
  | setAtWar (repListID : ℕ) (on : Bool)
  | setInactive (repListID : ℕ) (on : Bool)

/-- The factions that are set are factions of the store. -/
def Op.Known (realm : Realm φ) : Op φ → Prop
  | .setReputation entry _ _ => entry ∈ realm.factions.rows
  | _ => True

def step (realm : Realm φ) (world : World) : Op φ → World
  | .load => { world with mgr := ReputationMgr.loadFromDB realm world.db }
  | .save => ⟨(world.mgr.saveToDB world.db).1, (world.mgr.saveToDB world.db).2⟩
  | .setReputation entry standing incremental =>
    { world with mgr := (world.mgr.setReputation realm entry standing incremental).1 }
  | .setVisible entry => { world with mgr := world.mgr.setVisible entry }
  | .setVisibleTemplate faction => { world with mgr := world.mgr.setVisibleTemplate realm faction }
  | .setAtWar repListID on => { world with mgr := world.mgr.setAtWar repListID on }
  | .setInactive repListID on => { world with mgr := world.mgr.setInactive repListID on }

/-- A player who has logged in. -/
def start (realm : Realm φ) (db : SortedMap ℕ ReputationMgr.Row) : World :=
  ⟨ReputationMgr.loadFromDB realm db, db⟩

/-- What holds of a world in every run that began with some rows. -/
structure WorldSound (realm : Realm φ) (rows : SortedMap ℕ ReputationMgr.Row) (world : World) :
    Prop where
  mgr : Sound realm world.db realm.factions.rows world.mgr
  rows : ∀ entry ∈ realm.factions.rows, entry.canHaveReputation = true →
    RowInRange realm rows entry → RowInRange realm world.db entry

theorem start_sound (realm : Realm φ) (db : SortedMap ℕ ReputationMgr.Row) :
    WorldSound realm db (start realm db) :=
  ⟨(loadFromDB_spec realm db).1, fun _ _ _ hrange => hrange⟩

variable {world : World}

theorem WorldSound.save (h : WorldSound realm db world) :
    WorldSound realm db (step realm world .save) := by
  refine ⟨h.mgr.saveToDB, fun entry hentry hlist hrange row hrow => ?_⟩
  obtain ⟨state, hstate, hsound⟩ := h.mgr.states entry hentry hlist
  obtain rfl := Option.some.inj ((lookup_saveToDB h.mgr hentry hstate).symm.trans hrow)
  exact hsound.range (h.rows entry hentry hlist hrange)

theorem WorldSound.step (h : WorldSound realm db world) {op : Op φ} (hop : op.Known realm) :
    WorldSound realm db (step realm world op) := by
  cases op with
  | load => exact ⟨(loadFromDB_spec realm world.db).1, h.rows⟩
  | save => exact h.save
  | setReputation entry standing incremental =>
    exact ⟨(h.mgr.setReputation hop standing incremental).1, h.rows⟩
  | setVisible entry => exact ⟨h.mgr.setVisible entry, h.rows⟩
  | setVisibleTemplate faction => exact ⟨h.mgr.setVisibleTemplate faction, h.rows⟩
  | setAtWar repListID on => exact ⟨h.mgr.setAtWar repListID on, h.rows⟩
  | setInactive repListID on => exact ⟨h.mgr.setInactive repListID on, h.rows⟩

/-- Saving and loading brings back the standings of all factions. -/
def RestoresStandings (realm : Realm φ) (world : World) : Prop :=
  ∀ entry ∈ realm.factions.rows, entry.canHaveReputation = true →
    ((step realm (step realm world .save) .load).mgr.view entry).map Prod.fst =
      (world.mgr.view entry).map Prod.fst

/-- Saving and loading brings back the flags of all factions. -/
def RestoresFlags (realm : Realm φ) (world : World) : Prop :=
  ∀ entry ∈ realm.factions.rows, entry.canHaveReputation = true →
    ((step realm (step realm world .save) .load).mgr.view entry).map Prod.snd =
      (world.mgr.view entry).map Prod.snd

/-- Every faction's flags come back. -/
def AllRestorable (realm : Realm φ) (world : World) : Prop :=
  ∀ entry ∈ realm.factions.rows, entry.canHaveReputation = true →
    ∀ state, world.mgr.stateOf entry = some state →
      Restorable (realm.getDefaultStateFlags entry) state.flags
        (decide (world.mgr.getRank realm (some entry) ≤ REP_HOSTILE))

/-- **What is loaded after saving**: the standing of the state, and the flags its row leaves. -/
theorem WorldSound.reloaded (h : WorldSound realm db world) (hentry : entry ∈ realm.factions.rows)
    (hlist : entry.canHaveReputation = true) (hstate : world.mgr.stateOf entry = some state) :
    (Reputation.step realm (Reputation.step realm world .save) .load).mgr.view entry =
      some (state.standing, loadedFlags (realm.getDefaultStateFlags entry) state.flags.visible
        state.flags.inactive state.flags.atWar
        (decide (world.mgr.getRank realm (some entry) ≤ REP_HOSTILE))) := by
  have hrow := lookup_saveToDB h.mgr hentry hstate
  have hloaded := (loadFromDB_spec realm (world.mgr.saveToDB world.db).2).2 entry hentry hlist
  rw [hrow] at hloaded
  have hview : ∀ s : FactionState, s.standing = state.standing →
      s.flags = loadedFlags (realm.getDefaultStateFlags entry) state.flags.visible
        state.flags.inactive state.flags.atWar
        (decide (world.mgr.getRank realm (some entry) ≤ REP_HOSTILE)) →
      ∀ mgr : ReputationMgr, mgr.stateOf entry = some s → mgr.view entry =
        some (state.standing, loadedFlags (realm.getDefaultStateFlags entry) state.flags.visible
          state.flags.inactive state.flags.atWar
          (decide (world.mgr.getRank realm (some entry) ≤ REP_HOSTILE))) := by
    intro s hstanding hflags mgr hs
    unfold ReputationMgr.view
    rw [hs, Option.map_some, hstanding, hflags]
  obtain ⟨hstanding, -⟩ := loadedState_spec realm entry (ReputationMgr.newFaction realm entry)
    (ReputationMgr.savedRow state)
  refine hview _ hstanding ((loadedState_flags realm entry _ _).trans ?_) _ hloaded
  obtain ⟨hvisible, hwar, hidle⟩ := testBit_toNat state.flags
  have hhostile : ReputationMgr.rowHostile realm entry (ReputationMgr.savedRow state) =
      decide (world.mgr.getRank realm (some entry) ≤ REP_HOSTILE) := by
    rw [ReputationMgr.getRank_of_state hlist hstate]
    rfl
  rw [hhostile, show (ReputationMgr.savedRow state).flags = state.flags.toNat from rfl, hvisible,
    hidle, hwar, show (ReputationMgr.newFaction realm entry).flags =
      realm.getDefaultStateFlags entry from rfl]

theorem WorldSound.restoresStandings (h : WorldSound realm db world) :
    RestoresStandings realm world := by
  intro entry hentry hlist
  obtain ⟨state, hstate, -⟩ := h.mgr.states entry hentry hlist
  rw [h.reloaded hentry hlist hstate]
  unfold ReputationMgr.view
  rw [hstate]
  rfl

/-- **The flags are restored exactly when they are restorable.** -/
theorem WorldSound.restoresFlags_iff (h : WorldSound realm db world) :
    RestoresFlags realm world ↔ AllRestorable realm world := by
  have hone : ∀ entry ∈ realm.factions.rows, entry.canHaveReputation = true →
      ∀ state, world.mgr.stateOf entry = some state →
      (((Reputation.step realm (Reputation.step realm world .save) .load).mgr.view entry).map
          Prod.snd = (world.mgr.view entry).map Prod.snd ↔
        Restorable (realm.getDefaultStateFlags entry) state.flags
          (decide (world.mgr.getRank realm (some entry) ≤ REP_HOSTILE))) := by
    intro entry hentry hlist state hstate
    obtain ⟨-, hsound⟩ := h.mgr.state_of_entry hentry hstate
    rw [h.reloaded hentry hlist hstate, ← loadedFlags_eq_iff hsound.flags]
    unfold ReputationMgr.view
    rw [hstate, Option.map_some, Option.map_some, Option.map_some, Option.some_inj]
  constructor
  · intro hall entry hentry hlist state hstate
    exact (hone entry hentry hlist state hstate).mp (hall entry hentry hlist)
  · intro hall entry hentry hlist
    obtain ⟨state, hstate, -⟩ := h.mgr.states entry hentry hlist
    exact (hone entry hentry hlist state hstate).mpr (hall entry hentry hlist state hstate)

/-- What has been saved and loaded is restorable. -/
theorem WorldSound.allRestorable (h : WorldSound realm db world) :
    AllRestorable realm (Reputation.step realm (Reputation.step realm world .save) .load) := by
  intro entry hentry hlist state' hstate'
  obtain ⟨state, hstate, -⟩ := h.mgr.states entry hentry hlist
  have hview := h.reloaded hentry hlist hstate
  unfold ReputationMgr.view at hview
  rw [hstate', Option.map_some] at hview
  obtain ⟨hstanding, hflags⟩ := Prod.mk.inj (Option.some.inj hview)
  rw [hflags, ReputationMgr.getRank_of_state hlist hstate', hstanding,
    ← ReputationMgr.getRank_of_state hlist hstate]
  exact restorable_loadedFlags ..

/-! ## 5. Every run -/

/-- The counters count what they are for. -/
structure Counted (realm : Realm φ) (mgr : ReputationMgr) : Prop where
  visible : mgr.visibleFactionCount = mgr.visibleCount realm.factions.rows
  honored : mgr.honoredFactionCount = mgr.rankCount realm realm.factions.rows REP_HONORED
  revered : mgr.reveredFactionCount = mgr.rankCount realm realm.factions.rows REP_REVERED
  exalted : mgr.exaltedFactionCount = mgr.rankCount realm realm.factions.rows REP_EXALTED

/-- Every faction in the list has a state, and its reputation is one if its row's was. -/
def Ranged (realm : Realm φ) (rows : SortedMap ℕ ReputationMgr.Row) (mgr : ReputationMgr) : Prop :=
  ∀ entry ∈ realm.factions.rows, entry.canHaveReputation = true →
    ∃ state, mgr.stateOf entry = some state ∧
      (RowInRange realm rows entry → InRange (realm.getBaseReputation entry + state.standing))

/-- **Reputations in every run** from any rows.  The reputations are in range, when those of the
rows are, and the counters count; a faction whose reputation is set is at war if it is hostile;
saving and loading restores the standings, and restores the flags exactly when they are all
restorable. -/
theorem reputation_sound (realm : Realm φ) (db : SortedMap ℕ ReputationMgr.Row)
    {ops : List (Op φ)} (hops : ∀ op ∈ ops, op.Known realm) :
    let world := exec (step realm) (start realm db) ops
    Ranged realm db world.mgr ∧ Counted realm world.mgr ∧
      (∀ entry ∈ realm.factions.rows, ∀ standing incremental,
        AtWarIfHostile realm (world.mgr.setReputation realm entry standing incremental).1 entry ∧
          Settles realm world.mgr
            (world.mgr.setReputation realm entry standing incremental).1) ∧
        RestoresStandings realm world ∧
          (RestoresFlags realm world ↔ AllRestorable realm world) := by
  have hstep : ∀ (world : World) (op : Op φ), op.Known realm →
      WorldSound realm db world → WorldSound realm db (step realm world op) :=
    fun _ _ hop h => h.step hop
  have hworld := exec_invariant_of_mem hstep hops (start_sound realm db)
  intro world
  refine ⟨fun entry hentry hlist => ?_,
    ⟨hworld.mgr.visible, hworld.mgr.honored, hworld.mgr.revered, hworld.mgr.exalted⟩,
    fun entry hentry standing incremental =>
      (hworld.mgr.setReputation hentry standing incremental).2,
    hworld.restoresStandings, hworld.restoresFlags_iff⟩
  obtain ⟨state, hstate, hsound⟩ := hworld.mgr.states entry hentry hlist
  exact ⟨state, hstate, fun hrange => hsound.range (hworld.rows entry hentry hlist hrange)⟩

/-- **A second saving loses nothing**, in every run: what the first one left of the reputations comes
back as it is. -/
theorem saved_once_restores (realm : Realm φ) (db : SortedMap ℕ ReputationMgr.Row)
    {ops : List (Op φ)} (hops : ∀ op ∈ ops, op.Known realm) :
    let world := step realm (step realm (exec (step realm) (start realm db) ops) .save) .load
    RestoresStandings realm world ∧ RestoresFlags realm world := by
  have hstep : ∀ (world : World) (op : Op φ), op.Known realm →
      WorldSound realm db world → WorldSound realm db (step realm world op) :=
    fun _ _ hop h => h.step hop
  have hworld := exec_invariant_of_mem hstep hops (start_sound realm db)
  have hsettled := hstep _ .load trivial (hstep _ .save trivial hworld)
  exact ⟨hsettled.restoresStandings, hsettled.restoresFlags_iff.mpr hworld.allRestorable⟩

/-- A faction that all players begin neutral with, and that they see. -/
def town : FactionEntry ℤ where
  id := 21
  reputationListID := 0
  bases := fun _ => ⟨0xFFF, 0, 0, 1⟩
  team := 0
  spilloverRateIn := 0
  spilloverRateOut := 0
  spilloverMaxRankIn := 0

/-- A realm of one faction. -/
def townRealm : Realm ℤ where
  ops := ⟨id, (· * ·), (· == 0), id, id⟩
  factions :=
    { rows := [town]
      ids := List.nodup_singleton _
      id_lt := List.forall_mem_singleton.mpr (by decide)
      places := List.nodup_singleton _
      place_lt := List.forall_mem_singleton.mpr (by decide)
      base_range := List.forall_mem_singleton.mpr (by decide) }
  spillover := fun _ => none
  onReputationChange := fun _ standing _ => standing
  raceMask := 1
  classMask := 1

/-- The player is hated, and makes peace. -/
def peace : List (Op ℤ) := [.setReputation town (-42000) false, .setAtWar 0 false]

theorem peace_known : ∀ op ∈ peace, op.Known townRealm :=
  List.forall_mem_cons.mpr ⟨List.mem_cons_self, List.forall_mem_singleton.mpr trivial⟩

theorem reputation_sound_peace :
    Counted townRealm (exec (step townRealm) (start townRealm SortedMap.empty) peace).mgr :=
  (reputation_sound townRealm SortedMap.empty peace_known).2.1

theorem saved_once_restores_peace :
    RestoresFlags townRealm (step townRealm (step townRealm
      (exec (step townRealm) (start townRealm SortedMap.empty) peace) .save) .load) :=
  (saved_once_restores townRealm SortedMap.empty peace_known).2

/-- **A peace made with a hostile faction is not restored**, and a row is loaded as it is, far
above the cap. -/
theorem not_restored :
    ¬ RestoresFlags townRealm
        (exec (step townRealm) (start townRealm SortedMap.empty) peace) ∧
      ¬ ∀ state, (start townRealm (SortedMap.empty.insert 21 ⟨100000, 1⟩)).mgr.stateOf town =
        some state → InRange (townRealm.getBaseReputation town + state.standing) := by
  refine ⟨fun h => ?_, fun h => ?_⟩
  · have hflags := h town List.mem_cons_self rfl
    revert hflags
    decide +kernel
  · have hstate : ((start townRealm (SortedMap.empty.insert 21 ⟨100000, 1⟩)).mgr.stateOf town).map
        FactionState.standing = some 100000 := by decide +kernel
    obtain ⟨state, hstate, hstanding⟩ := Option.map_eq_some_iff.mp hstate
    have hrange := h state hstate
    rw [hstanding] at hrange
    revert hrange
    decide +kernel

end HungerGames.Reputation
