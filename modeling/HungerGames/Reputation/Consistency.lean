/-
# Reputations stay consistent

Over every run of loading, saving and the setters, each faction's base and standing together are
a reputation, the four counters count what they are for, and a faction that holds the player
hostile is at war with him once his reputation there is set, unless peace is forced
(`reputation_sound`).

What is saved is not always what is loaded.  A faction may be taken out of war by the player
while it is hostile, and loading puts it back; it may be taken out of war before it is visible,
and loading leaves the war it begins with.  `Restorable` is the condition on a faction under
which its flags come back, and saving and loading restores everything exactly when every
faction meets it.
-/
import HungerGames.Reputation.ReputationMgr
import HungerGames.System.Counting

namespace HungerGames.Reputation

open HungerGames.System

variable {φ : Type}

/-! ## 1. Numbers -/

/-- A reputation. -/
def InRange (n : ℤ) : Prop := Reputation_Bottom ≤ n ∧ n ≤ Reputation_Cap

instance (n : ℤ) : Decidable (InRange n) := inferInstanceAs (Decidable (_ ∧ _))

theorem int32_of_small {n : ℤ} (h : -2147483648 ≤ n ∧ n < 2147483648) : int32 n = n := by
  unfold int32
  rw [Int.bmod_def]
  have hpow : ((2 ^ 32 : ℕ) : ℤ) = 4294967296 := rfl
  rw [hpow]
  omega

theorem int32_of_inRange {n : ℤ} (h : InRange n) : int32 n = n := by
  unfold InRange Reputation_Bottom Reputation_Cap at h
  exact int32_of_small (by omega)

theorem newStanding_inRange (realm : Realm φ) (entry : FactionEntry φ) (state : FactionState)
    (standing : ℤ) (incremental : Bool) :
    InRange (ReputationMgr.newStanding realm entry state standing incremental) := by
  unfold ReputationMgr.newStanding InRange
  dsimp only
  generalize (if incremental = true then _ else standing) = n
  have hbounds : Reputation_Bottom ≤ Reputation_Cap := by decide
  split
  · exact ⟨hbounds, le_refl _⟩
  · split
    · exact ⟨le_refl _, hbounds⟩
    · exact ⟨by omega, by omega⟩

theorem plusIf_minusIf {plus minus : Bool} {count total : ℕ} (hcount : count ≤ 128)
    (htotal : total ≤ 128) (h : total + minus.toNat = count + plus.toNat) :
    plusIf plus (minusIf minus count) = total := by
  unfold plusIf minusIf
  cases plus <;> cases minus <;> simp only [Bool.toNat_true, Bool.toNat_false, if_true,
    Bool.false_eq_true, if_false] at h ⊢ <;> omega

theorem plusIf_eq {plus : Bool} {count total : ℕ} (hcount : count ≤ 128)
    (h : total = count + plus.toNat) : plusIf plus count = total := by
  unfold plusIf
  cases plus <;> simp only [Bool.toNat_true, Bool.toNat_false, if_true, Bool.false_eq_true,
    if_false] at h ⊢ <;> omega

/-! ## 2. Factions and their keys -/

namespace FactionStore

variable {entry : FactionEntry φ} {store : FactionStore φ}

theorem lookupEntry_mem {id : ℕ} (h : store.lookupEntry id = some entry) :
    entry ∈ store.rows ∧ entry.id = id :=
  ⟨List.mem_of_find?_eq_some h,
    of_decide_eq_true
      (List.find?_some (p := fun entry : FactionEntry φ => decide (entry.id = id)) h)⟩

variable {other : FactionEntry φ}

theorem eq_of_id (h : entry ∈ store.rows) (h' : other ∈ store.rows) (hid : entry.id = other.id) :
    entry = other :=
  List.inj_on_of_nodup_map store.ids h h' hid

theorem lookupEntry_of_mem (h : entry ∈ store.rows) : store.lookupEntry entry.id = some entry := by
  obtain ⟨found, hfound⟩ := Option.isSome_iff_exists.mp
    (List.find?_isSome (p := fun other : FactionEntry φ => decide (other.id = entry.id)) |>.mpr
      ⟨entry, h, decide_eq_true rfl⟩)
  have hlookup : store.lookupEntry entry.id = some found := hfound
  obtain ⟨hmem, hid⟩ := lookupEntry_mem hlookup
  exact hlookup.trans (congrArg some (eq_of_id hmem h hid))

/-- Different factions in the list have different keys. -/
theorem eq_of_key (h : entry ∈ store.rows) (h' : other ∈ store.rows)
    (hlist : entry.canHaveReputation = true) (hlist' : other.canHaveReputation = true)
    (hkey : entry.key = other.key) : entry = other := by
  have hplace := store.place_lt entry h
  have hplace' := store.place_lt other h'
  have hpos : (0 : ℤ) ≤ entry.reputationListID := of_decide_eq_true hlist
  have hpos' : (0 : ℤ) ≤ other.reputationListID := of_decide_eq_true hlist'
  refine List.inj_on_of_nodup_map store.places (List.mem_filter.mpr ⟨h, hlist⟩)
    (List.mem_filter.mpr ⟨h', hlist'⟩) ?_
  unfold FactionEntry.key at hkey
  omega

/-- A faction outside the list has the key of no state. -/
theorem key_ne (h : entry ∈ store.rows) (h' : other ∈ store.rows)
    (hlist : entry.canHaveReputation = false) (hlist' : other.canHaveReputation = true) :
    entry.key ≠ other.key := by
  have hplace := store.place_lt entry h
  have hplace' := store.place_lt other h'
  have hneg : ¬ (0 : ℤ) ≤ entry.reputationListID := of_decide_eq_false hlist
  have hpos' : (0 : ℤ) ≤ other.reputationListID := of_decide_eq_true hlist'
  unfold FactionEntry.key
  omega

theorem nodup_rows (store : FactionStore φ) : store.rows.Nodup := List.Nodup.of_map _ store.ids

/-- There are at most as many factions in the list as it has places. -/
theorem count_le (store : FactionStore φ) {known : List (FactionEntry φ)}
    (hknown : known.Sublist store.rows) (p : FactionEntry φ → Bool) :
    known.countP (fun entry => entry.canHaveReputation && p entry) ≤ 128 := by
  have hless : known.countP (fun entry => entry.canHaveReputation && p entry) ≤
      (store.rows.filter FactionEntry.canHaveReputation).length := by
    rw [← List.countP_eq_length_filter]
    refine le_trans (hknown.countP_le) (List.countP_mono_left fun entry _ h => ?_)
    exact (Bool.and_eq_true_iff.mp h).1
  have hsub : ((store.rows.filter FactionEntry.canHaveReputation).map
      FactionEntry.reputationListID).Subperm ((List.range 128).map Int.ofNat) := by
    refine List.subperm_of_subset store.places fun place hplace => ?_
    obtain ⟨entry, hentry, rfl⟩ := List.mem_map.mp hplace
    obtain ⟨hmem, hlist⟩ := List.mem_filter.mp hentry
    have hlt := (store.place_lt entry hmem).1
    have hpos : (0 : ℤ) ≤ entry.reputationListID := of_decide_eq_true hlist
    exact List.mem_map.mpr ⟨entry.reputationListID.toNat, List.mem_range.mpr (by omega),
      Int.toNat_of_nonneg hpos⟩
  have hlength := hsub.length_le
  rw [List.length_map, List.length_map, List.length_range] at hlength
  exact le_trans hless hlength

end FactionStore

variable {entry : FactionEntry φ}

theorem Realm.base_inRange (realm : Realm φ) (h : entry ∈ realm.factions.rows) :
    InRange (realm.getBaseReputation entry) := by
  unfold Realm.getBaseReputation
  cases hbase : realm.base entry with
  | none => decide
  | some base =>
    obtain ⟨i, -, rfl⟩ := List.mem_map.mp (List.mem_of_find?_eq_some hbase)
    exact realm.factions.base_range entry h i

/-! ## 3. Flags -/

/-- The flags a faction can come to from those it begins with. -/
structure FlagsFrom (d f : FactionFlags) : Prop where
  hidden : f.hidden = d.hidden
  invisibleForced : f.invisibleForced = d.invisibleForced
  peaceForced : f.peaceForced = d.peaceForced
  rival : f.rival = d.rival
  special : f.special = d.special
  kept : d.visible = true → f.visible = true
  shown : f.visible = true → d.visible = true ∨ (f.unlisted && !f.special) = false
  war : f.atWar = true → f.peaceForced = true → d.atWar = true
  idle : f.inactive = true → d.inactive = true ∨ f.unlisted = false ∧ f.visible = true

theorem FlagsFrom.refl (d : FactionFlags) : FlagsFrom d d :=
  ⟨rfl, rfl, rfl, rfl, rfl, id, Or.inl, fun h _ => h, Or.inl⟩

namespace FactionFlags

/-- What the setters of a state do to its flags. -/
def makeVisible (flags : FactionFlags) : FactionFlags :=
  if !(flags.unlisted && !flags.special) then { flags with visible := true } else flags

def makeAtWar (flags : FactionFlags) (atWar : Bool) : FactionFlags :=
  if atWar && flags.peaceForced then flags else { flags with atWar := atWar }

def makeInactive (flags : FactionFlags) (inactive : Bool) : FactionFlags :=
  if inactive && (flags.unlisted || !flags.visible) then flags
  else { flags with inactive := inactive }

end FactionFlags

theorem flags_setVisible (state : FactionState) :
    state.setVisible.flags = state.flags.makeVisible := by
  obtain ⟨_, _, _, ⟨v, w, h, i, p, n, r, s⟩, _, _⟩ := state
  cases v <;> cases h <;> cases i <;> cases s <;> rfl

theorem flags_setAtWar (state : FactionState) (atWar : Bool) :
    (state.setAtWar atWar).flags = state.flags.makeAtWar atWar := by
  obtain ⟨_, _, _, ⟨v, w, h, i, p, n, r, s⟩, _, _⟩ := state
  cases w <;> cases p <;> cases atWar <;> rfl

theorem flags_setInactive (state : FactionState) (inactive : Bool) :
    (state.setInactive inactive).flags = state.flags.makeInactive inactive := by
  obtain ⟨_, _, _, ⟨v, w, h, i, p, n, r, s⟩, _, _⟩ := state
  cases v <;> cases h <;> cases i <;> cases n <;> cases inactive <;> rfl

variable {d f : FactionFlags}

theorem FlagsFrom.makeVisible (h : FlagsFrom d f) : FlagsFrom d f.makeVisible := by
  unfold FactionFlags.makeVisible
  split
  · rename_i hallowed
    exact ⟨h.hidden, h.invisibleForced, h.peaceForced, h.rival, h.special, fun _ => rfl,
      fun _ => Or.inr (Bool.not_eq_true' _ |>.mp hallowed), h.war,
      fun hidle => (h.idle hidle).imp_right fun hboth => ⟨hboth.1, rfl⟩⟩
  · exact h

theorem FlagsFrom.makeAtWar (h : FlagsFrom d f) (atWar : Bool) :
    FlagsFrom d (f.makeAtWar atWar) := by
  unfold FactionFlags.makeAtWar
  split
  · exact h
  · rename_i hallowed
    refine ⟨h.hidden, h.invisibleForced, h.peaceForced, h.rival, h.special, h.kept, h.shown,
      fun hwar hpeace => absurd ?_ hallowed, h.idle⟩
    exact Bool.and_eq_true_iff.mpr ⟨hwar, hpeace⟩

theorem FlagsFrom.makeInactive (h : FlagsFrom d f) (inactive : Bool) :
    FlagsFrom d (f.makeInactive inactive) := by
  unfold FactionFlags.makeInactive
  split
  · exact h
  · rename_i hallowed
    refine ⟨h.hidden, h.invisibleForced, h.peaceForced, h.rival, h.special, h.kept, h.shown,
      h.war, fun hidle => Or.inr ?_⟩
    dsimp only at hidle
    rw [hidle] at hallowed
    have hboth : f.unlisted = false ∧ f.visible = true := by simpa using hallowed
    exact hboth

/-- The flags that a row leaves of those a faction begins with. -/
def loadedFlags (d : FactionFlags) (visible inactive atWar hostile : Bool) : FactionFlags :=
  let seen := if visible then d.makeVisible else d
  let idle := if inactive then seen.makeInactive true else seen
  let warring :=
    if atWar then idle.makeAtWar true
    else if idle.visible then idle.makeAtWar false
    else idle
  if hostile then warring.makeAtWar true else warring

theorem FlagsFrom.loaded (d : FactionFlags) (visible inactive atWar hostile : Bool) :
    FlagsFrom d (loadedFlags d visible inactive atWar hostile) := by
  have hseen : FlagsFrom d (if visible then d.makeVisible else d) := by
    split
    · exact (FlagsFrom.refl d).makeVisible
    · exact FlagsFrom.refl d
  unfold loadedFlags
  dsimp only
  generalize (if visible then d.makeVisible else d) = seen at hseen
  have hidle : FlagsFrom d (if inactive then seen.makeInactive true else seen) := by
    split
    · exact hseen.makeInactive true
    · exact hseen
  generalize (if inactive then seen.makeInactive true else seen) = idle at hidle
  have hwarring : FlagsFrom d (if atWar then idle.makeAtWar true
      else if idle.visible then idle.makeAtWar false else idle) := by
    split
    · exact hidle.makeAtWar true
    · split
      · exact hidle.makeAtWar false
      · exact hidle
  split
  · exact hwarring.makeAtWar true
  · exact hwarring

theorem testBit_toNat (f : FactionFlags) :
    f.toNat.testBit 0 = f.visible ∧ f.toNat.testBit 1 = f.atWar ∧
      f.toNat.testBit 5 = f.inactive := by
  have hbits : ∀ v w h i p n r s : Bool,
      (FactionFlags.mk v w h i p n r s).toNat.testBit 0 = v ∧
        (FactionFlags.mk v w h i p n r s).toNat.testBit 1 = w ∧
          (FactionFlags.mk v w h i p n r s).toNat.testBit 5 = n := by
    decide +kernel
  obtain ⟨v, w, h, i, p, n, r, s⟩ := f
  exact hbits v w h i p n r s

/-- **The flags of a faction come back** from its row: out of war it is not hostile, or peace is
forced, and it is visible or begins out of war; and it does not begin inactive, or still is. -/
def Restorable (d f : FactionFlags) (hostile : Bool) : Prop :=
  (f.atWar = false → (hostile = true → f.peaceForced = true) ∧
      (f.visible = false → d.atWar = false)) ∧
    (d.inactive = true → f.inactive = true)

instance (d f : FactionFlags) (hostile : Bool) : Decidable (Restorable d f hostile) :=
  inferInstanceAs (Decidable (_ ∧ _))

set_option synthInstance.maxSize 1000 in
/-- **Exactly the restorable flags are restored.** -/
theorem loadedFlags_eq_iff (h : FlagsFrom d f) (hostile : Bool) :
    loadedFlags d f.visible f.inactive f.atWar hostile = f ↔ Restorable d f hostile := by
  obtain ⟨hhidden, hforced, hpeace, hrival, hspecial, hkept, hshown, hwar, hidle⟩ := h
  obtain ⟨dv, dw, dh, di, dp, dn, dr, ds⟩ := d
  obtain ⟨v, w, h, i, p, n, r, s⟩ := f
  subst hhidden hforced hpeace hrival hspecial
  have hall : ∀ dv dw dn v w n h i p r s hostile : Bool,
      (dv = true → v = true) → (v = true → dv = true ∨ ((i || h) && !s) = false) →
      (w = true → p = true → dw = true) →
      (n = true → dn = true ∨ (i || h) = false ∧ v = true) →
      (loadedFlags ⟨dv, dw, h, i, p, dn, r, s⟩ v n w hostile = ⟨v, w, h, i, p, n, r, s⟩ ↔
        Restorable ⟨dv, dw, h, i, p, dn, r, s⟩ ⟨v, w, h, i, p, n, r, s⟩ hostile) := by
    decide +kernel
  exact hall dv dw dn v w n h i p r s hostile hkept hshown hwar hidle

/-- What a row leaves of the flags is restorable. -/
theorem restorable_loadedFlags (d : FactionFlags) (visible inactive atWar hostile : Bool) :
    Restorable d (loadedFlags d visible inactive atWar hostile) hostile := by
  obtain ⟨dv, dw, dh, di, dp, dn, dr, ds⟩ := d
  revert dv dw dh di dp dn dr ds visible inactive atWar hostile
  decide +kernel

/-! ## 4. The invariant -/

namespace ReputationMgr

/-- The state of a faction. -/
def stateOf (mgr : ReputationMgr) (entry : FactionEntry φ) : Option FactionState :=
  mgr.factions.lookup entry.key

def isVisible (mgr : ReputationMgr) (entry : FactionEntry φ) : Bool :=
  ((mgr.stateOf entry).map fun state => state.flags.visible).getD false

/-- How many factions are visible. -/
def visibleCount (known : List (FactionEntry φ)) (mgr : ReputationMgr) : ℕ :=
  known.countP fun entry => entry.canHaveReputation && mgr.isVisible entry

/-- How many factions hold the player at a rank or a higher one. -/
def rankCount (realm : Realm φ) (known : List (FactionEntry φ)) (mgr : ReputationMgr)
    (rank : ReputationRank) : ℕ :=
  known.countP fun entry =>
    entry.canHaveReputation && decide (rank ≤ mgr.getRank realm (some entry))

end ReputationMgr

/-- The reputation a faction's row has is one; the factions without a row have theirs. -/
def RowInRange (realm : Realm φ) (db : SortedMap ℕ ReputationMgr.Row) (entry : FactionEntry φ) :
    Prop :=
  ∀ row, db.lookup entry.id = some row → InRange (realm.getBaseReputation entry + row.standing)

/-- A state of a faction: it is the faction's, its reputation is one unless that of its row is
not, its flags come from those the faction begins with, and when nothing is to be saved its row
is there. -/
structure StateSound (realm : Realm φ) (db : SortedMap ℕ ReputationMgr.Row)
    (entry : FactionEntry φ) (state : FactionState) : Prop where
  id : state.id = entry.id
  reputationListID : state.reputationListID = entry.key
  range : RowInRange realm db entry → InRange (realm.getBaseReputation entry + state.standing)
  flags : FlagsFrom (realm.getDefaultStateFlags entry) state.flags
  saved : state.needSave = false → db.lookup entry.id = some (ReputationMgr.savedRow state)

/-- **The manager is sound** for the factions it knows: they have sound states, and the counters
count. -/
structure Sound (realm : Realm φ) (db : SortedMap ℕ ReputationMgr.Row)
    (known : List (FactionEntry φ)) (mgr : ReputationMgr) : Prop where
  sub : known.Sublist realm.factions.rows
  states : ∀ entry ∈ known, entry.canHaveReputation = true →
    ∃ state, mgr.stateOf entry = some state ∧ StateSound realm db entry state
  only : ∀ key state, mgr.factions.lookup key = some state →
    ∃ entry ∈ known, entry.canHaveReputation = true ∧ entry.key = key
  visible : mgr.visibleFactionCount = mgr.visibleCount known
  honored : mgr.honoredFactionCount = mgr.rankCount realm known REP_HONORED
  revered : mgr.reveredFactionCount = mgr.rankCount realm known REP_REVERED
  exalted : mgr.exaltedFactionCount = mgr.rankCount realm known REP_EXALTED

variable {db : SortedMap ℕ ReputationMgr.Row}

namespace ReputationMgr

theorem getRank_of_state {realm : Realm φ} {mgr : ReputationMgr}
    (hlist : entry.canHaveReputation = true) {state : FactionState}
    (h : mgr.stateOf entry = some state) :
    mgr.getRank realm (some entry) =
      reputationToRank (int32 (realm.getBaseReputation entry + state.standing)) := by
  unfold getRank getReputation
  rw [Option.map_some, Option.getD_some, if_pos hlist,
    show mgr.factions.lookup entry.key = some state from h]

theorem getRank_congr {realm : Realm φ} {mgr mgr' : ReputationMgr}
    (h : mgr'.stateOf entry = mgr.stateOf entry) :
    mgr'.getRank realm (some entry) = mgr.getRank realm (some entry) := by
  unfold getRank getReputation
  rw [Option.map_some, Option.map_some,
    show mgr'.factions.lookup entry.key = mgr.factions.lookup entry.key from h]

/-- A faction of another state. -/
theorem stateOf_put_other {realm : Realm φ} {mgr : ReputationMgr} {other : FactionEntry φ}
    (hentry : entry ∈ realm.factions.rows) (hlist : entry.canHaveReputation = true)
    (hother : other ∈ realm.factions.rows) (hlist' : other.canHaveReputation = true)
    (hne : other ≠ entry) (state : FactionState) (visible : Bool) :
    (mgr.put entry.key state visible).stateOf other = mgr.stateOf other := by
  refine (SortedMap.lookup_insert _ _ _ _).trans (if_neg fun hkey => hne ?_)
  exact FactionStore.eq_of_key hother hentry hlist' hlist hkey

theorem stateOf_put_self (mgr : ReputationMgr) (entry : FactionEntry φ) (state : FactionState)
    (visible : Bool) : (mgr.put entry.key state visible).stateOf entry = some state :=
  (SortedMap.lookup_insert _ _ _ _).trans (if_pos rfl)

end ReputationMgr

/-- Two managers whose factions have the same states, but for one. -/
structure Differs (realm : Realm φ) (known : List (FactionEntry φ)) (mgr mgr' : ReputationMgr)
    (entry : FactionEntry φ) : Prop where
  self : entry ∈ known
  list : entry.canHaveReputation = true
  others : ∀ other ∈ known, other.canHaveReputation = true → other ≠ entry →
    mgr'.stateOf other = mgr.stateOf other

theorem Differs.put {realm : Realm φ} {known : List (FactionEntry φ)}
    (hsub : known.Sublist realm.factions.rows) {mgr : ReputationMgr} (hself : entry ∈ known)
    (hlist : entry.canHaveReputation = true) (state : FactionState) (visible : Bool) :
    Differs realm known mgr (mgr.put entry.key state visible) entry :=
  ⟨hself, hlist, fun _ hother hlist' hne => ReputationMgr.stateOf_put_other (hsub.subset hself)
    hlist (hsub.subset hother) hlist' hne state visible⟩

variable {mgr' : ReputationMgr}

theorem Differs.rankCount {realm : Realm φ} {known : List (FactionEntry φ)}
    (hsub : known.Sublist realm.factions.rows) {mgr : ReputationMgr}
    (h : Differs realm known mgr mgr' entry) (rank : ReputationRank) :
    mgr'.rankCount realm known rank + (decide (rank ≤ mgr.getRank realm (some entry))).toNat =
      mgr.rankCount realm known rank +
        (decide (rank ≤ mgr'.getRank realm (some entry))).toNat := by
  have hcount := countP_change
    (p := fun other : FactionEntry φ => other.canHaveReputation &&
      decide (rank ≤ mgr.getRank realm (some other)))
    (q := fun other : FactionEntry φ => other.canHaveReputation &&
      decide (rank ≤ mgr'.getRank realm (some other)))
    (hsub.nodup realm.factions.nodup_rows) h.self fun other hother hne => by
      cases hlist : other.canHaveReputation with
      | false => rfl
      | true =>
        rw [ReputationMgr.getRank_congr (h.others other hother hlist hne)]
  rw [h.list, Bool.true_and, Bool.true_and] at hcount
  exact hcount

theorem Differs.visibleCount {realm : Realm φ} {known : List (FactionEntry φ)}
    (hsub : known.Sublist realm.factions.rows) {mgr : ReputationMgr}
    (h : Differs realm known mgr mgr' entry) :
    mgr'.visibleCount known + (mgr.isVisible entry).toNat =
      mgr.visibleCount known + (mgr'.isVisible entry).toNat := by
  have hcount := countP_change
    (p := fun other : FactionEntry φ => other.canHaveReputation && mgr.isVisible other)
    (q := fun other : FactionEntry φ => other.canHaveReputation && mgr'.isVisible other)
    (hsub.nodup realm.factions.nodup_rows) h.self fun other hother hne => by
      cases hlist : other.canHaveReputation with
      | false => rfl
      | true =>
        unfold ReputationMgr.isVisible
        rw [h.others other hother hlist hne]
  rw [h.list, Bool.true_and, Bool.true_and] at hcount
  exact hcount

variable {state state' : FactionState}

/-- **One state is replaced**, with its ranks counted and a visible one that was not. -/
theorem Sound.replace {realm : Realm φ} {known : List (FactionEntry φ)} {mgr : ReputationMgr}
    (h : Sound realm db known mgr) (hself : entry ∈ known) (hlist : entry.canHaveReputation = true)
    (hstate : mgr.stateOf entry = some state) (hsound : StateSound realm db entry state')
    {shown : Bool} (hshown : state'.flags.visible.toNat = state.flags.visible.toNat + shown.toNat)
    {oldRank newRank : ReputationRank}
    (hold : oldRank = reputationToRank (int32 (realm.getBaseReputation entry + state.standing)))
    (hnew : newRank = reputationToRank (int32 (realm.getBaseReputation entry + state'.standing))) :
    Sound realm db known ((mgr.put entry.key state' shown).updateRankCounters oldRank newRank) := by
  have hdiffers : Differs realm known mgr (mgr.put entry.key state' shown) entry :=
    Differs.put h.sub hself hlist state' shown
  have hself' := mgr.stateOf_put_self entry state' shown
  have hrank := fun rank => hdiffers.rankCount h.sub rank
  rw [ReputationMgr.getRank_of_state hlist hstate, ReputationMgr.getRank_of_state hlist hself',
    ← hold, ← hnew] at hrank
  have hvisible := hdiffers.visibleCount h.sub
  unfold ReputationMgr.isVisible at hvisible
  rw [hstate, hself', Option.map_some, Option.map_some, Option.getD_some,
    Option.getD_some] at hvisible
  have hcounter : ∀ (count : ℕ) (rank : ReputationRank),
      count = mgr.rankCount realm known rank →
      plusIf (rank ≤ newRank) (minusIf (rank ≤ oldRank) count) =
        (mgr.put entry.key state' shown).rankCount realm known rank := by
    rintro count rank rfl
    exact plusIf_minusIf (realm.factions.count_le h.sub _) (realm.factions.count_le h.sub _)
      (hrank rank)
  refine ⟨h.sub, fun other hother hlist' => ?_, fun key other hother => ?_, ?_,
    hcounter _ _ h.honored, hcounter _ _ h.revered, hcounter _ _ h.exalted⟩
  · by_cases heq : other = entry
    · subst heq
      exact ⟨state', hself', hsound⟩
    · obtain ⟨state'', hstate'', hsound''⟩ := h.states other hother hlist'
      exact ⟨state'', (hdiffers.others other hother hlist' heq).trans hstate'', hsound''⟩
  · have hput : (mgr.put entry.key state' shown).factions.lookup key = some other := hother
    rw [show (mgr.put entry.key state' shown).factions.lookup key = _ from
      SortedMap.lookup_insert _ _ _ _] at hput
    split at hput
    · rename_i hkey
      exact ⟨entry, hself, hlist, hkey.symm⟩
    · exact h.only key other hput
  · change plusIf shown mgr.visibleFactionCount =
      (mgr.put entry.key state' shown).visibleCount known
    rw [h.visible]
    refine plusIf_eq (realm.factions.count_le h.sub _) ?_
    omega

/-- The state under a key is that of a faction in the list. -/
theorem Sound.state_of_lookup {realm : Realm φ} {known : List (FactionEntry φ)}
    {mgr : ReputationMgr} (h : Sound realm db known mgr) {key : ℕ}
    (hstate : mgr.factions.lookup key = some state) :
    ∃ entry ∈ known, entry.canHaveReputation = true ∧ key = entry.key ∧
      mgr.stateOf entry = some state ∧ StateSound realm db entry state := by
  obtain ⟨entry, hself, hlist, rfl⟩ := h.only key state hstate
  obtain ⟨state', hstate', hsound⟩ := h.states entry hself hlist
  obtain rfl := Option.some.inj (hstate.symm.trans hstate')
  exact ⟨entry, hself, hlist, rfl, hstate, hsound⟩

theorem Sound.count_le {realm : Realm φ} {known : List (FactionEntry φ)} {mgr : ReputationMgr}
    (h : Sound realm db known mgr) : mgr.honoredFactionCount ≤ 128 ∧ mgr.reveredFactionCount ≤ 128 ∧
      mgr.exaltedFactionCount ≤ 128 := by
  rw [h.honored, h.revered, h.exalted]
  exact ⟨realm.factions.count_le h.sub _, realm.factions.count_le h.sub _,
    realm.factions.count_le h.sub _⟩

theorem plusIf_minusIf_self (due : Bool) {count : ℕ} (h : count ≤ 128) :
    plusIf due (minusIf due count) = count :=
  plusIf_minusIf h h rfl

/-- A state is replaced by one of the same standing. -/
theorem Sound.putState {realm : Realm φ} {known : List (FactionEntry φ)} {mgr : ReputationMgr}
    (h : Sound realm db known mgr) (hself : entry ∈ known) (hlist : entry.canHaveReputation = true)
    (hstate : mgr.stateOf entry = some state) (hsound : StateSound realm db entry state')
    {shown : Bool} (hshown : state'.flags.visible.toNat = state.flags.visible.toNat + shown.toNat)
    (hstanding : state'.standing = state.standing) :
    Sound realm db known (mgr.put entry.key state' shown) := by
  obtain ⟨hhonored, hrevered, hexalted⟩ := h.count_le
  have hreplace := h.replace hself hlist hstate hsound hshown rfl (by rw [hstanding])
  have hsame : ∀ rank, (mgr.put entry.key state' shown).updateRankCounters rank rank =
      mgr.put entry.key state' shown := by
    intro rank
    unfold ReputationMgr.updateRankCounters ReputationMgr.put
    rw [plusIf_minusIf_self _ hexalted, plusIf_minusIf_self _ hrevered,
      plusIf_minusIf_self _ hhonored]
  rw [hsame] at hreplace
  exact hreplace

/-! ## 5. The setters of a state -/

theorem visible_setVisible (state : FactionState) :
    state.setVisible.flags.visible.toNat =
      state.flags.visible.toNat + state.becomesVisible.toNat := by
  obtain ⟨_, _, _, ⟨v, w, h, i, p, n, r, s⟩, _, _⟩ := state
  cases v <;> cases h <;> cases i <;> cases s <;> rfl

theorem visible_setAtWar (state : FactionState) (atWar : Bool) :
    (state.setAtWar atWar).flags.visible = state.flags.visible := by
  unfold FactionState.setAtWar
  split
  · rfl
  · split
    · rfl
    · rfl

theorem visible_setInactive (state : FactionState) (inactive : Bool) :
    (state.setInactive inactive).flags.visible = state.flags.visible := by
  unfold FactionState.setInactive
  split
  · rfl
  · split
    · rfl
    · rfl

/-- A setter that has changed nothing to be saved has changed nothing. -/
theorem setVisible_unsaved (h : state.setVisible.needSave = false) : state.setVisible = state := by
  unfold FactionState.setVisible at h ⊢
  split at h
  · exact absurd h.symm Bool.false_ne_true
  · rename_i hcond
    rw [if_neg hcond]

theorem setAtWar_unsaved {atWar : Bool} (h : (state.setAtWar atWar).needSave = false) :
    state.setAtWar atWar = state := by
  unfold FactionState.setAtWar at h ⊢
  split
  · rfl
  · rename_i hpeace
    rw [if_neg hpeace] at h
    split
    · rfl
    · rename_i hdiffers
      rw [if_neg hdiffers] at h
      exact absurd h.symm Bool.false_ne_true

theorem setInactive_unsaved {inactive : Bool} (h : (state.setInactive inactive).needSave = false) :
    state.setInactive inactive = state := by
  unfold FactionState.setInactive at h ⊢
  split
  · rfl
  · rename_i hrefused
    rw [if_neg hrefused] at h
    split
    · rfl
    · rename_i hdiffers
      rw [if_neg hdiffers] at h
      exact absurd h.symm Bool.false_ne_true

/-- The setters change nothing but flags. -/
structure SameFaction (state state' : FactionState) : Prop where
  id : state'.id = state.id
  reputationListID : state'.reputationListID = state.reputationListID
  standing : state'.standing = state.standing

theorem SameFaction.trans {state'' : FactionState} (h : SameFaction state state')
    (h' : SameFaction state' state'') : SameFaction state state'' :=
  ⟨h'.id.trans h.id, h'.reputationListID.trans h.reputationListID, h'.standing.trans h.standing⟩

theorem sameFaction_setVisible (state : FactionState) : SameFaction state state.setVisible := by
  unfold FactionState.setVisible
  split
  · exact ⟨rfl, rfl, rfl⟩
  · exact ⟨rfl, rfl, rfl⟩

theorem sameFaction_setAtWar (state : FactionState) (atWar : Bool) :
    SameFaction state (state.setAtWar atWar) := by
  unfold FactionState.setAtWar
  split
  · exact ⟨rfl, rfl, rfl⟩
  · split
    · exact ⟨rfl, rfl, rfl⟩
    · exact ⟨rfl, rfl, rfl⟩

theorem sameFaction_setInactive (state : FactionState) (inactive : Bool) :
    SameFaction state (state.setInactive inactive) := by
  unfold FactionState.setInactive
  split
  · exact ⟨rfl, rfl, rfl⟩
  · split
    · exact ⟨rfl, rfl, rfl⟩
    · exact ⟨rfl, rfl, rfl⟩

theorem StateSound.same {realm : Realm φ} (h : StateSound realm db entry state)
    (hsame : SameFaction state state')
    (hflags : FlagsFrom (realm.getDefaultStateFlags entry) state'.flags)
    (hsaved : state'.needSave = false → state' = state) : StateSound realm db entry state' :=
  ⟨hsame.id.trans h.id, hsame.reputationListID.trans h.reputationListID,
    hsame.standing ▸ h.range, hflags, fun hneed => by
      have heq := hsaved hneed
      rw [heq] at hneed ⊢
      exact h.saved hneed⟩

theorem StateSound.setVisible {realm : Realm φ} (h : StateSound realm db entry state) :
    StateSound realm db entry state.setVisible :=
  h.same (sameFaction_setVisible state) (flags_setVisible state ▸ h.flags.makeVisible)
    setVisible_unsaved

theorem StateSound.setAtWar {realm : Realm φ} (h : StateSound realm db entry state) (atWar : Bool) :
    StateSound realm db entry (state.setAtWar atWar) :=
  h.same (sameFaction_setAtWar state atWar) (flags_setAtWar state atWar ▸ h.flags.makeAtWar atWar)
    setAtWar_unsaved

theorem StateSound.setInactive {realm : Realm φ} (h : StateSound realm db entry state)
    (inactive : Bool) : StateSound realm db entry (state.setInactive inactive) :=
  h.same (sameFaction_setInactive state inactive)
    (flags_setInactive state inactive ▸ h.flags.makeInactive inactive) setInactive_unsaved

namespace Sound

variable {realm : Realm φ} {known : List (FactionEntry φ)} {mgr : ReputationMgr}

theorem setVisible (h : Sound realm db known mgr) (entry : FactionEntry φ) :
    Sound realm db known (mgr.setVisible entry) := by
  unfold ReputationMgr.setVisible
  split
  · exact h
  · cases hstate : mgr.factions.lookup entry.key with
    | none => exact h
    | some state =>
      obtain ⟨owner, hself, hlist, hkey, hstate, hsound⟩ := h.state_of_lookup hstate
      rw [hkey]
      exact h.putState hself hlist hstate hsound.setVisible (visible_setVisible state)
        (sameFaction_setVisible state).standing

theorem setVisibleTemplate (h : Sound realm db known mgr) (faction : ℕ) :
    Sound realm db known (mgr.setVisibleTemplate realm faction) := by
  unfold ReputationMgr.setVisibleTemplate
  split
  · exact h
  · cases realm.factions.lookupEntry faction with
    | none => exact h
    | some entry =>
      dsimp only
      split
      · exact h
      · exact h.setVisible entry

theorem setAtWar (h : Sound realm db known mgr) (repListID : ℕ) (on : Bool) :
    Sound realm db known (mgr.setAtWar repListID on) := by
  unfold ReputationMgr.setAtWar
  cases hstate : mgr.factions.lookup repListID with
  | none => exact h
  | some state =>
    obtain ⟨owner, hself, hlist, rfl, hstate, hsound⟩ := h.state_of_lookup hstate
    dsimp only
    split
    · exact h
    · exact h.putState hself hlist hstate (hsound.setAtWar on)
        (by rw [visible_setAtWar]; rfl) (sameFaction_setAtWar state on).standing

theorem setInactive (h : Sound realm db known mgr) (repListID : ℕ) (on : Bool) :
    Sound realm db known (mgr.setInactive repListID on) := by
  unfold ReputationMgr.setInactive
  cases hstate : mgr.factions.lookup repListID with
  | none => exact h
  | some state =>
    obtain ⟨owner, hself, hlist, rfl, hstate, hsound⟩ := h.state_of_lookup hstate
    exact h.putState hself hlist hstate (hsound.setInactive on)
      (by rw [visible_setInactive]; rfl) (sameFaction_setInactive state on).standing

end Sound

/-! ## 6. Setting reputations -/

/-- A faction that holds the player hostile is at war with him, unless peace is forced. -/
def AtWarIfHostile (realm : Realm φ) (mgr : ReputationMgr) (entry : FactionEntry φ) : Prop :=
  ∀ state, mgr.stateOf entry = some state → mgr.getRank realm (some entry) ≤ REP_HOSTILE →
    state.flags.peaceForced = false → state.flags.atWar = true

/-- The standing and the flags of a faction. -/
def ReputationMgr.view (mgr : ReputationMgr) (entry : FactionEntry φ) :
    Option (ℤ × FactionFlags) :=
  (mgr.stateOf entry).map fun state => (state.standing, state.flags)

/-- From one manager to the next, every faction's standing and flags stay, or the faction is at
war if hostile. -/
def Settles (realm : Realm φ) (mgr mgr' : ReputationMgr) : Prop :=
  ∀ entry ∈ realm.factions.rows, entry.canHaveReputation = true →
    AtWarIfHostile realm mgr' entry ∨ mgr'.view entry = mgr.view entry

theorem ReputationMgr.exists_of_view {mgr : ReputationMgr} (h : mgr'.view entry = mgr.view entry)
    (hstate : mgr'.stateOf entry = some state') :
    ∃ state, mgr.stateOf entry = some state ∧ state.standing = state'.standing ∧
      state.flags = state'.flags := by
  unfold ReputationMgr.view at h
  rw [hstate, Option.map_some] at h
  obtain ⟨state, hold, heq⟩ := Option.map_eq_some_iff.mp h.symm
  exact ⟨state, hold, congrArg Prod.fst heq, congrArg Prod.snd heq⟩

/-- What the faction is at war about are its standing and its flags. -/
theorem AtWarIfHostile.view {realm : Realm φ} {mgr : ReputationMgr}
    (h : AtWarIfHostile realm mgr entry) (hlist : entry.canHaveReputation = true)
    (hview : mgr'.view entry = mgr.view entry) : AtWarIfHostile realm mgr' entry := by
  intro state' hstate' hrank hpeace
  obtain ⟨state, hstate, hstanding, hflags⟩ := ReputationMgr.exists_of_view hview hstate'
  rw [ReputationMgr.getRank_of_state hlist hstate', ← hstanding] at hrank
  rw [← hflags] at hpeace ⊢
  exact h state hstate ((ReputationMgr.getRank_of_state hlist hstate).trans_le hrank) hpeace

theorem ReputationMgr.view_sendState (mgr : ReputationMgr) (entry : FactionEntry φ) :
    mgr.sendState.view entry = mgr.view entry := by
  unfold ReputationMgr.view ReputationMgr.stateOf ReputationMgr.sendState
  rw [SortedMap.lookup_withValues_map, Option.map_map]
  rfl

theorem Settles.refl (realm : Realm φ) (mgr : ReputationMgr) : Settles realm mgr mgr :=
  fun _ _ _ => Or.inr rfl

theorem Settles.trans {realm : Realm φ} {mgr mgr'' : ReputationMgr} (h : Settles realm mgr mgr')
    (h' : Settles realm mgr' mgr'') : Settles realm mgr mgr'' := by
  intro entry hentry hlist
  rcases h' entry hentry hlist with hwar | hview
  · exact Or.inl hwar
  · exact (h entry hentry hlist).imp (fun hwar => hwar.view hlist hview) hview.trans

theorem atWar_setAtWar (h : (state.setAtWar true).flags.peaceForced = false) :
    (state.setAtWar true).flags.atWar = true := by
  obtain ⟨_, _, _, ⟨v, w, hd, i, p, n, r, s⟩, _, _⟩ := state
  cases w <;> cases p <;> first | rfl | exact absurd h (by simp [FactionState.setAtWar])

namespace Sound

variable {realm : Realm φ} {mgr : ReputationMgr}

/-- The state under a faction's key is the faction's own. -/
theorem state_of_entry (h : Sound realm db realm.factions.rows mgr)
    (hentry : entry ∈ realm.factions.rows) (hstate : mgr.stateOf entry = some state) :
    entry.canHaveReputation = true ∧ StateSound realm db entry state := by
  obtain ⟨owner, hself, hlist, hkey, -, hsound⟩ := h.state_of_lookup hstate
  cases hcan : entry.canHaveReputation with
  | false => exact absurd hkey (FactionStore.key_ne hentry hself hcan hlist)
  | true =>
    obtain rfl := FactionStore.eq_of_key hentry hself hcan hlist hkey
    exact ⟨rfl, hsound⟩

theorem setOneFactionReputation (h : Sound realm db realm.factions.rows mgr)
    (hentry : entry ∈ realm.factions.rows) (standing : ℤ) (incremental : Bool) :
    Sound realm db realm.factions.rows
        (mgr.setOneFactionReputation realm entry standing incremental).1 ∧
      AtWarIfHostile realm (mgr.setOneFactionReputation realm entry standing incremental).1
        entry ∧
        Settles realm mgr (mgr.setOneFactionReputation realm entry standing incremental).1 := by
  unfold ReputationMgr.setOneFactionReputation
  cases hstate : mgr.factions.lookup entry.key with
  | none =>
    refine ⟨h, fun state hsome => ?_, Settles.refl realm mgr⟩
    rw [show mgr.stateOf entry = none from hstate] at hsome
    cases hsome
  | some state =>
    dsimp only
    have hown : mgr.stateOf entry = some state := hstate
    obtain ⟨hlist, hsound⟩ := h.state_of_entry hentry hown
    have hrange := newStanding_inRange realm entry state standing incremental
    generalize ReputationMgr.newStanding realm entry state standing incremental = n at hrange
    have hbase := realm.base_inRange hentry
    have hdiff : int32 (n - realm.getBaseReputation entry) = n - realm.getBaseReputation entry := by
      unfold InRange Reputation_Bottom Reputation_Cap at hrange hbase
      exact int32_of_small (by omega)
    have hsum : realm.getBaseReputation entry + (n - realm.getBaseReputation entry) = n := by
      omega
    set moved : FactionState := { state with
      standing := int32 (n - realm.getBaseReputation entry), needSend := true, needSave := true }
      with hmoved
    have hmovedSound : StateSound realm db entry moved :=
      ⟨hsound.id, hsound.reputationListID, fun _ => by rw [hmoved, hdiff, hsum]; exact hrange,
        hsound.flags,
        fun hneed => absurd hneed.symm Bool.false_ne_true⟩
    set warring := if reputationToRank n ≤ REP_HOSTILE then moved.setVisible.setAtWar true
      else moved.setVisible with hwarring
    have hwarringSound : StateSound realm db entry warring := by
      rw [hwarring]
      split
      · exact hmovedSound.setVisible.setAtWar true
      · exact hmovedSound.setVisible
    have hstanding : warring.standing = n - realm.getBaseReputation entry := by
      have hsame : SameFaction moved warring := by
        rw [hwarring]
        split
        · exact (sameFaction_setVisible moved).trans (sameFaction_setAtWar _ true)
        · exact sameFaction_setVisible moved
      rw [hsame.standing, hmoved, hdiff]
    have hrank : reputationToRank n =
        reputationToRank (int32 (realm.getBaseReputation entry + warring.standing)) := by
      rw [hstanding, hsum, int32_of_inRange hrange]
    have hshown : warring.flags.visible.toNat =
        state.flags.visible.toNat + moved.becomesVisible.toNat := by
      have hvisible : warring.flags.visible = moved.setVisible.flags.visible := by
        rw [hwarring]
        split
        · exact visible_setAtWar moved.setVisible true
        · rfl
      rw [hvisible]
      exact visible_setVisible moved
    have holdRank : reputationToRank (int32 (state.standing + realm.getBaseReputation entry)) =
        reputationToRank (int32 (realm.getBaseReputation entry + state.standing)) := by
      rw [Int.add_comm]
    have hreplace := h.replace hentry hlist hstate hwarringSound hshown holdRank hrank
    have hwar : ∀ mgr' : ReputationMgr, mgr'.stateOf entry = some warring →
        AtWarIfHostile realm mgr' entry := by
      intro mgr' hself state' hstate' hhostile hpeace
      obtain rfl := Option.some.inj (hstate'.symm.trans hself)
      rw [ReputationMgr.getRank_of_state hlist hstate', ← hrank] at hhostile
      rw [hwarring, if_pos hhostile] at hpeace ⊢
      exact atWar_setAtWar hpeace
    have hself := mgr.stateOf_put_self entry warring moved.becomesVisible
    refine ⟨⟨hreplace.sub, hreplace.states, hreplace.only, hreplace.visible, hreplace.honored,
      hreplace.revered, hreplace.exalted⟩, hwar _ hself, fun other hother hlist' => ?_⟩
    by_cases heq : other = entry
    · subst heq
      exact Or.inl (hwar _ hself)
    · exact Or.inr (congrArg (Option.map fun state : FactionState => (state.standing, state.flags))
        (ReputationMgr.stateOf_put_other hentry hlist hother hlist' heq warring
          moved.becomesVisible))

end Sound

/-! ### Spilling over -/

namespace ReputationMgr

variable {realm : Realm φ} {P : ReputationMgr → Prop} {incremental : Bool}
  (hone : ∀ (mgr : ReputationMgr), ∀ entry ∈ realm.factions.rows, ∀ standing, P mgr →
    P (mgr.setOneFactionReputation realm entry standing incremental).1)

include hone

theorem spillTemplate_invariant {mgr : ReputationMgr} (h : P mgr) (standing : ℤ)
    (slot : SpilloverSlot φ) : P (mgr.spillTemplate realm standing incremental slot) := by
  unfold spillTemplate
  split
  · cases hentry : realm.factions.lookupEntry slot.faction with
    | none => exact h
    | some entry => exact hone mgr entry (FactionStore.lookupEntry_mem hentry).1 _ h
  · exact h

theorem spillTeam_invariant {mgr : ReputationMgr × Bool} (h : P mgr.1) (own : ℕ) (out : φ)
    (id : ℕ) : P (spillTeam realm own out incremental mgr id).1 := by
  unfold spillTeam
  cases hentry : realm.factions.lookupEntry id with
  | none => exact h
  | some entry =>
    dsimp only
    split
    · exact h
    · split
      · exact hone mgr.1 entry (FactionStore.lookupEntry_mem hentry).1 _ h
      · exact h

theorem spillTeams_invariant (own : ℕ) (out : φ) : ∀ (ids : List ℕ) {mgr : ReputationMgr × Bool},
    P mgr.1 → P (ids.foldl (spillTeam realm own out incremental) mgr).1
  | [], _, h => h
  | id :: ids, _, h => spillTeams_invariant own out ids (spillTeam_invariant hone h own out id)

theorem spillTemplates_invariant (standing : ℤ) :
    ∀ (slots : List (SpilloverSlot φ)) {mgr : ReputationMgr}, P mgr →
      P (slots.foldl (spillTemplate realm standing incremental) mgr)
  | [], _, h => h
  | slot :: slots, _, h =>
    spillTemplates_invariant standing slots (spillTemplate_invariant hone h standing slot)

theorem spillEntry_invariant {mgr : ReputationMgr} (h : P mgr) (entry : FactionEntry φ)
    (standing : ℤ) : P (mgr.spillEntry realm entry standing incremental).1 := by
  unfold spillEntry
  cases realm.factions.getFactionTeamList entry.id with
  | some flist => exact spillTeams_invariant hone entry.id _ flist h
  | none =>
    dsimp only
    split
    · cases hparent : realm.factions.lookupEntry entry.team with
      | none => exact h
      | some parent =>
        dsimp only
        split
        · exact hone mgr parent (FactionStore.lookupEntry_mem hparent).1 _ h
        · cases realm.factions.getFactionTeamList entry.team with
          | none => exact h
          | some flist => exact spillTeams_invariant hone entry.id _ flist h
    · exact h

/-- **What setting one faction keeps, spilling over keeps.** -/
theorem spill_invariant {mgr : ReputationMgr} (h : P mgr) (entry : FactionEntry φ)
    (standing : ℤ) : P (mgr.spill realm entry standing incremental).1 := by
  unfold spill
  cases realm.spillover entry.id with
  | some slots => exact spillTemplates_invariant hone standing slots h
  | none => exact spillEntry_invariant hone h entry standing

end ReputationMgr

namespace Sound

variable {realm : Realm φ} {mgr : ReputationMgr}

/-- What changes of all states is neither the faction, nor the standing, nor the flags; a state
that need not be saved afterwards has its row. -/
theorem mapStates {known : List (FactionEntry φ)} (h : Sound realm db known mgr)
    {f : FactionState → FactionState}
    (hf : ∀ state, SameFaction state (f state) ∧ (f state).flags = state.flags)
    {db' : SortedMap ℕ ReputationMgr.Row}
    (hkept : ∀ entry ∈ known, entry.canHaveReputation = true → ∀ state,
      mgr.stateOf entry = some state →
        (RowInRange realm db' entry → InRange (realm.getBaseReputation entry + state.standing)) ∧
          ((f state).needSave = false →
            db'.lookup entry.id = some (ReputationMgr.savedRow state)))
    (hfactions : mgr'.factions = mgr.factions.withValues (mgr.factions.values.map f))
    (hcounts : mgr'.visibleFactionCount = mgr.visibleFactionCount ∧
      mgr'.honoredFactionCount = mgr.honoredFactionCount ∧
      mgr'.reveredFactionCount = mgr.reveredFactionCount ∧
      mgr'.exaltedFactionCount = mgr.exaltedFactionCount) : Sound realm db' known mgr' := by
  have hlookup : ∀ key, mgr'.factions.lookup key = (mgr.factions.lookup key).map f := by
    intro key
    rw [hfactions, SortedMap.lookup_withValues_map]
  have hvisible : ∀ entry : FactionEntry φ, mgr'.isVisible entry = mgr.isVisible entry := by
    intro entry
    unfold ReputationMgr.isVisible ReputationMgr.stateOf
    rw [hlookup]
    cases mgr.factions.lookup entry.key with
    | none => rfl
    | some state => exact congrArg FactionFlags.visible (hf state).2
  have hrank : ∀ entry : FactionEntry φ,
      mgr'.getRank realm (some entry) = mgr.getRank realm (some entry) := by
    intro entry
    unfold ReputationMgr.getRank ReputationMgr.getReputation
    rw [Option.map_some, Option.map_some, hlookup]
    cases mgr.factions.lookup entry.key with
    | none => rfl
    | some state =>
      rw [Option.map_some]
      dsimp only
      rw [(hf state).1.standing]
  have hrankCount : ∀ rank, mgr'.rankCount realm known rank = mgr.rankCount realm known rank := by
    intro rank
    refine List.countP_congr fun entry _ => ?_
    rw [hrank]
  have hvisibleCount : mgr'.visibleCount known = mgr.visibleCount known := by
    refine List.countP_congr fun entry _ => ?_
    rw [hvisible]
  obtain ⟨hv, hh, hr, he⟩ := hcounts
  refine ⟨h.sub, fun entry hentry hlist => ?_, fun key state hstate => ?_, ?_, ?_, ?_, ?_⟩
  · obtain ⟨state, hstate, hsound⟩ := h.states entry hentry hlist
    obtain ⟨hsame, hflags⟩ := hf state
    refine ⟨f state, (hlookup entry.key).trans (congrArg (Option.map f) hstate),
      hsame.id.trans hsound.id, hsame.reputationListID.trans hsound.reputationListID,
      hsame.standing ▸ (hkept entry hentry hlist state hstate).1, hflags ▸ hsound.flags,
      fun hsave => ?_⟩
    unfold ReputationMgr.savedRow
    rw [hsame.standing, hflags]
    exact (hkept entry hentry hlist state hstate).2 hsave
  · rw [hlookup] at hstate
    obtain ⟨old, hold, -⟩ := Option.map_eq_some_iff.mp hstate
    exact h.only key old hold
  · rw [hv, h.visible, hvisibleCount]
  · rw [hh, h.honored, hrankCount]
  · rw [hr, h.revered, hrankCount]
  · rw [he, h.exalted, hrankCount]

theorem sendState {known : List (FactionEntry φ)} (h : Sound realm db known mgr) :
    Sound realm db known mgr.sendState :=
  h.mapStates (f := fun state => { state with needSend := false })
    (fun _ => ⟨⟨rfl, rfl, rfl⟩, rfl⟩) (fun entry hentry hlist state hstate => by
      obtain ⟨found, hfound, hsound⟩ := h.states entry hentry hlist
      obtain rfl := Option.some.inj (hstate.symm.trans hfound)
      exact ⟨hsound.range, hsound.saved⟩)
    rfl ⟨rfl, rfl, rfl, rfl⟩

theorem setReputation (h : Sound realm db realm.factions.rows mgr)
    (hentry : entry ∈ realm.factions.rows) (standing : ℤ) (incremental : Bool) :
    Sound realm db realm.factions.rows (mgr.setReputation realm entry standing incremental).1 ∧
      AtWarIfHostile realm (mgr.setReputation realm entry standing incremental).1 entry ∧
        Settles realm mgr (mgr.setReputation realm entry standing incremental).1 := by
  unfold ReputationMgr.setReputation
  dsimp only
  generalize realm.onReputationChange entry.id standing incremental = standing
  obtain ⟨hspilled, hsettled⟩ : Sound realm db realm.factions.rows
      (mgr.spill realm entry standing incremental).1 ∧
      Settles realm mgr (mgr.spill realm entry standing incremental).1 :=
    ReputationMgr.spill_invariant
      (P := fun mgr' => Sound realm db realm.factions.rows mgr' ∧ Settles realm mgr mgr')
      (fun mgr' entry hentry standing h' =>
        have hone := h'.1.setOneFactionReputation hentry standing incremental
        ⟨hone.1, h'.2.trans hone.2.2⟩) ⟨h, Settles.refl realm mgr⟩ entry standing
  generalize mgr.spill realm entry standing incremental = spilled at hspilled hsettled
  cases hstate : spilled.1.factions.lookup entry.key with
  | none =>
    refine ⟨hspilled, fun state hsome => ?_, hsettled⟩
    rw [show spilled.1.stateOf entry = none from hstate] at hsome
    cases hsome
  | some state =>
    obtain ⟨hsound, hwar, hsettled'⟩ :=
      hspilled.setOneFactionReputation hentry standing incremental
    have hown : spilled.1.stateOf entry = some state := hstate
    obtain ⟨hlist, -⟩ := hspilled.state_of_entry hentry hown
    exact ⟨hsound.sendState, hwar.view hlist (ReputationMgr.view_sendState _ entry),
      hsettled.trans (hsettled'.trans fun other _ _ =>
        Or.inr (ReputationMgr.view_sendState _ other))⟩

end Sound

end HungerGames.Reputation
