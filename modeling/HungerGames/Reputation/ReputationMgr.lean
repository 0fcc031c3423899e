/-
# The reputations of a player

A player has a state with each faction that can be in his list: a standing, which counts from
the base reputation his race and class have there, and flags.  The manager counts the factions
that are visible and those that hold him honored, revered and exalted, by differences.

Reputations are set with clamping after 32-bit sums, and spill over to other factions; what is
saved is loaded by applying the saved flags through the same setters that players use.

The factions are those of a client file, and of the arithmetic of floats only the operations are
named: `FloatOps`.
-/
import HungerGames.System.Run
import HungerGames.System.SortedMap
import Mathlib.Data.BitVec
import Mathlib.Algebra.Order.Ring.Int

namespace HungerGames.Reputation

open HungerGames.System

/-! ## 1. Ranks and flags -/

abbrev ReputationRank : Type := ℕ

def REP_HATED : ReputationRank := 0
def REP_HOSTILE : ReputationRank := 1
def REP_HONORED : ReputationRank := 5
def REP_REVERED : ReputationRank := 6
def REP_EXALTED : ReputationRank := 7

def Reputation_Cap : ℤ := 42999
def Reputation_Bottom : ℤ := -42000

/-- The ranks from the highest on, with their `PointsInRank`. -/
def pointsInRank : List (ReputationRank × ℤ) :=
  [(7, 1000), (6, 21000), (5, 12000), (4, 6000), (3, 3000), (2, 3000), (1, 3000), (0, 36000)]

def rankFrom (standing : ℤ) : ℤ → List (ReputationRank × ℤ) → ReputationRank
  | _, [] => REP_HATED
  | limit, (rank, points) :: rest =>
    if limit - points ≤ standing then rank else rankFrom standing (limit - points) rest

def reputationToRank (standing : ℤ) : ReputationRank :=
  rankFrom standing (Reputation_Cap + 1) pointsInRank

/-- The eight bits of `FactionState::Flags`, from the lowest on. -/
structure FactionFlags where
  visible : Bool
  atWar : Bool
  hidden : Bool
  invisibleForced : Bool
  peaceForced : Bool
  inactive : Bool
  rival : Bool
  special : Bool
  deriving DecidableEq, Repr

namespace FactionFlags

/-- The low eight bits of a number. -/
def ofNat (n : ℕ) : FactionFlags :=
  ⟨n.testBit 0, n.testBit 1, n.testBit 2, n.testBit 3, n.testBit 4, n.testBit 5, n.testBit 6,
    n.testBit 7⟩

def toNat (flags : FactionFlags) : ℕ :=
  flags.visible.toNat + 2 * (flags.atWar.toNat + 2 * (flags.hidden.toNat +
    2 * (flags.invisibleForced.toNat + 2 * (flags.peaceForced.toNat +
      2 * (flags.inactive.toNat + 2 * (flags.rival.toNat + 2 * flags.special.toNat))))))

/-- `FACTION_FLAG_INVISIBLE_FORCED|FACTION_FLAG_HIDDEN`. -/
def unlisted (flags : FactionFlags) : Bool := flags.invisibleForced || flags.hidden

end FactionFlags

structure FactionState where
  id : ℕ
  reputationListID : ℕ
  standing : ℤ
  flags : FactionFlags
  needSend : Bool
  needSave : Bool
  deriving DecidableEq, Repr

/-! ## 2. Factions, rates and the player -/

/-- What a faction thinks of the players of some races and classes. -/
structure BaseReputation where
  raceMask : BitVec 32
  classMask : BitVec 32
  value : ℤ
  flags : ℕ

structure FactionEntry (φ : Type) where
  id : ℕ
  reputationListID : ℤ
  bases : Fin 4 → BaseReputation
  team : ℕ
  spilloverRateIn : φ
  spilloverRateOut : φ
  spilloverMaxRankIn : ReputationRank

def FactionEntry.canHaveReputation {φ : Type} (entry : FactionEntry φ) : Bool :=
  0 ≤ entry.reputationListID

/-- The key of a faction's state: the 32 bits of the list id. -/
def FactionEntry.key {φ : Type} (entry : FactionEntry φ) : ℕ :=
  (entry.reputationListID % 2 ^ 32).toNat

/-- The factions of the client's file: each has its id and its place in the reputation list,
which has 128 places, and base reputations are reputations. -/
structure FactionStore (φ : Type) where
  rows : List (FactionEntry φ)
  ids : (rows.map FactionEntry.id).Nodup
  id_lt : ∀ entry ∈ rows, entry.id < 2 ^ 16
  places : ((rows.filter FactionEntry.canHaveReputation).map FactionEntry.reputationListID).Nodup
  place_lt : ∀ entry ∈ rows, entry.reputationListID < 128 ∧ -1 ≤ entry.reputationListID
  base_range : ∀ entry ∈ rows, ∀ i, Reputation_Bottom ≤ (entry.bases i).value ∧
    (entry.bases i).value ≤ Reputation_Cap

namespace FactionStore

variable {φ : Type}

def lookupEntry (store : FactionStore φ) (id : ℕ) : Option (FactionEntry φ) :=
  store.rows.find? fun entry => entry.id = id

/-- `GetFactionTeamList`. -/
def getFactionTeamList (store : FactionStore φ) (faction : ℕ) : Option (List ℕ) :=
  let members := (store.rows.filter fun entry => entry.team ≠ 0 ∧ entry.team = faction).map
    FactionEntry.id
  if members.isEmpty then none else some members

end FactionStore

/-- A slot of `reputation_spillover_template`. -/
structure SpilloverSlot (φ : Type) where
  faction : ℕ
  rate : φ
  rank : ReputationRank

/-- What is done with floats: `gain` is the rate of `RATE_REPUTATION_GAIN` with its rounding,
`scale` a standing times a rate as an int32. -/
structure FloatOps (φ : Type) where
  ofInt : ℤ → φ
  mul : φ → φ → φ
  isZero : φ → Bool
  toInt32 : φ → ℤ
  gain : ℤ → ℤ

/-- What the manager of a player works with.  `onReputationChange` is what the scripts make of
a standing. -/
structure Realm (φ : Type) where
  ops : FloatOps φ
  factions : FactionStore φ
  spillover : ℕ → Option (List (SpilloverSlot φ))
  onReputationChange : ℕ → ℤ → Bool → ℤ
  raceMask : BitVec 32
  classMask : BitVec 32

/-- A sum of int32 numbers. -/
def int32 (n : ℤ) : ℤ := n.bmod (2 ^ 32)

namespace Realm

variable {φ : Type}

/-- The base reputation is for the player. -/
def baseFits (realm : Realm φ) (base : BaseReputation) : Bool :=
  (base.raceMask &&& realm.raceMask != 0 || base.raceMask == 0 && base.classMask != 0) &&
    (base.classMask &&& realm.classMask != 0 || base.classMask == 0)

def base (realm : Realm φ) (entry : FactionEntry φ) : Option BaseReputation :=
  ((List.finRange 4).map entry.bases).find? realm.baseFits

def getBaseReputation (realm : Realm φ) (entry : FactionEntry φ) : ℤ :=
  ((realm.base entry).map BaseReputation.value).getD 0

/-- `GetDefaultStateFlags`, as the flags of a state. -/
def getDefaultStateFlags (realm : Realm φ) (entry : FactionEntry φ) : FactionFlags :=
  FactionFlags.ofNat (((realm.base entry).map BaseReputation.flags).getD 0)

end Realm

/-! ## 3. One state -/

namespace FactionState

/-- A change of the flags is sent and saved. -/
def changed (state : FactionState) (flags : FactionFlags) : FactionState :=
  { state with flags := flags, needSend := true, needSave := true }

/-- `SetVisible` does something. -/
def becomesVisible (state : FactionState) : Bool :=
  !(state.flags.unlisted && !state.flags.special) && !state.flags.visible

def setVisible (state : FactionState) : FactionState :=
  if state.becomesVisible then state.changed { state.flags with visible := true } else state

def setAtWar (state : FactionState) (atWar : Bool) : FactionState :=
  if atWar && state.flags.peaceForced then state
  else if state.flags.atWar == atWar then state
  else state.changed { state.flags with atWar := atWar }

def setInactive (state : FactionState) (inactive : Bool) : FactionState :=
  if inactive && (state.flags.unlisted || !state.flags.visible) then state
  else if state.flags.inactive == inactive then state
  else state.changed { state.flags with inactive := inactive }

end FactionState

/-! ## 4. The manager -/

/-- The counters are of eight bits. -/
structure ReputationMgr where
  factions : SortedMap ℕ FactionState
  visibleFactionCount : ℕ
  honoredFactionCount : ℕ
  reveredFactionCount : ℕ
  exaltedFactionCount : ℕ
  sendFactionIncreased : Bool

/-- `++` of a counter, when it is due. -/
def plusIf (due : Bool) (count : ℕ) : ℕ := if due then (count + 1) % 256 else count

/-- `--` of a counter, when it is due. -/
def minusIf (due : Bool) (count : ℕ) : ℕ := if due then (count + 255) % 256 else count

namespace ReputationMgr

variable {φ : Type}

def updateRankCounters (mgr : ReputationMgr) (oldRank newRank : ReputationRank) : ReputationMgr :=
  { mgr with
    exaltedFactionCount :=
      plusIf (REP_EXALTED ≤ newRank) (minusIf (REP_EXALTED ≤ oldRank) mgr.exaltedFactionCount)
    reveredFactionCount :=
      plusIf (REP_REVERED ≤ newRank) (minusIf (REP_REVERED ≤ oldRank) mgr.reveredFactionCount)
    honoredFactionCount :=
      plusIf (REP_HONORED ≤ newRank) (minusIf (REP_HONORED ≤ oldRank) mgr.honoredFactionCount) }

/-- A state is put in its place; it may have become visible. -/
def put (mgr : ReputationMgr) (key : ℕ) (state : FactionState) (visible : Bool) : ReputationMgr :=
  { mgr with
    factions := mgr.factions.insert key state
    visibleFactionCount := plusIf visible mgr.visibleFactionCount }

def getReputation (realm : Realm φ) (mgr : ReputationMgr) (entry : FactionEntry φ) : ℤ :=
  if entry.canHaveReputation then
    match mgr.factions.lookup entry.key with
    | none => 0
    | some state => int32 (realm.getBaseReputation entry + state.standing)
  else 0

/-- `GetRank`, also of a faction that does not exist. -/
def getRank (realm : Realm φ) (mgr : ReputationMgr) (entry : Option (FactionEntry φ)) :
    ReputationRank :=
  reputationToRank ((entry.map (mgr.getReputation realm)).getD 0)

/-- The state a faction begins with. -/
def newFaction (realm : Realm φ) (entry : FactionEntry φ) : FactionState where
  id := entry.id
  reputationListID := entry.key
  standing := 0
  flags := realm.getDefaultStateFlags entry
  needSend := true
  needSave := true

def initializeOne (realm : Realm φ) (mgr : ReputationMgr) (entry : FactionEntry φ) :
    ReputationMgr :=
  if entry.canHaveReputation then
    let state := newFaction realm entry
    (mgr.put state.reputationListID state state.flags.visible).updateRankCounters REP_HOSTILE
      (reputationToRank (realm.getBaseReputation entry))
  else mgr

def empty : ReputationMgr := ⟨SortedMap.empty, 0, 0, 0, 0, false⟩

def initializeFactions (realm : Realm φ) : ReputationMgr :=
  realm.factions.rows.foldl (initializeOne realm) empty

/-- The reputation a faction is given: added when it is `incremental`, and clamped. -/
def newStanding (realm : Realm φ) (entry : FactionEntry φ) (state : FactionState) (standing : ℤ)
    (incremental : Bool) : ℤ :=
  let standing :=
    if incremental then
      int32 (realm.ops.gain standing + int32 (state.standing + realm.getBaseReputation entry))
    else standing
  if Reputation_Cap < standing then Reputation_Cap
  else if standing < Reputation_Bottom then Reputation_Bottom
  else standing

def setOneFactionReputation (realm : Realm φ) (mgr : ReputationMgr) (entry : FactionEntry φ)
    (standing : ℤ) (incremental : Bool) : ReputationMgr × Bool :=
  match mgr.factions.lookup entry.key with
  | none => (mgr, false)
  | some state =>
    let baseRep := realm.getBaseReputation entry
    let standing := newStanding realm entry state standing incremental
    let oldRank := reputationToRank (int32 (state.standing + baseRep))
    let newRank := reputationToRank standing
    let moved :=
      { state with standing := int32 (standing - baseRep), needSend := true, needSave := true }
    let seen := moved.setVisible
    let warring := if newRank ≤ REP_HOSTILE then seen.setAtWar true else seen
    let mgr := mgr.put entry.key warring moved.becomesVisible
    let mgr := { mgr with
      sendFactionIncreased := mgr.sendFactionIncreased || decide (oldRank < newRank) }
    (mgr.updateRankCounters oldRank newRank, true)

/-- The factions of a template. -/
def spillTemplate (realm : Realm φ) (standing : ℤ) (incremental : Bool) (mgr : ReputationMgr)
    (slot : SpilloverSlot φ) : ReputationMgr :=
  if slot.faction ≠ 0 ∧ mgr.getRank realm (realm.factions.lookupEntry slot.faction) ≤ slot.rank then
    match realm.factions.lookupEntry slot.faction with
    | none => mgr
    | some entry =>
      let spilloverRep := realm.ops.toInt32 (realm.ops.mul (realm.ops.ofInt standing) slot.rate)
      (mgr.setOneFactionReputation realm entry spilloverRep incremental).1
  else mgr

/-- A faction of the list of a team. -/
def spillTeam (realm : Realm φ) (own : ℕ) (spillOverRepOut : φ) (incremental : Bool)
    (mgr : ReputationMgr × Bool) (id : ℕ) : ReputationMgr × Bool :=
  match realm.factions.lookupEntry id with
  | none => mgr
  | some entry =>
    if entry.id = own ∨ entry.spilloverMaxRankIn < mgr.1.getRank realm (some entry) then mgr
    else
      let spilloverRep := realm.ops.toInt32 (realm.ops.mul spillOverRepOut entry.spilloverRateIn)
      if spilloverRep ≠ 0 ∨ !incremental then
        mgr.1.setOneFactionReputation realm entry spilloverRep incremental
      else mgr

/-- The spillover of the client's file: to the factions of the faction's own team, or to the
parent that keeps a standing of its own, or to the sister factions. -/
def spillEntry (realm : Realm φ) (mgr : ReputationMgr) (entry : FactionEntry φ) (standing : ℤ)
    (incremental : Bool) : ReputationMgr × Bool :=
  let out := realm.ops.ofInt standing
  match realm.factions.getFactionTeamList entry.id with
  | some flist => flist.foldl (spillTeam realm entry.id out incremental) (mgr, false)
  | none =>
    if entry.team ≠ 0 ∧ !realm.ops.isZero entry.spilloverRateOut then
      let out := realm.ops.mul out entry.spilloverRateOut
      match realm.factions.lookupEntry entry.team with
      | none => (mgr, false)
      | some parent =>
        if ((mgr.factions.lookup parent.key).map fun state => state.flags.special).getD false then
          ((mgr.setOneFactionReputation realm parent (realm.ops.toInt32 out) incremental).1, false)
        else
          match realm.factions.getFactionTeamList entry.team with
          | none => (mgr, false)
          | some flist => flist.foldl (spillTeam realm entry.id out incremental) (mgr, false)
    else (mgr, false)

/-- A template of the database overrides the client's file. -/
def spill (realm : Realm φ) (mgr : ReputationMgr) (entry : FactionEntry φ) (standing : ℤ)
    (incremental : Bool) : ReputationMgr × Bool :=
  match realm.spillover entry.id with
  | some slots => (slots.foldl (spillTemplate realm standing incremental) mgr, false)
  | none => mgr.spillEntry realm entry standing incremental

/-- `SendState` of a faction: what was to be sent has been. -/
def sendState (mgr : ReputationMgr) : ReputationMgr :=
  { mgr with
    factions := mgr.factions.withValues
      (mgr.factions.values.map fun state => { state with needSend := false })
    sendFactionIncreased := false }

def setReputation (realm : Realm φ) (mgr : ReputationMgr) (entry : FactionEntry φ) (standing : ℤ)
    (incremental : Bool) : ReputationMgr × Bool :=
  let standing := realm.onReputationChange entry.id standing incremental
  let spilled := mgr.spill realm entry standing incremental
  match spilled.1.factions.lookup entry.key with
  | none => spilled
  | some _ =>
    let done := spilled.1.setOneFactionReputation realm entry standing incremental
    (done.1.sendState, done.2)

/-- `SetVisible(FactionEntry const*)`. -/
def setVisible (mgr : ReputationMgr) (entry : FactionEntry φ) : ReputationMgr :=
  if entry.reputationListID < 0 then mgr
  else
    match mgr.factions.lookup entry.key with
    | none => mgr
    | some state => mgr.put entry.key state.setVisible state.becomesVisible

/-- `SetVisible(FactionTemplateEntry const*)`, of a template of the faction. -/
def setVisibleTemplate (realm : Realm φ) (mgr : ReputationMgr) (faction : ℕ) : ReputationMgr :=
  if faction = 0 then mgr
  else
    match realm.factions.lookupEntry faction with
    | none => mgr
    | some entry =>
      -- the factions of the opposing team are never shown
      if (entry.bases 1).raceMask &&& realm.raceMask != 0 &&
          (entry.bases 1).value == Reputation_Bottom then mgr
      else mgr.setVisible entry

def setAtWar (mgr : ReputationMgr) (repListID : ℕ) (on : Bool) : ReputationMgr :=
  match mgr.factions.lookup repListID with
  | none => mgr
  | some state =>
    if state.flags.unlisted then mgr else mgr.put repListID (state.setAtWar on) false

def setInactive (mgr : ReputationMgr) (repListID : ℕ) (on : Bool) : ReputationMgr :=
  match mgr.factions.lookup repListID with
  | none => mgr
  | some state => mgr.put repListID (state.setInactive on) false

/-! ## 5. The database -/

/-- A row of `character_reputation`, under the id of its faction. -/
structure Row where
  standing : ℤ
  flags : ℕ
  deriving DecidableEq, Repr

/-- What a row makes of the state of its faction, with the flags in the row's order. -/
def loadedState (realm : Realm φ) (entry : FactionEntry φ) (state : FactionState) (row : Row) :
    FactionState :=
  let standing := row.standing
  let placed := { state with standing := standing }
  let seen := if row.flags.testBit 0 then placed.setVisible else placed
  let idle := if row.flags.testBit 5 then seen.setInactive true else seen
  let warring :=
    if row.flags.testBit 1 then idle.setAtWar true
    else if idle.flags.visible then idle.setAtWar false
    else idle
  let hostile :=
    if reputationToRank (int32 (realm.getBaseReputation entry + standing)) ≤ REP_HOSTILE then
      warring.setAtWar true
    else warring
  if hostile.flags.toNat = row.flags then { hostile with needSend := false, needSave := false }
  else hostile

def loadRow (realm : Realm φ) (mgr : ReputationMgr) (id : ℕ) (row : Row) : ReputationMgr :=
  match realm.factions.lookupEntry id with
  | none => mgr
  | some entry =>
    if entry.canHaveReputation then
      match mgr.factions.lookup entry.key with
      | none => mgr
      | some state =>
        let baseRep := realm.getBaseReputation entry
        let shown := row.flags.testBit 0 && { state with standing := row.standing }.becomesVisible
        (mgr.put entry.key (loadedState realm entry state row) shown).updateRankCounters
          (reputationToRank baseRep) (reputationToRank (int32 (baseRep + row.standing)))
    else mgr

def loadFromDB (realm : Realm φ) (db : SortedMap ℕ Row) : ReputationMgr :=
  db.entries.foldl (fun mgr entry => mgr.loadRow realm entry.1 entry.2) (initializeFactions realm)

/-- The row of a state. -/
def savedRow (state : FactionState) : Row := ⟨state.standing, state.flags.toNat⟩

def saveOne (db : SortedMap ℕ Row) (state : FactionState) : SortedMap ℕ Row :=
  if state.needSave then db.insert (state.id % 2 ^ 16) (savedRow state) else db

/-- The rows after `SaveToDB`, and the manager with nothing left to save. -/
def saveToDB (mgr : ReputationMgr) (db : SortedMap ℕ Row) : ReputationMgr × SortedMap ℕ Row :=
  ({ mgr with
    factions := mgr.factions.withValues
      (mgr.factions.values.map fun state => { state with needSave := false }) },
    mgr.factions.values.foldl saveOne db)

end ReputationMgr

end HungerGames.Reputation
