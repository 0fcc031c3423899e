/-
# Threat lists

A creature hates units: for each there is a reference with the threat, in one of two containers of
the creature's threat manager.  Threat for a unit goes in part to whom it is redirected, and whoever
owns or charms the unit is hated too, with no threat; so adding threat comes back to itself, from a
unit to its owner, and to the owner of that.

References are pointers, so that one is found in a container by what it points to.  Threat is
rational.  What the code asks of the units is given with each operation.  Packets are left out, and
so is the time of the next one.  The calls from unit to owner are counted: `none` is that there
were not enough of them.
-/
import Mathlib.Algebra.Order.Field.Rat

namespace HungerGames.Combat

/-! ## 1. References and containers -/

abbrev ObjectGuid := ℕ

abbrev RefId := ℕ

/-- `isValid` is that it is linked to its unit. -/
structure HostileReference where
  unitGuid : ObjectGuid
  isValid : Bool
  threat : ℚ
  tempThreatModifier : ℚ
  online : Bool
  accessible : Bool

/-- `refs` are the references there are. -/
structure ThreatManager where
  owner : ObjectGuid
  refs : RefId → Option HostileReference
  nextRef : RefId
  threatContainer : List RefId
  dirty : Bool
  threatOfflineContainer : List RefId
  currentVictim : Option RefId

/-- What an operation sees of the units, and of the owner of the list. -/
structure Units where
  charmerOrOwner : ObjectGuid → Option ObjectGuid
  redirectThreatPercent : ObjectGuid → ℕ
  redirectThreatTarget : ObjectGuid → Option ObjectGuid
  /-- Of a unit with `SPELL_AURA_MOD_THREAT`, by school. -/
  threatModifier : ObjectGuid → Option (ℕ → ℚ)
  isFound : ObjectGuid → Bool
  isAlive : ObjectGuid → Bool
  /-- A player who is a game master. -/
  isGameMaster : ObjectGuid → Bool
  isInFlight : ObjectGuid → Bool
  isInMap : ObjectGuid → Bool
  inSamePhase : ObjectGuid → Bool
  isInAccessiblePlace : ObjectGuid → Bool
  isWithinCombatRange : ObjectGuid → Bool
  isWithinMeleeRange : ObjectGuid → Bool
  /-- Immune to damage, or with an aura that damage would break. -/
  isSecondChoice : ObjectGuid → Bool
  canCreatureAttack : ObjectGuid → Bool

/-- Of a spell and of what changes its threat. -/
structure ThreatSpell where
  pctMod : ℚ
  isEnergize : Bool
  noThreat : Bool
  applySpellMod : ℚ → ℚ

def calculatePct (base : ℚ) (pct : ℤ) : ℚ := base * pct / 100

def Units.applyTotalThreatModifier (u : Units) (unit : ObjectGuid) (threat : ℚ) (school : ℕ) : ℚ :=
  match u.threatModifier unit with
  | none => threat
  | some modifier => if threat < 0 then threat else threat * modifier school

/-- The threat a spell, or none, makes of what it does. -/
def Units.calcThreat (u : Units) (hatedUnit : ObjectGuid) (threat : ℚ) (school : ℕ) :
    Option ThreatSpell → ℚ
  | none => u.applyTotalThreatModifier hatedUnit threat school
  | some spell =>
    if spell.isEnergize then threat * spell.pctMod
    else u.applyTotalThreatModifier hatedUnit (spell.applySpellMod (threat * spell.pctMod)) school

/-- Not to self, a game master or the dead, from elsewhere, or for a spell without threat. -/
def Units.isValidProcess (u : Units) (hatedUnit hatingUnit : ObjectGuid)
    (spell : Option ThreatSpell) : Bool :=
  hatedUnit ≠ hatingUnit ∧ ¬ u.isGameMaster hatedUnit ∧ u.isAlive hatedUnit ∧ u.isAlive hatingUnit ∧
    u.isInMap hatedUnit ∧ u.inSamePhase hatedUnit ∧ ¬ spell.any ThreatSpell.noThreat

namespace ThreatManager

variable (m : ThreatManager) (u : Units)

def modifyRef (ref : RefId) (change : HostileReference → HostileReference) : ThreatManager :=
  { m with refs := fun other => if other = ref then (m.refs ref).map change else m.refs other }

def isOnline (ref : RefId) : Bool := (m.refs ref).any HostileReference.online

def getThreat (ref : RefId) : ℚ := ((m.refs ref).map HostileReference.threat).getD 0

def getTempThreatModifier (ref : RefId) : ℚ :=
  ((m.refs ref).map HostileReference.tempThreatModifier).getD 0

/-- The unit of a reference that is linked. -/
def getTarget (ref : RefId) : Option ObjectGuid :=
  (m.refs ref).bind fun r => if r.isValid then some r.unitGuid else none

/-- The reference for a unit in a container. -/
def getReferenceByTarget (container : List RefId) (victim : ObjectGuid) : Option RefId :=
  container.find? fun ref => (m.refs ref).any fun r => r.unitGuid = victim

/-! ## 2. The status of a reference -/

def setCurrentVictim (ref : Option RefId) : ThreatManager := { m with currentVictim := ref }

/-- `processThreatEvent` of `UEV_THREAT_REF_THREAT_CHANGE` -/
def threatChange (ref : RefId) (value : ℚ) : ThreatManager :=
  if m.currentVictim = some ref ∧ value < 0 ∨ m.currentVictim ≠ some ref ∧ 0 < value then
    { m with dirty := true }
  else m

/-- A victim that goes is none any more. -/
def forgetVictim (ref : RefId) : ThreatManager :=
  if m.currentVictim = some ref then { m.setCurrentVictim none with dirty := true } else m

/-- `processThreatEvent` of `UEV_THREAT_REF_ONLINE_STATUS` -/
def onlineStatus (ref : RefId) : ThreatManager :=
  if m.isOnline ref then
    { m with
      dirty := m.dirty || m.currentVictim.any fun victim => 11 / 10 * m.getThreat victim < m.getThreat ref
      threatContainer := m.threatContainer ++ [ref]
      threatOfflineContainer := m.threatOfflineContainer.filter (· ≠ ref) }
  else
    { m.forgetVictim ref with
      threatContainer := m.threatContainer.filter (· ≠ ref)
      threatOfflineContainer := m.threatOfflineContainer ++ [ref] }

/-- `processThreatEvent` of `UEV_THREAT_REF_REMOVE_FROM_LIST` -/
def removeFromList (ref : RefId) : ThreatManager :=
  if m.isOnline ref then
    { m.forgetVictim ref with threatContainer := m.threatContainer.filter (· ≠ ref) }
  else
    { m.forgetVictim ref with threatOfflineContainer := m.threatOfflineContainer.filter (· ≠ ref) }

def setAccessibleState (ref : RefId) (isAccessible : Bool) : ThreatManager :=
  m.modifyRef ref fun r => { r with accessible := isAccessible }

def setOnlineOfflineState (ref : RefId) (isOnline : Bool) : ThreatManager :=
  if m.isOnline ref ≠ isOnline then
    (m.modifyRef ref fun r =>
      { r with online := isOnline, accessible := r.accessible && isOnline }).onlineStatus ref
  else m

/-- A reference that is not linked is linked again, when its unit is found. -/
def relink (ref : RefId) : ThreatManager :=
  m.modifyRef ref fun r => { r with isValid := r.isValid || u.isFound r.unitGuid }

def updateOnlineStatus (ref : RefId) : ThreatManager :=
  let m := m.relink u ref
  let reached : Bool := (m.getTarget ref).any fun target =>
    ¬ u.isGameMaster target ∧ ¬ u.isInFlight target ∧ u.isInMap target ∧ u.inSamePhase target
  let accessible := reached && (m.getTarget ref).any u.isInAccessiblePlace
  let online := reached && ((m.getTarget ref).any u.isInAccessiblePlace ||
    (m.getTarget ref).any u.isWithinCombatRange)
  (m.setAccessibleState ref accessible).setOnlineOfflineState ref online

/-! ## 3. Threat -/

/-- A new reference, which is online. -/
def newReference (victim : ObjectGuid) : ThreatManager :=
  { m with
    refs := fun other => if other = m.nextRef then some ⟨victim, true, 0, 0, true, true⟩
      else m.refs other
    nextRef := m.nextRef + 1
    threatContainer := m.threatContainer ++ [m.nextRef] }

section recursion

/-! `add` is `HostileReference::addThreat`, of which there are a number of calls left. -/

variable (add : ThreatManager → RefId → ℚ → Option ThreatManager)

/-- `_addThreat` -/
def addThreatTo (victim : ObjectGuid) (threat : ℚ) : Option ThreatManager :=
  match m.getReferenceByTarget m.threatContainer victim with
  | some ref => add m ref threat
  | none =>
    match m.getReferenceByTarget m.threatOfflineContainer victim with
    | some ref => add m ref threat
    | none =>
      (add (m.newReference victim) m.nextRef threat).map fun after =>
        if u.isGameMaster victim then after.setOnlineOfflineState m.nextRef false else after

def doAddThreat (victim : ObjectGuid) (threat : ℚ) : Option ThreatManager :=
  if 0 < threat ∧ u.redirectThreatPercent victim ≠ 0 then
    match u.redirectThreatTarget victim with
    | some redirectTarget =>
      let redirectThreat := calculatePct threat (u.redirectThreatPercent victim)
      (m.addThreatTo u add redirectTarget redirectThreat).bind fun m =>
        m.addThreatTo u add victim (threat - redirectThreat)
    | none => m.addThreatTo u add victim threat
  else m.addThreatTo u add victim threat

def addThreat (victim : ObjectGuid) (threat : ℚ) (school : ℕ) (spell : Option ThreatSpell) :
    Option ThreatManager :=
  if u.isValidProcess victim m.owner spell then
    m.doAddThreat u add victim (u.calcThreat victim threat school spell)
  else some m

end recursion

/-- `HostileReference::addThreat`: the owner of the unit is hated too. -/
def refAddThreat (u : Units) : ℕ → ThreatManager → RefId → ℚ → Option ThreatManager
  | 0, _, _, _ => none
  | calls + 1, m, ref, modThreat =>
    let m := m.modifyRef ref fun r => { r with threat := r.threat + modThreat }
    let m := if m.isOnline ref then m else m.updateOnlineStatus u ref
    let m := if modThreat ≠ 0 then m.threatChange ref modThreat else m
    match (m.getTarget ref).bind u.charmerOrOwner with
    | some victimOwner =>
      if 0 ≤ modThreat ∧ u.isAlive victimOwner then
        m.addThreat u (refAddThreat u calls) victimOwner 0 0 none
      else some m
    | none => some m

variable (calls : ℕ)

def addThreatPercent (ref : RefId) (percent : ℤ) : Option ThreatManager :=
  m.refAddThreat u calls ref (calculatePct (m.getThreat ref) percent)

def modifyThreatPercent (victim : ObjectGuid) (percent : ℤ) : Option ThreatManager :=
  match m.getReferenceByTarget m.threatContainer victim with
  | some ref => m.addThreatPercent u calls ref percent
  | none => some m

/-! ## 4. Taunts -/

def setTempThreatModifier (ref : RefId) (threat : ℚ) : ThreatManager :=
  m.modifyRef ref fun r => { r with tempThreatModifier := threat }

def addTempThreat (ref : RefId) (threat : ℚ) : Option ThreatManager :=
  if threat ≠ 0 then (m.setTempThreatModifier ref threat).refAddThreat u calls ref threat
  else some (m.setTempThreatModifier ref threat)

def resetTempThreat (ref : RefId) : Option ThreatManager :=
  if m.getTempThreatModifier ref ≠ 0 then
    (m.refAddThreat u calls ref (-m.getTempThreatModifier ref)).map fun m =>
      m.setTempThreatModifier ref 0
  else some m

def tauntApply (taunter : ObjectGuid) : Option ThreatManager :=
  match m.currentVictim, m.getReferenceByTarget m.threatContainer taunter with
  | some victim, some ref =>
    if m.getThreat ref < m.getThreat victim ∧ m.getTempThreatModifier ref = 0 then
      m.addTempThreat u calls ref (m.getThreat victim - m.getThreat ref)
    else some m
  | _, _ => some m

def tauntFadeOut (taunter : ObjectGuid) : Option ThreatManager :=
  match m.getReferenceByTarget m.threatContainer taunter with
  | some ref => m.resetTempThreat u calls ref
  | none => some m

/-- The effect of a taunt: the taunter becomes the victim. -/
def forceVictim (taunter : ObjectGuid) : ThreatManager :=
  match m.getReferenceByTarget m.threatContainer taunter with
  | some ref => m.setCurrentVictim (some ref)
  | none => m

/-! ## 5. The next victim -/

/-- The list is sorted when it is dirty. -/
def update : ThreatManager :=
  { m with
    threatContainer := if m.dirty ∧ 1 < m.threatContainer.length then
      m.threatContainer.mergeSort fun a b => m.getThreat b ≤ m.getThreat a else m.threatContainer
    dirty := false }

/-- The loop of `selectNextVictim` from a reference on.  It ends without a result where the last
reference is a second choice: then from the begin on all are looked at alike. -/
def scanVictims (noPriorityTargetFound : Bool) : Option RefId → List RefId →
    Except (Option RefId) (Option RefId)
  | _, [] => .ok none
  | currentVictim, ref :: rest =>
    if noPriorityTargetFound = false ∧ (m.getTarget ref).any u.isSecondChoice then
      if rest = [] then .error currentVictim
      else scanVictims noPriorityTargetFound
        (if currentVictim = some ref then none else currentVictim) rest
    else if (m.getTarget ref).any u.canCreatureAttack then
      match currentVictim with
      | none => .ok (some ref)
      | some victim =>
        if victim = ref ∨ m.getThreat ref ≤ 11 / 10 * m.getThreat victim then
          .ok (some (if victim ≠ ref ∧ (m.getTarget victim).any u.canCreatureAttack then victim
            else ref))
        else if 13 / 10 * m.getThreat victim < m.getThreat ref ∨
            11 / 10 * m.getThreat victim < m.getThreat ref ∧
              (m.getTarget ref).any u.isWithinMeleeRange then .ok (some ref)
        else scanVictims noPriorityTargetFound currentVictim rest
    else scanVictims noPriorityTargetFound currentVictim rest

def selectNextVictim : Option RefId :=
  match m.scanVictims u false m.currentVictim m.threatContainer with
  | .ok next => next
  | .error currentVictim =>
    match m.scanVictims u true currentVictim m.threatContainer with
    | .ok next => next
    | .error _ => none

def getHostilTarget : ThreatManager :=
  let m := m.update
  m.setCurrentVictim (m.selectNextVictim u)

/-! ## 6. References that go -/

/-- The link of a reference is cut from the side of its unit. -/
def invalidate (ref : RefId) : ThreatManager :=
  (m.setOnlineOfflineState ref false).modifyRef ref fun r => { r with isValid := false }

/-- `removeReference`, and the reference is deleted. -/
def removeReference (ref : RefId) : ThreatManager :=
  let m := (m.invalidate ref).removeFromList ref
  { m with refs := fun other => if other = ref then none else m.refs other }

def clearReferences : ThreatManager :=
  { m with
    refs := fun ref => if ref ∈ m.threatContainer ++ m.threatOfflineContainer then none
      else m.refs ref
    threatContainer := []
    threatOfflineContainer := []
    currentVictim := none }

/-- The reference of the list that a unit knows of, by its own list of those that hate it. -/
def hatedBy (target : ObjectGuid) : Option RefId :=
  (m.threatContainer ++ m.threatOfflineContainer).find? fun ref => m.getTarget ref = some target

end ThreatManager

/-! ## 7. Operations -/

/-- Those with a target come through the target's `HostileRefManager`. -/
inductive ThreatOp where
  | addThreat (victim : ObjectGuid) (threat : ℚ) (school : ℕ) (spell : Option ThreatSpell)
  | threatAssist (victim : ObjectGuid) (threat : ℚ) (spell : Option ThreatSpell)
  | modifyThreatPercent (victim : ObjectGuid) (percent : ℤ)
  | addThreatPercent (target : ObjectGuid) (percent : ℤ)
  | setOnlineOfflineState (target : ObjectGuid) (isOnline : Bool)
  | updateThreatTables (target : ObjectGuid)
  | tauntApply (taunter : ObjectGuid)
  | tauntFadeOut (taunter : ObjectGuid)
  | addTempThreat (target : ObjectGuid) (threat : ℚ) (apply : Bool)
  | forceVictim (taunter : ObjectGuid)
  | getHostilTarget
  | invalidate (target : ObjectGuid)
  | removeReference (target : ObjectGuid)
  | clearReferences

namespace ThreatManager

/-- What is done to the reference of a target, if there is one. -/
def ofTarget (m : ThreatManager) (target : ObjectGuid)
    (f : ThreatManager → RefId → Option ThreatManager) : Option ThreatManager :=
  match m.hatedBy target with
  | some ref => f m ref
  | none => some m

/-- An operation, with so many calls from unit to owner. -/
def handle (m : ThreatManager) (u : Units) (calls : ℕ) : ThreatOp → Option ThreatManager
  | .addThreat victim threat school spell =>
    m.addThreat u (refAddThreat u calls) victim threat school spell
  | .threatAssist victim threat spell =>
    if u.isValidProcess victim m.owner spell then m.doAddThreat u (refAddThreat u calls) victim threat
    else some m
  | .modifyThreatPercent victim percent => m.modifyThreatPercent u calls victim percent
  | .addThreatPercent target percent =>
    m.ofTarget target fun m ref => m.addThreatPercent u calls ref percent
  | .setOnlineOfflineState target isOnline =>
    m.ofTarget target fun m ref => some (m.setOnlineOfflineState ref isOnline)
  | .updateThreatTables target => m.ofTarget target fun m ref => some (m.updateOnlineStatus u ref)
  | .tauntApply taunter => m.tauntApply u calls taunter
  | .tauntFadeOut taunter => m.tauntFadeOut u calls taunter
  | .addTempThreat target threat apply => m.ofTarget target fun m ref =>
    if apply then
      if m.getTempThreatModifier ref = 0 then m.addTempThreat u calls ref threat else some m
    else m.resetTempThreat u calls ref
  | .forceVictim taunter => some (m.forceVictim taunter)
  | .getHostilTarget => some (m.getHostilTarget u)
  | .invalidate target => m.ofTarget target fun m ref => some (m.invalidate ref)
  | .removeReference target => m.ofTarget target fun m ref => some (m.removeReference ref)
  | .clearReferences => some m.clearReferences

/-- A manager without references. -/
def start (owner : ObjectGuid) : ThreatManager := ⟨owner, fun _ => none, 0, [], false, [], none⟩

/-- The states a manager can be in: the units may be others at each operation. -/
inductive Reaches (owner : ObjectGuid) : ThreatManager → Prop
  | start : Reaches owner (start owner)
  | handle {m m' : ThreatManager} {u : Units} {calls : ℕ} {op : ThreatOp} :
    Reaches owner m → m.handle u calls op = some m' → Reaches owner m'

end ThreatManager

end HungerGames.Combat
