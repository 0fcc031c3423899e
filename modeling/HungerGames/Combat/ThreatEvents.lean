/-
# What happens to a threat list

The operations of a threat manager come down to a few events: the threat of a reference changes, a
reference is made, goes or comes online, a victim is chosen.  `handle_events` says that what an
operation does is a number of events, so that what holds after any events holds in every state a
manager can be in (`events_of_reaches`).
-/
import HungerGames.Combat.Threat
import HungerGames.System.Run

namespace HungerGames.Combat

open HungerGames.System

inductive ThreatEvent where
  | changeThreat (ref : RefId) (modThreat : ℚ)
  | newReference (victim : ObjectGuid)
  | updateOnlineStatus (ref : RefId)
  | setOnlineOfflineState (ref : RefId) (isOnline : Bool)
  | setTempThreatModifier (ref : RefId) (threat : ℚ)
  | forceVictim (taunter : ObjectGuid)
  | getHostilTarget
  | invalidate (ref : RefId)
  | removeReference (ref : RefId)
  | clearReferences

namespace ThreatManager

variable {m m' m'' : ThreatManager} {u : Units}

/-- What `HostileReference::addThreat` does to the reference itself. -/
def changeThreat (m : ThreatManager) (u : Units) (ref : RefId) (modThreat : ℚ) : ThreatManager :=
  let m := m.modifyRef ref fun r => { r with threat := r.threat + modThreat }
  let m := if m.isOnline ref then m else m.updateOnlineStatus u ref
  if modThreat ≠ 0 then m.threatChange ref modThreat else m

/-- An event, with the units at that time. -/
def event (m : ThreatManager) : Units × ThreatEvent → ThreatManager
  | (u, .changeThreat ref modThreat) => m.changeThreat u ref modThreat
  | (_, .newReference victim) => m.newReference victim
  | (u, .updateOnlineStatus ref) => m.updateOnlineStatus u ref
  | (_, .setOnlineOfflineState ref isOnline) => m.setOnlineOfflineState ref isOnline
  | (_, .setTempThreatModifier ref threat) => m.setTempThreatModifier ref threat
  | (_, .forceVictim taunter) => m.forceVictim taunter
  | (u, .getHostilTarget) => m.getHostilTarget u
  | (_, .invalidate ref) => m.invalidate ref
  | (_, .removeReference ref) => m.removeReference ref
  | (_, .clearReferences) => m.clearReferences

/-- Some events lead from one state to another. -/
def Happens (m m' : ThreatManager) : Prop :=
  ∃ events : List (Units × ThreatEvent), m' = exec event m events

theorem Happens.refl (m : ThreatManager) : Happens m m := ⟨[], rfl⟩

theorem Happens.trans (h : Happens m m') (h' : Happens m' m'') : Happens m m'' := by
  obtain ⟨events, rfl⟩ := h
  obtain ⟨events', rfl⟩ := h'
  exact ⟨events ++ events', (exec_append m events events').symm⟩

theorem Happens.one (m : ThreatManager) (e : Units × ThreatEvent) : Happens m (m.event e) :=
  ⟨[e], rfl⟩

theorem Happens.of_some (h : Happens m m') (heq : some m' = some m'') : Happens m m'' :=
  Option.some.inj heq ▸ h

/-! ## Operations -/

variable {add : ThreatManager → RefId → ℚ → Option ThreatManager}

/-- Adding threat to a reference is a number of events. -/
def AddsByEvents (add : ThreatManager → RefId → ℚ → Option ThreatManager) : Prop :=
  ∀ m ref threat m', add m ref threat = some m' → Happens m m'

section Adding

variable {victim : ObjectGuid} {threat : ℚ}

theorem AddsByEvents.addThreatTo (hadd : AddsByEvents add)
    (hdone : m.addThreatTo u add victim threat = some m') : Happens m m' := by
  unfold ThreatManager.addThreatTo at hdone
  split at hdone
  · exact hadd _ _ _ _ hdone
  · split at hdone
    · exact hadd _ _ _ _ hdone
    · obtain ⟨after, hafter, heq⟩ := Option.map_eq_some_iff.mp hdone
      refine ((Happens.one m (u, .newReference victim)).trans (hadd _ _ _ _ hafter)).trans ?_
      subst heq
      split
      · exact Happens.one after (u, .setOnlineOfflineState m.nextRef false)
      · exact Happens.refl after

theorem AddsByEvents.doAddThreat (hadd : AddsByEvents add)
    (hdone : m.doAddThreat u add victim threat = some m') : Happens m m' := by
  unfold ThreatManager.doAddThreat at hdone
  split at hdone
  · split at hdone
    · obtain ⟨between, hfirst, hsecond⟩ := Option.bind_eq_some_iff.mp hdone
      exact (hadd.addThreatTo hfirst).trans (hadd.addThreatTo hsecond)
    · exact hadd.addThreatTo hdone
  · exact hadd.addThreatTo hdone

theorem AddsByEvents.addThreat (hadd : AddsByEvents add) {school : ℕ} {spell : Option ThreatSpell}
    (hdone : m.addThreat u add victim threat school spell = some m') : Happens m m' := by
  unfold ThreatManager.addThreat at hdone
  split at hdone
  · exact hadd.doAddThreat hdone
  · exact (Happens.refl m).of_some hdone

/-- **Adding threat**, to as many owners as there are. -/
theorem addsByEvents_refAddThreat (u : Units) (calls : ℕ) : AddsByEvents (refAddThreat u calls) := by
  induction calls with
  | zero => exact fun _ _ _ _ h => nomatch h
  | succ calls ih =>
    intro m ref threat m' hdone
    have hown := Happens.one m (u, .changeThreat ref threat)
    rw [refAddThreat] at hdone
    split at hdone
    · split at hdone
      · exact hown.trans (ih.addThreat hdone)
      · exact hown.of_some hdone
    · exact hown.of_some hdone

end Adding

variable {calls : ℕ} {ref : RefId} {threat : ℚ}

theorem happens_modifyThreatPercent {victim : ObjectGuid} {percent : ℤ}
    (hdone : m.modifyThreatPercent u calls victim percent = some m') : Happens m m' := by
  unfold modifyThreatPercent at hdone
  split at hdone
  · exact addsByEvents_refAddThreat u calls _ _ _ _ hdone
  · exact (Happens.refl m).of_some hdone

theorem happens_addTempThreat (hdone : m.addTempThreat u calls ref threat = some m') :
    Happens m m' := by
  have htemp := Happens.one m (u, .setTempThreatModifier ref threat)
  unfold addTempThreat at hdone
  split at hdone
  · exact htemp.trans (addsByEvents_refAddThreat u calls _ _ _ _ hdone)
  · exact htemp.of_some hdone

theorem happens_resetTempThreat (hdone : m.resetTempThreat u calls ref = some m') :
    Happens m m' := by
  unfold resetTempThreat at hdone
  split at hdone
  · obtain ⟨after, hafter, rfl⟩ := Option.map_eq_some_iff.mp hdone
    exact (addsByEvents_refAddThreat u calls _ _ _ _ hafter).trans
      (Happens.one after (u, .setTempThreatModifier ref 0))
  · exact (Happens.refl m).of_some hdone

theorem happens_ofTarget {target : ObjectGuid} {f : ThreatManager → RefId → Option ThreatManager}
    (hdone : m.ofTarget target f = some m')
    (hf : ∀ ref m', f m ref = some m' → Happens m m') : Happens m m' := by
  unfold ofTarget at hdone
  split at hdone
  · exact hf _ _ hdone
  · exact (Happens.refl m).of_some hdone

/-- **An operation is a number of events.** -/
theorem handle_events {op : ThreatOp} (hdone : m.handle u calls op = some m') : Happens m m' := by
  have hone : ∀ e, some (m.event (u, e)) = some m' → Happens m m' := fun e =>
    (Happens.one m (u, e)).of_some
  have hadd := addsByEvents_refAddThreat u calls
  cases op with
  | addThreat victim threat school spell => exact hadd.addThreat hdone
  | threatAssist victim threat spell =>
    simp only [handle] at hdone
    split at hdone
    · exact hadd.doAddThreat hdone
    · exact (Happens.refl m).of_some hdone
  | modifyThreatPercent victim percent => exact happens_modifyThreatPercent hdone
  | addThreatPercent target percent =>
    simp only [handle] at hdone
    exact happens_ofTarget hdone fun ref m' h => hadd _ _ _ _ h
  | setOnlineOfflineState target isOnline =>
    simp only [handle] at hdone
    exact happens_ofTarget hdone fun ref m' h =>
      (Happens.one m (u, .setOnlineOfflineState ref isOnline)).of_some h
  | updateThreatTables target =>
    simp only [handle] at hdone
    exact happens_ofTarget hdone fun ref m' h =>
      (Happens.one m (u, .updateOnlineStatus ref)).of_some h
  | tauntApply taunter =>
    simp only [handle, tauntApply] at hdone
    split at hdone
    · split at hdone
      · exact happens_addTempThreat hdone
      · exact (Happens.refl m).of_some hdone
    · exact (Happens.refl m).of_some hdone
  | tauntFadeOut taunter =>
    simp only [handle, tauntFadeOut] at hdone
    split at hdone
    · exact happens_resetTempThreat hdone
    · exact (Happens.refl m).of_some hdone
  | addTempThreat target threat apply =>
    simp only [handle] at hdone
    refine happens_ofTarget hdone fun ref m' h => ?_
    split at h
    · split at h
      · exact happens_addTempThreat h
      · exact (Happens.refl m).of_some h
    · exact happens_resetTempThreat h
  | forceVictim taunter => exact hone (.forceVictim taunter) hdone
  | getHostilTarget => exact hone .getHostilTarget hdone
  | invalidate target =>
    simp only [handle] at hdone
    exact happens_ofTarget hdone fun ref m' h =>
      (Happens.one m (u, .invalidate ref)).of_some h
  | removeReference target =>
    simp only [handle] at hdone
    exact happens_ofTarget hdone fun ref m' h =>
      (Happens.one m (u, .removeReference ref)).of_some h
  | clearReferences => exact hone .clearReferences hdone

/-- **Every state a manager can be in** is one that events lead to. -/
theorem events_of_reaches {owner : ObjectGuid} (h : Reaches owner m) :
    Happens (start owner) m := by
  induction h with
  | start => exact Happens.refl _
  | handle _ hdone ih => exact ih.trans (handle_events hdone)

end ThreatManager

end HungerGames.Combat
