/-
# The choice of the next victim (`getHostilTarget`)

The list of those who are hated is sorted by threat, but only when it is dirty: when a threat has
changed so that the order might have.  Then the next victim is looked for from the top.  Some units
are a second choice; and the current victim is kept unless another has a tenth more threat, in melee
range, or three tenths more.

The list is left out of order by changes that do not make it dirty: another than the victim loses
threat, or comes online with little more than those in the list.  That matters where the victim is
not attacked any more.  And a victim that is a second choice may be kept, or a second choice taken,
though there are others.  `Orderly` says of an event that it does not come to this, and
`target_choice` that all choices are right if all events are such.
-/
import HungerGames.Combat.ThreatEvents
import HungerGames.Combat.ThreatSafety

namespace HungerGames.Combat

open HungerGames.System

namespace ThreatManager

variable {m m' : ThreatManager} {u : Units} {ref other : RefId}

/-! ## 1. What a choice should be -/

def attackable (m : ThreatManager) (u : Units) (ref : RefId) : Bool :=
  (m.getTarget ref).any u.canCreatureAttack

def secondChoice (m : ThreatManager) (u : Units) (ref : RefId) : Bool :=
  (m.getTarget ref).any u.isSecondChoice

/-- The manager with the list sorted by the threat that there is now. -/
def freshlySorted (m : ThreatManager) : ThreatManager :=
  { m with threatContainer := m.threatContainer.mergeSort fun a b => m.getThreat b ≤ m.getThreat a }

/-- **A choice is right.**  It is that from the sorted list; it is attackable, and a second choice
only if all are; and if there is no victim no other has more threat. -/
structure ChoosesWell (m : ThreatManager) (u : Units) : Prop where
  sorted : (m.getHostilTarget u).currentVictim = m.freshlySorted.selectNextVictim u
  attackable : ∀ next, (m.getHostilTarget u).currentVictim = some next → m.attackable u next = true
  preferred : ∀ next, (m.getHostilTarget u).currentVictim = some next →
    m.secondChoice u next = true → ∀ other ∈ m.threatContainer, m.secondChoice u other = true
  highest : m.currentVictim = none → ∀ other ∈ m.threatContainer, m.attackable u other = true →
    m.secondChoice u other = false ∨ (∀ ref ∈ m.threatContainer, m.secondChoice u ref = true) →
    ∃ next, (m.getHostilTarget u).currentVictim = some next ∧ m.getThreat other ≤ m.getThreat next

/-! ## 2. When it is -/

/-- The victim as the loop has it after some references: none, if it was among them and is a second
choice. -/
def held (m : ThreatManager) (u : Units) (before : List RefId) : Option RefId :=
  match m.currentVictim with
  | none => none
  | some victim => if victim ∈ before ∧ m.secondChoice u victim = true then none else some victim

/-- There is no need to compare with more: the victim is not kept, or is the best there is. -/
def Beats (m : ThreatManager) (u : Units) (victim ref : RefId) : Prop :=
  13 / 10 * m.getThreat victim < m.getThreat ref ∨
    11 / 10 * m.getThreat victim < m.getThreat ref ∧
      (m.getTarget ref).any u.isWithinMeleeRange = true

instance decidableBeats (m : ThreatManager) (u : Units) (victim ref : RefId) :
    Decidable (m.Beats u victim ref) := inferInstanceAs (Decidable (_ ∨ _ ∧ _))

/-- The loop for those preferred ends at a reference, after some others. -/
structure Takes (m : ThreatManager) (u : Units) (before : List RefId) (ref : RefId) : Prop where
  attackable : m.attackable u ref = true
  preferred : m.secondChoice u ref = false
  settled : ∀ victim, m.held u before = some victim → victim = ref ∨
    m.getThreat ref ≤ 11 / 10 * m.getThreat victim ∨ m.Beats u victim ref

/-- It ends at none of those. -/
def TakesNone (m : ThreatManager) (u : Units) (before refs : List RefId) : Prop :=
  ∀ early ref late, refs = early ++ ref :: late → ¬ m.Takes u (before ++ early) ref

/-- **The preference is kept**, where some are preferred: the loop does not end for the sake of a
victim that is a second choice, and not without having ended at one preferred. -/
def KeepsPreference (m : ThreatManager) (u : Units) (refs : List RefId) : Prop :=
  (∃ ref ∈ refs, m.secondChoice u ref = false) →
    (∀ before ref after victim, refs = before ++ ref :: after → m.TakesNone u [] before →
      m.Takes u before ref → m.held u before = some victim → m.secondChoice u victim = true →
      m.attackable u victim = true → ¬ m.getThreat ref ≤ 11 / 10 * m.getThreat victim) ∧
    ∀ last, refs.getLast? = some last → m.secondChoice u last = true → ¬ m.TakesNone u [] refs

/-- The victim is attackable and preferred, and nobody beats it. -/
def Steady (m : ThreatManager) (u : Units) : Prop :=
  ∃ victim, m.currentVictim = some victim ∧ m.attackable u victim = true ∧
    m.secondChoice u victim = false ∧ ∀ ref ∈ m.threatContainer, m.attackable u ref = true →
      m.secondChoice u ref = false → ref ≠ victim → ¬ m.Beats u victim ref

/-- The victim does not stand behind one with less threat. -/
def VictimInPlace (m : ThreatManager) : Prop :=
  m.threatContainer.Pairwise fun a b => m.currentVictim = some b → m.getThreat b ≤ m.getThreat a

/-- One comes online that has no more threat than those of the list, or so much more than the victim
that the list gets dirty. -/
def JoinsInOrder (m : ThreatManager) (threat : ℚ) : Prop :=
  m.dirty = true ∨ (m.currentVictim.any fun victim => 11 / 10 * m.getThreat victim < threat) = true ∨
    ∀ other ∈ m.threatContainer, threat ≤ m.getThreat other

/-- What `updateOnlineStatus` finds. -/
def isReached (m : ThreatManager) (u : Units) (ref : RefId) : Bool :=
  let target := (m.relink u ref).getTarget ref
  (target.any fun target =>
    ¬ u.isGameMaster target ∧ ¬ u.isInFlight target ∧ u.isInMap target ∧ u.inSamePhase target) &&
    (target.any u.isInAccessiblePlace || target.any u.isWithinCombatRange)

/-- **An event leaves the list in order**, the victim apart, or dirty; and a choice is made where
the order matters only if it is there. -/
def Orderly (m : ThreatManager) : Units × ThreatEvent → Prop
  | (u, .changeThreat ref modThreat) =>
    if m.isOnline ref then
      m.dirty = true ∨ (modThreat < 0 → m.currentVictim ≠ some ref →
        m.threatContainer.Pairwise fun a b => a = ref → m.currentVictim ≠ some b →
          m.getThreat b ≤ m.getThreat ref + modThreat)
    else 0 < modThreat ∨ (m.isReached u ref = true → m.JoinsInOrder (m.getThreat ref + modThreat))
  | (_, .newReference _) => m.dirty = true ∨ ∀ other ∈ m.threatContainer, 0 ≤ m.getThreat other
  | (u, .updateOnlineStatus ref) =>
    m.isOnline ref = false → m.isReached u ref = true → m.JoinsInOrder (m.getThreat ref)
  | (_, .setOnlineOfflineState ref isOnline) =>
    m.isOnline ref = false → isOnline = true → m.JoinsInOrder (m.getThreat ref)
  | (_, .forceVictim _) => m.dirty = true ∨ m.VictimInPlace
  | (u, .getHostilTarget) =>
    m.Steady u ∨ (m.dirty = true ∨ m.VictimInPlace) ∧
      m.KeepsPreference u m.update.threatContainer
  | _ => True

/-! ## 3. One pass over the list -/

section Scan

/-- What the loop ends with at a reference: the victim, or the reference. -/
def answer (m : ThreatManager) (u : Units) (before : List RefId) (ref : RefId) : RefId :=
  match m.held u before with
  | none => ref
  | some victim =>
    if victim ≠ ref ∧ m.getThreat ref ≤ 11 / 10 * m.getThreat victim ∧ m.attackable u victim = true
    then victim else ref

variable {currentVictim : Option RefId} {rest : List RefId}

/-- A reference that is a second choice, in the pass for those preferred. -/
theorem scan_second (h : m.secondChoice u ref = true) (hrest : rest ≠ []) :
    m.scanVictims u false currentVictim (ref :: rest) =
      m.scanVictims u false (if currentVictim = some ref then none else currentVictim) rest := by
  rw [scanVictims.eq_def]
  exact (if_pos ⟨rfl, h⟩).trans (if_neg hrest)

theorem scan_last_second (h : m.secondChoice u ref = true) :
    m.scanVictims u false currentVictim [ref] = .error currentVictim := by
  rw [scanVictims.eq_def]
  exact (if_pos ⟨rfl, h⟩).trans (if_pos rfl)

/-- Another reference. -/
theorem scan_other {anyTarget : Bool} (h : anyTarget = true ∨ m.secondChoice u ref = false) :
    m.scanVictims u anyTarget currentVictim (ref :: rest) =
      if m.attackable u ref = true then
        match currentVictim with
        | none => .ok (some ref)
        | some victim =>
          if victim = ref ∨ m.getThreat ref ≤ 11 / 10 * m.getThreat victim then
            .ok (some (if victim ≠ ref ∧ m.attackable u victim = true then victim else ref))
          else if m.Beats u victim ref then .ok (some ref)
          else m.scanVictims u anyTarget currentVictim rest
      else m.scanVictims u anyTarget currentVictim rest := by
  have hnot : ¬ (anyTarget = false ∧ (m.getTarget ref).any u.isSecondChoice = true) := by
    rintro ⟨rfl, hsecond⟩
    rcases h with h | h
    · nomatch h
    · exact absurd (h.symm.trans hsecond) (by decide)
  rw [scanVictims.eq_def]
  exact if_neg hnot

theorem held_concat_of_preferred {before : List RefId} (h : m.secondChoice u ref = false) :
    m.held u (before ++ [ref]) = m.held u before := by
  unfold held
  cases m.currentVictim with
  | none => rfl
  | some victim =>
    by_cases heq : victim = ref
    · subst heq
      simp [h]
    · simp [heq]

theorem held_concat_of_second {before : List RefId} (h : m.secondChoice u ref = true) :
    m.held u (before ++ [ref]) = if m.held u before = some ref then none else m.held u before := by
  unfold held
  cases m.currentVictim with
  | none => rfl
  | some victim =>
    by_cases heq : victim = ref
    · subst heq
      by_cases hmem : victim ∈ before
      · simp [h, hmem]
      · simp [h, hmem]
    · by_cases hgone : victim ∈ before ∧ m.secondChoice u victim = true
      · simp [hgone]
      · simp [heq, hgone]

theorem takesNone_cons {before rest : List RefId} (hnot : ¬ m.Takes u before ref)
    (h : m.TakesNone u (before ++ [ref]) rest) : m.TakesNone u before (ref :: rest) := by
  intro early other late heq
  cases early with
  | nil =>
    obtain ⟨rfl, -⟩ := List.cons.inj heq
    simpa using hnot
  | cons first early =>
    obtain ⟨rfl, htail⟩ := List.cons.inj heq
    simpa using h early other late htail

theorem held_eq_none_or (before : List RefId) :
    m.held u before = none ∨ m.held u before = m.currentVictim := by
  unfold held
  cases m.currentVictim with
  | none => exact Or.inl rfl
  | some victim =>
    dsimp only
    split
    · exact Or.inl rfl
    · exact Or.inr rfl

/-- A reference that is taken. -/
theorem scan_taken {before : List RefId} (h : m.Takes u before ref) :
    m.scanVictims u false (m.held u before) (ref :: rest) =
      .ok (some (m.answer u before ref)) := by
  rw [scan_other (Or.inr h.preferred), if_pos h.attackable]
  unfold answer
  cases hvictim : m.held u before with
  | none => rfl
  | some victim =>
    dsimp only
    by_cases hkeep : victim = ref ∨ m.getThreat ref ≤ 11 / 10 * m.getThreat victim
    · rw [if_pos hkeep]
      by_cases heq : victim = ref
      · simp [heq]
      · simp [heq, hkeep.resolve_left heq]
    · have hbeats : m.Beats u victim ref :=
        (or_assoc.mpr (h.settled victim hvictim)).resolve_left hkeep
      rw [if_neg hkeep, if_pos hbeats, if_neg fun hkept => hkeep (Or.inr hkept.2.1)]

/-- One that is preferred, and not taken. -/
theorem scan_passed {before : List RefId} (hpreferred : m.secondChoice u ref = false)
    (hnot : ¬ m.Takes u before ref) :
    m.scanVictims u false (m.held u before) (ref :: rest) =
      m.scanVictims u false (m.held u (before ++ [ref])) rest := by
  rw [held_concat_of_preferred hpreferred, scan_other (Or.inr hpreferred)]
  by_cases hattack : m.attackable u ref = true
  · rw [if_pos hattack]
    cases hvictim : m.held u before with
    | none =>
      exact absurd ⟨hattack, hpreferred, fun _ h => nomatch hvictim.symm.trans h⟩ hnot
    | some victim =>
      have hsettled : ¬ (victim = ref ∨ m.getThreat ref ≤ 11 / 10 * m.getThreat victim ∨
          m.Beats u victim ref) := by
        refine fun h => hnot ⟨hattack, hpreferred, fun victim' hvictim' => ?_⟩
        obtain rfl := Option.some.inj (hvictim.symm.trans hvictim')
        exact h
      obtain ⟨hkeep, hbeats⟩ := not_or.mp (mt or_assoc.mp hsettled)
      exact (if_neg hkeep).trans (if_neg hbeats)
  · rw [if_neg hattack]

/-- What the first pass comes to, from `before` on: it ends at the first reference it takes; or
takes none, and then the next pass is made if the last is a second choice. -/
def FirstPass (m : ThreatManager) (u : Units) (before refs : List RefId) : Prop :=
  (∃ early ref late, refs = early ++ ref :: late ∧ m.TakesNone u before early ∧
    m.Takes u (before ++ early) ref ∧
    m.scanVictims u false (m.held u before) refs = .ok (some (m.answer u (before ++ early) ref))) ∨
  m.TakesNone u before refs ∧
    (m.scanVictims u false (m.held u before) refs = .ok none ∧
        (∀ last, refs.getLast? = some last → m.secondChoice u last = false) ∨
      ∃ victim last, m.scanVictims u false (m.held u before) refs = .error victim ∧
        (victim = none ∨ victim = m.currentVictim) ∧
        refs.getLast? = some last ∧ m.secondChoice u last = true)

/-- Where the loop goes on, what comes of the rest comes of the whole. -/
theorem FirstPass.cons {before : List RefId} (hnot : ¬ m.Takes u before ref)
    (hrest : rest ≠ [] ∨ m.secondChoice u ref = false)
    (hscan : m.scanVictims u false (m.held u before) (ref :: rest) =
      m.scanVictims u false (m.held u (before ++ [ref])) rest)
    (h : m.FirstPass u (before ++ [ref]) rest) : m.FirstPass u before (ref :: rest) := by
  unfold FirstPass
  rw [hscan]
  rcases h with ⟨early, next, late, rfl, hnone, htakes, hok⟩ | ⟨hnone, hend⟩
  · refine Or.inl ⟨ref :: early, next, late, rfl, takesNone_cons hnot hnone, ?_, ?_⟩
    · simpa using htakes
    · simpa using hok
  · refine Or.inr ⟨takesNone_cons hnot hnone, hend.imp ?_ ?_⟩
    · rintro ⟨hok, hlasts⟩
      refine ⟨hok, fun last hlast => ?_⟩
      cases rest with
      | nil =>
        obtain rfl := Option.some.inj hlast
        exact hrest.resolve_left fun h => h rfl
      | cons next rest => exact hlasts last (by rwa [List.getLast?_cons_cons] at hlast)
    · rintro ⟨victim, last, herror, hvictim, hlast, hsecond⟩
      refine ⟨victim, last, herror, hvictim, ?_, hsecond⟩
      rw [List.getLast?_cons, hlast]
      rfl

/-- **The first pass.** -/
theorem scan_preferred (refs : List RefId) : ∀ before, m.FirstPass u before refs := by
  induction refs with
  | nil =>
    exact fun before => Or.inr ⟨fun early ref late h => by simp at h, Or.inl ⟨rfl, nofun⟩⟩
  | cons ref rest ih =>
    intro before
    by_cases htakes : m.Takes u before ref
    · refine Or.inl ⟨[], ref, rest, rfl, fun early _ _ h => by simp at h,
        by simpa using htakes, ?_⟩
      rw [List.append_nil]
      exact scan_taken htakes
    cases hsecond : m.secondChoice u ref with
    | false => exact .cons htakes (Or.inr hsecond) (scan_passed hsecond htakes) (ih _)
    | true =>
      by_cases hrest : rest = []
      · subst hrest
        exact Or.inr ⟨takesNone_cons htakes fun early _ _ h => by simp at h, Or.inr
          ⟨m.held u before, ref, scan_last_second hsecond, held_eq_none_or before, rfl, hsecond⟩⟩
      · refine .cons htakes (Or.inl hrest) ?_ (ih _)
        rw [held_concat_of_second hsecond]
        exact scan_second hsecond hrest

/-- Who is chosen can be attacked. -/
theorem attackable_of_scan {anyTarget : Bool} (refs : List RefId) : ∀ {currentVictim : Option RefId},
    m.scanVictims u anyTarget currentVictim refs = .ok (some ref) → m.attackable u ref = true := by
  induction refs with
  | nil => exact fun h => nomatch h
  | cons next rest ih =>
    intro currentVictim h
    by_cases hother : anyTarget = true ∨ m.secondChoice u next = false
    · rw [scan_other hother] at h
      by_cases hattack : m.attackable u next = true
      · rw [if_pos hattack] at h
        cases currentVictim with
        | none =>
          obtain rfl := Option.some.inj (Except.ok.inj h)
          exact hattack
        | some victim =>
          dsimp only at h
          split at h
          · obtain rfl := Option.some.inj (Except.ok.inj h)
            split
            · rename_i hvictim
              exact hvictim.2
            · exact hattack
          · split at h
            · obtain rfl := Option.some.inj (Except.ok.inj h)
              exact hattack
            · exact ih h
      · rw [if_neg hattack] at h
        exact ih h
    · obtain ⟨hfirst, hsecond⟩ := not_or.mp hother
      obtain rfl := Bool.eq_false_iff.mpr hfirst
      have hsecond := (Bool.not_eq_false _).mp hsecond
      by_cases hrest : rest = []
      · subst hrest
        rw [scan_last_second hsecond] at h
        nomatch h
      · rw [scan_second hsecond hrest] at h
        exact ih h

/-- Without a victim the pass for all ends at the first that can be attacked. -/
theorem scan_any (refs : List RefId) :
    m.scanVictims u true none refs = .ok (refs.find? fun ref => m.attackable u ref) := by
  induction refs with
  | nil => rfl
  | cons ref rest ih =>
    rw [scan_other (Or.inl rfl), List.find?_cons]
    by_cases hattack : m.attackable u ref = true
    · simp only [hattack, if_true]
    · simp only [hattack, Bool.false_eq_true, if_false]
      exact ih

/-- **A steady victim** is kept, whatever the order. -/
theorem scan_steady {victim : RefId} (hattack : m.attackable u victim = true)
    (hpreferred : m.secondChoice u victim = false) (refs : List RefId) : victim ∈ refs →
    (∀ ref ∈ refs, m.attackable u ref = true → m.secondChoice u ref = false → ref ≠ victim →
      ¬ m.Beats u victim ref) →
    m.scanVictims u false (some victim) refs = .ok (some victim) := by
  induction refs with
  | nil => exact fun h => absurd h List.not_mem_nil
  | cons ref rest ih =>
    intro hmem hbeats
    have hrest := fun ref' (h : ref' ∈ rest) => hbeats ref' (List.mem_cons_of_mem ref h)
    by_cases hsecond : m.secondChoice u ref = true
    · have hne : ref ≠ victim := by
        rintro rfl
        exact absurd (hsecond.symm.trans hpreferred) (by decide)
      have hlater := (List.mem_cons.mp hmem).resolve_left (Ne.symm hne)
      rw [scan_second hsecond (List.ne_nil_of_mem hlater), if_neg fun h =>
        hne (Option.some.inj h).symm]
      exact ih hlater hrest
    · rw [scan_other (Or.inr (Bool.eq_false_iff.mpr hsecond))]
      by_cases hattack' : m.attackable u ref = true
      · rw [if_pos hattack']
        dsimp only
        by_cases hkeep : victim = ref ∨ m.getThreat ref ≤ 11 / 10 * m.getThreat victim
        · rw [if_pos hkeep]
          by_cases heq : victim = ref
          · simp [heq]
          · simp [heq, hattack]
        · have hne : ref ≠ victim := fun heq => hkeep (Or.inl heq.symm)
          rw [if_neg hkeep, if_neg (hbeats ref List.mem_cons_self hattack'
            (Bool.eq_false_iff.mpr hsecond) hne)]
          exact ih ((List.mem_cons.mp hmem).resolve_left (Ne.symm hne)) hrest
      · have hne : ref ≠ victim := by
          rintro rfl
          exact hattack' hattack
        rw [if_neg hattack']
        exact ih ((List.mem_cons.mp hmem).resolve_left (Ne.symm hne)) hrest

/-- `selectNextVictim` in some order of the list. -/
def selectFrom (m : ThreatManager) (u : Units) (refs : List RefId) : Option RefId :=
  match m.scanVictims u false m.currentVictim refs with
  | .ok next => next
  | .error currentVictim =>
    match m.scanVictims u true currentVictim refs with
    | .ok next => next
    | .error _ => none

theorem scanVictims_congr (hrefs : m'.refs = m.refs) (anyTarget : Bool) (refs : List RefId) :
    ∀ currentVictim, m'.scanVictims u anyTarget currentVictim refs =
      m.scanVictims u anyTarget currentVictim refs := by
  have htarget : m'.getTarget = m.getTarget := by
    funext ref
    simp only [getTarget, hrefs]
  have hthreat : m'.getThreat = m.getThreat := by
    funext ref
    simp only [getThreat, hrefs]
  induction refs with
  | nil => exact fun _ => rfl
  | cons ref rest ih =>
    intro currentVictim
    rw [scanVictims.eq_def, scanVictims.eq_def, htarget, hthreat]
    simp only [ih]

theorem selectNextVictim_eq (hrefs : m'.refs = m.refs) (hvictim : m'.currentVictim = m.currentVictim) :
    m'.selectNextVictim u = m.selectFrom u m'.threatContainer := by
  unfold selectNextVictim selectFrom
  rw [hvictim, scanVictims_congr hrefs]
  cases m.scanVictims u false m.currentVictim m'.threatContainer with
  | ok next => rfl
  | error victim =>
    have hsecond := scanVictims_congr (u := u) hrefs true m'.threatContainer victim
    exact congrArg (fun scan : Except _ _ => match scan with
      | .ok next => next
      | .error _ => none) hsecond

end Scan

/-! ## 4. One choice -/

/-- The list in the order of the threat that there is now. -/
def sortedList (m : ThreatManager) : List RefId :=
  m.threatContainer.mergeSort fun a b => m.getThreat b ≤ m.getThreat a

theorem pairwise_sortedList (m : ThreatManager) :
    m.sortedList.Pairwise fun a b => m.getThreat b ≤ m.getThreat a := by
  have htrans : ∀ a b c, decide (m.getThreat b ≤ m.getThreat a) = true →
      decide (m.getThreat c ≤ m.getThreat b) = true →
        decide (m.getThreat c ≤ m.getThreat a) = true := by
    intro a b c hab hbc
    simp only [decide_eq_true_eq] at *
    exact le_trans hbc hab
  have htotal : ∀ a b, (decide (m.getThreat b ≤ m.getThreat a) ||
      decide (m.getThreat a ≤ m.getThreat b)) = true := by
    intro a b
    simp only [Bool.or_eq_true, decide_eq_true_eq]
    exact le_total _ _
  exact (List.pairwise_mergeSort htrans htotal m.threatContainer).imp fun h => of_decide_eq_true h

theorem mem_sortedList : ref ∈ m.sortedList ↔ ref ∈ m.threatContainer := List.mem_mergeSort

/-- The list is in order when it is looked through. -/
theorem update_eq_sortedList (h : m.dirty = true ∨
      m.threatContainer.Pairwise fun a b => m.getThreat b ≤ m.getThreat a) :
    m.update.threatContainer = m.sortedList := by
  simp only [update]
  split
  · rfl
  · rename_i hnot
    rcases h with hdirty | hsorted
    · have hshort : m.threatContainer.length ≤ 1 := Nat.le_of_not_lt fun h => hnot ⟨hdirty, h⟩
      unfold sortedList
      generalize m.threatContainer = refs at hshort
      match refs with
      | [] => exact List.mergeSort_nil.symm
      | [_] => exact (List.mergeSort_singleton _).symm
      | _ :: _ :: _ => simp at hshort
    · exact (List.mergeSort_of_pairwise (hsorted.imp fun h => decide_eq_true h)).symm

theorem currentVictim_getHostilTarget (m : ThreatManager) (u : Units) :
    (m.getHostilTarget u).currentVictim = m.selectFrom u m.update.threatContainer :=
  selectNextVictim_eq rfl rfl

theorem freshlySorted_eq (m : ThreatManager) (u : Units) :
    m.freshlySorted.selectNextVictim u = m.selectFrom u m.sortedList :=
  selectNextVictim_eq rfl rfl

theorem mem_update : ref ∈ m.update.threatContainer ↔ ref ∈ m.threatContainer := by
  simp only [update]
  split
  · exact List.mem_mergeSort
  · rfl

variable {refs : List RefId}

theorem attackable_of_select (h : m.selectFrom u refs = some ref) : m.attackable u ref = true := by
  unfold selectFrom at h
  split at h
  · rename_i hscan
    subst h
    exact attackable_of_scan refs hscan
  · split at h
    · rename_i hscan
      subst h
      exact attackable_of_scan refs hscan
    · nomatch h

/-- **A steady victim** is chosen again, and rightly. -/
theorem select_steady (h : m.Steady u) (hvictim : ∀ ref, m.currentVictim = some ref →
      ref ∈ m.threatContainer) (hrefs : ∀ ref, ref ∈ refs ↔ ref ∈ m.threatContainer) :
    m.selectFrom u refs = m.currentVictim := by
  obtain ⟨victim, heq, hattack, hpreferred, hbeats⟩ := h
  have hscan := scan_steady hattack hpreferred refs ((hrefs victim).mpr (hvictim victim heq))
    fun ref href => hbeats ref ((hrefs ref).mp href)
  simp only [selectFrom, heq, hscan]

theorem choosesWell_of_steady (h : m.Steady u)
    (hvictim : ∀ ref, m.currentVictim = some ref → ref ∈ m.threatContainer) : m.ChoosesWell u := by
  have hchosen := (currentVictim_getHostilTarget m u).trans
    (select_steady h hvictim fun _ => mem_update)
  have hfresh := select_steady h hvictim fun _ => mem_sortedList
  obtain ⟨victim, heq, hattack, hpreferred, -⟩ := h
  refine ⟨?_, fun next hnext => ?_, fun next hnext hsecond => ?_, fun hnone => ?_⟩
  · rw [hchosen, freshlySorted_eq, hfresh]
  · obtain rfl := Option.some.inj (heq.symm.trans (hchosen.symm.trans hnext))
    exact hattack
  · obtain rfl := Option.some.inj (heq.symm.trans (hchosen.symm.trans hnext))
    exact absurd (hsecond.symm.trans hpreferred) (by decide)
  · exact nomatch heq.symm.trans hnone

theorem keepsPreference_of_preferred (h : ∀ ref, m.secondChoice u ref = false) :
    m.KeepsPreference u refs :=
  fun _ => ⟨fun _ _ _ victim _ _ _ _ hsecond => absurd (hsecond.symm.trans (h victim)) (by decide),
    fun last _ hsecond => absurd (hsecond.symm.trans (h last)) (by decide)⟩

/-- Those that are not before a reference have no more threat than it. -/
theorem threat_le_of_not_mem {other : RefId} {early late : List RefId}
    (hsplit : m.sortedList = early ++ ref :: late) (hmem : other ∈ m.sortedList)
    (hnot : other ∉ early) : m.getThreat other ≤ m.getThreat ref := by
  have hothers := pairwise_sortedList m
  rw [hsplit] at hmem hothers
  rcases List.mem_cons.mp ((List.mem_append.mp hmem).resolve_left hnot) with rfl | hafter
  · exact le_refl _
  · exact (List.pairwise_cons.mp (List.pairwise_append.mp hothers).2.1).1 other hafter

/-- **A choice from the sorted list** is right, if the preference is kept. -/
theorem choosesWell_of_sorted (hsorted : m.update.threatContainer = m.sortedList)
    (hkeeps : m.KeepsPreference u m.update.threatContainer) : m.ChoosesWell u := by
  have hchosen := currentVictim_getHostilTarget m u
  rw [hsorted] at hchosen hkeeps
  have hheld : m.held u [] = m.currentVictim := by
    unfold held
    cases m.currentVictim with
    | none => rfl
    | some victim => simp
  have hscan := scan_preferred (m := m) (u := u) m.sortedList []
  unfold FirstPass at hscan
  rw [hheld] at hscan
  refine ⟨hchosen.trans (freshlySorted_eq m u).symm, fun next hnext => ?_,
    fun next hnext hsecond other hother => ?_, fun hnone other hother hattack hchoice => ?_⟩
  · exact attackable_of_select (hchosen.symm.trans hnext)
  · by_contra hnot
    have hpreferred : ∃ ref ∈ m.sortedList, m.secondChoice u ref = false :=
      ⟨other, mem_sortedList.mpr hother, Bool.eq_false_iff.mpr hnot⟩
    obtain ⟨hvictims, hlasts⟩ := hkeeps hpreferred
    rcases hscan with ⟨early, ref, late, hsplit, hearly, htakes, hok⟩ | ⟨htakesNone, hend⟩
    · have hanswer : m.answer u ([] ++ early) ref = next := by
        have hselect := hchosen.symm.trans hnext
        simp only [selectFrom, hok] at hselect
        exact Option.some.inj hselect
      rw [List.nil_append] at hanswer htakes
      unfold answer at hanswer
      split at hanswer
      · subst hanswer
        exact absurd (hsecond.symm.trans htakes.preferred) (by decide)
      · rename_i victim hvictim
        split at hanswer
        · rename_i hkept
          subst hanswer
          exact hvictims early ref late victim hsplit hearly htakes hvictim hsecond hkept.2.2
            hkept.2.1
        · subst hanswer
          exact absurd (hsecond.symm.trans htakes.preferred) (by decide)
    · rcases hend with ⟨hok, -⟩ | ⟨victim, last, -, -, hlast, hlastSecond⟩
      · have hselect := hchosen.symm.trans hnext
        simp only [selectFrom, hok] at hselect
        nomatch hselect
      · exact hlasts last hlast hlastSecond htakesNone
  · rw [hnone] at hscan
    have hmem := mem_sortedList.mpr hother
    have hheldNone : ∀ before, m.held u before = none := fun before => by simp [held, hnone]
    by_cases hpreferred : m.secondChoice u other = false
    · have htakesAll : ∀ before, m.Takes u before other := fun before =>
        ⟨hattack, hpreferred, fun victim h => nomatch (hheldNone before).symm.trans h⟩
      rcases hscan with ⟨early, ref, late, hsplit, hearly, htakes, hok⟩ | ⟨htakesNone, -⟩
      · refine ⟨ref, ?_, ?_⟩
        · simp only [hchosen, selectFrom, hnone, hok, answer, hheldNone]
        · refine threat_le_of_not_mem hsplit hmem fun hbefore => ?_
          obtain ⟨first, rest, rfl⟩ := List.append_of_mem hbefore
          exact hearly first other rest rfl (htakesAll _)
      · obtain ⟨first, rest, heq⟩ := List.append_of_mem hmem
        exact absurd (htakesAll _) (htakesNone first other rest heq)
    · have hall : ∀ ref ∈ m.sortedList, m.secondChoice u ref = true := fun ref href =>
        hchoice.resolve_left hpreferred ref (mem_sortedList.mp href)
      rcases hscan with ⟨early, ref, late, hsplit, -, htakes, -⟩ | ⟨-, hend⟩
      · have hsecond := hall ref (by simp [hsplit])
        exact absurd (hsecond.symm.trans htakes.preferred) (by decide)
      · have hfind : (m.sortedList.find? fun ref => m.attackable u ref) ≠ none := fun h =>
          List.find?_eq_none.mp h other hmem hattack
        obtain ⟨next, hnext⟩ := Option.ne_none_iff_exists'.mp hfind
        rcases hend with ⟨-, hlasts⟩ | ⟨victim, last, herror, hvictim, -⟩
        · obtain ⟨last, hlast⟩ := Option.ne_none_iff_exists'.mp
            (mt List.getLast?_eq_none_iff.mp (List.ne_nil_of_mem hmem))
          exact absurd ((hall last (List.mem_of_getLast? hlast)).symm.trans (hlasts last hlast))
            (by decide)
        · obtain rfl : victim = none := hvictim.elim id id
          refine ⟨next, ?_, ?_⟩
          · simp only [hchosen, selectFrom, hnone, herror, scan_any, hnext]
          · obtain ⟨-, early, late, hsplit, hearly⟩ := List.find?_eq_some_iff_append.mp hnext
            refine threat_le_of_not_mem hsplit hmem fun hbefore => ?_
            have hnot := hearly other hbefore
            simp [hattack] at hnot

/-! ## 5. The order of the list -/

/-- **What holds after every event**: those of the list are online, each once, and the list is dirty
or in order, the victim apart, who may stand behind one with less threat.  `due` is that it is still
to get dirty in the event that is going on. -/
structure Tended (m : ThreatManager) (due : Prop) : Prop where
  nodup : m.threatContainer.Nodup
  online : ∀ ref ∈ m.threatContainer, m.isOnline ref = true
  victim : ∀ ref, m.currentVictim = some ref → ref ∈ m.threatContainer
  fresh : ∀ ref, (m.refs ref).isSome → ref < m.nextRef
  order : due ∨ m.dirty = true ∨ m.threatContainer.Pairwise fun a b =>
    m.currentVictim ≠ some b → m.getThreat b ≤ m.getThreat a

variable {due : Prop}

theorem Tended.sorted (h : m.Tended False) (hplace : m.dirty = true ∨ m.VictimInPlace) :
    m.dirty = true ∨ m.threatContainer.Pairwise fun a b => m.getThreat b ≤ m.getThreat a := by
  rcases hplace with hdirty | hplace
  · exact Or.inl hdirty
  · refine (h.order.resolve_left id).imp_right fun hpairs => (hpairs.and hplace).imp fun {a b} hab => ?_
    by_cases hb : m.currentVictim = some b
    · exact hab.2 hb
    · exact hab.1 hb

theorem isOnline_iff : m.isOnline ref = true ↔ ∃ r, m.refs ref = some r ∧ r.online = true := by
  simp [isOnline, Option.any_eq_true]

/-- The list stays, and its references online. -/
theorem Tended.of_listed {due' : Prop} (h : m.Tended due)
    (hcontainer : m'.threatContainer = m.threatContainer)
    (hvictim : m'.currentVictim = m.currentVictim) (hnext : m'.nextRef = m.nextRef)
    (hrefs : ∀ ref, (m'.refs ref).map HostileReference.online =
      (m.refs ref).map HostileReference.online)
    (horder : due' ∨ m'.dirty = true ∨ m.threatContainer.Pairwise fun a b =>
      m.currentVictim ≠ some b → m'.getThreat b ≤ m'.getThreat a) : m'.Tended due' := by
  refine ⟨hcontainer ▸ h.nodup, fun ref href => ?_, fun ref href => ?_, fun ref href => ?_, ?_⟩
  · have heq := congrArg (Option.any id) (hrefs ref)
    simp only [Option.any_map] at heq
    exact heq.trans (h.online ref (hcontainer ▸ href))
  · rw [hcontainer]
    exact h.victim ref (hvictim ▸ href)
  · rw [hnext]
    refine h.fresh ref ?_
    have heq := congrArg Option.isSome (hrefs ref)
    simp only [Option.isSome_map] at heq
    exact heq ▸ href
  · rw [hcontainer, hvictim]
    exact horder

/-- What is not seen of the order: the links, and what is stored for a taunt. -/
theorem Tended.of_same (h : m.Tended due) (hcontainer : m'.threatContainer = m.threatContainer)
    (hdirty : m'.dirty = m.dirty) (hvictim : m'.currentVictim = m.currentVictim)
    (hnext : m'.nextRef = m.nextRef)
    (hrefs : ∀ ref, (m'.refs ref).map (fun r => (r.threat, r.online)) =
      (m.refs ref).map fun r => (r.threat, r.online)) : m'.Tended due := by
  have hthreat : ∀ ref, m'.getThreat ref = m.getThreat ref := by
    intro ref
    have heq := congrArg (Option.map Prod.fst) (hrefs ref)
    simp only [Option.map_map] at heq
    exact congrArg (Option.getD · 0) heq
  refine h.of_listed hcontainer hvictim hnext (fun ref => ?_) ?_
  · have heq := congrArg (Option.map Prod.snd) (hrefs ref)
    simp only [Option.map_map] at heq
    exact heq
  · simp only [hdirty, hthreat]
    exact h.order

/-- One is taken off the list. -/
theorem Tended.of_removed (h : m.Tended due)
    (hcontainer : m'.threatContainer = m.threatContainer.filter (· ≠ ref))
    (hvictim : m'.currentVictim = if m.currentVictim = some ref then none else m.currentVictim)
    (hdirty : m.dirty = true ∨ m.currentVictim = some ref → m'.dirty = true)
    (hnext : m'.nextRef = m.nextRef) (hsome : (m'.refs ref).isSome → (m.refs ref).isSome)
    (hrefs : ∀ other, other ≠ ref → m'.refs other = m.refs other) : m'.Tended due := by
  have hmem : ∀ other ∈ m'.threatContainer, other ∈ m.threatContainer ∧ other ≠ ref := by
    intro other hother
    rw [hcontainer, List.mem_filter, decide_eq_true_iff] at hother
    exact hother
  refine ⟨?_, fun other hother => ?_, fun other hother => ?_, fun other hother => ?_, ?_⟩
  · rw [hcontainer]
    exact h.nodup.filter _
  · obtain ⟨hold, hne⟩ := hmem other hother
    simp only [isOnline, hrefs other hne]
    exact h.online other hold
  · rw [hvictim] at hother
    split at hother
    · exact absurd hother (Option.some_ne_none other).symm
    · rename_i hnot
      rw [hcontainer, List.mem_filter, decide_eq_true_iff]
      exact ⟨h.victim other hother, fun heq => hnot (heq ▸ hother)⟩
  · rw [hnext]
    by_cases heq : other = ref
    · exact heq ▸ h.fresh ref (hsome (heq ▸ hother))
    · exact h.fresh other (hrefs other heq ▸ hother)
  · by_cases hsame : m.currentVictim = some ref
    · exact Or.inr (Or.inl (hdirty (Or.inr hsame)))
    · rw [if_neg hsame] at hvictim
      refine h.order.imp_right (Or.imp (fun hd => hdirty (Or.inl hd)) fun hpairs => ?_)
      have hfiltered := hcontainer ▸ hpairs.filter (fun other => decide (other ≠ ref))
      refine hfiltered.imp_of_mem fun {a b} ha hb hab => ?_
      rw [hvictim]
      simp only [getThreat, hrefs a (hmem a ha).2, hrefs b (hmem b hb).2]
      exact hab

/-- One is put at the end of the list. -/
theorem Tended.of_joined (h : m.Tended due) (hnot : m.isOnline ref = false)
    (hcontainer : m'.threatContainer = m.threatContainer ++ [ref])
    (hvictim : m'.currentVictim = m.currentVictim) (honline : m'.isOnline ref = true)
    (hnext : m.nextRef ≤ m'.nextRef) (hlast : ref < m'.nextRef)
    (hrefs : ∀ other, other ≠ ref → m'.refs other = m.refs other)
    (hdirty : m.dirty = true → m'.dirty = true)
    (horder : due ∨ m'.dirty = true ∨
      ∀ other ∈ m.threatContainer, m'.getThreat ref ≤ m.getThreat other) :
    m'.Tended due := by
  have hne : ∀ other ∈ m.threatContainer, other ≠ ref := by
    rintro other hother rfl
    exact absurd (h.online other hother) (by simp [hnot])
  refine ⟨?_, fun other hother => ?_, fun other hother => ?_, fun other hother => ?_, ?_⟩
  · rw [hcontainer]
    exact nodup_concat_of h.nodup fun hmem => hne ref hmem rfl
  · rw [hcontainer] at hother
    rcases List.mem_append.mp hother with hother | hother
    · simp only [isOnline, hrefs other (hne other hother)]
      exact h.online other hother
    · exact List.mem_singleton.mp hother ▸ honline
  · rw [hcontainer]
    exact List.mem_append_left _ (h.victim other (hvictim ▸ hother))
  · by_cases heq : other = ref
    · exact heq ▸ hlast
    · exact Nat.lt_of_lt_of_le (h.fresh other (hrefs other heq ▸ hother)) hnext
  · rcases horder with hdue | hd | hle
    · exact Or.inl hdue
    · exact Or.inr (Or.inl hd)
    · refine h.order.imp_right (Or.imp hdirty fun hpairs => ?_)
      rw [hcontainer, List.pairwise_append]
      refine ⟨hpairs.imp_of_mem fun {a b} ha hb hab => ?_, List.pairwise_singleton _ _,
        fun a ha b hb _ => ?_⟩
      · rw [hvictim]
        simp only [getThreat, hrefs a (hne a ha), hrefs b (hne b hb)]
        exact hab
      · obtain rfl := List.mem_singleton.mp hb
        refine (hle a ha).trans_eq ?_
        simp only [getThreat, hrefs a (hne a ha)]

/-! ## 6. Events -/

theorem not_victim_of_offline (h : m.Tended due) (hoffline : m.isOnline ref = false) :
    m.currentVictim ≠ some ref := fun hvictim =>
  absurd (h.online ref (h.victim ref hvictim)) (by simp [hoffline])

theorem forgetVictim_eq (m : ThreatManager) (ref : RefId) :
    m.forgetVictim ref =
      { m with
        dirty := m.dirty || decide (m.currentVictim = some ref)
        currentVictim := if m.currentVictim = some ref then none else m.currentVictim } := by
  unfold forgetVictim
  by_cases h : m.currentVictim = some ref
  · simp [h, setCurrentVictim]
  · simp [h]

/-- **The status of a reference is set.** -/
theorem Tended.setOnlineOfflineState (h : m.Tended due) {isOnline : Bool}
    (hjoins : due ∨ (m.isOnline ref = false → isOnline = true →
      m.JoinsInOrder (m.getThreat ref))) : (m.setOnlineOfflineState ref isOnline).Tended due := by
  unfold ThreatManager.setOnlineOfflineState
  by_cases hsame : m.isOnline ref = isOnline
  · rw [if_neg (not_not_intro hsame)]
    exact h
  · rw [if_pos hsame]
    have hother : ∀ other, other ≠ ref → (m.modifyRef ref fun r =>
        { r with online := isOnline, accessible := r.accessible && isOnline }).refs other =
          m.refs other := fun other hne => refs_modifyRef_ne _ hne
    have hself : (m.modifyRef ref fun r =>
        { r with online := isOnline, accessible := r.accessible && isOnline }).refs ref =
          (m.refs ref).map fun r =>
            { r with online := isOnline, accessible := r.accessible && isOnline } := if_pos rfl
    have hthreat : (m.modifyRef ref fun r =>
        { r with online := isOnline, accessible := r.accessible && isOnline }).getThreat =
          m.getThreat := by
      funext other
      by_cases heq : other = ref
      · subst heq
        simp only [getThreat, hself, Option.map_map]
        rfl
      · simp only [getThreat, hother other heq]
    generalize hm : (m.modifyRef ref fun r =>
      { r with online := isOnline, accessible := r.accessible && isOnline }) = between
      at hother hself hthreat
    obtain ⟨hcontainer, hvictim, hdirty, hnext⟩ : between.threatContainer = m.threatContainer ∧
        between.currentVictim = m.currentVictim ∧ between.dirty = m.dirty ∧
        between.nextRef = m.nextRef := by
      subst hm
      exact ⟨rfl, rfl, rfl, rfl⟩
    unfold onlineStatus
    split
    case isTrue honline =>
      have hexists : ∃ r, m.refs ref = some r := by
        cases hr : m.refs ref with
        | none => simp [ThreatManager.isOnline, hself, hr] at honline
        | some r => exact ⟨r, rfl⟩
      obtain ⟨r, hr⟩ := hexists
      have htrue : isOnline = true := by simpa [ThreatManager.isOnline, hself, hr] using honline
      have hnot : m.isOnline ref = false := by
        rw [htrue] at hsame
        exact Bool.eq_false_iff.mpr hsame
      refine h.of_joined hnot (congrArg (· ++ [ref]) hcontainer) hvictim honline hnext.ge ?_ hother
        (fun hd => by simp [hdirty, hd]) ?_
      · exact hnext ▸ h.fresh ref (by simp [hr])
      · refine hjoins.imp_right fun hjoins => ?_
        rcases hjoins hnot htrue with hd | hmore | hle
        · exact Or.inl (by simp [hdirty, hd])
        · refine Or.inl ?_
          simp only [hvictim, hthreat, hmore, Bool.or_true]
        · exact Or.inr fun other hmem => (congrFun hthreat ref).trans_le (hle other hmem)
    case isFalse hoffline =>
      rw [forgetVictim_eq]
      refine h.of_removed (congrArg (List.filter _) hcontainer) ?_ ?_ hnext ?_ hother
      · simp only [hvictim]
      · simp only [hdirty, hvictim, Bool.or_eq_true, decide_eq_true_eq, imp_self]
      · simp only [hself, Option.isSome_map, imp_self]

theorem same_modifyRef {change : HostileReference → HostileReference}
    (hchange : ∀ r, (change r).threat = r.threat ∧ (change r).online = r.online) (other : RefId) :
    ((m.modifyRef ref change).refs other).map (fun r => (r.threat, r.online)) =
      (m.refs other).map fun r => (r.threat, r.online) := by
  by_cases heq : other = ref
  · subst heq
    simp only [modifyRef, if_true, Option.map_map]
    refine Option.map_congr fun r _ => ?_
    exact Prod.ext (hchange r).1 (hchange r).2
  · simp only [modifyRef, if_neg heq]

/-- **The status of a reference is looked at.** -/
theorem Tended.updateOnlineStatus (h : m.Tended due)
    (hjoins : due ∨ (m.isOnline ref = false → m.isReached u ref = true →
      m.JoinsInOrder (m.getThreat ref))) : (m.updateOnlineStatus u ref).Tended due := by
  obtain ⟨accessible, heq⟩ : ∃ accessible, m.updateOnlineStatus u ref =
      ((m.relink u ref).setAccessibleState ref accessible).setOnlineOfflineState ref
        (m.isReached u ref) := ⟨_, rfl⟩
  have hsame : ∀ other,
      ((((m.relink u ref).setAccessibleState ref accessible).refs other).map fun r =>
        (r.threat, r.online)) = (m.refs other).map fun r => (r.threat, r.online) := by
    intro other
    refine (same_modifyRef ?_ other).trans (same_modifyRef ?_ other)
    · exact fun _ => ⟨rfl, rfl⟩
    · exact fun _ => ⟨rfl, rfl⟩
  have hthreat : ((m.relink u ref).setAccessibleState ref accessible).getThreat = m.getThreat := by
    funext other
    have heq := congrArg (Option.map Prod.fst) (hsame other)
    simp only [Option.map_map] at heq
    exact congrArg (Option.getD · 0) heq
  have honline : ((m.relink u ref).setAccessibleState ref accessible).isOnline ref =
      m.isOnline ref := by
    have heq := congrArg (Option.any Prod.snd) (hsame ref)
    simp only [Option.any_map] at heq
    exact heq
  have hbetween : ((m.relink u ref).setAccessibleState ref accessible).Tended due :=
    h.of_same rfl rfl rfl rfl hsame
  rw [heq]
  refine hbetween.setOnlineOfflineState (hjoins.imp_right ?_)
  intro hjoins hoffline hreached
  simp only [JoinsInOrder, hthreat]
  exact hjoins (honline ▸ hoffline) hreached

/-- A change of threat makes the list dirty. -/
def Flags (m : ThreatManager) (ref : RefId) (value : ℚ) : Prop :=
  m.currentVictim = some ref ∧ value < 0 ∨ m.currentVictim ≠ some ref ∧ 0 < value

theorem Tended.threatChange {value : ℚ} (h : m.Tended due) (hflags : due → m.Flags ref value) :
    (if value ≠ 0 then m.threatChange ref value else m).Tended False := by
  have hdue : due → value ≠ 0 := by
    intro hdue hzero
    rcases hflags hdue with ⟨-, hless⟩ | ⟨-, hmore⟩
    · exact absurd hless (by simp [hzero])
    · exact absurd hmore (by simp [hzero])
  have hkeep : (if value ≠ 0 then m.threatChange ref value else m) =
      { m with dirty := (if value ≠ 0 then m.threatChange ref value else m).dirty } := by
    unfold ThreatManager.threatChange
    split
    · split
      · rfl
      · rfl
    · rfl
  have hdirty : due ∨ m.dirty = true →
      (if value ≠ 0 then m.threatChange ref value else m).dirty = true := by
    rintro (hd | hd)
    · rw [if_pos (hdue hd)]
      exact congrArg ThreatManager.dirty (if_pos (hflags hd))
    · unfold ThreatManager.threatChange
      split
      · split
        · rfl
        · exact hd
      · exact hd
  rw [hkeep]
  refine h.of_listed rfl rfl rfl (fun _ => rfl) (Or.inr ?_)
  rcases h.order with hd | hd | hpairs
  · exact Or.inl (hdirty (Or.inl hd))
  · exact Or.inl (hdirty (Or.inr hd))
  · exact Or.inr hpairs

/-- The threat of a reference alone. -/
def withThreat (m : ThreatManager) (ref : RefId) (modThreat : ℚ) : ThreatManager :=
  m.modifyRef ref fun r => { r with threat := r.threat + modThreat }

variable {modThreat : ℚ}

theorem getThreat_withThreat_other (hne : other ≠ ref) :
    (m.withThreat ref modThreat).getThreat other = m.getThreat other := by
  simp only [withThreat, getThreat, refs_modifyRef_ne _ hne]

theorem getThreat_withThreat (hsome : (m.refs ref).isSome) :
    (m.withThreat ref modThreat).getThreat ref = m.getThreat ref + modThreat := by
  obtain ⟨r, hr⟩ := Option.isSome_iff_exists.mp hsome
  simp [withThreat, modifyRef, getThreat, hr]

theorem online_withThreat (modThreat : ℚ) (other : RefId) :
    ((m.withThreat ref modThreat).refs other).map HostileReference.online =
      (m.refs other).map HostileReference.online := by
  by_cases heq : other = ref
  · subst heq
    simp only [withThreat, modifyRef, if_true, Option.map_map]
    rfl
  · simp only [withThreat, refs_modifyRef_ne _ heq]

theorem isOnline_withThreat (modThreat : ℚ) (other : RefId) :
    (m.withThreat ref modThreat).isOnline other = m.isOnline other := by
  have hmap : ((m.withThreat ref modThreat).refs other).map HostileReference.online =
      (m.refs other).map HostileReference.online := online_withThreat modThreat other
  have heq := congrArg (Option.any id) hmap
  simp only [Option.any_map] at heq
  exact heq

/-- **The threat of one of the list changes.** -/
theorem Tended.withThreat_online (h : m.Tended False) (honline : m.isOnline ref = true)
    (horderly : m.dirty = true ∨ (modThreat < 0 → m.currentVictim ≠ some ref →
      m.threatContainer.Pairwise fun a b => a = ref → m.currentVictim ≠ some b →
        m.getThreat b ≤ m.getThreat ref + modThreat)) :
    (m.withThreat ref modThreat).Tended (m.Flags ref modThreat) := by
  have hsome : (m.refs ref).isSome := by
    obtain ⟨r, hr, -⟩ := isOnline_iff.mp honline
    simp [hr]
  refine h.of_listed rfl rfl rfl (online_withThreat modThreat) ?_
  by_cases hflags : m.Flags ref modThreat
  · exact Or.inl hflags
  · refine Or.inr ?_
    rcases h.order.resolve_left id with hdirty | hpairs
    · exact Or.inl hdirty
    · by_cases hdirty : m.dirty = true
      · exact Or.inl hdirty
      · have hlower := horderly.resolve_left hdirty
        refine Or.inr ?_
        obtain ⟨hvictim, hnot⟩ := not_or.mp hflags
        have hraised : m.currentVictim = some ref → 0 ≤ modThreat := fun hv =>
          not_lt.mp fun hless => hvictim ⟨hv, hless⟩
        have hlowered : m.currentVictim ≠ some ref → modThreat ≤ 0 := fun hv =>
          not_lt.mp fun hmore => hnot ⟨hv, hmore⟩
        have hall : m.threatContainer.Pairwise fun a b => modThreat < 0 → a = ref →
            m.currentVictim ≠ some ref → m.currentVictim ≠ some b →
              m.getThreat b ≤ m.getThreat ref + modThreat := by
          by_cases hless : modThreat < 0 ∧ m.currentVictim ≠ some ref
          · exact (hlower hless.1 hless.2).imp fun hab _ ha _ hb => hab ha hb
          · exact hpairs.imp fun _ hneg _ hv => absurd ⟨hneg, hv⟩ hless
        refine (hpairs.and hall).imp fun {a b} hab hb => ?_
        have hle := hab.1 hb
        by_cases ha : a = ref
        · subst ha
          rw [getThreat_withThreat hsome]
          by_cases hba : b = a
          · subst hba
            rw [getThreat_withThreat hsome]
          · rw [getThreat_withThreat_other hba]
            by_cases hneg : modThreat < 0
            · exact hab.2 hneg rfl (fun hv => absurd (hraised hv) (not_le.mpr hneg)) hb
            · linarith [not_lt.mp hneg]
        · rw [getThreat_withThreat_other ha]
          by_cases hbr : b = ref
          · subst hbr
            rw [getThreat_withThreat hsome]
            linarith [hlowered hb]
          · rw [getThreat_withThreat_other hbr]
            exact hle

/-- **The threat of another changes.** -/
theorem Tended.withThreat_offline (h : m.Tended False) (hoffline : m.isOnline ref = false) :
    (m.withThreat ref modThreat).Tended (0 < modThreat) := by
  refine h.of_listed rfl rfl rfl (online_withThreat modThreat) (Or.inr ?_)
  refine (h.order.resolve_left id).imp_right fun hpairs => ?_
  refine hpairs.imp_of_mem fun {a b} ha hb hab hvictim => ?_
  have hne : ∀ other ∈ m.threatContainer, other ≠ ref := by
    rintro other hother rfl
    exact absurd (h.online other hother) (by simp [hoffline])
  rw [getThreat_withThreat_other (hne a ha), getThreat_withThreat_other (hne b hb)]
  exact hab hvictim

theorem currentVictim_updateOnlineStatus {victim : RefId}
    (h : (m.updateOnlineStatus u ref).currentVictim = some victim) :
    m.currentVictim = some victim := by
  unfold ThreatManager.updateOnlineStatus ThreatManager.setOnlineOfflineState at h
  dsimp only at h
  split at h
  · unfold onlineStatus at h
    split at h
    · exact h
    · rw [forgetVictim_eq] at h
      exact (ite_eq_iff'.mp h).2 fun heq => nomatch (ite_eq_iff'.mp h).1 heq
  · exact h

/-- **A change of threat.** -/
theorem Tended.changeThreat (h : m.Tended False)
    (horderly : m.Orderly (u, .changeThreat ref modThreat)) :
    (m.changeThreat u ref modThreat).Tended False := by
  have heq : m.changeThreat u ref modThreat =
      let after := if (m.withThreat ref modThreat).isOnline ref then m.withThreat ref modThreat
        else (m.withThreat ref modThreat).updateOnlineStatus u ref
      if modThreat ≠ 0 then after.threatChange ref modThreat else after := rfl
  rw [heq]
  simp only [Orderly] at horderly
  rw [isOnline_withThreat]
  by_cases honline : m.isOnline ref = true
  · rw [if_pos honline] at horderly ⊢
    exact (h.withThreat_online honline horderly).threatChange fun hflags => hflags
  · have hoffline := Bool.eq_false_iff.mpr honline
    rw [if_neg honline] at horderly ⊢
    have hnot := not_victim_of_offline h hoffline
    have hlooked : ((m.withThreat ref modThreat).updateOnlineStatus u ref).Tended
        (0 < modThreat) := by
      refine (h.withThreat_offline hoffline).updateOnlineStatus (horderly.imp_right ?_)
      intro hjoins _ hreached
      have hreached' : m.isReached u ref = true := by
        rw [← hreached]
        simp only [isReached]
        have htarget : ((m.withThreat ref modThreat).relink u ref).getTarget ref =
            (m.relink u ref).getTarget ref := by
          cases hr : m.refs ref with
          | none => simp [withThreat, relink, modifyRef, getTarget, hr]
          | some r => simp [withThreat, relink, modifyRef, getTarget, hr]
        rw [htarget]
      have hsome : (m.refs ref).isSome := by
        cases hr : m.refs ref with
        | none => simp [isReached, relink, modifyRef, getTarget, hr] at hreached'
        | some r => rfl
      have hothers : ∀ other ∈ m.threatContainer,
          (m.withThreat ref modThreat).getThreat other = m.getThreat other := by
        intro other hother
        refine getThreat_withThreat_other ?_
        rintro rfl
        exact absurd (h.online other hother) (by simp [hoffline])
      rw [getThreat_withThreat hsome]
      rcases hjoins hreached' with hdirty | hmore | hle
      · exact Or.inl hdirty
      · refine Or.inr (Or.inl ?_)
        obtain ⟨victim, hvictim, hmore⟩ := Option.any_eq_true _ _ |>.mp hmore
        refine (Option.any_eq_true _ _).mpr ⟨victim, hvictim, ?_⟩
        rw [hothers victim (h.victim victim hvictim)]
        exact hmore
      · exact Or.inr (Or.inr fun other hother => (hle other hother).trans_eq (hothers other hother).symm)
    refine hlooked.threatChange fun hpos => Or.inr ⟨fun hvictim => hnot ?_, hpos⟩
    have hbefore : (m.withThreat ref modThreat).currentVictim = some ref :=
      currentVictim_updateOnlineStatus hvictim
    exact hbefore

/-- A reference is made. -/
theorem Tended.newReference (h : m.Tended False) {victim : ObjectGuid}
    (horderly : m.dirty = true ∨ ∀ other ∈ m.threatContainer, 0 ≤ m.getThreat other) :
    (m.newReference victim).Tended False := by
  have hnone : m.refs m.nextRef = none := by
    cases hr : m.refs m.nextRef with
    | none => rfl
    | some r => exact absurd (h.fresh m.nextRef (by simp [hr])) (Nat.lt_irrefl _)
  have hoffline : m.isOnline m.nextRef = false := by simp [ThreatManager.isOnline, hnone]
  have honline : (m.newReference victim).isOnline m.nextRef = true := by
    simp [ThreatManager.newReference, ThreatManager.isOnline]
  refine h.of_joined hoffline rfl rfl honline (Nat.le_succ _) (Nat.lt_succ_self _)
    (fun other hne => if_neg hne) (fun hd => hd) (Or.inr ?_)
  refine horderly.imp_right fun hall other hother => ?_
  have hzero : (m.newReference victim).getThreat m.nextRef = 0 := by
    simp [ThreatManager.newReference, getThreat]
  rw [hzero]
  exact hall other hother

/-- Who is chosen is one of the list. -/
theorem Tended.victim_getHostilTarget (h : m.Tended due)
    (hchosen : (m.getHostilTarget u).currentVictim = some ref) : ref ∈ m.threatContainer := by
  refine mem_update.mp (selectNextVictim_mem ?_ hchosen)
  exact fun ref href => mem_update.mpr (h.victim ref href)

/-- **A victim is chosen.** -/
theorem Tended.getHostilTarget (h : m.Tended False)
    (horderly : m.Orderly (u, .getHostilTarget)) : (m.getHostilTarget u).Tended False := by
  refine ⟨?_, fun ref href => h.online ref (mem_update.mp href),
    fun ref href => mem_update.mpr (h.victim_getHostilTarget href), h.fresh, Or.inr (Or.inr ?_)⟩
  · have hperm : m.update.threatContainer.Perm m.threatContainer := by
      simp only [update]
      split
      · exact List.mergeSort_perm ..
      · exact List.Perm.refl _
    exact hperm.nodup_iff.mpr h.nodup
  · have hsorted : m.dirty = true ∨
          (m.threatContainer.Pairwise fun a b => m.getThreat b ≤ m.getThreat a) →
        m.update.threatContainer.Pairwise fun a b =>
          (m.getHostilTarget u).currentVictim ≠ some b → m.getThreat b ≤ m.getThreat a := by
      intro hsorted
      rw [update_eq_sortedList hsorted]
      refine (pairwise_sortedList m).imp ?_
      exact fun hab _ => hab
    rcases horderly with hsteady | ⟨hplace, -⟩
    · -- the victim stays, and with it what the order is
      rcases h.order.resolve_left id with hdirty | hpairs
      · exact hsorted (Or.inl hdirty)
      · by_cases hdirty : m.dirty = true
        · exact hsorted (Or.inl hdirty)
        · have hsame : m.update.threatContainer = m.threatContainer :=
            if_neg fun hboth => hdirty hboth.1
          have hkept := (currentVictim_getHostilTarget m u).trans
            (select_steady hsteady h.victim fun _ => mem_update)
          have hkeptPairs : m.update.threatContainer.Pairwise fun a b =>
              (m.getHostilTarget u).currentVictim ≠ some b → m.getThreat b ≤ m.getThreat a := by
            rw [hsame, hkept]
            exact hpairs
          exact hkeptPairs
    · exact hsorted (h.sorted hplace)

/-- **A taunter is made the victim.** -/
theorem Tended.forceVictim (h : m.Tended False) {taunter : ObjectGuid}
    (hplace : m.dirty = true ∨ m.VictimInPlace) : (m.forceVictim taunter).Tended False := by
  unfold ThreatManager.forceVictim
  cases hfound : m.getReferenceByTarget m.threatContainer taunter with
  | none => exact h
  | some ref =>
    refine ⟨h.nodup, h.online, fun other hother => ?_, h.fresh, Or.inr ?_⟩
    · exact Option.some.inj hother ▸ (getReferenceByTarget_some hfound).1
    · refine (h.sorted hplace).imp_right fun hsorted => hsorted.imp ?_
      exact fun hab _ => hab

theorem Tended.setTempThreatModifier (h : m.Tended due) {threat : ℚ} :
    (m.setTempThreatModifier ref threat).Tended due := by
  refine h.of_same rfl rfl rfl rfl (same_modifyRef ?_)
  exact fun _ => ⟨rfl, rfl⟩

/-- The link of a reference is cut. -/
theorem Tended.invalidate (h : m.Tended due) : (m.invalidate ref).Tended due := by
  have hoffline : (m.setOnlineOfflineState ref false).Tended due :=
    h.setOnlineOfflineState (Or.inr fun _ hjoins => nomatch hjoins)
  refine hoffline.of_same rfl rfl rfl rfl (same_modifyRef ?_)
  exact fun _ => ⟨rfl, rfl⟩

/-- A reference is deleted. -/
theorem Tended.removeReference (h : m.Tended due) : (m.removeReference ref).Tended due := by
  have hcut : (m.invalidate ref).Tended due := h.invalidate
  have heq : m.removeReference ref =
      { (m.invalidate ref).removeFromList ref with
        refs := fun other =>
          if other = ref then none else ((m.invalidate ref).removeFromList ref).refs other } := rfl
  rw [heq]
  generalize m.invalidate ref = between at hcut ⊢
  have hkeep : between.isOnline ref = false →
      between.threatContainer = between.threatContainer.filter (· ≠ ref) := by
    intro hoffline
    refine (List.filter_eq_self.mpr fun other hother => decide_eq_true ?_).symm
    rintro rfl
    exact absurd (hcut.online other hother) (by simp [hoffline])
  unfold removeFromList
  rw [forgetVictim_eq]
  by_cases honline : between.isOnline ref = true
  · rw [if_pos honline]
    refine hcut.of_removed rfl rfl ?_ rfl ?_ fun other hne => if_neg hne
    · simp only [Bool.or_eq_true, decide_eq_true_eq, imp_self]
    · simp only [if_true, Option.isSome_none, Bool.false_eq_true, false_implies]
  · rw [if_neg honline]
    refine hcut.of_removed (hkeep (Bool.eq_false_iff.mpr honline)) rfl ?_ rfl ?_ fun other hne =>
      if_neg hne
    · simp only [Bool.or_eq_true, decide_eq_true_eq, imp_self]
    · simp only [if_true, Option.isSome_none, Bool.false_eq_true, false_implies]

/-- All references are deleted. -/
theorem Tended.clearReferences (h : m.Tended due) : m.clearReferences.Tended False := by
  refine ⟨List.nodup_nil, nofun, nofun, ?_, Or.inr (Or.inr List.Pairwise.nil)⟩
  intro ref href
  refine h.fresh ref ?_
  simp only [ThreatManager.clearReferences] at href
  split at href
  · nomatch href
  · exact href

/-- **An event that is orderly** leaves the list tended. -/
theorem Tended.event (h : m.Tended False) {e : Units × ThreatEvent} (horderly : m.Orderly e) :
    (m.event e).Tended False := by
  obtain ⟨u, e⟩ := e
  cases e with
  | changeThreat ref modThreat => exact h.changeThreat horderly
  | newReference victim => exact h.newReference horderly
  | updateOnlineStatus ref => exact h.updateOnlineStatus (Or.inr horderly)
  | setOnlineOfflineState ref isOnline => exact h.setOnlineOfflineState (Or.inr horderly)
  | setTempThreatModifier ref threat => exact h.setTempThreatModifier
  | forceVictim taunter => exact h.forceVictim horderly
  | getHostilTarget => exact h.getHostilTarget horderly
  | invalidate ref => exact h.invalidate
  | removeReference ref => exact h.removeReference
  | clearReferences => exact h.clearReferences

theorem tended_start (owner : ObjectGuid) : (start owner).Tended False :=
  ⟨List.nodup_nil, nofun, nofun, nofun, Or.inr (Or.inr List.Pairwise.nil)⟩

/-! ## 7. All choices -/

/-- The states a manager comes to by operations whose events are orderly. -/
inductive ReachesOrderly (owner : ObjectGuid) : ThreatManager → Prop
  | start : ReachesOrderly owner (start owner)
  | handle {m : ThreatManager} {u : Units} {calls : ℕ} {op : ThreatOp}
    {events : List (Units × ThreatEvent)} : ReachesOrderly owner m →
      m.handle u calls op = some (exec event m events) → Along event Orderly m events →
        ReachesOrderly owner (exec event m events)

theorem tended_of_reachesOrderly {owner : ObjectGuid} (h : ReachesOrderly owner m) :
    m.Tended False := by
  induction h with
  | start => exact tended_start owner
  | handle _ _ horderly ih =>
    have hstep : ∀ (m : ThreatManager) e, m.Tended False → m.Orderly e → (m.event e).Tended False :=
      fun _ _ hbefore hevent => hbefore.event hevent
    exact exec_invariant hstep ih horderly

/-- **The choice of a target.**  Where all events were orderly, and the choice is, it is right. -/
theorem target_choice {owner : ObjectGuid} (h : ReachesOrderly owner m)
    (hchoice : m.Orderly (u, .getHostilTarget)) : m.ChoosesWell u := by
  have htended := tended_of_reachesOrderly h
  rcases hchoice with hsteady | ⟨hplace, hkeeps⟩
  · exact choosesWell_of_steady hsteady htended.victim
  · exact choosesWell_of_sorted (update_eq_sortedList (htended.sorted hplace)) hkeeps

section example_units

/-- Units that have nothing to do with each other. -/
def strangers : Units :=
  { huntingParty with charmerOrOwner := fun _ => none, redirectThreatPercent := fun _ => 0 }

theorem target_choice_first :
    (exec event (start 0) [(strangers, .newReference 1), (strangers, .changeThreat 0 100)]).ChoosesWell
      strangers := by
  have hdone : (start 0).handle strangers 1 (.addThreat 1 100 0 none) = some (exec event (start 0)
      [(strangers, .newReference 1), (strangers, .changeThreat 0 100)]) := rfl
  refine target_choice (.handle .start hdone ⟨?_, ?_, trivial⟩) ?_
  · exact Or.inr nofun
  · have hraised : ¬ (100 : ℚ) < 0 := by norm_num
    exact Or.inr fun hless => absurd hless hraised
  · refine Or.inr ⟨Or.inl rfl, keepsPreference_of_preferred fun ref => ?_⟩
    simp [secondChoice, strangers, huntingParty]

theorem events_of_reaches_first : Happens (start 0) (exec event (start 0)
    [(strangers, .newReference 1), (strangers, .changeThreat 0 100)]) :=
  events_of_reaches (@Reaches.handle 0 _ _ strangers 1 (.addThreat 1 100 0 none) .start rfl)

/-- One unit is away while another comes to be hated, and nobody can be attacked; then it is back. -/
def absence : List (Units × ThreatOp) :=
  [(strangers, .addThreat 1 100 0 none), (strangers, .setOnlineOfflineState 1 false),
    (strangers, .addThreat 2 50 0 none),
    ({ strangers with canCreatureAttack := fun _ => false }, .getHostilTarget),
    (strangers, .setOnlineOfflineState 1 true)]

def handleAll (m : ThreatManager) : List (Units × ThreatOp) → Option ThreatManager
  | [] => some m
  | (u, op) :: ops => (m.handle u 1 op).bind fun m => m.handleAll ops

theorem reaches_handleAll {owner : ObjectGuid} {ops : List (Units × ThreatOp)}
    (h : Reaches owner m) (hdone : m.handleAll ops = some m') : Reaches owner m' := by
  induction ops generalizing m with
  | nil => exact Option.some.inj hdone ▸ h
  | cons op ops ih =>
    obtain ⟨between, hfirst, hrest⟩ := Option.bind_eq_some_iff.mp hdone
    exact ih (.handle h hfirst) hrest

/-- **The list is out of order and not dirty**, and a unit is chosen that is less hated. -/
theorem less_hated_chosen : ∃ m, Reaches 0 m ∧ m.getThreat 0 = 100 ∧ m.getThreat 1 = 50 ∧
    (m.getHostilTarget strangers).currentVictim = some 1 ∧
    m.freshlySorted.selectNextVictim strangers = some 0 ∧ ¬ m.ChoosesWell strangers := by
  have hrun : ((start 0).handleAll absence).map (fun m => (m.threatContainer, m.getThreat 0,
      m.getThreat 1, (m.getHostilTarget strangers).currentVictim,
        m.selectFrom strangers [0, 1])) = some ([1, 0], 100, 50, some 1, some 0) := by
    decide +kernel
  obtain ⟨m, hm, hvalues⟩ := Option.map_eq_some_iff.mp hrun
  simp only [Prod.mk.injEq] at hvalues
  obtain ⟨hlist, hfirst, hsecond, hchosen, hselect⟩ := hvalues
  have hsorted : m.sortedList = [0, 1] := by
    simp [sortedList, hlist, List.mergeSort, List.merge, hfirst, hsecond]
    norm_num
  have hfresh : m.freshlySorted.selectNextVictim strangers = some 0 := by
    rw [freshlySorted_eq, hsorted, hselect]
  refine ⟨m, reaches_handleAll .start hm, hfirst, hsecond, hchosen, hfresh, fun h => ?_⟩
  exact absurd (hchosen.symm.trans (h.sorted.trans hfresh)) (by decide)

end example_units

end ThreatManager

end HungerGames.Combat
