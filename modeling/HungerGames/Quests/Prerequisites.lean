/-
# Previous quests and exclusive groups

A quest lists previous quests, by their ids: positively one that has to be rewarded, negatively one
that has to be active.  A quest may be in an exclusive group.  Of a positive group one quest is
done; of a negative group each is, so that a previous quest of a negative group stands for all of
them.

The loop over the list stops at the first quest that is rewarded, or active, as it is listed, and
its group decides.  Of one that is listed negatively the group is asked the wrong way: the quest is
refused when another quest of the group is active.  `decides_iff` says for which lists the answer is
right, in each order.
-/
import Mathlib.Data.Int.Notation
import Mathlib.Data.List.Basic

namespace HungerGames.Quests

/-! ## 1. Quests -/

/-- `isDisabled` is what `DisableMgr` says of the quest when quests are loaded, and `eventId` is
`GetEventIdForQuest`. -/
structure Quest where
  questId : ℕ
  prevQuests : List ℤ
  exclusiveGroup : ℤ
  isRepeatable : Bool
  isDaily : Bool
  isDFQuest : Bool
  isWeekly : Bool
  isSeasonal : Bool
  isDisabled : Bool
  eventId : ℕ

/-- The quests that were loaded. -/
structure ObjectMgr where
  quests : List Quest

namespace ObjectMgr

variable (objectMgr : ObjectMgr)

def getQuestTemplate (questId : ℕ) : Option Quest :=
  objectMgr.quests.find? fun quest => quest.questId = questId

/-- `mExclusiveQuestGroups`, as `LoadQuests` fills it: disabled quests are skipped. -/
def exclusiveQuestGroups : List (ℤ × ℕ) :=
  (objectMgr.quests.filter fun quest =>
    quest.isDisabled = false ∧ quest.exclusiveGroup ≠ 0).map fun quest =>
      (quest.exclusiveGroup, quest.questId)

/-- The quests of a group. -/
def equalRange (group : ℤ) : List ℕ :=
  (objectMgr.exclusiveQuestGroups.filter fun x => x.1 = group).map Prod.snd

/-- The loops over a group skip the quest that was checked. -/
def othersOf (group : ℤ) (questId : ℕ) : List ℕ :=
  (objectMgr.equalRange group).filter fun other => other ≠ questId

end ObjectMgr

/-! ## 2. Players -/

inductive QuestStatus where
  | none
  | complete
  | incomplete
  | failed
  | rewarded
deriving DecidableEq

/-- What a player is told. -/
inductive QuestFailedReason where
  | dontHaveReq
  | dailyQuestsRemaining
deriving DecidableEq

/-- `seasonalquests` are those done in an event; `dailyQuests` are the fields of the player, of
which there are `PLAYER_MAX_DAILY_QUESTS`. -/
structure Player where
  questStatus : ℕ → Option QuestStatus
  rewardedQuests : List ℕ
  dfQuests : List ℕ
  dailyQuests : Vector ℕ 25
  weeklyquests : List ℕ
  seasonalquests : ℕ → List ℕ

namespace Player

variable (objectMgr : ObjectMgr) (player : Player)

/-- `m_RewardedQuests` has the quest. -/
def isRewarded (questId : ℕ) : Bool := questId ∈ player.rewardedQuests

def getQuestStatus (questId : ℕ) : QuestStatus :=
  if questId ≠ 0 then
    match player.questStatus questId with
    | some status => status
    | none =>
      match objectMgr.getQuestTemplate questId with
      | some quest =>
        if quest.isRepeatable = false ∧ player.isRewarded questId then .rewarded else .none
      | none => .none
  else .none

/-- A quest is active, or was. -/
def isActive (questId : ℕ) : Bool := player.getQuestStatus objectMgr questId ≠ .none

/-- A refusal, of which the player is told when `msg`. -/
def refuse (msg : Bool) (reason : QuestFailedReason) : Bool × List QuestFailedReason :=
  (false, if msg then [reason] else [])

/-! ## 3. Previous quests -/

/-- The inner loop on a group: each other quest is rewarded. -/
def groupRewarded (group : ℤ) (prevId : ℕ) : Bool :=
  (objectMgr.othersOf group prevId).all fun other => player.isRewarded other

/-- The inner loop on a group, for a previous quest that is listed negatively: it fails at another
quest that is active. -/
def groupNotActive (group : ℤ) (prevId : ℕ) : Bool :=
  (objectMgr.othersOf group prevId).all fun other => ! player.isActive objectMgr other

/-- The loop over the previous quests. -/
def checkPrevQuests (msg : Bool) : List ℤ → Bool × List QuestFailedReason
  | [] => refuse msg .dontHaveReq
  | prev :: prevQuests =>
    let prevId := prev.natAbs
    match objectMgr.getQuestTemplate prevId with
    | none => checkPrevQuests msg prevQuests
    | some prevInfo =>
      if prev > 0 ∧ player.isRewarded prevId then
        if prevInfo.exclusiveGroup ≥ 0 then (true, [])
        else if player.groupRewarded objectMgr prevInfo.exclusiveGroup prevId then (true, [])
        else refuse msg .dontHaveReq
      else if prev < 0 ∧ player.isActive objectMgr prevId then
        if prevInfo.exclusiveGroup ≥ 0 then (true, [])
        else if player.groupNotActive objectMgr prevInfo.exclusiveGroup prevId then (true, [])
        else refuse msg .dontHaveReq
      else checkPrevQuests msg prevQuests

/-- `Player::SatisfyQuestPreviousQuest`, for the list of the quest. -/
def satisfyQuestPreviousQuest (prevQuests : List ℤ) (msg : Bool) :
    Bool × List QuestFailedReason :=
  if prevQuests = [] then (true, []) else player.checkPrevQuests objectMgr msg prevQuests

/-! ## 4. Exclusive groups -/

def satisfyQuestDay (quest : Quest) (msg : Bool) : Bool × List QuestFailedReason :=
  if quest.isDaily = false ∧ quest.isDFQuest = false then (true, [])
  else if quest.isDFQuest then (player.dfQuests = [], [])
  else if quest.questId ∈ player.dailyQuests then (false, [])
  else if 0 ∈ player.dailyQuests then (true, [])
  else refuse msg .dailyQuestsRemaining

def satisfyQuestWeek (quest : Quest) : Bool :=
  quest.isWeekly = false ∨ quest.questId ∉ player.weeklyquests

def satisfyQuestSeasonal (quest : Quest) : Bool :=
  quest.isSeasonal = false ∨ quest.questId ∉ player.seasonalquests quest.eventId

/-- The loop over a group.  It fails where the server asserts that the quest is there. -/
def checkExclusiveGroup (quest : Quest) (msg : Bool) :
    List ℕ → Option (Bool × List QuestFailedReason)
  | [] => some (true, [])
  | excludeId :: group =>
    match objectMgr.getQuestTemplate excludeId with
    | none => none
    | some other =>
      if (player.satisfyQuestDay other false).1 = false ∨ player.satisfyQuestWeek other = false ∨
          player.satisfyQuestSeasonal other = false then
        some (refuse msg .dontHaveReq)
      else if player.isActive objectMgr excludeId ∨
          (¬ (quest.isRepeatable ∧ other.isRepeatable) ∧ player.isRewarded excludeId) then
        some (refuse msg .dontHaveReq)
      else checkExclusiveGroup quest msg group

/-- `Player::SatisfyQuestExclusiveGroup` -/
def satisfyQuestExclusiveGroup (quest : Quest) (msg : Bool) :
    Option (Bool × List QuestFailedReason) :=
  if quest.exclusiveGroup ≤ 0 then some (true, [])
  else player.checkExclusiveGroup objectMgr quest msg
    (objectMgr.othersOf quest.exclusiveGroup quest.questId)

/-! ## 5. The rule -/

/-- **The rule for a listed quest.**  It is there, and is rewarded when it is listed positively, or
active when it is listed negatively; if its group is negative, so are the others of its group. -/
def Met (prev : ℤ) : Prop :=
  ∃ prevInfo, objectMgr.getQuestTemplate prev.natAbs = some prevInfo ∧
    ((prev > 0 ∧ player.isRewarded prev.natAbs ∧ (prevInfo.exclusiveGroup < 0 →
      ∀ other ∈ objectMgr.othersOf prevInfo.exclusiveGroup prev.natAbs, player.isRewarded other)) ∨
    (prev < 0 ∧ player.isActive objectMgr prev.natAbs ∧ (prevInfo.exclusiveGroup < 0 →
      ∀ other ∈ objectMgr.othersOf prevInfo.exclusiveGroup prev.natAbs,
        player.isActive objectMgr other)))

/-- **What is expected of the two checks**, of a quest with some previous quests: the answer is that
of the rule, whatever the order of the list, and a quest of a positive group is accepted only if no
other of the group is started, or is rewarded while one of the two is not repeatable. -/
structure Decides (quest : Quest) (prevQuests : List ℤ) (msg : Bool) : Prop where
  accepts : (player.satisfyQuestPreviousQuest objectMgr prevQuests msg).1 = true ↔
    prevQuests = [] ∨ ∃ prev ∈ prevQuests, player.Met objectMgr prev
  order : ∀ reordered : List ℤ, reordered.Perm prevQuests →
    (player.satisfyQuestPreviousQuest objectMgr reordered msg).1 =
      (player.satisfyQuestPreviousQuest objectMgr prevQuests msg).1
  exclusive : quest.exclusiveGroup > 0 →
    ∀ sent, player.satisfyQuestExclusiveGroup objectMgr quest msg = some (true, sent) →
      ∀ excludeId ∈ objectMgr.othersOf quest.exclusiveGroup quest.questId,
        player.getQuestStatus objectMgr excludeId = .none ∧
          ∃ other, objectMgr.getQuestTemplate excludeId = some other ∧
            (player.isRewarded excludeId → quest.isRepeatable ∧ other.isRepeatable)

/-- The other quests of the group of a listed quest, if the group is negative. -/
def others (prev : ℤ) : List ℕ :=
  match objectMgr.getQuestTemplate prev.natAbs with
  | none => []
  | some prevInfo =>
    if prevInfo.exclusiveGroup < 0 then objectMgr.othersOf prevInfo.exclusiveGroup prev.natAbs
    else []

/-- A listed quest is rewarded, or active, as it is listed. -/
def counts (prev : ℤ) : Bool :=
  (objectMgr.getQuestTemplate prev.natAbs).isSome ∧
    ((prev > 0 ∧ player.isRewarded prev.natAbs) ∨
      (prev < 0 ∧ player.isActive objectMgr prev.natAbs))

/-- What the code asks of the others. -/
def passes (prev : ℤ) : Bool :=
  if prev > 0 then (others objectMgr prev).all fun other => player.isRewarded other
  else (others objectMgr prev).all fun other => ! player.isActive objectMgr other

/-- **When the answer is right.**  Of the listed quests that are rewarded, or active, as they are
listed, one is listed positively, or has no others in its group, and each has all others rewarded
if it is listed positively, and none active if negatively; or each that is listed positively has
another that is not rewarded, and each that is listed negatively has one that is active and one
that is not. -/
def Agree (prevQuests : List ℤ) : Prop :=
  ((∀ prev ∈ prevQuests, player.counts objectMgr prev → player.passes objectMgr prev = true) ∧
    ∃ prev ∈ prevQuests, player.counts objectMgr prev ∧ (prev > 0 ∨ others objectMgr prev = [])) ∨
  ∀ prev ∈ prevQuests, player.counts objectMgr prev → player.passes objectMgr prev = false ∧
    (prev < 0 → ∃ other ∈ others objectMgr prev, player.isActive objectMgr other = false)

variable {objectMgr : ObjectMgr} {player : Player} {quest : Quest} {prevQuests : List ℤ}
variable {prev : ℤ} {msg : Bool}

theorem counts_iff : player.counts objectMgr prev = true ↔
    ∃ prevInfo, objectMgr.getQuestTemplate prev.natAbs = some prevInfo ∧
      ((prev > 0 ∧ player.isRewarded prev.natAbs) ∨
        (prev < 0 ∧ player.isActive objectMgr prev.natAbs)) := by
  rw [counts, decide_eq_true_iff, Option.isSome_iff_exists, exists_and_right]

/-- The rule asks of the others what it asks of the quest. -/
theorem met_iff : player.Met objectMgr prev ↔ player.counts objectMgr prev = true ∧
    ((prev > 0 ∧ ∀ other ∈ others objectMgr prev, player.isRewarded other = true) ∨
      (prev < 0 ∧ ∀ other ∈ others objectMgr prev, player.isActive objectMgr other = true)) := by
  rw [counts_iff, Met]
  constructor
  · rintro ⟨prevInfo, hinfo, hmet⟩
    have hothers : ∀ P : ℕ → Prop, (prevInfo.exclusiveGroup < 0 →
        ∀ other ∈ objectMgr.othersOf prevInfo.exclusiveGroup prev.natAbs, P other) →
          ∀ other ∈ others objectMgr prev, P other := by
      intro P hP other hother
      simp only [others, hinfo] at hother
      split at hother
      · next hgroup => exact hP hgroup other hother
      · cases hother
    rcases hmet with ⟨hpos, hrewarded, hgroup⟩ | ⟨hneg, hactive, hgroup⟩
    · exact ⟨⟨prevInfo, hinfo, .inl ⟨hpos, hrewarded⟩⟩, .inl ⟨hpos, hothers _ hgroup⟩⟩
    · exact ⟨⟨prevInfo, hinfo, .inr ⟨hneg, hactive⟩⟩, .inr ⟨hneg, hothers _ hgroup⟩⟩
  · rintro ⟨⟨prevInfo, hinfo, hcounts⟩, hall⟩
    have hothers : prevInfo.exclusiveGroup < 0 →
        others objectMgr prev = objectMgr.othersOf prevInfo.exclusiveGroup prev.natAbs := by
      intro hgroup
      simp only [others, hinfo, if_pos hgroup]
    refine ⟨prevInfo, hinfo, ?_⟩
    rcases hcounts with ⟨hpos, hrewarded⟩ | ⟨hneg, hactive⟩
    · rcases hall with ⟨-, hall⟩ | ⟨hneg, -⟩
      · exact .inl ⟨hpos, hrewarded, fun hgroup => hothers hgroup ▸ hall⟩
      · omega
    · rcases hall with ⟨hpos, -⟩ | ⟨-, hall⟩
      · omega
      · exact .inr ⟨hneg, hactive, fun hgroup => hothers hgroup ▸ hall⟩

/-! ## 6. The loop over the previous quests -/

theorem passes_eq {prevInfo : Quest}
    (hinfo : objectMgr.getQuestTemplate prev.natAbs = some prevInfo) :
    player.passes objectMgr prev = if prevInfo.exclusiveGroup ≥ 0 then true
      else if prev > 0 then player.groupRewarded objectMgr prevInfo.exclusiveGroup prev.natAbs
      else player.groupNotActive objectMgr prevInfo.exclusiveGroup prev.natAbs := by
  simp only [passes, others, hinfo]
  by_cases hgroup : prevInfo.exclusiveGroup ≥ 0
  · have hnot : ¬ prevInfo.exclusiveGroup < 0 := by omega
    simp [hgroup, hnot]
  · have hnegative : prevInfo.exclusiveGroup < 0 := by omega
    rw [if_pos hnegative, if_neg hgroup]
    rfl

theorem ite_refuse_fst (b : Bool) {reason : QuestFailedReason} :
    (if b = true then (true, []) else refuse msg reason).1 = b := by
  cases b <;> rfl

/-- **The first listed quest that counts decides.** -/
theorem checkPrevQuests_eq : ∀ prevQuests : List ℤ,
    (player.checkPrevQuests objectMgr msg prevQuests).1 =
      match prevQuests.find? (player.counts objectMgr) with
      | none => false
      | some prev => player.passes objectMgr prev
  | [] => rfl
  | prev :: prevQuests => by
    have ih := checkPrevQuests_eq prevQuests
    rw [checkPrevQuests, List.find?_cons]
    cases hinfo : objectMgr.getQuestTemplate prev.natAbs with
    | none =>
      have hcounts : player.counts objectMgr prev = false := by simp [counts, hinfo]
      rw [hcounts]
      exact ih
    | some prevInfo =>
      by_cases hpositive : prev > 0 ∧ player.isRewarded prev.natAbs
      · have hcounts : player.counts objectMgr prev = true :=
          counts_iff.mpr ⟨prevInfo, hinfo, .inl hpositive⟩
        rw [hcounts]
        dsimp only
        rw [if_pos hpositive, passes_eq hinfo, if_pos hpositive.1]
        split
        · rfl
        · exact ite_refuse_fst _
      · by_cases hnegative : prev < 0 ∧ player.isActive objectMgr prev.natAbs
        · have hcounts : player.counts objectMgr prev = true :=
            counts_iff.mpr ⟨prevInfo, hinfo, .inr hnegative⟩
          have hpos : ¬ prev > 0 := by omega
          rw [hcounts]
          dsimp only
          rw [if_neg hpositive, if_pos hnegative, passes_eq hinfo, if_neg hpos]
          split
          · rfl
          · exact ite_refuse_fst _
        · have hcounts : player.counts objectMgr prev = false := by
            refine Bool.eq_false_iff.mpr fun hcounts => ?_
            obtain ⟨_, -, h⟩ := counts_iff.mp hcounts
            exact h.elim hpositive hnegative
          rw [hcounts]
          dsimp only
          rw [if_neg hpositive, if_neg hnegative]
          exact ih

/-- A quest that counts decides when it is listed first. -/
theorem satisfyQuestPreviousQuest_cons (hcounts : player.counts objectMgr prev = true) :
    (player.satisfyQuestPreviousQuest objectMgr (prev :: prevQuests) msg).1 =
      player.passes objectMgr prev := by
  rw [satisfyQuestPreviousQuest, if_neg (List.cons_ne_nil _ _), checkPrevQuests_eq,
    List.find?_cons_of_pos hcounts]

/-- A list whose quests that count agree is answered as each of them. -/
theorem satisfyQuestPreviousQuest_of_forall {answer : Bool}
    (hall : ∀ prev ∈ prevQuests, player.counts objectMgr prev →
      player.passes objectMgr prev = answer)
    (hsome : prevQuests ≠ [] ∧ answer = false ∨
      ∃ prev ∈ prevQuests, player.counts objectMgr prev) :
    (player.satisfyQuestPreviousQuest objectMgr prevQuests msg).1 = answer := by
  have hnil : prevQuests ≠ [] := by
    rcases hsome with ⟨hnil, -⟩ | ⟨prev, hprev, -⟩
    · exact hnil
    · exact List.ne_nil_of_mem hprev
  rw [satisfyQuestPreviousQuest, if_neg hnil, checkPrevQuests_eq]
  cases hfind : prevQuests.find? (player.counts objectMgr) with
  | none =>
    rcases hsome with ⟨-, hanswer⟩ | ⟨prev, hprev, hcounts⟩
    · exact hanswer.symm
    · exact absurd hcounts (List.find?_eq_none.mp hfind prev hprev)
  | some prev => exact hall prev (List.mem_of_find?_eq_some hfind) (List.find?_some hfind)

/-! ## 7. The loop over an exclusive group -/

/-- A quest that is accepted was compared with each other of its group. -/
theorem of_checkExclusiveGroup {sent : List QuestFailedReason} : ∀ {group : List ℕ},
    player.checkExclusiveGroup objectMgr quest msg group = some (true, sent) →
      ∀ excludeId ∈ group, player.getQuestStatus objectMgr excludeId = .none ∧
        ∃ other, objectMgr.getQuestTemplate excludeId = some other ∧
          (player.isRewarded excludeId → quest.isRepeatable ∧ other.isRepeatable)
  | [], _, excludeId, hmem => absurd hmem List.not_mem_nil
  | id :: group, h, excludeId, hmem => by
    rw [checkExclusiveGroup] at h
    cases hother : objectMgr.getQuestTemplate id with
    | none =>
      rw [hother] at h
      cases h
    | some other =>
      simp only [hother] at h
      split at h
      · cases h
      · split at h
        · cases h
        · next hstate =>
          rw [not_or] at hstate
          rcases List.mem_cons.mp hmem with rfl | hmem
          · refine ⟨?_, other, hother, fun hrewarded => ?_⟩
            · exact Decidable.byContradiction fun hne => hstate.1 (decide_eq_true hne)
            · exact Decidable.byContradiction fun hne => hstate.2 ⟨hne, hrewarded⟩
          · exact of_checkExclusiveGroup h excludeId hmem

theorem of_satisfyQuestExclusiveGroup {sent : List QuestFailedReason}
    (hgroup : quest.exclusiveGroup > 0)
    (h : player.satisfyQuestExclusiveGroup objectMgr quest msg = some (true, sent)) :
    ∀ excludeId ∈ objectMgr.othersOf quest.exclusiveGroup quest.questId,
      player.getQuestStatus objectMgr excludeId = .none ∧
        ∃ other, objectMgr.getQuestTemplate excludeId = some other ∧
          (player.isRewarded excludeId → quest.isRepeatable ∧ other.isRepeatable) := by
  rw [satisfyQuestExclusiveGroup, if_neg (by omega)] at h
  exact of_checkExclusiveGroup h

/-! ## 8. When the answer is right -/

/-- Of a quest that is listed positively the code asks what the rule does. -/
theorem passes_iff_of_positive (hpos : prev > 0) : player.passes objectMgr prev = true ↔
    ∀ other ∈ others objectMgr prev, player.isRewarded other = true := by
  rw [passes, if_pos hpos, List.all_eq_true]

/-- Of one that is listed negatively it asks the opposite. -/
theorem passes_iff_of_negative (hneg : prev < 0) : player.passes objectMgr prev = true ↔
    ∀ other ∈ others objectMgr prev, player.isActive objectMgr other = false := by
  rw [passes, if_neg (by omega), List.all_eq_true]
  simp only [Bool.not_eq_true']

theorem counts_sign (hcounts : player.counts objectMgr prev = true) : prev > 0 ∨ prev < 0 := by
  obtain ⟨_, -, ⟨hpos, -⟩ | ⟨hneg, -⟩⟩ := counts_iff.mp hcounts
  · exact .inl hpos
  · exact .inr hneg

/-- In a list that agrees on refusing, no quest meets the rule. -/
theorem not_met_of_refused (hpasses : player.passes objectMgr prev = false)
    (hothers : prev < 0 → ∃ other ∈ others objectMgr prev,
      player.isActive objectMgr other = false) : ¬ player.Met objectMgr prev := by
  rw [met_iff]
  rintro ⟨-, ⟨hpos, hall⟩ | ⟨hneg, hall⟩⟩
  · exact Bool.eq_false_iff.mp hpasses ((passes_iff_of_positive hpos).mpr hall)
  · obtain ⟨other, hother, hactive⟩ := hothers hneg
    exact Bool.eq_false_iff.mp hactive (hall other hother)

/-- A quest that counts, and has no others or is listed positively, meets the rule if the code
passes it. -/
theorem met_of_passes (hcounts : player.counts objectMgr prev = true)
    (hpasses : player.passes objectMgr prev = true)
    (hothers : prev > 0 ∨ others objectMgr prev = []) : player.Met objectMgr prev := by
  rw [met_iff]
  refine ⟨hcounts, ?_⟩
  rcases counts_sign hcounts with hpos | hneg
  · exact .inl ⟨hpos, (passes_iff_of_positive hpos).mp hpasses⟩
  · rcases hothers with hpos | hnil
    · omega
    · refine .inr ⟨hneg, fun other hother => ?_⟩
      rw [hnil] at hother
      cases hother

/-- An answer that is given to every order of the list is right when the rule gives it. -/
theorem decides_of_answer {answer : Bool}
    (hanswer : ∀ reordered : List ℤ, reordered.Perm prevQuests →
      (player.satisfyQuestPreviousQuest objectMgr reordered msg).1 = answer)
    (hrule : answer = true ↔ prevQuests = [] ∨ ∃ prev ∈ prevQuests, player.Met objectMgr prev) :
    player.Decides objectMgr quest prevQuests msg where
  accepts := by
    rw [hanswer prevQuests (List.Perm.refl _)]
    exact hrule
  order reordered hperm := (hanswer reordered hperm).trans (hanswer prevQuests (.refl _)).symm
  exclusive hgroup _ h := of_satisfyQuestExclusiveGroup hgroup h

/-- **When the answer is right**, in every order of the list; the check of the exclusive group
always is. -/
theorem decides_iff (objectMgr : ObjectMgr) (player : Player) (quest : Quest)
    (prevQuests : List ℤ) (msg : Bool) :
    player.Decides objectMgr quest prevQuests msg ↔ player.Agree objectMgr prevQuests := by
  constructor
  · intro h
    -- Each quest that counts decides in the order in which it is first.
    have hdecides : ∀ prev ∈ prevQuests, player.counts objectMgr prev →
        player.passes objectMgr prev =
          (player.satisfyQuestPreviousQuest objectMgr prevQuests msg).1 := by
      intro prev hprev hcounts
      rw [← h.order _ (List.perm_cons_erase hprev).symm, satisfyQuestPreviousQuest_cons hcounts]
    cases hanswer : (player.satisfyQuestPreviousQuest objectMgr prevQuests msg).1 with
    | false =>
      have hnone := fun hmet => Bool.eq_false_iff.mp hanswer (h.accepts.mpr hmet)
      refine .inr fun prev hprev hcounts => ⟨(hdecides prev hprev hcounts).trans hanswer, ?_⟩
      intro hneg
      by_contra hall
      refine hnone (.inr ⟨prev, hprev, met_iff.mpr ⟨hcounts, .inr ⟨hneg, fun other hother => ?_⟩⟩⟩)
      exact (Bool.not_eq_false _).mp fun hactive => hall ⟨other, hother, hactive⟩
    | true =>
      have hall := fun prev hprev hcounts => (hdecides prev hprev hcounts).trans hanswer
      rcases h.accepts.mp hanswer with rfl | ⟨prev, hprev, hmet⟩
      · exact .inr fun prev hprev => absurd hprev List.not_mem_nil
      · obtain ⟨hcounts, hothers⟩ := met_iff.mp hmet
        refine .inl ⟨hall, prev, hprev, hcounts, ?_⟩
        rcases hothers with ⟨hpos, -⟩ | ⟨hneg, hactive⟩
        · exact .inl hpos
        · have hnone := (passes_iff_of_negative hneg).mp (hall prev hprev hcounts)
          refine .inr (List.eq_nil_iff_forall_not_mem.mpr fun other hother => ?_)
          exact Bool.eq_false_iff.mp (hnone other hother) (hactive other hother)
  · rintro (⟨hall, prev, hprev, hcounts, hothers⟩ | hall)
    · have hmet := met_of_passes hcounts (hall prev hprev hcounts) hothers
      refine decides_of_answer (fun reordered hperm => ?_)
        (iff_of_true rfl (.inr ⟨prev, hprev, hmet⟩))
      exact satisfyQuestPreviousQuest_of_forall
        (fun prev hprev => hall prev (hperm.mem_iff.mp hprev))
        (.inr ⟨prev, hperm.mem_iff.mpr hprev, hcounts⟩)
    · by_cases hnil : prevQuests = []
      · subst hnil
        refine decides_of_answer (fun reordered hperm => ?_) (iff_of_true rfl (.inl rfl))
        rw [hperm.eq_nil]
        rfl
      · refine decides_of_answer (fun reordered hperm => ?_) (iff_of_false Bool.false_ne_true ?_)
        · refine satisfyQuestPreviousQuest_of_forall
            (fun prev hprev hcounts => (hall prev (hperm.mem_iff.mp hprev) hcounts).1)
            (.inl ⟨fun hreordered => hnil ?_, rfl⟩)
          rw [hreordered] at hperm
          exact hperm.symm.eq_nil
        · rintro (h | ⟨prev, hprev, hmet⟩)
          · exact hnil h
          · obtain ⟨hpasses, hothers⟩ := hall prev hprev (met_iff.mp hmet).1
            exact not_met_of_refused hpasses hothers hmet

end Player

/-! ## 9. A group of two -/

def plainQuest (questId : ℕ) (exclusiveGroup : ℤ) : Quest where
  questId := questId
  prevQuests := []
  exclusiveGroup := exclusiveGroup
  isRepeatable := false
  isDaily := false
  isDFQuest := false
  isWeekly := false
  isSeasonal := false
  isDisabled := false
  eventId := 0

/-- Two quests of a negative group, and one that follows. -/
def pairAndNext : ObjectMgr := ⟨[plainQuest 1 (-1), plainQuest 2 (-1), plainQuest 3 0]⟩

/-- A player who is on the first. -/
def onFirst : Player where
  questStatus := fun questId => if questId = 1 then some .incomplete else none
  rewardedQuests := []
  dfQuests := []
  dailyQuests := Vector.replicate 25 0
  weeklyquests := []
  seasonalquests := fun _ => []

/-- The first quest of the two is active, and the second is not: the next is accepted. -/
theorem one_of_two_active : ¬ onFirst.Decides pairAndNext (plainQuest 3 0) [-1] false := by
  intro h
  have haccepted : (onFirst.satisfyQuestPreviousQuest pairAndNext [-1] false).1 = true := by
    decide
  rcases h.accepts.mp haccepted with hnil | ⟨prev, hprev, hmet⟩
  · cases hnil
  · rw [List.mem_singleton.mp hprev, Player.met_iff] at hmet
    rcases hmet.2 with ⟨hpos, -⟩ | ⟨-, hactive⟩
    · exact absurd hpos (by decide)
    · exact absurd (hactive 2 (by decide)) (by decide)

end HungerGames.Quests
