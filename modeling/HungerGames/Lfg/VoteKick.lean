/-
# Vote kicks (`LFGMgr::InitBoot`, `UpdateBoot`, `Update`)

A member of a group asks for another to be kicked, and the group votes: three votes decide, either
way, and after two minutes it is over.  Who asks votes for it, and the victim against it.  While
the vote goes on, the group and its members are in `LFG_STATE_BOOT`.

There are three ways out of a vote, and each restores the states itself.  When the time is over
that is done for all who could vote.  When the vote decides, the victim is left out: rightly so if
he is kicked, but if he may stay he is in `LFG_STATE_BOOT` for good (`settled_iff`).
-/
import HungerGames.Lfg.Queue
import HungerGames.System.Run

namespace HungerGames.Lfg

open HungerGames.System

/-! ## 1. The stores of the manager -/

/-- `LFG_GROUP_KICK_VOTES_NEEDED` -/
def groupKickVotesNeeded : ℕ := 3

/-- `LFG_TIME_BOOT` -/
def lfgTimeBoot : ℕ := 120

structure LfgPlayerBoot where
  cancelTime : ℕ
  votes : SortedMap ObjectGuid LfgAnswer
  victim : ObjectGuid

/-- What the manager knows of groups and players: their states, the group of a player (0 for
none), the players of a group and the kicks it has left, and the votes that go on. -/
structure KickMgr where
  state : ObjectGuid → LfgState
  group : ObjectGuid → ObjectGuid
  players : ObjectGuid → List ObjectGuid
  kicksLeft : ObjectGuid → ℕ
  bootsStore : SortedMap ObjectGuid LfgPlayerBoot

namespace KickMgr

variable (s : KickMgr)

/-- `SetState` for each of some guids. -/
def setStates (guids : List ObjectGuid) (state : LfgState) : KickMgr :=
  { s with state := fun guid => if guid ∈ guids then state else s.state guid }

/-- `LeaveLfg` of a member of a group.  The other cases are those of a player who is in a queue, a
role check or a proposal. -/
def leaveLfg (guid : ObjectGuid) : KickMgr :=
  match s.state guid with
  | .dungeon | .finishedDungeon | .boot => s.setStates [guid] .none
  | _ => s

/-- `Player::RemoveFromGroup` with `GROUP_REMOVEMETHOD_KICK_LFG`: what `OnRemoveMember` does here.
The group has more than three members, and is not disbanded. -/
def removeFromGroup (gguid guid : ObjectGuid) : KickMgr :=
  let s := s.leaveLfg guid
  { s with
    group := Function.update s.group guid 0
    players := Function.update s.players gguid ((s.players gguid).filter (· ≠ guid)) }

/-- `DecreaseKicksLeft` -/
def decreaseKicksLeft (gguid : ObjectGuid) : KickMgr :=
  { s with kicksLeft := Function.update s.kicksLeft gguid (s.kicksLeft gguid - 1) }

/-! ## 2. Votes -/

/-- No member has answered. -/
def setPending (players : List ObjectGuid) (votes : SortedMap ObjectGuid LfgAnswer) :
    SortedMap ObjectGuid LfgAnswer :=
  players.foldl (fun votes guid => votes.insert guid .pending) votes

/-- The votes of a new boot, put over those that are there. -/
def initVotes (players : List ObjectGuid) (kicker victim : ObjectGuid)
    (votes : SortedMap ObjectGuid LfgAnswer) : SortedMap ObjectGuid LfgAnswer :=
  ((setPending players votes).insert victim .deny).insert kicker .agree

/-- `InitBoot` -/
def initBoot (now : ℕ) (gguid kicker victim : ObjectGuid) : KickMgr :=
  let boot := (s.bootsStore.lookup gguid).getD ⟨0, .empty, 0⟩
  { s.setStates (gguid :: s.players gguid) .boot with
    bootsStore := s.bootsStore.insert gguid
      { cancelTime := now + lfgTimeBoot
        votes := initVotes (s.players gguid) kicker victim boot.votes
        victim } }

/-- A request to kick a player, with what `CanUninviteFromGroup` and the handler check. -/
def requestKick (now : ℕ) (kicker victim : ObjectGuid) : KickMgr :=
  let gguid := s.group kicker
  if gguid = 0 ∨ victim = kicker ∨ s.kicksLeft gguid = 0 ∨ s.state gguid = .boot ∨
      (s.players gguid).length ≤ groupKickVotesNeeded ∨ s.state gguid = .finishedDungeon ∨
      victim ∉ s.players gguid then s
  else s.initBoot now gguid kicker victim

/-- `LfgAnswer(accept)` -/
def toAnswer (accept : Bool) : LfgAnswer := if accept then .agree else .deny

/-- The votes that are cast, of those that count here, in 8 bits. -/
def numVotes (counts : LfgAnswer → Bool) (votes : SortedMap ObjectGuid LfgAnswer) : ℕ :=
  votes.values.countP counts % 2 ^ 8

/-- A vote has been decided. -/
def finishBoot (gguid : ObjectGuid) (boot : LfgPlayerBoot) (agreeNum : ℕ) : KickMgr :=
  let s := s.setStates (boot.votes.keys.filter (· ≠ boot.victim)) .dungeon
  let s := s.setStates [gguid] .dungeon
  let s :=
    if agreeNum = groupKickVotesNeeded then
      (s.removeFromGroup gguid boot.victim).decreaseKicksLeft gguid
    else s
  { s with bootsStore := s.bootsStore.erase gguid }

/-- `UpdateBoot`.  Reading the vote of a guid that has none inserts the value 0, which is
`LFG_ANSWER_DENY`. -/
def updateBoot (guid : ObjectGuid) (accept : Bool) : KickMgr :=
  let gguid := s.group guid
  if gguid = 0 then s
  else match s.bootsStore.lookup gguid with
  | none => s
  | some boot =>
    match boot.votes.lookup guid with
    | none =>
      let boot := { boot with votes := boot.votes.insert guid .deny }
      { s with bootsStore := s.bootsStore.insert gguid boot }
    | some .pending =>
      let boot := { boot with votes := boot.votes.insert guid (toAnswer accept) }
      let votesNum := numVotes (· ≠ .pending) boot.votes
      let agreeNum := numVotes (· = .agree) boot.votes
      if agreeNum < groupKickVotesNeeded ∧ (votesNum : ℤ) - agreeNum < groupKickVotesNeeded then
        { s with bootsStore := s.bootsStore.insert gguid boot }
      else s.finishBoot gguid boot agreeNum
    | some _ => s

/-- An obsolete kick is removed. -/
def removeBoot (gguid : ObjectGuid) (boot : LfgPlayerBoot) : KickMgr :=
  let s := (s.setStates boot.votes.keys .dungeon).setStates [gguid] .dungeon
  { s with bootsStore := s.bootsStore.erase gguid }

/-- The part of `Update` that removes obsolete kicks. -/
def removeObsoleteKicks (currTime : ℕ) : KickMgr :=
  s.bootsStore.entries.foldl
    (fun s (gguid, boot) => if boot.cancelTime < currTime then s.removeBoot gguid boot else s) s

/-! ## 3. Runs -/

inductive Kick where
  /-- A player is to be kicked. -/
  | request (now : ℕ) (kicker victim : ObjectGuid)
  /-- `CMSG_LFG_SET_BOOT_VOTE` -/
  | vote (guid : ObjectGuid) (agree : Bool)
  /-- `Update` -/
  | update (currTime : ℕ)

def step : Kick → KickMgr
  | .request now kicker victim => s.requestKick now kicker victim
  | .vote guid agree => s.updateBoot guid agree
  | .update currTime => s.removeObsoleteKicks currTime

end KickMgr

/-! ## 4. What a vote should do -/

/-- The players who have answered so. -/
def answers (a : LfgAnswer) (votes : SortedMap ObjectGuid LfgAnswer) : ℕ :=
  votes.values.countP (· = a)

namespace KickMgr

/-- The votes of a group after a step: a member who has not answered yet is heard. -/
def heard (s : KickMgr) (i : Kick) (gguid : ObjectGuid) (votes : SortedMap ObjectGuid LfgAnswer) :
    SortedMap ObjectGuid LfgAnswer :=
  match i with
  | .vote guid agree =>
    if s.group guid = gguid ∧ votes.lookup guid = some .pending then
      votes.insert guid (toAnswer agree)
    else votes
  | _ => votes

/-- An update comes after the time to vote. -/
def TimeOver (boot : LfgPlayerBoot) : Kick → Prop
  | .update currTime => boot.cancelTime < currTime
  | _ => False

/-- **A vote that goes on is handled as it should be.**  It ends when three have agreed, when three
have denied, or when its time is over; else the member who votes is heard, if he has not been
before.  The victim goes exactly when three have agreed, and at the end the group and all who are
left in it are back in the dungeon. -/
structure SettledAt (s : KickMgr) (i : Kick) (gguid : ObjectGuid) (boot : LfgPlayerBoot) :
    Prop where
  ended : (s.step i).bootsStore.lookup gguid = none ↔
    answers .agree (s.heard i gguid boot.votes) = groupKickVotesNeeded ∨
      answers .deny (s.heard i gguid boot.votes) = groupKickVotesNeeded ∨ TimeOver boot i
  continued : ∀ boot', (s.step i).bootsStore.lookup gguid = some boot' →
    boot' = { boot with votes := s.heard i gguid boot.votes }
  once : ∀ guid a, a ≠ .pending → boot.votes.lookup guid = some a →
    (s.heard i gguid boot.votes).lookup guid = some a
  removed : boot.victim ∉ (s.step i).players gguid ↔
    answers .agree (s.heard i gguid boot.votes) = groupKickVotesNeeded
  others : ∀ guid, guid ≠ boot.victim →
    (guid ∈ (s.step i).players gguid ↔ guid ∈ s.players gguid)
  restored : (s.step i).bootsStore.lookup gguid = none →
    (s.step i).state gguid = .dungeon ∧
      ∀ guid ∈ (s.step i).players gguid, (s.step i).state guid = .dungeon

/-- **A vote begins** when a member asks for it: he agrees, the victim denies, and the others have
not answered. -/
def BeginsAt (s : KickMgr) (i : Kick) (gguid : ObjectGuid) : Prop :=
  ∀ boot, (s.step i).bootsStore.lookup gguid = some boot →
    ∃ now kicker, i = .request now kicker boot.victim ∧ s.group kicker = gguid ∧
      boot.cancelTime = now + lfgTimeBoot ∧ ∀ guid, boot.votes.lookup guid =
        if guid ∈ s.players gguid then
          some (if guid = kicker then .agree else if guid = boot.victim then .deny else .pending)
        else none

/-- A step does with every group what it should. -/
def Settled (s : KickMgr) (i : Kick) : Prop :=
  ∀ gguid, match s.bootsStore.lookup gguid with
    | some boot => s.SettledAt i gguid boot
    | none => s.BeginsAt i gguid

/-- The step is not a third denial, which lets the victim stay. -/
def NotThirdDenial (s : KickMgr) (i : Kick) : Prop :=
  ∀ guid boot, i = .vote guid false → s.bootsStore.lookup (s.group guid) = some boot →
    boot.votes.lookup guid = some .pending → answers .deny boot.votes + 1 ≠ groupKickVotesNeeded

/-! ## 5. The invariant -/

/-- A vote that goes on is undecided, and those who can vote are the members, who are all in it. -/
structure BootWell (s : KickMgr) (gguid : ObjectGuid) (boot : LfgPlayerBoot) : Prop where
  group : gguid ≠ 0 ∧ isGroup gguid = true
  voters : ∀ guid, guid ∈ boot.votes.keys ↔ guid ∈ s.players gguid
  victim : boot.victim ∈ s.players gguid
  agree : answers .agree boot.votes < groupKickVotesNeeded
  deny : answers .deny boot.votes < groupKickVotesNeeded
  state : s.state gguid = .boot
  states : ∀ guid ∈ s.players gguid, s.state guid = .boot

/-- **The invariant of the manager.** -/
structure Well (s : KickMgr) : Prop where
  member : ∀ guid gguid, gguid ≠ 0 → (s.group guid = gguid ↔ guid ∈ s.players gguid)
  kinds : ∀ guid, s.group guid ≠ 0 → isGroup (s.group guid) = true ∧ isGroup guid = false
  boots : ∀ gguid boot, s.bootsStore.lookup gguid = some boot → s.BootWell gguid boot

variable {s s' : KickMgr} {gguid gguid' guid : ObjectGuid} {boot : LfgPlayerBoot}

theorem Well.ne_of_mem (h : s.Well) (hg : gguid ≠ 0) (hmem : guid ∈ s.players gguid)
    (hg' : isGroup gguid' = true) : guid ≠ gguid' := by
  rintro rfl
  have hgroup := (h.member guid gguid hg).mpr hmem
  rw [(h.kinds guid (hgroup ▸ hg)).2] at hg'
  nomatch hg'

theorem Well.eq_of_mem (h : s.Well) (hg : gguid ≠ 0) (hg' : gguid' ≠ 0)
    (hmem : guid ∈ s.players gguid) (hmem' : guid ∈ s.players gguid') : gguid = gguid' :=
  ((h.member guid gguid hg).mpr hmem).symm.trans ((h.member guid gguid' hg').mpr hmem')

/-- What a step of one group leaves as it is. -/
structure Only (gguid : ObjectGuid) (s s' : KickMgr) : Prop where
  lookup : ∀ g, g ≠ gguid → s'.bootsStore.lookup g = s.bootsStore.lookup g
  players : ∀ g, g ≠ gguid → s'.players g = s.players g
  state : ∀ guid, guid ≠ gguid → guid ∉ s.players gguid → s'.state guid = s.state guid

/-- The votes of the other groups go on as they are. -/
theorem Only.bootWell (h : Only gguid s s') (hs : s.Well) (hg : gguid ≠ 0)
    (hgroup : isGroup gguid = true) (hne : gguid' ≠ gguid) (hboot : s.BootWell gguid' boot) :
    s'.BootWell gguid' boot := by
  have hplayers := h.players gguid' hne
  refine ⟨hboot.group, ?_, ?_, hboot.agree, hboot.deny, ?_, ?_⟩
  · rw [hplayers]
    exact hboot.voters
  · rw [hplayers]
    exact hboot.victim
  · rw [h.state gguid' hne fun hmem => hs.ne_of_mem hg hmem hboot.group.2 rfl]
    exact hboot.state
  · rw [hplayers]
    intro guid hmem
    rw [h.state guid (hs.ne_of_mem hboot.group.1 hmem hgroup)
      fun hmem' => hne (hs.eq_of_mem hboot.group.1 hg hmem hmem')]
    exact hboot.states guid hmem

/-- A vote that a step leaves as it is, with nobody heard. -/
theorem settledAt_same {i : Kick} (hwell : s.BootWell gguid boot)
    (hlookup : (s.step i).bootsStore.lookup gguid = some boot)
    (hplayers : (s.step i).players gguid = s.players gguid)
    (hheard : s.heard i gguid boot.votes = boot.votes) (htime : ¬ TimeOver boot i) :
    s.SettledAt i gguid boot := by
  refine ⟨?_, ?_, ?_, ?_, ?_, ?_⟩
  · rw [hlookup, hheard]
    simp only [reduceCtorEq, false_iff]
    rintro (hagree | hdeny | hover)
    · exact absurd hagree hwell.agree.ne
    · exact absurd hdeny hwell.deny.ne
    · exact htime hover
  · intro boot' hboot'
    rw [hlookup] at hboot'
    rw [hheard]
    exact (Option.some.inj hboot').symm
  · intro guid a _ ha
    rw [hheard]
    exact ha
  · rw [hheard, hplayers]
    exact iff_of_false (fun hnot => hnot hwell.victim) hwell.agree.ne
  · rw [hplayers]
    exact fun _ _ => Iff.rfl
  · intro hnone
    rw [hlookup] at hnone
    nomatch hnone

theorem beginsAt_of_none {i : Kick} (h : (s.step i).bootsStore.lookup gguid = none) :
    s.BeginsAt i gguid := by
  intro boot hboot
  rw [h] at hboot
  nomatch hboot

/-- To the other groups the step does what it should. -/
theorem Only.settled {i : Kick} (h : Only gguid s (s.step i)) (hs : s.Well) (hne : gguid' ≠ gguid)
    (hheard : ∀ votes, s.heard i gguid' votes = votes) (htime : ∀ boot, ¬ TimeOver boot i) :
    match s.bootsStore.lookup gguid' with
    | some boot => s.SettledAt i gguid' boot
    | none => s.BeginsAt i gguid' := by
  have hlookup := h.lookup gguid' hne
  cases hboot : s.bootsStore.lookup gguid' with
  | none => exact beginsAt_of_none (hlookup.trans hboot)
  | some boot =>
    exact settledAt_same (hs.boots gguid' boot hboot) (hlookup.trans hboot) (h.players gguid' hne)
      (hheard _) (htime boot)

/-- A step that does nothing, where nobody is heard. -/
theorem settled_same {i : Kick} (hs : s.Well) (h : s.step i = s)
    (hheard : ∀ gguid boot, s.bootsStore.lookup gguid = some boot →
      s.heard i gguid boot.votes = boot.votes) (htime : ∀ boot, ¬ TimeOver boot i) :
    s.Settled i := by
  intro gguid
  cases hboot : s.bootsStore.lookup gguid with
  | none => exact beginsAt_of_none (by rw [h, hboot])
  | some boot =>
    exact settledAt_same (hs.boots gguid boot hboot) (by rw [h, hboot]) (by rw [h])
      (hheard gguid boot hboot) (htime boot)

/-! ## 6. Votes -/

section Votes

variable {votes : SortedMap ObjectGuid LfgAnswer} {a v : LfgAnswer}

theorem mem_keys_iff : guid ∈ votes.keys ↔ ∃ a, votes.lookup guid = some a := by
  simp only [SortedMap.mem_keys, SortedMap.lookup_eq_some]

/-- An answer to come is one more of its kind. -/
theorem answers_insert (h : votes.lookup guid = some .pending) (ha : a ≠ .pending) :
    answers a (votes.insert guid v) = answers a votes + if v = a then 1 else 0 := by
  obtain ⟨others, hvotes, hinsert, -⟩ := votes.values_split guid
  rw [h, Option.toList_some, List.singleton_append] at hvotes
  simp only [answers, (hinsert v).countP_eq, hvotes.countP_eq, List.countP_cons, decide_eq_true_eq,
    ha.symm, if_false, Nat.add_zero]

theorem answers_insert_le (h : votes.lookup guid = some .pending) (ha : a ≠ .pending) :
    answers a (votes.insert guid v) ≤ answers a votes + 1 := by
  rw [answers_insert h ha]
  split <;> omega

theorem countP_answered (votes : SortedMap ObjectGuid LfgAnswer) :
    votes.values.countP (· ≠ .pending) = answers .agree votes + answers .deny votes := by
  simp only [answers]
  induction votes.values with
  | nil => rfl
  | cons v vs ih =>
    simp only [List.countP_cons, ih]
    cases v <;> simp <;> omega

/-- As long as few have answered, 8 bits are enough. -/
theorem numVotes_eq {votes : SortedMap ObjectGuid LfgAnswer} {n k : ℕ}
    (hn : answers .agree votes = n) (hk : answers .deny votes = k) (hle : n + k < 2 ^ 8) :
    numVotes (· = .agree) votes = n ∧ numVotes (· ≠ .pending) votes = n + k := by
  have hanswered := countP_answered votes
  simp only [answers] at hn
  rw [hk] at hanswered
  simp only [numVotes, hn, hanswered, answers]
  omega

theorem lookup_setPending (guid : ObjectGuid) (players : List ObjectGuid) :
    ∀ votes : SortedMap ObjectGuid LfgAnswer, (setPending players votes).lookup guid =
      if guid ∈ players then some .pending else votes.lookup guid := by
  induction players with
  | nil => exact fun _ => rfl
  | cons player players ih =>
    intro votes
    have hnext := ih (votes.insert player .pending)
    rw [SortedMap.lookup_insert] at hnext
    refine hnext.trans ?_
    by_cases hmem : guid ∈ players
    · simp [hmem]
    · simp [hmem]

theorem answers_setPending (players : List ObjectGuid) (ha : a ≠ .pending) :
    answers a (setPending players .empty) = 0 := by
  refine List.countP_eq_zero.mpr fun v hv => ?_
  obtain ⟨⟨guid, v⟩, hmem, rfl⟩ := List.mem_map.mp hv
  rw [← SortedMap.lookup_eq_some, lookup_setPending] at hmem
  split at hmem
  · simpa [← Option.some.inj hmem] using ha.symm
  · nomatch hmem

end Votes

/-- The votes of a new boot. -/
theorem lookup_initVotes {players : List ObjectGuid} {kicker victim : ObjectGuid}
    (hkicker : kicker ∈ players) (hvictim : victim ∈ players) :
    (initVotes players kicker victim .empty).lookup guid =
      if guid ∈ players then
        some (if guid = kicker then .agree else if guid = victim then .deny else .pending)
      else none := by
  rw [initVotes, SortedMap.lookup_insert, SortedMap.lookup_insert, lookup_setPending]
  by_cases hk : guid = kicker
  · simp [hk, hkicker]
  · by_cases hv : guid = victim
    · subst hv
      simp [hk, hvictim]
    · simp [hk, hv, SortedMap.lookup, SortedMap.empty]

theorem answers_initVotes {players : List ObjectGuid} {kicker victim : ObjectGuid}
    (hkicker : kicker ∈ players) (hvictim : victim ∈ players) (hne : victim ≠ kicker) :
    answers .agree (initVotes players kicker victim .empty) = 1 ∧
      answers .deny (initVotes players kicker victim .empty) = 1 := by
  have hfirst := lookup_setPending victim players .empty
  rw [if_pos hvictim] at hfirst
  have hsecond : ((setPending players .empty).insert victim .deny).lookup kicker =
      some .pending := by
    rw [SortedMap.lookup_insert, if_neg hne.symm, lookup_setPending, if_pos hkicker]
  constructor
  · rw [initVotes, answers_insert hsecond (by decide), answers_insert hfirst (by decide),
      answers_setPending players (by decide)]
    rfl
  · rw [initVotes, answers_insert hsecond (by decide), answers_insert hfirst (by decide),
      answers_setPending players (by decide)]
    rfl

/-! ## 7. One step -/

/-- A request is refused, or a vote begins in the group. -/
theorem request_cases (s : KickMgr) (now : ℕ) (kicker victim : ObjectGuid) :
    s.requestKick now kicker victim = s ∨
      s.group kicker ≠ 0 ∧ victim ≠ kicker ∧ s.state (s.group kicker) ≠ .boot ∧
        victim ∈ s.players (s.group kicker) ∧
        s.requestKick now kicker victim = s.initBoot now (s.group kicker) kicker victim := by
  simp only [requestKick]
  split
  · exact Or.inl rfl
  · rename_i hnot
    simp only [not_or, not_not] at hnot
    exact Or.inr ⟨hnot.1, hnot.2.1, hnot.2.2.2.1, hnot.2.2.2.2.2.2, rfl⟩

theorem request_spec (hs : s.Well) (now : ℕ) (kicker victim : ObjectGuid) :
    (s.step (.request now kicker victim)).Well ∧ s.Settled (.request now kicker victim) := by
  rcases request_cases s now kicker victim with hsame | ⟨hg, hne, hstate, hvictim, heq⟩
  · have hstep : s.step (.request now kicker victim) = s := hsame
    exact ⟨hstep.symm ▸ hs, settled_same hs hstep (fun _ _ _ => rfl) fun _ => id⟩
  have hkicker : kicker ∈ s.players (s.group kicker) := (hs.member kicker _ hg).mp rfl
  have hgroup := (hs.kinds kicker hg).1
  have hnone : s.bootsStore.lookup (s.group kicker) = none := by
    cases hboot : s.bootsStore.lookup (s.group kicker) with
    | none => rfl
    | some boot => exact absurd (hs.boots _ boot hboot).state hstate
  have hstep : s.step (.request now kicker victim) =
      s.initBoot now (s.group kicker) kicker victim := heq
  have hlookup : ∀ g, (s.step (.request now kicker victim)).bootsStore.lookup g =
      if g = s.group kicker then some
        ⟨now + lfgTimeBoot, initVotes (s.players (s.group kicker)) kicker victim .empty, victim⟩
      else s.bootsStore.lookup g := by
    intro g
    rw [hstep, initBoot, hnone]
    exact SortedMap.lookup_insert ..
  have honly : Only (s.group kicker) s (s.step (.request now kicker victim)) := by
    refine ⟨fun g hgne => ?_, fun _ _ => by rw [hstep]; rfl, fun guid hgne hmem => ?_⟩
    · rw [hlookup, if_neg hgne]
    · rw [hstep]
      exact if_neg fun h => (List.mem_cons.mp h).elim hgne hmem
  constructor
  · refine ⟨?_, ?_, fun g boot hboot => ?_⟩
    · rw [hstep]
      exact hs.member
    · rw [hstep]
      exact hs.kinds
    · rw [hlookup] at hboot
      split at hboot
      · rename_i hgeq
        obtain rfl := Option.some.inj hboot
        subst hgeq
        obtain ⟨hagree, hdeny⟩ := answers_initVotes hkicker hvictim hne
        refine ⟨⟨hg, hgroup⟩, ?_, ?_, ?_, ?_, ?_, ?_⟩
        · intro guid
          rw [mem_keys_iff, lookup_initVotes hkicker hvictim, hstep]
          by_cases hmem : guid ∈ s.players (s.group kicker)
          · simp [hmem, initBoot, setStates]
          · simp [hmem, initBoot, setStates]
        · rw [hstep]
          exact hvictim
        · simp only [hagree]
          decide
        · simp only [hdeny]
          decide
        · rw [hstep]
          exact if_pos List.mem_cons_self
        · intro guid hmem
          rw [hstep] at hmem ⊢
          exact if_pos (List.mem_cons_of_mem _ hmem)
      · rename_i hgne
        exact honly.bootWell hs hg hgroup hgne (hs.boots g boot hboot)
  · intro g
    by_cases hgeq : g = s.group kicker
    · subst hgeq
      rw [hnone]
      intro boot hboot
      rw [hlookup, if_pos rfl] at hboot
      obtain rfl := Option.some.inj hboot
      exact ⟨now, kicker, rfl, rfl, rfl, fun guid => lookup_initVotes hkicker hvictim⟩
    · exact honly.settled hs hgeq (fun _ => rfl) fun _ => id

theorem leaveLfg_spec (s : KickMgr) (guid : ObjectGuid) :
    (s.leaveLfg guid).group = s.group ∧ (s.leaveLfg guid).players = s.players ∧
      (s.leaveLfg guid).bootsStore = s.bootsStore ∧
      ∀ p, p ≠ guid → (s.leaveLfg guid).state p = s.state p := by
  have hset : ∀ p, p ≠ guid → (s.setStates [guid] .none).state p = s.state p := fun p hp =>
    if_neg fun hmem => hp (List.mem_singleton.mp hmem)
  simp only [leaveLfg]
  split <;> first | exact ⟨rfl, rfl, rfl, hset⟩ | exact ⟨rfl, rfl, rfl, fun _ _ => rfl⟩

/-- What is left of a vote that three have agreed to. -/
theorem finishBoot_agreed (s : KickMgr) (gguid : ObjectGuid) (boot : LfgPlayerBoot) :
    let s' := s.finishBoot gguid boot groupKickVotesNeeded
    s'.group = Function.update s.group boot.victim 0 ∧
      s'.players =
        Function.update s.players gguid ((s.players gguid).filter (· ≠ boot.victim)) ∧
      s'.bootsStore = s.bootsStore.erase gguid ∧
      ∀ p, p ≠ boot.victim → s'.state p =
        if p = gguid ∨ p ∈ boot.votes.keys then .dungeon else s.state p := by
  simp only [finishBoot, if_true, removeFromGroup, decreaseKicksLeft]
  generalize hset : (s.setStates (boot.votes.keys.filter (· ≠ boot.victim)) .dungeon).setStates
    [gguid] .dungeon = t
  obtain ⟨hgroup, hplayers, hboots, hstate⟩ := t.leaveLfg_spec boot.victim
  subst hset
  refine ⟨by rw [hgroup]; rfl, by rw [hplayers]; rfl, by rw [hboots]; rfl, fun p hp => ?_⟩
  rw [hstate p hp]
  simp only [setStates, List.mem_singleton, List.mem_filter, decide_eq_true_eq]
  by_cases hg : p = gguid
  · simp [hg]
  · by_cases hmem : p ∈ boot.votes.keys
    · simp [hg, hmem, hp]
    · simp [hg, hmem]

/-- What is left of one that comes to nothing: the victim keeps his state. -/
theorem finishBoot_denied (s : KickMgr) (gguid : ObjectGuid) (boot : LfgPlayerBoot) {n : ℕ}
    (hn : n ≠ groupKickVotesNeeded) :
    let s' := s.finishBoot gguid boot n
    s'.group = s.group ∧ s'.players = s.players ∧ s'.bootsStore = s.bootsStore.erase gguid ∧
      ∀ p, s'.state p =
        if p = gguid ∨ p ∈ boot.votes.keys ∧ p ≠ boot.victim then .dungeon else s.state p := by
  simp only [finishBoot, if_neg hn]
  refine ⟨rfl, rfl, rfl, fun p => ?_⟩
  simp only [setStates, List.mem_singleton, List.mem_filter, decide_eq_true_eq]
  by_cases hg : p = gguid
  · simp [hg]
  · simp [hg]

/-- What a member does who has not answered yet. -/
theorem updateBoot_eq (agree : Bool) (hg : s.group guid ≠ 0)
    (hboot : s.bootsStore.lookup (s.group guid) = some boot)
    (hvote : boot.votes.lookup guid = some .pending) (hwell : s.BootWell (s.group guid) boot) :
    let votes := boot.votes.insert guid (toAnswer agree)
    s.updateBoot guid agree =
      if answers .agree votes < groupKickVotesNeeded ∧
          answers .deny votes < groupKickVotesNeeded then
        { s with bootsStore := s.bootsStore.insert (s.group guid) { boot with votes := votes } }
      else s.finishBoot (s.group guid) { boot with votes := votes } (answers .agree votes) := by
  intro votes
  have hagree : answers .agree votes ≤ 3 :=
    (answers_insert_le hvote (by decide)).trans hwell.agree
  have hdeny : answers .deny votes ≤ 3 :=
    (answers_insert_le hvote (by decide)).trans hwell.deny
  obtain ⟨hone, hall⟩ := @numVotes_eq votes _ _ rfl rfl (by omega)
  have hiff : (answers .agree votes < groupKickVotesNeeded ∧
      ((answers .agree votes + answers .deny votes : ℕ) : ℤ) - (answers .agree votes : ℕ) <
        (groupKickVotesNeeded : ℕ)) ↔
      answers .agree votes < groupKickVotesNeeded ∧ answers .deny votes < groupKickVotesNeeded := by
    omega
  simp only [updateBoot, if_neg hg, hboot, hvote]
  rw [hone, hall, if_congr hiff rfl rfl]

/-- The vote of a member leaves the other groups as they are. -/
theorem only_updateBoot (hs : s.Well) (agree : Bool) (hg : s.group guid ≠ 0)
    (hboot : s.bootsStore.lookup (s.group guid) = some boot)
    (hvote : boot.votes.lookup guid = some .pending) :
    Only (s.group guid) s (s.updateBoot guid agree) := by
  have hwell := hs.boots _ boot hboot
  have hkeys : ∀ p v, p ∈ (boot.votes.insert guid v).keys → p ∈ s.players (s.group guid) := by
    intro p v hp
    rw [mem_keys_iff, SortedMap.lookup_insert] at hp
    split at hp
    · rename_i heq
      exact heq ▸ (hs.member guid _ hg).mp rfl
    · exact (hwell.voters p).mp (mem_keys_iff.mpr hp)
  rw [updateBoot_eq agree hg hboot hvote hwell]
  split
  · exact ⟨fun g hne => (SortedMap.lookup_insert ..).trans (if_neg hne), fun _ _ => rfl,
      fun _ _ _ => rfl⟩
  · by_cases hagree : answers .agree (boot.votes.insert guid (toAnswer agree)) =
      groupKickVotesNeeded
    · rw [hagree]
      obtain ⟨-, hplayers, hboots, hstate⟩ := finishBoot_agreed s (s.group guid)
        { boot with votes := boot.votes.insert guid (toAnswer agree) }
      refine ⟨fun g hne => ?_, fun g hne => ?_, fun p hne hmem => ?_⟩
      · rw [hboots, SortedMap.lookup_erase, if_neg hne]
      · rw [hplayers, Function.update_of_ne hne]
      · rw [hstate p fun heq => hmem (heq ▸ hwell.victim),
          if_neg fun h => h.elim hne fun h => hmem (hkeys p _ h)]
    · obtain ⟨-, hplayers, hboots, hstate⟩ := finishBoot_denied s (s.group guid)
        { boot with votes := boot.votes.insert guid (toAnswer agree) } hagree
      refine ⟨fun g hne => ?_, fun g hne => ?_, fun p hne hmem => ?_⟩
      · rw [hboots, SortedMap.lookup_erase, if_neg hne]
      · rw [hplayers]
      · rw [hstate, if_neg fun h => h.elim hne fun h => hmem (hkeys p _ h.1)]

/-- The new votes, and how many there are of each kind. -/
theorem BootWell.heard (hwell : s.BootWell gguid boot) {a : LfgAnswer}
    (hvote : boot.votes.lookup guid = some .pending) :
    (∀ p, p ∈ (boot.votes.insert guid a).keys ↔ p ∈ s.players gguid) ∧
      answers .agree (boot.votes.insert guid a) ≤ groupKickVotesNeeded ∧
      answers .deny (boot.votes.insert guid a) ≤ groupKickVotesNeeded ∧
      (answers .agree (boot.votes.insert guid a) < groupKickVotesNeeded ∨
        answers .deny (boot.votes.insert guid a) < groupKickVotesNeeded) := by
  have hagree := hwell.agree
  have hdeny := hwell.deny
  refine ⟨fun p => ?_, ?_, ?_, ?_⟩
  · rw [← hwell.voters, mem_keys_iff, mem_keys_iff, SortedMap.lookup_insert]
    split
    · rename_i heq
      rw [heq, hvote]
      exact ⟨fun _ => ⟨_, rfl⟩, fun _ => ⟨_, rfl⟩⟩
    · exact Iff.rfl
  · exact (answers_insert_le hvote (by decide)).trans hagree
  · exact (answers_insert_le hvote (by decide)).trans hdeny
  · rw [answers_insert hvote (by decide), answers_insert hvote (by decide)]
    cases a
    · exact Or.inl hagree
    · exact Or.inl hagree
    · exact Or.inr hdeny

theorem well_updateBoot (hs : s.Well) (agree : Bool) (hg : s.group guid ≠ 0)
    (hboot : s.bootsStore.lookup (s.group guid) = some boot)
    (hvote : boot.votes.lookup guid = some .pending) : (s.updateBoot guid agree).Well := by
  have hwell := hs.boots _ boot hboot
  have honly := only_updateBoot hs agree hg hboot hvote
  have hother : ∀ g boot', g ≠ s.group guid →
      (s.updateBoot guid agree).bootsStore.lookup g = some boot' →
      (s.updateBoot guid agree).BootWell g boot' := by
    intro g boot' hne hboot'
    rw [honly.lookup g hne] at hboot'
    exact honly.bootWell hs hg hwell.group.2 hne (hs.boots g boot' hboot')
  obtain ⟨hkeys, -⟩ := hwell.heard hvote (a := toAnswer agree)
  have heq := updateBoot_eq agree hg hboot hvote hwell
  dsimp only at heq
  split at heq
  · rename_i hfew
    refine ⟨by rw [heq]; exact hs.member, by rw [heq]; exact hs.kinds, fun g boot' hboot' => ?_⟩
    by_cases hne : g = s.group guid
    · subst hne
      rw [heq] at hboot' ⊢
      rw [SortedMap.lookup_insert, if_pos rfl] at hboot'
      obtain rfl := Option.some.inj hboot'
      exact ⟨hwell.group, hkeys, hwell.victim, hfew.1, hfew.2, hwell.state, hwell.states⟩
    · exact hother g boot' hne hboot'
  · have hgone : (s.updateBoot guid agree).bootsStore.lookup (s.group guid) = none := by
      rw [heq]
      exact (SortedMap.lookup_erase ..).trans (if_pos rfl)
    have hboots : ∀ g boot', (s.updateBoot guid agree).bootsStore.lookup g = some boot' →
        (s.updateBoot guid agree).BootWell g boot' := by
      intro g boot' hboot'
      refine hother g boot' (fun hne => ?_) hboot'
      rw [hne, hgone] at hboot'
      nomatch hboot'
    by_cases hagree : answers .agree (boot.votes.insert guid (toAnswer agree)) =
      groupKickVotesNeeded
    · rw [hagree] at heq
      obtain ⟨hgroup, hplayers, -, -⟩ := finishBoot_agreed s (s.group guid)
        { boot with votes := boot.votes.insert guid (toAnswer agree) }
      rw [← heq] at hgroup hplayers
      refine ⟨fun p g hgne => ?_, fun p hp => ?_, hboots⟩
      · rw [hgroup, hplayers, Function.update_apply, Function.update_apply]
        by_cases hp : p = boot.victim
        · subst hp
          rw [if_pos rfl]
          refine iff_of_false hgne.symm ?_
          split
          · simp
          · rename_i hne
            exact fun hmem => hne (hs.eq_of_mem hgne hg hmem hwell.victim)
        · rw [if_neg hp, hs.member p g hgne]
          split
          · rename_i hgeq
            simp [hgeq, hp]
          · exact Iff.rfl
      · rw [hgroup, Function.update_apply] at hp ⊢
        split
        · rename_i hpv
          exact absurd (if_pos hpv) hp
        · rename_i hpv
          rw [if_neg hpv] at hp
          exact hs.kinds p hp
    · obtain ⟨hgroup, hplayers, -, -⟩ := finishBoot_denied s (s.group guid)
        { boot with votes := boot.votes.insert guid (toAnswer agree) } hagree
      rw [← heq] at hgroup hplayers
      exact ⟨by rw [hgroup, hplayers]; exact hs.member, by rw [hgroup]; exact hs.kinds, hboots⟩

/-- The group of a member who is heard gets what it should, unless this was the third denial. -/
theorem settledAt_updateBoot (hs : s.Well) (agree : Bool) (hg : s.group guid ≠ 0)
    (hboot : s.bootsStore.lookup (s.group guid) = some boot)
    (hvote : boot.votes.lookup guid = some .pending) :
    s.SettledAt (.vote guid agree) (s.group guid) boot ↔
      answers .deny (boot.votes.insert guid (toAnswer agree)) ≠ groupKickVotesNeeded := by
  have hwell := hs.boots _ boot hboot
  obtain ⟨hkeys, hagree, hdeny, hone⟩ := hwell.heard hvote (a := toAnswer agree)
  have heq := updateBoot_eq agree hg hboot hvote hwell
  have hheard : s.heard (.vote guid agree) (s.group guid) boot.votes =
      boot.votes.insert guid (toAnswer agree) := if_pos ⟨rfl, hvote⟩
  have honce : ∀ p a, a ≠ .pending → boot.votes.lookup p = some a →
      (boot.votes.insert guid (toAnswer agree)).lookup p = some a := by
    intro p a ha hp
    rw [SortedMap.lookup_insert, if_neg]
    · exact hp
    · rintro rfl
      exact ha (Option.some.inj (hp.symm.trans hvote))
  have htime : ¬ TimeOver boot (.vote guid agree) := id
  change s.step (.vote guid agree) = _ at heq
  split at heq
  · rename_i hfew
    refine iff_of_true ⟨?_, ?_, ?_, ?_, ?_, ?_⟩ hfew.2.ne
    · rw [heq, hheard, SortedMap.lookup_insert, if_pos rfl]
      simp [hfew.1.ne, hfew.2.ne, htime]
    · intro boot' hboot'
      rw [heq, SortedMap.lookup_insert, if_pos rfl] at hboot'
      rw [hheard]
      exact (Option.some.inj hboot').symm
    · rw [hheard]
      exact honce
    · rw [hheard, heq]
      exact iff_of_false (fun hnot => hnot hwell.victim) hfew.1.ne
    · rw [heq]
      exact fun _ _ => Iff.rfl
    · intro hnone
      rw [heq, SortedMap.lookup_insert, if_pos rfl] at hnone
      nomatch hnone
  · rename_i hmany
    have hgone : (s.step (.vote guid agree)).bootsStore.lookup (s.group guid) = none := by
      rw [heq]
      exact (SortedMap.lookup_erase ..).trans (if_pos rfl)
    by_cases hthree : answers .agree (boot.votes.insert guid (toAnswer agree)) =
      groupKickVotesNeeded
    · rw [hthree] at heq
      obtain ⟨-, hplayers, -, hstate⟩ := finishBoot_agreed s (s.group guid)
        { boot with votes := boot.votes.insert guid (toAnswer agree) }
      rw [← heq] at hplayers hstate
      have hne := hs.ne_of_mem hg hwell.victim hwell.group.2
      have hplayers' : (s.step (.vote guid agree)).players (s.group guid) =
          (s.players (s.group guid)).filter (· ≠ boot.victim) := by
        rw [hplayers, Function.update_self]
      refine iff_of_true ⟨?_, ?_, ?_, ?_, ?_, ?_⟩ (by omega)
      · rw [hheard]
        exact iff_of_true hgone (Or.inl hthree)
      · intro boot' hboot'
        rw [hgone] at hboot'
        nomatch hboot'
      · rw [hheard]
        exact honce
      · rw [hheard, hplayers']
        exact iff_of_true (by simp) hthree
      · intro p hp
        rw [hplayers']
        simp [hp]
      · intro _
        refine ⟨?_, fun p hp => ?_⟩
        · rw [hstate _ hne.symm, if_pos (Or.inl rfl)]
        · rw [hplayers', List.mem_filter, decide_eq_true_eq] at hp
          rw [hstate p hp.2, if_pos (Or.inr ((hkeys p).mpr hp.1))]
    · obtain ⟨-, hplayers, -, hstate⟩ := finishBoot_denied s (s.group guid)
        { boot with votes := boot.votes.insert guid (toAnswer agree) } hthree
      rw [← heq] at hplayers hstate
      have hthird : answers .deny (boot.votes.insert guid (toAnswer agree)) =
          groupKickVotesNeeded := by omega
      -- the victim stays, in the state he was in
      refine iff_of_false (fun hsettled => ?_) (not_not.mpr hthird)
      have hrestored := (hsettled.restored hgone).2 boot.victim
        (by rw [hplayers]; exact hwell.victim)
      have hne := hs.ne_of_mem hg hwell.victim hwell.group.2
      rw [hstate, if_neg (by simp [hne]), hwell.states _ hwell.victim] at hrestored
      nomatch hrestored

/-- Either a member is heard, or the step does nothing. -/
theorem vote_cases (hs : s.Well) (guid : ObjectGuid) (agree : Bool) :
    (∃ boot, s.group guid ≠ 0 ∧ s.bootsStore.lookup (s.group guid) = some boot ∧
      boot.votes.lookup guid = some .pending) ∨
    s.updateBoot guid agree = s ∧ ∀ boot, s.bootsStore.lookup (s.group guid) = some boot →
      boot.votes.lookup guid ≠ some .pending := by
  by_cases hg : s.group guid = 0
  · refine Or.inr ⟨by simp only [updateBoot, if_pos hg], fun boot hboot => ?_⟩
    exact absurd hg (hs.boots _ boot hboot).group.1
  · cases hboot : s.bootsStore.lookup (s.group guid) with
    | none => exact Or.inr ⟨by simp only [updateBoot, if_neg hg, hboot], nofun⟩
    | some boot =>
      have hmem := ((hs.boots _ boot hboot).voters guid).mpr ((hs.member guid _ hg).mp rfl)
      obtain ⟨a, ha⟩ := mem_keys_iff.mp hmem
      cases a with
      | pending => exact Or.inl ⟨boot, hg, rfl, ha⟩
      | deny =>
        refine Or.inr ⟨by simp only [updateBoot, if_neg hg, hboot, ha], fun boot' hboot' => ?_⟩
        obtain rfl := Option.some.inj hboot'
        rw [ha]
        decide
      | agree =>
        refine Or.inr ⟨by simp only [updateBoot, if_neg hg, hboot, ha], fun boot' hboot' => ?_⟩
        obtain rfl := Option.some.inj hboot'
        rw [ha]
        decide

theorem vote_spec (hs : s.Well) (guid : ObjectGuid) (agree : Bool) :
    (s.step (.vote guid agree)).Well ∧
      (s.Settled (.vote guid agree) ↔ s.NotThirdDenial (.vote guid agree)) := by
  rcases vote_cases hs guid agree with ⟨boot, hg, hboot, hvote⟩ | ⟨hsame, hnot⟩
  · refine ⟨well_updateBoot hs agree hg hboot hvote, ?_⟩
    have hat := settledAt_updateBoot hs agree hg hboot hvote
    have hanswers := answers_insert hvote (v := toAnswer agree) (a := .deny) (by decide)
    have hdenials : answers .deny (boot.votes.insert guid (toAnswer agree)) ≠ groupKickVotesNeeded ↔
        s.NotThirdDenial (.vote guid agree) := by
      rw [hanswers]
      constructor
      · rintro h p boot' hi hboot' -
        cases hi
        obtain rfl := Option.some.inj (hboot.symm.trans hboot')
        exact h
      · intro h
        cases agree with
        | true => exact (hs.boots _ boot hboot).deny.ne
        | false => exact h guid boot rfl hboot hvote
    refine ⟨fun hsettled => ?_, fun hnot g => ?_⟩
    · have hgroup := hsettled (s.group guid)
      rw [hboot] at hgroup
      exact hdenials.mp (hat.mp hgroup)
    · by_cases hne : g = s.group guid
      · subst hne
        rw [hboot]
        exact hat.mpr (hdenials.mpr hnot)
      · exact (only_updateBoot hs agree hg hboot hvote).settled hs hne
          (fun _ => if_neg fun h => hne h.1.symm) fun _ => id
  · have hstep : s.step (.vote guid agree) = s := hsame
    refine ⟨hstep.symm ▸ hs, iff_of_true (settled_same hs hstep ?_ fun _ => id) ?_⟩
    · intro g boot hboot
      refine if_neg fun h => ?_
      obtain ⟨rfl, hvote⟩ := h
      exact hnot boot hboot hvote
    · rintro p boot hi hboot hvote
      cases hi
      exact absurd hvote (hnot boot hboot)

/-! ## 8. Updates -/

/-- The guids whose state is restored with some boots. -/
def restoredWith (gone : List (ObjectGuid × LfgPlayerBoot)) : List ObjectGuid :=
  gone.flatMap fun x => x.1 :: x.2.votes.keys

/-- Some boots are gone, and those who could vote are back in the dungeon with their groups. -/
structure Removes (gone : List (ObjectGuid × LfgPlayerBoot)) (s s' : KickMgr) : Prop where
  group : s'.group = s.group
  players : s'.players = s.players
  lookup : ∀ g, s'.bootsStore.lookup g =
    if g ∈ gone.map Prod.fst then none else s.bootsStore.lookup g
  state : ∀ p, s'.state p = if p ∈ restoredWith gone then .dungeon else s.state p

theorem removes_foldl (gone : List (ObjectGuid × LfgPlayerBoot)) :
    ∀ s : KickMgr, Removes gone s (gone.foldl (fun s x => s.removeBoot x.1 x.2) s) := by
  induction gone with
  | nil => exact fun s => ⟨rfl, rfl, fun _ => rfl, fun _ => rfl⟩
  | cons x gone ih =>
    intro s
    have hnext := ih (s.removeBoot x.1 x.2)
    refine ⟨hnext.group, hnext.players, fun g => (hnext.lookup g).trans ?_,
      fun p => (hnext.state p).trans ?_⟩
    · simp only [removeBoot, SortedMap.lookup_erase, List.map_cons, List.mem_cons]
      by_cases hg : g = x.1
      · simp [hg]
      · simp only [hg, if_false, false_or, setStates]
    · simp only [removeBoot, setStates, restoredWith, List.flatMap_cons, List.mem_append,
        List.mem_cons, List.not_mem_nil, or_false]
      by_cases hmem : p ∈ gone.flatMap fun x => x.1 :: x.2.votes.keys
      · simp [hmem]
      · by_cases hp : p = x.1
        · simp [hp]
        · simp [hmem, hp]

theorem removes_removeObsoleteKicks (s : KickMgr) (currTime : ℕ) :
    Removes (s.bootsStore.entries.filter fun x => x.2.cancelTime < currTime) s
      (s.removeObsoleteKicks currTime) := by
  have h := removes_foldl (s.bootsStore.entries.filter fun x => x.2.cancelTime < currTime) s
  rw [List.foldl_filter] at h
  simpa [removeObsoleteKicks] using h

theorem update_spec (hs : s.Well) (currTime : ℕ) :
    (s.step (.update currTime)).Well ∧ s.Settled (.update currTime) := by
  have hremoves := removes_removeObsoleteKicks s currTime
  change Removes _ s (s.step (.update currTime)) at hremoves
  have hgone : ∀ {g boot}, s.bootsStore.lookup g = some boot →
      (g ∈ (s.bootsStore.entries.filter fun x => x.2.cancelTime < currTime).map Prod.fst ↔
        boot.cancelTime < currTime) := by
    intro g boot hboot
    rw [SortedMap.lookup_eq_some] at hboot
    simp only [List.mem_map, List.mem_filter, decide_eq_true_eq]
    constructor
    · rintro ⟨⟨g, boot'⟩, ⟨hmem, hlt⟩, rfl⟩
      exact SortedMap.value_unique hboot hmem ▸ hlt
    · exact fun hlt => ⟨(g, boot), ⟨hboot, hlt⟩, rfl⟩
  -- the members of a group whose vote goes on are in no other
  have hkept : ∀ {g boot}, s.bootsStore.lookup g = some boot → ¬ boot.cancelTime < currTime →
      ∀ p, p = g ∨ p ∈ s.players g → p ∉ restoredWith
        (s.bootsStore.entries.filter fun x => x.2.cancelTime < currTime) := by
    intro g boot hboot hlate p hp hmem
    have hwell := hs.boots g boot hboot
    simp only [restoredWith, List.mem_flatMap, List.mem_filter, decide_eq_true_eq,
      List.mem_cons] at hmem
    obtain ⟨⟨g', boot'⟩, ⟨hentry, hlt⟩, hp'⟩ := hmem
    have hboot' := SortedMap.lookup_eq_some.mpr hentry
    have hwell' := hs.boots g' boot' hboot'
    have hne : g ≠ g' := by
      rintro rfl
      exact hlate (Option.some.inj (hboot.symm.trans hboot') ▸ hlt)
    rcases hp with rfl | hp
    · rcases hp' with rfl | hp'
      · exact hne rfl
      · exact hs.ne_of_mem hwell'.group.1 ((hwell'.voters p).mp hp') hwell.group.2 rfl
    · rcases hp' with rfl | hp'
      · exact hs.ne_of_mem hwell.group.1 hp hwell'.group.2 rfl
      · exact hne (hs.eq_of_mem hwell.group.1 hwell'.group.1 hp ((hwell'.voters p).mp hp'))
  constructor
  · refine ⟨?_, ?_, fun g boot hboot => ?_⟩
    · rw [hremoves.group, hremoves.players]
      exact hs.member
    · rw [hremoves.group]
      exact hs.kinds
    · rw [hremoves.lookup] at hboot
      split at hboot
      · nomatch hboot
      · rename_i hnot
        have hwell := hs.boots g boot hboot
        have hlate : ¬ boot.cancelTime < currTime := fun hlt => hnot ((hgone hboot).mpr hlt)
        refine ⟨hwell.group, ?_, ?_, hwell.agree, hwell.deny, ?_, ?_⟩
        · rw [hremoves.players]
          exact hwell.voters
        · rw [hremoves.players]
          exact hwell.victim
        · rw [hremoves.state, if_neg (hkept hboot hlate g (Or.inl rfl))]
          exact hwell.state
        · rw [hremoves.players]
          intro p hp
          rw [hremoves.state, if_neg (hkept hboot hlate p (Or.inr hp))]
          exact hwell.states p hp
  · intro g
    cases hboot : s.bootsStore.lookup g with
    | none =>
      refine beginsAt_of_none ?_
      rw [hremoves.lookup, hboot, ite_self]
    | some boot =>
      have hwell := hs.boots g boot hboot
      by_cases hlt : boot.cancelTime < currTime
      · have hnone : (s.step (.update currTime)).bootsStore.lookup g = none := by
          rw [hremoves.lookup, if_pos ((hgone hboot).mpr hlt)]
        refine ⟨iff_of_true hnone (Or.inr (Or.inr hlt)), ?_, fun _ _ _ h => h, ?_, ?_, fun _ => ?_⟩
        · intro boot' hboot'
          rw [hnone] at hboot'
          nomatch hboot'
        · rw [hremoves.players]
          exact iff_of_false (fun hnot => hnot hwell.victim) hwell.agree.ne
        · rw [hremoves.players]
          exact fun _ _ => Iff.rfl
        · have hentry : (g, boot) ∈
              s.bootsStore.entries.filter fun x => x.2.cancelTime < currTime :=
            List.mem_filter.mpr ⟨SortedMap.lookup_eq_some.mp hboot, decide_eq_true hlt⟩
          rw [hremoves.players]
          refine ⟨?_, fun p hp => ?_⟩
          · rw [hremoves.state, if_pos]
            exact List.mem_flatMap.mpr ⟨_, hentry, List.mem_cons_self⟩
          · rw [hremoves.state, if_pos]
            exact List.mem_flatMap.mpr
              ⟨_, hentry, List.mem_cons_of_mem _ ((hwell.voters p).mpr hp)⟩
      · refine settledAt_same hwell ?_ (by rw [hremoves.players]) rfl hlt
        rw [hremoves.lookup, if_neg fun hmem => hlt ((hgone hboot).mp hmem), hboot]

/-! ## 9. Runs -/

/-- Before the first vote: groups and players know of each other. -/
structure Calm (s : KickMgr) : Prop where
  member : ∀ guid gguid, gguid ≠ 0 → (s.group guid = gguid ↔ guid ∈ s.players gguid)
  kinds : ∀ guid, s.group guid ≠ 0 → isGroup (s.group guid) = true ∧ isGroup guid = false
  boots : ∀ gguid, s.bootsStore.lookup gguid = none

theorem Calm.well (h : s.Calm) : s.Well where
  member := h.member
  kinds := h.kinds
  boots := fun gguid boot hboot => by
    rw [h.boots gguid] at hboot
    nomatch hboot

theorem step_spec (hs : s.Well) (i : Kick) :
    (s.step i).Well ∧ (s.Settled i ↔ s.NotThirdDenial i) := by
  cases i with
  | request now kicker victim =>
    obtain ⟨hwell, hsettled⟩ := request_spec hs now kicker victim
    exact ⟨hwell, iff_of_true hsettled nofun⟩
  | vote guid agree => exact vote_spec hs guid agree
  | update currTime =>
    obtain ⟨hwell, hsettled⟩ := update_spec hs currTime
    exact ⟨hwell, iff_of_true hsettled nofun⟩

/-- **Votes are handled as they should be, all along a run, exactly when none of them is a third
denial.** -/
theorem settled_iff (s : KickMgr) (hs : s.Calm) (steps : List Kick) :
    Along step Settled s steps ↔ Along step NotThirdDenial s steps :=
  along_congr (I := Well) (B := fun _ => True) (fun _ i _ h _ => (step_spec h i).1)
    (fun _ i _ h => (step_spec h i).2) (fun _ _ => trivial) hs.well

/-- Five members of a group in a dungeon. -/
def five : KickMgr where
  state := fun _ => .dungeon
  group := fun guid => if guid ∈ [1, 2, 3, 4, 5] then 0x1F50 * 2 ^ 48 else 0
  players := fun gguid => if gguid = 0x1F50 * 2 ^ 48 then [1, 2, 3, 4, 5] else []
  kicksLeft := fun _ => 3
  bootsStore := .empty

theorem calm_five : five.Calm where
  member := by
    intro guid gguid hne
    simp only [five]
    by_cases hmem : guid ∈ [1, 2, 3, 4, 5] <;> by_cases hg : gguid = 0x1F50 * 2 ^ 48
    · simp only [hg, hmem, if_true]
    · simp only [if_pos hmem, if_neg hg, List.not_mem_nil, iff_false]
      exact Ne.symm hg
    · simp only [if_pos hg, hmem, if_false, iff_false]
      exact hne.symm
    · simp only [if_neg hmem, if_neg hg, List.not_mem_nil, iff_false]
      exact hne.symm
  kinds := by
    have hall : ∀ guid ∈ [1, 2, 3, 4, 5], isGroup guid = false := by decide
    intro guid hguid
    simp only [five] at hguid ⊢
    by_cases hmem : guid ∈ [1, 2, 3, 4, 5]
    · rw [if_pos hmem]
      exact ⟨by decide, hall guid hmem⟩
    · exact absurd (if_neg hmem) hguid
  boots := fun _ => rfl

theorem settled_iff_five :
    Along step Settled five [.request 0 1 2, .vote 3 true, .vote 4 false] ↔
      Along step NotThirdDenial five [.request 0 1 2, .vote 3 true, .vote 4 false] :=
  settled_iff five calm_five _

/-- **The victim of a vote that is denied stays in `LFG_STATE_BOOT`**, and the others and the group
are back in the dungeon. -/
theorem victim_left_in_boot :
    let s := exec step five [.request 0 1 2, .vote 3 false, .vote 4 false]
    s.bootsStore.lookup (0x1F50 * 2 ^ 48) = none ∧ 2 ∈ s.players (0x1F50 * 2 ^ 48) ∧
      s.state 2 = .boot ∧ s.state 1 = .dungeon ∧ s.state (0x1F50 * 2 ^ 48) = .dungeon := by
  decide

end KickMgr

end HungerGames.Lfg
