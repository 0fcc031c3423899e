/-
# The structure of a guild

The ranks of a guild are numbered in order and are between five and ten, every member holds one
of them, and the one who leads the guild is a member and has the first.  This holds of a new
guild, and a command keeps it with these exceptions: a rank is removed while a member holds the
last one, the leader names himself as the next, or a game master gives the first rank away.

The check of a loaded guild lets a member keep a rank that equals the number of ranks.
-/
import HungerGames.Guilds.Roster
import HungerGames.System.Run
import Mathlib.Data.List.Induction
import Mathlib.Data.List.Perm.Subperm

namespace HungerGames.Guilds

open HungerGames.System

/-! ## 1. The structure -/

structure RanksInOrder (ranks : List RankInfo) : Prop where
  ids : ranks.map RankInfo.rankId = List.range ranks.length
  atLeast : ranksMinCount ≤ ranks.length
  atMost : ranks.length ≤ ranksMaxCount

/-- The structure of a guild.  `multi` is `Guild.AllowMultipleGuildMaster`. -/
structure Structured (multi : Bool) (g : Guild) : Prop where
  distinct : (g.members.map Member.guid).Nodup
  ranks : RanksInOrder g.ranks
  ranked : ∀ m ∈ g.members, m.rankId < g.ranks.length
  leader : ∃ m ∈ g.members, m.guid = g.leaderGuid ∧ m.rankId = grGuildmaster
  sole : multi = false → ∀ m ∈ g.members, m.rankId = grGuildmaster → m.guid = g.leaderGuid

/-- In every state of the run the guild has its structure, or is gone. -/
def StaysStructured (multi : Bool) (s : Option Guild) (cs : List Command) : Prop :=
  (∀ g ∈ s, Structured multi g) ∧
    Along step (fun s c => ∀ g ∈ step s c, Structured multi g) s cs

/-- Only the leader, or the only member, has as his rank the number of ranks. -/
def Guild.RanksKnown (g : Guild) : Prop :=
  ∀ m ∈ g.members, m.rankId = g.ranks.length →
    m.guid = g.leaderGuid ∨ ∀ m' ∈ g.members, m'.guid = m.guid

/-- The rows of a loaded guild give every member but its leader a rank there is. -/
def Start.Sound (trinityString : ℕ → String) : Start → Prop
  | .created .. => True
  | .loaded rows => ((Guild.load rows).validateRanks trinityString).RanksKnown

/-- The rank a new member is given. -/
def Guild.joiningRank (g : Guild) (rankId : ℕ) : ℕ :=
  if rankId = rankNone then g.lowestRankId else rankId

/-- A rank would be removed. -/
def Guild.RemovesRank (g : Guild) (player rankId : ℕ) : Prop :=
  ranksMinCount < g.ranksSize ∧ rankId < g.ranksSize ∧ g.isLeader player

/-- What a command must not do: remove the last rank from under a member, name the leader who
sends it, or from outside take the first rank from the leader or give it to another. -/
def KeepsStructure (multi : Bool) : Option Guild → Command → Prop
  | some g, .addMember guid _ free rankId =>
    g.getMember guid = none → free →
      g.joiningRank rankId < g.ranks.length ∧ (multi = false → g.joiningRank rankId ≠ grGuildmaster)
  | some g, .changeMemberRank guid newRank =>
    newRank ≤ g.lowestRankId → ∀ m ∈ g.members, m.guid = guid →
      (guid = g.leaderGuid → newRank = grGuildmaster) ∧
        (multi = false → newRank = grGuildmaster → guid = g.leaderGuid)
  | some g, .setLeader player name =>
    g.isLeader player → ∀ m ∈ g.getMemberNamed name, m.guid ≠ player
  | some g, .removeRank player rankId =>
    g.RemovesRank player rankId → ∀ m ∈ g.members, m.rankId ≠ g.lowestRankId
  | some g, .removeLowestRank player =>
    g.RemovesRank player g.lowestRankId → ∀ m ∈ g.members, m.rankId ≠ g.lowestRankId
  | _, _ => True

/-! ## 2. Members and ranks found -/

namespace Guild

variable {g : Guild}

theorem mem_of_getMember {guid : ℕ} {m : Member} (h : g.getMember guid = some m) :
    m ∈ g.members ∧ m.guid = guid :=
  ⟨List.mem_of_find?_eq_some h, by simpa using List.find?_some h⟩

variable {name : String}

theorem mem_of_getMemberNamed {m : Member} (h : g.getMemberNamed name = some m) :
    m ∈ g.members ∧ m.name = name :=
  ⟨List.mem_of_find?_eq_some h, by simpa using List.find?_some h⟩

theorem getMember_eq_none {guid : ℕ} : g.getMember guid = none ↔ ∀ m ∈ g.members, m.guid ≠ guid := by
  simp [getMember]

/-! ## 3. What each handler does -/

/-- What the search for a new leader has found in `members`. -/
def Replaces (guid : ℕ) (members : List Member) : Option Member → Prop
  | none => ∀ m ∈ members, m.guid = guid
  | some newLeader => newLeader ∈ members ∧ newLeader.guid ≠ guid ∧
      ∀ m ∈ members, m.guid ≠ guid → newLeader.rankId ≤ m.rankId

theorem replaces_betterLeader {guid : ℕ} {members : List Member} {o : Option Member} {i : Member}
    (h : Replaces guid members o) :
    Replaces guid (members ++ [i]) (betterLeader guid o i) := by
  unfold betterLeader
  by_cases hi : i.guid = guid
  · rw [if_pos hi]
    cases o with
    | none =>
      intro m hm
      rcases List.mem_append.mp hm with hm | hm
      · exact h m hm
      · rw [List.mem_singleton.mp hm, hi]
    | some l =>
      refine ⟨List.mem_append_left _ h.1, h.2.1, fun m hm hne => ?_⟩
      rcases List.mem_append.mp hm with hm | hm
      · exact h.2.2 m hm hne
      · exact absurd (List.mem_singleton.mp hm ▸ hi) hne
  · rw [if_neg hi]
    have hlast : i ∈ members ++ [i] := List.mem_append_right _ (List.mem_singleton.mpr rfl)
    cases o with
    | none =>
      refine ⟨hlast, hi, fun m hm hne => ?_⟩
      rcases List.mem_append.mp hm with hm | hm
      · exact absurd (h m hm) hne
      · rw [List.mem_singleton.mp hm]
    | some l =>
      obtain ⟨hl, hlne, hbest⟩ := h
      dsimp only
      split
      · refine ⟨hlast, hi, fun m hm hne => ?_⟩
        rcases List.mem_append.mp hm with hm | hm
        · exact (Nat.le_of_lt ‹_›).trans (hbest m hm hne)
        · rw [List.mem_singleton.mp hm]
      · refine ⟨List.mem_append_left _ hl, hlne, fun m hm hne => ?_⟩
        rcases List.mem_append.mp hm with hm | hm
        · exact hbest m hm hne
        · rw [List.mem_singleton.mp hm]
          exact Nat.le_of_not_lt ‹_›

theorem replaces_foldl (guid : ℕ) (members : List Member) :
    Replaces guid members (members.foldl (betterLeader guid) none) := by
  induction members using List.reverseRecOn with
  | nil => exact fun _ hm => absurd hm List.not_mem_nil
  | append_singleton members i ih =>
    rw [List.foldl_concat]
    exact replaces_betterLeader ih

/-- The guild without a member. -/
def erase (g : Guild) (guid : ℕ) : Guild :=
  { g with members := g.members.filter fun m => m.guid ≠ guid }

/-- One who does not lead is erased.  For the leader a new one is found, or the guild is gone. -/
theorem deleteMember_cases (g : Guild) (guid : ℕ) :
    guid ≠ g.leaderGuid ∧ g.deleteMember guid = some (g.erase guid) ∨
    guid = g.leaderGuid ∧ g.deleteMember guid = none ∧ (∀ m ∈ g.members, m.guid = guid) ∨
    ∃ newLeader, guid = g.leaderGuid ∧ Replaces guid g.members (some newLeader) ∧
      g.deleteMember guid = some ((g.setLeaderGUID newLeader.guid).erase guid) := by
  unfold deleteMember
  by_cases hleads : g.leaderGuid = guid
  · have hbest := replaces_foldl guid g.members
    rw [if_pos hleads]
    cases hfound : g.members.foldl (betterLeader guid) none with
    | none =>
      rw [hfound] at hbest
      exact Or.inr (Or.inl ⟨hleads.symm, rfl, hbest⟩)
    | some newLeader =>
      rw [hfound] at hbest
      exact Or.inr (Or.inr ⟨newLeader, hleads.symm, hbest, rfl⟩)
  · rw [if_neg hleads]
    exact Or.inl ⟨Ne.symm hleads, rfl⟩

variable {player : ℕ}

/-- One who has the right removes a member of a lower rank. -/
theorem handleRemoveMember_cases {s' : Option Guild}
    (h : g.handleRemoveMember player name = .ok s') :
    s' = some g ∨ ∃ me m, g.getMember player = some me ∧ m ∈ g.members ∧
      me.rankId < m.rankId ∧ s' = g.deleteMember m.guid := by
  unfold handleRemoveMember at h
  split at h
  · nomatch h
  split at h
  · exact Or.inl (Except.ok.inj h).symm
  rename_i m hm
  split at h
  · nomatch h
  split at h
  · nomatch h
  rename_i me hme
  split at h
  · nomatch h
  · rename_i hbelow
    refine Or.inr ⟨me, m, hme, (mem_of_getMemberNamed hm).1, ?_, (Except.ok.inj h).symm⟩
    simpa [Member.isRankNotLower] using hbelow

/-- One who has the right moves a member of a lower rank, one rank at a time. -/
theorem handleUpdateMemberRank_cases {demote : Bool} {g' : Guild}
    (h : g.handleUpdateMemberRank player name demote = .ok g') :
    g' = g ∨ ∃ me m newRank, g.getMember player = some me ∧ m ∈ g.members ∧ m.guid ≠ player ∧
      g' = g.changeRank m.guid newRank ∧
      (me.rankId < m.rankId ∧ m.rankId < g.lowestRankId ∧ newRank = m.rankId + 1 ∨
        (me.rankId + 1) % 256 < m.rankId ∧ newRank = m.rankId - 1) := by
  unfold handleUpdateMemberRank at h
  by_cases hright : g.hasRankRight player (if demote then grRightDemote else grRightPromote)
  swap
  · rw [if_pos hright] at h
    nomatch h
  rw [if_neg (not_not_intro hright)] at h
  split at h
  swap
  · exact Or.inl (Except.ok.inj h).symm
  rename_i m me hm hme
  have hmem := (mem_of_getMemberNamed hm).1
  split at h
  · nomatch h
  rename_i hother
  split at h
  · split at h
    · nomatch h
    split at h
    · nomatch h
    · rename_i hbelow hlow
      refine Or.inr ⟨me, m, _, hme, hmem, hother, (Except.ok.inj h).symm, Or.inl ⟨?_, ?_, rfl⟩⟩
      · simpa [Member.isRankNotLower] using hbelow
      · exact Nat.lt_of_not_le hlow
  · split at h
    · nomatch h
    · rename_i hbelow
      refine Or.inr ⟨me, m, _, hme, hmem, hother, (Except.ok.inj h).symm, Or.inr ⟨?_, rfl⟩⟩
      simpa [Member.isRankNotLower] using hbelow

theorem handleLeaveMember_cases {s' : Option Guild} (h : g.handleLeaveMember player = .ok s') :
    g.isLeader player ∧ s' = none ∨ ¬ g.isLeader player ∧ s' = g.deleteMember player := by
  unfold handleLeaveMember at h
  split at h
  · split at h
    · nomatch h
    · exact Or.inl ⟨‹_›, (Except.ok.inj h).symm⟩
  · exact Or.inr ⟨‹_›, (Except.ok.inj h).symm⟩

theorem handleSetMemberNote_cases {note : String} {isPublic : Bool} {g' : Guild}
    (h : g.handleSetMemberNote player name note isPublic = .ok g') :
    g' = g ∨ ∃ guid f, (∀ m : Member, (f m).guid = m.guid ∧ (f m).rankId = m.rankId ∧
      (f m).bankWithdraw = m.bankWithdraw) ∧ g' = g.modifyMember guid f := by
  unfold handleSetMemberNote at h
  by_cases hright : g.hasRankRight player (if isPublic then grRightEpnote else grRightEoffnote)
  swap
  · rw [if_pos hright] at h
    nomatch h
  rw [if_neg (not_not_intro hright)] at h
  split at h
  · exact Or.inl (Except.ok.inj h).symm
  · refine Or.inr ⟨_, _, fun m => ?_, (Except.ok.inj h).symm⟩
    split <;> exact ⟨rfl, rfl, rfl⟩

theorem handleSetLeader_cases {g' : Guild} (h : g.handleSetLeader player name = .ok g') :
    g.isLeader player ∧ (g' = g ∨ ∃ old ∈ g.members, ∃ new ∈ g.members, old.guid = player ∧
      g' = (g.setLeaderGUID new.guid).changeRank old.guid grOfficer) := by
  unfold handleSetLeader at h
  split at h
  · nomatch h
  rename_i hleads
  refine ⟨by simpa using hleads, ?_⟩
  split at h
  · rename_i old new hold hnew
    obtain ⟨hold, hguid⟩ := mem_of_getMember hold
    exact Or.inr ⟨old, hold, new, (mem_of_getMemberNamed hnew).1, hguid, (Except.ok.inj h).symm⟩
  · exact Or.inl (Except.ok.inj h).symm

end Guild

section

variable {multi : Bool} {g : Guild}

theorem Structured.member_unique (hs : Structured multi g) {m m' : Member} (hm : m ∈ g.members)
    (hm' : m' ∈ g.members) (h : m.guid = m'.guid) : m = m' :=
  List.inj_on_of_nodup_map hs.distinct hm hm' h

theorem Structured.getMember (hs : Structured multi g) {m : Member} (hm : m ∈ g.members) :
    g.getMember m.guid = some m := by
  rcases hfound : g.getMember m.guid with _ | m'
  · exact absurd rfl (Guild.getMember_eq_none.mp hfound m hm)
  · obtain ⟨hm', hguid⟩ := Guild.mem_of_getMember hfound
    rw [hs.member_unique hm' hm hguid]

theorem RanksInOrder.ranksSize (h : RanksInOrder g.ranks) : g.ranksSize = g.ranks.length := by
  have := h.atMost
  exact Nat.mod_eq_of_lt (by unfold ranksMaxCount at this; omega)

theorem RanksInOrder.lowestRankId (h : RanksInOrder g.ranks) :
    g.lowestRankId = g.ranks.length - 1 := by
  have hmost := h.atMost
  have hleast := h.atLeast
  unfold ranksMaxCount at hmost
  unfold ranksMinCount at hleast
  unfold Guild.lowestRankId
  omega

theorem Structured.lowestRankId_lt (hs : Structured multi g) : g.lowestRankId < g.ranks.length := by
  have hleast := hs.ranks.atLeast
  have hlowest := hs.ranks.lowestRankId
  unfold ranksMinCount at hleast
  omega

theorem Structured.officer_lt (hs : Structured multi g) : grOfficer < g.ranks.length :=
  Nat.lt_of_lt_of_le (by decide) hs.ranks.atLeast

variable {player : ℕ}

/-- The leader, and where there may be several, every member with the first rank. -/
theorem Structured.isLeader_iff (hs : Structured multi g) : g.isLeader player ↔
    ∃ m ∈ g.members, m.guid = player ∧ m.rankId = grGuildmaster := by
  unfold Guild.isLeader
  rw [decide_eq_true_iff]
  constructor
  · rintro (rfl | hany)
    · exact hs.leader
    · obtain ⟨m, hfound, hrank⟩ := (Option.any_eq_true _ _).mp hany
      obtain ⟨hm, hguid⟩ := Guild.mem_of_getMember hfound
      exact ⟨m, hm, hguid, of_decide_eq_true hrank⟩
  · rintro ⟨m, hm, rfl, hrank⟩
    right
    rw [hs.getMember hm]
    exact decide_eq_true hrank

/-! ## 4. What a change of the members keeps -/

/-- Every member is changed in his place, and another may lead. -/
theorem structured_map_iff {f : Member → Member} (leader : ℕ) (hguid : ∀ m, (f m).guid = m.guid)
    (hd : (g.members.map Member.guid).Nodup) (hranks : RanksInOrder g.ranks) :
    Structured multi { g with leaderGuid := leader, members := g.members.map f } ↔
      (∀ m ∈ g.members, (f m).rankId < g.ranks.length) ∧
      (∃ m ∈ g.members, m.guid = leader ∧ (f m).rankId = grGuildmaster) ∧
      (multi = false → ∀ m ∈ g.members, (f m).rankId = grGuildmaster → m.guid = leader) := by
  have hguids : (g.members.map f).map Member.guid = g.members.map Member.guid := by
    simp only [List.map_map, Function.comp_def, hguid]
  constructor
  · intro hs
    refine ⟨fun m hm => hs.ranked _ (List.mem_map_of_mem hm), ?_, fun hmulti m hm hrank => ?_⟩
    · obtain ⟨m', hm', hleader, hrank⟩ := hs.leader
      obtain ⟨m, hm, rfl⟩ := List.mem_map.mp hm'
      exact ⟨m, hm, (hguid m).symm.trans hleader, hrank⟩
    · exact (hguid m).symm.trans (hs.sole hmulti _ (List.mem_map_of_mem hm) hrank)
  · rintro ⟨hranked, ⟨l, hl, hleader, hrank⟩, hsole⟩
    refine ⟨hguids ▸ hd, hranks, ?_, ⟨f l, List.mem_map_of_mem hl, ?_, hrank⟩, ?_⟩
    · intro m' hm'
      obtain ⟨m, hm, rfl⟩ := List.mem_map.mp hm'
      exact hranked m hm
    · rw [hguid, hleader]
    · intro hmulti m' hm' hrank'
      obtain ⟨m, hm, rfl⟩ := List.mem_map.mp hm'
      rw [hguid]
      exact hsole hmulti m hm hrank'

/-- **What the structure is made of.**  A command that leaves the numbers of the ranks, the leader
and each member's rank alone, in whatever order the members are, keeps the structure. -/
theorem Structured.of_same {g' : Guild} (hs : Structured multi g)
    (hleader : g'.leaderGuid = g.leaderGuid)
    (hranks : g'.ranks.map RankInfo.rankId = g.ranks.map RankInfo.rankId)
    (hmembers : (g'.members.map fun m => (m.guid, m.rankId)).Perm
      (g.members.map fun m => (m.guid, m.rankId))) : Structured multi g' := by
  have hlength : g'.ranks.length = g.ranks.length := by
    simpa using congrArg List.length hranks
  have hguids : (g'.members.map Member.guid).Perm (g.members.map Member.guid) := by
    simpa [Function.comp_def] using hmembers.map Prod.fst
  have hold : ∀ m' ∈ g'.members, ∃ m ∈ g.members, m.guid = m'.guid ∧ m.rankId = m'.rankId := by
    intro m' hm'
    simpa using hmembers.subset (List.mem_map_of_mem hm')
  refine ⟨hguids.nodup_iff.mpr hs.distinct, ⟨?_, hlength ▸ hs.ranks.atLeast,
    hlength ▸ hs.ranks.atMost⟩, fun m' hm' => ?_, ?_, fun hmulti m' hm' hrank => ?_⟩
  · rw [hranks, hs.ranks.ids, hlength]
  · obtain ⟨m, hm, -, hrank⟩ := hold m' hm'
    rw [← hrank, hlength]
    exact hs.ranked m hm
  · obtain ⟨m, hm, hguid, hrank⟩ := hs.leader
    have hnew := hmembers.symm.subset (List.mem_map_of_mem hm)
    obtain ⟨m', hm', heq⟩ := List.mem_map.mp hnew
    rw [Prod.mk.injEq] at heq
    exact ⟨m', hm', heq.1.trans (hguid.trans hleader.symm), heq.2.trans hrank⟩
  · obtain ⟨m, hm, hguid, hrank'⟩ := hold m' hm'
    rw [← hguid, hleader]
    exact hs.sole hmulti m hm (hrank'.trans hrank)

/-- Erasing one who does not lead keeps the structure. -/
theorem Structured.erase (hs : Structured multi g) {guid : ℕ} (hne : guid ≠ g.leaderGuid) :
    Structured multi (g.erase guid) := by
  have hmem : ∀ m ∈ g.members.filter fun m => m.guid ≠ guid, m ∈ g.members :=
    fun m hm => (List.mem_filter.mp hm).1
  refine ⟨hs.distinct.sublist (List.filter_sublist.map _), hs.ranks,
    fun m hm => hs.ranked m (hmem m hm), ?_, fun hmulti m hm => hs.sole hmulti m (hmem m hm)⟩
  obtain ⟨m, hm, hguid, hrank⟩ := hs.leader
  exact ⟨m, List.mem_filter.mpr ⟨hm, by simpa [hguid] using hne.symm⟩, hguid, hrank⟩

/-! ## 5. Each command -/

theorem guid_changeRank (guid newRank : ℕ) (m : Member) :
    (if m.guid = guid then m.changeRank newRank else m).guid = m.guid := by
  split <;> rfl

theorem structured_changeMemberRank_iff (hs : Structured multi g) {guid newRank : ℕ} :
    Structured multi (g.changeMemberRank guid newRank) ↔
      (newRank ≤ g.lowestRankId → ∀ m ∈ g.members, m.guid = guid →
        (guid = g.leaderGuid → newRank = grGuildmaster) ∧
          (multi = false → newRank = grGuildmaster → guid = g.leaderGuid)) := by
  unfold Guild.changeMemberRank
  by_cases hle : newRank ≤ g.lowestRankId
  swap
  · rw [if_neg hle]
    exact iff_of_true hs fun h => absurd h hle
  have hlt : newRank < g.ranks.length := Nat.lt_of_le_of_lt hle hs.lowestRankId_lt
  have hbyte : newRank % 256 = newRank := by
    have hmost := hs.ranks.atMost
    unfold ranksMaxCount at hmost
    exact Nat.mod_eq_of_lt (by omega)
  rw [if_pos hle]
  refine (structured_map_iff g.leaderGuid (guid_changeRank guid newRank) hs.distinct
    hs.ranks).trans ?_
  simp only [hle, forall_const]
  constructor
  · rintro ⟨-, ⟨l, hl, hleader, hrank⟩, hsole⟩ m hm rfl
    constructor
    · intro hguid
      have heq : l = m := hs.member_unique hl hm (hleader.trans hguid.symm)
      rw [heq, if_pos rfl] at hrank
      exact hbyte.symm.trans hrank
    · intro hmulti hzero
      refine hsole hmulti m hm ?_
      rw [if_pos rfl]
      exact hbyte.trans hzero
  · intro h
    refine ⟨fun m hm => ?_, ?_, fun hmulti m hm hrank => ?_⟩
    · split
      · exact Nat.lt_of_le_of_lt hbyte.le hlt
      · exact hs.ranked m hm
    · obtain ⟨l, hl, hleader, hrank⟩ := hs.leader
      refine ⟨l, hl, hleader, ?_⟩
      split
      · exact hbyte.trans ((h l hl ‹_›).1 (by rw [← ‹l.guid = guid›, hleader]))
      · exact hrank
    · split at hrank
      · have hguid : m.guid = guid := ‹_›
        rw [hguid]
        exact (h m hm hguid).2 hmulti (hbyte.symm.trans hrank)
      · exact hs.sole hmulti m hm hrank

/-- A member without the first rank is given another that is not the first. -/
theorem Structured.changeRank (hs : Structured multi g) {m : Member} (hm : m ∈ g.members)
    (hlow : m.rankId ≠ grGuildmaster) {newRank : ℕ} (hle : newRank ≤ g.lowestRankId)
    (hpos : newRank ≠ grGuildmaster) : Structured multi (g.changeRank m.guid newRank) := by
  have heq : g.changeMemberRank m.guid newRank = g.changeRank m.guid newRank := if_pos hle
  rw [← heq, structured_changeMemberRank_iff hs]
  refine fun _ m' hm' _ => ⟨fun hleader => ?_, fun _ hzero => absurd hzero hpos⟩
  obtain ⟨l, hl, hguid, hrank⟩ := hs.leader
  exact absurd ((hs.member_unique hm hl (hleader.trans hguid.symm)) ▸ hrank) hlow

variable {name : String}

section

variable (hs : Structured multi g)
include hs

theorem structured_addMember_iff {guid : ℕ} {free : Bool} {rankId : ℕ} :
    Structured multi (g.addMember guid name free rankId) ↔
      (g.getMember guid = none → free →
        g.joiningRank rankId < g.ranks.length ∧
          (multi = false → g.joiningRank rankId ≠ grGuildmaster)) := by
  unfold Guild.addMember
  split
  · refine iff_of_true hs fun hnone hfree => ?_
    simp_all
  · have hnone : g.getMember guid = none := by
      rcases hfound : g.getMember guid with _ | m
      · rfl
      · simp_all
    have hfree : free = true := by
      cases free
      · simp_all
      · rfl
    have hother := Guild.getMember_eq_none.mp hnone
    have hnew : (Member.new guid name (g.joiningRank rankId)) ∈
        g.members ++ [Member.new guid name (g.joiningRank rankId)] :=
      List.mem_append_right _ (List.mem_singleton.mpr rfl)
    simp only [hnone, hfree, forall_const]
    constructor
    · intro hs'
      refine ⟨hs'.ranked _ hnew, fun hmulti hzero => ?_⟩
      obtain ⟨l, hl, hleader, -⟩ := hs.leader
      exact hother l hl (hleader.trans (hs'.sole hmulti _ hnew hzero).symm)
    · rintro ⟨hlt, hpos⟩
      refine ⟨?_, hs.ranks, fun m hm => ?_, ?_, fun hmulti m hm hrank => ?_⟩
      · rw [List.map_append, List.nodup_append]
        refine ⟨hs.distinct, List.nodup_singleton _, fun a ha b hb => ?_⟩
        obtain ⟨m, hm, rfl⟩ := List.mem_map.mp ha
        rw [List.mem_singleton.mp hb]
        exact hother m hm
      · rcases List.mem_append.mp hm with hm | hm
        · exact hs.ranked m hm
        · rw [List.mem_singleton.mp hm]
          exact hlt
      · obtain ⟨l, hl, h⟩ := hs.leader
        exact ⟨l, List.mem_append_left _ hl, h⟩
      · rcases List.mem_append.mp hm with hm | hm
        · exact hs.sole hmulti m hm hrank
        · rw [List.mem_singleton.mp hm] at hrank
          exact absurd hrank (hpos hmulti)

theorem Structured.deleteMember (guid : ℕ) : ∀ g' ∈ g.deleteMember guid, Structured multi g' := by
  rcases g.deleteMember_cases guid with ⟨hne, heq⟩ | ⟨-, heq, -⟩ | ⟨newLeader, hleads, hbest, heq⟩
  · rw [heq]
    rintro g' ⟨⟩
    exact hs.erase hne
  · rw [heq]
    exact fun g' h => nomatch h
  rw [heq]
  rintro g' ⟨⟩
  obtain ⟨hnew, hne, -⟩ := hbest
  -- the members are first the new ranks of all, and then without the old leader
  have hfilter : ((g.setLeaderGUID newLeader.guid).members.filter fun m => m.guid ≠ guid) =
      (g.members.filter fun m => m.guid ≠ guid).map fun m =>
        if m.guid = newLeader.guid then m.changeRank grGuildmaster else m := by
    unfold Guild.setLeaderGUID Guild.changeRank Guild.modifyMember
    simp only [List.filter_map, Function.comp_def, guid_changeRank]
  have hd : ((g.members.filter fun m => m.guid ≠ guid).map Member.guid).Nodup :=
    hs.distinct.sublist (List.filter_sublist.map _)
  unfold Guild.erase
  rw [hfilter]
  refine (structured_map_iff (g := g.erase guid) newLeader.guid (guid_changeRank newLeader.guid grGuildmaster) hd
    hs.ranks).mpr ⟨fun m hm => ?_, ?_, ?_⟩
  · split
    · exact Nat.lt_of_lt_of_le (by decide : 0 < ranksMinCount) hs.ranks.atLeast
    · exact hs.ranked m (List.mem_filter.mp hm).1
  · refine ⟨newLeader, List.mem_filter.mpr ⟨hnew, decide_eq_true hne⟩, rfl, ?_⟩
    rw [if_pos rfl]
    rfl
  · intro hmulti m hm hrank
    split at hrank
    · assumption
    · have hguid := hs.sole hmulti m (List.mem_filter.mp hm).1 hrank
      exact absurd (hguid.trans hleads.symm) (of_decide_eq_true (List.mem_filter.mp hm).2)

theorem structured_removeRank_iff {rankId : ℕ} :
    Structured multi (g.handleRemoveRank player rankId) ↔
      (g.RemovesRank player rankId → ∀ m ∈ g.members, m.rankId ≠ g.lowestRankId) := by
  unfold Guild.handleRemoveRank Guild.RemovesRank
  split
  · rename_i hrefused
    refine iff_of_true hs fun ⟨hmin, hlt, hleads⟩ => ?_
    rcases hrefused with h | h | h
    · exact absurd hmin (Nat.not_lt.mpr h)
    · exact absurd hlt (Nat.not_lt.mpr h)
    · exact absurd hleads h
  · have hmin : ranksMinCount < g.ranks.length := by
      rw [← hs.ranks.ranksSize]
      omega
    have hlowest := hs.ranks.lowestRankId
    have hremoves : ranksMinCount < g.ranksSize ∧ rankId < g.ranksSize ∧ g.isLeader player := by
      grind
    rw [hlowest]
    simp only [hremoves, and_self, forall_const]
    constructor
    · intro hs' m hm
      have hlt := hs'.ranked m hm
      simp only [List.length_dropLast] at hlt
      omega
    · intro h
      refine ⟨hs.distinct, ⟨?_, ?_, ?_⟩, fun m hm => ?_, hs.leader, hs.sole⟩
      · simp only [List.map_dropLast, hs.ranks.ids, List.length_dropLast]
        rw [List.dropLast_eq_take, List.length_range, List.take_range, Nat.min_eq_left (Nat.sub_le _ _)]
      · simp only [List.length_dropLast]
        omega
      · simp only [List.length_dropLast]
        have := hs.ranks.atMost
        omega
      · simp only [List.length_dropLast]
        have hne := h m hm
        have hlt := hs.ranked m hm
        omega

theorem structured_setLeader_iff :
    (∀ g', g.handleSetLeader player name = .ok g' → Structured multi g') ↔
      (g.isLeader player → ∀ m ∈ g.getMemberNamed name, m.guid ≠ player) := by
  unfold Guild.handleSetLeader
  by_cases hleads : g.isLeader player
  swap
  · rw [if_pos hleads]
    exact iff_of_true (fun _ h => nomatch h) fun h => absurd h hleads
  rw [if_neg (not_not_intro hleads)]
  obtain ⟨old, hold, rfl, hfirst⟩ := hs.isLeader_iff.mp hleads
  rw [hs.getMember hold]
  cases hnamed : g.getMemberNamed name with
  | none => exact iff_of_true (fun g' h => (Except.ok.inj h) ▸ hs) fun _ _ h => nomatch h
  | some new =>
    have hnew := (Guild.mem_of_getMemberNamed hnamed).1
    -- both changes of rank at once
    have hboth : (g.setLeaderGUID new.guid).changeRank old.guid grOfficer =
        { g with
          leaderGuid := new.guid
          members := g.members.map fun m =>
            if m.guid = old.guid then m.changeRank grOfficer
            else if m.guid = new.guid then m.changeRank grGuildmaster else m } := by
      simp only [Guild.setLeaderGUID, Guild.changeRank, Guild.modifyMember, List.map_map]
      congr 1
      refine List.map_congr_left fun m _ => ?_
      simp only [Function.comp_apply, guid_changeRank]
      by_cases h : m.guid = new.guid
      · rw [if_pos h]
        rfl
      · rw [if_neg h]
    have hguid : ∀ m : Member, (if m.guid = old.guid then m.changeRank grOfficer
        else if m.guid = new.guid then m.changeRank grGuildmaster else m).guid = m.guid := by
      intro m
      split
      · rfl
      · split <;> rfl
    simp only [Except.ok.injEq, forall_eq', hboth, structured_map_iff _ hguid hs.distinct hs.ranks,
      hleads, Option.mem_def, Option.some.injEq, forall_const]
    constructor
    · rintro ⟨-, ⟨m, hm, hmnew, hrank⟩, -⟩ hself
      rw [if_pos (hmnew.trans hself)] at hrank
      exact absurd hrank (by decide : ¬ grOfficer % 256 = grGuildmaster)
    · intro hother
      refine ⟨fun m hm => ?_, ⟨new, hnew, rfl, ?_⟩, fun hmulti m hm hrank => ?_⟩
      · split
        · exact hs.officer_lt
        · split
          · exact Nat.lt_of_lt_of_le (by decide : 0 < ranksMinCount) hs.ranks.atLeast
          · exact hs.ranked m hm
      · rw [if_neg hother, if_pos rfl]
        rfl
      · split at hrank
        · exact absurd hrank (by decide : ¬ grOfficer % 256 = grGuildmaster)
        · split at hrank
          · assumption
          · have hlead := hs.sole hmulti m hm hrank
            have hlead' := hs.sole hmulti old hold hfirst
            exact absurd (hlead.trans hlead'.symm) ‹_›

/-- Promoting and demoting stay among the ranks below the first. -/
theorem Structured.updateMemberRank {demote : Bool} :
    ∀ g', g.handleUpdateMemberRank player name demote = .ok g' →
      Structured multi g' := by
  intro g' h
  rcases Guild.handleUpdateMemberRank_cases h with rfl | ⟨me, m, newRank, hme, hm, -, rfl, hmove⟩
  · exact hs
  have hlowest := hs.ranks.lowestRankId
  have hmost := hs.ranks.atMost
  have hmeLt := hs.ranked me (Guild.mem_of_getMember hme).1
  have hmLt := hs.ranked m hm
  unfold ranksMaxCount at hmost
  refine hs.changeRank hm ?_ ?_ ?_
  · unfold grGuildmaster
    omega
  · omega
  · unfold grGuildmaster
    omega

theorem Structured.removeMember :
    ∀ s', g.handleRemoveMember player name = .ok s' → ∀ g' ∈ s', Structured multi g' := by
  intro s' h
  rcases Guild.handleRemoveMember_cases h with rfl | ⟨-, m, -, -, -, rfl⟩
  · rintro g' ⟨⟩
    exact hs
  · exact hs.deleteMember m.guid

theorem Structured.leaveMember :
    ∀ s', g.handleLeaveMember player = .ok s' → ∀ g' ∈ s', Structured multi g' := by
  intro s' h
  rcases Guild.handleLeaveMember_cases h with ⟨-, rfl⟩ | ⟨-, rfl⟩
  · exact fun g' h => nomatch h
  · exact hs.deleteMember player

theorem Structured.createRank (name : String) (rights : ℕ) :
    Structured multi (g.createRank name rights) := by
  unfold Guild.createRank
  split
  · exact hs
  · rename_i hroom
    have hsize := hs.ranks.ranksSize
    have hleast := hs.ranks.atLeast
    refine ⟨hs.distinct, ⟨?_, ?_, ?_⟩, fun m hm => ?_, hs.leader, hs.sole⟩
    · rw [List.map_append, hs.ranks.ids, List.length_append, List.length_singleton,
        List.range_succ, hsize]
      rfl
    · simp only [List.length_append, List.length_singleton]
      omega
    · simp only [List.length_append, List.length_singleton]
      omega
    · simp only [List.length_append, List.length_singleton]
      exact Nat.lt_succ_of_lt (hs.ranked m hm)

theorem Structured.addNewRank : Structured multi (g.handleAddNewRank player name) := by
  unfold Guild.handleAddNewRank
  split
  · exact hs.createRank _ _
  · exact hs

end

theorem rankIds_modifyRankInfo (g : Guild) (rankId : ℕ) {f : RankInfo → RankInfo}
    (hf : ∀ r, (f r).rankId = r.rankId) :
    (g.modifyRankInfo rankId f).ranks.map RankInfo.rankId = g.ranks.map RankInfo.rankId := by
  unfold Guild.modifyRankInfo
  split
  · refine List.ext_getElem (by simp) fun i _ _ => ?_
    simp only [List.getElem_map, List.getElem_modify]
    split
    · exact hf _
    · rfl
  · rfl

/-- Nothing of a guild has changed but what its ranks allow, its notes and its bank. -/
structure SameStructure (g g' : Guild) : Prop where
  leaderGuid : g'.leaderGuid = g.leaderGuid
  rankIds : g'.ranks.map RankInfo.rankId = g.ranks.map RankInfo.rankId
  roster : g'.members.map (fun m => (m.guid, m.rankId)) = g.members.map fun m => (m.guid, m.rankId)

theorem SameStructure.refl (g : Guild) : SameStructure g g := ⟨rfl, rfl, rfl⟩

theorem SameStructure.trans {g₁ g₂ g₃ : Guild} (h : SameStructure g₁ g₂) (h' : SameStructure g₂ g₃) :
    SameStructure g₁ g₃ :=
  ⟨h'.leaderGuid.trans h.leaderGuid, h'.rankIds.trans h.rankIds, h'.roster.trans h.roster⟩

theorem SameStructure.symm {g' : Guild} (h : SameStructure g g') : SameStructure g' g :=
  ⟨h.leaderGuid.symm, h.rankIds.symm, h.roster.symm⟩

theorem SameStructure.mem {g' : Guild} (h : SameStructure g g') {m : Member} (hm : m ∈ g.members) :
    ∃ m' ∈ g'.members, m'.guid = m.guid ∧ m'.rankId = m.rankId := by
  have hkey := List.mem_map_of_mem (f := fun m => (m.guid, m.rankId)) hm
  rw [← h.roster] at hkey
  simpa using hkey

theorem SameStructure.structured {g' : Guild} (h : SameStructure g g') (hs : Structured multi g) :
    Structured multi g' :=
  hs.of_same h.leaderGuid h.rankIds (h.roster ▸ List.Perm.refl _)

theorem sameStructure_modifyRankInfo (g : Guild) (rankId : ℕ) {f : RankInfo → RankInfo}
    (hf : ∀ r, (f r).rankId = r.rankId) : SameStructure g (g.modifyRankInfo rankId f) := by
  refine ⟨?_, rankIds_modifyRankInfo g rankId hf, ?_⟩ <;> unfold Guild.modifyRankInfo <;>
    split <;> rfl

theorem sameStructure_modifyMember (g : Guild) (guid : ℕ) {f : Member → Member}
    (hguid : ∀ m, (f m).guid = m.guid) (hrank : ∀ m, (f m).rankId = m.rankId) :
    SameStructure g (g.modifyMember guid f) := by
  refine ⟨rfl, rfl, ?_⟩
  unfold Guild.modifyMember
  rw [List.map_map]
  refine List.map_congr_left fun m _ => ?_
  rw [Function.comp_apply]
  split
  · rw [hguid, hrank]
  · rfl

theorem sameStructure_setBankRights {ι : Type} (rankId : ι → ℕ) (x : ι → BankRightsAndSlots)
    (rows : List ι) (g : Guild) :
    SameStructure g
      (rows.foldl (fun g row => g.setRankBankTabRightsAndSlots (rankId row) (x row)) g) := by
  induction rows generalizing g with
  | nil => exact .refl g
  | cons row rows ih =>
    refine SameStructure.trans ?_ (ih (g.setRankBankTabRightsAndSlots (rankId row) (x row)))
    unfold Guild.setRankBankTabRightsAndSlots
    split
    · exact .refl g
    · exact sameStructure_modifyRankInfo g (rankId row) fun r => rfl

theorem sameStructure_setRankInfo {rankId : ℕ} {rights moneyPerDay : ℕ}
    {rightsAndSlots : List BankRightsAndSlots} : ∀ g',
      g.handleSetRankInfo player rankId name rights moneyPerDay rightsAndSlots = .ok g' →
      SameStructure g g' := by
  intro g' h
  unfold Guild.handleSetRankInfo at h
  split at h
  · nomatch h
  split at h
  · exact (Except.ok.inj h) ▸ .refl g
  · rw [← Except.ok.inj h]
    refine SameStructure.trans ?_
      (sameStructure_setBankRights (fun _ => rankId) (fun x => x) rightsAndSlots _)
    exact sameStructure_modifyRankInfo g rankId fun _ => rfl

theorem sameStructure_setMemberNote {note : String} {isPublic : Bool} : ∀ g',
    g.handleSetMemberNote player name note isPublic = .ok g' →
      SameStructure g g' ∧ g'.ranks = g.ranks ∧ g'.bankTabs = g.bankTabs := by
  intro g' h
  rcases Guild.handleSetMemberNote_cases h with rfl | ⟨guid, f, hf, rfl⟩
  · exact ⟨.refl _, rfl, rfl⟩
  · exact ⟨sameStructure_modifyMember g guid (fun m => (hf m).1) fun m => (hf m).2.1, rfl, rfl⟩

theorem structured_rehash (hs : Structured multi g) (members : List Member) :
    Structured multi (if members.Perm g.members then { g with members } else g) := by
  split
  · exact hs.of_same rfl rfl (List.Perm.map _ ‹_›)
  · exact hs

theorem structured_settle_iff (hs : Structured multi g)
    {reply : Except GuildCommandError (Option Guild)} :
    (∀ g' ∈ g.settle reply, Structured multi g') ↔
      ∀ s', reply = .ok s' → ∀ g' ∈ s', Structured multi g' := by
  cases reply with
  | ok s' =>
    constructor
    · rintro h _ ⟨⟩
      exact h
    · exact fun h => h s' rfl
  | error e =>
    refine iff_of_true ?_ fun _ h => nomatch h
    rintro _ ⟨⟩
    exact hs

theorem structured_settle_some_iff (hs : Structured multi g)
    {reply : Except GuildCommandError Guild} :
    (∀ g' ∈ g.settle (reply.map some), Structured multi g') ↔
      ∀ g', reply = .ok g' → Structured multi g' := by
  rw [structured_settle_iff hs]
  cases reply with
  | ok g' =>
    constructor
    · rintro h _ ⟨⟩
      exact h _ rfl g' rfl
    · rintro h _ ⟨⟩ _ ⟨⟩
      exact h g' rfl
  | error e => exact iff_of_true (fun _ h => nomatch h) fun _ h => nomatch h

/-- **Which commands keep the structure.** -/
theorem structured_step_iff {c : Command} (hs : Structured multi g) :
    (∀ g' ∈ step (some g) c, Structured multi g') ↔ KeepsStructure multi (some g) c := by
  have hsome : ∀ g', (∀ g₁ ∈ some g', Structured multi g₁) ↔ Structured multi g' := by
    simp
  cases c with
  | addMember guid name free rankId => exact (hsome _).trans (structured_addMember_iff hs)
  | deleteMember guid => exact iff_of_true (hs.deleteMember guid) trivial
  | changeMemberRank guid newRank => exact (hsome _).trans (structured_changeMemberRank_iff hs)
  | leaveMember player => exact iff_of_true ((structured_settle_iff hs).mpr hs.leaveMember) trivial
  | removeMember player name =>
    exact iff_of_true ((structured_settle_iff hs).mpr hs.removeMember) trivial
  | updateMemberRank player name demote =>
    exact iff_of_true ((structured_settle_some_iff hs).mpr hs.updateMemberRank) trivial
  | setLeader player name =>
    exact (structured_settle_some_iff hs).trans (structured_setLeader_iff hs)
  | addNewRank player name => exact iff_of_true ((hsome _).mpr hs.addNewRank) trivial
  | removeRank player rankId => exact (hsome _).trans (structured_removeRank_iff hs)
  | removeLowestRank player => exact (hsome _).trans (structured_removeRank_iff hs)
  | setRankInfo player rankId name rights moneyPerDay rightsAndSlots =>
    exact iff_of_true ((structured_settle_some_iff hs).mpr
      fun g' h => (sameStructure_setRankInfo g' h).structured hs) trivial
  | setMemberNote player name note isPublic =>
    exact iff_of_true ((structured_settle_some_iff hs).mpr
      fun g' h => (sameStructure_setMemberNote g' h).1.structured hs) trivial
  | setBankTabInfo player tabId name icon =>
    have hsame : SameStructure g (g.handleSetBankTabInfo tabId name icon) := ⟨rfl, rfl, rfl⟩
    exact iff_of_true ((hsome _).mpr (hsame.structured hs)) trivial
  | setBankTabText player tabId text =>
    have hsame : SameStructure g (g.setBankTabText tabId text) := ⟨rfl, rfl, rfl⟩
    exact iff_of_true ((hsome _).mpr (hsame.structured hs)) trivial
  | setStats guid name =>
    have hsame : SameStructure g (g.modifyMember guid fun m => { m with name }) :=
      sameStructure_modifyMember g guid (fun _ => rfl) fun _ => rfl
    exact iff_of_true ((hsome _).mpr (hsame.structured hs)) trivial
  | rehash members => exact iff_of_true ((hsome _).mpr (structured_rehash hs members)) trivial

/-! ## 6. New and loaded guilds -/

theorem createDefaultGuildRanks_spec (trinityString : ℕ → String) (g : Guild) :
    ∃ ranks, { g with ranks := [] }.createDefaultGuildRanks trinityString = { g with ranks } ∧
      RanksInOrder ranks := by
  refine ⟨({ g with ranks := [] }.createDefaultGuildRanks trinityString).ranks, rfl, rfl, ?_, ?_⟩
  · exact (by decide : 5 ≤ 5)
  · exact (by decide : 5 ≤ 10)

theorem structured_create (trinityString : ℕ → String) (leader : ℕ) (name : String) (free : Bool) :
    ∀ g ∈ Guild.create trinityString leader name free, Structured multi g := by
  cases free with
  | false => exact fun g h => nomatch h
  | true =>
    rintro g ⟨⟩
    obtain ⟨ranks, heq, hranks⟩ :=
      createDefaultGuildRanks_spec trinityString ⟨leader, [], [], 0, []⟩
    rw [heq]
    have hmem : ∀ m ∈ [Member.new leader name grGuildmaster], m = Member.new leader name 0 :=
      fun m hm => List.mem_singleton.mp hm
    refine ⟨List.nodup_singleton _, hranks, fun m hm => ?_, ⟨_, List.mem_singleton.mpr rfl, rfl, rfl⟩,
      fun _ m hm _ => ?_⟩
    · rw [hmem m hm]
      exact Nat.lt_of_lt_of_le (by decide : 0 < ranksMinCount) hranks.atLeast
    · rw [hmem m hm]
      rfl

/-- The numbers of loaded ranks fit into a byte and are different, so `_GetRanksSize` is the
number of the ranks if it is not zero. -/
theorem ranksSize_of_ne_zero (hd : (g.ranks.map RankInfo.rankId).Nodup)
    (hlt : ∀ r ∈ g.ranks, r.rankId < 256) (hne : g.ranksSize ≠ 0) :
    g.ranksSize = g.ranks.length := by
  have hsub : g.ranks.map RankInfo.rankId ⊆ List.range 256 := by
    intro i hi
    obtain ⟨r, hr, rfl⟩ := List.mem_map.mp hi
    exact List.mem_range.mpr (hlt r hr)
  have hle := (List.Nodup.subperm hd hsub).length_le
  rw [List.length_map, List.length_range] at hle
  unfold Guild.ranksSize at hne ⊢
  omega

theorem ranksInOrder_validateRanks (trinityString : ℕ → String)
    (hd : (g.ranks.map RankInfo.rankId).Nodup) (hlt : ∀ r ∈ g.ranks, r.rankId < 256) :
    RanksInOrder (g.validateRanks trinityString).ranks := by
  unfold Guild.validateRanks
  split
  · obtain ⟨ranks, heq, hranks⟩ := createDefaultGuildRanks_spec trinityString g
    rw [heq]
    exact hranks
  · rename_i hfine
    simp only [Guild.brokenRanks, decide_eq_true_eq, not_or, Nat.not_lt, Bool.not_eq_true] at hfine
    obtain ⟨hleast, hmost, hids⟩ := hfine
    have hsize : g.ranksSize = g.ranks.length :=
      ranksSize_of_ne_zero hd hlt (by unfold ranksMinCount at hleast; omega)
    rw [hsize] at hleast hmost hids
    refine ⟨List.ext_getElem (by simp) fun i hi _ => ?_, ?_, ?_⟩
    · have hi' : i < g.ranks.length := by simpa using hi
      have hfound : g.getRankInfo i = some g.ranks[i] := by
        rw [Guild.getRankInfo, hsize, if_pos hi', List.getElem?_eq_getElem hi']
      have hid := List.any_eq_false.mp hids i (List.mem_range.mpr hi')
      rw [hfound, Option.any_some] at hid
      have hid' : (g.ranks[i]).rankId = i := by simpa using hid
      simpa [RankInfo.createMissingTabsIfNeeded] using hid'
    · simpa using hleast
    · simpa using hmost

theorem members_validateRanks (trinityString : ℕ → String) (g : Guild) :
    (g.validateRanks trinityString).members = g.members ∧
      (g.validateRanks trinityString).leaderGuid = g.leaderGuid := by
  unfold Guild.validateRanks
  split
  · exact ⟨rfl, rfl⟩
  · exact ⟨rfl, rfl⟩

theorem setLeaderGUID_of_leads (hd : (g.members.map Member.guid).Nodup) {l : Member}
    (hl : l ∈ g.members) (hleads : l.guid = g.leaderGuid) (hfirst : l.rankId = grGuildmaster) :
    g.setLeaderGUID l.guid = g := by
  have hmembers : (g.members.map fun m =>
      if m.guid = l.guid then m.changeRank grGuildmaster else m) = g.members := by
    conv_rhs => rw [← List.map_id g.members]
    refine List.map_congr_left fun m hm => ?_
    split
    · rw [List.inj_on_of_nodup_map hd hm hl ‹_›, Member.changeRank]
      exact congrArg (fun r => { l with rankId := r }) hfirst.symm
    · rfl
  unfold Guild.setLeaderGUID Guild.changeRank Guild.modifyMember
  rw [hmembers, hleads]

/-- What `Validate` makes the leader: the one there is, or else a member of the highest rank. -/
def Leads (g : Guild) (l : Member) : Prop :=
  l ∈ g.members ∧ (l.guid = g.leaderGuid ∨
    (∀ m ∈ g.members, m.guid ≠ g.leaderGuid) ∧ ∀ m ∈ g.members, l.rankId ≤ m.rankId)

theorem validateLeader_cases (hd : (g.members.map Member.guid).Nodup) :
    g.validateLeader = none ∧ g.members = [] ∨
      ∃ l, Leads g l ∧ g.validateLeader = some (g.setLeaderGUID l.guid) := by
  unfold Guild.validateLeader
  cases hfound : g.getMember g.leaderGuid with
  | some l =>
    obtain ⟨hl, hleads⟩ := Guild.mem_of_getMember hfound
    refine Or.inr ⟨l, ⟨hl, Or.inl hleads⟩, ?_⟩
    dsimp only
    split
    · rw [setLeaderGUID_of_leads hd hl hleads (of_decide_eq_true ‹_›)]
    · rfl
  | none =>
    have hother := Guild.getMember_eq_none.mp hfound
    rcases g.deleteMember_cases g.leaderGuid with ⟨hne, -⟩ | ⟨-, heq, hall⟩ | ⟨l, -, hbest, heq⟩
    · exact absurd rfl hne
    · refine Or.inl ⟨heq, List.eq_nil_iff_forall_not_mem.mpr fun m hm => ?_⟩
      exact hother m hm (hall m hm)
    · obtain ⟨hl, -, hmin⟩ := hbest
      refine Or.inr ⟨l, ⟨hl, Or.inr ⟨hother, fun m hm => hmin m hm (hother m hm)⟩⟩, ?_⟩
      -- the leader who is gone has no entry to erase
      have hkept : ((g.setLeaderGUID l.guid).members.filter fun m => m.guid ≠ g.leaderGuid) =
          (g.setLeaderGUID l.guid).members := by
        refine List.filter_eq_self.mpr fun m' hm' => decide_eq_true ?_
        obtain ⟨m, hm, rfl⟩ := List.mem_map.mp hm'
        rw [guid_changeRank]
        exact hother m hm
      rw [heq, Guild.erase, hkept]

theorem structured_crowned_iff (hd : (g.members.map Member.guid).Nodup)
    (hranks : RanksInOrder g.ranks) {l : Member} (hl : l ∈ g.members) :
    Structured multi (if multi then g.setLeaderGUID l.guid
      else (g.setLeaderGUID l.guid).demoteOthers) ↔
      ∀ m ∈ g.members, m.guid ≠ l.guid → m.rankId < g.ranks.length := by
  have hfirst : grGuildmaster < g.ranks.length :=
    Nat.lt_of_lt_of_le (by decide : 0 < ranksMinCount) hranks.atLeast
  have hofficer : grOfficer < g.ranks.length :=
    Nat.lt_of_lt_of_le (by decide : 1 < ranksMinCount) hranks.atLeast
  cases multi with
  | true =>
    rw [if_pos rfl]
    refine (structured_map_iff l.guid (guid_changeRank l.guid grGuildmaster) hd
      hranks).trans ?_
    constructor
    · rintro ⟨hranked, -, -⟩ m hm hne
      have hlt := hranked m hm
      rwa [if_neg hne] at hlt
    · intro h
      refine ⟨fun m hm => ?_, ⟨l, hl, rfl, by rw [if_pos rfl]; rfl⟩, fun h => nomatch h⟩
      split
      · exact hfirst
      · exact h m hm ‹_›
  | false =>
    have hboth : (g.setLeaderGUID l.guid).demoteOthers = { g with
        leaderGuid := l.guid
        members := g.members.map fun m =>
          if m.guid = l.guid then m.changeRank grGuildmaster
          else if m.rankId = grGuildmaster then m.changeRank grOfficer else m } := by
      unfold Guild.demoteOthers Guild.setLeaderGUID Guild.changeRank Guild.modifyMember
      simp only [List.map_map]
      congr 1
      refine List.map_congr_left fun m _ => ?_
      rw [Function.comp_apply]
      by_cases hm : m.guid = l.guid
      · rw [if_pos hm, if_pos hm, if_neg fun h => h.2 hm]
      · rw [if_neg hm, if_neg hm]
        simp only [ne_eq, hm, not_false_eq_true, and_true]
    have hguid : ∀ m : Member, (if m.guid = l.guid then m.changeRank grGuildmaster
        else if m.rankId = grGuildmaster then m.changeRank grOfficer else m).guid = m.guid := by
      intro m
      split
      · rfl
      · split <;> rfl
    rw [if_neg (by decide), hboth, structured_map_iff _ hguid hd hranks]
    constructor
    · rintro ⟨hranked, -, -⟩ m hm hne
      have hlt := hranked m hm
      rw [if_neg hne] at hlt
      split at hlt
      · rwa [‹m.rankId = grGuildmaster›]
      · exact hlt
    · intro h
      refine ⟨fun m hm => ?_, ⟨l, hl, rfl, by rw [if_pos rfl]; rfl⟩, fun _ m hm hrank => ?_⟩
      · split
        · exact hfirst
        · split
          · exact hofficer
          · exact h m hm ‹_›
      · split at hrank
        · assumption
        · split at hrank
          · exact absurd hrank (by decide : ¬ grOfficer % 256 = grGuildmaster)
          · exact absurd hrank ‹_›

theorem guid_validateMember (g : Guild) (m : Member) : (g.validateMember m).guid = m.guid := by
  unfold Guild.validateMember
  split <;> rfl

/-- A rank above the number of ranks becomes the lowest; the number of ranks itself stays. -/
theorem rankId_validateMember (hranks : RanksInOrder g.ranks) (m : Member) :
    (g.validateMember m).rankId ≤ g.ranks.length ∧
      ((g.validateMember m).rankId = g.ranks.length ↔ m.rankId = g.ranks.length) := by
  have hsize := hranks.ranksSize
  have hlowest := hranks.lowestRankId
  have hleast := hranks.atLeast
  have hmost := hranks.atMost
  unfold ranksMinCount at hleast
  unfold Guild.validateMember
  split
  · have hnew : (m.changeRank g.lowestRankId).rankId = g.lowestRankId % 256 := rfl
    omega
  · omega

theorem ranksKnown_iff (hd : (g.validateMembers.members.map Member.guid).Nodup)
    (hranks : RanksInOrder g.ranks) {l : Member} (hl : Leads g.validateMembers l) :
    (∀ m ∈ g.validateMembers.members, m.guid ≠ l.guid → m.rankId < g.ranks.length) ↔
      g.RanksKnown := by
  obtain ⟨hl, hleads⟩ := hl
  have hmem : ∀ m ∈ g.members, g.validateMember m ∈ g.validateMembers.members :=
    fun m hm => List.mem_map_of_mem hm
  constructor
  · intro h m hm heq
    have hrank := (rankId_validateMember hranks m).2.mpr heq
    have hml : m.guid = l.guid := by
      by_contra hne
      exact absurd hrank (h _ (hmem m hm) (by rwa [guid_validateMember])).ne
    rcases hleads with hleads | ⟨-, hmin⟩
    · exact Or.inl (hml.trans hleads)
    · refine Or.inr fun m' hm' => ?_
      by_contra hne
      have hlt := h _ (hmem m' hm') (by rwa [guid_validateMember, ← hml])
      have hle := hmin _ (hmem m' hm')
      have hlm : l = g.validateMember m := List.inj_on_of_nodup_map hd hl (hmem m hm)
        (by rw [guid_validateMember, hml])
      rw [hlm] at hle
      omega
  · intro h m' hm' hne
    obtain ⟨m, hm, rfl⟩ := List.mem_map.mp hm'
    rw [guid_validateMember] at hne
    obtain ⟨hle, hiff⟩ := rankId_validateMember hranks m
    refine lt_of_le_of_ne hle fun heq => ?_
    rcases h m hm (hiff.mp heq) with hlead | honly
    · rcases hleads with hleads | ⟨hnone, -⟩
      · exact hne (hlead.trans hleads.symm)
      · exact hnone _ hm' ((guid_validateMember g m).trans hlead)
    · obtain ⟨l₀, hl₀, rfl⟩ := List.mem_map.mp hl
      exact hne ((honly l₀ hl₀).symm.trans (guid_validateMember g l₀).symm)

theorem structured_validate_iff (trinityString : ℕ → String)
    (hd : (g.members.map Member.guid).Nodup)
    (hranks : RanksInOrder (g.validateRanks trinityString).ranks) :
    (∀ g' ∈ g.validate trinityString multi, Structured multi g') ↔
      (g.validateRanks trinityString).RanksKnown := by
  rw [← (members_validateRanks trinityString g).1] at hd
  unfold Guild.validate
  generalize g.validateRanks trinityString = g₁ at hd hranks
  have hd' : (g₁.validateMembers.members.map Member.guid).Nodup := by
    simpa only [Guild.validateMembers, List.map_map, Function.comp_def, guid_validateMember] using hd
  rcases validateLeader_cases hd' with ⟨hnone, hempty⟩ | ⟨l, hl, hsome⟩
  · rw [hnone]
    refine iff_of_true (fun _ h => nomatch h) fun m hm => ?_
    have hm' := List.map_eq_nil_iff.mp hempty
    rw [hm'] at hm
    nomatch hm
  · rw [hsome]
    simp only [Option.map_some, Option.mem_def, Option.some.injEq, forall_eq']
    rw [structured_crowned_iff hd' hranks hl.1]
    exact ranksKnown_iff hd' hranks hl

theorem nodup_loadMembers (rows : List MemberRow) (members : List Member)
    (hd : (members.map Member.guid).Nodup) :
    ((rows.foldl Guild.loadMember members).map Member.guid).Nodup := by
  induction rows generalizing members with
  | nil => exact hd
  | cons row rows ih =>
    rw [List.foldl_cons]
    refine ih _ ?_
    unfold Guild.loadMember
    split
    · rw [List.map_append, List.nodup_append]
      refine ⟨hd.sublist (List.filter_sublist.map _), List.nodup_singleton _, fun a ha b hb => ?_⟩
      obtain ⟨m, hm, rfl⟩ := List.mem_map.mp ha
      rw [List.mem_singleton.mp hb]
      exact of_decide_eq_true (List.mem_filter.mp hm).2
    · exact hd

theorem structured_start_iff (multi : Bool) (trinityString : ℕ → String) (start : Start) :
    (∀ g ∈ start.guild trinityString multi, Structured multi g) ↔ start.Sound trinityString := by
  cases start with
  | created leader name free =>
    exact iff_of_true (structured_create trinityString leader name free) trivial
  | loaded rows =>
    have hids : (Guild.load rows).ranks.map RankInfo.rankId = rows.ranks.map RankRow.rid := by
      refine (sameStructure_setBankRights Prod.fst Prod.snd rows.bankRights _).rankIds.trans ?_
      rw [List.map_map]
      rfl
    have hroster : (Guild.load rows).members.map (fun m => (m.guid, m.rankId)) =
        (rows.members.foldl Guild.loadMember []).map fun m => (m.guid, m.rankId) :=
      (sameStructure_setBankRights Prod.fst Prod.snd rows.bankRights _).roster
    have hmembers : (Guild.load rows).members.map Member.guid =
        (rows.members.foldl Guild.loadMember []).map Member.guid := by
      simpa [Function.comp_def] using congrArg (List.map Prod.fst) hroster
    refine structured_validate_iff trinityString ?_ (ranksInOrder_validateRanks trinityString ?_ ?_)
    · rw [hmembers]
      exact nodup_loadMembers rows.members [] List.nodup_nil
    · rw [hids]
      exact rows.nodup_rid
    · intro r hr
      obtain ⟨row, hrow, hid⟩ := List.mem_map.mp (hids ▸ List.mem_map_of_mem hr)
      rw [← hid]
      exact rows.rid_lt row hrow

/-! ## 7. Runs -/

/-- **The guild keeps its structure** in exactly the runs from sound rows, or from a new guild,
in which no rank is removed while a member has the last, no leader names himself, and no game
master takes the first rank from the leader or gives it to another. -/
theorem staysStructured_iff (trinityString : ℕ → String) (multi : Bool) (start : Start)
    (cs : List Command) :
    StaysStructured multi (start.guild trinityString multi) cs ↔
      start.Sound trinityString ∧
        Along step (KeepsStructure multi) (start.guild trinityString multi) cs := by
  rw [← structured_start_iff multi trinityString start]
  refine and_congr_right fun hstart => ?_
  refine along_congr (I := fun s => ∀ g ∈ s, Structured multi g) (B := fun _ => True)
    (fun s c _ _ h => h) (fun s c _ hs => ?_) (fun _ _ => trivial) hstart
  cases s with
  | none => exact iff_of_true (fun _ h => nomatch h) trivial
  | some g => exact structured_step_iff (hs g rfl)

end

/-- **The leader loses the first rank.**  Right after he founds the guild he names himself as its
next leader. -/
theorem leader_not_master : ¬ StaysStructured false
    (Start.guild (fun _ => "") false (.created 1 "Ada" true)) [.setLeader 1 "Ada"] := by
  rintro ⟨-, hafter, -⟩
  obtain ⟨m, hm, -, hrank⟩ := (hafter _ rfl).leader
  rw [List.mem_singleton.mp hm] at hrank
  exact absurd hrank (by decide)

end HungerGames.Guilds
