/-
# What a member may do to the guild

A member who does not lead the guild acts on members of a lower rank only, never gives one of
them a rank as high as his own, and changes nothing of what a rank allows.  This holds over every
run of commands sent by players, from every guild that has its structure: a run may take the
first rank from the leader and leave it to nobody, and the rules hold after that too.

The names and the texts of the tabs of the bank are not protected: whoever sends one sets it.
-/
import HungerGames.Guilds.Structure

namespace HungerGames.Guilds

open HungerGames.System

/-! ## 1. What is respected -/

/-- The first rank has all rights. -/
def Guild.MasterHasAll (g : Guild) : Prop :=
  ∀ r ∈ g.ranks, r.rankId = grGuildmaster → r.rights = grRightAll

instance (g : Guild) : Decidable g.MasterHasAll :=
  inferInstanceAs (Decidable (∀ r ∈ g.ranks, r.rankId = grGuildmaster → r.rights = grRightAll))

/-- What `me`, who does not lead, leaves as it is.  A smaller number is a higher rank. -/
structure Respects (g : Guild) (me : Member) (g' : Guild) : Prop where
  own : ∀ m' ∈ g'.members, m'.guid = me.guid → me.rankId ≤ m'.rankId
  others : ∀ m ∈ g.members, m.guid ≠ me.guid → m.rankId ≤ me.rankId →
    ∃ m' ∈ g'.members, m'.guid = m.guid ∧ m'.rankId = m.rankId
  lifts : ∀ m ∈ g.members, m.guid ≠ me.guid → ∀ m' ∈ g'.members, m'.guid = m.guid →
    m'.rankId < m.rankId → me.rankId < m'.rankId
  ranks : g'.ranks = g.ranks
  tabs : ∀ tabId, g'.bankTabs[tabId]? ≠ g.bankTabs[tabId]? →
    g.memberHasTabRights me.guid tabId bankRightUpdateText

/-- The first rank keeps its rights, and a member who sends a command without leading respects the
others. -/
def RespectsRanks (s : Option Guild) (c : Command) : Prop :=
  (∀ g' ∈ step s c, g'.MasterHasAll) ∧
    ∀ g ∈ s, ∀ player ∈ c.player, ∀ me ∈ g.getMember player, ¬ g.isLeader player →
      ∃ g', step s c = some g' ∧ Respects g me g'

/-- Whoever sets a tab has the right to, or sets what there is. -/
def TabsGuarded : Option Guild → Command → Prop
  | some g, .setBankTabInfo player tabId name icon =>
    (g.getMember player).isSome → g.memberHasTabRights player tabId bankRightUpdateText ∨
      ∀ tab ∈ g.bankTabs[tabId]?, tab.name = name ∧ tab.icon = icon
  | some g, .setBankTabText player tabId text =>
    (g.getMember player).isSome → g.memberHasTabRights player tabId bankRightUpdateText ∨
      ∀ tab ∈ g.bankTabs[tabId]?, tab.text = text
  | _, _ => True

/-- The commands that write on a tab of the bank. -/
def Command.SetsTab : Command → Prop
  | .setBankTabInfo .. | .setBankTabText .. => True
  | _ => False

/-- What is left of the structure of a guild whose leader may have named himself. -/
structure Governed (g : Guild) : Prop where
  distinct : (g.members.map Member.guid).Nodup
  ranks : RanksInOrder g.ranks
  ranked : ∀ m ∈ g.members, m.rankId < ranksMaxCount
  leader : ∃ l ∈ g.members, l.guid = g.leaderGuid ∧
    (l.rankId ≤ grOfficer ∨ ∃ m ∈ g.members, m.rankId = grGuildmaster)
  master : g.MasterHasAll

section

variable {multi : Bool} {g : Guild}

theorem Structured.governed (hs : Structured multi g) (hmaster : g.MasterHasAll) : Governed g := by
  refine ⟨hs.distinct, hs.ranks, fun m hm => ?_, ?_, hmaster⟩
  · exact Nat.lt_of_lt_of_le (hs.ranked m hm) hs.ranks.atMost
  · obtain ⟨l, hl, hleads, hfirst⟩ := hs.leader
    exact ⟨l, hl, hleads, Or.inr ⟨l, hl, hfirst⟩⟩

variable {m : Member}

theorem Governed.member_unique (hg : Governed g) {m' : Member} (hm : m ∈ g.members)
    (hm' : m' ∈ g.members) (h : m.guid = m'.guid) : m = m' :=
  List.inj_on_of_nodup_map hg.distinct hm hm' h

theorem Governed.getMember (hg : Governed g) (hm : m ∈ g.members) :
    g.getMember m.guid = some m := by
  rcases hfound : g.getMember m.guid with _ | m'
  · exact absurd rfl (Guild.getMember_eq_none.mp hfound m hm)
  · obtain ⟨hm', hguid⟩ := Guild.mem_of_getMember hfound
    rw [hg.member_unique hm' hm hguid]

/-- Who does not lead has not the first rank and is not the leader. -/
theorem Governed.not_isLeader (hg : Governed g) {me : Member} (hme : me ∈ g.members)
    (h : ¬ g.isLeader me.guid) : me.rankId ≠ grGuildmaster ∧ me.guid ≠ g.leaderGuid := by
  unfold Guild.isLeader at h
  rw [hg.getMember hme] at h
  simpa [Member.isRank, and_comm] using h

/-! ## 2. What stays of the structure -/

theorem nodup_changeRank (hd : (g.members.map Member.guid).Nodup) (guid newRank : ℕ) :
    ((g.changeRank guid newRank).members.map Member.guid).Nodup := by
  unfold Guild.changeRank Guild.modifyMember
  simpa only [List.map_map, Function.comp_def, guid_changeRank] using hd

variable {guid newRank : ℕ}

theorem mem_changeRank (hm : m ∈ g.members) (hne : m.guid ≠ guid) :
    m ∈ (g.changeRank guid newRank).members :=
  List.mem_map.mpr ⟨m, hm, if_neg hne⟩

theorem changeRank_mem (hm : m ∈ g.members) (heq : m.guid = guid) :
    m.changeRank newRank ∈ (g.changeRank guid newRank).members :=
  List.mem_map.mpr ⟨m, hm, if_pos heq⟩

theorem ranked_changeRank (hranked : ∀ m ∈ g.members, m.rankId < ranksMaxCount) (guid : ℕ)
    (hlt : newRank < ranksMaxCount) :
    ∀ m ∈ (g.changeRank guid newRank).members, m.rankId < ranksMaxCount := by
  intro m' hm'
  obtain ⟨m, hm, rfl⟩ := List.mem_map.mp hm'
  split
  · exact Nat.lt_of_le_of_lt (Nat.mod_le _ _) hlt
  · exact hranked m hm

/-- A member below the first rank moves below it.  If he is the leader, another is master. -/
theorem Governed.changeRank (hg : Governed g) (hm : m ∈ g.members) (hlow : m.rankId ≠ grGuildmaster)
    (hlt : newRank < ranksMaxCount)
    (hleads : m.guid = g.leaderGuid → ∃ x ∈ g.members, x.rankId = grGuildmaster) :
    Governed (g.changeRank m.guid newRank) := by
  refine ⟨nodup_changeRank hg.distinct _ _, hg.ranks, ranked_changeRank hg.ranked _ hlt, ?_,
    hg.master⟩
  obtain ⟨l, hl, hleader, hrank⟩ := hg.leader
  have hstays : (∃ x ∈ g.members, x.rankId = grGuildmaster) →
      ∃ x ∈ (g.changeRank m.guid newRank).members, x.rankId = grGuildmaster := by
    rintro ⟨x, hx, hfirst⟩
    have hne : x.guid ≠ m.guid := fun h => hlow (hg.member_unique hx hm h ▸ hfirst)
    exact ⟨x, mem_changeRank hx hne, hfirst⟩
  by_cases hlm : l.guid = m.guid
  · exact ⟨_, changeRank_mem hl hlm, hleader, Or.inr (hstays (hleads (hlm.symm.trans hleader)))⟩
  · exact ⟨l, mem_changeRank hl hlm, hleader, hrank.imp_right hstays⟩

theorem mem_erase : m ∈ (g.erase guid).members ↔
    m ∈ g.members ∧ m.guid ≠ guid := by
  unfold Guild.erase
  rw [List.mem_filter, decide_eq_true_iff]

theorem nodup_erase (hd : (g.members.map Member.guid).Nodup) (guid : ℕ) :
    ((g.erase guid).members.map Member.guid).Nodup :=
  hd.sublist (List.filter_sublist.map _)

/-- One who neither leads nor has the first rank is erased. -/
theorem Governed.erase (hg : Governed g) (hne : guid ≠ g.leaderGuid)
    (hlow : ∀ m ∈ g.members, m.guid = guid → m.rankId ≠ grGuildmaster) :
    Governed (g.erase guid) := by
  refine ⟨nodup_erase hg.distinct guid, hg.ranks, fun m hm => hg.ranked m (mem_erase.mp hm).1, ?_,
    hg.master⟩
  obtain ⟨l, hl, hleader, hrank⟩ := hg.leader
  refine ⟨l, mem_erase.mpr ⟨hl, hleader.trans_ne hne.symm⟩, hleader, hrank.imp_right ?_⟩
  rintro ⟨x, hx, hfirst⟩
  exact ⟨x, mem_erase.mpr ⟨hx, fun h => hlow x hx h hfirst⟩, hfirst⟩

/-- The leader is erased, and another leads. -/
theorem Governed.replaced (hg : Governed g) {new : Member}
    (hnew : Guild.Replaces guid g.members (some new)) :
    Governed ((g.setLeaderGUID new.guid).erase guid) := by
  obtain ⟨hmem, hne, -⟩ := hnew
  have hranked : ∀ m ∈ (g.setLeaderGUID new.guid).members, m.rankId < ranksMaxCount :=
    ranked_changeRank hg.ranked new.guid (by decide : grGuildmaster < ranksMaxCount)
  have hleader : new.changeRank grGuildmaster ∈ (g.setLeaderGUID new.guid).members :=
    changeRank_mem hmem rfl
  refine ⟨nodup_erase (nodup_changeRank hg.distinct _ _) guid, hg.ranks,
    fun m hm => hranked m (mem_erase.mp hm).1, ?_, hg.master⟩
  exact ⟨_, mem_erase.mpr ⟨hleader, hne⟩, rfl, Or.inl (by decide : 0 % 256 ≤ 1)⟩

theorem Governed.setLeader (hg : Governed g) {old new : Member} (hnew : new ∈ g.members) :
    Governed ((g.setLeaderGUID new.guid).changeRank old.guid grOfficer) := by
  have hranked : ∀ m ∈ (g.setLeaderGUID new.guid).members, m.rankId < ranksMaxCount :=
    ranked_changeRank hg.ranked new.guid (by decide : grGuildmaster < ranksMaxCount)
  have hfirst : new.changeRank grGuildmaster ∈ (g.setLeaderGUID new.guid).members :=
    changeRank_mem hnew rfl
  refine ⟨nodup_changeRank (nodup_changeRank hg.distinct _ _) _ _, hg.ranks,
    ranked_changeRank hranked _ (by decide), ?_, hg.master⟩
  by_cases heq : new.guid = old.guid
  · exact ⟨_, changeRank_mem hfirst heq, rfl, Or.inl (by decide : 1 % 256 ≤ 1)⟩
  · exact ⟨_, mem_changeRank hfirst heq, rfl, Or.inl (by decide : 0 % 256 ≤ 1)⟩

theorem Governed.of_same {g' : Guild} (hg : Governed g) (h : SameStructure g g')
    (hmaster : g'.MasterHasAll) : Governed g' := by
  have hlength : g'.ranks.length = g.ranks.length := by
    simpa using congrArg List.length h.rankIds
  have hguids : g'.members.map Member.guid = g.members.map Member.guid := by
    simpa [Function.comp_def] using congrArg (List.map Prod.fst) h.roster
  refine ⟨hguids ▸ hg.distinct, ⟨?_, hlength ▸ hg.ranks.atLeast, hlength ▸ hg.ranks.atMost⟩,
    fun m' hm' => ?_, ?_, hmaster⟩
  · rw [h.rankIds, hg.ranks.ids, hlength]
  · obtain ⟨m, hm, -, hrank⟩ := h.symm.mem hm'
    exact hrank ▸ hg.ranked m hm
  · obtain ⟨l, hl, hleads, hrank⟩ := hg.leader
    obtain ⟨l', hl', hguid, hrank'⟩ := h.mem hl
    refine ⟨l', hl', hguid.trans (hleads.trans h.leaderGuid.symm), ?_⟩
    rcases hrank with hrank | ⟨x, hx, hfirst⟩
    · exact Or.inl (hrank' ▸ hrank)
    · obtain ⟨x', hx', -, hx0⟩ := h.mem hx
      exact Or.inr ⟨x', hx', hx0.trans hfirst⟩

theorem masterHasAll_modifyRankInfo (hmaster : g.MasterHasAll) (rankId : ℕ)
    {f : RankInfo → RankInfo} (hid : ∀ r, (f r).rankId = r.rankId)
    (hrights : ∀ r, r.rankId = grGuildmaster → r.rights = grRightAll → (f r).rights = grRightAll) :
    (g.modifyRankInfo rankId f).MasterHasAll := by
  unfold Guild.modifyRankInfo
  split
  · intro r hr hzero
    obtain ⟨i, hi, rfl⟩ := List.mem_iff_getElem.mp hr
    have hi' : i < g.ranks.length := by simpa using hi
    simp only [List.getElem_modify] at hzero ⊢
    split
    · rw [if_pos ‹_›, hid] at hzero
      exact hrights _ hzero (hmaster _ (List.getElem_mem hi') hzero)
    · rw [if_neg ‹_›] at hzero
      exact hmaster _ (List.getElem_mem hi') hzero
  · exact hmaster

theorem masterHasAll_setBankRights (rankId : ℕ) (rows : List BankRightsAndSlots)
    (hmaster : g.MasterHasAll) :
    (rows.foldl (fun g x => g.setRankBankTabRightsAndSlots rankId x) g).MasterHasAll := by
  induction rows generalizing g with
  | nil => exact hmaster
  | cons x rows ih =>
    rw [List.foldl_cons]
    refine ih ?_
    unfold Guild.setRankBankTabRightsAndSlots
    split
    · exact hmaster
    · exact masterHasAll_modifyRankInfo hmaster rankId (fun _ => rfl) fun _ _ hall => hall

variable {name : String} {player : ℕ}

theorem masterHasAll_setRankInfo (hmaster : g.MasterHasAll) {rankId : ℕ} {rights moneyPerDay : ℕ}
    {rightsAndSlots : List BankRightsAndSlots} : ∀ g',
      g.handleSetRankInfo player rankId name rights moneyPerDay rightsAndSlots = .ok g' →
      g'.MasterHasAll := by
  intro g' h
  unfold Guild.handleSetRankInfo at h
  split at h
  · nomatch h
  split at h
  · exact (Except.ok.inj h) ▸ hmaster
  rw [← Except.ok.inj h]
  exact masterHasAll_setBankRights rankId rightsAndSlots
    (masterHasAll_modifyRankInfo hmaster rankId (fun _ => rfl) fun r hzero _ => if_pos hzero)

section

variable (hg : Governed g)
include hg

theorem Governed.addNewRank : Governed (g.handleAddNewRank player name) := by
  unfold Guild.handleAddNewRank
  split
  swap
  · exact hg
  unfold Guild.createRank
  split
  · exact hg
  have hsize := hg.ranks.ranksSize
  have hleast := hg.ranks.atLeast
  refine ⟨hg.distinct, ⟨?_, ?_, ?_⟩, hg.ranked, hg.leader, fun r hr hzero => ?_⟩
  · rw [List.map_append, hg.ranks.ids, List.length_append, List.length_singleton, List.range_succ,
      hsize]
    rfl
  · simp only [List.length_append, List.length_singleton]
    omega
  · simp only [List.length_append, List.length_singleton]
    omega
  · rcases List.mem_append.mp hr with hr | hr
    · exact hg.master r hr hzero
    · rw [List.mem_singleton.mp hr] at hzero
      have hzero' : g.ranksSize = 0 := hzero
      unfold ranksMinCount at hleast
      omega

theorem Governed.removeRank {rankId : ℕ} : Governed (g.handleRemoveRank player rankId) := by
  unfold Guild.handleRemoveRank
  split
  · exact hg
  rename_i hallowed
  have hsize := hg.ranks.ranksSize
  have hmost := hg.ranks.atMost
  have hmany : ranksMinCount < g.ranks.length := by
    rw [not_or] at hallowed
    omega
  refine ⟨hg.distinct, ⟨?_, ?_, ?_⟩, hg.ranked, hg.leader,
    fun r hr => hg.master r (List.dropLast_subset _ hr)⟩
  · simp only [List.map_dropLast, hg.ranks.ids, List.length_dropLast]
    rw [List.dropLast_eq_take, List.length_range, List.take_range, Nat.min_eq_left (Nat.sub_le _ _)]
  · simp only [List.length_dropLast]
    omega
  · simp only [List.length_dropLast]
    omega

/-- A member is moved by one who has a higher rank.  If the leader is, another is master. -/
theorem Governed.updateMemberRank {demote : Bool} :
    ∀ g', g.handleUpdateMemberRank player name demote = .ok g' → Governed g' := by
  intro g' h
  rcases Guild.handleUpdateMemberRank_cases h with rfl | ⟨me, m, newRank, hme, hm, -, rfl, hmove⟩
  · exact hg
  have hmem := (Guild.mem_of_getMember hme).1
  have hlowest := hg.ranks.lowestRankId
  have hmost := hg.ranks.atMost
  have hmeLt := hg.ranked me hmem
  have hmLt := hg.ranked m hm
  unfold ranksMaxCount at hmost hmeLt hmLt
  refine hg.changeRank hm ?_ ?_ fun hleads => ?_
  · unfold grGuildmaster
    omega
  · unfold ranksMaxCount
    omega
  · obtain ⟨l, hl, hleader, hrank⟩ := hg.leader
    rcases hrank with hrank | hmaster
    · have hlm : l = m := hg.member_unique hl hm (hleader.trans hleads.symm)
      refine ⟨me, hmem, ?_⟩
      rw [hlm] at hrank
      unfold grOfficer at hrank
      unfold grGuildmaster
      omega
    · exact hmaster

theorem Governed.removeMember :
    ∀ s', g.handleRemoveMember player name = .ok s' → ∀ g' ∈ s', Governed g' := by
  intro s' h
  rcases Guild.handleRemoveMember_cases h with rfl | ⟨me, m, -, hm, hbelow, rfl⟩
  · rintro g' ⟨⟩
    exact hg
  rcases g.deleteMember_cases m.guid with ⟨hne, heq⟩ | ⟨-, heq, -⟩ | ⟨new, -, hnew, heq⟩
  · rw [heq]
    rintro g' ⟨⟩
    refine hg.erase hne fun m' hm' hguid => ?_
    rw [hg.member_unique hm' hm hguid]
    exact Nat.ne_of_gt (Nat.zero_lt_of_lt hbelow)
  · rw [heq]
    exact fun g' h => nomatch h
  · rw [heq]
    rintro g' ⟨⟩
    exact hg.replaced hnew

theorem Governed.leaveMember :
    ∀ s', g.handleLeaveMember player = .ok s' → ∀ g' ∈ s', Governed g' := by
  intro s' h
  rcases Guild.handleLeaveMember_cases h with ⟨-, rfl⟩ | ⟨hleads, rfl⟩
  · exact fun g' h => nomatch h
  rcases g.deleteMember_cases player with ⟨hne, heq⟩ | ⟨-, heq, -⟩ | ⟨new, -, hnew, heq⟩
  · rw [heq]
    rintro g' ⟨⟩
    refine hg.erase hne fun m hm hguid => ?_
    rw [← hguid] at hleads
    exact (hg.not_isLeader hm hleads).1
  · rw [heq]
    exact fun g' h => nomatch h
  · rw [heq]
    rintro g' ⟨⟩
    exact hg.replaced hnew

theorem governed_settle {reply : Except GuildCommandError (Option Guild)}
    (h : ∀ s', reply = .ok s' → ∀ g' ∈ s', Governed g') : ∀ g' ∈ g.settle reply, Governed g' := by
  cases reply with
  | ok s' => exact h s' rfl
  | error e =>
    rintro _ ⟨⟩
    exact hg

theorem governed_settle_some {reply : Except GuildCommandError Guild}
    (h : ∀ g', reply = .ok g' → Governed g') : ∀ g' ∈ g.settle (reply.map some), Governed g' := by
  cases reply with
  | ok g' =>
    rintro _ ⟨⟩
    exact h g' rfl
  | error e =>
    rintro _ ⟨⟩
    exact hg

end

variable {c : Command}

/-- **Every command of a player keeps this much of the structure.** -/
theorem governed_step (hg : Governed g) (hc : c.player ≠ none) :
    ∀ g' ∈ step (some g) c, Governed g' := by
  have hsome : ∀ g', Governed g' → ∀ g₁ ∈ some g', Governed g₁ := by
    rintro g' h _ ⟨⟩
    exact h
  cases c with
  | addMember | deleteMember | changeMemberRank | setStats | rehash => exact absurd rfl hc
  | leaveMember player => exact governed_settle hg hg.leaveMember
  | removeMember player name => exact governed_settle hg hg.removeMember
  | updateMemberRank player name demote => exact governed_settle_some hg hg.updateMemberRank
  | setLeader player name =>
    refine governed_settle_some hg fun g' h => ?_
    obtain ⟨-, rfl | ⟨old, -, new, hnew, -, rfl⟩⟩ := Guild.handleSetLeader_cases h
    · exact hg
    · exact hg.setLeader hnew
  | addNewRank player name => exact hsome _ hg.addNewRank
  | removeRank player rankId => exact hsome _ hg.removeRank
  | removeLowestRank player => exact hsome _ hg.removeRank
  | setRankInfo player rankId name rights moneyPerDay rightsAndSlots =>
    exact governed_settle_some hg fun g' h =>
      hg.of_same (sameStructure_setRankInfo g' h) (masterHasAll_setRankInfo hg.master g' h)
  | setMemberNote player name note isPublic =>
    refine governed_settle_some hg fun g' h => ?_
    obtain ⟨hsame, hranks, -⟩ := sameStructure_setMemberNote g' h
    refine hg.of_same hsame ?_
    unfold Guild.MasterHasAll
    rw [hranks]
    exact hg.master
  | setBankTabInfo player tabId name icon =>
    exact hsome _ (hg.of_same ⟨rfl, rfl, rfl⟩ hg.master)
  | setBankTabText player tabId text => exact hsome _ (hg.of_same ⟨rfl, rfl, rfl⟩ hg.master)

/-! ## 3. What a member without the lead leaves alone -/

section

variable {me : Member}

section

variable (hg : Governed g)
include hg

section

variable (hme : me ∈ g.members)
include hme

/-- Members who keep their ranks, and none gone who is as high as `me`. -/
theorem Governed.respects_of {g' : Guild}
    (hold : ∀ m' ∈ g'.members, ∃ m ∈ g.members, m.guid = m'.guid ∧ m.rankId = m'.rankId)
    (hkept : ∀ m ∈ g.members, m.guid ≠ me.guid → m.rankId ≤ me.rankId →
      ∃ m' ∈ g'.members, m'.guid = m.guid ∧ m'.rankId = m.rankId) (hranks : g'.ranks = g.ranks)
    (htabs : g'.bankTabs = g.bankTabs) : Respects g me g' := by
  refine ⟨fun m' hm' hguid => ?_, hkept, fun m hm _ m' hm' hguid hlift => ?_, hranks,
    fun tabId hne => absurd (by rw [htabs]) hne⟩
  · obtain ⟨m, hm, hmguid, hrank⟩ := hold m' hm'
    rw [← hrank, hg.member_unique hm hme (hmguid.trans hguid)]
  · obtain ⟨m₀, hm₀, hmguid, hrank⟩ := hold m' hm'
    rw [hg.member_unique hm₀ hm (hmguid.trans hguid)] at hrank
    omega

theorem Governed.respects_self : Respects g me g :=
  hg.respects_of hme (fun m hm => ⟨m, hm, rfl, rfl⟩) (fun m hm _ _ => ⟨m, hm, rfl, rfl⟩) rfl rfl

theorem Governed.respects_erase
    (hbelow : ∀ m ∈ g.members, m.guid = guid → m.guid ≠ me.guid → me.rankId < m.rankId) :
    Respects g me (g.erase guid) := by
  refine hg.respects_of hme (fun m hm => ⟨m, (mem_erase.mp hm).1, rfl, rfl⟩)
    (fun m hm hne hle => ⟨m, mem_erase.mpr ⟨hm, fun h => ?_⟩, rfl, rfl⟩) rfl rfl
  exact absurd (hbelow m hm h hne) (Nat.not_lt.mpr hle)

/-- One who has the first rank already takes the lead of one who is erased. -/
theorem Governed.respects_replaced {old new : Member} (hold : old ∈ g.members)
    (hbelow : me.rankId < old.rankId) (hnew : new ∈ g.members)
    (hfirst : new.rankId = grGuildmaster) :
    Respects g me ((g.setLeaderGUID new.guid).erase old.guid) := by
  have hrank : ∀ m ∈ g.members,
      (if m.guid = new.guid then m.changeRank grGuildmaster else m).rankId = m.rankId := by
    intro m hm
    split
    · rw [hg.member_unique hm hnew ‹_›]
      exact hfirst.symm
    · rfl
  refine hg.respects_of hme (fun m' hm' => ?_) (fun m hm hne hle => ?_) rfl rfl
  · obtain ⟨m, hm, rfl⟩ := List.mem_map.mp (mem_erase.mp hm').1
    exact ⟨m, hm, (guid_changeRank _ _ m).symm, (hrank m hm).symm⟩
  · refine ⟨_, mem_erase.mpr ⟨List.mem_map_of_mem hm, ?_⟩, guid_changeRank _ _ m, hrank m hm⟩
    rw [guid_changeRank]
    intro h
    rw [hg.member_unique hm hold h] at hle
    omega

theorem Governed.respects_changeRank (hm : m ∈ g.members) (hother : m.guid ≠ me.guid)
    (hbelow : me.rankId < m.rankId) (hlow : me.rankId < newRank % 256) :
    Respects g me (g.changeRank m.guid newRank) := by
  refine ⟨fun m' hm' hguid => ?_, fun m₀ hm₀ hne hle => ?_, fun m₀ hm₀ hne m' hm' hguid hlift => ?_,
    rfl, fun tabId hne => absurd rfl hne⟩
  · obtain ⟨m₁, hm₁, rfl⟩ := List.mem_map.mp hm'
    rw [guid_changeRank] at hguid
    rw [if_neg fun h => hother (h.symm.trans hguid), hg.member_unique hm₁ hme hguid]
  · refine ⟨m₀, mem_changeRank hm₀ fun h => ?_, rfl, rfl⟩
    rw [hg.member_unique hm₀ hm h] at hle
    omega
  · obtain ⟨m₁, hm₁, rfl⟩ := List.mem_map.mp hm'
    rw [guid_changeRank] at hguid
    have heq := hg.member_unique hm₁ hm₀ hguid
    split at hlift
    · rw [if_pos ‹_›]
      exact hlow
    · rw [heq] at hlift
      omega

theorem Governed.respects_updateMemberRank {demote : Bool} :
    ∀ g', g.handleUpdateMemberRank me.guid name demote = .ok g' →
      Respects g me g' := by
  intro g' h
  rcases Guild.handleUpdateMemberRank_cases h with
    rfl | ⟨me', m, newRank, hme', hm, hother, rfl, hmove⟩
  · exact hg.respects_self hme
  rw [hg.getMember hme] at hme'
  cases hme'
  have hmost := hg.ranks.atMost
  have hlowest := hg.ranks.lowestRankId
  have hmeLt := hg.ranked me hme
  have hmLt := hg.ranked m hm
  unfold ranksMaxCount at hmost hmeLt hmLt
  exact hg.respects_changeRank hme hm hother (by omega) (by omega)

/-- A member removed has a lower rank.  If he leads all the same, a master is there to follow. -/
theorem Governed.respects_removeMember (hleads : ¬ g.isLeader me.guid) :
    ∀ s', g.handleRemoveMember me.guid name = .ok s' → ∃ g', s' = some g' ∧ Respects g me g' := by
  intro s' h
  rcases Guild.handleRemoveMember_cases h with rfl | ⟨me', m, hme', hm, hbelow, rfl⟩
  · exact ⟨g, rfl, hg.respects_self hme⟩
  rw [hg.getMember hme] at hme'
  cases hme'
  rcases g.deleteMember_cases m.guid with ⟨hne, heq⟩ | ⟨-, -, hall⟩ | ⟨new, hlead, hnew, heq⟩
  · refine ⟨_, heq, hg.respects_erase hme fun m' hm' hguid _ => ?_⟩
    rw [hg.member_unique hm' hm hguid]
    exact hbelow
  · rw [hg.member_unique hme hm (hall me hme)] at hbelow
    omega
  · obtain ⟨hmem, -, hbest⟩ := hnew
    obtain ⟨l, hl, hleader, hrank⟩ := hg.leader
    have hlm : l = m := hg.member_unique hl hm (hleader.trans hlead.symm)
    have hpos : me.rankId ≠ grGuildmaster := (hg.not_isLeader hme hleads).1
    unfold grGuildmaster at hpos
    rcases hrank with hrank | ⟨x, hx, hfirst⟩
    · rw [hlm] at hrank
      unfold grOfficer at hrank
      omega
    · have hxm : x.guid ≠ m.guid := by
        intro hguid
        rw [hg.member_unique hx hm hguid] at hfirst
        unfold grGuildmaster at hfirst
        omega
      have hle := hbest x hx hxm
      rw [hfirst] at hle
      exact ⟨_, heq, hg.respects_replaced hme hm hbelow hmem (Nat.le_zero.mp hle)⟩

theorem Governed.respects_leaveMember (hleads : ¬ g.isLeader me.guid) :
    ∀ s', g.handleLeaveMember me.guid = .ok s' → ∃ g', s' = some g' ∧ Respects g me g' := by
  intro s' h
  rcases Guild.handleLeaveMember_cases h with ⟨hlead, -⟩ | ⟨-, rfl⟩
  · exact absurd hlead hleads
  have hne := (hg.not_isLeader hme hleads).2
  rcases g.deleteMember_cases me.guid with ⟨-, heq⟩ | ⟨hlead, -, -⟩ | ⟨-, hlead, -, -⟩
  · exact ⟨_, heq, hg.respects_erase hme fun m _ hguid hother => absurd hguid hother⟩
  · exact absurd hlead hne
  · exact absurd hlead hne

theorem respects_settle {reply : Except GuildCommandError (Option Guild)}
    (h : ∀ s', reply = .ok s' → ∃ g', s' = some g' ∧ Respects g me g') :
    ∃ g', g.settle reply = some g' ∧ Respects g me g' := by
  cases reply with
  | ok s' => exact h s' rfl
  | error e => exact ⟨g, rfl, hg.respects_self hme⟩

theorem respects_settle_some {reply : Except GuildCommandError Guild}
    (h : ∀ g', reply = .ok g' → Respects g me g') :
    ∃ g', g.settle (reply.map some) = some g' ∧ Respects g me g' := by
  cases reply with
  | ok g' => exact ⟨g', rfl, h g' rfl⟩
  | error e => exact ⟨g, rfl, hg.respects_self hme⟩

/-- The rest of the ranks is for the leader alone. -/
theorem respects_step (hleads : ¬ g.isLeader me.guid) (hc : c.player = some me.guid) :
    c.SetsTab ∨ ∃ g', step (some g) c = some g' ∧ Respects g me g' := by
  have hself := hg.respects_self hme
  cases c with
  | addMember | deleteMember | changeMemberRank | setStats | rehash => nomatch hc
  | leaveMember player =>
    cases hc
    exact Or.inr (respects_settle hg hme (hg.respects_leaveMember hme hleads))
  | removeMember player name =>
    cases hc
    exact Or.inr (respects_settle hg hme (hg.respects_removeMember hme hleads))
  | updateMemberRank player name demote =>
    cases hc
    exact Or.inr (respects_settle_some hg hme (hg.respects_updateMemberRank hme))
  | setLeader player name =>
    cases hc
    exact Or.inr (respects_settle_some hg hme fun g' h =>
      absurd (Guild.handleSetLeader_cases h).1 hleads)
  | addNewRank player name =>
    cases hc
    have heq : g.handleAddNewRank me.guid name = g := if_neg fun h => hleads h.2
    exact Or.inr ⟨g, congrArg some heq, hself⟩
  | removeRank player rankId =>
    cases hc
    have heq : g.handleRemoveRank me.guid rankId = g := if_pos (Or.inr (Or.inr hleads))
    exact Or.inr ⟨g, congrArg some heq, hself⟩
  | removeLowestRank player =>
    cases hc
    have heq : g.handleRemoveLowestRank me.guid = g := if_pos (Or.inr (Or.inr hleads))
    exact Or.inr ⟨g, congrArg some heq, hself⟩
  | setRankInfo player rankId name rights moneyPerDay rightsAndSlots =>
    cases hc
    refine Or.inr (respects_settle_some hg hme fun g' h => ?_)
    rw [Guild.handleSetRankInfo, if_pos hleads] at h
    nomatch h
  | setMemberNote player name note isPublic =>
    cases hc
    refine Or.inr (respects_settle_some hg hme fun g' h => ?_)
    obtain ⟨hsame, hranks, htabs⟩ := sameStructure_setMemberNote g' h
    exact hg.respects_of hme (fun m' hm' => hsame.symm.mem hm') (fun m hm _ _ => hsame.mem hm)
      hranks htabs
  | setBankTabInfo player tabId name icon => exact Or.inl trivial
  | setBankTabText player tabId text => exact Or.inl trivial

end

end

/-- The leader may do all with every tab. -/
theorem memberHasTabRights_of_leader (hme : g.getMember me.guid = some me)
    (hleads : g.isLeader me.guid) (tabId rights : ℕ) : g.memberHasTabRights me.guid tabId rights := by
  unfold Guild.isLeader at hleads
  unfold Guild.memberHasTabRights
  rw [hme, Option.any_some] at hleads ⊢
  simp only [decide_eq_true_eq] at hleads ⊢
  rcases hleads with hlead | hfirst
  · exact Or.inr (Or.inl hlead.symm)
  · exact Or.inl hfirst

/-- A tab is changed by one who has the right to, or is set to what it is. -/
theorem respectsRanks_tab_iff (hg : Governed g) {tabId : ℕ} {f : BankTab → BankTab}
    (hc : c.player = some player)
    (hstep : step (some g) c = some { g with bankTabs := g.bankTabs.modify tabId f }) :
    RespectsRanks (some g) c ↔ ((g.getMember player).isSome →
      g.memberHasTabRights player tabId bankRightUpdateText ∨
        ∀ tab ∈ g.bankTabs[tabId]?, f tab = tab) := by
  unfold RespectsRanks
  rw [hstep, hc]
  simp only [Option.mem_def, Option.some.injEq, forall_eq']
  constructor
  · rintro ⟨-, hrespects⟩ hmember
    obtain ⟨me, hfound⟩ := Option.isSome_iff_exists.mp hmember
    obtain rfl := (Guild.mem_of_getMember hfound).2
    by_cases hleads : g.isLeader me.guid
    · exact Or.inl (memberHasTabRights_of_leader hfound hleads tabId _)
    obtain ⟨g', rfl, hme⟩ := hrespects me hfound hleads
    rw [or_iff_not_imp_right]
    intro hchanged
    refine hme.tabs tabId fun hsame => hchanged fun tab htab => ?_
    rw [List.getElem?_modify, htab] at hsame
    simpa using hsame
  · intro hguarded
    refine ⟨hg.master, fun me hfound hleads => ⟨_, rfl, ?_⟩⟩
    obtain ⟨hme, rfl⟩ := Guild.mem_of_getMember hfound
    refine { hg.respects_self hme with tabs := fun i hne => ?_ }
    rw [List.getElem?_modify] at hne
    cases htab : g.bankTabs[i]? with
    | none => simp [htab] at hne
    | some tab =>
      rw [htab] at hne
      by_cases hi : tabId = i
      · subst hi
        refine (hguarded (by rw [hfound]; rfl)).resolve_right fun hsame => ?_
        simp [hsame tab htab] at hne
      · simp [hi] at hne

theorem respectsRanks_of_not_setsTab (hg : Governed g) (hc : c.player ≠ none)
    (hfree : ¬ c.SetsTab) : RespectsRanks (some g) c := by
  refine ⟨fun g' h => (governed_step hg hc g' h).master, ?_⟩
  rintro _ ⟨⟩ player hplayer me hfound hleads
  obtain ⟨hme, rfl⟩ := Guild.mem_of_getMember hfound
  exact (respects_step hg hme hleads hplayer).resolve_left hfree

/-- **One command.**  Ranks and members are always respected, and the bank by guarded commands. -/
theorem respectsRanks_iff (hg : Governed g) (hc : c.player ≠ none) :
    RespectsRanks (some g) c ↔ TabsGuarded (some g) c := by
  cases c with
  | setBankTabInfo player tabId name icon =>
    refine (respectsRanks_tab_iff hg rfl rfl).trans ?_
    have hsame : ∀ tab : BankTab, { tab with name, icon } = tab ↔ tab.name = name ∧ tab.icon = icon := by
      rintro ⟨name', icon', text'⟩
      simp [eq_comm]
    simp only [hsame]
    rfl
  | setBankTabText player tabId text =>
    refine (respectsRanks_tab_iff hg rfl rfl).trans ?_
    have hsame : ∀ tab : BankTab, { tab with text } = tab ↔ tab.text = text := by
      rintro ⟨name', icon', text'⟩
      simp [eq_comm]
    simp only [hsame]
    rfl
  | _ => exact iff_of_true (respectsRanks_of_not_setsTab hg hc fun h => h) trivial

end

end

/-! ## 4. Runs -/

/-- In every state of the run the first rank has all rights, and every command of a member who
does not lead respects the ranks. -/
def Privileged (g : Guild) (cs : List Command) : Prop :=
  g.MasterHasAll ∧ Along step RespectsRanks (some g) cs

/-- A leader, a member with the lowest rank, and one tab. -/
def twoMembers : Guild where
  leaderGuid := 1
  ranks := (List.range 5).map fun i => .new i "" (if i = 0 then grRightAll else grRightGchatspeak) 0
  members := [.new 1 "Ada" 0, .new 2 "Bob" 4]
  bankMoney := 0
  bankTabs := [⟨"", "", ""⟩]

theorem structured_twoMembers : Structured false twoMembers :=
  ⟨by decide, ⟨by decide, by decide, by decide⟩, by decide, ⟨.new 1 "Ada" 0, by decide⟩, by decide⟩

/-- **Every run of players' commands leaves a guild that is governed**: somebody of it leads it, its
ranks are in order, and the first one has all rights. -/
theorem governed_exec {multi : Bool} {g : Guild} (hs : Structured multi g)
    (hmaster : g.MasterHasAll) {cs : List Command} (hcs : ∀ c ∈ cs, c.player ≠ none) :
    ∀ g' ∈ exec step (some g) cs, Governed g' := by
  have hstep : ∀ (s : Option Guild) (c : Command), c.player ≠ none → (∀ g' ∈ s, Governed g') →
      ∀ g' ∈ step s c, Governed g' := by
    intro s c hc hs'
    cases s with
    | none => exact fun g' h => nomatch h
    | some g₁ => exact governed_step (hs' g₁ rfl) hc
  refine exec_invariant_of_mem (I := fun s => ∀ g' ∈ s, Governed g') hstep hcs ?_
  rintro g' ⟨⟩
  exact hs.governed hmaster

/-- The other member is promoted. -/
theorem governed_exec_promotion :
    ∃ g' ∈ exec step (some twoMembers) [.updateMemberRank 1 "Bob" false], Governed g' :=
  ⟨_, rfl, governed_exec structured_twoMembers (by decide)
    (List.forall_mem_singleton.mpr (Option.some_ne_none 1) :
      ∀ c ∈ [Command.updateMemberRank 1 "Bob" false], c.player ≠ none) _ rfl⟩

end HungerGames.Guilds
