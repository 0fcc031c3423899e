/-
# The ranks and the members of a guild (`Guild`)

A guild has between five and ten ranks, numbered from the guild master's `0` down; a rank with a
greater number is a lower one.  A member holds one rank, and the guild remembers the one member
who leads it.  Promoting, demoting, removing and naming a leader each change a part of this.

`Option Guild` is a guild that may have been disbanded.  A handler that answers the player with
an error and does nothing else gives that error.  Messages about what was done, the logs and the
statements sent to the database are left out, and so are the items in the bank.
-/
import Mathlib.Data.List.Nodup
import Mathlib.Data.Nat.Bitwise

namespace HungerGames.Guilds

/-! ## 1. Ranks -/

/-- `GUILD_BANK_MAX_TABS` -/
def bankMaxTabs : ℕ := 6

/-- `GUILD_RANKS_MIN_COUNT` -/
def ranksMinCount : ℕ := 5

/-- `GUILD_RANKS_MAX_COUNT` -/
def ranksMaxCount : ℕ := 10

/-- `GUILD_RANK_NONE` -/
def rankNone : ℕ := 0xFF

/-- `GUILD_WITHDRAW_MONEY_UNLIMITED`, `GUILD_WITHDRAW_SLOT_UNLIMITED` -/
def withdrawUnlimited : ℕ := 0xFFFFFFFF

/-- `GR_GUILDMASTER` -/
def grGuildmaster : ℕ := 0

/-- `GR_OFFICER` -/
def grOfficer : ℕ := 1

/-- `GR_RIGHT_EMPTY`: a part of most of the others. -/
def grRightEmpty : ℕ := 0x40

def grRightGchatlisten : ℕ := grRightEmpty ||| 0x1
def grRightGchatspeak : ℕ := grRightEmpty ||| 0x2
def grRightRemove : ℕ := grRightEmpty ||| 0x20
def grRightPromote : ℕ := grRightEmpty ||| 0x80
def grRightDemote : ℕ := grRightEmpty ||| 0x100
def grRightEpnote : ℕ := grRightEmpty ||| 0x2000
def grRightEoffnote : ℕ := grRightEmpty ||| 0x8000
def grRightWithdrawRepair : ℕ := 0x40000
def grRightWithdrawGold : ℕ := 0x80000
def grRightAll : ℕ := 0x1DF1FF

/-- `GUILD_BANK_RIGHT_VIEW_TAB` -/
def bankRightViewTab : ℕ := 0x1

/-- `GUILD_BANK_RIGHT_PUT_ITEM` -/
def bankRightPutItem : ℕ := 0x2

/-- `GUILD_BANK_RIGHT_UPDATE_TEXT` -/
def bankRightUpdateText : ℕ := 0x4

/-- `GuildBankRightsAndSlots`: what a rank may do with one tab of the bank, and how many items a
day a member of it may take.  `tabId` is `TAB_UNDEFINED` until the tab is bought. -/
structure BankRightsAndSlots where
  tabId : ℕ
  rights : ℕ
  slots : ℕ
deriving DecidableEq

namespace BankRightsAndSlots

def undefined : BankRightsAndSlots := ⟨0xFF, 0, 0⟩

def setGuildMasterValues (r : BankRightsAndSlots) : BankRightsAndSlots :=
  { r with rights := 0xFF, slots := withdrawUnlimited }

end BankRightsAndSlots

structure RankInfo where
  rankId : ℕ
  name : String
  rights : ℕ
  bankMoneyPerDay : ℕ
  bankTabs : List BankRightsAndSlots
deriving DecidableEq

namespace RankInfo

def new (rankId : ℕ) (name : String) (rights money : ℕ) : RankInfo :=
  { rankId, name, rights
    bankMoneyPerDay := if rankId ≠ grGuildmaster then money else withdrawUnlimited
    bankTabs := List.replicate bankMaxTabs .undefined }

/-- `LoadFromDB` -/
def load (rid : ℕ) (name : String) (rights bankMoneyPerDay : ℕ) : RankInfo :=
  { rankId := rid, name
    rights := if rid = grGuildmaster then rights ||| grRightAll else rights
    bankMoneyPerDay
    bankTabs := List.replicate bankMaxTabs .undefined }

def setName (r : RankInfo) (name : String) : RankInfo := { r with name }

def setRights (r : RankInfo) (rights : ℕ) : RankInfo :=
  { r with rights := if r.rankId = grGuildmaster then grRightAll else rights }

def setBankMoneyPerDay (r : RankInfo) (money : ℕ) : RankInfo :=
  { r with bankMoneyPerDay := if r.rankId = grGuildmaster then withdrawUnlimited else money }

def setBankTabSlotsAndRights (r : RankInfo) (x : BankRightsAndSlots) : RankInfo :=
  { r with
    bankTabs := r.bankTabs.set x.tabId
      (if r.rankId = grGuildmaster then x.setGuildMasterValues else x) }

/-- `CreateMissingTabsIfNeeded` -/
def createMissingTabsIfNeeded (r : RankInfo) (tabs : ℕ) : RankInfo :=
  { r with
    bankTabs := r.bankTabs.zipIdx.map fun (x, i) =>
      if i < tabs ∧ x.tabId ≠ i then
        if r.rankId = grGuildmaster then { x with tabId := i }.setGuildMasterValues
        else { x with tabId := i }
      else x }

def getBankTabRights (r : RankInfo) (tabId : ℕ) : ℕ :=
  if tabId < bankMaxTabs then (r.bankTabs[tabId]?).elim 0 BankRightsAndSlots.rights else 0

def getBankTabSlotsPerDay (r : RankInfo) (tabId : ℕ) : ℕ :=
  if tabId < bankMaxTabs then (r.bankTabs[tabId]?).elim 0 BankRightsAndSlots.slots else 0

end RankInfo

/-! ## 2. Members -/

/-- `bankWithdraw` counts the items taken from each tab since the last reset, and at last the
money. -/
structure Member where
  guid : ℕ
  name : String
  rankId : ℕ
  publicNote : String
  officerNote : String
  bankWithdraw : List ℤ
deriving DecidableEq

namespace Member

def new (guid : ℕ) (name : String) (rankId : ℕ) : Member :=
  { guid, name, rankId, publicNote := "", officerNote := ""
    bankWithdraw := List.replicate (bankMaxTabs + 1) 0 }

/-- `ChangeRank`: the rank is a `uint8`. -/
def changeRank (m : Member) (newRank : ℕ) : Member := { m with rankId := newRank % 256 }

def isRank (m : Member) (rankId : ℕ) : Bool := m.rankId = rankId

/-- `IsRankNotLower` -/
def isRankNotLower (m : Member) (rankId : ℕ) : Bool := m.rankId ≤ rankId

/-- `CheckStats`: level and class of a character that exists. -/
def checkStats (level cls : ℕ) : Bool := 1 ≤ level ∧ 1 ≤ cls ∧ cls < 12

end Member

structure BankTab where
  name : String
  icon : String
  text : String
deriving DecidableEq

/-! ## 3. The guild -/

/-- `members` lists the members in the order in which the map goes through them. -/
structure Guild where
  leaderGuid : ℕ
  ranks : List RankInfo
  members : List Member
  bankMoney : ℕ
  bankTabs : List BankTab
deriving DecidableEq

namespace Guild

/-- `_GetRanksSize`: a `uint8`. -/
def ranksSize (g : Guild) : ℕ := g.ranks.length % 256

/-- `_GetLowestRankId`: the `uint8` of one less than the size. -/
def lowestRankId (g : Guild) : ℕ := (g.ranks.length + 255) % 256

def getRankInfo (g : Guild) (rankId : ℕ) : Option RankInfo :=
  if rankId < g.ranksSize then g.ranks[rankId]? else none

/-- What a function of `RankInfo&` does to the rank that `GetRankInfo` finds. -/
def modifyRankInfo (g : Guild) (rankId : ℕ) (f : RankInfo → RankInfo) : Guild :=
  if rankId < g.ranksSize then { g with ranks := g.ranks.modify rankId f } else g

/-- `_GetRankRights` -/
def getRankRights (g : Guild) (rankId : ℕ) : ℕ := (g.getRankInfo rankId).elim 0 RankInfo.rights

def getMember (g : Guild) (guid : ℕ) : Option Member := g.members.find? fun m => m.guid = guid

/-- `GetMember`, by name: the first that the map comes to. -/
def getMemberNamed (g : Guild) (name : String) : Option Member :=
  g.members.find? fun m => m.name = name

/-- What a function of `Member*` does to the member with this `guid`. -/
def modifyMember (g : Guild) (guid : ℕ) (f : Member → Member) : Guild :=
  { g with members := g.members.map fun m => if m.guid = guid then f m else m }

def changeRank (g : Guild) (guid newRank : ℕ) : Guild :=
  g.modifyMember guid fun m => m.changeRank newRank

/-- `_HasRankRight`: what is left of the rank's rights must not be `GR_RIGHT_EMPTY`. -/
def hasRankRight (g : Guild) (player right : ℕ) : Bool :=
  (g.getMember player).any fun m => g.getRankRights m.rankId &&& right ≠ grRightEmpty

/-- `_IsLeader` -/
def isLeader (g : Guild) (player : ℕ) : Bool :=
  player = g.leaderGuid ∨ (g.getMember player).any fun m => m.isRank grGuildmaster

/-- `_GetRankBankTabRights` -/
def getRankBankTabRights (g : Guild) (rankId tabId : ℕ) : ℕ :=
  (g.getRankInfo rankId).elim 0 fun r => r.getBankTabRights tabId

/-- `_MemberHasTabRights` -/
def memberHasTabRights (g : Guild) (guid tabId rights : ℕ) : Bool :=
  (g.getMember guid).any fun m =>
    m.isRank grGuildmaster ∨ g.leaderGuid = guid ∨
      g.getRankBankTabRights m.rankId tabId &&& rights = rights

/-- `_CreateRank`: what is stored is the rank before its tabs are created. -/
def createRank (g : Guild) (name : String) (rights : ℕ) : Guild :=
  if ranksMaxCount ≤ g.ranksSize then g
  else { g with ranks := g.ranks ++ [.new g.ranksSize name rights 0] }

/-- `_CreateDefaultGuildRanks`.  The names are texts `811` to `815` of the database. -/
def createDefaultGuildRanks (g : Guild) (trinityString : ℕ → String) : Guild :=
  let chat := grRightGchatlisten ||| grRightGchatspeak
  let g := g.createRank (trinityString 811) grRightAll
  let g := g.createRank (trinityString 812) grRightAll
  let g := g.createRank (trinityString 813) chat
  let g := g.createRank (trinityString 814) chat
  g.createRank (trinityString 815) chat

/-- `_SetLeaderGUID` -/
def setLeaderGUID (g : Guild) (guid : ℕ) : Guild :=
  { g with leaderGuid := guid }.changeRank guid grGuildmaster

/-- `AddMember`, of a player found under `name`.  `free` says that he is in no other guild. -/
def addMember (g : Guild) (guid : ℕ) (name : String) (free : Bool) (rankId : ℕ) : Guild :=
  if (g.getMember guid).isSome ∨ ¬ free then g
  else
    let rankId := if rankId = rankNone then g.lowestRankId else rankId
    { g with members := g.members ++ [.new guid name rankId] }

/-- One turn of the search of `DeleteMember` for a new leader. -/
def betterLeader (lowguid : ℕ) (newLeader : Option Member) (i : Member) : Option Member :=
  if i.guid = lowguid then newLeader
  else match newLeader with
    | none => some i
    | some m => if i.rankId < m.rankId then some i else some m

/-- `DeleteMember`, unless all members are deleted by `Disband`. -/
def deleteMember (g : Guild) (guid : ℕ) : Option Guild :=
  let erased (g : Guild) : Guild := { g with members := g.members.filter fun m => m.guid ≠ guid }
  if g.leaderGuid = guid then
    match g.members.foldl (betterLeader guid) none with
    | none => none
    | some newLeader => some (erased (g.setLeaderGUID newLeader.guid))
  else some (erased g)

/-- `ChangeMemberRank` -/
def changeMemberRank (g : Guild) (guid newRank : ℕ) : Guild :=
  if newRank ≤ g.lowestRankId then g.changeRank guid newRank else g

end Guild

/-! ## 4. What players command -/

/-- The errors that end a handler.  The others of the source belong to handlers left out. -/
inductive GuildCommandError where
  | permissions
  | leaderLeave
  | nameInvalid
  | rankTooHigh (name : String)
  | rankTooLow (name : String)
deriving DecidableEq

namespace Guild

/-- `HandleSetLeader` -/
def handleSetLeader (g : Guild) (player : ℕ) (name : String) : Except GuildCommandError Guild :=
  if ¬ g.isLeader player then .error .permissions
  else match g.getMember player, g.getMemberNamed name with
    | some oldLeader, some newLeader =>
      .ok ((g.setLeaderGUID newLeader.guid).changeRank oldLeader.guid grOfficer)
    | _, _ => .ok g

/-- `HandleSetBankTabInfo` -/
def handleSetBankTabInfo (g : Guild) (tabId : ℕ) (name icon : String) : Guild :=
  { g with bankTabs := g.bankTabs.modify tabId fun tab => { tab with name, icon } }

/-- `SetBankTabText` -/
def setBankTabText (g : Guild) (tabId : ℕ) (text : String) : Guild :=
  { g with bankTabs := g.bankTabs.modify tabId fun tab => { tab with text } }

/-- `HandleSetMemberNote` -/
def handleSetMemberNote (g : Guild) (player : ℕ) (name note : String) (isPublic : Bool) :
    Except GuildCommandError Guild :=
  if ¬ g.hasRankRight player (if isPublic then grRightEpnote else grRightEoffnote) then
    .error .permissions
  else match g.getMemberNamed name with
    | none => .ok g
    | some member => .ok (g.modifyMember member.guid fun m =>
        if isPublic then { m with publicNote := note } else { m with officerNote := note })

/-- `_SetRankBankTabRightsAndSlots` -/
def setRankBankTabRightsAndSlots (g : Guild) (rankId : ℕ) (x : BankRightsAndSlots) : Guild :=
  if g.bankTabs.length ≤ x.tabId then g
  else g.modifyRankInfo rankId fun r => r.setBankTabSlotsAndRights x

/-- `HandleSetRankInfo` -/
def handleSetRankInfo (g : Guild) (player rankId : ℕ) (name : String) (rights moneyPerDay : ℕ)
    (rightsAndSlots : List BankRightsAndSlots) : Except GuildCommandError Guild :=
  if ¬ g.isLeader player then .error .permissions
  else match g.getRankInfo rankId with
    | none => .ok g
    | some _ =>
      let g := g.modifyRankInfo rankId fun r =>
        ((r.setName name).setRights rights).setBankMoneyPerDay moneyPerDay
      .ok (rightsAndSlots.foldl (fun g x => g.setRankBankTabRightsAndSlots rankId x) g)

/-- `HandleLeaveMember` -/
def handleLeaveMember (g : Guild) (player : ℕ) : Except GuildCommandError (Option Guild) :=
  if g.isLeader player then
    if 1 < g.members.length then .error .leaderLeave else .ok none
  else .ok (g.deleteMember player)

/-- `HandleRemoveMember` -/
def handleRemoveMember (g : Guild) (player : ℕ) (name : String) :
    Except GuildCommandError (Option Guild) :=
  if ¬ g.hasRankRight player grRightRemove then .error .permissions
  else match g.getMemberNamed name with
    | none => .ok (some g)
    | some member =>
      if member.isRank grGuildmaster then .error .leaderLeave
      else match g.getMember player with
        | none => .error (.rankTooHigh name)
        | some memberMe =>
          if member.isRankNotLower memberMe.rankId then .error (.rankTooHigh name)
          else .ok (g.deleteMember member.guid)

/-- `HandleUpdateMemberRank` -/
def handleUpdateMemberRank (g : Guild) (player : ℕ) (name : String) (demote : Bool) :
    Except GuildCommandError Guild :=
  if ¬ g.hasRankRight player (if demote then grRightDemote else grRightPromote) then
    .error .permissions
  else match g.getMemberNamed name, g.getMember player with
    | some member, some memberMe =>
      if member.guid = player then .error .nameInvalid
      else if demote then
        if member.isRankNotLower memberMe.rankId then .error (.rankTooHigh name)
        else if g.lowestRankId ≤ member.rankId then .error (.rankTooLow name)
        else .ok (g.changeRank member.guid (member.rankId + 1))
      else
        if member.isRankNotLower ((memberMe.rankId + 1) % 256) then .error (.rankTooHigh name)
        else .ok (g.changeRank member.guid (member.rankId - 1))
    | _, _ => .ok g

/-- `HandleAddNewRank` -/
def handleAddNewRank (g : Guild) (player : ℕ) (name : String) : Guild :=
  if g.ranksSize < ranksMaxCount ∧ g.isLeader player then
    g.createRank name (grRightGchatlisten ||| grRightGchatspeak)
  else g

/-- `HandleRemoveRank`: it is always the last rank that leaves the list. -/
def handleRemoveRank (g : Guild) (player rankId : ℕ) : Guild :=
  if g.ranksSize ≤ ranksMinCount ∨ g.ranksSize ≤ rankId ∨ ¬ g.isLeader player then g
  else { g with ranks := g.ranks.dropLast }

/-- `HandleRemoveLowestRank` -/
def handleRemoveLowestRank (g : Guild) (player : ℕ) : Guild :=
  g.handleRemoveRank player g.lowestRankId

end Guild

/-! ## 5. Where a guild comes from -/

/-- `int32`: what is left of a number in 32 bits, with its sign. -/
def int32 (n : ℤ) : ℤ := n.bmod (2 ^ 32)

/-- A row of `guild_rank`. -/
structure RankRow where
  rid : ℕ
  name : String
  rights : ℕ
  bankMoneyPerDay : ℕ

/-- A row of `guild_member` and what is joined to it. -/
structure MemberRow where
  guid : ℕ
  rank : ℕ
  publicNote : String
  officerNote : String
  withdraw : List ℕ
  name : String
  level : ℕ
  cls : ℕ

/-- The rows of one guild.  A rank is found by its number, which is a `tinyint`. -/
structure GuildRows where
  leaderGuid : ℕ
  bankMoney : ℕ
  ranks : List RankRow
  members : List MemberRow
  bankRights : List (ℕ × BankRightsAndSlots)
  tabs : List (ℕ × BankTab)
  nodup_rid : (ranks.map RankRow.rid).Nodup
  rid_lt : ∀ row ∈ ranks, row.rid < 256

namespace Guild

/-- `Create`, and `none` when the leader is already in a guild. -/
def create (trinityString : ℕ → String) (leader : ℕ) (name : String) (free : Bool) :
    Option Guild :=
  if ¬ free then none
  else
    let g : Guild := ⟨leader, [], [], 0, []⟩
    some ((g.createDefaultGuildRanks trinityString).addMember leader name true grGuildmaster)

/-- `LoadMemberFromDB`: a row replaces one with the same `guid`. -/
def loadMember (members : List Member) (row : MemberRow) : List Member :=
  if Member.checkStats row.level row.cls then
    members.filter (fun m => m.guid ≠ row.guid) ++
      [{ guid := row.guid, name := row.name, rankId := row.rank, publicNote := row.publicNote
         officerNote := row.officerNote, bankWithdraw := row.withdraw.map fun n => int32 n }]
  else members

/-- What `LoadGuilds` reads of one guild. -/
def load (rows : GuildRows) : Guild :=
  let g : Guild :=
    { leaderGuid := rows.leaderGuid
      ranks := rows.ranks.map fun row => .load row.rid row.name row.rights row.bankMoneyPerDay
      members := rows.members.foldl loadMember []
      bankMoney := rows.bankMoney
      bankTabs := rows.tabs.foldl (fun tabs row => tabs.set row.1 row.2)
        (List.replicate (min (rows.tabs.length % 256) bankMaxTabs) ⟨"", "", ""⟩) }
  rows.bankRights.foldl (fun g row => g.setRankBankTabRightsAndSlots row.1 row.2) g

/-- The ranks are too few or too many, or one has another number than its place. -/
def brokenRanks (g : Guild) : Bool :=
  g.ranksSize < ranksMinCount ∨ ranksMaxCount < g.ranksSize ∨
    (List.range g.ranksSize).any fun rankId =>
      (g.getRankInfo rankId).any fun rankInfo => rankInfo.rankId ≠ rankId

/-- The first part of `Validate`. -/
def validateRanks (g : Guild) (trinityString : ℕ → String) : Guild :=
  if g.brokenRanks then { g with ranks := [] }.createDefaultGuildRanks trinityString
  else { g with ranks := g.ranks.map fun r => r.createMissingTabsIfNeeded g.bankTabs.length }

def validateMember (g : Guild) (m : Member) : Member :=
  if g.ranksSize < m.rankId then m.changeRank g.lowestRankId else m

/-- The second part: a rank above the number of ranks becomes the lowest. -/
def validateMembers (g : Guild) : Guild := { g with members := g.members.map g.validateMember }

/-- The third part: the leader is a member, and has the first rank. -/
def validateLeader (g : Guild) : Option Guild :=
  match g.getMember g.leaderGuid with
  | none => g.deleteMember g.leaderGuid
  | some leader =>
    some (if leader.isRank grGuildmaster then g else g.setLeaderGUID leader.guid)

/-- The last part, unless `Guild.AllowMultipleGuildMaster` is set. -/
def demoteOthers (g : Guild) : Guild :=
  { g with members := g.members.map fun m =>
      if m.rankId = grGuildmaster ∧ m.guid ≠ g.leaderGuid then m.changeRank grOfficer else m }

/-- `Validate`, and `none` when no member is left. -/
def validate (g : Guild) (trinityString : ℕ → String) (allowMultiple : Bool) : Option Guild :=
  ((g.validateRanks trinityString).validateMembers.validateLeader).map fun g =>
    if allowMultiple then g else g.demoteOthers

end Guild

/-! ## 6. Runs -/

/-- The guild of a player who turns in a charter, or one that is read from the database. -/
inductive Start where
  | created (leader : ℕ) (name : String) (free : Bool)
  | loaded (rows : GuildRows)

def Start.guild (trinityString : ℕ → String) (allowMultiple : Bool) : Start → Option Guild
  | .created leader name free => Guild.create trinityString leader name free
  | .loaded rows => (Guild.load rows).validate trinityString allowMultiple

/-- What can happen to a guild.  `player` is the one who sends the command. -/
inductive Command where
  | addMember (guid : ℕ) (name : String) (free : Bool) (rankId : ℕ)
  | deleteMember (guid : ℕ)
  | changeMemberRank (guid newRank : ℕ)
  | leaveMember (player : ℕ)
  | removeMember (player : ℕ) (name : String)
  | updateMemberRank (player : ℕ) (name : String) (demote : Bool)
  | setLeader (player : ℕ) (name : String)
  | addNewRank (player : ℕ) (name : String)
  | removeRank (player rankId : ℕ)
  | removeLowestRank (player : ℕ)
  | setRankInfo (player rankId : ℕ) (name : String) (rights moneyPerDay : ℕ)
      (rightsAndSlots : List BankRightsAndSlots)
  | setMemberNote (player : ℕ) (name note : String) (isPublic : Bool)
  | setBankTabInfo (player tabId : ℕ) (name icon : String)
  | setBankTabText (player tabId : ℕ) (text : String)
  /-- A player who logs in or out has the name he has now. -/
  | setStats (guid : ℕ) (name : String)
  /-- The map goes through its members in another order. -/
  | rehash (members : List Member)

/-- The player who sends the command, if one does. -/
def Command.player : Command → Option ℕ
  | .leaveMember player | .removeMember player _ | .updateMemberRank player _ _
  | .setLeader player _ | .addNewRank player _ | .removeRank player _ | .removeLowestRank player
  | .setRankInfo player _ _ _ _ _ | .setMemberNote player _ _ _ | .setBankTabInfo player _ _ _
  | .setBankTabText player _ _ => some player
  | _ => none

namespace Guild

def handle (g : Guild) : Command → Except GuildCommandError (Option Guild)
  | .addMember guid name free rankId => .ok (g.addMember guid name free rankId)
  | .deleteMember guid => .ok (g.deleteMember guid)
  | .changeMemberRank guid newRank => .ok (g.changeMemberRank guid newRank)
  | .leaveMember player => g.handleLeaveMember player
  | .removeMember player name => g.handleRemoveMember player name
  | .updateMemberRank player name demote =>
    (g.handleUpdateMemberRank player name demote).map some
  | .setLeader player name => (g.handleSetLeader player name).map some
  | .addNewRank player name => .ok (g.handleAddNewRank player name)
  | .removeRank player rankId => .ok (g.handleRemoveRank player rankId)
  | .removeLowestRank player => .ok (g.handleRemoveLowestRank player)
  | .setRankInfo player rankId name rights moneyPerDay rightsAndSlots =>
    (g.handleSetRankInfo player rankId name rights moneyPerDay rightsAndSlots).map some
  | .setMemberNote player name note isPublic =>
    (g.handleSetMemberNote player name note isPublic).map some
  | .setBankTabInfo _ tabId name icon => .ok (g.handleSetBankTabInfo tabId name icon)
  | .setBankTabText _ tabId text => .ok (g.setBankTabText tabId text)
  | .setStats guid name => .ok (g.modifyMember guid fun m => { m with name })
  | .rehash members => .ok (some (if members.Perm g.members then { g with members } else g))

/-- A command that is refused changes nothing. -/
def settle (g : Guild) : Except GuildCommandError (Option Guild) → Option Guild
  | .ok s => s
  | .error _ => some g

end Guild

/-- None reaches a guild that is gone. -/
def step (s : Option Guild) (c : Command) : Option Guild :=
  s.bind fun g => g.settle (g.handle c)

end HungerGames.Guilds
