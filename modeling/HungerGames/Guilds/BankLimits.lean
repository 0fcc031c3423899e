/-
# What a member may take from the bank in a day

A rank limits the money a member of it may take in a day, and for each tab the number of items.
What a member has taken is counted in an `int32` until the counters are reset, and what is left is
the limit less the count.  The guild master has no limit; his money is counted too, his items are
not.  The repair of a member's items is paid like money he takes.

Taking money needs one of two rights, whichever is meant.  The counter of the money starts again
below zero after `2 ^ 31`, and then more seems to be left than the limit.

How a move of items goes on, after the rights have been looked at, is an input: `Moving` says
what the bank and the bags of the player allow.
-/
import HungerGames.Guilds.Structure
import Mathlib.Algebra.Order.Ring.Int

namespace HungerGames.Guilds

open HungerGames.System

/-! ## 1. What is left of the day -/

/-- `uint32`: what is left of a number in 32 bits. -/
def uint32 (n : ℤ) : ℤ := n % 2 ^ 32

/-- `MAX_MONEY_AMOUNT` -/
def maxMoneyAmount : ℕ := 2 ^ 31 - 1

namespace Member

/-- `GetBankWithdrawValue`: the guild master has taken all there is, as an `int32`. -/
def getBankWithdrawValue (m : Member) (tabId : ℕ) : ℤ :=
  if m.isRank grGuildmaster then int32 withdrawUnlimited else m.bankWithdraw.getD tabId 0

/-- `UpdateBankWithdrawValue` -/
def updateBankWithdrawValue (m : Member) (tabId amount : ℕ) : Member :=
  { m with bankWithdraw := m.bankWithdraw.modify tabId fun n => int32 (n + amount) }

/-- `ResetValues` -/
def resetValues (m : Member) : Member :=
  { m with bankWithdraw := List.replicate (bankMaxTabs + 1) 0 }

end Member

namespace Guild

/-- `_GetRankBankMoneyPerDay` -/
def getRankBankMoneyPerDay (g : Guild) (rankId : ℕ) : ℤ :=
  (g.getRankInfo rankId).elim 0 fun r => int32 r.bankMoneyPerDay

/-- `_GetRankBankTabSlotsPerDay` -/
def getRankBankTabSlotsPerDay (g : Guild) (rankId tabId : ℕ) : ℤ :=
  if tabId < g.bankTabs.length then
    (g.getRankInfo rankId).elim 0 fun r => int32 (r.getBankTabSlotsPerDay tabId)
  else 0

/-- `_GetMemberRemainingSlots` -/
def getMemberRemainingSlots (g : Guild) (m : Member) (tabId : ℕ) : ℤ :=
  if m.isRank grGuildmaster then int32 withdrawUnlimited
  else if g.getRankBankTabRights m.rankId tabId &&& bankRightViewTab ≠ 0 then
    max 0 (int32 (g.getRankBankTabSlotsPerDay m.rankId tabId - m.getBankWithdrawValue tabId))
  else 0

/-- `_GetMemberRemainingMoney` -/
def getMemberRemainingMoney (g : Guild) (m : Member) : ℤ :=
  if m.isRank grGuildmaster then int32 withdrawUnlimited
  else if g.getRankRights m.rankId &&& (grRightWithdrawRepair ||| grRightWithdrawGold) ≠ 0 then
    max 0 (int32 (g.getRankBankMoneyPerDay m.rankId - m.getBankWithdrawValue bankMaxTabs))
  else 0

/-- `_UpdateMemberWithdrawSlots` -/
def updateMemberWithdrawSlots (g : Guild) (guid tabId : ℕ) : Guild :=
  match g.getMember guid with
  | none => g
  | some m =>
    if ¬ m.isRank grGuildmaster ∧
        m.getBankWithdrawValue tabId < g.getRankBankTabSlotsPerDay m.rankId tabId then
      g.modifyMember guid fun m => m.updateBankWithdrawValue tabId 1
    else g

/-! ## 2. Money -/

/-- `HandleMemberDepositMoney`: the money of the bank is a `uint64`. -/
def handleMemberDepositMoney (g : Guild) (amount : ℕ) : Guild :=
  { g with bankMoney := (g.bankMoney + amount) % 2 ^ 64 }

/-- `ModifyMoney`: a purse that has no room for more refuses it. -/
def modifyMoney (purse amount : ℕ) : Bool := amount = 0 ∨ purse < maxMoneyAmount - amount

/-- The money that is asked for is in the bank, and is left to the member for the day. -/
def grantsMoney (g : Guild) (player amount : ℕ) : Bool :=
  amount ≤ g.bankMoney ∧
    (g.getMember player).any fun m => amount ≤ uint32 (g.getMemberRemainingMoney m)

/-- `HandleMemberWithdrawMoney`, and `none` where it returns `false`. -/
def handleMemberWithdrawMoney (g : Guild) (player amount : ℕ) (repair : Bool) (purse : ℕ) :
    Option Guild :=
  let amount := min amount maxMoneyAmount
  if ¬ g.grantsMoney player amount then none
  else if ¬ repair ∧ ¬ modifyMoney purse amount then none
  else some { g.modifyMember player fun m => m.updateBankWithdrawValue bankMaxTabs amount with
    bankMoney := g.bankMoney - amount }

/-! ## 3. Items -/

/-- Where an item comes from or goes to. -/
inductive Place where
  | tab (tabId : ℕ)
  | inventory
deriving DecidableEq

/-- What `_MoveItems` finds: `srcItem` at the source, of which at least as many are there as
`splitFits` says are to be moved, and if only a part is to be, a copy; `merges` when it can be
stored beside what is there, and else `destItem` at the destination, with which it `swaps`. -/
structure Moving where
  srcItem : Bool
  splitFits : Bool
  split : Bool
  cloned : Bool
  merges : Bool
  destItem : Bool
  swaps : Bool
deriving DecidableEq

/-- `HasStoreRights` of the one place, against the other. -/
def hasStoreRights (g : Guild) (player : ℕ) : Place → Place → Bool
  | .inventory, _ => true
  | .tab tabId, other =>
    other = .tab tabId ∨ g.memberHasTabRights player tabId (bankRightViewTab ||| bankRightPutItem)

/-- `HasWithdrawRights` -/
def hasWithdrawRights (g : Guild) (player : ℕ) : Place → Place → Bool
  | .inventory, _ => true
  | .tab tabId, other =>
    other = .tab tabId ∨
      ((g.getMember player).elim 0 fun m => g.getMemberRemainingSlots m tabId) ≠ 0

/-- What `RemoveItem` counts. -/
def removeItem (g : Guild) (player : ℕ) : Place → Place → Guild
  | .inventory, _ => g
  | .tab tabId, other =>
    if other = .tab tabId then g else g.updateMemberWithdrawSlots player tabId

/-- The calls of `RemoveItem` that `_MoveItems` comes to, each of one place against another. -/
def removals (g : Guild) (player : ℕ) (src dest : Place) (o : Moving) : List (Place × Place) :=
  if ¬ o.srcItem ∨ ¬ o.splitFits then []
  else if ¬ g.hasStoreRights player dest src then []
  else if ¬ g.hasWithdrawRights player src dest then []
  else if o.split then
    if o.cloned ∧ o.merges then [(src, dest)] else []
  else if o.merges then [(src, dest)]
  else if ¬ o.destItem then []
  else if ¬ g.hasStoreRights player src dest then []
  else if ¬ g.hasWithdrawRights player dest src then []
  else if o.swaps then [(src, dest), (dest, src)]
  else []

/-- `_MoveItems`, as far as the counters of the player go. -/
def moveItems (g : Guild) (player : ℕ) (src dest : Place) (o : Moving) : Guild :=
  (g.removals player src dest o).foldl (fun g x => g.removeItem player x.1 x.2) g

/-- `ResetTimes` -/
def resetTimes (g : Guild) : Guild := { g with members := g.members.map Member.resetValues }

end Guild

/-! ## 4. Runs -/

/-- The tab that a call of `RemoveItem` takes an item out of. -/
def takenFrom : Guild.Place × Guild.Place → Option ℕ
  | (.tab tabId, other) => if other = .tab tabId then none else some tabId
  | (.inventory, _) => none

/-- The guild, and beside it what each member has taken since the last reset: the money, and the
items out of each tab.  No function of the source reads these two. -/
structure Ledger where
  guild : Option Guild
  money : ℕ → ℕ
  items : ℕ → ℕ → ℕ

inductive BankCommand where
  | roster (c : Command)
  | depositMoney (amount : ℕ)
  | withdrawMoney (player amount purse : ℕ)
  /-- A repair that costs nothing is made to cost one. -/
  | repair (player costs : ℕ)
  | moveItems (player : ℕ) (src dest : Guild.Place) (o : Guild.Moving)
  | resetTimes

namespace Ledger

/-- What a member has taken who was not there before is nothing. -/
def roster (s : Ledger) (c : Command) : Ledger :=
  let present guid := s.guild.any fun g => (g.getMember guid).isSome
  { guild := step s.guild c
    money := fun guid => if present guid then s.money guid else 0
    items := fun guid => if present guid then s.items guid else fun _ => 0 }

/-- What a withdrawal adds to the money taken. -/
def withdraw (s : Ledger) (player amount : ℕ) (repair : Bool) (purse : ℕ) : Ledger :=
  match s.guild.bind fun g => g.handleMemberWithdrawMoney player amount repair purse with
  | none => s
  | some g =>
    { s with
      guild := some g
      money := fun guid =>
        if guid = player then s.money guid + min amount maxMoneyAmount else s.money guid }

/-- What a move adds to the items taken. -/
def moveItems (s : Ledger) (player : ℕ) (src dest : Guild.Place) (o : Guild.Moving) : Ledger :=
  match s.guild with
  | none => s
  | some g =>
    { s with
      guild := some (g.moveItems player src dest o)
      items := fun guid tabId =>
        if guid = player then
          s.items guid tabId + ((g.removals player src dest o).filterMap takenFrom).count tabId
        else s.items guid tabId }

def step (s : Ledger) : BankCommand → Ledger
  | .roster c => s.roster c
  | .depositMoney amount => { s with guild := s.guild.map fun g => g.handleMemberDepositMoney amount }
  | .withdrawMoney player amount purse =>
    if amount = 0 then s else s.withdraw player amount false purse
  | .repair player costs => s.withdraw player (max costs 1) true 0
  | .moveItems player src dest o => s.moveItems player src dest o
  | .resetTimes => ⟨s.guild.map Guild.resetTimes, fun _ => 0, fun _ _ => 0⟩

/-- A day begins. -/
def opened (g : Guild) : Ledger := ⟨some g.resetTimes, fun _ => 0, fun _ _ => 0⟩

end Ledger

/-! ## 5. The limits -/

/-- Of one whose rank is not the first: the money he has taken and takes now is within the limit
of the rank, which has the right. -/
def WithinMoney (s : Ledger) (g : Guild) (player amount right : ℕ) : Prop :=
  ∀ m ∈ g.getMember player, m.rankId ≠ grGuildmaster →
    ∃ r ∈ g.getRankInfo m.rankId,
      (s.money player + amount : ℤ) ≤ uint32 r.bankMoneyPerDay ∧ r.rights &&& right ≠ 0

/-- What is taken is within the limits of the rank. -/
def WithinLimits (s : Ledger) : BankCommand → Prop
  | .withdrawMoney player amount purse => ∀ g ∈ s.guild, amount ≠ 0 →
      (g.handleMemberWithdrawMoney player amount false purse).isSome →
      WithinMoney s g player (min amount maxMoneyAmount) grRightWithdrawGold
  | .repair player costs => ∀ g ∈ s.guild,
      (g.handleMemberWithdrawMoney player (max costs 1) true 0).isSome →
      WithinMoney s g player (min (max costs 1) maxMoneyAmount) grRightWithdrawRepair
  | .moveItems player src dest o => ∀ g ∈ s.guild,
      ∀ tabId ∈ (g.removals player src dest o).filterMap takenFrom,
      ∀ m ∈ g.getMember player, m.rankId ≠ grGuildmaster →
        ∃ r ∈ g.getRankInfo m.rankId,
          (s.items player tabId + 1 : ℤ) ≤ uint32 (r.getBankTabSlotsPerDay tabId) ∧
            r.getBankTabRights tabId &&& bankRightViewTab ≠ 0
  | _ => True

/-- Of one whose rank is not the first: the money he has taken is not so much above the limit
that the counter has come round, and his rank has the right that is meant. -/
def CountsMoney (s : Ledger) (g : Guild) (player right : ℕ) : Prop :=
  ∀ m ∈ g.getMember player, m.rankId ≠ grGuildmaster → ∀ r ∈ g.getRankInfo m.rankId,
    (s.money player : ℤ) ≤ uint32 r.bankMoneyPerDay + 2 ^ 31 ∧ r.rights &&& right ≠ 0

/-- When money or an item is granted, the counters show enough: that of the money has not come
round, and the items that the counter of the tab has missed are fewer than the slots left. -/
def CountsShow (s : Ledger) : BankCommand → Prop
  | .withdrawMoney player amount purse => ∀ g ∈ s.guild, amount ≠ 0 →
      g.grantsMoney player (min amount maxMoneyAmount) →
      Guild.modifyMoney purse (min amount maxMoneyAmount) →
      CountsMoney s g player grRightWithdrawGold
  | .repair player costs => ∀ g ∈ s.guild,
      g.grantsMoney player (min (max costs 1) maxMoneyAmount) →
      CountsMoney s g player grRightWithdrawRepair
  | .moveItems player src dest o => ∀ g ∈ s.guild,
      ∀ tabId ∈ (g.removals player src dest o).filterMap takenFrom,
      ∀ m ∈ g.getMember player, m.rankId ≠ grGuildmaster →
        (s.items player tabId : ℤ) - m.getBankWithdrawValue tabId <
          g.getMemberRemainingSlots m tabId
  | _ => True

/-! ## 6. The arithmetic of the counters -/

theorem int32_eq (n : ℤ) :
    int32 n = if n % 2 ^ 32 < 2 ^ 31 then n % 2 ^ 32 else n % 2 ^ 32 - 2 ^ 32 := by
  unfold int32
  rw [Int.bmod_def]
  rfl

theorem int32_sub_int32 (a b : ℤ) : int32 (int32 a - int32 b) = int32 (a - b) := by
  simp only [int32, Int.bmod_sub_bmod, Int.sub_bmod_bmod]

theorem int32_add_int32 (a b : ℤ) : int32 (int32 a + b) = int32 (a + b) := by
  simp only [int32, Int.bmod_add_bmod]

/-- What is left of a limit, when it is more than nothing and the count is not far above it. -/
theorem int32_sub_of_pos {limit count : ℤ} (hpos : 0 < int32 (limit - count)) (hcount : 0 ≤ count)
    (hnear : count ≤ uint32 limit + 2 ^ 31) : int32 (limit - count) = uint32 limit - count := by
  rw [int32_eq] at hpos ⊢
  unfold uint32 at hnear ⊢
  omega

theorem uint32_le {n : ℤ} (h : 0 ≤ n) : uint32 n ≤ n := by
  unfold uint32
  omega

theorem max_zero_eq {x : ℤ} (h : max 0 x ≠ 0) : max 0 x = x ∧ 0 < x := by omega

/-! ## 7. What a grant shows -/

/-- The counters of a member: that of the money is the money taken, as an `int32`. -/
structure Tallies (money : ℕ → ℕ) (m : Member) : Prop where
  length : m.bankWithdraw.length = bankMaxTabs + 1
  money : m.bankWithdraw.getD bankMaxTabs 0 = int32 (money m.guid)
  items : ∀ tabId < bankMaxTabs,
    0 ≤ m.bankWithdraw.getD tabId 0 ∧ m.bankWithdraw.getD tabId 0 < 2 ^ 31

/-- The counters of all members, and that there is one set of them for each `guid`. -/
structure Tally (money : ℕ → ℕ) (g : Guild) : Prop where
  tallies : ∀ m ∈ g.members, Tallies money m
  unique : ∀ m ∈ g.members, ∀ m' ∈ g.members, m.guid = m'.guid → m.bankWithdraw = m'.bankWithdraw

def Tallied (s : Ledger) : Prop := ∀ g ∈ s.guild, Tally s.money g

section

variable {g : Guild} {m : Member}

theorem not_isRank {rankId : ℕ} (h : m.rankId ≠ rankId) : ¬ m.isRank rankId = true :=
  fun heq => h (of_decide_eq_true heq)

section

variable (hlow : m.rankId ≠ grGuildmaster)
include hlow

theorem getBankWithdrawValue_of_ne (tabId : ℕ) :
    m.getBankWithdrawValue tabId = m.bankWithdraw.getD tabId 0 := if_neg (not_isRank hlow)

/-- Money is left to a rank with one of the two rights. -/
theorem remainingMoney_of_pos (hpos : 0 < g.getMemberRemainingMoney m) :
    ∃ r ∈ g.getRankInfo m.rankId, g.getMemberRemainingMoney m =
      int32 (int32 r.bankMoneyPerDay - m.bankWithdraw.getD bankMaxTabs 0) := by
  unfold Guild.getMemberRemainingMoney at hpos ⊢
  rw [if_neg (not_isRank hlow), getBankWithdrawValue_of_ne hlow] at hpos ⊢
  split at hpos
  · rename_i hrights
    rw [if_pos hrights]
    unfold Guild.getRankRights at hrights
    cases hfound : g.getRankInfo m.rankId with
    | none => simp [hfound] at hrights
    | some r =>
      refine ⟨r, rfl, ?_⟩
      unfold Guild.getRankBankMoneyPerDay at hpos ⊢
      rw [hfound, Option.elim_some] at hpos ⊢
      exact (max_zero_eq (ne_of_gt hpos)).1
  · exact absurd hpos (Int.lt_irrefl 0)

/-- Slots are left only of a tab there can be. -/
theorem lt_bankMaxTabs_of_remainingSlots {tabId : ℕ} (hne : g.getMemberRemainingSlots m tabId ≠ 0) :
    tabId < bankMaxTabs := by
  by_contra habove
  refine hne ?_
  have hrights : g.getRankBankTabRights m.rankId tabId = 0 := by
    unfold Guild.getRankBankTabRights
    cases g.getRankInfo m.rankId with
    | none => rfl
    | some r => exact if_neg habove
  unfold Guild.getMemberRemainingSlots
  rw [if_neg (not_isRank hlow), hrights]
  rfl

/-- Slots are left to a rank with the right to see a tab, of a limit for it. -/
theorem remainingSlots_of_ne_zero {tabId : ℕ} (hcount : ∀ tabId < bankMaxTabs,
      0 ≤ m.bankWithdraw.getD tabId 0 ∧ m.bankWithdraw.getD tabId 0 < 2 ^ 31)
    (hne : g.getMemberRemainingSlots m tabId ≠ 0) :
    ∃ r ∈ g.getRankInfo m.rankId, r.getBankTabRights tabId &&& bankRightViewTab ≠ 0 ∧
      g.getMemberRemainingSlots m tabId =
        uint32 (r.getBankTabSlotsPerDay tabId) - m.bankWithdraw.getD tabId 0 ∧
      0 < g.getMemberRemainingSlots m tabId := by
  have hcount := hcount tabId (lt_bankMaxTabs_of_remainingSlots hlow hne)
  unfold Guild.getMemberRemainingSlots at hne ⊢
  rw [if_neg (not_isRank hlow), getBankWithdrawValue_of_ne hlow] at hne ⊢
  split at hne
  swap
  · exact absurd rfl hne
  rename_i hrights
  rw [if_pos hrights]
  unfold Guild.getRankBankTabRights at hrights
  obtain ⟨hleft, hpos⟩ := max_zero_eq hne
  rw [hleft]
  cases hfound : g.getRankInfo m.rankId with
  | none => simp [hfound] at hrights
  | some r =>
    rw [hfound] at hrights
    refine ⟨r, rfl, hrights, ?_, hpos⟩
    clear hrights
    unfold Guild.getRankBankTabSlotsPerDay at hpos ⊢
    rw [hfound] at hpos ⊢
    split at hpos
    · rw [if_pos ‹_›]
      have heq : int32 (int32 (r.getBankTabSlotsPerDay tabId) - m.bankWithdraw.getD tabId 0) =
          int32 (r.getBankTabSlotsPerDay tabId - m.bankWithdraw.getD tabId 0) := by
        simp only [int32, Int.bmod_sub_bmod]
      rw [Option.elim_some, heq] at hpos ⊢
      refine int32_sub_of_pos hpos hcount.1 (le_trans (le_of_lt hcount.2) ?_)
      exact le_add_of_nonneg_left (Int.emod_nonneg _ (by decide))
    · rw [int32_eq] at hpos
      omega

theorem getMemberRemainingMoney_nonneg : 0 ≤ g.getMemberRemainingMoney m := by
  unfold Guild.getMemberRemainingMoney
  rw [if_neg (not_isRank hlow)]
  split
  · exact le_max_left _ _
  · exact le_refl _

end

variable {player : ℕ}

/-- What is left is the limit less the money taken, if the counter has not come round. -/
theorem withinMoney_iff {s : Ledger} {amount right : ℕ} (ht : ∀ m ∈ g.members, Tallies s.money m)
    (hamount : 0 < amount) (hgrant : g.grantsMoney player amount) :
    WithinMoney s g player amount right ↔ CountsMoney s g player right := by
  refine forall₃_congr fun m hm hlow => ?_
  obtain ⟨hmem, rfl⟩ := Guild.mem_of_getMember hm
  have hle : (amount : ℤ) ≤ uint32 (g.getMemberRemainingMoney m) := by
    unfold Guild.grantsMoney at hgrant
    rw [decide_eq_true_iff, hm] at hgrant
    simpa using hgrant.2
  have hle' : (amount : ℤ) ≤ g.getMemberRemainingMoney m :=
    le_trans hle (uint32_le (getMemberRemainingMoney_nonneg hlow))
  have hsome : 0 < g.getMemberRemainingMoney m := by omega
  obtain ⟨r, hr, hleft⟩ := remainingMoney_of_pos hlow hsome
  rw [(ht m hmem).money, int32_sub_int32] at hleft
  rw [hleft] at hle'
  have hpos : 0 < int32 ((r.bankMoneyPerDay : ℤ) - s.money m.guid) := by omega
  have hexact := int32_sub_of_pos hpos (by omega)
  rw [Option.mem_def] at hr
  simp only [hr, Option.mem_def, Option.some.injEq, exists_eq_left', forall_eq']
  refine and_congr_left fun _ => ⟨fun h => by omega, fun h => ?_⟩
  rw [hexact h] at hle'
  omega

theorem hasWithdrawRights_of_mem {src dest : Guild.Place} {o : Guild.Moving}
    {x : Guild.Place × Guild.Place} (hx : x ∈ g.removals player src dest o) :
    g.hasWithdrawRights player x.1 x.2 := by
  unfold Guild.removals at hx
  split at hx
  · nomatch hx
  split at hx
  · nomatch hx
  split at hx
  · nomatch hx
  rename_i hsrc
  have hfirst : g.hasWithdrawRights player src dest := by simpa using hsrc
  split at hx
  · split at hx
    · rw [List.mem_singleton.mp hx]
      exact hfirst
    · nomatch hx
  split at hx
  · rw [List.mem_singleton.mp hx]
    exact hfirst
  split at hx
  · nomatch hx
  split at hx
  · nomatch hx
  split at hx
  · nomatch hx
  rename_i hdest
  split at hx
  · rcases List.mem_cons.mp hx with rfl | hx
    · exact hfirst
    · rw [List.mem_singleton.mp hx]
      simpa using hdest
  · nomatch hx

/-- A tab an item is taken out of has slots left for the player. -/
theorem remainingSlots_of_taken {tabId : ℕ} {src dest : Guild.Place} {o : Guild.Moving}
    (htaken : tabId ∈ (g.removals player src dest o).filterMap takenFrom)
    (hm : g.getMember player = some m) : g.getMemberRemainingSlots m tabId ≠ 0 := by
  obtain ⟨⟨place, other⟩, hx, htab⟩ := List.mem_filterMap.mp htaken
  have hrights := hasWithdrawRights_of_mem hx
  cases place with
  | inventory => nomatch htab
  | tab tabId' =>
    by_cases hother : other = .tab tabId'
    · simp [takenFrom, hother] at htab
    · obtain rfl : tabId' = tabId := by simpa [takenFrom, hother] using htab
      unfold Guild.hasWithdrawRights at hrights
      rw [hm] at hrights
      simpa [hother] using hrights

theorem withdraw_eq {amount purse : ℕ} {repair : Bool} {g' : Guild}
    (h : g.handleMemberWithdrawMoney player amount repair purse = some g') :
    g' = { g.modifyMember player fun m =>
        m.updateBankWithdrawValue bankMaxTabs (min amount maxMoneyAmount) with
      bankMoney := g.bankMoney - min amount maxMoneyAmount } := by
  unfold Guild.handleMemberWithdrawMoney at h
  dsimp only at h
  split at h
  · nomatch h
  split at h
  · nomatch h
  · exact (Option.some.inj h).symm

theorem isSome_withdraw_iff {amount purse : ℕ} {repair : Bool} :
    (g.handleMemberWithdrawMoney player amount repair purse).isSome ↔
      g.grantsMoney player (min amount maxMoneyAmount) ∧
        (repair ∨ Guild.modifyMoney purse (min amount maxMoneyAmount)) := by
  unfold Guild.handleMemberWithdrawMoney
  grind

/-- Which commands stay within the limits. -/
theorem withinLimits_iff {s : Ledger} (ht : Tallied s) (c : BankCommand) :
    WithinLimits s c ↔ CountsShow s c := by
  cases c with
  | roster | depositMoney | resetTimes => exact Iff.rfl
  | withdrawMoney player amount purse =>
    refine forall₃_congr fun g hg hne => ?_
    have hamount : 0 < min amount maxMoneyAmount :=
      lt_min (Nat.pos_of_ne_zero hne) (by decide)
    rw [isSome_withdraw_iff, and_imp]
    refine forall_congr' fun hgrant => ?_
    simp only [Bool.false_eq_true, false_or]
    exact forall_congr' fun _ => withinMoney_iff (ht g hg).tallies hamount hgrant
  | repair player costs =>
    refine forall₂_congr fun g hg => ?_
    have hamount : 0 < min (max costs 1) maxMoneyAmount :=
      lt_min (Nat.lt_of_lt_of_le Nat.zero_lt_one (le_max_right _ _)) (by decide)
    rw [isSome_withdraw_iff, and_imp]
    refine forall_congr' fun hgrant => ?_
    simp only [true_or, forall_const]
    exact withinMoney_iff (ht g hg).tallies hamount hgrant
  | moveItems player src dest o =>
    refine forall₂_congr fun g hg => forall₂_congr fun tabId htaken => ?_
    refine forall₃_congr fun m hm hlow => ?_
    obtain ⟨hmem, rfl⟩ := Guild.mem_of_getMember hm
    obtain ⟨r, hr, hright, hleft, -⟩ := remainingSlots_of_ne_zero hlow
      ((ht g hg).tallies m hmem).items (remainingSlots_of_taken htaken hm)
    rw [Option.mem_def] at hr
    rw [hleft, getBankWithdrawValue_of_ne hlow]
    simp only [hr, Option.mem_def, Option.some.injEq, exists_eq_left', hright, not_false_eq_true,
      ne_eq, and_true]
    omega

end

/-! ## 8. The counters are kept -/

/-- Every member was one before, and has the counters he had. -/
def SameCounters (g g' : Guild) : Prop :=
  ∀ m' ∈ g'.members, ∃ m ∈ g.members, m.guid = m'.guid ∧ m.bankWithdraw = m'.bankWithdraw

section

variable {g g' : Guild} {money : ℕ → ℕ}

theorem SameCounters.of_mem (h : ∀ m ∈ g'.members, m ∈ g.members) : SameCounters g g' :=
  fun m hm => ⟨m, h m hm, rfl, rfl⟩

theorem SameCounters.refl (g : Guild) : SameCounters g g := .of_mem fun _ hm => hm

theorem SameCounters.trans {g₁ g₂ g₃ : Guild} (h : SameCounters g₁ g₂) (h' : SameCounters g₂ g₃) :
    SameCounters g₁ g₃ := by
  intro m₃ hm₃
  obtain ⟨m₂, hm₂, hguid, hcounts⟩ := h' m₃ hm₃
  obtain ⟨m₁, hm₁, hguid', hcounts'⟩ := h m₂ hm₂
  exact ⟨m₁, hm₁, hguid'.trans hguid, hcounts'.trans hcounts⟩

theorem sameCounters_modifyMember (g : Guild) (guid : ℕ) {f : Member → Member}
    (hguid : ∀ m, (f m).guid = m.guid) (hcounts : ∀ m, (f m).bankWithdraw = m.bankWithdraw) :
    SameCounters g (g.modifyMember guid f) := by
  intro m' hm'
  obtain ⟨m, hm, rfl⟩ := List.mem_map.mp hm'
  refine ⟨m, hm, ?_⟩
  split
  · exact ⟨(hguid m).symm, (hcounts m).symm⟩
  · exact ⟨rfl, rfl⟩

theorem sameCounters_changeRank (g : Guild) (guid newRank : ℕ) :
    SameCounters g (g.changeRank guid newRank) :=
  sameCounters_modifyMember g guid (fun _ => rfl) fun _ => rfl

theorem sameCounters_setLeaderGUID (g : Guild) (guid : ℕ) :
    SameCounters g (g.setLeaderGUID guid) :=
  sameCounters_changeRank { g with leaderGuid := guid } guid grGuildmaster

theorem sameCounters_erase (g : Guild) (guid : ℕ) : SameCounters g (g.erase guid) :=
  .of_mem fun _ hm => List.mem_of_mem_filter hm

theorem sameCounters_deleteMember {guid : ℕ} (h : g' ∈ g.deleteMember guid) :
    SameCounters g g' := by
  rcases g.deleteMember_cases guid with ⟨-, heq⟩ | ⟨-, heq, -⟩ | ⟨newLeader, -, -, heq⟩ <;>
    rw [heq] at h
  · exact Option.some.inj h ▸ sameCounters_erase g guid
  · nomatch h
  · rw [← Option.some.inj h]
    exact (sameCounters_setLeaderGUID g newLeader.guid).trans (sameCounters_erase _ guid)

theorem sameCounters_modifyRankInfo (g : Guild) (rankId : ℕ) (f : RankInfo → RankInfo) :
    SameCounters g (g.modifyRankInfo rankId f) := by
  refine .of_mem fun m hm => ?_
  unfold Guild.modifyRankInfo at hm
  split at hm <;> exact hm

theorem sameCounters_setBankRights (rankId : ℕ) (rightsAndSlots : List BankRightsAndSlots)
    (g : Guild) : SameCounters g
      (rightsAndSlots.foldl (fun g x => g.setRankBankTabRightsAndSlots rankId x) g) := by
  induction rightsAndSlots generalizing g with
  | nil => exact .refl g
  | cons x _ ih =>
    refine .trans ?_ (ih (g.setRankBankTabRightsAndSlots rankId x))
    unfold Guild.setRankBankTabRightsAndSlots
    split
    · exact .refl g
    · exact sameCounters_modifyRankInfo g rankId _

theorem sameCounters_setRankInfo {player rankId : ℕ} {name : String} {rights moneyPerDay : ℕ}
    {rightsAndSlots : List BankRightsAndSlots}
    (h : g.handleSetRankInfo player rankId name rights moneyPerDay rightsAndSlots = .ok g') :
    SameCounters g g' := by
  unfold Guild.handleSetRankInfo at h
  split at h
  · nomatch h
  split at h
  · exact Except.ok.inj h ▸ .refl g
  · rw [← Except.ok.inj h]
    exact (sameCounters_modifyRankInfo g rankId _).trans (sameCounters_setBankRights rankId _ _)

theorem mem_settle {reply : Except GuildCommandError (Option Guild)}
    (h : g' ∈ g.settle reply) : g' = g ∨ ∃ s', reply = .ok s' ∧ g' ∈ s' := by
  cases reply with
  | ok s' => exact Or.inr ⟨s', rfl, h⟩
  | error e => exact Or.inl (Option.some.inj h).symm

theorem mem_settle_map {reply : Except GuildCommandError Guild}
    (h : g' ∈ g.settle (reply.map some)) : g' = g ∨ reply = .ok g' := by
  rcases mem_settle h with heq | ⟨s', hreply, hs'⟩
  · exact Or.inl heq
  · cases reply with
    | ok g₁ =>
      obtain rfl := Except.ok.inj hreply
      exact Or.inr (congrArg _ (Option.some.inj hs'))
    | error e => nomatch hreply

/-- Every command keeps the counters of those who stay.  Only a new member has none. -/
theorem counters_step {c : Command} (h : g' ∈ step (some g) c) :
    SameCounters g g' ∨ ∃ guid name rankId, g.getMember guid = none ∧
      g' = { g with members := g.members ++ [.new guid name rankId] } := by
  cases c with
  | addMember guid name free rankId =>
    obtain rfl : g.addMember guid name free rankId = g' := Option.some.inj h
    unfold Guild.addMember
    split
    · exact Or.inl (.refl g)
    · rename_i hnew
      refine Or.inr ⟨guid, name, _, ?_, rfl⟩
      simpa using fun hsome => hnew (Or.inl hsome)
  | deleteMember guid => exact Or.inl (sameCounters_deleteMember h)
  | changeMemberRank guid newRank =>
    obtain rfl : g.changeMemberRank guid newRank = g' := Option.some.inj h
    unfold Guild.changeMemberRank
    split
    · exact Or.inl (sameCounters_changeRank g guid newRank)
    · exact Or.inl (.refl g)
  | leaveMember player =>
    rcases mem_settle h with rfl | ⟨s', hreply, hs'⟩
    · exact Or.inl (.refl g')
    · rcases Guild.handleLeaveMember_cases hreply with ⟨-, rfl⟩ | ⟨-, rfl⟩
      · nomatch hs'
      · exact Or.inl (sameCounters_deleteMember hs')
  | removeMember player name =>
    rcases mem_settle h with rfl | ⟨s', hreply, hs'⟩
    · exact Or.inl (.refl g')
    · rcases Guild.handleRemoveMember_cases hreply with rfl | ⟨me, m, -, -, -, rfl⟩
      · exact Or.inl (Option.some.inj hs' ▸ .refl g)
      · exact Or.inl (sameCounters_deleteMember hs')
  | updateMemberRank player name demote =>
    rcases mem_settle_map h with rfl | hreply
    · exact Or.inl (.refl g')
    · rcases Guild.handleUpdateMemberRank_cases hreply with
        rfl | ⟨me, m, newRank, -, -, -, rfl, -⟩
      · exact Or.inl (.refl g')
      · exact Or.inl (sameCounters_changeRank g m.guid newRank)
  | setLeader player name =>
    rcases mem_settle_map h with rfl | hreply
    · exact Or.inl (.refl g')
    · obtain ⟨-, rfl | ⟨old, -, new, -, -, rfl⟩⟩ := Guild.handleSetLeader_cases hreply
      · exact Or.inl (.refl g')
      · exact Or.inl ((sameCounters_setLeaderGUID g new.guid).trans (sameCounters_changeRank _ _ _))
  | addNewRank player name =>
    obtain rfl : g.handleAddNewRank player name = g' := Option.some.inj h
    refine Or.inl (.of_mem fun m hm => ?_)
    unfold Guild.handleAddNewRank Guild.createRank at hm
    split at hm
    · split at hm <;> exact hm
    · exact hm
  | removeRank player rankId =>
    obtain rfl : g.handleRemoveRank player rankId = g' := Option.some.inj h
    refine Or.inl (.of_mem fun m hm => ?_)
    unfold Guild.handleRemoveRank at hm
    split at hm <;> exact hm
  | removeLowestRank player =>
    obtain rfl : g.handleRemoveRank player g.lowestRankId = g' := Option.some.inj h
    refine Or.inl (.of_mem fun m hm => ?_)
    unfold Guild.handleRemoveRank at hm
    split at hm <;> exact hm
  | setRankInfo player rankId name rights moneyPerDay rightsAndSlots =>
    rcases mem_settle_map h with rfl | hreply
    · exact Or.inl (.refl g')
    · exact Or.inl (sameCounters_setRankInfo hreply)
  | setMemberNote player name note isPublic =>
    rcases mem_settle_map h with rfl | hreply
    · exact Or.inl (.refl g')
    · rcases Guild.handleSetMemberNote_cases hreply with rfl | ⟨guid, f, hf, rfl⟩
      · exact Or.inl (.refl g')
      · exact Or.inl (sameCounters_modifyMember g guid (fun m => (hf m).1) fun m => (hf m).2.2)
  | setBankTabInfo player tabId name icon =>
    exact Or.inl (Option.some.inj h ▸ .of_mem fun _ hm => hm)
  | setBankTabText player tabId text =>
    exact Or.inl (Option.some.inj h ▸ .of_mem fun _ hm => hm)
  | setStats guid name =>
    exact Or.inl (Option.some.inj h ▸
      sameCounters_modifyMember g guid (fun _ => rfl) fun _ => rfl)
  | rehash members =>
    obtain rfl : (if members.Perm g.members then { g with members } else g) = g' :=
      Option.some.inj h
    split
    · exact Or.inl (.of_mem fun _ hm => ‹members.Perm g.members›.mem_iff.mp hm)
    · exact Or.inl (.refl g)

theorem Tallies.congr {m m' : Member} {money' : ℕ → ℕ} (h : Tallies money m)
    (hcounts : m'.bankWithdraw = m.bankWithdraw) (hmoney : money' m'.guid = money m.guid) :
    Tallies money' m' :=
  ⟨hcounts ▸ h.length, by rw [hcounts, hmoney, h.money], hcounts ▸ h.items⟩

theorem tallies_zero {m : Member} (hcounts : m.bankWithdraw = List.replicate (bankMaxTabs + 1) 0)
    (hmoney : money m.guid = 0) : Tallies money m := by
  have hzero : ∀ tabId, m.bankWithdraw.getD tabId 0 = 0 := by
    intro tabId
    rw [hcounts, List.getD_eq_getElem?_getD, List.getElem?_replicate]
    split <;> rfl
  refine ⟨by rw [hcounts, List.length_replicate], ?_, fun tabId _ => ?_⟩
  · rw [hzero, hmoney]
    rfl
  · rw [hzero]
    decide

theorem Tally.of_sameCounters {money' : ℕ → ℕ} (h : Tally money g) (hsame : SameCounters g g')
    (hmoney : ∀ m ∈ g.members, money' m.guid = money m.guid) : Tally money' g' where
  tallies m' hm' := by
    obtain ⟨m, hm, hguid, hcounts⟩ := hsame m' hm'
    exact (h.tallies m hm).congr hcounts.symm (hguid ▸ hmoney m hm)
  unique m₁' hm₁' m₂' hm₂' heq := by
    obtain ⟨m₁, hm₁, hguid₁, hcounts₁⟩ := hsame m₁' hm₁'
    obtain ⟨m₂, hm₂, hguid₂, hcounts₂⟩ := hsame m₂' hm₂'
    rw [← hcounts₁, ← hcounts₂]
    exact h.unique m₁ hm₁ m₂ hm₂ (hguid₁.trans (heq.trans hguid₂.symm))

theorem tally_resetTimes (g : Guild) : Tally (fun _ => 0) g.resetTimes := by
  have hzero : ∀ m ∈ g.resetTimes.members,
      m.bankWithdraw = List.replicate (bankMaxTabs + 1) 0 := by
    intro m' hm'
    obtain ⟨m, -, rfl⟩ := List.mem_map.mp hm'
    rfl
  exact ⟨fun m hm => tallies_zero (hzero m hm) rfl,
    fun m hm m' hm' _ => (hzero m hm).trans (hzero m' hm').symm⟩

theorem Tallied.roster {s : Ledger} (ht : Tallied s) (c : Command) : Tallied (s.roster c) := by
  intro g' hg'
  cases hg : s.guild with
  | none =>
    rw [Ledger.roster, hg] at hg'
    nomatch hg'
  | some g =>
    have hstep : g' ∈ step (some g) c := hg ▸ hg'
    have hpresent : ∀ guid, (s.roster c).money guid =
        if (g.getMember guid).isSome then s.money guid else 0 := by
      intro guid
      rw [Ledger.roster, hg]
      rfl
    have hkept : ∀ m ∈ g.members, (s.roster c).money m.guid = s.money m.guid := by
      intro m hm
      have hfound : (g.getMember m.guid).isSome := by
        rw [Option.isSome_iff_ne_none]
        exact fun hnone => Guild.getMember_eq_none.mp hnone m hm rfl
      rw [hpresent, if_pos hfound]
    rcases counters_step hstep with hsame | ⟨guid, name, rankId, hnew, rfl⟩
    · exact (ht g hg).of_sameCounters hsame hkept
    · have hothers := Guild.getMember_eq_none.mp hnew
      refine ⟨fun m' hm' => ?_, fun m₁ hm₁ m₂ hm₂ heq => ?_⟩
      · rcases List.mem_append.mp hm' with hm' | hm'
        · exact ((ht g hg).tallies m' hm').congr rfl (hkept m' hm')
        · rw [List.mem_singleton.mp hm']
          refine tallies_zero rfl ((hpresent guid).trans ?_)
          rw [hnew]
          rfl
      · rcases List.mem_append.mp hm₁ with hm₁ | hm₁ <;>
          rcases List.mem_append.mp hm₂ with hm₂ | hm₂
        · exact (ht g hg).unique m₁ hm₁ m₂ hm₂ heq
        · rw [List.mem_singleton.mp hm₂] at heq
          exact absurd heq (hothers m₁ hm₁)
        · rw [List.mem_singleton.mp hm₁] at heq
          exact absurd heq.symm (hothers m₂ hm₂)
        · rw [List.mem_singleton.mp hm₁, List.mem_singleton.mp hm₂]

/-- What a counter shows after more has been taken. -/
theorem getD_updateBankWithdrawValue (m : Member) (tabId amount i : ℕ) :
    (m.updateBankWithdrawValue tabId amount).bankWithdraw.getD i 0 =
      if tabId = i ∧ i < m.bankWithdraw.length then int32 (m.bankWithdraw.getD i 0 + amount)
      else m.bankWithdraw.getD i 0 := by
  unfold Member.updateBankWithdrawValue
  rw [List.getD_eq_getElem?_getD, List.getElem?_modify, List.getD_eq_getElem?_getD]
  by_cases hi : i < m.bankWithdraw.length
  · rw [List.getElem?_eq_getElem hi]
    split <;> simp_all
  · rw [List.getElem?_eq_none (Nat.le_of_not_lt hi)]
    simp [hi]

theorem length_updateBankWithdrawValue (m : Member) (tabId amount : ℕ) :
    (m.updateBankWithdrawValue tabId amount).bankWithdraw.length = m.bankWithdraw.length :=
  List.length_modify _ _ _

/-- What is counted for one member is counted for all with his `guid`. -/
theorem unique_modifyMember (h : Tally money g) (guid tabId amount : ℕ) :
    ∀ m ∈ (g.modifyMember guid fun m => m.updateBankWithdrawValue tabId amount).members,
    ∀ m' ∈ (g.modifyMember guid fun m => m.updateBankWithdrawValue tabId amount).members,
      m.guid = m'.guid → m.bankWithdraw = m'.bankWithdraw := by
  intro m₁' hm₁' m₂' hm₂' heq
  obtain ⟨m₁, hm₁, rfl⟩ := List.mem_map.mp hm₁'
  obtain ⟨m₂, hm₂, rfl⟩ := List.mem_map.mp hm₂'
  have hguid : ∀ m : Member,
      (if m.guid = guid then m.updateBankWithdrawValue tabId amount else m).guid = m.guid := by
    intro m
    split <;> rfl
  rw [hguid, hguid] at heq
  have hcounts := h.unique m₁ hm₁ m₂ hm₂ heq
  rw [heq]
  split
  · exact congrArg (fun counts => counts.modify tabId fun n => int32 (n + amount)) hcounts
  · exact hcounts

theorem Tally.withdraw (h : Tally money g) (player amount bankMoney : ℕ) :
    Tally (fun guid => if guid = player then money guid + amount else money guid)
      { g.modifyMember player fun m => m.updateBankWithdrawValue bankMaxTabs amount with
        bankMoney } := by
  refine ⟨fun m' hm' => ?_, unique_modifyMember h player bankMaxTabs amount⟩
  obtain ⟨m, hm, rfl⟩ := List.mem_map.mp hm'
  have hold := h.tallies m hm
  by_cases hplayer : m.guid = player
  · rw [if_pos hplayer]
    refine ⟨?_, ?_, fun tabId htab => ?_⟩
    · rw [length_updateBankWithdrawValue, hold.length]
    · have hlt : bankMaxTabs < m.bankWithdraw.length := by rw [hold.length]; decide
      rw [getD_updateBankWithdrawValue, if_pos ⟨rfl, hlt⟩, hold.money, int32_add_int32]
      have hguid : (m.updateBankWithdrawValue bankMaxTabs amount).guid = m.guid := rfl
      rw [hguid, if_pos hplayer, Nat.cast_add]
    · rw [getD_updateBankWithdrawValue, if_neg fun heq => absurd heq.1 (Nat.ne_of_gt htab)]
      exact hold.items tabId htab
  · rw [if_neg hplayer]
    exact hold.congr rfl (if_neg hplayer)

theorem int32_lt (n : ℤ) : int32 n < 2 ^ 31 := by
  rw [int32_eq]
  omega

theorem int32_of_lt {n : ℤ} (h : 0 ≤ n) (hlt : n < 2 ^ 31) : int32 n = n := by
  rw [int32_eq]
  omega

theorem getRankBankTabSlotsPerDay_lt (g : Guild) (rankId tabId : ℕ) :
    g.getRankBankTabSlotsPerDay rankId tabId < 2 ^ 31 := by
  unfold Guild.getRankBankTabSlotsPerDay
  split
  · cases g.getRankInfo rankId with
    | none => exact (by decide : (0 : ℤ) < 2 ^ 31)
    | some r =>
      rw [Option.elim_some]
      exact int32_lt _
  · decide

/-- A counter of items stays below the limit it is compared with. -/
theorem Tally.updateMemberWithdrawSlots (h : Tally money g) {guid tabId : ℕ}
    (htab : ∀ m ∈ g.getMember guid, m.rankId ≠ grGuildmaster → tabId < bankMaxTabs) :
    Tally money (g.updateMemberWithdrawSlots guid tabId) := by
  unfold Guild.updateMemberWithdrawSlots
  split
  · exact h
  rename_i me hme
  split
  swap
  · exact h
  rename_i hbelow
  have hlow : me.rankId ≠ grGuildmaster := by simpa [Member.isRank] using hbelow.1
  have hlt := htab me hme hlow
  obtain ⟨hmem, rfl⟩ := Guild.mem_of_getMember hme
  have hlimit := getRankBankTabSlotsPerDay_lt g me.rankId tabId
  rw [getBankWithdrawValue_of_ne hlow] at hbelow
  refine ⟨fun m' hm' => ?_, unique_modifyMember h me.guid tabId 1⟩
  obtain ⟨m, hm, rfl⟩ := List.mem_map.mp hm'
  have hold := h.tallies m hm
  by_cases hguid : m.guid = me.guid
  · rw [if_pos hguid]
    refine ⟨?_, ?_, fun i hi => ?_⟩
    · rw [length_updateBankWithdrawValue, hold.length]
    · rw [getD_updateBankWithdrawValue, if_neg fun heq => absurd heq.1 (Nat.ne_of_lt hlt)]
      exact hold.money
    · rw [getD_updateBankWithdrawValue]
      split
      · rename_i heq
        have hcount := hold.items i hi
        rw [← heq.1] at hcount ⊢
        rw [← h.unique m hm me hmem hguid] at hbelow
        rw [int32_of_lt] <;> omega
      · exact hold.items i hi
  · rw [if_neg hguid]
    exact hold

theorem getMember_modifyMember (g : Guild) (guid guid' : ℕ) {f : Member → Member}
    (hf : ∀ m, (f m).guid = m.guid) : (g.modifyMember guid f).getMember guid' =
      (g.getMember guid').map fun m => if m.guid = guid then f m else m := by
  unfold Guild.modifyMember Guild.getMember
  rw [List.find?_map]
  congr 2
  funext m
  rw [Function.comp_apply]
  split
  · rw [hf]
  · rfl

/-- Ranks are as they were. -/
theorem rankId_updateMemberWithdrawSlots {guid tabId : ℕ} {m' : Member}
    (h : (g.updateMemberWithdrawSlots guid tabId).getMember guid = some m') :
    ∃ m, g.getMember guid = some m ∧ m'.rankId = m.rankId := by
  unfold Guild.updateMemberWithdrawSlots at h
  split at h
  · exact ⟨m', h, rfl⟩
  split at h
  · have hfound := getMember_modifyMember g guid guid
      (f := fun m => m.updateBankWithdrawValue tabId 1) fun _ => rfl
    rw [hfound] at h
    obtain ⟨m, hm, rfl⟩ := Option.map_eq_some_iff.mp h
    refine ⟨m, hm, ?_⟩
    split <;> rfl
  · exact ⟨m', h, rfl⟩

theorem Tally.removeItems {player : ℕ} {removals : List (Guild.Place × Guild.Place)}
    (h : Tally money g) (htab : ∀ x ∈ removals, ∀ tabId ∈ takenFrom x,
      ∀ m ∈ g.getMember player, m.rankId ≠ grGuildmaster → tabId < bankMaxTabs) :
    Tally money (removals.foldl (fun g x => g.removeItem player x.1 x.2) g) := by
  induction removals generalizing g with
  | nil => exact h
  | cons x removals ih =>
    rw [List.foldl_cons]
    have hfirst := htab x List.mem_cons_self
    have hrest := fun y hy => htab y (List.mem_cons_of_mem x hy)
    obtain ⟨place, other⟩ := x
    cases place with
    | inventory => exact ih h hrest
    | tab tabId =>
      by_cases hother : other = .tab tabId
      · have hsame : g.removeItem player (.tab tabId) other = g := if_pos hother
        rw [hsame]
        exact ih h hrest
      · have htaken : g.removeItem player (.tab tabId) other =
            g.updateMemberWithdrawSlots player tabId := if_neg hother
        rw [htaken]
        have hfirst := hfirst tabId (if_neg hother)
        refine ih (h.updateMemberWithdrawSlots hfirst) fun y hy i hi m' hm' hlow => ?_
        obtain ⟨m, hm, hrank⟩ := rankId_updateMemberWithdrawSlots hm'
        exact hrest y hy i hi m hm (hrank ▸ hlow)

theorem Tally.moveItems (h : Tally money g) (player : ℕ) (src dest : Guild.Place)
    (o : Guild.Moving) : Tally money (g.moveItems player src dest o) := by
  refine h.removeItems fun x hx tabId htaken m hm hlow => ?_
  have hleft := remainingSlots_of_taken (List.mem_filterMap.mpr ⟨x, hx, htaken⟩) hm
  exact lt_bankMaxTabs_of_remainingSlots hlow hleft

theorem tallied_step {s : Ledger} (ht : Tallied s) (c : BankCommand) : Tallied (s.step c) := by
  have hwithdraw : ∀ player amount repair purse, Tallied (s.withdraw player amount repair purse) := by
    intro player amount repair purse
    unfold Ledger.withdraw
    split
    · exact ht
    rename_i g' hg'
    obtain ⟨g, hg, hpaid⟩ := Option.bind_eq_some_iff.mp hg'
    rintro _ ⟨⟩
    rw [withdraw_eq hpaid]
    exact (ht g hg).withdraw player (min amount maxMoneyAmount) _
  cases c with
  | roster c => exact ht.roster c
  | depositMoney amount =>
    rintro g' hg'
    obtain ⟨g, hg, rfl⟩ := Option.map_eq_some_iff.mp hg'
    exact (ht g hg).of_sameCounters (.of_mem fun _ hm => hm) fun _ _ => rfl
  | withdrawMoney player amount purse =>
    unfold Ledger.step
    dsimp only
    split
    · exact ht
    · exact hwithdraw _ _ _ _
  | repair player costs => exact hwithdraw _ _ _ _
  | moveItems player src dest o =>
    change Tallied (s.moveItems player src dest o)
    unfold Ledger.moveItems
    split
    · exact ht
    · rename_i g hg
      rintro _ ⟨⟩
      exact (ht g hg).moveItems player src dest o
  | resetTimes =>
    rintro g' hg'
    obtain ⟨g, hg, rfl⟩ := Option.map_eq_some_iff.mp hg'
    exact tally_resetTimes g

end

/-! ## 9. Runs -/

/-- **Members stay within the limits** of the day in exactly the runs in which the counters show
enough whenever something is granted, and money is granted to those with the right meant. -/
theorem withinLimits_iff_countsShow (g : Guild) (cs : List BankCommand) :
    Along Ledger.step WithinLimits (Ledger.opened g) cs ↔
      Along Ledger.step CountsShow (Ledger.opened g) cs := by
  refine along_congr (I := Tallied) (B := fun _ => True) (fun s c _ hs _ => tallied_step hs c)
    (fun s c _ hs => withinLimits_iff hs c) (fun _ _ => trivial) ?_
  rintro _ ⟨⟩
  exact tally_resetTimes g

/-- A leader, and an officer who may have his things repaired for `100` a day. -/
def menders : Guild where
  leaderGuid := 1
  ranks := (List.range 5).map fun i =>
    .new i "" (if i = 0 then grRightAll else grRightGchatspeak ||| grRightWithdrawRepair) 100
  members := [.new 1 "Ada" 0, .new 2 "Bob" 1]
  bankMoney := 1000
  bankTabs := []

/-- **The right to repair is a right to take gold.** -/
theorem repair_right_takes_gold :
    ¬ Along Ledger.step WithinLimits (Ledger.opened menders) [.withdrawMoney 2 50 0] := by
  rintro ⟨h, -⟩
  obtain ⟨r, hr, -, hright⟩ := h menders.resetTimes rfl (by decide) (by decide)
    (.new 2 "Bob" 1) (by decide) (by decide)
  obtain rfl : RankInfo.new 1 "" (grRightGchatspeak ||| grRightWithdrawRepair) 100 = r :=
    Option.some.inj (Eq.trans (by decide) hr)
  exact absurd rfl hright

end HungerGames.Guilds
