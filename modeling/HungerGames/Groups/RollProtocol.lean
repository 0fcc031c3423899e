/-
# The protocol of loot rolls

In a roll the numbers of the votes are those of the map of votes, everyone who votes is still in the
group, and someone has not voted yet.  A vote changes this for the better, and the roll ends with the
last one; or the timer ends it.

This is so as long as each player votes once, and for what the roll allows.  `CountRollVote` looks
at neither: it counts every vote.  Nor does it see a roll end in which everyone passes from the
start, or in which only one who leaves the group had not voted: he is no longer among the voters
when it is called for him.
-/
import HungerGames.Groups.Rolls
import HungerGames.System.Run

namespace HungerGames.Groups

open HungerGames.System

variable {r r' : Roll} {g g' : Group} {player other : ObjectGuid} {vote : RollVote}

/-! ## 1. What is to hold of a roll -/

/-- Whether the mask of a roll allows a vote. -/
def allows (mask : ℕ) : RollVote → Bool
  | .pass => mask &&& 0x01 ≠ 0
  | .need => mask &&& 0x02 ≠ 0
  | .greed => mask &&& 0x04 ≠ 0
  | .disenchant => mask &&& 0x08 ≠ 0
  | .notEmitedYet | .notValid => true

namespace Roll

/-- How often a vote is in the map. -/
def count (r : Roll) (vote : RollVote) : ℕ := r.playerVote.values.count vote

/-- The numbers of a roll are those of its votes. -/
structure Counted (r : Roll) : Prop where
  need : r.totalNeed = r.count .need
  greed : r.totalGreed = r.count .greed + r.count .disenchant
  pass : r.totalPass = r.count .pass
  rolling : r.totalPlayersRolling = r.playerVote.size
  valid : r.count .notValid = 0
  bound : r.playerVote.size ≤ 40

/-- A roll that goes on: someone has not voted, and nobody voted what is not allowed. -/
structure Open (r : Roll) : Prop where
  counted : r.Counted
  waiting : .notEmitedYet ∈ r.playerVote.values
  allowed : ∀ vote ∈ r.playerVote.values, allows r.rollVoteMask vote = true

end Roll

/-- The rolls of a group go on, each with voters who are members. -/
structure RollsSound (g : Group) : Prop where
  isOpen : ∀ r ∈ g.rolls, r.Open
  voters : ∀ r ∈ g.rolls, ∀ player ∈ r.playerVote.keys, player ∈ g.members
  distinct : (g.rolls.map Roll.itemGUID).Nodup
  fresh : ∀ r ∈ g.rolls, r.itemGUID < g.nextGuid

def RollEvent.startedGuid : RollEvent → Option ObjectGuid
  | .started itemGUID => some itemGUID
  | .resolved _ _ => none

def RollEvent.resolvedGuid : RollEvent → Option ObjectGuid
  | .started _ => none
  | .resolved itemGUID _ => some itemGUID

/-- What a step does to the rolls. -/
structure StepSound (g : Group) (i : RollInput) : Prop where
  /-- A new roll has everyone who is eligible for its item. -/
  started : ∀ r' ∈ (g.step i).rolls, .started r'.itemGUID ∈ g.events i →
    ∃ party loot, (i = .groupLoot party loot ∨ i = .needBeforeGreed party loot) ∧
      ∃ item ∈ loot.items ++ loot.questItems, ∀ player, player ∈ r'.playerVote.keys ↔
        player ∈ g.members ∧ Group.rollsFor party item player = true
  /-- A roll that goes on has the voters who are still members. -/
  voters : ∀ r ∈ g.rolls, ∀ r' ∈ (g.step i).rolls, r'.itemGUID = r.itemGUID →
    ∀ player, player ∈ r'.playerVote.keys ↔ player ∈ r.playerVote.keys ∧ player ∈ (g.step i).members
  /-- The first vote of a player is final. -/
  final : ∀ r ∈ g.rolls, ∀ r' ∈ (g.step i).rolls, r'.itemGUID = r.itemGUID →
    ∀ player vote, r.playerVote.lookup player = some vote → vote ≠ .notEmitedYet →
      r'.playerVote.lookup player = some vote ∨ player ∉ (g.step i).members
  /-- A roll is resolved by the last vote, or by the timer. -/
  resolved : ∀ itemGUID ∈ (g.events i).filterMap RollEvent.resolvedGuid,
    ∃ r ∈ g.rolls, r.itemGUID = itemGUID ∧
      ((∃ dice player choice, i = .lootRoll dice player itemGUID choice ∧
          r.playerVote.lookup player = some .notEmitedYet ∧ (voteOf choice).isSome = true ∧
          ∀ other, other ≠ player → r.playerVote.lookup other ≠ some .notEmitedYet) ∨
        ∃ dice, i = .endRoll dice r.loot)
  /-- The timer resolves all rolls of the loot. -/
  timer : ∀ dice loot, i = .endRoll dice loot → ∀ r ∈ (g.step i).rolls, r.loot ≠ loot

/-! ## 2. Where the code keeps to it -/

/-- For some item members are asked, but all of them pass. -/
def Group.AllPass (g : Group) (party : Party) (item : LootItem) : Prop :=
  (∃ template, item.template = some template ∧ item.freeforall = false ∧
      g.lootThreshold ≤ template.quality) ∧
    (∃ member ∈ g.members, Group.rollsFor party item member = true) ∧
      ∀ member ∈ g.members, Group.rollsFor party item member = true → party.passOnGroupLoot member = true

/-- The votes are first votes that are allowed; where a player leaves, someone else has not voted
in his rolls, and the group goes on; and where members pass on loot, not all do. -/
def Proper (g : Group) : RollInput → Prop
  | .groupLoot party loot | .needBeforeGreed party loot => ∀ item ∈ loot.items, ¬ g.AllPass party item
  | .lootRoll _ player itemGUID choice =>
    ∀ r vote vote', player ∈ g.members → g.getRoll itemGUID = some r →
      r.playerVote.lookup player = some vote → voteOf choice = some vote' →
        vote = .notEmitedYet ∧ allows r.rollVoteMask vote' = true ∧ r.itemsEmpty = false
  | .removeMember _ player tooSmall =>
    g.rolls ≠ [] → g.minimum < g.members.length ∧ tooSmall = false ∧
      ∀ r ∈ g.rolls, player ∈ r.playerVote.keys →
        ∃ other, other ≠ player ∧ r.playerVote.lookup other = some .notEmitedYet
  | .endRoll _ _ | .addMember _ => True

/-! ## 3. Votes -/

theorem inc_of_lt {n : ℕ} (h : n < 255) : inc n = n + 1 := Nat.mod_eq_of_lt (Nat.succ_lt_succ h)

theorem dec_of_pos {n : ℕ} (hpos : 0 < n) (h : n < 256) : dec n = n - 1 := by
  unfold dec
  omega

/-- A number that counts a vote, without it. -/
theorem dec_if {c : Prop} [Decidable c] {n k : ℕ} (hk : k = if c then 1 else 0) (hle : k ≤ n)
    (hn : n < 256) : (if c then dec n else n) + k = n := by
  by_cases hc : c
  · rw [if_pos hc] at hk ⊢
    rw [dec_of_pos (by omega) hn]
    omega
  · rw [if_neg hc] at hk ⊢
    omega

/-- Every vote is one of six. -/
theorem length_votes (votes : List RollVote) :
    votes.length = votes.count .pass + votes.count .need + votes.count .greed +
      votes.count .disenchant + votes.count .notEmitedYet + votes.count .notValid := by
  induction votes with
  | nil => rfl
  | cons vote votes ih =>
    rw [List.length_cons, ih]
    cases vote <;> simp <;> omega

namespace Roll

theorem length_values (r : Roll) : r.playerVote.values.length = r.playerVote.size :=
  List.length_map ..

theorem Counted.total (h : r.Counted) :
    r.totalPass + r.totalNeed + r.totalGreed + r.count .notEmitedYet = r.totalPlayersRolling := by
  have hlength := length_votes r.playerVote.values
  rw [length_values] at hlength
  rw [h.pass, h.need, h.greed, h.rolling, hlength]
  have hvalid := h.valid
  unfold count at hvalid ⊢
  omega

variable {others : List RollVote}

/-- Votes of another map that only differ in one. -/
theorem count_perm {votes : SortedMap ObjectGuid RollVote} {front : List RollVote}
    (h : votes.values.Perm (front ++ others)) (vote : RollVote) :
    votes.values.count vote = front.count vote + others.count vote := by
  rw [h.count_eq, List.count_append]

theorem size_perm {votes : SortedMap ObjectGuid RollVote} (h : votes.values.Perm others) :
    votes.size = others.length := by
  rw [← h.length_eq]
  exact (List.length_map ..).symm

/-- The numbers when a vote comes in the place of another, or of none. -/
theorem counted_replace (old new : List RollVote) {votes : SortedMap ObjectGuid RollVote}
    (h : r.Counted) (hold : r.playerVote.values.Perm (old ++ others))
    (hnew : votes.values.Perm (new ++ others)) (hvotes : r'.playerVote = votes)
    (hneed : r'.totalNeed + old.count .need = r.totalNeed + new.count .need)
    (hgreed : r'.totalGreed + (old.count .greed + old.count .disenchant) =
      r.totalGreed + (new.count .greed + new.count .disenchant))
    (hpass : r'.totalPass + old.count .pass = r.totalPass + new.count .pass)
    (hrolling : r'.totalPlayersRolling + old.length = r.totalPlayersRolling + new.length)
    (hvalid : new.count .notValid = 0) (hbound : r.playerVote.size + new.length ≤ 40 + old.length) :
    r'.Counted := by
  subst hvotes
  have hcount : ∀ vote, r.count vote = old.count vote + others.count vote := count_perm hold
  have hcount' : ∀ vote, r'.count vote = new.count vote + others.count vote := count_perm hnew
  have hsize := size_perm hold
  have hsize' := size_perm hnew
  rw [List.length_append] at hsize hsize'
  obtain ⟨hneed₀, hgreed₀, hpass₀, hrolling₀, hvalid₀, -⟩ := h
  have h₁ := hcount .need
  have h₂ := hcount .greed
  have h₃ := hcount .disenchant
  have h₄ := hcount .pass
  have h₅ := hcount .notValid
  have h₁' := hcount' .need
  have h₂' := hcount' .greed
  have h₃' := hcount' .disenchant
  have h₄' := hcount' .pass
  have h₅' := hcount' .notValid
  constructor <;> omega

theorem mem_keys_iff {votes : SortedMap ObjectGuid RollVote} :
    player ∈ votes.keys ↔ ∃ vote, votes.lookup player = some vote := by
  rw [SortedMap.mem_keys]
  exact exists_congr fun vote => SortedMap.lookup_eq_some.symm

theorem not_mem_keys_iff {votes : SortedMap ObjectGuid RollVote} :
    player ∉ votes.keys ↔ votes.lookup player = none := by
  rw [mem_keys_iff, Option.eq_none_iff_forall_ne_some, not_exists]

theorem mem_values_iff {votes : SortedMap ObjectGuid RollVote} :
    vote ∈ votes.values ↔ ∃ player, votes.lookup player = some vote := by
  constructor
  · intro h
    obtain ⟨⟨player, _⟩, hmem, rfl⟩ := List.mem_map.mp h
    exact ⟨player, SortedMap.lookup_eq_some.mpr hmem⟩
  · rintro ⟨player, h⟩
    exact List.mem_map_of_mem (SortedMap.lookup_eq_some.mp h)

/-- What a change of the votes keeps. -/
structure Same (r r' : Roll) : Prop where
  itemGUID : r'.itemGUID = r.itemGUID
  loot : r'.loot = r.loot
  itemsEmpty : r'.itemsEmpty = r.itemsEmpty
  rollVoteMask : r'.rollVoteMask = r.rollVoteMask

/-! ### Who may vote -/

theorem Counted.enter (h : r.Counted) (hnew : r.playerVote.lookup player = none)
    (hsize : r.playerVote.size < 40) (passes : Bool) : (r.enter player passes).Counted := by
  obtain ⟨others, hold, hinsert, -⟩ := r.playerVote.values_split player
  rw [hnew] at hold
  have hcount : r.count .pass ≤ r.playerVote.size := by
    rw [← r.length_values]
    exact List.count_le_length
  have hinc : inc r.totalPlayersRolling = r.totalPlayersRolling + 1 :=
    inc_of_lt (by rw [h.rolling]; omega)
  have hincPass : inc r.totalPass = r.totalPass + 1 := inc_of_lt (by rw [h.pass]; omega)
  cases passes with
  | true =>
    exact counted_replace [] [.pass] h hold (hinsert .pass) rfl rfl rfl hincPass hinc rfl hsize
  | false =>
    exact counted_replace [] [.notEmitedYet] h hold (hinsert .notEmitedYet) rfl rfl rfl rfl hinc rfl
      hsize

/-- What a roll is when some members more may vote. -/
structure Entered (passes : ObjectGuid → Bool) (members : List ObjectGuid) (r r' : Roll) : Prop where
  counted : r'.Counted
  same : Same r r'
  size : r'.playerVote.size = r.playerVote.size + members.length
  lookup : ∀ player, r'.playerVote.lookup player = if player ∈ members then
    some (if passes player then .pass else .notEmitedYet) else r.playerVote.lookup player

theorem enter_all (passes : ObjectGuid → Bool) {members : List ObjectGuid} (hnodup : members.Nodup)
    (h : r.Counted) (hnew : ∀ member ∈ members, r.playerVote.lookup member = none)
    (hsize : r.playerVote.size + members.length ≤ 40) :
    Entered passes members r (members.foldl (fun r member => r.enter member (passes member)) r) := by
  induction members generalizing r with
  | nil => exact ⟨h, ⟨rfl, rfl, rfl, rfl⟩, rfl, fun player => (if_neg List.not_mem_nil).symm⟩
  | cons member members ih =>
    obtain ⟨hnot, hnodup⟩ := List.nodup_cons.mp hnodup
    obtain ⟨hmember, hmembers⟩ := List.forall_mem_cons.mp hnew
    rw [List.length_cons] at hsize
    have hone : (r.enter member (passes member)).playerVote.size = r.playerVote.size + 1 := by
      rw [enter, SortedMap.size_insert, if_neg (not_mem_keys_iff.mpr hmember)]
    have hlookup : ∀ player, (r.enter member (passes member)).playerVote.lookup player =
        if player = member then some (if passes member then .pass else .notEmitedYet)
        else r.playerVote.lookup player := fun player => SortedMap.lookup_insert ..
    have hrest := ih hnodup (h.enter hmember (by omega) (passes member)) (fun other hother => by
      rw [hlookup, if_neg (ne_of_mem_of_not_mem hother hnot)]
      exact hmembers other hother) (by omega)
    refine ⟨hrest.counted, ?_, by rw [List.foldl_cons, hrest.size, hone, List.length_cons]; omega,
      fun player => ?_⟩
    · exact ⟨hrest.same.itemGUID, hrest.same.loot, hrest.same.itemsEmpty, hrest.same.rollVoteMask⟩
    · rw [List.foldl_cons, hrest.lookup, hlookup]
      by_cases hplayer : player = member
      · subst hplayer
        rw [if_neg hnot, if_pos rfl, if_pos List.mem_cons_self]
      · rw [if_neg hplayer]
        by_cases hmem : player ∈ members
        · rw [if_pos hmem, if_pos (List.mem_cons_of_mem _ hmem)]
        · rw [if_neg hmem, if_neg (List.not_mem_cons_of_ne_of_not_mem hplayer hmem)]

/-! ### A vote -/

theorem same_vote (player : ObjectGuid) (choice : ℕ) (r : Roll) : Same r (r.vote player choice) := by
  unfold vote
  split <;> exact ⟨rfl, rfl, rfl, rfl⟩

/-- What a vote that counts does. -/
structure Votes (player : ObjectGuid) (choice : ℕ) (vote : RollVote) (r : Roll) : Prop where
  counted : (r.vote player choice).Counted
  playerVote : (r.vote player choice).playerVote = r.playerVote.insert player vote

theorem Counted.votes (h : r.Counted) (hwaits : r.playerVote.lookup player = some .notEmitedYet)
    {choice : ℕ} (hvote : voteOf choice = some vote) : Votes player choice vote r := by
  obtain ⟨others, hold, hinsert, -⟩ := r.playerVote.values_split player
  rw [hwaits] at hold
  have htotal := h.total
  have hpos : 0 < r.count .notEmitedYet :=
    List.count_pos_iff.mpr (mem_values_iff.mpr ⟨player, hwaits⟩)
  have hbound : r.totalPlayersRolling ≤ 40 := h.rolling ▸ h.bound
  have hpass : inc r.totalPass = r.totalPass + 1 := inc_of_lt (by omega)
  have hneed : inc r.totalNeed = r.totalNeed + 1 := inc_of_lt (by omega)
  have hgreed : inc r.totalGreed = r.totalGreed + 1 := inc_of_lt (by omega)
  have hsize : r.playerVote.size + [vote].length ≤ 40 + [RollVote.notEmitedYet].length :=
    Nat.succ_le_succ h.bound
  match choice, hvote with
  | 0, rfl =>
    exact ⟨counted_replace [.notEmitedYet] [.pass] h hold (hinsert .pass) rfl rfl rfl hpass rfl rfl hsize, rfl⟩
  | 1, rfl =>
    exact ⟨counted_replace [.notEmitedYet] [.need] h hold (hinsert .need) rfl hneed rfl rfl rfl rfl hsize, rfl⟩
  | 2, rfl =>
    exact ⟨counted_replace [.notEmitedYet] [.greed] h hold (hinsert .greed) rfl rfl hgreed rfl rfl rfl hsize, rfl⟩
  | 3, rfl =>
    exact ⟨counted_replace [.notEmitedYet] [.disenchant] h hold (hinsert .disenchant) rfl rfl hgreed rfl rfl rfl hsize, rfl⟩

theorem vote_of_none {choice : ℕ} (h : voteOf choice = none) : r.vote player choice = r := by
  rw [vote, h]

/-- **The roll ends with the last vote**: the numbers reach that of the voters when none waits. -/
theorem Counted.complete (h : r.Counted) :
    r.totalPlayersRolling ≤ r.totalPass + r.totalNeed + r.totalGreed ↔
      .notEmitedYet ∉ r.playerVote.values := by
  rw [← List.count_eq_zero]
  have htotal := h.total
  unfold count at htotal
  omega

/-! ### A player leaves -/

/-- What is left of a roll of a player who leaves. -/
def without (player : ObjectGuid) (r : Roll) : Roll :=
  match r.playerVote.lookup player with
  | none => r
  | some vote => r.leave player vote

theorem same_without (player : ObjectGuid) (r : Roll) : Same r (r.without player) := by
  unfold without
  split <;> exact ⟨rfl, rfl, rfl, rfl⟩

theorem lookup_without (player other : ObjectGuid) (r : Roll) :
    (r.without player).playerVote.lookup other =
      if other = player then none else r.playerVote.lookup other := by
  unfold without
  split
  case h_1 hnone =>
    by_cases hother : other = player
    · rw [if_pos hother, hother, hnone]
    · rw [if_neg hother]
  case h_2 vote _ => exact SortedMap.lookup_erase ..

theorem Counted.without (h : r.Counted) (player : ObjectGuid) : (r.without player).Counted := by
  unfold Roll.without
  split
  case h_1 => exact h
  case h_2 vote hvote =>
    obtain ⟨others, hold, -, herase⟩ := r.playerVote.values_split player
    rw [hvote] at hold
    have hcount : ∀ other, [vote].count other ≤ r.count other := fun other =>
      (Nat.le_add_right ..).trans_eq (count_perm hold other).symm
    have htotal := h.total
    have hbound : r.totalPlayersRolling ≤ 40 := h.rolling ▸ h.bound
    have hgreed : [vote].count .greed + [vote].count .disenchant ≤ r.totalGreed :=
      h.greed ▸ Nat.add_le_add (hcount .greed) (hcount .disenchant)
    have hpos : 0 < r.totalPlayersRolling := by
      rw [h.rolling, size_perm hold]
      exact Nat.succ_pos _
    have hvalid : vote ≠ .notValid := by
      rintro rfl
      exact Nat.not_succ_le_zero _ (h.valid ▸ hcount .notValid)
    refine counted_replace [vote] [] h hold herase rfl ?_ ?_ ?_ ?_ rfl (Nat.le_succ_of_le h.bound)
    · exact dec_if (by cases vote <;> rfl) (h.need ▸ hcount .need) (by omega)
    · exact dec_if (by cases vote <;> rfl) hgreed (by omega)
    · exact dec_if (by cases vote <;> rfl) (h.pass ▸ hcount .pass) (by omega)
    · exact dec_if (if_pos hvalid).symm hpos (by omega)

/-! ## 4. Rolls that start -/

/-- A roll that goes on, in a group with these members. -/
structure GoesOn (members : List ObjectGuid) (r r' : Roll) : Prop where
  same : Same r r'
  isOpen : r'.Open
  voters : ∀ player, player ∈ r'.playerVote.keys ↔ player ∈ r.playerVote.keys ∧ player ∈ members
  final : ∀ player vote, r.playerVote.lookup player = some vote → vote ≠ .notEmitedYet →
    r'.playerVote.lookup player = some vote ∨ player ∉ members

theorem goesOn_refl {members : List ObjectGuid} (h : r.Open)
    (hvoters : ∀ player ∈ r.playerVote.keys, player ∈ members) : r.GoesOn members r where
  same := ⟨rfl, rfl, rfl, rfl⟩
  isOpen := h
  voters player := (and_iff_left_of_imp (hvoters player)).symm
  final _ _ hvote _ := Or.inl hvote

/-- A new roll, for one of these items. -/
structure Starts (g : Group) (party : Party) (items : List LootItem) (r : Roll) : Prop where
  isOpen : r.Open
  eligible : ∃ item ∈ items, ∀ player, player ∈ r.playerVote.keys ↔
    player ∈ g.members ∧ Group.rollsFor party item player = true

end Roll

/-- A group with some new rolls. -/
structure Extends (party : Party) (items : List LootItem) (g : Group)
    (after : Group × List RollEvent) : Prop where
  members : after.1.members = g.members
  lootThreshold : after.1.lootThreshold = g.lootThreshold
  nextGuid : g.nextGuid ≤ after.1.nextGuid
  rolls : ∃ rolls, after.1.rolls = g.rolls ++ rolls ∧
    after.2 = rolls.map (fun r => .started r.itemGUID) ∧ (rolls.map Roll.itemGUID).Nodup ∧
      ∀ r ∈ rolls, r.Starts g party items ∧ g.nextGuid ≤ r.itemGUID ∧ r.itemGUID < after.1.nextGuid

namespace Extends

variable {party : Party} {items : List LootItem}

theorem refl (party : Party) (items : List LootItem) (g : Group) :
    Extends party items g (g, []) :=
  ⟨rfl, rfl, Nat.le_refl _, [], (List.append_nil _).symm, rfl, List.nodup_nil, nofun⟩

theorem trans {after : Group × List RollEvent} {later : Group × List RollEvent}
    (h : Extends party items g after) (h' : Extends party items after.1 later) :
    Extends party items g (later.1, after.2 ++ later.2) := by
  obtain ⟨rolls, hrolls, hevents, hnodup, hstarts⟩ := h.rolls
  obtain ⟨rolls', hrolls', hevents', hnodup', hstarts'⟩ := h'.rolls
  refine ⟨h'.members.trans h.members, h'.lootThreshold.trans h.lootThreshold,
    Nat.le_trans h.nextGuid h'.nextGuid, rolls ++ rolls', ?_, ?_, ?_, fun r hr => ?_⟩
  · rw [hrolls', hrolls, List.append_assoc]
  · rw [hevents, hevents', List.map_append]
  · rw [List.map_append]
    refine List.nodup_append.mpr ⟨hnodup, hnodup', fun x hx y hy => ?_⟩
    obtain ⟨r, hr, rfl⟩ := List.mem_map.mp hx
    obtain ⟨r', hr', rfl⟩ := List.mem_map.mp hy
    exact Nat.ne_of_lt (Nat.lt_of_lt_of_le (hstarts r hr).2.2 (hstarts' r' hr').2.1)
  · rcases List.mem_append.mp hr with hr | hr
    · obtain ⟨hstart, hge, hlt⟩ := hstarts r hr
      exact ⟨hstart, hge, Nat.lt_of_lt_of_le hlt h'.nextGuid⟩
    · obtain ⟨hstart, hge, hlt⟩ := hstarts' r hr
      refine ⟨⟨hstart.isOpen, ?_⟩, Nat.le_trans h.nextGuid hge, hlt⟩
      obtain ⟨item, hitem, hvoters⟩ := hstart.eligible
      exact ⟨item, hitem, fun player => h.members ▸ hvoters player⟩

end Extends

namespace Group

variable {party : Party} {items : List LootItem} {item : LootItem} {loot : Loot}

theorem startRoll_extends (hitem : item ∈ items) {mask : ℕ} {canPass : Bool} {itemSlot : ℕ}
    (hmask : allows mask .pass = true)
    (hwaits : (∃ member ∈ g.members, rollsFor party item member = true) →
      ∃ member ∈ g.members, rollsFor party item member = true ∧
        ¬ (canPass = true ∧ party.passOnGroupLoot member = true)) :
    Extends party items g (g.startRoll party loot itemSlot item mask canPass) := by
  have hlength : (g.members.filter (rollsFor party item)).length ≤ 40 :=
    Nat.le_trans (List.length_filter_le ..) g.size
  have hentered := Roll.enter_all
    (fun member => decide (canPass = true ∧ party.passOnGroupLoot member = true))
    (g.distinct.filter (rollsFor party item))
    (r := ⟨g.nextGuid, loot.id, loot.items = [], itemSlot, .empty, 0, 0, 0, 0, mask⟩)
    ⟨rfl, rfl, rfl, rfl, rfl, Nat.zero_le _⟩ (fun _ _ => rfl) ((Nat.zero_add _).trans_le hlength)
  unfold startRoll
  generalize List.foldl _ _ _ = r at hentered ⊢
  have hlookup := hentered.lookup
  have hkeys : ∀ player, player ∈ r.playerVote.keys ↔
      player ∈ g.members ∧ rollsFor party item player = true := by
    intro player
    rw [Roll.mem_keys_iff, hlookup, ← List.mem_filter]
    split
    case isTrue h => exact iff_of_true ⟨_, rfl⟩ h
    case isFalse h => exact iff_of_false (fun ⟨_, hnone⟩ => nomatch hnone) h
  by_cases hpos : 0 < r.totalPlayersRolling
  · rw [if_pos hpos]
    refine ⟨rfl, rfl, Nat.le_succ _, [r], rfl, by rw [List.map_singleton, hentered.same.itemGUID],
      List.nodup_singleton _, fun r' hr' => ?_⟩
    obtain rfl := List.mem_singleton.mp hr'
    have hguid : r'.itemGUID = g.nextGuid := hentered.same.itemGUID
    refine ⟨⟨⟨hentered.counted, ?_, fun vote hvote => ?_⟩, item, hitem, hkeys⟩,
      hguid.ge, hguid ▸ Nat.lt_succ_self _⟩
    · -- a roll with voters has one who does not pass
      rw [hentered.counted.rolling] at hpos
      obtain ⟨entry, hentry⟩ := List.exists_mem_of_length_pos hpos
      have hvoter : entry.1 ∈ r'.playerVote.keys := List.mem_map_of_mem hentry
      obtain ⟨member, hmember, hrolls, hstays⟩ := hwaits ⟨entry.1, (hkeys entry.1).mp hvoter⟩
      refine Roll.mem_values_iff.mpr ⟨member, ?_⟩
      rw [hlookup, if_pos (List.mem_filter.mpr ⟨hmember, hrolls⟩), if_neg]
      exact fun h => hstays (of_decide_eq_true h)
    · obtain ⟨player, hplayer⟩ := Roll.mem_values_iff.mp hvote
      have hmask' : r'.rollVoteMask = mask := hentered.same.rollVoteMask
      rw [hlookup] at hplayer
      rw [hmask']
      split at hplayer
      · split at hplayer
        · exact Option.some.inj hplayer ▸ hmask
        · exact Option.some.inj hplayer ▸ rfl
      · nomatch hplayer
  · rw [if_neg hpos]
    exact ⟨rfl, rfl, Nat.le_succ _, [], (List.append_nil _).symm, rfl, List.nodup_nil, nofun⟩

theorem allows_voteMask (needBeforeGreed : Bool) (template : ItemTemplate) :
    allows (g.voteMask needBeforeGreed template) .pass = true := by
  unfold voteMask
  by_cases hskill : template.disenchantID ≠ 0 ∧ template.requiredDisenchantSkill ≤
    g.maxEnchantingLevel
  · simp only [if_pos hskill]
    split <;> decide
  · simp only [if_neg hskill]
    split <;> decide

theorem lootItem_extends (hitem : item ∈ items) {needBeforeGreed : Bool} {itemSlot : ℕ}
    (hproper : ¬ g.AllPass party item) :
    Extends party items g (g.lootItem needBeforeGreed party loot itemSlot item) := by
  unfold lootItem
  split
  case h_1 => exact Extends.refl ..
  case h_2 template htemplate =>
    split
    case isFalse => exact Extends.refl ..
    case isTrue h =>
      refine startRoll_extends hitem (allows_voteMask ..) fun hasked => ?_
      by_contra hpass
      refine hproper ⟨⟨template, htemplate, Bool.eq_false_iff.mpr h.1, h.2⟩, hasked,
        fun member hmember hrolls => ?_⟩
      by_contra hstays
      exact hpass ⟨member, hmember, hrolls, fun hboth => hstays hboth.2⟩

theorem questItem_extends (hitem : item ∈ items) {itemSlot : ℕ} :
    Extends party items g (g.questItem party loot itemSlot item) := by
  unfold questItem
  split
  case isTrue =>
    exact startRoll_extends hitem rfl fun ⟨member, hmember, hrolls⟩ =>
      ⟨member, hmember, hrolls, fun h => nomatch h.1⟩
  case isFalse => exact Extends.refl ..

theorem each_extends {α : Type} {f : Group → α → Group × List RollEvent} {xs : List α}
    (hf : ∀ x ∈ xs, ∀ g' : Group, g'.members = g.members → g'.lootThreshold = g.lootThreshold →
      Extends party items g' (f g' x)) : Extends party items g (each f g xs) := by
  induction xs generalizing g with
  | nil => exact Extends.refl ..
  | cons x xs ih =>
    obtain ⟨hx, hxs⟩ := List.forall_mem_cons.mp hf
    have hone := hx g rfl rfl
    refine hone.trans (ih fun y hy g' hmembers hthreshold => hxs y hy g' ?_ ?_)
    · exact hmembers.trans hone.members
    · exact hthreshold.trans hone.lootThreshold

/-- **The rolls of a loot go on**, unless all pass. -/
theorem rollLoot_extends {needBeforeGreed : Bool} (hproper : ∀ item ∈ loot.items, ¬ g.AllPass party item) :
    Extends party (loot.items ++ loot.questItems) g (g.rollLoot needBeforeGreed party loot) := by
  refine each_extends fun x hx g' hmembers hthreshold => ?_
  rcases List.mem_append.mp hx with hx | hx
  · obtain ⟨⟨item, itemSlot⟩, hmem, rfl⟩ := List.mem_map.mp hx
    have hitem : item ∈ loot.items := List.fst_mem_of_mem_zipIdx hmem
    refine lootItem_extends (List.mem_append_left _ hitem) fun hall => hproper item hitem ?_
    unfold AllPass at hall ⊢
    rwa [hmembers, hthreshold] at hall
  · obtain ⟨⟨item, itemSlot⟩, hmem, rfl⟩ := List.mem_map.mp hx
    exact questItem_extends (List.mem_append_right _ (List.fst_mem_of_mem_zipIdx hmem))

/-! ## 5. Rolls that end -/

variable {itemGUID : ObjectGuid} {before after : List Roll}

theorem setRoll_append {change : Roll → Roll} (hrolls : g.rolls = before ++ r :: after)
    (hguid : r.itemGUID = itemGUID) (hbefore : ∀ other ∈ before, other.itemGUID ≠ itemGUID) :
    g.setRoll itemGUID change = { g with rolls := before ++ change r :: after } := by
  unfold setRoll
  rw [hrolls, modify_findIdx_append (fun other hother => decide_eq_false (hbefore other hother))
    (decide_eq_true hguid)]

theorem getRoll_append (hrolls : g.rolls = before ++ r :: after) (hguid : r.itemGUID = itemGUID)
    (hbefore : ∀ other ∈ before, other.itemGUID ≠ itemGUID) : g.getRoll itemGUID = some r := by
  unfold getRoll
  rw [hrolls, List.find?_append, List.find?_eq_none.mpr]
  · exact List.find?_cons_of_pos (p := fun r : Roll => decide (r.itemGUID = itemGUID))
      (decide_eq_true hguid)
  · exact fun other hother h => hbefore other hother (of_decide_eq_true h)

theorem countRollVote_of_none {dice : Dice} {choice : ℕ} (hroll : g.getRoll itemGUID = some r)
    (hvote : r.playerVote.lookup player = none) :
    g.countRollVote dice player itemGUID choice = (g, []) := by
  unfold countRollVote
  rw [hroll]
  dsimp only
  rw [hvote]

/-- A vote is counted, and if it is the last so is the roll. -/
theorem countRollVote_append (dice : Dice) (choice : ℕ) (hrolls : g.rolls = before ++ r :: after)
    (hguid : r.itemGUID = itemGUID) (hbefore : ∀ other ∈ before, other.itemGUID ≠ itemGUID)
    (hvote : r.playerVote.lookup player = some vote) (hitems : r.itemsEmpty = false) :
    g.countRollVote dice player itemGUID choice =
      if (r.vote player choice).totalPlayersRolling ≤ (r.vote player choice).totalPass +
          (r.vote player choice).totalNeed + (r.vote player choice).totalGreed then
        ({ g with rolls := before ++ after },
          [.resolved itemGUID ((r.vote player choice).winner (dice itemGUID))])
      else ({ g with rolls := before ++ r.vote player choice :: after }, []) := by
  have hguid' : (r.vote player choice).itemGUID = itemGUID :=
    (r.same_vote player choice).itemGUID.trans hguid
  unfold countRollVote
  rw [getRoll_append hrolls hguid hbefore]
  dsimp only
  rw [hvote]
  rw [if_neg (Bool.eq_false_iff.mp hitems), setRoll_append hrolls hguid hbefore]
  unfold countTheRoll
  rw [List.eraseP_append_right _ fun other hother h => hbefore other hother (of_decide_eq_true h),
    List.eraseP_cons_of_pos (p := fun r : Roll => decide (r.itemGUID = itemGUID))
      (decide_eq_true hguid'), hguid']

/-- A player who leaves is not asked again: `CountRollVote` finds no vote of his. -/
theorem leaveRoll_append (dice : Dice) (player : ObjectGuid)
    (hrolls : g.rolls = before ++ r :: after) (hguid : r.itemGUID = itemGUID)
    (hbefore : ∀ other ∈ before, other.itemGUID ≠ itemGUID) :
    g.leaveRoll dice player itemGUID =
      ({ g with rolls := before ++ r.without player :: after }, []) := by
  unfold leaveRoll
  rw [getRoll_append hrolls hguid hbefore, Option.bind_some]
  have hnone := r.lookup_without player player
  rw [if_pos rfl] at hnone
  unfold Roll.without at hnone ⊢
  cases hvote : r.playerVote.lookup player with
  | none => exact congrArg (fun rolls => ({ g with rolls := rolls }, [])) hrolls
  | some vote =>
    rw [hvote] at hnone
    dsimp only at hnone ⊢
    rw [setRoll_append hrolls hguid hbefore]
    exact countRollVote_of_none (getRoll_append rfl hguid hbefore) hnone

theorem each_leaveRoll (dice : Dice) (player : ObjectGuid) (hrolls : g.rolls = before ++ after)
    (hnodup : (g.rolls.map Roll.itemGUID).Nodup) :
    each (fun g itemGUID => g.leaveRoll dice player itemGUID) g (after.map Roll.itemGUID) =
      ({ g with rolls := before ++ after.map (Roll.without player) }, []) := by
  induction after generalizing g before with
  | nil =>
    rw [List.map_nil, List.map_nil, ← hrolls]
    rfl
  | cons r after ih =>
    have hbefore : ∀ other ∈ before, other.itemGUID ≠ r.itemGUID := by
      rw [hrolls, List.map_append] at hnodup
      exact fun other hother => (List.nodup_append.mp hnodup).2.2 _ (List.mem_map_of_mem hother) _
        (List.mem_map_of_mem List.mem_cons_self)
    have hguid : (r.without player).itemGUID = r.itemGUID := (r.same_without player).itemGUID
    have hrest := ih (g := { g with rolls := before ++ r.without player :: after })
      (List.append_cons before (r.without player) after) (by
        rw [hrolls] at hnodup
        simpa [hguid] using hnodup)
    rw [List.map_cons, each, leaveRoll_append dice player hrolls rfl hbefore]
    rw [hrest]
    simp

/-- Nothing becomes known when a member leaves; his votes are gone, or with the group the rolls. -/
theorem removeMember_spec (dice : Dice) (player : ObjectGuid) (tooSmall : Bool)
    (hnodup : (g.rolls.map Roll.itemGUID).Nodup) :
    (g.removeMember dice player tooSmall).2 = [] ∧
      (g.removeMember dice player tooSmall).1.nextGuid = g.nextGuid ∧
      (g.rolls = [] → (g.removeMember dice player tooSmall).1.rolls = []) ∧
      (g.minimum < g.members.length → tooSmall = false →
        (g.removeMember dice player tooSmall).1.rolls = g.rolls.map (Roll.without player) ∧
        (g.removeMember dice player tooSmall).1.members = g.members.filter (· ≠ player)) := by
  have heach := each_leaveRoll dice player (List.nil_append g.rolls).symm hnodup
  unfold removeMember
  by_cases hminimum : g.minimum < g.members.length
  · rw [if_pos hminimum]
    cases tooSmall with
    | true => exact ⟨congrArg Prod.snd heach, congrArg (fun after => after.1.nextGuid) heach,
        fun _ => rfl, nofun⟩
    | false =>
      have hrolls := congrArg (fun after => after.1.rolls) heach
      refine ⟨congrArg Prod.snd heach, congrArg (fun after => after.1.nextGuid) heach,
        fun hnone => ?_, fun _ _ => ⟨hrolls, ?_⟩⟩
      · exact hrolls.trans (by rw [hnone]; rfl)
      · exact congrArg (fun after => after.1.members.filter (· ≠ player)) heach
  · rw [if_neg hminimum]
    exact ⟨rfl, rfl, fun _ => rfl, fun h => absurd h hminimum⟩

/-- `EndRoll` counts the rolls of the loot, one after the other. -/
theorem endRollLoop_eq (dice : Dice) (loot : ℕ) {n : ℕ} (hn : g.rolls.length ≤ n) :
    endRollLoop dice loot n g = ({ g with rolls := g.rolls.filter fun r => r.loot ≠ loot },
      (g.rolls.filter fun r => r.loot = loot).map fun r =>
        .resolved r.itemGUID (r.winner (dice r.itemGUID))) := by
  have hkeep : ∀ before : List Roll, (∀ r ∈ before, decide (r.loot = loot) = false) →
      (before.filter fun r => r.loot ≠ loot) = before ∧
        (before.filter fun r => r.loot = loot) = [] := fun before hbefore =>
    ⟨List.filter_eq_self.mpr fun r hr => decide_eq_true (of_decide_eq_false (hbefore r hr)),
      List.filter_eq_nil_iff.mpr fun r hr => Bool.eq_false_iff.mp (hbefore r hr)⟩
  induction n generalizing g with
  | zero =>
    have hnil : g.rolls = [] := List.eq_nil_of_length_eq_zero (Nat.le_zero.mp hn)
    rw [hnil]
    exact congrArg (fun rolls => ({ g with rolls := rolls }, [])) hnil
  | succ n ih =>
    unfold endRollLoop
    cases hfind : g.rolls.find? fun r => r.loot = loot with
    | none =>
      obtain ⟨hsame, hnone⟩ := hkeep g.rolls fun r hr =>
        Bool.eq_false_iff.mpr (List.find?_eq_none.mp hfind r hr)
      rw [hsame, hnone]
      rfl
    | some r =>
      obtain ⟨before, after, hrolls, hr, hbefore, herase, -⟩ := find_split hfind
      obtain ⟨hsame, hnone⟩ := hkeep before hbefore
      have hlength : (before ++ after).length ≤ n := by
        rw [hrolls, List.length_append, List.length_cons] at hn
        rw [List.length_append]
        omega
      dsimp only [countTheRoll]
      rw [herase, ih hlength, hrolls]
      simp only [List.filter_append, hsame, hnone, List.filter_cons, of_decide_eq_true hr]
      simp

end Group

/-! ## 6. Steps -/

variable {i : RollInput}

def openGuids (g : Group) : List ObjectGuid := g.rolls.map Roll.itemGUID

/-- The items of the events of a kind. -/
def startedGuids (events : List RollEvent) : List ObjectGuid :=
  events.filterMap RollEvent.startedGuid

def resolvedGuids (events : List RollEvent) : List ObjectGuid :=
  events.filterMap RollEvent.resolvedGuid

/-- What a step leaves: rolls that go on and rolls that start, and each that is gone is resolved. -/
structure Leaves (g : Group) (i : RollInput) : Prop where
  rolls : ∀ r' ∈ (g.step i).rolls, (∃ r ∈ g.rolls, r.GoesOn (g.step i).members r') ∨
    g.nextGuid ≤ r'.itemGUID ∧ r'.itemGUID < (g.step i).nextGuid ∧ (g.step i).members = g.members ∧
      ∃ party loot, (i = .groupLoot party loot ∨ i = .needBeforeGreed party loot) ∧
        r'.Starts g party (loot.items ++ loot.questItems)
  nextGuid : g.nextGuid ≤ (g.step i).nextGuid
  distinct : (startedGuids (g.events i)).Nodup
  fresh : ∀ itemGUID ∈ startedGuids (g.events i),
    g.nextGuid ≤ itemGUID ∧ itemGUID < (g.step i).nextGuid
  account : (openGuids g ++ startedGuids (g.events i)).Perm
    (resolvedGuids (g.events i) ++ openGuids (g.step i))
  resolved : ∀ itemGUID ∈ resolvedGuids (g.events i),
    ∃ r ∈ g.rolls, r.itemGUID = itemGUID ∧
      ((∃ dice player choice, i = .lootRoll dice player itemGUID choice ∧
          r.playerVote.lookup player = some .notEmitedYet ∧ (voteOf choice).isSome = true ∧
          ∀ other, other ≠ player → r.playerVote.lookup other ≠ some .notEmitedYet) ∨
        ∃ dice, i = .endRoll dice r.loot)
  timer : ∀ dice loot, i = .endRoll dice loot → ∀ r ∈ (g.step i).rolls, r.loot ≠ loot

theorem RollsSound.roll_unique (h : RollsSound g) (hr : r ∈ g.rolls) (hr' : r' ∈ g.rolls)
    (heq : r'.itemGUID = r.itemGUID) : r' = r := List.inj_on_of_nodup_map h.distinct hr' hr heq

/-- **The step lemma.** -/
theorem Leaves.sound (h : RollsSound g) (hleaves : Leaves g i) :
    RollsSound (g.step i) ∧ StepSound g i := by
  have hfollows : ∀ r ∈ g.rolls, ∀ r' ∈ (g.step i).rolls, r'.itemGUID = r.itemGUID →
      r.GoesOn (g.step i).members r' := by
    intro r hr r' hr' heq
    rcases hleaves.rolls r' hr' with ⟨r₀, hr₀, hgoes⟩ | ⟨hge, -⟩
    · exact h.roll_unique hr hr₀ (hgoes.same.itemGUID.symm.trans heq) ▸ hgoes
    · exact absurd (h.fresh r hr) (Nat.not_lt.mpr (heq ▸ hge))
  have hnodup : (openGuids g ++ startedGuids (g.events i)).Nodup := by
    refine List.nodup_append.mpr ⟨h.distinct, hleaves.distinct, fun x hx y hy => ?_⟩
    obtain ⟨r, hr, rfl⟩ := List.mem_map.mp hx
    exact Nat.ne_of_lt (Nat.lt_of_lt_of_le (h.fresh r hr) (hleaves.fresh y hy).1)
  constructor
  · constructor
    case isOpen =>
      intro r' hr'
      rcases hleaves.rolls r' hr' with ⟨r, -, hgoes⟩ | ⟨-, -, -, _, _, -, hstarts⟩
      · exact hgoes.isOpen
      · exact hstarts.isOpen
    case voters =>
      intro r' hr' player hplayer
      rcases hleaves.rolls r' hr' with ⟨r, -, hgoes⟩ | ⟨-, -, hmembers, _, _, -, hstarts⟩
      · exact ((hgoes.voters player).mp hplayer).2
      · obtain ⟨item, -, heligible⟩ := hstarts.eligible
        exact hmembers ▸ ((heligible player).mp hplayer).1
    case distinct => exact (List.nodup_append.mp (hleaves.account.nodup hnodup)).2.1
    case fresh =>
      intro r' hr'
      rcases hleaves.rolls r' hr' with ⟨r, hr, hgoes⟩ | ⟨-, hlt, -⟩
      · exact hgoes.same.itemGUID ▸ Nat.lt_of_lt_of_le (h.fresh r hr) hleaves.nextGuid
      · exact hlt
  · constructor
    case started =>
      intro r' hr' hstarted
      have hge := (hleaves.fresh _ (List.mem_filterMap.mpr ⟨_, hstarted, rfl⟩)).1
      rcases hleaves.rolls r' hr' with ⟨r, hr, hgoes⟩ | ⟨-, -, -, party, loot, hi, hstarts⟩
      · exact absurd (h.fresh r hr) (Nat.not_lt.mpr (hgoes.same.itemGUID ▸ hge))
      · exact ⟨party, loot, hi, hstarts.eligible⟩
    case voters => exact fun r hr r' hr' heq => (hfollows r hr r' hr' heq).voters
    case final => exact fun r hr r' hr' heq => (hfollows r hr r' hr' heq).final
    case resolved => exact hleaves.resolved
    case timer => exact hleaves.timer

/-- A step that leaves the rolls alone, and keeps the members. -/
theorem Leaves.of_same (h : RollsSound g) (hrolls : (g.step i).rolls = g.rolls)
    (hmembers : ∀ player ∈ g.members, player ∈ (g.step i).members)
    (hnextGuid : (g.step i).nextGuid = g.nextGuid) (hevents : g.events i = [])
    (htimer : ∀ dice loot, i ≠ .endRoll dice loot) : Leaves g i where
  rolls r hr := by
    rw [hrolls] at hr
    exact Or.inl ⟨r, hr, Roll.goesOn_refl (h.isOpen r hr) fun player hplayer =>
      hmembers player (h.voters r hr player hplayer)⟩
  nextGuid := hnextGuid.ge
  distinct := hevents ▸ List.nodup_nil
  fresh itemGUID hmem := by
    rw [hevents] at hmem
    nomatch hmem
  account := by
    unfold openGuids
    rw [hrolls, hevents]
    exact (List.append_nil _).symm ▸ List.Perm.refl _
  resolved itemGUID hmem := by
    rw [hevents] at hmem
    nomatch hmem
  timer dice loot hi := absurd hi (htimer dice loot)

theorem Leaves.of_extends (h : RollsSound g) {party : Party} {loot : Loot}
    (hi : i = .groupLoot party loot ∨ i = .needBeforeGreed party loot)
    (hextends : Extends party (loot.items ++ loot.questItems) g (g.handle i)) : Leaves g i := by
  obtain ⟨rolls, hrolls, hevents, hnodup, hstarts⟩ := hextends.rolls
  have hstarted : startedGuids (g.events i) = rolls.map Roll.itemGUID := by
    unfold startedGuids Group.events
    rw [hevents, List.filterMap_map]
    exact List.filterMap_eq_map' ▸ rfl
  have hresolved : resolvedGuids (g.events i) = [] := by
    unfold resolvedGuids Group.events
    rw [hevents, List.filterMap_map]
    exact List.filterMap_eq_nil_iff.mpr fun _ _ => rfl
  have hmembers : (g.step i).members = g.members := hextends.members
  constructor
  case rolls =>
    intro r hr
    rw [Group.step, hrolls] at hr
    rcases List.mem_append.mp hr with hr | hr
    · exact Or.inl ⟨r, hr, Roll.goesOn_refl (h.isOpen r hr) fun player hplayer =>
        hmembers.symm ▸ h.voters r hr player hplayer⟩
    · obtain ⟨hstart, hge, hlt⟩ := hstarts r hr
      exact Or.inr ⟨hge, hlt, hmembers, party, loot, hi, hstart⟩
  case nextGuid => exact hextends.nextGuid
  case distinct => exact hstarted ▸ hnodup
  case fresh =>
    intro itemGUID hmem
    rw [hstarted] at hmem
    obtain ⟨r, hr, rfl⟩ := List.mem_map.mp hmem
    exact (hstarts r hr).2
  case account =>
    rw [hstarted, hresolved, openGuids, openGuids, Group.step, hrolls, List.map_append]
    exact List.Perm.refl _
  case resolved =>
    rw [hresolved]
    exact nofun
  case timer =>
    rintro dice loot' rfl
    rcases hi with hi | hi <;> nomatch hi

theorem leaves_endRoll (h : RollsSound g) (dice : Dice) (loot : ℕ) : Leaves g (.endRoll dice loot) := by
  have hhandle : g.handle (.endRoll dice loot) = _ :=
    Group.endRollLoop_eq dice loot (Nat.le_refl _)
  have hrolls : (g.step (.endRoll dice loot)).rolls = g.rolls.filter fun r => r.loot ≠ loot :=
    congrArg (fun after => after.1.rolls) hhandle
  have hmembers : (g.step (.endRoll dice loot)).members = g.members :=
    congrArg (fun after => after.1.members) hhandle
  have hnextGuid : (g.step (.endRoll dice loot)).nextGuid = g.nextGuid :=
    congrArg (fun after => after.1.nextGuid) hhandle
  have hevents : g.events (.endRoll dice loot) = _ := congrArg Prod.snd hhandle
  have hstarted : startedGuids (g.events (.endRoll dice loot)) = [] := by
    unfold startedGuids
    rw [hevents, List.filterMap_map]
    exact List.filterMap_eq_nil_iff.mpr fun _ _ => rfl
  have hresolved : resolvedGuids (g.events (.endRoll dice loot)) =
      (g.rolls.filter fun r => r.loot = loot).map Roll.itemGUID := by
    unfold resolvedGuids
    rw [hevents, List.filterMap_map]
    exact List.filterMap_eq_map' ▸ rfl
  constructor
  case rolls =>
    intro r hr
    rw [hrolls] at hr
    have hmem := List.mem_of_mem_filter hr
    exact Or.inl ⟨r, hmem, Roll.goesOn_refl (h.isOpen r hmem) fun player hplayer =>
      hmembers.symm ▸ h.voters r hmem player hplayer⟩
  case nextGuid => exact hnextGuid.ge
  case distinct => exact hstarted ▸ List.nodup_nil
  case fresh =>
    rw [hstarted]
    exact nofun
  case account =>
    rw [hstarted, hresolved, openGuids, openGuids, hrolls, List.append_nil, ← List.map_append]
    refine List.Perm.map _ ((List.filter_append_perm (fun r => r.loot = loot) g.rolls).symm.trans ?_)
    refine List.Perm.of_eq (congrArg _ (List.filter_congr fun r _ => ?_))
    exact (decide_not ..).symm
  case resolved =>
    rw [hresolved]
    intro itemGUID hmem
    obtain ⟨r, hr, rfl⟩ := List.mem_map.mp hmem
    obtain ⟨hr, hloot⟩ := List.mem_filter.mp hr
    exact ⟨r, hr, rfl, Or.inr ⟨dice, of_decide_eq_true hloot ▸ rfl⟩⟩
  case timer =>
    rintro dice' loot' heq r hr
    obtain ⟨-, rfl⟩ := RollInput.endRoll.inj heq
    rw [hrolls] at hr
    exact of_decide_eq_true (List.mem_filter.mp hr).2

/-- A player who leaves, where someone else has not voted in his rolls. -/
theorem goesOn_without {members : List ObjectGuid} (h : r.Open) (hnot : player ∉ members)
    (hvoters : ∀ other ∈ r.playerVote.keys, other ≠ player → other ∈ members)
    (hwaits : player ∈ r.playerVote.keys →
      ∃ other, other ≠ player ∧ r.playerVote.lookup other = some .notEmitedYet) :
    r.GoesOn members (r.without player) := by
  have hlookup := r.lookup_without player
  refine ⟨r.same_without player, ⟨h.counted.without player, ?_, fun vote hvote => ?_⟩,
    fun other => ?_, fun other vote hvote _ => ?_⟩
  · obtain ⟨waiting, hwaiting⟩ := Roll.mem_values_iff.mp h.waiting
    by_cases hplayer : waiting = player
    · obtain ⟨other, hne, hother⟩ := hwaits (hplayer ▸ Roll.mem_keys_iff.mpr ⟨_, hwaiting⟩)
      exact Roll.mem_values_iff.mpr ⟨other, by rw [hlookup, if_neg hne, hother]⟩
    · exact Roll.mem_values_iff.mpr ⟨waiting, by rw [hlookup, if_neg hplayer, hwaiting]⟩
  · obtain ⟨other, hother⟩ := Roll.mem_values_iff.mp hvote
    rw [hlookup] at hother
    split at hother
    · nomatch hother
    · rw [(r.same_without player).rollVoteMask]
      exact h.allowed vote (Roll.mem_values_iff.mpr ⟨other, hother⟩)
  · rw [Roll.mem_keys_iff, hlookup]
    by_cases hother : other = player
    · rw [if_pos hother, hother]
      exact iff_of_false (fun ⟨_, hnone⟩ => nomatch hnone) fun hboth => hnot hboth.2
    · rw [if_neg hother, ← Roll.mem_keys_iff]
      exact (and_iff_left_of_imp fun hmem => hvoters other hmem hother).symm
  · by_cases hother : other = player
    · exact Or.inr (hother ▸ hnot)
    · rw [hlookup, if_neg hother]
      exact Or.inl hvote

theorem leaves_removeMember (h : RollsSound g) {dice : Dice} {tooSmall : Bool}
    (hproper : Proper g (.removeMember dice player tooSmall)) :
    Leaves g (.removeMember dice player tooSmall) := by
  obtain ⟨hevents, hnextGuid, hgone, hleft⟩ :=
    g.removeMember_spec dice player tooSmall h.distinct
  have hstarted : startedGuids (g.events (.removeMember dice player tooSmall)) = [] :=
    congrArg startedGuids hevents
  have hresolved : resolvedGuids (g.events (.removeMember dice player tooSmall)) = [] :=
    congrArg resolvedGuids hevents
  have hrolls : (∀ r' ∈ (g.step (.removeMember dice player tooSmall)).rolls,
        ∃ r ∈ g.rolls, r.GoesOn (g.step (.removeMember dice player tooSmall)).members r') ∧
      openGuids (g.step (.removeMember dice player tooSmall)) = openGuids g := by
    by_cases hnone : g.rolls = []
    · have hnil : (g.step (.removeMember dice player tooSmall)).rolls = [] := hgone hnone
      unfold openGuids
      rw [hnil, hnone]
      exact ⟨nofun, rfl⟩
    · obtain ⟨hminimum, rfl, hwaits⟩ := hproper hnone
      obtain ⟨hrolls, hmembers⟩ := hleft hminimum rfl
      unfold openGuids Group.step
      dsimp only [Group.handle]
      rw [hrolls, hmembers, List.map_map]
      refine ⟨fun r' hr' => ?_, List.map_congr_left fun r _ => (r.same_without player).itemGUID⟩
      obtain ⟨r, hr, rfl⟩ := List.mem_map.mp hr'
      refine ⟨r, hr, goesOn_without (h.isOpen r hr) (fun hmem => ?_) (fun other hother hne => ?_)
        (hwaits r hr)⟩
      · exact of_decide_eq_true (List.mem_filter.mp hmem).2 rfl
      · exact List.mem_filter.mpr ⟨h.voters r hr other hother, decide_eq_true hne⟩
  constructor
  case rolls => exact fun r' hr' => Or.inl (hrolls.1 r' hr')
  case nextGuid => exact hnextGuid.ge
  case distinct => exact hstarted ▸ List.nodup_nil
  case fresh =>
    rw [hstarted]
    exact nofun
  case account =>
    rw [hstarted, hresolved, hrolls.2, List.append_nil]
    exact List.Perm.refl _
  case resolved =>
    rw [hresolved]
    exact nofun
  case timer => exact nofun

/-- A first vote that is not the last. -/
theorem goesOn_vote {members : List ObjectGuid} {choice : ℕ} (h : r.Open)
    (hvoters : ∀ other ∈ r.playerVote.keys, other ∈ members)
    (hwaits : r.playerVote.lookup player = some .notEmitedYet) (hvote : voteOf choice = some vote)
    (hallowed : allows r.rollVoteMask vote = true)
    (hmore : .notEmitedYet ∈ (r.vote player choice).playerVote.values) :
    r.GoesOn members (r.vote player choice) := by
  have hvotes := h.counted.votes hwaits hvote
  have hlookup : ∀ other, (r.vote player choice).playerVote.lookup other =
      if other = player then some vote else r.playerVote.lookup other := fun other => by
    rw [hvotes.playerVote, SortedMap.lookup_insert]
  refine ⟨r.same_vote player choice, ⟨hvotes.counted, hmore, fun other hother => ?_⟩,
    fun other => ?_, fun other vote' hvote' hfirst => ?_⟩
  · rw [(r.same_vote player choice).rollVoteMask]
    obtain ⟨voter, hvoter⟩ := Roll.mem_values_iff.mp hother
    rw [hlookup] at hvoter
    split at hvoter
    · exact Option.some.inj hvoter ▸ hallowed
    · exact h.allowed other (Roll.mem_values_iff.mpr ⟨voter, hvoter⟩)
  · rw [Roll.mem_keys_iff, hlookup]
    by_cases hother : other = player
    · have hkeys : other ∈ r.playerVote.keys := hother ▸ Roll.mem_keys_iff.mpr ⟨_, hwaits⟩
      rw [if_pos hother]
      exact iff_of_true ⟨_, rfl⟩ ⟨hkeys, hvoters other hkeys⟩
    · rw [if_neg hother, ← Roll.mem_keys_iff]
      exact (and_iff_left_of_imp (hvoters other)).symm
  · rw [hlookup]
    by_cases hother : other = player
    · rw [hother, hwaits] at hvote'
      exact absurd (Option.some.inj hvote').symm hfirst
    · rw [if_neg hother]
      exact Or.inl hvote'

theorem Leaves.of_unchanged (h : RollsSound g) (hhandle : g.handle i = (g, []))
    (htimer : ∀ dice loot, i ≠ .endRoll dice loot) : Leaves g i := by
  have hstep : g.step i = g := congrArg Prod.fst hhandle
  exact Leaves.of_same h (by rw [hstep]) (fun player hplayer => hstep.symm ▸ hplayer) (by rw [hstep])
    (congrArg Prod.snd hhandle) htimer

section vote

variable {dice : Dice} {itemGUID : ObjectGuid} {choice : ℕ} {before after : List Roll}

/-- A vote that is not the last of the roll. -/
theorem leaves_vote (h : RollsSound g) (hrolls : g.rolls = before ++ r :: after) (hhandle : g.handle (.lootRoll dice player itemGUID choice) =
      ({ g with rolls := before ++ r.vote player choice :: after }, []))
    (hgoes : r.GoesOn g.members (r.vote player choice)) :
    Leaves g (.lootRoll dice player itemGUID choice) := by
  have hstep := congrArg Prod.fst hhandle
  change g.step _ = _ at hstep
  have hevents : g.events (.lootRoll dice player itemGUID choice) = [] := congrArg Prod.snd hhandle
  constructor
  case rolls =>
    rw [hstep]
    intro r' hr'
    have hkept : ∀ r' ∈ g.rolls, (∃ r ∈ g.rolls, r.GoesOn g.members r') := fun r' hr' =>
      ⟨r', hr', Roll.goesOn_refl (h.isOpen r' hr') (h.voters r' hr')⟩
    rcases List.mem_append.mp hr' with hr' | hr'
    · exact Or.inl (hkept r' (hrolls ▸ List.mem_append_left _ hr'))
    · rcases List.mem_cons.mp hr' with rfl | hr'
      · exact Or.inl ⟨r, hrolls ▸ List.mem_append_right _ List.mem_cons_self, hgoes⟩
      · exact Or.inl (hkept r' (hrolls ▸ List.mem_append_right _ (List.mem_cons_of_mem _ hr')))
  case nextGuid => exact hstep ▸ Nat.le_refl _
  case distinct => exact hevents ▸ List.nodup_nil
  case fresh =>
    rw [hevents]
    exact nofun
  case account =>
    have hsame : (r.vote player choice).itemGUID = r.itemGUID :=
      (r.same_vote player choice).itemGUID
    rw [hevents, hstep, openGuids, openGuids, hrolls, List.map_append, List.map_append,
      List.map_cons, List.map_cons, hsame]
    exact List.Perm.of_eq (List.append_nil _)
  case resolved =>
    rw [hevents]
    exact nofun
  case timer => exact nofun

/-- The last vote of a roll. -/
theorem leaves_lastVote (h : RollsSound g) (hrolls : g.rolls = before ++ r :: after)
    (hguid : r.itemGUID = itemGUID) {winner : Option (ObjectGuid × ℕ × RollVote)}
    (hhandle : g.handle (.lootRoll dice player itemGUID choice) =
      ({ g with rolls := before ++ after }, [.resolved itemGUID winner]))
    (hwaits : r.playerVote.lookup player = some .notEmitedYet)
    (hchoice : (voteOf choice).isSome = true)
    (hlast : ∀ other, other ≠ player → r.playerVote.lookup other ≠ some .notEmitedYet) :
    Leaves g (.lootRoll dice player itemGUID choice) := by
  have hstep := congrArg Prod.fst hhandle
  change g.step _ = _ at hstep
  have hevents : g.events (.lootRoll dice player itemGUID choice) = [.resolved itemGUID winner] :=
    congrArg Prod.snd hhandle
  have hresolved : resolvedGuids (g.events (.lootRoll dice player itemGUID choice)) = [itemGUID] :=
    congrArg resolvedGuids hevents
  have hstarted : startedGuids (g.events (.lootRoll dice player itemGUID choice)) = [] :=
    congrArg startedGuids hevents
  have hr : r ∈ g.rolls := hrolls ▸ List.mem_append_right _ List.mem_cons_self
  constructor
  case rolls =>
    rw [hstep]
    intro r' hr'
    have hmem : r' ∈ g.rolls := by
      rw [hrolls]
      rcases List.mem_append.mp hr' with hr' | hr'
      · exact List.mem_append_left _ hr'
      · exact List.mem_append_right _ (List.mem_cons_of_mem _ hr')
    exact Or.inl ⟨r', hmem, Roll.goesOn_refl (h.isOpen r' hmem) (h.voters r' hmem)⟩
  case nextGuid => exact hstep ▸ Nat.le_refl _
  case distinct => exact hstarted ▸ List.nodup_nil
  case fresh =>
    rw [hstarted]
    exact nofun
  case account =>
    rw [hstarted, hresolved, hstep, openGuids, openGuids, hrolls, List.append_nil, List.map_append,
      List.map_append, List.map_cons, hguid]
    exact List.perm_middle
  case resolved =>
    rw [hresolved]
    intro resolved hmem
    obtain rfl := List.mem_singleton.mp hmem
    exact ⟨r, hr, hguid, Or.inl ⟨dice, player, choice, rfl, hwaits, hchoice, hlast⟩⟩
  case timer => exact nofun

end vote

theorem leaves_lootRoll (h : RollsSound g) {dice : Dice} {itemGUID : ObjectGuid} {choice : ℕ}
    (hproper : Proper g (.lootRoll dice player itemGUID choice)) :
    Leaves g (.lootRoll dice player itemGUID choice) := by
  by_cases hmember : player ∈ g.members
  case neg => exact .of_unchanged h (if_neg hmember) nofun
  have hhandle : g.handle (.lootRoll dice player itemGUID choice) =
      g.countRollVote dice player itemGUID choice := if_pos hmember
  cases hroll : g.getRoll itemGUID with
  | none =>
    refine .of_unchanged h (hhandle.trans ?_) nofun
    unfold Group.countRollVote
    rw [hroll]
  | some r =>
    cases hvote : r.playerVote.lookup player with
    | none => exact .of_unchanged h (hhandle.trans (Group.countRollVote_of_none hroll hvote)) nofun
    | some vote =>
      by_cases hitems : r.itemsEmpty = true
      case pos =>
        refine .of_unchanged h (hhandle.trans ?_) nofun
        unfold Group.countRollVote
        rw [hroll]
        dsimp only
        rw [hvote]
        exact if_pos hitems
      obtain ⟨before, after, hrolls, hguid, hbefore, -, -⟩ := find_split hroll
      have hguid : r.itemGUID = itemGUID := of_decide_eq_true hguid
      have hcount := hhandle.trans (Group.countRollVote_append dice choice hrolls hguid
        (fun other hother => of_decide_eq_false (hbefore other hother)) hvote
        (Bool.eq_false_iff.mpr hitems))
      have hr : r ∈ g.rolls := hrolls ▸ List.mem_append_right _ List.mem_cons_self
      have hopen := h.isOpen r hr
      cases hchoice : voteOf choice with
      | none =>
        rw [Roll.vote_of_none hchoice, if_neg fun h => hopen.counted.complete.mp h hopen.waiting,
          ← hrolls] at hcount
        exact .of_unchanged h hcount nofun
      | some vote' =>
        obtain ⟨rfl, hallowed, -⟩ := hproper r vote vote' hmember hroll hvote hchoice
        have hvotes := hopen.counted.votes hvote hchoice
        by_cases hmore : .notEmitedYet ∈ (r.vote player choice).playerVote.values
        · rw [if_neg fun h => hvotes.counted.complete.mp h hmore] at hcount
          exact leaves_vote h hrolls hcount
            (goesOn_vote hopen (h.voters r hr) hvote hchoice hallowed hmore)
        · rw [if_pos (hvotes.counted.complete.mpr hmore)] at hcount
          refine leaves_lastVote h hrolls hguid hcount hvote (hchoice ▸ rfl) fun other hother hwaits =>
            hmore (Roll.mem_values_iff.mpr ⟨other, ?_⟩)
          rw [hvotes.playerVote, SortedMap.lookup_insert, if_neg hother, hwaits]

theorem leaves_of_proper (h : RollsSound g) (hproper : Proper g i) : Leaves g i := by
  cases i with
  | groupLoot party loot => exact .of_extends h (Or.inl rfl) (Group.rollLoot_extends hproper)
  | needBeforeGreed party loot => exact .of_extends h (Or.inr rfl) (Group.rollLoot_extends hproper)
  | lootRoll dice player itemGUID choice => exact leaves_lootRoll h hproper
  | endRoll dice loot => exact leaves_endRoll h dice loot
  | removeMember dice player tooSmall => exact leaves_removeMember h hproper
  | addMember player =>
    by_cases hjoins : player ∉ g.members ∧ g.members.length < 40
    · have hstep : g.step (.addMember player) = _ := dif_pos hjoins
      refine .of_same h (by rw [hstep]) (fun other hother => ?_) (by rw [hstep]) rfl nofun
      rw [hstep]
      exact List.mem_append_left _ hother
    · exact .of_unchanged h (congrArg (fun g => (g, [])) (dif_neg hjoins)) nofun

/-! ## 7. Runs -/

/-- Each roll that starts is resolved once, or still open. -/
theorem account_run {inputs : List RollInput} (h : RollsSound g)
    (hproper : Along Group.step Proper g inputs) :
    (startedGuids (outputs Group.step Group.events g inputs)).Nodup ∧
      (∀ itemGUID ∈ startedGuids (outputs Group.step Group.events g inputs), g.nextGuid ≤ itemGUID) ∧
      (openGuids g ++ startedGuids (outputs Group.step Group.events g inputs)).Perm
        (resolvedGuids (outputs Group.step Group.events g inputs) ++
          openGuids (exec Group.step g inputs)) := by
  induction inputs generalizing g with
  | nil => exact ⟨List.nodup_nil, nofun, List.Perm.of_eq (List.append_nil _)⟩
  | cons i inputs ih =>
    have hleaves := leaves_of_proper h hproper.1
    obtain ⟨hnodup, hfresh, haccount⟩ := ih (hleaves.sound h).1 hproper.2
    have hstarted : startedGuids (outputs Group.step Group.events g (i :: inputs)) =
        startedGuids (g.events i) ++
          startedGuids (outputs Group.step Group.events (g.step i) inputs) := List.filterMap_append
    have hresolved : resolvedGuids (outputs Group.step Group.events g (i :: inputs)) =
        resolvedGuids (g.events i) ++
          resolvedGuids (outputs Group.step Group.events (g.step i) inputs) := List.filterMap_append
    rw [hstarted, hresolved, exec_cons]
    refine ⟨List.nodup_append.mpr ⟨hleaves.distinct, hnodup, fun x hx y hy => ?_⟩,
      fun itemGUID hmem => ?_, ?_⟩
    · exact Nat.ne_of_lt (Nat.lt_of_lt_of_le (hleaves.fresh x hx).2 (hfresh y hy))
    · rcases List.mem_append.mp hmem with hmem | hmem
      · exact (hleaves.fresh itemGUID hmem).1
      · exact Nat.le_trans hleaves.nextGuid (hfresh itemGUID hmem)
    · rw [← List.append_assoc, List.append_assoc (resolvedGuids (g.events i))]
      refine (hleaves.account.append_right _).trans ?_
      rw [List.append_assoc]
      exact haccount.append_left _

/-- **The protocol of loot rolls.**  In a run where the players keep to it, the numbers of a roll
are those of its votes, the voters are the members who may have the item, first votes are final,
and each roll is resolved once: by the last vote, or by the timer. -/
theorem loot_roll_protocol (g : Group) (hnone : g.rolls = []) (inputs : List RollInput)
    (hproper : Along Group.step Proper g inputs) :
    RollsSound (exec Group.step g inputs) ∧ Along Group.step StepSound g inputs ∧
      (startedGuids (outputs Group.step Group.events g inputs)).Nodup ∧
      (startedGuids (outputs Group.step Group.events g inputs)).Perm
        (resolvedGuids (outputs Group.step Group.events g inputs) ++
          openGuids (exec Group.step g inputs)) := by
  have hsound : RollsSound g := by
    constructor
    case distinct => exact hnone ▸ List.nodup_nil
    all_goals
      rw [hnone]
      exact fun r hr => absurd hr List.not_mem_nil
  have hstep : ∀ g i, RollsSound g → Proper g i → RollsSound (g.step i) ∧ StepSound g i :=
    fun g i h hproper => (leaves_of_proper h hproper).sound h
  obtain ⟨hnodup, -, haccount⟩ := account_run hsound hproper
  refine ⟨exec_invariant (fun g i h hproper => (hstep g i h hproper).1) hsound hproper,
    Along.of_invariant hstep hsound hproper, hnodup, ?_⟩
  rwa [openGuids, hnone] at haccount

section example_group

/-- Three members, who all stay near, and a loot of one green item. -/
def threeMembers : Group := ⟨[1, 2, 3], [], 2, 2, 0, 0, by decide, by decide⟩

def allNear : Party := ⟨fun _ => true, fun _ => true, fun _ => false⟩

def greenLoot : Loot := ⟨7, [⟨false, false, some ⟨2, 0, 0, false⟩, fun _ => true⟩], []⟩

def evenDice : Dice := fun _ player => 10 * player

theorem proper_lootRoll {dice : Dice} {itemGUID : ObjectGuid} {choice : ℕ}
    (hroll : g.getRoll itemGUID = some r) (hwaits : r.playerVote.lookup player = some .notEmitedYet)
    (hallowed : (voteOf choice).all (allows r.rollVoteMask) = true) (hitems : r.itemsEmpty = false) :
    Proper g (.lootRoll dice player itemGUID choice) := by
  intro r' vote vote' _ hroll' hvote hchoice
  obtain rfl := Option.some.inj (hroll.symm.trans hroll')
  rw [hwaits] at hvote
  rw [hchoice] at hallowed
  exact ⟨(Option.some.inj hvote).symm, hallowed, hitems⟩

/-- The first needs the item, the third leaves, the second passes. -/
def threeVotes : List RollInput :=
  [.groupLoot allNear greenLoot, .lootRoll evenDice 1 0 1, .removeMember evenDice 3 false,
    .lootRoll evenDice 2 0 0]

theorem loot_roll_protocol_three :
    (startedGuids (outputs Group.step Group.events threeMembers threeVotes)).Perm
      (resolvedGuids (outputs Group.step Group.events threeMembers threeVotes) ++
        openGuids (exec Group.step threeMembers threeVotes)) := by
  have hrun : Along Group.step Proper threeMembers threeVotes := by
    refine ⟨fun item _ hall => ?_, proper_lootRoll rfl rfl rfl rfl, fun _ => ⟨by decide, rfl, ?_⟩,
      proper_lootRoll rfl rfl rfl rfl, trivial⟩
    · obtain ⟨-, ⟨member, hmember, hrolls⟩, hpass⟩ := hall
      exact Bool.false_ne_true (hpass member hmember hrolls)
    · intro r hr _
      obtain rfl := List.mem_singleton.mp hr
      exact ⟨2, by decide, rfl⟩
  exact (loot_roll_protocol threeMembers rfl threeVotes hrun).2.2.2

/-- **A player may vote again**: who passes and then needs the item counts twice, and with a third
vote of his the roll ends, though the others have not voted. -/
theorem repeated_vote_is_counted :
    ¬ RollsSound (exec Group.step threeMembers
      [.groupLoot allNear greenLoot, .lootRoll evenDice 1 0 0, .lootRoll evenDice 1 0 1]) ∧
    resolvedGuids (outputs Group.step Group.events threeMembers
      [.groupLoot allNear greenLoot, .lootRoll evenDice 1 0 0, .lootRoll evenDice 1 0 1,
        .lootRoll evenDice 1 0 2]) = [0] := by
  refine ⟨fun h => ?_, by decide⟩
  have hpass := (h.isOpen _ (List.mem_singleton_self _)).counted.pass
  revert hpass
  decide

end example_group

end HungerGames.Groups
