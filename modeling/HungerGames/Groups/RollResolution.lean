/-
# How a roll is resolved (`CountTheRoll`)

When a roll is resolved random numbers are drawn for the votes that count, and the player with the
best number wins.  If he is found he gets the item, or what it is disenchanted into; if he cannot
store the item it is left to all.  If all pass it is left to all, too.

The totals of the roll decide which votes count, not the votes themselves.  `Resolved` says what
should come of a roll that is still valid, and `resolved_iff` when it does: when the totals and the
votes agree, nobody has taken the item meanwhile, and the player whose number is best is there, with
room for what the item is disenchanted into.
-/
import HungerGames.Groups.Rolls
import HungerGames.Looting.Deliveries

namespace HungerGames.Groups

open HungerGames.System

/-! ## 1. Players and what they get -/

/-- A player who is found and has a session.  `fits` is whether he can store so many of an item
after he has stored others. -/
structure Looter where
  player : Looting.Player
  fits : List (ℕ × ℕ) → ℕ × ℕ → Bool

/-- The items that a player is given, and how many of each. -/
structure Handed where
  stored : List (ℕ × ℕ)
  mailed : List (ℕ × ℕ)
deriving DecidableEq

def Handed.nothing : Handed := ⟨[], []⟩

/-- `AutoStoreLoot`: what cannot be stored is left out. -/
def Looter.autoStoreLoot (looter : Looter) : List (ℕ × ℕ) → List (ℕ × ℕ) → List (ℕ × ℕ)
  | stored, [] => stored
  | stored, product :: products =>
    looter.autoStoreLoot (if looter.fits stored product then stored ++ [product] else stored)
      products

/-! ## 2. `CountTheRoll` -/

inductive RollEnd where
  | allPassed
  | won (guid : ObjectGuid) (looter : Looter)
  | disenchanted (guid : ObjectGuid) (looter : Looter)
  /-- The winner is not found, or there is none. -/
  | lost

namespace RollEnd

/-- What it is for the loot. -/
def result : RollEnd → Looting.Loot.RollResult
  | .allPassed => .allPassed
  | .won _ looter => .won looter.player
  | .disenchanted _ looter => .disenchanted looter.player
  | .lost => .lost

/-- What is given to a player, where `products` is what the item is disenchanted into. -/
def handed (products : List (ℕ × ℕ)) (item : Looting.LootItem) (player : ObjectGuid) :
    RollEnd → Handed
  | .won guid looter =>
    if player = guid ∧ looter.player.canStoreNewItem item.itemid item.count then
      ⟨[(item.itemid, item.count)], []⟩
    else .nothing
  | .disenchanted guid looter =>
    if player = guid then
      if looter.player.canStoreNewItem item.itemid item.count then
        ⟨looter.autoStoreLoot [] products, []⟩
      else ⟨[], products⟩
    else .nothing
  | _ => .nothing

end RollEnd

/-- What comes of a roll: who is said to have won it, the loot, and what the players get. -/
structure Resolution where
  won : Option (ObjectGuid × ℕ × RollVote)
  loot : Looting.Loot
  handed : ObjectGuid → Handed

namespace Roll

variable (dice : ObjectGuid → ℕ) (findPlayer : ObjectGuid → Option Looter)

/-- The branches of `CountTheRoll`. -/
def rollEnd (r : Roll) : RollEnd :=
  if 0 < r.totalNeed then
    match r.winner dice with
    | none => .lost
    | some (guid, _, _) =>
      match findPlayer guid with
      | none => .lost
      | some looter => .won guid looter
  else if 0 < r.totalGreed then
    match r.winner dice with
    | none => .lost
    | some (guid, _, rollvote) =>
      match findPlayer guid with
      | none => .lost
      | some looter =>
        if rollvote = .greed then .won guid looter
        else if rollvote = .disenchant then .disenchanted guid looter
        else .lost
  else .allPassed

/-- `CountTheRoll` of a roll that is valid, for an item of the loot. -/
def resolve (products : List (ℕ × ℕ)) (loot : Looting.Loot) (item : Looting.LootItem) (r : Roll) :
    Resolution where
  won := r.winner dice
  loot := loot.countTheRoll r.itemSlot (r.rollEnd dice findPlayer).result
  handed player := (r.rollEnd dice findPlayer).handed products item player

end Roll

/-! ## 3. What should come of it -/

abbrev Votes := SortedMap ObjectGuid RollVote

/-- **The votes that count**: need, or else greed and disenchant. -/
def Counts (votes : Votes) : RollVote → Prop
  | .need => True
  | .greed => ∀ player, votes.lookup player ≠ some .need
  | .disenchant => ∀ player, votes.lookup player ≠ some .need
  | _ => False

/-- A player with a vote that counts, and the highest number. -/
structure Entitled (votes : Votes) (dice : ObjectGuid → ℕ) (player : ObjectGuid)
    (vote : RollVote) : Prop where
  voted : votes.lookup player = some vote
  counts : Counts votes vote
  highest : ∀ other vote', votes.lookup other = some vote' → Counts votes vote' →
    dice other ≤ dice player

/-- The first of those, in the order of the votes. -/
structure Leads (votes : Votes) (dice : ObjectGuid → ℕ) (player : ObjectGuid)
    (vote : RollVote) : Prop extends Entitled votes dice player vote where
  first : ∀ other vote', other < player → votes.lookup other = some vote' → Counts votes vote' →
    dice other < dice player

/-- What a player has who has won an item: the item, or all it is disenchanted into. -/
def Holds (products : List (ℕ × ℕ)) (item : Looting.LootItem) (vote : RollVote)
    (handed : Handed) : Prop :=
  if vote = .disenchant then handed = ⟨products, []⟩ ∨ handed = ⟨[], products⟩
  else handed = ⟨[(item.itemid, item.count)], []⟩

/-- **What should come of a roll** for an item. -/
structure Resolved (dice : ObjectGuid → ℕ) (products : List (ℕ × ℕ)) (loot : Looting.Loot)
    (item : Looting.LootItem) (r : Roll) (after : Resolution) : Prop where
  winner : ∀ player number vote, after.won = some (player, number, vote) →
    Entitled r.playerVote dice player vote ∧ number = dice player
  given : ∀ player vote, r.playerVote.lookup player = some vote → Counts r.playerVote vote →
    after.won ≠ none
  nobodyElse : ∀ player, (∀ number vote, after.won ≠ some (player, number, vote)) →
    after.handed player = .nothing
  otherSlots : ∀ place, place ≠ loot.placeOf r.itemSlot →
    after.loot.itemAt place = loot.itemAt place
  fresh : item.isLooted = false
  slot :
    (after.loot.itemAt (loot.placeOf r.itemSlot) = some { item with isLooted := true } ∧
      after.loot.unlootedCount = (loot.unlootedCount + (2 ^ 8 - 1)) % 2 ^ 8 ∧
      ∃ player number vote, after.won = some (player, number, vote) ∧
        Holds products item vote (after.handed player)) ∨
    (after.loot.itemAt (loot.placeOf r.itemSlot) = some { item with isBlocked := false } ∧
      after.loot.unlootedCount = loot.unlootedCount ∧
      ∀ player, after.handed player = .nothing)

/-- **When it does**: the totals agree with the votes, the item is still there, and the player who
leads is found and has room. -/
structure Resolvable (dice : ObjectGuid → ℕ) (findPlayer : ObjectGuid → Option Looter)
    (products : List (ℕ × ℕ)) (item : Looting.LootItem) (r : Roll) : Prop where
  need : 0 < r.totalNeed ↔ ∃ player, r.playerVote.lookup player = some .need
  greed : r.totalNeed = 0 → (0 < r.totalGreed ↔ ∃ player vote,
    r.playerVote.lookup player = some vote ∧ (vote = .greed ∨ vote = .disenchant))
  fresh : item.isLooted = false
  found : ∀ player vote, Leads r.playerVote dice player vote →
    ∃ looter, findPlayer player = some looter ∧
      (vote = .disenchant → looter.player.canStoreNewItem item.itemid item.count = true →
        ∀ before product after, products = before ++ product :: after →
          looter.fits before product = true)

/-! ## 4. The best number -/

section Best

variable {counts : RollVote → Bool} {dice : ObjectGuid → ℕ}

/-- One vote more. -/
def better (counts : RollVote → Bool) (dice : ObjectGuid → ℕ) (best : ObjectGuid × ℕ × RollVote)
    (x : ObjectGuid × RollVote) : ObjectGuid × ℕ × RollVote :=
  if counts x.2 ∧ best.2.1 < dice x.1 then (x.1, dice x.1, x.2) else best

/-- **The best of the votes so far**: the first player with no number as long as none counts. -/
def IsBest (counts : RollVote → Bool) (dice : ObjectGuid → ℕ) (first : ObjectGuid)
    (votes : List (ObjectGuid × RollVote)) (best : ObjectGuid × ℕ × RollVote) : Prop :=
  ((∀ x ∈ votes, counts x.2 = false) ∧ best = (first, 0, .notValid)) ∨
    ∃ x ∈ votes, counts x.2 = true ∧ best = (x.1, dice x.1, x.2) ∧
      ∀ y ∈ votes, counts y.2 = true → dice y.1 ≤ dice x.1 ∧ (y.1 < x.1 → dice y.1 < dice x.1)

theorem isBest_foldl (hdice : ∀ player, 0 < dice player) (first : ObjectGuid)
    (rest : List (ObjectGuid × RollVote)) : ∀ {before : List (ObjectGuid × RollVote)}
    {best : ObjectGuid × ℕ × RollVote}, (before ++ rest).Pairwise (fun x y => x.1 < y.1) →
    IsBest counts dice first before best →
    IsBest counts dice first (before ++ rest) (rest.foldl (better counts dice) best) := by
  induction rest with
  | nil =>
    intro before best _ h
    simpa using h
  | cons x rest ih =>
    intro before best hsorted h
    have hlater : ∀ y ∈ before, y.1 < x.1 := fun y hy =>
      (List.pairwise_append.mp hsorted).2.2 y hy x List.mem_cons_self
    have hsplit : before ++ x :: rest = (before ++ [x]) ++ rest := by simp
    rw [hsplit] at hsorted ⊢
    refine ih hsorted ?_
    by_cases hcounts : counts x.2 = true
    · rcases h with ⟨hnone, rfl⟩ | ⟨z, hz, hzcounts, rfl, hbest⟩
      · refine Or.inr ⟨x, by simp, hcounts, ?_, fun y hy hycounts => ?_⟩
        · simp only [better, hcounts, hdice, and_self, if_true]
        · rcases List.mem_append.mp hy with hy | hy
          · rw [hnone y hy] at hycounts
            nomatch hycounts
          · obtain rfl := List.mem_singleton.mp hy
            exact ⟨Nat.le_refl _, fun h => absurd h (Nat.lt_irrefl _)⟩
      · by_cases hlt : dice z.1 < dice x.1
        · refine Or.inr ⟨x, by simp, hcounts, ?_, fun y hy hycounts => ?_⟩
          · simp only [better, hcounts, hlt, and_self, if_true]
          · rcases List.mem_append.mp hy with hy | hy
            · have hle := (hbest y hy hycounts).1
              exact ⟨by omega, fun _ => by omega⟩
            · obtain rfl := List.mem_singleton.mp hy
              exact ⟨Nat.le_refl _, fun h => absurd h (Nat.lt_irrefl _)⟩
        · refine Or.inr ⟨z, by simp [hz], hzcounts, ?_, fun y hy hycounts => ?_⟩
          · simp only [better, hlt, and_false, if_false]
          · rcases List.mem_append.mp hy with hy | hy
            · exact hbest y hy hycounts
            · obtain rfl := List.mem_singleton.mp hy
              exact ⟨Nat.le_of_not_lt hlt, fun h => absurd h (Nat.lt_asymm (hlater z hz))⟩
    · have hsame : better counts dice best x = best := by simp [better, hcounts]
      rw [hsame]
      rcases h with ⟨hnone, hstart⟩ | ⟨z, hz, hzcounts, heq, hbest⟩
      · refine Or.inl ⟨fun y hy => ?_, hstart⟩
        rcases List.mem_append.mp hy with hy | hy
        · exact hnone y hy
        · obtain rfl := List.mem_singleton.mp hy
          exact Bool.eq_false_iff.mpr hcounts
      · refine Or.inr ⟨z, by simp [hz], hzcounts, heq, fun y hy hycounts => ?_⟩
        rcases List.mem_append.mp hy with hy | hy
        · exact hbest y hy hycounts
        · obtain rfl := List.mem_singleton.mp hy
          exact absurd hycounts hcounts

/-- **Who has the best number**, if there are votes. -/
theorem best_spec (counts : RollVote → Bool) (hdice : ∀ player, 0 < dice player) (votes : Votes) :
    (votes.entries = [] ∧ Roll.best counts dice votes.entries = none) ∨
      ∃ first best, Roll.best counts dice votes.entries = some best ∧
        IsBest counts dice first votes.entries best := by
  cases hentries : votes.entries with
  | nil => exact Or.inl ⟨rfl, rfl⟩
  | cons first rest =>
    refine Or.inr ⟨first.1, _, rfl, ?_⟩
    have hsorted := hentries ▸ votes.sorted
    have hstart : IsBest counts dice first.1 [] (first.1, 0, .notValid) := Or.inl ⟨nofun, rfl⟩
    exact isBest_foldl hdice first.1 (first :: rest) hsorted hstart

end Best

variable {dice : ObjectGuid → ℕ} {findPlayer : ObjectGuid → Option Looter} {r : Roll}
variable {products : List (ℕ × ℕ)} {loot : Looting.Loot} {item : Looting.LootItem}

/-- Nobody has a number: there are no votes, or the first player is said to have won. -/
def NoNumber (dice : ObjectGuid → ℕ) (r : Roll) : Prop :=
  r.winner dice = none ∨ ∃ first, r.winner dice = some (first, 0, .notValid)

/-- **Who wins by need**, where the total says that somebody needs the item. -/
theorem winner_need (hdice : ∀ player, 0 < dice player) (hneed : 0 < r.totalNeed) :
    ((∀ player, r.playerVote.lookup player ≠ some .need) ∧ NoNumber dice r) ∨
      ∃ player, Leads r.playerVote dice player .need ∧
        r.winner dice = some (player, dice player, .need) := by
  have hwinner : r.winner dice = Roll.best (· = .need) dice r.playerVote.entries := by
    simp only [Roll.winner, if_pos hneed]
  rcases best_spec (· = .need) hdice r.playerVote with
    ⟨hempty, hnone⟩ | ⟨first, best, hbest, hisBest⟩
  · refine Or.inl ⟨fun player h => ?_, Or.inl (hwinner.trans hnone)⟩
    rw [SortedMap.lookup_eq_some, hempty] at h
    nomatch h
  · rw [hbest] at hwinner
    rcases hisBest with ⟨hnone, rfl⟩ | ⟨x, hx, hneeds, rfl, hhighest⟩
    · refine Or.inl ⟨fun player h => ?_, Or.inr ⟨first, hwinner⟩⟩
      exact of_decide_eq_false (hnone _ (SortedMap.lookup_eq_some.mp h)) rfl
    · have hvote : x.2 = .need := of_decide_eq_true hneeds
      have hvoted : r.playerVote.lookup x.1 = some .need := by
        rw [← hvote]
        exact SortedMap.lookup_eq_some.mpr hx
      have honly : ∀ vote, Counts r.playerVote vote → vote = .need := by
        intro vote hcounts
        cases vote with
        | need => rfl
        | greed => exact absurd hvoted (hcounts x.1)
        | disenchant => exact absurd hvoted (hcounts x.1)
        | pass => exact hcounts.elim
        | notEmitedYet => exact hcounts.elim
        | notValid => exact hcounts.elim
      refine Or.inr ⟨x.1, ⟨⟨hvoted, trivial, fun other vote hother hcounts => ?_⟩,
        fun other vote hlt hother hcounts => ?_⟩, by rw [hwinner, hvote]⟩
      · obtain rfl := honly vote hcounts
        exact (hhighest _ (SortedMap.lookup_eq_some.mp hother) rfl).1
      · obtain rfl := honly vote hcounts
        exact (hhighest _ (SortedMap.lookup_eq_some.mp hother) rfl).2 hlt

/-- **Who wins by greed**, where the totals say that nobody needs the item and somebody is greedy. -/
theorem winner_greed (hdice : ∀ player, 0 < dice player) (hneed : r.totalNeed = 0)
    (hgreed : 0 < r.totalGreed) :
    ((∀ player vote, r.playerVote.lookup player = some vote →
        ¬ (vote = .greed ∨ vote = .disenchant)) ∧ NoNumber dice r) ∨
      ∃ player vote, r.playerVote.lookup player = some vote ∧
        (vote = .greed ∨ vote = .disenchant) ∧
        ((∀ other, r.playerVote.lookup other ≠ some .need) →
          Leads r.playerVote dice player vote) ∧
        r.winner dice = some (player, dice player, vote) := by
  have hwinner : r.winner dice =
      Roll.best (fun vote => vote = .greed ∨ vote = .disenchant) dice r.playerVote.entries := by
    simp only [Roll.winner, hneed, Nat.lt_irrefl, if_false, if_pos hgreed]
  rcases best_spec (fun vote => vote = .greed ∨ vote = .disenchant) hdice r.playerVote with
    ⟨hempty, hnone⟩ | ⟨first, best, hbest, hisBest⟩
  · refine Or.inl ⟨fun player vote h => ?_, Or.inl (hwinner.trans hnone)⟩
    rw [SortedMap.lookup_eq_some, hempty] at h
    nomatch h
  · rw [hbest] at hwinner
    rcases hisBest with ⟨hnone, rfl⟩ | ⟨x, hx, hgreedy, rfl, hhighest⟩
    · refine Or.inl ⟨fun player vote h => ?_, Or.inr ⟨first, hwinner⟩⟩
      exact of_decide_eq_false (hnone _ (SortedMap.lookup_eq_some.mp h))
    · have hvote := of_decide_eq_true hgreedy
      have hvoted := SortedMap.lookup_eq_some.mpr hx
      refine Or.inr ⟨x.1, x.2, hvoted, hvote, fun hnobody => ?_, hwinner⟩
      have hcountsAll : ∀ vote, Counts r.playerVote vote → ∀ other,
          r.playerVote.lookup other = some vote → vote = .greed ∨ vote = .disenchant := by
        intro vote hcounts other hother
        cases vote with
        | need => exact absurd hother (hnobody other)
        | greed => exact Or.inl rfl
        | disenchant => exact Or.inr rfl
        | pass => exact hcounts.elim
        | notEmitedYet => exact hcounts.elim
        | notValid => exact hcounts.elim
      have hcounts : Counts r.playerVote x.2 := by
        rcases hvote with hvote | hvote
        · rw [hvote]
          exact hnobody
        · rw [hvote]
          exact hnobody
      refine ⟨⟨hvoted, hcounts, fun other vote hother hcounts => ?_⟩,
        fun other vote hlt hother hcounts => ?_⟩
      · exact (hhighest _ (SortedMap.lookup_eq_some.mp hother)
          (decide_eq_true (hcountsAll vote hcounts other hother))).1
      · exact (hhighest _ (SortedMap.lookup_eq_some.mp hother)
          (decide_eq_true (hcountsAll vote hcounts other hother))).2 hlt

variable {player : ObjectGuid} {vote : RollVote}

/-- One player leads. -/
theorem Leads.unique {votes : Votes} {player' : ObjectGuid} {vote' : RollVote}
    (h : Leads votes dice player vote) (h' : Leads votes dice player' vote') :
    player = player' := by
  rcases Nat.lt_trichotomy player player' with hlt | heq | hlt
  · have hless := h'.first player vote hlt h.voted h.counts
    have hle := h.highest player' vote' h'.voted h'.counts
    omega
  · exact heq
  · have hless := h.first player' vote' hlt h'.voted h'.counts
    have hle := h'.highest player vote h.voted h.counts
    omega

/-! ## 5. The loot -/

/-- What a result does to the slot, and to the number of items that are left. -/
def slotAfter (item : Looting.LootItem) (count : ℕ) : Looting.Loot.RollResult → Looting.LootItem × ℕ
  | .allPassed => ({ item with isBlocked := false }, count)
  | .won player =>
    if player.canStoreNewItem item.itemid item.count then
      ({ item with isLooted := true }, (count + (2 ^ 8 - 1)) % 2 ^ 8)
    else ({ item with isBlocked := false }, count)
  | .disenchanted _ => ({ item with isLooted := true }, (count + (2 ^ 8 - 1)) % 2 ^ 8)
  | .lost => (item, count)

/-- **The loot after a roll**: the slot, the number, and the other slots as they were. -/
theorem countTheRoll_spec {itemSlot : ℕ}
    (hslot : loot.itemAt (loot.placeOf itemSlot) = some item)
    (result : Looting.Loot.RollResult) :
    (loot.countTheRoll itemSlot result).itemAt (loot.placeOf itemSlot) =
        some (slotAfter item loot.unlootedCount result).1 ∧
      (loot.countTheRoll itemSlot result).unlootedCount =
        (slotAfter item loot.unlootedCount result).2 ∧
      ∀ place, place ≠ loot.placeOf itemSlot →
        (loot.countTheRoll itemSlot result).itemAt place = loot.itemAt place := by
  have hmodify : ∀ (loot' : Looting.Loot) (f : Looting.LootItem → Looting.LootItem),
      loot'.itemAt = loot.itemAt →
      (loot'.modifyAt (loot.placeOf itemSlot) f).itemAt (loot.placeOf itemSlot) = some (f item) ∧
        ∀ place, place ≠ loot.placeOf itemSlot →
          (loot'.modifyAt (loot.placeOf itemSlot) f).itemAt place = loot.itemAt place := by
    intro loot' f hsame
    refine ⟨?_, fun place hne => ?_⟩
    · rw [Looting.Loot.itemAt_modifyAt, if_pos rfl, hsame, hslot]
      rfl
    · rw [Looting.Loot.itemAt_modifyAt, if_neg hne, hsame]
  simp only [Looting.Loot.countTheRoll, hslot]
  cases result with
  | allPassed =>
    obtain ⟨hitem, hother⟩ := hmodify loot (fun item => { item with isBlocked := false }) rfl
    exact ⟨hitem, Looting.Loot.modifyAt_unlootedCount .., hother⟩
  | won player =>
    simp only [slotAfter]
    split
    · obtain ⟨extra, -, hdeliver⟩ := loot.deliver_eq (loot.placeOf itemSlot) item player.guid
      obtain ⟨hitem, hother⟩ := hmodify { loot with delivered := extra ++ loot.delivered }
        (fun item => { item with isLooted := true }) rfl
      rw [hdeliver]
      refine ⟨hitem, ?_, hother⟩
      simp only [Looting.Loot.countLess, Looting.Loot.modifyAt_unlootedCount]
    · obtain ⟨hitem, hother⟩ := hmodify loot (fun item => { item with isBlocked := false }) rfl
      exact ⟨hitem, Looting.Loot.modifyAt_unlootedCount .., hother⟩
  | disenchanted player =>
    obtain ⟨hitem, hother⟩ := hmodify
      { loot with delivered := (loot.placeOf itemSlot, player.guid) :: loot.delivered }
      (fun item => { item with isLooted := true }) rfl
    refine ⟨hitem, ?_, hother⟩
    simp only [Looting.Loot.countLess, Looting.Loot.modifyAt_unlootedCount, slotAfter]
  | lost => exact ⟨hslot, rfl, fun _ _ => rfl⟩

/-- **All is stored** if each product fits after those before it. -/
theorem autoStoreLoot_eq_iff (looter : Looter) (products : List (ℕ × ℕ)) : ∀ stored,
    looter.autoStoreLoot stored products = stored ++ products ↔
      ∀ before product after, products = before ++ product :: after →
        looter.fits (stored ++ before) product = true := by
  have hlength : ∀ (products stored : List (ℕ × ℕ)),
      (looter.autoStoreLoot stored products).length ≤ stored.length + products.length := by
    intro products
    induction products with
    | nil => exact fun _ => Nat.le_refl _
    | cons product products ih =>
      intro stored
      refine (ih _).trans ?_
      split
      · simp only [List.length_append, List.length_cons, List.length_nil]
        omega
      · simp only [List.length_cons]
        omega
  induction products with
  | nil =>
    refine fun stored => ⟨fun _ before product after h => ?_, fun _ => (List.append_nil stored).symm⟩
    exact absurd h.symm (by simp)
  | cons product products ih =>
    intro stored
    have hsplit : stored ++ product :: products = (stored ++ [product]) ++ products := by simp
    by_cases hfits : looter.fits stored product = true
    · simp only [Looter.autoStoreLoot, hfits, if_true]
      rw [hsplit, ih]
      constructor
      · intro h before product' after heq
        cases before with
        | nil =>
          obtain ⟨rfl, -⟩ := List.cons.inj heq
          simpa using hfits
        | cons first before =>
          obtain ⟨rfl, htail⟩ := List.cons.inj heq
          simpa using h before product' after htail
      · intro h before product' after heq
        simpa using h (product :: before) product' after (by rw [heq]; rfl)
    · simp only [Looter.autoStoreLoot, hfits, Bool.false_eq_true, if_false]
      refine ⟨fun h => ?_, fun h => absurd ?_ hfits⟩
      · have hle := hlength products stored
        rw [h] at hle
        simp only [List.length_append, List.length_cons] at hle
        omega
      · simpa using h [] product products rfl

/-! ## 6. When a roll is resolved as it should -/

section Resolve

variable {loot : Looting.Loot}

theorem slot_of_resolved (hslot : loot.itemAt (loot.placeOf r.itemSlot) = some item)
    (hblocked : item.isBlocked = true)
    (h : Resolved dice products loot item r (r.resolve dice findPlayer products loot item)) :
    r.rollEnd dice findPlayer ≠ .lost := by
  intro hlost
  obtain ⟨hitem, -, -⟩ := countTheRoll_spec hslot (r.rollEnd dice findPlayer).result
  rw [hlost] at hitem
  rcases h.slot with ⟨hlooted, -, -⟩ | ⟨hfree, -, -⟩
  · simp only [Roll.resolve, hlost] at hlooted
    have heq := congrArg Looting.LootItem.isLooted (Option.some.inj (hitem.symm.trans hlooted))
    exact Bool.false_ne_true (h.fresh.symm.trans heq)
  · simp only [Roll.resolve, hlost] at hfree
    have heq := congrArg Looting.LootItem.isBlocked (Option.some.inj (hitem.symm.trans hfree))
    exact Bool.false_ne_true (hblocked.symm.trans heq).symm

/-- Where the totals say that somebody has won, somebody has a number. -/
theorem number_of_resolved (hdice : ∀ player, 0 < dice player)
    (hslot : loot.itemAt (loot.placeOf r.itemSlot) = some item) (hblocked : item.isBlocked = true)
    (h : Resolved dice products loot item r (r.resolve dice findPlayer products loot item))
    (htotal : 0 < r.totalNeed ∨ 0 < r.totalGreed) : ¬ NoNumber dice r := by
  rintro (hnone | ⟨first, hfirst⟩)
  · refine slot_of_resolved hslot hblocked h ?_
    simp only [Roll.rollEnd, hnone]
    rcases htotal with htotal | htotal
    · rw [if_pos htotal]
    · rw [if_pos htotal, ite_self]
  · have hzero := (h.winner first 0 .notValid hfirst).2
    exact absurd (hdice first) (by omega)

/-- The player who leads is found, with room for what he gets. -/
theorem found_of_resolved (hslot : loot.itemAt (loot.placeOf r.itemSlot) = some item)
    (hblocked : item.isBlocked = true)
    (h : Resolved dice products loot item r (r.resolve dice findPlayer products loot item))
    (hwon : r.winner dice = some (player, dice player, vote))
    (hneed : 0 < r.totalNeed → vote = .need)
    (hgreed : r.totalNeed = 0 → 0 < r.totalGreed ∧ (vote = .greed ∨ vote = .disenchant)) :
    ∃ looter, findPlayer player = some looter ∧
      (vote = .disenchant → looter.player.canStoreNewItem item.itemid item.count = true →
        ∀ before product after, products = before ++ product :: after →
          looter.fits before product = true) := by
  have hlost := slot_of_resolved hslot hblocked h
  cases hfound : findPlayer player with
  | none =>
    refine absurd ?_ hlost
    simp only [Roll.rollEnd, hwon, hfound]
    rcases Nat.eq_zero_or_pos r.totalNeed with hzero | hpos
    · rw [if_pos (hgreed hzero).1, ite_self]
    · rw [if_pos hpos]
  | some looter =>
    refine ⟨looter, rfl, fun hdisenchant hstore => ?_⟩
    have hzero : r.totalNeed = 0 := by
      by_contra hne
      have hpos := hneed (Nat.pos_of_ne_zero hne)
      rw [hdisenchant] at hpos
      nomatch hpos
    have hend : r.rollEnd dice findPlayer = .disenchanted player looter := by
      simp [Roll.rollEnd, hwon, hfound, hzero, (hgreed hzero).1, hdisenchant]
    have hall : looter.autoStoreLoot [] products = products := by
      rcases h.slot with ⟨-, -, winner, number, vote', hwon', hholds⟩ | ⟨hfree, -, -⟩
      · have heq := Option.some.inj (hwon.symm.trans hwon')
        obtain ⟨rfl, hrest⟩ := Prod.mk.inj heq
        obtain ⟨-, rfl⟩ := Prod.mk.inj hrest
        simp only [Roll.resolve, hend, RollEnd.handed, if_true, hstore, Holds, hdisenchant] at hholds
        rcases hholds with hholds | hholds
        · exact (Handed.mk.inj hholds).1
        · obtain ⟨hstored, hmailed⟩ := Handed.mk.inj hholds
          rw [← hmailed]
          rfl
      · obtain ⟨hitem, -, -⟩ := countTheRoll_spec hslot (r.rollEnd dice findPlayer).result
        simp only [Roll.resolve] at hfree
        rw [hend] at hitem hfree
        have heq := congrArg Looting.LootItem.isLooted (Option.some.inj (hitem.symm.trans hfree))
        exact absurd (heq.trans h.fresh) (by simp [slotAfter, RollEnd.result])
    have hfits := (autoStoreLoot_eq_iff looter products []).mp (by simpa using hall)
    simpa using hfits

/-- **What has to hold.** -/
theorem resolvable_of_resolved (hdice : ∀ player, 0 < dice player)
    (hslot : loot.itemAt (loot.placeOf r.itemSlot) = some item) (hblocked : item.isBlocked = true)
    (h : Resolved dice products loot item r (r.resolve dice findPlayer products loot item)) :
    Resolvable dice findPlayer products item r := by
  have hneeds : 0 < r.totalNeed ↔ ∃ player, r.playerVote.lookup player = some .need := by
    constructor
    · intro hpos
      rcases winner_need hdice hpos with ⟨-, hno⟩ | ⟨player, hleads, -⟩
      · exact absurd hno (number_of_resolved hdice hslot hblocked h (Or.inl hpos))
      · exact ⟨player, hleads.voted⟩
    · rintro ⟨player, hvoted⟩
      by_contra hnot
      have hzero : r.totalNeed = 0 := by omega
      have hsome := h.given player .need hvoted trivial
      rcases Nat.eq_zero_or_pos r.totalGreed with hgreed | hgreed
      · exact hsome (by simp [Roll.resolve, Roll.winner, hzero, hgreed])
      · rcases winner_greed hdice hzero hgreed with ⟨-, hno⟩ | ⟨winner, vote, -, hvote, -, hwon⟩
        · exact hno.elim (number_of_resolved hdice hslot hblocked h (Or.inr hgreed) <| Or.inl ·)
            (number_of_resolved hdice hslot hblocked h (Or.inr hgreed) <| Or.inr ·)
        · have hcounts := (h.winner winner _ vote hwon).1.counts
          rcases hvote with rfl | rfl
          · exact hcounts player hvoted
          · exact hcounts player hvoted
  have hnobody : r.totalNeed = 0 → ∀ player, r.playerVote.lookup player ≠ some .need := by
    intro hzero player hvoted
    have hpos := hneeds.mpr ⟨player, hvoted⟩
    omega
  have hgreeds : r.totalNeed = 0 → (0 < r.totalGreed ↔ ∃ player vote,
      r.playerVote.lookup player = some vote ∧ (vote = .greed ∨ vote = .disenchant)) := by
    intro hzero
    constructor
    · intro hpos
      rcases winner_greed hdice hzero hpos with ⟨-, hno⟩ | ⟨player, vote, hvoted, hvote, -⟩
      · exact absurd hno (number_of_resolved hdice hslot hblocked h (Or.inr hpos))
      · exact ⟨player, vote, hvoted, hvote⟩
    · rintro ⟨player, vote, hvoted, hvote⟩
      by_contra hnot
      have hgreed : r.totalGreed = 0 := by omega
      refine h.given player vote hvoted ?_ (by simp [Roll.resolve, Roll.winner, hzero, hgreed])
      rcases hvote with rfl | rfl
      · exact hnobody hzero
      · exact hnobody hzero
  refine ⟨hneeds, hgreeds, h.fresh, fun player vote hleads => ?_⟩
  rcases Nat.eq_zero_or_pos r.totalNeed with hzero | hpos
  · have hvote : vote = .greed ∨ vote = .disenchant := by
      have hcounts := hleads.counts
      cases vote with
      | need => exact absurd hleads.voted (hnobody hzero player)
      | greed => exact Or.inl rfl
      | disenchant => exact Or.inr rfl
      | pass => exact hcounts.elim
      | notEmitedYet => exact hcounts.elim
      | notValid => exact hcounts.elim
    have hgreed := (hgreeds hzero).mpr ⟨player, vote, hleads.voted, hvote⟩
    rcases winner_greed hdice hzero hgreed with ⟨hnone, -⟩ | ⟨winner, vote', hvoted', -, hleads', hwon⟩
    · exact absurd hvote (hnone player vote hleads.voted)
    · obtain rfl := hleads.unique (hleads' (hnobody hzero))
      obtain rfl := Option.some.inj (hleads.voted.symm.trans hvoted')
      exact found_of_resolved hslot hblocked h hwon (fun hpos => by omega) fun _ => ⟨hgreed, hvote⟩
  · rcases winner_need hdice hpos with ⟨hnone, -⟩ | ⟨winner, hleads', hwon⟩
    · obtain ⟨needy, hneedy⟩ := hneeds.mp hpos
      exact absurd hneedy (hnone needy)
    · obtain rfl := hleads.unique hleads'
      obtain rfl := Option.some.inj (hleads.voted.symm.trans hleads'.voted)
      exact found_of_resolved hslot hblocked h hwon (fun _ => rfl) fun hzero => by omega

/-- Somebody has won, and is found. -/
theorem resolved_of_found (hslot : loot.itemAt (loot.placeOf r.itemSlot) = some item)
    (hfresh : item.isLooted = false) {looter : Looter}
    (hentitled : Entitled r.playerVote dice player vote)
    (hwon : r.winner dice = some (player, dice player, vote))
    (hend : vote ≠ .disenchant ∧ r.rollEnd dice findPlayer = .won player looter ∨
      vote = .disenchant ∧ r.rollEnd dice findPlayer = .disenchanted player looter)
    (hroom : vote = .disenchant → looter.player.canStoreNewItem item.itemid item.count = true →
      ∀ before product after, products = before ++ product :: after →
        looter.fits before product = true) :
    Resolved dice products loot item r (r.resolve dice findPlayer products loot item) := by
  obtain ⟨hitem, hcount, hother⟩ := countTheRoll_spec hslot (r.rollEnd dice findPlayer).result
  have hnot : ∀ other, (∀ number vote, r.winner dice ≠ some (other, number, vote)) →
      other ≠ player := by
    rintro other hother rfl
    exact hother _ _ hwon
  refine ⟨fun other number vote' h => ?_, fun _ _ _ _ h => ?_, fun other h => ?_, hother, hfresh, ?_⟩
  · obtain ⟨rfl, hrest⟩ := Prod.mk.inj (Option.some.inj (hwon.symm.trans h))
    obtain ⟨rfl, rfl⟩ := Prod.mk.inj hrest
    exact ⟨hentitled, rfl⟩
  · exact nomatch hwon.symm.trans h
  · have hne := hnot other h
    rcases hend with ⟨-, hend⟩ | ⟨-, hend⟩
    · simp [Roll.resolve, hend, RollEnd.handed, hne]
    · simp [Roll.resolve, hend, RollEnd.handed, hne]
  · by_cases hstore : looter.player.canStoreNewItem item.itemid item.count = true
    · refine Or.inl ?_
      rcases hend with ⟨hvote, hend⟩ | ⟨hvote, hend⟩
      · simp only [hend, RollEnd.result, slotAfter, hstore, if_true] at hitem hcount
        refine ⟨by simpa only [Roll.resolve, hend, RollEnd.result] using hitem,
          by simpa only [Roll.resolve, hend, RollEnd.result] using hcount, player, dice player, vote, hwon, ?_⟩
        simp [Holds, hvote, Roll.resolve, hend, RollEnd.handed, hstore]
      · simp only [hend, RollEnd.result, slotAfter] at hitem hcount
        refine ⟨by simpa only [Roll.resolve, hend, RollEnd.result] using hitem,
          by simpa only [Roll.resolve, hend, RollEnd.result] using hcount, player, dice player, vote, hwon, ?_⟩
        have hall := (autoStoreLoot_eq_iff looter products []).mpr
          (by simpa using hroom hvote hstore)
        simp only [List.nil_append] at hall
        simp [Holds, hvote, Roll.resolve, hend, RollEnd.handed, hstore, hall]
    · rcases hend with ⟨hvote, hend⟩ | ⟨hvote, hend⟩
      · simp only [hend, RollEnd.result, slotAfter, hstore, Bool.false_eq_true, if_false]
          at hitem hcount
        refine Or.inr ⟨by simpa only [Roll.resolve, hend, RollEnd.result] using hitem,
          by simpa only [Roll.resolve, hend, RollEnd.result] using hcount, fun other => ?_⟩
        simp [Roll.resolve, hend, RollEnd.handed, hstore]
      · simp only [hend, RollEnd.result, slotAfter] at hitem hcount
        refine Or.inl ⟨by simpa only [Roll.resolve, hend, RollEnd.result] using hitem,
          by simpa only [Roll.resolve, hend, RollEnd.result] using hcount, player, dice player, vote, hwon, ?_⟩
        simp [Holds, hvote, Roll.resolve, hend, RollEnd.handed, hstore]

/-- **What is enough.** -/
theorem resolved_of_resolvable (hdice : ∀ player, 0 < dice player)
    (hslot : loot.itemAt (loot.placeOf r.itemSlot) = some item)
    (h : Resolvable dice findPlayer products item r) :
    Resolved dice products loot item r (r.resolve dice findPlayer products loot item) := by
  rcases Nat.eq_zero_or_pos r.totalNeed with hzero | hpos
  · have hnobody : ∀ player, r.playerVote.lookup player ≠ some .need := by
      intro player hvoted
      have hpos := h.need.mpr ⟨player, hvoted⟩
      omega
    rcases Nat.eq_zero_or_pos r.totalGreed with hgreed | hgreed
    · have hend : r.rollEnd dice findPlayer = .allPassed := by simp [Roll.rollEnd, hzero, hgreed]
      have hwinner : r.winner dice = none := by simp [Roll.winner, hzero, hgreed]
      obtain ⟨hitem, hcount, hother⟩ := countTheRoll_spec hslot (r.rollEnd dice findPlayer).result
      rw [hend] at hitem hcount
      refine ⟨fun _ _ _ hwon => ?_, fun player vote hvoted hcounts _ => ?_, fun _ _ => ?_, hother,
        h.fresh, Or.inr ⟨?_, ?_, fun _ => ?_⟩⟩
      · exact nomatch hwinner.symm.trans hwon
      · have hnone : ¬ 0 < r.totalGreed := by omega
        refine hnone ((h.greed hzero).mpr ⟨player, vote, hvoted, ?_⟩)
        cases vote with
        | need => exact absurd hvoted (hnobody player)
        | greed => exact Or.inl rfl
        | disenchant => exact Or.inr rfl
        | pass => exact hcounts.elim
        | notEmitedYet => exact hcounts.elim
        | notValid => exact hcounts.elim
      · simp [Roll.resolve, hend, RollEnd.handed]
      · simpa only [Roll.resolve, hend, RollEnd.result, slotAfter] using hitem
      · simpa only [Roll.resolve, hend, RollEnd.result, slotAfter] using hcount
      · simp [Roll.resolve, hend, RollEnd.handed]
    · rcases winner_greed hdice hzero hgreed with ⟨hnone, -⟩ | ⟨player, vote, -, hvote, hleads, hwon⟩
      · obtain ⟨player, vote, hvoted, hvote⟩ := (h.greed hzero).mp hgreed
        exact absurd hvote (hnone player vote hvoted)
      · obtain ⟨looter, hfound, hroom⟩ := h.found player vote (hleads hnobody)
        refine resolved_of_found hslot h.fresh (hleads hnobody).toEntitled hwon ?_ hroom
        rcases hvote with rfl | rfl
        · exact Or.inl ⟨by simp, by simp [Roll.rollEnd, hzero, hgreed, hwon, hfound]⟩
        · exact Or.inr ⟨rfl, by simp [Roll.rollEnd, hzero, hgreed, hwon, hfound]⟩
  · rcases winner_need hdice hpos with ⟨hnone, -⟩ | ⟨player, hleads, hwon⟩
    · obtain ⟨player, hvoted⟩ := h.need.mp hpos
      exact absurd hvoted (hnone player)
    · obtain ⟨looter, hfound, hroom⟩ := h.found player .need hleads
      refine resolved_of_found hslot h.fresh hleads.toEntitled hwon (Or.inl ⟨by simp, ?_⟩) hroom
      simp [Roll.rollEnd, hpos, hwon, hfound]

/-- **How a roll is resolved.**  For every roll of an item that is blocked for it, with any votes
and totals, and whatever numbers are drawn: the item goes to a player with the highest number among
those who need it, or else among those who are greedy, and the slot is looted once or left to all,
if and only if the totals agree with the votes, the item is not looted yet, and the player who leads
is found, with room for all that the item is disenchanted into once there is room for the item. -/
theorem resolved_iff (r : Roll) (dice : ObjectGuid → ℕ) (findPlayer : ObjectGuid → Option Looter)
    (products : List (ℕ × ℕ)) (loot : Looting.Loot) (item : Looting.LootItem)
    (hdice : ∀ player, 1 ≤ dice player ∧ dice player ≤ 100)
    (hslot : loot.itemAt (loot.placeOf r.itemSlot) = some item) (hblocked : item.isBlocked = true) :
    Resolved dice products loot item r (r.resolve dice findPlayer products loot item) ↔
      Resolvable dice findPlayer products item r :=
  ⟨resolvable_of_resolved (fun player => (hdice player).1) hslot hblocked,
    resolved_of_resolvable (fun player => (hdice player).1) hslot⟩

end Resolve

/-! ### Two players -/

/-- An item for which a roll goes on. -/
def rolledItem : Looting.LootItem where
  itemid := 17
  conditions := []
  count := 1
  isLooted := false
  isBlocked := true
  freeforall := false
  isUnderthreshold := false
  isCounted := false
  needsQuest := false
  followLootRules := false

def rolledLoot : Looting.Loot :=
  { Looting.Loot.start 0 with items := [rolledItem], unlootedCount := 1 }

/-- Of two players the first needs the item, and the second passes. -/
def needAndPass : Roll :=
  (((Roll.enter 1 false ⟨5, 0, false, 0, .empty, 0, 0, 0, 0, rollAllTypeNoDisenchant⟩).enter 2
    false).vote 1 1).vote 2 0

/-- A player with room for everything. -/
def roomy (guid : ObjectGuid) : Looter where
  player := ⟨guid, none, .horde, fun _ => true, fun _ => true, fun _ => true, fun _ => true,
    fun _ => true, fun _ _ => true⟩
  fits _ _ := true

theorem leads_needAndPass {dice : ObjectGuid → ℕ}
    (h : Leads needAndPass.playerVote dice player vote) : player = 1 ∧ vote = .need := by
  have hentries : needAndPass.playerVote.entries = [(1, .need), (2, .pass)] := by decide
  have hvoted := SortedMap.lookup_eq_some.mp h.voted
  rw [hentries] at hvoted
  simp only [List.mem_cons, Prod.mk.injEq, List.not_mem_nil, or_false] at hvoted
  rcases hvoted with ⟨rfl, rfl⟩ | ⟨rfl, rfl⟩
  · exact ⟨rfl, rfl⟩
  · exact h.counts.elim

theorem resolved_iff_need : Resolved (fun _ => 50) [] rolledLoot rolledItem needAndPass
    (needAndPass.resolve (fun _ => 50) (fun guid => some (roomy guid)) [] rolledLoot rolledItem) := by
  refine (resolved_iff needAndPass (fun _ => 50) (fun guid => some (roomy guid)) [] rolledLoot
    rolledItem (by simp) rfl rfl).mpr ⟨?_, fun h => ?_, rfl, fun player vote hleads => ?_⟩
  · exact ⟨fun _ => ⟨1, by decide⟩, fun _ => by decide⟩
  · exact absurd h (by decide)
  · obtain ⟨rfl, rfl⟩ := leads_needAndPass hleads
    exact ⟨roomy 1, rfl, nofun⟩

/-- The first player has left the world: nobody gets the item, and it stays blocked. -/
theorem absent_winner_leaves_slot_blocked :
    ¬ Resolved (fun _ => 50) [] rolledLoot rolledItem needAndPass
      (needAndPass.resolve (fun _ => 50) (fun guid => if guid = 2 then some (roomy 2) else none) []
        rolledLoot rolledItem) := by
  intro h
  rcases h.slot with ⟨hlooted, -⟩ | ⟨hfree, -⟩
  · have hitem : some rolledItem = some { rolledItem with isLooted := true } := hlooted
    exact Bool.false_ne_true (congrArg Looting.LootItem.isLooted (Option.some.inj hitem))
  · have hitem : some rolledItem = some { rolledItem with isBlocked := false } := hfree
    exact Bool.false_ne_true (congrArg Looting.LootItem.isBlocked (Option.some.inj hitem)).symm

end HungerGames.Groups
