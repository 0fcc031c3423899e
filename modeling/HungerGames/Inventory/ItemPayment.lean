/-
# Whether a payment with items is exact

`paid_iff` says when what `HasItemCount` finds is what `DestroyItemCount` takes: exactly the units
asked for, none of them from the bank or the trade window, and nothing else.  A bag that is paid
with must not hold anything that has to stay, because it is destroyed with what is in it; and the
units up to those asked for have to fit 32 bits.
-/
import HungerGames.Inventory.DestroyItemCount

namespace HungerGames.Inventory

open HungerGames.System

/-! ## 1. The places -/

/-- Where `DestroyItemCount` looks outside of the bank, in its order. -/
def paidPositions : List Position := unwornPositions ++ wornPositions

/-- A place in the bank: a slot of it, one for a bag, or one in a bag. -/
def InBank (q : Position) : Prop :=
  (q.bag = inventorySlotBag0 ∧ 39 ≤ q.slot ∧ q.slot < 74) ∨ (67 ≤ q.bag ∧ q.bag < 74)

variable {q : Position} {slots : List ℕ}

theorem mem_ownPositions : q ∈ ownPositions slots ↔ q.bag = inventorySlotBag0 ∧ q.slot ∈ slots := by
  unfold ownPositions
  rw [List.mem_map]
  constructor
  · rintro ⟨slot, hslot, rfl⟩
    exact ⟨rfl, hslot⟩
  · rintro ⟨hbag, hslot⟩
    exact ⟨q.slot, hslot, by rw [← hbag]⟩

theorem mem_inBags : q ∈ inBags slots ↔ q.bag ∈ slots ∧ q.slot < 36 := by
  unfold inBags
  simp only [List.mem_flatMap, List.mem_map, List.mem_range]
  constructor
  · rintro ⟨bag, hbag, slot, hslot, rfl⟩
    exact ⟨hbag, hslot⟩
  · rintro ⟨hbag, hslot⟩
    exact ⟨q.bag, hbag, q.slot, hslot, rfl⟩

theorem paidPositions_perm : paidPositions.Perm countedPositions := by
  have hcarried : carriedSlots = List.range 23 ++ packSlots := by decide
  have hown : ownPositions carriedSlots = wornPositions ++ ownPositions packSlots := by
    rw [hcarried]
    exact List.map_append
  unfold paidPositions unwornPositions countedPositions
  rw [hown, List.append_assoc wornPositions, List.append_assoc wornPositions]
  exact List.perm_append_comm

theorem apart_ownPositions (h : slots.Nodup) : Apart (ownPositions slots) := by
  refine List.Pairwise.imp_of_mem (fun {p q} hp hq hne => ?_)
    (h.map fun a b heq => (Position.mk.inj heq).2)
  rintro (heq | ⟨-, hslot, hbag⟩)
  · exact hne heq.symm
  · rw [(mem_ownPositions.mp hq).1] at hbag
    rw [← hbag] at hslot
    exact absurd hslot (by decide)

theorem apart_inBags (h : slots.Nodup) (hbags : inventorySlotBag0 ∉ slots) :
    Apart (inBags slots) := by
  have hnodup : (inBags slots).Nodup := by
    refine List.nodup_flatMap.mpr ⟨fun bag _ => ?_, ?_⟩
    · exact List.nodup_range.map fun a b heq => (Position.mk.inj heq).2
    · refine h.imp fun {a b} hne pos ha hb => hne ?_
      obtain ⟨i, -, rfl⟩ := List.mem_map.mp ha
      obtain ⟨j, -, heq⟩ := List.mem_map.mp hb
      exact (Position.mk.inj heq).1.symm
  refine List.Pairwise.imp_of_mem (fun {p q} hp hq hne => ?_) hnodup
  rintro (heq | ⟨hbag, -⟩)
  · exact hne heq.symm
  · exact hbags (hbag ▸ (mem_inBags.mp hp).1)

theorem apart_positions : Apart (paidPositions ++ bankPositions) := by
  have hcross : ∀ p q : Position, Inside p q → p.bag = 255 ∧ q.bag = p.slot ∧
      ((19 ≤ p.slot ∧ p.slot < 23) ∨ (67 ≤ p.slot ∧ p.slot < 74)) := by
    rintro p q ⟨hbag, hslot, hq⟩
    unfold isBagSlot at hslot
    simp only [decide_eq_true_eq] at hslot
    exact ⟨hbag, hq, hslot⟩
  have happend : ∀ {xs ys : List Position}, Apart xs → Apart ys →
      (∀ p ∈ xs, ∀ q ∈ ys, ¬(q = p ∨ Inside p q)) → Apart (xs ++ ys) := fun hxs hys h =>
    List.pairwise_append.mpr ⟨hxs, hys, h⟩
  unfold paidPositions unwornPositions wornPositions bankPositions
  rw [← List.append_assoc]
  refine happend (happend (happend (happend (happend (apart_ownPositions (by decide +kernel))
    (apart_ownPositions (by decide +kernel)) ?_) (apart_inBags (by decide) (by decide)) ?_)
    (apart_ownPositions (by decide +kernel)) ?_) (apart_ownPositions (by decide +kernel)) ?_)
    (apart_inBags (by decide) (by decide)) ?_
  all_goals
    intro p hp q hq
    simp only [List.mem_append, mem_ownPositions, mem_inBags, packSlots, ringAndCurrencySlots,
      bagSlots, bankSlots, bankBagSlots, List.mem_range'_1, List.mem_range,
      inventorySlotBag0] at hp hq
    rintro (rfl | hinside)
    · omega
    · have hin := hcross p q hinside
      omega

/-! ## 2. What a payment should do, and when it does -/

section Spec

variable (S : Stores) (isInTrade : ℕ → Bool) (itemEntry count : ℕ)

/-- The units outside of the bank. -/
def carriedUnits (pl : Player) : ℕ :=
  amountOf (stackAt S isInTrade itemEntry pl) countedPositions

/-- The units in the bank, where `HasItemCount` and `DestroyItemCount` look. -/
def bankedUnits (pl : Player) : ℕ := amountOf (stackAt S isInTrade itemEntry pl) bankPositions

/-- **An exact payment**, from one player to the other. -/
structure PaidExactly (pl pl' : Player) : Prop where
  /-- if there is enough, just the units asked for go, and none from the bank -/
  enough : hasItemCount S isInTrade itemEntry count pl false = true →
    carriedUnits S isInTrade itemEntry pl' + count = carriedUnits S isInTrade itemEntry pl ∧
      ∀ q, InBank q → pl'.getItemByPos S q = pl.getItemByPos S q
  /-- if not, all go that are outside of the bank, and then those of the bank -/
  short : hasItemCount S isInTrade itemEntry count pl false = false →
    carriedUnits S isInTrade itemEntry pl' = 0 ∧
      bankedUnits S isInTrade itemEntry pl' + min (bankedUnits S isInTrade itemEntry pl)
        (count - carriedUnits S isInTrade itemEntry pl) = bankedUnits S isInTrade itemEntry pl
  /-- never more than asked for -/
  atMost : carriedUnits S isInTrade itemEntry pl + bankedUnits S isInTrade itemEntry pl ≤
    carriedUnits S isInTrade itemEntry pl' + bankedUnits S isInTrade itemEntry pl' + count
  /-- what is in the trade window stays -/
  traded : ∀ q i, pl.getItemByPos S q = some i → i.entry = itemEntry → isInTrade i.guid = true →
    pl'.getItemByPos S q = some i
  /-- other items stay, if there is enough -/
  others : hasItemCount S isInTrade itemEntry count pl false = true →
    ∀ q i, pl.getItemByPos S q = some i → i.entry ≠ itemEntry → pl'.getItemByPos S q = some i
  /-- nothing comes -/
  shrinks : Shrinks S isInTrade itemEntry pl pl'

/-- There is nothing outside of the bank, or too little. -/
def TooFew (pl : Player) : Prop :=
  NoStack (stackAt S isInTrade itemEntry pl) countedPositions ∨
    carriedUnits S isInTrade itemEntry pl < count

/-- **The condition.** -/
structure Payable (pl : Player) : Prop where
  /-- the count finds the units, if they are there -/
  counted : TooFew S isInTrade itemEntry count pl ∨
    Reaches (stackAt S isInTrade itemEntry pl) count 4294967296 0 countedPositions
  /-- the sums fit 32 bits, up to the stack with which there are enough -/
  fits : Bounded (stackAt S isInTrade itemEntry pl) count 4294967296 0
    (paidPositions ++ bankPositions)
  /-- a bag that is needed as a whole has nothing in it that must not go -/
  bags : ∀ p, SpentWhole (stackAt S isInTrade itemEntry pl) count 0
      (paidPositions ++ bankPositions) p →
    ∀ q i, Inside p q → pl.getItemByPos S q = some i →
      (i.entry = itemEntry → isInTrade i.guid = false) ∧
        (TooFew S isInTrade itemEntry count pl ∨ i.entry = itemEntry)

end Spec

/-! ## 3. The equivalence -/

section Equivalence

variable {S : Stores} {isInTrade : ℕ → Bool} {itemEntry count : ℕ} {pl pl' : Player}

theorem countFrom_iff : ∀ (positions : List Position) (s : ℕ),
    countFrom S isInTrade itemEntry count pl (s % 4294967296) positions = true ↔
      Reaches (stackAt S isInTrade itemEntry pl) count 4294967296 s positions := by
  intro positions
  induction positions with
  | nil =>
    intro s
    refine iff_of_false Bool.false_ne_true ?_
    rintro ⟨before, x, after, c, heq, -⟩
    cases before <;> cases heq
  | cons pos positions ih =>
    intro s
    unfold countFrom
    cases hpays : pl.paysAt S isInTrade itemEntry pos with
    | none =>
      rw [reaches_cons_none (stackAt_eq_none.mpr hpays)]
      exact ih s
    | some i =>
      rw [reaches_cons_some (stackAt_of_some hpays), ← ih (s + i.count)]
      have hsum : add32 (s % 4294967296) i.count = (s + i.count) % 4294967296 := by
        unfold add32
        omega
      dsimp only
      rw [hsum]
      by_cases hle : count ≤ (s + i.count) % 4294967296
      · rw [if_pos hle]
        exact iff_of_true rfl (Or.inl hle)
      · rw [if_neg hle]
        exact (or_iff_right hle).symm

theorem hasItemCount_iff : hasItemCount S isInTrade itemEntry count pl false = true ↔
    Reaches (stackAt S isInTrade itemEntry pl) count 4294967296 0 countedPositions := by
  unfold hasItemCount
  rw [if_neg Bool.false_ne_true, List.append_nil]
  exact countFrom_iff countedPositions 0

/-- Without the check of what is worn it is one walk. -/
theorem destroyItemCount_eq (canUnequipItem : Player → Position → Bool) :
    destroyItemCount S isInTrade itemEntry count canUnequipItem pl false =
      finish (walk S isInTrade itemEntry count (pl, 0) (paidPositions ++ bankPositions)) := by
  unfold paidPositions
  rw [walk_append, walk_append, bind_assoc]
  rfl

theorem carriedUnits_eq : carriedUnits S isInTrade itemEntry pl =
    amountOf (stackAt S isInTrade itemEntry pl) paidPositions :=
  (amountOf_perm paidPositions_perm).symm

theorem noStack_counted : NoStack (stackAt S isInTrade itemEntry pl) countedPositions ↔
    NoStack (stackAt S isInTrade itemEntry pl) paidPositions := by
  unfold NoStack
  simp only [paidPositions_perm.mem_iff]

/-- No place outside of the bank is in it, nor inside such a place. -/
theorem not_inBank {p : Position} (hp : p ∈ paidPositions) (hq : q = p ∨ Inside p q) :
    ¬InBank q := by
  unfold paidPositions unwornPositions wornPositions at hp
  simp only [List.mem_append, mem_ownPositions, mem_inBags, packSlots, ringAndCurrencySlots,
    bagSlots, List.mem_range'_1, List.mem_range, inventorySlotBag0] at hp
  unfold InBank inventorySlotBag0
  rcases hq with rfl | ⟨hbag, -, hq⟩
  · omega
  · unfold inventorySlotBag0 at hbag
    omega

/-- The units that are there before, and after. -/
theorem PaidExactly.total (h : PaidExactly S isInTrade itemEntry count pl pl') :
    amountOf (stackAt S isInTrade itemEntry pl) (paidPositions ++ bankPositions) ≤
      amountOf (stackAt S isInTrade itemEntry pl') (paidPositions ++ bankPositions) + count := by
  have hmost := h.atMost
  rw [carriedUnits_eq, carriedUnits_eq] at hmost
  unfold bankedUnits at hmost
  rw [amountOf_append, amountOf_append]
  omega

/-- **Only if the condition holds the payment is exact.** -/
theorem payable_of_paidExactly (hrange : Ranged S pl) (hcount : count < 4294967296)
    (h : PaidExactly S isInTrade itemEntry count pl
      (finish (walk S isInTrade itemEntry count (pl, 0) (paidPositions ++ bankPositions)))) :
    Payable S isInTrade itemEntry count pl := by
  have hcounted : TooFew S isInTrade itemEntry count pl ∨
      Reaches (stackAt S isInTrade itemEntry pl) count 4294967296 0 countedPositions := by
    by_cases hhas : hasItemCount S isInTrade itemEntry count pl false = true
    · exact Or.inr (hasItemCount_iff.mp hhas)
    · by_contra hneither
      obtain ⟨hmany, hnot⟩ := not_or.mp hneither
      obtain ⟨hsome, hle⟩ := not_or.mp hmany
      obtain ⟨hall, hbank⟩ := h.short (Bool.eq_false_iff.mpr hhas)
      have hmost := h.atMost
      rw [hall] at hmost
      refine hnot (reaches_of_lt hsome ?_ ?_)
      · unfold carriedUnits at hmost hle
        omega
      · unfold carriedUnits at hle
        omega
  have hfits : Bounded (stackAt S isInTrade itemEntry pl) count 4294967296 0
      (paidPositions ++ bankPositions) := by
    intro before x after c heq hc hless
    by_contra hover
    have htotal := h.total
    rw [heq] at htotal
    have hmore := walk_overflow hcount before hrange (heq ▸ apart_positions) hc hless
      (Nat.le_of_not_lt hover)
    omega
  refine ⟨hcounted, hfits, fun p hp q i hq hi => ⟨fun hentry => ?_, ?_⟩⟩
  · have hpaid := paid_walk hcount _ hrange apart_positions (Or.inr rfl) hfits
    by_contra htrade
    have hstays := h.traded q i hi hentry (by simpa using htrade)
    rw [hpaid.gone p hp q (Or.inr hq)] at hstays
    cases hstays
  · have hpaid := paid_walk hcount _ hrange apart_positions (Or.inr rfl) hfits
    refine hcounted.imp_right fun hreaches => ?_
    by_contra hentry
    have hstays := h.others (hasItemCount_iff.mpr hreaches) q i hi hentry
    rw [hpaid.gone p hp q (Or.inr hq)] at hstays
    cases hstays

theorem inBank_of_mem (hq : q ∈ bankPositions) : InBank q := by
  unfold bankPositions at hq
  simp only [List.mem_append, mem_ownPositions, mem_inBags, bankSlots, bankBagSlots,
    List.mem_range'_1] at hq
  unfold InBank
  omega

/-- There is enough: the walk ends before the bank. -/
theorem Payable.enough (h : Payable S isInTrade itemEntry count pl) (hrange : Ranged S pl)
    (hcount : count < 4294967296)
    (hhas : hasItemCount S isInTrade itemEntry count pl false = true) :
    ∃ pl', walk S isInTrade itemEntry count (pl, 0) (paidPositions ++ bankPositions) =
        .error pl' ∧
      carriedUnits S isInTrade itemEntry pl' + count = carriedUnits S isInTrade itemEntry pl ∧
      ∀ q, InBank q → pl'.getItemByPos S q = pl.getItemByPos S q := by
  have hpaid := paid_walk hcount paidPositions hrange (List.pairwise_append.mp apart_positions).1
    (Or.inr rfl) h.fits.left
  obtain ⟨hle, hsome⟩ := (hasItemCount_iff.mp hhas).le
  rw [Nat.zero_add, ← amountOf_perm paidPositions_perm] at hle
  rw [noStack_counted] at hsome
  rw [walk_append, carriedUnits_eq]
  cases hwalk : walk S isInTrade itemEntry count (pl, 0) paidPositions with
  | ok s =>
    obtain ⟨hsum, hless, -⟩ := hpaid.goesOn s hwalk
    rcases hless with hnone | hless
    · exact absurd hnone hsome
    · omega
  | error pl' =>
    obtain ⟨-, hsum⟩ := hpaid.returns pl' hwalk
    refine ⟨pl', rfl, ?_, fun q hq => ?_⟩
    · rw [carriedUnits_eq]
      omega
    · by_contra hne
      rw [hwalk] at hpaid
      have hmem := (hpaid.others q (fun p hp hin => not_inBank hp.mem hin hq) hne).1
      exact not_inBank hmem (Or.inl rfl) hq

/-- There is too little: the walk goes on in the bank. -/
theorem Payable.short (h : Payable S isInTrade itemEntry count pl) (hrange : Ranged S pl)
    (hcount : count < 4294967296) (hfew : TooFew S isInTrade itemEntry count pl) {pl' : Player}
    (hpl' : pl' = finish (walk S isInTrade itemEntry count (pl, 0)
      (paidPositions ++ bankPositions))) :
    carriedUnits S isInTrade itemEntry pl' = 0 ∧
      bankedUnits S isInTrade itemEntry pl' + min (bankedUnits S isInTrade itemEntry pl)
        (count - carriedUnits S isInTrade itemEntry pl) = bankedUnits S isInTrade itemEntry pl ∧
      carriedUnits S isInTrade itemEntry pl ≤ count := by
  obtain ⟨hapart, hapart', hcross⟩ := List.pairwise_append.mp apart_positions
  have hpaid := paid_walk hcount paidPositions hrange hapart (Or.inr rfl) h.fits.left
  have hshrinks := @shrinks_walk S isInTrade itemEntry count hcount paidPositions pl 0 hrange
    (Nat.zero_le _)
  unfold TooFew at hfew
  rw [noStack_counted] at hfew
  rw [carriedUnits_eq] at hfew ⊢
  rw [carriedUnits_eq]
  rw [walk_append] at hpl'
  cases hwalk : walk S isInTrade itemEntry count (pl, 0) paidPositions with
  | error pl₁ =>
    obtain ⟨hsome, hsum⟩ := hpaid.returns pl₁ hwalk
    rcases hfew with hnone | hless
    · exact absurd hnone hsome
    · omega
  | ok s =>
    obtain ⟨pl₁, remcount⟩ := s
    obtain ⟨hsum, -, hleft⟩ := hpaid.goesOn _ hwalk
    rw [hwalk] at hshrinks hpl' hpaid
    dsimp only [finish] at hsum hleft hshrinks
    have hrem : remcount < count ∨ remcount = 0 := by
      rcases hfew with hnone | hless
      · rw [hnone.amountOf] at hsum
        exact Or.inr hsum
      · exact Or.inl (by omega)
    -- the bank is as it was
    have hbank : ∀ q ∈ bankPositions, stackAt S isInTrade itemEntry pl q =
        stackAt S isInTrade itemEntry pl₁ q := fun q hq => by
      refine (stackAt_congr ?_).symm
      by_contra hne
      have hmem := (hpaid.others q (fun p hp => hcross p hp.mem q hq) hne).1
      exact hcross q hmem q hq (Or.inl rfl)
    have hbounded := h.fits.right.congr hbank
    rw [← hsum] at hbounded
    have hrange₁ := hrange.shrinks hshrinks
    have hpaid' := paid_walk hcount bankPositions hrange₁ hapart' hrem hbounded
    have hshrinks' := @shrinks_walk S isInTrade itemEntry count hcount bankPositions pl₁ remcount
      hrange₁ (by omega)
    change pl' = finish (walk S isInTrade itemEntry count (pl₁, remcount) bankPositions) at hpl'
    rw [← hpl'] at hshrinks'
    have hgone : NoStack (stackAt S isInTrade itemEntry pl') paidPositions := fun q hq =>
      hshrinks'.stackAt_eq_none (hleft q hq)
    rw [hgone.amountOf]
    unfold bankedUnits
    rw [amountOf_congr hbank]
    refine ⟨rfl, ?_, by omega⟩
    cases hwalk' : walk S isInTrade itemEntry count (pl₁, remcount) bankPositions with
    | error pl₂ =>
      obtain ⟨-, hsum'⟩ := hpaid'.returns pl₂ hwalk'
      rw [hwalk'] at hpl'
      rw [show pl' = pl₂ from hpl']
      omega
    | ok s' =>
      obtain ⟨hsum', hless, hnone⟩ := hpaid'.goesOn s' hwalk'
      rw [hwalk'] at hpl'
      rw [show pl' = s'.1 from hpl', hnone.amountOf]
      rcases hless with hnone | hless
      · rw [hnone.amountOf]
        omega
      · omega

/-- **If the condition holds the payment is exact.** -/
theorem Payable.paidExactly (h : Payable S isInTrade itemEntry count pl) (hrange : Ranged S pl)
    (hcount : count < 4294967296) : PaidExactly S isInTrade itemEntry count pl
      (finish (walk S isInTrade itemEntry count (pl, 0) (paidPositions ++ bankPositions))) := by
  have hpaid := paid_walk hcount _ hrange apart_positions (Or.inr rfl) h.fits
  have hshrinks := @shrinks_walk S isInTrade itemEntry count hcount (paidPositions ++ bankPositions)
    pl 0 hrange (Nat.zero_le _)
  -- what has to stay is not paid with
  have hstays : ∀ q i, pl.getItemByPos S q = some i → stackAt S isInTrade itemEntry pl q = none →
      (∀ p, SpentWhole (stackAt S isInTrade itemEntry pl) count 0
        (paidPositions ++ bankPositions) p → ¬Inside p q) →
      (finish (walk S isInTrade itemEntry count (pl, 0)
        (paidPositions ++ bankPositions))).getItemByPos S q = some i := by
    intro q i hi hnone hnot
    by_contra hne
    refine (hpaid.others q (fun p hp hq => ?_) (by rwa [hi])).2 hnone
    rcases hq with rfl | hq
    · obtain ⟨before, after, c, -, hc, -⟩ := hp
      rw [hnone] at hc
      cases hc
    · exact hnot p hp hq
  have hnone : ∀ q i, pl.getItemByPos S q = some i →
      (i.entry = itemEntry → isInTrade i.guid = true) →
      stackAt S isInTrade itemEntry pl q = none := by
    intro q i hi hnot
    rw [stackAt_eq_none]
    by_contra hsome
    obtain ⟨j, hj⟩ := Option.ne_none_iff_exists'.mp hsome
    obtain ⟨hread, hentry, htrade⟩ := paysAt_eq_some.mp hj
    rw [hi] at hread
    obtain rfl := Option.some.inj hread
    rw [hnot hentry] at htrade
    cases htrade
  have hfew : hasItemCount S isInTrade itemEntry count pl false = false →
      TooFew S isInTrade itemEntry count pl := fun hhas =>
    h.counted.resolve_right fun hreaches => by
      rw [hasItemCount_iff.mpr hreaches] at hhas
      cases hhas
  refine ⟨fun hhas => ?_, fun hhas => ?_, ?_, fun q i hi hentry htrade => ?_,
    fun hhas q i hi hentry => ?_, hshrinks⟩
  · obtain ⟨pl', hwalk, hunits, hbank⟩ := h.enough hrange hcount hhas
    rw [hwalk]
    exact ⟨hunits, hbank⟩
  · obtain ⟨hcarried, hbanked, -⟩ := h.short hrange hcount (hfew hhas) rfl
    exact ⟨hcarried, hbanked⟩
  · cases hhas : hasItemCount S isInTrade itemEntry count pl false with
    | true =>
      obtain ⟨pl', hwalk, hunits, hbank⟩ := h.enough hrange hcount hhas
      have hbanked : bankedUnits S isInTrade itemEntry pl' = bankedUnits S isInTrade itemEntry pl :=
        amountOf_congr fun q hq => stackAt_congr (hbank q (inBank_of_mem hq))
      rw [hwalk]
      change _ ≤ carriedUnits S isInTrade itemEntry pl' +
        bankedUnits S isInTrade itemEntry pl' + count
      omega
    | false =>
      obtain ⟨hcarried, hbanked, hle⟩ := h.short hrange hcount (hfew hhas) rfl
      omega
  · refine hstays q i hi (hnone q i hi fun _ => htrade) fun p hp hin => ?_
    rw [(h.bags p hp q i hin hi).1 hentry] at htrade
    cases htrade
  · refine hstays q i hi (hnone q i hi fun heq => absurd heq hentry) fun p hp hin => ?_
    rcases (h.bags p hp q i hin hi).2 with hnot | heq
    · obtain ⟨hle, hsome⟩ := (hasItemCount_iff.mp hhas).le
      rcases hnot with hnone | hless
      · exact hsome hnone
      · unfold carriedUnits at hless
        omega
    · exact hentry heq

/-- **When a payment is exact.** -/
theorem paid_iff (canUnequipItem : Player → Position → Bool) (hrange : Ranged S pl)
    (hcount : count < 4294967296) :
    PaidExactly S isInTrade itemEntry count pl
        (destroyItemCount S isInTrade itemEntry count canUnequipItem pl false) ↔
      Payable S isInTrade itemEntry count pl := by
  rw [destroyItemCount_eq]
  exact ⟨payable_of_paidExactly hrange hcount, fun h => h.paidExactly hrange hcount⟩

end Equivalence

/-! ## 4. Two payments -/

/-- A kind of bag. -/
def smallBag : ItemTemplate where
  itemId := 1
  itemClass := 1
  subClass := 0
  flags := 0
  inventoryType := 18
  maxCount := 0
  stackable := 1
  containerSlots := 4
  bonding := 0
  bagFamily := 0
  itemLimitCategory := 0
  gemProperties := 0
  socketColor := 0
  slots_le := by decide
  maxCount_le := by decide
  stackable_le := by decide

def smallBags : Stores where
  itemTemplate entry := if entry = 1 then some smallBag else none
  itemTemplate_id h := by
    split at h
    · next hentry =>
      obtain rfl := Option.some.inj h
      exact hentry.symm
    · cases h
  itemLimitCategory _ := none

/-- Five units of an entry in the pack. -/
def fiveUnits : Player where
  guid := 1
  items slot := if slot = 23 then some ⟨⟨10, 2, 5, false, false, 1, false, [], []⟩, fun _ => none⟩
    else none

theorem getItemByPos_fiveUnits {i : Item} (h : fiveUnits.getItemByPos smallBags q = some i) :
    q = ⟨inventorySlotBag0, 23⟩ ∧ i.count = 5 := by
  have hitems : ∀ {slot : ℕ} {o : ItemOrBag}, fiveUnits.items slot = some o →
      slot = 23 ∧ o.item.count = 5 := by
    intro slot o ho
    simp only [fiveUnits] at ho
    split at ho
    · next hslot =>
      obtain rfl := Option.some.inj ho
      exact ⟨hslot, rfl⟩
    · cases ho
  unfold Player.getItemByPos at h
  split at h
  · next hown =>
    obtain ⟨o, ho, rfl⟩ := Option.map_eq_some_iff.mp h
    obtain ⟨hslot, hcount⟩ := hitems ho
    obtain ⟨bag, slot⟩ := q
    obtain ⟨rfl, rfl⟩ : bag = inventorySlotBag0 ∧ slot = 23 := ⟨hown.1, hslot⟩
    exact ⟨rfl, hcount⟩
  · obtain ⟨b, hb, -⟩ := Option.bind_eq_some_iff.mp h
    obtain ⟨hslot, hb, -⟩ := Player.getBagByPos_eq_some.mp hb
    rw [(hitems hb).1] at hslot
    exact absurd hslot (by decide)

/-- Three of five units are paid. -/
theorem paid_iff_fiveUnits : PaidExactly smallBags (fun _ => false) 2 3 fiveUnits
    (destroyItemCount smallBags (fun _ => false) 2 3 (fun _ _ => true) fiveUnits false) := by
  have hrange : Ranged smallBags fiveUnits := fun q i h => by
    rw [(getItemByPos_fiveUnits h).2]
    decide
  have hstack : ∀ {q : Position} {c : ℕ},
      stackAt smallBags (fun _ => false) 2 fiveUnits q = some c → c = 5 := by
    intro q c h
    obtain ⟨i, hi, rfl⟩ := Option.map_eq_some_iff.mp h
    exact (getItemByPos_fiveUnits (paysAt_eq_some.mp hi).1).2
  refine (paid_iff (fun _ _ => true) hrange (by decide)).mpr ⟨Or.inr ?_, ?_, ?_⟩
  · exact ⟨countedPositions.take 23, ⟨inventorySlotBag0, 23⟩, countedPositions.drop 24, 5,
      by decide +kernel, by decide, by decide +kernel⟩
  · intro before x after c _ hc hless
    rw [hstack hc]
    omega
  · rintro p ⟨before, after, c, -, hc, -, hle⟩
    rw [hstack hc] at hle
    omega

/-- A bag is worn, with an item of another entry in it. -/
def bagWorn : Player where
  guid := 1
  items slot := if slot = 19 then some ⟨⟨10, 1, 1, false, false, 1, false, [], []⟩, fun j =>
      if j = 0 then some ⟨11, 2, 1, false, false, 1, false, [], []⟩ else none⟩
    else none

/-- **The item in the bag is destroyed** as the bag is paid with. -/
theorem bag_paid_with : ¬PaidExactly smallBags (fun _ => false) 1 1 bagWorn
    (destroyItemCount smallBags (fun _ => false) 1 1 (fun _ _ => true) bagWorn false) := by
  intro h
  have hstays := h.others (by decide +kernel) ⟨19, 0⟩
    ⟨11, 2, 1, false, false, 1, false, [], []⟩ (by decide) (by decide)
  have hgone : (destroyItemCount smallBags (fun _ => false) 1 1 (fun _ _ => true) bagWorn
      false).getItemByPos smallBags ⟨19, 0⟩ = none := by decide +kernel
  rw [hgone] at hstays
  cases hstays

end HungerGames.Inventory
