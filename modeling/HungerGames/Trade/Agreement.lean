/-
# What both traders agreed to

Whenever an item, the gold or the spell of an offer is changed, nobody has accepted any more, and
the other is shown the offer.  So an executed trade is one that both accepted as it is.  This rests
on nothing else changing what is offered: a stack that is changed outside of the window (only a
split is refused for an item that is traded) leaves both accepts, and is not shown.  And an accept
that is refused for an item that cannot be traded is not taken back, as all others are.
-/
import HungerGames.Trade.Window
import HungerGames.System.Run
import Mathlib.Data.List.Induction

namespace HungerGames.Trade

open HungerGames.System Window

variable {w w' : Window} {side c : Side}

/-! ## 1. What is agreed -/

/-- What is offered: the items and their stacks, the gold and the spell. -/
structure Offer where
  guids : TradeSlot → ObjectGuid
  spellCastItem : ObjectGuid
  view : Shown

def Window.offer (w : Window) (side : Side) : Offer :=
  ⟨(w.trade side).items, (w.trade side).spellCastItem, w.view side⟩

/-- The side has accepted in the run, and from then to its end the trade was open and neither offer
changed. -/
def Agreed (w₀ : Window) (run : List Input) (side : Side) : Prop :=
  ∃ before env after, run = before ++ .accept side env :: after ∧
    ∀ later, later <+: after →
      (exec Window.step w₀ (before ++ .accept side env :: later)).isOpen = true ∧
        ∀ c, (exec Window.step w₀ (before ++ .accept side env :: later)).offer c =
          (exec Window.step w₀ run).offer c

/-- The side gets the items and the money that it was shown, and gives what the other was. -/
structure AsShown (w w' : Window) (stored : List Stored) (side : Side) : Prop where
  items : (stored.filter fun x => x.receiver = side).map (fun x => (x.item.entry, x.item.count)) =
    tradedSlots.filterMap (w.shown side).items
  money : (w'.purse side).1 + (w.shown side.other).money =
    (w.purse side).1 + (w.shown side).money
  spell : (w.trade side).spell = (w.shown side.other).spell

/-! ## 2. Where the code does not keep to it -/

namespace Window

/-- The accept gets to the check of the items. -/
def passes (w : Window) (side : Side) (env : Surroundings) : Bool :=
  w.isOpen ∧ env.isWithinDist ∧ w.hasEnoughMoney side (w.trade side).money ∧
    w.hasEnoughMoney side.other (w.trade side.other).money ∧
    (w.purse side).1 < maxMoneyAmount - (w.trade side.other).money ∧
    (w.purse side.other).1 < maxMoneyAmount - (w.trade side).money

/-- The accept executes the trade. -/
def ready (w : Window) (side : Side) (env : Surroundings) : Bool :=
  w.passes side env ∧ w.findInvalid side = none ∧ (w.trade side.other).accepted ∧
    ¬ w.spellFails side env ∧ ¬ w.spellFails side.other env ∧
    env.canStoreItems side ∧ env.canStoreItems side.other

end Window

/-- Nothing outside changes what is offered; no side that has accepted is refused for an item that
cannot be traded; and what `CanStoreItems` found room for can be stored. -/
def Fair (w : Window) : Input → Prop
  | .outside items purse =>
    w.isOpen = true → ∀ c, ({ w with items, purse } : Window).view c = w.view c
  | .accept side env =>
    (w.passes side env = true → w.findInvalid side ≠ some side ∧
      (w.findInvalid side = some side.other → (w.trade side.other).accepted = false)) ∧
    (w.ready side env = true → ∀ slot ∈ tradedSlots, ∀ c, (w.getItem c slot).isSome = true →
      env.canStoreItem c.other slot = true)
  | _ => True

/-! ## 3. The setters -/

@[simp] theorem Side.other_other (c : Side) : c.other.other = c := by cases c <;> rfl

theorem Side.other_ne (c : Side) : c.other ≠ c := by cases c <;> decide

theorem Side.eq_or_other (c d : Side) : c = d ∨ c = d.other := by
  cases c <;> cases d <;> decide

namespace Window

/-- The offer depends on the `TradeData` but for the accept, and on the inventory. -/
theorem offer_congr {state : Bool} (hitems : w'.items c = w.items c)
    (htrade : w'.trade c = { w.trade c with accepted := state }) : w'.offer c = w.offer c := by
  unfold offer view getItem
  rw [hitems, htrade]

theorem trade_setTrade (w : Window) (side c : Side) (trade : TradeData) :
    (w.setTrade side trade).trade c = if c = side then trade else w.trade c :=
  Function.update_apply w.trade side trade c

theorem trade_setAccepted (w : Window) (side c : Side) (state : Bool) :
    (w.setAccepted side state).trade c =
      { w.trade c with accepted := if c = side then state else (w.trade c).accepted } := by
  unfold setAccepted
  rw [trade_setTrade]
  by_cases h : c = side
  · rw [if_pos h, if_pos h, h]
  · rw [if_neg h, if_neg h]

theorem offer_setAccepted (w : Window) (side c : Side) (state : Bool) :
    (w.setAccepted side state).offer c = w.offer c :=
  offer_congr rfl (trade_setAccepted w side c state)

theorem trade_unaccept (w : Window) (side c : Side) :
    (w.unaccept side).trade c = { w.trade c with accepted := false } := by
  unfold unaccept
  rw [trade_setAccepted, trade_setAccepted]
  rcases Side.eq_or_other c side with h | h <;> simp [h]

/-- Everyone was last shown the offer of the other. -/
def Settled (w : Window) : Prop := ∀ c, w.shown c.other = w.view c

def Unaccepted (w : Window) : Prop := ∀ c, (w.trade c).accepted = false

theorem Settled.of_offer (h : w.Settled) (hshown : w'.shown = w.shown)
    (hoffer : ∀ c, w'.offer c = w.offer c) : w'.Settled := by
  intro c
  rw [hshown, h c]
  exact (congrArg Offer.view (hoffer c)).symm

/-- After a change of an offer nobody has accepted, and the other is shown it. -/
theorem change_spec (w : Window) (side : Side) (trade : TradeData) :
    (((w.setTrade side trade).unaccept side).update side).Unaccepted ∧
      (w.Settled → (((w.setTrade side trade).unaccept side).update side).Settled) := by
  have htrade : ∀ c, (((w.setTrade side trade).unaccept side).update side).trade c =
      { (w.setTrade side trade).trade c with accepted := false } := trade_unaccept _ side
  refine ⟨fun c => by rw [htrade], fun h c => ?_⟩
  change Function.update w.shown side.other (((w.setTrade side trade).unaccept side).view side)
    c.other = ((w.setTrade side trade).unaccept side).view c
  rcases Side.eq_or_other c side with rfl | rfl
  · rw [Function.update_self]
  · rw [Function.update_of_ne (by rw [Side.other_other]; exact (Side.other_ne side).symm), h]
    have hother : ((w.setTrade side trade).unaccept side).trade side.other =
        { w.trade side.other with accepted := false } := by
      rw [trade_unaccept, trade_setTrade, if_neg (Side.other_ne side)]
    have hoffer : ((w.setTrade side trade).unaccept side).offer side.other = w.offer side.other :=
      offer_congr rfl hother
    exact (congrArg Offer.view hoffer).symm

theorem setSpell_spec (w : Window) (side : Side) (spell : ℕ) (castItem : ObjectGuid) :
    (w.setSpell side spell castItem = w ∨ (w.setSpell side spell castItem).Unaccepted) ∧
      (w.Settled → (w.setSpell side spell castItem).Settled) ∧
        (w.setSpell side spell castItem).isOpen = w.isOpen := by
  unfold setSpell
  split
  · exact ⟨Or.inl rfl, fun h => h, rfl⟩
  · obtain ⟨hunaccepted, hsettled⟩ := change_spec w side
      { w.trade side with spell, spellCastItem := castItem }
    exact ⟨Or.inr hunaccepted, hsettled, rfl⟩

theorem Unaccepted.setSpell (h : w.Unaccepted) (side : Side) (spell : ℕ) (castItem : ObjectGuid) :
    (w.setSpell side spell castItem).Unaccepted := by
  rcases (setSpell_spec w side spell castItem).1 with heq | hunaccepted
  · rw [heq]
    exact h
  · exact hunaccepted

theorem setItem_spec (w : Window) (side : Side) (slot : TradeSlot) (guid : ObjectGuid) :
    (w.setItem side slot guid = w ∨ (w.setItem side slot guid).Unaccepted) ∧
      (w.Settled → (w.setItem side slot guid).Settled) := by
  unfold setItem
  split
  · exact ⟨Or.inl rfl, fun h => h⟩
  · obtain ⟨hunaccepted, hsettled⟩ := change_spec w side
      { w.trade side with items := Function.update (w.trade side).items slot guid }
    split
    · exact ⟨Or.inr ((hunaccepted.setSpell _ _ _).setSpell _ _ _), fun h =>
        (setSpell_spec _ _ _ _).2.1 ((setSpell_spec _ _ _ _).2.1 (hsettled h))⟩
    · exact ⟨Or.inr (hunaccepted.setSpell _ _ _), fun h =>
        (setSpell_spec _ _ _ _).2.1 (hsettled h)⟩

theorem setMoney_spec (w : Window) (side : Side) (money : ℕ) :
    (w.setMoney side money = w ∨ (w.setMoney side money).Unaccepted) ∧
      (w.Settled → (w.setMoney side money).Settled) := by
  unfold setMoney
  split
  · exact ⟨Or.inl rfl, fun h => h⟩
  · split
    · exact ⟨Or.inl rfl, fun h => h⟩
    · obtain ⟨hunaccepted, hsettled⟩ := change_spec w side { w.trade side with money }
      exact ⟨Or.inr hunaccepted, hsettled⟩

/-! ## 4. Accepting -/

/-- The window with the accept of a side. -/
theorem accepting_spec (w : Window) (side : Side) :
    (∀ c, (w.setAccepted side true).offer c = w.offer c) ∧
      (∀ c, (w.setAccepted side true).view c = w.view c) ∧
        ∀ c slot, (w.setAccepted side true).getItem c slot = w.getItem c slot := by
  refine ⟨fun c => offer_setAccepted w side c true, fun c => ?_, fun c slot => ?_⟩
  · exact congrArg Offer.view (offer_setAccepted w side c true)
  · unfold getItem
    rw [trade_setAccepted]
    rfl

theorem findInvalid_setAccepted (w : Window) (side : Side) :
    (w.setAccepted side true).findInvalid side = w.findInvalid side := by
  unfold findInvalid
  simp only [(accepting_spec w side).2.2]

theorem spellFails_setAccepted (w : Window) (side c : Side) (env : Surroundings) :
    (w.setAccepted side true).spellFails c env = w.spellFails c env := by
  unfold spellFails
  rw [(accepting_spec w side).2.2, trade_setAccepted]
  rfl

/-- What an accept leaves, if it does not execute the trade: everyone still sees the offer of the
other, and who is accepted either was, or is the one who accepts, of the same offers. -/
structure Accepting (w : Window) (side : Side) (w' : Window) : Prop where
  isOpen : w'.isOpen = w.isOpen
  settled : w.Settled → w'.Settled
  accepted : ∀ c, (w'.trade c).accepted = true →
    (∀ d, w'.offer d = w.offer d) ∧ ((w.trade c).accepted = true ∨ c = side)

/-- The accept of the sides is set in the end as `states` says. -/
theorem accepting_of_offer (hopen : w'.isOpen = w.isOpen) (hshown : w'.shown = w.shown)
    (hoffer : ∀ c, w'.offer c = w.offer c)
    (haccepted : ∀ c, (w'.trade c).accepted = true → (w.trade c).accepted = true ∨ c = side) :
    Accepting w side w' :=
  ⟨hopen, fun h => h.of_offer hshown hoffer, fun c hc => ⟨hoffer, haccepted c hc⟩⟩

theorem accepting_setAccepted (w : Window) (side c : Side) :
    Accepting w side ((w.setAccepted side true).setAccepted c false) := by
  refine accepting_of_offer rfl rfl (fun d => ?_) fun d hd => ?_
  · rw [offer_setAccepted, offer_setAccepted]
  · rw [trade_setAccepted, trade_setAccepted] at hd
    by_cases hside : d = side
    · exact Or.inr hside
    · by_cases hc : d = c
      · simp [hc] at hd
      · simp only [if_neg hc, if_neg hside] at hd
        exact Or.inl hd

theorem accepting_true (w : Window) (side : Side) : Accepting w side (w.setAccepted side true) := by
  refine accepting_of_offer rfl rfl (fun d => offer_setAccepted w side d true) fun d hd => ?_
  rw [trade_setAccepted] at hd
  by_cases hside : d = side
  · exact Or.inr hside
  · simp only [if_neg hside] at hd
    exact Or.inl hd

theorem accepting_unaccepted (hopen : w'.isOpen = w.isOpen) (hsettled : w.Settled → w'.Settled)
    (h : w'.Unaccepted) : Accepting w side w' :=
  ⟨hopen, hsettled, fun c hc => by
    rw [h c] at hc
    nomatch hc⟩

theorem accepting_setSpell (w : Window) (side c : Side) (h : (w.trade c).spell ≠ 0) :
    Accepting w side ((w.setAccepted side true).setSpell c 0 0) ∧
      ((w.setAccepted side true).setSpell c 0 0).Unaccepted := by
  obtain ⟨hcases, hsettled, hopen⟩ := setSpell_spec (w.setAccepted side true) c 0 0
  have hunaccepted : ((w.setAccepted side true).setSpell c 0 0).Unaccepted := by
    unfold setSpell
    rw [if_neg]
    · exact (change_spec _ c _).1
    · rw [trade_setAccepted]
      exact fun heq => h heq.1
  refine ⟨accepting_unaccepted hopen (fun hs => hsettled ?_) hunaccepted, hunaccepted⟩
  exact (accepting_true w side).settled hs

theorem unaccepted_unaccept (w : Window) (side : Side) : (w.unaccept side).Unaccepted := by
  intro c
  rw [trade_unaccept]

theorem accepting_unaccept (w : Window) (side : Side) :
    Accepting w side ((w.setAccepted side true).unaccept side) := by
  refine accepting_unaccepted rfl (fun hs => ?_) (unaccepted_unaccept _ side)
  refine ((accepting_true w side).settled hs).of_offer rfl fun c => ?_
  exact offer_congr rfl (trade_unaccept _ side c)

/-- What an accept comes to.  A refusal takes the accept of the side back, but for an item that
cannot be traded. -/
inductive AcceptResult (w : Window) (side : Side) (env : Surroundings) : Window × Outcome → Prop
  | ignored (hclosed : w.isOpen = false) : AcceptResult w side env (w, .ignored)
  | refused {w' : Window} {c : Side} (haccepting : Accepting w side w')
      (htaken : (w'.trade c).accepted = false) : AcceptResult w side env (w', .refused c)
  | invalid {w' : Window} {c : Side} (haccepting : Accepting w side w')
      (hpasses : w.passes side env = true) (hinvalid : w.findInvalid side = some c)
      (hstate : (w'.trade c).accepted = (if c = side then true else (w.trade c).accepted)) :
      AcceptResult w side env (w', .refused c)
  | waiting {w' : Window} (haccepting : Accepting w side w') :
      AcceptResult w side env (w', .waiting)
  | executed (hready : w.ready side env = true) :
      AcceptResult w side env
        ((w.setAccepted side true).execute side env,
          .executed ((w.setAccepted side true).moveItems side env))

theorem acceptResult (w : Window) (side : Side) (env : Surroundings) :
    AcceptResult w side env (w.handleAcceptTrade side env) := by
  have hmine : ((w.setAccepted side true).setAccepted side false |>.trade side).accepted = false := by
    rw [trade_setAccepted, if_pos rfl]
  have hhis : ((w.setAccepted side true).setAccepted side.other false |>.trade
      side.other).accepted = false := by
    rw [trade_setAccepted, if_pos rfl]
  have hmoney : ∀ c, ((w.setAccepted side true).trade c).money = (w.trade c).money := fun c => by
    rw [trade_setAccepted]
  have hother : ((w.setAccepted side true).trade side.other).accepted =
      (w.trade side.other).accepted := by
    rw [trade_setAccepted, if_neg (Side.other_ne side)]
  unfold handleAcceptTrade
  by_cases hopen : w.isOpen = true
  · rw [if_neg (not_not.mpr hopen)]
    dsimp only
    rw [hmoney, hmoney, findInvalid_setAccepted, spellFails_setAccepted, spellFails_setAccepted,
      hother]
    by_cases hdist : env.isWithinDist = true
    swap
    · rw [if_pos hdist]
      exact .refused (accepting_setAccepted w side side) hmine
    rw [if_neg (not_not.mpr hdist)]
    by_cases hmyMoney : (w.setAccepted side true).hasEnoughMoney side (w.trade side).money = true
    swap
    · rw [if_pos hmyMoney]
      exact .refused (accepting_setAccepted w side side) hmine
    rw [if_neg (not_not.mpr hmyMoney)]
    by_cases hhisMoney :
        (w.setAccepted side true).hasEnoughMoney side.other (w.trade side.other).money = true
    swap
    · rw [if_pos hhisMoney]
      exact .refused (accepting_setAccepted w side side.other) hhis
    rw [if_neg (not_not.mpr hhisMoney)]
    by_cases hmyRoom : maxMoneyAmount - (w.trade side.other).money ≤
        ((w.setAccepted side true).purse side).1
    · rw [if_pos hmyRoom]
      exact .refused (accepting_setAccepted w side side) hmine
    rw [if_neg hmyRoom]
    by_cases hhisRoom : maxMoneyAmount - (w.trade side).money ≤
        ((w.setAccepted side true).purse side.other).1
    · rw [if_pos hhisRoom]
      exact .refused (accepting_setAccepted w side side.other) hhis
    rw [if_neg hhisRoom]
    have hpasses : w.passes side env = true := by
      exact decide_eq_true ⟨hopen, hdist, hmyMoney, hhisMoney, Nat.lt_of_not_le hmyRoom,
        Nat.lt_of_not_le hhisRoom⟩
    cases hinvalid : w.findInvalid side with
    | some c =>
      refine .invalid (accepting_true w side) hpasses hinvalid ?_
      rw [trade_setAccepted]
    | none =>
      by_cases haccepted : (w.trade side.other).accepted = true
      swap
      · rw [if_pos haccepted]
        exact .waiting (accepting_true w side)
      rw [if_neg (not_not.mpr haccepted)]
      by_cases hmySpell : w.spellFails side env = true
      · obtain ⟨haccepting, hunaccepted⟩ :=
          accepting_setSpell w side side (of_decide_eq_true hmySpell).1
        rw [if_pos hmySpell]
        exact .refused haccepting (hunaccepted side)
      rw [if_neg hmySpell]
      by_cases hhisSpell : w.spellFails side.other env = true
      · obtain ⟨haccepting, hunaccepted⟩ :=
          accepting_setSpell w side side.other (of_decide_eq_true hhisSpell).1
        rw [if_pos hhisSpell]
        exact .refused haccepting (hunaccepted side.other)
      rw [if_neg hhisSpell]
      by_cases hmyStore : env.canStoreItems side = true
      swap
      · rw [if_pos hmyStore]
        exact .refused (accepting_unaccept w side) (unaccepted_unaccept _ side side)
      rw [if_neg (not_not.mpr hmyStore)]
      by_cases hhisStore : env.canStoreItems side.other = true
      swap
      · rw [if_pos hhisStore]
        exact .refused (accepting_unaccept w side) (unaccepted_unaccept _ side side.other)
      rw [if_neg (not_not.mpr hhisStore)]
      refine .executed ?_
      exact decide_eq_true ⟨hpasses, hinvalid, haccepted, hmySpell, hhisSpell, hmyStore, hhisStore⟩
  · rw [if_pos hopen]
    exact .ignored (Bool.eq_false_iff.mpr hopen)

end Window

/-! ## 5. Steps -/

/-- What a step leaves: in an open window everyone sees the offer of the other, and who is accepted
was or has just accepted, of the same offers. -/
structure Follows (w : Window) (i : Input) (w' : Window) : Prop where
  settled : w'.isOpen = true → (w.isOpen = true → w.Settled) → w'.Settled
  accepted : w'.isOpen = true → ∀ c, (w'.trade c).accepted = true →
    w.isOpen = true ∧ (∀ d, w'.offer d = w.offer d) ∧
      ((w.trade c).accepted = true ∨ ∃ env, i = .accept c env)

theorem Follows.refl (w : Window) (i : Input) : Follows w i w :=
  ⟨fun hopen h => h hopen, fun hopen _ hc => ⟨hopen, fun _ => rfl, Or.inl hc⟩⟩

theorem Follows.of_spec {i : Input} (hopen : w.isOpen = true)
    (hcases : w' = w ∨ w'.Unaccepted) (hsettled : w.Settled → w'.Settled) : Follows w i w' := by
  refine ⟨fun _ h => hsettled (h hopen), fun _ c hc => ?_⟩
  rcases hcases with rfl | hunaccepted
  · exact ⟨hopen, fun _ => rfl, Or.inl hc⟩
  · rw [hunaccepted c] at hc
    nomatch hc

theorem Follows.of_accepting {env : Surroundings} (h : Accepting w side w') :
    Follows w (.accept side env) w' := by
  refine ⟨fun hopen hs => h.settled (hs (h.isOpen ▸ hopen)), fun hopen c hc => ?_⟩
  obtain ⟨hoffer, hcases⟩ := h.accepted c hc
  refine ⟨h.isOpen ▸ hopen, hoffer, hcases.imp_right fun hside => ⟨env, ?_⟩⟩
  rw [hside]

/-- **A step of the trade**, where nothing outside changes what is offered. -/
theorem follows_step (i : Input) (hfair : Fair w i) : Follows w i (w.step i) := by
  cases i with
  | initiate =>
    unfold Window.step initiateTrade
    dsimp only
    split
    · exact Follows.refl w _
    · exact ⟨fun _ _ _ => rfl, nofun⟩
  | setItem side tradeSlot guid =>
    change Follows w _ (w.handleSetTradeItem side tradeSlot guid)
    unfold handleSetTradeItem
    split
    · exact Follows.refl w _
    rename_i hopen
    split
    · dsimp only
      split
      · exact Follows.refl w _
      split
      · exact Follows.refl w _
      split
      · exact Follows.refl w _
      split
      · exact Follows.refl w _
      obtain ⟨hcases, hsettled⟩ := setItem_spec w side ⟨tradeSlot, by assumption⟩ guid
      exact Follows.of_spec (not_not.mp hopen) hcases hsettled
    · exact Follows.refl w _
  | clearItem side tradeSlot =>
    change Follows w _ (w.handleClearTradeItem side tradeSlot)
    unfold handleClearTradeItem
    split
    · exact Follows.refl w _
    rename_i hopen
    split
    · obtain ⟨hcases, hsettled⟩ := setItem_spec w side ⟨tradeSlot, by assumption⟩ 0
      exact Follows.of_spec (not_not.mp hopen) hcases hsettled
    · exact Follows.refl w _
  | setGold side gold =>
    change Follows w _ (w.handleSetTradeGold side gold)
    unfold handleSetTradeGold
    split
    · exact Follows.refl w _
    · rename_i hopen
      obtain ⟨hcases, hsettled⟩ := setMoney_spec w side gold
      exact Follows.of_spec (not_not.mp hopen) hcases hsettled
  | castSpell side spell castItem =>
    change Follows w _ (w.castTradeSpell side spell castItem)
    unfold castTradeSpell
    split
    · exact Follows.refl w _
    · rename_i hopen
      obtain ⟨hcases, hsettled, -⟩ := setSpell_spec w side spell castItem
      exact Follows.of_spec (not_not.mp hopen) hcases hsettled
  | unaccept side =>
    change Follows w _ (w.handleUnacceptTrade side)
    unfold handleUnacceptTrade
    split
    · exact Follows.refl w _
    · rename_i hopen
      have hoffer : ∀ c, (w.setAccepted side false).offer c = w.offer c := fun c =>
        offer_setAccepted w side c false
      refine ⟨fun _ h => (h (not_not.mp hopen)).of_offer rfl hoffer, fun _ c hc => ?_⟩
      refine ⟨not_not.mp hopen, hoffer, Or.inl ?_⟩
      rw [trade_setAccepted] at hc
      by_cases hside : c = side
      · simp [hside] at hc
      · simpa [hside] using hc
  | cancel => exact ⟨nofun, nofun⟩
  | outside items purse =>
    have hoffer : w.isOpen = true → ∀ c, ({ w with items, purse } : Window).offer c = w.offer c := by
      intro hopen c
      unfold offer
      rw [hfair hopen c]
    exact ⟨fun hopen h => (h hopen).of_offer rfl (hoffer hopen),
      fun hopen c hc => ⟨hopen, hoffer hopen, Or.inl hc⟩⟩
  | accept side env =>
    have hresult := acceptResult w side env
    change Follows w _ (w.handleAcceptTrade side env).1
    generalize w.handleAcceptTrade side env = result at hresult
    cases hresult with
    | ignored hclosed => exact Follows.refl w _
    | refused haccepting => exact Follows.of_accepting haccepting
    | invalid haccepting => exact Follows.of_accepting haccepting
    | waiting haccepting => exact Follows.of_accepting haccepting
    | executed hready => exact ⟨nofun, nofun⟩

/-! ## 6. Runs -/

theorem exec_snoc (w₀ : Window) (run : List Input) (i : Input) :
    exec Window.step w₀ (run ++ [i]) = (exec Window.step w₀ run).step i :=
  exec_append w₀ run [i]

/-- A step that leaves the trade open with the same offers leaves what was agreed. -/
theorem Agreed.snoc {w₀ : Window} {run : List Input} {i : Input} (h : Agreed w₀ run c)
    (hopen : (exec Window.step w₀ (run ++ [i])).isOpen = true)
    (hoffer : ∀ d, (exec Window.step w₀ (run ++ [i])).offer d =
      (exec Window.step w₀ run).offer d) : Agreed w₀ (run ++ [i]) c := by
  obtain ⟨before, env, after, hrun, hlater⟩ := h
  refine ⟨before, env, after ++ [i], by rw [hrun, List.append_assoc]; rfl, fun later hprefix => ?_⟩
  rcases List.prefix_concat_iff.mp hprefix with rfl | hprefix
  · have hwhole : before ++ .accept c env :: (after ++ [i]) = run ++ [i] := by
      rw [hrun, List.append_assoc]
      rfl
    rw [hwhole]
    exact ⟨hopen, fun _ => rfl⟩
  · obtain ⟨hwas, hsame⟩ := hlater later hprefix
    exact ⟨hwas, fun d => (hsame d).trans (hoffer d).symm⟩

theorem Agreed.now {w₀ : Window} {run : List Input} {env : Surroundings}
    (hopen : (exec Window.step w₀ (run ++ [.accept c env])).isOpen = true) :
    Agreed w₀ (run ++ [.accept c env]) c := by
  refine ⟨run, env, [], rfl, fun later hprefix => ?_⟩
  rw [List.prefix_nil.mp hprefix]
  exact ⟨hopen, fun _ => rfl⟩

/-- In an open trade everyone sees the offer of the other, and who is accepted agreed. -/
theorem open_trade {w₀ : Window} (hclosed : w₀.isOpen = false) (run : List Input) :
    Along Window.step Fair w₀ run → (exec Window.step w₀ run).isOpen = true →
      (exec Window.step w₀ run).Settled ∧
        ∀ c, ((exec Window.step w₀ run).trade c).accepted = true → Agreed w₀ run c := by
  induction run using List.reverseRecOn with
  | nil =>
    intro _ hopen
    rw [exec_nil, hclosed] at hopen
    nomatch hopen
  | append_singleton run i ih =>
    intro hrun hopen
    have hbefore := ih hrun.before
    have hstep := follows_step i hrun.at
    rw [exec_snoc] at hopen ⊢
    refine ⟨hstep.settled hopen fun hwas => (hbefore hwas).1, fun c hc => ?_⟩
    obtain ⟨hwas, hoffer, hcases⟩ := hstep.accepted hopen c hc
    rcases hcases with haccepted | ⟨env, rfl⟩
    · exact ((hbefore hwas).2 c haccepted).snoc (by rwa [exec_snoc]) (by rwa [exec_snoc])
    · exact Agreed.now (by rwa [exec_snoc])

/-! ## 7. What is moved -/

theorem toInt32_of_le {n : ℕ} (h : n ≤ maxMoneyAmount) : toInt32 n = n := by
  unfold maxMoneyAmount at h
  exact Int.bmod_eq_of_le (by omega) (by omega)

/-- Money that is there is given. -/
theorem modifyMoney_give (purse : Purse) {amount : ℕ} (h : amount ≤ purse.1) :
    (modifyMoney purse (-toInt32 amount)).1 = purse.1 - amount := by
  rw [toInt32_of_le (Nat.le_trans h purse.2)]
  unfold modifyMoney
  by_cases hzero : amount = 0
  · have hmax := purse.2
    rw [if_neg (by omega)]
    split
    · dsimp only
      omega
    · omega
  · rw [if_pos (by omega)]
    dsimp only
    omega

/-- The money that is given and got, where it is there and there is room for it. -/
theorem modifyMoney_trade (purse : Purse) {mine his : ℕ} (hmine : mine ≤ purse.1)
    (hroom : purse.1 < maxMoneyAmount - his) :
    (modifyMoney (modifyMoney purse (-toInt32 mine)) (toInt32 his)).1 + mine = purse.1 + his := by
  have hgive := modifyMoney_give purse hmine
  have hhis : toInt32 his = his := toInt32_of_le (by omega)
  rw [hhis]
  generalize modifyMoney purse (-toInt32 mine) = given at hgive ⊢
  unfold modifyMoney
  rw [if_neg (by omega), dif_pos (by omega)]
  dsimp only
  omega

/-- What the side gets is what the other has in the slots, when everything can be stored. -/
theorem moveItems_received (w : Window) (side : Side) (env : Surroundings)
    (hstore : ∀ slot ∈ tradedSlots, ∀ c, (w.getItem c slot).isSome = true →
      env.canStoreItem c.other slot = true) (c : Side) :
    ((w.moveItems side env).filter fun x => x.receiver = c).map
        (fun x => (x.item.entry, x.item.count)) =
      tradedSlots.filterMap (w.view c.other).items := by
  unfold moveItems
  generalize tradedSlots = slots at hstore
  induction slots with
  | nil => rfl
  | cons slot slots ih =>
    obtain ⟨hslot, hslots⟩ := List.forall_mem_cons.mp hstore
    have hmine : (w.getItem side slot).toList = [] ∨ env.canStoreItem side.other slot = true := by
      cases h : w.getItem side slot with
      | none => exact Or.inl rfl
      | some item => exact Or.inr (hslot side (by rw [h]; rfl))
    have hhis : (w.getItem side.other slot).toList = [] ∨ env.canStoreItem side slot = true := by
      cases h : w.getItem side.other slot with
      | none => exact Or.inl rfl
      | some item =>
        have hstored := hslot side.other (by rw [h]; rfl)
        rw [Side.other_other] at hstored
        exact Or.inr hstored
    rw [List.flatMap_cons, List.filter_append, List.map_append, ih hslots, List.filterMap_cons]
    rw [if_pos ⟨hmine, hhis⟩]
    unfold view
    dsimp only
    rcases Side.eq_or_other c side with rfl | rfl
    · cases w.getItem c slot <;> cases w.getItem c.other slot <;> simp [Side.other_ne]
    · rw [Side.other_other]
      cases w.getItem side slot <;> cases w.getItem side.other slot <;>
        simp [(Side.other_ne side).symm]

/-- **An executed trade moves what was shown.** -/
theorem execute_asShown {env : Surroundings} (hsettled : w.Settled) (hfair : Fair w (.accept side env))
    (hready : w.ready side env = true) (c : Side) :
    AsShown w ((w.setAccepted side true).execute side env)
      ((w.setAccepted side true).moveItems side env) c := by
  have hsettled' : w.shown c = w.view c.other := by
    rw [← hsettled c.other, Side.other_other]
  have hpasses : w.passes side env = true := (of_decide_eq_true hready).1
  obtain ⟨-, -, hmyMoney, hhisMoney, hmyRoom, hhisRoom⟩ := of_decide_eq_true hpasses
  have hmoney : ∀ d, ((w.setAccepted side true).trade d).money = (w.trade d).money := fun d => by
    rw [trade_setAccepted]
  have hgives : (w.trade c).money ≤ (w.purse c).1 ∧
      (w.purse c).1 < maxMoneyAmount - (w.trade c.other).money := by
    rcases Side.eq_or_other c side with rfl | rfl
    · exact ⟨of_decide_eq_true hmyMoney, hmyRoom⟩
    · rw [Side.other_other]
      exact ⟨of_decide_eq_true hhisMoney, hhisRoom⟩
  constructor
  · have hstore : ∀ slot ∈ tradedSlots, ∀ d,
        ((w.setAccepted side true).getItem d slot).isSome = true →
          env.canStoreItem d.other slot = true := by
      intro slot hslot d
      rw [(accepting_spec w side).2.2]
      exact hfair.2 hready slot hslot d
    rw [moveItems_received _ side env hstore c, (accepting_spec w side).2.1, hsettled']
  · rw [hsettled c, hsettled']
    change (modifyMoney (modifyMoney (w.purse c)
      (-toInt32 ((w.setAccepted side true).trade c).money))
        (toInt32 ((w.setAccepted side true).trade c.other).money)).1 + (w.trade c).money =
      (w.purse c).1 + (w.trade c.other).money
    rw [hmoney, hmoney]
    exact modifyMoney_trade (w.purse c) hgives.1 hgives.2
  · rw [hsettled c]
    rfl

/-! ## 8. Agreement -/

/-- **What was agreed is traded**: in every run from a closed window in which nothing outside
changes what is offered, a trade is executed only if the other has agreed to it as it is, and each
side gets what it was shown for what the other was shown; and an accept that a check on a side
refuses leaves that side not accepted. -/
theorem trade_agreement (w₀ : Window) (hclosed : w₀.isOpen = false) (run : List Input)
    (side : Side) (env : Surroundings)
    (hrun : Along Window.step Fair w₀ (run ++ [.accept side env])) :
    (∀ w' c, (exec Window.step w₀ run).handleAcceptTrade side env = (w', .refused c) →
      (w'.trade c).accepted = false) ∧
    (∀ w' stored,
      (exec Window.step w₀ run).handleAcceptTrade side env = (w', .executed stored) →
        Agreed w₀ run side.other ∧ ∀ c, AsShown (exec Window.step w₀ run) w' stored c) := by
  have hfair := hrun.at
  have hresult := acceptResult (exec Window.step w₀ run) side env
  have hopen := open_trade hclosed run hrun.before
  generalize exec Window.step w₀ run = w at *
  constructor
  · intro w' c h
    rw [h] at hresult
    cases hresult with
    | refused haccepting htaken => exact htaken
    | invalid haccepting hpasses hinvalid hstate =>
      obtain ⟨hmine, hhis⟩ := hfair.1 hpasses
      rcases Side.eq_or_other c side with rfl | rfl
      · exact absurd hinvalid hmine
      · rw [hstate, if_neg (Side.other_ne side)]
        exact hhis hinvalid
  · intro w' stored h
    rw [h] at hresult
    cases hresult with
    | executed hready =>
      obtain ⟨hpasses, -, haccepted, -⟩ := of_decide_eq_true hready
      obtain ⟨hsettled, hagreed⟩ := hopen (of_decide_eq_true hpasses).1
      exact ⟨hagreed side.other haccepted, execute_asShown hsettled hfair hready⟩

/-- The first has a stack, of guid 5 and entry 1. -/
def inventory (count : ℕ) : Side → ObjectGuid → Option Item := fun side guid =>
  if side = .first ∧ guid = 5 then some ⟨1, count, true, false⟩ else none

def pockets : Side → Purse := fun _ => ⟨100, by decide⟩

def noTrade : Window :=
  ⟨false, fun _ => ⟨false, 0, 0, 0, fun _ => 0⟩, inventory 20, pockets, fun _ => ⟨0, 0, fun _ => none⟩⟩

def willing : Surroundings :=
  ⟨true, fun _ => true, fun _ => true, fun _ => true, fun _ _ => true, fun _ _ => true⟩

/-- A stack of 20 for 10 gold, which the second accepts. -/
def bargain : List Input :=
  [.initiate, .setItem .first 0 5, .setGold .second 10, .accept .second willing]

theorem trade_agreement_bargain : Agreed noTrade bargain .second := by
  have hvalid : ∀ w side, w.findInvalid side = none → Fair w (.accept side willing) := by
    intro w side h
    refine ⟨fun _ => ?_, fun _ _ _ _ _ => rfl⟩
    rw [h]
    exact ⟨nofun, nofun⟩
  have hrun : Along Window.step Fair noTrade (bargain ++ [.accept .first willing]) :=
    ⟨trivial, trivial, trivial, hvalid _ _ (by decide), hvalid _ _ (by decide), trivial⟩
  exact ((trade_agreement noTrade rfl bargain .first willing hrun).2 _ _ rfl).1

/-- **A stack that shrinks unseen**: when all but one are gone before the first accepts, the second
gets one, and was shown 20. -/
theorem shrunk_stack_is_traded : ∃ w' stored,
    (exec Window.step noTrade (bargain ++ [.outside (inventory 1) pockets])).handleAcceptTrade .first
      willing = (w', .executed stored) ∧
    stored.map (fun x => (x.receiver, x.item.entry, x.item.count)) = [(.second, 1, 1)] ∧
    ((exec Window.step noTrade (bargain ++ [.outside (inventory 1) pockets])).shown .second).items 0 =
      some (1, 20) ∧
    ¬ AsShown (exec Window.step noTrade (bargain ++ [.outside (inventory 1) pockets])) w' stored
      .second := by
  refine ⟨_, _, rfl, by decide, by decide, fun h => ?_⟩
  exact absurd h.items (by decide)

end HungerGames.Trade
