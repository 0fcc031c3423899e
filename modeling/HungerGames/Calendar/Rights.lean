/-
# Who changes what in the calendar

The handlers do not look at the rights of the player who sends a packet: an event is updated,
removed and copied, and invites are answered, removed and given a status or a rank, whoever asks
for it.  What a packet changes is what it names: an event is updated or removed only by its id, and
an invite is removed only from the event that it is stored for.
-/
import HungerGames.Calendar.Mgr
import HungerGames.System.Run
import HungerGames.System.FirstMatch

namespace HungerGames.Calendar

open HungerGames.System

variable {m m' : CalendarMgr}

/-! ## 1. What a packet names -/

/-- The player is the creator of the event, or has an invite as a moderator. -/
def MayEdit (m : CalendarMgr) (guid : ObjectGuid) (eventId : ℕ) : Prop :=
  (∃ event ∈ m.events, event.eventId = eventId ∧ event.creatorGUID = guid) ∨
    ∃ invite ∈ m.getEventInvites eventId, invite.invitee = guid ∧ calendarRankModerator ≤ invite.rank

namespace Packet

def updatesEvent : Packet → ℕ → Prop
  | .updateEvent eventId _ _, event => eventId = event
  | _, _ => False

def removesEvent : Packet → ℕ → Prop
  | .removeEvent eventId, event => eventId = event
  | _, _ => False

/-- An invite to an event is removed. -/
def removesInvite : Packet → ℕ → ℕ → Prop
  | .eventRemoveInvite _ inviteId _ eventId, invite, event => inviteId = invite ∧ eventId = event
  | _, _, _ => False

def setsStatus : Packet → ℕ → Prop
  | .eventRsvp _ inviteId _, invite => inviteId = invite
  | .eventStatus _ _ inviteId _ _, invite => inviteId = invite
  | _, _ => False

def setsRank : Packet → ℕ → Prop
  | .eventModeratorStatus _ _ inviteId _ _, invite => inviteId = invite
  | _, _ => False

/-- Packets in which the player does not say what he does himself, but for the answer to an
invite. -/
def editing : Packet → Bool
  | .updateEvent .. | .removeEvent .. | .copyEvent .. | .eventRsvp .. | .eventRemoveInvite ..
  | .eventStatus .. | .eventModeratorStatus .. => true
  | .addEvent .. | .eventInvite .. | .eventSignup .. => false

end Packet

/-- The event, or what an update made of it. -/
structure SameEvent (event event' : CalendarEvent) : Prop where
  eventId : event'.eventId = event.eventId
  creatorGUID : event'.creatorGUID = event.creatorGUID
  guildId : event'.guildId = event.guildId

/-- The invite, perhaps with another status or rank. -/
structure SameInvite (invite invite' : CalendarInvite) : Prop where
  inviteId : invite'.inviteId = invite.inviteId
  eventId : invite'.eventId = invite.eventId
  invitee : invite'.invitee = invite.invitee
  senderGUID : invite'.senderGUID = invite.senderGUID
  text : invite'.text = invite.text

/-- The event is there, and as it was unless it was `updated`. -/
def EventStays (updated : Prop) (event : CalendarEvent) (m' : CalendarMgr) : Prop :=
  ∃ event' ∈ m'.events, SameEvent event event' ∧ (¬ updated → event' = event)

/-- The invite is there for the event, with its status and its rank unless these were set. -/
def InviteStays (status rank : Prop) (eventId : ℕ) (invite : CalendarInvite) (m' : CalendarMgr) :
    Prop :=
  ∃ invite' ∈ m'.getEventInvites eventId, SameInvite invite invite' ∧
    (¬ status → invite'.status = invite.status ∧ invite'.statusTime = invite.statusTime) ∧
      (¬ rank → invite'.rank = invite.rank)

theorem EventStays.of_mem {event : CalendarEvent} (updated : Prop) (h : event ∈ m'.events) :
    EventStays updated event m' := ⟨event, h, ⟨rfl, rfl, rfl⟩, fun _ => rfl⟩

variable {invite : CalendarInvite}

theorem InviteStays.of_mem {eventId : ℕ} (status rank : Prop)
    (h : invite ∈ m'.getEventInvites eventId) : InviteStays status rank eventId invite m' :=
  ⟨invite, h, ⟨rfl, rfl, rfl, rfl, rfl⟩, fun _ => ⟨rfl, rfl⟩, fun _ => rfl⟩

theorem EventStays.trans {updated updated' : Prop} {event event' : CalendarEvent}
    (hsame : SameEvent event event') (heq : ¬ updated → event' = event)
    (h : EventStays updated' event' m') : EventStays (updated ∨ updated') event m' := by
  obtain ⟨event'', hmem, hsame', heq'⟩ := h
  refine ⟨event'', hmem, ⟨hsame'.1.trans hsame.1, hsame'.2.trans hsame.2, hsame'.3.trans hsame.3⟩, ?_⟩
  intro hnot
  exact (heq' fun h => hnot (Or.inr h)).trans (heq fun h => hnot (Or.inl h))

theorem InviteStays.trans {status rank status' rank' : Prop} {eventId : ℕ}
    {invite' : CalendarInvite} (hsame : SameInvite invite invite')
    (hstatus : ¬ status → invite'.status = invite.status ∧ invite'.statusTime = invite.statusTime)
    (hrank : ¬ rank → invite'.rank = invite.rank)
    (h : InviteStays status' rank' eventId invite' m') :
    InviteStays (status ∨ status') (rank ∨ rank') eventId invite m' := by
  obtain ⟨invite'', hmem, hsame', hstatus', hrank'⟩ := h
  refine ⟨invite'', hmem, ⟨hsame'.1.trans hsame.1, hsame'.2.trans hsame.2, hsame'.3.trans hsame.3,
    hsame'.4.trans hsame.4, hsame'.5.trans hsame.5⟩, fun hnot => ?_, fun hnot => ?_⟩
  · have hfirst := hstatus fun h => hnot (Or.inl h)
    have hrest := hstatus' fun h => hnot (Or.inr h)
    exact ⟨hrest.1.trans hfirst.1, hrest.2.trans hfirst.2⟩
  · exact (hrank' fun h => hnot (Or.inr h)).trans (hrank fun h => hnot (Or.inl h))

/-! ## 2. The operations -/

/-- Nothing that was there goes or changes. -/
structure Adds (m m' : CalendarMgr) : Prop where
  events : ∀ event ∈ m.events, event ∈ m'.events
  invites : ∀ eventId, ∀ invite ∈ m.getEventInvites eventId, invite ∈ m'.getEventInvites eventId

theorem Adds.refl (m : CalendarMgr) : Adds m m := ⟨fun _ h => h, fun _ _ h => h⟩

theorem Adds.trans {m₁ m₂ m₃ : CalendarMgr} (h : Adds m₁ m₂) (h' : Adds m₂ m₃) : Adds m₁ m₃ :=
  ⟨fun event hmem => h'.events event (h.events event hmem),
    fun eventId invite hmem => h'.invites eventId invite (h.invites eventId invite hmem)⟩

theorem adds_getFreeEventId : Adds m m.getFreeEventId.2 := ⟨fun _ h => h, fun _ _ h => h⟩

theorem adds_freeInviteId (inviteId : ℕ) : Adds m (m.freeInviteId inviteId) :=
  ⟨fun _ h => h, fun _ _ h => h⟩

theorem adds_addEvent (added : CalendarEvent) (address : ℕ) :
    Adds m (m.addEvent added address) := by
  refine ⟨fun event h => ?_, fun _ _ h => h⟩
  rw [← List.take_append_drop address m.events] at h
  rcases List.mem_append.mp h with h | h
  · exact List.mem_append_left _ h
  · exact List.mem_append_right _ (List.mem_cons_of_mem added h)

theorem adds_addInvite (event : CalendarEvent) (added : CalendarInvite) :
    Adds m (m.addInvite event added) := by
  unfold CalendarMgr.addInvite
  split
  · exact ⟨fun _ h => h, fun _ _ h => h⟩
  · refine ⟨fun _ h => h, fun eventId invite h => ?_⟩
    rw [CalendarMgr.getEventInvites_setEventInvites]
    split
    · rename_i heq
      exact List.mem_append_left _ (heq ▸ h)
    · exact h

theorem adds_addNewInvite (event : CalendarEvent) (make : ℕ → CalendarInvite) :
    Adds m (m.addNewInvite event make) :=
  have hfree : Adds m m.getFreeInviteId.2 := ⟨fun _ h => h, fun _ _ h => h⟩
  hfree.trans (adds_addInvite _ _)

theorem adds_addNewInvites {β : Type} (event : CalendarEvent) (make : β → ℕ → CalendarInvite)
    (xs : List β) : ∀ m : CalendarMgr,
    Adds m (xs.foldl (fun m x => m.addNewInvite event (make x)) m) := by
  induction xs with
  | nil => exact fun m => Adds.refl m
  | cons x xs ih => exact fun m => (adds_addNewInvite event (make x)).trans (ih _)

/-- Only what is named goes with an event. -/
theorem removeEvent_frame (eventId : ℕ) :
    (∀ event ∈ m.events, eventId ≠ event.eventId → event ∈ (m.removeEvent eventId).1.events) ∧
      ∀ eventId', eventId ≠ eventId' →
        (m.removeEvent eventId).1.getEventInvites eventId' = m.getEventInvites eventId' := by
  unfold CalendarMgr.removeEvent
  split
  · exact ⟨fun _ h _ => h, fun _ _ => rfl⟩
  · dsimp only
    rw [CalendarMgr.foldl_freeInviteId]
    constructor
    · intro event h hne
      refine (List.mem_eraseP_of_neg ?_).mpr h
      exact fun heq => hne (of_decide_eq_true heq).symm
    · intro eventId' hne
      change ((m.invites.erase eventId).lookup eventId').getD [] = _
      rw [SortedMap.lookup_erase, if_neg (Ne.symm hne)]
      rfl

/-- Only the invite that is named goes, from the event that is named. -/
theorem removeInvite_frame (inviteId eventId : ℕ) :
    (m.removeInvite inviteId eventId).events = m.events ∧
      ∀ eventId', ∀ invite ∈ m.getEventInvites eventId',
        ¬ (inviteId = invite.inviteId ∧ eventId = eventId') →
          invite ∈ (m.removeInvite inviteId eventId).getEventInvites eventId' := by
  unfold CalendarMgr.removeInvite
  split
  · exact ⟨rfl, fun _ _ h _ => h⟩
  · dsimp only
    split
    · refine ⟨rfl, fun eventId' invite h hnot => ?_⟩
      rw [CalendarMgr.getEventInvites_setEventInvites]
      split
      · rename_i heq
        refine (List.mem_eraseP_of_neg ?_).mpr (heq ▸ h)
        exact fun hid => hnot ⟨(of_decide_eq_true hid).symm, heq.symm⟩
      · exact h
    · exact ⟨rfl, fun _ _ h _ => h⟩

theorem setInvite_frame (inviteId : ℕ) (change : CalendarInvite → CalendarInvite) :
    (m.setInvite inviteId change).events = m.events ∧
      ∀ eventId, ∀ invite ∈ m.getEventInvites eventId,
        invite ∈ (m.setInvite inviteId change).getEventInvites eventId ∨
          inviteId = invite.inviteId ∧
            change invite ∈ (m.setInvite inviteId change).getEventInvites eventId := by
  unfold CalendarMgr.setInvite
  split
  · rename_i eventId invites hfind
    have hlookup : m.invites.lookup eventId = some invites :=
      SortedMap.lookup_eq_some.mpr (List.mem_of_find?_eq_some hfind)
    refine ⟨rfl, fun eventId' invite h => ?_⟩
    rw [CalendarMgr.getEventInvites_setEventInvites]
    split
    · rename_i heq
      have hmem : invite ∈ invites := by
        unfold CalendarMgr.getEventInvites at h
        rw [heq, hlookup] at h
        exact h
      exact (mem_modify_findIdx hmem).imp_right fun hchanged =>
        ⟨(of_decide_eq_true hchanged.1).symm, hchanged.2⟩
    · exact Or.inl h
  · exact ⟨rfl, fun _ _ h => Or.inl h⟩

/-! ## 3. The packets -/

theorem adds_handleAddEvent (s : Session) (fields : EventFields)
    (invitees : Option (List Invitee)) :
    Adds m (m.handleCalendarAddEvent s fields invitees).1 := by
  unfold CalendarMgr.handleCalendarAddEvent
  split
  · exact Adds.refl m
  dsimp only
  split
  · exact adds_getFreeEventId.trans ((adds_addInvite _ _).trans
      ((adds_freeInviteId _).trans (adds_addEvent _ _)))
  · cases invitees with
    | none => exact ⟨fun _ h => h, fun _ _ h => h⟩
    | some invitees =>
      exact adds_getFreeEventId.trans ((adds_addNewInvites _ _ _ _).trans (adds_addEvent _ _))

theorem adds_handleCopyEvent (s : Session) (eventId eventTime : ℕ) :
    Adds m (m.handleCalendarCopyEvent s eventId eventTime).1 := by
  unfold CalendarMgr.handleCalendarCopyEvent
  split
  · exact Adds.refl m
  split
  · exact adds_getFreeEventId.trans ((adds_addEvent _ _).trans (adds_addNewInvites _ _ _ _))
  · exact Adds.refl m

theorem adds_handleEventInvite (s : Session) (eventId inviteId : ℕ) (character : Option Character)
    (isPreInvite isGuildEvent : Bool) :
    Adds m (m.handleCalendarEventInvite s eventId inviteId character isPreInvite
      isGuildEvent).1 := by
  unfold CalendarMgr.handleCalendarEventInvite
  split
  · exact Adds.refl m
  split
  · exact Adds.refl m
  split
  · exact Adds.refl m
  split
  · split
    · split
      · exact Adds.refl m
      · dsimp only
        exact adds_addNewInvite _ _
    · exact Adds.refl m
  · split
    · exact Adds.refl m
    · exact adds_freeInviteId _

theorem adds_handleEventSignup (s : Session) (eventId : ℕ) (tentative : Bool) :
    Adds m (m.handleCalendarEventSignup s eventId tentative).1 := by
  unfold CalendarMgr.handleCalendarEventSignup
  split
  · split
    · exact Adds.refl m
    · dsimp only
      exact adds_addNewInvite _ _
  · exact Adds.refl m

/-- A packet that sets something of an invite does so, or nothing. -/
def SetsInvite (m m' : CalendarMgr) (inviteId : ℕ) (change : CalendarInvite → CalendarInvite) :
    Prop :=
  m' = m ∨ m' = m.setInvite inviteId change

theorem setsInvite_eventRsvp (s : Session) (eventId inviteId status : ℕ) :
    SetsInvite m (m.handleCalendarEventRsvp s eventId inviteId status).1 inviteId fun invite =>
      { invite with status, statusTime := s.now } := by
  unfold CalendarMgr.handleCalendarEventRsvp
  split
  · split
    · exact Or.inl rfl
    · split
      · exact Or.inr rfl
      · exact Or.inl rfl
  · exact Or.inl rfl

theorem setsInvite_eventStatus (eventId inviteId status : ℕ) :
    SetsInvite m (m.handleCalendarEventStatus eventId inviteId status).1 inviteId fun invite =>
      { invite with status } := by
  unfold CalendarMgr.handleCalendarEventStatus
  split
  · split
    · exact Or.inr rfl
    · exact Or.inl rfl
  · exact Or.inl rfl

theorem setsInvite_eventModeratorStatus (eventId inviteId rank : ℕ) :
    SetsInvite m (m.handleCalendarEventModeratorStatus eventId inviteId rank).1 inviteId
      fun invite => { invite with rank } := by
  unfold CalendarMgr.handleCalendarEventModeratorStatus
  split
  · split
    · exact Or.inr rfl
    · exact Or.inl rfl
  · exact Or.inl rfl

theorem updateEvent_cases (s : Session) (eventId : ℕ) (fields : EventFields) :
    (m.handleCalendarUpdateEvent s eventId fields).1 = m ∨
      (m.handleCalendarUpdateEvent s eventId fields).1 =
        m.setEvent eventId (CalendarMgr.updatedEvent fields) := by
  unfold CalendarMgr.handleCalendarUpdateEvent
  split
  · exact Or.inl rfl
  · split
    · exact Or.inr rfl
    · exact Or.inl rfl

theorem eventRemoveInvite_cases (invitee : ObjectGuid) (inviteId eventId : ℕ) :
    (m.handleCalendarEventRemoveInvite invitee inviteId eventId).1 = m ∨
      (m.handleCalendarEventRemoveInvite invitee inviteId eventId).1 =
        m.removeInvite inviteId eventId := by
  unfold CalendarMgr.handleCalendarEventRemoveInvite
  split
  · split
    · exact Or.inl rfl
    · exact Or.inr rfl
  · exact Or.inl rfl

theorem SetsInvite.events {inviteId : ℕ} {change : CalendarInvite → CalendarInvite}
    (h : SetsInvite m m' inviteId change) : m'.events = m.events := by
  rcases h with rfl | rfl
  · rfl
  · exact (setInvite_frame inviteId change).1

theorem SetsInvite.invites {inviteId eventId : ℕ} {change : CalendarInvite → CalendarInvite}
    (h : SetsInvite m m' inviteId change) (hmem : invite ∈ m.getEventInvites eventId) :
    invite ∈ m'.getEventInvites eventId ∨
      inviteId = invite.inviteId ∧ change invite ∈ m'.getEventInvites eventId := by
  rcases h with rfl | rfl
  · exact Or.inl hmem
  · exact (setInvite_frame inviteId change).2 eventId invite hmem

/-- After a packet, each event stays unless the packet removes it. -/
theorem event_stays (s : Session) (p : Packet) {event : CalendarEvent} (h : event ∈ m.events)
    (hremoved : ¬ p.removesEvent event.eventId) :
    EventStays (p.updatesEvent event.eventId) event (m.handle s p).1 := by
  cases p with
  | addEvent fields invitees =>
    exact EventStays.of_mem _ ((adds_handleAddEvent s fields invitees).events event h)
  | updateEvent eventId inviteId fields =>
    change EventStays (eventId = event.eventId) event
      (m.handleCalendarUpdateEvent s eventId fields).1
    rcases updateEvent_cases (m := m) s eventId fields with heq | heq
    · rw [heq]
      exact EventStays.of_mem _ h
    · rw [heq]
      rcases mem_modify_findIdx (p := fun event => event.eventId = eventId)
        (f := CalendarMgr.updatedEvent fields) h with hmem | ⟨hid, hmem⟩
      · exact EventStays.of_mem _ hmem
      · exact ⟨_, hmem, ⟨rfl, rfl, rfl⟩, fun hnot => absurd (of_decide_eq_true hid).symm hnot⟩
  | removeEvent eventId =>
    exact EventStays.of_mem _ ((removeEvent_frame eventId).1 event h hremoved)
  | copyEvent eventId inviteId eventTime =>
    exact EventStays.of_mem _ ((adds_handleCopyEvent s eventId eventTime).events event h)
  | eventInvite eventId inviteId character isPreInvite isGuildEvent =>
    exact EventStays.of_mem _ ((adds_handleEventInvite s eventId inviteId character isPreInvite
      isGuildEvent).events event h)
  | eventSignup eventId tentative =>
    exact EventStays.of_mem _ ((adds_handleEventSignup s eventId tentative).events event h)
  | eventRsvp eventId inviteId status =>
    exact EventStays.of_mem _ ((setsInvite_eventRsvp s eventId inviteId status).events.symm ▸ h)
  | eventRemoveInvite invitee inviteId ownerInviteId eventId =>
    refine EventStays.of_mem _ ?_
    change event ∈ (m.handleCalendarEventRemoveInvite invitee inviteId eventId).1.events
    rcases eventRemoveInvite_cases (m := m) invitee inviteId eventId with heq | heq
    · rw [heq]
      exact h
    · rw [heq, (removeInvite_frame inviteId eventId).1]
      exact h
  | eventStatus invitee eventId inviteId ownerInviteId status =>
    exact EventStays.of_mem _ ((setsInvite_eventStatus eventId inviteId status).events.symm ▸ h)
  | eventModeratorStatus invitee eventId inviteId ownerInviteId rank =>
    exact EventStays.of_mem _
      ((setsInvite_eventModeratorStatus eventId inviteId rank).events.symm ▸ h)

/-- After a packet, each invite stays unless the packet removes it or its event. -/
theorem invite_stays (s : Session) (p : Packet) {eventId : ℕ}
    (h : invite ∈ m.getEventInvites eventId) (hevent : ¬ p.removesEvent eventId)
    (hremoved : ¬ p.removesInvite invite.inviteId eventId) :
    InviteStays (p.setsStatus invite.inviteId) (p.setsRank invite.inviteId) eventId invite
      (m.handle s p).1 := by
  cases p with
  | addEvent fields invitees =>
    exact InviteStays.of_mem _ _ ((adds_handleAddEvent s fields invitees).invites eventId invite h)
  | updateEvent event inviteId fields =>
    refine InviteStays.of_mem _ _ ?_
    change invite ∈ (m.handleCalendarUpdateEvent s event fields).1.getEventInvites eventId
    rcases updateEvent_cases (m := m) s event fields with heq | heq <;> rw [heq] <;> exact h
  | removeEvent event =>
    refine InviteStays.of_mem _ _ ?_
    change invite ∈ (m.removeEvent event).1.getEventInvites eventId
    rw [(removeEvent_frame event).2 eventId hevent]
    exact h
  | copyEvent event inviteId eventTime =>
    exact InviteStays.of_mem _ _ ((adds_handleCopyEvent s event eventTime).invites eventId invite h)
  | eventInvite event inviteId character isPreInvite isGuildEvent =>
    exact InviteStays.of_mem _ _ ((adds_handleEventInvite s event inviteId character isPreInvite
      isGuildEvent).invites eventId invite h)
  | eventSignup event tentative =>
    exact InviteStays.of_mem _ _
      ((adds_handleEventSignup s event tentative).invites eventId invite h)
  | eventRsvp event inviteId status =>
    rcases (setsInvite_eventRsvp s event inviteId status).invites h with hmem | ⟨hid, hmem⟩
    · exact InviteStays.of_mem _ _ hmem
    · exact ⟨_, hmem, ⟨rfl, rfl, rfl, rfl, rfl⟩, fun hnot => absurd hid hnot, fun _ => rfl⟩
  | eventRemoveInvite invitee inviteId ownerInviteId event =>
    refine InviteStays.of_mem _ _ ?_
    change invite ∈
      (m.handleCalendarEventRemoveInvite invitee inviteId event).1.getEventInvites eventId
    rcases eventRemoveInvite_cases (m := m) invitee inviteId event with heq | heq
    · rw [heq]
      exact h
    · rw [heq]
      exact (removeInvite_frame inviteId event).2 eventId invite h hremoved
  | eventStatus invitee event inviteId ownerInviteId status =>
    rcases (setsInvite_eventStatus event inviteId status).invites h with hmem | ⟨hid, hmem⟩
    · exact InviteStays.of_mem _ _ hmem
    · exact ⟨_, hmem, ⟨rfl, rfl, rfl, rfl, rfl⟩, fun hnot => absurd hid hnot, fun _ => rfl⟩
  | eventModeratorStatus invitee event inviteId ownerInviteId rank =>
    rcases (setsInvite_eventModeratorStatus event inviteId rank).invites h with hmem | ⟨hid, hmem⟩
    · exact InviteStays.of_mem _ _ hmem
    · exact ⟨_, hmem, ⟨rfl, rfl, rfl, rfl, rfl⟩, fun _ => ⟨rfl, rfl⟩, fun hnot => absurd hid hnot⟩

/-- **Nobody is asked for his rights**: an editing packet does the same from another player. -/
theorem handle_anyone (m : CalendarMgr) (s : Session) (guid team guildId : ℕ) {p : Packet}
    (h : p.editing = true) :
    m.handle { s with guid, team, guildId } p = m.handle s p := by
  cases p with
  | addEvent fields invitees => nomatch h
  | eventInvite eventId inviteId character isPreInvite isGuildEvent => nomatch h
  | eventSignup eventId tentative => nomatch h
  | _ => rfl

/-! ## 4. Runs -/

/-- The packets of a run, each with its session. -/
abbrev Traffic := List (Session × Packet)

def CalendarMgr.receive (m : CalendarMgr) (x : Session × Packet) : CalendarMgr :=
  (m.handle x.1 x.2).1

theorem events_stay (run : Traffic) : ∀ (m : CalendarMgr) {event : CalendarEvent},
    event ∈ m.events → (∀ x ∈ run, ¬ x.2.removesEvent event.eventId) →
      EventStays (∃ x ∈ run, x.2.updatesEvent event.eventId) event
        (exec CalendarMgr.receive m run) := by
  induction run with
  | nil => exact fun _ _ h _ => EventStays.of_mem _ h
  | cons x run ih =>
    intro m event h hremoved
    obtain ⟨hfirst, hrest⟩ := List.forall_mem_cons.mp hremoved
    obtain ⟨event', hmem, hsame, heq⟩ := event_stays x.1 x.2 h hfirst
    have hlast := ih (m.receive x) hmem (hsame.eventId ▸ hrest)
    rw [hsame.eventId] at hlast
    simp only [List.mem_cons, exists_eq_or_imp]
    exact hlast.trans hsame heq

theorem invites_stay (run : Traffic) (eventId : ℕ) : ∀ (m : CalendarMgr) {invite : CalendarInvite},
    invite ∈ m.getEventInvites eventId → (∀ x ∈ run, ¬ x.2.removesEvent eventId) →
      (∀ x ∈ run, ¬ x.2.removesInvite invite.inviteId eventId) →
        InviteStays (∃ x ∈ run, x.2.setsStatus invite.inviteId)
          (∃ x ∈ run, x.2.setsRank invite.inviteId) eventId invite
            (exec CalendarMgr.receive m run) := by
  induction run with
  | nil => exact fun _ _ h _ _ => InviteStays.of_mem _ _ h
  | cons x run ih =>
    intro m invite h hevent hremoved
    obtain ⟨hevent, hevents⟩ := List.forall_mem_cons.mp hevent
    obtain ⟨hfirst, hrest⟩ := List.forall_mem_cons.mp hremoved
    obtain ⟨invite', hmem, hsame, hstatus, hrank⟩ := invite_stays x.1 x.2 h hevent hfirst
    have hlast := ih (m.receive x) hmem hevents (hsame.inviteId ▸ hrest)
    rw [hsame.inviteId] at hlast
    simp only [List.mem_cons, exists_eq_or_imp]
    exact hlast.trans hsame hstatus hrank

/-- **What packets do to the calendar**, from any state: who sends an editing packet plays no part;
events and invites stay as they are but for what the packets name. -/
theorem calendar_changes (m : CalendarMgr) (run : Traffic) :
    (∀ (s : Session) (guid team guildId : ℕ) (p : Packet), p.editing = true →
      m.handle { s with guid, team, guildId } p = m.handle s p) ∧
    (∀ event ∈ m.events, (∀ x ∈ run, ¬ x.2.removesEvent event.eventId) →
      EventStays (∃ x ∈ run, x.2.updatesEvent event.eventId) event
        (exec CalendarMgr.receive m run)) ∧
    (∀ eventId, ∀ invite ∈ m.getEventInvites eventId,
      (∀ x ∈ run, ¬ x.2.removesEvent eventId) →
      (∀ x ∈ run, ¬ x.2.removesInvite invite.inviteId eventId) →
        InviteStays (∃ x ∈ run, x.2.setsStatus invite.inviteId)
          (∃ x ∈ run, x.2.setsRank invite.inviteId) eventId invite
            (exec CalendarMgr.receive m run)) :=
  ⟨fun s guid team guildId _ h => handle_anyone m s guid team guildId h,
    fun _ h hremoved => events_stay run m h hremoved,
    fun eventId _ h hevent hremoved => invites_stay run eventId m h hevent hremoved⟩

/-- One event, by the player 1, without invites. -/
def board : CalendarMgr :=
  ⟨[⟨1, 1, 0, 0, -1, 200000, 0, 200000, "Molten Core", ""⟩], .empty, ⟨[], 1⟩, ⟨[], 0⟩⟩

/-- **A stranger changes an event and removes it**: the player 2 is neither its creator nor a
moderator. -/
theorem stranger_edits_event :
    ¬ MayEdit board 2 1 ∧
    ((board.handle ⟨2, 0, 0, 0, false, 0⟩
      (.updateEvent 1 0 ⟨"Cancelled", "", 0, -1, 300000, 300000, 0⟩)).1.getEvent 1).map
        (fun event => (event.title, event.eventTime)) = some ("Cancelled", 300000) ∧
    (board.handle ⟨2, 0, 0, 0, false, 0⟩ (.removeEvent 1)).1.getEvent 1 = none := by
  refine ⟨?_, by decide, by decide⟩
  rintro (⟨event, hmem, -, hcreator⟩ | ⟨invite, hmem, -⟩)
  · rw [List.mem_singleton.mp hmem] at hcreator
    nomatch hcreator
  · nomatch hmem

end HungerGames.Calendar
