/-
# The ids of the calendar

The ids of the stored events are distinct and not free, and so are those of the stored invites, as
long as no invite is made that lives only while a packet is handled: the destructor of it gives
back an id that was never taken, 0 for an announcement, and for a pre-invite what the packet says.

Events and invites have a pool each.  A handler takes ids for what it stores, loses one when it
makes an invite that is not stored, and gives back those of what is removed.
-/
import HungerGames.Calendar.Mgr
import HungerGames.System.Run
import HungerGames.System.FirstMatch

namespace HungerGames.Calendar

open HungerGames.System

variable {m m' m₁ : CalendarMgr}

/-! ## 1. What is to hold of the ids -/

namespace CalendarMgr

def storedEventIds (m : CalendarMgr) : List ℕ := m.events.map CalendarEvent.eventId

def storedInviteIds (m : CalendarMgr) : List ℕ := m.allInvites.map CalendarInvite.inviteId

end CalendarMgr

/-- The ids of the stored events and of the stored invites are distinct, not 0, not in the free
list, and not handed out again. -/
structure IdsSound (m : CalendarMgr) : Prop where
  events : m.storedEventIds.Nodup
  eventsPositive : ∀ id ∈ m.storedEventIds, id ≠ 0
  eventsNotFree : ∀ id ∈ m.storedEventIds, id ∉ m.eventIds.free
  eventsFresh : 0 < m.eventIds.left 64 → m.getFreeEventId.1 ∉ m.storedEventIds
  invites : m.storedInviteIds.Nodup
  invitesPositive : ∀ id ∈ m.storedInviteIds, id ≠ 0
  invitesNotFree : ∀ id ∈ m.storedInviteIds, id ∉ m.inviteIds.free
  invitesFresh : 0 < m.inviteIds.left 64 → m.getFreeInviteId.1 ∉ m.storedInviteIds

/-- An id that becomes available was that of a stored event or invite. -/
structure ReleasesOwned (m m' : CalendarMgr) : Prop where
  events : ∀ id, m'.eventIds.Available id → m.eventIds.Available id ∨ id ∈ m.storedEventIds
  invites : ∀ id, m'.inviteIds.Available id → m.inviteIds.Available id ∨ id ∈ m.storedInviteIds

/-- The flags are those of a guild announcement. -/
def announces (fields : EventFields) : Bool := fields.flags &&& calendarFlagWithoutInvites ≠ 0

/-- The character may be invited by the player. -/
def mayInvite (s : Session) (invitee : Character) : Bool :=
  (s.team = invitee.team ∨ s.allowTwoSideInteraction) ∧ ¬ invitee.ignores

/-- An invite is made that is a local variable. -/
def makesTemporary : Action → Bool
  | .packet s (.addEvent fields _) => ¬ s.isPast fields.eventPackedTime ∧ announces fields
  | .packet s (.eventInvite _ _ (some invitee) isPreInvite isGuildEvent) =>
    mayInvite s invitee ∧ isPreInvite ∧ ¬ (isGuildEvent ∧ invitee.guildId = s.guildId)
  | _ => false

/-- How many ids of events are asked for. -/
def askedEventIds (m : CalendarMgr) : Action → ℕ
  | .packet s (.addEvent fields _) => if s.isPast fields.eventPackedTime then 0 else 1
  | .packet s (.copyEvent eventId _ eventTime) =>
    if s.isPast eventTime ∨ (m.getEvent eventId).isNone then 0 else 1
  | _ => 0

/-- How many ids of invites are asked for. -/
def askedInviteIds (m : CalendarMgr) : Action → ℕ
  | .packet s (.addEvent fields (some invitees)) =>
    if s.isPast fields.eventPackedTime ∨ announces fields then 0
    else (invitees.take maxPlayerInvites).length
  | .packet s (.copyEvent eventId _ eventTime) =>
    if s.isPast eventTime ∨ (m.getEvent eventId).isNone then 0
    else (m.getEventInvites eventId).length
  | .packet s (.eventInvite eventId _ (some invitee) isPreInvite _) =>
    if mayInvite s invitee ∧ ¬ isPreInvite then
      match m.getEvent eventId with
      | some event => if event.isGuildEvent ∧ event.guildId = invitee.guildId then 0 else 1
      | none => 0
    else 0
  | .packet s (.eventSignup eventId _) =>
    match m.getEvent eventId with
    | some event => if event.isGuildEvent ∧ event.guildId ≠ s.guildId then 0 else 1
    | none => 0
  | _ => 0

/-- No temporary invite is made, and there are as many ids left as are asked for. -/
structure OwnIds (m : CalendarMgr) (a : Action) : Prop where
  noTemporary : makesTemporary a = false
  eventsLeft : askedEventIds m a ≤ m.eventIds.left 64
  invitesLeft : askedInviteIds m a ≤ m.inviteIds.left 64

/-! ## 2. The invariant -/

/-- The pools are sound for what is stored. -/
structure Allocated (m : CalendarMgr) : Prop where
  events : m.eventIds.Sound 64 m.storedEventIds
  invites : m.inviteIds.Sound 64 m.storedInviteIds

theorem Allocated.idsSound (h : Allocated m) : IdsSound m where
  events := h.events.nodup
  eventsPositive := h.events.positive
  eventsNotFree := h.events.notFree
  eventsFresh hleft := (List.nodup_cons.mp (h.events.take hleft).nodup).1
  invites := h.invites.nodup
  invitesPositive := h.invites.positive
  invitesNotFree := h.invites.notFree
  invitesFresh hleft := (List.nodup_cons.mp (h.invites.take hleft).nodup).1

def EventsKept (m m' : CalendarMgr) : Prop :=
  m.eventIds.Kept 64 m.storedEventIds m'.eventIds m'.storedEventIds

def InvitesKept (m m' : CalendarMgr) : Prop :=
  m.inviteIds.Kept 64 m.storedInviteIds m'.inviteIds m'.storedInviteIds

/-- What is left of `m` after a step: the pools are sound, and ids only moved between those that
are stored and those that are available. -/
structure Kept (m m' : CalendarMgr) : Prop where
  events : EventsKept m m'
  invites : InvitesKept m m'

theorem Kept.allocated (h : Kept m m') : Allocated m' := ⟨h.events.sound, h.invites.sound⟩

theorem Kept.releasesOwned (h : Kept m m') : ReleasesOwned m m' :=
  ⟨fun id hid => h.events.within id (Or.inl hid), fun id hid => h.invites.within id (Or.inl hid)⟩

theorem Allocated.refl (h : Allocated m) : Kept m m := ⟨h.events.refl, h.invites.refl⟩

theorem Kept.trans {m'' : CalendarMgr} (h : Kept m m') (h' : Kept m' m'') : Kept m m'' :=
  ⟨h.events.trans h'.events, h.invites.trans h'.invites⟩

theorem Allocated.eventsKept (h : Allocated m) (hevents : m'.events = m.events)
    (hids : m'.eventIds = m.eventIds) : EventsKept m m' := by
  unfold EventsKept CalendarMgr.storedEventIds
  rw [hevents, hids]
  exact h.events.refl

theorem Allocated.invitesKept (h : Allocated m) (hinvites : m'.invites = m.invites)
    (hids : m'.inviteIds = m.inviteIds) : InvitesKept m m' := by
  unfold InvitesKept CalendarMgr.storedInviteIds CalendarMgr.allInvites
  rw [hinvites, hids]
  exact h.invites.refl

theorem EventsKept.frame (h : EventsKept m m₁) (hevents : m'.events = m₁.events)
    (hids : m'.eventIds = m₁.eventIds) : EventsKept m m' := by
  unfold EventsKept CalendarMgr.storedEventIds
  rw [hevents, hids]
  exact h

/-! ## 3. Adding -/

theorem events_addInvite (event : CalendarEvent) (invite : CalendarInvite) :
    (m.addInvite event invite).events = m.events ∧
      (m.addInvite event invite).eventIds = m.eventIds ∧
        (m.addInvite event invite).inviteIds = m.inviteIds := by
  unfold CalendarMgr.addInvite
  split
  · exact ⟨rfl, rfl, rfl⟩
  · exact ⟨rfl, rfl, rfl⟩

theorem events_addNewInvites {β : Type} (event : CalendarEvent)
    (make : β → ℕ → CalendarInvite) (xs : List β) : ∀ m : CalendarMgr,
    (xs.foldl (fun m x => m.addNewInvite event (make x)) m).events = m.events ∧
      (xs.foldl (fun m x => m.addNewInvite event (make x)) m).eventIds = m.eventIds := by
  induction xs with
  | nil => exact fun _ => ⟨rfl, rfl⟩
  | cons x xs ih =>
    intro m
    obtain ⟨hevents, hids, -⟩ :=
      events_addInvite (m := m.getFreeInviteId.2) event (make x m.getFreeInviteId.1)
    exact ⟨(ih _).1.trans hevents, (ih _).2.trans hids⟩

/-- One more invite of an event. -/
theorem allInvites_push (m : CalendarMgr) (eventId : ℕ) (invite : CalendarInvite) :
    (m.setEventInvites eventId (m.getEventInvites eventId ++ [invite])).allInvites.Perm
      (invite :: m.allInvites) := by
  obtain ⟨others, hall, hset, -⟩ := m.allInvites_split eventId
  refine (hset _).trans ?_
  rw [List.append_assoc]
  exact List.perm_middle.trans (hall.symm.cons invite)

/-- An invite with a free id is stored, or its id is lost. -/
theorem invitesKept_addNewInvite (h : m.inviteIds.Sound 64 m.storedInviteIds)
    (hleft : 0 < m.inviteIds.left 64) (event : CalendarEvent) {make : ℕ → CalendarInvite}
    (hmake : ∀ id, (make id).inviteId = id) :
    InvitesKept m (m.addNewInvite event make) ∧
      (m.addNewInvite event make).inviteIds.left 64 + 1 = m.inviteIds.left 64 := by
  have htake := h.kept_take hleft
  have hids : (m.addNewInvite event make).inviteIds = (m.inviteIds.take 64).2 :=
    (events_addInvite (m := m.getFreeInviteId.2) event (make m.getFreeInviteId.1)).2.2
  constructor
  · unfold InvitesKept
    rw [hids]
    unfold CalendarMgr.addNewInvite CalendarMgr.addInvite
    split
    · exact htake.sublist (List.sublist_cons_self _ _)
    · have hperm := (allInvites_push m.getFreeInviteId.2 (make m.getFreeInviteId.1).eventId
        (make m.getFreeInviteId.1)).map CalendarInvite.inviteId
      rw [List.map_cons, hmake] at hperm
      exact htake.perm hperm.symm
  · rw [hids]
    exact IdPool.left_take hleft

theorem invitesKept_addNewInvites {β : Type} (event : CalendarEvent)
    {make : β → ℕ → CalendarInvite} (hmake : ∀ x id, (make x id).inviteId = id) (xs : List β) :
    ∀ m : CalendarMgr, m.inviteIds.Sound 64 m.storedInviteIds →
      xs.length ≤ m.inviteIds.left 64 →
        InvitesKept m (xs.foldl (fun m x => m.addNewInvite event (make x)) m) := by
  induction xs with
  | nil => exact fun _ h _ => h.refl
  | cons x xs ih =>
    intro m h hleft
    have hpos : 0 < m.inviteIds.left 64 := Nat.lt_of_lt_of_le (Nat.succ_pos _) hleft
    obtain ⟨hkept, hrest⟩ := invitesKept_addNewInvite h hpos event (hmake x)
    have hleft' : xs.length ≤ (m.addNewInvite event (make x)).inviteIds.left 64 := by
      rw [List.length_cons] at hleft
      omega
    exact hkept.trans (ih _ hkept.sound hleft')

/-- An event with a free id is stored. -/
theorem eventsKept_addEvent (h : Allocated m) (hleft : 0 < m.eventIds.left 64)
    (hevents : m₁.events = m.events) (hids : m₁.eventIds = (m.eventIds.take 64).2)
    {event : CalendarEvent} (hevent : event.eventId = (m.eventIds.take 64).1) (address : ℕ) :
    EventsKept m (m₁.addEvent event address) := by
  have hperm : (m₁.addEvent event address).storedEventIds.Perm
      ((m.eventIds.take 64).1 :: m.storedEventIds) := by
    unfold CalendarMgr.addEvent CalendarMgr.storedEventIds
    rw [hevents]
    have hmiddle : (m.events.take address ++ event :: m.events.drop address).Perm
        (event :: m.events) := by
      have hcut : (m.events.take address ++ event :: m.events.drop address).Perm
          (event :: (m.events.take address ++ m.events.drop address)) := List.perm_middle
      rwa [List.take_append_drop] at hcut
    have hmap := hmiddle.map CalendarEvent.eventId
    rwa [List.map_cons, hevent] at hmap
  have hids' : (m₁.addEvent event address).eventIds = (m.eventIds.take 64).2 := hids
  unfold EventsKept
  rw [hids']
  exact (h.events.kept_take hleft).perm hperm.symm

/-! ## 4. Removing -/

theorem kept_removeEvent (h : Allocated m) (eventId : ℕ) : Kept m (m.removeEvent eventId).1 := by
  unfold CalendarMgr.removeEvent
  split
  · exact h.refl
  · rename_i event hevent
    obtain ⟨others, hall, -, herase⟩ := m.allInvites_split eventId
    have hid : event.eventId = eventId := CalendarMgr.eventId_of_getEvent hevent
    dsimp only
    rw [CalendarMgr.foldl_freeInviteId]
    constructor
    · have hperm := (perm_eraseP hevent).map CalendarEvent.eventId
      rw [List.map_cons, hid] at hperm
      have hrelease := (h.events.perm hperm).kept_release
      exact (h.events.refl.perm hperm).trans hrelease
    · have hperm := hall.map CalendarInvite.inviteId
      rw [List.map_append] at hperm
      have hrelease := IdPool.Sound.kept_releases _ _ (h.invites.perm hperm)
      exact ((h.invites.refl.perm hperm).trans hrelease).perm
        (herase.map CalendarInvite.inviteId).symm

theorem kept_removeInvite (h : Allocated m) (inviteId eventId : ℕ) :
    Kept m (m.removeInvite inviteId eventId) := by
  unfold CalendarMgr.removeInvite
  split
  · exact h.refl
  · dsimp only
    split
    · rename_i hany
      refine ⟨h.eventsKept rfl rfl, ?_⟩
      obtain ⟨others, hall, hset, -⟩ := m.allInvites_split eventId
      obtain ⟨invite, hfind⟩ := Option.isSome_iff_exists.mp (List.find?_isSome.mpr
        (List.any_eq_true.mp hany))
      have hid : invite.inviteId = inviteId := CalendarMgr.inviteId_of_find hfind
      have hsplit := (hall.trans ((perm_eraseP hfind).append_right others)).map
        CalendarInvite.inviteId
      rw [List.cons_append, List.map_cons, hid] at hsplit
      have hrelease := (h.invites.perm hsplit).kept_release
      exact ((h.invites.refl.perm hsplit).trans hrelease).perm
        ((hset _).map CalendarInvite.inviteId).symm
    · exact h.refl

/-- What each turn of a loop keeps, the loop keeps. -/
theorem kept_foldl {β : Type} {turn : CalendarMgr → β → CalendarMgr}
    (hturn : ∀ m x, Allocated m → Kept m (turn m x)) (xs : List β) : ∀ m : CalendarMgr,
    Allocated m → Kept m (xs.foldl turn m) := by
  induction xs with
  | nil => exact fun _ h => h.refl
  | cons x xs ih => exact fun m h => (hturn m x h).trans (ih _ (hturn m x h).allocated)

theorem kept_removeEvents (h : Allocated m) (remove : CalendarEvent → Bool) (visited : List ℕ) :
    Kept m (m.removeEvents remove visited) := by
  refine kept_foldl (fun m eventId h => ?_) visited m h
  split
  · split
    · exact kept_removeEvent h eventId
    · exact h.refl
  · exact h.refl

theorem kept_removeAllPlayerEventsAndInvites (h : Allocated m) (guid : ObjectGuid)
    (visited : List ℕ) : Kept m (m.removeAllPlayerEventsAndInvites guid visited) := by
  have hevents := kept_removeEvents h (fun event => event.creatorGUID = guid) visited
  exact hevents.trans (kept_foldl (fun m invite h => kept_removeInvite h _ _) _ _ hevents.allocated)

theorem kept_removePlayerGuildEventsAndSignups (h : Allocated m) (guid : ObjectGuid) (guildId : ℕ)
    (visited : List ℕ) : Kept m (m.removePlayerGuildEventsAndSignups guid guildId visited) := by
  have hevents := kept_removeEvents h
    (fun event => event.creatorGUID = guid ∧ (event.isGuildEvent ∨ event.isGuildAnnouncement)) visited
  refine hevents.trans (kept_foldl (fun m invite h => ?_) _ _ hevents.allocated)
  split
  · split
    · exact kept_removeInvite h _ _
    · exact h.refl
  · exact h.refl

/-! ## 5. Changing -/

theorem kept_setEvent (h : Allocated m) (eventId : ℕ) {change : CalendarEvent → CalendarEvent}
    (hchange : ∀ event, (change event).eventId = event.eventId) :
    Kept m (m.setEvent eventId change) := by
  refine ⟨?_, h.invitesKept rfl rfl⟩
  have hids : (m.setEvent eventId change).storedEventIds = m.storedEventIds :=
    map_modify_of_eq hchange _ _
  unfold EventsKept
  rw [hids]
  exact h.events.refl

theorem kept_setInvite (h : Allocated m) (inviteId : ℕ) {change : CalendarInvite → CalendarInvite}
    (hchange : ∀ invite, (change invite).inviteId = invite.inviteId) :
    Kept m (m.setInvite inviteId change) := by
  unfold CalendarMgr.setInvite
  split
  · rename_i eventId invites hfind
    have hlookup : m.invites.lookup eventId = some invites :=
      SortedMap.lookup_eq_some.mpr (List.mem_of_find?_eq_some hfind)
    have hinvites : m.getEventInvites eventId = invites := by
      unfold CalendarMgr.getEventInvites
      rw [hlookup]
      rfl
    obtain ⟨others, hall, hset, -⟩ := m.allInvites_split eventId
    rw [hinvites] at hall
    refine ⟨h.eventsKept rfl rfl, ?_⟩
    refine h.invites.refl.perm ((hall.map _).trans ?_)
    refine List.Perm.trans ?_ ((hset _).map CalendarInvite.inviteId).symm
    rw [List.map_append, List.map_append, map_modify_of_eq hchange]
  · exact h.refl

/-! ## 6. The packets -/

theorem announces_newEvent (s : Session) (eventId : ℕ) (fields : EventFields) :
    (CalendarMgr.newEvent s eventId fields).isGuildAnnouncement = announces fields ∧
      (CalendarMgr.newEvent s eventId fields).eventId = eventId := by
  unfold CalendarMgr.newEvent
  dsimp only
  split
  · exact ⟨rfl, rfl⟩
  · exact ⟨rfl, rfl⟩

section

variable (h : Allocated m)
include h

theorem kept_handleCalendarAddEvent (s : Session) (fields : EventFields)
    (invitees : Option (List Invitee)) (hown : OwnIds m (.packet s (.addEvent fields invitees))) :
    Kept m (m.handleCalendarAddEvent s fields invitees).1 := by
  obtain ⟨htemporary, hevents, hinvites⟩ := hown
  unfold makesTemporary at htemporary
  unfold askedEventIds at hevents
  dsimp only at htemporary hevents
  unfold CalendarMgr.handleCalendarAddEvent
  by_cases hpast : s.isPast fields.eventPackedTime = true
  · rw [if_pos hpast]
    exact h.refl
  rw [if_neg hpast] at hevents ⊢
  have hnot : announces fields = false := by simpa [hpast] using htemporary
  obtain ⟨hannounces, hid⟩ := announces_newEvent s m.getFreeEventId.1 fields
  dsimp only
  rw [hannounces, hnot, if_neg Bool.false_ne_true]
  cases invitees with
  | none =>
    rw [hid]
    refine ⟨?_, h.invitesKept rfl rfl⟩
    have htake := h.events.kept_take hevents
    exact htake.trans htake.sound.kept_release
  | some invitees =>
    unfold askedInviteIds at hinvites
    dsimp only at hinvites
    rw [hnot, if_neg (by simp [hpast])] at hinvites
    have hframe := events_addNewInvites (CalendarMgr.newEvent s m.getFreeEventId.1 fields)
      (fun (invitee : Invitee) inviteId => (⟨inviteId, (CalendarMgr.newEvent s m.getFreeEventId.1
        fields).eventId, invitee.guid, s.guid, defaultResponseTime, invitee.status, invitee.rank,
        ""⟩ : CalendarInvite)) (invitees.take maxPlayerInvites) m.getFreeEventId.2
    refine ⟨eventsKept_addEvent h hevents hframe.1 hframe.2 hid s.address, ?_⟩
    exact invitesKept_addNewInvites (m := m.getFreeEventId.2) _ (fun _ _ => rfl) _ h.invites hinvites

theorem kept_handleCalendarCopyEvent (s : Session) (eventId inviteId eventTime : ℕ)
    (hown : OwnIds m (.packet s (.copyEvent eventId inviteId eventTime))) :
    Kept m (m.handleCalendarCopyEvent s eventId eventTime).1 := by
  obtain ⟨-, hevents, hinvites⟩ := hown
  unfold askedEventIds at hevents
  unfold askedInviteIds at hinvites
  unfold CalendarMgr.handleCalendarCopyEvent
  by_cases hpast : s.isPast eventTime = true
  · rw [if_pos hpast]
    exact h.refl
  rw [if_neg hpast]
  cases hevent : m.getEvent eventId with
  | none => exact h.refl
  | some oldEvent =>
    dsimp only at hevents hinvites ⊢
    rw [hevent, if_neg (by simp [hpast])] at hevents hinvites
    have hcopies : ∀ newEvent : CalendarEvent, newEvent.eventId = (m.eventIds.take 64).1 →
        Kept m ((m.getEventInvites eventId).foldl (fun m invite =>
          m.addNewInvite newEvent fun inviteId =>
            { invite with inviteId, eventId := newEvent.eventId })
          (m.getFreeEventId.2.addEvent newEvent s.address)) := by
      intro newEvent hid
      have hadd : EventsKept m (m.getFreeEventId.2.addEvent newEvent s.address) :=
        eventsKept_addEvent h hevents (rfl : m.getFreeEventId.2.events = m.events)
          (rfl : m.getFreeEventId.2.eventIds = _) hid s.address
      have hframe := events_addNewInvites newEvent (fun (invite : CalendarInvite) inviteId =>
        { invite with inviteId, eventId := newEvent.eventId }) (m.getEventInvites eventId)
        (m.getFreeEventId.2.addEvent newEvent s.address)
      refine ⟨hadd.frame hframe.1 hframe.2, ?_⟩
      exact invitesKept_addNewInvites (m := m.getFreeEventId.2.addEvent newEvent s.address) newEvent
        (fun _ _ => rfl) _ h.invites hinvites
    exact hcopies _ rfl

/-- One invite is added. -/
theorem kept_addNewInvite (hleft : 0 < m.inviteIds.left 64) (event : CalendarEvent)
    {make : ℕ → CalendarInvite} (hmake : ∀ id, (make id).inviteId = id) :
    Kept m (m.addNewInvite event make) := by
  obtain ⟨hevents, hids, -⟩ :=
    events_addInvite (m := m.getFreeInviteId.2) event (make m.getFreeInviteId.1)
  exact ⟨h.eventsKept hevents hids, (invitesKept_addNewInvite h.invites hleft event hmake).1⟩

theorem kept_handleCalendarEventInvite (s : Session) (eventId inviteId : ℕ)
    (character : Option Character) (isPreInvite isGuildEvent : Bool)
    (hown : OwnIds m (.packet s (.eventInvite eventId inviteId character isPreInvite isGuildEvent))) :
    Kept m
      (m.handleCalendarEventInvite s eventId inviteId character isPreInvite isGuildEvent).1 := by
  obtain ⟨htemporary, -, hinvites⟩ := hown
  unfold CalendarMgr.handleCalendarEventInvite
  cases character with
  | none => exact h.refl
  | some invitee =>
    unfold askedInviteIds at hinvites
    dsimp only at htemporary hinvites ⊢
    split
    · exact h.refl
    split
    · exact h.refl
    rename_i hteam hignores
    have hmay : mayInvite s invitee = true := by
      unfold mayInvite
      simp only [hignores]
      by_cases hsame : s.team = invitee.team
      · simp [hsame]
      · simpa [hsame] using hteam
    split
    · rename_i hpre
      rw [if_pos ⟨hmay, hpre⟩] at hinvites
      cases hevent : m.getEvent eventId with
      | none => exact h.refl
      | some event =>
        rw [hevent] at hinvites
        dsimp only at hinvites ⊢
        split
        · exact h.refl
        · rename_i hguild
          rw [if_neg hguild] at hinvites
          dsimp only
          refine kept_addNewInvite h hinvites event ?_
          exact fun _ => rfl
    · rename_i hpre
      split
      · exact h.refl
      · rename_i hguild
        exact absurd ⟨hmay, not_not.mp hpre, hguild⟩ (of_decide_eq_false htemporary)

theorem kept_handleCalendarEventSignup (s : Session) (eventId : ℕ) (tentative : Bool)
    (hown : OwnIds m (.packet s (.eventSignup eventId tentative))) :
    Kept m (m.handleCalendarEventSignup s eventId tentative).1 := by
  have hinvites := hown.invitesLeft
  unfold askedInviteIds at hinvites
  unfold CalendarMgr.handleCalendarEventSignup
  cases hevent : m.getEvent eventId with
  | none => exact h.refl
  | some event =>
    dsimp only at hinvites ⊢
    rw [hevent] at hinvites
    dsimp only at hinvites
    split
    · exact h.refl
    · rename_i hguild
      rw [if_neg hguild] at hinvites
      dsimp only
      refine kept_addNewInvite h hinvites event ?_
      exact fun _ => rfl

/-- **A step that uses only ids of its own** keeps the pools sound. -/
theorem kept_step (a : Action) (hown : OwnIds m a) : Kept m (m.step a) := by
  cases a with
  | removeAll guid visited => exact kept_removeAllPlayerEventsAndInvites h guid visited
  | removeGuild guid guildId visited =>
    exact kept_removePlayerGuildEventsAndSignups h guid guildId visited
  | packet s packet =>
    cases packet with
    | addEvent fields invitees => exact kept_handleCalendarAddEvent h s fields invitees hown
    | copyEvent eventId inviteId eventTime =>
      exact kept_handleCalendarCopyEvent h s eventId inviteId eventTime hown
    | eventInvite eventId inviteId character isPreInvite isGuildEvent =>
      exact kept_handleCalendarEventInvite h s _ _ _ _ _ hown
    | eventSignup eventId tentative => exact kept_handleCalendarEventSignup h s _ _ hown
    | removeEvent eventId => exact kept_removeEvent h eventId
    | updateEvent eventId inviteId fields =>
      change Kept m (m.handleCalendarUpdateEvent s eventId fields).1
      unfold CalendarMgr.handleCalendarUpdateEvent
      split
      · exact h.refl
      · split
        · exact kept_setEvent h eventId fun _ => rfl
        · exact h.refl
    | eventRsvp eventId inviteId status =>
      change Kept m (m.handleCalendarEventRsvp s eventId inviteId status).1
      unfold CalendarMgr.handleCalendarEventRsvp
      split
      · split
        · exact h.refl
        · split
          · exact kept_setInvite h inviteId fun _ => rfl
          · exact h.refl
      · exact h.refl
    | eventRemoveInvite invitee inviteId ownerInviteId eventId =>
      change Kept m (m.handleCalendarEventRemoveInvite invitee inviteId eventId).1
      unfold CalendarMgr.handleCalendarEventRemoveInvite
      split
      · split
        · exact h.refl
        · exact kept_removeInvite h inviteId eventId
      · exact h.refl
    | eventStatus invitee eventId inviteId ownerInviteId status =>
      change Kept m (m.handleCalendarEventStatus eventId inviteId status).1
      unfold CalendarMgr.handleCalendarEventStatus
      split
      · split
        · exact kept_setInvite h inviteId fun _ => rfl
        · exact h.refl
      · exact h.refl
    | eventModeratorStatus invitee eventId inviteId ownerInviteId rank =>
      change Kept m (m.handleCalendarEventModeratorStatus eventId inviteId rank).1
      unfold CalendarMgr.handleCalendarEventModeratorStatus
      split
      · split
        · exact kept_setInvite h inviteId fun _ => rfl
        · exact h.refl
      · exact h.refl

end

/-! ## 7. Loading -/

/-- The ids of the rows are the keys of both tables: distinct, and of 64 bits.  None is 0. -/
structure KeyedRows (events : List CalendarEvent) (invites : List CalendarInvite) : Prop where
  eventIds : (events.map CalendarEvent.eventId).Nodup
  eventsPositive : ∀ event ∈ events, event.eventId ≠ 0
  eventsWord : ∀ event ∈ events, event.eventId < 2 ^ 64
  inviteIds : (invites.map CalendarInvite.inviteId).Nodup
  invitesPositive : ∀ invite ∈ invites, invite.inviteId ≠ 0
  invitesWord : ∀ invite ∈ invites, invite.inviteId < 2 ^ 64

/-- The greatest id of some rows, or 0. -/
theorem foldl_max {α : Type} (id : α → ℕ) (rows : List α) : ∀ n : ℕ,
    n ≤ rows.foldl (fun greatest row => max greatest (id row)) n ∧
      (∀ row ∈ rows, id row ≤ rows.foldl (fun greatest row => max greatest (id row)) n) ∧
        ∀ bound, n < bound → (∀ row ∈ rows, id row < bound) →
          rows.foldl (fun greatest row => max greatest (id row)) n < bound := by
  induction rows with
  | nil => exact fun n => ⟨le_rfl, nofun, fun _ hn _ => hn⟩
  | cons row rows ih =>
    intro n
    obtain ⟨hle, hall, hlt⟩ := ih (max n (id row))
    refine ⟨(le_max_left _ _).trans hle,
      List.forall_mem_cons.mpr ⟨(le_max_right _ _).trans hle, hall⟩, fun bound hn hrows => ?_⟩
    obtain ⟨hrow, hrest⟩ := List.forall_mem_cons.mp hrows
    exact hlt bound (max_lt hn hrow) hrest

/-- The pool of what is loaded: every id below the greatest that no row has is free. -/
theorem sound_loaded {α : Type} {id : α → ℕ} {rows : List α} (hnodup : (rows.map id).Nodup)
    (hpos : ∀ row ∈ rows, id row ≠ 0) (hword : ∀ row ∈ rows, id row < 2 ^ 64)
    {unused : ℕ → Bool} (hunused : ∀ row ∈ rows, unused (id row) = false) :
    IdPool.Sound 64
      ⟨(List.range' 1 (rows.foldl (fun greatest row => max greatest (id row)) 0 - 1)).filter unused,
        rows.foldl (fun greatest row => max greatest (id row)) 0⟩ (rows.map id) := by
  obtain ⟨-, hall, hlt⟩ := foldl_max id rows 0
  have hrange : ∀ i ∈ (List.range' 1 (rows.foldl (fun greatest row => max greatest (id row)) 0 -
      1)).filter unused, i ≠ 0 ∧ i ≤ rows.foldl (fun greatest row => max greatest (id row)) 0 ∧
        unused i = true := by
    intro i hi
    obtain ⟨hmem, hfree⟩ := List.mem_filter.mp hi
    have hbounds := List.mem_range'_1.mp hmem
    exact ⟨by omega, by omega, hfree⟩
  refine ⟨hnodup, List.forall_mem_map.mpr hpos, List.forall_mem_map.mpr fun row hrow hfree => ?_,
    List.forall_mem_map.mpr hall, List.Nodup.filter _ List.nodup_range',
    fun i hi => (hrange i hi).1, fun i hi => (hrange i hi).2.1, hlt _ (by decide) hword⟩
  have hused := (hrange _ hfree).2.2
  rw [hunused row hrow] at hused
  nomatch hused

theorem allInvites_load (rows : List CalendarInvite) : ∀ m : CalendarMgr,
    ((rows.foldl (fun m invite =>
        m.setEventInvites invite.eventId (m.getEventInvites invite.eventId ++ [invite]))
      m).allInvites.Perm (rows ++ m.allInvites)) ∧
      (rows.foldl (fun m invite =>
        m.setEventInvites invite.eventId (m.getEventInvites invite.eventId ++ [invite])) m).events =
          m.events := by
  induction rows with
  | nil => exact fun _ => ⟨List.Perm.refl _, rfl⟩
  | cons row rows ih =>
    intro m
    obtain ⟨hperm, hevents⟩ :=
      ih (m.setEventInvites row.eventId (m.getEventInvites row.eventId ++ [row]))
    refine ⟨hperm.trans ?_, hevents⟩
    exact ((allInvites_push m row.eventId row).append_left rows).trans List.perm_middle

/-- **What `LoadFromDB` makes of keyed rows** has sound pools. -/
theorem allocated_loadFromDB {events : List CalendarEvent} {invites : List CalendarInvite}
    (h : KeyedRows events invites) : Allocated (CalendarMgr.loadFromDB events invites) := by
  obtain ⟨hperm, hevents⟩ := allInvites_load invites ⟨events, .empty, ⟨[], 0⟩, ⟨[], 0⟩⟩
  have hperm : (invites.foldl (fun m invite =>
      m.setEventInvites invite.eventId (m.getEventInvites invite.eventId ++ [invite]))
        (⟨events, .empty, ⟨[], 0⟩, ⟨[], 0⟩⟩ : CalendarMgr)).allInvites.Perm invites :=
    hperm.trans (List.Perm.of_eq (List.append_nil invites))
  constructor
  · unfold CalendarMgr.storedEventIds CalendarMgr.loadFromDB
    rw [hevents]
    refine sound_loaded h.eventIds h.eventsPositive h.eventsWord fun event hevent => ?_
    unfold CalendarMgr.getEvent
    rw [hevents, Option.isNone_eq_false_iff, List.find?_isSome]
    exact ⟨event, hevent, decide_eq_true rfl⟩
  · refine (sound_loaded h.inviteIds h.invitesPositive h.invitesWord fun invite hinvite => ?_).perm
      (hperm.map CalendarInvite.inviteId).symm
    unfold CalendarMgr.getInvite
    rw [Option.isNone_eq_false_iff, List.find?_isSome]
    exact ⟨invite, hperm.mem_iff.mpr hinvite, decide_eq_true rfl⟩

/-! ## 8. Runs -/

/-- **The ids of the calendar**: in every run from what was loaded whose steps make no temporary
invite and find enough ids, the ids of what is stored are distinct, not 0 and not free in every
state, and no step releases an id that was not that of something stored. -/
theorem calendar_ids (events : List CalendarEvent) (invites : List CalendarInvite)
    (hrows : KeyedRows events invites) (run : List Action)
    (hrun : Along CalendarMgr.step OwnIds (CalendarMgr.loadFromDB events invites) run) :
    IdsSound (exec CalendarMgr.step (CalendarMgr.loadFromDB events invites) run) ∧
      Along CalendarMgr.step (fun m a => ReleasesOwned m (m.step a))
        (CalendarMgr.loadFromDB events invites) run := by
  have hloaded := allocated_loadFromDB hrows
  constructor
  · have hlast : Allocated (exec CalendarMgr.step (CalendarMgr.loadFromDB events invites) run) :=
      exec_invariant (I := Allocated) (fun _ a h hown => (kept_step h a hown).allocated) hloaded hrun
    exact hlast.idsSound
  · refine Along.of_invariant (fun m a h hown => ?_) hloaded hrun
    have hkept := kept_step h a hown
    exact ⟨hkept.allocated, hkept.releasesOwned⟩

/-- The player 7 adds an event, with the flags and the invitees that are given. -/
def addsEvent (flags : ℕ) (invitees : List Invitee) : Action :=
  .packet ⟨7, 0, 0, 0, false, 0⟩
    (.addEvent ⟨"Gathering", "", 4, -1, 100000, 100000, flags⟩ (some invitees))

theorem calendar_ids_one : IdsSound
    (exec CalendarMgr.step (CalendarMgr.loadFromDB [] []) [addsEvent 0 [⟨8, 0, 0⟩]]) :=
  (calendar_ids [] [] ⟨List.nodup_nil, nofun, nofun, List.nodup_nil, nofun, nofun⟩
    [addsEvent 0 [⟨8, 0, 0⟩]] ⟨⟨by decide, by decide, by decide⟩, trivial⟩).1

/-- **An announcement gives the id 0 back**, and the greatest id of an invite wraps: the next
invite that is stored has the id 0. -/
theorem announcement_releases_zero :
    (exec CalendarMgr.step (CalendarMgr.loadFromDB [] [])
      [addsEvent calendarFlagWithoutInvites [], addsEvent 0 [⟨8, 0, 0⟩]]).storedInviteIds = [0] ∧
    ¬ IdsSound (exec CalendarMgr.step (CalendarMgr.loadFromDB [] [])
      [addsEvent calendarFlagWithoutInvites [], addsEvent 0 [⟨8, 0, 0⟩]]) := by
  have hids : (exec CalendarMgr.step (CalendarMgr.loadFromDB [] [])
      [addsEvent calendarFlagWithoutInvites [], addsEvent 0 [⟨8, 0, 0⟩]]).storedInviteIds = [0] := by
    decide
  refine ⟨hids, fun h => ?_⟩
  have hpositive := h.invitesPositive
  rw [hids] at hpositive
  exact hpositive 0 List.mem_cons_self rfl

end HungerGames.Calendar
