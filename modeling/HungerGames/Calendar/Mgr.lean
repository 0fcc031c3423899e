/-
# The calendar

The manager stores the events, and for each event the invites to it.  Ids of both come from pools,
and are given back by the destructors: also by those of invites that live only while a packet is
handled.

The events are a set of pointers, so the order in which it is gone through depends on where they
were allocated: it is that of the list here, and where a new event gets to is part of what is asked
of the server.  The packets that are sent to the players are left out, but for the result of a
command.
-/
import HungerGames.System.IdPool
import HungerGames.System.SortedMap
import Mathlib.Order.Nat

namespace HungerGames.Calendar

open HungerGames.System

abbrev ObjectGuid := ℕ

/-! ## 1. Events and invites -/

/-- `CALENDAR_FLAG_INVITES_LOCKED` -/
def calendarFlagInvitesLocked : ℕ := 0x010

/-- `CALENDAR_FLAG_WITHOUT_INVITES` -/
def calendarFlagWithoutInvites : ℕ := 0x040

/-- `CALENDAR_FLAG_GUILD_EVENT` -/
def calendarFlagGuildEvent : ℕ := 0x400

/-- `CALENDAR_STATUS_INVITED`, and others that the handlers name; a packet may bring any number. -/
def calendarStatusInvited : ℕ := 0
def calendarStatusSignedUp : ℕ := 6
def calendarStatusNotSignedUp : ℕ := 7
def calendarStatusTentative : ℕ := 8
def calendarStatusRemoved : ℕ := 9

/-- `CALENDAR_RANK_PLAYER` -/
def calendarRankPlayer : ℕ := 0

/-- `CALENDAR_RANK_MODERATOR` -/
def calendarRankModerator : ℕ := 1

/-- The errors that the handlers send. -/
inductive CalendarError where
  | eventInvalid
  | noGuildInvites
  | playerNotFound
  | notAllied
  | ignoringYou
  | guildPlayerNotInGuild
  | eventLocked
  | noInvite
  | deleteCreatorFailed
deriving DecidableEq

structure CalendarInvite where
  inviteId : ℕ
  eventId : ℕ
  invitee : ObjectGuid
  senderGUID : ObjectGuid
  statusTime : ℤ
  status : ℕ
  rank : ℕ
  text : String
deriving DecidableEq

structure CalendarEvent where
  eventId : ℕ
  creatorGUID : ObjectGuid
  guildId : ℕ
  type : ℕ
  dungeonId : ℤ
  eventTime : ℤ
  flags : ℕ
  timezoneTime : ℤ
  title : String
  description : String
deriving DecidableEq

def CalendarEvent.isGuildEvent (event : CalendarEvent) : Bool :=
  event.flags &&& calendarFlagGuildEvent ≠ 0

def CalendarEvent.isGuildAnnouncement (event : CalendarEvent) : Bool :=
  event.flags &&& calendarFlagWithoutInvites ≠ 0

/-! ## 2. `CalendarMgr` -/

structure CalendarMgr where
  events : List CalendarEvent
  invites : SortedMap ℕ (List CalendarInvite)
  eventIds : IdPool
  inviteIds : IdPool

namespace CalendarMgr

variable (m : CalendarMgr)

def getEvent (eventId : ℕ) : Option CalendarEvent :=
  m.events.find? fun event => event.eventId = eventId

def getEventInvites (eventId : ℕ) : List CalendarInvite := (m.invites.lookup eventId).getD []

/-- The invites of all events, one event after another. -/
def allInvites : List CalendarInvite := m.invites.values.flatten

def getInvite (inviteId : ℕ) : Option CalendarInvite :=
  m.allInvites.find? fun invite => invite.inviteId = inviteId

def getPlayerInvites (guid : ObjectGuid) : List CalendarInvite :=
  m.allInvites.filter fun invite => invite.invitee = guid

def setEventInvites (eventId : ℕ) (invites : List CalendarInvite) : CalendarMgr :=
  { m with invites := m.invites.insert eventId invites }

def freeEventId (id : ℕ) : CalendarMgr := { m with eventIds := m.eventIds.release 64 id }

def getFreeEventId : ℕ × CalendarMgr :=
  ((m.eventIds.take 64).1, { m with eventIds := (m.eventIds.take 64).2 })

def freeInviteId (id : ℕ) : CalendarMgr := { m with inviteIds := m.inviteIds.release 64 id }

def getFreeInviteId : ℕ × CalendarMgr :=
  ((m.inviteIds.take 64).1, { m with inviteIds := (m.inviteIds.take 64).2 })

/-- `address` is where the set has the event. -/
def addEvent (event : CalendarEvent) (address : ℕ) : CalendarMgr :=
  { m with events := m.events.take address ++ event :: m.events.drop address }

/-- An invite to an announcement is sent, but not stored. -/
def addInvite (event : CalendarEvent) (invite : CalendarInvite) : CalendarMgr :=
  if event.isGuildAnnouncement then m
  else m.setEventInvites invite.eventId (m.getEventInvites invite.eventId ++ [invite])

/-- An invite with a free id is added. -/
def addNewInvite (event : CalendarEvent) (make : ℕ → CalendarInvite) : CalendarMgr :=
  m.getFreeInviteId.2.addInvite event (make m.getFreeInviteId.1)

/-- The event is deleted with the invites to it. -/
def removeEvent (eventId : ℕ) : CalendarMgr × Option CalendarError :=
  match m.getEvent eventId with
  | none => (m, some .eventInvalid)
  | some _ =>
    let eventInvites := m.getEventInvites eventId
    let m := eventInvites.foldl (fun m invite => m.freeInviteId invite.inviteId) m
    let m := { m with invites := m.invites.erase eventId }.freeEventId eventId
    ({ m with events := m.events.eraseP fun event => event.eventId = eventId }, none)

def removeInvite (inviteId eventId : ℕ) : CalendarMgr :=
  match m.getEvent eventId with
  | none => m
  | some _ =>
    let eventInvites := m.getEventInvites eventId
    if eventInvites.any fun invite => invite.inviteId = inviteId then
      (m.freeInviteId inviteId).setEventInvites eventId
        (eventInvites.eraseP fun invite => invite.inviteId = inviteId)
    else m

/-- Where a removal takes an event out of the set that the loop goes through, the iterator is no
longer valid: `visited` are the ids of the events that the loop gets to. -/
def removeEvents (remove : CalendarEvent → Bool) (visited : List ℕ) : CalendarMgr :=
  visited.foldl (fun m eventId =>
    match m.getEvent eventId with
    | some event => if remove event then (m.removeEvent eventId).1 else m
    | none => m) m

def removeAllPlayerEventsAndInvites (guid : ObjectGuid) (visited : List ℕ) : CalendarMgr :=
  let m := m.removeEvents (fun event => event.creatorGUID = guid) visited
  (m.getPlayerInvites guid).foldl (fun m invite => m.removeInvite invite.inviteId invite.eventId) m

def removePlayerGuildEventsAndSignups (guid : ObjectGuid) (guildId : ℕ) (visited : List ℕ) :
    CalendarMgr :=
  let m := m.removeEvents
    (fun event => event.creatorGUID = guid ∧ (event.isGuildEvent ∨ event.isGuildAnnouncement))
    visited
  (m.getPlayerInvites guid).foldl (fun m invite =>
    match m.getEvent invite.eventId with
    | some event =>
      if event.isGuildEvent ∧ event.guildId = guildId then
        m.removeInvite invite.inviteId invite.eventId
      else m
    | none => m) m

/-- A change of the event that `GetEvent` finds. -/
def setEvent (eventId : ℕ) (change : CalendarEvent → CalendarEvent) : CalendarMgr :=
  { m with
    events := m.events.modify (m.events.findIdx fun event => event.eventId = eventId) change }

/-- A change of the invite that `GetInvite` finds. -/
def setInvite (inviteId : ℕ) (change : CalendarInvite → CalendarInvite) : CalendarMgr :=
  match m.invites.entries.find? fun x => x.2.any fun invite => invite.inviteId = inviteId with
  | some (eventId, invites) =>
    m.setEventInvites eventId
      (invites.modify (invites.findIdx fun invite => invite.inviteId = inviteId) change)
  | none => m

/-- `LoadFromDB`, from the rows of both tables; the events in the order that the set has. -/
def loadFromDB (events : List CalendarEvent) (invites : List CalendarInvite) : CalendarMgr :=
  let m : CalendarMgr := ⟨events, .empty, ⟨[], 0⟩, ⟨[], 0⟩⟩
  let m := invites.foldl (fun m invite =>
    m.setEventInvites invite.eventId (m.getEventInvites invite.eventId ++ [invite])) m
  let maxEventId := events.foldl (fun greatest event => max greatest event.eventId) 0
  let maxInviteId := invites.foldl (fun greatest invite => max greatest invite.inviteId) 0
  { m with
    eventIds.free := (List.range' 1 (maxEventId - 1)).filter fun id => (m.getEvent id).isNone
    eventIds.greatest := maxEventId
    inviteIds.free := (List.range' 1 (maxInviteId - 1)).filter fun id => (m.getInvite id).isNone
    inviteIds.greatest := maxInviteId }

end CalendarMgr

/-! ## 3. The packets -/

/-- The player who sends a packet, and what is asked of the server meanwhile: the time, whether the
two sides may invite each other, and where the set has a new event. -/
structure Session where
  guid : ObjectGuid
  team : ℕ
  guildId : ℕ
  now : ℤ
  allowTwoSideInteraction : Bool
  address : ℕ

/-- What `CMSG_CALENDAR_ADD_EVENT` and `CMSG_CALENDAR_UPDATE_EVENT` say of the event. -/
structure EventFields where
  title : String
  description : String
  type : ℕ
  dungeonId : ℤ
  eventPackedTime : ℕ
  timeZoneTime : ℕ
  flags : ℕ

structure Invitee where
  guid : ObjectGuid
  status : ℕ
  rank : ℕ

/-- The character who has the name in a packet; `ignores` the player who sends it. -/
structure Character where
  guid : ObjectGuid
  team : ℕ
  guildId : ℕ
  ignores : Bool

/-- 01/01/2000 00:00:00, the default response time. -/
def defaultResponseTime : ℤ := 946684800

/-- The client limits the amount of players to be invited to 100. -/
def maxPlayerInvites : ℕ := 100

/-- Events in the past are prevented. -/
def Session.isPast (s : Session) (time : ℕ) : Bool := (time : ℤ) < s.now - 86400

/-- The packets that reach the store.  The invitees are `none` when the packet ends too soon. -/
inductive Packet where
  | addEvent (fields : EventFields) (invitees : Option (List Invitee))
  | updateEvent (eventId inviteId : ℕ) (fields : EventFields)
  | removeEvent (eventId : ℕ)
  | copyEvent (eventId inviteId eventTime : ℕ)
  | eventInvite (eventId inviteId : ℕ) (character : Option Character)
      (isPreInvite isGuildEvent : Bool)
  | eventSignup (eventId : ℕ) (tentative : Bool)
  | eventRsvp (eventId inviteId status : ℕ)
  | eventRemoveInvite (invitee : ObjectGuid) (inviteId ownerInviteId eventId : ℕ)
  | eventStatus (invitee : ObjectGuid) (eventId inviteId ownerInviteId status : ℕ)
  | eventModeratorStatus (invitee : ObjectGuid) (eventId inviteId ownerInviteId rank : ℕ)

namespace CalendarMgr

variable (m : CalendarMgr) (s : Session)

/-- The event of a packet, as it is made. -/
def newEvent (eventId : ℕ) (fields : EventFields) : CalendarEvent :=
  let event : CalendarEvent :=
    { eventId, creatorGUID := s.guid, guildId := 0, type := fields.type
      dungeonId := fields.dungeonId, eventTime := fields.eventPackedTime, flags := fields.flags
      timezoneTime := fields.timeZoneTime, title := fields.title
      description := fields.description }
  if event.isGuildEvent ∨ event.isGuildAnnouncement then { event with guildId := s.guildId }
  else event

/-- The invite of an announcement is a local variable, with the id 0. -/
def handleCalendarAddEvent (fields : EventFields) (invitees : Option (List Invitee)) :
    CalendarMgr × Option CalendarError :=
  if s.isPast fields.eventPackedTime then (m, none)
  else
    let event := newEvent s m.getFreeEventId.1 fields
    let m := m.getFreeEventId.2
    if event.isGuildAnnouncement then
      let invite : CalendarInvite :=
        ⟨0, event.eventId, 0, s.guid, defaultResponseTime, calendarStatusNotSignedUp,
          calendarRankPlayer, ""⟩
      (((m.addInvite event invite).freeInviteId invite.inviteId).addEvent event s.address, none)
    else
      match invitees with
      | none => (m.freeEventId event.eventId, none)
      | some invitees =>
        let m := (invitees.take maxPlayerInvites).foldl (fun m invitee =>
          m.addNewInvite event fun inviteId =>
            ⟨inviteId, event.eventId, invitee.guid, s.guid, defaultResponseTime, invitee.status,
              invitee.rank, ""⟩) m
        (m.addEvent event s.address, none)

/-- The event as an update leaves it. -/
def updatedEvent (fields : EventFields) (event : CalendarEvent) : CalendarEvent :=
  { event with
    type := fields.type
    flags := fields.flags
    eventTime := fields.eventPackedTime
    timezoneTime := fields.timeZoneTime
    dungeonId := fields.dungeonId
    title := fields.title
    description := fields.description }

def handleCalendarUpdateEvent (eventId : ℕ) (fields : EventFields) :
    CalendarMgr × Option CalendarError :=
  if s.isPast fields.eventPackedTime then (m, none)
  else
    match m.getEvent eventId with
    | some _ => (m.setEvent eventId (updatedEvent fields), none)
    | none => (m, some .eventInvalid)

def handleCalendarRemoveEvent (eventId : ℕ) : CalendarMgr × Option CalendarError :=
  m.removeEvent eventId

/-- The event is copied with its invites. -/
def handleCalendarCopyEvent (eventId eventTime : ℕ) : CalendarMgr × Option CalendarError :=
  if s.isPast eventTime then (m, none)
  else
    match m.getEvent eventId with
    | some oldEvent =>
      let newEvent := { oldEvent with eventId := m.getFreeEventId.1, eventTime := eventTime }
      let m := m.getFreeEventId.2.addEvent newEvent s.address
      ((m.getEventInvites eventId).foldl (fun m invite =>
        m.addNewInvite newEvent fun inviteId =>
          { invite with inviteId, eventId := newEvent.eventId }) m, none)
    | none => (m, some .eventInvalid)

/-- A pre-invite is a local variable, with the id that the packet brings. -/
def handleCalendarEventInvite (eventId inviteId : ℕ) (character : Option Character)
    (isPreInvite isGuildEvent : Bool) : CalendarMgr × Option CalendarError :=
  match character with
  | none => (m, some .playerNotFound)
  | some invitee =>
    if s.team ≠ invitee.team ∧ ¬ s.allowTwoSideInteraction then (m, some .notAllied)
    else if invitee.ignores then (m, some .ignoringYou)
    else if ¬ isPreInvite then
      match m.getEvent eventId with
      | some event =>
        if event.isGuildEvent ∧ event.guildId = invitee.guildId then (m, some .noGuildInvites)
        else
          (m.addNewInvite event fun inviteId =>
            ⟨inviteId, eventId, invitee.guid, s.guid, defaultResponseTime, calendarStatusInvited,
              calendarRankPlayer, ""⟩, none)
      | none => (m, some .eventInvalid)
    else if isGuildEvent ∧ invitee.guildId = s.guildId then (m, some .noGuildInvites)
    else
      let invite : CalendarInvite :=
        ⟨inviteId, 0, invitee.guid, s.guid, defaultResponseTime, calendarStatusInvited,
          calendarRankPlayer, ""⟩
      (m.freeInviteId invite.inviteId, none)

def handleCalendarEventSignup (eventId : ℕ) (tentative : Bool) :
    CalendarMgr × Option CalendarError :=
  match m.getEvent eventId with
  | some event =>
    if event.isGuildEvent ∧ event.guildId ≠ s.guildId then (m, some .guildPlayerNotInGuild)
    else
      let status := if tentative then calendarStatusTentative else calendarStatusSignedUp
      (m.addNewInvite event fun inviteId =>
        ⟨inviteId, eventId, s.guid, s.guid, s.now, status, calendarRankPlayer, ""⟩, none)
  | none => (m, some .eventInvalid)

def handleCalendarEventRsvp (eventId inviteId status : ℕ) : CalendarMgr × Option CalendarError :=
  match m.getEvent eventId with
  | some event =>
    if status ≠ calendarStatusRemoved ∧ event.flags &&& calendarFlagInvitesLocked ≠ 0 then
      (m, some .eventLocked)
    else
      match m.getInvite inviteId with
      | some _ =>
        (m.setInvite inviteId fun invite => { invite with status, statusTime := s.now }, none)
      | none => (m, some .noInvite)
  | none => (m, some .eventInvalid)

def handleCalendarEventRemoveInvite (invitee : ObjectGuid) (inviteId eventId : ℕ) :
    CalendarMgr × Option CalendarError :=
  match m.getEvent eventId with
  | some event =>
    if event.creatorGUID = invitee then (m, some .deleteCreatorFailed)
    else (m.removeInvite inviteId eventId, none)
  | none => (m, some .noInvite)

def handleCalendarEventStatus (eventId inviteId status : ℕ) : CalendarMgr × Option CalendarError :=
  match m.getEvent eventId with
  | some _ =>
    match m.getInvite inviteId with
    | some _ => (m.setInvite inviteId fun invite => { invite with status }, none)
    | none => (m, some .noInvite)
  | none => (m, some .eventInvalid)

def handleCalendarEventModeratorStatus (eventId inviteId rank : ℕ) :
    CalendarMgr × Option CalendarError :=
  match m.getEvent eventId with
  | some _ =>
    match m.getInvite inviteId with
    | some _ => (m.setInvite inviteId fun invite => { invite with rank }, none)
    | none => (m, some .noInvite)
  | none => (m, some .eventInvalid)

/-- A packet is handled. -/
def handle : Packet → CalendarMgr × Option CalendarError
  | .addEvent fields invitees => m.handleCalendarAddEvent s fields invitees
  | .updateEvent eventId _ fields => m.handleCalendarUpdateEvent s eventId fields
  | .removeEvent eventId => m.handleCalendarRemoveEvent eventId
  | .copyEvent eventId _ eventTime => m.handleCalendarCopyEvent s eventId eventTime
  | .eventInvite eventId inviteId character isPreInvite isGuildEvent =>
    m.handleCalendarEventInvite s eventId inviteId character isPreInvite isGuildEvent
  | .eventSignup eventId tentative => m.handleCalendarEventSignup s eventId tentative
  | .eventRsvp eventId inviteId status => m.handleCalendarEventRsvp s eventId inviteId status
  | .eventRemoveInvite invitee inviteId _ eventId =>
    m.handleCalendarEventRemoveInvite invitee inviteId eventId
  | .eventStatus _ eventId inviteId _ status => m.handleCalendarEventStatus eventId inviteId status
  | .eventModeratorStatus _ eventId inviteId _ rank =>
    m.handleCalendarEventModeratorStatus eventId inviteId rank

end CalendarMgr

/-! ## 4. Runs -/

/-- A packet comes, a character is deleted, or one leaves his guild. -/
inductive Action where
  | packet (s : Session) (packet : Packet)
  | removeAll (guid : ObjectGuid) (visited : List ℕ)
  | removeGuild (guid : ObjectGuid) (guildId : ℕ) (visited : List ℕ)

def CalendarMgr.step (m : CalendarMgr) : Action → CalendarMgr
  | .packet s packet => (m.handle s packet).1
  | .removeAll guid visited => m.removeAllPlayerEventsAndInvites guid visited
  | .removeGuild guid guildId visited => m.removePlayerGuildEventsAndSignups guid guildId visited

/-! ## 5. Where the invites are -/

namespace CalendarMgr

variable {m : CalendarMgr}

theorem eventId_of_getEvent {eventId : ℕ} {event : CalendarEvent}
    (h : m.getEvent eventId = some event) : event.eventId = eventId := by
  have hfound := List.find?_some h
  exact of_decide_eq_true hfound

theorem inviteId_of_find {inviteId : ℕ} {invites : List CalendarInvite} {invite : CalendarInvite}
    (h : invites.find? (fun invite => invite.inviteId = inviteId) = some invite) :
    invite.inviteId = inviteId := by
  have hfound := List.find?_some h
  exact of_decide_eq_true hfound

theorem getEventInvites_setEventInvites (eventId eventId' : ℕ) (invites : List CalendarInvite) :
    (m.setEventInvites eventId invites).getEventInvites eventId' =
      if eventId' = eventId then invites else m.getEventInvites eventId' := by
  unfold getEventInvites setEventInvites
  rw [SortedMap.lookup_insert]
  split <;> rfl

/-- **The invites of an event among all**: what they are replaced by, or that they are erased. -/
theorem allInvites_split (m : CalendarMgr) (eventId : ℕ) : ∃ others,
    m.allInvites.Perm (m.getEventInvites eventId ++ others) ∧
      (∀ invites, (m.setEventInvites eventId invites).allInvites.Perm (invites ++ others)) ∧
        (m.invites.erase eventId).values.flatten.Perm others := by
  obtain ⟨before, after, hentries, hinsert, herase⟩ := m.invites.split_at eventId
  have hfront : ∀ front middle back : List CalendarInvite,
      (front ++ (middle ++ back)).Perm (middle ++ (front ++ back)) := by
    intro front middle back
    rw [← List.append_assoc, ← List.append_assoc]
    exact List.perm_append_comm.append_right back
  refine ⟨(before.map Prod.snd).flatten ++ (after.map Prod.snd).flatten, ?_, fun invites => ?_, ?_⟩
  · unfold allInvites getEventInvites SortedMap.values
    rw [hentries]
    cases m.invites.lookup eventId with
    | none =>
      rw [List.map_append, List.flatten_append, List.map_append, List.flatten_append]
      exact List.Perm.of_eq (by simp)
    | some invites =>
      rw [List.map_append, List.flatten_append, List.map_append, List.flatten_append,
        List.append_assoc]
      have hmiddle :
          (((Option.map (Prod.mk eventId) (some invites)).toList).map Prod.snd).flatten = invites :=
        List.append_nil invites
      rw [hmiddle]
      exact hfront _ _ _
  · unfold allInvites setEventInvites SortedMap.values
    rw [hinsert, List.map_append, List.flatten_append]
    exact hfront _ _ _
  · unfold SortedMap.values
    rw [herase, List.map_append, List.flatten_append]

theorem foldl_freeInviteId (invites : List CalendarInvite) : ∀ m : CalendarMgr,
    invites.foldl (fun m invite => m.freeInviteId invite.inviteId) m =
      { m with
        inviteIds :=
          (invites.map CalendarInvite.inviteId).foldl (IdPool.release 64) m.inviteIds } := by
  induction invites with
  | nil => exact fun _ => rfl
  | cons invite invites ih => exact fun m => ih (m.freeInviteId invite.inviteId)

end CalendarMgr

end HungerGames.Calendar
