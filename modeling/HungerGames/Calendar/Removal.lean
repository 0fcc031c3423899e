/-
# Removals from the calendar

What the removals do to the objects: the events are a set of pointers in the order of their
addresses, and the invites vectors of pointers, filed under the ids of their events.  An object has
an address, so that it can be said which were deleted, and which pointers a loop still follows.

The bulk removals go through the set of events while they erase from it: where the event under the
iterator is erased, the iterator is no longer valid.  After that they go through a copy of the
invites of the player, and every pointer of it must still be alive when it is followed.

* `run_right_iff`: which removals remove exactly what they are to remove, in memory and in the
  database.
-/
import HungerGames.Calendar.Mgr
import HungerGames.System.EarlyReturn
import Mathlib.Data.List.Perm.Basic

namespace HungerGames.Calendar

open HungerGames.System

/-! ## 1. Objects -/

structure Object (α : Type) where
  address : ℕ
  value : α
deriving DecidableEq

abbrev EventObject : Type := Object CalendarEvent

abbrev InviteObject : Type := Object CalendarInvite

def EventObject.id (x : EventObject) : ℕ := x.value.eventId

def InviteObject.id (x : InviteObject) : ℕ := x.value.inviteId

/-- The event that the invite is to. -/
def InviteObject.event (x : InviteObject) : ℕ := x.value.eventId

/-- The calendar in memory, the rows of both tables, and the addresses of deleted objects. -/
structure Store where
  /-- in the order of their addresses -/
  events : List EventObject
  invites : SortedMap ℕ (List InviteObject)
  eventIds : IdPool
  inviteIds : IdPool
  eventRows : ℕ → Option CalendarEvent
  inviteRows : ℕ → Option CalendarInvite
  deleted : List ℕ

/-- A row is deleted. -/
def deleteRow {α : Type} (rows : ℕ → Option α) (id : ℕ) : ℕ → Option α := fun other =>
  if other = id then none else rows other

namespace Store

variable (s : Store)

def getEvent (eventId : ℕ) : Option EventObject := s.events.find? fun x => x.id = eventId

/-- `_invites[eventId]` -/
def vector (eventId : ℕ) : List InviteObject := (s.invites.lookup eventId).getD []

def allInvites : List InviteObject := s.invites.values.flatten

def getPlayerInvites (guid : ObjectGuid) : List InviteObject :=
  s.allInvites.filter fun x => x.value.invitee = guid

/-- An invite is deleted, and its row; the destructor gives back its id. -/
def deleteInvite (x : InviteObject) : Store :=
  { s with
    inviteRows := deleteRow s.inviteRows x.id
    inviteIds := s.inviteIds.release 64 x.id
    deleted := s.deleted ++ [x.address] }

def removeEvent (eventId : ℕ) : Store :=
  match s.getEvent eventId with
  | none => s
  | some event =>
    let s := (s.vector eventId).foldl deleteInvite s
    { s with
      invites := s.invites.erase eventId
      eventRows := deleteRow s.eventRows eventId
      eventIds := s.eventIds.release 64 event.id
      deleted := s.deleted ++ [event.address]
      events := s.events.filter fun x => x.address ≠ event.address }

/-- To look into `_invites[eventId]` is to make it. -/
def removeInvite (inviteId eventId : ℕ) : Store :=
  match s.getEvent eventId with
  | none => s
  | some _ =>
    match (s.vector eventId).find? fun x => x.id = inviteId with
    | none => { s with invites := s.invites.insert eventId (s.vector eventId) }
    | some x =>
      { s.deleteInvite x with
        invites := s.invites.insert eventId
          ((s.vector eventId).eraseP fun x => x.id = inviteId) }

/-! ## 2. The bulk removals -/

/-- What must not happen to a pointer or an iterator. -/
inductive Fault where
  /-- the iterator goes on from an event that was erased -/
  | erasedEvent
  /-- an invite that was deleted is looked at -/
  | deletedInvite
deriving DecidableEq

/-- The loop over the events.  An event that was erased is not met. -/
def removeEvents (remove : CalendarEvent → Bool) : List EventObject → Store → Except Fault Store
  | [], s => .ok s
  | x :: xs, s =>
    if x ∉ s.events then removeEvents remove xs s
    else if remove x.value then
      if x ∈ (s.removeEvent x.id).events then removeEvents remove xs (s.removeEvent x.id)
      else .error .erasedEvent
    else removeEvents remove xs s

/-- The loop over the copied invites of a player. -/
def removeInvites (remove : Store → CalendarInvite → Bool) :
    List InviteObject → Store → Except Fault Store
  | [], s => .ok s
  | x :: xs, s =>
    if x ∉ s.allInvites then .error .deletedInvite
    else removeInvites remove xs (if remove s x.value then s.removeInvite x.id x.event else s)

def removeAllPlayerEventsAndInvites (guid : ObjectGuid) : Except Fault Store := do
  let s ← removeEvents (fun event => event.creatorGUID = guid) s.events s
  removeInvites (fun _ _ => true) (s.getPlayerInvites guid) s

/-- A guild event or announcement of the player. -/
def guildEventOf (guid : ObjectGuid) (event : CalendarEvent) : Bool :=
  event.creatorGUID = guid ∧ (event.isGuildEvent ∨ event.isGuildAnnouncement)

/-- The invite is to an event of the guild. -/
def toGuild (guildId : ℕ) (s : Store) (invite : CalendarInvite) : Bool :=
  (s.getEvent invite.eventId).any fun x => x.value.isGuildEvent ∧ x.value.guildId = guildId

def removePlayerGuildEventsAndSignups (guid : ObjectGuid) (guildId : ℕ) : Except Fault Store := do
  let s ← removeEvents (guildEventOf guid) s.events s
  removeInvites (toGuild guildId) (s.getPlayerInvites guid) s

end Store

inductive Removal where
  | oneEvent (eventId : ℕ)
  | oneInvite (inviteId eventId : ℕ)
  | allOf (guid : ObjectGuid)
  | guildOf (guid : ObjectGuid) (guildId : ℕ)

def Store.run (s : Store) : Removal → Except Store.Fault Store
  | .oneEvent eventId => .ok (s.removeEvent eventId)
  | .oneInvite inviteId eventId => .ok (s.removeInvite inviteId eventId)
  | .allOf guid => s.removeAllPlayerEventsAndInvites guid
  | .guildOf guid guildId => s.removePlayerGuildEventsAndSignups guid guildId

/-! ## 3. What a removal is to remove -/

/-- The events that a removal names. -/
def Removal.namesEvent : Removal → CalendarEvent → Bool
  | .oneEvent eventId, event => event.eventId = eventId
  | .oneInvite _ _, _ => false
  | .allOf guid, event => event.creatorGUID = guid
  | .guildOf guid _, event => Store.guildEventOf guid event

/-- The invites that a removal names itself. -/
def Removal.namesInvite (s : Store) : Removal → CalendarInvite → Bool
  | .oneEvent _, _ => false
  | .oneInvite inviteId eventId, invite => invite.inviteId = inviteId ∧ invite.eventId = eventId
  | .allOf guid, invite => invite.invitee = guid
  | .guildOf guid guildId, invite => invite.invitee = guid ∧ Store.toGuild guildId s invite

/-- The invites that are to be removed: with their event, or for themselves. -/
def Removal.covers (s : Store) (r : Removal) (invite : CalendarInvite) : Bool :=
  r.namesInvite s invite ∨
    s.events.any fun x => r.namesEvent x.value ∧ x.id = invite.eventId

/-- The rows of what is removed are gone, and all others are as they were. -/
structure RowsRight {α β : Type} (id : Object α → ℕ) (objects : List (Object α))
    (names : α → Bool) (rows rows' : ℕ → Option β) : Prop where
  gone : ∀ x ∈ objects, names x.value → rows' (id x) = none
  kept : ∀ x ∈ objects, ¬ names x.value → rows' (id x) = rows (id x)
  others : ∀ i, (∀ x ∈ objects, names x.value → id x ≠ i) → rows' i = rows i

/-- Every key of `_invites` is the id of a live event. -/
def Store.KeysLive (s : Store) : Prop := ∀ eventId ∈ s.invites.keys, (s.getEvent eventId).isSome

/-- **A removal is right**: no erased or deleted object is met, exactly what is named is removed,
in memory and in the database, and every object that is removed is deleted once. -/
structure Removed (r : Removal) (s s' : Store) : Prop where
  keysLive : s'.KeysLive
  events : s'.events = s.events.filter fun x => ¬ r.namesEvent x.value
  invites : ∀ eventId, s'.vector eventId =
    (s.vector eventId).filter fun x => ¬ r.covers s x.value
  deleted : ∃ gone, s'.deleted = s.deleted ++ gone ∧
    gone.Perm ((s.allInvites.filter fun x => r.covers s x.value).map Object.address ++
      (s.events.filter fun x => r.namesEvent x.value).map Object.address)
  eventRows : RowsRight EventObject.id s.events r.namesEvent s.eventRows s'.eventRows
  inviteRows : RowsRight InviteObject.id s.allInvites (r.covers s) s.inviteRows s'.inviteRows

def RightRemoval (r : Removal) (s : Store) : Prop := ∃ s', s.run r = .ok s' ∧ Removed r s s'

/-- Objects are at different addresses, and invites are filed under their event. -/
structure Store.WellFormed (s : Store) : Prop where
  distinctEvents : (s.events.map Object.address).Nodup
  distinctInvites : (s.allInvites.map Object.address).Nodup
  filed : ∀ eventId, ∀ x ∈ s.vector eventId, x.event = eventId

/-! ## 4. Where the invites are -/

variable {s s' : Store}

theorem filter_values {id : ℕ} : ∀ {entries : List (ℕ × List InviteObject)},
    (entries.map Prod.fst).Nodup →
    (∀ y ∈ entries, ∀ x ∈ y.2, x.event = y.1) →
    ((entries.map Prod.snd).flatten.filter fun x : InviteObject => x.event = id) =
      ((entries.find? fun y => y.1 = id).map Prod.snd).getD []
  | [], _, _ => rfl
  | y :: entries, hnodup, hfiled => by
    obtain ⟨hy, hentries⟩ := List.nodup_cons.mp hnodup
    have hrest : (entries.map Prod.snd).flatten.filter (fun x : InviteObject => x.event = id) = _ :=
      filter_values hentries fun z hz => hfiled z (List.mem_cons_of_mem y hz)
    have hfiled := hfiled y List.mem_cons_self
    rw [List.map_cons, List.flatten_cons, List.filter_append, hrest]
    by_cases hid : y.1 = id
    · rw [List.filter_eq_self.mpr fun x hx => decide_eq_true ((hfiled x hx).trans hid),
        List.find?_cons_of_pos (by simpa using hid)]
      have hnone : entries.find? (fun y => y.1 = id) = none := by
        refine List.find?_eq_none.mpr fun z hz hzid => hy ?_
        rw [hid, ← of_decide_eq_true hzid]
        exact List.mem_map_of_mem hz
      rw [hnone]
      exact List.append_nil _
    · rw [List.filter_eq_nil_iff.mpr fun x hx hxid =>
        hid ((hfiled x hx).symm.trans (of_decide_eq_true hxid)),
        List.find?_cons_of_neg (by simpa using hid), List.nil_append]

namespace Store

/-- Invites are filed under their event. -/
def Filed (s : Store) : Prop := ∀ eventId, ∀ x ∈ s.vector eventId, x.event = eventId

variable {eventId : ℕ}

theorem mem_vector {x : InviteObject} :
    x ∈ s.vector eventId ↔ ∃ xs, (eventId, xs) ∈ s.invites.entries ∧ x ∈ xs := by
  unfold vector
  constructor
  · intro hx
    cases hlookup : s.invites.lookup eventId with
    | none =>
      rw [hlookup] at hx
      cases hx
    | some xs =>
      rw [hlookup] at hx
      exact ⟨xs, SortedMap.lookup_eq_some.mp hlookup, hx⟩
  · rintro ⟨xs, hxs, hx⟩
    rw [SortedMap.lookup_eq_some.mpr hxs]
    exact hx

theorem mem_allInvites {x : InviteObject} : x ∈ s.allInvites ↔ ∃ eventId, x ∈ s.vector eventId := by
  unfold allInvites SortedMap.values
  rw [List.mem_flatten]
  constructor
  · rintro ⟨xs, hxs, hx⟩
    obtain ⟨⟨eventId, xs⟩, hentry, rfl⟩ := List.mem_map.mp hxs
    exact ⟨eventId, mem_vector.mpr ⟨xs, hentry, hx⟩⟩
  · rintro ⟨eventId, hx⟩
    obtain ⟨xs, hentry, hx⟩ := mem_vector.mp hx
    exact ⟨xs, List.mem_map.mpr ⟨(eventId, xs), hentry, rfl⟩, hx⟩

theorem Filed.mem (h : s.Filed) {x : InviteObject} : x ∈ s.allInvites ↔ x ∈ s.vector x.event := by
  rw [mem_allInvites]
  constructor
  · rintro ⟨eventId, hx⟩
    rw [h eventId x hx]
    exact hx
  · exact fun hx => ⟨_, hx⟩

/-- The invites to an event, among all. -/
theorem Filed.vector_eq (h : s.Filed) (eventId : ℕ) :
    s.vector eventId = s.allInvites.filter fun x => x.event = eventId :=
  (filter_values s.invites.nodup_keys fun y hy x hx =>
    h y.1 x (mem_vector.mpr ⟨y.2, hy, hx⟩)).symm

theorem getEvent_eq_none : s.getEvent eventId = none ↔ ∀ x ∈ s.events, x.id ≠ eventId := by
  unfold getEvent
  rw [List.find?_eq_none]
  exact ⟨fun h x hx heq => h x hx (decide_eq_true heq),
    fun h x hx heq => h x hx (of_decide_eq_true heq)⟩

theorem getEvent_mem {x : EventObject} (h : s.getEvent eventId = some x) :
    x ∈ s.events ∧ x.id = eventId := by
  have hid := List.find?_some h
  exact ⟨List.mem_of_find?_eq_some h, of_decide_eq_true hid⟩

theorem isSome_getEvent : (s.getEvent eventId).isSome ↔ ∃ x ∈ s.events, x.id = eventId := by
  unfold getEvent
  rw [List.find?_isSome]
  exact exists_congr fun x => and_congr_right fun _ => decide_eq_true_iff

/-- An event that is not live has no invites. -/
theorem KeysLive.vector_eq_nil (h : s.KeysLive) (hnone : s.getEvent eventId = none) :
    s.vector eventId = [] := by
  unfold vector
  cases hlookup : s.invites.lookup eventId with
  | none => rfl
  | some xs =>
    have hkey := SortedMap.mem_keys.mpr ⟨xs, SortedMap.lookup_eq_some.mp hlookup⟩
    have hlive := h eventId hkey
    rw [hnone] at hlive
    cases hlive

/-! ## 5. What the operations change -/

theorem foldl_deleteInvite : ∀ (xs : List InviteObject) (s : Store),
    (xs.foldl deleteInvite s).events = s.events ∧
    (xs.foldl deleteInvite s).invites = s.invites ∧
    (xs.foldl deleteInvite s).eventRows = s.eventRows ∧
    (xs.foldl deleteInvite s).deleted = s.deleted ++ xs.map Object.address ∧
    ∀ i, (xs.foldl deleteInvite s).inviteRows i =
      if ∃ x ∈ xs, x.id = i then none else s.inviteRows i
  | [], s => ⟨rfl, rfl, rfl, (List.append_nil _).symm, fun i => (if_neg (by simp)).symm⟩
  | x :: xs, s => by
    obtain ⟨hevents, hinvites, heventRows, hdeleted, hrows⟩ :=
      foldl_deleteInvite xs (s.deleteInvite x)
    refine ⟨hevents, hinvites, heventRows, ?_, fun i => ?_⟩
    · rw [List.foldl_cons, hdeleted, List.map_cons]
      exact List.append_assoc _ _ _
    · rw [List.foldl_cons, hrows]
      change (if _ then none else if i = x.id then none else s.inviteRows i) = _
      by_cases hrest : ∃ y ∈ xs, y.id = i
      · obtain ⟨y, hy, hid⟩ := hrest
        rw [if_pos ⟨y, hy, hid⟩, if_pos ⟨y, List.mem_cons_of_mem x hy, hid⟩]
      · rw [if_neg hrest]
        by_cases hx : i = x.id
        · rw [if_pos hx, if_pos ⟨x, List.mem_cons_self, hx.symm⟩]
        · rw [if_neg hx, if_neg]
          rintro ⟨y, hy, hid⟩
          obtain rfl | hy := List.mem_cons.mp hy
          · exact hx hid.symm
          · exact hrest ⟨y, hy, hid⟩

/-- What `RemoveEvent` does to the event it finds. -/
structure EventGone (s s' : Store) (eventId : ℕ) (event : EventObject) : Prop where
  events : s'.events = s.events.filter fun x => x.address ≠ event.address
  vector : ∀ other, s'.vector other = if other = eventId then [] else s.vector other
  keys : ∀ other, other ∈ s'.invites.keys ↔ other ≠ eventId ∧ other ∈ s.invites.keys
  deleted : s'.deleted = s.deleted ++ ((s.vector eventId).map Object.address ++ [event.address])
  eventRows : ∀ i, s'.eventRows i = if i = eventId then none else s.eventRows i
  inviteRows : ∀ i, s'.inviteRows i =
    if ∃ x ∈ s.vector eventId, x.id = i then none else s.inviteRows i

theorem removeEvent_of_none (h : s.getEvent eventId = none) : s.removeEvent eventId = s := by
  unfold removeEvent
  rw [h]

theorem removeEvent_gone {event : EventObject} (h : s.getEvent eventId = some event) :
    EventGone s (s.removeEvent eventId) eventId event := by
  obtain ⟨hevents, hinvites, heventRows, hdeleted, hrows⟩ :=
    foldl_deleteInvite (s.vector eventId) s
  unfold removeEvent
  rw [h]
  refine ⟨?_, fun other => ?_, fun other => ?_, ?_, fun i => ?_, hrows⟩
  · change (List.foldl deleteInvite s (s.vector eventId)).events.filter _ = _
    rw [hevents]
  · change ((SortedMap.erase (List.foldl deleteInvite s (s.vector eventId)).invites eventId).lookup
      other).getD [] = _
    rw [hinvites, SortedMap.lookup_erase]
    split <;> rfl
  · change other ∈ (SortedMap.erase (List.foldl deleteInvite s (s.vector eventId)).invites
      eventId).keys ↔ _
    rw [hinvites, SortedMap.mem_keys, SortedMap.mem_keys]
    constructor
    · rintro ⟨xs, hxs⟩
      obtain ⟨hne, hxs⟩ := SortedMap.mem_erase.mp hxs
      exact ⟨hne, xs, hxs⟩
    · rintro ⟨hne, xs, hxs⟩
      exact ⟨xs, SortedMap.mem_erase.mpr ⟨hne, hxs⟩⟩
  · change (List.foldl deleteInvite s (s.vector eventId)).deleted ++ [event.address] = _
    rw [hdeleted, List.append_assoc]
  · change deleteRow (List.foldl deleteInvite s (s.vector eventId)).eventRows eventId i = _
    rw [heventRows]
    rfl

theorem vector_insert (eventId other : ℕ) (xs : List InviteObject) (t : Store)
    (h : t.invites = s.invites.insert eventId xs) :
    t.vector other = if other = eventId then xs else s.vector other := by
  unfold vector
  rw [h, SortedMap.lookup_insert]
  split <;> rfl

theorem mem_keys_insert {other : ℕ} {xs : List InviteObject}
    (h : other ∈ (s.invites.insert eventId xs).keys) :
    other = eventId ∨ other ∈ s.invites.keys := by
  obtain ⟨v, hv⟩ := SortedMap.mem_keys.mp h
  obtain ⟨heq, -⟩ | ⟨-, hv⟩ := SortedMap.mem_insert.mp hv
  · exact .inl heq
  · exact .inr (SortedMap.mem_keys.mpr ⟨v, hv⟩)

/-- What `RemoveInvite` does to the first invite with the id. -/
structure InviteGone (s s' : Store) (x : InviteObject) (eventId : ℕ) : Prop where
  events : s'.events = s.events
  vector : ∀ other, s'.vector other =
    if other = eventId then (s.vector eventId).eraseP fun y => y.id = x.id else s.vector other
  deleted : s'.deleted = s.deleted ++ [x.address]
  eventRows : s'.eventRows = s.eventRows
  inviteRows : ∀ i, s'.inviteRows i = if i = x.id then none else s.inviteRows i

theorem KeysLive.removeInvite (h : s.KeysLive) (inviteId eventId : ℕ) :
    (s.removeInvite inviteId eventId).KeysLive := by
  unfold Store.removeInvite
  split
  · exact h
  · rename_i event hevent
    have hlive : ∀ t : Store, t.events = s.events → ∀ xs,
        t.invites = s.invites.insert eventId xs → t.KeysLive := by
      intro t hevents xs hinvites other hkey
      have hsame : t.getEvent other = s.getEvent other := by
        unfold getEvent
        rw [hevents]
      rw [hinvites] at hkey
      rw [hsame]
      obtain rfl | hkey := mem_keys_insert hkey
      · rw [hevent]
        rfl
      · exact h other hkey
    split
    · exact hlive _ rfl _ rfl
    · exact hlive _ rfl _ rfl

theorem removeInvite_gone {inviteId : ℕ} (hlive : (s.getEvent eventId).isSome) {x : InviteObject}
    (hx : (s.vector eventId).find? (fun x => x.id = inviteId) = some x) :
    InviteGone s (s.removeInvite inviteId eventId) x eventId := by
  obtain ⟨event, hevent⟩ := Option.isSome_iff_exists.mp hlive
  have hid : x.id = inviteId := by
    have hfound := List.find?_some hx
    exact of_decide_eq_true hfound
  have hcode : s.removeInvite inviteId eventId =
      { s.deleteInvite x with
        invites := s.invites.insert eventId
          ((s.vector eventId).eraseP fun y => y.id = inviteId) } := by
    unfold removeInvite
    rw [hevent]
    simp only [hx]
  rw [hcode, ← hid]
  exact ⟨rfl, fun other => vector_insert _ _ _ _ rfl, rfl, rfl, fun i => rfl⟩

/-- An invite that is not there is not removed. -/
theorem removeInvite_absent {inviteId : ℕ} (hx : ∀ x ∈ s.vector eventId, x.id ≠ inviteId) :
    (s.removeInvite inviteId eventId).events = s.events ∧
      (∀ other, (s.removeInvite inviteId eventId).vector other = s.vector other) ∧
      (s.removeInvite inviteId eventId).deleted = s.deleted ∧
      (s.removeInvite inviteId eventId).eventRows = s.eventRows ∧
      (s.removeInvite inviteId eventId).inviteRows = s.inviteRows := by
  have hnone : (s.vector eventId).find? (fun x => x.id = inviteId) = none :=
    List.find?_eq_none.mpr fun x hmem heq => hx x hmem (of_decide_eq_true heq)
  unfold removeInvite
  split
  · exact ⟨rfl, fun _ => rfl, rfl, rfl, rfl⟩
  · rw [hnone]
    refine ⟨rfl, fun other => ?_, rfl, rfl, rfl⟩
    rw [vector_insert eventId other (s.vector eventId) _ rfl]
    split
    · rename_i heq
      rw [heq]
    · rfl

end Store

/-! ## 6. The loop over the invites -/

/-- An invite that stays is not taken for one that goes: it comes later, or has another id. -/
def Apart (goes : CalendarInvite → Bool) (y x : InviteObject) : Prop :=
  y.event = x.event → goes x.value → ¬ goes y.value → y.id ≠ x.id

instance (goes : CalendarInvite → Bool) (y x : InviteObject) : Decidable (Apart goes y x) :=
  inferInstanceAs (Decidable (_ → _ → _ → _))

/-- How far the loop is in the list of all invites: those that go are gone from the part that it
has been through. -/
structure Walk (s₀ s : Store) (goes : CalendarInvite → Bool) (seen rest : List InviteObject) :
    Prop where
  events : s.events = s₀.events
  keysLive : s.KeysLive
  vector : ∀ eventId, s.vector eventId =
    ((seen.filter fun x => ¬ goes x.value) ++ rest).filter fun x => x.event = eventId
  deleted : s.deleted = s₀.deleted ++ (seen.filter fun x => goes x.value).map Object.address
  eventRows : s.eventRows = s₀.eventRows
  inviteRows : ∀ i, s.inviteRows i =
    if ∃ x ∈ seen, goes x.value ∧ x.id = i then none else s₀.inviteRows i

namespace Walk

variable {s₀ : Store} {goes : CalendarInvite → Bool} {seen rest : List InviteObject}
  {x : InviteObject}

theorem start (h : s₀.Filed) (hkeys : s₀.KeysLive) (goes : CalendarInvite → Bool) :
    Walk s₀ s₀ goes [] s₀.allInvites :=
  ⟨rfl, hkeys, fun eventId => h.vector_eq eventId, (List.append_nil _).symm, rfl,
    fun i => (if_neg (by simp)).symm⟩

theorem filed (h : Walk s₀ s goes seen rest) : s.Filed := by
  intro eventId x hx
  rw [h.vector] at hx
  exact of_decide_eq_true (List.mem_filter.mp hx).2

theorem mem (h : Walk s₀ s goes seen rest) {y : InviteObject} :
    y ∈ s.allInvites ↔ y ∈ seen ∧ ¬ goes y.value ∨ y ∈ rest := by
  rw [h.filed.mem, h.vector, List.mem_filter, List.mem_append, List.mem_filter,
    and_iff_left (decide_eq_true rfl), decide_eq_true_iff]

theorem live (h : Walk s₀ s goes seen (x :: rest)) : (s.getEvent x.event).isSome := by
  cases hevent : s.getEvent x.event with
  | some event => rfl
  | none =>
    have hmem := h.filed.mem.mp (h.mem.mpr (.inr List.mem_cons_self))
    rw [h.keysLive.vector_eq_nil hevent] at hmem
    cases hmem

/-- An invite that stays is passed over. -/
theorem pass (h : Walk s₀ s goes seen (x :: rest)) (hx : ¬ goes x.value) :
    Walk s₀ s goes (seen ++ [x]) rest := by
  have hfilter : (seen ++ [x]).filter (fun y => ¬ goes y.value) =
      (seen.filter fun y => ¬ goes y.value) ++ [x] := by
    rw [List.filter_append, List.filter_cons_of_pos (by simpa using hx)]
    rfl
  have hgone : (seen ++ [x]).filter (fun y => goes y.value) =
      seen.filter fun y => goes y.value := by
    rw [List.filter_append, List.filter_cons_of_neg (by simpa using hx)]
    exact List.append_nil _
  refine ⟨h.events, h.keysLive, fun eventId => ?_, ?_, h.eventRows, fun i => ?_⟩
  · rw [h.vector, hfilter, List.append_assoc]
    rfl
  · rw [h.deleted, hgone]
  · rw [h.inviteRows]
    refine if_congr ?_ rfl rfl
    constructor
    · rintro ⟨y, hy, hgoes⟩
      exact ⟨y, List.mem_append_left _ hy, hgoes⟩
    · rintro ⟨y, hy, hgoes, hid⟩
      obtain hy | hy := List.mem_append.mp hy
      · exact ⟨y, hy, hgoes, hid⟩
      · rw [List.mem_singleton.mp hy] at hgoes
        exact absurd hgoes hx

/-- The vector that the invite is removed from. -/
theorem vector_split (h : Walk s₀ s goes seen (x :: rest)) :
    s.vector x.event =
      ((seen.filter fun y => ¬ goes y.value).filter fun y => y.event = x.event) ++
        x :: rest.filter fun y => y.event = x.event := by
  rw [h.vector, List.filter_append, List.filter_cons_of_pos (by simp)]

/-- **An invite that goes is removed**, when no invite that stays is found before it. -/
theorem remove (h : Walk s₀ s goes seen (x :: rest)) (hx : goes x.value)
    (hapart : ∀ y ∈ seen, Apart goes y x) :
    Walk s₀ (s.removeInvite x.id x.event) goes (seen ++ [x]) rest := by
  have hbefore : ∀ y ∈ (seen.filter fun y => ¬ goes y.value).filter fun y => y.event = x.event,
      y.id ≠ x.id := by
    intro y hy
    obtain ⟨hy, hevent⟩ := List.mem_filter.mp hy
    obtain ⟨hy, hstays⟩ := List.mem_filter.mp hy
    exact hapart y hy (of_decide_eq_true hevent) hx (of_decide_eq_true hstays)
  have hfind : (s.vector x.event).find? (fun y => y.id = x.id) = some x := by
    rw [h.vector_split, List.find?_append, List.find?_eq_none.mpr
      fun y hy heq => hbefore y hy (of_decide_eq_true heq), Option.none_or,
      List.find?_cons_of_pos (by simp)]
  have herase : (s.vector x.event).eraseP (fun y => y.id = x.id) =
      ((seen.filter fun y => ¬ goes y.value).filter fun y => y.event = x.event) ++
        rest.filter fun y => y.event = x.event := by
    rw [h.vector_split, List.eraseP_append_right _ fun y hy heq =>
      hbefore y hy (of_decide_eq_true heq), List.eraseP_cons_of_pos (by simp)]
  have hfilter : (seen ++ [x]).filter (fun y => ¬ goes y.value) =
      seen.filter fun y => ¬ goes y.value := by
    rw [List.filter_append, List.filter_cons_of_neg (by simpa using hx)]
    exact List.append_nil _
  have hgone : (seen ++ [x]).filter (fun y => goes y.value) =
      (seen.filter fun y => goes y.value) ++ [x] := by
    rw [List.filter_append, List.filter_cons_of_pos (by simpa using hx)]
    rfl
  have hdone := Store.removeInvite_gone h.live hfind
  refine ⟨hdone.events.trans h.events, h.keysLive.removeInvite _ _, fun eventId => ?_, ?_,
    hdone.eventRows.trans h.eventRows, fun i => ?_⟩
  · rw [hdone.vector, hfilter]
    by_cases heq : eventId = x.event
    · rw [if_pos heq, herase, heq, List.filter_append]
    · rw [if_neg heq, h.vector, List.filter_append, List.filter_append,
        List.filter_cons_of_neg (by simpa using fun hevent => heq hevent.symm)]
  · rw [hdone.deleted, h.deleted, hgone, List.map_append, List.append_assoc]
    rfl
  · rw [hdone.inviteRows, h.inviteRows]
    by_cases hi : i = x.id
    · rw [if_pos hi, if_pos ⟨x, List.mem_append_right _ List.mem_cons_self, hx, hi.symm⟩]
    · rw [if_neg hi]
      refine if_congr ?_ rfl rfl
      constructor
      · rintro ⟨y, hy, hgoes⟩
        exact ⟨y, List.mem_append_left _ hy, hgoes⟩
      · rintro ⟨y, hy, hgoes, hid⟩
        obtain hy | hy := List.mem_append.mp hy
        · exact ⟨y, hy, hgoes, hid⟩
        · exact absurd ((List.mem_singleton.mp hy) ▸ hid).symm hi

end Walk

namespace Store

/-- Nothing comes back. -/
theorem mem_of_mem_removeInvite {inviteId eventId : ℕ} {y : InviteObject}
    (hy : y ∈ (s.removeInvite inviteId eventId).allInvites) : y ∈ s.allInvites := by
  obtain ⟨other, hy⟩ := mem_allInvites.mp hy
  refine mem_allInvites.mpr ⟨other, ?_⟩
  cases hevent : s.getEvent eventId with
  | none =>
    unfold removeInvite at hy
    rw [hevent] at hy
    exact hy
  | some event =>
    cases hfind : (s.vector eventId).find? (fun x => x.id = inviteId) with
    | none =>
      have hnone : ∀ x ∈ s.vector eventId, x.id ≠ inviteId := fun x hx heq =>
        List.find?_eq_none.mp hfind x hx (decide_eq_true heq)
      rw [(removeInvite_absent hnone).2.1] at hy
      exact hy
    | some x =>
      have hdone := removeInvite_gone (by rw [hevent]; rfl) hfind
      rw [hdone.vector] at hy
      by_cases heq : other = eventId
      · rw [if_pos heq] at hy
        rw [heq]
        exact List.mem_of_mem_eraseP hy
      · rw [if_neg heq] at hy
        exact hy

theorem mem_of_mem_removeInvites {remove : Store → CalendarInvite → Bool} {y : InviteObject} :
    ∀ {xs : List InviteObject} {s s' : Store}, removeInvites remove xs s = .ok s' →
      y ∈ s'.allInvites → y ∈ s.allInvites
  | [], s, s', h, hy => by
    cases h
    exact hy
  | x :: xs, s, s', h, hy => by
    rw [removeInvites] at h
    by_cases hx : x ∈ s.allInvites
    · rw [if_neg (not_not.mpr hx)] at h
      have hbefore := mem_of_mem_removeInvites h hy
      split at hbefore
      · exact mem_of_mem_removeInvite hbefore
      · exact hbefore
    · rw [if_pos hx] at h
      cases h

variable {s₀ : Store} {remove : Store → CalendarInvite → Bool} {guid : ObjectGuid}

/-- What goes in the loop over the invites of a player. -/
def goesFrom (remove : Store → CalendarInvite → Bool) (guid : ObjectGuid) (s₀ : Store)
    (invite : CalendarInvite) : Bool :=
  invite.invitee = guid ∧ remove s₀ invite

/-- One round of the loop, from an invite that is still there. -/
theorem removeInvites_cons {goes : CalendarInvite → Bool} {seen rest : List InviteObject}
    {x : InviteObject} (hremove : ∀ s s' : Store, s.events = s'.events → remove s = remove s')
    (h : Walk s₀ s goes seen (x :: rest)) (xs : List InviteObject) :
    removeInvites remove (x :: xs) s =
      removeInvites remove xs (if remove s₀ x.value then s.removeInvite x.id x.event else s) := by
  rw [removeInvites, if_neg (not_not.mpr (h.mem.mpr (.inr List.mem_cons_self))),
    hremove s s₀ h.events]

/-- **The loop removes what is to go**, where everything that stays is apart from it. -/
theorem removeInvites_spec
    (hremove : ∀ s s' : Store, s.events = s'.events → remove s = remove s') :
    ∀ {rest seen : List InviteObject} {s : Store},
      Walk s₀ s (goesFrom remove guid s₀) seen rest →
      (∀ y ∈ seen, ∀ x ∈ rest, Apart (goesFrom remove guid s₀) y x) →
      rest.Pairwise (Apart (goesFrom remove guid s₀)) →
      ∃ s', removeInvites remove (rest.filter fun x => x.value.invitee = guid) s = .ok s' ∧
        Walk s₀ s' (goesFrom remove guid s₀) (seen ++ rest) []
  | [], seen, s, h, _, _ => ⟨s, rfl, (List.append_nil seen).symm ▸ h⟩
  | x :: rest, seen, s, h, hseen, hrest => by
    obtain ⟨hx, hrest⟩ := List.pairwise_cons.mp hrest
    have hnext : ∀ t, Walk s₀ t (goesFrom remove guid s₀) (seen ++ [x]) rest →
        ∃ s', removeInvites remove (rest.filter fun x => x.value.invitee = guid) t = .ok s' ∧
          Walk s₀ s' (goesFrom remove guid s₀) (seen ++ x :: rest) [] := by
      intro t ht
      obtain ⟨s', hrun, hwalk⟩ := removeInvites_spec hremove ht (fun y hy z hz => by
        obtain hy | hy := List.mem_append.mp hy
        · exact hseen y hy z (List.mem_cons_of_mem x hz)
        · rw [List.mem_singleton.mp hy]
          exact hx z hz) hrest
      rw [List.append_assoc] at hwalk
      exact ⟨s', hrun, hwalk⟩
    by_cases hguid : x.value.invitee = guid
    · rw [List.filter_cons_of_pos (by simpa using hguid), removeInvites_cons hremove h]
      by_cases hgoes : remove s₀ x.value
      · rw [if_pos hgoes]
        exact hnext _ (h.remove (decide_eq_true ⟨hguid, hgoes⟩)
          fun y hy => hseen y hy x List.mem_cons_self)
      · rw [if_neg hgoes]
        exact hnext _ (h.pass fun hboth => hgoes (of_decide_eq_true hboth).2)
    · rw [List.filter_cons_of_neg (by simpa using hguid)]
      exact hnext _ (h.pass fun hboth => hguid (of_decide_eq_true hboth).1)

/-- **Where everything that stays survives the loop, it is apart** from what goes. -/
theorem apart_of_removeInvites
    (hremove : ∀ s s' : Store, s.events = s'.events → remove s = remove s') {s' : Store} :
    ∀ {rest seen : List InviteObject} {s : Store},
      Walk s₀ s (goesFrom remove guid s₀) seen rest → (seen ++ rest).Nodup →
      removeInvites remove (rest.filter fun x => x.value.invitee = guid) s = .ok s' →
      (∀ y ∈ seen ++ rest, ¬ goesFrom remove guid s₀ y.value → y ∈ s'.allInvites) →
      (∀ y ∈ seen, ∀ x ∈ rest, Apart (goesFrom remove guid s₀) y x) ∧
        rest.Pairwise (Apart (goesFrom remove guid s₀))
  | [], _, _, _, _, _, _ => ⟨fun _ _ _ hx => absurd hx List.not_mem_nil, List.Pairwise.nil⟩
  | x :: rest, seen, s, h, hnodup, hrun, hstay => by
    have hsplit : seen ++ x :: rest = seen ++ [x] ++ rest := by rw [List.append_assoc]; rfl
    have hnext : ∀ t, Walk s₀ t (goesFrom remove guid s₀) (seen ++ [x]) rest →
        removeInvites remove (rest.filter fun x => x.value.invitee = guid) t = .ok s' →
        (∀ y ∈ seen, Apart (goesFrom remove guid s₀) y x) →
        (∀ y ∈ seen, ∀ z ∈ x :: rest, Apart (goesFrom remove guid s₀) y z) ∧
          (x :: rest).Pairwise (Apart (goesFrom remove guid s₀)) := by
      intro t ht hrun hseen
      rw [hsplit] at hnodup hstay
      obtain ⟨hlater, hpairs⟩ := apart_of_removeInvites hremove ht hnodup hrun hstay
      refine ⟨fun y hy z hz => ?_, List.pairwise_cons.mpr ⟨fun z hz => ?_, hpairs⟩⟩
      · obtain rfl | hz := List.mem_cons.mp hz
        · exact hseen y hy
        · exact hlater y (List.mem_append_left _ hy) z hz
      · exact hlater x (List.mem_append_right _ List.mem_cons_self) z hz
    by_cases hgoes : goesFrom remove guid s₀ x.value
    · obtain ⟨hguid, hremoved⟩ := of_decide_eq_true hgoes
      rw [List.filter_cons_of_pos (by simpa using hguid), removeInvites_cons hremove h,
        if_pos hremoved] at hrun
      have hapart : ∀ y ∈ seen, Apart (goesFrom remove guid s₀) y x := by
        -- else the first invite with the id is one that stays, and does not survive
        by_contra hnot
        obtain ⟨y, hy, hevent, hstays, hid⟩ : ∃ y ∈ seen, y.event = x.event ∧
            ¬ goesFrom remove guid s₀ y.value ∧ y.id = x.id := by
          by_contra hnone
          refine hnot fun y hy hevent _ hstays hid => hnone ⟨y, hy, hevent, hstays, hid⟩
        have hfront : ((seen.filter fun y => ¬ goesFrom remove guid s₀ y.value).filter
            fun y => y.event = x.event).any fun y => y.id = x.id := by
          refine List.any_eq_true.mpr
            ⟨y, List.mem_filter.mpr ⟨List.mem_filter.mpr ⟨hy, ?_⟩, ?_⟩, ?_⟩
          · exact decide_eq_true hstays
          · exact decide_eq_true hevent
          · exact decide_eq_true hid
        obtain ⟨z, hz⟩ := Option.isSome_iff_exists.mp
          ((List.find?_isSome.mpr (List.any_eq_true.mp hfront)))
        have hzmem := List.mem_of_find?_eq_some hz
        obtain ⟨hzseen, hzstays⟩ := List.mem_filter.mp (List.mem_filter.mp hzmem).1
        have hzevent := of_decide_eq_true (List.mem_filter.mp hzmem).2
        have hfind : (s.vector x.event).find? (fun y => y.id = x.id) = some z := by
          rw [h.vector_split, List.find?_append, hz]
          rfl
        have hdone := removeInvite_gone h.live hfind
        have hzid : z.id = x.id := by
          have hfound := List.find?_some hz
          exact of_decide_eq_true hfound
        have hlast := mem_of_mem_removeInvites hrun
          (hstay z (List.mem_append_left _ hzseen) (of_decide_eq_true hzstays))
        obtain ⟨other, hzother⟩ := mem_allInvites.mp hlast
        have hvector : (s.vector x.event).Nodup := by
          rw [h.vector]
          refine List.Nodup.filter _ (List.Nodup.sublist ?_ hnodup)
          exact List.filter_sublist.append (List.Sublist.refl _)
        rw [hdone.vector] at hzother
        by_cases heq : other = x.event
        · rw [if_pos heq] at hzother
          obtain ⟨as, bs, hsplitz, hnone⟩ := (List.find?_eq_some_iff_append.mp hfind).2
          have hfirst : ∀ a ∈ as, ¬ decide (a.id = z.id) = true := fun a ha => by
            rw [hzid, Bool.not_eq_true, ← Bool.not_eq_true']
            exact hnone a ha
          rw [hsplitz] at hvector hzother
          rw [List.eraseP_append_right _ hfirst, List.eraseP_cons_of_pos (by simp)] at hzother
          have hcons := (List.nodup_middle.mp hvector)
          exact (List.nodup_cons.mp hcons).1 hzother
        · rw [if_neg heq] at hzother
          exact heq ((h.filed other z hzother).symm.trans hzevent)
      exact hnext _ (h.remove hgoes hapart) hrun hapart
    · have hpass := h.pass hgoes
      have hsame :
          removeInvites remove (rest.filter fun x => x.value.invitee = guid) s = .ok s' := by
        by_cases hguid : x.value.invitee = guid
        · rw [List.filter_cons_of_pos (by simpa using hguid), removeInvites_cons hremove h,
            if_neg fun hremoved => hgoes (decide_eq_true ⟨hguid, hremoved⟩)] at hrun
          exact hrun
        · rw [List.filter_cons_of_neg (by simpa using hguid)] at hrun
          exact hrun
      exact hnext _ hpass hsame fun y _ _ hx => absurd hx hgoes

end Store

end HungerGames.Calendar
