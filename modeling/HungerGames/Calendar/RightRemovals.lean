/-
# Which removals from the calendar are right

A removal is right when it removes exactly what it names, in memory and in the database, and meets
nothing that was erased or deleted.

* `run_right_iff`: the removal of one event or invite is right when its id names one object; a bulk
  removal is right when it does not remove any event, and the invites that stay have other ids than
  those that go.
-/
import HungerGames.Calendar.Removal

namespace HungerGames.Calendar

open HungerGames.System Store

variable {s s' : Store}

/-! ## 1. The conditions -/

/-- The id names one event, if any. -/
def OneEvent (s : Store) (eventId : ℕ) : Prop :=
  ∀ x ∈ s.events, ∀ y ∈ s.events, x.id = eventId → y.id = eventId → x = y

/-- The id names one invite to the event, if any. -/
def OneInvite (s : Store) (inviteId eventId : ℕ) : Prop :=
  ∀ x ∈ s.vector eventId, ∀ y ∈ s.vector eventId, x.id = inviteId → y.id = inviteId → x = y

/-- Removals by id name one object, and bulk removals find no event to remove and only invites
that they do not mistake for others. -/
def Removal.Clear (s : Store) : Removal → Prop
  | .oneEvent eventId => OneEvent s eventId
  | .oneInvite inviteId eventId => OneInvite s inviteId eventId
  | .allOf guid =>
    (∀ x ∈ s.events, ¬ (Removal.allOf guid).namesEvent x.value) ∧
      s.allInvites.Pairwise (Apart ((Removal.allOf guid).covers s))
  | .guildOf guid guildId =>
    (∀ x ∈ s.events, ¬ (Removal.guildOf guid guildId).namesEvent x.value) ∧
      s.allInvites.Pairwise (Apart ((Removal.guildOf guid guildId).covers s))

/-- No invite that stays has its row under the id of one that goes. -/
def Removal.Unshared (s : Store) (r : Removal) : Prop :=
  ∀ x ∈ s.allInvites, ∀ y ∈ s.allInvites, r.covers s x.value → ¬ r.covers s y.value →
    y.id = x.id → s.inviteRows x.id = none

/-! ## 2. Well-formed calendars -/

theorem Store.WellFormed.isFiled (h : s.WellFormed) : s.Filed := h.filed

theorem Store.WellFormed.nodup_allInvites (h : s.WellFormed) : s.allInvites.Nodup :=
  List.Nodup.of_map _ h.distinctInvites

theorem Store.WellFormed.nodup_events (h : s.WellFormed) : s.events.Nodup :=
  List.Nodup.of_map _ h.distinctEvents

theorem Store.WellFormed.nodup_vector (h : s.WellFormed) (eventId : ℕ) :
    (s.vector eventId).Nodup := by
  rw [h.isFiled.vector_eq]
  exact h.nodup_allInvites.filter _

theorem Store.WellFormed.event_eq (h : s.WellFormed) {x y : EventObject} (hx : x ∈ s.events)
    (hy : y ∈ s.events) (haddress : x.address = y.address) : x = y :=
  List.inj_on_of_nodup_map h.distinctEvents hx hy haddress

/-- A list without duplicates that has one element with a property. -/
theorem filter_perm_singleton {α : Type} {xs : List α} {p : α → Bool} {x : α} (h : xs.Nodup)
    (hx : x ∈ xs) (hp : ∀ y ∈ xs, p y = true ↔ y = x) : (xs.filter p).Perm [x] := by
  refine (List.perm_ext_iff_of_nodup (h.filter p) (List.nodup_singleton x)).mpr fun y => ?_
  rw [List.mem_filter, List.mem_singleton]
  constructor
  · rintro ⟨hy, hpy⟩
    exact (hp y hy).mp hpy
  · rintro rfl
    exact ⟨hx, (hp y hx).mpr rfl⟩

/-! ## 3. Rows -/

theorem rowsRight_of {α β : Type} {id : Object α → ℕ} {objects : List (Object α)}
    {names : α → Bool} {rows rows' : ℕ → Option β}
    (hrows : ∀ i, rows' i = if ∃ x ∈ objects, names x.value ∧ id x = i then none else rows i)
    (hunshared : ∀ x ∈ objects, ∀ y ∈ objects, names x.value → ¬ names y.value → id y = id x →
      rows (id x) = none) : RowsRight id objects names rows rows' := by
  refine ⟨fun x hx hnames => ?_, fun y hy hkept => ?_, fun i hother => ?_⟩
  · rw [hrows, if_pos ⟨x, hx, hnames, rfl⟩]
  · rw [hrows]
    split
    · rename_i hshared
      obtain ⟨x, hx, hnames, hid⟩ := hshared
      rw [← hid, hunshared x hx y hy hnames hkept hid.symm]
    · rfl
  · rw [hrows, if_neg]
    rintro ⟨x, hx, hnames, hid⟩
    exact hother x hx hnames hid

variable {r : Removal}

theorem unshared_of_removed (h : Removed r s s') : r.Unshared s := by
  intro x hx y hy hgoes hstays hid
  rw [← h.inviteRows.gone x hx hgoes, ← hid, h.inviteRows.kept y hy hstays]

/-- Nothing is named, and nothing is removed. -/
theorem removed_of_none (hkeys : s'.KeysLive) (hevents : s'.events = s.events)
    (hvector : ∀ eventId, s'.vector eventId = s.vector eventId) (hdeleted : s'.deleted = s.deleted)
    (heventRows : s'.eventRows = s.eventRows) (hinviteRows : s'.inviteRows = s.inviteRows)
    (hnoEvent : ∀ x ∈ s.events, ¬ r.namesEvent x.value)
    (hnoInvite : ∀ x ∈ s.allInvites, ¬ r.covers s x.value) : Removed r s s' := by
  refine ⟨hkeys, ?_, fun eventId => ?_, ⟨[], ?_, ?_⟩, ?_, ?_⟩
  · rw [hevents, List.filter_eq_self.mpr fun x hx => decide_eq_true (hnoEvent x hx)]
  · rw [hvector, List.filter_eq_self.mpr fun x hx =>
      decide_eq_true (hnoInvite x (mem_allInvites.mpr ⟨eventId, hx⟩))]
  · rw [hdeleted, List.append_nil]
  · rw [List.filter_eq_nil_iff.mpr hnoInvite, List.filter_eq_nil_iff.mpr hnoEvent]
    exact List.Perm.refl _
  · rw [heventRows]
    exact ⟨fun x hx hnames => absurd hnames (hnoEvent x hx), fun _ _ _ => rfl, fun _ _ => rfl⟩
  · rw [hinviteRows]
    exact ⟨fun x hx hnames => absurd hnames (hnoInvite x hx), fun _ _ _ => rfl, fun _ _ => rfl⟩

/-! ## 4. One event -/

variable {eventId : ℕ}

theorem covers_oneEvent {event : EventObject} (hevent : event ∈ s.events) (hid : event.id = eventId)
    {x : InviteObject} : (Removal.oneEvent eventId).covers s x.value ↔ x.event = eventId := by
  unfold Removal.covers
  rw [decide_eq_true_iff, or_iff_right (by simp [Removal.namesInvite]), List.any_eq_true]
  constructor
  · rintro ⟨y, -, hy⟩
    obtain ⟨hname, hsame⟩ := of_decide_eq_true hy
    exact hsame.symm.trans (of_decide_eq_true hname)
  · intro hx
    exact ⟨event, hevent, decide_eq_true ⟨decide_eq_true hid, hid.trans hx.symm⟩⟩

theorem removed_oneEvent (h : s.WellFormed) (hkeys : s.KeysLive) (hone : OneEvent s eventId)
    (hunshared : (Removal.oneEvent eventId).Unshared s) :
    Removed (.oneEvent eventId) s (s.removeEvent eventId) := by
  cases hevent : s.getEvent eventId with
  | none =>
    have hnoEvent : ∀ x ∈ s.events, ¬ (Removal.oneEvent eventId).namesEvent x.value :=
      fun x hx hname => getEvent_eq_none.mp hevent x hx (of_decide_eq_true hname)
    rw [removeEvent_of_none hevent]
    refine removed_of_none hkeys rfl (fun _ => rfl) rfl rfl rfl hnoEvent fun x hx hcovers => ?_
    obtain hname | hany := of_decide_eq_true hcovers
    · cases hname
    · obtain ⟨y, hy, hboth⟩ := List.any_eq_true.mp hany
      exact hnoEvent y hy (of_decide_eq_true hboth).1
  | some event =>
    obtain ⟨hmem, hid⟩ := getEvent_mem hevent
    have hgone := removeEvent_gone hevent
    have hnames : ∀ x ∈ s.events,
        ((Removal.oneEvent eventId).namesEvent x.value = true ↔ x = event) := by
      intro x hx
      refine ⟨fun hname => hone x hx event hmem (of_decide_eq_true hname) hid, ?_⟩
      rintro rfl
      exact decide_eq_true hid
    have hcovers : ∀ x : InviteObject,
        ((Removal.oneEvent eventId).covers s x.value = true ↔ x.event = eventId) :=
      fun x => covers_oneEvent hmem hid
    have hall : (s.allInvites.filter fun x => (Removal.oneEvent eventId).covers s x.value) =
        s.vector eventId := by
      rw [h.isFiled.vector_eq]
      refine List.filter_congr fun x _ => Bool.eq_iff_iff.mpr ?_
      rw [hcovers, decide_eq_true_iff]
    refine ⟨fun other hkey => ?_, ?_, fun other => ?_, ⟨_, hgone.deleted, ?_⟩, ?_, ?_⟩
    · obtain ⟨hne, hkey⟩ := (hgone.keys other).mp hkey
      obtain ⟨x, hx, hxid⟩ := isSome_getEvent.mp (hkeys other hkey)
      refine isSome_getEvent.mpr ⟨x, ?_, hxid⟩
      rw [hgone.events]
      refine List.mem_filter.mpr ⟨hx, decide_eq_true fun haddress => hne ?_⟩
      rw [← hxid, h.event_eq hx hmem haddress, hid]
    · rw [hgone.events]
      refine List.filter_congr fun x hx => decide_eq_decide.mpr (not_congr ?_)
      rw [hnames x hx]
      exact ⟨h.event_eq hx hmem, fun heq => by rw [heq]⟩
    · rw [hgone.vector]
      by_cases heq : other = eventId
      · rw [if_pos heq, heq]
        refine (List.filter_eq_nil_iff.mpr fun x hx hstays => ?_).symm
        exact of_decide_eq_true hstays ((hcovers x).mpr (h.filed eventId x hx))
      · rw [if_neg heq]
        have hkept : ∀ x ∈ s.vector other,
            ¬ (Removal.oneEvent eventId).covers s x.value = true := fun x hx hgoes =>
          heq ((h.filed other x hx).symm.trans ((hcovers x).mp hgoes))
        exact (List.filter_eq_self.mpr fun x hx => decide_eq_true (hkept x hx)).symm
    · rw [hall]
      have hsingle := filter_perm_singleton h.nodup_events hmem hnames
      exact (hsingle.map Object.address).symm.append_left _
    · refine ⟨fun x hx hname => ?_, fun x hx hkept => ?_, fun i hother => ?_⟩
      · have hxid : EventObject.id x = eventId := of_decide_eq_true hname
        rw [hgone.eventRows, if_pos hxid]
      · have hxid : EventObject.id x ≠ eventId := fun heq => hkept (decide_eq_true heq)
        rw [hgone.eventRows, if_neg hxid]
      · rw [hgone.eventRows, if_neg fun heq => hother event hmem ((hnames event hmem).mpr rfl)
          (hid.trans heq.symm)]
    · refine rowsRight_of (fun i => ?_) hunshared
      rw [hgone.inviteRows]
      refine if_congr ⟨?_, ?_⟩ rfl rfl
      · rintro ⟨x, hx, hxid⟩
        exact ⟨x, mem_allInvites.mpr ⟨eventId, hx⟩, (hcovers x).mpr (h.filed eventId x hx), hxid⟩
      · rintro ⟨x, hx, hgoes, hxid⟩
        refine ⟨x, ?_, hxid⟩
        rw [← (hcovers x).mp hgoes]
        exact h.isFiled.mem.mp hx

theorem oneEvent_of_removed (h : s.WellFormed)
    (hremoved : Removed (.oneEvent eventId) s (s.removeEvent eventId)) : OneEvent s eventId := by
  intro x hx y hy hxid hyid
  cases hevent : s.getEvent eventId with
  | none => exact absurd hxid (getEvent_eq_none.mp hevent x hx)
  | some event =>
    have hmem := (getEvent_mem hevent).1
    have hfirst : ∀ z ∈ s.events, z.id = eventId → z = event := by
      intro z hz hzid
      by_contra hne
      have hstays : z ∈ (s.removeEvent eventId).events := by
        rw [(removeEvent_gone hevent).events]
        exact List.mem_filter.mpr ⟨hz, decide_eq_true fun heq => hne (h.event_eq hz hmem heq)⟩
      rw [hremoved.events] at hstays
      exact of_decide_eq_true (List.mem_filter.mp hstays).2 (decide_eq_true hzid)
    rw [hfirst x hx hxid, hfirst y hy hyid]

/-! ## 5. One invite -/

theorem covers_oneInvite {inviteId : ℕ} {x : InviteObject} :
    (Removal.oneInvite inviteId eventId).covers s x.value ↔
      x.id = inviteId ∧ x.event = eventId := by
  unfold Removal.covers
  rw [decide_eq_true_iff, or_iff_left, Removal.namesInvite, decide_eq_true_iff]
  · rfl
  · rw [List.any_eq_true]
    rintro ⟨y, -, hy⟩
    cases (of_decide_eq_true hy).1

theorem removed_oneInvite (h : s.WellFormed) (hkeys : s.KeysLive) {inviteId : ℕ}
    (hone : OneInvite s inviteId eventId)
    (hunshared : (Removal.oneInvite inviteId eventId).Unshared s) :
    Removed (.oneInvite inviteId eventId) s (s.removeInvite inviteId eventId) := by
  have hnoEvent : ∀ x ∈ s.events, ¬ (Removal.oneInvite inviteId eventId).namesEvent x.value :=
    fun _ _ hname => by cases hname
  cases hfind : (s.vector eventId).find? (fun x => x.id = inviteId) with
  | none =>
    have hnone : ∀ x ∈ s.vector eventId, x.id ≠ inviteId := fun x hx heq =>
      List.find?_eq_none.mp hfind x hx (decide_eq_true heq)
    obtain ⟨hevents, hvector, hdeleted, heventRows, hinviteRows⟩ := removeInvite_absent hnone
    refine removed_of_none (hkeys.removeInvite _ _) hevents hvector hdeleted heventRows hinviteRows
      hnoEvent fun x hx hcovers => ?_
    obtain ⟨hid, hevent⟩ := covers_oneInvite.mp hcovers
    exact hnone x (hevent ▸ h.isFiled.mem.mp hx) hid
  | some x =>
    have hx := List.mem_of_find?_eq_some hfind
    have hid : x.id = inviteId := by
      have hfound := List.find?_some hfind
      exact of_decide_eq_true hfound
    have hlive : (s.getEvent eventId).isSome := by
      cases hevent : s.getEvent eventId with
      | some event => rfl
      | none =>
        rw [hkeys.vector_eq_nil hevent] at hx
        cases hx
    have hgone := removeInvite_gone hlive hfind
    have hcovers : ∀ y ∈ s.allInvites,
        ((Removal.oneInvite inviteId eventId).covers s y.value = true ↔ y = x) := by
      intro y hy
      rw [covers_oneInvite]
      constructor
      · rintro ⟨hyid, hyevent⟩
        exact hone y (hyevent ▸ h.isFiled.mem.mp hy) x hx hyid hid
      · rintro rfl
        exact ⟨hid, h.filed eventId y hx⟩
    refine ⟨hkeys.removeInvite _ _, ?_, fun other => ?_, ⟨_, hgone.deleted, ?_⟩, ?_, ?_⟩
    · rw [hgone.events, List.filter_eq_self.mpr fun y hy => decide_eq_true (hnoEvent y hy)]
    · rw [hgone.vector]
      have hkept : ∀ y ∈ s.vector other, y ≠ x →
          decide (¬ (Removal.oneInvite inviteId eventId).covers s y.value = true) = true :=
        fun y hy hne => decide_eq_true fun hgoes =>
          hne ((hcovers y (mem_allInvites.mpr ⟨other, hy⟩)).mp hgoes)
      by_cases heq : other = eventId
      · subst heq
        rw [if_pos rfl, hid]
        obtain ⟨-, as, bs, hsplit, hnone⟩ := List.find?_eq_some_iff_append.mp hfind
        have hnodup := h.nodup_vector other
        rw [hsplit] at hnodup hkept ⊢
        have hfirst : ∀ y ∈ as, ¬ decide (y.id = inviteId) = true := fun y hy => by
          rw [Bool.not_eq_true, ← Bool.not_eq_true']
          exact hnone y hy
        have hnotin := (List.nodup_cons.mp (List.nodup_middle.mp hnodup)).1
        have hxgoes := (hcovers x (mem_allInvites.mpr ⟨other, hx⟩)).mpr rfl
        rw [List.eraseP_append_right _ hfirst, List.eraseP_cons_of_pos (by simpa using hid),
          List.filter_append, List.filter_cons_of_neg (by simpa using hxgoes)]
        rw [List.filter_eq_self.mpr fun y hy => hkept y (List.mem_append_left _ hy) fun hyx =>
            hnotin (List.mem_append_left _ (hyx ▸ hy)),
          List.filter_eq_self.mpr fun y hy =>
            hkept y (List.mem_append_right _ (List.mem_cons_of_mem x hy)) fun hyx =>
              hnotin (List.mem_append_right _ (hyx ▸ hy))]
      · rw [if_neg heq]
        refine (List.filter_eq_self.mpr fun y hy => hkept y hy fun hyx => heq ?_).symm
        rw [← h.filed other y hy, hyx, h.filed eventId x hx]
    · rw [List.filter_eq_nil_iff.mpr hnoEvent]
      exact ((filter_perm_singleton h.nodup_allInvites (mem_allInvites.mpr ⟨eventId, hx⟩)
        hcovers).map Object.address).symm.append_right _
    · rw [hgone.eventRows]
      exact ⟨fun y hy hname => absurd hname (hnoEvent y hy), fun _ _ _ => rfl, fun _ _ => rfl⟩
    · refine rowsRight_of (fun i => ?_) hunshared
      rw [hgone.inviteRows]
      refine if_congr ⟨?_, ?_⟩ rfl rfl
      · rintro rfl
        have hmem := mem_allInvites.mpr ⟨eventId, hx⟩
        exact ⟨x, hmem, (hcovers x hmem).mpr rfl, rfl⟩
      · rintro ⟨y, hy, hgoes, hyid⟩
        rw [← hyid, (hcovers y hy).mp hgoes]

theorem oneInvite_of_removed (hkeys : s.KeysLive) {inviteId : ℕ} (h : s.WellFormed)
    (hremoved : Removed (.oneInvite inviteId eventId) s (s.removeInvite inviteId eventId)) :
    OneInvite s inviteId eventId := by
  intro x hx y hy hxid hyid
  have hlive : (s.getEvent eventId).isSome := by
    cases hevent : s.getEvent eventId with
    | some event => rfl
    | none =>
      rw [hkeys.vector_eq_nil hevent] at hx
      cases hx
  obtain ⟨z, hfind⟩ := Option.isSome_iff_exists.mp
    (List.find?_isSome.mpr ⟨x, hx, decide_eq_true hxid⟩ :
      ((s.vector eventId).find? fun x => x.id = inviteId).isSome)
  have hgone := removeInvite_gone hlive hfind
  have hzid : z.id = inviteId := by
    have hfound := List.find?_some hfind
    exact of_decide_eq_true hfound
  obtain ⟨-, as, bs, hsplit, hnone⟩ := List.find?_eq_some_iff_append.mp hfind
  have hfirst : ∀ y ∈ as, ¬ decide (y.id = inviteId) = true := fun y hy => by
    rw [Bool.not_eq_true, ← Bool.not_eq_true']
    exact hnone y hy
  -- every invite with the id is the first one, or it is still there
  have hall : ∀ w ∈ s.vector eventId, w.id = inviteId → w = z := by
    intro w hw hwid
    by_contra hne
    have hstays : w ∈ (s.removeInvite inviteId eventId).vector eventId := by
      rw [hgone.vector, if_pos rfl, hzid, hsplit, List.eraseP_append_right _ hfirst,
        List.eraseP_cons_of_pos (by simpa using hzid)]
      rw [hsplit] at hw
      obtain hw | hw := List.mem_append.mp hw
      · exact List.mem_append_left _ hw
      · exact List.mem_append_right _ ((List.mem_cons.mp hw).resolve_left hne)
    rw [hremoved.invites] at hstays
    exact of_decide_eq_true (List.mem_filter.mp hstays).2
      (covers_oneInvite.mpr ⟨hwid, h.filed eventId w hw⟩)
  rw [hall x hx hxid, hall y hy hyid]

/-! ## 6. The loop over the events -/

/-- Nothing comes back into the set. -/
theorem mem_of_mem_removeEvent {y : EventObject} (hy : y ∈ (s.removeEvent eventId).events) :
    y ∈ s.events := by
  cases hevent : s.getEvent eventId with
  | none =>
    rw [removeEvent_of_none hevent] at hy
    exact hy
  | some event =>
    rw [(removeEvent_gone hevent).events] at hy
    exact (List.mem_filter.mp hy).1

theorem mem_of_mem_removeEvents {remove : CalendarEvent → Bool} {y : EventObject} :
    ∀ {xs : List EventObject} {s s' : Store}, removeEvents remove xs s = .ok s' →
      y ∈ s'.events → y ∈ s.events
  | [], s, s', h, hy => by
    cases h
    exact hy
  | x :: xs, s, s', h, hy => by
    rw [removeEvents] at h
    split at h
    · exact mem_of_mem_removeEvents h hy
    · split at h
      · split at h
        · exact mem_of_mem_removeEvent (mem_of_mem_removeEvents h hy)
        · cases h
      · exact mem_of_mem_removeEvents h hy

/-- A loop that finds nothing to remove does nothing. -/
theorem removeEvents_none {remove : CalendarEvent → Bool} :
    ∀ {xs : List EventObject} {s : Store}, (∀ x ∈ xs, ¬ remove x.value) →
      removeEvents remove xs s = .ok s
  | [], _, _ => rfl
  | x :: xs, s, h => by
    have hrest := removeEvents_none (s := s) fun y hy => h y (List.mem_cons_of_mem x hy)
    rw [removeEvents, if_neg (h x List.mem_cons_self), hrest]
    exact ite_self _

/-- **A loop that has an event to remove goes on from an erased event, or removes another one**
that has its id. -/
theorem lost_of_removeEvents {remove : CalendarEvent → Bool} :
    ∀ {xs seen : List EventObject} {s s' : Store}, s.events = seen ++ xs →
      (∀ y ∈ seen, ¬ remove y.value) → (∃ x ∈ xs, remove x.value) →
      removeEvents remove xs s = .ok s' →
      ∃ y ∈ s.events, ¬ remove y.value ∧ y ∉ s'.events
  | [], _, _, _, _, _, ⟨x, hx, _⟩, _ => absurd hx List.not_mem_nil
  | x :: xs, seen, s, s', hsplit, hseen, hexists, h => by
    have hx : x ∈ s.events := hsplit ▸ List.mem_append_right _ List.mem_cons_self
    rw [removeEvents, if_neg (not_not.mpr hx)] at h
    by_cases hremove : remove x.value
    · rw [if_pos hremove] at h
      by_cases hstays : x ∈ (s.removeEvent x.id).events
      · rw [if_pos hstays] at h
        obtain ⟨y, hy⟩ := Option.isSome_iff_exists.mp (isSome_getEvent.mpr ⟨x, hx, rfl⟩)
        have hgone := removeEvent_gone hy
        have hyout : y ∉ (s.removeEvent x.id).events := by
          rw [hgone.events]
          exact fun hmem => of_decide_eq_true (List.mem_filter.mp hmem).2 rfl
        have hyseen : y ∈ seen := by
          have hfind : (seen ++ x :: xs).find? (fun z => z.id = x.id) = some y := hsplit ▸ hy
          rw [List.find?_append, List.find?_cons_of_pos (by simp)] at hfind
          cases hfirst : seen.find? (fun z => z.id = x.id) with
          | some z =>
            rw [hfirst, Option.some_or] at hfind
            exact Option.some.inj hfind ▸ List.mem_of_find?_eq_some hfirst
          | none =>
            rw [hfirst, Option.none_or] at hfind
            exact absurd (Option.some.inj hfind ▸ hstays) hyout
        exact ⟨y, (getEvent_mem hy).1, hseen y hyseen,
          fun hmem => hyout (mem_of_mem_removeEvents h hmem)⟩
      · rw [if_neg hstays] at h
        cases h
    · rw [if_neg hremove] at h
      have hsplit' : s.events = (seen ++ [x]) ++ xs := by
        rw [hsplit, List.append_assoc]
        rfl
      refine lost_of_removeEvents hsplit' (fun y hy => ?_) ?_ h
      · obtain hy | hy := List.mem_append.mp hy
        · exact hseen y hy
        · rw [List.mem_singleton.mp hy]
          exact hremove
      · obtain ⟨y, hy, hyremove⟩ := hexists
        refine ⟨y, (List.mem_cons.mp hy).resolve_left fun heq => ?_, hyremove⟩
        exact hremove (heq ▸ hyremove)

/-! ## 7. Bulk removals -/

theorem events_removeInvite (inviteId eventId : ℕ) :
    (s.removeInvite inviteId eventId).events = s.events := by
  unfold Store.removeInvite
  split
  · rfl
  · split <;> rfl

variable {remove : Store → CalendarInvite → Bool}

theorem events_removeInvites :
    ∀ {xs : List InviteObject} {s s' : Store}, removeInvites remove xs s = .ok s' →
      s'.events = s.events
  | [], s, s', h => by
    cases h
    rfl
  | x :: xs, s, s', h => by
    rw [removeInvites] at h
    split at h
    · cases h
    · have hrest := events_removeInvites h
      split at hrest
      · exact hrest.trans (events_removeInvite _ _)
      · exact hrest

/-- A bulk removal, by what it removes. -/
structure Bulk (r : Removal) (s : Store) (remove : Store → CalendarInvite → Bool)
    (guid : ObjectGuid) : Prop where
  run : s.run r = (removeEvents r.namesEvent s.events s).bind fun s =>
    removeInvites remove (s.getPlayerInvites guid) s
  stable : ∀ s s' : Store, s.events = s'.events → remove s = remove s'
  covers : (∀ x ∈ s.events, ¬ r.namesEvent x.value) → r.covers s = goesFrom remove guid s

theorem covers_of_none (h : ∀ x ∈ s.events, ¬ r.namesEvent x.value) :
    r.covers s = r.namesInvite s := by
  funext invite
  unfold Removal.covers
  refine Bool.eq_iff_iff.mpr ?_
  rw [decide_eq_true_iff, or_iff_left]
  rw [List.any_eq_true]
  rintro ⟨x, hx, hboth⟩
  exact h x hx (of_decide_eq_true hboth).1

theorem bulk_allOf (guid : ObjectGuid) : Bulk (.allOf guid) s (fun _ _ => true) guid := by
  refine ⟨rfl, fun _ _ _ => rfl, fun hnone => ?_⟩
  rw [covers_of_none hnone]
  funext invite
  exact decide_eq_decide.mpr (and_iff_left rfl).symm

theorem bulk_guildOf (guid : ObjectGuid) (guildId : ℕ) :
    Bulk (.guildOf guid guildId) s (toGuild guildId) guid := by
  refine ⟨rfl, fun s s' hevents => ?_, fun hnone => covers_of_none hnone⟩
  funext invite
  unfold toGuild getEvent
  rw [hevents]

theorem Bulk.removed {guid : ObjectGuid} (hbulk : Bulk r s remove guid) (h : s.WellFormed)
    (hkeys : s.KeysLive) (hnone : ∀ x ∈ s.events, ¬ r.namesEvent x.value)
    (hapart : s.allInvites.Pairwise (Apart (r.covers s))) (hunshared : r.Unshared s) :
    RightRemoval r s := by
  have hcovers := hbulk.covers hnone
  rw [hcovers] at hapart
  obtain ⟨s', hrun, hwalk⟩ := removeInvites_spec hbulk.stable
    (Walk.start h.isFiled hkeys (goesFrom remove guid s))
    (fun y hy => absurd hy List.not_mem_nil) hapart
  rw [List.nil_append] at hwalk
  refine ⟨s', ?_, hwalk.keysLive, ?_, fun eventId => ?_, ⟨_, hwalk.deleted, ?_⟩, ?_, ?_⟩
  · rw [hbulk.run, removeEvents_none hnone]
    exact hrun
  · rw [hwalk.events, List.filter_eq_self.mpr fun x hx => decide_eq_true (hnone x hx)]
  · rw [hwalk.vector, List.append_nil, h.isFiled.vector_eq, List.filter_filter, List.filter_filter,
      hcovers]
    exact List.filter_congr fun x _ => Bool.and_comm _ _
  · rw [List.filter_eq_nil_iff.mpr hnone, hcovers]
    exact List.Perm.of_eq (List.append_nil _).symm
  · rw [hwalk.eventRows]
    exact ⟨fun x hx hname => absurd hname (hnone x hx), fun _ _ _ => rfl, fun _ _ => rfl⟩
  · refine rowsRight_of (fun i => ?_) hunshared
    rw [hwalk.inviteRows, hcovers]

theorem Bulk.clear {guid : ObjectGuid} (hbulk : Bulk r s remove guid) (h : s.WellFormed)
    (hkeys : s.KeysLive) (hright : RightRemoval r s) : (∀ x ∈ s.events, ¬ r.namesEvent x.value) ∧
      s.allInvites.Pairwise (Apart (r.covers s)) := by
  obtain ⟨s', hrun, hremoved⟩ := hright
  rw [hbulk.run] at hrun
  have hnone : ∀ x ∈ s.events, ¬ r.namesEvent x.value := by
    intro x hx hname
    cases hevents : removeEvents r.namesEvent s.events s with
    | error fault =>
      rw [hevents] at hrun
      cases hrun
    | ok s₁ =>
      rw [hevents] at hrun
      have hsplit : s.events = [] ++ s.events := rfl
      obtain ⟨y, hy, hstays, hlost⟩ := lost_of_removeEvents hsplit
        (fun y hy => absurd hy List.not_mem_nil) ⟨x, hx, hname⟩ hevents
      refine hlost ?_
      rw [← events_removeInvites hrun, hremoved.events]
      exact List.mem_filter.mpr ⟨hy, decide_eq_true hstays⟩
  refine ⟨hnone, ?_⟩
  have hcovers := hbulk.covers hnone
  rw [removeEvents_none hnone] at hrun
  have hapart := apart_of_removeInvites hbulk.stable
    (Walk.start h.isFiled hkeys (goesFrom remove guid s)) h.nodup_allInvites hrun
    fun y hy hstays => by
      refine mem_allInvites.mpr ⟨y.event, ?_⟩
      rw [hremoved.invites, hcovers]
      exact List.mem_filter.mpr ⟨h.isFiled.mem.mp hy, decide_eq_true hstays⟩
  rw [hcovers]
  exact hapart.2

/-! ## 8. Which removals are right -/

/-- **When a removal is right.** -/
theorem run_right_iff (h : s.WellFormed) (hkeys : s.KeysLive) (r : Removal) :
    RightRemoval r s ↔ r.Clear s ∧ r.Unshared s := by
  constructor
  · intro hright
    refine ⟨?_, hright.elim fun s' hs' => unshared_of_removed hs'.2⟩
    cases r with
    | oneEvent eventId =>
      obtain ⟨s', hrun, hremoved⟩ := hright
      cases hrun
      exact oneEvent_of_removed h hremoved
    | oneInvite inviteId eventId =>
      obtain ⟨s', hrun, hremoved⟩ := hright
      cases hrun
      exact oneInvite_of_removed hkeys h hremoved
    | allOf guid => exact (bulk_allOf guid).clear h hkeys hright
    | guildOf guid guildId => exact (bulk_guildOf guid guildId).clear h hkeys hright
  · rintro ⟨hclear, hunshared⟩
    cases r with
    | oneEvent eventId => exact ⟨_, rfl, removed_oneEvent h hkeys hclear hunshared⟩
    | oneInvite inviteId eventId => exact ⟨_, rfl, removed_oneInvite h hkeys hclear hunshared⟩
    | allOf guid => exact (bulk_allOf guid).removed h hkeys hclear.1 hclear.2 hunshared
    | guildOf guid guildId =>
      exact (bulk_guildOf guid guildId).removed h hkeys hclear.1 hclear.2 hunshared

/-- An event of player 7. -/
def meeting : CalendarEvent := ⟨1, 7, 0, 0, 0, 0, 0, 0, "", ""⟩

/-- His invite to it. -/
def ownInvite : CalendarInvite := ⟨1, 1, 7, 7, 0, 0, 0, ""⟩

/-- A calendar with the event and the invite. -/
def oneMeeting : Store where
  events := [⟨100, meeting⟩]
  invites := .insert .empty 1 [⟨200, ownInvite⟩]
  eventIds := ⟨[], 1⟩
  inviteIds := ⟨[], 1⟩
  eventRows := fun id => if id = 1 then some meeting else none
  inviteRows := fun id => if id = 1 then some ownInvite else none
  deleted := []

theorem oneMeeting_wellFormed : oneMeeting.WellFormed ∧ oneMeeting.KeysLive := by
  refine ⟨⟨by decide, by decide, fun eventId x hx => ?_⟩, fun eventId hkey => ?_⟩
  · obtain ⟨xs, hxs, hx⟩ := mem_vector.mp hx
    cases List.mem_singleton.mp hxs
    rw [List.mem_singleton.mp hx]
    rfl
  · rw [List.mem_singleton.mp hkey]
    rfl

theorem run_right_iff_oneMeeting : RightRemoval (.oneInvite 1 1) oneMeeting := by
  refine (run_right_iff oneMeeting_wellFormed.1 oneMeeting_wellFormed.2 (.oneInvite 1 1)).mpr
    ⟨fun x hx y hy _ _ => ?_, fun x hx y hy hgoes hstays _ => ?_⟩
  · exact (List.mem_singleton.mp hx).trans (List.mem_singleton.mp hy).symm
  · rw [List.mem_singleton.mp hx] at hgoes
    rw [List.mem_singleton.mp hy] at hstays
    exact absurd hgoes hstays

/-- **The character of player 7 is deleted**: the loop over the events goes on from the event that
it has just erased. -/
theorem erased_event_met :
    oneMeeting.WellFormed ∧ oneMeeting.KeysLive ∧ ¬ RightRemoval (.allOf 7) oneMeeting := by
  refine ⟨oneMeeting_wellFormed.1, oneMeeting_wellFormed.2, fun ⟨s', hrun, _⟩ => ?_⟩
  have herror : oneMeeting.run (.allOf 7) = .error .erasedEvent := rfl
  rw [herror] at hrun
  cases hrun

end HungerGames.Calendar
