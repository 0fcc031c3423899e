/-
# The members and the owner of a channel

`Ordered` says that the members are those who have the channel on their lists, each under his
own guid, none of them banned, and that only the owner has the owner's flag; `Owned` that a
channel with members has its owner among them, as a moderator.  Together they hold in every
state of a run (`channel_sound`), and who is no moderator changes no one else.

Three commands break this.  An owner who kicks or bans himself is made a member again, under an
empty guid, by the choice of the sender as the next owner.  If he was alone, the guid of the
owner stays, and nobody who joins becomes the owner.  And an owner who takes the moderator's
flag from himself by a spelling of his name that is not his name loses it.  `Fits` leaves these
out.
-/
import HungerGames.Chat.Channel

namespace HungerGames.Chat

open HungerGames.System

/-! ## 1. Flags -/

namespace PlayerInfo

/-- A flag is put on its own. -/
theorem hasFlag_putFlag (state : Bool) (info : PlayerInfo) {flag other : MemberFlags}
    (hflag : flag ∈ [0x01#8, 0x02#8, 0x08#8]) (hother : other ∈ [0x01#8, 0x02#8]) :
    (info.putFlag flag state).hasFlag other =
      if flag = other then state else info.hasFlag other := by
  have hbits : ∀ flag ∈ [0x01#8, 0x02#8, 0x08#8], ∀ other ∈ [0x01#8, 0x02#8],
      ∀ f : MemberFlags, ((if state then f ||| flag else f &&& ~~~flag) &&& other != 0#8) =
        if flag = other then state else f &&& other != 0#8 := by
    cases state <;> decide +kernel
  exact hbits flag hflag other hother info.flags

@[simp] theorem isOwner_setOwner (state : Bool) (info : PlayerInfo) :
    (info.setOwner state).isOwner = state :=
  hasFlag_putFlag state info (by decide) (by decide)

@[simp] theorem isModerator_setOwner (state : Bool) (info : PlayerInfo) :
    (info.setOwner state).isModerator = info.isModerator :=
  hasFlag_putFlag state info (by decide) (by decide)

@[simp] theorem isOwner_setModerator (state : Bool) (info : PlayerInfo) :
    (info.setModerator state).isOwner = info.isOwner :=
  hasFlag_putFlag state info (by decide) (by decide)

@[simp] theorem isModerator_setModerator (state : Bool) (info : PlayerInfo) :
    (info.setModerator state).isModerator = state :=
  hasFlag_putFlag state info (by decide) (by decide)

@[simp] theorem isOwner_setMuted (state : Bool) (info : PlayerInfo) :
    (info.setMuted state).isOwner = info.isOwner :=
  hasFlag_putFlag state info (by decide) (by decide)

@[simp] theorem isModerator_setMuted (state : Bool) (info : PlayerInfo) :
    (info.setMuted state).isModerator = info.isModerator :=
  hasFlag_putFlag state info (by decide) (by decide)

end PlayerInfo

/-! ## 2. The invariant -/

/-- The member of a guid. -/
def Channel.member (c : Channel) (guid : ObjectGuid) : Option PlayerInfo :=
  c.playersStore.lookup guid

/-- **The members are in order**; `listed` are the players who have the channel on their lists. -/
structure Ordered (c : Channel) (listed : List ObjectGuid) : Prop where
  custom : c.channelId = 0
  ownership : c.ownership = true
  nodup : listed.Nodup
  mem_listed : ∀ guid, (c.member guid).isSome ↔ guid ∈ listed
  keyed : ∀ guid info, c.member guid = some info → info.player = guid
  nonzero : c.member 0 = none
  banned_out : ∀ guid ∈ c.bannedStore, c.member guid = none
  owner_only : ∀ guid info, c.member guid = some info → info.isOwner = true →
    guid = c.ownerGUID

/-- A channel with members has its owner among them, as a moderator and with the flag. -/
def Owned (c : Channel) : Prop :=
  ∀ guid, (c.member guid).isSome → ∃ info, c.member c.ownerGUID = some info ∧
    info.isOwner = true ∧ info.isModerator = true

/-- **The channel is sound.** -/
structure Sound (c : Channel) (listed : List ObjectGuid) : Prop where
  ordered : Ordered c listed
  owned : Owned c

namespace Channel

theorem member_update (c : Channel) (guid : ObjectGuid) (f : PlayerInfo → PlayerInfo)
    (who : ObjectGuid) :
    (c.update guid f).member who = if who = guid then some (f (c.info guid)) else c.member who :=
  SortedMap.lookup_insert _ _ _ _

theorem info_of_member {c : Channel} {guid : ObjectGuid} {info : PlayerInfo}
    (h : c.member guid = some info) : c.info guid = info := by
  unfold Channel.info
  rw [show c.playersStore.lookup guid = some info from h]
  rfl

theorem info_update (c : Channel) (guid : ObjectGuid) (f : PlayerInfo → PlayerInfo) :
    (c.update guid f).info guid = f (c.info guid) :=
  info_of_member (by rw [member_update, if_pos rfl])

/-- No member, no entry. -/
theorem entries_eq_nil_iff {c : Channel} :
    c.playersStore.entries = [] ↔ ∀ guid, c.member guid = none := by
  constructor
  · intro h guid
    unfold Channel.member SortedMap.lookup
    rw [h]
    rfl
  · intro h
    refine List.eq_nil_iff_forall_not_mem.mpr fun x hx => ?_
    have hsome : c.member x.1 = some x.2 := SortedMap.lookup_eq_some.mpr hx
    rw [h x.1] at hsome
    cases hsome

/-! ## 3. A new owner -/

theorem member_withoutOwnerFlag (c : Channel) (who : ObjectGuid) :
    c.withoutOwnerFlag.member who =
      if who = c.ownerGUID then (c.member who).map (PlayerInfo.setOwner false)
      else c.member who := by
  unfold withoutOwnerFlag
  cases howner : c.playersStore.lookup c.ownerGUID with
  | none =>
    by_cases hwho : who = c.ownerGUID
    · rw [if_pos hwho, hwho, show c.member c.ownerGUID = none from howner]
      rfl
    · rw [if_neg hwho]
  | some info =>
    by_cases hwho : who = c.ownerGUID
    · rw [if_pos hwho, hwho, show c.member c.ownerGUID = some info from howner]
      exact (SortedMap.lookup_insert _ _ _ _).trans (if_pos rfl)
    · rw [if_neg hwho]
      exact (SortedMap.lookup_insert _ _ _ _).trans (if_neg hwho)

theorem withoutOwnerFlag_fields (c : Channel) :
    c.withoutOwnerFlag.channelId = c.channelId ∧ c.withoutOwnerFlag.ownership = c.ownership ∧
      c.withoutOwnerFlag.password = c.password ∧
        c.withoutOwnerFlag.bannedStore = c.bannedStore := by
  unfold withoutOwnerFlag
  split
  · exact ⟨rfl, rfl, rfl, rfl⟩
  · exact ⟨rfl, rfl, rfl, rfl⟩

/-- What a change of the owner leaves: the new owner has both flags, no one else the owner's. -/
structure Crowned (c c' : Channel) (guid : ObjectGuid) : Prop where
  channelId : c'.channelId = c.channelId
  ownership : c'.ownership = c.ownership
  password : c'.password = c.password
  bannedStore : c'.bannedStore = c.bannedStore
  ownerGUID : c'.ownerGUID = guid
  crowned : ∃ info, c'.member guid = some info ∧ info.isOwner = true ∧
    info.isModerator = true ∧ info.player = (c.info guid).player
  others : ∀ who, who ≠ guid → c'.member who =
    if who = c.ownerGUID ∧ c.ownerGUID ≠ 0 then (c.member who).map (PlayerInfo.setOwner false)
    else c.member who

theorem crowned_setOwnerGuid (c : Channel) {guid : ObjectGuid} (hguid : guid ≠ 0)
    (exclaim : Bool) : Crowned c (c.setOwnerGuid guid exclaim).1 guid := by
  have hbefore : ∀ d : Channel, d = (if c.ownerGUID ≠ 0 then c.withoutOwnerFlag else c) →
      (∀ who, d.member who = if who = c.ownerGUID ∧ c.ownerGUID ≠ 0 then
          (c.member who).map (PlayerInfo.setOwner false) else c.member who) ∧
        (d.channelId = c.channelId ∧ d.ownership = c.ownership ∧ d.password = c.password ∧
          d.bannedStore = c.bannedStore) := by
    rintro d rfl
    by_cases hzero : c.ownerGUID ≠ 0
    · rw [if_pos hzero]
      refine ⟨fun who => ?_, c.withoutOwnerFlag_fields⟩
      rw [member_withoutOwnerFlag]
      simp [hzero]
    · rw [if_neg hzero]
      exact ⟨fun who => by simp [not_not.mp hzero], rfl, rfl, rfl, rfl⟩
  obtain ⟨hmember, hid, hownership, hpassword, hbanned⟩ := hbefore _ rfl
  unfold setOwnerGuid
  generalize (if c.ownerGUID ≠ 0 then c.withoutOwnerFlag else c) = d at hmember hid hownership hpassword hbanned
  rw [if_pos hguid]
  refine ⟨hid, hownership, hpassword, hbanned, rfl, ?_, fun who hwho => ?_⟩
  · refine ⟨_, (member_update _ guid _ guid).trans (if_pos rfl), ?_, ?_, ?_⟩
    · simp
    · rw [info_update]
      simp
    · rw [info_update]
      have hplayer : (d.info guid).player = (c.info guid).player := by
        have hlookup : d.playersStore.lookup guid = _ := hmember guid
        unfold info
        rw [hlookup]
        split
        · unfold Channel.member
          cases c.playersStore.lookup guid <;> rfl
        · rfl
      exact hplayer
  · rw [member_update, if_neg hwho, member_update, if_neg hwho]
    exact hmember who

/-- **A member is made the owner** of a channel that has its members in order. -/
theorem Crowned.sound {c c' : Channel} {guid : ObjectGuid} {listed : List ObjectGuid}
    (hcrowned : Crowned c c' guid) (h : Ordered c listed) (hon : (c.member guid).isSome) :
    Sound c' listed := by
  obtain ⟨old, hold⟩ := Option.isSome_iff_exists.mp hon
  obtain ⟨info, hinfo, howner, hmoderator, hplayer⟩ := hcrowned.crowned
  -- nobody enters or leaves, and no one else gains the owner's flag
  have hothers : ∀ who, who ≠ guid → ∀ i, c'.member who = some i →
      ∃ i', c.member who = some i' ∧ i.player = i'.player ∧
        (i.isOwner = true → i'.isOwner = true ∧ ¬ (who = c.ownerGUID ∧ c.ownerGUID ≠ 0)) := by
    intro who hwho i hi
    rw [hcrowned.others who hwho] at hi
    by_cases hcond : who = c.ownerGUID ∧ c.ownerGUID ≠ 0
    · rw [if_pos hcond] at hi
      obtain ⟨i', hi', rfl⟩ := Option.map_eq_some_iff.mp hi
      exact ⟨i', hi', rfl, fun hflag => by simp at hflag⟩
    · rw [if_neg hcond] at hi
      exact ⟨i, hi, rfl, fun hflag => ⟨hflag, hcond⟩⟩
  have hnone : ∀ who, c.member who = none → c'.member who = none := by
    intro who hwho
    have hne : who ≠ guid := by
      rintro rfl
      rw [hold] at hwho
      cases hwho
    rw [hcrowned.others who hne, hwho]
    split <;> rfl
  refine ⟨⟨hcrowned.channelId.trans h.custom, hcrowned.ownership.trans h.ownership, h.nodup, ?_,
    ?_, hnone 0 h.nonzero, ?_, ?_⟩, ?_⟩
  · intro who
    rw [← h.mem_listed]
    by_cases hwho : who = guid
    · rw [hwho, hinfo, hold]
      rfl
    · rw [hcrowned.others who hwho]
      split
      · rw [Option.isSome_map]
      · rfl
  · intro who i hi
    by_cases hwho : who = guid
    · subst hwho
      obtain rfl := Option.some.inj (hinfo.symm.trans hi)
      rw [hplayer, info_of_member hold]
      exact h.keyed who old hold
    · obtain ⟨i', hi', hplayer', -⟩ := hothers who hwho i hi
      exact hplayer'.trans (h.keyed who i' hi')
  · intro who hwho
    rw [hcrowned.bannedStore] at hwho
    exact hnone who (h.banned_out who hwho)
  · intro who i hi hflag
    rw [hcrowned.ownerGUID]
    by_contra hwho
    obtain ⟨i', hi', -, hflags⟩ := hothers who hwho i hi
    obtain ⟨hflag', hcond⟩ := hflags hflag
    have hzero : who = 0 := by
      have heq := h.owner_only who i' hi' hflag'
      rw [heq]
      exact not_not.mp fun hne => hcond ⟨heq, hne⟩
    rw [hzero, h.nonzero] at hi'
    cases hi'
  · intro _ _
    rw [hcrowned.ownerGUID]
    exact ⟨info, hinfo, howner, hmoderator⟩

/-! ## 4. One member changed, gone or new -/

end Channel

variable {c : Channel} {guid : ObjectGuid} {listed : List ObjectGuid}

/-- A member's flags change, not to the owner's flag. -/
theorem Ordered.update (h : Ordered c listed) {info : PlayerInfo}
    (hinfo : c.member guid = some info) {f : PlayerInfo → PlayerInfo}
    (hplayer : (f info).player = info.player)
    (howner : (f info).isOwner = true → info.isOwner = true) :
    Ordered (c.update guid f) listed := by
  have hmember := fun who => c.member_update guid f who
  rw [Channel.info_of_member hinfo] at hmember
  have hnone : ∀ who, c.member who = none → (c.update guid f).member who = none := by
    intro who hwho
    rw [hmember who, if_neg ?_, hwho]
    rintro rfl
    rw [hinfo] at hwho
    cases hwho
  refine ⟨h.custom, h.ownership, h.nodup, ?_, ?_, hnone 0 h.nonzero,
    fun who hwho => hnone who (h.banned_out who hwho), ?_⟩
  · intro who
    rw [← h.mem_listed, hmember who]
    split
    · rename_i heq
      rw [heq, hinfo]
      rfl
    · rfl
  · intro who i hi
    rw [hmember who] at hi
    split at hi
    · rename_i heq
      obtain rfl := Option.some.inj hi
      rw [hplayer, heq]
      exact h.keyed guid info hinfo
    · exact h.keyed who i hi
  · intro who i hi hflag
    rw [hmember who] at hi
    split at hi
    · rename_i heq
      obtain rfl := Option.some.inj hi
      rw [heq]
      exact h.owner_only guid info hinfo (howner hflag)
    · exact h.owner_only who i hi hflag

/-- A member who keeps the flags of an owner, if he is the owner. -/
theorem Owned.update (h : Owned c) {info : PlayerInfo} (hinfo : c.member guid = some info)
    {f : PlayerInfo → PlayerInfo}
    (hkeep : guid = c.ownerGUID → info.isOwner = true → info.isModerator = true →
      (f info).isOwner = true ∧ (f info).isModerator = true) : Owned (c.update guid f) := by
  have hsome : (c.member guid).isSome := hinfo ▸ rfl
  obtain ⟨owner, howner, hflag, hmoderator⟩ := h guid hsome
  intro _ _
  change ∃ info, (c.update guid f).member c.ownerGUID = some info ∧ _
  rw [Channel.member_update, Channel.info_of_member hinfo]
  by_cases heq : c.ownerGUID = guid
  · rw [heq, hinfo] at howner
    obtain rfl := Option.some.inj howner
    rw [if_pos heq]
    exact ⟨_, rfl, hkeep heq.symm hflag hmoderator⟩
  · rw [if_neg heq]
    exact ⟨owner, howner, hflag, hmoderator⟩

/-- The channel without a member, and with others banned. -/
def Channel.withoutMember (c : Channel) (guid : ObjectGuid) (bannedStore : List ObjectGuid) : Channel :=
  { c with playersStore := c.playersStore.erase guid, bannedStore := bannedStore }

theorem Channel.member_withoutMember (c : Channel) (guid : ObjectGuid) (bannedStore : List ObjectGuid)
    (who : ObjectGuid) :
    (c.withoutMember guid bannedStore).member who = if who = guid then none else c.member who :=
  SortedMap.lookup_erase _ _ _

/-- A member is gone, from the lists too, and he may be banned. -/
theorem Ordered.withoutMember (h : Ordered c listed) (guid : ObjectGuid)
    {bannedStore : List ObjectGuid}
    (hbanned : ∀ who ∈ bannedStore, who = guid ∨ who ∈ c.bannedStore) :
    Ordered (c.withoutMember guid bannedStore) (listed.filter (· ≠ guid)) := by
  have hmember := fun who => c.member_withoutMember guid bannedStore who
  have hkept : ∀ who i, (c.withoutMember guid bannedStore).member who = some i →
      c.member who = some i := by
    intro who i hi
    rw [hmember who] at hi
    split at hi
    · cases hi
    · exact hi
  have hnone : ∀ who, c.member who = none → (c.withoutMember guid bannedStore).member who = none := by
    intro who hwho
    rw [hmember who, hwho]
    split <;> rfl
  refine ⟨h.custom, h.ownership, h.nodup.filter _, ?_,
    fun who i hi => h.keyed who i (hkept who i hi), hnone 0 h.nonzero, ?_,
    fun who i hi => h.owner_only who i (hkept who i hi)⟩
  · intro who
    rw [hmember who, List.mem_filter, ← h.mem_listed]
    by_cases heq : who = guid
    · simp [heq]
    · simp [heq]
  · intro who hwho
    rcases hbanned who hwho with rfl | hwho
    · rw [hmember who, if_pos rfl]
    · exact hnone who (h.banned_out who hwho)

/-- Where the one who is gone was not the owner, the owner stays. -/
theorem Owned.withoutMember (h : Owned c) (hne : c.ownerGUID ≠ guid)
    (bannedStore : List ObjectGuid) : Owned (c.withoutMember guid bannedStore) := by
  intro who hwho
  change ∃ info, (c.withoutMember guid bannedStore).member c.ownerGUID = some info ∧ _
  rw [Channel.member_withoutMember] at hwho ⊢
  rw [if_neg hne]
  split at hwho
  · cases hwho
  · exact h who hwho

/-- The channel with a new member. -/
def Channel.withMember (c : Channel) (guid : ObjectGuid) : Channel :=
  { c with playersStore := c.playersStore.insert guid ⟨guid, MEMBER_FLAG_NONE⟩ }

theorem Channel.member_withMember (c : Channel) (guid who : ObjectGuid) :
    (c.withMember guid).member who =
      if who = guid then some ⟨guid, MEMBER_FLAG_NONE⟩ else c.member who :=
  SortedMap.lookup_insert _ _ _ _

theorem Ordered.withMember (h : Ordered c listed) (hguid : guid ≠ 0) (hout : c.member guid = none)
    (hbanned : guid ∉ c.bannedStore) : Ordered (c.withMember guid) (listed ++ [guid]) := by
  have hmember := fun who => c.member_withMember guid who
  have hunlisted : guid ∉ listed := by
    rw [← h.mem_listed, hout]
    exact Bool.false_ne_true
  refine ⟨h.custom, h.ownership, ?_, ?_, ?_, ?_, ?_, ?_⟩
  · exact List.nodup_append.mpr ⟨h.nodup, List.nodup_singleton guid, fun a ha b hb => by
      rw [List.mem_singleton.mp hb]
      rintro rfl
      exact hunlisted ha⟩
  · intro who
    rw [hmember who, List.mem_append, List.mem_singleton, ← h.mem_listed]
    by_cases heq : who = guid
    · simp [heq]
    · simp [heq]
  · intro who i hi
    rw [hmember who] at hi
    split at hi
    · rename_i heq
      obtain rfl := Option.some.inj hi
      exact heq.symm
    · exact h.keyed who i hi
  · rw [hmember 0, if_neg (Ne.symm hguid)]
    exact h.nonzero
  · intro who hwho
    rw [hmember who, if_neg ?_]
    · exact h.banned_out who hwho
    · rintro rfl
      exact hbanned hwho
  · intro who i hi hflag
    rw [hmember who] at hi
    split at hi
    · obtain rfl := Option.some.inj hi
      have hnoFlag : (MEMBER_FLAG_NONE &&& MEMBER_FLAG_OWNER != 0#8) = true := hflag
      exact absurd hnoFlag (by decide)
    · exact h.owner_only who i hi hflag

/-! ## 5. The commands -/

/-- A command is refused, or it leaves a sound channel. -/
theorem Sound.setModeratorOwner (h : Ordered c listed) (hon : (c.member guid).isSome)
    (exclaim : Bool) :
    Sound ((c.update guid (PlayerInfo.setModerator true)).setOwnerGuid guid exclaim).1 listed := by
  obtain ⟨info, hinfo⟩ := Option.isSome_iff_exists.mp hon
  have hguid : guid ≠ 0 := by
    rintro rfl
    rw [h.nonzero] at hinfo
    cases hinfo
  have hupdate : Ordered (c.update guid (PlayerInfo.setModerator true)) listed :=
    h.update hinfo rfl fun hflag => by simpa using hflag
  refine (Channel.crowned_setOwnerGuid _ hguid exclaim).sound hupdate ?_
  rw [Channel.member_update, if_pos rfl]
  rfl

namespace Channel

/-- What lets a player who is not on the channel join a custom one. -/
def Admits (c : Channel) (player : Player) (pass : String) : Prop :=
  c.isBanned player.guid = false ∧ (c.password ≠ "" → pass = c.password)

instance (c : Channel) (player : Player) (pass : String) : Decidable (c.Admits player pass) :=
  inferInstanceAs (Decidable (_ ∧ _))

theorem ownJoined_sound (h : Sound c listed) (hguid : guid ≠ 0) (hout : c.member guid = none)
    (hbanned : guid ∉ c.bannedStore) (hempty : c.playersStore.entries = [] → c.ownerGUID = 0) :
    Sound ((c.withMember guid).ownJoined guid).1 (listed ++ [guid]) := by
  have hordered := h.ordered.withMember hguid hout hbanned
  have hon : (c.withMember guid).member guid = some ⟨guid, MEMBER_FLAG_NONE⟩ := by
    rw [member_withMember, if_pos rfl]
  have hconstant : (c.withMember guid).isConstant = false := by
    unfold isConstant
    rw [hordered.custom]
    rfl
  unfold ownJoined
  rw [hconstant, hordered.ownership]
  by_cases hzero : c.ownerGUID = 0
  · rw [if_pos (by simp [withMember, hzero])]
    have hcrowned := crowned_setOwnerGuid (c.withMember guid) hguid
      (1 < (c.withMember guid).getNumPlayers)
    have hsound := hcrowned.sound hordered (by rw [hon]; rfl)
    obtain ⟨info, hinfo, hflag, hmoderator, -⟩ := hcrowned.crowned
    refine ⟨hsound.ordered.update hinfo rfl fun hflag => by simpa using hflag,
      hsound.owned.update hinfo fun _ _ _ => by simpa using hflag⟩
  · rw [if_neg (by simp [withMember, hzero])]
    refine ⟨hordered, fun _ _ => ?_⟩
    -- the channel had an owner, so it had members
    obtain ⟨who, hwho⟩ : ∃ who, (c.member who).isSome := by
      by_contra hnone
      refine hzero (hempty (entries_eq_nil_iff.mpr fun who => ?_))
      exact Option.not_isSome_iff_eq_none.mp fun hsome => hnone ⟨who, hsome⟩
    obtain ⟨info, hinfo, hflags⟩ := h.owned who hwho
    refine ⟨info, ?_, hflags⟩
    change (c.withMember guid).member c.ownerGUID = some info
    rw [member_withMember, if_neg ?_, hinfo]
    rintro heq
    rw [heq, hout] at hinfo
    cases hinfo

theorem joinChannel_sound (restrictedLfg : Bool) (h : Sound c listed) (player : Player)
    (pass : String) (hfits : c.playersStore.entries = [] → c.Admits player pass → c.ownerGUID = 0) :
    Sound (c.joinChannel restrictedLfg listed player pass).channel
      (c.joinChannel restrictedLfg listed player pass).listed := by
  unfold joinChannel
  by_cases hon : c.isOn player.guid = true
  · rw [if_pos hon]
    split
    · exact h
    · exact h
  · rw [if_neg hon]
    split
    · exact h
    · rename_i hbanned
      split
      · exact h
      · rename_i hpass
        split
        · exact h
        · refine ownJoined_sound h player.guid_ne ?_ ?_ fun hempty => hfits hempty ?_
          · exact Option.not_isSome_iff_eq_none.mp hon
          · exact fun hmem => hbanned (decide_eq_true hmem)
          · exact ⟨Bool.eq_false_iff.mpr hbanned,
              fun hne => not_not.mp fun hdiffers => hpass ⟨hne, hdiffers⟩⟩

/-- A channel whose member has left: the first of the others follows the owner. -/
theorem ownFirst_sound (h : Sound c listed) (guid : ObjectGuid) :
    Sound ((c.withoutMember guid c.bannedStore).ownFirst (c.info guid).isOwner).1
      (listed.filter (· ≠ guid)) := by
  have hordered := h.ordered.withoutMember guid fun who hwho => Or.inr hwho
  have hconstant : (c.withoutMember guid c.bannedStore).isConstant = false := by
    unfold isConstant
    rw [hordered.custom]
    rfl
  unfold ownFirst
  cases hentries : (c.withoutMember guid c.bannedStore).playersStore.entries with
  | nil =>
    refine ⟨hordered, fun who hwho => ?_⟩
    rw [entries_eq_nil_iff.mp hentries who] at hwho
    cases hwho
  | cons first rest =>
    have hfirst : (c.withoutMember guid c.bannedStore).member first.1 = some first.2 :=
      SortedMap.lookup_eq_some.mpr (hentries ▸ List.mem_cons_self)
    dsimp only
    rw [hconstant, hordered.ownership]
    by_cases hflag : (c.info guid).isOwner = true
    · rw [if_pos (by simp [hflag]), hordered.keyed first.1 first.2 hfirst]
      exact Sound.setModeratorOwner hordered (hfirst ▸ rfl) true
    · rw [if_neg (by simp [hflag])]
      refine ⟨hordered, h.owned.withoutMember ?_ _⟩
      rintro rfl
      -- an owner who is a member has the flag
      have hsome : (c.member first.1).isSome := by
        rw [member_withoutMember] at hfirst
        split at hfirst
        · cases hfirst
        · exact hfirst ▸ rfl
      obtain ⟨info, hinfo, howner, -⟩ := h.owned first.1 hsome
      rw [info_of_member hinfo] at hflag
      exact hflag howner

/-- What is left of a sound channel, whatever list the one who leaves has. -/
theorem leaveChannel_sound (h : Sound c listed) (player : Player) (hon : c.isOn player.guid = true)
    (list : List ObjectGuid) (send : Bool) :
    Sound (c.leaveChannel list player send).channel (listed.filter (· ≠ player.guid)) := by
  unfold leaveChannel
  dsimp only
  rw [hon]
  exact ownFirst_sound h player.guid

variable {player : Player}

theorem leaveChannel_of_not_on (hon : c.isOn player.guid = false) (listed : List ObjectGuid)
    (send : Bool) :
    (c.leaveChannel listed player send).channel = c ∧
      (c.leaveChannel listed player send).listed = listed := by
  unfold leaveChannel
  dsimp only
  rw [hon]
  cases send with
  | true => exact ⟨rfl, rfl⟩
  | false => exact ⟨rfl, rfl⟩

theorem mem_onChannel {found : Option Player} {bad : Player} (h : c.onChannel found = some bad) :
    found = some bad ∧ (c.member bad.guid).isSome := by
  obtain ⟨hfound, hon⟩ := Option.filter_eq_some_iff.mp h
  exact ⟨hfound, hon⟩

section

variable (h : Sound c listed)
include h

theorem kickOrBan_sound (player : Player) (badname : String) (found : Option Player) (ban : Bool)
    (hfits : ∀ bad ∈ found, bad.guid = player.guid → bad.guid = c.ownerGUID →
      ∀ who, c.isOn who = true → who = player.guid) :
    Sound (c.kickOrBan listed player badname found ban).channel
      (c.kickOrBan listed player badname found ban).listed := by
  unfold kickOrBan
  dsimp only
  by_cases hgood : c.isOn player.guid = true
  · rw [hgood]
    split
    · exact h
    · split
      · exact h
      · cases hbad : c.onChannel found with
        | none => exact h
        | some bad =>
          obtain ⟨hfound, hon⟩ := mem_onChannel hbad
          dsimp only
          split
          · exact h
          · set bannedStore := if (ban && !c.isBanned bad.guid) = true then
              bad.guid :: c.bannedStore else c.bannedStore with hstore
            have hbanned : ∀ who ∈ bannedStore, who = bad.guid ∨ who ∈ c.bannedStore := by
              intro who hwho
              rw [hstore] at hwho
              split at hwho
              · exact List.mem_cons.mp hwho
              · exact Or.inr hwho
            have hordered := h.ordered.withoutMember bad.guid hbanned
            change Sound ((c.withoutMember bad.guid bannedStore).ownKicked
              (c.ownerGUID == bad.guid) player.guid).1 (listed.filter (· ≠ bad.guid))
            unfold ownKicked
            by_cases howner : c.ownerGUID = bad.guid
            · by_cases hentries : (c.withoutMember bad.guid bannedStore).playersStore.entries = []
              · rw [hentries, if_neg (by simp)]
                refine ⟨hordered, fun who hwho => ?_⟩
                rw [entries_eq_nil_iff.mp hentries who] at hwho
                cases hwho
              · rw [if_pos (by simp [howner, hordered.ownership, hentries])]
                refine Sound.setModeratorOwner hordered ?_ true
                rw [member_withoutMember, if_neg ?_]
                · exact hgood
                · intro heq
                  have halone := hfits bad hfound heq.symm howner.symm
                  refine hentries (entries_eq_nil_iff.mpr fun who => ?_)
                  rw [member_withoutMember]
                  split
                  · rfl
                  · rename_i hne
                    refine Option.not_isSome_iff_eq_none.mp fun hsome => hne ?_
                    exact (halone who hsome).trans heq
            · rw [if_neg (by simp [howner])]
              exact ⟨hordered, h.owned.withoutMember howner _⟩
  · rw [Bool.eq_false_iff.mpr hgood]
    exact h

theorem unBan_sound (player : Player) (badname : String) (found : Option Player) :
    Sound (c.unBan listed player badname found).channel
      (c.unBan listed player badname found).listed := by
  unfold unBan
  dsimp only
  split
  · exact h
  · split
    · exact h
    · split
      · exact h
      · obtain ⟨hordered, howned⟩ := h
        refine ⟨⟨hordered.custom, hordered.ownership, hordered.nodup, hordered.mem_listed,
          hordered.keyed, hordered.nonzero, fun who hwho => ?_, hordered.owner_only⟩, howned⟩
        exact hordered.banned_out who (List.mem_of_mem_filter hwho)

theorem setPassword_sound (player : Player) (pass : String) :
    Sound (c.setPassword listed player pass).channel
      (c.setPassword listed player pass).listed := by
  unfold setPassword
  dsimp only
  split
  · exact h
  · split
    · exact h
    · obtain ⟨hordered, howned⟩ := h
      exact ⟨⟨hordered.custom, hordered.ownership, hordered.nodup, hordered.mem_listed,
        hordered.keyed, hordered.nonzero, hordered.banned_out, hordered.owner_only⟩, howned⟩

theorem toggleAnnounce_sound (player : Player) :
    Sound (c.toggleAnnounce listed player).channel (c.toggleAnnounce listed player).listed := by
  unfold toggleAnnounce
  dsimp only
  split
  · exact h
  · split
    · exact h
    · obtain ⟨hordered, howned⟩ := h
      exact ⟨⟨hordered.custom, hordered.ownership, hordered.nodup, hordered.mem_listed,
        hordered.keyed, hordered.nonzero, hordered.banned_out, hordered.owner_only⟩, howned⟩

/-- The flags of a member; not the moderator's flag from the owner. -/
theorem setFlag_sound (hon : (c.member guid).isSome) {mod set : Bool}
    (hkeep : guid = c.ownerGUID → mod = true → set = true) :
    Sound (c.setFlag listed guid mod set).channel (c.setFlag listed guid mod set).listed := by
  obtain ⟨info, hinfo⟩ := Option.isSome_iff_exists.mp hon
  have hchanged : Sound (c.update guid (if mod then PlayerInfo.setModerator set
      else PlayerInfo.setMuted set)) listed := by
    cases mod with
    | true =>
      rw [if_pos rfl]
      refine ⟨h.ordered.update hinfo rfl fun hflag => by simpa using hflag,
        h.owned.update hinfo fun howner hflag _ => ?_⟩
      rw [hkeep howner rfl]
      simpa using hflag
    | false =>
      rw [if_neg Bool.false_ne_true]
      exact ⟨h.ordered.update hinfo rfl fun hflag => by simpa using hflag,
        h.owned.update hinfo fun _ hflag hmoderator => by simp [hflag, hmoderator]⟩
  unfold setFlag
  by_cases hdiffers : (if mod then (c.info guid).isModerator != set
      else (c.info guid).isMuted != set) = true
  · rw [if_pos hdiffers]
    exact hchanged
  · rw [if_neg hdiffers]
    exact h

theorem setMode_sound (player : Player) (p2n : String) (found : Option Player) (mod set : Bool)
    (hfits : ∀ newp ∈ found, newp.guid = player.guid → player.guid = c.ownerGUID →
      mod = true → set = false → p2n = player.name) :
    Sound (c.setMode listed player p2n found mod set).channel
      (c.setMode listed player p2n found mod set).listed := by
  unfold setMode
  dsimp only
  split
  · exact h
  · split
    · exact h
    · by_cases hself : (player.guid == c.ownerGUID && p2n == player.name && mod) = true
      · rw [if_pos hself]
        exact h
      · rw [if_neg hself]
        cases hnewp : (c.onChannel found).filter fun newp => mayInteract player newp with
        | none => exact h
        | some newp =>
          obtain ⟨hnewp, -⟩ := Option.filter_eq_some_iff.mp hnewp
          obtain ⟨hfound, hon⟩ := mem_onChannel hnewp
          dsimp only
          by_cases hother : (c.ownerGUID == newp.guid && c.ownerGUID != player.guid) = true
          · rw [if_pos hother]
            exact h
          · rw [if_neg hother]
            refine setFlag_sound h hon fun howner hmod => ?_
            -- only the owner himself may change the owner's flags
            have hplayer : player.guid = c.ownerGUID := by
              by_contra hne
              exact hother (by simp [howner, Ne.symm hne])
            cases set with
            | true => rfl
            | false =>
              have hname := hfits newp hfound (howner.trans hplayer.symm) hplayer hmod rfl
              exact absurd (by simp [hplayer, hname, hmod]) hself

theorem setOwner_sound (player : Player) (newname : String) (found : Option Player) :
    Sound (c.setOwner listed player newname found).channel
      (c.setOwner listed player newname found).listed := by
  unfold setOwner
  dsimp only
  split
  · exact h
  · split
    · exact h
    · cases hnewp : (c.onChannel found).filter fun newp => mayInteract player newp with
      | none => exact h
      | some newp =>
        obtain ⟨hnewp, -⟩ := Option.filter_eq_some_iff.mp hnewp
        exact Sound.setModeratorOwner h.ordered (mem_onChannel hnewp).2 true

end

/-! ## 6. Who is no moderator -/

/-- Nothing but what is the player's own has changed. -/
structure KeepsOthers (c c' : Channel) (guid : ObjectGuid) : Prop where
  password : c'.password = c.password
  bannedStore : c'.bannedStore = c.bannedStore
  others : ∀ who, who ≠ guid → c'.member who = c.member who

theorem KeepsOthers.refl (c : Channel) (guid : ObjectGuid) : KeepsOthers c c guid :=
  ⟨rfl, rfl, fun _ _ => rfl⟩

theorem joinChannel_keepsOthers (restrictedLfg : Bool) (c : Channel) (listed : List ObjectGuid)
    (player : Player) (pass : String) :
    KeepsOthers c (c.joinChannel restrictedLfg listed player pass).channel player.guid := by
  have hjoined : KeepsOthers c ((c.withMember player.guid).ownJoined player.guid).1
      player.guid := by
    have hothers : ∀ who, who ≠ player.guid →
        (c.withMember player.guid).member who = c.member who := by
      intro who hwho
      rw [member_withMember, if_neg hwho]
    unfold ownJoined
    split
    · rename_i hcond
      have hzero : c.ownerGUID = 0 := by
        simp only [Bool.and_eq_true, beq_iff_eq] at hcond
        exact hcond.1.2
      have hcrowned := crowned_setOwnerGuid (c.withMember player.guid) player.guid_ne
        (1 < (c.withMember player.guid).getNumPlayers)
      refine ⟨hcrowned.password, hcrowned.bannedStore, fun who hwho => ?_⟩
      rw [member_update, if_neg hwho, hcrowned.others who hwho, hothers who hwho, if_neg ?_]
      exact fun hcond => hcond.2 hzero
    · exact ⟨rfl, rfl, hothers⟩
  unfold joinChannel
  dsimp only
  split
  · split
    · exact KeepsOthers.refl c player.guid
    · exact KeepsOthers.refl c player.guid
  · split
    · exact KeepsOthers.refl c player.guid
    · split
      · exact KeepsOthers.refl c player.guid
      · split
        · exact KeepsOthers.refl c player.guid
        · exact hjoined

theorem not_moderator (h : c.lacksModerator player = true) :
    (c.info player.guid).isModerator = false ∧ player.changeChannelNotModerator = false := by
  unfold lacksModerator at h
  simpa using h

/-- Who is no moderator has no owner's flag. -/
theorem not_owner (h : Sound c listed) (hon : c.isOn guid = true)
    (hmoderator : (c.info guid).isModerator = false) :
    guid ≠ c.ownerGUID ∧ (c.info guid).isOwner = false := by
  obtain ⟨owner, howner, -, hflag⟩ := h.owned guid hon
  have hne : guid ≠ c.ownerGUID := by
    rintro rfl
    rw [info_of_member howner, hflag] at hmoderator
    cases hmoderator
  refine ⟨hne, Bool.eq_false_iff.mpr fun hisOwner => hne ?_⟩
  obtain ⟨info, hinfo⟩ := Option.isSome_iff_exists.mp hon
  rw [info_of_member hinfo] at hisOwner
  exact h.ordered.owner_only guid info hinfo hisOwner

theorem leaveChannel_keepsOthers (h : Sound c listed) (hlacks : c.lacksModerator player = true)
    (list : List ObjectGuid) (send : Bool) :
    KeepsOthers c (c.leaveChannel list player send).channel player.guid := by
  by_cases hon : c.isOn player.guid = true
  · have hflag := (not_owner h hon (not_moderator hlacks).1).2
    have hnone : ((c.withoutMember player.guid c.bannedStore).ownFirst false).1 =
        c.withoutMember player.guid c.bannedStore := by
      unfold ownFirst
      split
      · rfl
      · rw [if_neg (by simp)]
    unfold leaveChannel
    dsimp only
    rw [hon, hflag]
    change KeepsOthers c ((c.withoutMember player.guid c.bannedStore).ownFirst false).1 player.guid
    rw [hnone]
    refine ⟨rfl, rfl, fun who hwho => ?_⟩
    rw [member_withoutMember, if_neg hwho]
  · rw [(leaveChannel_of_not_on (Bool.eq_false_iff.mpr hon) list send).1]
    exact KeepsOthers.refl c player.guid

section

variable (hlacks : c.lacksModerator player = true)
include hlacks

theorem kickOrBan_keepsOthers (listed : List ObjectGuid) (badname : String) (found : Option Player)
    (ban : Bool) : (c.kickOrBan listed player badname found ban).channel = c := by
  unfold kickOrBan
  dsimp only
  rw [hlacks]
  split
  · rfl
  · rfl

theorem unBan_keepsOthers (listed : List ObjectGuid) (badname : String) (found : Option Player) :
    (c.unBan listed player badname found).channel = c := by
  unfold unBan
  dsimp only
  rw [hlacks]
  split
  · rfl
  · rfl

theorem setPassword_keepsOthers (listed : List ObjectGuid) (pass : String) :
    (c.setPassword listed player pass).channel = c := by
  unfold setPassword
  dsimp only
  rw [hlacks]
  split
  · rfl
  · rfl

theorem setMode_keepsOthers (listed : List ObjectGuid) (p2n : String) (found : Option Player)
    (mod set : Bool) : (c.setMode listed player p2n found mod set).channel = c := by
  unfold setMode
  dsimp only
  rw [hlacks]
  split
  · rfl
  · rfl

theorem toggleAnnounce_keepsOthers (listed : List ObjectGuid) :
    (c.toggleAnnounce listed player).channel = c := by
  unfold toggleAnnounce
  dsimp only
  rw [hlacks]
  split
  · rfl
  · rfl

end

theorem setOwner_keepsOthers {list : List ObjectGuid} (h : Sound c list)
    (hlacks : c.lacksModerator player = true) (listed : List ObjectGuid) (newname : String)
    (found : Option Player) : (c.setOwner listed player newname found).channel = c := by
  obtain ⟨hmoderator, hpermission⟩ := not_moderator hlacks
  unfold setOwner
  dsimp only
  by_cases hon : c.isOn player.guid = true
  · have hne := (not_owner h hon hmoderator).1
    rw [hon, hpermission, if_neg (by simp), if_pos (by simp [hne])]
    rfl
  · rw [if_pos (by simp [hon])]
    rfl

end Channel

/-! ## 7. Runs -/

/-- The channel is sound, and who has it on his list is a member of one. -/
structure World.Sound (w : World) : Prop where
  gone : w.channel = none → w.listed = []
  sound : ∀ c ∈ w.channel, Chat.Sound c w.listed

/-- A channel is created with ownership; nobody joins an empty one whose owner's guid is still
set; an owner does not kick or ban himself while others are there; and what takes the
moderator's flag from an owner by his own command names him by his name. -/
def Fits (w : World) : Operation → Prop
  | .join player pass stored =>
    (w.channel = none → stored.ownership = true) ∧
      ∀ c ∈ w.channel, c.playersStore.entries = [] → c.Admits player pass → c.ownerGUID = 0
  | .kickOrBan player _ found _ =>
    ∀ c ∈ w.channel, ∀ bad ∈ found, bad.guid = player.guid → bad.guid = c.ownerGUID →
      ∀ who, c.isOn who = true → who = player.guid
  | .setMode player p2n found mod set =>
    ∀ c ∈ w.channel, ∀ newp ∈ found, newp.guid = player.guid → player.guid = c.ownerGUID →
      mod = true → set = false → p2n = player.name
  | _ => True

/-- Who is no moderator and lacks the permission changes no one else's flags, no password and no
ban. -/
def HarmlessWithout (w w' : World) (player : Player) : Prop :=
  ∀ c ∈ w.channel, c.lacksModerator player = true → ∀ c' ∈ w'.channel,
    Channel.KeepsOthers c c' player.guid

theorem World.new_sound : World.new.Sound := ⟨fun _ => rfl, fun _ h => nomatch h⟩

theorem Channel.new_sound {stored : Stored} (h : stored.ownership = true) :
    Chat.Sound (Channel.new stored) [] := by
  refine ⟨⟨rfl, h, List.nodup_nil, fun guid => ?_, nofun, rfl, fun _ _ => rfl, nofun⟩, nofun⟩
  exact iff_of_false Bool.false_ne_true List.not_mem_nil

variable {w : World}

/-- A command that leaves a sound channel. -/
theorem World.Sound.command (h : w.Sound) (f : Channel → List ObjectGuid → Reply)
    (hf : ∀ c ∈ w.channel, Chat.Sound c w.listed →
      Chat.Sound (f c w.listed).channel (f c w.listed).listed) : (w.command f).Sound := by
  unfold World.command
  cases hchannel : w.channel with
  | none => exact h
  | some c =>
    have hsound := hf c hchannel (h.sound c hchannel)
    refine ⟨nofun, ?_⟩
    rintro c' ⟨⟩
    exact hsound

theorem World.Sound.leftChannel (h : w.Sound) : w.leftChannel.Sound := by
  unfold World.leftChannel
  cases hchannel : w.channel with
  | none => exact h
  | some c =>
    dsimp only
    split
    · rename_i hempty
      have hsound := h.sound c hchannel
      refine ⟨fun _ => List.eq_nil_iff_forall_not_mem.mpr fun who hwho => ?_, nofun⟩
      have hnone := Channel.entries_eq_nil_iff.mp (List.length_eq_zero_iff.mp hempty.1) who
      have hsome := (hsound.ordered.mem_listed who).mpr hwho
      rw [hnone] at hsome
      exact Bool.false_ne_true hsome
    · exact h

/-- A player logs out: the loop meets the channel once if he has it on his list. -/
theorem World.Sound.cleanupTurn (h : w.Sound) {player : Player} (hlisted : player.guid ∈ w.listed) :
    (w.cleanupTurn player).Sound := by
  refine World.Sound.leftChannel ?_
  cases hchannel : w.channel with
  | none =>
    rw [h.gone hchannel] at hlisted
    exact absurd hlisted List.not_mem_nil
  | some c =>
    have hsound := h.sound c hchannel
    have hon : c.isOn player.guid = true := (hsound.ordered.mem_listed _).mpr hlisted
    have hleft := Channel.leaveChannel_sound hsound player hon (w.listed.erase player.guid) false
    have hlist : (c.leaveChannel (w.listed.erase player.guid) player false).listed =
        w.listed.filter (· ≠ player.guid) := by
      unfold Channel.leaveChannel
      dsimp only
      rw [hon]
      rw [hsound.ordered.nodup.erase_eq_filter]
      exact List.filter_congr fun who _ => Bool.eq_iff_iff.mpr (by simp)
    refine ⟨nofun, ?_⟩
    rintro c' ⟨⟩
    change Chat.Sound (c.leaveChannel (w.listed.erase player.guid) player false).channel
      (c.leaveChannel (w.listed.erase player.guid) player false).listed
    rw [hlist]
    exact hleft

theorem World.Sound.count_le_one (h : w.Sound) (guid : ObjectGuid) : w.listed.count guid ≤ 1 := by
  cases hchannel : w.channel with
  | none =>
    rw [h.gone hchannel]
    exact Nat.zero_le 1
  | some c => exact List.nodup_iff_count_le_one.mp (h.sound c hchannel).ordered.nodup guid

theorem World.leaveChannel_listed (h : Chat.Sound c listed) (player : Player) :
    Chat.Sound (c.leaveChannel listed player true).channel
      (c.leaveChannel listed player true).listed := by
  by_cases hon : c.isOn player.guid = true
  · have hlist : (c.leaveChannel listed player true).listed =
        listed.filter (· ≠ player.guid) := by
      unfold Channel.leaveChannel
      dsimp only
      rw [hon]
      rfl
    rw [hlist]
    exact Channel.leaveChannel_sound h player hon listed true
  · obtain ⟨hchannel, hlist⟩ :=
      Channel.leaveChannel_of_not_on (Bool.eq_false_iff.mpr hon) listed true
    rw [hchannel, hlist]
    exact h

theorem step_sound (restrictedLfg : Bool) (h : w.Sound) {op : Operation} (hop : Fits w op) :
    (step restrictedLfg w op).Sound := by
  cases op with
  | join player pass stored =>
    obtain ⟨hstored, hempty⟩ := hop
    have hchannel : World.Sound { w with channel := some (w.channel.getD (Channel.new stored)) } := by
      refine ⟨nofun, ?_⟩
      rintro c ⟨⟩
      cases hchannel : w.channel with
      | none =>
        rw [h.gone hchannel]
        exact Channel.new_sound (hstored hchannel)
      | some c => exact h.sound c hchannel
    refine hchannel.command (fun c listed => c.joinChannel restrictedLfg listed player pass) ?_
    rintro c ⟨⟩ hc
    refine Channel.joinChannel_sound restrictedLfg hc player pass fun hentries hadmits => ?_
    cases hw : w.channel with
    | none => rfl
    | some c =>
      rw [hw] at hentries hadmits
      exact hempty c hw hentries hadmits
  | leave player =>
    have hleave := h.command (fun c listed => c.leaveChannel listed player true)
      fun c _ hc => World.leaveChannel_listed hc player
    exact hleave.leftChannel
  | logout player =>
    change ((World.cleanupTurn player)^[w.listed.count player.guid] w).Sound
    rcases Nat.le_one_iff_eq_zero_or_eq_one.mp (h.count_le_one player.guid) with hcount | hcount
    · rw [hcount]
      exact h
    · rw [hcount]
      exact h.cleanupTurn (List.count_pos_iff.mp (by omega))
  | kickOrBan player badname found ban =>
    exact h.command (fun c listed => c.kickOrBan listed player badname found ban)
      fun c hc hsound => Channel.kickOrBan_sound hsound player badname found ban (hop c hc)
  | unBan player badname found =>
    exact h.command (fun c listed => c.unBan listed player badname found)
      fun c _ hsound => Channel.unBan_sound hsound player badname found
  | password player pass =>
    exact h.command (fun c listed => c.setPassword listed player pass)
      fun c _ hsound => Channel.setPassword_sound hsound player pass
  | setMode player p2n found mod set =>
    exact h.command (fun c listed => c.setMode listed player p2n found mod set)
      fun c hc hsound => Channel.setMode_sound hsound player p2n found mod set (hop c hc)
  | setOwner player newname found =>
    exact h.command (fun c listed => c.setOwner listed player newname found)
      fun c _ hsound => Channel.setOwner_sound hsound player newname found
  | announce player =>
    exact h.command (fun c listed => c.toggleAnnounce listed player)
      fun c _ hsound => Channel.toggleAnnounce_sound hsound player

theorem World.mem_leftChannel (h : c ∈ w.leftChannel.channel) : c ∈ w.channel := by
  unfold World.leftChannel at h
  cases hchannel : w.channel with
  | none =>
    rw [hchannel] at h
    exact hchannel ▸ h
  | some c' =>
    rw [hchannel] at h
    dsimp only at h
    split at h
    · cases h
    · exact hchannel ▸ h

/-- The channel after a command on it. -/
theorem World.mem_command {f : Channel → List ObjectGuid → Reply} {c' : Channel}
    (hc : c ∈ w.channel) (h : c' ∈ (w.command f).channel) : c' = (f c w.listed).channel := by
  unfold World.command at h
  rw [show w.channel = some c from hc] at h
  exact (Option.some.inj h).symm

theorem step_harmless (restrictedLfg : Bool) (h : w.Sound) (op : Operation) :
    HarmlessWithout w (step restrictedLfg w op) op.player := by
  intro c hc hlacks c' hc'
  have hsound := h.sound c hc
  have hsame : ∀ {f : Channel → List ObjectGuid → Reply}, c' ∈ (w.command f).channel →
      (f c w.listed).channel = c → Channel.KeepsOthers c c' op.player.guid := by
    intro f hf heq
    rw [World.mem_command hc hf, heq]
    exact Channel.KeepsOthers.refl c op.player.guid
  cases op with
  | join player pass stored =>
    have hjoin : c ∈ some (w.channel.getD (Channel.new stored)) := by
      rw [show w.channel = some c from hc]
      rfl
    rw [World.mem_command hjoin hc']
    exact Channel.joinChannel_keepsOthers restrictedLfg c w.listed player pass
  | leave player =>
    rw [World.mem_command hc (World.mem_leftChannel hc')]
    exact Channel.leaveChannel_keepsOthers hsound hlacks w.listed true
  | logout player =>
    change c' ∈ ((World.cleanupTurn player)^[w.listed.count player.guid] w).channel at hc'
    rcases Nat.le_one_iff_eq_zero_or_eq_one.mp (h.count_le_one player.guid) with hcount | hcount
    · rw [hcount] at hc'
      obtain rfl := Option.some.inj (hc.symm.trans hc')
      exact Channel.KeepsOthers.refl c player.guid
    · rw [hcount] at hc'
      have hturn := World.mem_leftChannel hc'
      have hc : c ∈ (World.mk w.channel (w.listed.erase player.guid)).channel := hc
      rw [World.mem_command hc hturn]
      exact Channel.leaveChannel_keepsOthers hsound hlacks (w.listed.erase player.guid) false
  | kickOrBan player badname found ban =>
    exact hsame hc' (Channel.kickOrBan_keepsOthers hlacks w.listed badname found ban)
  | unBan player badname found =>
    exact hsame hc' (Channel.unBan_keepsOthers hlacks w.listed badname found)
  | password player pass =>
    exact hsame hc' (Channel.setPassword_keepsOthers hlacks w.listed pass)
  | setMode player p2n found mod set =>
    exact hsame hc' (Channel.setMode_keepsOthers hlacks w.listed p2n found mod set)
  | setOwner player newname found =>
    exact hsame hc' (Channel.setOwner_keepsOthers hsound hlacks w.listed newname found)
  | announce player => exact hsame hc' (Channel.toggleAnnounce_keepsOthers hlacks w.listed)

/-- **A custom channel is sound** in every state of a run whose commands fit: its members are
those who have it on their lists, under their own guids, no one banned among them, and the owner
is a member, a moderator and the only one with the owner's flag.  Who is no moderator changes no
one else. -/
theorem channel_sound (restrictedLfg : Bool) (ops : List Operation)
    (hops : Along (step restrictedLfg) Fits World.new ops) :
    (exec (step restrictedLfg) World.new ops).Sound ∧
      Along (step restrictedLfg) (fun w op => HarmlessWithout w (step restrictedLfg w op) op.player)
        World.new ops := by
  have hstep : ∀ (w : World) op, w.Sound → Fits w op → (step restrictedLfg w op).Sound ∧
      HarmlessWithout w (step restrictedLfg w op) op.player :=
    fun w op h hop => ⟨step_sound restrictedLfg h hop, step_harmless restrictedLfg h op⟩
  exact ⟨exec_invariant (fun w op h hop => (hstep w op h hop).1) World.new_sound hops,
    Along.of_invariant hstep World.new_sound hops⟩

/-- Two players of one team, without permissions. -/
def playerOf (guid : ObjectGuid) (h : guid ≠ 0) (name : String) : Player :=
  ⟨guid, h, name, 469, false, false, false, true, false⟩

def playerOne : Player := playerOf 1 (by decide) "One"

def playerTwo : Player := playerOf 2 (by decide) "Two"

def storedDefault : Stored := ⟨true, true, "", []⟩

theorem channel_sound_two :
    (exec (step false) World.new [.join playerOne "" storedDefault,
      .join playerTwo "" storedDefault, .kickOrBan playerOne "Two" (some playerTwo) true]).Sound := by
  refine (channel_sound false [.join playerOne "" storedDefault,
    .join playerTwo "" storedDefault, .kickOrBan playerOne "Two" (some playerTwo) true]
    ⟨⟨fun _ => rfl, nofun⟩, ⟨nofun, ?_⟩, ?_, trivial⟩).1
  · rintro c ⟨⟩ hentries
    exact absurd hentries (by decide)
  · rintro c ⟨⟩ bad ⟨⟩ hself
    exact absurd hself (by decide)

/-- The owner kicks himself: he is a member again, under an empty guid, and not on his list. -/
theorem owner_kicks_himself :
    ¬ (exec (step false) World.new [.join playerOne "" storedDefault,
      .join playerTwo "" storedDefault, .kickOrBan playerOne "One" (some playerOne) false]).Sound := by
  intro h
  have hlisted := ((h.sound _ rfl).ordered.mem_listed 1).mp (by decide)
  exact absurd hlisted (by decide)

end HungerGames.Chat
