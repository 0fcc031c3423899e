/-
# Chat channels

A channel keeps its members with their flags, the players banned from it, a password and the
guid of its owner.  Players keep the channels they are on in lists of their own; here the list
of a channel is that of the players who have it on theirs.

The commands follow the source: the owner's guid, the owner's flag, the members and the lists
are changed by separate statements, and `playersStore[guid]` makes an entry where there is none.
What is sent is kept with the result.  `Stored` is what a custom channel is created with, from
the database or by default.
-/
import HungerGames.System.Run
import HungerGames.System.SortedMap
import Mathlib.Data.BitVec

namespace HungerGames.Chat

open HungerGames.System

/-! ## 1. Members and players -/

/-- The raw value; 0 is `ObjectGuid::Empty`. -/
abbrev ObjectGuid : Type := ℕ

abbrev MemberFlags : Type := BitVec 8

def MEMBER_FLAG_NONE : MemberFlags := 0x00#8
def MEMBER_FLAG_OWNER : MemberFlags := 0x01#8
def MEMBER_FLAG_MODERATOR : MemberFlags := 0x02#8
def MEMBER_FLAG_MUTED : MemberFlags := 0x08#8

structure PlayerInfo where
  player : ObjectGuid
  flags : MemberFlags
  deriving DecidableEq, Repr

namespace PlayerInfo

/-- What `operator[]` makes. -/
def empty : PlayerInfo := ⟨0, MEMBER_FLAG_NONE⟩

def hasFlag (info : PlayerInfo) (flag : MemberFlags) : Bool := info.flags &&& flag != 0#8

def putFlag (flag : MemberFlags) (state : Bool) (info : PlayerInfo) : PlayerInfo :=
  { info with flags := if state then info.flags ||| flag else info.flags &&& ~~~flag }

def isOwner (info : PlayerInfo) : Bool := info.hasFlag MEMBER_FLAG_OWNER
def setOwner (state : Bool) (info : PlayerInfo) : PlayerInfo := info.putFlag MEMBER_FLAG_OWNER state
def isModerator (info : PlayerInfo) : Bool := info.hasFlag MEMBER_FLAG_MODERATOR
def setModerator (state : Bool) (info : PlayerInfo) : PlayerInfo :=
  info.putFlag MEMBER_FLAG_MODERATOR state
def isMuted (info : PlayerInfo) : Bool := info.hasFlag MEMBER_FLAG_MUTED
def setMuted (state : Bool) (info : PlayerInfo) : PlayerInfo := info.putFlag MEMBER_FLAG_MUTED state

end PlayerInfo

/-- What a channel asks of a player. -/
structure Player where
  guid : ObjectGuid
  guid_ne : guid ≠ 0
  name : String
  team : ℕ
  silentlyJoinChannel : Bool
  changeChannelNotModerator : Bool
  twoSideInteractionChannel : Bool
  isPlayerAccount : Bool
  inGroup : Bool

/-- The notices of a channel, with what they carry. -/
inductive Notice
  | playerAlreadyMember (guid : ObjectGuid)
  | banned
  | wrongPassword
  | notInLfg
  | joined (guid : ObjectGuid)
  | youJoined
  | notMember
  | youLeft
  | left (guid : ObjectGuid)
  | notModerator
  | notOwner
  | playerNotFound (name : String)
  | playerBanned (bad good : ObjectGuid)
  | playerKicked (bad good : ObjectGuid)
  | playerUnbanned (bad good : ObjectGuid)
  | passwordChanged (guid : ObjectGuid)
  | modeChange (guid : ObjectGuid) (oldFlags flags : MemberFlags)
  | ownerChanged (guid : ObjectGuid)
  | announcementsOn (guid : ObjectGuid)
  | announcementsOff (guid : ObjectGuid)
  | userlistAdd (guid : ObjectGuid) (flags : MemberFlags) (count : ℕ)
  | userlistRemove (guid : ObjectGuid) (count : ℕ)
  deriving DecidableEq, Repr

inductive Sent
  | toOne (who : ObjectGuid) (notice : Notice)
  | toAll (notice : Notice)
  | toAllButOne (who : ObjectGuid) (notice : Notice)
  deriving DecidableEq, Repr

/-! ## 2. The channel -/

structure Channel where
  announce : Bool
  ownership : Bool
  /-- `HasFlag(CHANNEL_FLAG_LFG)`. -/
  lfg : Bool
  channelId : ℕ
  ownerGUID : ObjectGuid
  password : String
  playersStore : SortedMap ObjectGuid PlayerInfo
  bannedStore : List ObjectGuid

structure Stored where
  announce : Bool
  ownership : Bool
  password : String
  bannedStore : List ObjectGuid

/-- The channel a command leaves, who has it on his list, and what was sent. -/
structure Reply where
  channel : Channel
  listed : List ObjectGuid
  sent : List Sent

namespace Channel

/-- A custom channel as it is created. -/
def new (stored : Stored) : Channel where
  announce := stored.announce
  ownership := stored.ownership
  lfg := false
  channelId := 0
  ownerGUID := 0
  password := stored.password
  playersStore := SortedMap.empty
  bannedStore := stored.bannedStore

def isConstant (c : Channel) : Bool := c.channelId != 0

def isOn (c : Channel) (who : ObjectGuid) : Bool := (c.playersStore.lookup who).isSome

def isBanned (c : Channel) (guid : ObjectGuid) : Bool := guid ∈ c.bannedStore

def getNumPlayers (c : Channel) : ℕ := c.playersStore.size

def getPlayerFlags (c : Channel) (guid : ObjectGuid) : MemberFlags :=
  ((c.playersStore.lookup guid).map PlayerInfo.flags).getD 0#8

/-- `playersStore[guid]`, as it is read. -/
def info (c : Channel) (guid : ObjectGuid) : PlayerInfo :=
  (c.playersStore.lookup guid).getD PlayerInfo.empty

/-- `playersStore[guid]`, as it is changed. -/
def update (c : Channel) (guid : ObjectGuid) (f : PlayerInfo → PlayerInfo) : Channel :=
  { c with playersStore := c.playersStore.insert guid (f (c.info guid)) }

/-- The flag is taken from the owner the channel has, when he is a member. -/
def withoutOwnerFlag (c : Channel) : Channel :=
  match c.playersStore.lookup c.ownerGUID with
  | none => c
  | some info => { c with playersStore := c.playersStore.insert c.ownerGUID (info.setOwner false) }

/-- `SetOwner(ObjectGuid, bool)`. -/
def setOwnerGuid (c : Channel) (guid : ObjectGuid) (exclaim : Bool) : Channel × List Sent :=
  let c := if c.ownerGUID ≠ 0 then c.withoutOwnerFlag else c
  let c := { c with ownerGUID := guid }
  if guid ≠ 0 then
    let oldFlag := c.getPlayerFlags guid
    let c := (c.update guid (PlayerInfo.setModerator true)).update guid (PlayerInfo.setOwner true)
    (c, .toAll (.modeChange guid oldFlag (c.getPlayerFlags guid)) ::
      if exclaim then [.toAll (.ownerChanged guid)] else [])
  else (c, [])

/-- A command is answered to its sender and does nothing. -/
def refuse (c : Channel) (listed : List ObjectGuid) (who : ObjectGuid) (notice : Notice) : Reply :=
  ⟨c, listed, [.toOne who notice]⟩

def joinNotify (c : Channel) (guid : ObjectGuid) : Sent :=
  let notice := Notice.userlistAdd guid (c.getPlayerFlags guid) c.getNumPlayers
  if c.isConstant then .toAllButOne guid notice else .toAll notice

def leaveNotify (c : Channel) (guid : ObjectGuid) : Sent :=
  let notice := Notice.userlistRemove guid c.getNumPlayers
  if c.isConstant then .toAllButOne guid notice else .toAll notice

/-! ## 3. The commands -/

/-- A new member of a custom channel without an owner becomes its owner. -/
def ownJoined (c : Channel) (guid : ObjectGuid) : Channel × List Sent :=
  if !c.isConstant && c.ownerGUID == 0 && c.ownership then
    let (c, sent) := c.setOwnerGuid guid (1 < c.getNumPlayers)
    (c.update guid (PlayerInfo.setModerator true), sent)
  else (c, [])

/-- `restrictedLfg` is `CONFIG_RESTRICTED_LFG_CHANNEL`. -/
def joinChannel (restrictedLfg : Bool) (c : Channel) (listed : List ObjectGuid) (player : Player)
    (pass : String) : Reply :=
  let guid := player.guid
  if c.isOn guid then
    if c.isConstant then ⟨c, listed, []⟩ else c.refuse listed guid (.playerAlreadyMember guid)
  else if c.isBanned guid then c.refuse listed guid .banned
  else if c.password ≠ "" ∧ pass ≠ c.password then c.refuse listed guid .wrongPassword
  else if c.lfg && restrictedLfg && player.isPlayerAccount && player.inGroup then
    c.refuse listed guid .notInLfg
  else
    let listed := listed ++ [guid]
    let sentJoined :=
      if c.announce && !player.silentlyJoinChannel then [Sent.toAll (.joined guid)] else []
    let c := { c with
      playersStore := c.playersStore.insert guid ⟨guid, MEMBER_FLAG_NONE⟩ }
    let (owned, sentOwner) := c.ownJoined guid
    ⟨owned, listed, sentJoined ++ [.toOne guid .youJoined, c.joinNotify guid] ++ sentOwner⟩

/-- When the owner has left, the first member becomes the owner. -/
def ownFirst (c : Channel) (changeowner : Bool) : Channel × List Sent :=
  match c.playersStore.entries with
  | [] => (c, [])
  | first :: _ =>
    if !c.isConstant && changeowner && c.ownership then
      let newowner := first.2.player
      (c.update newowner (PlayerInfo.setModerator true)).setOwnerGuid newowner true
    else (c, [])

def leaveChannel (c : Channel) (listed : List ObjectGuid) (player : Player) (send : Bool) :
    Reply :=
  let guid := player.guid
  if !c.isOn guid then
    if send then c.refuse listed guid .notMember else ⟨c, listed, []⟩
  else
    let listed := if send then listed.filter (· ≠ guid) else listed
    let sentYou := if send then [Sent.toOne guid .youLeft] else []
    let changeowner := (c.info guid).isOwner
    let c := { c with playersStore := c.playersStore.erase guid }
    let sentLeft :=
      if c.announce && !player.silentlyJoinChannel then [Sent.toAll (.left guid)] else []
    let (owned, sentOwner) := c.ownFirst changeowner
    ⟨owned, listed, sentYou ++ sentLeft ++ [c.leaveNotify guid] ++ sentOwner⟩

/-- The sender may not command: he is no moderator, and without the permission. -/
def lacksModerator (c : Channel) (player : Player) : Bool :=
  !(c.info player.guid).isModerator && !player.changeChannelNotModerator

/-- The player a name has found, when he is on the channel. -/
def onChannel (c : Channel) (found : Option Player) : Option Player :=
  found.filter fun victim => c.isOn victim.guid

/-- The sender of a kick becomes the owner when the victim was. -/
def ownKicked (c : Channel) (changeowner : Bool) (newowner : ObjectGuid) : Channel × List Sent :=
  if changeowner && c.ownership && !c.playersStore.entries.isEmpty then
    (c.update newowner (PlayerInfo.setModerator true)).setOwnerGuid newowner true
  else (c, [])

/-- `found` is the player that `FindPlayerByName(badname)` finds. -/
def kickOrBan (c : Channel) (listed : List ObjectGuid) (player : Player) (badname : String)
    (found : Option Player) (ban : Bool) : Reply :=
  let good := player.guid
  if !c.isOn good then c.refuse listed good .notMember
  else if c.lacksModerator player then c.refuse listed good .notModerator
  else
    match c.onChannel found with
    | none => c.refuse listed good (.playerNotFound badname)
    | some bad =>
      let victim := bad.guid
      let changeowner := c.ownerGUID == victim
      if !player.changeChannelNotModerator && changeowner && good ≠ c.ownerGUID then
        c.refuse listed good .notOwner
      else
        let bans := ban && !c.isBanned victim
        let notice :=
          if bans then Notice.playerBanned victim good else Notice.playerKicked victim good
        let sentOut := if player.silentlyJoinChannel then [] else [Sent.toAll notice]
        let c := { c with
          bannedStore := if bans then victim :: c.bannedStore else c.bannedStore
          playersStore := c.playersStore.erase victim }
        let listed := listed.filter (· ≠ victim)
        let (owned, sentOwner) := c.ownKicked changeowner good
        ⟨owned, listed, sentOut ++ sentOwner⟩

def unBan (c : Channel) (listed : List ObjectGuid) (player : Player) (badname : String)
    (found : Option Player) : Reply :=
  let good := player.guid
  if !c.isOn good then c.refuse listed good .notMember
  else if c.lacksModerator player then c.refuse listed good .notModerator
  else
    match found.filter fun bad => c.isBanned bad.guid with
    | none => c.refuse listed good (.playerNotFound badname)
    | some bad =>
      ⟨{ c with bannedStore := c.bannedStore.filter (· ≠ bad.guid) }, listed,
        [.toAll (.playerUnbanned bad.guid good)]⟩

/-- `Password`. -/
def setPassword (c : Channel) (listed : List ObjectGuid) (player : Player) (pass : String) :
    Reply :=
  let guid := player.guid
  if !c.isOn guid then c.refuse listed guid .notMember
  else if c.lacksModerator player then c.refuse listed guid .notModerator
  else ⟨{ c with password := pass }, listed, [.toAll (.passwordChanged guid)]⟩

/-- `SetModerator` and `SetMute` of a member: the flag is changed when it differs. -/
def setFlag (c : Channel) (listed : List ObjectGuid) (guid : ObjectGuid) (mod set : Bool) :
    Reply :=
  let differs :=
    if mod then (c.info guid).isModerator != set else (c.info guid).isMuted != set
  if differs then
    let oldFlag := c.getPlayerFlags guid
    let c := c.update guid (if mod then PlayerInfo.setModerator set else PlayerInfo.setMuted set)
    ⟨c, listed, [.toAll (.modeChange guid oldFlag (c.getPlayerFlags guid))]⟩
  else ⟨c, listed, []⟩

/-- The two may act on each other: of one team, or both with the permission. -/
def mayInteract (player newp : Player) : Bool :=
  player.team == newp.team ||
    player.twoSideInteractionChannel && newp.twoSideInteractionChannel

def setMode (c : Channel) (listed : List ObjectGuid) (player : Player) (p2n : String)
    (found : Option Player) (mod set : Bool) : Reply :=
  let guid := player.guid
  if !c.isOn guid then c.refuse listed guid .notMember
  else if c.lacksModerator player then c.refuse listed guid .notModerator
  else if guid == c.ownerGUID && p2n == player.name && mod then ⟨c, listed, []⟩
  else
    match (c.onChannel found).filter fun newp => mayInteract player newp with
    | none => c.refuse listed guid (.playerNotFound p2n)
    | some newp =>
      if c.ownerGUID == newp.guid && c.ownerGUID != guid then c.refuse listed guid .notOwner
      else c.setFlag listed newp.guid mod set

/-- `SetOwner(Player, string)`. -/
def setOwner (c : Channel) (listed : List ObjectGuid) (player : Player) (newname : String)
    (found : Option Player) : Reply :=
  let guid := player.guid
  if !c.isOn guid then c.refuse listed guid .notMember
  else if !player.changeChannelNotModerator && guid != c.ownerGUID then
    c.refuse listed guid .notOwner
  else
    match (c.onChannel found).filter fun newp => mayInteract player newp with
    | none => c.refuse listed guid (.playerNotFound newname)
    | some newp =>
      let (owned, sent) :=
        (c.update newp.guid (PlayerInfo.setModerator true)).setOwnerGuid newp.guid true
      ⟨owned, listed, sent⟩

/-- `Announce`. -/
def toggleAnnounce (c : Channel) (listed : List ObjectGuid) (player : Player) : Reply :=
  let guid := player.guid
  if !c.isOn guid then c.refuse listed guid .notMember
  else if c.lacksModerator player then c.refuse listed guid .notModerator
  else
    let announce := !c.announce
    ⟨{ c with announce := announce }, listed,
      [.toAll (if announce then .announcementsOn guid else .announcementsOff guid)]⟩

end Channel

/-! ## 4. The channel in its manager -/

/-- The channel, while the manager has one under the name, and the players who have it on
their lists. -/
structure World where
  channel : Option Channel
  listed : List ObjectGuid

inductive Operation
  | join (player : Player) (pass : String) (stored : Stored)
  | leave (player : Player)
  | logout (player : Player)
  | kickOrBan (player : Player) (badname : String) (found : Option Player) (ban : Bool)
  | unBan (player : Player) (badname : String) (found : Option Player)
  | password (player : Player) (pass : String)
  | setMode (player : Player) (p2n : String) (found : Option Player) (mod set : Bool)
  | setOwner (player : Player) (newname : String) (found : Option Player)
  | announce (player : Player)

/-- Who acts. -/
def Operation.player : Operation → Player
  | .join player _ _ => player
  | .leave player => player
  | .logout player => player
  | .kickOrBan player _ _ _ => player
  | .unBan player _ _ => player
  | .password player _ => player
  | .setMode player _ _ _ _ => player
  | .setOwner player _ _ => player
  | .announce player => player

namespace World

/-- `ChannelMgr::LeftChannel`: an empty custom channel is deleted. -/
def leftChannel (w : World) : World :=
  match w.channel with
  | none => w
  | some c => if c.getNumPlayers = 0 ∧ ¬ c.isConstant then { w with channel := none } else w

/-- A command on the channel, when there is one. -/
def command (w : World) (f : Channel → List ObjectGuid → Reply) : World :=
  match w.channel with
  | none => w
  | some c => ⟨some (f c w.listed).channel, (f c w.listed).listed⟩

/-- One turn of the loop in `CleanupChannels` that meets the channel. -/
def cleanupTurn (player : Player) (w : World) : World :=
  ({ w with listed := w.listed.erase player.guid }.command
    fun c listed => c.leaveChannel listed player false).leftChannel

end World

def step (restrictedLfg : Bool) (w : World) : Operation → World
  | .join player pass stored =>
    { w with channel := some (w.channel.getD (Channel.new stored)) }.command
      fun c listed => c.joinChannel restrictedLfg listed player pass
  | .leave player => (w.command fun c listed => c.leaveChannel listed player true).leftChannel
  | .logout player => (World.cleanupTurn player)^[w.listed.count player.guid] w
  | .kickOrBan player badname found ban =>
    w.command fun c listed => c.kickOrBan listed player badname found ban
  | .unBan player badname found => w.command fun c listed => c.unBan listed player badname found
  | .password player pass => w.command fun c listed => c.setPassword listed player pass
  | .setMode player p2n found mod set =>
    w.command fun c listed => c.setMode listed player p2n found mod set
  | .setOwner player newname found =>
    w.command fun c listed => c.setOwner listed player newname found
  | .announce player => w.command fun c listed => c.toggleAnnounce listed player

/-- No channel yet. -/
def World.new : World := ⟨none, []⟩

end HungerGames.Chat
