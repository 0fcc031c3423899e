/-
# What the world server does with a packet (`WorldSocket::ReadDataHandler`)

Three opcodes are handled on the network thread, as soon as the packet is complete; every other
one is put into the queue of the session, or closes the connection when there is none.  Nothing
on this path catches an exception, so what a handler has done before a read throws stays done.

`Peer` is what a handler can see of its socket: everything but the buffers the packet came
through.
-/
import HungerGames.Auth.Handlers
import HungerGames.World.AuthCrypt
import HungerGames.World.ByteBuffer

namespace HungerGames.World

open HungerGames.Lua (Bytes bytes)
open HungerGames.Auth (littleEndian hashed)
open HungerGames.Auth.BigNumber
open HungerGames.Crypto (sha1)

/-! ## 1. The connection, and what is asked about it -/

/-- `AddonInfo` -/
structure AddonInfo where
  name : Bytes
  enabled : ℕ
  crc : ℕ
  state : ℕ
  usePublicKeyOrCRC : Bool
deriving DecidableEq

/-- What a `WorldSession` is made with, and what the network thread changes of it. -/
structure WorldSession where
  accountId : ℕ
  security : ℕ
  expansion : ℕ
  mutetime : ℤ
  locale : ℕ
  recruiter : ℕ
  isARecruiter : Bool
  latency : ℕ
  addonsList : List AddonInfo
  recvQueue : List (ℕ × Bytes)
deriving DecidableEq

/-- The row of `LOGIN_SEL_ACCOUNT_INFO_BY_NAME`. -/
structure AccountInfo where
  id : ℕ
  sessionkey : Bytes
  lastIp : Bytes
  locked : ℕ
  expansion : ℕ
  mutetime : ℤ
  locale : ℕ
  recruiter : ℕ
  os : Bytes
deriving DecidableEq

/-- The answers to the questions of one handler. -/
structure Answers where
  remoteIp : Bytes
  accountInfo : Bytes → Option AccountInfo
  /-- `LOGIN_GET_GMLEVEL_BY_REALMID` -/
  gmLevel : ℕ → Option ℕ
  /-- `LOGIN_SEL_BANS` -/
  banned : ℕ → Bool
  /-- `LOGIN_SEL_ACCOUNT_RECRUITER` -/
  recruits : ℕ → Bool
  worldExpansion : ℕ
  wardenActive : Bool
  worldClosed : Bool
  realmID : ℕ
  playerSecurityLimit : ℕ
  maxOverspeedPings : ℕ
  /-- `HasPermission(RBAC_PERM_SKIP_CHECK_OVERSPEED_PING)` -/
  skipsOverspeedCheck : Bool
  /-- `steady_clock::now()`, in nanoseconds since its epoch -/
  steadyNow : ℕ
  /-- `time(NULL)` -/
  now : ℤ
  /-- `uncompress` into so many bytes: what it has written when it says `Z_OK` -/
  uncompress : ℕ → Bytes → Option Bytes

/-- The members of a `WorldSocket` a handler sees. -/
structure Peer (κ : Type) where
  authSeed : ℕ
  authCrypt : Option (AuthCrypt κ)
  lastPingTime : ℕ
  overSpeedPings : ℕ
  worldSession : Option WorldSession
  closed : Bool
  closing : Bool

/-- The constructor, with the seed it draws. -/
def Peer.init {κ : Type} (authSeed : ℕ) : Peer κ where
  authSeed := authSeed
  authCrypt := none
  lastPingTime := 0
  overSpeedPings := 0
  worldSession := none
  closed := false
  closing := false

inductive Statement where
  | updLastAttemptIp (address account : Bytes)
  | updMuteTimeLogin (mutetime : ℤ) (id : ℕ)
  | updLastIp (address account : Bytes)
deriving DecidableEq

/-- What a handler does outside its socket. -/
inductive Action where
  | send (opcode : ℕ) (payload : Bytes)
  | execute (stmt : Statement)
  | onFailedAccountLogin (id : ℕ)
  | onAccountLogin (id : ℕ)
  | onPacketReceive (opcode : ℕ) (payload : Bytes)
  | addSession (id : ℕ)
deriving DecidableEq

/-- What a handler leaves behind when it returns, or when it throws. -/
structure Handled (κ : Type) (α : Type) where
  peer : Peer κ
  actions : List Action
  result : Except ByteBufferPositionException α

section Handlers

variable {κ : Type}

/-- `IsOpen()` -/
def Peer.isOpen (p : Peer κ) : Bool := !p.closed && !p.closing

/-- `SendPacket` -/
def Peer.send (p : Peer κ) (opcode : ℕ) (payload : Bytes) : List Action :=
  if p.isOpen then [.send opcode payload] else []

/-! ## 2. `CMSG_PING` -/

def readPing : Reader (ℕ × ℕ) := do
  let ping ← readNat 4
  let latency ← readNat 4
  return (ping, latency)

/-- The time of the ping is noted; the second value is whether it was one too many. -/
def Peer.countPing (w : Answers) (p : Peer κ) : Peer κ × Bool :=
  if p.lastPingTime = 0 then ({ p with lastPingTime := w.steadyNow }, false)
  else if w.steadyNow - p.lastPingTime < 27 * 10 ^ 9 then
    let count := (p.overSpeedPings + 1) % 2 ^ 32
    ({ p with lastPingTime := w.steadyNow, overSpeedPings := count },
      w.maxOverspeedPings != 0 && w.maxOverspeedPings < count && p.worldSession.isSome &&
        !w.skipsOverspeedCheck)
  else ({ p with lastPingTime := w.steadyNow, overSpeedPings := 0 }, false)

/-- `HandlePing` -/
def handlePing (w : Answers) (p : Peer κ) (recvPacket : ByteBuffer) : Handled κ Unit :=
  match readPing recvPacket with
  | .error e => ⟨p, [], .error e⟩
  | .ok ((ping, latency), _) =>
    let (p, kicked) := p.countPing w
    if kicked then ⟨{ p with closed := true }, [], .ok ()⟩
    else match p.worldSession with
      | none => ⟨{ p with closed := true }, [], .ok ()⟩
      | some session =>
        -- SMSG_PONG
        ⟨{ p with worldSession := some { session with latency := latency } },
          p.send 0x1DD (littleEndian 4 ping), .ok ()⟩

/-! ## 3. `CMSG_AUTH_SESSION` -/

/-- The fields of the packet the handler uses. -/
structure AuthSession where
  account : Bytes
  clientSeed : ℕ
  realmIndex : ℕ
  digest : Bytes
deriving DecidableEq

def readAuthSession : Reader AuthSession := do
  let _clientBuild ← readNat 4
  let _serverId ← readNat 4
  let account ← readString
  let _loginServerType ← readNat 4
  let clientSeed ← readNat 4
  let _region ← readNat 4
  let _battlegroup ← readNat 4
  let realmIndex ← readNat 4
  let _unk4 ← readNat 8
  let digest ← read 20
  return ⟨account, clientSeed, realmIndex, digest⟩

/-- One add-on of the list. -/
def readAddon : Reader AddonInfo := do
  let name ← readString
  let enabled ← readNat 1
  let crc ← readNat 4
  let _unk1 ← readNat 4
  return ⟨name, enabled, crc, 2, true⟩

/-- The loop over the add-ons, and the time behind them.  The add-ons read before a read throws
are on the session's list already. -/
def readAddons : ℕ → ByteBuffer → List AddonInfo × Except ByteBufferPositionException Unit
  | 0, b => ([], (readNat 4 b).map fun _ => ())
  | n + 1, b =>
    if b.storage.length < b.rpos + 1 then ([], .ok ())
    else match readAddon b with
      | .error e => ([], .error e)
      | .ok (addon, b') =>
        let (addons, result) := readAddons n b'
        (addon :: addons, result)

/-- The buffer `uncompress` fills: what it does not reach stays `0`. -/
def inflated (size : ℕ) (written : Bytes) : Bytes := (written ++ List.replicate size 0).take size

/-- `ReadAddonsInfo` -/
def readAddonsInfo (w : Answers) (data : ByteBuffer) :
    List AddonInfo × Except ByteBufferPositionException Unit :=
  if data.storage.length < data.rpos + 4 then ([], .ok ())
  else match readNat 4 data with
    | .error e => ([], .error e)
    | .ok (size, data) =>
      if size = 0 ∨ 0xFFFFF < size then ([], .ok ())
      else match w.uncompress size data.rest with
        | none => ([], .ok ())
        | some written =>
          match readNat 4 (.ofBytes (inflated size written)) with
          | .error e => ([], .error e)
          | .ok (addonsCount, addonInfo) => readAddons addonsCount addonInfo

/-- `SendAuthResponseError` and `DelayedCloseSocket`. -/
def Peer.refuse (p : Peer κ) (code : UInt8) : Peer κ × List Action :=
  -- SMSG_AUTH_RESPONSE
  ({ p with closing := true }, p.send 0x1EE [code])

/-- The digest a client that knows the session key sends. -/
def expectedDigest (p : Peer κ) (auth : AuthSession) (k : ℕ) : Bytes :=
  sha1 (auth.account ++ littleEndian 4 0 ++ littleEndian 4 auth.clientSeed ++
    littleEndian 4 p.authSeed ++ hashed k)

/-- The checks before the account is looked at more closely: the response, and whether the
scripts hear of the failure. -/
def earlyRefusal (w : Answers) (p : Peer κ) (auth : AuthSession) (info : AccountInfo) :
    Option (UInt8 × Bool) :=
  if w.worldClosed then some (14, false)
  else if auth.realmIndex ≠ w.realmID then some (39, false)
  else if w.wardenActive ∧ info.os ≠ bytes "Win" ∧ info.os ≠ bytes "OSX" then some (14, false)
  else if expectedDigest p auth (setHexStr 0 info.sessionkey) ≠ auth.digest then some (13, false)
  else if info.locked = 1 ∧ info.lastIp ≠ w.remoteIp then some (13, true)
  else none

/-- The checks of the ban and of the security level. -/
def lateRefusal (w : Answers) (info : AccountInfo) : Option UInt8 :=
  if w.banned info.id then some 28
  else if 0 < w.playerSecurityLimit ∧ (w.gmLevel info.id).getD 0 < w.playerSecurityLimit then some 16
  else none

/-- `mutetime` once it has begun to run. -/
def startedMute (w : Answers) (info : AccountInfo) : ℤ :=
  if info.mutetime < 0 then w.now + -info.mutetime else info.mutetime

def muteActions (w : Answers) (info : AccountInfo) : List Action :=
  if info.mutetime < 0 then [.execute (.updMuteTimeLogin (startedMute w info) info.id)] else []

/-- The session of an account that may log in. -/
def newSession (w : Answers) (info : AccountInfo) (addonsList : List AddonInfo) : WorldSession where
  accountId := info.id
  security := (w.gmLevel info.id).getD 0
  expansion := min info.expansion w.worldExpansion
  mutetime := startedMute w info
  locale := if 9 ≤ info.locale then 0 else info.locale
  recruiter := info.recruiter
  isARecruiter := w.recruits info.id
  latency := 0
  addonsList := addonsList
  recvQueue := []

/-- `HandleAuthSession` -/
def handleAuthSession (cipher : Cipher κ) (w : Answers) (p : Peer κ) (recvPacket : ByteBuffer) :
    Handled κ Unit :=
  match readAuthSession recvPacket with
  | .error e => ⟨p, [], .error e⟩
  | .ok (auth, behind) =>
    match w.accountInfo auth.account with
    | none => ⟨(p.refuse 21).1, (p.refuse 21).2, .ok ()⟩
    | some info =>
      let attempt : Action := .execute (.updLastAttemptIp w.remoteIp auth.account)
      let p := { p with authCrypt := some (cipher.init (setHexStr 0 info.sessionkey)) }
      match earlyRefusal w p auth info with
      | some (code, hook) =>
        ⟨(p.refuse code).1, attempt :: (p.refuse code).2 ++
          (if hook then [.onFailedAccountLogin info.id] else []), .ok ()⟩
      | none =>
        match lateRefusal w info with
        | some code =>
          ⟨(p.refuse code).1, attempt :: muteActions w info ++ (p.refuse code).2 ++
            [.onFailedAccountLogin info.id], .ok ()⟩
        | none =>
          let (addons, result) := readAddonsInfo w behind
          let p := { p with worldSession := some (newSession w info addons) }
          let actions := attempt :: muteActions w info ++
            [.execute (.updLastIp w.remoteIp auth.account), .onAccountLogin info.id]
          match result with
          | .error e => ⟨p, actions, .error e⟩
          | .ok () => ⟨p, actions ++ [.addSession info.id], .ok ()⟩

/-! ## 4. The dispatch -/

/-- `ReadDataHandler` for an opcode and its payload. -/
def readDataHandler (cipher : Cipher κ) (w : Answers) (p : Peer κ) (opcode : ℕ) (payload : Bytes) :
    Handled κ Bool :=
  -- CMSG_PING
  if opcode = 0x1DC then
    let h := handlePing w p (.ofBytes payload)
    ⟨h.peer, h.actions, h.result.map fun _ => true⟩
  -- CMSG_AUTH_SESSION
  else if opcode = 0x1ED then
    if p.worldSession.isSome then ⟨p, [], .ok true⟩
    else
      let h := handleAuthSession cipher w p (.ofBytes payload)
      ⟨h.peer, h.actions, h.result.map fun _ => true⟩
  -- CMSG_KEEP_ALIVE
  else if opcode = 0x407 then ⟨p, [.onPacketReceive opcode payload], .ok true⟩
  else match p.worldSession with
    | none => ⟨{ p with closed := true }, [], .ok false⟩
    | some session =>
      let session := { session with recvQueue := session.recvQueue ++ [(opcode, payload)] }
      ⟨{ p with worldSession := some session }, [], .ok true⟩

end Handlers

end HungerGames.World
