/-
# The handlers (`AuthSession.cpp`)

One function for each command a client can send.  A handler is given the read position of the
buffer, where a complete packet starts, and works through it from there.

The member variables are assigned one by one, wherever a handler comes to one: the challenge
sets the name before it looks at anything else, and the numbers only once it knows that the
account may log on.
-/
import HungerGames.Auth.Session
import HungerGames.Crypto.Sha1

namespace HungerGames.Auth

open HungerGames.Lua (Bytes bytes)
open HungerGames.Crypto (sha1)
open BigNumber

/-! ## 1. The logon challenge -/

/-- What a challenge comes to. -/
inductive Verdict where
  | refused (result : AuthResult)
  | granted (account : Account)
  /-- the account is created, its name is free -/
  | registered (username password : Bytes)
deriving DecidableEq

/-- The reasons for which an account is locked, in the order they are looked for. -/
def lockedFor (w : Backend) (account : Account) : Option AuthResult :=
  if account.locked = 1 then
    if account.lastIp = w.remoteIp then none else some .failLockedEnforced
  else if account.lockCountry = [] ∨ account.lockCountry = bytes "00" then none
  else match w.country with
    | none => none
    | some loginCountry =>
      if loginCountry = account.lockCountry then none else some .failUnlockableLock

/-- The ban of an account: for good when it begins and ends on the same date. -/
def bannedFor (w : Backend) (account : Account) : Option AuthResult :=
  match w.accountBanned account.id with
  | none => none
  | some (bandate, unbandate) =>
    some (if bandate = unbandate then .failBanned else .failSuspended)

/-- A login `?username?password?` asks for an account. -/
def registration (w : Backend) (login : Bytes) : Verdict :=
  match (login.drop 1).findIdx? (· == 63) with
  | none => .refused .failNoGameAccount
  | some i =>
    let passStart := i + 2
    let passEnd := login.length - 1 - login.reverse.findIdx (· == 63)
    if passStart < 4 ∨ passEnd ≤ passStart then .refused .failNoGameAccount
    else
      let username := toUpper ((login.drop 1).take (passStart - 2))
      let password := toUpper ((login.drop passStart).take (passEnd - passStart))
      if (w.accountId username).isSome then .refused .failInternetGameRoomWithoutBnet
      else .registered username password

/-- The decisions of `HandleLogonChallenge` for a name. -/
def verdict (w : Backend) (login : Bytes) : Verdict :=
  if w.ipBanned then .refused .failBanned
  else match w.account login with
    | some account =>
      match (lockedFor w account).orElse fun _ => bannedFor w account with
      | some result => .refused result
      | none => .granted account
    | none =>
      if login.head? = some 63 then registration w login else .refused .failUnknownAccount

/-- Statements that drop bans that have run out. -/
def expiredBans (w : Backend) (login : Bytes) : List Action :=
  .execute .delExpiredIpBans ::
    if w.ipBanned then []
    else match w.account login with
      | some account => if (lockedFor w account).isNone then [.execute .updExpiredAccountBans] else []
      | none => []

/-- The fields of the `AUTH_LOGON_CHALLENGE_C` packet the handlers read. -/
structure Challenge where
  login : Bytes
  build : ℕ
  /-- the C string at `os`; of a longer one, its first five bytes -/
  os : Bytes
  country : Bytes
deriving DecidableEq

def readChallenge (m : MessageBuffer) : Challenge where
  login := m.bytesAt 34 (m.byteAt 33).toNat
  build := m.uint16At 11
  os := (m.bytesAt 17 5).takeWhile (· != 0)
  country := m.bytesAt 21 4

/-- `SetVSFields(rI)`: the new salt and verifier. -/
def setVSFields (w : Backend) (rI : Bytes) : ℕ × ℕ :=
  let s := w.randS.val
  let mDigest := ((asByteArray (setHexStr 0 rI) 20).take 20).reverse
  let x := setBinary (sha1 ((asByteArray s 32).take 32 ++ mDigest))
  (s, modExp g x N)

/-- The salt and the verifier, and the statement that stores them when they are new. -/
def saltAndVerifier (w : Backend) (session : Session) (account : Account) : (ℕ × ℕ) × List Action :=
  if account.v.length ≠ 0x20 * 2 ∨ account.s.length ≠ 0x20 * 2 then
    let sv := setVSFields w account.shaPassHash
    (sv, [.execute (.updVs (asHexStr sv.2) (asHexStr sv.1) session.login)])
  else ((setHexStr session.s account.s, setHexStr session.v account.v), [])

/-- The public value `B` for a verifier and the secret `b`. -/
def publicValue (v b : ℕ) : ℕ := (v * 3 + modExp g b N) % N

/-- The session after a granted challenge. -/
def grantedSession (w : Backend) (session : Session) (country : Bytes) (account : Account) :
    Session :=
  let sv := (saltAndVerifier w session account).1
  { session with
    s := sv.1
    v := sv.2
    b := w.randB.val
    B := publicValue sv.2 w.randB.val
    tokenKey := account.tokenKey
    accountSecurityLevel := securityLevelOf account.gmlevel
    localizationName := country.reverse }

/-- The response to a granted challenge. -/
def grantedPacket (w : Backend) (session : Session) : Bytes :=
  let result := if isAcceptedClientBuild session.build then AuthResult.success else .failVersionInvalid
  let securityFlags : UInt8 := if session.tokenKey = [] then 0 else 4
  [0x00, 0x00, result.code] ++ (asByteArray session.B 32).take 32 ++ [1] ++ (asByteArray g 1).take 1 ++
    [32] ++ (asByteArray N 32).take 32 ++ (asByteArray session.s 32).take 32 ++
    (asByteArray w.randUnk3.val 16).take 16 ++ [securityFlags] ++
    if securityFlags = 4 then [1] else []

/-- The name, the build and the operating system, as both challenges assign them. -/
def challengedSession (session : Session) (c : Challenge) : Session :=
  { session with
    login := c.login
    build := c.build
    expversion := expversionOf c.build
    os := c.os.reverse }

/-- `HandleLogonChallenge` -/
def handleLogonChallenge (w : Backend) (session : Session) (m : MessageBuffer) : Handled :=
  let c := readChallenge m
  let session := challengedSession session c
  if 4 < c.os.length then .drop { session with os := c.os } []
  else match verdict w c.login with
    | .refused result =>
      .done session (expiredBans w c.login ++ [.send [0x00, 0x00, result.code]])
    | .granted account =>
      let session' := grantedSession w session c.country account
      .done session' (expiredBans w c.login ++ (saltAndVerifier w session account).2 ++
        [.send (grantedPacket w session')])
    | .registered username password =>
      .done session (expiredBans w c.login ++
        [.execute (.insAccount username
          (byteArrayToHexStr (sha1 (username ++ bytes ":" ++ password))) [] []),
         .execute .insRealmCharactersInit,
         .send [0x00, 0x00, AuthResult.failUseBattlenet.code]])

/-! ## 2. The logon proof -/

/-- The fields of the `AUTH_LOGON_PROOF_C` packet the handler reads. -/
structure Proof where
  A : ℕ
  M1 : Bytes
  securityFlags : UInt8
deriving DecidableEq

def readProof (m : MessageBuffer) : Proof where
  A := setBinary (m.bytesAt 1 32)
  M1 := m.bytesAt 33 20
  securityFlags := m.byteAt 74

/-- `sizeof(sAuthLogonProof_C)` -/
def sizeofLogonProof : ℕ := 75

/-- `UpdateBigNumbers` for one number. -/
def hashed (n : ℕ) : Bytes := asByteArray n 0

/-- `u` -/
def scrambler (A B : ℕ) : ℕ := setBinary (sha1 (hashed A ++ hashed B))

/-- `S` -/
def sharedSecret (A v u b : ℕ) : ℕ := modExp (A * modExp v u N) b N

/-- The bytes of `t` at the even places, and at the odd. -/
def everyOther (t : Bytes) : Bytes × Bytes :=
  ((List.range 16).map fun i => t.getD (i * 2) 0, (List.range 16).map fun i => t.getD (i * 2 + 1) 0)

/-- `K` -/
def interleavedKey (S : ℕ) : ℕ :=
  let t := everyOther ((asByteArray S 32).take 32)
  setBinary ((List.zip (sha1 t.1) (sha1 t.2)).flatMap fun p => [p.1, p.2])

/-- `M` -/
def proofM (login : Bytes) (s A B K : ℕ) : ℕ :=
  let t3 := setBinary (List.zipWith (· ^^^ ·) (sha1 (hashed N)) (sha1 (hashed g)))
  setBinary (sha1 (hashed t3 ++ sha1 login ++ hashed s ++ hashed A ++ hashed B ++ hashed K))

/-- The shared key a session computes for `A`. -/
def sessionKeyFor (session : Session) (A : ℕ) : ℕ :=
  interleavedKey (sharedSecret A session.v (scrambler A session.B) session.b)

/-- `M`, as a session computes it. -/
def expectedProof (session : Session) (A : ℕ) : ℕ :=
  proofM session.login session.s A session.B (sessionKeyFor session A)

/-- The token behind the packet: its length, and the characters. -/
def readToken (m : MessageBuffer) : Bytes :=
  m.bytesAt (sizeofLogonProof + 1) (m.byteAt sizeofLogonProof).toNat

/-- The packet of a proof that is turned down. -/
def wrongProofPacket : Bytes := [0x01, AuthResult.failUnknownAccount.code, 3, 0]

/-- The packet of a proof that is accepted. -/
def acceptedPacket (expversion : Expversion) (M2 : Bytes) : Bytes :=
  match expversion with
  | .postBc => [0x01, 0] ++ M2 ++ littleEndian 4 0x00800000 ++ littleEndian 4 0 ++ littleEndian 2 0
  | _ => [0x01, 0] ++ M2 ++ littleEndian 4 0

/-- What is written down about a wrong proof. -/
def wrongPassActions (w : Backend) (login : Bytes) : List Action :=
  (if w.wrongPasswordLoginLogging then
    [.execute (.insFalpIpLogging login w.remoteIp
      (bytes "Logged on failed AccountLogin due wrong password"))] else []) ++
  if w.wrongPassMaxCount = 0 then []
  else .execute (.updFailedLogins login) ::
    match w.failedLogins login with
    | none => []
    | some (id, failedLogins) =>
      if failedLogins < w.wrongPassMaxCount then []
      else if w.wrongPassBanType then [.execute (.insAccountAutoBanned id w.wrongPassBanTime)]
      else [.execute (.insIpAutoBanned w.remoteIp w.wrongPassBanTime)]

/-- `HandleLogonProof` -/
def handleLogonProof (w : Backend) (session : Session) (m : MessageBuffer) : Handled :=
  if session.expversion = .noValid then .drop session []
  else
    let p := readProof m
    if isZero p.A then .drop session []
    else
      let M := expectedProof session p.A
      let session := { session with K := sessionKeyFor session p.A }
      if (asByteArray M 20).take 20 = p.M1 then
        let update : Action := .execute (.updLogonProof (asHexStr session.K) w.remoteIp
          (getLocaleByName session.localizationName) session.os session.login)
        let accepted : Action := .send (acceptedPacket session.expversion
          (sha1 (hashed p.A ++ hashed M ++ hashed session.K)))
        if p.securityFlags &&& 0x04 ≠ 0 ∨ session.tokenKey ≠ [] then
          let token := readToken m
          let consumed := 1 + token.length
          if w.generateToken session.tokenKey = atoi token then
            ⟨{ session with isAuthenticated := true }, [update, accepted], true, consumed⟩
          else ⟨session, [update, .send wrongProofPacket], false, consumed⟩
        else .done { session with isAuthenticated := true } [update, accepted]
      else .done session (.send wrongProofPacket :: wrongPassActions w session.login)

/-! ## 3. Reconnecting -/

/-- `HandleReconnectChallenge` -/
def handleReconnectChallenge (w : Backend) (session : Session) (m : MessageBuffer) : Handled :=
  let c := readChallenge m
  match w.sessionKey c.login with
  | none => .drop { session with login := c.login } []
  | some key =>
    let session := challengedSession session c
    if 4 < c.os.length then .drop { session with os := c.os } []
    else
      .done
        { session with
          accountSecurityLevel := securityLevelOf key.gmlevel
          K := setHexStr session.K key.sessionkey
          reconnectProof := w.randReconnectProof.val }
        [.send ([0x02, 0x00] ++ (asByteArray w.randReconnectProof.val 16).take 16 ++
          List.replicate 16 0)]

/-- `HandleReconnectProof` -/
def handleReconnectProof (_w : Backend) (session : Session) (m : MessageBuffer) : Handled :=
  if session.login = [] ∨ getNumBytes session.reconnectProof = 0 ∨ getNumBytes session.K = 0 then
    .drop session []
  else
    let R1 := setBinary (m.bytesAt 1 16)
    if sha1 (session.login ++ hashed R1 ++ hashed session.reconnectProof ++ hashed session.K)
        = m.bytesAt 17 20 then
      .done { session with isAuthenticated := true } [.send [0x03, 0x00, 0x00, 0x00]]
    else .drop session []

/-! ## 4. The list of realms, and the transfer of patches -/

/-- The record of a realm in the list; `none` when it is not listed. -/
def realmRecord (w : Backend) (session : Session) (account : ℕ) (realm : Realm) : Option Bytes :=
  let okBuild := (session.expversion = .postBc ∧ realm.gamebuild = session.build) ∨
    (session.expversion = .preBc ∧ isPreBCAcceptedClientBuild realm.gamebuild = false)
  let buildInfo := getBuildInfo realm.gamebuild
  if ¬ okBuild ∧ buildInfo = none then none
  else
    -- REALM_FLAG_OFFLINE = 2, REALM_FLAG_SPECIFYBUILD = 4
    let flag := if okBuild then realm.flag else realm.flag ||| 2 ||| 4
    let flag := if buildInfo = none then flag &&& (2 ^ 32 - 1 - 4) else flag
    let specified := if flag &&& 4 ≠ 0 then buildInfo else none
    let version (info : RealmBuildInfo) : Bytes :=
      bytes s!" ({info.majorVersion}.{info.minorVersion}.{info.bugfixVersion})"
    let name := match session.expversion, specified with
      | .preBc, some info => realm.name ++ version info
      | _, _ => realm.name
    let lock : UInt8 := if session.accountSecurityLevel < realm.allowedSecurityLevel then 1 else 0
    let amountOfCharacters := (w.numChars realm.id account).getD 0
    some <|
      littleEndian 1 realm.icon ++ (if session.expversion = .postBc then [lock] else []) ++
      littleEndian 1 flag ++ name ++ [0] ++ realm.address ++ [0] ++ realm.populationLevel ++
      littleEndian 1 amountOfCharacters ++ littleEndian 1 realm.timezone ++
      littleEndian 1 (if session.expversion = .postBc then realm.id else 0) ++
      match session.expversion, specified with
      | .postBc, some info =>
        littleEndian 1 info.majorVersion ++ littleEndian 1 info.minorVersion ++
          littleEndian 1 info.bugfixVersion ++ littleEndian 2 info.build
      | _, _ => []

/-- `HandleRealmList` -/
def handleRealmList (w : Backend) (session : Session) (_m : MessageBuffer) : Handled :=
  match w.accountId session.login with
  | none => .drop session []
  | some id =>
    let records := w.realms.filterMap (realmRecord w session id)
    let pkt := records.flatten ++ if session.expversion = .postBc then [0x10, 0x00] else [0x00, 0x02]
    let size := littleEndian 4 0 ++
      littleEndian (if session.expversion = .postBc then 2 else 4) records.length
    .done session [.send ([0x10] ++ littleEndian 2 (pkt.length + size.length) ++ size ++ pkt)]

/-- `HandleXferResume` -/
def handleXferResume (_w : Backend) (session : Session) (_m : MessageBuffer) : Handled :=
  .done session []

/-- `HandleXferCancel` -/
def handleXferCancel (_w : Backend) (session : Session) (_m : MessageBuffer) : Handled :=
  .drop session []

/-- `HandleXferAccept` -/
def handleXferAccept (_w : Backend) (session : Session) (_m : MessageBuffer) : Handled :=
  .done session []

end HungerGames.Auth
