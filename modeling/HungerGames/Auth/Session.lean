/-
# A logon session (`AuthSession.h`)

What the server knows of a connection while its client logs on: the numbers of the SRP6
exchange, each a variable of its own, the name the client has given, and a flag.  Around it are
the database, which answers queries and executes statements, and the random numbers a handler
draws; `Backend` has the answers to one handler's questions.
-/
import HungerGames.Auth.BigNumber
import HungerGames.Auth.MessageBuffer
import HungerGames.Lua.Text

namespace HungerGames.Auth

open HungerGames.Lua (Bytes bytes)

/-! ## 1. The session -/

/-- `_expversion` -/
inductive Expversion where
  | noValid
  | preBc
  | postBc
deriving DecidableEq

/-- The member variables of `AuthSession` that change; `N` and `g` do not. -/
structure Session where
  s : ℕ
  v : ℕ
  b : ℕ
  B : ℕ
  K : ℕ
  reconnectProof : ℕ
  isAuthenticated : Bool
  tokenKey : Bytes
  login : Bytes
  localizationName : Bytes
  os : Bytes
  build : ℕ
  expversion : Expversion
  accountSecurityLevel : ℕ
deriving DecidableEq

/-- The constructor of `AuthSession`. -/
def Session.init : Session where
  s := 0
  v := 0
  b := 0
  B := 0
  K := 0
  reconnectProof := 0
  isAuthenticated := false
  tokenKey := []
  login := []
  localizationName := []
  os := []
  build := 0
  expversion := .noValid
  accountSecurityLevel := 0

/-- The modulus. -/
def N : ℕ := 0x894B645E89E1535BBDAD5B8B290650530801B18EBFBF5E8FAB3C82872A3E9BB7

/-- The generator. -/
def g : ℕ := 7

/-! ## 2. The database -/

/-- The row of `LOGIN_SEL_LOGONCHALLENGE`, its columns in order. -/
structure Account where
  shaPassHash : Bytes
  id : ℕ
  locked : ℕ
  lockCountry : Bytes
  lastIp : Bytes
  gmlevel : ℕ
  v : Bytes
  s : Bytes
  tokenKey : Bytes
deriving DecidableEq

/-- The row of `LOGIN_SEL_SESSIONKEY` without the id. -/
structure SessionKey where
  sessionkey : Bytes
  gmlevel : ℕ
deriving DecidableEq

/-- A realm, with its address as `GetAddressForClient` gives it to this client. -/
structure Realm where
  name : Bytes
  id : ℕ
  icon : ℕ
  flag : ℕ
  address : Bytes
  /-- a `float`, as its four bytes -/
  populationLevel : Bytes
  timezone : ℕ
  gamebuild : ℕ
  allowedSecurityLevel : ℕ
deriving DecidableEq

/-- What the statements of the log-on update. -/
inductive Statement where
  | delExpiredIpBans
  | updExpiredAccountBans
  | updVs (v s login : Bytes)
  | updLogonProof (sessionkey lastIp : Bytes) (locale : ℕ) (os login : Bytes)
  | insFalpIpLogging (login ip note : Bytes)
  | updFailedLogins (login : Bytes)
  | insAccountAutoBanned (id time : ℕ)
  | insIpAutoBanned (ip : Bytes) (time : ℕ)
  | insAccount (username shaPassHash regMail email : Bytes)
  | insRealmCharactersInit
deriving DecidableEq

/-- The answers to the questions of one handler. -/
structure Backend where
  /-- `GetRemoteIpAddress().to_string()` -/
  remoteIp : Bytes
  /-- `LOGIN_SEL_IP_BANNED` -/
  ipBanned : Bool
  /-- `LOGIN_SEL_LOGONCHALLENGE` -/
  account : Bytes → Option Account
  /-- `LOGIN_SEL_LOGON_COUNTRY` -/
  country : Option Bytes
  /-- `LOGIN_SEL_ACCOUNT_BANNED`: the dates of the ban -/
  accountBanned : ℕ → Option (ℕ × ℕ)
  /-- `LOGIN_SEL_ACCOUNT_ID_BY_NAME`, `LOGIN_GET_ACCOUNT_ID_BY_USERNAME` -/
  accountId : Bytes → Option ℕ
  /-- `LOGIN_SEL_SESSIONKEY` -/
  sessionKey : Bytes → Option SessionKey
  /-- `LOGIN_SEL_FAILEDLOGINS`: the id and the count -/
  failedLogins : Bytes → Option (ℕ × ℕ)
  /-- `LOGIN_SEL_NUM_CHARS_ON_REALM`, for a realm and an account -/
  numChars : ℕ → ℕ → Option ℕ
  realms : List Realm
  randS : Rand 256
  randB : Rand 152
  randUnk3 : Rand 128
  randReconnectProof : Rand 128
  /-- `TOTP::GenerateToken`, at this moment -/
  generateToken : Bytes → ℕ
  wrongPassMaxCount : ℕ
  wrongPassBanTime : ℕ
  wrongPassBanType : Bool
  wrongPasswordLoginLogging : Bool

/-! ## 3. What a handler does -/

/-- A packet sent, or a statement executed. -/
inductive Action where
  | send (packet : Bytes)
  | execute (stmt : Statement)
deriving DecidableEq

/-- What a handler leaves behind. -/
structure Handled where
  session : Session
  actions : List Action
  /-- the returned value: `false` closes the connection -/
  keep : Bool
  /-- bytes the handler itself has taken from the buffer -/
  consumed : ℕ
deriving DecidableEq

/-- `return true` after some actions. -/
def Handled.done (session : Session) (actions : List Action) : Handled := ⟨session, actions, true, 0⟩

/-- `return false` after some actions. -/
def Handled.drop (session : Session) (actions : List Action) : Handled :=
  ⟨session, actions, false, 0⟩

/-! ## 4. Small functions of the handlers -/

/-- `AuthResult`, as far as the handlers use it. -/
inductive AuthResult where
  | success
  | failBanned
  | failUnknownAccount
  | failVersionInvalid
  | failSuspended
  | failLockedEnforced
  | failUseBattlenet
  | failNoGameAccount
  | failInternetGameRoomWithoutBnet
  | failUnlockableLock
deriving DecidableEq

def AuthResult.code : AuthResult → UInt8
  | .success => 0x00
  | .failBanned => 0x03
  | .failUnknownAccount => 0x04
  | .failVersionInvalid => 0x09
  | .failSuspended => 0x0C
  | .failLockedEnforced => 0x10
  | .failUseBattlenet => 0x12
  | .failNoGameAccount => 0x15
  | .failInternetGameRoomWithoutBnet => 0x17
  | .failUnlockableLock => 0x18

/-- `RealmBuildInfo` without the hotfix letter. -/
structure RealmBuildInfo where
  build : ℕ
  majorVersion : ℕ
  minorVersion : ℕ
  bugfixVersion : ℕ
deriving DecidableEq

def postBcAcceptedClientBuilds : List RealmBuildInfo := [⟨12350, 3, 3, 5⟩]

def preBcAcceptedClientBuilds : List RealmBuildInfo := []

/-- `IsPostBCAcceptedClientBuild` -/
def isPostBCAcceptedClientBuild (build : ℕ) : Bool :=
  postBcAcceptedClientBuilds.any fun info => info.build == build

/-- `IsPreBCAcceptedClientBuild` -/
def isPreBCAcceptedClientBuild (build : ℕ) : Bool :=
  preBcAcceptedClientBuilds.any fun info => info.build == build

/-- `IsAcceptedClientBuild` -/
def isAcceptedClientBuild (build : ℕ) : Bool :=
  isPostBCAcceptedClientBuild build || isPreBCAcceptedClientBuild build

/-- `GetBuildInfo` -/
def getBuildInfo (build : ℕ) : Option RealmBuildInfo :=
  (postBcAcceptedClientBuilds ++ preBcAcceptedClientBuilds).find? fun info => info.build == build

/-- The value `_expversion` is given for a build. -/
def expversionOf (build : ℕ) : Expversion :=
  if isPostBCAcceptedClientBuild build then .postBc
  else if isPreBCAcceptedClientBuild build then .preBc
  else .noValid

/-- `GetLocaleByName` -/
def getLocaleByName (name : Bytes) : ℕ :=
  (["enUS", "koKR", "frFR", "deDE", "zhCN", "zhTW", "esES", "esMX", "ruRU"].map bytes).findIdx?
    (· == name) |>.getD 0

/-- `secLevel <= SEC_ADMINISTRATOR ? AccountTypes(secLevel) : SEC_ADMINISTRATOR`, for the
`uint8` of the column. -/
def securityLevelOf (gmlevel : ℕ) : ℕ := min (gmlevel % 256) 3

/-- `std::transform(.., ::toupper)` -/
def toUpper (s : Bytes) : Bytes := s.map fun c => if 97 ≤ c ∧ c ≤ 122 then c - 32 else c

/-- A number in `len` bytes, the low byte first: `pkt << uint16(n)` and the like. -/
def littleEndian (len n : ℕ) : Bytes := BigNumber.lowBytes n len

/-- `ByteArrayToHexStr` -/
def byteArrayToHexStr (bs : Bytes) : Bytes :=
  bs.flatMap fun b => [BigNumber.hexChar (b.toNat / 16), BigNumber.hexChar (b.toNat % 16)]

/-- The digits `atoi` reads. -/
def atoiDigits : Bytes → ℕ → ℕ
  | [], n => n
  | c :: s, n => if 48 ≤ c ∧ c ≤ 57 then atoiDigits s (10 * n + (c.toNat - 48)) else n

/-- `uint32(atoi(s))`: white space, a sign and digits, clipped to 64 bits, of which 32 are
kept. -/
def atoi (s : Bytes) : ℕ :=
  let n : ℤ := match s.dropWhile HungerGames.Lua.isSpace with
    | 45 :: t => -min (atoiDigits t 0 : ℤ) (2 ^ 63)
    | 43 :: t => min (atoiDigits t 0 : ℤ) (2 ^ 63 - 1)
    | t => min (atoiDigits t 0 : ℤ) (2 ^ 63 - 1)
  (n % 2 ^ 32).toNat

end HungerGames.Auth
