/-
# The packets of a session

Network threads put packets at the end of a session's queue.  An Update of the world, or of the
map its player is in, takes them from the front: it hands a packet to the handler of its opcode
when the status of the opcode is met, puts a packet that waits for the player back at the end,
and deletes every other.  It stops before the first packet it has put back, at a packet its
filter refuses, and after a fixed number of packets.

A step is one arrival, the beginning of an Update, one turn of its loop, or whatever happens to
the session between Updates, so packets may arrive between any two turns.
-/
import HungerGames.System.Run
import Mathlib.Algebra.Group.Nat.Defs

namespace HungerGames.Sessions

open HungerGames.System

/-! ## 1. Opcodes -/

/-- What a player must be for an opcode. -/
inductive SessionStatus where
  | authed
  | loggedIn
  | transfer
  | loggedInOrRecentlyLoggout
  | never
  | unhandled
  deriving DecidableEq, Repr

inductive PacketProcessing where
  | inPlace
  | threadUnsafe
  | threadSafe
  deriving DecidableEq, Repr

structure OpcodeHandler where
  status : SessionStatus
  packetProcessing : PacketProcessing
  deriving DecidableEq, Repr

def numMsgTypes : ℕ := 0x51F

def cmsgCharEnum : ℕ := 0x037

/-- `CONFIG_PACKET_SPOOF_POLICY`. -/
inductive Policy where
  | log
  | kick
  | ban
  | other
  deriving DecidableEq, Repr

/-- What the server knows of opcodes. -/
structure Rules where
  opcodeTable : ℕ → OpcodeHandler
  getMaxPacketCounterAllowed : ℕ → ℕ
  policy : Policy

/-- A packet.  No two packets in a queue are at one address, so the number of a packet among all
that arrived stands for its pointer. -/
structure WorldPacket where
  pointer : ℕ
  opcode : ℕ
  deriving DecidableEq, Repr

/-! ## 2. Floods -/

structure PacketCounter where
  lastReceiveTime : ℕ
  amountCounter : ℕ
  deriving DecidableEq, Repr

/-- `_PacketThrottlingMap`, in which an opcode without an entry gets one of zeros. -/
abbrev Throttling : Type := ℕ → PacketCounter

/-- `EvaluateOpcode`: whether the packet may be processed. -/
def evaluateOpcode (rules : Rules) (throttling : Throttling) (opcode time : ℕ) :
    Bool × Throttling :=
  let maxPacketCounterAllowed := rules.getMaxPacketCounterAllowed opcode
  if maxPacketCounterAllowed = 0 then (true, throttling)
  else
    let counter := throttling opcode
    let amount := if counter.lastReceiveTime = time then counter.amountCounter else 0
    let counted := ⟨time, (amount + 1) % 2 ^ 32⟩
    let throttling := fun other => if other = opcode then counted else throttling other
    if counted.amountCounter ≤ maxPacketCounterAllowed then (true, throttling)
    else
      match rules.policy with
      | .kick | .ban => (false, throttling)
      | .log | .other => (true, throttling)

/-! ## 3. The session -/

/-- What a session is for its player.  `player` says whether `_player` is in the world, when
there is one. -/
structure Login where
  player : Option Bool
  recentlyLogout : Bool
  playerLogout : Bool
  inQueue : Bool
  socket : Bool
  deriving DecidableEq, Repr

/-- What a handler does to the session of its player: no handler logs a player in, as
`HandlePlayerLogin` is the callback of a query. -/
inductive Effect where
  | stay
  | logoutPlayer
  | leaveWorld
  | enterWorld
  deriving DecidableEq, Repr

def Effect.apply (login : Login) : Effect → Login
  | .stay => login
  | .logoutPlayer => { login with player := none, playerLogout := false, recentlyLogout := true }
  | .leaveWorld => { login with player := login.player.map fun _ => false }
  | .enterWorld => { login with player := login.player.map fun _ => true }

/-- `WorldSessionFilter` and `MapSessionFilter`. -/
inductive PacketFilter where
  | world
  | map
  deriving DecidableEq, Repr

def PacketFilter.process (filter : PacketFilter) (rules : Rules) (login : Login)
    (packet : WorldPacket) : Bool :=
  match (rules.opcodeTable packet.opcode).packetProcessing with
  | .inPlace => true
  | .threadUnsafe => filter = .world
  | .threadSafe =>
    match filter with
    | .world => !(login.player.getD false)
    | .map => login.player.getD false

/-- An Update under way. -/
structure Update where
  filter : PacketFilter
  currentTime : ℕ
  firstDelayedPacket : Option ℕ
  processedPackets : ℕ
  deriving DecidableEq, Repr

/-- A packet with its status met, in the session it met, and whether the scripts that hear of
every packet let it through to the handler. -/
structure Reception where
  packet : WorldPacket
  login : Login
  allowed : Bool
  deriving DecidableEq, Repr

/-- A session, with what has become of its packets: those `received`, those put back at some time,
those deleted, and those that the Update under way, or the last one, has taken. -/
structure WorldSession where
  login : Login
  throttling : Throttling
  recvQueue : List WorldPacket
  update : Option Update
  alive : Bool
  arrived : ℕ
  received : List Reception
  putBack : List WorldPacket
  deleted : List WorldPacket
  taken : List WorldPacket

namespace WorldSession

/-- `STATUS_LOGGEDIN` is the status of the packet. -/
def waits (rules : Rules) (packet : WorldPacket) : Bool :=
  packet.opcode < numMsgTypes ∧ (rules.opcodeTable packet.opcode).status = .loggedIn

inductive Verdict where
  | kicked
  | unknown
  | delayed
  | refused
  | met
  deriving DecidableEq, Repr

/-- What is done with a packet by its status. -/
def dispatch (rules : Rules) (login : Login) (packet : WorldPacket) : Verdict :=
  if numMsgTypes ≤ packet.opcode then .unknown
  else
    match (rules.opcodeTable packet.opcode).status with
    | .loggedIn =>
      match login.player with
      | none => if login.recentlyLogout then .refused else .delayed
      | some inWorld => if inWorld then .met else .refused
    | .loggedInOrRecentlyLoggout =>
      if login.player.isNone && !login.recentlyLogout && !login.playerLogout then .refused
      else .met
    | .transfer =>
      match login.player with
      | none => .refused
      | some inWorld => if inWorld then .refused else .met
    | .authed => if login.inQueue then .refused else .met
    | .never => .refused
    | .unhandled => .refused

def verdict (rules : Rules) (s : WorldSession) (u : Update) (packet : WorldPacket) : Verdict :=
  if (evaluateOpcode rules s.throttling packet.opcode u.currentTime).1 then
    dispatch rules s.login packet
  else .kicked

/-- The list of characters is asked for only after a logout has ended. -/
def loginFor (rules : Rules) (login : Login) (packet : WorldPacket) : Login :=
  if (rules.opcodeTable packet.opcode).status = .authed ∧ packet.opcode = cmsgCharEnum then
    { login with recentlyLogout := false }
  else login

/-- The packet that the loop takes, and the queue it leaves. -/
def next (rules : Rules) (s : WorldSession) (u : Update) :
    Option (WorldPacket × List WorldPacket) :=
  match s.recvQueue with
  | [] => none
  | packet :: rest =>
    if s.login.socket ∧ u.firstDelayedPacket ≠ some packet.pointer ∧
        u.filter.process rules s.login packet = true then
      some (packet, rest)
    else none

def maxProcessedPackets : ℕ := 100

/-- A packet is put back, received or deleted. -/
def settle (rules : Rules) (s : WorldSession) (packet : WorldPacket) (rest : List WorldPacket)
    (allowed : Bool) (effect : Effect) : Verdict → WorldSession
  | .delayed => { s with recvQueue := rest ++ [packet], putBack := s.putBack ++ [packet] }
  | .met =>
    let login := loginFor rules s.login packet
    { s with
      recvQueue := rest
      received := s.received ++ [⟨packet, login, allowed⟩]
      deleted := s.deleted ++ [packet]
      login := if allowed then effect.apply login else login }
  | .kicked | .unknown | .refused => { s with recvQueue := rest, deleted := s.deleted ++ [packet] }

/-- The Update after a packet; it may have been the last one. -/
def Update.after (u : Update) (packet : WorldPacket) (verdict : Verdict) : Option Update :=
  let processedPackets := u.processedPackets + 1
  if maxProcessedPackets < processedPackets then none
  else
    some { u with
      firstDelayedPacket :=
        if verdict = .delayed then some (u.firstDelayedPacket.getD packet.pointer)
        else u.firstDelayedPacket
      processedPackets := processedPackets }

/-- One turn of the loop. -/
def turn (rules : Rules) (s : WorldSession) (u : Update) (allowed : Bool) (effect : Effect) :
    WorldSession :=
  match s.next rules u with
  | none => { s with update := none }
  | some (packet, rest) =>
    let verdict := s.verdict rules u packet
    { s.settle rules packet rest allowed effect verdict with
      throttling := (evaluateOpcode rules s.throttling packet.opcode u.currentTime).2
      taken := s.taken ++ [packet]
      update := Update.after u packet verdict }

/-! ## 4. Steps -/

inductive Op where
  | queuePacket (opcode : ℕ)
  | beginUpdate (filter : PacketFilter) (currentTime : ℕ)
  | turn (allowed : Bool) (effect : Effect)
  | outside (login : Login)
  | destroy
  deriving DecidableEq, Repr

/-- Updates follow each other, as the world waits for its maps, and a map updates the sessions of
players in the world; what is outside of Updates is there between them. -/
def step (rules : Rules) (s : WorldSession) : Op → WorldSession
  | .queuePacket opcode =>
    if s.alive then
      { s with recvQueue := s.recvQueue ++ [⟨s.arrived, opcode⟩], arrived := s.arrived + 1 }
    else s
  | .beginUpdate filter currentTime =>
    if s.update = none ∧ s.alive = true ∧ (filter = .map → s.login.player = some true) then
      { s with update := some ⟨filter, currentTime, none, 0⟩, taken := [] }
    else s
  | .turn allowed effect =>
    match s.update with
    | none => s
    | some u => s.turn rules u allowed effect
  | .outside login => if s.update = none then { s with login := login } else s
  | .destroy =>
    if s.update = none then
      { s with alive := false, recvQueue := [], deleted := s.deleted ++ s.recvQueue }
    else s

/-- A session whose client has just connected. -/
def new (login : Login) : WorldSession where
  login := login
  throttling := fun _ => ⟨0, 0⟩
  recvQueue := []
  update := none
  alive := true
  arrived := 0
  received := []
  putBack := []
  deleted := []
  taken := []

end WorldSession

end HungerGames.Sessions
