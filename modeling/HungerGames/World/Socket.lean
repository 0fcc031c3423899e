/-
# Taking packets from the stream (`WorldSocket::ReadHandler`)

A packet is collected in two buffers of the exact size: six bytes of header, and the payload the
header announces.  Both may be half full when a read ends, and stay so until the next.  The
header is deciphered and rewritten in place when its sixth byte has come; the payload is moved
out when its last byte has.

As for the logon server, one step is a read that completes, or one round of the loop; a round
takes at least one byte from the read buffer, or ends the loop.  The packets dispatched are
written down; no function of the source reads that.
-/
import HungerGames.System.Run
import HungerGames.World.Session

namespace HungerGames.World

open HungerGames.Lua (Bytes)
open HungerGames.Auth (MessageBuffer littleEndian)
open HungerGames.Auth.BigNumber

/-! ## 1. The header -/

/-- `ClientPktHeader`, in the byte order of the host. -/
structure ClientPktHeader where
  size : ℕ
  cmd : ℕ
deriving DecidableEq

def ClientPktHeader.isValidSize (h : ClientPktHeader) : Bool := 4 ≤ h.size && h.size < 10240

/-- `NUM_MSG_TYPES` -/
def numMsgTypes : ℕ := 0x51F

def ClientPktHeader.isValidOpcode (h : ClientPktHeader) : Bool := h.cmd < numMsgTypes

/-- `sizeof(ClientPktHeader)` -/
def sizeofHeader : ℕ := 6

/-- The six bytes as they come: the size with its high byte first, the opcode with its low byte
first. -/
def headerOf (bs : Bytes) : ClientPktHeader where
  size := setBinary (bs.take 2).reverse
  cmd := setBinary ((bs.drop 2).take 4)

/-- The bytes once `ReadHeaderHandler` has rewritten them: the size is that of the payload. -/
def rewritten (bs : Bytes) : Bytes := littleEndian 2 ((headerOf bs).size - 4) ++ bs.drop 2

/-- `header->cmd` of the rewritten bytes. -/
def rewrittenCmd (bs : Bytes) : ℕ := setBinary ((bs.drop 2).take 4)

/-! ## 2. The socket -/

/-- A `MessageBuffer` that is filled from the front and emptied at once: the bytes before its
write position, and the size of its storage. -/
structure Filling where
  size : ℕ
  filled : Bytes
deriving DecidableEq

/-- `GetRemainingSpace()` -/
def Filling.remaining (f : Filling) : ℕ := f.size - f.filled.length

def Filling.write (f : Filling) (data : Bytes) : Filling := { f with filled := f.filled ++ data }

/-- `Reset()` -/
def Filling.reset (f : Filling) : Filling := { f with filled := [] }

/-- `Resize(bytes)` -/
def Filling.resize (f : Filling) (bytes : ℕ) : Filling := { f with size := bytes }

/-- `Move()`: the storage goes with the packet. -/
def Filling.move (_ : Filling) : Filling := ⟨0, []⟩

/-- A packet dispatched: the opcode and the payload. -/
abbrev Call := ℕ × Bytes

/-- What the socket is doing. -/
inductive Phase where
  /-- `AsyncRead` waits for bytes -/
  | waiting
  /-- inside the loop of `ReadHandler` -/
  | handling
  /-- `ReadHandler` has returned, and nothing is read any more -/
  | idle
  /-- an exception has left `ReadHandler` -/
  | thrown (e : ByteBufferPositionException)
deriving DecidableEq

structure Socket (κ : Type) where
  peer : Peer κ
  readBuffer : MessageBuffer
  headerBuffer : Filling
  packetBuffer : Filling
  phase : Phase
  dispatched : List Call
  actions : List Action

section

variable {κ : Type}

/-- A new socket, after `Start()`. -/
def Socket.init (authSeed : ℕ) : Socket κ where
  peer := .init authSeed
  readBuffer := .empty
  headerBuffer := ⟨sizeofHeader, []⟩
  packetBuffer := ⟨4096, []⟩
  phase := .waiting
  dispatched := []
  actions := []

/-- `AsyncRead()` -/
def Socket.asyncRead (s : Socket κ) : Socket κ :=
  if s.peer.isOpen then { s with readBuffer := s.readBuffer.normalize, phase := .waiting }
  else { s with phase := .idle }

/-- Bytes go from the read buffer to the header. -/
def Socket.fillHeader (s : Socket κ) : Socket κ :=
  let n := min s.readBuffer.getActiveSize s.headerBuffer.remaining
  { s with
    headerBuffer := s.headerBuffer.write (s.readBuffer.bytesAt 0 n)
    readBuffer := s.readBuffer.readCompleted n }

/-- Bytes go from the read buffer to the payload. -/
def Socket.fillPacket (s : Socket κ) : Socket κ :=
  let n := min s.readBuffer.getActiveSize s.packetBuffer.remaining
  { s with
    packetBuffer := s.packetBuffer.write (s.readBuffer.bytesAt 0 n)
    readBuffer := s.readBuffer.readCompleted n }

variable (cipher : Cipher κ)

/-- `ReadHeaderHandler`, and what it returns: `false` for a malformed header, the socket closed. -/
def Socket.readHeaderHandler (s : Socket κ) : Socket κ × Bool :=
  let r := decryptRecv cipher s.peer.authCrypt s.headerBuffer.filled
  let header := headerOf r.1
  if header.isValidSize && header.isValidOpcode then
    ({ s with
      peer := { s.peer with authCrypt := r.2 }
      headerBuffer := { s.headerBuffer with filled := rewritten r.1 }
      packetBuffer := s.packetBuffer.resize (header.size - 4) }, true)
  else ({ s with peer := { s.peer with authCrypt := r.2, closed := true } }, false)

/-- The opcode `ReadDataHandler` takes from the header. -/
def Socket.opcode (s : Socket κ) : ℕ := rewrittenCmd s.headerBuffer.filled % 2 ^ 16

/-- `ReadDataHandler`, and the end of the round. -/
def Socket.dispatch (w : Answers) (s : Socket κ) : Socket κ :=
  let r := readDataHandler cipher w s.peer s.opcode s.packetBuffer.filled
  { s with
    peer := r.peer
    packetBuffer := s.packetBuffer.move
    headerBuffer := match r.result with
      | .ok true => s.headerBuffer.reset
      | _ => s.headerBuffer
    phase := match r.result with
      | .ok true => .handling
      | .ok false => .idle
      | .error e => .thrown e
    dispatched := s.dispatched ++ [(s.opcode, s.packetBuffer.filled)]
    actions := s.actions ++ r.actions }

/-- The part of a round after the header is there. -/
def Socket.readPayload (w : Answers) (s : Socket κ) : Socket κ :=
  let s := if 0 < s.packetBuffer.remaining then s.fillPacket else s
  if 0 < s.packetBuffer.remaining then s.asyncRead else s.dispatch cipher w

/-- Once round the loop of `ReadHandler`. -/
def Socket.readHandler (w : Answers) (s : Socket κ) : Socket κ :=
  if s.readBuffer.getActiveSize = 0 then s.asyncRead
  else if 0 < s.headerBuffer.remaining then
    let s := s.fillHeader
    if 0 < s.headerBuffer.remaining then s.asyncRead
    else
      let r := s.readHeaderHandler cipher
      if r.2 then r.1.readPayload cipher w else { r.1 with phase := .idle }
  else s.readPayload cipher w

/-- What happens to a socket. -/
inductive Input where
  /-- a read completes -/
  | received (data : Bytes)
  /-- the loop of `ReadHandler` goes round, with these answers -/
  | round (w : Answers)
  /-- `CloseSocket()` from elsewhere -/
  | closeSocket
  /-- `DelayedCloseSocket()` from elsewhere -/
  | delayedCloseSocket

def step (s : Socket κ) : Input → Socket κ
  | .received data =>
    if s.phase = .waiting then
      -- `ReadHandler` returns at once when the socket is not open any more
      { s with
        readBuffer := s.readBuffer.write data
        phase := if s.peer.isOpen then .handling else .idle }
    else s
  | .round w => if s.phase = .handling then s.readHandler cipher w else s
  | .closeSocket => { s with peer := { s.peer with closed := true } }
  | .delayedCloseSocket => { s with peer := { s.peer with closing := true } }

/-- A read fills no more than its window. -/
def Input.Fits : Input → Prop
  | .received data => data.length ≤ Auth.readBlockSize
  | _ => True

end

end HungerGames.World
