/-
# A connection (`AuthSession::ReadHandler`)

Bytes arrive, and `ReadHandler` takes complete packets from the buffer until there is none; then
it asks for more bytes.  One step of the model is one of the two: bytes arrive, or the loop of
`ReadHandler` goes round once.  The loop need not end by itself (a size that wraps to `0`
consumes nothing), so a run is any sequence of steps.

The table of handlers has a status for each command, and nothing reads it.

A connection carries a log of what was handled on it, the latest first.  No function of the
source reads the log; what the properties of whole runs say about earlier packets, they say of
the log.
-/
import HungerGames.Auth.Handlers
import HungerGames.System.Run

namespace HungerGames.Auth

open HungerGames.Lua (Bytes bytes)

/-! ## 1. The table of handlers -/

/-- The commands with a handler. -/
inductive Command where
  | logonChallenge
  | logonProof
  | reconnectChallenge
  | reconnectProof
  | realmList
  | xferAccept
  | xferResume
  | xferCancel
deriving DecidableEq

/-- `eStatus` -/
inductive Status where
  | connected
  | authed
deriving DecidableEq

/-- `AuthHandler`, with the command in place of the pointer to its handler. -/
structure AuthHandler where
  status : Status
  packetSize : ℕ
  command : Command
deriving DecidableEq

/-- `InitHandlers()` -/
def handlers : List (UInt8 × AuthHandler) :=
  [(0x00, ⟨.connected, 4, .logonChallenge⟩),
   (0x01, ⟨.connected, sizeofLogonProof, .logonProof⟩),
   (0x02, ⟨.connected, 4, .reconnectChallenge⟩),
   (0x03, ⟨.connected, 58, .reconnectProof⟩),
   (0x10, ⟨.authed, 5, .realmList⟩),
   (0x32, ⟨.authed, 1, .xferAccept⟩),
   (0x33, ⟨.authed, 9, .xferResume⟩),
   (0x34, ⟨.authed, 1, .xferCancel⟩)]

/-- `Handlers.at(cmd).handler` -/
def Command.handle : Command → Backend → Session → MessageBuffer → Handled
  | .logonChallenge => handleLogonChallenge
  | .logonProof => handleLogonProof
  | .reconnectChallenge => handleReconnectChallenge
  | .reconnectProof => handleReconnectProof
  | .realmList => handleRealmList
  | .xferAccept => handleXferAccept
  | .xferResume => handleXferResume
  | .xferCancel => handleXferCancel

/-! ## 2. The log -/

/-- A challenge answered with `WOW_SUCCESS`: the answers it was handled with, what was done,
and the numbers the session was left with. -/
structure Grant where
  backend : Backend
  actions : List Action
  s : ℕ
  v : ℕ
  b : ℕ
  B : ℕ

/-- What was handled. -/
inductive Entry where
  | logonChallenge (login : Bytes) (grant : Option Grant)
  | logonProof (accepted : Bool)
  | reconnectChallenge (login : Bytes)
  | reconnectProof (accepted : Bool)
  /-- another command, and what `_isAuthenticated` was when its handler was called -/
  | other (command : Command) (isAuthenticated : Bool)

/-- The update that stores a session key. -/
def Action.storesKey : Action → Bool
  | .execute (.updLogonProof ..) => true
  | _ => false

/-- The proof was accepted: its key was stored, and the connection is kept. -/
def Handled.accepted (h : Handled) : Bool := h.keep && h.actions.any Action.storesKey

/-- The grant of a challenge, if it was answered with `WOW_SUCCESS`. -/
def grantOf (w : Backend) (c : Challenge) (h : Handled) : Option Grant :=
  if 4 < c.os.length ∨ isAcceptedClientBuild c.build = false then none
  else match verdict w c.login with
    | .granted _ => some ⟨w, h.actions, h.session.s, h.session.v, h.session.b, h.session.B⟩
    | _ => none

/-- The entry for a handler called in `session`. -/
def entryOf (w : Backend) (session : Session) (m : MessageBuffer) (h : Handled) : Command → Entry
  | .logonChallenge => .logonChallenge (readChallenge m).login (grantOf w (readChallenge m) h)
  | .logonProof => .logonProof h.accepted
  | .reconnectChallenge => .reconnectChallenge (readChallenge m).login
  | .reconnectProof => .reconnectProof h.keep
  | c => .other c session.isAuthenticated

/-! ## 3. Steps -/

/-- What the connection is doing. -/
inductive Phase where
  /-- `AsyncRead` waits for bytes -/
  | waiting
  /-- inside the loop of `ReadHandler` -/
  | handling
  | closed
deriving DecidableEq

structure Connection where
  session : Session
  buffer : MessageBuffer
  phase : Phase
  log : List Entry

def Connection.init : Connection := ⟨Session.init, MessageBuffer.empty, .waiting, []⟩

/-- `AsyncRead()` -/
def Connection.asyncRead (c : Connection) : Connection :=
  { c with buffer := c.buffer.normalize, phase := .waiting }

/-- The size of the packet at the front of the buffer, a `uint16`. -/
def AuthHandler.size (h : AuthHandler) (m : MessageBuffer) : ℕ :=
  match h.command with
  | .logonChallenge | .reconnectChallenge => (h.packetSize + m.uint16At 2) % 2 ^ 16
  | _ => h.packetSize

/-- Call the handler; close the connection, or consume the packet. -/
def Connection.dispatch (w : Backend) (h : AuthHandler) (c : Connection) : Connection :=
  let r := h.command.handle w c.session c.buffer
  { session := r.session
    buffer := if r.keep then (c.buffer.readCompleted r.consumed).readCompleted (h.size c.buffer)
      else c.buffer.readCompleted r.consumed
    phase := if r.keep then .handling else .closed
    log := entryOf w c.session c.buffer r h.command :: c.log }

/-- Once round the loop of `ReadHandler`. -/
def readHandler (w : Backend) (c : Connection) : Connection :=
  if c.buffer.getActiveSize = 0 then c.asyncRead
  else match handlers.lookup (c.buffer.byteAt 0) with
    | none => { c with buffer := c.buffer.reset }.asyncRead
    | some h =>
      if c.buffer.getActiveSize < h.packetSize then c.asyncRead
      else if c.buffer.getActiveSize < h.size c.buffer then c.asyncRead
      else c.dispatch w h

/-- What happens to a connection. -/
inductive Input where
  /-- bytes have arrived -/
  | received (data : Bytes)
  /-- the loop of `ReadHandler` goes round, with these answers -/
  | round (w : Backend)
  /-- the socket reports an error -/
  | lost

def step (c : Connection) : Input → Connection
  | .received data =>
    if c.phase = .waiting then { c with buffer := c.buffer.write data, phase := .handling } else c
  | .round w => if c.phase = .handling then readHandler w c else c
  | .lost => { c with phase := .closed }

/-- The handler `ReadHandler` is about to call. -/
def Connection.front (c : Connection) : Option AuthHandler :=
  if c.phase = .handling ∧ c.buffer.getActiveSize ≠ 0 then
    (handlers.lookup (c.buffer.byteAt 0)).filter fun h =>
      h.packetSize ≤ c.buffer.getActiveSize ∧ h.size c.buffer ≤ c.buffer.getActiveSize
  else none

/-! ## 4. What a step can do -/

/-- **A step** calls the handler of the packet at the front, or leaves session and log alone. -/
theorem step_cases (c : Connection) (i : Input) :
    (∃ w h, i = .round w ∧ c.front = some h ∧ step c i = c.dispatch w h) ∨
      ((step c i).session = c.session ∧ (step c i).log = c.log ∧
        ∀ w, i = .round w → c.front = none) := by
  cases i with
  | received data =>
    right
    simp only [step]
    split <;> exact ⟨rfl, rfl, fun _ hw => by cases hw⟩
  | lost => exact Or.inr ⟨rfl, rfl, fun _ hw => by cases hw⟩
  | round w =>
    by_cases hphase : c.phase = .handling
    · have hstep : step c (.round w) = readHandler w c := if_pos hphase
      rw [hstep]
      unfold readHandler Connection.front
      by_cases hactive : c.buffer.getActiveSize = 0
      · right
        rw [if_pos hactive, if_neg fun h => h.2 hactive]
        exact ⟨rfl, rfl, fun _ _ => rfl⟩
      · rw [if_neg hactive, if_pos ⟨hphase, hactive⟩]
        cases handlers.lookup (c.buffer.byteAt 0) with
        | none => exact Or.inr ⟨rfl, rfl, fun _ _ => rfl⟩
        | some h =>
          by_cases h1 : c.buffer.getActiveSize < h.packetSize
          · right
            simp only [if_pos h1]
            refine ⟨rfl, rfl, fun _ _ => ?_⟩
            rw [Option.filter_some, if_neg fun hc => ?_]
            have := (decide_eq_true_eq.mp hc).1
            omega
          · by_cases h2 : c.buffer.getActiveSize < h.size c.buffer
            · right
              simp only [if_neg h1, if_pos h2]
              refine ⟨rfl, rfl, fun _ _ => ?_⟩
              rw [Option.filter_some, if_neg fun hc => ?_]
              have := (decide_eq_true_eq.mp hc).2
              omega
            · left
              simp only [if_neg h1, if_neg h2]
              refine ⟨w, h, rfl, ?_, rfl⟩
              rw [Option.filter_some, if_pos]
              exact decide_eq_true ⟨by omega, by omega⟩
    · have hstep : step c (.round w) = c := if_neg hphase
      rw [hstep]
      refine Or.inr ⟨rfl, rfl, fun _ _ => ?_⟩
      unfold Connection.front
      rw [if_neg fun h => hphase h.1]

/-! ## 5. The packet at the front -/

/-- The command at the front has no handler. -/
def Connection.Unknown (c : Connection) : Prop :=
  c.buffer.getActiveSize ≠ 0 ∧ handlers.lookup (c.buffer.byteAt 0) = none

instance (c : Connection) : Decidable c.Unknown := inferInstanceAs (Decidable (_ ∧ _))

theorem mem_handlers {k : UInt8} {h : AuthHandler} (hk : handlers.lookup k = some h) :
    h ∈ handlers.map Prod.snd := by
  obtain ⟨l₁, l₂, hl, -⟩ := List.lookup_eq_some_iff.mp hk
  rw [hl]
  simp

theorem AuthHandler.size_lt {h : AuthHandler} (hh : h ∈ handlers.map Prod.snd)
    (m : MessageBuffer) : h.size m < 2 ^ 16 := by
  have hsize : h.packetSize < 2 ^ 16 :=
    (by decide : ∀ h ∈ handlers.map Prod.snd, h.packetSize < 2 ^ 16) h hh
  unfold AuthHandler.size
  split
  · exact Nat.mod_lt _ (by decide)
  · exact Nat.mod_lt _ (by decide)
  · exact hsize

/-- What it takes for a handler to be called. -/
theorem front_eq_some {c : Connection} {h : AuthHandler} :
    c.front = some h ↔ c.phase = .handling ∧ c.buffer.getActiveSize ≠ 0 ∧
      handlers.lookup (c.buffer.byteAt 0) = some h ∧ h.packetSize ≤ c.buffer.getActiveSize ∧
        h.size c.buffer ≤ c.buffer.getActiveSize := by
  unfold Connection.front
  split
  · next hphase =>
    rw [Option.filter_eq_some_iff, decide_eq_true_iff]
    exact ⟨fun hf => ⟨hphase.1, hphase.2, hf.1, hf.2⟩, fun hf => ⟨hf.2.2.1, hf.2.2.2⟩⟩
  · next hphase =>
    exact iff_of_false (by simp) fun hf => hphase ⟨hf.1, hf.2.1⟩

/-- **Once round the loop**: a handler is called, or the bytes that wait are dropped, or they go
on waiting because they are no whole packet yet. -/
theorem readHandler_cases {c : Connection} (hphase : c.phase = .handling) (w : Backend) :
    (∃ h, c.front = some h ∧ readHandler w c = c.dispatch w h) ∨
      (c.front = none ∧ c.Unknown ∧
        readHandler w c = { c with buffer := c.buffer.reset }.asyncRead) ∨
      (c.front = none ∧ ¬ c.Unknown ∧ c.buffer.getActiveSize < 2 ^ 16 ∧
        readHandler w c = c.asyncRead) := by
  unfold readHandler Connection.Unknown
  by_cases hactive : c.buffer.getActiveSize = 0
  · refine Or.inr (Or.inr ⟨?_, fun hu => hu.1 hactive, by omega, if_pos hactive⟩)
    exact if_neg fun hf => hf.2 hactive
  · rw [if_neg hactive]
    cases hl : handlers.lookup (c.buffer.byteAt 0) with
    | none =>
      refine Or.inr (Or.inl ⟨?_, ⟨hactive, rfl⟩, rfl⟩)
      rw [Connection.front, if_pos ⟨hphase, hactive⟩, hl]
      rfl
    | some h =>
      have hnone : ∀ h', c.front = some h' → h' = h := fun h' hf => by
        have := (front_eq_some.mp hf).2.2.1
        rw [hl] at this
        exact (Option.some.inj this).symm
      have hsize := AuthHandler.size_lt (mem_handlers hl) c.buffer
      have hpacket : h.packetSize < 2 ^ 16 :=
        (by decide : ∀ h ∈ handlers.map Prod.snd, h.packetSize < 2 ^ 16) h (mem_handlers hl)
      by_cases h1 : c.buffer.getActiveSize < h.packetSize
      · refine Or.inr (Or.inr ⟨?_, fun hu => by simp at hu, by omega, by simp only [if_pos h1]⟩)
        refine Option.eq_none_iff_forall_ne_some.mpr fun h' hf => ?_
        have hle := (front_eq_some.mp hf).2.2.2.1
        rw [hnone h' hf] at hle
        omega
      · by_cases h2 : c.buffer.getActiveSize < h.size c.buffer
        · refine Or.inr (Or.inr ⟨?_, fun hu => by simp at hu, by omega,
            by simp only [if_neg h1, if_pos h2]⟩)
          refine Option.eq_none_iff_forall_ne_some.mpr fun h' hf => ?_
          have hle := (front_eq_some.mp hf).2.2.2.2
          rw [hnone h' hf] at hle
          omega
        · refine Or.inl ⟨h, ?_, by simp only [if_neg h1, if_neg h2]⟩
          exact front_eq_some.mpr ⟨hphase, hactive, hl, by omega, by omega⟩

/-! ## A plain backend

For runs on concrete inputs: one account, `AB`, with a session key. -/

def Backend.plain : Backend where
  remoteIp := bytes "127.0.0.1"
  ipBanned := false
  account login :=
    if login = bytes "AB" then
      some ⟨[], 1, 0, [], [], 0, List.replicate 64 49, List.replicate 64 50, []⟩
    else none
  country := none
  accountBanned _ := none
  accountId login := if login = bytes "AB" then some 1 else none
  sessionKey login := if login = bytes "AB" then some ⟨[], 0⟩ else none
  failedLogins _ := none
  numChars _ _ := none
  realms := []
  randS := ⟨2 ^ 255 + 1, by decide, by decide, by decide⟩
  randB := ⟨2 ^ 151 + 1, by decide, by decide, by decide⟩
  randUnk3 := ⟨2 ^ 127 + 1, by decide, by decide, by decide⟩
  randReconnectProof := ⟨2 ^ 127 + 1, by decide, by decide, by decide⟩
  generateToken _ := 0
  wrongPassMaxCount := 0
  wrongPassBanTime := 600
  wrongPassBanType := false
  wrongPasswordLoginLogging := false

/-- Bytes arrive, and the loop goes round once. -/
def sends (packet : Bytes) : List Input := [.received packet, .round .plain]

/-- `AUTH_LOGON_CHALLENGE_C` of an English client of build 12350. -/
def challengePacket (cmd : UInt8) (login : Bytes) : Bytes :=
  [cmd, 0] ++ littleEndian 2 (30 + login.length) ++ bytes "WoW" ++ [0, 3, 3, 5] ++
    littleEndian 2 12350 ++ bytes "68x" ++ [0] ++ bytes "niW" ++ [0] ++ bytes "SUne" ++
    List.replicate 8 0 ++ [login.length.toUInt8] ++ login

/-- `AUTH_LOGON_PROOF_C` with `A = 1`. -/
def proofPacket (M1 : Bytes) : Bytes :=
  [0x01, 1] ++ List.replicate 31 0 ++ M1 ++ List.replicate 22 0

end HungerGames.Auth
