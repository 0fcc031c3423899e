/-
# The parser and the stream

`Parses` reads a stream of packets at one go: six bytes, deciphered with the state the cipher
has at that point, then the payload they announce, then the handler, and so on with what is left.
The cut of the stream, the two half-filled buffers and the rewriting of the header do not occur
in it.

The socket does what `Parses` says with the bytes of the reads that are delivered
(`parses_of_reads`).  Not every read is: once the socket is closed, or marked for closing, no
further read is started, so what a stream says and what becomes of it are two things
(`not_all_dispatched`).
-/
import HungerGames.World.Socket

namespace HungerGames.World

open HungerGames.Lua (Bytes)
open HungerGames.Auth (MessageBuffer littleEndian readBlockSize)
open HungerGames.Auth.BigNumber
open HungerGames.System

/-! ## 1. What a stream says -/

/-- Why no further packet is dispatched. -/
inductive Stop where
  /-- the rest is no whole packet -/
  | more
  /-- the header is malformed -/
  | malformed
  /-- `ReadDataHandler` returns `false` -/
  | refused
  | thrown (e : ByteBufferPositionException)
deriving DecidableEq

def ClientPktHeader.isValid (h : ClientPktHeader) : Bool := h.isValidSize && h.isValidOpcode

section

variable {κ : Type} (cipher : Cipher κ) (db : ℕ → Answers)

/-- What a stream says to a peer that has been sent `n` packets.  A header may have been taken
already: then it is the opcode, and the size of the payload. -/
inductive Parses : Peer κ → ℕ → Option (ℕ × ℕ) → Bytes → List Call → Stop → Prop where
  | header_more {p : Peer κ} {n : ℕ} {bs : Bytes} (hlt : bs.length < sizeofHeader) :
    Parses p n none bs [] .more
  | malformed {p : Peer κ} {n : ℕ} {bs : Bytes} (hle : sizeofHeader ≤ bs.length)
    (hbad : (headerOf (decryptRecv cipher p.authCrypt (bs.take sizeofHeader)).1).isValid = false) :
    Parses p n none bs [] .malformed
  | header {p : Peer κ} {n : ℕ} {bs : Bytes} {later : List Call} {stop : Stop}
    (hle : sizeofHeader ≤ bs.length)
    (hgood : (headerOf (decryptRecv cipher p.authCrypt (bs.take sizeofHeader)).1).isValid = true)
    (hrest : Parses { p with authCrypt := (decryptRecv cipher p.authCrypt (bs.take sizeofHeader)).2 }
      n
      (some ((headerOf (decryptRecv cipher p.authCrypt (bs.take sizeofHeader)).1).cmd,
        (headerOf (decryptRecv cipher p.authCrypt (bs.take sizeofHeader)).1).size - 4))
      (bs.drop sizeofHeader) later stop) :
    Parses p n none bs later stop
  | payload_more {p : Peer κ} {n opcode size : ℕ} {bs : Bytes} (hlt : bs.length < size) :
    Parses p n (some (opcode, size)) bs [] .more
  | call {p : Peer κ} {n opcode size : ℕ} {bs : Bytes} {later : List Call} {stop : Stop}
    (hle : size ≤ bs.length)
    (htrue : (readDataHandler cipher (db n) p opcode (bs.take size)).result = .ok true)
    (hrest : Parses (readDataHandler cipher (db n) p opcode (bs.take size)).peer (n + 1) none
      (bs.drop size) later stop) :
    Parses p n (some (opcode, size)) bs ((opcode, bs.take size) :: later) stop
  | refused {p : Peer κ} {n opcode size : ℕ} {bs : Bytes} (hle : size ≤ bs.length)
    (hfalse : (readDataHandler cipher (db n) p opcode (bs.take size)).result = .ok false) :
    Parses p n (some (opcode, size)) bs [(opcode, bs.take size)] .refused
  | thrown {p : Peer κ} {n opcode size : ℕ} {bs : Bytes} {e : ByteBufferPositionException}
    (hle : size ≤ bs.length)
    (herror : (readDataHandler cipher (db n) p opcode (bs.take size)).result = .error e) :
    Parses p n (some (opcode, size)) bs [(opcode, bs.take size)] (.thrown e)

variable {cipher db}

/-- A stream says one thing. -/
theorem Parses.unique {p : Peer κ} {n : ℕ} {expects : Option (ℕ × ℕ)} {bs : Bytes}
    {later later' : List Call} {stop stop' : Stop} (h : Parses cipher db p n expects bs later stop)
    (h' : Parses cipher db p n expects bs later' stop') : later = later' ∧ stop = stop' := by
  induction h generalizing later' stop' with
  | header_more hlt => cases h' <;> first | exact ⟨rfl, rfl⟩ | omega
  | malformed hle hbad =>
    cases h' with
    | header_more hlt => omega
    | malformed => exact ⟨rfl, rfl⟩
    | header _ hgood => rw [hbad] at hgood; exact absurd hgood (by decide)
  | header hle hgood _ ih =>
    cases h' with
    | header_more hlt => omega
    | malformed _ hbad => rw [hgood] at hbad; exact absurd hbad (by decide)
    | header _ _ hrest => exact ih hrest
  | payload_more hlt => cases h' <;> first | exact ⟨rfl, rfl⟩ | omega
  | call hle htrue _ ih =>
    cases h' with
    | payload_more hlt => omega
    | call _ _ hrest =>
      obtain ⟨rfl, rfl⟩ := ih hrest
      exact ⟨rfl, rfl⟩
    | refused _ hfalse => rw [htrue] at hfalse; exact absurd hfalse (by simp)
    | thrown _ herror => rw [htrue] at herror; exact absurd herror (by simp)
  | refused hle hfalse =>
    cases h' with
    | payload_more hlt => omega
    | call _ htrue => rw [hfalse] at htrue; exact absurd htrue (by simp)
    | refused => exact ⟨rfl, rfl⟩
    | thrown _ herror => rw [hfalse] at herror; exact absurd herror (by simp)
  | thrown hle herror =>
    cases h' with
    | payload_more hlt => omega
    | call _ htrue => rw [herror] at htrue; exact absurd htrue (by simp)
    | refused _ hfalse => rw [herror] at hfalse; exact absurd hfalse (by simp)
    | thrown _ herror' =>
      rw [herror] at herror'
      cases herror'
      exact ⟨rfl, rfl⟩

/-! ## 2. The socket between two rounds -/

/-- The header that has been taken. -/
def Socket.expects (s : Socket κ) : Option (ℕ × ℕ) :=
  if s.headerBuffer.remaining = 0 then some (s.opcode, s.packetBuffer.size) else none

/-- The bytes of a header or of a payload that is not complete. -/
def Socket.collected (s : Socket κ) : Bytes :=
  if s.headerBuffer.remaining = 0 then s.packetBuffer.filled else s.headerBuffer.filled

/-- What the bytes in the socket's buffers say, with those that are still to come. -/
def Socket.Continues (cipher : Cipher κ) (db : ℕ → Answers) (s : Socket κ) (t : Bytes)
    (later : List Call) (stop : Stop) : Prop :=
  Parses cipher db s.peer s.dispatched.length s.expects
    (s.collected ++ (s.readBuffer.unread ++ t)) later stop

/-- Between two rounds: a header or a payload is missing bytes. -/
structure Socket.Ready (s : Socket κ) : Prop where
  ordered : s.readBuffer.rpos ≤ s.readBuffer.wpos
  small : s.readBuffer.wpos ≤ readBlockSize
  header : s.headerBuffer.size = sizeofHeader
  fits : s.headerBuffer.filled.length ≤ sizeofHeader
  payload : s.headerBuffer.remaining = 0 → s.packetBuffer.filled.length < s.packetBuffer.size
  moved : s.headerBuffer.remaining ≠ 0 → s.packetBuffer.filled = []

variable {s : Socket κ}

theorem Socket.Ready.sound (hs : s.Ready) : s.readBuffer.Sound := by
  have := hs.small
  unfold readBlockSize at this
  exact ⟨hs.ordered, by omega⟩

/-- **What a round comes to**, when `k` bytes wait at its beginning. -/
inductive Outcome (cipher : Cipher κ) (db : ℕ → Answers) (k : ℕ) (s s' : Socket κ) : Prop where
  /-- a packet is dispatched, and the loop goes on behind it -/
  | goesOn (new : List Call) (hphase : s'.phase = .handling) (hready : s'.Ready)
    (hless : s'.readBuffer.unread.length < k)
    (hdispatched : s'.dispatched = s.dispatched ++ new)
    (hcontinues : ∀ t later stop, s'.Continues cipher db t later stop →
      s.Continues cipher db t (new ++ later) stop)
  /-- all bytes are taken and no packet is complete -/
  | waits (hphase : s'.phase = if s'.peer.isOpen then .waiting else .idle) (hready : s'.Ready)
    (hempty : s'.peer.isOpen = true → s'.readBuffer.wpos = 0)
    (hmore : s'.Continues cipher db [] [] .more)
    (hdispatched : s'.dispatched = s.dispatched)
    (hcontinues : ∀ t later stop, s'.Continues cipher db t later stop →
      s.Continues cipher db t later stop)
  /-- nothing more is dispatched -/
  | stops (new : List Call) (stop : Stop) (hphase : s'.phase ≠ .waiting ∧ s'.phase ≠ .handling)
    (hstop : stop ≠ .more) (hclosed : stop = .malformed → s'.peer.closed = true)
    (hdispatched : s'.dispatched = s.dispatched ++ new)
    (hcontinues : ∀ t, s.Continues cipher db t new stop)

theorem continues_of_full (hfull : s.headerBuffer.remaining = 0) {t : Bytes} {later : List Call}
    {stop : Stop} : s.Continues cipher db t later stop ↔
      Parses cipher db s.peer s.dispatched.length (some (s.opcode, s.packetBuffer.size))
        (s.packetBuffer.filled ++ (s.readBuffer.unread ++ t)) later stop := by
  rw [Socket.Continues, Socket.expects, Socket.collected, if_pos hfull, if_pos hfull]

theorem continues_of_missing (hmissing : s.headerBuffer.remaining ≠ 0) {t : Bytes}
    {later : List Call} {stop : Stop} : s.Continues cipher db t later stop ↔
      Parses cipher db s.peer s.dispatched.length none
        (s.headerBuffer.filled ++ (s.readBuffer.unread ++ t)) later stop := by
  rw [Socket.Continues, Socket.expects, Socket.collected, if_neg hmissing, if_neg hmissing]

/-! ## 3. The pieces of a round -/

-- which bytes wait is known from the lemmas about `unread`, never from the positions
attribute [local irreducible] MessageBuffer.unread MessageBuffer.getActiveSize

/-- `AsyncRead` is called with nothing left to read. -/
theorem asyncRead_of_drained (hs : s.readBuffer.Sound) (hempty : s.readBuffer.unread = []) :
    s.asyncRead.readBuffer.unread = [] ∧ s.asyncRead.readBuffer.Sound ∧
      (s.peer.isOpen = true → s.asyncRead.readBuffer.wpos = 0) := by
  have hactive : s.readBuffer.getActiveSize = 0 := by
    rw [← MessageBuffer.length_unread, hempty]
    rfl
  unfold Socket.asyncRead
  split
  · exact ⟨(MessageBuffer.unread_normalize hs).trans hempty, hs.normalize,
      fun _ => (MessageBuffer.wpos_normalize hs).trans hactive⟩
  · next hopen => exact ⟨hempty, hs, fun h => absurd h hopen⟩

/-- Moving bytes between the buffers changes nothing of what they say. -/
theorem Outcome.of_continues {k : ℕ} {s' : Socket κ} (s₁ : Socket κ)
    (hd : s₁.dispatched = s.dispatched)
    (hc : ∀ t later stop, s₁.Continues cipher db t later stop → s.Continues cipher db t later stop)
    (h : Outcome cipher db k s₁ s') : Outcome cipher db k s s' := by
  cases h with
  | goesOn new hphase hready hless hdispatched hcontinues =>
    exact .goesOn new hphase hready hless (hd ▸ hdispatched) fun t later stop hl =>
      hc t _ stop (hcontinues t later stop hl)
  | waits hphase hready hempty hmore hdispatched hcontinues =>
    exact .waits hphase hready hempty hmore (hdispatched.trans hd) fun t later stop hl =>
      hc t later stop (hcontinues t later stop hl)
  | stops new stop hphase hstop hclosed hdispatched hcontinues =>
    exact .stops new stop hphase hstop hclosed (hd ▸ hdispatched) fun t =>
      hc t new stop (hcontinues t)

/-- A complete payload is dispatched. -/
theorem dispatch_outcome {k : ℕ} (hs : s.readBuffer.Sound)
    (hsmall : s.readBuffer.wpos ≤ readBlockSize) (hheader : s.headerBuffer.size = sizeofHeader)
    (hfull : s.headerBuffer.remaining = 0)
    (hpayload : s.packetBuffer.filled.length = s.packetBuffer.size)
    (hk : s.readBuffer.unread.length < k) :
    Outcome cipher db k s (s.dispatch cipher (db s.dispatched.length)) := by
  have hle : ∀ t : Bytes, s.packetBuffer.size ≤
      (s.packetBuffer.filled ++ (s.readBuffer.unread ++ t)).length := by
    intro t
    rw [List.length_append]
    omega
  have htake : ∀ t : Bytes, (s.packetBuffer.filled ++ (s.readBuffer.unread ++ t)).take
      s.packetBuffer.size = s.packetBuffer.filled := fun t => by
    rw [← hpayload, List.take_left]
  have hdrop : ∀ t : Bytes, (s.packetBuffer.filled ++ (s.readBuffer.unread ++ t)).drop
      s.packetBuffer.size = s.readBuffer.unread ++ t := fun t => by
    rw [← hpayload, List.drop_left]
  have hdispatched : (s.dispatch cipher (db s.dispatched.length)).dispatched =
      s.dispatched ++ [(s.opcode, s.packetBuffer.filled)] := rfl
  have hpeer : (s.dispatch cipher (db s.dispatched.length)).peer = (readDataHandler cipher
      (db s.dispatched.length) s.peer s.opcode s.packetBuffer.filled).peer := rfl
  have hread : (s.dispatch cipher (db s.dispatched.length)).readBuffer = s.readBuffer := rfl
  cases hr : (readDataHandler cipher (db s.dispatched.length) s.peer s.opcode
      s.packetBuffer.filled).result with
  | error e =>
    refine .stops _ (.thrown e) ?_ Stop.noConfusion Stop.noConfusion hdispatched fun t => ?_
    · simp [Socket.dispatch, hr]
    · have := Parses.thrown (n := s.dispatched.length) (p := s.peer) (hle t)
        (by rw [htake]; exact hr)
      rw [htake] at this
      exact (continues_of_full hfull).mpr this
  | ok b =>
    cases b with
    | false =>
      refine .stops _ .refused ?_ Stop.noConfusion Stop.noConfusion hdispatched fun t => ?_
      · simp [Socket.dispatch, hr]
      · have := Parses.refused (n := s.dispatched.length) (p := s.peer) (hle t)
          (by rw [htake]; exact hr)
        rw [htake] at this
        exact (continues_of_full hfull).mpr this
    | true =>
      have hreset : (s.dispatch cipher (db s.dispatched.length)).headerBuffer =
          s.headerBuffer.reset := by simp only [Socket.dispatch, hr]
      have hnone : s.headerBuffer.reset.filled = [] := rfl
      have hempty : (s.dispatch cipher (db s.dispatched.length)).headerBuffer.remaining ≠ 0 := by
        rw [hreset]
        simp [Filling.reset, Filling.remaining, hheader, sizeofHeader]
      refine .goesOn _ ?_ ?_ hk hdispatched fun t later stop hl => ?_
      · simp [Socket.dispatch, hr]
      · exact ⟨hs.1, hsmall, by rw [hreset]; exact hheader, by rw [hreset]; exact Nat.zero_le _,
          fun h => absurd h hempty, fun _ => rfl⟩
      · rw [continues_of_missing hempty, hdispatched, List.length_append, hreset, hpeer, hread,
          List.length_singleton, hnone, List.nil_append] at hl
        have hcall : Parses cipher db s.peer s.dispatched.length (some (s.opcode, s.packetBuffer.size))
            _ _ stop := .call (hle t) (by rw [htake]; exact hr) (by rw [htake, hdrop]; exact hl)
        rw [htake] at hcall
        exact (continues_of_full hfull).mpr hcall

/-- `AsyncRead` with an incomplete header or payload. -/
theorem asyncRead_outcome {k : ℕ} (hs : s.Ready) (hempty : s.readBuffer.unread = []) :
    Outcome cipher db k s s.asyncRead := by
  obtain ⟨hunread, hsound, hwpos⟩ := asyncRead_of_drained hs.sound hempty
  have hpeer : s.asyncRead.peer = s.peer := by unfold Socket.asyncRead; split <;> rfl
  have hheader : s.asyncRead.headerBuffer = s.headerBuffer := by
    unfold Socket.asyncRead; split <;> rfl
  have hpacket : s.asyncRead.packetBuffer = s.packetBuffer := by
    unfold Socket.asyncRead; split <;> rfl
  have hdispatched : s.asyncRead.dispatched = s.dispatched := by
    unfold Socket.asyncRead; split <;> rfl
  have hphase : s.asyncRead.phase = if s.asyncRead.peer.isOpen then .waiting else .idle := by
    rw [hpeer]; unfold Socket.asyncRead; split <;> rfl
  have hsmall : s.asyncRead.readBuffer.wpos ≤ readBlockSize := by
    by_cases hopen : s.peer.isOpen = true
    · rw [hwpos hopen]
      exact Nat.zero_le _
    · have : s.asyncRead = { s with phase := .idle } := if_neg hopen
      rw [this]
      exact hs.small
  have hsame : ∀ t later stop, s.asyncRead.Continues cipher db t later stop ↔
      s.Continues cipher db t later stop := by
    intro t later stop
    unfold Socket.Continues Socket.expects Socket.collected Socket.opcode
    rw [hpeer, hheader, hpacket, hdispatched, hunread, hempty]
  refine .waits hphase ?_ (fun hopen => hwpos (hpeer ▸ hopen)) ?_ hdispatched
    fun t later stop => (hsame t later stop).mp
  · exact ⟨hsound.1, hsmall, hheader ▸ hs.header, hheader ▸ hs.fits,
      by rw [hheader, hpacket]; exact hs.payload, by rw [hheader, hpacket]; exact hs.moved⟩
  · rw [hsame]
    by_cases hfull : s.headerBuffer.remaining = 0
    · rw [continues_of_full hfull, hempty, List.append_nil, List.append_nil]
      exact .payload_more (hs.payload hfull)
    · rw [continues_of_missing hfull, hempty, List.append_nil, List.append_nil]
      refine .header_more ?_
      have := hs.header
      unfold Filling.remaining at hfull
      omega

/-- The payload is filled with bytes that wait: some buffer is left, of which that is known. -/
theorem fillPacket_eq (hs : s.readBuffer.Sound) : ∃ m : MessageBuffer,
    m.Sound ∧ m.unread = s.readBuffer.unread.drop s.packetBuffer.remaining ∧
      m.wpos = s.readBuffer.wpos ∧
      s.fillPacket = { s with
        packetBuffer := s.packetBuffer.write (s.readBuffer.unread.take s.packetBuffer.remaining)
        readBuffer := m } := by
  obtain ⟨hbytes, hsound, hunread⟩ := MessageBuffer.take_min hs s.packetBuffer.remaining
  refine ⟨_, hsound, hunread, MessageBuffer.wpos_readCompleted _ _, ?_⟩
  simp only [Socket.fillPacket, hbytes]

/-- ...and so is the header. -/
theorem fillHeader_eq (hs : s.readBuffer.Sound) : ∃ m : MessageBuffer,
    m.Sound ∧ m.unread = s.readBuffer.unread.drop s.headerBuffer.remaining ∧
      m.wpos = s.readBuffer.wpos ∧
      s.fillHeader = { s with
        headerBuffer := s.headerBuffer.write (s.readBuffer.unread.take s.headerBuffer.remaining)
        readBuffer := m } := by
  obtain ⟨hbytes, hsound, hunread⟩ := MessageBuffer.take_min hs s.headerBuffer.remaining
  refine ⟨_, hsound, hunread, MessageBuffer.wpos_readCompleted _ _, ?_⟩
  simp only [Socket.fillHeader, hbytes]

/-- The payload takes what it can get; it is dispatched, or the bytes that wait are all in it. -/
theorem readPayload_outcome (cipher : Cipher κ) (db : ℕ → Answers) {k : ℕ} (hs : s.readBuffer.Sound)
    (hsmall : s.readBuffer.wpos ≤ readBlockSize) (hheader : s.headerBuffer.size = sizeofHeader)
    (hfits : s.headerBuffer.filled.length ≤ sizeofHeader) (hfull : s.headerBuffer.remaining = 0)
    (hpayload : s.packetBuffer.filled.length ≤ s.packetBuffer.size)
    (hk : s.readBuffer.unread.length - s.packetBuffer.remaining < k) :
    Outcome cipher db k s (s.readPayload cipher (db s.dispatched.length)) := by
  unfold Socket.readPayload
  by_cases hspace : 0 < s.packetBuffer.remaining
  · rw [if_pos hspace]
    obtain ⟨m, hsound, hunread, hwpos, heq⟩ := fillPacket_eq hs
    rw [heq]
    set s₁ : Socket κ := { s with
      packetBuffer := s.packetBuffer.write (s.readBuffer.unread.take s.packetBuffer.remaining)
      readBuffer := m } with hs₁
    have hcontinues : ∀ t later stop, s₁.Continues cipher db t later stop →
        s.Continues cipher db t later stop := by
      intro t later stop hl
      have hl := (continues_of_full (s := s₁) hfull).mp hl
      have hall : s₁.packetBuffer.filled ++ (m.unread ++ t) =
          s.packetBuffer.filled ++ (s.readBuffer.unread ++ t) := by
        simp only [hs₁, Filling.write, hunread, List.append_assoc]
        rw [← List.append_assoc (List.take _ _), List.take_append_drop]
      exact (continues_of_full hfull).mpr (hall ▸ hl)
    have hlength : s₁.packetBuffer.filled.length = s.packetBuffer.filled.length +
        min s.packetBuffer.remaining s.readBuffer.unread.length := by
      simp only [hs₁, Filling.write, List.length_append, List.length_take]
    have hsize : s₁.packetBuffer.size = s.packetBuffer.size := rfl
    refine Outcome.of_continues s₁ rfl hcontinues ?_
    unfold Filling.remaining at hlength hspace hk
    by_cases hmissing : 0 < s₁.packetBuffer.remaining
    · rw [if_pos hmissing]
      unfold Filling.remaining at hmissing
      refine asyncRead_outcome ⟨hsound.1, hwpos ▸ hsmall, hheader, hfits, fun _ => by omega,
        fun hne => absurd hfull hne⟩ ?_
      refine hunread.trans (List.drop_of_length_le ?_)
      unfold Filling.remaining
      omega
    · rw [if_neg hmissing]
      unfold Filling.remaining at hmissing
      refine dispatch_outcome hsound (hwpos ▸ hsmall) hheader hfull (by omega) ?_
      have hread : s₁.readBuffer.unread = _ := hunread
      rw [hread, List.length_drop]
      exact hk
  · rw [if_neg hspace, if_neg hspace]
    unfold Filling.remaining at hspace hk
    exact dispatch_outcome hs hsmall hheader hfull (by omega) (by omega)

/-- The header in the buffer, deciphered and rewritten: its opcode is the one that came. -/
theorem rewrittenCmd_rewritten (bs : Bytes) : rewrittenCmd (rewritten bs) = (headerOf bs).cmd := by
  have hlength : (littleEndian 2 ((headerOf bs).size - 4)).length = 2 := by
    simp [littleEndian, lowBytes]
  have hcmd : (headerOf bs).cmd = setBinary ((bs.drop 2).take 4) := rfl
  rw [hcmd, rewrittenCmd, rewritten, List.drop_append, hlength,
    List.drop_of_length_le (Nat.le_of_eq hlength), List.nil_append, Nat.sub_self, List.drop_zero]

/-- A header that has six bytes is taken, or closes the socket. -/
theorem readHeaderHandler_outcome {k : ℕ} (hs : s.readBuffer.Sound)
    (hsmall : s.readBuffer.wpos ≤ readBlockSize) (hheader : s.headerBuffer.size = sizeofHeader)
    (hfull : s.headerBuffer.filled.length = sizeofHeader) (hmoved : s.packetBuffer.filled = [])
    (hk : s.readBuffer.unread.length < k) {s₀ : Socket κ}
    (hdispatched : s.dispatched = s₀.dispatched)
    (hcontinues : ∀ t later stop, Parses cipher db s.peer s.dispatched.length none
      (s.headerBuffer.filled ++ (s.readBuffer.unread ++ t)) later stop →
        s₀.Continues cipher db t later stop) :
    Outcome cipher db k s₀ (if (s.readHeaderHandler cipher).2 = true then
      (s.readHeaderHandler cipher).1.readPayload cipher (db s₀.dispatched.length)
      else { (s.readHeaderHandler cipher).1 with phase := .idle }) := by
  have hle : ∀ t : Bytes, sizeofHeader ≤
      (s.headerBuffer.filled ++ (s.readBuffer.unread ++ t)).length := by
    intro t
    rw [List.length_append]
    omega
  have htake : ∀ t : Bytes, (s.headerBuffer.filled ++ (s.readBuffer.unread ++ t)).take
      sizeofHeader = s.headerBuffer.filled := fun t => by
    rw [← hfull, List.take_left]
  have hdrop : ∀ t : Bytes, (s.headerBuffer.filled ++ (s.readBuffer.unread ++ t)).drop
      sizeofHeader = s.readBuffer.unread ++ t := fun t => by
    rw [← hfull, List.drop_left]
  unfold Socket.readHeaderHandler
  cases hv : (headerOf (decryptRecv cipher s.peer.authCrypt s.headerBuffer.filled).1).isValid with
  | false =>
    rw [ClientPktHeader.isValid] at hv
    simp only [hv, Bool.false_eq_true, if_false]
    refine .stops [] .malformed ⟨Phase.noConfusion, Phase.noConfusion⟩ Stop.noConfusion
      (fun _ => rfl) ?_ fun t => hcontinues t _ _ (.malformed (hle t) ?_)
    · rw [List.append_nil]
      exact hdispatched
    · rw [htake, ClientPktHeader.isValid]
      exact hv
  | true =>
    have hvalid := hv
    rw [ClientPktHeader.isValid] at hv
    simp only [hv, if_true]
    set r := decryptRecv cipher s.peer.authCrypt s.headerBuffer.filled with hr
    set s₂ : Socket κ := { s with
      peer := { s.peer with authCrypt := r.2 }
      headerBuffer := { s.headerBuffer with filled := rewritten r.1 }
      packetBuffer := s.packetBuffer.resize ((headerOf r.1).size - 4) } with hs₂
    have hlength : (rewritten r.1).length = sizeofHeader := by
      have hr1 : r.1.length = sizeofHeader := (length_decryptRecv _ _).trans hfull
      have h2 : (littleEndian 2 ((headerOf r.1).size - 4)).length = 2 := by
        simp [littleEndian, lowBytes]
      rw [rewritten, List.length_append, h2, List.length_drop, hr1]
      rfl
    have hfull₂ : s₂.headerBuffer.remaining = 0 := by
      simp only [hs₂, Filling.remaining, hheader, hlength, Nat.sub_self]
    have hopcode : s₂.opcode = (headerOf r.1).cmd := by
      have hcmd : (headerOf r.1).cmd < 2 ^ 16 := by
        have hlt : (headerOf r.1).cmd < numMsgTypes :=
          of_decide_eq_true (Bool.and_eq_true_iff.mp hv).2
        unfold numMsgTypes at hlt
        omega
      simp only [Socket.opcode, hs₂]
      rw [rewrittenCmd_rewritten, Nat.mod_eq_of_lt hcmd]
    have hsmaller : s₂.readBuffer.unread.length - s₂.packetBuffer.remaining < k :=
      Nat.lt_of_le_of_lt (Nat.sub_le _ _) hk
    have hempty : s₂.packetBuffer.filled.length ≤ s₂.packetBuffer.size := by
      simp only [hs₂, Filling.resize, hmoved, List.length_nil, Nat.zero_le]
    have hnew := readPayload_outcome cipher db (s := s₂) hs hsmall hheader
      (Nat.le_of_eq hlength) hfull₂ hempty hsmaller
    refine Outcome.of_continues s₂ hdispatched (fun t later stop hl => ?_) ?_
    · have hl := (continues_of_full hfull₂).mp hl
      rw [hopcode] at hl
      refine hcontinues t later stop (.header (hle t) (by rw [htake]; exact hvalid) ?_)
      rw [htake, hdrop, ← hr]
      have hfilled : s₂.packetBuffer.filled = [] := hmoved
      have hread : s₂.readBuffer = s.readBuffer := rfl
      rw [hfilled, hread, List.nil_append] at hl
      exact hl
    · have hsame : s₂.dispatched.length = s₀.dispatched.length := congrArg List.length hdispatched
      rw [← hsame]
      exact hnew

/-- **A round** dispatches the packet at the front of the stream, or takes every byte that waits,
or ends it all. -/
theorem readHandler_outcome (cipher : Cipher κ) (db : ℕ → Answers) (hs : s.Ready) :
    Outcome cipher db s.readBuffer.unread.length s
      (s.readHandler cipher (db s.dispatched.length)) := by
  unfold Socket.readHandler
  by_cases hactive : s.readBuffer.getActiveSize = 0
  · rw [if_pos hactive]
    refine asyncRead_outcome hs (List.length_eq_zero_iff.mp ?_)
    rw [MessageBuffer.length_unread, hactive]
  · rw [if_neg hactive]
    have hpos : 0 < s.readBuffer.unread.length := by
      rw [MessageBuffer.length_unread]
      omega
    by_cases hspace : 0 < s.headerBuffer.remaining
    · rw [if_pos hspace]
      obtain ⟨m, hsound, hunread, hwpos, heq⟩ := fillHeader_eq hs.sound
      rw [heq]
      have hheader := hs.header
      have hfits := hs.fits
      have hmoved := hs.moved (Nat.ne_of_gt hspace)
      set filled := s.headerBuffer.filled ++ s.readBuffer.unread.take s.headerBuffer.remaining with hf
      have hlength : filled.length = s.headerBuffer.filled.length +
          min s.headerBuffer.remaining s.readBuffer.unread.length := by
        rw [hf, List.length_append, List.length_take]
      have hall : ∀ t : Bytes, filled ++ (m.unread ++ t) =
          s.headerBuffer.filled ++ (s.readBuffer.unread ++ t) := by
        intro t
        rw [hf, hunread, List.append_assoc, ← List.append_assoc (List.take _ _),
          List.take_append_drop]
      have hremaining : s.headerBuffer.remaining = 6 - s.headerBuffer.filled.length := by
        rw [Filling.remaining, hheader]
        rfl
      have hafter : (s.headerBuffer.write
          (s.readBuffer.unread.take s.headerBuffer.remaining)).remaining = 6 - filled.length := by
        have hwrite : (s.headerBuffer.write
          (s.readBuffer.unread.take s.headerBuffer.remaining)).remaining =
            s.headerBuffer.size - filled.length := rfl
        rw [hwrite, hheader]
        rfl
      by_cases hmissing : 0 < (s.headerBuffer.write
          (s.readBuffer.unread.take s.headerBuffer.remaining)).remaining
      · have hmissing' : 0 < 6 - filled.length := hafter ▸ hmissing
        simp only [if_pos hmissing]
        refine Outcome.of_continues { s with
          headerBuffer := s.headerBuffer.write (s.readBuffer.unread.take s.headerBuffer.remaining)
          readBuffer := m } rfl (fun t later stop hl => ?_) ?_
        · rw [continues_of_missing (Nat.ne_of_gt hmissing)] at hl
          rw [continues_of_missing (Nat.ne_of_gt hspace), ← hall t]
          exact hl
        · refine asyncRead_outcome ⟨hsound.1, hwpos ▸ hs.small, hheader, ?_,
            fun h => absurd h (Nat.ne_of_gt hmissing), fun _ => hmoved⟩ ?_
          · have : filled.length ≤ 6 := by omega
            exact this
          · exact hunread.trans (List.drop_of_length_le (by omega))
      · have hcomplete : filled.length = sizeofHeader := by
          have hnone : ¬ 0 < 6 - filled.length := hafter ▸ hmissing
          unfold sizeofHeader
          omega
        simp only [if_neg hmissing]
        refine readHeaderHandler_outcome (s := { s with
          headerBuffer := s.headerBuffer.write (s.readBuffer.unread.take s.headerBuffer.remaining)
          readBuffer := m }) hsound (hwpos ▸ hs.small) hheader hcomplete hmoved ?_ rfl
          fun t later stop hl => ?_
        · simp only [hunread, List.length_drop]
          omega
        · rw [continues_of_missing (Nat.ne_of_gt hspace), ← hall t]
          exact hl
    · rw [if_neg hspace]
      have hfull : s.headerBuffer.remaining = 0 := by omega
      have hpayload := hs.payload hfull
      refine readPayload_outcome cipher db hs.sound hs.small hs.header hs.fits hfull
        (Nat.le_of_lt hpayload) ?_
      unfold Filling.remaining
      omega

/-! ## 4. Reads -/

variable (cipher db)

/-- Once round the loop, with the answers to the handler of the next packet. -/
def round (s : Socket κ) (_ : Unit) : Socket κ := step cipher s (.round (db s.dispatched.length))

/-- The rounds there can be: each one but the last dispatches a packet of at least one byte. -/
def rounds (s : Socket κ) : List Unit := List.replicate (s.readBuffer.getActiveSize + 1) ()

/-- A read completes, and `ReadHandler` runs. -/
def deliver (s : Socket κ) (data : Bytes) : Socket κ :=
  exec (round cipher db) (step cipher s (.received data)) (rounds (step cipher s (.received data)))

/-- The read, if one is waited for. -/
def Socket.takes (s : Socket κ) (data : Bytes) : List Bytes :=
  if s.phase = .waiting then [data] else []

/-- The reads that are delivered. -/
def delivered (s : Socket κ) (rs : List Bytes) : List Bytes :=
  outputs (deliver cipher db) Socket.takes s rs

/-- The bytes `done` have been delivered, and `s` is what has become of them, when they are the
first of a stream sent to `p`. -/
inductive Parsed (p : Peer κ) (done : Bytes) (s : Socket κ) : Prop where
  | more (hphase : s.phase = if s.peer.isOpen then .waiting else .idle) (hready : s.Ready)
    (hempty : s.peer.isOpen = true → s.readBuffer.wpos = 0)
    (hmore : s.Continues cipher db [] [] .more)
    (hparses : ∀ t later stop, s.Continues cipher db t later stop →
      Parses cipher db p 0 none (done ++ t) (s.dispatched ++ later) stop)
  | stopped (stop : Stop) (hphase : s.phase ≠ .waiting ∧ s.phase ≠ .handling)
    (hstop : stop ≠ .more) (hclosed : stop = .malformed → s.peer.closed = true)
    (hparses : ∀ t, Parses cipher db p 0 none (done ++ t) s.dispatched stop)

variable {cipher db}

/-- Outside the loop a round does nothing. -/
theorem exec_round_of_ne (hphase : s.phase ≠ .handling) :
    ∀ n : ℕ, exec (round cipher db) s (List.replicate n ()) = s := by
  intro n
  induction n with
  | zero => rfl
  | succ n ih =>
    have hround : round cipher db s () = s := if_neg hphase
    rw [List.replicate_succ, exec_cons, hround, ih]

/-- **The loop ends**, and what it has dispatched is what the stream says. -/
theorem parsed_of_rounds {p : Peer κ} {done : Bytes} : ∀ (n : ℕ) {s : Socket κ},
    s.phase = .handling → s.Ready → s.readBuffer.unread.length < n →
      (∀ t later stop, s.Continues cipher db t later stop →
        Parses cipher db p 0 none (done ++ t) (s.dispatched ++ later) stop) →
      Parsed cipher db p done (exec (round cipher db) s (List.replicate n ()))
  | 0, _, _, _, hlt, _ => absurd hlt (Nat.not_lt_zero _)
  | n + 1, s, hphase, hready, hlt, hparses => by
    have hround : round cipher db s () = s.readHandler cipher (db s.dispatched.length) :=
      if_pos hphase
    rw [List.replicate_succ, exec_cons, hround]
    rcases readHandler_outcome cipher db hready with
      ⟨new, hp, hr, hless, hd, hc⟩ | ⟨hp, hr, he, hm, hd, hc⟩ | ⟨new, stop, hp, hs, hcl, hd, hc⟩
    · refine parsed_of_rounds n hp hr (by omega) fun t later stop hl => ?_
      rw [hd, List.append_assoc]
      exact hparses t _ stop (hc t later stop hl)
    · have hne : (s.readHandler cipher (db s.dispatched.length)).phase ≠ .handling := by
        rw [hp]
        split <;> exact Phase.noConfusion
      rw [exec_round_of_ne hne]
      refine .more hp hr he hm fun t later stop hl => ?_
      rw [hd]
      exact hparses t later stop (hc t later stop hl)
    · rw [exec_round_of_ne hp.2]
      refine .stopped stop hp hs hcl fun t => ?_
      rw [hd]
      exact hparses t new stop (hc t)

/-- **A read** that is waited for is read as the next bytes of the stream. -/
theorem parsed_deliver {p : Peer κ} {done data : Bytes} (hdata : data.length ≤ readBlockSize)
    (h : Parsed cipher db p done s) :
    Parsed cipher db p (done ++ (s.takes data).flatten) (deliver cipher db s data) := by
  by_cases hwait : s.phase = .waiting
  · have htakes : (s.takes data).flatten = data := by
      rw [Socket.takes, if_pos hwait, List.flatten_singleton]
    rw [htakes]
    cases h with
    | stopped _ hphase => exact absurd hwait hphase.1
    | more hphase hready hempty hmore hparses =>
      have hopen : s.peer.isOpen = true := by
        by_contra hn
        rw [hwait, if_neg hn] at hphase
        exact Phase.noConfusion hphase
      have hstep : step cipher s (.received data) =
          { s with readBuffer := s.readBuffer.write data, phase := .handling } := by
        simp only [step, if_pos hwait, hopen, if_true]
      have hwpos : (s.readBuffer.write data).wpos = data.length := by
        simp only [MessageBuffer.write, hempty hopen, Nat.zero_add]
      have hordered : (s.readBuffer.write data).rpos ≤ (s.readBuffer.write data).wpos := by
        have := hready.ordered
        simp only [MessageBuffer.write]
        omega
      have hsound : (s.readBuffer.write data).Sound := by
        refine ⟨hordered, ?_⟩
        unfold readBlockSize at hdata
        omega
      unfold deliver rounds
      rw [hstep]
      refine parsed_of_rounds _ rfl ?_ ?_ fun t later stop hl => ?_
      · exact ⟨hordered, hwpos ▸ hdata, hready.header, hready.fits, hready.payload, hready.moved⟩
      · rw [MessageBuffer.length_unread]
        exact Nat.lt_succ_self _
      · rw [List.append_assoc]
        refine hparses (data ++ t) later stop ?_
        have hunread := MessageBuffer.unread_write hready.sound hsound
        rw [Socket.Continues] at hl
        simp only [hunread, List.append_assoc] at hl
        exact hl
  · have htakes : (s.takes data).flatten = [] := by rw [Socket.takes, if_neg hwait]; rfl
    have hne : s.phase ≠ .handling := by
      cases h with
      | stopped _ hphase => exact hphase.2
      | more hphase =>
        rw [hphase]
        split <;> exact Phase.noConfusion
    have hstep : step cipher s (.received data) = s := if_neg hwait
    rw [htakes, List.append_nil, deliver, hstep, rounds, exec_round_of_ne hne]
    exact h

theorem parsed_init (cipher : Cipher κ) (db : ℕ → Answers) (authSeed : ℕ) :
    Parsed cipher db (.init authSeed) [] (Socket.init authSeed) := by
  refine .more rfl ?_ (fun _ => rfl) ?_ fun t later stop hl => ?_
  · exact ⟨le_refl 0, Nat.zero_le _, rfl, Nat.zero_le _, fun h => absurd h (Nat.succ_ne_zero 5),
      fun _ => rfl⟩
  · have hempty : (Socket.init authSeed : Socket κ).collected ++
        ((Socket.init authSeed : Socket κ).readBuffer.unread ++ []) = [] := by
      have hunread : (Socket.init authSeed : Socket κ).readBuffer.unread = [] :=
        MessageBuffer.unread_reset .empty
      rw [hunread]
      rfl
    rw [Socket.Continues, hempty]
    exact .header_more (by decide)
  · have hunread : (Socket.init authSeed : Socket κ).readBuffer.unread = [] :=
      MessageBuffer.unread_reset .empty
    rw [Socket.Continues, hunread] at hl
    exact hl

/-- The reads that are delivered are the first ones, and all of them while the socket waits. -/
theorem parsed_reads {p : Peer κ} : ∀ {rs : List Bytes} {done : Bytes} {s : Socket κ},
    (∀ r ∈ rs, r.length ≤ readBlockSize) → Parsed cipher db p done s →
      Parsed cipher db p (done ++ (delivered cipher db s rs).flatten)
          (exec (deliver cipher db) s rs) ∧
        delivered cipher db s rs <+: rs ∧
        ((exec (deliver cipher db) s rs).phase = .waiting → delivered cipher db s rs = rs)
  | [], done, s, _, h => by
    have hnil : delivered cipher db s [] = [] := rfl
    rw [hnil, List.flatten_nil, List.append_nil]
    exact ⟨h, List.prefix_rfl, fun _ => rfl⟩
  | r :: rs, done, s, hreads, h => by
    have hnext := parsed_deliver (hreads r List.mem_cons_self) h
    obtain ⟨hparsed, hpre, hall⟩ :=
      parsed_reads (fun r' hr' => hreads r' (List.mem_cons_of_mem r hr')) hnext
    have hcons : delivered cipher db s (r :: rs) =
        s.takes r ++ delivered cipher db (deliver cipher db s r) rs := rfl
    rw [exec_cons, hcons, List.flatten_append, ← List.append_assoc]
    refine ⟨hparsed, ?_⟩
    by_cases hwait : s.phase = .waiting
    · have htakes : s.takes r = [r] := if_pos hwait
      rw [htakes, List.singleton_append]
      exact ⟨List.cons_prefix_cons.mpr ⟨rfl, hpre⟩, fun hw => by rw [hall hw]⟩
    · -- a socket that does not wait stays as it is
      have hne : s.phase ≠ .handling := by
        cases h with
        | stopped _ hphase => exact hphase.2
        | more hphase =>
          rw [hphase]
          split <;> exact Phase.noConfusion
      have hstay : ∀ r : Bytes, deliver cipher db s r = s := fun r => by
        have hstep : step cipher s (.received r) = s := if_neg hwait
        rw [deliver, hstep, rounds, exec_round_of_ne hne]
      have hnone : ∀ rs : List Bytes, delivered cipher db s rs = [] ∧
          exec (deliver cipher db) s rs = s := by
        intro rs
        induction rs with
        | nil => exact ⟨rfl, rfl⟩
        | cons r rs ih =>
          have hcons : delivered cipher db s (r :: rs) =
              s.takes r ++ delivered cipher db (deliver cipher db s r) rs := rfl
          rw [hcons, exec_cons, hstay, ih.1, ih.2, Socket.takes, if_neg hwait]
          exact ⟨rfl, rfl⟩
      rw [hstay, (hnone rs).1, (hnone rs).2, Socket.takes, if_neg hwait]
      exact ⟨List.nil_prefix, fun hw => absurd hw hwait⟩

/-- What the socket has dispatched is what the stream of the delivered reads says.  These are
the first reads, and all of them while the socket waits for more, which it does as long as it is
open and nothing has stopped the parser; a malformed header closes the socket. -/
def FollowsStream (cipher : Cipher κ) (db : ℕ → Answers) (authSeed : ℕ) (rs : List Bytes) : Prop :=
  ∃ stop, Parses cipher db (.init authSeed) 0 none
      (delivered cipher db (.init authSeed) rs).flatten
      (exec (deliver cipher db) (.init authSeed) rs).dispatched stop ∧
    delivered cipher db (.init authSeed) rs <+: rs ∧
    (delivered cipher db (.init authSeed) rs ≠ rs →
      (exec (deliver cipher db) (.init authSeed) rs).phase ≠ .waiting) ∧
    ((exec (deliver cipher db) (.init authSeed) rs).phase = .waiting ↔
      stop = .more ∧ (exec (deliver cipher db) (.init authSeed) rs).peer.isOpen = true) ∧
    (stop = .malformed → (exec (deliver cipher db) (.init authSeed) rs).peer.closed = true)

/-- **The socket dispatches what the stream says**, however the stream is cut. -/
theorem followsStream (cipher : Cipher κ) (db : ℕ → Answers) (authSeed : ℕ) (rs : List Bytes)
    (hreads : ∀ r ∈ rs, r.length ≤ readBlockSize) : FollowsStream cipher db authSeed rs := by
  obtain ⟨hparsed, hpre, hall⟩ := parsed_reads hreads (parsed_init cipher db authSeed)
  rw [List.nil_append] at hparsed
  have hundelivered : delivered cipher db (.init authSeed) rs ≠ rs →
      (exec (deliver cipher db) (.init authSeed) rs).phase ≠ .waiting := fun hne hw => hne (hall hw)
  cases hparsed with
  | more hphase hready hempty hmore hparses =>
    have hl := hparses [] [] .more hmore
    rw [List.append_nil, List.append_nil] at hl
    refine ⟨.more, hl, hpre, hundelivered, ?_, Stop.noConfusion⟩
    rw [hphase]
    split
    · next hopen => exact iff_of_true rfl ⟨rfl, hopen⟩
    · next hclosed => exact iff_of_false Phase.noConfusion fun h => hclosed h.2
  | stopped stop hphase hstop hclosed hparses =>
    have hl := hparses []
    rw [List.append_nil] at hl
    exact ⟨stop, hl, hpre, hundelivered, iff_of_false hphase.1 fun h => hstop h.1, hclosed⟩

end

/-! ## A plain server

For runs on concrete inputs: there are no accounts. -/

def Answers.plain : Answers where
  remoteIp := []
  accountInfo _ := none
  gmLevel _ := none
  banned _ := false
  recruits _ := false
  worldExpansion := 2
  wardenActive := false
  worldClosed := false
  realmID := 1
  playerSecurityLimit := 0
  maxOverspeedPings := 2
  skipsOverspeedCheck := false
  steadyNow := 1
  now := 0
  uncompress _ _ := none

/-- `CMSG_PING` with a payload. -/
def pingPacket (payload : Bytes) : Bytes :=
  [0, (4 + payload.length).toUInt8, 0xDC, 0x01, 0, 0] ++ payload

/-- Two pings, cut in the middle of the first payload and in the middle of the second header. -/
theorem followsStream_pings :
    FollowsStream .plain (fun _ => .plain) 0
      [(pingPacket (List.replicate 8 0)).take 9,
        (pingPacket (List.replicate 8 0)).drop 9 ++ (pingPacket (List.replicate 8 0)).take 3,
        (pingPacket (List.replicate 8 0)).drop 3] :=
  followsStream _ _ _ _ (by decide)

/-- **Not all that a stream says is done.**  A ping before the client has authenticated closes
the socket: a second one behind it in the same read would be dispatched, one in a read of its own
is not even read. -/
theorem not_all_dispatched :
    ¬ ∃ stop, Parses .plain (fun _ => .plain) (.init 0) 0 none
        [pingPacket (List.replicate 8 0), pingPacket (List.replicate 8 0)].flatten
        (exec (deliver .plain fun _ => .plain) (.init 0)
          [pingPacket (List.replicate 8 0), pingPacket (List.replicate 8 0)]).dispatched stop := by
  rintro ⟨stop, h⟩
  have hone : (exec (deliver .plain fun _ => .plain) (.init 0)
      [pingPacket (List.replicate 8 0), pingPacket (List.replicate 8 0)]).dispatched =
        [(0x1DC, List.replicate 8 0)] := by decide +kernel
  have hboth : Parses .plain (fun _ => .plain) (.init 0) 0 none
      [pingPacket (List.replicate 8 0), pingPacket (List.replicate 8 0)].flatten
      [(0x1DC, List.replicate 8 0), (0x1DC, List.replicate 8 0)] .more := by
    refine .header (by decide) (by decide +kernel) (.call (by decide) (by rfl) ?_)
    exact .header (by decide) (by decide +kernel) (.call (by decide) (by rfl)
      (.header_more (by decide)))
  rw [hone] at h
  exact absurd (h.unique hboth).1 (by decide)

end HungerGames.World
