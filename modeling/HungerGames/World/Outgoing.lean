/-
# Sending packets (`WorldSocket::SendPacket`, and the write half of `Socket.h`)

A packet goes into the write buffer when there is room and nothing is queued, else into the
queue.  Both are written out, the buffer first, by the loop of `Update` and by the completion of
the wait that a write which could not be finished starts.

Threads meet at the write lock, so a step is what one thread does while it has the lock, or
between two uses of it: `SendPacket` looks whether the socket is open before it asks for the
lock, and `Update` keeps the lock while it goes round its loop.  Closing a socket takes no lock
and can come in between any two steps.

What the kernel has accepted is written down, and so is each packet when its header has been
encrypted; no function of the source reads either.
-/
import HungerGames.System.Run
import HungerGames.World.AuthCrypt
import Mathlib.Algebra.Group.Nat.Defs

namespace HungerGames.World

open HungerGames.Lua (Bytes)
open HungerGames.System

/-! ## 1. Packets -/

/-- `ServerPktHeader`: the size with its high byte first, in three bytes when it is large, and
the opcode with its low byte first. -/
def serverPktHeader (size cmd : ℕ) : Bytes :=
  (if 0x7FFF < size then [(0x80 : UInt8) ||| UInt8.ofNat (size >>> 16)] else []) ++
    [UInt8.ofNat (size >>> 8), UInt8.ofNat size, UInt8.ofNat cmd, UInt8.ofNat (cmd >>> 8)]

/-- A packet to be sent. -/
structure Outbound where
  opcode : ℕ
  payload : Bytes
deriving DecidableEq

/-- The header before it is encrypted; its size is a `uint32`. -/
def Outbound.header (p : Outbound) : Bytes :=
  serverPktHeader ((p.payload.length + 2) % 2 ^ 32) p.opcode

theorem length_header_pos (p : Outbound) : 0 < p.header.length := by
  unfold Outbound.header serverPktHeader
  split <;> simp

section

variable {κ : Type} (cipher : Cipher κ)

/-- The packet as it goes out, and the cipher behind it. -/
def encrypt (crypt : Option (AuthCrypt κ)) (p : Outbound) : Bytes × Option (AuthCrypt κ) :=
  ((encryptSend cipher crypt p.header).1 ++ p.payload, (encryptSend cipher crypt p.header).2)

theorem length_encrypt_pos (cipher : Cipher κ) (crypt : Option (AuthCrypt κ)) (p : Outbound) :
    0 < (encrypt cipher crypt p).1.length := by
  have := length_header_pos p
  simp only [encrypt, List.length_append, length_encryptSend]
  omega

end

/-! ## 2. Buffers -/

/-- A `MessageBuffer` that is written behind and read in front: the size of its storage, the bytes
before its write position, and how many of them have been read. -/
structure OutBuffer where
  size : ℕ
  filled : Bytes
  rpos : ℕ
deriving DecidableEq

namespace OutBuffer

/-- `MessageBuffer(initialSize)` -/
def ofSize (initialSize : ℕ) : OutBuffer := ⟨initialSize, [], 0⟩

def getActiveSize (m : OutBuffer) : ℕ := m.filled.length - m.rpos

def getRemainingSpace (m : OutBuffer) : ℕ := m.size - m.filled.length

def write (m : OutBuffer) (data : Bytes) : OutBuffer := { m with filled := m.filled ++ data }

def readCompleted (m : OutBuffer) (bytes : ℕ) : OutBuffer := { m with rpos := m.rpos + bytes }

def normalize (m : OutBuffer) : OutBuffer := { m with filled := m.filled.drop m.rpos, rpos := 0 }

def reset (m : OutBuffer) : OutBuffer := { m with filled := [], rpos := 0 }

/-- The bytes from `GetReadPointer()` on. -/
def unread (m : OutBuffer) : Bytes := m.filled.drop m.rpos

@[simp] theorem length_unread (m : OutBuffer) : m.unread.length = m.getActiveSize :=
  List.length_drop

@[simp] theorem unread_reset (m : OutBuffer) : m.reset.unread = [] := rfl

@[simp] theorem unread_readCompleted (m : OutBuffer) (n : ℕ) :
    (m.readCompleted n).unread = m.unread.drop n := List.drop_drop.symm

/-- Nothing has been read that was not written. -/
def Sound (m : OutBuffer) : Prop := m.rpos ≤ m.filled.length

theorem unread_write {m : OutBuffer} (hm : m.Sound) (data : Bytes) :
    (m.write data).unread = m.unread ++ data := List.drop_append_of_le_length hm

theorem Sound.write {m : OutBuffer} (hm : m.Sound) (data : Bytes) : (m.write data).Sound := by
  have : (m.write data).filled.length = m.filled.length + data.length := List.length_append
  unfold Sound at hm ⊢
  have hr : (m.write data).rpos = m.rpos := rfl
  omega

end OutBuffer

/-! ## 3. The build without I/O completion ports -/

/-- What `write_some` comes to. -/
inductive WriteSome where
  /-- so many bytes are accepted, or all there are -/
  | written (n : ℕ)
  /-- `would_block`, `try_again` -/
  | wouldBlock
  /-- another error -/
  | error
deriving DecidableEq

/-- The write half of a socket. -/
structure Outgoing (κ : Type) where
  authCrypt : Option (AuthCrypt κ)
  writeBuffer : OutBuffer
  writeQueue : List OutBuffer
  isWritingAsync : Bool
  closed : Bool
  closing : Bool
  /-- inside `SendPacket`, before the lock -/
  senders : List Outbound
  /-- `Update` is in its loop, with the lock -/
  updating : Bool
  accepted : Bytes
  encrypted : List Bytes

namespace Outgoing

variable {κ : Type}

def init : Outgoing κ where
  authCrypt := none
  writeBuffer := .ofSize 4096
  writeQueue := []
  isWritingAsync := false
  closed := false
  closing := false
  senders := []
  updating := false
  accepted := []
  encrypted := []

/-- `IsOpen()` -/
def isOpen (s : Outgoing κ) : Bool := !s.closed && !s.closing

/-- `AsyncProcessQueue`: a wait until the socket can be written to. -/
def asyncProcessQueue (s : Outgoing κ) : Outgoing κ := { s with isWritingAsync := true }

/-- The locked part of `SendPacket`. -/
def enqueue (cipher : Cipher κ) (s : Outgoing κ) (p : Outbound) : Outgoing κ :=
  let r := encrypt cipher s.authCrypt p
  let s := { s with authCrypt := r.2, encrypted := s.encrypted ++ [r.1] }
  let size := p.header.length + p.payload.length
  if s.writeQueue = [] ∧ size ≤ s.writeBuffer.getRemainingSpace then
    { s with writeBuffer := s.writeBuffer.write r.1 }
  else { s with writeQueue := s.writeQueue ++ [(OutBuffer.ofSize size).write r.1] }

/-- `HandleQueue`, and what it returns. -/
def handleQueue (o : WriteSome) (s : Outgoing κ) : Outgoing κ × Bool :=
  match s.writeQueue with
  | [] => (s, false)
  | queuedMessage :: queue =>
    match o with
    | .wouldBlock => (s.asyncProcessQueue, false)
    | .error => ({ s with writeQueue := queue }, false)
    | .written n =>
      let bytesToSend := queuedMessage.getActiveSize
      let bytesSent := min bytesToSend n
      let s := { s with accepted := s.accepted ++ queuedMessage.unread.take bytesSent }
      if bytesSent = 0 then ({ s with writeQueue := queue }, false)
      else if bytesSent < bytesToSend then
        ({ s with writeQueue := queuedMessage.readCompleted bytesSent :: queue }.asyncProcessQueue,
          false)
      else ({ s with writeQueue := queue }, !queue.isEmpty)

/-- `WriteHandler`, and what it returns; `o` is the outcome for the buffer, `o'` for the queue. -/
def writeHandler (o o' : WriteSome) (s : Outgoing κ) : Outgoing κ × Bool :=
  if s.isOpen = false then (s, false)
  else
    let bytesToSend := s.writeBuffer.getActiveSize
    if bytesToSend = 0 then s.handleQueue o'
    else match o with
      | .wouldBlock => (s.asyncProcessQueue, false)
      | .error => (s, false)
      | .written n =>
        let bytesWritten := min bytesToSend n
        let s := { s with accepted := s.accepted ++ s.writeBuffer.unread.take bytesWritten }
        if bytesWritten = 0 then (s, false)
        else if bytesWritten < bytesToSend then
          ({ s with writeBuffer := (s.writeBuffer.readCompleted bytesWritten).normalize
            }.asyncProcessQueue, false)
        else { s with writeBuffer := s.writeBuffer.reset }.handleQueue o'

/-- What happens to the write half. -/
inductive Input where
  /-- `AuthCrypt::Init(K)` -/
  | init (k : ℕ)
  /-- `SendPacket` up to the lock -/
  | sendPacket (p : Outbound)
  /-- one of the senders gets the lock -/
  | enqueue (i : ℕ)
  /-- `Update` up to its loop -/
  | update
  /-- once round the loop of `Update` -/
  | round (o o' : WriteSome)
  /-- the wait is over: `WriteHandlerWrapper` -/
  | wrapper (o o' : WriteSome)
  | closeSocket
  | delayedCloseSocket
deriving DecidableEq

def step (cipher : Cipher κ) (s : Outgoing κ) : Input → Outgoing κ
  | .init k => { s with authCrypt := some (cipher.init k) }
  | .sendPacket p => if s.isOpen then { s with senders := s.senders ++ [p] } else s
  | .enqueue i =>
    if s.updating then s
    else match s.senders[i]? with
      | none => s
      | some p => { s with senders := s.senders.eraseIdx i }.enqueue cipher p
  | .update =>
    if s.isOpen = false ∨ s.updating ∨ s.isWritingAsync ∨
        s.writeBuffer.getActiveSize = 0 ∧ s.writeQueue = [] then s
    else { s with updating := true }
  | .round o o' =>
    if s.updating then { (s.writeHandler o o').1 with updating := (s.writeHandler o o').2 } else s
  | .wrapper o o' =>
    if s.isWritingAsync = true ∧ s.updating = false then
      ({ s with isWritingAsync := false }.writeHandler o o').1
    else s
  | .closeSocket => { s with closed := true }
  | .delayedCloseSocket => { s with closing := true }

/-- The bytes that have not been accepted yet, in the order in which they are written. -/
def pending (s : Outgoing κ) : Bytes :=
  s.writeBuffer.unread ++ (s.writeQueue.map OutBuffer.unread).flatten

/-! ## 4. What a write does -/

/-- The bytes written so far, and those that wait. -/
def sent (s : Outgoing κ) : Bytes := s.accepted ++ s.pending

/-- The buffers are in order. -/
structure Ordered (s : Outgoing κ) : Prop where
  buffer : s.writeBuffer.Sound
  queue : ∀ m ∈ s.writeQueue, m.Sound ∧ 0 < m.getActiveSize

/-- A write leaves everything but the buffers, the wait and what is accepted as it is. -/
structure SameBut (s s' : Outgoing κ) : Prop where
  closed : s'.closed = s.closed
  closing : s'.closing = s.closing
  senders : s'.senders = s.senders
  encrypted : s'.encrypted = s.encrypted

theorem SameBut.refl (s : Outgoing κ) : SameBut s s := ⟨rfl, rfl, rfl, rfl⟩

theorem SameBut.trans {s t u : Outgoing κ} (h : SameBut s t) (h' : SameBut t u) : SameBut s u :=
  ⟨h'.closed.trans h.closed, h'.closing.trans h.closing, h'.senders.trans h.senders,
    h'.encrypted.trans h.encrypted⟩

theorem SameBut.isOpen {s s' : Outgoing κ} (h : SameBut s s') : s'.isOpen = s.isOpen := by
  rw [Outgoing.isOpen, Outgoing.isOpen, h.closed, h.closing]

end Outgoing

/-- Nothing is accepted, and it is not for want of room. -/
def WriteSome.Refuses : WriteSome → Prop
  | .written n => n = 0
  | .wouldBlock => False
  | .error => True

instance : (o : WriteSome) → Decidable o.Refuses
  | .written n => inferInstanceAs (Decidable (n = 0))
  | .wouldBlock => isFalse id
  | .error => isTrue trivial

/-- After this outcome nothing is left of `size` bytes. -/
def WriteSome.Empties (size : ℕ) : WriteSome → Prop
  | .written n => size ≤ n
  | _ => size = 0

namespace Outgoing

variable {κ : Type}

/-- **A write from the queue**, the buffer empty, drops the packet at the front when nothing is
accepted of it. -/
theorem handleQueue_spec {s : Outgoing κ} (hs : s.Ordered) (hempty : s.writeBuffer.unread = [])
    (o : WriteSome) :
    SameBut s (s.handleQueue o).1 ∧ (s.handleQueue o).1.Ordered ∧
      (¬ (s.writeQueue ≠ [] ∧ o.Refuses) → (s.handleQueue o).1.sent = s.sent) ∧
      (s.writeQueue ≠ [] ∧ o.Refuses → (s.handleQueue o).1.sent.length < s.sent.length) := by
  unfold handleQueue
  cases hqueue : s.writeQueue with
  | nil => exact ⟨.refl s, hs, fun _ => rfl, fun h => absurd rfl h.1⟩
  | cons queuedMessage queue =>
    have hfront := hs.queue queuedMessage (hqueue ▸ List.mem_cons_self)
    have hqueues : ∀ m ∈ queue, m.Sound ∧ 0 < m.getActiveSize := fun m hm =>
      hs.queue m (hqueue ▸ List.mem_cons_of_mem _ hm)
    have hlength := queuedMessage.length_unread
    have hsent : s.sent = s.accepted ++ (queuedMessage.unread ++
        (queue.map OutBuffer.unread).flatten) := by
      rw [sent, pending, hempty, hqueue, List.map_cons, List.flatten_cons, List.nil_append]
    have hdropped : ∀ s' : Outgoing κ, s'.accepted = s.accepted →
        s'.writeBuffer = s.writeBuffer → s'.writeQueue = queue →
          s'.sent.length < s.sent.length := by
      intro s' haccepted hbuffer hqueue'
      rw [hsent, sent, pending, haccepted, hbuffer, hqueue', hempty]
      simp only [List.length_append, List.length_nil]
      omega
    cases o with
    | wouldBlock =>
      exact ⟨⟨rfl, rfl, rfl, rfl⟩, ⟨hs.buffer, hs.queue⟩, fun _ => rfl, fun h => h.2.elim⟩
    | error =>
      exact ⟨⟨rfl, rfl, rfl, rfl⟩, ⟨hs.buffer, hqueues⟩,
        fun h => absurd ⟨List.cons_ne_nil _ _, trivial⟩ h, fun _ => hdropped _ rfl rfl rfl⟩
    | written n =>
      simp only
      by_cases hnone : min queuedMessage.getActiveSize n = 0
      · have hn : n = 0 := by omega
        rw [if_pos hnone, hnone, List.take_zero, List.append_nil]
        exact ⟨⟨rfl, rfl, rfl, rfl⟩, ⟨hs.buffer, hqueues⟩,
          fun h => absurd ⟨List.cons_ne_nil _ _, hn⟩ h, fun _ => hdropped _ rfl rfl rfl⟩
      · have hn : ¬ n = 0 := fun h => hnone (by rw [h, Nat.min_zero])
        rw [if_neg hnone]
        generalize hbytes : min queuedMessage.getActiveSize n = bytesSent at hnone ⊢
        by_cases hpart : bytesSent < queuedMessage.getActiveSize
        · rw [if_pos hpart]
          refine ⟨⟨rfl, rfl, rfl, rfl⟩, ⟨hs.buffer, ?_⟩, fun _ => ?_, fun h => absurd h.2 hn⟩
          · intro m hm
            rcases List.mem_cons.mp hm with rfl | hm
            · unfold OutBuffer.Sound OutBuffer.getActiveSize OutBuffer.readCompleted at *
              exact ⟨by simp only; omega, by simp only; omega⟩
            · exact hqueues m hm
          · have hafter : ∀ s' : Outgoing κ,
                s'.accepted = s.accepted ++ queuedMessage.unread.take bytesSent →
                  s'.writeBuffer = s.writeBuffer →
                    s'.writeQueue = queuedMessage.readCompleted bytesSent :: queue →
                      s'.sent = s.sent := by
              intro s' haccepted hbuffer hqueue'
              rw [hsent, sent, pending, haccepted, hbuffer, hqueue', hempty, List.map_cons,
                List.flatten_cons, OutBuffer.unread_readCompleted, List.nil_append,
                List.append_assoc, ← List.append_assoc (List.take _ _), List.take_append_drop]
            exact hafter _ rfl rfl rfl
        · rw [if_neg hpart]
          refine ⟨⟨rfl, rfl, rfl, rfl⟩, ⟨hs.buffer, hqueues⟩, fun _ => ?_,
            fun h => absurd h.2 hn⟩
          have hafter : ∀ s' : Outgoing κ,
              s'.accepted = s.accepted ++ queuedMessage.unread.take bytesSent →
                s'.writeBuffer = s.writeBuffer → s'.writeQueue = queue → s'.sent = s.sent := by
            intro s' haccepted hbuffer hqueue'
            rw [hsent, sent, pending, haccepted, hbuffer, hqueue', hempty, List.nil_append,
              List.take_of_length_le (by omega), List.append_assoc]
          exact hafter _ rfl rfl rfl

/-- The packet at the front of the queue is dropped: its turn has come, and the kernel takes
nothing of it. -/
def Loses (s : Outgoing κ) (o o' : WriteSome) : Prop :=
  s.isOpen = true ∧ s.writeQueue ≠ [] ∧ o.Empties s.writeBuffer.getActiveSize ∧ o'.Refuses

/-- **`WriteHandler`** writes the pending bytes in their order, or drops a packet. -/
theorem writeHandler_spec {s : Outgoing κ} (hs : s.Ordered) (o o' : WriteSome) :
    SameBut s (s.writeHandler o o').1 ∧ (s.writeHandler o o').1.Ordered ∧
      (¬ s.Loses o o' → (s.writeHandler o o').1.sent = s.sent) ∧
      (s.Loses o o' → (s.writeHandler o o').1.sent.length < s.sent.length) := by
  have hlength := s.writeBuffer.length_unread
  unfold writeHandler
  by_cases hclosed : s.isOpen = false
  · rw [if_pos hclosed]
    refine ⟨.refl s, hs, fun _ => rfl, fun h => ?_⟩
    rw [h.1] at hclosed
    exact absurd hclosed (by decide)
  rw [if_neg hclosed]
  have hopen : s.isOpen = true := by simpa using hclosed
  by_cases hempty : s.writeBuffer.getActiveSize = 0
  · have hloses : s.Loses o o' ↔ s.writeQueue ≠ [] ∧ o'.Refuses := by
      have hempties : o.Empties s.writeBuffer.getActiveSize := by
        rw [hempty]
        cases o with
        | written n => exact Nat.zero_le n
        | wouldBlock => rfl
        | error => rfl
      exact ⟨fun h => ⟨h.2.1, h.2.2.2⟩, fun h => ⟨hopen, h.1, hempties, h.2⟩⟩
    rw [hloses]
    simp only [if_pos hempty]
    exact handleQueue_spec hs (List.length_eq_zero_iff.mp (hlength.trans hempty)) o'
  · simp only [if_neg hempty]
    cases o with
    | wouldBlock =>
      exact ⟨⟨rfl, rfl, rfl, rfl⟩, ⟨hs.buffer, hs.queue⟩, fun _ => rfl,
        fun h => absurd h.2.2.1 hempty⟩
    | error => exact ⟨.refl s, hs, fun _ => rfl, fun h => absurd h.2.2.1 hempty⟩
    | written n =>
      have hloses : s.Loses (.written n) o' → s.writeBuffer.getActiveSize ≤ n := fun h => h.2.2.1
      simp only
      generalize hbytes : min s.writeBuffer.getActiveSize n = bytesWritten
      by_cases hnone : bytesWritten = 0
      · rw [if_pos hnone, hnone, List.take_zero, List.append_nil]
        refine ⟨.refl s, hs, fun _ => rfl, fun h => ?_⟩
        have := hloses h
        omega
      rw [if_neg hnone]
      by_cases hpart : bytesWritten < s.writeBuffer.getActiveSize
      · rw [if_pos hpart]
        refine ⟨⟨rfl, rfl, rfl, rfl⟩, ⟨Nat.zero_le _, hs.queue⟩, fun _ => ?_, fun h => ?_⟩
        · have hafter : ∀ s' : Outgoing κ,
              s'.accepted = s.accepted ++ s.writeBuffer.unread.take bytesWritten →
                s'.writeBuffer.unread = s.writeBuffer.unread.drop bytesWritten →
                  s'.writeQueue = s.writeQueue → s'.sent = s.sent := by
            intro s' haccepted hbuffer hqueue
            rw [sent, sent, pending, pending, haccepted, hbuffer, hqueue, List.append_assoc,
              ← List.append_assoc (List.take _ _), List.take_append_drop]
          exact hafter _ rfl (OutBuffer.unread_readCompleted _ _) rfl
        · have := hloses h
          omega
      · rw [if_neg hpart]
        have hall : s.writeBuffer.getActiveSize ≤ n := by omega
        obtain ⟨hframe, hkept, hlossless, hlost⟩ := handleQueue_spec (s := { s with
            accepted := s.accepted ++ s.writeBuffer.unread.take bytesWritten
            writeBuffer := s.writeBuffer.reset }) ⟨Nat.zero_le _, hs.queue⟩ rfl o'
        have hsent : sent { s with
            accepted := s.accepted ++ s.writeBuffer.unread.take bytesWritten
            writeBuffer := s.writeBuffer.reset } = s.sent := by
          rw [sent, sent, pending, pending, OutBuffer.unread_reset, List.nil_append,
            List.take_of_length_le (by omega), List.append_assoc]
        rw [hsent] at hlossless hlost
        have hsame : SameBut s { s with
            accepted := s.accepted ++ s.writeBuffer.unread.take bytesWritten
            writeBuffer := s.writeBuffer.reset } := ⟨rfl, rfl, rfl, rfl⟩
        exact ⟨hsame.trans hframe, hkept,
          fun h => hlossless fun hq => h ⟨hopen, hq.1, hall, hq.2⟩,
          fun h => hlost ⟨h.2.1, h.2.2.2⟩⟩

/-- **The locked part of `SendPacket`** puts the packet behind what waits. -/
theorem enqueue_spec (cipher : Cipher κ) {s : Outgoing κ} (hs : s.Ordered) (p : Outbound) :
    (s.enqueue cipher p).Ordered ∧
      (s.enqueue cipher p).pending = s.pending ++ (encrypt cipher s.authCrypt p).1 ∧
      (s.enqueue cipher p).accepted = s.accepted ∧
      (s.enqueue cipher p).encrypted = s.encrypted ++ [(encrypt cipher s.authCrypt p).1] := by
  have hpos := length_encrypt_pos cipher s.authCrypt p
  unfold enqueue
  simp only
  generalize encrypt cipher s.authCrypt p = r at hpos ⊢
  split
  · next hfits =>
    refine ⟨⟨hs.buffer.write r.1, hs.queue⟩, ?_, rfl, rfl⟩
    rw [pending, pending, OutBuffer.unread_write hs.buffer, hfits.1]
    simp
  · refine ⟨⟨hs.buffer, fun m hm => ?_⟩, ?_, rfl, rfl⟩
    · rcases List.mem_append.mp hm with hm | hm
      · exact hs.queue m hm
      · rw [List.mem_singleton.mp hm]
        exact ⟨Nat.zero_le _, by simpa [OutBuffer.getActiveSize, OutBuffer.write, OutBuffer.ofSize] using hpos⟩
    · rw [pending, pending, List.map_append, List.flatten_append, List.append_assoc]
      simp [OutBuffer.unread, OutBuffer.write, OutBuffer.ofSize]

end Outgoing

end HungerGames.World
