/-
# The order of what is sent

The header of every packet is encrypted with the key stream as it stands when its turn comes, so
the client must get the packets in the order in which their headers were encrypted, and all of
them.  The buffer and the queue see to that, with one exception: `HandleQueue` takes the packet
at the front of the queue away when `write_some` fails, or accepts nothing, and the socket stays
open.  `WriteHandler` keeps what is in the buffer on the same outcomes.
-/
import HungerGames.World.Outgoing

namespace HungerGames.World.Outgoing

open HungerGames.Lua (Bytes)
open HungerGames.System

variable {κ : Type}

/-- What the kernel has accepted is a beginning of the packets, in the order in which their
headers were encrypted, and what comes next is what waits. -/
def Lossless (s : Outgoing κ) : Prop :=
  s.accepted <+: s.encrypted.flatten ∧ s.accepted ++ s.pending = s.encrypted.flatten

/-- While the socket is open, nothing is lost, repeated or out of order after this step. -/
def SentInOrder (cipher : Cipher κ) (s : Outgoing κ) (i : Input) : Prop :=
  (step cipher s i).isOpen = true → (step cipher s i).Lossless

/-- No packet is taken away from the queue at this step before it has been written. -/
def KeepsQueue (s : Outgoing κ) : Input → Prop
  | .round o o' => s.updating = true → ¬ s.Loses o o'
  | .wrapper o o' => s.isWritingAsync = true → s.updating = false → ¬ s.Loses o o'
  | _ => True

/-- All that has been encrypted is sent, or waits. -/
structure Complete (s : Outgoing κ) : Prop where
  ordered : s.Ordered
  all : s.sent = s.encrypted.flatten

variable {s : Outgoing κ}

theorem Complete.lossless (hs : s.Complete) : s.Lossless :=
  ⟨⟨s.pending, hs.all⟩, hs.all⟩

theorem complete_init : (init : Outgoing κ).Complete := by
  refine ⟨⟨Nat.zero_le _, fun m hm => ?_⟩, rfl⟩
  exact absurd hm List.not_mem_nil

/-- A write that drops nothing. -/
theorem Complete.writeHandler (hs : s.Complete) {o o' : WriteSome} (hkeeps : ¬ s.Loses o o') :
    (s.writeHandler o o').1.Complete := by
  obtain ⟨hframe, hordered, hlossless, -⟩ := writeHandler_spec hs.ordered o o'
  refine ⟨hordered, ?_⟩
  rw [hlossless hkeeps, hframe.encrypted]
  exact hs.all

/-- A write that drops a packet, on a socket that stays open. -/
theorem Complete.not_lossless (hs : s.Complete) {o o' : WriteSome} (hloses : s.Loses o o') :
    (s.writeHandler o o').1.isOpen = true ∧ ¬ (s.writeHandler o o').1.Lossless := by
  obtain ⟨hframe, -, -, hlost⟩ := writeHandler_spec hs.ordered o o'
  refine ⟨hframe.isOpen.trans hloses.1, ?_⟩
  rintro ⟨-, hall⟩
  have hshorter := hlost hloses
  rw [hs.all, ← hframe.encrypted, ← hall] at hshorter
  exact Nat.lt_irrefl _ hshorter

theorem Complete.enqueue {cipher : Cipher κ} (hs : s.Complete) (p : Outbound) :
    (s.enqueue cipher p).Complete := by
  obtain ⟨hordered, hpending, haccepted, hencrypted⟩ := enqueue_spec cipher hs.ordered p
  refine ⟨hordered, ?_⟩
  have hall := hs.all
  unfold sent at hall ⊢
  rw [hpending, haccepted, hencrypted, ← List.append_assoc, hall, List.flatten_append,
    List.flatten_singleton]

/-- **A step** that keeps the queue keeps everything complete. -/
theorem complete_step {cipher : Cipher κ} {i : Input} (hs : s.Complete) (hkeeps : KeepsQueue s i) :
    (step cipher s i).Complete := by
  cases i with
  | init k => exact ⟨⟨hs.ordered.buffer, hs.ordered.queue⟩, hs.all⟩
  | sendPacket p =>
    unfold step
    simp only
    split
    · exact ⟨⟨hs.ordered.buffer, hs.ordered.queue⟩, hs.all⟩
    · exact hs
  | enqueue i =>
    unfold step
    simp only
    split
    · exact hs
    · split
      · exact hs
      · next p _ =>
        have hwaits : Complete { s with senders := s.senders.eraseIdx i } :=
          ⟨⟨hs.ordered.buffer, hs.ordered.queue⟩, hs.all⟩
        exact hwaits.enqueue p
  | update =>
    unfold step
    simp only
    split
    · exact hs
    · exact ⟨⟨hs.ordered.buffer, hs.ordered.queue⟩, hs.all⟩
  | round o o' =>
    unfold step
    simp only
    split
    · next hupdating =>
      have hnew := hs.writeHandler (hkeeps hupdating)
      exact ⟨⟨hnew.ordered.buffer, hnew.ordered.queue⟩, hnew.all⟩
    · exact hs
  | wrapper o o' =>
    unfold step
    simp only
    split
    · next hwaits =>
      have hready : Complete { s with isWritingAsync := false } :=
        ⟨⟨hs.ordered.buffer, hs.ordered.queue⟩, hs.all⟩
      exact hready.writeHandler (hkeeps hwaits.1 hwaits.2)
    · exact hs
  | closeSocket => exact ⟨⟨hs.ordered.buffer, hs.ordered.queue⟩, hs.all⟩
  | delayedCloseSocket => exact ⟨⟨hs.ordered.buffer, hs.ordered.queue⟩, hs.all⟩

theorem sentInOrder_iff {cipher : Cipher κ} {i : Input} (hs : s.Complete) :
    SentInOrder cipher s i ↔ KeepsQueue s i := by
  constructor
  · intro horder
    cases i with
    | round o o' =>
      intro hupdating hloses
      obtain ⟨hopen, hlost⟩ := hs.not_lossless hloses
      have hstep : step cipher s (.round o o') =
          { (s.writeHandler o o').1 with updating := (s.writeHandler o o').2 } := if_pos hupdating
      rw [SentInOrder, hstep] at horder
      exact hlost (horder hopen)
    | wrapper o o' =>
      intro hwaits hupdating hloses
      have hready : Complete { s with isWritingAsync := false } :=
        ⟨⟨hs.ordered.buffer, hs.ordered.queue⟩, hs.all⟩
      obtain ⟨hopen, hlost⟩ := hready.not_lossless hloses
      have hstep : step cipher s (.wrapper o o') =
          ({ s with isWritingAsync := false }.writeHandler o o').1 := if_pos ⟨hwaits, hupdating⟩
      rw [SentInOrder, hstep] at horder
      exact hlost (horder hopen)
    | _ => trivial
  · exact fun hkeeps _ => (complete_step hs hkeeps).lossless

/-- **Sending is in order and lossless** in exactly the runs in which no write from the queue
fails, or accepts nothing, while the socket is open. -/
theorem sentInOrder_iff_keepsQueue (cipher : Cipher κ) (is : List Input) :
    Along (step cipher) (SentInOrder cipher) init is ↔ Along (step cipher) KeepsQueue init is :=
  along_congr (I := Complete) (B := fun _ => True)
    (fun _ _ _ hs horder => complete_step hs ((sentInOrder_iff hs).mp horder))
    (fun _ _ _ hs => sentInOrder_iff hs) (fun _ _ => trivial) complete_init

/-- A packet of 4096 bytes, with its header, does not fit the write buffer. -/
def queued : Outbound := ⟨0x1DD, List.replicate 4096 0⟩

/-- **A packet is lost.**  The write of a queued packet fails with another error than
`would_block`; what the kernel accepts next are the bytes of the packet behind it. -/
theorem packet_lost :
    ¬ Along (step .plain) (SentInOrder .plain) init
      [.sendPacket queued, .enqueue 0, .update, .round (.written 0) .error,
        .sendPacket ⟨0x1DD, []⟩, .enqueue 0, .update, .round (.written 4) .wouldBlock] := by
  intro h
  have hlast := h.2.2.2.2.2.2.2.1 (by decide +kernel)
  exact absurd hlast.1 (by decide +kernel)

end HungerGames.World.Outgoing
