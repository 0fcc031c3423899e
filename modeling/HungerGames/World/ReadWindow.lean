/-
# The window a read is given (`Socket::AsyncRead`)

`AsyncRead` moves the bytes that wait to the front of the read buffer and asks for
`READ_BLOCK_SIZE` more behind them.  The storage of the buffer is of that very size, so the
window is inside it exactly when no byte waits.

The loop of the world server takes every byte before it asks for more.  The loop of the logon
server leaves a packet that is not complete where it is.
-/
import HungerGames.Auth.Bounds
import HungerGames.World.Parser

namespace HungerGames.World

open HungerGames.Lua (Bytes bytes)
open HungerGames.Auth (MessageBuffer readBlockSize)
open HungerGames.System

/-- `_readBuffer.Resize(READ_BLOCK_SIZE)` -/
def readStorageSize : ℕ := readBlockSize

/-- The window of the next read is inside the storage. -/
def WindowInside (m : MessageBuffer) : Prop := m.wpos + readBlockSize ≤ readStorageSize

instance (m : MessageBuffer) : Decidable (WindowInside m) := inferInstanceAs (Decidable (_ ≤ _))

theorem windowInside_iff {m : MessageBuffer} : WindowInside m ↔ m.wpos = 0 := by
  unfold WindowInside readStorageSize
  omega

/-! ## 1. The logon server -/

/-- After this step the logon server waits for a read, if at all, with its window inside. -/
def AuthWindow (c : Auth.Connection) (i : Auth.Input) : Prop :=
  (Auth.step c i).phase = .waiting → WindowInside (Auth.step c i).buffer

/-- When the loop asks for more bytes, none waits, or the command at the front is unknown. -/
def Emptied (c : Auth.Connection) : Auth.Input → Prop
  | .round _ => c.phase = .handling → c.front = none → c.buffer.getActiveSize = 0 ∨ c.Unknown
  | _ => True

/-- The write position of a read buffer whose windows have all been inside. -/
def AuthInside (c : Auth.Connection) : Prop :=
  c.buffer.wpos ≤ readBlockSize ∧ (c.phase = .waiting → c.buffer.wpos = 0)

/-- What waits is at the front once `AsyncRead` is called. -/
theorem wpos_asyncRead {c : Auth.Connection} (hc : c.buffer.wpos ≤ readBlockSize) :
    c.asyncRead.buffer.wpos = 0 ↔ c.buffer.getActiveSize = 0 := by
  unfold readBlockSize at hc
  simp only [Auth.Connection.asyncRead, MessageBuffer.normalize]
  split
  · next hr =>
    unfold MessageBuffer.getActiveSize
    omega
  · exact Iff.rfl

theorem wpos_dispatch (c : Auth.Connection) (w : Auth.Backend) (h : Auth.AuthHandler) :
    (c.dispatch w h).buffer.wpos = c.buffer.wpos := by
  unfold Auth.Connection.dispatch
  simp only
  split <;> simp only [MessageBuffer.wpos_readCompleted]

/-- The phase after a packet is not that of a read. -/
theorem phase_dispatch (c : Auth.Connection) (w : Auth.Backend) (h : Auth.AuthHandler) :
    (c.dispatch w h).phase ≠ .waiting := by
  unfold Auth.Connection.dispatch
  simp only
  split <;> exact Auth.Phase.noConfusion

theorem authWindow_iff {c : Auth.Connection} {i : Auth.Input} (hc : AuthInside c) :
    AuthWindow c i ↔ Emptied c i := by
  obtain ⟨hsmall, hwait⟩ := hc
  cases i with
  | received data =>
    refine iff_of_true (fun hp => ?_) trivial
    by_cases hphase : c.phase = .waiting
    · have hstep : Auth.step c (.received data) =
          { c with buffer := c.buffer.write data, phase := .handling } := if_pos hphase
      rw [hstep] at hp
      exact absurd hp Auth.Phase.noConfusion
    · have hstep : Auth.step c (.received data) = c := if_neg hphase
      rw [hstep] at hp
      exact absurd hp hphase
  | lost => exact iff_of_true (fun hp => absurd hp Auth.Phase.noConfusion) trivial
  | round w =>
    simp only [AuthWindow, Emptied, windowInside_iff]
    by_cases hphase : c.phase = .handling
    · have hstep : Auth.step c (.round w) = Auth.readHandler w c := if_pos hphase
      rw [hstep]
      rcases Auth.readHandler_cases hphase w with ⟨h, hf, hr⟩ | ⟨hf, hu, hr⟩ | ⟨hf, hu, -, hr⟩
      · rw [hr]
        refine iff_of_true (fun hp => absurd hp (phase_dispatch c w h)) fun _ hn => ?_
        rw [hf] at hn
        exact absurd hn (by simp)
      · rw [hr]
        refine iff_of_true (fun _ => ?_) fun _ _ => Or.inr hu
        exact (wpos_asyncRead (Nat.zero_le _)).mpr (MessageBuffer.getActiveSize_reset c.buffer)
      · rw [hr, wpos_asyncRead hsmall]
        exact ⟨fun h _ _ => Or.inl (h rfl), fun h _ => (h hphase hf).resolve_right hu⟩
    · have hstep : Auth.step c (.round w) = c := if_neg hphase
      rw [hstep]
      exact iff_of_true hwait fun hp => absurd hp hphase

theorem authInside_step {c : Auth.Connection} {i : Auth.Input} (hi : i.Fits) (hc : AuthInside c)
    (hw : AuthWindow c i) : AuthInside (Auth.step c i) := by
  refine ⟨?_, fun hp => windowInside_iff.mp (hw hp)⟩
  obtain ⟨hsmall, hwait⟩ := hc
  cases i with
  | received data =>
    by_cases hphase : c.phase = .waiting
    · have hstep : Auth.step c (.received data) =
          { c with buffer := c.buffer.write data, phase := .handling } := if_pos hphase
      have hdata : data.length ≤ readBlockSize := hi
      rw [hstep]
      simp only [MessageBuffer.write, hwait hphase]
      omega
    · have hstep : Auth.step c (.received data) = c := if_neg hphase
      rw [hstep]
      exact hsmall
  | lost => exact hsmall
  | round w =>
    by_cases hphase : c.phase = .handling
    · have hstep : Auth.step c (.round w) = Auth.readHandler w c := if_pos hphase
      rw [AuthWindow, hstep] at hw
      rw [hstep]
      rcases Auth.readHandler_cases hphase w with ⟨h, hf, hr⟩ | ⟨hf, hu, hr⟩ | ⟨hf, hu, -, hr⟩
      · rw [hr, wpos_dispatch]
        exact hsmall
      · rw [hr] at hw ⊢
        rw [windowInside_iff.mp (hw rfl)]
        exact Nat.zero_le _
      · rw [hr] at hw ⊢
        rw [windowInside_iff.mp (hw rfl)]
        exact Nat.zero_le _
    · have hstep : Auth.step c (.round w) = c := if_neg hphase
      rw [hstep]
      exact hsmall

/-! ## 2. The world server -/

variable {κ : Type} {cipher : Cipher κ}

/-- After this step the world server waits for a read, if at all, with its window inside. -/
def WorldWindow (cipher : Cipher κ) (s : Socket κ) (i : Input) : Prop :=
  (step cipher s i).phase = .waiting → WindowInside (step cipher s i).readBuffer

/-- While a read is waited for or handled, the buffers are in order; a read is waited for with an
empty buffer. -/
def WorldInside (s : Socket κ) : Prop :=
  (s.phase = .waiting ∨ s.phase = .handling → s.Ready) ∧
    (s.phase = .waiting → s.readBuffer.wpos = 0)

theorem worldInside_init (authSeed : ℕ) : WorldInside (Socket.init authSeed : Socket κ) := by
  refine ⟨fun _ => ⟨le_refl 0, Nat.zero_le _, rfl, Nat.zero_le _, fun h => ?_, fun _ => rfl⟩,
    fun _ => rfl⟩
  exact absurd h (Nat.succ_ne_zero 5)

theorem worldInside_step {s : Socket κ} {i : Input} (hi : i.Fits) (hs : WorldInside s) :
    WorldInside (step cipher s i) := by
  obtain ⟨hready, hwait⟩ := hs
  cases i with
  | closeSocket =>
    exact ⟨fun hp => ⟨(hready hp).1, (hready hp).2, (hready hp).3, (hready hp).4, (hready hp).5,
      (hready hp).6⟩, hwait⟩
  | delayedCloseSocket =>
    exact ⟨fun hp => ⟨(hready hp).1, (hready hp).2, (hready hp).3, (hready hp).4, (hready hp).5,
      (hready hp).6⟩, hwait⟩
  | received data =>
    by_cases hphase : s.phase = .waiting
    · have hr := hready (Or.inl hphase)
      have hdata : data.length ≤ readBlockSize := hi
      have hordered := hr.ordered
      have hstep : step cipher s (.received data) = { s with
          readBuffer := s.readBuffer.write data
          phase := if s.peer.isOpen then .handling else .idle } := if_pos hphase
      rw [hstep]
      refine ⟨fun _ => ⟨?_, ?_, hr.header, hr.fits, hr.payload, hr.moved⟩, fun hp => ?_⟩
      · simp only [MessageBuffer.write]
        omega
      · simp only [MessageBuffer.write, hwait hphase]
        omega
      · simp only at hp
        split at hp <;> exact absurd hp Phase.noConfusion
    · have hstep : step cipher s (.received data) = s := if_neg hphase
      rw [hstep]
      exact ⟨hready, hwait⟩
  | round w =>
    by_cases hphase : s.phase = .handling
    · have hstep : step cipher s (.round w) = s.readHandler cipher w := if_pos hphase
      rw [hstep]
      rcases readHandler_outcome cipher (fun _ => w) (hready (Or.inr hphase)) with
        ⟨_, hp, hr, -, -, -⟩ | ⟨hp, hr, he, -, -, -⟩ | ⟨_, _, hp, -, -, -, -⟩
      · exact ⟨fun _ => hr, fun h => by rw [hp] at h; exact absurd h Phase.noConfusion⟩
      · refine ⟨fun _ => hr, fun h => he ?_⟩
        by_contra hopen
        rw [hp, if_neg hopen] at h
        exact absurd h Phase.noConfusion
      · exact ⟨fun h => h.elim (absurd · hp.1) (absurd · hp.2), fun h => absurd h hp.1⟩
    · have hstep : step cipher s (.round w) = s := if_neg hphase
      rw [hstep]
      exact ⟨hready, hwait⟩

/-! ## 3. Both -/

/-- **The window of a read.**  That of the world server is always inside the storage; that of
the logon server is in exactly the runs in which no incomplete packet waits when the loop asks
for more bytes. -/
theorem window_iff (cipher : Cipher κ) (authSeed : ℕ) (is : List Auth.Input) (js : List Input)
    (his : ∀ i ∈ is, i.Fits) (hjs : ∀ j ∈ js, j.Fits) :
    (Along Auth.step AuthWindow Auth.Connection.init is ↔
        Along Auth.step Emptied Auth.Connection.init is) ∧
      Along (step cipher) (WorldWindow cipher) (Socket.init authSeed) js := by
  constructor
  · exact along_congr (I := AuthInside) (B := Auth.Input.Fits)
      (fun _ _ hi hc hw => authInside_step hi hc hw) (fun _ _ _ hc => authWindow_iff hc) his
      ⟨Nat.zero_le _, fun _ => rfl⟩
  · refine (along_congr (I := WorldInside) (P := fun _ _ => True) (B := Input.Fits)
      (fun _ _ hi hs _ => worldInside_step hi hs) (fun s i hi hs => ?_) hjs
      (worldInside_init authSeed)).mp ?_
    · exact iff_of_true trivial fun hp => windowInside_iff.mpr ((worldInside_step hi hs).2 hp)
    · exact along_of_forall fun _ _ => trivial

/-- A request with nothing behind it, and a ping. -/
theorem window_iff_requests :
    (Along Auth.step AuthWindow Auth.Connection.init (Auth.sends [0x32]) ↔
        Along Auth.step Emptied Auth.Connection.init (Auth.sends [0x32])) ∧
      Along (step .plain) (WorldWindow .plain) (Socket.init 0)
        [.received (pingPacket (List.replicate 8 0)), .round .plain, .round .plain] := by
  refine window_iff .plain 0 _ _ (fun i hi => ?_) fun j hj => ?_
  · rcases List.mem_cons.mp hi with rfl | hi
    · exact (by decide : [(0x32 : UInt8)].length ≤ readBlockSize)
    · rw [List.mem_singleton.mp hi]
      trivial
  · rcases List.mem_cons.mp hj with rfl | hj
    · exact (by decide : (pingPacket (List.replicate 8 0)).length ≤ readBlockSize)
    · have : j = .round .plain := by simpa using hj
      rw [this]
      trivial

/-- **The window of the logon server is not always inside.**  One byte of a proof has come: the
next read may write one byte past the storage. -/
theorem window_outside :
    ¬ Along Auth.step AuthWindow Auth.Connection.init (Auth.sends [0x01]) := by
  intro h
  exact absurd (h.2.1 (by decide)) (by decide)

end HungerGames.World
