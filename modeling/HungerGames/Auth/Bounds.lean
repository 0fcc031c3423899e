/-
# What a handler may read of the buffer

`ReadHandler` knows how long a packet is and hands the handler the read position.  What the
handler reads from there on is its own affair: `FieldsWithin` says how far its fields reach, for
each command, and `handle_congr` that the handler indeed looks no further; `StringsWithin` is
about the C strings among the fields, which end where their `0` is.

The bytes received for a packet are the bytes of its size, and those the handler takes itself
behind them.  Three lengths decide whether the handler stays inside: the size a challenge
declares, the length of the name in it, and the length of the token behind a proof.
-/
import HungerGames.Auth.Connection

namespace HungerGames.Auth

open HungerGames.Lua (Bytes bytes)
open HungerGames.System
open BigNumber

/-! ## 1. How far a handler reads -/

/-- A C string that starts at `i` ends before `n`. -/
def MessageBuffer.EndsWithin (m : MessageBuffer) (i n : ℕ) : Prop :=
  ∃ j < n, i ≤ j ∧ m.byteAt j = 0

/-- `I_len` -/
def MessageBuffer.nameLength (m : MessageBuffer) : ℕ := (m.byteAt 33).toNat

/-- The proof at the front is right. -/
def ProofRight (session : Session) (m : MessageBuffer) : Prop :=
  session.expversion ≠ .noValid ∧ isZero (readProof m).A = false ∧
    (asByteArray (expectedProof session (readProof m).A) 20).take 20 = (readProof m).M1

/-- The proof at the front is right, and the handler asks for a token. -/
def TokenDue (session : Session) (m : MessageBuffer) : Prop :=
  ProofRight session m ∧ ((readProof m).securityFlags &&& 0x04 ≠ 0 ∨ session.tokenKey ≠ [])

instance (session : Session) (m : MessageBuffer) : Decidable (ProofRight session m) :=
  inferInstanceAs (Decidable (_ ∧ _ ∧ _))

instance (session : Session) (m : MessageBuffer) : Decidable (TokenDue session m) :=
  inferInstanceAs (Decidable (_ ∧ _))

/-- The fields the handler reads are among the first `n` bytes at the front. -/
def Command.FieldsWithin (session : Session) (m : MessageBuffer) (n : ℕ) : Command → Prop
  | .logonChallenge | .reconnectChallenge => 34 + m.nameLength ≤ n
  | .logonProof =>
    (session.expversion ≠ .noValid → sizeofLogonProof ≤ n) ∧
      (TokenDue session m → sizeofLogonProof + 1 + (m.byteAt sizeofLogonProof).toNat ≤ n)
  | .reconnectProof => 37 ≤ n
  | .realmList | .xferAccept | .xferResume | .xferCancel => True

/-- The C strings the handler reads end among the first `n` bytes: `os`, and `I`, which is
read as one when the logger takes debug messages. -/
def Command.StringsWithin (logs : Bool) (w : Backend) (m : MessageBuffer) (n : ℕ) :
    Command → Prop
  | .logonChallenge => m.EndsWithin 17 n ∧ (logs = true → m.EndsWithin 34 n)
  | .reconnectChallenge =>
    ((w.sessionKey (readChallenge m).login).isSome = true → m.EndsWithin 17 n) ∧
      (logs = true → m.EndsWithin 34 n)
  | _ => True

/-! ## 2. It looks no further -/

section Congr

variable {m m' : MessageBuffer} {n : ℕ}

section

variable (hm : ∀ i < n, m.byteAt i = m'.byteAt i)
include hm

theorem bytesAt_congr {i len : ℕ} (hlen : i + len ≤ n) : m.bytesAt i len = m'.bytesAt i len := by
  refine List.map_congr_left fun k hk => hm k ?_
  have := List.mem_range'_1.mp hk
  omega

theorem uint16At_congr {i : ℕ} (hi : i + 2 ≤ n) : m.uint16At i = m'.uint16At i := by
  unfold MessageBuffer.uint16At
  rw [hm i (by omega), hm (i + 1) (by omega)]

theorem readChallenge_congr (hname : 34 + m.nameLength ≤ n) :
    readChallenge m = readChallenge m' := by
  have h33 : m.byteAt 33 = m'.byteAt 33 := hm 33 (by omega)
  have hlogin : m.bytesAt 34 (m.byteAt 33).toNat = m'.bytesAt 34 (m.byteAt 33).toNat :=
    bytesAt_congr hm hname
  unfold readChallenge
  rw [hlogin, h33, uint16At_congr hm (by omega : 11 + 2 ≤ n),
    bytesAt_congr hm (by omega : 17 + 5 ≤ n), bytesAt_congr hm (by omega : 21 + 4 ≤ n)]

theorem readProof_congr (hn : sizeofLogonProof ≤ n) : readProof m = readProof m' := by
  unfold sizeofLogonProof at hn
  unfold readProof
  rw [bytesAt_congr hm (by omega : 1 + 32 ≤ n), bytesAt_congr hm (by omega : 33 + 20 ≤ n),
    hm 74 (by omega)]

theorem readToken_congr (hn : sizeofLogonProof + 1 + (m.byteAt sizeofLogonProof).toNat ≤ n) :
    readToken m = readToken m' := by
  unfold readToken
  rw [bytesAt_congr hm hn, hm sizeofLogonProof (by omega)]

end

/-- A proof for which no token is asked: the handler is done with the structure. -/
theorem handleLogonProof_of_not_tokenDue {session : Session} (w : Backend)
    (hdue : ¬ TokenDue session m) (hp : readProof m = readProof m') :
    handleLogonProof w session m = handleLogonProof w session m' ∧
      (handleLogonProof w session m).consumed = 0 := by
  unfold TokenDue ProofRight at hdue
  unfold handleLogonProof
  simp only
  rw [← hp]
  generalize sessionKeyFor session (readProof m).A = K
  generalize expectedProof session (readProof m).A = M at hdue ⊢
  split
  · exact ⟨rfl, rfl⟩
  split
  · exact ⟨rfl, rfl⟩
  split
  · next hexp hzero hright =>
    have hnone : ¬ ((readProof m).securityFlags &&& 0x04 ≠ 0 ∨ session.tokenKey ≠ []) :=
      fun hflags => hdue ⟨⟨hexp, Bool.eq_false_iff.mpr hzero, hright⟩, hflags⟩
    rw [if_neg hnone, if_neg hnone]
    exact ⟨rfl, rfl⟩
  · exact ⟨rfl, rfl⟩

/-- A proof for which one is: the handler takes the token from the buffer. -/
theorem consumed_of_tokenDue {session : Session} (w : Backend) (hdue : TokenDue session m) :
    (handleLogonProof w session m).consumed = 1 + (m.byteAt sizeofLogonProof).toNat := by
  obtain ⟨⟨hexp, hzero, hright⟩, hflags⟩ := hdue
  have hlength : (readToken m).length = (m.byteAt sizeofLogonProof).toNat := m.length_bytesAt _ _
  unfold handleLogonProof
  simp only
  generalize sessionKeyFor session (readProof m).A = K
  generalize expectedProof session (readProof m).A = M at hright ⊢
  rw [if_neg hexp, hzero, if_neg Bool.false_ne_true, if_pos hright, if_pos hflags, ← hlength]
  split <;> rfl

/-- **A handler looks no further** than its fields: on two buffers with the same first `n` bytes
it does the same.  A string that does not end in its field is too long, wherever it ends. -/
theorem handle_congr {w : Backend} {session : Session} {command : Command}
    (hm : ∀ i < n, m.byteAt i = m'.byteAt i) (hn : command.FieldsWithin session m n) :
    command.handle w session m = command.handle w session m' := by
  cases command with
  | logonChallenge =>
    simp only [Command.handle, handleLogonChallenge, readChallenge_congr hm hn]
  | reconnectChallenge =>
    simp only [Command.handle, handleReconnectChallenge, readChallenge_congr hm hn]
  | logonProof =>
    obtain ⟨hproof, htoken⟩ := hn
    by_cases hexp : session.expversion = .noValid
    · simp only [Command.handle, handleLogonProof, if_pos hexp]
    · have hp := readProof_congr hm (hproof hexp)
      by_cases hdue : TokenDue session m
      · have ht := readToken_congr hm (htoken hdue)
        simp only [Command.handle, handleLogonProof, hp, ht]
      · exact (handleLogonProof_of_not_tokenDue w hdue hp).1
  | reconnectProof =>
    have hn : 37 ≤ n := hn
    simp only [Command.handle, handleReconnectProof, bytesAt_congr hm (by omega : 1 + 16 ≤ n),
      bytesAt_congr hm (by omega : 17 + 20 ≤ n)]
  | realmList => rfl
  | xferAccept => rfl
  | xferResume => rfl
  | xferCancel => rfl

end Congr

/-- Only the handler of a proof takes bytes from the buffer itself. -/
theorem consumed_eq_zero {command : Command} (hc : command ≠ .logonProof) (w : Backend)
    (session : Session) (m : MessageBuffer) : (command.handle w session m).consumed = 0 := by
  cases command with
  | logonChallenge =>
    simp only [Command.handle, handleLogonChallenge]
    split
    · rfl
    · split <;> rfl
  | logonProof => exact absurd rfl hc
  | reconnectChallenge =>
    simp only [Command.handle, handleReconnectChallenge]
    split
    · rfl
    · split <;> rfl
  | reconnectProof =>
    simp only [Command.handle, handleReconnectProof]
    split
    · rfl
    · split <;> rfl
  | realmList =>
    simp only [Command.handle, handleRealmList]
    split <;> rfl
  | xferAccept => rfl
  | xferResume => rfl
  | xferCancel => rfl

/-! ## 3. Inside the bytes received -/

/-- How many bytes are received for the packet at the front: those of its size, and those its
handler takes behind them. -/
def AuthHandler.extent (h : AuthHandler) (w : Backend) (session : Session) (m : MessageBuffer) : ℕ :=
  h.size m + (h.command.handle w session m).consumed

/-- A handler called in this step reads none but the bytes of its packet, and they are all
received: when they are consumed, the read position is not past the write position. -/
def Connection.InBounds (logs : Bool) (c : Connection) : Input → Prop
  | .round w => ∀ h ∈ c.front,
    h.command.FieldsWithin c.session c.buffer (h.extent w c.session c.buffer) ∧
      h.command.StringsWithin logs w c.buffer (h.extent w c.session c.buffer) ∧
        c.buffer.rpos + h.extent w c.session c.buffer ≤ c.buffer.wpos
  | _ => True

/-- The size a challenge declares leaves room for the name, and does not wrap. -/
def MessageBuffer.WholeChallenge (m : MessageBuffer) : Prop :=
  30 + m.nameLength ≤ m.uint16At 2 ∧ m.uint16At 2 < 65532

instance (m : MessageBuffer) : Decidable m.WholeChallenge := inferInstanceAs (Decidable (_ ∧ _))

/-- The packet at the front is as long as its handler takes it for: a challenge has room for its
name, a token that is asked for has arrived. -/
def Command.Contained (session : Session) (m : MessageBuffer) : Command → Prop
  | .logonChallenge | .reconnectChallenge => m.WholeChallenge
  | .logonProof => TokenDue session m →
    sizeofLogonProof + 1 + (m.byteAt sizeofLogonProof).toNat ≤ m.getActiveSize
  | _ => True

instance (session : Session) (m : MessageBuffer) :
    (command : Command) → Decidable (command.Contained session m)
  | .logonChallenge => inferInstanceAs (Decidable m.WholeChallenge)
  | .reconnectChallenge => inferInstanceAs (Decidable m.WholeChallenge)
  | .logonProof => inferInstanceAs (Decidable (TokenDue session m → _))
  | .reconnectProof => isTrue trivial
  | .realmList => isTrue trivial
  | .xferAccept => isTrue trivial
  | .xferResume => isTrue trivial
  | .xferCancel => isTrue trivial

/-- ...and the strings of a challenge end inside the size it declares. -/
def Connection.Covered (logs : Bool) (c : Connection) : Input → Prop
  | .round w => ∀ h ∈ c.front,
    h.command.Contained c.session c.buffer ∧
      h.command.StringsWithin logs w c.buffer (4 + c.buffer.uint16At 2)
  | _ => True

/-- A read fills no more than its window. -/
def Input.Fits : Input → Prop
  | .received data => data.length ≤ readBlockSize
  | _ => True

/-- The positions of a buffer whose packets have all stayed in bounds. -/
structure Connection.Bounded (c : Connection) : Prop where
  ordered : c.buffer.rpos ≤ c.buffer.wpos
  small : c.buffer.wpos < 2 ^ 16 + readBlockSize
  waiting : c.phase = .waiting → c.buffer.wpos < 2 ^ 16

theorem init_bounded : Connection.init.Bounded := ⟨le_refl 0, by decide, fun _ => by decide⟩

variable {c : Connection}

theorem Connection.Bounded.sound (hc : c.Bounded) : c.buffer.Sound := by
  have := hc.small
  unfold readBlockSize at this
  exact ⟨hc.ordered, by omega⟩

theorem Connection.Bounded.asyncRead (hc : c.Bounded) (hactive : c.buffer.getActiveSize < 2 ^ 16) :
    c.asyncRead.Bounded := by
  have hwpos : c.asyncRead.buffer.wpos = c.buffer.getActiveSize :=
    MessageBuffer.wpos_normalize hc.sound
  refine ⟨?_, ?_, fun _ => ?_⟩
  · have hrpos : c.asyncRead.buffer.rpos = 0 := c.buffer.rpos_normalize
    omega
  · omega
  · omega

variable {h : AuthHandler}

theorem dispatch_bounded {w : Backend} (hc : c.Bounded)
    (hle : c.buffer.rpos + h.extent w c.session c.buffer ≤ c.buffer.wpos) :
    (c.dispatch w h).Bounded := by
  unfold AuthHandler.extent at hle
  unfold Connection.dispatch
  simp only
  split
  · refine ⟨?_, hc.small, fun hp => absurd hp (by simp)⟩
    simp only [MessageBuffer.readCompleted]
    omega
  · refine ⟨?_, hc.small, fun hp => absurd hp (by simp)⟩
    simp only [MessageBuffer.readCompleted]
    omega

/-- **A step in bounds** keeps the positions bounded. -/
theorem step_bounded {i : Input} (hi : i.Fits) (hc : c.Bounded)
    (hin : ∀ w, i = .round w → ∀ h ∈ c.front,
      c.buffer.rpos + h.extent w c.session c.buffer ≤ c.buffer.wpos) : (step c i).Bounded := by
  cases i with
  | received data =>
    simp only [step]
    split
    · next hphase =>
      have hsmall := hc.waiting hphase
      have hdata : data.length ≤ readBlockSize := hi
      have hle := hc.ordered
      refine ⟨?_, ?_, fun hp => absurd hp (by simp)⟩
      · simp only [MessageBuffer.write]
        omega
      · simp only [MessageBuffer.write]
        omega
    · exact hc
  | lost => exact ⟨hc.ordered, hc.small, fun hp => absurd hp (by simp [step])⟩
  | round w =>
    by_cases hphase : c.phase = .handling
    · have hstep : step c (.round w) = readHandler w c := if_pos hphase
      rw [hstep]
      rcases readHandler_cases hphase w with ⟨h, hf, hr⟩ | ⟨-, -, hr⟩ | ⟨-, -, hactive, hr⟩
      · rw [hr]
        exact dispatch_bounded hc (hin w rfl h hf)
      · rw [hr]
        refine Connection.Bounded.asyncRead ⟨le_refl 0, Nat.succ_pos _, fun _ => Nat.succ_pos _⟩ ?_
        simp
      · rw [hr]
        exact hc.asyncRead hactive
    · have hstep : step c (.round w) = c := if_neg hphase
      rw [hstep]
      exact hc

/-- The handlers, each with its size, when the packet at the front is complete. -/
theorem front_cases (hf : c.front = some h) :
    h = ⟨.connected, 4, .logonChallenge⟩ ∨ h = ⟨.connected, sizeofLogonProof, .logonProof⟩ ∨
      h = ⟨.connected, 4, .reconnectChallenge⟩ ∨ h = ⟨.connected, 58, .reconnectProof⟩ ∨
      h = ⟨.authed, 5, .realmList⟩ ∨ h = ⟨.authed, 1, .xferAccept⟩ ∨
      h = ⟨.authed, 9, .xferResume⟩ ∨ h = ⟨.authed, 1, .xferCancel⟩ := by
  have hmem := mem_handlers (front_eq_some.mp hf).2.2.1
  simpa [handlers] using hmem

theorem uint16At_lt (m : MessageBuffer) (i : ℕ) : m.uint16At i < 65536 := by
  have h0 := (m.byteAt i).toNat_lt
  have h1 := (m.byteAt (i + 1)).toNat_lt
  unfold MessageBuffer.uint16At
  omega

/-- The declared size, the 16 bits it is added up in and the length of the name. -/
theorem wholeChallenge_iff (m : MessageBuffer) :
    m.WholeChallenge ↔ 34 + m.nameLength ≤ (4 + m.uint16At 2) % 2 ^ 16 := by
  have hsize := uint16At_lt m 2
  unfold MessageBuffer.WholeChallenge
  omega

theorem WholeChallenge.size {m : MessageBuffer} (hm : m.WholeChallenge) :
    (4 + m.uint16At 2) % 2 ^ 16 = 4 + m.uint16At 2 := by
  have := hm.2
  omega

/-- A challenge with room for its name: the size that was added up is the size declared. -/
theorem extent_of_contained {w : Backend} {session : Session} {m : MessageBuffer}
    (hc : h.command = .logonChallenge ∨ h.command = .reconnectChallenge) (h4 : h.packetSize = 4)
    (hm : h.command.Contained session m) : h.extent w session m = 4 + m.uint16At 2 := by
  obtain ⟨status, packetSize, command⟩ := h
  simp only at hc h4
  subst h4
  rcases hc with rfl | rfl
  · rw [AuthHandler.extent, consumed_eq_zero Command.noConfusion]
    exact WholeChallenge.size hm
  · rw [AuthHandler.extent, consumed_eq_zero Command.noConfusion]
    exact WholeChallenge.size hm

/-- **The three lengths.**  The fields of the packet at the front are inside the bytes received
for it exactly when the packet is as long as its handler takes it for. -/
theorem contained_iff (w : Backend) (hc : c.Bounded) (hf : c.front = some h) :
    (h.command.FieldsWithin c.session c.buffer (h.extent w c.session c.buffer) ∧
        c.buffer.rpos + h.extent w c.session c.buffer ≤ c.buffer.wpos) ↔
      h.command.Contained c.session c.buffer := by
  have hactive := MessageBuffer.getActiveSize_eq hc.sound
  have hordered := hc.ordered
  have hfits := (front_eq_some.mp hf).2.2.2.2
  have hroom : h.extent w c.session c.buffer ≤ c.buffer.getActiveSize ↔
      c.buffer.rpos + h.extent w c.session c.buffer ≤ c.buffer.wpos := by omega
  rw [← hroom]
  rcases front_cases hf with rfl | rfl | rfl | rfl | rfl | rfl | rfl | rfl
  · rw [AuthHandler.extent, consumed_eq_zero (by decide)]
    exact (and_iff_left hfits).trans (wholeChallenge_iff _).symm
  · have hsize : AuthHandler.size ⟨.connected, sizeofLogonProof, .logonProof⟩ c.buffer =
        sizeofLogonProof := rfl
    rw [hsize] at hfits
    rw [AuthHandler.extent, hsize]
    simp only [Command.FieldsWithin, Command.Contained, Command.handle]
    by_cases hdue : TokenDue c.session c.buffer
    · rw [consumed_of_tokenDue w hdue]
      constructor
      · rintro ⟨-, hle⟩ -
        omega
      · intro hle
        have := hle hdue
        exact ⟨⟨fun _ => by omega, fun _ => by omega⟩, by omega⟩
    · rw [(handleLogonProof_of_not_tokenDue w hdue rfl).2]
      exact iff_of_true ⟨⟨fun _ => by omega, fun hd => absurd hd hdue⟩, by omega⟩
        fun hd => absurd hd hdue
  · rw [AuthHandler.extent, consumed_eq_zero (by decide)]
    exact (and_iff_left hfits).trans (wholeChallenge_iff _).symm
  all_goals
    rw [AuthHandler.extent, consumed_eq_zero (by decide)]
    refine iff_of_true ⟨?_, hfits⟩ trivial
  · exact (by decide : 37 ≤ 58)
  all_goals exact trivial

theorem strings_iff {logs : Bool} {w : Backend} (hf : c.front = some h)
    (hm : h.command.Contained c.session c.buffer) :
    h.command.StringsWithin logs w c.buffer (h.extent w c.session c.buffer) ↔
      h.command.StringsWithin logs w c.buffer (4 + c.buffer.uint16At 2) := by
  rcases front_cases hf with rfl | rfl | rfl | rfl | rfl | rfl | rfl | rfl
  · rw [extent_of_contained (Or.inl rfl) rfl hm]
  · exact Iff.rfl
  · rw [extent_of_contained (Or.inr rfl) rfl hm]
  all_goals exact Iff.rfl

/-- **Every read of every handler is inside the bytes received for its packet** in exactly the
runs in which each packet is what its handler takes it for. -/
theorem inBounds_iff (logs : Bool) (is : List Input) (hreads : ∀ i ∈ is, i.Fits) :
    Along step (Connection.InBounds logs) Connection.init is ↔
      Along step (Connection.Covered logs) Connection.init is := by
  refine along_congr (B := Input.Fits) (fun c i hi hc hin => step_bounded hi hc fun w hw h hf => ?_)
    (fun c i _ hc => ?_) hreads init_bounded
  · subst hw
    exact (hin h hf).2.2
  cases i with
  | received data => exact Iff.rfl
  | lost => exact Iff.rfl
  | round w =>
    refine forall₂_congr fun h hf => ?_
    rw [and_left_comm, and_comm, contained_iff w hc hf]
    exact and_congr_right fun hm => strings_iff hf hm

/-- A name that fills its packet, and the four letters of an operating system. -/
theorem inBounds_iff_challenge :
    Along step (Connection.InBounds false) Connection.init
        (sends (challengePacket 0x00 (bytes "AB"))) ↔
      Along step (Connection.Covered false) Connection.init
        (sends (challengePacket 0x00 (bytes "AB"))) :=
  inBounds_iff false _ fun i hi => by
    rcases List.mem_cons.mp hi with rfl | hi
    · exact (by decide : (challengePacket 0x00 (bytes "AB")).length ≤ readBlockSize)
    · rw [List.mem_singleton.mp hi]
      trivial

/-- **Not every read is.**  A challenge that declares no bytes is complete after four: its
handler is called, and reads the name and the fields before it from whatever lies behind. -/
theorem not_inBounds :
    ¬ Along step (Connection.InBounds false) Connection.init (sends [0x00, 0x00, 0x00, 0x00]) := by
  intro hin
  obtain ⟨hfields, -, hreceived⟩ := hin.2.1 ⟨.connected, 4, .logonChallenge⟩ (by decide)
  have hshort : 34 + (step .init (.received [0, 0, 0, 0])).buffer.nameLength ≤
      (step .init (.received [0, 0, 0, 0])).buffer.wpos :=
    le_trans hfields ((Nat.le_add_left _ _).trans hreceived)
  exact absurd hshort (by decide)

end HungerGames.Auth
