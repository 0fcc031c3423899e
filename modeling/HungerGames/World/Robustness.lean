/-
# Packets that are too short

Every read from a packet can throw, and nothing between the read and the network thread catches
it.  Two packets are read there: a ping, and the packet a client authenticates with, which ends
in a compressed list of add-ons.  `WellFormed` says of a packet, by the lengths in it, that no
read of its handler goes past its end; a packet of any other opcode is read later, in the update
of the session, which catches the exception.
-/
import HungerGames.World.ReadWindow

namespace HungerGames.World

open HungerGames.Lua (Bytes bytes)
open HungerGames.Auth (MessageBuffer littleEndian readBlockSize)
open HungerGames.Auth.BigNumber
open HungerGames.System

/-! ## 1. The lengths -/

/-- The packet of `CMSG_AUTH_SESSION`, when it is long enough. -/
def authSessionOf (payload : Bytes) : AuthSession where
  account := (splitString (payload.drop 8)).1
  clientSeed := setBinary (((splitString (payload.drop 8)).2.drop 4).take 4)
  realmIndex := setBinary (((splitString (payload.drop 8)).2.drop 16).take 4)
  digest := ((splitString (payload.drop 8)).2.drop 28).take 20

/-- Eight bytes, the account, and 48 bytes behind its `0`. -/
def AuthSessionFits (payload : Bytes) : Prop := 48 ≤ (splitString (payload.drop 8)).2.length

/-- The list of add-ons behind them. -/
def addonBytes (payload : Bytes) : Bytes := (splitString (payload.drop 8)).2.drop 48

/-- So many add-ons, and the time; or the bytes end with an add-on. -/
def AddonsFit : ℕ → Bytes → Prop
  | 0, bs => 4 ≤ bs.length
  | n + 1, bs => bs = [] ∨
    9 ≤ (splitString bs).2.length ∧ AddonsFit n ((splitString bs).2.drop 9)

instance decidableAddonsFit : (n : ℕ) → (bs : Bytes) → Decidable (AddonsFit n bs)
  | 0, bs => inferInstanceAs (Decidable (4 ≤ bs.length))
  | n + 1, bs =>
    have := decidableAddonsFit n ((splitString bs).2.drop 9)
    inferInstanceAs (Decidable (bs = [] ∨
      9 ≤ (splitString bs).2.length ∧ AddonsFit n ((splitString bs).2.drop 9)))

/-- The compressed list: when it is read at all, its count and its add-ons are there. -/
def AddonsInfoFits (w : Answers) (bs : Bytes) : Prop :=
  4 ≤ bs.length → setBinary (bs.take 4) ≠ 0 → setBinary (bs.take 4) ≤ 0xFFFFF →
    ∀ written ∈ w.uncompress (setBinary (bs.take 4)) (bs.drop 4),
      4 ≤ setBinary (bs.take 4) ∧
        AddonsFit (setBinary ((inflated (setBinary (bs.take 4)) written).take 4))
          ((inflated (setBinary (bs.take 4)) written).drop 4)

section

variable {κ : Type}

/-- The packet gets its client a session. -/
def Accepted (w : Answers) (p : Peer κ) (payload : Bytes) : Prop :=
  ∃ info ∈ w.accountInfo (authSessionOf payload).account,
    earlyRefusal w p (authSessionOf payload) info = none ∧ lateRefusal w info = none

/-- No read of the handler goes past the end of the packet. -/
def WellFormed (w : Answers) (p : Peer κ) (opcode : ℕ) (payload : Bytes) : Prop :=
  (opcode = 0x1DC → 8 ≤ payload.length) ∧
    (opcode = 0x1ED → p.worldSession = none →
      AuthSessionFits payload ∧ (Accepted w p payload → AddonsInfoFits w (addonBytes payload)))

end

/-! ## 2. The reads -/

section Reads

variable {bs : Bytes}

theorem reads_readPing (hlen : 8 ≤ bs.length) :
    Reads readPing bs (setBinary (bs.take 4), setBinary ((bs.drop 4).take 4))
      ((bs.drop 4).drop 4) := by
  have h1 : 4 ≤ bs.length := by omega
  have h2 : 4 ≤ (bs.drop 4).length := by
    rw [List.length_drop]
    omega
  exact (reads_readNat h1).bind ((reads_readNat h2).bind (reads_pure _ _))

/-- A number of fixed length, and reads that want `n` more bytes. -/
theorem throws_of_short {α : Type} {f : ℕ → Reader α} (len n : ℕ) (hlen : bs.length < len + n)
    (hf : ∀ v, (bs.drop len).length < n → Throws (f v) (bs.drop len)) :
    Throws (readNat len >>= f) bs := by
  by_cases h : bs.length < len
  · exact (throws_readNat h).bind
  · refine (reads_readNat (by omega)).throws (hf _ ?_)
    rw [List.length_drop]
    omega

theorem throws_readPing (hlen : bs.length < 8) : Throws readPing bs :=
  throws_of_short 4 4 hlen fun _ h => (throws_readNat h).bind

theorem reads_readAuthSession (hlen : AuthSessionFits bs) :
    Reads readAuthSession bs (authSessionOf bs) (addonBytes bs) := by
  have hsplit := length_splitString (bs.drop 8)
  unfold AuthSessionFits at hlen
  rw [List.length_drop] at hsplit
  have h1 : 4 ≤ bs.length := by omega
  have h2 : 4 ≤ (bs.drop 4).length := by
    rw [List.length_drop]
    omega
  have h8 : (bs.drop 4).drop 4 = bs.drop 8 := List.drop_drop
  refine (reads_readNat h1).bind ((reads_readNat h2).bind ?_)
  rw [h8]
  refine (reads_readString _).bind ?_
  unfold authSessionOf addonBytes
  generalize (splitString (bs.drop 8)).2 = rest at hlen ⊢
  -- each field ends where the next one starts
  have hin : ∀ i len : ℕ, i + len ≤ 48 → len ≤ (rest.drop i).length := by
    intro i len hi
    rw [List.length_drop]
    omega
  have hnext : ∀ i len : ℕ, (rest.drop i).drop len = rest.drop (i + len) := fun i len =>
    List.drop_drop
  refine (reads_readNat (hin 0 4 (by omega))).bind ?_
  rw [hnext 0 4]
  refine (reads_readNat (hin 4 4 (by omega))).bind ?_
  rw [hnext 4 4]
  refine (reads_readNat (hin 8 4 (by omega))).bind ?_
  rw [hnext 8 4]
  refine (reads_readNat (hin 12 4 (by omega))).bind ?_
  rw [hnext 12 4]
  refine (reads_readNat (hin 16 4 (by omega))).bind ?_
  rw [hnext 16 4]
  refine (reads_readNat (hin 20 8 (by omega))).bind ?_
  rw [hnext 20 8]
  refine (reads_read (hin 28 20 (by omega))).bind ?_
  rw [hnext 28 20]
  exact reads_pure _ _

theorem throws_readAuthSession (hlen : ¬ AuthSessionFits bs) : Throws readAuthSession bs := by
  unfold AuthSessionFits at hlen
  by_cases h8 : bs.length < 8
  · exact throws_of_short 4 4 h8 fun _ h => (throws_readNat h).bind
  · have h1 : 4 ≤ bs.length := by omega
    have h2 : 4 ≤ (bs.drop 4).length := by
      rw [List.length_drop]
      omega
    have hdrop : (bs.drop 4).drop 4 = bs.drop 8 := List.drop_drop
    refine (reads_readNat h1).throws ((reads_readNat h2).throws ?_)
    rw [hdrop]
    refine (reads_readString _).throws ?_
    generalize (splitString (bs.drop 8)).2 = rest at hlen
    refine throws_of_short 4 44 (by omega) fun _ h => ?_
    refine throws_of_short 4 40 h fun _ h => ?_
    refine throws_of_short 4 36 h fun _ h => ?_
    refine throws_of_short 4 32 h fun _ h => ?_
    refine throws_of_short 4 28 h fun _ h => ?_
    refine throws_of_short 8 20 h fun _ h => ?_
    exact (throws_read h).bind

theorem reads_readAddon (hlen : 9 ≤ (splitString bs).2.length) :
    ∃ addon, Reads readAddon bs addon ((splitString bs).2.drop 9) := by
  have hnext : ∀ i len : ℕ, ((splitString bs).2.drop i).drop len =
      (splitString bs).2.drop (i + len) := fun i len => List.drop_drop
  have hin : ∀ i len : ℕ, i + len ≤ 9 → len ≤ ((splitString bs).2.drop i).length := by
    intro i len hi
    rw [List.length_drop]
    omega
  refine ⟨⟨(splitString bs).1, setBinary ((splitString bs).2.take 1),
    setBinary (((splitString bs).2.drop 1).take 4), 2, true⟩,
    (reads_readString bs).bind ((reads_readNat (hin 0 1 (by omega))).bind ?_)⟩
  rw [hnext 0 1]
  refine (reads_readNat (hin 1 4 (by omega))).bind ?_
  rw [hnext 1 4]
  refine (reads_readNat (hin 5 4 (by omega))).bind ?_
  rw [hnext 5 4]
  exact reads_pure _ _

theorem throws_readAddon (hlen : ¬ 9 ≤ (splitString bs).2.length) : Throws readAddon bs := by
  refine (reads_readString bs).throws ?_
  refine throws_of_short 1 8 (by omega) fun _ h => ?_
  refine throws_of_short 4 4 h fun _ h => ?_
  exact (throws_readNat h).bind

/-- The loop over the add-ons ends without an exception exactly when they fit. -/
theorem readAddons_isOk : ∀ (n : ℕ) (b : ByteBuffer),
    (readAddons n b).2.isOk = true ↔ AddonsFit n b.rest
  | 0, b => by
    unfold readAddons AddonsFit
    by_cases hlen : 4 ≤ b.rest.length
    · obtain ⟨b', hok, -⟩ := reads_readNat hlen b rfl
      simp only [hok]
      exact iff_of_true rfl hlen
    · obtain ⟨e, he⟩ := throws_readNat (Nat.lt_of_not_le hlen) b rfl
      simp only [he]
      exact iff_of_false Bool.false_ne_true hlen
  | n + 1, b => by
    have hinside := b.inside
    have hlength := b.length_rest
    unfold readAddons AddonsFit
    by_cases hend : b.storage.length < b.rpos + 1
    · rw [if_pos hend]
      exact iff_of_true rfl (Or.inl (List.length_eq_zero_iff.mp (by omega)))
    · have hne : b.rest ≠ [] := fun h => by
        rw [h, List.length_nil] at hlength
        omega
      rw [if_neg hend, or_iff_right hne]
      by_cases hlen : 9 ≤ (splitString b.rest).2.length
      · obtain ⟨addon, hr⟩ := reads_readAddon hlen
        obtain ⟨b', hok, hrest⟩ := hr b rfl
        simp only [hok]
        rw [and_iff_right hlen, ← hrest]
        exact readAddons_isOk n b'
      · obtain ⟨e, he⟩ := throws_readAddon hlen b rfl
        simp only [he]
        exact iff_of_false Bool.false_ne_true fun h => hlen h.1

theorem length_inflated (size : ℕ) (written : Bytes) : (inflated size written).length = size := by
  rw [inflated, List.length_take, List.length_append, List.length_replicate]
  omega

theorem readAddonsInfo_isOk (w : Answers) (b : ByteBuffer) :
    (readAddonsInfo w b).2.isOk = true ↔ AddonsInfoFits w b.rest := by
  have hinside := b.inside
  have hlength := b.length_rest
  unfold readAddonsInfo AddonsInfoFits
  by_cases hshort : b.storage.length < b.rpos + 4
  · rw [if_pos hshort]
    exact iff_of_true rfl fun hlen => absurd hlen (by omega)
  · have hlen : 4 ≤ b.rest.length := by omega
    obtain ⟨b', hok, hrest⟩ := reads_readNat hlen b rfl
    rw [if_neg hshort, forall_prop_of_true hlen]
    simp only [hok, hrest]
    generalize setBinary (b.rest.take 4) = size
    by_cases hsize : size = 0 ∨ 0xFFFFF < size
    · rw [if_pos hsize]
      refine iff_of_true rfl fun hne hle => ?_
      rcases hsize with hsize | hsize
      · exact absurd hsize hne
      · omega
    · rw [if_neg hsize]
      have hne : size ≠ 0 := fun h => hsize (Or.inl h)
      have hle : size ≤ 0xFFFFF := Nat.le_of_not_lt fun h => hsize (Or.inr h)
      rw [forall_prop_of_true hne, forall_prop_of_true hle]
      cases w.uncompress size (b.rest.drop 4) with
      | none => exact iff_of_true rfl fun written h => absurd h (by simp)
      | some written =>
        simp only [Option.mem_def, Option.some.injEq, forall_eq']
        have hbytes : (ByteBuffer.ofBytes (inflated size written)).rest = inflated size written := rfl
        by_cases h4 : 4 ≤ size
        · have henough : 4 ≤ (inflated size written).length := by
            rw [length_inflated]
            exact h4
          obtain ⟨b'', hok', hrest'⟩ := reads_readNat henough _ hbytes
          simp only [hok']
          rw [and_iff_right h4, ← hrest']
          exact readAddons_isOk _ b''
        · have hshort : (inflated size written).length < 4 := by
            rw [length_inflated]
            omega
          obtain ⟨e, he⟩ := throws_readNat hshort _ hbytes
          simp only [he]
          exact iff_of_false Bool.false_ne_true fun h => h4 h.1

end Reads

/-! ## 3. The handlers -/

section Handlers

variable {κ : Type}

theorem handlePing_isOk (w : Answers) (p : Peer κ) (b : ByteBuffer) :
    (handlePing w p b).result.isOk = true ↔ 8 ≤ b.rest.length := by
  unfold handlePing
  by_cases hlen : 8 ≤ b.rest.length
  · obtain ⟨b', hok, -⟩ := reads_readPing hlen b rfl
    refine iff_of_true ?_ hlen
    simp only [hok]
    split
    · rfl
    · split <;> rfl
  · obtain ⟨e, he⟩ := throws_readPing (Nat.lt_of_not_le hlen) b rfl
    refine iff_of_false ?_ hlen
    simp only [he]
    exact Bool.false_ne_true

theorem handleAuthSession_isOk (cipher : Cipher κ) (w : Answers) (p : Peer κ) (b : ByteBuffer) :
    (handleAuthSession cipher w p b).result.isOk = true ↔
      AuthSessionFits b.rest ∧ (Accepted w p b.rest → AddonsInfoFits w (addonBytes b.rest)) := by
  unfold handleAuthSession
  by_cases hfits : AuthSessionFits b.rest
  · obtain ⟨b', hok, hrest⟩ := reads_readAuthSession hfits b rfl
    simp only [hok]
    rw [and_iff_right hfits]
    cases hinfo : w.accountInfo (authSessionOf b.rest).account with
    | none =>
      refine iff_of_true rfl ?_
      rintro ⟨info, hmem, -⟩
      rw [hinfo] at hmem
      exact absurd hmem (by simp)
    | some info =>
      have haccepted : Accepted w p b.rest ↔
          earlyRefusal w p (authSessionOf b.rest) info = none ∧ lateRefusal w info = none := by
        simp only [Accepted, hinfo, Option.mem_def, Option.some.injEq, exists_eq_left']
      have hearly : earlyRefusal w { p with authCrypt := some (cipher.init (setHexStr 0
          info.sessionkey)) } (authSessionOf b.rest) info =
            earlyRefusal w p (authSessionOf b.rest) info := rfl
      rw [haccepted]
      simp only [hearly]
      cases earlyRefusal w p (authSessionOf b.rest) info with
      | some refusal => exact iff_of_true rfl fun h => absurd h.1 (by simp)
      | none =>
        cases lateRefusal w info with
        | some code => exact iff_of_true rfl fun h => absurd h.2 (by simp)
        | none =>
          rw [forall_prop_of_true ⟨rfl, rfl⟩, ← hrest, ← readAddonsInfo_isOk]
          simp only
          cases (readAddonsInfo w b').2 <;> exact Iff.rfl
  · obtain ⟨e, he⟩ := throws_readAuthSession hfits b rfl
    simp only [he]
    exact iff_of_false Bool.false_ne_true fun h => hfits h.1

theorem isOk_map {α β : Type} (f : α → β) (r : Except ByteBufferPositionException α) :
    (r.map f).isOk = r.isOk := by
  cases r <;> rfl

/-- **No exception leaves the handler** exactly when the packet is long enough. -/
theorem readDataHandler_isOk (cipher : Cipher κ) (w : Answers) (p : Peer κ) (opcode : ℕ)
    (payload : Bytes) :
    (readDataHandler cipher w p opcode payload).result.isOk = true ↔
      WellFormed w p opcode payload := by
  unfold readDataHandler WellFormed
  by_cases hping : opcode = 0x1DC
  · have hauth : opcode ≠ 0x1ED := by omega
    rw [if_pos hping, forall_prop_of_true hping,
      and_iff_left fun h => absurd h hauth, isOk_map, handlePing_isOk]
    rfl
  · rw [if_neg hping, and_iff_right fun h => absurd h hping]
    by_cases hauth : opcode = 0x1ED
    · rw [if_pos hauth, forall_prop_of_true hauth]
      cases hsession : p.worldSession with
      | some session => exact iff_of_true rfl fun h => absurd h (by simp)
      | none =>
        rw [if_neg (by simp), forall_prop_of_true rfl, isOk_map, handleAuthSession_isOk]
        rfl
    · rw [if_neg hauth]
      refine iff_of_true ?_ fun h => absurd h hauth
      split
      · rfl
      · split <;> rfl

end Handlers

/-! ## 4. The socket -/

section

variable {κ : Type} (cipher : Cipher κ)

/-- The socket when the payload is complete, if this round completes it. -/
def Socket.payloadReady (s : Socket κ) : Option (Socket κ) :=
  let s := if 0 < s.packetBuffer.remaining then s.fillPacket else s
  if 0 < s.packetBuffer.remaining then none else some s

/-- The socket when a packet is complete, if this round completes one. -/
def Socket.arriving (s : Socket κ) : Option (Socket κ) :=
  if s.readBuffer.getActiveSize = 0 then none
  else if 0 < s.headerBuffer.remaining then
    let s := s.fillHeader
    if 0 < s.headerBuffer.remaining then none
    else
      let r := s.readHeaderHandler cipher
      if r.2 then r.1.payloadReady else none
  else s.payloadReady

/-- The packet this round completes, if any, is well formed. -/
def ArrivesWellFormed (s : Socket κ) : Input → Prop
  | .round w => s.phase = .handling →
    ∀ ready ∈ s.arriving cipher, WellFormed w ready.peer ready.opcode ready.packetBuffer.filled
  | _ => True

/-- An exception has left `ReadHandler`. -/
def Socket.Threw (s : Socket κ) : Prop := ∃ e, s.phase = .thrown e

/-- No exception leaves `ReadHandler` at this step. -/
def Quiet (s : Socket κ) (i : Input) : Prop := ¬ (step cipher s i).Threw

/-- The loop of `ReadHandler` ends, whatever the answers to its handlers. -/
def LoopEnds (s : Socket κ) : Prop :=
  ∀ ws : List Answers, s.readBuffer.getActiveSize < ws.length →
    (exec (step cipher) s (ws.map .round)).phase ≠ .handling

variable {cipher}

theorem threw_asyncRead (s : Socket κ) : ¬ s.asyncRead.Threw := by
  rintro ⟨e, he⟩
  unfold Socket.asyncRead at he
  split at he <;> exact Phase.noConfusion he

theorem threw_dispatch (w : Answers) (s : Socket κ) : (s.dispatch cipher w).Threw ↔
    ¬ WellFormed w s.peer s.opcode s.packetBuffer.filled := by
  rw [← readDataHandler_isOk cipher]
  unfold Socket.Threw Socket.dispatch
  simp only
  cases (readDataHandler cipher w s.peer s.opcode s.packetBuffer.filled).result with
  | error e => exact iff_of_true ⟨e, rfl⟩ Bool.false_ne_true
  | ok b =>
    refine iff_of_false ?_ fun h => h rfl
    rintro ⟨e, he⟩
    cases b <;> exact Phase.noConfusion he

theorem threw_readPayload (w : Answers) (s : Socket κ) : (s.readPayload cipher w).Threw ↔
    ∃ ready ∈ s.payloadReady, ¬ WellFormed w ready.peer ready.opcode ready.packetBuffer.filled := by
  unfold Socket.readPayload Socket.payloadReady
  simp only
  generalize (if 0 < s.packetBuffer.remaining then s.fillPacket else s) = filled
  by_cases hmore : 0 < filled.packetBuffer.remaining
  · rw [if_pos hmore, if_pos hmore]
    exact iff_of_false (threw_asyncRead filled) (by simp)
  · rw [if_neg hmore, if_neg hmore, threw_dispatch]
    simp

/-- **A round throws** exactly when the packet it completes is not well formed. -/
theorem threw_readHandler (w : Answers) (s : Socket κ) : (s.readHandler cipher w).Threw ↔
    ∃ ready ∈ s.arriving cipher,
      ¬ WellFormed w ready.peer ready.opcode ready.packetBuffer.filled := by
  unfold Socket.readHandler Socket.arriving
  by_cases hempty : s.readBuffer.getActiveSize = 0
  · rw [if_pos hempty, if_pos hempty]
    exact iff_of_false (threw_asyncRead s) (by simp)
  · rw [if_neg hempty, if_neg hempty]
    by_cases hheader : 0 < s.headerBuffer.remaining
    · rw [if_pos hheader, if_pos hheader]
      simp only
      generalize s.fillHeader = filled
      by_cases hmore : 0 < filled.headerBuffer.remaining
      · rw [if_pos hmore, if_pos hmore]
        exact iff_of_false (threw_asyncRead filled) (by simp)
      · rw [if_neg hmore, if_neg hmore]
        by_cases hvalid : (filled.readHeaderHandler cipher).2 = true
        · rw [if_pos hvalid, if_pos hvalid]
          exact threw_readPayload w _
        · rw [if_neg hvalid, if_neg hvalid]
          refine iff_of_false ?_ (by simp)
          rintro ⟨e, he⟩
          exact Phase.noConfusion he
    · rw [if_neg hheader, if_neg hheader]
      exact threw_readPayload w s

theorem quiet_iff {s : Socket κ} {i : Input} (hs : ¬ s.Threw) :
    Quiet cipher s i ↔ ArrivesWellFormed cipher s i := by
  cases i with
  | closeSocket => exact iff_of_true hs trivial
  | delayedCloseSocket => exact iff_of_true hs trivial
  | received data =>
    refine iff_of_true ?_ trivial
    unfold Quiet step
    simp only
    split
    · rintro ⟨e, he⟩
      simp only at he
      split at he <;> exact Phase.noConfusion he
    · exact hs
  | round w =>
    unfold Quiet step ArrivesWellFormed
    simp only
    by_cases hphase : s.phase = .handling
    · rw [if_pos hphase, forall_prop_of_true hphase, threw_readHandler]
      push Not
      exact Iff.rfl
    · rw [if_neg hphase]
      exact iff_of_true hs fun h => absurd h hphase

/-- Outside the loop nothing happens, whatever the answers. -/
theorem exec_rounds_of_ne {s : Socket κ} (hphase : s.phase ≠ .handling) : ∀ ws : List Answers,
    exec (step cipher) s (ws.map .round) = s
  | [] => rfl
  | w :: ws => by
    have hstep : step cipher s (.round w) = s := if_neg hphase
    rw [List.map_cons, exec_cons, hstep, exec_rounds_of_ne hphase ws]

/-- **The loop ends**: each round takes bytes, or is the last. -/
theorem loopEnds_of_inside {s : Socket κ} (hs : WorldInside s) : LoopEnds cipher s := by
  intro ws
  induction ws generalizing s with
  | nil => exact fun hlt => absurd hlt (Nat.not_lt_zero _)
  | cons w ws ih =>
    intro hlt
    by_cases hphase : s.phase = .handling
    · have hstep : step cipher s (.round w) = s.readHandler cipher w := if_pos hphase
      have hnext : WorldInside (step cipher s (.round w)) := worldInside_step trivial hs
      rw [List.map_cons, exec_cons]
      rw [hstep] at hnext ⊢
      rcases readHandler_outcome cipher (fun _ => w) (hs.1 (Or.inr hphase)) with
        ⟨_, -, -, hless, -, -⟩ | ⟨hp, -, -, -, -, -⟩ | ⟨_, _, hp, -, -, -, -⟩
      · rw [MessageBuffer.length_unread, MessageBuffer.length_unread] at hless
        rw [List.length_cons] at hlt
        exact ih hnext (by omega)
      · have hne : (s.readHandler cipher w).phase ≠ .handling := by
          rw [hp]
          split <;> exact Phase.noConfusion
        rw [exec_rounds_of_ne hne]
        exact hne
      · rw [exec_rounds_of_ne hp.2]
        exact hp.2
    · rw [exec_rounds_of_ne hphase]
      exact hphase

/-- **`ReadHandler` returns**, in exactly the runs in which every packet that gets complete is
well formed: its loop always ends, and an exception leaves it at no other packet. -/
theorem returns_iff (cipher : Cipher κ) (authSeed : ℕ) (is : List Input)
    (his : ∀ i ∈ is, i.Fits) :
    (Along (step cipher) (Quiet cipher) (.init authSeed) is ↔
        Along (step cipher) (ArrivesWellFormed cipher) (.init authSeed) is) ∧
      LoopEnds cipher (exec (step cipher) (.init authSeed) is) := by
  constructor
  · refine along_congr (I := fun s : Socket κ => ¬ s.Threw) (B := fun _ => True)
      (fun _ _ _ _ hquiet => hquiet) (fun _ _ _ hs => quiet_iff hs) (fun _ _ => trivial) ?_
    rintro ⟨e, he⟩
    exact Phase.noConfusion he
  · have hstep : ∀ (s : Socket κ) (i : Input), i.Fits → WorldInside s →
        WorldInside (step cipher s i) := fun _ _ hi hs => worldInside_step hi hs
    exact loopEnds_of_inside (exec_invariant_of_mem hstep his (worldInside_init authSeed))

end

/-- A ping of eight bytes. -/
theorem returns_iff_ping :
    (Along (step .plain) (Quiet .plain) (.init 0)
          [.received (pingPacket (List.replicate 8 0)), .round .plain] ↔
        Along (step .plain) (ArrivesWellFormed .plain) (.init 0)
          [.received (pingPacket (List.replicate 8 0)), .round .plain]) ∧
      LoopEnds .plain (exec (step .plain) (.init 0)
        [.received (pingPacket (List.replicate 8 0)), .round .plain]) := by
  refine returns_iff .plain 0 _ fun i hi => ?_
  rcases List.mem_cons.mp hi with rfl | hi
  · exact (by decide : (pingPacket (List.replicate 8 0)).length ≤ readBlockSize)
  · rw [List.mem_singleton.mp hi]
    trivial

/-- **An exception can leave `ReadHandler`.**  A ping without a payload is enough, before the
client has authenticated. -/
theorem ping_throws :
    ¬ Along (step .plain) (Quiet .plain) (.init 0) [.received (pingPacket []), .round .plain] := by
  intro h
  refine h.2.1 ⟨⟨false, 0, 4, 0⟩, ?_⟩
  rfl

end HungerGames.World
