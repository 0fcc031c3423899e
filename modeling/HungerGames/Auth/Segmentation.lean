/-
# How the stream is cut

A client sends a stream of bytes; how many of them one read delivers is up to the network.
`deliver` is one read: the bytes arrive, and `ReadHandler` goes round until it asks for more.
`Parses` is what the stream says by itself, when all of it lies there at once.

Any cut of the stream comes to what the stream says (`parses_of_reads`), unless the code looks
at how much has arrived: a command without a handler takes with it whatever happens to wait
behind it, and a handler reads past its packet into bytes that may or may not be there yet.
-/
import HungerGames.Auth.Bounds

namespace HungerGames.Auth

open HungerGames.Lua (Bytes bytes)
open HungerGames.System

/-! ## 1. One read -/

/-- A handler invoked, and the bytes of its packet. -/
abbrev Call := Command × Bytes

/-- The call of this round of the loop. -/
def Connection.call (w : Backend) (c : Connection) : List Call :=
  match c.front with
  | none => []
  | some h => [(h.command, c.buffer.bytesAt 0 (h.extent w c.session c.buffer))]

section Reads

-- The answers to the questions of each handler called, in their order.
variable (db : ℕ → Backend)

/-- Once round the loop. -/
def round (c : Connection) (_ : Unit) : Connection := step c (.round (db c.log.length))

/-- The rounds there can be, when each one consumes a byte. -/
def rounds (c : Connection) : List Unit := List.replicate (c.buffer.getActiveSize + 1) ()

/-- A read completes, and `ReadHandler` runs. -/
def deliver (c : Connection) (data : Bytes) : Connection :=
  exec (round db) (step c (.received data)) (rounds (step c (.received data)))

/-- The handlers it calls. -/
def calls (c : Connection) (data : Bytes) : List Call :=
  outputs (round db) (fun c _ => c.call (db c.log.length)) (step c (.received data))
    (rounds (step c (.received data)))

/-- The command at the front has a handler, and its packet is as long as the handler takes it
for. -/
def Connection.Tidy (c : Connection) : Prop :=
  (c.phase = .handling → ¬ c.Unknown) ∧ ∀ h ∈ c.front, h.command.Contained c.session c.buffer

instance (c : Connection) : Decidable c.Tidy := inferInstanceAs (Decidable (_ ∧ _))

/-- ...whenever the loop comes round. -/
def TidyRead (c : Connection) (data : Bytes) : Prop :=
  Along (round db) (fun c _ => c.Tidy) (step c (.received data)) (rounds (step c (.received data)))

instance (c : Connection) (data : Bytes) : Decidable (TidyRead db c data) :=
  decidableAlong (round db) (fun c _ => c.Tidy) _ _

end Reads

/-! ## 2. What a stream says -/

/-- All bytes lie at the front of the memory. -/
def MessageBuffer.ofBytes (pending : Bytes) : MessageBuffer := ⟨0, pending.length, (pending.getD · 0)⟩

/-- The handler of the packet a stream begins with. -/
def frontOf (pending : Bytes) : Option AuthHandler :=
  match pending with
  | [] => none
  | k :: _ => (handlers.lookup k).filter fun h =>
    h.packetSize ≤ pending.length ∧ h.size (.ofBytes pending) ≤ pending.length

/-- What a stream says to a session: the calls, and whether the connection stays open. -/
inductive Parses (db : ℕ → Backend) : Session → ℕ → Bytes → List Call → Bool → Prop where
  | wait {session : Session} {n : ℕ} {pending : Bytes} (hf : frontOf pending = none) :
    Parses db session n pending [] true
  | call {session : Session} {n : ℕ} {pending : Bytes} {h : AuthHandler} {later : List Call}
    {open' : Bool} (hf : frontOf pending = some h)
    (hkeep : (h.command.handle (db n) session (.ofBytes pending)).keep = true)
    (hrest : Parses db (h.command.handle (db n) session (.ofBytes pending)).session (n + 1)
      (pending.drop (h.extent (db n) session (.ofBytes pending))) later open') :
    Parses db session n pending
      ((h.command, pending.take (h.extent (db n) session (.ofBytes pending))) :: later) open'
  | close {session : Session} {n : ℕ} {pending : Bytes} {h : AuthHandler}
    (hf : frontOf pending = some h)
    (hkeep : (h.command.handle (db n) session (.ofBytes pending)).keep = false) :
    Parses db session n pending
      [(h.command, pending.take (h.extent (db n) session (.ofBytes pending)))] false

/-- A stream says one thing. -/
theorem Parses.unique {db : ℕ → Backend} {session : Session} {n : ℕ} {pending : Bytes}
    {calls calls' : List Call} {open₁ open₂ : Bool} (h : Parses db session n pending calls open₁)
    (h' : Parses db session n pending calls' open₂) : calls = calls' ∧ open₁ = open₂ := by
  induction h generalizing calls' open₂ with
  | wait hf =>
    cases h' with
    | wait => exact ⟨rfl, rfl⟩
    | call hf' => rw [hf] at hf'; exact absurd hf' (by simp)
    | close hf' => rw [hf] at hf'; exact absurd hf' (by simp)
  | call hf hkeep _ ih =>
    cases h' with
    | wait hf' => rw [hf] at hf'; exact absurd hf' (by simp)
    | call hf' _ hrest' =>
      obtain rfl := Option.some.inj (hf.symm.trans hf')
      obtain ⟨rfl, rfl⟩ := ih hrest'
      exact ⟨rfl, rfl⟩
    | close hf' hkeep' =>
      obtain rfl := Option.some.inj (hf.symm.trans hf')
      rw [hkeep] at hkeep'
      exact absurd hkeep' (by decide)
  | close hf hkeep =>
    cases h' with
    | wait hf' => rw [hf] at hf'; exact absurd hf' (by simp)
    | call hf' hkeep' =>
      obtain rfl := Option.some.inj (hf.symm.trans hf')
      rw [hkeep] at hkeep'
      exact absurd hkeep' (by decide)
    | close hf' =>
      obtain rfl := Option.some.inj (hf.symm.trans hf')
      exact ⟨rfl, rfl⟩

/-! ## 3. The front of the buffer and the front of the stream -/

/-- The bytes that wait and the bytes the stream brings later. -/
theorem byteAt_ofBytes {m : MessageBuffer} (t : Bytes) {i : ℕ} (hi : i < m.getActiveSize) :
    (MessageBuffer.ofBytes (m.unread ++ t)).byteAt i = m.byteAt i := by
  have hin : i < m.unread.length := by rwa [m.length_unread]
  have hbyte : m.unread[i]? = some (m.byteAt i) := by rw [m.getElem?_unread, if_pos hi]
  unfold MessageBuffer.ofBytes MessageBuffer.byteAt
  simp only [Nat.zero_add]
  rw [List.getD_eq_getElem?_getD, List.getElem?_append_left hin, hbyte]
  rfl

variable {h : AuthHandler}

/-- The size of a packet is known from its first bytes. -/
theorem size_congr (hh : h ∈ handlers.map Prod.snd) {m m' : MessageBuffer}
    (hm : ∀ i < h.packetSize, m.byteAt i = m'.byteAt i) : h.size m = h.size m' := by
  have h4 : h.command = .logonChallenge ∨ h.command = .reconnectChallenge → h.packetSize = 4 :=
    (by decide : ∀ h ∈ handlers.map Prod.snd,
      h.command = .logonChallenge ∨ h.command = .reconnectChallenge → h.packetSize = 4) h hh
  unfold AuthHandler.size
  split
  · next hc => rw [uint16At_congr hm (by rw [h4 (Or.inl hc)])]
  · next hc => rw [uint16At_congr hm (by rw [h4 (Or.inr hc)])]
  · rfl

theorem frontOf_eq_some {pending : Bytes} :
    frontOf pending = some h ↔ ∃ k, pending[0]? = some k ∧ handlers.lookup k = some h ∧
      h.packetSize ≤ pending.length ∧ h.size (.ofBytes pending) ≤ pending.length := by
  cases pending with
  | nil => exact iff_of_false (by simp [frontOf]) fun ⟨k, hk, _⟩ => by simp at hk
  | cons k rest =>
    simp only [frontOf, Option.filter_eq_some_iff, decide_eq_true_iff]
    constructor
    · rintro ⟨hl, hsize⟩
      exact ⟨k, rfl, hl, hsize⟩
    · rintro ⟨k', hk, hl, hsize⟩
      obtain rfl : k = k' := Option.some.inj hk
      exact ⟨hl, hsize⟩

/-- While the loop runs, the front of the buffer is the front of the bytes that wait. -/
theorem frontOf_unread {c : Connection} (hphase : c.phase = .handling) :
    frontOf c.buffer.unread = c.front := by
  refine Option.ext fun h => ?_
  rw [frontOf_eq_some, front_eq_some, MessageBuffer.length_unread]
  have hsame (hk : handlers.lookup (c.buffer.byteAt 0) = some h)
      (hpacket : h.packetSize ≤ c.buffer.getActiveSize) :
      h.size (.ofBytes c.buffer.unread) = h.size c.buffer := by
    refine size_congr (mem_handlers hk) fun i hi => ?_
    have := byteAt_ofBytes (m := c.buffer) [] (i := i) (by omega)
    rwa [List.append_nil] at this
  constructor
  · rintro ⟨k, hk, hl, hpacket, hsize⟩
    rw [MessageBuffer.getElem?_unread] at hk
    split at hk
    · next hactive =>
      obtain rfl := Option.some.inj hk
      rw [hsame hl hpacket] at hsize
      exact ⟨hphase, by omega, hl, hpacket, hsize⟩
    · exact absurd hk (by simp)
  · rintro ⟨-, hactive, hl, hpacket, hsize⟩
    refine ⟨c.buffer.byteAt 0, ?_, hl, hpacket, ?_⟩
    · rw [MessageBuffer.getElem?_unread, if_pos (by omega)]
    · rwa [hsame hl hpacket]

/-- A complete packet is complete whatever comes behind it. -/
theorem frontOf_append {pending : Bytes} (hf : frontOf pending = some h) (t : Bytes) :
    frontOf (pending ++ t) = some h := by
  obtain ⟨k, hk, hl, hpacket, hsize⟩ := frontOf_eq_some.mp hf
  have hlength : 0 < pending.length := (List.getElem?_eq_some_iff.mp hk).1
  have hsame : h.size (.ofBytes (pending ++ t)) = h.size (.ofBytes pending) := by
    refine size_congr (mem_handlers hl) fun i hi => ?_
    simp only [MessageBuffer.ofBytes, MessageBuffer.byteAt, Nat.zero_add, List.getD_eq_getElem?_getD]
    rw [List.getElem?_append_left (by omega)]
  rw [frontOf_eq_some, hsame, List.length_append]
  exact ⟨k, by rwa [List.getElem?_append_left hlength], hl, by omega, by omega⟩

/-! ## 4. A round, and the bytes it leaves -/

/-- A tidy packet is not empty. -/
theorem size_pos {c : Connection} (hf : c.front = some h)
    (hm : h.command.Contained c.session c.buffer) : 0 < h.size c.buffer := by
  rcases front_cases hf with rfl | rfl | rfl | rfl | rfl | rfl | rfl | rfl
  · have hsize : 0 < (4 + c.buffer.uint16At 2) % 2 ^ 16 := by
      rw [WholeChallenge.size hm]
      omega
    exact hsize
  · exact (by decide : 0 < sizeofLogonProof)
  · have hsize : 0 < (4 + c.buffer.uint16At 2) % 2 ^ 16 := by
      rw [WholeChallenge.size hm]
      omega
    exact hsize
  all_goals exact Nat.succ_pos _

/-- What is left of the stream when `t` is still to come: the calls to be made, and whether the
connection stays open. -/
def Connection.Finishes (db : ℕ → Backend) (c : Connection) (t : Bytes) (later : List Call)
    (stays : Bool) : Prop :=
  if c.phase = .closed then later = [] ∧ stays = false
  else Parses db c.session c.log.length (c.buffer.unread ++ t) later stays

/-- Between two rounds: the positions are in order, and what waits for more bytes is no whole
packet. -/
structure Connection.Settled (c : Connection) : Prop where
  bounded : c.Bounded
  waiting : c.phase = .waiting → frontOf c.buffer.unread = none

section Rounds

variable {db : ℕ → Backend} {c : Connection}

theorem round_of_ne (hphase : c.phase ≠ .handling) (u : Unit) : round db c u = c := if_neg hphase

theorem call_of_some (hf : c.front = some h) (w : Backend) :
    c.call w = [(h.command, c.buffer.bytesAt 0 (h.extent w c.session c.buffer))] := by
  simp only [Connection.call, hf]

theorem call_of_none (hf : c.front = none) (w : Backend) : c.call w = [] := by
  simp only [Connection.call, hf]

theorem call_of_ne (hphase : c.phase ≠ .handling) (w : Backend) : c.call w = [] :=
  call_of_none (if_neg fun hf => hphase hf.1) w

/-- **A tidy round** calls the handler of a packet whose bytes are all there, or goes to wait. -/
theorem round_cases (db : ℕ → Backend) (hc : c.Bounded) (ht : c.Tidy) (hphase : c.phase = .handling) :
    (∃ h, c.front = some h ∧ round db c () = c.dispatch (db c.log.length) h ∧
      h.command.FieldsWithin c.session c.buffer (h.extent (db c.log.length) c.session c.buffer) ∧
      c.buffer.rpos + h.extent (db c.log.length) c.session c.buffer ≤ c.buffer.wpos ∧
      0 < h.size c.buffer) ∨
    (c.front = none ∧ c.buffer.getActiveSize < 2 ^ 16 ∧ round db c () = c.asyncRead) := by
  have hround : round db c () = readHandler (db c.log.length) c := if_pos hphase
  rw [hround]
  rcases readHandler_cases hphase (db c.log.length) with ⟨h, hf, hr⟩ | ⟨-, hu, -⟩ | ⟨hf, -, ha, hr⟩
  · have hm := ht.2 h hf
    obtain ⟨hfields, hreceived⟩ := (contained_iff (db c.log.length) hc hf).mpr hm
    exact Or.inl ⟨h, hf, hr, hfields, hreceived, size_pos hf hm⟩
  · exact absurd hu (ht.1 hphase)
  · exact Or.inr ⟨hf, ha, hr⟩

theorem round_settled (hc : c.Settled) (ht : c.Tidy) : (round db c ()).Settled := by
  by_cases hphase : c.phase = .handling
  · rcases round_cases db hc.bounded ht hphase with ⟨h, -, hr, -, hle, -⟩ | ⟨hf, ha, hr⟩
    · rw [hr]
      refine ⟨dispatch_bounded hc.bounded hle, fun hp => ?_⟩
      simp only [Connection.dispatch] at hp
      split at hp <;> exact absurd hp (by decide)
    · rw [hr]
      refine ⟨hc.bounded.asyncRead ha, fun _ => ?_⟩
      have hunread : c.asyncRead.buffer.unread = c.buffer.unread :=
        MessageBuffer.unread_normalize hc.bounded.sound
      rw [hunread, frontOf_unread hphase, hf]
  · rw [round_of_ne hphase]
    exact hc

/-- The buffer once the handler is done with a packet that is kept. -/
theorem dispatch_of_keep {w : Backend}
    (hkeep : (h.command.handle w c.session c.buffer).keep = true) :
    (c.dispatch w h).buffer = c.buffer.readCompleted (h.extent w c.session c.buffer) ∧
      (c.dispatch w h).phase = .handling := by
  simp only [Connection.dispatch, hkeep, if_true]
  rw [MessageBuffer.readCompleted_readCompleted, AuthHandler.extent, Nat.add_comm]
  exact ⟨rfl, trivial⟩

/-- The handler does to the buffer what it does to the stream. -/
theorem handle_ofBytes {w : Backend} (hf : c.front = some h)
    (hfields : h.command.FieldsWithin c.session c.buffer (h.extent w c.session c.buffer))
    (hle : h.extent w c.session c.buffer ≤ c.buffer.getActiveSize) (t : Bytes) :
    h.command.handle w c.session (.ofBytes (c.buffer.unread ++ t)) =
        h.command.handle w c.session c.buffer ∧
      h.extent w c.session (.ofBytes (c.buffer.unread ++ t)) = h.extent w c.session c.buffer := by
  have hbytes : ∀ i < c.buffer.getActiveSize,
      c.buffer.byteAt i = (MessageBuffer.ofBytes (c.buffer.unread ++ t)).byteAt i :=
    fun i hi => (byteAt_ofBytes t hi).symm
  obtain ⟨-, -, hl, hpacket, -⟩ := front_eq_some.mp hf
  have hhandle := handle_congr (w := w) (fun i hi => hbytes i (by omega)) hfields
  have hsize : h.size c.buffer = h.size (.ofBytes (c.buffer.unread ++ t)) :=
    size_congr (mem_handlers hl) fun i hi => hbytes i (by omega)
  unfold AuthHandler.extent
  rw [← hhandle, ← hsize]
  exact ⟨rfl, rfl⟩

/-- **A tidy round takes from the stream what it calls.** -/
theorem finishes_of_round {t : Bytes} {later : List Call} {stays : Bool} (hc : c.Bounded)
    (ht : c.Tidy) (hl : (round db c ()).Finishes db t later stays) :
    c.Finishes db t (c.call (db c.log.length) ++ later) stays := by
  by_cases hphase : c.phase = .handling
  · have hopen : ¬ c.phase = .closed := by rw [hphase]; decide
    rw [Connection.Finishes, if_neg hopen]
    rcases round_cases db hc ht hphase with ⟨h, hf, hr, hfields, hle, -⟩ | ⟨hf, -, hr⟩
    · rw [hr] at hl
      have hactive := MessageBuffer.getActiveSize_eq hc.sound
      have hextent : h.extent (db c.log.length) c.session c.buffer ≤ c.buffer.getActiveSize := by
        omega
      obtain ⟨hhandle, hsame⟩ := handle_ofBytes hf hfields hextent t
      have hfront : frontOf (c.buffer.unread ++ t) = some h :=
        frontOf_append ((frontOf_unread hphase).trans hf) t
      have hbytes : c.buffer.bytesAt 0 (h.extent (db c.log.length) c.session c.buffer) =
          (c.buffer.unread ++ t).take (h.extent (db c.log.length) c.session c.buffer) := by
        rw [MessageBuffer.bytesAt_eq_take hextent,
          List.take_append_of_le_length (by rwa [MessageBuffer.length_unread])]
      rw [call_of_some hf, hbytes, ← hsame]
      cases hkeep : (h.command.handle (db c.log.length) c.session c.buffer).keep with
      | true =>
        obtain ⟨hbuffer, hphase'⟩ := dispatch_of_keep hkeep
        rw [Connection.Finishes, hphase', if_neg (by decide), hbuffer,
          MessageBuffer.unread_readCompleted hc.sound hle, ← List.drop_append_of_le_length
            (by rwa [MessageBuffer.length_unread])] at hl
        refine Parses.call hfront (by rw [hhandle, hkeep]) ?_
        rw [hhandle, hsame]
        exact hl
      | false =>
        have hphase' : (c.dispatch (db c.log.length) h).phase = .closed := by
          simp only [Connection.dispatch, hkeep, Bool.false_eq_true, if_false]
        rw [Connection.Finishes, hphase', if_pos rfl] at hl
        obtain ⟨rfl, rfl⟩ := hl
        exact Parses.close hfront (by rw [hhandle, hkeep])
    · rw [hr, Connection.Finishes, if_neg (by simp [Connection.asyncRead])] at hl
      have hunread : c.asyncRead.buffer.unread = c.buffer.unread :=
        MessageBuffer.unread_normalize hc.sound
      rw [hunread] at hl
      rw [call_of_none hf]
      exact hl
  · rw [round_of_ne hphase] at hl
    rwa [call_of_ne hphase, List.nil_append]

/-- **The loop ends**: while it runs, the bytes that wait get fewer. -/
theorem exec_round_ends : ∀ (n : ℕ) {c : Connection}, c.Settled →
    Along (round db) (fun c _ => c.Tidy) c (List.replicate n ()) → c.buffer.getActiveSize < n →
      (exec (round db) c (List.replicate n ())).phase ≠ .handling
  | 0, c, _, _, hlt => absurd hlt (Nat.not_lt_zero _)
  | n + 1, c, hc, ht, hlt => by
    rw [List.replicate_succ, exec_cons]
    obtain ⟨htidy, hrest⟩ := ht
    have hsettled : (round db c ()).Settled := round_settled hc htidy
    -- outside the loop nothing happens any more
    have hstay : ∀ (k : ℕ) {c : Connection}, c.phase ≠ .handling →
        (exec (round db) c (List.replicate k ())).phase ≠ .handling := by
      intro k
      induction k with
      | zero => exact fun hp => hp
      | succ k ih =>
        intro c hp
        rw [List.replicate_succ, exec_cons, round_of_ne hp]
        exact ih hp
    by_cases hphase : c.phase = .handling
    · rcases round_cases db hc.bounded htidy hphase with ⟨h, -, hr, -, hle, hpos⟩ | ⟨-, -, hr⟩
      · cases hkeep : (h.command.handle (db c.log.length) c.session c.buffer).keep with
        | true =>
          refine exec_round_ends n hsettled hrest ?_
          rw [hr, (dispatch_of_keep hkeep).1,
            MessageBuffer.getActiveSize_readCompleted hc.bounded.sound hle]
          have hactive := MessageBuffer.getActiveSize_eq hc.bounded.sound
          have hextent : 0 < h.extent (db c.log.length) c.session c.buffer := by
            rw [AuthHandler.extent]
            omega
          omega
        | false =>
          refine hstay n ?_
          rw [hr]
          simp [Connection.dispatch, hkeep]
      · refine hstay n ?_
        rw [hr]
        simp [Connection.asyncRead]
    · refine hstay n ?_
      rwa [round_of_ne hphase]

end Rounds

/-! ## 5. Reads, and streams -/

section Reads

variable {db : ℕ → Backend}

theorem finishes_of_rounds {t : Bytes} {later : List Call} {stays : Bool} :
    ∀ {us : List Unit} {c : Connection}, c.Settled → Along (round db) (fun c _ => c.Tidy) c us →
      (exec (round db) c us).Finishes db t later stays →
      c.Finishes db t (outputs (round db) (fun c _ => c.call (db c.log.length)) c us ++ later) stays
  | [], _, _, _, hl => hl
  | _ :: us, c, hc, ht, hl => by
    have hrest := finishes_of_rounds (round_settled hc ht.1) ht.2 hl
    rw [outputs, List.append_assoc]
    exact finishes_of_round hc.bounded ht.1 hrest

/-- Bytes that arrive are the next bytes of the stream. -/
theorem finishes_received {c : Connection} {data t : Bytes} {later : List Call} {stays : Bool}
    (hc : c.Settled) (hdata : data.length ≤ readBlockSize) (hphase : c.phase ≠ .handling)
    (hl : (step c (.received data)).Finishes db t later stays) :
    c.Finishes db (data ++ t) later stays := by
  by_cases hwait : c.phase = .waiting
  · have hbounded : (step c (.received data)).Bounded :=
      step_bounded hdata hc.bounded fun w hw => by cases hw
    have hstep : step c (.received data) =
        { c with buffer := c.buffer.write data, phase := .handling } := if_pos hwait
    rw [hstep] at hl hbounded
    have hopen : ¬ c.phase = .closed := by rw [hwait]; decide
    rw [Connection.Finishes, if_neg Phase.noConfusion] at hl
    rw [Connection.Finishes, if_neg hopen, ← List.append_assoc,
      ← MessageBuffer.unread_write hc.bounded.sound hbounded.sound]
    exact hl
  · have hstep : step c (.received data) = c := if_neg hwait
    have hclosed : c.phase = .closed := by
      cases hp : c.phase with
      | waiting => exact absurd hp hwait
      | handling => exact absurd hp hphase
      | closed => rfl
    rw [hstep, Connection.Finishes, if_pos hclosed] at hl
    rw [Connection.Finishes, if_pos hclosed]
    exact hl

theorem received_settled {c : Connection} {data : Bytes} (hc : c.Settled)
    (hdata : data.length ≤ readBlockSize) : (step c (.received data)).Settled := by
  refine ⟨step_bounded hdata hc.bounded (fun w hw => by cases hw), fun hp => ?_⟩
  by_cases hwait : c.phase = .waiting
  · rw [show step c (.received data) =
      { c with buffer := c.buffer.write data, phase := .handling } from if_pos hwait] at hp
    exact absurd hp Phase.noConfusion
  · rw [show step c (.received data) = c from if_neg hwait] at hp ⊢
    exact hc.waiting hp

/-- **A read** leaves the loop, and takes from the stream what it calls. -/
theorem deliver_spec {c : Connection} {data : Bytes} (hc : c.Settled)
    (hdata : data.length ≤ readBlockSize) (hphase : c.phase ≠ .handling) (ht : TidyRead db c data) :
    (deliver db c data).Settled ∧ (deliver db c data).phase ≠ .handling ∧
      ∀ {t : Bytes} {later : List Call} {stays : Bool},
        (deliver db c data).Finishes db t later stays →
          c.Finishes db (data ++ t) (calls db c data ++ later) stays := by
  have hreceived := received_settled hc hdata
  refine ⟨exec_invariant (fun c _ hs hp => round_settled hs hp) hreceived ht,
    exec_round_ends _ hreceived ht (Nat.lt_succ_self _), fun hl => ?_⟩
  exact finishes_received hc hdata hphase (finishes_of_rounds hreceived ht hl)

/-- **Any cut of a stream comes to what the stream says.** -/
theorem finishes_of_reads {t : Bytes} {later : List Call} {stays : Bool} :
    ∀ {rs : List Bytes} {c : Connection}, c.Settled → c.phase ≠ .handling →
      (∀ r ∈ rs, r.length ≤ readBlockSize) → Along (deliver db) (TidyRead db) c rs →
      (exec (deliver db) c rs).Settled ∧ (exec (deliver db) c rs).phase ≠ .handling ∧
        ((exec (deliver db) c rs).Finishes db t later stays →
          c.Finishes db (rs.flatten ++ t) (outputs (deliver db) (calls db) c rs ++ later) stays)
  | [], _, hc, hphase, _, _ => ⟨hc, hphase, fun hl => hl⟩
  | r :: rs, c, hc, hphase, hreads, ht => by
    obtain ⟨hsettled, hends, hread⟩ := deliver_spec hc (hreads r List.mem_cons_self) hphase ht.1
    obtain ⟨hsettled', hends', hrest⟩ := @finishes_of_reads t later stays rs _
      hsettled hends (fun r' hr' => hreads r' (List.mem_cons_of_mem r hr')) ht.2
    refine ⟨hsettled', hends', fun hl => ?_⟩
    rw [List.flatten_cons, List.append_assoc, outputs, List.append_assoc]
    exact hread (hrest hl)

/-- What is left of a stream of which nothing is to come any more. -/
theorem finishes_nil {c : Connection} (hc : c.Settled) (hphase : c.phase ≠ .handling) :
    c.Finishes db [] [] (decide (c.phase ≠ .closed)) := by
  unfold Connection.Finishes
  split
  · next hclosed => exact ⟨rfl, by rw [hclosed]; rfl⟩
  · next hopen =>
    have hwait : c.phase = .waiting := by
      cases hp : c.phase with
      | waiting => rfl
      | handling => exact absurd hp hphase
      | closed => exact absurd hp hopen
    rw [decide_eq_true hopen, List.append_nil]
    exact Parses.wait (hc.waiting hwait)

theorem init_settled : Connection.init.Settled := ⟨init_bounded, fun _ => by decide⟩

/-- The run over a cut of the stream, and what the stream says. -/
theorem parses_of_reads {rs : List Bytes} (hreads : ∀ r ∈ rs, r.length ≤ readBlockSize)
    (ht : Along (deliver db) (TidyRead db) Connection.init rs) :
    Parses db Session.init 0 rs.flatten (outputs (deliver db) (calls db) Connection.init rs)
        (decide ((exec (deliver db) Connection.init rs).phase ≠ .closed)) ∧
      (exec (deliver db) Connection.init rs).phase ≠ .handling := by
  obtain ⟨hsettled, hends, hfinish⟩ :=
    @finishes_of_reads db [] [] _ rs _ init_settled (by decide) hreads ht
  have hparse := hfinish (finishes_nil hsettled hends)
  rw [Connection.Finishes, if_neg (by decide), List.append_nil, List.append_nil] at hparse
  exact ⟨hparse, hends⟩

/-- **How the stream is cut does not matter**: two runs over the same stream, in which each
command has a handler and each packet is as long as its handler takes it for, call the same
handlers with the same packets and leave the connection in the same phase, which is not inside
the loop. -/
theorem calls_eq_of_flatten_eq (db : ℕ → Backend) (rs rs' : List Bytes)
    (hreads : ∀ r ∈ rs ++ rs', r.length ≤ readBlockSize) (hsame : rs.flatten = rs'.flatten)
    (ht : Along (deliver db) (TidyRead db) Connection.init rs)
    (ht' : Along (deliver db) (TidyRead db) Connection.init rs') :
    outputs (deliver db) (calls db) Connection.init rs =
        outputs (deliver db) (calls db) Connection.init rs' ∧
      (exec (deliver db) Connection.init rs).phase = (exec (deliver db) Connection.init rs').phase ∧
        (exec (deliver db) Connection.init rs).phase ≠ .handling := by
  obtain ⟨hparse, hends⟩ := parses_of_reads (fun r hr => hreads r (List.mem_append_left _ hr)) ht
  obtain ⟨hparse', hends'⟩ := parses_of_reads (fun r hr => hreads r (List.mem_append_right _ hr)) ht'
  rw [hsame] at hparse
  obtain ⟨hcalls, hphase⟩ := hparse.unique hparse'
  refine ⟨hcalls, ?_, hends⟩
  generalize (exec (deliver db) Connection.init rs).phase = p at hphase hends ⊢
  generalize (exec (deliver db) Connection.init rs').phase = p' at hphase hends' ⊢
  cases p <;> cases p' <;> first | rfl | exact absurd rfl hends | exact absurd rfl hends' |
    exact absurd hphase (by decide)

end Reads

/-- A challenge cut in two, and a request to cancel behind it. -/
theorem calls_eq_of_flatten_eq_challenge :
    outputs (deliver fun _ => .plain) (calls fun _ => .plain) Connection.init
        [challengePacket 0x00 (bytes "XY"), [0x34]] =
      outputs (deliver fun _ => .plain) (calls fun _ => .plain) Connection.init
        [(challengePacket 0x00 (bytes "XY")).take 3,
          (challengePacket 0x00 (bytes "XY")).drop 3 ++ [0x34]] ∧
    (exec (deliver fun _ => .plain) Connection.init
        [challengePacket 0x00 (bytes "XY"), [0x34]]).phase =
      (exec (deliver fun _ => .plain) Connection.init
        [(challengePacket 0x00 (bytes "XY")).take 3,
          (challengePacket 0x00 (bytes "XY")).drop 3 ++ [0x34]]).phase ∧
    (exec (deliver fun _ => .plain) Connection.init
        [challengePacket 0x00 (bytes "XY"), [0x34]]).phase ≠ .handling :=
  calls_eq_of_flatten_eq _ _ _ (by decide +kernel) (by decide +kernel) (by decide +kernel)
    (by decide +kernel)

/-- **Sometimes it does.**  A command without a handler, and a request to go on with a transfer:
in one read, the second is dropped with the first; in two, it is handled. -/
theorem calls_ne_of_unknown :
    outputs (deliver fun _ => .plain) (calls fun _ => .plain) Connection.init [[0x99, 0x32]] ≠
      outputs (deliver fun _ => .plain) (calls fun _ => .plain) Connection.init [[0x99], [0x32]] := by
  decide +kernel

end HungerGames.Auth
