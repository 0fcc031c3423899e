/-
# Commands for authenticated clients

The table of handlers says `STATUS_AUTHED` of four commands: the list of realms, and the three
about patches.  `ReadHandler` looks up the handler and its packet size and calls it; the status
is never read.  So the commands are refused to nobody, and whether they are called only for
authenticated clients is up to the clients.

`flagged_iff_patient` says so for every run: each of the calls had `_isAuthenticated` set
exactly when the client was patient, and no such packet was complete at the front of the buffer
before one of his proofs had been accepted.
-/
import HungerGames.Auth.LogonBinding

namespace HungerGames.Auth

open HungerGames.Lua (Bytes bytes)
open HungerGames.System

/-! ## 1. Authenticated is proven -/

/-- A proof has been accepted. -/
def Proven (log : List Entry) : Prop :=
  ∃ entry ∈ log, entry = .logonProof true ∨ entry = .reconnectProof true

/-- Whether an entry is a proof, and accepted. -/
def Entry.proves : Entry → Bool
  | .logonProof accepted => accepted
  | .reconnectProof accepted => accepted
  | _ => false

theorem proven_iff {log : List Entry} : Proven log ↔ log.any Entry.proves = true := by
  rw [List.any_eq_true]
  refine exists_congr fun entry => and_congr_right fun _ => ?_
  cases entry <;> simp [Entry.proves]

instance (log : List Entry) : Decidable (Proven log) := decidable_of_iff _ proven_iff.symm

/-- The flag says that a proof has been accepted, while the connection is kept. -/
def FlagProven (c : Connection) : Prop :=
  c.session.isAuthenticated = c.log.any Entry.proves

/-- A logon proof sets the flag when it is accepted, and never clears it. -/
theorem handleLogonProof_flag (w : Backend) (session : Session) (m : MessageBuffer) :
    (handleLogonProof w session m).session.isAuthenticated
      = ((handleLogonProof w session m).accepted || session.isAuthenticated) := by
  rcases handleLogonProof_cases w session m with h | ⟨K, h | ⟨n, h⟩ | ⟨n, reply, h⟩⟩
  · rw [h]
    rfl
  · have hnot : (handleLogonProof w session m).accepted = false := by
      rw [h]
      refine Bool.eq_false_iff.mpr fun hacc => ?_
      obtain ⟨a, ha, hkey⟩ := List.any_eq_true.mp (Bool.and_eq_true_iff.mp hacc).2
      rcases List.mem_cons.mp ha with rfl | ha
      · exact absurd hkey (by decide)
      · rw [storesKey_wrongPassActions a ha] at hkey
        exact absurd hkey (by decide)
    rw [hnot, h]
    rfl
  · rw [h]
    rfl
  · rw [h]
    rfl

/-- A reconnect proof sets the flag when it is accepted; the connection is kept then. -/
theorem handleReconnectProof_flag (w : Backend) (session : Session) (m : MessageBuffer) :
    (handleReconnectProof w session m).session.isAuthenticated
      = ((handleReconnectProof w session m).keep || session.isAuthenticated) := by
  unfold handleReconnectProof
  split
  · rfl
  · simp only
    split <;> rfl

theorem handleLogonChallenge_flag (w : Backend) (session : Session) (m : MessageBuffer) :
    (handleLogonChallenge w session m).session.isAuthenticated = session.isAuthenticated := by
  unfold handleLogonChallenge
  simp only
  split
  · rfl
  · cases verdict w (readChallenge m).login <;> rfl

theorem handleReconnectChallenge_flag (w : Backend) (session : Session) (m : MessageBuffer) :
    (handleReconnectChallenge w session m).session.isAuthenticated = session.isAuthenticated := by
  unfold handleReconnectChallenge
  simp only
  cases w.sessionKey (readChallenge m).login with
  | none => rfl
  | some key =>
    simp only
    split <;> rfl

theorem handleRealmList_flag (w : Backend) (session : Session) (m : MessageBuffer) :
    (handleRealmList w session m).session.isAuthenticated = session.isAuthenticated := by
  unfold handleRealmList
  cases w.accountId session.login <;> rfl

theorem flagProven_dispatch {c : Connection} (h : FlagProven c) (w : Backend)
    (handler : AuthHandler) : FlagProven (c.dispatch w handler) := by
  obtain ⟨status, packetSize, command⟩ := handler
  cases command with
  | logonChallenge => exact (handleLogonChallenge_flag w c.session c.buffer).trans h
  | logonProof =>
    refine (handleLogonProof_flag w c.session c.buffer).trans ?_
    rw [h]
    rfl
  | reconnectChallenge => exact (handleReconnectChallenge_flag w c.session c.buffer).trans h
  | reconnectProof =>
    refine (handleReconnectProof_flag w c.session c.buffer).trans ?_
    rw [h]
    rfl
  | realmList => exact (handleRealmList_flag w c.session c.buffer).trans h
  | xferAccept => exact h
  | xferResume => exact h
  | xferCancel => exact h

theorem flagProven_step (c : Connection) (i : Input) (h : FlagProven c) : FlagProven (step c i) := by
  rcases step_cases c i with ⟨w, handler, -, -, hstep⟩ | ⟨hsession, hlog, -⟩
  · rw [hstep]
    exact flagProven_dispatch h w handler
  · unfold FlagProven
    rw [hsession, hlog]
    exact h

/-! ## 2. The calls of a run -/

/-- Every command of another kind was called with the flag set. -/
def Flagged (log : List Entry) : Prop := ∀ command, Entry.other command false ∉ log

/-- A complete packet of a command for authenticated clients is at the front only after a proof
has been accepted. -/
def Patient (c : Connection) (i : Input) : Prop :=
  match i with
  | .round _ => ∀ h ∈ c.front, h.status = .authed → Proven c.log
  | _ => True

instance (c : Connection) : ∀ i : Input, Decidable (Patient c i)
  | .round _ => inferInstanceAs (Decidable (∀ h ∈ c.front, _ → _))
  | .received _ => isTrue trivial
  | .lost => isTrue trivial

/-- A handler at the front is one of the table. -/
theorem mem_handlers_of_front {c : Connection} {h : AuthHandler} (hf : c.front = some h) :
    h ∈ handlers.map Prod.snd := by
  unfold Connection.front at hf
  split at hf
  · obtain ⟨hlookup, -⟩ := Option.filter_eq_some_iff.mp hf
    obtain ⟨before, after, hsplit, -⟩ := List.lookup_eq_some_iff.mp hlookup
    exact List.mem_map.mpr ⟨_, hsplit ▸ List.mem_append_right before List.mem_cons_self, rfl⟩
  · exact absurd hf (by simp)

/-- The challenges and the proofs. -/
def Command.logsOn : Command → Bool
  | .logonChallenge | .logonProof | .reconnectChallenge | .reconnectProof => true
  | _ => false

/-- **The table**: the commands for authenticated clients are the ones that are neither
challenge nor proof. -/
theorem logsOn_iff : ∀ h ∈ handlers.map Prod.snd, (h.status = .authed ↔ h.command.logsOn = false) := by
  decide

/-- The other commands are logged with the flag as it was. -/
theorem entryOf_other_iff (w : Backend) (session : Session) (m : MessageBuffer) (r : Handled)
    (command : Command) :
    (∀ c, entryOf w session m r command ≠ .other c false) ↔
      (command.logsOn = false → session.isAuthenticated = true) := by
  by_cases hlogs : command.logsOn = true
  · refine iff_of_true (fun c h => ?_) fun h => ?_
    · cases command with
      | logonChallenge => cases h
      | logonProof => cases h
      | reconnectChallenge => cases h
      | reconnectProof => cases h
      | _ => cases hlogs
    · rw [hlogs] at h
      cases h
  · have hentry : entryOf w session m r command = .other command session.isAuthenticated := by
      cases command <;> first | rfl | exact absurd rfl hlogs
    rw [hentry]
    constructor
    · intro h _
      by_contra hflag
      exact h command (by rw [Bool.eq_false_iff.mpr hflag])
    · intro h c heq
      rw [h (Bool.eq_false_iff.mpr hlogs)] at heq
      cases heq

/-- One step keeps the log flagged exactly when the client is patient. -/
theorem flagged_step {c : Connection} (i : Input) (hc : FlagProven c) :
    Flagged (step c i).log ↔ Flagged c.log ∧ Patient c i := by
  rcases step_cases c i with ⟨w, h, rfl, hfront, hstep⟩ | ⟨-, hlog, hnone⟩
  · have htable := logsOn_iff h (mem_handlers_of_front hfront)
    have hlog : (step c (.round w)).log = entryOf w c.session c.buffer
        (h.command.handle w c.session c.buffer) h.command :: c.log := by
      rw [hstep]
      rfl
    have hpatient : Patient c (.round w) ↔ (h.status = .authed → Proven c.log) := by
      simp [Patient, hfront]
    rw [hlog, hpatient, proven_iff, ← hc]
    have hcons : ∀ entry log, Flagged (entry :: log) ↔
        (∀ command, entry ≠ .other command false) ∧ Flagged log := by
      intro entry log
      simp only [Flagged, List.mem_cons, not_or, forall_and, ne_comm]
    rw [hcons, entryOf_other_iff, htable, and_comm]
  · rw [hlog]
    refine (and_iff_left ?_).symm
    cases i with
    | received data => exact trivial
    | lost => exact trivial
    | round w =>
      intro h hfront
      rw [hnone w rfl] at hfront
      exact absurd hfront (by simp)

/-- The same for a run from any connection whose flag is proven. -/
theorem flagged_exec : ∀ {c : Connection} (is : List Input), FlagProven c →
    (Flagged (exec step c is).log ↔ Flagged c.log ∧ Along step Patient c is)
  | c, [], _ => (and_iff_left trivial).symm
  | c, i :: is, hc => by
    rw [exec_cons, flagged_exec is (flagProven_step c i hc), flagged_step i hc, and_assoc]
    rfl

/-- **Calls are gated exactly for patient clients**, in every run. -/
theorem flagged_iff_patient (is : List Input) :
    Flagged (exec step Connection.init is).log ↔ Along step Patient Connection.init is := by
  rw [flagged_exec is (rfl : FlagProven Connection.init)]
  exact and_iff_right fun _ h => absurd h List.not_mem_nil

/-- The first byte of a new connection, `XFER_ACCEPT`, calls the handler. -/
theorem xferAccept_ungated :
    (exec step Connection.init (sends [0x32])).log.any
        (fun entry => match entry with
          | .other .xferAccept false => true
          | _ => false) = true ∧
      (exec step Connection.init (sends [0x32])).phase = .handling ∧
      ¬ Flagged (exec step Connection.init (sends [0x32])).log := by
  refine ⟨by decide +kernel, by decide +kernel, ?_⟩
  rw [flagged_iff_patient]
  decide +kernel

end HungerGames.Auth
