/-
# Whose verifier a proof is checked against

The proof of a logon is checked with the numbers `v`, `s`, `b`, `B` and the name `_login` that
the session holds, and nothing ties them together but the order in which packets came.  Both
challenges assign the name before they know whether they will answer; the numbers are assigned
by a granted logon challenge alone, and stay through everything else.  So a name can stand beside
another account's numbers, or beside the zeros of a new connection, with which anybody can
compute the proof.

`Bound` is what is meant to hold when a proof is accepted, `InOrder` is the order of packets in
which it does, and in every state of every run they are the same (`bound_iff_inOrder`).
-/
import HungerGames.Auth.Connection

namespace HungerGames.Auth

open HungerGames.Lua (Bytes bytes)
open HungerGames.System
open BigNumber

/-! ## 1. The property -/

/-- The most recent logon challenge: its name, and the grant if it succeeded. -/
def lastLogonChallenge : List Entry → Option (Bytes × Option Grant)
  | [] => none
  | .logonChallenge login grant :: _ => some (login, grant)
  | _ :: log => lastLogonChallenge log

/-- The name in the most recent challenge of either kind. -/
def lastNamed : List Entry → Option Bytes
  | [] => none
  | .logonChallenge login _ :: _ => some login
  | .reconnectChallenge login :: _ => some login
  | _ :: log => lastNamed log

/-- The salt and the verifier of a grant are those of the account: they are in its row, or they
are new and the challenge has stored them there. -/
def Grant.Stored (grant : Grant) (login : Bytes) : Prop :=
  ∃ account, grant.backend.account login = some account ∧
    ((account.v.length = 64 ∧ account.s.length = 64 ∧ hexValue account.v 0 = grant.v ∧
        hexValue account.s 0 = grant.s) ∨
      Action.execute (.updVs (asHexStr grant.v) (asHexStr grant.s) login) ∈ grant.actions)

/-- The secret and the public value of a grant are those of its challenge. -/
def Grant.Generated (grant : Grant) : Prop :=
  grant.b = grant.backend.randB.val ∧ grant.B = publicValue grant.v grant.b

/-- The session holds the numbers of a grant. -/
structure Holds (session : Session) (grant : Grant) : Prop where
  s : session.s = grant.s
  v : session.v = grant.v
  b : session.b = grant.b
  B : session.B = grant.B

/-- The numbers of the session are those of the account it names, from the most recent logon
challenge, which succeeded for that account. -/
def Bound (c : Connection) : Prop :=
  ∃ grant, lastLogonChallenge c.log = some (c.session.login, some grant) ∧
    Holds c.session grant ∧ grant.Stored c.session.login ∧ grant.Generated

/-- The most recent logon challenge succeeded, and so far no reconnect challenge has named
another account since, or the last one has named this one again. -/
def InOrder (log : List Entry) : Prop :=
  match lastLogonChallenge log with
  | some (login, some _) => lastNamed log = some login
  | _ => False

instance (log : List Entry) : Decidable (InOrder log) := by
  unfold InOrder
  split <;> infer_instance

theorem inOrder_iff {log : List Entry} : InOrder log ↔
    ∃ login grant, lastLogonChallenge log = some (login, some grant) ∧
      lastNamed log = some login := by
  unfold InOrder
  constructor
  · intro h
    split at h
    · rename_i login grant hlast
      exact ⟨login, grant, hlast, h⟩
    · exact absurd h id
  · rintro ⟨login, grant, hlast, hnamed⟩
    rw [hlast]
    exact hnamed

/-! ## 2. What the handlers do to name and numbers -/

/-- The numbers are as they were. -/
structure SameNumbers (session session' : Session) : Prop where
  s : session'.s = session.s
  v : session'.v = session.v
  b : session'.b = session.b
  B : session'.B = session.B

theorem Holds.of_same {session session' : Session} {grant : Grant} (h : Holds session grant)
    (hs : SameNumbers session session') : Holds session' grant :=
  ⟨hs.s.trans h.s, hs.v.trans h.v, hs.b.trans h.b, hs.B.trans h.B⟩

/-- Asking for an account is never granted a log-on. -/
theorem registration_ne_granted (w : Backend) (login : Bytes) (account : Account) :
    registration w login ≠ .granted account := by
  unfold registration
  split
  · simp
  · simp only
    split
    · simp
    · split <;> simp

/-- What is granted is granted for the row of the name. -/
theorem account_of_granted {w : Backend} {login : Bytes} {account : Account}
    (h : verdict w login = .granted account) : w.account login = some account := by
  unfold verdict at h
  split at h
  · exact absurd h (by simp)
  · cases hrow : w.account login with
    | none =>
      rw [hrow] at h
      simp only at h
      split at h
      · exact absurd h (registration_ne_granted w login account)
      · exact absurd h (by simp)
    | some account' =>
      rw [hrow] at h
      simp only at h
      split at h
      · exact absurd h (by simp)
      · exact congrArg some (Verdict.granted.inj h)

section Handlers

variable (w : Backend) (session : Session) (m : MessageBuffer)

/-- The logon challenge assigns the name, whatever it answers. -/
theorem handleLogonChallenge_login :
    (handleLogonChallenge w session m).session.login = (readChallenge m).login := by
  unfold handleLogonChallenge
  simp only
  split
  · rfl
  · cases verdict w (readChallenge m).login <;> rfl

/-- **A granted challenge** assigns the numbers of the account. -/
theorem holds_of_grant {grant : Grant}
    (h : grantOf w (readChallenge m) (handleLogonChallenge w session m) = some grant) :
    Holds (handleLogonChallenge w session m).session grant ∧
      grant.Stored (readChallenge m).login ∧ grant.Generated := by
  unfold grantOf at h
  split at h
  · exact absurd h (by simp)
  rename_i hos
  cases hverdict : verdict w (readChallenge m).login with
  | refused result => simp [hverdict] at h
  | registered username password => simp [hverdict] at h
  | granted account =>
    have haccount := account_of_granted hverdict
    have hhandled : handleLogonChallenge w session m
        = .done (grantedSession w (challengedSession session (readChallenge m))
            (readChallenge m).country account)
          (expiredBans w (readChallenge m).login ++
            (saltAndVerifier w (challengedSession session (readChallenge m)) account).2 ++
            [.send (grantedPacket w (grantedSession w
              (challengedSession session (readChallenge m)) (readChallenge m).country account))]) := by
      unfold handleLogonChallenge
      simp only [hverdict]
      rw [if_neg fun hlt => hos (Or.inl hlt)]
    rw [hverdict, Option.some.injEq] at h
    subst h
    refine ⟨⟨rfl, rfl, rfl, rfl⟩, ⟨account, haccount, ?_⟩, ?_⟩
    · rw [hhandled]
      by_cases hlen : account.v.length ≠ 0x20 * 2 ∨ account.s.length ≠ 0x20 * 2
      · right
        simp only [Handled.done, grantedSession, saltAndVerifier, if_pos hlen]
        exact List.mem_append_left _ (List.mem_append_right _ (List.mem_singleton.mpr rfl))
      · left
        obtain ⟨hv, hs⟩ := not_or.mp hlen
        rw [not_not] at hv hs
        have hne : ∀ str : Bytes, str.length = 0x20 * 2 → str ≠ [] := by
          rintro str hstr rfl
          exact absurd hstr (by decide)
        refine ⟨hv, hs, ?_, ?_⟩
        · simp only [Handled.done, grantedSession, saltAndVerifier, if_neg hlen, setHexStr,
            if_neg (hne _ hv)]
        · simp only [Handled.done, grantedSession, saltAndVerifier, if_neg hlen, setHexStr,
            if_neg (hne _ hs)]
    · rw [hhandled]
      exact ⟨rfl, rfl⟩

/-- The statement that stores the key of a proof. -/
def keyUpdate : Action :=
  .execute (.updLogonProof (asHexStr (sessionKeyFor session (readProof m).A)) w.remoteIp
    (getLocaleByName session.localizationName) session.os session.login)

/-- **What a logon proof comes to**: nothing, a wrong proof, a wrong token, or an accepted
proof. -/
theorem handleLogonProof_cases :
    handleLogonProof w session m = .drop session [] ∨
      ∃ K, handleLogonProof w session m = .done { session with K := K }
          (.send wrongProofPacket :: wrongPassActions w session.login) ∨
        (∃ n, handleLogonProof w session m
          = ⟨{ session with K := K }, [keyUpdate w session m, .send wrongProofPacket], false, n⟩) ∨
        ∃ n reply, handleLogonProof w session m
          = ⟨{ session with K := K, isAuthenticated := true },
            [keyUpdate w session m, .send reply], true, n⟩ := by
  unfold handleLogonProof keyUpdate
  simp only
  split
  · exact Or.inl rfl
  split
  · exact Or.inl rfl
  right
  refine ⟨sessionKeyFor session (readProof m).A, ?_⟩
  generalize sessionKeyFor session (readProof m).A = K
  generalize expectedProof session (readProof m).A = M
  split
  · split
    · split
      · exact Or.inr (Or.inr ⟨_, _, rfl⟩)
      · exact Or.inr (Or.inl ⟨_, rfl⟩)
    · exact Or.inr (Or.inr ⟨_, _, rfl⟩)
  · exact Or.inl rfl

/-- The logon proof leaves name and numbers alone. -/
theorem handleLogonProof_same :
    SameNumbers session (handleLogonProof w session m).session ∧
      (handleLogonProof w session m).session.login = session.login := by
  rcases handleLogonProof_cases w session m with h | ⟨K, h | ⟨n, h⟩ | ⟨n, reply, h⟩⟩ <;>
    rw [h] <;> exact ⟨⟨rfl, rfl, rfl, rfl⟩, rfl⟩

/-- The reconnect challenge assigns the name, whatever it answers, and leaves the numbers
alone. -/
theorem handleReconnectChallenge_same :
    SameNumbers session (handleReconnectChallenge w session m).session ∧
      (handleReconnectChallenge w session m).session.login = (readChallenge m).login := by
  unfold handleReconnectChallenge
  simp only
  cases w.sessionKey (readChallenge m).login with
  | none => exact ⟨⟨rfl, rfl, rfl, rfl⟩, rfl⟩
  | some key =>
    simp only
    split <;> exact ⟨⟨rfl, rfl, rfl, rfl⟩, rfl⟩

theorem handleReconnectProof_same :
    SameNumbers session (handleReconnectProof w session m).session ∧
      (handleReconnectProof w session m).session.login = session.login := by
  unfold handleReconnectProof
  simp only
  repeat' split
  all_goals exact ⟨⟨rfl, rfl, rfl, rfl⟩, rfl⟩

theorem handleRealmList_same :
    SameNumbers session (handleRealmList w session m).session ∧
      (handleRealmList w session m).session.login = session.login := by
  unfold handleRealmList
  cases w.accountId session.login <;> exact ⟨⟨rfl, rfl, rfl, rfl⟩, rfl⟩

end Handlers

/-! ## 3. The invariant -/

/-- Session and log agree: on the name, and on the numbers if the most recent logon challenge
succeeded. -/
structure Tied (c : Connection) : Prop where
  name : ∀ login, lastNamed c.log = some login → c.session.login = login
  numbers : ∀ login grant, lastLogonChallenge c.log = some (login, some grant) →
    Holds c.session grant ∧ grant.Stored login ∧ grant.Generated
  challenged : ∀ login grant, lastLogonChallenge c.log = some (login, grant) →
    ∃ name, lastNamed c.log = some name

theorem tied_init : Tied Connection.init where
  name _ h := absurd h (by simp [Connection.init, lastNamed])
  numbers _ _ h := absurd h (by simp [Connection.init, lastLogonChallenge])
  challenged _ _ h := absurd h (by simp [Connection.init, lastLogonChallenge])

/-- An entry that is no challenge, for a handler that leaves name and numbers alone. -/
theorem Tied.of_same {c c' : Connection} {entry : Entry} (h : Tied c)
    (hlog : c'.log = entry :: c.log)
    (hlast : lastLogonChallenge (entry :: c.log) = lastLogonChallenge c.log)
    (hnamed : lastNamed (entry :: c.log) = lastNamed c.log)
    (hs : SameNumbers c.session c'.session ∧ c'.session.login = c.session.login) : Tied c' where
  name login hl := by
    rw [hlog, hnamed] at hl
    exact hs.2.trans (h.name login hl)
  numbers login grant hl := by
    rw [hlog, hlast] at hl
    obtain ⟨hholds, hstored⟩ := h.numbers login grant hl
    exact ⟨hholds.of_same hs.1, hstored⟩
  challenged login grant hl := by
    rw [hlog, hlast] at hl
    rw [hlog, hnamed]
    exact h.challenged login grant hl

theorem tied_dispatch {c : Connection} (h : Tied c) (w : Backend) (handler : AuthHandler) :
    Tied (c.dispatch w handler) := by
  obtain ⟨status, packetSize, command⟩ := handler
  cases command with
  | logonChallenge =>
    exact
      { name := fun login hl => by
          rw [← Option.some.inj hl]
          exact handleLogonChallenge_login w c.session c.buffer
        numbers := fun login grant hl => by
          obtain ⟨rfl, hgrant⟩ := Prod.mk.inj (Option.some.inj hl)
          exact holds_of_grant w c.session c.buffer hgrant
        challenged := fun _ _ _ => ⟨_, rfl⟩ }
  | logonProof =>
    exact h.of_same rfl rfl rfl (handleLogonProof_same w c.session c.buffer)
  | reconnectChallenge =>
    obtain ⟨hsame, hlogin⟩ := handleReconnectChallenge_same w c.session c.buffer
    exact
      { name := fun login hl => by
          rw [← Option.some.inj hl]
          exact hlogin
        numbers := fun login grant hl => by
          obtain ⟨hholds, hstored⟩ := h.numbers login grant hl
          exact ⟨hholds.of_same hsame, hstored⟩
        challenged := fun _ _ _ => ⟨_, rfl⟩ }
  | reconnectProof =>
    exact h.of_same rfl rfl rfl (handleReconnectProof_same w c.session c.buffer)
  | realmList => exact h.of_same rfl rfl rfl (handleRealmList_same w c.session c.buffer)
  | xferAccept => exact h.of_same rfl rfl rfl ⟨⟨rfl, rfl, rfl, rfl⟩, rfl⟩
  | xferResume => exact h.of_same rfl rfl rfl ⟨⟨rfl, rfl, rfl, rfl⟩, rfl⟩
  | xferCancel => exact h.of_same rfl rfl rfl ⟨⟨rfl, rfl, rfl, rfl⟩, rfl⟩

theorem tied_step (c : Connection) (i : Input) (h : Tied c) : Tied (step c i) := by
  rcases step_cases c i with ⟨w, handler, -, -, hstep⟩ | ⟨hsession, hlog, -⟩
  · rw [hstep]
    exact tied_dispatch h w handler
  · exact
      { name := fun login hl => by
          rw [hlog] at hl
          rw [hsession]
          exact h.name login hl
        numbers := fun login grant hl => by
          rw [hlog] at hl
          rw [hsession]
          exact h.numbers login grant hl
        challenged := fun login grant hl => by
          rw [hlog] at hl ⊢
          exact h.challenged login grant hl }

/-- **In every state of every run** the session is bound exactly when the packets came in
order. -/
theorem bound_iff_inOrder (is : List Input) :
    Bound (exec step Connection.init is) ↔ InOrder (exec step Connection.init is).log := by
  have htied := exec_invariant_all (I := Tied) tied_step Connection.init is tied_init
  generalize exec step Connection.init is = c at htied
  rw [inOrder_iff]
  constructor
  · rintro ⟨grant, hlast, -⟩
    obtain ⟨name, hname⟩ := htied.challenged _ _ hlast
    exact ⟨c.session.login, grant, hlast, (htied.name name hname) ▸ hname⟩
  · rintro ⟨login, grant, hlast, hnamed⟩
    have hlogin := htied.name login hnamed
    subst hlogin
    obtain ⟨hholds, hstored, hgenerated⟩ := htied.numbers _ grant hlast
    exact ⟨grant, hlast, hholds, hstored, hgenerated⟩

/-! ## 4. Accepted proofs -/

/-- The proof at the front of the buffer is accepted. -/
def AcceptsProof (w : Backend) (c : Connection) : Prop :=
  (∃ h ∈ c.front, h.command = .logonProof) ∧
    (handleLogonProof w c.session c.buffer).accepted = true

instance (w : Backend) (c : Connection) : Decidable (AcceptsProof w c) :=
  inferInstanceAs (Decidable (_ ∧ _))

/-- A wrong proof stores no key. -/
theorem storesKey_wrongPassActions {w : Backend} {login : Bytes} :
    ∀ a ∈ wrongPassActions w login, a.storesKey = false := by
  intro a ha
  rcases List.mem_append.mp ha with ha | ha
  · split at ha
    · rw [List.mem_singleton.mp ha]
      rfl
    · exact absurd ha List.not_mem_nil
  · split at ha
    · exact absurd ha List.not_mem_nil
    · rcases List.mem_cons.mp ha with rfl | ha
      · rfl
      · repeat' split at ha
        all_goals first
          | exact absurd ha List.not_mem_nil
          | (rw [List.mem_singleton.mp ha]; rfl)

/-- A logon proof comes when the packets before it were in order. -/
def ProofInOrder (c : Connection) (i : Input) : Prop :=
  match i with
  | .round _ => (∃ h ∈ c.front, h.command = .logonProof) → InOrder c.log
  | _ => True

instance (c : Connection) : ∀ i : Input, Decidable (ProofInOrder c i)
  | .round _ => inferInstanceAs (Decidable (_ → _))
  | .received _ => isTrue trivial
  | .lost => isTrue trivial

/-- **Accepted proofs are bound in every run whose logon proofs come in order.** -/
theorem bound_of_proofInOrder (is : List Input) (w : Backend)
    (h : Along step ProofInOrder Connection.init (is ++ [.round w]))
    (haccepts : AcceptsProof w (exec step Connection.init is)) :
    Bound (exec step Connection.init is) :=
  (bound_iff_inOrder is).mpr (h.at haccepts.1)

/-- `AB` logs on. -/
def logonRun : List Input :=
  sends (challengePacket 0x00 (bytes "AB")) ++ [.round .plain,
    .received (proofPacket [182, 118, 213, 63, 77, 157, 143, 179, 202, 128, 218, 47, 139, 33, 61,
      203, 8, 147, 156, 23])]

theorem bound_of_proofInOrder_logonRun : Bound (exec step Connection.init logonRun) :=
  bound_of_proofInOrder logonRun .plain (by decide +kernel) (by decide +kernel)

/-- Somebody names `AB` in a reconnect challenge, and proves that he knows the numbers of a new
connection. -/
def strangerRun : List Input :=
  sends (challengePacket 0x02 (bytes "AB")) ++ [.round .plain,
    .received (proofPacket [139, 225, 19, 145, 68, 184, 1, 86, 53, 245, 112, 67, 126, 238, 133,
      229, 251, 72, 214, 210])]

/-- The proof of the stranger is accepted: he is logged on as `AB` without a password. -/
theorem stranger_accepted :
    AcceptsProof .plain (exec step Connection.init strangerRun) ∧
      (exec step Connection.init strangerRun).session.login = bytes "AB" ∧
      (exec step Connection.init (strangerRun ++ [.round .plain])).session.isAuthenticated = true ∧
      ¬ Bound (exec step Connection.init strangerRun) := by
  refine ⟨by decide +kernel, by decide +kernel, by decide +kernel, ?_⟩
  rw [bound_iff_inOrder]
  decide +kernel

end HungerGames.Auth
