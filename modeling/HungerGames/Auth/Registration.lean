/-
# Accounts by logging on (`HandleLogonChallenge`)

A login `?username?password?` creates an account: the handler does what `CreateAccount` does, by
its own code.  It does not look at the length of the name, turns every octet into a capital and not
the first 16 characters of strings that are short enough, and does not ask for valid UTF-8.

So the two agree on a name of at most 16 characters of the basic plane, with a password of that
kind or one that has no small letters (`agrees_iff`); the handler creates accounts for longer
names, which `CreateAccount` turns down.  What is between the separators is found as it should be
(`credentials_iff`), but that a name of one letter is turned away.
-/
import HungerGames.Accounts.AccountMgr
import HungerGames.Auth.Connection

namespace HungerGames.Auth

open HungerGames.Accounts
open HungerGames.Crypto (sha1 length_sha1)
open HungerGames.Lua (Bytes bytes)
open HungerGames.Utilities
open BigNumber

/-! ## 1. What is between the separators -/

/-- The name and the password, by `find` and `rfind`. -/
def credentials (login : Bytes) : Option (Bytes × Bytes) :=
  match (login.drop 1).findIdx? (· == 63) with
  | none => none
  | some i =>
    let passStart := i + 2
    let passEnd := login.length - 1 - login.reverse.findIdx (· == 63)
    if passStart < 4 ∨ passEnd ≤ passStart then none
    else some ((login.drop 1).take (passStart - 2), (login.drop passStart).take (passEnd - passStart))

/-- `?name?password?`, with the last `?` of all behind the password. -/
def Between (login name password : Bytes) : Prop :=
  ∃ behind, login = 63 :: (name ++ 63 :: (password ++ 63 :: behind)) ∧ 63 ∉ name ∧ 63 ∉ behind ∧
    name ≠ [] ∧ password ≠ []

theorem registration_eq (w : Backend) (login : Bytes) : registration w login =
    match credentials login with
    | none => .refused .failNoGameAccount
    | some (name, password) =>
      if (w.accountId (toUpper name)).isSome then .refused .failInternetGameRoomWithoutBnet
      else .registered (toUpper name) (toUpper password) := by
  unfold registration credentials
  cases (login.drop 1).findIdx? (· == 63) with
  | none => rfl
  | some i =>
    dsimp only
    split <;> rfl

theorem ne_separator {xs : Bytes} (h : 63 ∉ xs) : ∀ x ∈ xs, (x == 63) = false := by
  intro x hx
  rw [beq_eq_false_iff_ne]
  rintro rfl
  exact h hx

/-- The first separator. -/
theorem findIdx?_separator {xs ys : Bytes} (h : 63 ∉ xs) :
    (xs ++ 63 :: ys).findIdx? (· == 63) = some xs.length := by
  rw [List.findIdx?_append, List.findIdx?_eq_none_iff.mpr (ne_separator h), List.findIdx?_cons,
    if_pos (by decide), Option.map_some, Option.none_or, Nat.zero_add]

/-- The last separator. -/
theorem findIdx_reverse (xs : Bytes) {ys : Bytes} (h : 63 ∉ ys) :
    (xs ++ 63 :: ys).reverse.findIdx (· == 63) = ys.length := by
  have hnone : ys.reverse.findIdx (· == 63) = ys.reverse.length :=
    List.findIdx_eq_length_of_false (ne_separator fun hmem => h (List.mem_reverse.mp hmem))
  rw [List.reverse_append, List.reverse_cons, List.append_assoc, List.findIdx_append, hnone,
    if_neg (Nat.lt_irrefl _), List.singleton_append, List.findIdx_cons, List.length_reverse]
  exact Nat.zero_add _

variable {name password : Bytes}

/-- What the handler finds between the separators. -/
theorem credentials_eq {behind : Bytes} (hname : 63 ∉ name) (hbehind : 63 ∉ behind) :
    credentials (63 :: (name ++ 63 :: (password ++ 63 :: behind))) =
      if name.length < 2 ∨ password = [] then none else some (name, password) := by
  have hlast := findIdx_reverse (63 :: (name ++ 63 :: password)) hbehind
  rw [List.cons_append, List.append_assoc, List.cons_append] at hlast
  have hlength : (63 :: (name ++ 63 :: (password ++ 63 :: behind)) : Bytes).length =
      name.length + password.length + behind.length + 3 := by
    simp only [List.length_cons, List.length_append]
    omega
  have hend : name.length + password.length + behind.length + 3 - 1 - behind.length =
      name.length + 2 + password.length := by omega
  unfold credentials
  rw [List.drop_one, List.tail_cons, findIdx?_separator hname]
  dsimp only
  rw [hlast, hlength, hend]
  by_cases hbad : name.length < 2 ∨ password = []
  · rw [if_pos hbad, if_pos]
    rcases hbad with h | rfl
    · exact Or.inl (by omega)
    · exact Or.inr (Nat.le_of_eq (Nat.add_zero _))
  · rw [not_or] at hbad
    have hpos := List.length_pos_of_ne_nil hbad.2
    have hdrop : (63 :: (name ++ 63 :: (password ++ 63 :: behind)) : Bytes).drop (name.length + 2) =
        password ++ 63 :: behind := by
      rw [List.drop_succ_cons, List.drop_append, List.drop_of_length_le (Nat.le_succ _),
        List.nil_append, Nat.add_sub_cancel_left]
      rfl
    rw [if_neg (not_or.mpr hbad), if_neg (by omega), hdrop, Nat.add_sub_cancel, List.take_left,
      Nat.add_sub_cancel_left, List.take_left]

/-- **The handler finds what is between the separators**, when the name has two letters or
more. -/
theorem credentials_iff {login : Bytes} (hhead : login.head? = some 63) :
    credentials login = some (name, password) ↔
      Between login name password ∧ 2 ≤ name.length := by
  constructor
  · intro h
    obtain ⟨rest, rfl⟩ : ∃ rest, login = 63 :: rest := by
      cases login with
      | nil => cases hhead
      | cons c rest => exact ⟨rest, by rw [Option.some_inj.mp hhead]⟩
    by_cases hfirst : 63 ∈ rest
    · obtain ⟨name', rest', rfl, hname⟩ := List.eq_append_cons_of_mem hfirst
      by_cases hlast : 63 ∈ rest'
      · obtain ⟨behind, password', hrest, hbehind⟩ :=
          List.eq_append_cons_of_mem (List.mem_reverse.mpr hlast)
        have hsplit : rest' = password'.reverse ++ 63 :: behind.reverse := by
          rw [← rest'.reverse_reverse, hrest, List.reverse_append, List.reverse_cons,
            List.append_assoc, List.singleton_append]
        have hbehind' : 63 ∉ behind.reverse := fun hmem => hbehind (List.mem_reverse.mp hmem)
        subst hsplit
        rw [credentials_eq hname hbehind'] at h
        by_cases hbad : name'.length < 2 ∨ password'.reverse = []
        · rw [if_pos hbad] at h
          cases h
        · rw [if_neg hbad] at h
          cases h
          rw [not_or] at hbad
          refine ⟨⟨_, rfl, hname, hbehind', ?_, hbad.2⟩, by omega⟩
          rintro rfl
          exact hbad.1 (by decide)
      · -- two separators in all: the last one is the one behind the name
        have hend := findIdx_reverse (63 :: name') hlast
        rw [List.cons_append] at hend
        unfold credentials at h
        rw [List.drop_one, List.tail_cons, findIdx?_separator hname] at h
        dsimp only at h
        rw [hend, if_pos (Or.inr ?_)] at h
        · cases h
        · simp only [List.length_cons, List.length_append]
          omega
    · unfold credentials at h
      rw [List.drop_one, List.tail_cons, List.findIdx?_eq_none_iff.mpr (ne_separator hfirst)] at h
      cases h
  · rintro ⟨⟨behind, rfl, hname, hbehind, -, hpassword⟩, hlength⟩
    rw [credentials_eq hname hbehind, if_neg]
    rintro (h | h)
    · omega
    · exact hpassword h

theorem Between.unique {login name' password' : Bytes}
    (hfound : credentials login = some (name, password)) (h : Between login name' password') :
    name = name' ∧ password = password' := by
  obtain ⟨behind, rfl, hname, hbehind, -, -⟩ := h
  rw [credentials_eq hname hbehind] at hfound
  split at hfound
  · cases hfound
  · cases hfound
    exact ⟨rfl, rfl⟩

/-! ## 2. The rows of a challenge -/

/-- A statement that inserts an account. -/
def Action.row : Action → Option Statement
  | .execute (.insAccount username shaPassHash regMail email) =>
    some (.insAccount username shaPassHash regMail email)
  | _ => none

/-- The accounts a handler inserts. -/
def insertedRows (h : Handled) : List Statement := h.actions.filterMap Action.row

/-- A challenge gets to the registration. -/
def Branch (w : Backend) (m : MessageBuffer) : Prop :=
  (readChallenge m).os.length ≤ 4 ∧ w.ipBanned = false ∧
    w.account (readChallenge m).login = none ∧ (readChallenge m).login.head? = some 63

theorem rows_expiredBans (w : Backend) (login : Bytes) :
    (expiredBans w login).filterMap Action.row = [] := by
  unfold expiredBans
  split
  · rfl
  · split
    · split <;> rfl
    · rfl

theorem rows_saltAndVerifier (w : Backend) (session : Session) (account : Account) :
    (saltAndVerifier w session account).2.filterMap Action.row = [] := by
  unfold saltAndVerifier
  split <;> rfl

/-- Only a registration creates an account. -/
theorem verdict_registered_iff {w : Backend} {login username : Bytes} :
    verdict w login = .registered username password ↔
      w.ipBanned = false ∧ w.account login = none ∧ login.head? = some 63 ∧
        registration w login = .registered username password := by
  constructor
  · intro h
    unfold verdict at h
    split at h
    · cases h
    · next hbanned =>
      refine ⟨by simpa using hbanned, ?_⟩
      cases haccount : w.account login with
      | some account =>
        rw [haccount] at h
        dsimp only at h
        split at h <;> cases h
      | none =>
        rw [haccount] at h
        by_cases hhead : login.head? = some 63
        · rw [if_pos hhead] at h
          exact ⟨rfl, hhead, h⟩
        · rw [if_neg hhead] at h
          cases h
  · rintro ⟨hbanned, haccount, hhead, h⟩
    unfold verdict
    rw [hbanned, haccount]
    rw [if_neg Bool.false_ne_true, if_pos hhead, h]

theorem registration_registered_iff {w : Backend} {login username : Bytes} :
    registration w login = .registered username password ↔ ∃ name pass,
      credentials login = some (name, pass) ∧ w.accountId (toUpper name) = none ∧
        username = toUpper name ∧ password = toUpper pass := by
  rw [registration_eq]
  constructor
  · intro h
    cases hfound : credentials login with
    | none =>
      rw [hfound] at h
      cases h
    | some found =>
      obtain ⟨name, pass⟩ := found
      rw [hfound] at h
      dsimp only at h
      split at h
      · cases h
      · next hfree =>
        cases h
        exact ⟨name, pass, rfl, by simpa using hfree, rfl, rfl⟩
  · rintro ⟨name, pass, hfound, hfree, rfl, rfl⟩
    rw [hfound]
    dsimp only
    rw [hfree]
    exact if_neg Bool.false_ne_true

theorem insertedRows_done (w : Backend) (session : Session) (login : Bytes)
    (actions : List Action) :
    insertedRows (.done session (expiredBans w login ++ actions)) =
      actions.filterMap Action.row := by
  rw [insertedRows, Handled.done, List.filterMap_append, rows_expiredBans, List.nil_append]

/-- **The row a challenge inserts**: one, when it gets to the registration, finds a name and a
password, and the name is free. -/
theorem mem_insertedRows {w : Backend} {session : Session} {m : MessageBuffer} {row : Statement} :
    row ∈ insertedRows (handleLogonChallenge w session m) ↔ Branch w m ∧ ∃ name password,
      credentials (readChallenge m).login = some (name, password) ∧
        w.accountId (toUpper name) = none ∧
        row = .insAccount (toUpper name)
          (calculateShaPassHash (toUpper name) (toUpper password)) [] [] := by
  unfold handleLogonChallenge
  constructor
  · intro h
    by_cases hos : 4 < (readChallenge m).os.length
    · rw [if_pos hos] at h
      cases h
    rw [if_neg hos] at h
    cases hverdict : verdict w (readChallenge m).login with
    | refused result =>
      rw [hverdict] at h
      rw [insertedRows_done] at h
      cases h
    | granted account =>
      rw [hverdict] at h
      dsimp only at h
      rw [List.append_assoc, insertedRows_done, List.filterMap_append, rows_saltAndVerifier] at h
      cases h
    | registered username password =>
      rw [hverdict] at h
      rw [insertedRows_done] at h
      obtain ⟨hbanned, haccount, hhead, hregistered⟩ := verdict_registered_iff.mp hverdict
      obtain ⟨name, pass, hfound, hfree, rfl, rfl⟩ := registration_registered_iff.mp hregistered
      exact ⟨⟨Nat.le_of_not_lt hos, hbanned, haccount, hhead⟩, name, pass, hfound, hfree,
        List.mem_singleton.mp h⟩
  · rintro ⟨⟨hos, hbanned, haccount, hhead⟩, name, password, hfound, hfree, rfl⟩
    have hverdict := verdict_registered_iff.mpr ⟨hbanned, haccount, hhead,
      registration_registered_iff.mpr ⟨name, password, hfound, hfree, rfl, rfl⟩⟩
    rw [if_neg (Nat.not_lt_of_le hos), hverdict]
    rw [insertedRows_done]
    exact List.mem_singleton.mpr rfl

/-! ## 3. Agreement -/

/-- The accounts a challenge inserts are those `CreateAccount` inserts for what is between the
separators. -/
def Agrees (w : Backend) (session : Session) (m : MessageBuffer) : Prop :=
  ∀ row ∈ insertedRows (handleLogonChallenge w session m), ∃ name password,
    Between (readChallenge m).login name password ∧
      createAccount w.accountId name password [] = (.ok, [row, .insRealmCharactersInit])

/-- The digests of two passwords of an account are the same. -/
def SameDigest (username password password' : Bytes) : Prop :=
  sha1 (username ++ bytes ":" ++ password) = sha1 (username ++ bytes ":" ++ password')

theorem byteArrayToHexStr_injective {bs bs' : Bytes} (hlength : bs.length = bs'.length)
    (h : byteArrayToHexStr bs = byteArrayToHexStr bs') : bs = bs' := by
  have hvalue : hexValue (byteArrayToHexStr bs) 0 = hexValue (byteArrayToHexStr bs') 0 := by rw [h]
  rw [hexValue_byteArrayToHexStr, hexValue_byteArrayToHexStr, Nat.zero_mul, Nat.zero_mul,
    Nat.zero_add, Nat.zero_add] at hvalue
  exact List.reverse_injective (setBinary_injective (by simpa using hlength) hvalue)

theorem calculateShaPassHash_inj {username password' : Bytes} :
    calculateShaPassHash username password = calculateShaPassHash username password' ↔
      SameDigest username password password' := by
  constructor
  · intro h
    exact byteArrayToHexStr_injective ((length_sha1 _).trans (length_sha1 _).symm) h
  · intro h
    exact congrArg byteArrayToHexStr h

theorem normalizeString_nil : normalizeString [] = [] :=
  normalizeString_normal ⟨[], rfl, fun _ hc => absurd hc List.not_mem_nil, Nat.zero_le _⟩

theorem createAccount_eq (accountId : Bytes → Option ℕ) (name password : Bytes) :
    createAccount accountId name password [] =
      if MAX_ACCOUNT_STR < (utf8length name).1 then (.nameTooLong, [])
      else if (accountId (normalizeString (utf8length name).2)).getD 0 ≠ 0 then
        (.nameAlreadyExist, [])
      else (.ok, [.insAccount (normalizeString (utf8length name).2)
        (calculateShaPassHash (normalizeString (utf8length name).2) (normalizeString password)) [] [],
        .insRealmCharactersInit]) := by
  rw [createAccount, normalizeString_nil]

variable {accountId : Bytes → Option ℕ}

/-- `CreateAccount` for a name that fits. -/
theorem createAccount_normal (password : Bytes) (hname : Normal name)
    (hfree : accountId (toUpper name) = none) :
    createAccount accountId name password [] = (.ok, [.insAccount (toUpper name)
      (calculateShaPassHash (toUpper name) (normalizeString password)) [] [],
      .insRealmCharactersInit]) := by
  have hnormal := normalizeString_normal hname
  obtain ⟨chars, hs, -, hlength⟩ := hname
  have hcount : utf8length name = (chars.length, name) := by
    rw [utf8length, hs, distance_utf8]
  rw [createAccount_eq, hcount]
  rw [if_neg (Nat.not_lt_of_le hlength), hnormal, hfree]
  exact if_neg fun h => h rfl

/-- A name that does not fit: `CreateAccount` does not insert it in capitals. -/
theorem normal_of_createAccount {digest : Bytes} (hne : name ≠ [])
    (h : createAccount accountId name password [] =
      (.ok, [.insAccount (toUpper name) digest [] [], .insRealmCharactersInit])) : Normal name := by
  have hlength : (toUpper name).length = name.length := List.length_map _
  rw [createAccount_eq] at h
  split at h
  · cases h
  split at h
  · cases h
  next hshort _ =>
  have hupper : normalizeString (utf8length name).2 = toUpper name := by injections
  unfold utf8length at hupper hshort
  cases hdistance : distance name with
  | error fault =>
    -- the name is cleared
    rw [hdistance] at hupper
    rw [normalizeString_nil] at hupper
    rw [← hupper] at hlength
    exact absurd (List.eq_nil_of_length_eq_zero hlength.symm) hne
  | ok len =>
    obtain ⟨chars, hs, rfl⟩ := distance_ok_iff.mp hdistance
    rw [hdistance] at hupper hshort
    rcases normalizeString_cases name with ⟨hnormal, -⟩ | ⟨halone, -⟩ | ⟨-, -, hcut⟩
    · exact hnormal
    · exact absurd (halone chars hs) hshort
    · rw [hupper, hlength] at hcut
      exact absurd hcut (Nat.lt_irrefl _)

/-- What `CreateAccount` needs to insert the row of a registration: a name that fits, and a
password that fits, or has no small letters, or that happens to have the same digest. -/
def Fits (name password : Bytes) : Prop :=
  Normal name ∧ (Normal password ∨ (LeftAlone password ∧ toUpper password = password) ∨
    (normalizeString password ≠ toUpper password ∧
      SameDigest (toUpper name) (normalizeString password) (toUpper password)))

theorem createAccount_iff (hne : name ≠ []) (hfree : accountId (toUpper name) = none) :
    createAccount accountId name password [] = (.ok, [.insAccount (toUpper name)
        (calculateShaPassHash (toUpper name) (toUpper password)) [] [],
        .insRealmCharactersInit]) ↔
      Fits name password := by
  constructor
  · intro h
    have hname := normal_of_createAccount hne h
    refine ⟨hname, ?_⟩
    rw [createAccount_normal password hname hfree] at h
    have hdigest : calculateShaPassHash (toUpper name) (normalizeString password) =
        calculateShaPassHash (toUpper name) (toUpper password) := by injections
    by_cases hsame : normalizeString password = toUpper password
    · rcases normalizeString_cases password with ⟨hnormal, -⟩ | ⟨halone, hkept⟩ | ⟨-, -, hcut⟩
      · exact Or.inl hnormal
      · exact Or.inr (Or.inl ⟨halone, hsame.symm.trans hkept⟩)
      · rw [hsame, toUpper, List.length_map] at hcut
        exact absurd hcut (Nat.lt_irrefl _)
    · exact Or.inr (Or.inr ⟨hsame, calculateShaPassHash_inj.mp hdigest⟩)
  · rintro ⟨hname, hpassword⟩
    have hdigest : calculateShaPassHash (toUpper name) (normalizeString password) =
        calculateShaPassHash (toUpper name) (toUpper password) := by
      rcases hpassword with hnormal | ⟨halone, hcapitals⟩ | ⟨-, hsame⟩
      · rw [normalizeString_normal hnormal]
      · rw [normalizeString_leftAlone halone, hcapitals]
      · exact calculateShaPassHash_inj.mpr hsame
    rw [createAccount_normal password hname hfree, hdigest]

/-- **The accounts created by logging on are those `CreateAccount` would create**, if and only if
the name fits, and the password fits or has no small letters. -/
theorem agrees_iff (w : Backend) (session : Session) (m : MessageBuffer) :
    Agrees w session m ↔ (Branch w m → ∀ name password,
      Between (readChallenge m).login name password → 2 ≤ name.length →
        w.accountId (toUpper name) = none → Fits name password) := by
  constructor
  · intro h hbranch name password hbetween hlength hfree
    have hfound := (credentials_iff hbranch.2.2.2).mpr ⟨hbetween, hlength⟩
    obtain ⟨name', password', hbetween', hrow⟩ := h _
      (mem_insertedRows.mpr ⟨hbranch, name, password, hfound, hfree, rfl⟩)
    obtain ⟨rfl, rfl⟩ := Between.unique hfound hbetween'
    exact (createAccount_iff (List.ne_nil_of_length_pos (Nat.lt_of_lt_of_le Nat.two_pos hlength))
      hfree).mp hrow
  · intro h row hrow
    obtain ⟨hbranch, name, password, hfound, hfree, rfl⟩ := mem_insertedRows.mp hrow
    obtain ⟨hbetween, hlength⟩ := (credentials_iff hbranch.2.2.2).mp hfound
    have hne : name ≠ [] := List.ne_nil_of_length_pos (Nat.lt_of_lt_of_le Nat.two_pos hlength)
    exact ⟨name, password, hbetween, (createAccount_iff hne hfree).mpr
      (h hbranch name password hbetween hlength hfree)⟩

/-- A challenge for the login `?AAAAAAAAAAAAAAAAA?p?`: a name of seventeen letters. -/
def longNameChallenge : MessageBuffer where
  rpos := 0
  wpos := 55
  storage i := (challengePacket 0x00 (bytes "?AAAAAAAAAAAAAAAAA?p?")).getD i 0

/-- The handler creates the account; `CreateAccount` says that the name is too long. -/
theorem not_agrees_longName : ¬ Agrees .plain Session.init longNameChallenge := by
  intro h
  have hlogin : (readChallenge longNameChallenge).login = bytes "?AAAAAAAAAAAAAAAAA?p?" := by decide
  have hbranch : Branch .plain longNameChallenge := by
    refine ⟨by decide, rfl, ?_, ?_⟩ <;> rw [hlogin] <;> decide
  have hfound : credentials (readChallenge longNameChallenge).login =
      some (bytes "AAAAAAAAAAAAAAAAA", bytes "p") := by
    rw [hlogin]
    decide
  obtain ⟨name, password, hbetween, hrow⟩ := h _
    (mem_insertedRows.mpr ⟨hbranch, _, _, hfound, by decide, rfl⟩)
  obtain ⟨rfl, rfl⟩ := Between.unique hfound hbetween
  obtain ⟨chars, hs, -, hlength⟩ := normal_of_createAccount (by decide) hrow
  have hcount := distance_utf8 chars
  rw [← hs, show bytes "AAAAAAAAAAAAAAAAA" = utf8 (List.replicate 17 'A') from by decide,
    distance_utf8] at hcount
  injection hcount with hcount
  rw [← hcount] at hlength
  exact absurd hlength (by decide)

end HungerGames.Auth
