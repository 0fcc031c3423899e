/-
# The list of realms (`HandleRealmList`, `SendPacket`)

The packet has a `uint16` for the bytes that follow, a count of realms, a record for each realm and
two bytes more.  `SendPacket` copies it into a `MessageBuffer` of 4096 bytes, whatever its size.

The length of a record depends on the realm's name and address and on what the client's version is
told (`recordSize`).  As long as the whole packet has at most 4096 bytes, its length and its count
are right and the copy stays inside (`realmList_iff`); a longer one is written past the end of the
buffer.  That `append` refuses to go on after ten million bytes is not modelled.
-/
import HungerGames.Auth.ByteArrays
import HungerGames.Auth.Connection

namespace HungerGames.Auth

open HungerGames.Lua (Bytes bytes)
open BigNumber

/-! ## 1. The size of the packet -/

/-- `okBuild` -/
def OkBuild (session : Session) (realm : Realm) : Prop :=
  (session.expversion = .postBc ∧ realm.gamebuild = session.build) ∨
    (session.expversion = .preBc ∧ isPreBCAcceptedClientBuild realm.gamebuild = false)

instance (session : Session) (realm : Realm) : Decidable (OkBuild session realm) :=
  inferInstanceAs (Decidable (_ ∨ _))

/-- The version the record of a realm tells: of a known build, when the realm is not of the
client's, or has the flag for it. -/
def specifiedBuild (session : Session) (realm : Realm) : Option RealmBuildInfo :=
  if OkBuild session realm ∧ realm.flag &&& 4 = 0 then none else getBuildInfo realm.gamebuild

/-- The version behind the name of a realm. -/
def versionText (info : RealmBuildInfo) : Bytes :=
  bytes s!" ({info.majorVersion}.{info.minorVersion}.{info.bugfixVersion})"

/-- The bytes a version takes. -/
def versionSize : Expversion → Option RealmBuildInfo → ℕ
  | .postBc, some _ => 5
  | .preBc, some info => (versionText info).length
  | _, _ => 0

/-- The bytes of the record of a realm. -/
def recordSize (session : Session) (realm : Realm) : ℕ :=
  if ¬ OkBuild session realm ∧ getBuildInfo realm.gamebuild = none then 0
  else 7 + (if session.expversion = .postBc then 1 else 0) + realm.name.length +
    realm.address.length + realm.populationLevel.length +
    versionSize session.expversion (specifiedBuild session realm)

/-- The bytes of the count of realms. -/
def countSize (session : Session) : ℕ := if session.expversion = .postBc then 2 else 4

/-- The bytes of the packet. -/
def realmListSize (session : Session) (realms : List Realm) : ℕ :=
  3 + (4 + countSize session) + (realms.map (recordSize session)).sum + 2

theorem length_littleEndian (len n : ℕ) : (littleEndian len n).length = len :=
  length_lowBytes n len

/-- The flags of a realm say that a version follows. -/
theorem specified_eq (session : Session) (realm : Realm) :
    let flag := if OkBuild session realm then realm.flag else realm.flag ||| 2 ||| 4
    let flag := if getBuildInfo realm.gamebuild = none then flag &&& (2 ^ 32 - 1 - 4) else flag
    (if flag &&& 4 ≠ 0 then getBuildInfo realm.gamebuild else none) =
      specifiedBuild session realm := by
  dsimp only
  unfold specifiedBuild
  by_cases hknown : getBuildInfo realm.gamebuild = none
  · rw [hknown, ite_self, ite_self]
  · rw [if_neg hknown]
    by_cases hok : OkBuild session realm
    · rw [if_pos hok]
      by_cases hflag : realm.flag &&& 4 = 0
      · rw [if_neg (not_not.mpr hflag), if_pos ⟨hok, hflag⟩]
      · rw [if_pos hflag, if_neg fun h => hflag h.2]
    · have hset : (realm.flag ||| 2 ||| 4) &&& 4 ≠ 0 := by
        intro h0
        have hbit := congrArg (Nat.testBit · 2) h0
        rw [Nat.testBit_and, Nat.testBit_or] at hbit
        simp [show Nat.testBit 4 2 = true from rfl] at hbit
      rw [if_neg hok, if_pos hset, if_neg fun h => hok h.1]

/-- The record, with the version it tells. -/
theorem realmRecord_eq (w : Backend) (session : Session) (account : ℕ) (realm : Realm) :
    ∃ flag lock : UInt8, realmRecord w session account realm =
      if ¬ OkBuild session realm ∧ getBuildInfo realm.gamebuild = none then none
      else some <|
        littleEndian 1 realm.icon ++ (if session.expversion = .postBc then [lock] else []) ++
        [flag] ++
        (match session.expversion, specifiedBuild session realm with
          | .preBc, some info => realm.name ++ versionText info
          | _, _ => realm.name) ++
        [0] ++ realm.address ++ [0] ++ realm.populationLevel ++
        littleEndian 1 ((w.numChars realm.id account).getD 0) ++ littleEndian 1 realm.timezone ++
        littleEndian 1 (if session.expversion = .postBc then realm.id else 0) ++
        match session.expversion, specifiedBuild session realm with
        | .postBc, some info =>
          littleEndian 1 info.majorVersion ++ littleEndian 1 info.minorVersion ++
            littleEndian 1 info.bugfixVersion ++ littleEndian 2 info.build
        | _, _ => [] := by
  rw [← specified_eq]
  exact ⟨_, _, rfl⟩

/-- **The record of a realm has the size it is computed to have**, none at all included. -/
theorem length_realmRecord (w : Backend) (session : Session) (account : ℕ) (realm : Realm) :
    ((realmRecord w session account realm).map List.length).getD 0 = recordSize session realm := by
  obtain ⟨flag, lock, hrecord⟩ := realmRecord_eq w session account realm
  rw [hrecord, recordSize]
  by_cases hlisted : ¬ OkBuild session realm ∧ getBuildInfo realm.gamebuild = none
  · rw [if_pos hlisted, if_pos hlisted]
    rfl
  · rw [if_neg hlisted, if_neg hlisted, Option.map_some, Option.getD_some]
    simp only [List.length_append, length_littleEndian, List.length_singleton]
    cases session.expversion <;> cases specifiedBuild session realm <;>
      simp [versionSize, length_littleEndian] <;> omega

variable {session : Session}

theorem recordSize_of_some {w : Backend} {account : ℕ} {realm : Realm} {record : Bytes}
    (h : realmRecord w session account realm = some record) :
    record.length = recordSize session realm ∧ record ≠ [] := by
  have hlength := length_realmRecord w session account realm
  rw [h, Option.map_some, Option.getD_some] at hlength
  refine ⟨hlength, fun hnil => ?_⟩
  obtain ⟨flag, lock, hrecord⟩ := realmRecord_eq w session account realm
  rw [h] at hrecord
  split at hrecord
  · cases hrecord
  · rw [hnil, Option.some_inj] at hrecord
    have hlengths := congrArg List.length hrecord
    simp only [List.length_append, length_littleEndian, List.length_nil] at hlengths
    omega

/-- The records take the sum of their sizes. -/
theorem length_flatten_records (w : Backend) (session : Session) (account : ℕ) :
    ∀ realms : List Realm, (realms.filterMap (realmRecord w session account)).flatten.length =
      (realms.map (recordSize session)).sum := by
  intro realms
  induction realms with
  | nil => rfl
  | cons realm realms ih =>
    have hlength := length_realmRecord w session account realm
    rw [List.map_cons, List.sum_cons, ← hlength, ← ih, List.filterMap_cons]
    cases realmRecord w session account realm with
    | none => simp
    | some record => simp

/-! ## 2. The packet -/

/-- The size the constructor gives a `MessageBuffer`. -/
def messageBufferSize : ℕ := 4096

/-- `SendPacket`: the packet is copied into a new buffer. -/
def sendPacket (packet : Bytes) : MessageBuffer := MessageBuffer.empty.write packet

/-- The copy ends inside the buffer. -/
def CopiedInside (packet : Bytes) : Prop := (sendPacket packet).wpos ≤ messageBufferSize

/-- A packet has the right length and the right count for the records in it. -/
structure Framed (session : Session) (records : List Bytes) (packet : Bytes) : Prop where
  length : setBinary ((packet.drop 1).take 2) = (packet.drop 3).length
  count : setBinary ((packet.drop 7).take (countSize session)) = records.length
  follow : ∃ trailer, trailer.length = 2 ∧
    packet.drop (7 + countSize session) = records.flatten ++ trailer

/-- The packet of a list of records. -/
def realmListPacket (session : Session) (records : List Bytes) : Bytes :=
  let pkt := records.flatten ++ if session.expversion = .postBc then [0x10, 0x00] else [0x00, 0x02]
  let size := littleEndian 4 0 ++ littleEndian (countSize session) records.length
  [0x10] ++ littleEndian 2 (pkt.length + size.length) ++ size ++ pkt

theorem handleRealmList_eq {w : Backend} {id : ℕ} (m : MessageBuffer)
    (hid : w.accountId session.login = some id) :
    handleRealmList w session m = .done session
      [.send (realmListPacket session (w.realms.filterMap (realmRecord w session id)))] := by
  unfold handleRealmList
  rw [hid]
  rfl

theorem length_realmListPacket (session : Session) (records : List Bytes) :
    (realmListPacket session records).length =
      3 + (4 + countSize session) + records.flatten.length + 2 := by
  unfold realmListPacket
  simp only [List.length_append, length_littleEndian, List.length_singleton]
  split <;> simp only [List.length_cons, List.length_nil] <;> omega

/-- The packet of the realms of the server has the size computed for them. -/
theorem length_listedPacket (w : Backend) (session : Session) (id : ℕ) :
    (realmListPacket session (w.realms.filterMap (realmRecord w session id))).length =
      realmListSize session w.realms := by
  rw [length_realmListPacket, length_flatten_records]
  rfl

theorem copiedInside_iff (packet : Bytes) :
    CopiedInside packet ↔ packet.length ≤ messageBufferSize := by
  unfold CopiedInside sendPacket MessageBuffer.write MessageBuffer.empty
  rw [Nat.zero_add]

theorem sent_packet {w : Backend} {id : ℕ} {m : MessageBuffer} {packet : Bytes}
    (hid : w.accountId session.login = some id)
    (h : handleRealmList w session m = .done session [.send packet]) :
    packet = realmListPacket session (w.realms.filterMap (realmRecord w session id)) := by
  rw [handleRealmList_eq m hid] at h
  injection h with _ hactions
  injection hactions with hsend
  injection hsend with hpacket
  exact hpacket.symm

/-- A count is no larger than what it counts is long. -/
theorem length_le_flatten {records : List Bytes} (h : ∀ record ∈ records, record ≠ []) :
    records.length ≤ records.flatten.length := by
  induction records with
  | nil => exact Nat.zero_le _
  | cons record records ih =>
    obtain ⟨hrecord, hrecords⟩ := List.forall_mem_cons.mp h
    have hpos := List.length_pos_of_ne_nil hrecord
    have hle := ih hrecords
    rw [List.flatten_cons, List.length_append, List.length_cons]
    omega

/-- **A packet of fewer than `2^16` bytes is framed right.** -/
theorem framed_realmListPacket {records : List Bytes} (hrecords : ∀ record ∈ records, record ≠ [])
    (hsmall : (realmListPacket session records).length < 2 ^ 16) :
    Framed session records (realmListPacket session records) := by
  have hlength := length_realmListPacket session records
  have hcount := length_le_flatten hrecords
  obtain ⟨trailer, htrailer, hpacket⟩ : ∃ trailer : Bytes, trailer.length = 2 ∧
      realmListPacket session records =
        [0x10] ++ (littleEndian 2 (records.flatten.length + 2 + (4 + countSize session)) ++
          (littleEndian 4 0 ++ (littleEndian (countSize session) records.length ++
            (records.flatten ++ trailer)))) := by
    refine ⟨if session.expversion = .postBc then [0x10, 0x00] else [0x00, 0x02], ?_, ?_⟩
    · split <;> rfl
    · unfold realmListPacket
      simp only [List.length_append, length_littleEndian, List.append_assoc]
      split <;> rfl
  have hwidth : countSize session = 2 ∨ countSize session = 4 := by
    unfold countSize
    split
    · exact Or.inl rfl
    · exact Or.inr rfl
  have hbehind : (realmListPacket session records).drop 7 =
      littleEndian (countSize session) records.length ++ (records.flatten ++ trailer) := by
    rw [hpacket]
    rfl
  refine ⟨?_, ?_, trailer, htrailer, ?_⟩
  · have hfield : ((realmListPacket session records).drop 1).take 2 =
        littleEndian 2 (records.flatten.length + 2 + (4 + countSize session)) := by
      rw [hpacket]
      rfl
    rw [hfield, littleEndian, setBinary_lowBytes, List.length_drop, hlength, Nat.mod_eq_of_lt]
    · omega
    · rw [hlength] at hsmall
      omega
  · rw [hbehind, List.take_left' (length_littleEndian _ _), littleEndian, setBinary_lowBytes,
      Nat.mod_eq_of_lt]
    rcases hwidth with h | h <;> rw [h] <;> omega
  · rw [← List.drop_drop, hbehind, List.drop_left' (length_littleEndian _ _)]

/-- **The packet is framed right and copied inside the buffer exactly when it has at most 4096
bytes**; what it has is counted from the realms. -/
theorem realmList_iff {w : Backend} {session : Session} {id : ℕ} (m : MessageBuffer)
    (hid : w.accountId session.login = some id) :
    (∃ packet, handleRealmList w session m = .done session [.send packet] ∧
        Framed session (w.realms.filterMap (realmRecord w session id)) packet ∧
        CopiedInside packet) ↔
      realmListSize session w.realms ≤ messageBufferSize := by
  have hsize := length_listedPacket w session id
  constructor
  · rintro ⟨packet, hpacket, -, hinside⟩
    rw [copiedInside_iff, sent_packet hid hpacket, hsize] at hinside
    exact hinside
  · intro hle
    refine ⟨_, handleRealmList_eq m hid, framed_realmListPacket ?_ ?_, ?_⟩
    · intro record hrecord
      obtain ⟨realm, -, hsome⟩ := List.mem_filterMap.mp hrecord
      exact (recordSize_of_some hsome).2
    · rw [hsize]
      exact Nat.lt_of_le_of_lt hle (by decide)
    · rw [copiedInside_iff, hsize]
      exact hle

/-! ## 3. Realms -/

/-- A realm of the client's build. -/
def plainRealm (id : ℕ) : Realm where
  name := HungerGames.Lua.decimal id
  id := id
  icon := 0
  flag := 0
  address := bytes "127.0.0.1:8085"
  populationLevel := List.replicate 4 0
  timezone := 1
  gamebuild := 12350
  allowedSecurityLevel := 0

/-- A client that has logged on. -/
def plainSession : Session :=
  { Session.init with login := bytes "AB", build := 12350, expversion := .postBc }

/-- As many realms as are asked for. -/
def Backend.withRealms (n : ℕ) : Backend :=
  { Backend.plain with realms := (List.range n).map plainRealm }

/-- Three realms fit. -/
theorem realmList_three : ∃ packet,
    handleRealmList (.withRealms 3) plainSession .empty = .done plainSession [.send packet] ∧
      Framed plainSession ((Backend.withRealms 3).realms.filterMap
        (realmRecord (.withRealms 3) plainSession 1)) packet ∧ CopiedInside packet :=
  (realmList_iff .empty (by decide)).mpr (by decide +kernel)

/-- Of two hundred realms, the packet is longer than the buffer. -/
theorem realmList_twoHundred : ¬ ∃ packet,
    handleRealmList (.withRealms 200) plainSession .empty = .done plainSession [.send packet] ∧
      CopiedInside packet := by
  rintro ⟨packet, hpacket, hinside⟩
  have hid : (Backend.withRealms 200).accountId plainSession.login = some 1 := by decide
  have hlong : ¬ realmListSize plainSession (Backend.withRealms 200).realms ≤ messageBufferSize := by
    decide +kernel
  rw [copiedInside_iff, sent_packet hid hpacket, length_listedPacket] at hinside
  exact hlong hinside

end HungerGames.Auth
