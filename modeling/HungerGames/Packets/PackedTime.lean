/-
# Packed times (`ByteBuffer.h`)

A packed time has the minute, the hour, the day of the week, the day, the month and the year of
the server's local time in one `uint32`.  `localtime` adds the offset of the server's time zone and
`mktime` takes it away; `timezone` is its negation, and `ReadPackedTime` adds it to what `mktime`
has returned already without the offset.

So the offset is taken away twice, and a time comes back when the offset is 0.
`packedTime_roundTrip_iff` has no other offset of a time zone for which it does, up to half a
minute.
-/
import HungerGames.Auth.Session
import HungerGames.Packets.PackedGuid
import HungerGames.System.CivilTime

namespace HungerGames.Packets

open HungerGames.Lua (Bytes)
open HungerGames.World
open HungerGames.System
open HungerGames.Auth (littleEndian)
open HungerGames.Auth.BigNumber (setBinary lowBytes setBinary_lowBytes)

/-! ## 1. The codec -/

/-- `localtime_r`, with the offset of the time zone in seconds. -/
def localtime (offset : ℤ) (time : ℕ) : Civil := civil (time + offset).toNat

/-- `mktime` -/
def mktime (offset : ℤ) (lt : Civil) : ℤ := seconds lt - offset

/-- `timezone`: the seconds west of Greenwich. -/
def timezone (offset : ℤ) : ℤ := -offset

/-- The fields in the bits of a `uint32`; of the year, counted from 2000, eight bits are left. -/
def packedDate (lt : Civil) : ℕ :=
  ((lt.year - 2000 : ℤ) % 256).toNat <<< 24 ||| lt.month <<< 20 ||| (lt.day - 1) <<< 14 |||
    lt.weekday <<< 11 ||| lt.hour <<< 6 ||| lt.minute

/-- The bytes of `append<uint32>`. -/
def packTime (offset : ℤ) (time : ℕ) : Bytes := littleEndian 4 (packedDate (localtime offset time))

def appendPackedTime (offset : ℤ) (time : ℕ) (b : WriteBuffer) : Except AppendFault WriteBuffer :=
  append b (packTime offset time)

/-- The fields of a packed date, as `ReadPackedTime` puts them into a `tm`. -/
def unpackDate (packedDate : ℕ) : Civil where
  year := (packedDate >>> 24 &&& 0x1F) + 2000
  month := packedDate >>> 20 &&& 0xF
  day := (packedDate >>> 14 &&& 0x3F) + 1
  weekday := 0
  hour := packedDate >>> 6 &&& 0x1F
  minute := packedDate &&& 0x3F
  second := 0

/-- `uint32(mktime(&lt) + timezone)` -/
def unpackTime (offset : ℤ) (packedDate : ℕ) : ℕ :=
  ((mktime offset (unpackDate packedDate) + timezone offset) % 2 ^ 32).toNat

def readPackedTime (offset : ℤ) : Reader ℕ := do
  let packedDate ← readNat 4
  return unpackTime offset packedDate

/-! ## 2. The fields -/

/-- A field below the others. -/
theorem or_field {k high low : ℕ} (h : low < 2 ^ k) : high * 2 ^ k ||| low = high * 2 ^ k + low := by
  rw [Nat.mul_comm, Nat.two_pow_add_eq_or_of_lt h]

/-- The bits of a date, as a sum. -/
theorem packedDate_eq {lt : Civil} (hmonth : lt.month < 16) (hday : lt.day - 1 < 64)
    (hweekday : lt.weekday < 8) (hhour : lt.hour < 32) (hminute : lt.minute < 64) :
    packedDate lt = ((((((lt.year - 2000 : ℤ) % 256).toNat * 2 ^ 4 + lt.month) * 2 ^ 6
      + (lt.day - 1)) * 2 ^ 3 + lt.weekday) * 2 ^ 5 + lt.hour) * 2 ^ 6 + lt.minute := by
  unfold packedDate
  simp only [Nat.shiftLeft_eq]
  generalize ((lt.year - 2000 : ℤ) % 256).toNat = year
  have h1 : year * 2 ^ 24 ||| lt.month * 2 ^ 20 = (year * 2 ^ 4 + lt.month) * 2 ^ 20 := by
    rw [or_field (by omega)]
    ring
  have h2 : (year * 2 ^ 4 + lt.month) * 2 ^ 20 ||| (lt.day - 1) * 2 ^ 14 =
      ((year * 2 ^ 4 + lt.month) * 2 ^ 6 + (lt.day - 1)) * 2 ^ 14 := by
    rw [or_field (by omega)]
    ring
  have h3 : ((year * 2 ^ 4 + lt.month) * 2 ^ 6 + (lt.day - 1)) * 2 ^ 14 ||| lt.weekday * 2 ^ 11 =
      (((year * 2 ^ 4 + lt.month) * 2 ^ 6 + (lt.day - 1)) * 2 ^ 3 + lt.weekday) * 2 ^ 11 := by
    rw [or_field (by omega)]
    ring
  rw [h1, h2, h3, or_field (by omega)]
  rw [show (((year * 2 ^ 4 + lt.month) * 2 ^ 6 + (lt.day - 1)) * 2 ^ 3 + lt.weekday) * 2 ^ 11
      + lt.hour * 2 ^ 6 = ((((year * 2 ^ 4 + lt.month) * 2 ^ 6 + (lt.day - 1)) * 2 ^ 3
      + lt.weekday) * 2 ^ 5 + lt.hour) * 2 ^ 6 by ring]
  exact or_field hminute

/-- **What comes back of a date**: its fields, without the day of the week and the seconds, and
the year within 32 years. -/
theorem unpackDate_packedDate {lt : Civil} (hmonth : lt.month < 12) (hday : 1 ≤ lt.day)
    (hday' : lt.day ≤ 31) (hweekday : lt.weekday < 7) (hhour : lt.hour < 24)
    (hminute : lt.minute < 60) :
    unpackDate (packedDate lt) =
      { lt with year := ((lt.year - 2000 : ℤ) % 32).toNat + 2000, weekday := 0, second := 0 } := by
  rw [packedDate_eq (by omega) (by omega) (by omega) (by omega) (by omega)]
  unfold unpackDate
  have h3F : ∀ n, n &&& 0x3F = n % 64 := fun n => Nat.and_two_pow_sub_one_eq_mod n 6
  have h1F : ∀ n, n &&& 0x1F = n % 32 := fun n => Nat.and_two_pow_sub_one_eq_mod n 5
  have hF : ∀ n, n &&& 0xF = n % 16 := fun n => Nat.and_two_pow_sub_one_eq_mod n 4
  simp only [h3F, h1F, hF, Nat.shiftRight_eq_div_pow, Civil.mk.injEq]
  refine ⟨?_, ?_, ?_, trivial, ?_, ?_, trivial⟩ <;> omega

theorem packedDate_lt (time : ℕ) (offset : ℤ) : packedDate (localtime offset time) < 256 ^ 4 := by
  obtain ⟨hmonth, hday, hday', hweekday, hhour, hminute, -⟩ := civil_bounds (time + offset).toNat
  unfold localtime
  rw [packedDate_eq (by omega) (by omega) (by omega) (by omega) (by omega)]
  omega

/-- The four bytes of a packed time are taken. -/
theorem takes_readPackedTime (offset : ℤ) (time : ℕ) :
    Takes (readPackedTime offset) (packTime offset time)
      (unpackTime offset (packedDate (localtime offset time))) := by
  have hlength : (packTime offset time).length = 4 := by
    simp [packTime, littleEndian, lowBytes]
  have hvalue : setBinary (packTime offset time) = packedDate (localtime offset time) := by
    unfold packTime littleEndian
    rw [setBinary_lowBytes, Nat.mod_eq_of_lt (packedDate_lt time offset)]
  intro b after hb
  have hn : b.rpos + (packTime offset time).length ≤ b.storage.length := by
    have hrest := congrArg List.length hb
    rw [b.length_rest, List.length_append] at hrest
    omega
  refine ⟨hn, ?_⟩
  have hread :
      World.read 4 b = .ok (packTime offset time, b.skip (packTime offset time).length hn) := by
    have hn4 : b.rpos + 4 ≤ b.storage.length := by
      rw [← hlength]
      exact hn
    have htake : b.rest.take 4 = packTime offset time := by
      rw [hb, ← hlength, List.take_left]
    unfold World.read
    rw [dif_pos hn4, htake]
    simp only [ByteBuffer.skip, hlength]
  have hnat : readNat 4 b =
      .ok (packedDate (localtime offset time), b.skip (packTime offset time).length hn) := by
    rw [← hvalue]
    simp only [readNat, Bind.bind, StateT.bind, hread, Except.bind]
    rfl
  simp only [readPackedTime, Bind.bind, StateT.bind, hnat, Except.bind]
  rfl

/-! ## 3. The time that comes back -/

/-- Another year with the same months moves a time by the days in between. -/
theorem seconds_year {c : Civil} (year : ℕ) (hmonth : c.month < 12)
    (hleap : isLeap year = isLeap c.year) :
    seconds { c with year := year, weekday := 0, second := 0 } +
        before yearDays (c.year - 1970) * 86400 + c.second =
      seconds c + before yearDays (year - 1970) * 86400 := by
  unfold seconds daysBefore
  simp only [Nat.div_eq_of_lt hmonth, Nat.mod_eq_of_lt hmonth, Nat.add_zero, hleap]
  omega

/-- Within the years 2000 to 2031, the local time comes back without its seconds. -/
theorem seconds_unpack {n : ℕ} (hyear : 2000 ≤ (civil n).year) (hyear' : (civil n).year < 2032) :
    seconds (unpackDate (packedDate (civil n))) + n % 60 = n := by
  obtain ⟨hmonth, hday, hday', hweekday, hhour, hminute, -⟩ := civil_bounds n
  rw [unpackDate_packedDate hmonth hday hday' hweekday hhour hminute]
  have hsame : (((civil n).year - 2000 : ℤ) % 32).toNat + 2000 = (civil n).year := by omega
  have hseconds := seconds_year (c := civil n) _ hmonth (congrArg isLeap hsame)
  have hsecond : (civil n).second = n % 60 := rfl
  rw [hsame, hsecond, seconds_civil] at hseconds
  rw [hsame]
  omega

theorem days_1999 : before yearDays 29 = 10592 := by decide +kernel
theorem days_2000 : before yearDays 30 = 10957 := by decide +kernel
theorem days_2031 : before yearDays 61 = 22280 := by decide +kernel
theorem days_2032 : before yearDays 62 = 22645 := by decide +kernel
theorem days_2033 : before yearDays 63 = 23011 := by decide +kernel

/-- The last days of 1999 come back 32 years late. -/
theorem seconds_unpack_1999 {n : ℕ} (h : (civil n).year = 1999) :
    seconds (unpackDate (packedDate (civil n))) + n % 60 = n + 1009843200 := by
  obtain ⟨hmonth, hday, hday', hweekday, hhour, hminute, -⟩ := civil_bounds n
  rw [unpackDate_packedDate hmonth hday hday' hweekday hhour hminute]
  have hsecond : (civil n).second = n % 60 := rfl
  have hback : (((civil n).year - 2000 : ℤ) % 32).toNat + 2000 = 2031 := by omega
  have hseconds := seconds_year (c := civil n) 2031 hmonth (by rw [h]; decide)
  rw [hsecond, seconds_civil, h, days_1999, days_2031] at hseconds
  rw [hback]
  omega

/-- The first days of 2032 come back as early. -/
theorem seconds_unpack_2032 {n : ℕ} (h : (civil n).year = 2032) :
    seconds (unpackDate (packedDate (civil n))) + n % 60 + 1009843200 = n := by
  obtain ⟨hmonth, hday, hday', hweekday, hhour, hminute, -⟩ := civil_bounds n
  rw [unpackDate_packedDate hmonth hday hday' hweekday hhour hminute]
  have hsecond : (civil n).second = n % 60 := rfl
  have hback : (((civil n).year - 2000 : ℤ) % 32).toNat + 2000 = 2000 := by omega
  have hseconds := seconds_year (c := civil n) 2000 hmonth (by rw [h]; decide)
  rw [hsecond, seconds_civil, h, days_2032, days_2000] at hseconds
  rw [hback]
  omega

/-- A time of the years 2000 to 2031, by Greenwich. -/
def InYears (time : ℕ) : Prop := 946684800 ≤ time ∧ time < 1956528000

/-- An offset that a time zone can have: at most 24 hours, 59 minutes and 59 seconds. -/
def IsOffset (offset : ℤ) : Prop := -90000 < offset ∧ offset < 90000

/-- The offsets with which a time comes back: none, or half a minute in the half of the minute that
hides it, not at the edges of the years. -/
def Hidden (offset : ℤ) (time : ℕ) : Prop :=
  offset = 0 ∨ (offset = 30 ∧ 30 ≤ time % 60 ∧ time + 30 < 1956528000) ∨
    (offset = -30 ∧ time % 60 < 30 ∧ 946684830 ≤ time)

/-- **The time that comes back.** -/
theorem unpackTime_iff {time : ℕ} {offset : ℤ} (htime : InYears time) (hoffset : IsOffset offset) :
    unpackTime offset (packedDate (localtime offset time)) = time - time % 60 ↔
      Hidden offset time := by
  obtain ⟨hlow, hhigh⟩ := htime
  obtain ⟨hwest, heast⟩ := hoffset
  obtain ⟨n, hn⟩ : ∃ n : ℕ, (n : ℤ) = time + offset := ⟨(time + offset).toNat, by omega⟩
  have hlocal : localtime offset time = civil n := by
    unfold localtime
    rw [← hn, Int.toNat_natCast]
  -- the years 1999 and 2032 are too far away for an offset to make up for
  have hback : (946684800 ≤ n ∧ n < 1956528000) ∧
        seconds (unpackDate (packedDate (civil n))) + n % 60 = n ∨
      n < 946684800 ∧ seconds (unpackDate (packedDate (civil n))) + n % 60 = n + 1009843200 ∨
      1956528000 ≤ n ∧ seconds (unpackDate (packedDate (civil n))) + n % 60 + 1009843200 = n := by
    by_cases hearly : n < 946684800
    · have hyear := civil_year n (i := 29) (j := 30) (by rw [days_1999]; omega)
        (by rw [days_2000]; omega)
      exact Or.inr (Or.inl ⟨hearly, seconds_unpack_1999 (by omega)⟩)
    by_cases hlate : 1956528000 ≤ n
    · have hyear := civil_year n (i := 62) (j := 63) (by rw [days_2032]; omega)
        (by rw [days_2033]; omega)
      exact Or.inr (Or.inr ⟨hlate, seconds_unpack_2032 (by omega)⟩)
    · have hyear := civil_year n (i := 30) (j := 62) (by rw [days_2000]; omega)
        (by rw [days_2032]; omega)
      exact Or.inl ⟨by omega, seconds_unpack (by omega) (by omega)⟩
  unfold unpackTime mktime timezone Hidden
  rw [hlocal]
  generalize seconds (unpackDate (packedDate (civil n))) = back at hback ⊢
  have hsmall : 0 ≤ (back - offset + -offset : ℤ) ∧ (back - offset + -offset : ℤ) < 2 ^ 32 := by
    omega
  rw [Int.emod_eq_of_lt hsmall.1 hsmall.2]
  constructor
  · intro heq
    have hback' : (back : ℤ) - 2 * offset = time - time % 60 := by omega
    rcases hback with ⟨hyears, h⟩ | ⟨-, h⟩ | ⟨-, h⟩ <;> omega
  · rintro (rfl | ⟨rfl, hhalf, hedge⟩ | ⟨rfl, hhalf, hedge⟩) <;>
      rcases hback with ⟨-, h⟩ | ⟨hearly, h⟩ | ⟨hlate, h⟩ <;> omega

/-- **A packed time comes back exactly when the time zone has no offset**, up to half a
minute. -/
theorem packedTime_roundTrip_iff {time : ℕ} {offset : ℤ} (htime : InYears time)
    (hoffset : IsOffset offset) {b b' : WriteBuffer}
    (hwrite : appendPackedTime offset time b = .ok b') :
    (∃ h r, readPackedTime offset ⟨b'.storage, b.wpos, h⟩ = .ok (time - time % 60, r)) ↔
      Hidden offset time := by
  obtain ⟨hwpos, before, after, hstorage, hbefore⟩ := append_ok hwrite
  have hle : b.wpos ≤ b'.storage.length := by
    rw [hstorage, List.length_append, List.length_append]
    omega
  have hrest : (⟨b'.storage, b.wpos, hle⟩ : ByteBuffer).rest = packTime offset time ++ after := by
    unfold ByteBuffer.rest
    dsimp only
    rw [hstorage, List.append_assoc, ← hbefore, List.drop_left]
  obtain ⟨hn, hok⟩ := takes_readPackedTime offset time _ after hrest
  rw [← unpackTime_iff htime hoffset]
  constructor
  · rintro ⟨h, r, hread⟩
    rw [hok] at hread
    exact (Prod.mk.inj (Except.ok.inj hread)).1
  · intro heq
    rw [heq] at hok
    exact ⟨hle, _, hok⟩

/-- At Greenwich, the first of January 2001 comes back. -/
theorem packedTime_roundTrip_greenwich :
    (∃ h r, readPackedTime 0 ⟨packTime 0 978307200, 0, h⟩ =
      .ok (978307200 - 978307200 % 60, r)) ↔ Hidden 0 978307200 :=
  @packedTime_roundTrip_iff 978307200 0 ⟨by decide, by decide⟩ ⟨by decide, by decide⟩ ⟨[], 0⟩
    ⟨packTime 0 978307200, 4⟩ (by rfl)

/-- One hour east of Greenwich, it comes back an hour early. -/
theorem packedTime_hourEast :
    appendPackedTime 3600 978307200 ⟨[], 0⟩ = .ok ⟨packTime 3600 978307200, 4⟩ ∧
      (∃ h r, readPackedTime 3600 ⟨packTime 3600 978307200, 0, h⟩ = .ok (978303600, r)) ∧
      978307200 - 978307200 % 60 = 978303600 + 3600 := by
  refine ⟨by rfl, ?_, by decide⟩
  have hback : unpackTime 3600 (packedDate (localtime 3600 978307200)) = 978303600 := by
    decide +kernel
  obtain ⟨hn, hok⟩ := takes_readPackedTime 3600 978307200
    ⟨packTime 3600 978307200, 0, Nat.zero_le _⟩ [] (List.append_nil _).symm
  rw [hback] at hok
  exact ⟨Nat.zero_le _, _, hok⟩

end HungerGames.Packets
