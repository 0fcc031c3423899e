/-
# The tables of data files

A data file that agrees with its format (`Wdbc`, `Agrees`) should be turned into a table that has
its records and strings, and into an index to it (`Built`).  The loops that go through the format
count the same offsets, and so they do it (`Fits.built`).  What is missing is room: sizes are
computed in 32 bits.  The table is built just where nothing of that is too large, and the format
has fields, all of known kinds (`built_iff`).
-/
import HungerGames.DataStores.DBCFileLoader

namespace HungerGames.DataStores

open HungerGames.Auth HungerGames.System.Memory HungerGames.DataStores.DBCFileLoader

/-! ## 1. Files -/

/-- A data file: its records have the size and the number that the header says, and so have its
strings. -/
structure Wdbc where
  recordCount : UInt32
  fieldCount : UInt32
  recordSize : UInt32
  stringSize : UInt32
  records : List UInt8
  strings : List UInt8
  length_records : records.length = recordSize.toNat * recordCount.toNat
  length_strings : strings.length = stringSize.toNat

namespace Wdbc

variable (f : Wdbc)

/-- A number of the header. -/
def word (n : UInt32) : List UInt8 := BigNumber.lowBytes n.toNat 4

def bytes : List UInt8 :=
  [0x57, 0x44, 0x42, 0x43] ++ (word f.recordCount ++ (word f.fieldCount ++ (word f.recordSize ++
    (word f.stringSize ++ (f.records ++ f.strings)))))

/-- The size of the file without its header. -/
def size : ℕ := f.recordSize.toNat * f.recordCount.toNat + f.stringSize.toNat

end Wdbc

theorem length_word (n : UInt32) : (Wdbc.word n).length = 4 := by
  simp [Wdbc.word, BigNumber.lowBytes]

theorem setBinary_word (n : UInt32) : BigNumber.setBinary (Wdbc.word n) = n.toNat := by
  unfold Wdbc.word
  rw [BigNumber.setBinary_lowBytes]
  exact Nat.mod_eq_of_lt n.toNat_lt

theorem headerWord_zero {w rest : List UInt8} (h : w.length = 4) :
    headerWord (w ++ rest) 0 = BigNumber.setBinary w := by
  unfold headerWord
  rw [Nat.mul_zero, List.drop_zero, ← h, List.take_left]

theorem headerWord_succ {w rest : List UInt8} {k : ℕ} (h : w.length = 4) :
    headerWord (w ++ rest) (k + 1) = headerWord rest k := by
  unfold headerWord
  rw [Nat.mul_succ, Nat.add_comm, ← List.drop_drop, ← h, List.drop_left]

variable {f : Wdbc} {fmt : List Char} {loader : DBCFileLoader}

/-- The file when it is loaded. -/
def Wdbc.loaded (f : Wdbc) (offsets : List ℕ) : DBCFileLoader where
  recordSize := f.recordSize.toNat
  recordCount := f.recordCount.toNat
  fieldCount := f.fieldCount.toNat
  stringSize := f.stringSize.toNat
  fieldsOffset := offsets
  data := f.records ++ f.strings
  stringTable := f.recordSize.toNat * f.recordCount.toNat % 2 ^ 32

theorem load_bytes : load f.bytes fmt = (do
    let offsets ← offsetsOf f.fieldCount.toNat fmt
    if f.size % 2 ^ 32 = 0 ∨ f.size < f.size % 2 ^ 32 then .ok none
    else .ok (some { f.loaded offsets with
      data := (f.records ++ f.strings).take (f.size % 2 ^ 32) })) := by
  have hbody : f.bytes.drop 20 = f.records ++ f.strings := by
    unfold Wdbc.bytes
    rw [show 20 = 4 + (4 + (4 + (4 + 4))) from rfl, ← List.drop_drop, ← List.drop_drop,
      ← List.drop_drop, ← List.drop_drop]
    simp [List.drop_append, length_word]
  have hlength : (f.records ++ f.strings).length = f.size := by
    rw [List.length_append, f.length_records, f.length_strings]
    rfl
  have htotal : f.bytes.length = 20 + f.size := by
    unfold Wdbc.bytes
    simp only [List.length_append, length_word, f.length_records, f.length_strings]
    unfold Wdbc.size
    simp only [List.length_cons, List.length_nil]
    omega
  have hsignature : headerWord f.bytes 0 = 0x43424457 := by
    unfold Wdbc.bytes
    rw [headerWord_zero rfl]
    decide
  have hcount : headerWord f.bytes 1 = f.recordCount.toNat := by
    unfold Wdbc.bytes
    rw [headerWord_succ rfl, headerWord_zero (length_word _), setBinary_word]
  have hfields : headerWord f.bytes 2 = f.fieldCount.toNat := by
    unfold Wdbc.bytes
    rw [headerWord_succ rfl, headerWord_succ (length_word _), headerWord_zero (length_word _),
      setBinary_word]
  have hrecord : headerWord f.bytes 3 = f.recordSize.toNat := by
    unfold Wdbc.bytes
    rw [headerWord_succ rfl, headerWord_succ (length_word _), headerWord_succ (length_word _),
      headerWord_zero (length_word _), setBinary_word]
  have hstring : headerWord f.bytes 4 = f.stringSize.toNat := by
    unfold Wdbc.bytes
    rw [headerWord_succ rfl, headerWord_succ (length_word _), headerWord_succ (length_word _),
      headerWord_succ (length_word _), headerWord_zero (length_word _), setBinary_word]
  unfold load
  rw [if_neg (by omega), if_neg (not_not.mpr hsignature), hcount, hfields, hrecord, hstring, hbody,
    hlength]
  rfl

/-- Something is done after a step. -/
theorem bind_ok_iff {ε α β : Type} {x : Except ε α} {g : α → Except ε β} {b : β} :
    (x >>= g) = .ok b ↔ ∃ a, x = .ok a ∧ g a = .ok b := by
  cases x with
  | error e => exact ⟨fun h => (by cases h), fun ⟨_, h, _⟩ => (by cases h)⟩
  | ok a =>
    refine ⟨fun h => ⟨a, rfl, h⟩, ?_⟩
    rintro ⟨_, h, hg⟩
    obtain rfl := Except.ok.inj h
    exact hg

/-- **A file is loaded whole** where its size fits into 32 bits, and is not zero. -/
theorem load_whole : (load f.bytes fmt = .ok (some loader) ∧ loader.data = f.records ++ f.strings) ↔
    (0 < f.size ∧ f.size < 2 ^ 32) ∧ ∃ offsets, offsetsOf f.fieldCount.toNat fmt = .ok offsets ∧
      loader = f.loaded offsets := by
  have hlength : (f.records ++ f.strings).length = f.size := by
    rw [List.length_append, f.length_records, f.length_strings]
    rfl
  rw [load_bytes, bind_ok_iff]
  constructor
  · rintro ⟨⟨offsets, hoffsets, h⟩, hdata⟩
    by_cases hsize : f.size % 2 ^ 32 = 0 ∨ f.size < f.size % 2 ^ 32
    · rw [if_pos hsize] at h
      cases h
    · rw [if_neg hsize] at h
      obtain rfl := Option.some.inj (Except.ok.inj h)
      have htake : (f.records ++ f.strings).take (f.size % 2 ^ 32) = f.records ++ f.strings := hdata
      have hle := congrArg List.length htake
      rw [List.length_take, hlength] at hle
      have hmod := Nat.mod_lt f.size (show 0 < 2 ^ 32 by decide)
      refine ⟨⟨by omega, by omega⟩, offsets, hoffsets, ?_⟩
      rw [htake]
      rfl
  · rintro ⟨⟨hpos, hlt⟩, offsets, hoffsets, rfl⟩
    refine ⟨⟨offsets, hoffsets, ?_⟩, rfl⟩
    rw [Nat.mod_eq_of_lt hlt, if_neg (by omega), ← hlength, List.take_length]
    rfl

/-! ## 2. Formats -/

/-- The size of a field in memory, if it is of a known kind. -/
def memoryWidth (c : Char) : Option ℕ :=
  match DbcFieldFormat.ofChar c with
  | some .float => some 4
  | some .int => some 4
  | some .ind => some 4
  | some .string => some 8
  | some .byte => some 1
  | some .na => some 0
  | some .naByte => some 0
  | some .sort => some 0
  | _ => none

/-- Whether a field is that of the index. -/
def isIndexField (c : Char) : Bool :=
  DbcFieldFormat.ofChar c = some .sort || DbcFieldFormat.ofChar c = some .ind

/-- Where a field is in a record of the file. -/
def fileOffset (fmt : List Char) (x : ℕ) : ℕ := ((fmt.take x).map fileWidth).sum

/-- The size of the first fields in memory. -/
def storedSizeOf (fields : List (Char × ℕ)) : ℕ :=
  (fields.map fun field => (memoryWidth field.1).getD 0).sum

/-- The size of a record in memory. -/
def storedSize (fmt : List Char) : ℕ := storedSizeOf fmt.zipIdx

/-- The position of the last field that is one of the index. -/
def lastIndexOf : List (Char × ℕ) → Option ℕ
  | [] => none
  | field :: fields =>
    (lastIndexOf fields).or (if isIndexField field.1 then some field.2 else none)

def indexPosition (fmt : List Char) : Option ℕ := lastIndexOf fmt.zipIdx

theorem mem_of_lastIndexOf : ∀ {fields : List (Char × ℕ)} {x : ℕ}, lastIndexOf fields = some x →
    ∃ c, (c, x) ∈ fields ∧ isIndexField c = true
  | [], _, h => nomatch h
  | field :: fields, x, h => by
    rw [lastIndexOf] at h
    rcases Option.or_eq_some_iff.mp h with h | ⟨-, h⟩
    · obtain ⟨c, hmem, hindex⟩ := mem_of_lastIndexOf h
      exact ⟨c, List.mem_cons_of_mem field hmem, hindex⟩
    · by_cases hindex : isIndexField field.1 = true
      · rw [if_pos hindex] at h
        obtain rfl := Option.some.inj h
        exact ⟨field.1, List.mem_cons_self, hindex⟩
      · rw [if_neg hindex] at h
        cases h

/-- A field is counted when its kind is known. -/
theorem countField_iff {counted counted' : ℕ × Option ℕ} {field : Char × ℕ} :
    countField counted field = .ok counted' ↔ ∃ width, memoryWidth field.1 = some width ∧
      counted' = (if width = 0 then counted.1 else (counted.1 + width) % 2 ^ 32,
        if isIndexField field.1 then asPosition field.2 else counted.2) := by
  unfold countField memoryWidth isIndexField
  cases DbcFieldFormat.ofChar field.1 with
  | none => simp
  | some kind => cases kind <;> simp [eq_comm]

/-- **The size of a record in memory and the place of the index** are found when all kinds are
known. -/
theorem countFields_iff : ∀ {fields : List (Char × ℕ)} {size : ℕ} {position : Option ℕ}
    {counted : ℕ × Option ℕ}, size < 2 ^ 32 →
    (fields.foldlM countField (size, position) = .ok counted ↔
      (∀ field ∈ fields, (memoryWidth field.1).isSome = true) ∧
        counted = ((size + storedSizeOf fields) % 2 ^ 32,
          (lastIndexOf fields).elim position asPosition))
  | [], size, position, counted, hsize => by
    change Except.ok (size, position) = .ok counted ↔ _
    rw [Except.ok.injEq, storedSizeOf, List.map_nil, List.sum_nil, Nat.add_zero,
      Nat.mod_eq_of_lt hsize]
    exact ⟨fun h => ⟨fun _ hmem => absurd hmem List.not_mem_nil, h.symm⟩, fun h => h.2.symm⟩
  | field :: fields, size, position, counted, hsize => by
    rw [List.foldlM_cons, bind_ok_iff]
    simp only [countField_iff, List.forall_mem_cons]
    have hposition : ∀ position, (lastIndexOf (field :: fields)).elim position asPosition =
        (lastIndexOf fields).elim (if isIndexField field.1 then asPosition field.2 else position)
          asPosition := by
      intro position
      rw [lastIndexOf]
      cases lastIndexOf fields with
      | some x => rfl
      | none =>
        by_cases hindex : isIndexField field.1 = true
        · rw [if_pos hindex, if_pos hindex]
          rfl
        · rw [if_neg hindex, if_neg hindex]
          rfl
    have hstored : storedSizeOf (field :: fields) =
        (memoryWidth field.1).getD 0 + storedSizeOf fields := by
      unfold storedSizeOf
      rw [List.map_cons, List.sum_cons]
    have hlt : ∀ width, (if width = 0 then size else (size + width) % 2 ^ 32) < 2 ^ 32 := by
      intro width
      split
      · exact hsize
      · exact Nat.mod_lt _ (by decide)
    have hsum : ∀ width rest, ((if width = 0 then size else (size + width) % 2 ^ 32) + rest) %
        2 ^ 32 = (size + (width + rest)) % 2 ^ 32 := by
      intro width rest
      split
      · rename_i hzero
        rw [hzero, Nat.zero_add]
      · omega
    rw [hposition, hstored]
    constructor
    · rintro ⟨_, ⟨width, hwidth, rfl⟩, h⟩
      obtain ⟨hknown, rfl⟩ := (countFields_iff (hlt width)).mp h
      rw [hwidth, hsum]
      exact ⟨⟨rfl, hknown⟩, rfl⟩
    · rintro ⟨⟨hfield, hknown⟩, rfl⟩
      obtain ⟨width, hwidth⟩ := Option.isSome_iff_exists.mp hfield
      refine ⟨_, ⟨width, hwidth, rfl⟩, (countFields_iff (hlt width)).mpr ⟨hknown, ?_⟩⟩
      rw [hwidth, hsum]
      rfl

/-- **What a format must be**: its kinds are known, and the numbers that it gives fit. -/
structure GoodFormat (fmt : List Char) : Prop where
  known : ∀ c ∈ fmt, (memoryWidth c).isSome = true
  size : storedSize fmt < 2 ^ 32
  position : ∀ x, indexPosition fmt = some x → x < 2 ^ 31

theorem known_zipIdx : (∀ field ∈ fmt.zipIdx, (memoryWidth field.1).isSome = true) ↔
    ∀ c ∈ fmt, (memoryWidth c).isSome = true := by
  constructor
  · intro h c hc
    obtain ⟨x, hx, rfl⟩ := List.getElem_of_mem hc
    exact h (fmt[x], x) (List.mem_zipIdx_iff_getElem?.mpr (List.getElem?_eq_getElem hx))
  · rintro h ⟨c, x⟩ hmem
    exact h c (List.mem_of_getElem? (List.mem_zipIdx_iff_getElem?.mp hmem))

theorem getFormatRecordSize_iff :
    getFormatRecordSize fmt = .ok (storedSize fmt, indexPosition fmt) ↔ GoodFormat fmt := by
  unfold getFormatRecordSize
  rw [countFields_iff (by decide), known_zipIdx, Prod.mk.injEq, Nat.zero_add]
  change _ ∧ storedSize fmt = storedSize fmt % 2 ^ 32 ∧
    indexPosition fmt = (indexPosition fmt).elim none asPosition ↔ _
  have hsize : storedSize fmt = storedSize fmt % 2 ^ 32 ↔ storedSize fmt < 2 ^ 32 := by
    constructor
    · intro h
      rw [h]
      exact Nat.mod_lt _ (by decide)
    · exact fun h => (Nat.mod_eq_of_lt h).symm
  have hposition : indexPosition fmt = (indexPosition fmt).elim none asPosition ↔
      ∀ x, indexPosition fmt = some x → x < 2 ^ 31 := by
    cases indexPosition fmt with
    | none => exact ⟨fun _ _ h => (by cases h), fun _ => rfl⟩
    | some x =>
      change some x = asPosition x ↔ _
      unfold asPosition
      by_cases hx : x < 2 ^ 31
      · rw [if_pos hx]
        refine ⟨fun _ y hy => ?_, fun _ => rfl⟩
        rw [← Option.some.inj hy]
        exact hx
      · rw [if_neg hx]
        exact ⟨fun h => (by cases h), fun h => absurd (h x rfl) hx⟩
  rw [hsize, hposition]
  exact ⟨fun h => ⟨h.1, h.2.1, h.2.2⟩, fun h => ⟨h.known, h.size, h.position⟩⟩

/-- The offsets of fields that follow. -/
theorem offsetsFrom_eq : ∀ {count offset : ℕ} {cs : List Char}, count ≤ cs.length →
    offset + ((cs.take count).map fileWidth).sum < 2 ^ 32 →
    ∃ offsets, offsetsFrom count offset cs = .ok offsets ∧
      ∀ j < count, offsets[j]? = some (offset + ((cs.take (j + 1)).map fileWidth).sum)
  | 0, _, _, _, _ => ⟨[], rfl, fun _ h => absurd h (Nat.not_lt_zero _)⟩
  | count + 1, offset, [], hcount, _ => absurd hcount (Nat.not_succ_le_zero _)
  | count + 1, offset, c :: cs, hcount, hsum => by
    rw [List.take_succ_cons, List.map_cons, List.sum_cons, ← Nat.add_assoc] at hsum
    have hmod : (offset + fileWidth c) % 2 ^ 32 = offset + fileWidth c :=
      Nat.mod_eq_of_lt (by omega)
    obtain ⟨offsets, hoffsets, hget⟩ := offsetsFrom_eq (Nat.le_of_succ_le_succ hcount) hsum
    refine ⟨(offset + fileWidth c) :: offsets, ?_, ?_⟩
    · rw [offsetsFrom, hmod, hoffsets]
      rfl
    · intro j hj
      rw [List.take_succ_cons, List.map_cons, List.sum_cons, ← Nat.add_assoc]
      cases j with
      | zero => simp
      | succ j => exact hget j (by omega)

/-- **The offsets of the fields in the file** are computed, if there are fields at all. -/
theorem offsetsOf_eq (hpos : 0 < fmt.length) (hsum : (fmt.map fileWidth).sum < 2 ^ 32) :
    ∃ offsets, offsetsOf fmt.length fmt = .ok offsets ∧
      ∀ x < fmt.length, offsets[x]? = some (fileOffset fmt x) := by
  obtain ⟨count, hcount⟩ : ∃ count, fmt.length = count + 1 := ⟨fmt.length - 1, by omega⟩
  have htake : ∀ j ≤ fmt.length, (fmt ++ ['\x00']).take j = fmt.take j := fun j hj =>
    List.take_append_of_le_length hj
  have hle : ((fmt.take count).map fileWidth).sum ≤ (fmt.map fileWidth).sum :=
    (List.Sublist.map fileWidth (List.take_sublist count fmt)).sum_le_sum (fun _ _ => Nat.zero_le _)
  obtain ⟨offsets, hoffsets, hget⟩ := @offsetsFrom_eq count 0 (fmt ++ ['\x00'])
    (by simp; omega) (by rw [htake count (by omega)]; omega)
  refine ⟨0 :: offsets, ?_, ?_⟩
  · rw [hcount, offsetsOf, hoffsets]
    rfl
  · intro x hx
    cases x with
    | zero => rfl
    | succ j =>
      have hj := hget j (by omega)
      rw [htake (j + 1) (by omega), Nat.zero_add] at hj
      exact hj

theorem offsetsOf_zero : offsetsOf 0 fmt = .error .outOfBounds := rfl

/-! ## 3. Fields -/

/-- The bytes of a field of a record. -/
def Wdbc.field (f : Wdbc) (fmt : List Char) (y x width : ℕ) : List UInt8 :=
  (f.records.drop (y * f.recordSize.toNat + fileOffset fmt x)).take width

/-- The number in a field of 4 bytes. -/
def Wdbc.value (f : Wdbc) (fmt : List Char) (y x : ℕ) : ℕ :=
  BigNumber.setBinary (f.field fmt y x 4)

/-- **The file agrees with the format**: the size of its records is that of their fields, its
strings are where the fields say, and its indices are not the highest number. -/
structure Agrees (f : Wdbc) (fmt : List Char) : Prop where
  size : f.recordSize.toNat = (fmt.map fileWidth).sum
  strings : ∀ y < f.recordCount.toNat, ∀ x, fmt[x]? = some 's' →
    f.value fmt y x < f.stringSize.toNat
  indices : ∀ y < f.recordCount.toNat, ∀ x, indexPosition fmt = some x →
    f.value fmt y x < 2 ^ 32 - 1

/-- The file is loaded, with the offsets of its format. -/
structure Loads (f : Wdbc) (fmt : List Char) (offsets : List ℕ) : Prop where
  count : f.fieldCount.toNat = fmt.length
  offsets : ∀ x < fmt.length, offsets[x]? = some (fileOffset fmt x)
  size : f.recordSize.toNat = (fmt.map fileWidth).sum

variable {offsets : List ℕ} {y x : ℕ} {c : Char}

/-- A field is inside of its record. -/
theorem fileOffset_add_le (hx : fmt[x]? = some c) :
    fileOffset fmt x + fileWidth c ≤ (fmt.map fileWidth).sum := by
  obtain ⟨hlt, hget⟩ := List.getElem?_eq_some_iff.mp hx
  have hsplit : fmt = fmt.take x ++ c :: fmt.drop (x + 1) := by
    rw [← hget, List.getElem_cons_drop, List.take_append_drop]
  unfold fileOffset
  conv => rhs; rw [hsplit, List.map_append, List.sum_append, List.map_cons, List.sum_cons]
  omega

/-- **A field is read.** -/
theorem Loads.getField (h : Loads f fmt offsets) (hy : y < f.recordCount.toNat)
    (hx : fmt[x]? = some c) {width : ℕ} (hwidth : width ≤ fileWidth c) :
    (f.loaded offsets).getField y x width = .ok (f.field fmt y x width) ∧
      (f.field fmt y x width).length = width := by
  have hlt := (List.getElem?_eq_some_iff.mp hx).1
  have hle := fileOffset_add_le hx
  have hrecord : y * f.recordSize.toNat + f.recordSize.toNat ≤ f.records.length := by
    rw [f.length_records, ← Nat.succ_mul, Nat.mul_comm]
    exact Nat.mul_le_mul_left _ hy
  have hsize := h.size
  have hin : y * f.recordSize.toNat + fileOffset fmt x + width ≤ f.records.length := by omega
  constructor
  · unfold DBCFileLoader.getField
    rw [if_neg (by rw [show (f.loaded offsets).fieldCount = f.fieldCount.toNat from rfl, h.count]
                   omega)]
    change inside (slice (f.records ++ f.strings) (y * f.recordSize.toNat +
      (offsets[x]?).getD 0) width) = _
    rw [h.offsets x hlt, Option.getD_some, slice_of_le (by rw [List.length_append]; omega),
      List.drop_append_of_le_length (by omega), List.take_append_of_le_length (by
        rw [List.length_drop]; omega)]
    rfl
  · unfold Wdbc.field
    rw [List.length_take, List.length_drop]
    omega

/-- What is copied to the table for a field: no pointer yet for a string. -/
def copiedCells (f : Wdbc) (fmt : List Char) (y : ℕ) (field : Char × ℕ) : List Cell :=
  match DbcFieldFormat.ofChar field.1 with
  | some .float => (f.field fmt y field.2 4).map .raw
  | some .int => (f.field fmt y field.2 4).map .raw
  | some .ind => (f.field fmt y field.2 4).map .raw
  | some .byte => (f.field fmt y field.2 1).map .raw
  | some .string => Pointer.cells none
  | _ => []

/-- **A field in memory**: its value, or a pointer to its string. -/
def fieldCells (f : Wdbc) (fmt : List Char) (y : ℕ) (field : Char × ℕ) : List Cell :=
  if DbcFieldFormat.ofChar field.1 = some .string then
    Pointer.cells (some (0, f.value fmt y field.2))
  else copiedCells f fmt y field

/-- **A record in memory**: its fields in the order of the format. -/
def recordCells (f : Wdbc) (fmt : List Char) (y : ℕ) : List Cell :=
  fmt.zipIdx.flatMap (fieldCells f fmt y)

theorem length_pointer (pointer : Pointer) : pointer.cells.length = 8 := by
  cases pointer with
  | none => rfl
  | some target => simp [Pointer.cells]

/-- The characters of the kinds. -/
theorem fileWidth_of_kind {kind : DbcFieldFormat} (h : DbcFieldFormat.ofChar c = some kind) :
    fileWidth c = if kind = .byte ∨ kind = .naByte then 1 else 4 := by
  unfold DbcFieldFormat.ofChar at h
  split at h <;> cases h <;> rfl

theorem char_of_string (h : DbcFieldFormat.ofChar c = some .string) : c = 's' := by
  unfold DbcFieldFormat.ofChar at h
  split at h <;> cases h
  rfl

theorem Loads.length_copied (h : Loads f fmt offsets) (hy : y < f.recordCount.toNat)
    (hx : fmt[x]? = some c) :
    (copiedCells f fmt y (c, x)).length = (memoryWidth c).getD 0 := by
  unfold copiedCells memoryWidth
  cases hkind : DbcFieldFormat.ofChar c with
  | none => rfl
  | some kind =>
    have hwidth := fileWidth_of_kind hkind
    have hfour : kind ≠ .byte → kind ≠ .naByte → (f.field fmt y x 4).length = 4 := by
      intro hbyte hna
      refine (h.getField hy hx ?_).2
      rw [hwidth, if_neg (by rintro (h | h); exacts [hbyte h, hna h])]
    have hone : kind = .byte → (f.field fmt y x 1).length = 1 := by
      rintro rfl
      exact (h.getField hy hx (by rw [hwidth]; decide)).2
    cases kind with
    | float | int | ind => exact (List.length_map _).trans (hfour (by decide) (by decide))
    | byte => exact (List.length_map _).trans (hone rfl)
    | string => exact length_pointer none
    | na | naByte | sort | logic | sqlPresent | sqlAbsent => rfl

theorem Loads.length_field (h : Loads f fmt offsets) (hy : y < f.recordCount.toNat)
    (hx : fmt[x]? = some c) :
    (fieldCells f fmt y (c, x)).length = (copiedCells f fmt y (c, x)).length := by
  unfold fieldCells
  by_cases hstring : DbcFieldFormat.ofChar c = some .string
  · rw [if_pos hstring, length_pointer, h.length_copied hy hx]
    unfold memoryWidth
    rw [hstring]
    rfl
  · rw [if_neg hstring]

theorem length_flatMap_copied {fields : List (Char × ℕ)} (h : Loads f fmt offsets)
    (hy : y < f.recordCount.toNat) (hfields : ∀ field ∈ fields, fmt[field.2]? = some field.1) :
    (fields.flatMap (copiedCells f fmt y)).length = storedSizeOf fields := by
  rw [List.length_flatMap]
  exact congrArg List.sum (List.map_congr_left fun field hmem =>
    h.length_copied hy (hfields field hmem))

/-! ## 4. Copying -/

/-- A list of fields of the format. -/
def FieldsOf (fmt : List Char) (fields : List (Char × ℕ)) : Prop :=
  ∀ field ∈ fields, fmt[field.2]? = some field.1 ∧ (memoryWidth field.1).isSome = true

theorem GoodFormat.fields (h : GoodFormat fmt) : FieldsOf fmt fmt.zipIdx := by
  rintro ⟨c, x⟩ hmem
  exact ⟨List.mem_zipIdx_iff_getElem?.mp hmem, known_zipIdx.mpr h.known _ hmem⟩

variable {block : List Cell}

/-- Nothing is written of a field that is not in memory. -/
theorem write_nil {written : List Cell} (hlimit : block.length < 2 ^ 32)
    (hwritten : written.length ≤ block.length) :
    (Tape.filled block written).write (2 ^ 32) [] = some (Tape.filled block written) := by
  rw [write_filled hlimit hwritten, List.length_nil, if_pos (by omega), List.append_nil]

/-- **A field is copied** by writing its cells. -/
theorem Loads.copyField (h : Loads f fmt offsets) (hy : y < f.recordCount.toNat)
    (hx : fmt[x]? = some c) (hknown : (memoryWidth c).isSome = true) {written : List Cell}
    (hlimit : block.length < 2 ^ 32) (hwritten : written.length ≤ block.length) :
    (f.loaded offsets).copyField y (Tape.filled block written) (c, x) =
      inside ((Tape.filled block written).write (2 ^ 32) (copiedCells f fmt y (c, x))) := by
  unfold DBCFileLoader.copyField copiedCells
  unfold memoryWidth at hknown
  cases hkind : DbcFieldFormat.ofChar c with
  | none =>
    rw [hkind] at hknown
    cases hknown
  | some kind =>
    have hwidth := fileWidth_of_kind hkind
    have hfour : kind ≠ .byte → kind ≠ .naByte →
        (f.loaded offsets).getField y x 4 = .ok (f.field fmt y x 4) := by
      intro hbyte hna
      refine (h.getField hy hx ?_).1
      rw [hwidth, if_neg (by rintro (h | h); exacts [hbyte h, hna h])]
    cases kind with
    | float =>
      change ((f.loaded offsets).getField y x 4 >>= _) = _
      rw [hfour (by decide) (by decide)]
      rfl
    | int =>
      change ((f.loaded offsets).getField y x 4 >>= _) = _
      rw [hfour (by decide) (by decide)]
      rfl
    | ind =>
      change ((f.loaded offsets).getField y x 4 >>= _) = _
      rw [hfour (by decide) (by decide)]
      rfl
    | byte =>
      change ((f.loaded offsets).getField y x 1 >>= _) = _
      rw [(h.getField hy hx (by rw [hwidth]; decide)).1]
      rfl
    | string => rfl
    | na | naByte | sort =>
      rw [write_nil hlimit hwritten]
      rfl
    | logic | sqlPresent | sqlAbsent =>
      rw [hkind] at hknown
      cases hknown

/-- **The fields of a record are copied one after the other**, where there is room. -/
theorem Loads.copyFields (h : Loads f fmt offsets) (hy : y < f.recordCount.toNat)
    (hlimit : block.length < 2 ^ 32) :
    ∀ {fields : List (Char × ℕ)} {written : List Cell} {table : Tape Cell}, FieldsOf fmt fields →
      written.length ≤ block.length →
      (fields.foldlM ((f.loaded offsets).copyField y) (Tape.filled block written) = .ok table ↔
        written.length + storedSizeOf fields ≤ block.length ∧
          table = Tape.filled block (written ++ fields.flatMap (copiedCells f fmt y)))
  | [], written, table, _, hwritten => by
    rw [List.flatMap_nil, List.append_nil]
    change Except.ok (Tape.filled block written) = .ok table ↔ _
    rw [Except.ok.injEq]
    exact ⟨fun heq => ⟨hwritten, heq.symm⟩, fun heq => heq.2.symm⟩
  | field :: fields, written, table, hfields, hwritten => by
    obtain ⟨⟨hx, hknown⟩, hrest⟩ := List.forall_mem_cons.mp hfields
    have hlength := h.length_copied hy hx
    have hstored : storedSizeOf (field :: fields) =
        (copiedCells f fmt y field).length + storedSizeOf fields := by
      rw [hlength]
      unfold storedSizeOf
      rw [List.map_cons, List.sum_cons]
    rw [List.foldlM_cons, bind_ok_iff, h.copyField hy hx hknown hlimit hwritten,
      write_filled hlimit hwritten, List.flatMap_cons, ← List.append_assoc, hstored]
    by_cases hroom : written.length + (copiedCells f fmt y field).length ≤ block.length
    · have hnext : (written ++ copiedCells f fmt y field).length ≤ block.length := by
        rw [List.length_append]
        exact hroom
      have ih : fields.foldlM ((f.loaded offsets).copyField y)
          (Tape.filled block (written ++ copiedCells f fmt y field)) = .ok table ↔ _ :=
        h.copyFields hy hlimit hrest hnext
      rw [List.length_append, Nat.add_assoc] at ih
      rw [if_pos hroom, ← ih]
      constructor
      · rintro ⟨_, heq, hfold⟩
        obtain rfl := Except.ok.inj heq
        exact hfold
      · exact fun hfold => ⟨_, rfl, hfold⟩
    · rw [if_neg hroom]
      constructor
      · rintro ⟨_, heq, -⟩
        cases heq
      · exact fun heq => absurd heq.1 (by omega)

/-- The entry of a record in the index. -/
def Wdbc.index (f : Wdbc) (fmt : List Char) (y : ℕ) : ℕ :=
  match indexPosition fmt with
  | some x => f.value fmt y x
  | none => y

/-- An index is a number of 4 bytes. -/
theorem indexPosition_width (hx : indexPosition fmt = some x) :
    ∃ c, fmt[x]? = some c ∧ 4 ≤ fileWidth c := by
  obtain ⟨c, hmem, hindex⟩ := mem_of_lastIndexOf hx
  refine ⟨c, List.mem_zipIdx_iff_getElem?.mp hmem, ?_⟩
  rcases Bool.or_eq_true_iff.mp hindex with hkind | hkind
  · rw [fileWidth_of_kind (of_decide_eq_true hkind)]
    decide
  · rw [fileWidth_of_kind (of_decide_eq_true hkind)]
    decide

theorem Loads.indexOf (h : Loads f fmt offsets) (hy : y < f.recordCount.toNat) :
    (f.loaded offsets).indexOf (indexPosition fmt) y = .ok (f.index fmt y) := by
  unfold Wdbc.index DBCFileLoader.indexOf
  cases hposition : indexPosition fmt with
  | none => rfl
  | some x =>
    obtain ⟨c, hx, hwidth⟩ := indexPosition_width hposition
    change BigNumber.setBinary <$> (f.loaded offsets).getField y x 4 = _
    rw [(h.getField hy hx hwidth).1]
    rfl

/-- The index after some records. -/
def indexAfter (f : Wdbc) (fmt : List Char) (table : List (Option ℕ)) : ℕ → List (Option ℕ)
  | 0 => table
  | n + 1 => (indexAfter f fmt table n).set (f.index fmt n) (some (n * storedSize fmt))

/-- The cells after some records. -/
def cellsAfter (f : Wdbc) (fmt : List Char) (n : ℕ) : List Cell :=
  (List.range n).flatMap fun y => fmt.zipIdx.flatMap (copiedCells f fmt y)

variable {table : List (Option ℕ)}

@[simp] theorem length_indexAfter : ∀ n : ℕ,
    (indexAfter f fmt table n).length = table.length
  | 0 => rfl
  | n + 1 => (List.length_set ..).trans (length_indexAfter n)

theorem length_cellsAfter (h : Loads f fmt offsets) (hgood : GoodFormat fmt) : ∀ {n : ℕ},
    n ≤ f.recordCount.toNat → (cellsAfter f fmt n).length = n * storedSize fmt
  | 0, _ => (Nat.zero_mul _).symm
  | n + 1, hn => by
    have hsplit : cellsAfter f fmt (n + 1) =
        cellsAfter f fmt n ++ fmt.zipIdx.flatMap (copiedCells f fmt n) := by
      unfold cellsAfter
      rw [List.range_succ, List.flatMap_append, List.flatMap_singleton]
    rw [hsplit, List.length_append, length_cellsAfter h hgood (by omega),
      length_flatMap_copied h (by omega) fun field hmem => (hgood.fields field hmem).1,
      Nat.succ_mul]
    rfl

theorem put_one {α : Type} {l : List α} {k : ℕ} {a : α} :
    put l k [a] = if k < l.length then some (l.set k a) else none := by
  unfold put
  by_cases hk : k < l.length
  · have hlength : k + [a].length ≤ l.length := hk
    rw [if_pos hlength, if_pos hk, List.set_eq_take_append_cons_drop, if_pos hk, List.append_assoc]
    rfl
  · have hlength : ¬ k + [a].length ≤ l.length := hk
    rw [if_neg hlength, if_neg hk]

/-- **Records are copied one after the other**, and entered in the index, where there is room in
both tables. -/
theorem Loads.copyRecords (h : Loads f fmt offsets) (hgood : GoodFormat fmt)
    (hlimit : block.length < 2 ^ 32) :
    ∀ {n : ℕ} {tables : Tables}, n ≤ f.recordCount.toNat →
      ((List.range n).foldlM ((f.loaded offsets).copyRecord fmt (indexPosition fmt))
          ⟨table, Tape.filled block []⟩ = .ok tables ↔
        ((∀ y < n, f.index fmt y < table.length) ∧ n * storedSize fmt ≤ block.length) ∧
          tables = ⟨indexAfter f fmt table n, Tape.filled block (cellsAfter f fmt n)⟩)
  | 0, tables, _ => by
    change Except.ok _ = .ok tables ↔ _
    rw [Except.ok.injEq, Nat.zero_mul]
    exact ⟨fun heq => ⟨⟨fun _ hy => absurd hy (Nat.not_lt_zero _), Nat.zero_le _⟩, heq.symm⟩,
      fun heq => heq.2.symm⟩
  | n + 1, tables, hn => by
    have hcells := length_cellsAfter h hgood (show n ≤ f.recordCount.toNat by omega)
    have hsplit : cellsAfter f fmt (n + 1) =
        cellsAfter f fmt n ++ fmt.zipIdx.flatMap (copiedCells f fmt n) := by
      unfold cellsAfter
      rw [List.range_succ, List.flatMap_append, List.flatMap_singleton]
    have hrecord : (cellsAfter f fmt n).length ≤ block.length → ∀ tables',
        (f.loaded offsets).copyRecord fmt (indexPosition fmt) ⟨indexAfter f fmt table n,
          Tape.filled block (cellsAfter f fmt n)⟩ n = .ok tables' ↔
        (f.index fmt n < table.length ∧ (n + 1) * storedSize fmt ≤ block.length) ∧
          tables' = ⟨indexAfter f fmt table (n + 1),
            Tape.filled block (cellsAfter f fmt (n + 1))⟩ := by
      intro hle tables'
      unfold DBCFileLoader.copyRecord
      rw [h.indexOf (by omega)]
      change (inside (put (indexAfter f fmt table n) (f.index fmt n)
        [some (cellsAfter f fmt n).length]) >>= fun indexTable =>
          fmt.zipIdx.foldlM ((f.loaded offsets).copyField n)
            (Tape.filled block (cellsAfter f fmt n)) >>= fun dataTable =>
              .ok ⟨indexTable, dataTable⟩) = .ok tables' ↔ _
      rw [put_one, length_indexAfter, hcells]
      by_cases hindex : f.index fmt n < table.length
      · rw [if_pos hindex]
        change (fmt.zipIdx.foldlM ((f.loaded offsets).copyField n)
            (Tape.filled block (cellsAfter f fmt n)) >>= fun dataTable =>
              .ok ⟨(indexAfter f fmt table n).set (f.index fmt n) (some (n * storedSize fmt)),
                dataTable⟩) = .ok tables' ↔ _
        rw [bind_ok_iff, hsplit, Nat.succ_mul]
        simp only [h.copyFields (show n < f.recordCount.toNat by omega) hlimit hgood.fields hle,
          hcells]
        constructor
        · rintro ⟨_, ⟨hroom, rfl⟩, heq⟩
          exact ⟨⟨hindex, hroom⟩, (Except.ok.inj heq).symm⟩
        · rintro ⟨⟨-, hroom⟩, rfl⟩
          exact ⟨_, ⟨hroom, rfl⟩, rfl⟩
      · rw [if_neg hindex]
        exact ⟨fun heq => (by cases heq), fun heq => absurd heq.1.1 hindex⟩
    rw [List.range_succ, List.foldlM_append, bind_ok_iff]
    simp only [List.foldlM_cons, List.foldlM_nil]
    constructor
    · rintro ⟨tables', hbefore, hlast⟩
      obtain ⟨⟨hids, hroom⟩, rfl⟩ := (h.copyRecords hgood hlimit (by omega)).mp hbefore
      obtain ⟨_, hrec, heq⟩ := bind_ok_iff.mp hlast
      obtain ⟨⟨hid, hroom'⟩, rfl⟩ := (hrecord (by omega) _).mp hrec
      refine ⟨⟨fun y hy => ?_, hroom'⟩, (Except.ok.inj heq).symm⟩
      rcases Nat.lt_succ_iff_lt_or_eq.mp hy with hy | rfl
      · exact hids y hy
      · exact hid
    · rintro ⟨⟨hids, hroom⟩, rfl⟩
      have hroom' : n * storedSize fmt ≤ block.length :=
        (Nat.mul_le_mul_right _ (Nat.le_succ n)).trans hroom
      refine ⟨_, (h.copyRecords hgood hlimit (by omega)).mpr
        ⟨⟨fun y hy => hids y (by omega), hroom'⟩, rfl⟩, bind_ok_iff.mpr ⟨_,
          (hrecord (by omega) _).mpr ⟨⟨hids n (Nat.lt_succ_self n), hroom⟩, rfl⟩, rfl⟩⟩

/-! ## 5. Strings -/

section

variable (h : Loads f fmt offsets)
include h

/-- A string is where the file says. -/
theorem Loads.getString (hagrees : Agrees f fmt) (hy : y < f.recordCount.toNat)
    (hx : fmt[x]? = some 's') : (f.loaded offsets).getString y x = .ok (f.value fmt y x) := by
  change ((f.loaded offsets).getField y x 4 >>= _) = _
  rw [(h.getField hy hx (by decide)).1]
  exact if_pos (hagrees.strings y hy x hx)

/-- **A string is filled in**, and other fields are passed over. -/
theorem Loads.fillField (hagrees : Agrees f fmt) (hy : y < f.recordCount.toNat)
    (hx : fmt[x]? = some c) (hknown : (memoryWidth c).isSome = true) {before after : List Cell}
    (hlimit : (before ++ copiedCells f fmt y (c, x) ++ after).length < 2 ^ 32) :
    (f.loaded offsets).fillField [] y
        ⟨before ++ copiedCells f fmt y (c, x) ++ after, before.length⟩ (c, x) =
      .ok ⟨before ++ fieldCells f fmt y (c, x) ++ after,
        (before ++ fieldCells f fmt y (c, x)).length⟩ := by
  have hlength := h.length_copied hy hx
  have hfield := h.length_field hy hx
  rw [List.length_append, List.length_append] at hlimit
  rw [List.length_append, hfield, hlength]
  rw [hlength] at hlimit
  unfold memoryWidth at hknown hlimit ⊢
  unfold DBCFileLoader.fillField
  cases hkind : DbcFieldFormat.ofChar c with
  | none =>
    rw [hkind] at hknown
    cases hknown
  | some kind =>
    rw [hkind] at hlimit
    have hnot : kind ≠ .string → fieldCells f fmt y (c, x) = copiedCells f fmt y (c, x) := by
      intro hne
      exact if_neg fun heq => hne (Option.some.inj (hkind.symm.trans heq))
    cases kind with
    | float | int | ind | byte =>
      have hmod := Nat.mod_eq_of_lt (show before.length + _ < 2 ^ 32 by
        dsimp only [Option.getD_some] at hlimit
        exact Nat.lt_of_le_of_lt (Nat.le_add_right _ _) hlimit)
      rw [hnot (by decide)]
      exact congrArg (fun n => Except.ok (Tape.mk _ n)) hmod
    | na | naByte | sort =>
      rw [hnot (by decide)]
      rfl
    | logic | sqlPresent | sqlAbsent =>
      rw [hkind] at hknown
      cases hknown
    | string =>
      obtain rfl := char_of_string hkind
      have hcells : copiedCells f fmt y ('s', x) = Pointer.cells none := rfl
      have hnew : fieldCells f fmt y ('s', x) = Pointer.cells (some (0, f.value fmt y x)) := rfl
      have hmod := Nat.mod_eq_of_lt (show before.length + 8 < 2 ^ 32 by
        dsimp only [Option.getD_some] at hlimit
        omega)
      rw [hcells, slice_append rfl (length_pointer none)]
      change ((f.loaded offsets).getString y x >>= fun stringOffset =>
        inside (put (before ++ Pointer.cells none ++ after) before.length
          (Pointer.cells (some (0, stringOffset)))) >>= fun block =>
            Except.ok (Tape.mk block ((before.length + 8) % 2 ^ 32))) = _
      rw [h.getString hagrees hy hx]
      change (inside (put (before ++ Pointer.cells none ++ after) before.length
        (Pointer.cells (some (0, f.value fmt y x)))) >>= fun block =>
          Except.ok (Tape.mk block ((before.length + 8) % 2 ^ 32))) = _
      rw [put_append rfl ((length_pointer none).trans (length_pointer _).symm), hmod, hnew]
      rfl

/-- **The strings of a record are filled in.** -/
theorem Loads.fillRecord (hagrees : Agrees f fmt) (hgood : GoodFormat fmt)
    (hy : y < f.recordCount.toNat) {before after : List Cell}
    (hlimit : (before ++ fmt.zipIdx.flatMap (copiedCells f fmt y) ++ after).length < 2 ^ 32) :
    (f.loaded offsets).fillRecord fmt []
        ⟨before ++ fmt.zipIdx.flatMap (copiedCells f fmt y) ++ after, before.length⟩ y =
      .ok ⟨before ++ recordCells f fmt y ++ after, (before ++ recordCells f fmt y).length⟩ :=
  pass_eq (2 ^ 32) fmt.zipIdx
    (fun field hmem => (h.length_field hy (hgood.fields field hmem).1).symm)
    (fun field hmem _ _ hlt => h.fillField hagrees hy (hgood.fields field hmem).1
      (hgood.fields field hmem).2 hlt) before after hlimit

theorem Loads.length_record (hgood : GoodFormat fmt) (hy : y < f.recordCount.toNat) :
    (recordCells f fmt y).length = storedSize fmt := by
  have hcopied := length_flatMap_copied h hy fun field hmem => (hgood.fields field hmem).1
  refine Eq.trans ?_ hcopied
  unfold recordCells
  rw [List.length_flatMap, List.length_flatMap]
  exact congrArg List.sum (List.map_congr_left fun field hmem =>
    h.length_field hy (hgood.fields field hmem).1)

/-- **All strings are filled in**: the table has the records. -/
theorem Loads.fillRecords (hagrees : Agrees f fmt) (hgood : GoodFormat fmt) {after : List Cell}
    (hlimit : (cellsAfter f fmt f.recordCount.toNat ++ after).length < 2 ^ 32) :
    ∃ table, (List.range f.recordCount.toNat).foldlM ((f.loaded offsets).fillRecord fmt [])
        ⟨cellsAfter f fmt f.recordCount.toNat ++ after, 0⟩ = .ok table ∧
      table.block = (List.range f.recordCount.toNat).flatMap (recordCells f fmt) ++ after := by
  have hlength : ∀ y ∈ List.range f.recordCount.toNat,
      (fmt.zipIdx.flatMap (copiedCells f fmt y)).length = (recordCells f fmt y).length := by
    intro y hmem
    have hy := List.mem_range.mp hmem
    rw [h.length_record hgood hy]
    exact length_flatMap_copied h hy fun field hfield => (hgood.fields field hfield).1
  exact ⟨_, pass_eq (2 ^ 32) (List.range f.recordCount.toNat) hlength
    (fun y hmem _ _ hlt => h.fillRecord hagrees hgood (List.mem_range.mp hmem) hlt) [] after hlimit,
    rfl⟩

end

/-! ## 6. The index -/

/-- The highest of the indices is found. -/
theorem Loads.highestIndex (h : Loads f fmt offsets) (hx : fmt[x]? = some c)
    (hwidth : 4 ≤ fileWidth c) : ∀ n ≤ f.recordCount.toNat, ∃ m,
      (List.range n).foldlM (fun maxi y => do
        let ind ← (f.loaded offsets).getUInt y x
        .ok (if maxi < BigNumber.setBinary ind then BigNumber.setBinary ind else maxi)) 0 =
          Except.ok m ∧
      (∀ y < n, f.value fmt y x ≤ m) ∧ (m = 0 ∨ ∃ y < n, m = f.value fmt y x)
  | 0, _ => ⟨0, rfl, fun _ hy => absurd hy (Nat.not_lt_zero _), Or.inl rfl⟩
  | n + 1, hn => by
    obtain ⟨m, hm, hle, hsome⟩ := h.highestIndex hx hwidth n (by omega)
    refine ⟨if m < f.value fmt n x then f.value fmt n x else m, ?_, fun y hy => ?_, ?_⟩
    · rw [List.range_succ, List.foldlM_append, hm]
      change (((f.loaded offsets).getField n x 4 >>= _) >>= _) = _
      rw [(h.getField (by omega) hx hwidth).1]
      rfl
    · rcases Nat.lt_succ_iff_lt_or_eq.mp hy with hy | rfl
      · have := hle y hy
        split <;> omega
      · split <;> omega
    · split
      · exact Or.inr ⟨n, Nat.lt_succ_self n, rfl⟩
      · rcases hsome with rfl | ⟨y, hy, rfl⟩
        · exact Or.inl rfl
        · exact Or.inr ⟨y, by omega, rfl⟩

/-- There is room for the index. -/
def IndexFits (f : Wdbc) (fmt : List Char) (sqlRecordCount sqlHighestIndex : UInt32) : Prop :=
  if (indexPosition fmt).isSome then
    f.recordCount.toNat = 0 ∨ sqlHighestIndex.toNat + 1 < 2 ^ 32
  else f.recordCount.toNat + sqlRecordCount.toNat < 2 ^ 32

/-- **The index is allocated**, empty where it has an entry for each number. -/
theorem Loads.allocateIndex (h : Loads f fmt offsets) (hagrees : Agrees f fmt)
    (sqlRecordCount sqlHighestIndex : UInt32) (junk : Option ℕ) : ∃ table,
      (f.loaded offsets).allocateIndex (indexPosition fmt) sqlRecordCount.toNat
        sqlHighestIndex.toNat junk = .ok table ∧
      ((∀ y < f.recordCount.toNat, f.index fmt y < table.length) ↔
        IndexFits f fmt sqlRecordCount sqlHighestIndex) ∧
      ((indexPosition fmt).isSome = true → ∀ k < table.length, table[k]? = some none) := by
  have hhigh := sqlHighestIndex.toNat_lt
  have hcount := sqlRecordCount.toNat_lt
  unfold IndexFits DBCFileLoader.allocateIndex Wdbc.index
  have hindices := hagrees.indices
  cases hposition : indexPosition fmt with
  | none =>
    refine ⟨_, rfl, ?_, fun h => (by cases h)⟩
    rw [List.length_replicate, if_neg (show ¬ (none : Option ℕ).isSome = true from
      Bool.false_ne_true)]
    change (∀ y < f.recordCount.toNat,
      y < (f.recordCount.toNat + sqlRecordCount.toNat) % 2 ^ 32) ↔ _
    constructor
    · intro hall
      by_contra hlarge
      have hlast := hall (f.recordCount.toNat - 1) (by omega)
      have hsmall := f.recordCount.toNat_lt
      omega
    · intro hsmall y hy
      rw [Nat.mod_eq_of_lt hsmall]
      omega
  | some x =>
    obtain ⟨c, hx, hwidth⟩ := indexPosition_width hposition
    obtain ⟨m, hm, hle, hsome⟩ := h.highestIndex hx hwidth f.recordCount.toNat le_rfl
    have hm' : m < 2 ^ 32 - 1 := by
      rcases hsome with rfl | ⟨y, hy, rfl⟩
      · decide
      · exact hindices y hy x hposition
    refine ⟨List.replicate (((if m < sqlHighestIndex.toNat then sqlHighestIndex.toNat else m) + 1) %
      2 ^ 32) none, ?_, ?_, fun _ k hk => ?_⟩
    · change ((f.loaded offsets).highestIndex x >>= _) = _
      change (((List.range f.recordCount.toNat).foldlM _ 0) >>= _) = _
      rw [hm]
      rfl
    · rw [List.length_replicate, Option.isSome_some, if_pos rfl]
      dsimp only
      constructor
      · intro hall
        by_cases hzero : f.recordCount.toNat = 0
        · exact Or.inl hzero
        · have hfirst := hall 0 (by omega)
          right
          by_contra hlarge
          rw [if_pos (show m < sqlHighestIndex.toNat by omega)] at hfirst
          omega
      · intro hroom y hy
        have hyle := hle y hy
        rcases hroom with hzero | hroom
        · omega
        · split <;> omega
    · rw [List.length_replicate] at hk
      rw [List.getElem?_replicate, if_pos hk]

/-- **The last record with an index is in the table**, and where there is none the entry is as it
was. -/
theorem getElem?_indexAfter : ∀ {n : ℕ},
    (∀ y < n, f.index fmt y < table.length) →
      (∀ y < n, (∀ z, y < z → z < n → f.index fmt z ≠ f.index fmt y) →
        (indexAfter f fmt table n)[f.index fmt y]? = some (some (y * storedSize fmt))) ∧
      ∀ k, (∀ y < n, f.index fmt y ≠ k) → (indexAfter f fmt table n)[k]? = table[k]?
  | 0, _ => ⟨fun _ hy => absurd hy (Nat.not_lt_zero _), fun _ _ => rfl⟩
  | n + 1, hids => by
    obtain ⟨hlast, hnone⟩ := getElem?_indexAfter (n := n) fun y hy => hids y (by omega)
    refine ⟨fun y hy hlater => ?_, fun k hk => ?_⟩
    · rw [indexAfter]
      rcases Nat.lt_succ_iff_lt_or_eq.mp hy with hy | rfl
      · rw [List.getElem?_set_ne (hlater n hy (Nat.lt_succ_self n))]
        exact hlast y hy fun z hyz hz => hlater z hyz (by omega)
      · rw [List.getElem?_set_self (by rw [length_indexAfter]; exact hids y hy)]
    · rw [indexAfter, List.getElem?_set_ne (hk n (Nat.lt_succ_self n))]
      exact hnone k fun y hy => hk y (by omega)

/-! ## 7. Tables -/

/-- **The table is built**: the file is loaded, the size of a record is that of its fields in
memory, and nothing goes out of bounds.  The table has the records, with pointers to the strings
of the file; the index has the last record of each number, and none where there is none. -/
structure Built (f : Wdbc) (fmt : List Char) (sqlRecordCount sqlHighestIndex : UInt32)
    (junk : Option ℕ × Cell) (loader : DBCFileLoader) (produced : Produced)
    (table : List Cell) : Prop where
  loads : load f.bytes fmt = .ok (some loader)
  whole : loader.data = f.records ++ f.strings
  size : getFormatRecordSize fmt = .ok (storedSize fmt, indexPosition fmt)
  produces : loader.autoProduceData fmt sqlRecordCount.toNat sqlHighestIndex.toNat junk =
    .ok (some produced)
  fills : loader.autoProduceStrings fmt [] produced.dataTable = .ok (some (f.strings, table))
  records : ∀ y < f.recordCount.toNat,
    slice table (y * storedSize fmt) (storedSize fmt) = some (recordCells f fmt y)
  last : ∀ y < f.recordCount.toNat,
    (∀ z, y < z → z < f.recordCount.toNat → f.index fmt z ≠ f.index fmt y) →
      produced.indexTable[f.index fmt y]? = some (some (y * storedSize fmt))
  none : (indexPosition fmt).isSome = true → ∀ k < produced.indexTable.length,
    (∀ y < f.recordCount.toNat, f.index fmt y ≠ k) → produced.indexTable[k]? = some none

/-- **There is room for the table**, and the format has fields that are known. -/
structure Fits (f : Wdbc) (fmt : List Char) (sqlRecordCount sqlHighestIndex : UInt32) : Prop where
  format : GoodFormat fmt
  fields : 0 < fmt.length
  count : f.fieldCount.toNat = fmt.length
  size : 0 < f.size ∧ f.size < 2 ^ 32
  index : IndexFits f fmt sqlRecordCount sqlHighestIndex
  data : f.recordCount.toNat * storedSize fmt ≤
    (f.recordCount.toNat + sqlRecordCount.toNat) % 2 ^ 32 * storedSize fmt % 2 ^ 32

/-- What is produced of a file that is loaded. -/
theorem Loads.produces (h : Loads f fmt offsets) (hagrees : Agrees f fmt) (hgood : GoodFormat fmt)
    (sqlRecordCount sqlHighestIndex : UInt32) (junk : Option ℕ × Cell) :
    ∃ (table : List (Option ℕ)) (block : List Cell), block.length < 2 ^ 32 ∧
      ((∀ y < f.recordCount.toNat, f.index fmt y < table.length) ↔
        IndexFits f fmt sqlRecordCount sqlHighestIndex) ∧
      ((indexPosition fmt).isSome = true → ∀ k < table.length, table[k]? = some none) ∧
      block.length =
        (f.recordCount.toNat + sqlRecordCount.toNat) % 2 ^ 32 * storedSize fmt % 2 ^ 32 ∧
      ∀ produced, (f.loaded offsets).autoProduceData fmt sqlRecordCount.toNat
          sqlHighestIndex.toNat junk = .ok (some produced) ↔
        ((∀ y < f.recordCount.toNat, f.index fmt y < table.length) ∧
          f.recordCount.toNat * storedSize fmt ≤ block.length) ∧
        produced = ⟨table.length, indexAfter f fmt table f.recordCount.toNat,
          (Tape.filled block (cellsAfter f fmt f.recordCount.toNat)).block,
          (Tape.filled block (cellsAfter f fmt f.recordCount.toNat)).offset⟩ := by
  obtain ⟨table, htable, hroom, hempty⟩ :=
    h.allocateIndex hagrees sqlRecordCount sqlHighestIndex junk.1
  let block : List Cell := List.replicate ((f.recordCount.toNat + sqlRecordCount.toNat) % 2 ^ 32 *
    storedSize fmt % 2 ^ 32) junk.2
  have hblock : block.length < 2 ^ 32 := by
    rw [List.length_replicate]
    exact Nat.mod_lt _ (by decide)
  refine ⟨table, block, hblock, hroom, hempty, List.length_replicate, fun produced => ?_⟩
  have hcopy : ∀ tables, (List.range f.recordCount.toNat).foldlM
      ((f.loaded offsets).copyRecord fmt (indexPosition fmt)) ⟨table, Tape.filled block []⟩ =
        .ok tables ↔ _ := fun _ => h.copyRecords hgood hblock le_rfl
  have hfields : ¬ fmt.length ≠ (f.loaded offsets).fieldCount := not_not.mpr h.count.symm
  unfold DBCFileLoader.autoProduceData
  rw [if_neg hfields, getFormatRecordSize_iff.mpr hgood]
  change ((f.loaded offsets).allocateIndex (indexPosition fmt) sqlRecordCount.toNat
    sqlHighestIndex.toNat junk.1 >>= _) = _ ↔ _
  rw [htable, bind_ok_iff]
  constructor
  · rintro ⟨_, heq, hrest⟩
    obtain rfl := Except.ok.inj heq
    obtain ⟨tables, hfold, heq⟩ := bind_ok_iff.mp hrest
    obtain ⟨hcond, rfl⟩ := (hcopy tables).mp hfold
    exact ⟨hcond, (Option.some.inj (Except.ok.inj heq)).symm⟩
  · rintro ⟨hcond, rfl⟩
    exact ⟨table, rfl, bind_ok_iff.mpr ⟨_, (hcopy _).mpr ⟨hcond, rfl⟩, rfl⟩⟩

/-- The strings are filled in where there was room for the records. -/
theorem Loads.fills (h : Loads f fmt offsets) (hagrees : Agrees f fmt) (hgood : GoodFormat fmt)
    (hsize : f.size < 2 ^ 32) (hblock : block.length < 2 ^ 32)
    (hroom : f.recordCount.toNat * storedSize fmt ≤ block.length) :
    (f.loaded offsets).autoProduceStrings fmt []
        (Tape.filled block (cellsAfter f fmt f.recordCount.toNat)).block =
      .ok (some (f.strings, (List.range f.recordCount.toNat).flatMap (recordCells f fmt) ++
        block.drop (cellsAfter f fmt f.recordCount.toNat).length)) := by
  have hcells := length_cellsAfter h hgood (le_refl f.recordCount.toNat)
  have hstart : f.recordSize.toNat * f.recordCount.toNat < 2 ^ 32 :=
    Nat.lt_of_le_of_lt (Nat.le_add_right _ _) hsize
  have hpool : slice (f.records ++ f.strings)
      (f.recordSize.toNat * f.recordCount.toNat % 2 ^ 32) f.stringSize.toNat = some f.strings := by
    have hslice : slice (f.records ++ f.strings ++ []) _ _ = some f.strings :=
      slice_append f.length_records f.length_strings
    rw [List.append_nil] at hslice
    rw [Nat.mod_eq_of_lt hstart]
    exact hslice
  have hlimit : (cellsAfter f fmt f.recordCount.toNat ++
      block.drop (cellsAfter f fmt f.recordCount.toNat).length).length < 2 ^ 32 := by
    rw [List.length_append, List.length_drop]
    omega
  obtain ⟨table, hfold, htable⟩ := h.fillRecords hagrees hgood hlimit
  have hfields : ¬ fmt.length ≠ (f.loaded offsets).fieldCount := not_not.mpr h.count.symm
  unfold DBCFileLoader.autoProduceStrings
  rw [if_neg hfields]
  change (inside (slice (f.records ++ f.strings) (f.recordSize.toNat * f.recordCount.toNat % 2 ^ 32)
    f.stringSize.toNat) >>= _) = _
  rw [hpool, ← htable]
  change (((List.range f.recordCount.toNat).foldlM ((f.loaded offsets).fillRecord fmt [])
    ⟨cellsAfter f fmt f.recordCount.toNat ++
      block.drop (cellsAfter f fmt f.recordCount.toNat).length, 0⟩) >>= _) = _
  rw [hfold]
  rfl

/-- The offsets of a format are computed. -/
theorem exists_loads (hagrees : Agrees f fmt) (hpos : 0 < fmt.length)
    (hcount : f.fieldCount.toNat = fmt.length) :
    ∃ offsets, offsetsOf f.fieldCount.toNat fmt = .ok offsets ∧ Loads f fmt offsets := by
  have hlt := f.recordSize.toNat_lt
  rw [hagrees.size] at hlt
  obtain ⟨offsets, hoffsets, hget⟩ := offsetsOf_eq hpos hlt
  exact ⟨offsets, hcount ▸ hoffsets, hcount, hget, hagrees.size⟩

/-- **Where there is room the table is built.** -/
theorem Fits.built {sqlRecordCount sqlHighestIndex : UInt32} (hagrees : Agrees f fmt)
    (hfits : Fits f fmt sqlRecordCount sqlHighestIndex) (junk : Option ℕ × Cell) :
    ∃ loader produced table,
      Built f fmt sqlRecordCount sqlHighestIndex junk loader produced table := by
  obtain ⟨offsets, hoffsets, hloads⟩ := exists_loads hagrees hfits.fields hfits.count
  obtain ⟨hload, hwhole⟩ := load_whole.mpr ⟨hfits.size, offsets, hoffsets, rfl⟩
  obtain ⟨index, block, hblock, hindex, hempty, hlength, hproduces⟩ :=
    hloads.produces hagrees hfits.format sqlRecordCount sqlHighestIndex junk
  have hids := hindex.mpr hfits.index
  have hroom := hlength ▸ hfits.data
  have hfills := hloads.fills hagrees hfits.format hfits.size.2 hblock hroom
  obtain ⟨hlast, hnone⟩ := getElem?_indexAfter hids
  refine ⟨_, _, _, hload, hwhole, getFormatRecordSize_iff.mpr hfits.format,
    (hproduces _).mpr ⟨⟨hids, hroom⟩, rfl⟩, hfills, fun y hy => ?_, hlast, ?_⟩
  · exact slice_flatMap (fun z hz => hloads.length_record hfits.format hz) _ hy
  · intro hsome k hk hnever
    rw [length_indexAfter] at hk
    rw [hnone k hnever]
    exact hempty hsome k hk

/-- **Where the table is built there was room.** -/
theorem Built.fits {sqlRecordCount sqlHighestIndex : UInt32} {junk : Option ℕ × Cell}
    {produced : Produced} {table : List Cell} (hagrees : Agrees f fmt)
    (h : Built f fmt sqlRecordCount sqlHighestIndex junk loader produced table) :
    Fits f fmt sqlRecordCount sqlHighestIndex := by
  have hgood := getFormatRecordSize_iff.mp h.size
  obtain ⟨hsize, offsets, hoffsets, rfl⟩ := load_whole.mp ⟨h.loads, h.whole⟩
  have hcount : f.fieldCount.toNat = fmt.length := by
    by_contra hne
    have hproduces := h.produces
    unfold DBCFileLoader.autoProduceData at hproduces
    rw [if_pos (show fmt.length ≠ (f.loaded offsets).fieldCount from Ne.symm hne)] at hproduces
    cases hproduces
  have hfields : 0 < fmt.length := by
    rw [← hcount]
    by_contra hzero
    rw [Nat.eq_zero_of_not_pos hzero, offsetsOf_zero] at hoffsets
    cases hoffsets
  obtain ⟨_, hoffsets', hloads⟩ := exists_loads hagrees hfields hcount
  obtain rfl := Except.ok.inj (hoffsets.symm.trans hoffsets')
  obtain ⟨index, block, -, hindex, -, hlength, hproduces⟩ :=
    hloads.produces hagrees hgood sqlRecordCount sqlHighestIndex junk
  obtain ⟨⟨hids, hroom⟩, -⟩ := (hproduces produced).mp h.produces
  exact ⟨hgood, hfields, hcount, hsize, hindex.mp hids, hlength ▸ hroom⟩

/-- **Tables are built just where there is room for them**, of a file that agrees with a format. -/
theorem built_iff (f : Wdbc) (fmt : List Char) (sqlRecordCount sqlHighestIndex : UInt32)
    (junk : Option ℕ × Cell) (hagrees : Agrees f fmt) :
    (∃ loader produced table,
      Built f fmt sqlRecordCount sqlHighestIndex junk loader produced table) ↔
      Fits f fmt sqlRecordCount sqlHighestIndex :=
  ⟨fun ⟨_, _, _, h⟩ => h.fits hagrees, fun h => h.built hagrees junk⟩

/-- A file of one record, with an index and a string. -/
def oneRecord : Wdbc where
  recordCount := 1
  fieldCount := 2
  recordSize := 8
  stringSize := 1
  records := [5, 0, 0, 0, 0, 0, 0, 0]
  strings := [0]
  length_records := rfl
  length_strings := rfl

theorem agrees_oneRecord : Agrees oneRecord ['n', 's'] := by
  refine ⟨by decide, fun y hy x hx => ?_, fun y hy x hx => ?_⟩
  · obtain rfl : y = 0 := Nat.lt_one_iff.mp hy
    have hlt : x < 2 := (List.getElem?_eq_some_iff.mp hx).1
    have hall : ∀ x < 2, ['n', 's'][x]? = some 's' → oneRecord.value ['n', 's'] 0 x < 1 := by decide
    exact hall x hlt hx
  · obtain rfl : y = 0 := Nat.lt_one_iff.mp hy
    obtain rfl : 0 = x := Option.some.inj hx
    decide

theorem known_ns : ∀ c ∈ ['n', 's'], (memoryWidth c).isSome = true := by
  intro c hc
  rcases List.mem_cons.mp hc with rfl | hc
  · rfl
  · obtain rfl := List.mem_singleton.mp hc
    rfl

theorem built_iff_oneRecord : ∃ loader produced table,
    Built oneRecord ['n', 's'] 0 0 (none, .raw 0) loader produced table := by
  refine (built_iff oneRecord ['n', 's'] 0 0 (none, .raw 0) agrees_oneRecord).mpr
    ⟨⟨known_ns, by decide, fun x hx => ?_⟩, by decide, by decide,
      ⟨by decide, by decide⟩, ?_, by decide⟩
  · obtain rfl : 0 = x := Option.some.inj hx
    decide
  · exact Or.inr (by decide)

/-- A file of 2 GiB: so many records, each a string, that the table takes no memory as it is
computed. -/
def manyStrings : Wdbc where
  recordCount := 536870912
  fieldCount := 1
  recordSize := 4
  stringSize := 1
  records := List.replicate 2147483648 0
  strings := [0]
  length_records := List.length_replicate
  length_strings := rfl

theorem setBinary_zeros : ∀ n : ℕ, BigNumber.setBinary (List.replicate n 0) = 0
  | 0 => rfl
  | n + 1 => by
    rw [List.replicate_succ, BigNumber.setBinary_cons, setBinary_zeros n]
    rfl

theorem agrees_manyStrings : Agrees manyStrings ['s'] := by
  refine ⟨by decide, fun y _ x _ => ?_, fun y _ x hx => (by cases hx)⟩
  unfold Wdbc.value Wdbc.field
  rw [show manyStrings.records = List.replicate 2147483648 0 from rfl, List.drop_replicate,
    List.take_replicate, setBinary_zeros]
  decide

/-- **The size of the table is computed in 32 bits**, which is too small for a file that agrees
with its format. -/
theorem many_strings_not_built : Agrees manyStrings ['s'] ∧ ¬ ∃ loader produced table,
    Built manyStrings ['s'] 0 0 (none, .raw 0) loader produced table := by
  refine ⟨agrees_manyStrings, ?_⟩
  rintro ⟨loader, produced, table, h⟩
  exact absurd (h.fits agrees_manyStrings).data (by decide)

end HungerGames.DataStores
