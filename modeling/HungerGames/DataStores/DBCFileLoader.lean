/-
# Data files of the client (`DBCFileLoader`)

A data file has records of fixed size and a block of strings.  A format string says what the
fields are: it is gone through when the file is loaded, for the offsets of the fields in the file;
for the size of a record in memory; when the records are copied to a table; and once more when the
strings of the table are filled in.  Each time the offsets are counted anew.

Numbers are bytes here, the least significant first, and take 32 bits where the source has so
many; a pointer takes 8 cells of memory.  Reads and writes outside of what is allocated are errors,
and so are assertions that fail.  What memory has when it is allocated is a parameter.
-/
import HungerGames.Auth.BigNumber
import HungerGames.System.Memory

namespace HungerGames.DataStores

open HungerGames.Auth HungerGames.System.Memory

/-! ## 1. Formats -/

inductive DbcFieldFormat where
  | na
  | naByte
  | string
  | float
  | int
  | byte
  | sort
  | ind
  | logic
  | sqlPresent
  | sqlAbsent
deriving DecidableEq, Repr

def DbcFieldFormat.ofChar : Char → Option DbcFieldFormat
  | 'x' => some na
  | 'X' => some naByte
  | 's' => some string
  | 'f' => some float
  | 'i' => some int
  | 'b' => some byte
  | 'd' => some sort
  | 'n' => some ind
  | 'l' => some logic
  | 'p' => some sqlPresent
  | 'a' => some sqlAbsent
  | _ => none

inductive Fault where
  | assertion
  | outOfBounds
deriving DecidableEq, Repr

/-- Memory is accessed, inside of a block or not. -/
def inside {α : Type} (a : Option α) : Except Fault α :=
  match a with
  | some a => .ok a
  | none => .error .outOfBounds

/-! ## 2. Loading -/

structure DBCFileLoader where
  recordSize : ℕ
  recordCount : ℕ
  fieldCount : ℕ
  stringSize : ℕ
  fieldsOffset : List ℕ
  data : List UInt8
  /-- Where the strings are in the data. -/
  stringTable : ℕ

/-- The size of a field in the file, by its character. -/
def fileWidth (c : Char) : ℕ := if c = 'b' ∨ c = 'X' then 1 else 4

/-- The offsets after the first field, so many of them. -/
def offsetsFrom : ℕ → ℕ → List Char → Except Fault (List ℕ)
  | 0, _, _ => .ok []
  | _ + 1, _, [] => .error .outOfBounds
  | count + 1, offset, c :: fmt => do
    let offsets ← offsetsFrom count ((offset + fileWidth c) % 2 ^ 32) fmt
    .ok ((offset + fileWidth c) % 2 ^ 32 :: offsets)

/-- The offsets of the fields: the first is written whatever the number of fields is.  The format
string ends with a zero. -/
def offsetsOf (fieldCount : ℕ) (fmt : List Char) : Except Fault (List ℕ) :=
  match fieldCount with
  | 0 => .error .outOfBounds
  | count + 1 => do
    let offsets ← offsetsFrom count 0 (fmt ++ ['\x00'])
    .ok (0 :: offsets)

/-- A number of the header of a file. -/
def headerWord (file : List UInt8) (k : ℕ) : ℕ := BigNumber.setBinary ((file.drop (4 * k)).take 4)

namespace DBCFileLoader

/-- `Load`: a file that is too short or not of this kind is not loaded.  Nothing is read where
there is nothing to be read. -/
def load (file : List UInt8) (fmt : List Char) : Except Fault (Option DBCFileLoader) :=
  if file.length < 20 then .ok none
  else if headerWord file 0 ≠ 0x43424457 then .ok none
  else do
    let recordCount := headerWord file 1
    let fieldCount := headerWord file 2
    let recordSize := headerWord file 3
    let stringSize := headerWord file 4
    let offsets ← offsetsOf fieldCount fmt
    let size := (recordSize * recordCount + stringSize) % 2 ^ 32
    if size = 0 ∨ (file.drop 20).length < size then .ok none
    else .ok (some ⟨recordSize, recordCount, fieldCount, stringSize, offsets,
      (file.drop 20).take size, recordSize * recordCount % 2 ^ 32⟩)

variable (loader : DBCFileLoader)

/-- A field of a record, of so many bytes. -/
def getField (y x width : ℕ) : Except Fault (List UInt8) :=
  if loader.fieldCount ≤ x then .error .assertion
  else inside (slice loader.data (y * loader.recordSize + (loader.fieldsOffset[x]?).getD 0) width)

def getFloat (y x : ℕ) : Except Fault (List UInt8) := loader.getField y x 4

def getUInt (y x : ℕ) : Except Fault (List UInt8) := loader.getField y x 4

def getUInt8 (y x : ℕ) : Except Fault (List UInt8) := loader.getField y x 1

/-- `getString`, as an offset in the strings -/
def getString (y x : ℕ) : Except Fault ℕ := do
  let stringOffset ← loader.getUInt y x
  if BigNumber.setBinary stringOffset < loader.stringSize then
    .ok (BigNumber.setBinary stringOffset)
  else .error .assertion

end DBCFileLoader

/-! ## 3. The size of a record -/

/-- A position as a number with a sign: it is negative from 2^31 on, as if there was none. -/
def asPosition (x : ℕ) : Option ℕ := if x < 2 ^ 31 then some x else none

def countField (counted : ℕ × Option ℕ) (field : Char × ℕ) : Except Fault (ℕ × Option ℕ) :=
  match DbcFieldFormat.ofChar field.1 with
  | some .float => .ok ((counted.1 + 4) % 2 ^ 32, counted.2)
  | some .int => .ok ((counted.1 + 4) % 2 ^ 32, counted.2)
  | some .string => .ok ((counted.1 + 8) % 2 ^ 32, counted.2)
  | some .sort => .ok (counted.1, asPosition field.2)
  | some .ind => .ok ((counted.1 + 4) % 2 ^ 32, asPosition field.2)
  | some .byte => .ok ((counted.1 + 1) % 2 ^ 32, counted.2)
  | some .na => .ok counted
  | some .naByte => .ok counted
  | some .logic => .error .assertion
  | some .sqlPresent => .error .assertion
  | some .sqlAbsent => .error .assertion
  | none => .error .assertion

/-- `GetFormatRecordSize`: the size, and the position of the index. -/
def getFormatRecordSize (fmt : List Char) : Except Fault (ℕ × Option ℕ) :=
  fmt.zipIdx.foldlM countField (0, none)

/-! ## 4. Tables -/

/-- A cell of a table: a byte, or a part of a pointer into a pool of strings. -/
inductive Cell where
  | raw (byte : UInt8)
  | pointer (pool offset : ℕ) (part : Fin 8)
deriving DecidableEq, Repr

/-- A pointer into a pool of strings, or none. -/
abbrev Pointer := Option (ℕ × ℕ)

def Pointer.cells : Pointer → List Cell
  | none => List.replicate 8 (.raw 0)
  | some (pool, offset) => (List.finRange 8).map (.pointer pool offset)

/-- The pointer that some cells are. -/
def Pointer.ofCells (cells : List Cell) : Except Fault Pointer :=
  if cells = Pointer.cells none then .ok none
  else
    match cells with
    | .pointer pool offset _ :: _ =>
      if cells = Pointer.cells (some (pool, offset)) then .ok (some (pool, offset))
      else .error .outOfBounds
    | _ => .error .outOfBounds

/-- The tables while the records are copied, the index having offsets in the other. -/
structure Tables where
  indexTable : List (Option ℕ)
  dataTable : Tape Cell

namespace DBCFileLoader

variable (loader : DBCFileLoader)

def copyField (y : ℕ) (table : Tape Cell) (field : Char × ℕ) : Except Fault (Tape Cell) :=
  match DbcFieldFormat.ofChar field.1 with
  | some .float => do
    let value ← loader.getFloat y field.2
    inside (table.write (2 ^ 32) (value.map .raw))
  | some .ind => do
    let value ← loader.getUInt y field.2
    inside (table.write (2 ^ 32) (value.map .raw))
  | some .int => do
    let value ← loader.getUInt y field.2
    inside (table.write (2 ^ 32) (value.map .raw))
  | some .byte => do
    let value ← loader.getUInt8 y field.2
    inside (table.write (2 ^ 32) (value.map .raw))
  | some .string => inside (table.write (2 ^ 32) (Pointer.cells none))
  | some .logic => .error .assertion
  | some .na => .ok table
  | some .naByte => .ok table
  | some .sort => .ok table
  | some .sqlPresent => .error .assertion
  | some .sqlAbsent => .error .assertion
  | none => .error .assertion

/-- The entry of a record in the index. -/
def indexOf (position : Option ℕ) (y : ℕ) : Except Fault ℕ :=
  match position with
  | some i => BigNumber.setBinary <$> loader.getUInt y i
  | none => .ok y

def copyRecord (fmt : List Char) (position : Option ℕ) (tables : Tables) (y : ℕ) :
    Except Fault Tables := do
  let id ← loader.indexOf position y
  let indexTable ← inside (put tables.indexTable id [some tables.dataTable.offset])
  let dataTable ← fmt.zipIdx.foldlM (loader.copyField y) tables.dataTable
  .ok ⟨indexTable, dataTable⟩

/-- The highest entry of the index. -/
def highestIndex (i : ℕ) : Except Fault ℕ :=
  (List.range loader.recordCount).foldlM (fun maxi y => do
    let ind ← loader.getUInt y i
    .ok (if maxi < BigNumber.setBinary ind then BigNumber.setBinary ind else maxi)) 0

/-- What `AutoProduceData` gives: the number of entries of the index, the tables, and where in the
table of data the rows of another source go. -/
structure Produced where
  records : ℕ
  indexTable : List (Option ℕ)
  dataTable : List Cell
  sqlDataTable : ℕ

/-- The number of entries of the index, and the index as it is allocated. -/
def allocateIndex (position : Option ℕ) (sqlRecordCount sqlHighestIndex : ℕ)
    (junk : Option ℕ) : Except Fault (List (Option ℕ)) :=
  match position with
  | some i => do
    let maxi ← loader.highestIndex i
    let maxi := if maxi < sqlHighestIndex then sqlHighestIndex else maxi
    .ok (List.replicate ((maxi + 1) % 2 ^ 32) none)
  | none => .ok (List.replicate ((loader.recordCount + sqlRecordCount) % 2 ^ 32) junk)

/-- `AutoProduceData` -/
def autoProduceData (fmt : List Char) (sqlRecordCount sqlHighestIndex : ℕ)
    (junk : Option ℕ × Cell) : Except Fault (Option Produced) :=
  if fmt.length ≠ loader.fieldCount then .ok none
  else do
    let (recordsize, position) ← getFormatRecordSize fmt
    let indexTable ← loader.allocateIndex position sqlRecordCount sqlHighestIndex junk.1
    let dataTable := List.replicate
      ((loader.recordCount + sqlRecordCount) % 2 ^ 32 * recordsize % 2 ^ 32) junk.2
    let tables ← (List.range loader.recordCount).foldlM (loader.copyRecord fmt position)
      ⟨indexTable, ⟨dataTable, 0⟩⟩
    .ok (some ⟨indexTable.length, tables.indexTable, tables.dataTable.block,
      tables.dataTable.offset⟩)

/-! ## 5. Strings -/

/-- Whether a pointer is to be filled in: it is none, or to an empty string. -/
def isUnfilled (pools : List (List UInt8)) : Pointer → Except Fault Bool
  | none => .ok true
  | some (pool, offset) => do
    let c ← inside ((pools[pool]?).bind fun strings => strings[offset]?)
    .ok (c = 0)

def fillField (pools : List (List UInt8)) (y : ℕ) (table : Tape Cell) (field : Char × ℕ) :
    Except Fault (Tape Cell) :=
  match DbcFieldFormat.ofChar field.1 with
  | some .float => .ok ⟨table.block, (table.offset + 4) % 2 ^ 32⟩
  | some .ind => .ok ⟨table.block, (table.offset + 4) % 2 ^ 32⟩
  | some .int => .ok ⟨table.block, (table.offset + 4) % 2 ^ 32⟩
  | some .byte => .ok ⟨table.block, (table.offset + 1) % 2 ^ 32⟩
  | some .string => do
    let cells ← inside (slice table.block table.offset 8)
    let slot ← Pointer.ofCells cells
    let unfilled ← isUnfilled pools slot
    let block ← if unfilled then do
        let stringOffset ← loader.getString y field.2
        inside (put table.block table.offset (Pointer.cells (some (pools.length, stringOffset))))
      else .ok table.block
    .ok ⟨block, (table.offset + 8) % 2 ^ 32⟩
  | some .logic => .error .assertion
  | some .na => .ok table
  | some .naByte => .ok table
  | some .sort => .ok table
  | some .sqlPresent => .error .assertion
  | some .sqlAbsent => .error .assertion
  | none => .error .assertion

def fillRecord (fmt : List Char) (pools : List (List UInt8)) (table : Tape Cell) (y : ℕ) :
    Except Fault (Tape Cell) :=
  fmt.zipIdx.foldlM (loader.fillField pools y) table

/-- `AutoProduceStrings`: the new pool, and the table.  There may be pools already. -/
def autoProduceStrings (fmt : List Char) (pools : List (List UInt8)) (dataTable : List Cell) :
    Except Fault (Option (List UInt8 × List Cell)) :=
  if fmt.length ≠ loader.fieldCount then .ok none
  else do
    let stringPool ← inside (slice loader.data loader.stringTable loader.stringSize)
    let table ← (List.range loader.recordCount).foldlM (loader.fillRecord fmt pools)
      ⟨dataTable, 0⟩
    .ok (some (stringPool, table.block))

end DBCFileLoader

end HungerGames.DataStores
