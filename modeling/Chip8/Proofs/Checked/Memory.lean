import Chip8.Memory.Basic
import Chip8.Proofs.Checked.Word

/-!
# Checked memory

Accesses to memory with the end of an access computed in 64 bits, and with the bytes taken from the
table or copied into it by bounds. An access that is refused computes no bounds but the end, and one
that is not stays inside the table, so that none of them fails: `read_eq`, `readWord_eq` and
`write_eq` show that they are the accesses of `Memory`. The counts are those of an instruction or a
program, and no more than there are bytes.
-/

namespace Chip8.Checked

/-- Where an access ends, if it lies inside memory. -/
def bounds (start : UInt16) (count : Nat) : Option (Except Error Nat) := do
  let stop ← fit 64 (start.toNat + count)
  if stop > Memory.size then return .error (.outsideMemory (max start.toNat Memory.size))
  else return .ok stop

/-- The bytes from an address on. -/
def read (m : Memory) (start : UInt16) (count : Nat) : Option (Except Error (List UInt8)) := do
  match ← bounds start count with
  | .error e => return .error e
  | .ok stop => return .ok (← slice m.cells start.toNat stop)

/-- The word at an address, its high byte first. -/
def readWord (m : Memory) (address : UInt16) : Option (Except Error UInt16) := do
  match ← read m address 2 with
  | .error e => return .error e
  | .ok bytes =>
    let high := UInt8.toUInt16 (← bytes[0]?)
    let low := UInt8.toUInt16 (← bytes[1]?)
    return .ok (high <<< UInt16.ofNat (← distance 16 8) ||| low)

/-- Memory with bytes stored from an address on. -/
def write (m : Memory) (start : UInt16) (bytes : List UInt8) : Option (Except Error Memory) := do
  match ← bounds start bytes.length with
  | .error e => return .error e
  | .ok stop => return .ok ⟨← copy m.cells start.toNat stop bytes⟩

/-- Memory with a program put in its place. -/
def loadProgram (m : Memory) (program : List UInt8) : Option (Except Error Memory) :=
  if program.length > Memory.programLimit then
    some (.error (.programTooLarge program.length Memory.programLimit))
  else write m Memory.programStart program

/-- Memory before a program is put in it. -/
def initialMemory : Option Memory := do
  let stop ← fit 64 (Font.start.toNat + Font.glyphs.length)
  return ⟨← copy (Vector.replicate 4096 0) Font.start.toNat stop Font.glyphs⟩

/-- The bytes of a part of memory are the bytes at its positions. -/
theorem take_drop_cells (m : Memory) {start count : Nat} (h : start + count ≤ Memory.size) :
    (m.cells.toList.drop start).take count =
      (List.range count).map fun k => m.byteAt (start + k) := by
  have hsize : Memory.size = 4096 := rfl
  apply List.ext_getElem?
  intro k
  rw [List.getElem?_map]
  by_cases hk : k < count
  · have hlt : start + k < 4096 := by omega
    rw [List.getElem?_take_of_lt hk, List.getElem?_drop, List.getElem?_range hk, Option.map_some,
      Memory.byteAt, Vector.getElem?_toList, Vector.getElem?_eq_getElem hlt, Option.getD_some]
  · have hle : count ≤ k := by omega
    rw [List.getElem?_take_eq_none hle, List.getElem?_eq_none (by simpa using hle)]
    rfl

/-- A part of memory that is replaced is overwritten. -/
theorem ofFn_eq_overwrite (cells : Vector UInt8 4096) (start : Nat) (bytes : List UInt8) :
    (Vector.ofFn fun k => if start ≤ k.val then bytes[k.val - start]?.getD cells[k] else cells[k]) =
      Memory.overwrite cells start bytes := by
  apply Vector.ext
  intro k hk
  have hover := Memory.getElem?_overwrite cells start bytes k hk
  rw [Vector.getElem?_eq_getElem hk, Vector.getElem?_eq_getElem hk] at hover
  rw [Vector.getElem_ofFn, ← Option.some.injEq, hover]
  -- Before the part, inside it, and behind it.
  by_cases hstart : start ≤ k
  · by_cases hin : k < start + bytes.length
    · have hlt : k - start < bytes.length := by omega
      rw [if_pos hstart, if_pos ⟨hstart, hin⟩, List.getElem?_eq_getElem hlt, Option.getD_some]
    · have hle : bytes.length ≤ k - start := by omega
      rw [if_pos hstart, if_neg fun h => hin h.2, List.getElem?_eq_none hle, Option.getD_none]
      rfl
  · rw [if_neg hstart, if_neg fun h => hstart h.1]
    rfl

/-- As many bytes as there are registers are no more than there are in memory. -/
theorem le_size {count : Nat} (h : count ≤ 16) : count ≤ Memory.size :=
  Nat.le_trans h (by decide)

/-- The end of an access is computed, and it is refused where `Memory.checkAccess` refuses it. -/
theorem bounds_eq (start : UInt16) {count : Nat} (h : count ≤ Memory.size) :
    bounds start count =
      some ((Memory.checkAccess start count).map fun _ => start.toNat + count) := by
  have hstart := start.toNat_lt
  have hsize : Memory.size = 4096 := rfl
  rw [bounds, fit_of_lt (by omega), Memory.checkAccess]
  by_cases hin : start.toNat + count ≤ Memory.size
  · have hnot : ¬start.toNat + count > Memory.size := by omega
    rw [if_pos hin, Option.bind_eq_bind, Option.bind_some, if_neg hnot]
    rfl
  · have hout : start.toNat + count > Memory.size := by omega
    rw [if_neg hin, Option.bind_eq_bind, Option.bind_some, if_pos hout]
    rfl

/-- A checked read is the read. -/
theorem read_eq (m : Memory) (start : UInt16) {count : Nat} (h : count ≤ Memory.size) :
    read m start count = some (m.read start count) := by
  rw [read, bounds_eq start h, Memory.read, Memory.checkAccess]
  by_cases hin : start.toNat + count ≤ Memory.size
  · rw [if_pos hin]
    simp only [Except.map, Option.bind_eq_bind, Option.bind_some, slice_of_le m.cells hin,
      take_drop_cells m hin]
    rfl
  · rw [if_neg hin]
    rfl

/-- A checked write is the write. -/
theorem write_eq (m : Memory) (start : UInt16) {bytes : List UInt8}
    (h : bytes.length ≤ Memory.size) : write m start bytes = some (m.write start bytes) := by
  rw [write, bounds_eq start h, Memory.write, Memory.checkAccess]
  by_cases hin : start.toNat + bytes.length ≤ Memory.size
  · rw [if_pos hin]
    simp only [Except.map, Option.bind_eq_bind, Option.bind_some, copy_of_le m.cells hin,
      ofFn_eq_overwrite]
    rfl
  · rw [if_neg hin]
    rfl

/-- Two bytes that were read make the word that is read. -/
theorem readWord_eq (m : Memory) (address : UInt16) :
    readWord m address = some (m.readWord address) := by
  rw [readWord, read_eq m address (le_size (by omega)), distance_of_lt (by omega), Memory.read, Memory.readWord]
  by_cases hin : address.toNat + 2 ≤ Memory.size
  · rw [Memory.checkAccess, if_pos hin]
    rfl
  · rw [Memory.checkAccess, if_neg hin]
    rfl

/-- A checked load is the load. A program that is too large is refused before it is written. -/
theorem loadProgram_eq (m : Memory) (program : List UInt8) :
    loadProgram m program = some (m.load program) := by
  have hlimit : Memory.programLimit ≤ Memory.size := by decide
  rw [loadProgram, Memory.load]
  by_cases hfits : program.length ≤ Memory.programLimit
  · have hnot : ¬program.length > Memory.programLimit := by omega
    rw [if_pos hfits, if_neg hnot]
    exact write_eq m Memory.programStart (by omega)
  · have hlarge : program.length > Memory.programLimit := by omega
    rw [if_neg hfits, if_pos hlarge]

/-- The font is copied to its place. -/
theorem initialMemory_eq : initialMemory = some .initial := by
  have hin : Font.start.toNat + Font.glyphs.length ≤ 4096 := by decide
  rw [initialMemory, fit_of_lt (by omega), Option.bind_eq_bind, Option.bind_some, copy_of_le _ hin,
    ofFn_eq_overwrite]
  rfl

end Chip8.Checked
