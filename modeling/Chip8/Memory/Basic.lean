import Chip8.Error
import Chip8.Memory.Font

/-!
# Memory

4096 bytes, with the font at the bottom and the program from address 512 on. An access covers a
start address and a number of bytes; it is refused as a whole if any byte of it lies outside
memory, and nothing wraps around.
-/

namespace Chip8

/-- The addressable memory. -/
structure Memory where
  /-- The bytes by address. -/
  cells : Vector UInt8 4096
  deriving DecidableEq

namespace Memory

/-- How many bytes there are. -/
def size : Nat := 4096

/-- Where a program is put and where it starts. -/
def programStart : UInt16 := 0x200

/-- The size of the largest program that fits. -/
def programLimit : Nat := size - programStart.toNat

/-- The cells with a list of bytes stored from a position on. -/
def overwrite (cells : Vector UInt8 4096) (position : Nat) : List UInt8 → Vector UInt8 4096
  | [] => cells
  | b :: rest => overwrite (cells.setIfInBounds position b) (position + 1) rest

/-- Memory before a program is put in it: the font, and zeros. -/
def initial : Memory :=
  ⟨overwrite (Vector.replicate 4096 0) Font.start.toNat Font.glyphs⟩

/-- The byte at a position, and zero outside memory. -/
def byteAt (m : Memory) (position : Nat) : UInt8 :=
  m.cells[position]?.getD 0

/-- Whether an access lies inside memory. If not, the error tells the first address of the access
that does not exist, or its start if the access begins outside. -/
def checkAccess (start : UInt16) (count : Nat) : Except Error Unit :=
  if start.toNat + count ≤ size then .ok () else .error (.outsideMemory (max start.toNat size))

/-- The byte at an address. -/
def readByte (m : Memory) (address : UInt16) : Except Error UInt8 :=
  match m.cells[address.toNat]? with
  | some b => .ok b
  | none => .error (.outsideMemory address.toNat)

/-- The bytes from an address on. -/
def read (m : Memory) (start : UInt16) (count : Nat) : Except Error (List UInt8) :=
  (checkAccess start count).map fun _ =>
    (List.range count).map fun k => m.byteAt (start.toNat + k)

/-- The word at an address, its high byte first. -/
def readWord (m : Memory) (address : UInt16) : Except Error UInt16 :=
  (checkAccess address 2).map fun _ =>
    (m.byteAt address.toNat).toUInt16 <<< 8 ||| (m.byteAt (address.toNat + 1)).toUInt16

/-- Memory with bytes stored from an address on. -/
def write (m : Memory) (start : UInt16) (bytes : List UInt8) : Except Error Memory :=
  (checkAccess start bytes.length).map fun _ => ⟨overwrite m.cells start.toNat bytes⟩

/-- Memory with a program put in its place. -/
def load (m : Memory) (program : List UInt8) : Except Error Memory :=
  if program.length ≤ programLimit then m.write programStart program
  else .error (.programTooLarge program.length programLimit)

/-- As many bytes are read as were asked for. -/
theorem length_of_read {m : Memory} {start : UInt16} {count : Nat} {bytes : List UInt8}
    (h : m.read start count = .ok bytes) : bytes.length = count := by
  unfold read at h
  cases hcheck : checkAccess start count with
  | error e => rw [hcheck] at h; cases h
  | ok _ =>
    rw [hcheck] at h
    cases h
    rw [List.length_map, List.length_range]

/-- Storing bytes changes the positions that they cover, and no others. -/
theorem getElem?_overwrite (cells : Vector UInt8 4096) (position : Nat) (bytes : List UInt8)
    (k : Nat) (hk : k < 4096) :
    (overwrite cells position bytes)[k]? =
      if position ≤ k ∧ k < position + bytes.length then bytes[k - position]?
      else cells[k]? := by
  induction bytes generalizing cells position with
  | nil =>
    have : ¬(position ≤ k ∧ k < position + ([] : List UInt8).length) := by simp
    simp only [overwrite, if_neg this]
  | cons b rest ih =>
    rw [overwrite, ih]
    simp only [List.length_cons]
    by_cases hin : position + 1 ≤ k ∧ k < position + 1 + rest.length
    · have h' : position ≤ k ∧ k < position + (rest.length + 1) := by omega
      rw [if_pos hin, if_pos h', show k - position = k - (position + 1) + 1 by omega,
        List.getElem?_cons_succ]
    · rw [if_neg hin]
      by_cases hkp : k = position
      · subst hkp
        simp [hk]
      · have h' : ¬(position ≤ k ∧ k < position + (rest.length + 1)) := by omega
        rw [if_neg h', Vector.getElem?_setIfInBounds_ne (Ne.symm hkp)]

/-- Storing bytes changes the bytes that they cover, and no others. -/
theorem byteAt_overwrite (cells : Vector UInt8 4096) (position : Nat) (bytes : List UInt8)
    (k : Nat) (hk : k < 4096) :
    (Memory.mk (overwrite cells position bytes)).byteAt k =
      if position ≤ k ∧ k < position + bytes.length then bytes[k - position]?.getD 0
      else (Memory.mk cells).byteAt k := by
  rw [byteAt, getElem?_overwrite cells position bytes k hk]
  split <;> rfl

end Memory

end Chip8
