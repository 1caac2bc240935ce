import Chip8.Instruction.Encoding
import Mathlib.Algebra.Group.Nat.Defs

/-!
# Checked arithmetic

Operations on numbers of fixed width and on tables of fixed length that fail where the result does
not exist: a sum or a product that is too wide, a shift by the whole width or more, a division by
zero, and an access outside a table. `none` is the failure. What is built from them runs through
exactly when nothing overflows and nothing is out of bounds, and the rules below say when that is.

The last part takes an instruction word apart with such shifts. `decode_eq` shows that every
digit that is shifted out of a word is one, so that a register number is below sixteen and an
address below `0x1000`, and that the instruction is that of `Instruction.decode`.
-/

namespace Chip8.Checked

/-! ## Numbers -/

/-- A sum or a product, if it has so many bits. -/
def fit (bits n : Nat) : Option Nat :=
  if n < 2 ^ bits then some n else none

/-- The distance of a shift, if it is less than the width of what is shifted. -/
def distance (width n : Nat) : Option Nat :=
  if n < width then some n else none

/-- The quotient of two bytes, if the divisor is not zero. -/
def quotient (a b : UInt8) : Option UInt8 :=
  if b = 0 then none else some (a / b)

/-- The remainder of two bytes, if the divisor is not zero. -/
def remainder (a b : UInt8) : Option UInt8 :=
  if b = 0 then none else some (a % b)

/-- A number that is small enough fits. -/
theorem fit_of_lt {bits n : Nat} (h : n < 2 ^ bits) : fit bits n = some n :=
  if_pos h

/-- A shift by less than the width can be made. -/
theorem distance_of_lt {width n : Nat} (h : n < width) : distance width n = some n :=
  if_pos h

example : fit 16 (0xFFFF + 0x01) = none := by decide

example : distance 16 16 = none := by decide

/-! ## Tables -/

section Tables

variable {α : Type} {n : Nat}

/-- A table with one entry replaced, if there is such an entry. -/
def put (table : Vector α n) (k : Nat) (a : α) : Option (Vector α n) :=
  if h : k < n then some (table.set k a h) else none

/-- A part of a table, if its bounds are in order and inside. -/
def slice (table : Vector α n) (start stop : Nat) : Option (List α) :=
  if start ≤ stop ∧ stop ≤ n then some ((table.toList.drop start).take (stop - start)) else none

/-- A table with a part replaced, if the bounds of the part are in order and inside, and what
replaces it is as long as the part. -/
def copy (table : Vector α n) (start stop : Nat) (source : List α) : Option (Vector α n) :=
  if start ≤ stop ∧ stop ≤ n ∧ source.length = stop - start then
    some (Vector.ofFn fun k =>
      if start ≤ k.val then source[k.val - start]?.getD table[k] else table[k])
  else none

/-- An entry inside a table can be replaced. -/
theorem put_of_lt (table : Vector α n) {k : Nat} (h : k < n) (a : α) :
    put table k a = some (table.set k a h) :=
  dif_pos h

/-- A part inside a table is what its entries are. -/
theorem slice_of_le (table : Vector α n) {start count : Nat} (h : start + count ≤ n) :
    slice table start (start + count) = some ((table.toList.drop start).take count) := by
  rw [slice, if_pos ⟨Nat.le_add_right _ _, h⟩, Nat.add_sub_cancel_left]

/-- A part inside a table can be replaced by a list of its length. -/
theorem copy_of_le (table : Vector α n) {start : Nat} {source : List α}
    (h : start + source.length ≤ n) :
    copy table start (start + source.length) source =
      some (Vector.ofFn fun k =>
        if start ≤ k.val then source[k.val - start]?.getD table[k] else table[k]) := by
  have hlen : source.length = start + source.length - start := (Nat.add_sub_cancel_left ..).symm
  rw [copy, if_pos ⟨Nat.le_add_right _ _, h, hlen⟩]

end Tables

/-! ## Instruction words -/

/-- A digit that was shifted and masked out of a word, if it is one. -/
def digit (b : UInt8) : Option (Fin 16) :=
  if h : b.toNat < 16 then some ⟨b.toNat, h⟩ else none

/-- The four digits of a word. The class is what remains when the others are shifted out. -/
def digits (w : UInt16) : Option WordDigits := do
  let kind ← digit (w >>> UInt16.ofNat (← distance 16 12)).toUInt8
  let x ← digit ((w >>> UInt16.ofNat (← distance 16 8)).toUInt8 &&& 0x0F)
  let y ← digit ((w >>> UInt16.ofNat (← distance 16 4)).toUInt8 &&& 0x0F)
  let n ← digit (w &&& 0x000F).toUInt8
  return { kind := kind, x := x, y := y, n := n }

/-- The address that is masked out of a word, if it has twelve bits. -/
def address (w : UInt16) : Option Address :=
  if h : (w &&& 0x0FFF).toNat < 4096 then some ⟨(w &&& 0x0FFF).toNat, h⟩ else none

/-- The byte that is masked out of a word. -/
def byte (w : UInt16) : UInt8 :=
  (w &&& 0x00FF).toUInt8

/-- A digit below sixteen is one. -/
theorem digit_of_toNat {b : UInt8} {d : Fin 16} (h : b.toNat = d.val) : digit b = some d := by
  have hlt : b.toNat < 16 := h ▸ d.isLt
  rw [digit, dif_pos hlt]
  exact congrArg some (Fin.ext h)

/-- A shift to the right divides by a power of two. -/
theorem toNat_shiftRight (w : UInt16) {n : Nat} (h : n < 16) :
    (w >>> UInt16.ofNat n).toNat = w.toNat / 2 ^ n := by
  have hn : n % 2 ^ 16 % 16 = n := by omega
  rw [UInt16.toNat_shiftRight, UInt16.toNat_ofNat', hn, Nat.shiftRight_eq_div_pow]

/-- The digits of a word are those of `WordDigits.ofWord`. -/
theorem digits_eq (w : UInt16) : digits w = some (WordDigits.ofWord w) := by
  -- What the shifts and the mask compute, as quotients and remainders.
  have hw := w.toNat_lt
  have h12 := toNat_shiftRight w (show 12 < 16 by omega)
  have h8 := toNat_shiftRight w (show 8 < 16 by omega)
  have h4 := toNat_shiftRight w (show 4 < 16 by omega)
  have hmask (b : UInt8) : (b &&& 0x0F).toNat = b.toNat % 16 := by
    rw [UInt8.toNat_and]
    exact Nat.and_two_pow_sub_one_eq_mod _ 4
  -- The digits one by one. The first is below sixteen without a mask.
  have hkind : digit (w >>> UInt16.ofNat 12).toUInt8 = some (WordDigits.ofWord w).kind := by
    apply digit_of_toNat
    rw [UInt16.toNat_toUInt8, h12]
    simp only [WordDigits.ofWord, Fin.val_ofNat]
    omega
  have hx : digit ((w >>> UInt16.ofNat 8).toUInt8 &&& 0x0F) = some (WordDigits.ofWord w).x := by
    apply digit_of_toNat
    rw [hmask, UInt16.toNat_toUInt8, h8]
    simp only [WordDigits.ofWord, Fin.val_ofNat]
    omega
  have hy : digit ((w >>> UInt16.ofNat 4).toUInt8 &&& 0x0F) = some (WordDigits.ofWord w).y := by
    apply digit_of_toNat
    rw [hmask, UInt16.toNat_toUInt8, h4]
    simp only [WordDigits.ofWord, Fin.val_ofNat]
    omega
  have hn : digit (w &&& 0x000F).toUInt8 = some (WordDigits.ofWord w).n := by
    have hlow : (w &&& 0x000F).toNat = w.toNat % 16 := by
      rw [UInt16.toNat_and]
      exact Nat.and_two_pow_sub_one_eq_mod _ 4
    apply digit_of_toNat
    rw [UInt16.toNat_toUInt8, hlow]
    simp only [WordDigits.ofWord, Fin.val_ofNat]
    omega
  rw [digits, distance_of_lt (by omega), distance_of_lt (by omega), distance_of_lt (by omega)]
  simp only [Option.bind_eq_bind, Option.bind_some, hkind, hx, hy, hn]
  rfl

/-- The address in a word is that in its digits. -/
theorem address_eq (w : UInt16) : address w = some (WordDigits.ofWord w).address := by
  have hw := w.toNat_lt
  have hmask : (w &&& 0x0FFF).toNat = w.toNat % 4096 := by
    rw [UInt16.toNat_and]
    exact Nat.and_two_pow_sub_one_eq_mod _ 12
  have hlt : (w &&& 0x0FFF).toNat < 4096 := by
    rw [hmask]
    exact Nat.mod_lt _ (by omega)
  rw [address, dif_pos hlt, Option.some.injEq, Fin.ext_iff]
  simp only [WordDigits.ofWord, WordDigits.address, Fin.val_ofNat, hmask]
  omega

/-- The byte in a word is that in its digits. -/
theorem byte_eq (w : UInt16) : byte w = (WordDigits.ofWord w).byte := by
  have hw := w.toNat_lt
  have hmask : (w &&& 0x00FF).toNat = w.toNat % 256 := by
    rw [UInt16.toNat_and]
    exact Nat.and_two_pow_sub_one_eq_mod _ 8
  apply UInt8.toNat_inj.mp
  simp only [byte, WordDigits.ofWord, WordDigits.byte, Fin.val_ofNat, UInt16.toNat_toUInt8, hmask,
    UInt8.toNat_ofNat']
  omega

/-- The instruction that four digits select, with its operands as they were masked out. -/
def select (d : WordDigits) (target : Address) (b : UInt8) : Option Instruction :=
  match d.kind.val with
  | 0x0 => Instruction.ofSystemDigits? d
  | 0x1 => some (.jump target)
  | 0x2 => some (.call target)
  | 0x3 => some (.skipIfByte d.x b)
  | 0x4 => some (.skipUnlessByte d.x b)
  | 0x5 => if d.n = 0 then some (.skipIfSame d.x d.y) else none
  | 0x6 => some (.setByte d.x b)
  | 0x7 => some (.addByte d.x b)
  | 0x8 => (Operation.ofDigit? d.n).map fun operation => .combine operation d.x d.y
  | 0x9 => if d.n = 0 then some (.skipUnlessSame d.x d.y) else none
  | 0xA => some (.setIndex target)
  | 0xB => some (.jumpWithOffset target)
  | 0xC => some (.drawRandom d.x b)
  | 0xD => some (.drawSprite d.x d.y d.n)
  | 0xE => Instruction.ofKeyByte? d.x b
  | _ => Instruction.ofTransferByte? d.x b

/-- The instruction that a word encodes, taken apart by shifts and masks. -/
def decode (w : UInt16) : Option (Except Error Instruction) := do
  let d ← digits w
  let target ← address w
  match select d target (byte w) with
  | some i => some (.ok i)
  | none => some (.error (if d.kind = 0 then .notImplemented w else .noSuchVariant w))

/-- Taking a word apart never fails, and the instruction is that of `Instruction.decode`. -/
theorem decode_eq (w : UInt16) : decode w = some (Instruction.decode w) := by
  have hselect : select (.ofWord w) (WordDigits.ofWord w).address (WordDigits.ofWord w).byte =
      Instruction.ofDigits? (.ofWord w) := rfl
  rw [decode, digits_eq, address_eq, byte_eq]
  simp only [Option.bind_eq_bind, Option.bind_some, hselect, Instruction.decode]
  cases Instruction.ofDigits? (.ofWord w) <;> rfl

end Chip8.Checked
