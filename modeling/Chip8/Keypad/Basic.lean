import Chip8.Error
import Chip8.Sixteen

/-!
# The keypad

Sixteen keys, each with a hexadecimal digit, laid out in four rows:

```text
1 2 3 C
4 5 6 D
7 8 9 E
A 0 B F
```

The keypad knows which keys are held. Events name keys by bytes, and a byte above 15 names none.
-/

namespace Chip8

/-- One of the sixteen keys. -/
abbrev Key := Fin 16

/-- The key that a byte names. -/
def Key.ofByte (b : UInt8) : Except Error Key :=
  if h : b.toNat < 16 then .ok ⟨b.toNat, h⟩ else .error (.unknownKey b)

/-- The keys that are held, one bit for each. -/
structure Keypad where
  /-- Bit `k` is set while key `k` is held. -/
  bits : BitVec 16 := 0
  deriving DecidableEq, Repr

namespace Keypad

/-- The keypad with no key held. -/
def released : Keypad := {}

/-- Marks a key as held. -/
def hold (pad : Keypad) (key : Key) : Keypad :=
  ⟨pad.bits ||| BitVec.twoPow 16 key.val⟩

/-- Marks a key as not held. -/
def letGo (pad : Keypad) (key : Key) : Keypad :=
  ⟨pad.bits &&& ~~~BitVec.twoPow 16 key.val⟩

/-- Whether a key is held. -/
def holds (pad : Keypad) (key : Key) : Bool :=
  pad.bits.getLsbD key.val

/-- The keypad after the key that a byte names was pressed. -/
def press (pad : Keypad) (b : UInt8) : Except Error Keypad :=
  (Key.ofByte b).map pad.hold

/-- The keypad after the key that a byte names was released. -/
def release (pad : Keypad) (b : UInt8) : Except Error Keypad :=
  (Key.ofByte b).map pad.letGo

/-- Whether a byte names a key that is held. -/
def isHeld (pad : Keypad) (b : UInt8) : Bool :=
  match Key.ofByte b with
  | .ok key => pad.holds key
  | .error _ => false

/-- Holding a key changes whether that key is held, and no other. -/
theorem holds_hold (pad : Keypad) (key other : Key) :
    (pad.hold key).holds other = (decide (other = key) || pad.holds other) := by
  have hk := key.isLt
  simp only [hold, holds, BitVec.getLsbD_or, BitVec.getLsbD_twoPow, Fin.ext_iff, hk, decide_true,
    Bool.true_and, eq_comm (a := key.val)]
  exact Bool.or_comm _ _

/-- Letting a key go changes whether that key is held, and no other. -/
theorem holds_letGo (pad : Keypad) (key other : Key) :
    (pad.letGo key).holds other = (decide (other ≠ key) && pad.holds other) := by
  have hk := key.isLt
  have ho := other.isLt
  simp only [letGo, holds, BitVec.getLsbD_and, BitVec.getLsbD_not, BitVec.getLsbD_twoPow,
    Fin.ext_iff, hk, ho, decide_true, Bool.true_and, ne_eq, decide_not, eq_comm (a := key.val)]
  exact Bool.and_comm _ _

end Keypad

end Chip8
