/-!
# The fractional part of a single-precision number

The remainder of a division by one, truncated, so that it has the sign of the dividend. It is exact:
every finite number is a whole number of the least positive ones, of which one is `2 ^ 149`, and
what remains of that whole number modulo `2 ^ 149` has an encoding again.
-/

namespace Chip8.Sound

namespace Binary32

/-- The exponent field of an encoding. -/
def exponent (bits : Nat) : Nat :=
  bits / Nat.pow 2 23 % Nat.pow 2 8

/-- The fraction field of an encoding. -/
def mantissa (bits : Nat) : Nat :=
  bits % Nat.pow 2 23

/-- The sign of an encoding, in its place. -/
def sign (bits : Nat) : Nat :=
  bits / Nat.pow 2 31 % 2 * Nat.pow 2 31

/-- Infinities and what is not a number have the largest exponent. -/
def isFinite (bits : Nat) : Bool :=
  exponent bits != 255

/-- The absolute value of a finite encoding, in least positive numbers. -/
def units (bits : Nat) : Nat :=
  if exponent bits = 0 then mantissa bits
  else (Nat.pow 2 23 + mantissa bits) * Nat.pow 2 (exponent bits - 1)

/-- The encoding of a number of least positive numbers that has at most 24 significant bits. -/
def ofUnits (count : Nat) : Nat :=
  if count < Nat.pow 2 23 then count
  else
    let shift := count.log2 - 23
    (shift + 1) * Nat.pow 2 23 + (count / Nat.pow 2 shift - Nat.pow 2 23)

/-- One, in least positive numbers. -/
def one : Nat := Nat.pow 2 149

/-- The encoding of what is not a number. -/
def notANumber : Nat := 0x7FC00000

/-- The encoding of the fractional part. -/
def fraction (bits : Nat) : Nat :=
  if isFinite bits then sign bits + ofUnits (units bits % one) else notANumber

end Binary32

/-- The fractional part of a number, with the sign of the number. -/
def fraction (x : Float32) : Float32 :=
  Float32.ofBits (UInt32.ofNat (Binary32.fraction x.toBits.toNat))

end Chip8.Sound
