/-!
# JSON values

A value is a scalar, an array or an object. Numbers keep the characters they were written with, and
objects keep their members in order, also members with the same key. A string has no text if an
escape in it names half of a surrogate pair without the other half.
-/

namespace Chip8.Json

/-- A value without parts. -/
inductive Scalar where
  /-- The null value. -/
  | null
  /-- A truth value. -/
  | bool (b : Bool)
  /-- A number, as it was written. -/
  | number (literal : List Char)
  /-- A string, or nothing if it has no text. -/
  | string (text : Option String)
  deriving DecidableEq, Repr

/-- A JSON value. -/
inductive Value where
  /-- A scalar. -/
  | scalar (s : Scalar)
  /-- An array of items. -/
  | array (items : List Value)
  /-- An object of keys and their values. -/
  | object (members : List (Option String × Value))
  deriving Inhabited

namespace Value

/-- The truth value that a value is, if it is one. -/
def bool? : Value → Option Bool
  | scalar (.bool b) => some b
  | _ => none

/-- The text that a value is, or no text for null, if it is one of the two. -/
def optionalText? : Value → Option (Option String)
  | scalar .null => some none
  | scalar (.string (some text)) => some (some text)
  | _ => none

/-- The number that a value is, if it was written with digits only. -/
def natural? : Value → Option Nat
  | scalar (.number literal) =>
    if literal.all Char.isDigit then some (Nat.ofDigitChars 10 literal 0) else none
  | _ => none

/-- The 32-bit number that a value is, if it was written with digits only and fits. -/
def word? (v : Value) : Option UInt32 :=
  v.natural?.bind fun n => if n < UInt32.size then some (UInt32.ofNat n) else none

end Value

end Chip8.Json
