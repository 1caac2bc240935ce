/-!
# Quoted strings

The characters between two quotes stand for themselves, except for control characters, which may
not occur, and for escapes, which start with a backslash. An escape with the letter `u` and four
hexadecimal digits names a UTF-16 unit. A unit that is half of a surrogate pair counts only
together with the other half right behind it; a string with a lone half is well formed but has no
text.
-/

namespace Chip8.Json.Quoted

/-- What a character or an escape stands for. -/
inductive Piece where
  /-- A character. -/
  | char (c : Char)
  /-- Half of a surrogate pair. -/
  | surrogate (unit : Nat)
  deriving DecidableEq, Repr

/-- Separates the inside of a string from what follows its closing quote. -/
def split? : List Char → Option (List Char × List Char)
  | [] => none
  | '"' :: rest => some ([], rest)
  | '\\' :: c :: rest =>
    (split? rest).map fun (inside, after) => ('\\' :: c :: inside, after)
  | c :: rest => (split? rest).map fun (inside, after) => (c :: inside, after)

/-- What follows a string is shorter than the string and what follows. -/
theorem length_lt_of_split? {cs inside after : List Char} (h : split? cs = some (inside, after)) :
    after.length < cs.length := by
  fun_induction split? cs generalizing inside after with
  | case1 => cases h
  | case2 rest =>
    cases h
    exact Nat.lt_succ_self _
  | case3 c rest ih =>
    obtain ⟨⟨inside', after'⟩, hs, he⟩ := Option.map_eq_some_iff.mp h
    cases he
    have := ih hs
    simp only [List.length_cons]
    omega
  | case4 c rest _ _ ih =>
    obtain ⟨⟨inside', after'⟩, hs, he⟩ := Option.map_eq_some_iff.mp h
    cases he
    have := ih hs
    simp only [List.length_cons]
    omega

/-- The value of a hexadecimal digit of either case. -/
def hexValue? (c : Char) : Option Nat :=
  if '0' ≤ c ∧ c ≤ '9' then some (c.toNat - '0'.toNat)
  else if 'a' ≤ c ∧ c ≤ 'f' then some (c.toNat - 'a'.toNat + 10)
  else if 'A' ≤ c ∧ c ≤ 'F' then some (c.toNat - 'A'.toNat + 10)
  else none

/-- The number that four hexadecimal digits write. -/
def unit? (a b c d : Char) : Option Nat :=
  [a, b, c, d].foldlM (fun sum digit => (hexValue? digit).map (16 * sum + ·)) 0

/-- The first half of a surrogate pair is in the range `D800` to `DBFF`. -/
def isHighSurrogate (unit : Nat) : Bool :=
  0xD800 ≤ unit && unit < 0xDC00

/-- The second half of a surrogate pair is in the range `DC00` to `DFFF`. -/
def isLowSurrogate (unit : Nat) : Bool :=
  0xDC00 ≤ unit && unit < 0xE000

/-- The character that a surrogate pair encodes. -/
def pairedChar (high low : Nat) : Char :=
  Char.ofNat (0x10000 + (high - 0xD800) * 0x400 + (low - 0xDC00))

/-- What a unit stands for. -/
def Piece.ofUnit (unit : Nat) : Piece :=
  if isHighSurrogate unit || isLowSurrogate unit then surrogate unit else char (Char.ofNat unit)

/-- The character that a letter behind a backslash stands for. -/
def escaped? : Char → Option Char
  | '"' => some '"'
  | '\\' => some '\\'
  | '/' => some '/'
  | 'b' => some '\x08'
  | 'f' => some '\x0c'
  | 'n' => some '\n'
  | 'r' => some '\r'
  | 't' => some '\t'
  | _ => none

/-- Characters below the blank are control characters. -/
def isControl (c : Char) : Bool :=
  c.toNat < 0x20

/-- The pieces of the inside of a string, if it is well formed. -/
def pieces? : List Char → Option (List Piece)
  | [] => some []
  | '\\' :: 'u' :: a :: b :: c :: d :: rest =>
    (unit? a b c d).bind fun unit => (pieces? rest).map (.ofUnit unit :: ·)
  | '\\' :: letter :: rest =>
    (escaped? letter).bind fun c => (pieces? rest).map (.char c :: ·)
  | c :: rest =>
    if c = '\\' || isControl c then none else (pieces? rest).map (.char c :: ·)

/-- The characters that pieces stand for, unless half of a surrogate pair is alone. -/
def characters? : List Piece → Option (List Char)
  | [] => some []
  | .char c :: rest => (characters? rest).map (c :: ·)
  | .surrogate high :: .surrogate low :: rest =>
    if isHighSurrogate high && isLowSurrogate low then
      (characters? rest).map (pairedChar high low :: ·)
    else none
  | .surrogate _ :: _ => none

/-- The text of the inside of a string: nothing at all if it is not well formed, and no text if
half of a surrogate pair is alone. -/
def text? (inside : List Char) : Option (Option String) :=
  (pieces? inside).map fun pieces => (characters? pieces).map String.ofList

end Chip8.Json.Quoted
