import Chip8.Json.Quoted
import Chip8.Json.Value

/-!
# JSON tokens

A text is cut into marks, strings and words, with blanks between them. A word is a longest run of
characters that are none of these, and it is a name or a number or an error. So a number ends where
something else begins, and two words never touch.
-/

namespace Chip8.Json

/-- A token of a JSON text. -/
inductive Token where
  /-- The mark that opens an object. -/
  | openObject
  /-- The mark that closes an object. -/
  | closeObject
  /-- The mark that opens an array. -/
  | openArray
  /-- The mark that closes an array. -/
  | closeArray
  /-- The mark between items or members. -/
  | comma
  /-- The mark between a key and its value. -/
  | colon
  /-- A string, a name or a number. -/
  | scalar (s : Scalar)
  deriving DecidableEq, Repr

/-- Digits, at least one of them, and what follows them. -/
def digits? (cs : List Char) : Option (List Char × List Char) :=
  match cs.takeWhile Char.isDigit with
  | [] => none
  | first :: rest => some (first :: rest, cs.dropWhile Char.isDigit)

/-- What follows the integer part of a number, which has no zero in front of other digits. -/
def afterInteger? (cs : List Char) : Option (List Char) :=
  match digits? cs with
  | some ('0' :: _ :: _, _) => none
  | some (_, rest) => some rest
  | none => none

/-- What follows the fraction of a number, if it has one. -/
def afterFraction? : List Char → Option (List Char)
  | '.' :: rest => (digits? rest).map Prod.snd
  | cs => some cs

/-- What follows the exponent of a number, if it has one. -/
def afterExponent? : List Char → Option (List Char)
  | [] => some []
  | c :: rest =>
    if c = 'e' || c = 'E' then
      match rest with
      | '+' :: digits => (digits? digits).map Prod.snd
      | '-' :: digits => (digits? digits).map Prod.snd
      | digits => (digits? digits).map Prod.snd
    else some (c :: rest)

/-- Whether a word is a number: a minus sign or none, an integer, and perhaps a fraction and an
exponent. -/
def isNumber (word : List Char) : Bool :=
  let unsigned :=
    match word with
    | '-' :: rest => rest
    | cs => cs
  ((afterInteger? unsigned).bind afterFraction?).bind afterExponent? == some []

/-- The scalar that a word is. -/
def Scalar.ofWord? (word : List Char) : Option Scalar :=
  if word = ['t', 'r', 'u', 'e'] then some (.bool true)
  else if word = ['f', 'a', 'l', 's', 'e'] then some (.bool false)
  else if word = ['n', 'u', 'l', 'l'] then some .null
  else if isNumber word then some (.number word)
  else none

namespace Token

/-- Whether a character is a blank. -/
def isBlank (c : Char) : Bool :=
  c = ' ' || c = '\t' || c = '\n' || c = '\r'

/-- The mark that a character is. -/
def ofMark? (c : Char) : Option Token :=
  if c = '\x7b' then some openObject
  else if c = '\x7d' then some closeObject
  else if c = '[' then some openArray
  else if c = ']' then some closeArray
  else if c = ',' then some comma
  else if c = ':' then some colon
  else none

/-- Whether a character belongs to a word. -/
def isWordCharacter (c : Char) : Bool :=
  !isBlank c && (ofMark? c).isNone && c != '"'

/-- The tokens of a text. -/
def scan : List Char → Option (List Token)
  | [] => some []
  | c :: rest =>
    if isBlank c then scan rest
    else match ofMark? c with
      | some mark => (scan rest).map (mark :: ·)
      | none =>
        if c = '"' then
          match h : Quoted.split? rest with
          | none => none
          | some (inside, after) =>
            have : after.length < rest.length + 1 :=
              Nat.lt_succ_of_lt (Quoted.length_lt_of_split? h)
            (Quoted.text? inside).bind fun text =>
              (scan after).map (.scalar (.string text) :: ·)
        else
          have : (rest.dropWhile isWordCharacter).length < rest.length + 1 :=
            Nat.lt_succ_of_le (List.dropWhile_sublist _).length_le
          (Scalar.ofWord? (c :: rest.takeWhile isWordCharacter)).bind fun s =>
            (scan (rest.dropWhile isWordCharacter)).map (.scalar s :: ·)
  termination_by cs => cs.length

end Token

end Chip8.Json
