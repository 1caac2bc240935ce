/-!
# Control sequences in a text

The log may quote a text that a user made up, such as the name of a file. Before it is printed it
loses the sequences with which a terminal is controlled, and every control character that is not
white space, so that it can only be read.

A sequence starts with the escape character. An escape sequence ends with the first character that
is final for it; a control sequence is one whose parameters come behind `[`; a control string and a
command go on, whatever they hold, until they are terminated. White space inside an escape sequence
or a control sequence is shown, and so is what comes behind it, as if there were no sequence, until
a character that is not shown in any case; there the sequence goes on.
-/

namespace Chip8.Text

/-- Where in a text a character is. -/
inductive Place where
  /-- In no sequence. -/
  | plain
  /-- Right behind the escape character. -/
  | escape
  /-- Behind an intermediate character of an escape sequence. -/
  | escapeIntermediate
  /-- In a control sequence. -/
  | control
  /-- At the start of a device control string. -/
  | deviceEntry
  /-- In the parameters of a device control string. -/
  | deviceParameter
  /-- Behind an intermediate character of a device control string. -/
  | deviceIntermediate
  /-- In the body of a control string. -/
  | controlString
  /-- In a command to the operating system. -/
  | command
  deriving DecidableEq, Repr

/-- The characters from the blank to `/` are intermediate in a sequence. -/
def isIntermediate (c : Char) : Bool :=
  ' ' ≤ c && c ≤ '/'

/-- The characters from `0` to `;` write and separate parameters. -/
def isParameter (c : Char) : Bool :=
  '0' ≤ c && c ≤ ';'

/-- The characters from `<` to `?` mark a sequence as private. -/
def isPrivateMark (c : Char) : Bool :=
  '<' ≤ c && c ≤ '?'

/-- The characters from `@` to `~` end a control sequence. -/
def isFinal (c : Char) : Bool :=
  '@' ≤ c && c ≤ '~'

/-- An escape sequence ends with a parameter, a private mark or a character that ends a control
sequence. -/
def isEscapeFinal (c : Char) : Bool :=
  isParameter c || isPrivateMark c || isFinal c

/-- Among the control characters the tab, the line breaks and the form feed are white space. -/
def isControlSpace (c : Char) : Bool :=
  c = '\t' || c = '\n' || c = '\x0c' || c = '\r'

/-- A control string is terminated by the byte `9C`, also by one inside a longer character. -/
def hasTerminator (c : Char) : Bool :=
  (String.utf8EncodeChar c).contains 0x9C

namespace Place

/-- Whether a character is shown in a place. -/
def shows (place : Place) (c : Char) : Bool :=
  match place with
  | plain => isControlSpace c || (' ' ≤ c && c ≠ '\x7f')
  | escape | escapeIntermediate | control => isControlSpace c
  | _ => false

/-- The place behind a character other than one that acts alike in every place. -/
def within (place : Place) (c : Char) : Place :=
  match place with
  | plain => plain
  | escape =>
    if isIntermediate c then escapeIntermediate
    else if c = '[' then control
    else if c = ']' then command
    else if c = 'P' then deviceEntry
    else if c = 'X' || c = '^' || c = '_' then controlString
    else if isEscapeFinal c then plain
    else escape
  | escapeIntermediate => if isEscapeFinal c then plain else escapeIntermediate
  | control => if isFinal c then plain else control
  | deviceEntry =>
    if isIntermediate c then deviceIntermediate
    else if isParameter c || isPrivateMark c then deviceParameter
    else if isFinal c then controlString
    else deviceEntry
  | deviceParameter =>
    if isIntermediate c then deviceIntermediate
    else if isPrivateMark c || isFinal c then controlString
    else deviceParameter
  | deviceIntermediate => if isEscapeFinal c then controlString else deviceIntermediate
  | controlString => if hasTerminator c then plain else controlString
  | command => if c = '\x07' then plain else command

/-- The place behind a character. The characters `18` and `1A` cancel a sequence, and the escape
character starts a new one. -/
def next (place : Place) (c : Char) : Place :=
  if c = '\x18' || c = '\x1a' then plain
  else if c = '\x1b' then escape
  else place.within c

end Place

/-- What is shown of a text that starts in a place. With `showing` the character before was shown:
then the text goes on as if it were in no sequence, up to a character that is not shown there. A
character beyond ASCII ends the sequence that was interrupted. -/
def shownFrom (showing : Bool) (place : Place) : List Char → List Char
  | [] => []
  | c :: rest =>
    if showing && Place.plain.shows c then
      c :: shownFrom true (if c ≤ '\x7f' then place else .plain) rest
    else if place.shows c then c :: shownFrom true (place.next c) rest
    else shownFrom false (place.next c) rest

/-- What is shown of a text. -/
def shown (text : String) : String :=
  String.ofList (shownFrom false .plain text.toList)

end Chip8.Text
