/-!
# Sinks

Where a program writes its output: the bytes written so far, and how many more will fit. A write
that does not fit fills what is left and fails.
-/

namespace Chip8.Display

/-- An output of limited or unlimited size. -/
structure Sink where
  /-- The bytes that got into the output. -/
  written : ByteArray := .empty
  /-- How many bytes will still fit, or nothing if any number will. -/
  room : Option Nat := none

namespace Sink

/-- An empty output that takes any number of bytes. -/
def unlimited : Sink := {}

/-- An empty output that takes a number of bytes. -/
def limited (room : Nat) : Sink where
  room := some room

/-- The report of a write that did not fit. -/
def fullReport : String := "failed to write whole buffer"

/-- Writes a text, as far as it fits, and tells whether all of it did. -/
def write (sink : Sink) (text : String) : Sink × Bool :=
  let bytes := text.toUTF8
  match sink.room with
  | none => ({ sink with written := sink.written ++ bytes }, true)
  | some room =>
    ({ written := sink.written ++ bytes.extract 0 room, room := some (room - bytes.size) },
      decide (bytes.size ≤ room))

end Sink

end Chip8.Display
