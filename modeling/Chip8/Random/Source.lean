import Chip8.Random.Keystream

/-!
# Random bytes

A source of random bytes is a key and the number of bytes drawn so far; the bytes are the low bytes
of the key's stream, one byte a word. A numeric seed is expanded to a key by a generator of its own.
-/

namespace Chip8.Random

/-- The next state of the generator that expands a seed. -/
def expansionStep (state : UInt64) : UInt64 :=
  state * 6364136223846793005 + 11634580027462260723

/-- The word that a state gives: its upper bits mixed, and rotated right by its highest five. -/
def expansionWord (state : UInt64) : UInt32 :=
  rotateRight (((state >>> 18) ^^^ state) >>> 27).toUInt32 (state >>> 59).toUInt32

/-- The key for a seed: the words of its next eight states. -/
def Key.ofSeed (seed : UInt64) : Key :=
  Vector.ofFn fun k : Fin 8 => expansionWord (Nat.repeat expansionStep (k.val + 1) seed)

/-- A source of random bytes. -/
structure Source where
  /-- The key of the stream. -/
  key : Key
  /-- How many bytes were drawn so far. -/
  drawn : Nat := 0
  deriving DecidableEq

namespace Source

/-- The byte at a position of the stream, counted from the first byte of all. -/
def byteAt (key : Key) (position : Nat) : UInt8 :=
  (keystreamWord key position).toUInt8

/-- The byte that comes next. -/
def current (source : Source) : UInt8 :=
  byteAt source.key source.drawn

/-- The source after one draw. -/
def next (source : Source) : Source :=
  { source with drawn := source.drawn + 1 }

end Source

end Chip8.Random
