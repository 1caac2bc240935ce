import Chip8.Sixteen

/-!
# The keystream

A stream of words from a key, by the ChaCha block function with twelve rounds. Block `c` depends on
the key and the counter `c` only, so any word of the stream can be computed on its own.
-/

namespace Chip8.Random

/-- A key of 256 bits, in words. -/
abbrev Key := Vector UInt32 8

/-- The sixteen words that the block function works on. -/
abbrev Block := Vector UInt32 16

/-- A word rotated left. Shift distances count modulo 32. -/
def rotateLeft (w distance : UInt32) : UInt32 :=
  (w <<< distance) ||| (w >>> (32 - distance))

/-- A word rotated right. -/
def rotateRight (w distance : UInt32) : UInt32 :=
  (w >>> distance) ||| (w <<< (32 - distance))

namespace Block

/-- Adds the second word to the first, mixes the sum into the third and rotates that. -/
def mix (b : Block) (target addend mixed : Fin 16) (distance : UInt32) : Block :=
  let sum := b[target] + b[addend]
  let turned := rotateLeft (b[mixed] ^^^ sum) distance
  (b.set target sum).set mixed turned

/-- The quarter round on four of the words. -/
def quarterRound (b : Block) (w x y z : Fin 16) : Block :=
  (((b.mix w x z 16).mix y z x 12).mix w x z 8).mix y z x 7

/-- A round on the columns and one on the diagonals. -/
def doubleRound (b : Block) : Block :=
  let columns := (((b.quarterRound 0 4 8 12).quarterRound 1 5 9 13).quarterRound 2 6 10 14)
    |>.quarterRound 3 7 11 15
  (((columns.quarterRound 0 5 10 15).quarterRound 1 6 11 12).quarterRound 2 7 8 13)
    |>.quarterRound 3 4 9 14

/-- The block before the rounds: four constants, the key, the counter in two words with the low one
first, and zeros. -/
def initial (key : Key) (counter : Nat) : Block :=
  #v[0x61707865, 0x3320646E, 0x79622D32, 0x6B206574,
    key[0], key[1], key[2], key[3], key[4], key[5], key[6], key[7],
    UInt32.ofNat counter, UInt32.ofNat (counter >>> 32), 0, 0]

/-- Six double rounds, added to the block that they started from. -/
def ofCounter (key : Key) (counter : Nat) : Block :=
  let start := initial key counter
  Vector.zipWith (· + ·) (Nat.repeat doubleRound 6 start) start

end Block

/-- The word of the stream at a position. -/
def keystreamWord (key : Key) (position : Nat) : UInt32 :=
  (Block.ofCounter key (position / 16))[Fin.ofNat 16 position]

end Chip8.Random
