/-!
# Numbers below sixteen

Registers, keys and the digits of an instruction word are numbers below sixteen, and so are the
positions in a block of the keystream.
-/

namespace Chip8

/-- There are numbers below sixteen, so that numerals can stand for them. The zero is written out
because there can be other ways to find it. -/
instance neZero_sixteen : @NeZero Nat (@Zero.ofOfNat0 Nat (instOfNatNat 0)) 16 := ⟨nofun⟩

end Chip8
