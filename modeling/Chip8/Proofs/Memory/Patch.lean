import Chip8.Memory.Basic

/-!
# What was put in memory

A patch is a list of bytes that is put in memory from a position on. `byteAt_patch` says what one
patch does to a byte, and `byteAt_foldl_patch` what a list of them does, one after the other: a byte
is what the last patch that covers it puts there, or what it was before if none covers it.
`byteAt_initial` gives the bytes that are there before any patch.
-/

namespace Chip8.Memory

/-- Bytes to be put in memory. -/
structure Patch where
  /-- The position of the first byte. -/
  start : Nat
  /-- The bytes. -/
  bytes : List UInt8
  deriving DecidableEq

/-- The byte that a patch puts at a position, if it covers that. -/
def Patch.at? (k : Nat) (p : Patch) : Option UInt8 :=
  if p.start ≤ k then p.bytes[k - p.start]? else none

/-- Memory with a patch put in it. -/
def patch (m : Memory) (p : Patch) : Memory :=
  ⟨overwrite m.cells p.start p.bytes⟩

/-- A patch without bytes changes nothing. -/
theorem patch_nil (m : Memory) (start : Nat) : m.patch ⟨start, []⟩ = m := rfl

/-- A patch covers as many positions as it has bytes. -/
theorem Patch.at?_eq_none {p : Patch} {k : Nat}
    (h : ¬(p.start ≤ k ∧ k < p.start + p.bytes.length)) : p.at? k = none := by
  unfold Patch.at?
  split
  · rename_i hstart
    exact List.getElem?_eq_none (by omega)
  · rfl

/-- A byte is what a patch that covers it puts there, and otherwise what it was. -/
theorem byteAt_patch (m : Memory) (p : Patch) {k : Nat} (hk : k < 4096) :
    (m.patch p).byteAt k = (p.at? k).getD (m.byteAt k) := by
  rw [patch, byteAt_overwrite _ _ _ _ hk]
  by_cases hin : p.start ≤ k ∧ k < p.start + p.bytes.length
  · have hlt : k - p.start < p.bytes.length := by omega
    rw [if_pos hin, Patch.at?, if_pos hin.1, List.getElem?_eq_getElem hlt]
    rfl
  · rw [if_neg hin, Patch.at?_eq_none hin]
    rfl

/-- A byte is what the last patch that covers it puts there, and otherwise what it was. -/
theorem byteAt_foldl_patch (m : Memory) (patches : List Patch) {k : Nat} (hk : k < 4096) :
    (patches.foldl patch m).byteAt k =
      (patches.filterMap (Patch.at? k)).getLast?.getD (m.byteAt k) := by
  induction patches generalizing m with
  | nil => rfl
  | cons p rest ih =>
    rw [List.foldl_cons, ih, byteAt_patch m p hk]
    cases hp : p.at? k with
    | none => rw [List.filterMap_cons_none hp, Option.getD_none]
    | some b =>
      rw [List.filterMap_cons_some hp, List.getLast?_cons, Option.getD_some, Option.getD_some]

/-- Before anything is put in memory it holds the font and zeros behind it. -/
theorem byteAt_initial {k : Nat} (hk : k < 4096) :
    initial.byteAt k = Font.glyphs[k]?.getD 0 := by
  have hzero : (Memory.mk (Vector.replicate 4096 0)).byteAt k = 0 := by
    rw [byteAt, Vector.getElem?_replicate, if_pos hk, Option.getD_some]
  have hfont : initial =
      (Memory.mk (Vector.replicate 4096 0)).patch ⟨Font.start.toNat, Font.glyphs⟩ := rfl
  have hstart : Font.start.toNat ≤ k := Nat.zero_le k
  rw [hfont, byteAt_patch _ _ hk, hzero, Patch.at?, if_pos hstart]
  rfl

end Chip8.Memory
