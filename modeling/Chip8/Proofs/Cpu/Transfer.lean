import Chip8.Proofs.Cpu.Footprint

/-!
# Moving bytes between registers and memory

Three instructions move a block of bytes between the registers and memory at the index register: the
registers up to one are stored or loaded, and the digits of a register are stored. Each of them is
executed exactly if its block lies in memory, and leaves the index register where it is
(`execute_transfer`).

What was stored is then the block in memory (`block_execute`), and the block in memory is what is
loaded (`get_loadRegisters`). So a load finds what was stored as long as the block is still there
(`KeepsBlock`), whatever else may have changed (`loaded_of_stored`).
-/

namespace Chip8

/-- How many bytes an instruction moves between the registers and memory, if it does. -/
def Instruction.transferSize? : Instruction → Option Nat
  | .storeDigits _ => some 3
  | .storeRegisters x => some (x.val + 1)
  | .loadRegisters x => some (x.val + 1)
  | _ => none

namespace Cpu

/-- The bytes that are in memory from the index register on. -/
def block (c : Cpu) (count : Nat) : List UInt8 :=
  (List.range count).map fun k => c.memory.byteAt (c.index.toNat + k)

/-- A later state has the index register where it was, and in memory there the bytes that were
there. -/
def KeepsBlock (c later : Cpu) (count : Nat) : Prop :=
  later.index = c.index ∧ later.block count = c.block count

/-- Three bytes are the decimal digits of a byte, hundreds first. -/
structure AreDigits (hundreds tens ones b : UInt8) : Prop where
  /-- The first digit. -/
  hundreds_le : hundreds.toNat ≤ 9
  /-- The second digit. -/
  tens_le : tens.toNat ≤ 9
  /-- The third digit. -/
  ones_le : ones.toNat ≤ 9
  /-- Together they make the byte. -/
  value : 100 * hundreds.toNat + 10 * tens.toNat + ones.toNat = b.toNat

/-- The decimal digits of a byte are its digits. -/
theorem areDigits_decimalDigits (b : UInt8) : AreDigits (b / 100) (b / 10 % 10) (b % 10) b := by
  have hlt := b.toNat_lt
  have hhundreds : (b / 100).toNat = b.toNat / 100 := UInt8.toNat_div b 100
  have htens : (b / 10 % 10).toNat = b.toNat / 10 % 10 := by
    rw [UInt8.toNat_mod, UInt8.toNat_div]
    rfl
  have hones : (b % 10).toNat = b.toNat % 10 := UInt8.toNat_mod b 10
  refine ⟨?_, ?_, ?_, ?_⟩ <;> omega

/-- Of the registers up to one, each is the register of its number, and there is none behind them. -/
theorem getD_registersUpTo (c : Cpu) (x r : Register) (b : UInt8) :
    (c.registersUpTo x)[r.val]?.getD b = if r ≤ x then c.get r else b := by
  rw [registersUpTo, List.getElem?_take, Vector.getElem?_toList]
  by_cases h : r ≤ x
  · have hlt : r.val < x.val + 1 := Nat.lt_succ_of_le h
    rw [if_pos h, if_pos hlt, Vector.getElem?_eq_getElem r.isLt]
    rfl
  · have hge : ¬r.val < x.val + 1 := fun hlt => h (Nat.le_of_lt_succ hlt)
    rw [if_neg h, if_neg hge, Option.getD_none]

section Transfer

variable {c later : Cpu} {i : Instruction}

/-- A transfer needs its block to lie in memory. -/
theorem check_of_transfer {count : Nat} (h : i.transferSize? = some count) :
    c.check i = Memory.checkAccess c.index count := by
  cases i with
  | storeDigits x => cases h; rfl
  | storeRegisters x => cases h; rfl
  | loadRegisters x => cases h; rfl
  | _ => cases h

/-- A transfer does not move the index register. -/
theorem movesIndex_of_transfer {count : Nat} (h : i.transferSize? = some count) :
    i.movesIndex = false := by
  cases i with
  | storeDigits x => rfl
  | storeRegisters x => rfl
  | loadRegisters x => rfl
  | _ => cases h

/-- An access is granted exactly if it lies in memory. -/
theorem checkAccess_eq_ok {start : UInt16} {count : Nat} :
    Memory.checkAccess start count = .ok () ↔ start.toNat + count ≤ 4096 := by
  have hsize : Memory.size = 4096 := rfl
  rw [Memory.checkAccess, hsize]
  split
  · exact iff_of_true rfl ‹_›
  · exact iff_of_false nofun ‹_›

/-- A transfer is executed exactly if its block lies in memory, and refused for the first address
that does not exist if not. It leaves the index register where it is. -/
theorem execute_transfer {count : Nat} (h : i.transferSize? = some count) :
    ((c.execute i).answer = .ok () ↔ c.index.toNat + count ≤ 4096) ∧
      (4096 < c.index.toNat + count →
        c.execute i = failure c (.outsideMemory (max c.index.toNat 4096))) ∧
      (c.execute i).state.index = c.index := by
  refine ⟨?_, fun hlt => execute_of_refused ?_, ?_⟩
  · rw [answer_execute, check_of_transfer h, checkAccess_eq_ok]
  · rw [check_of_transfer h]
    exact if_neg (Nat.not_le_of_lt hlt)
  · exact (c.confined_execute i).index (movesIndex_of_transfer h)

/-- The bytes of a block, one by one. -/
theorem getElem?_block {count k : Nat} (h : k < count) :
    (c.block count)[k]? = some (c.memory.byteAt (c.index.toNat + k)) := by
  rw [block, List.getElem?_map, List.getElem?_range h]
  rfl

/-- What an instruction stores is then the block in memory. -/
theorem block_execute (ok : (c.execute i).answer = .ok ()) {count : Nat}
    (h : i.transferSize? = some count) (stores : i.storeSize = count) :
    (c.execute i).state.block count = c.stored i := by
  have hinside := (execute_transfer h).1.mp ok
  have hindex : (c.execute i).state.index = c.index := (execute_transfer h).2.2
  rw [answer_execute] at ok
  have hlength : (c.stored i).length = count := (length_stored c i).trans stores
  refine List.ext_getElem? fun k => ?_
  by_cases hk : k < count
  · have hbyte : k < (c.stored i).length := by omega
    rw [getElem?_block hk, hindex, memory_execute ok, Memory.byteAt_patch _ _ (by omega),
      Memory.Patch.at?, if_pos (Nat.le_add_right _ _), Nat.add_sub_cancel_left,
      List.getElem?_eq_getElem hbyte, Option.getD_some]
  · have hblock : ((c.execute i).state.block count).length = count := by
      rw [block, List.length_map, List.length_range]
    rw [List.getElem?_eq_none (by omega), List.getElem?_eq_none (by omega)]

/-- A load puts the block in the registers that it names, and leaves the others alone. -/
theorem get_loadRegisters {x : Register} (ok : (c.execute (.loadRegisters x)).answer = .ok ())
    (r : Register) :
    (c.execute (.loadRegisters x)).state.get r = (c.block (x.val + 1))[r.val]?.getD (c.get r) := by
  rw [answer_execute] at ok
  have hcheck : Memory.checkAccess c.index (x.val + 1) = .ok () := ok
  have hread : c.memory.read c.index (x.val + 1) = .ok (c.block (x.val + 1)) := by
    rw [Memory.read, hcheck]
    rfl
  have hexecute : c.execute (.loadRegisters x) = c.loadRegisters x := rfl
  rw [hexecute, loadRegisters, hread]
  simp only [success, get, Fin.getElem_fin, Vector.getElem_ofFn]

/-- A load finds what was stored as long as the block is still there. -/
theorem loaded_of_stored {x : Register} (ok : (c.execute i).answer = .ok ())
    (h : i.transferSize? = some (x.val + 1)) (stores : i.storeSize = x.val + 1)
    (keeps : (c.execute i).state.KeepsBlock later (x.val + 1)) :
    (later.execute (.loadRegisters x)).answer = .ok () ∧
      ∀ r, (later.execute (.loadRegisters x)).state.get r =
        (c.stored i)[r.val]?.getD (later.get r) := by
  obtain ⟨hindex, hblock⟩ := keeps
  obtain ⟨hinside, -, hstays⟩ := execute_transfer (c := c) h
  have hload : (later.execute (.loadRegisters x)).answer = .ok () := by
    refine (execute_transfer (i := .loadRegisters x) rfl).1.mpr ?_
    rw [hindex, hstays]
    exact hinside.mp ok
  refine ⟨hload, fun r => ?_⟩
  rw [get_loadRegisters hload, hblock, block_execute ok h stores]

end Transfer

end Cpu

end Chip8
