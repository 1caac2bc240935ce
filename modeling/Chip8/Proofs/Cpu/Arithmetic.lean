import Chip8.Proofs.Cpu.Footprint
import Mathlib.Data.Nat.Bitwise

/-!
# Arithmetic with flags

What an arithmetic instruction computes, said in whole numbers: the result and the flag together
solve an equation in the two operands (`Operation.Solves`). A sum is the result and a carry of 256,
a difference is the result less a borrow of 256, and a shift keeps the bit that it drops in the
flag. With the result a byte and the flag a bit there is only one solution (`Solves.unique`), and
`solves_result` shows that the operations find it.

The rest is about registers. The operands are read before anything is stored and the flag is stored
last, so that it does not matter which of the registers are the same, except that the flag takes the
place of the result where both go into the flag register (`exists_combine_of_flag`). `AgreesExcept`
says what else an instruction leaves alone, and `Leaves` what the instructions without a flag do.
`arithmetic_with_flags` puts this together.
-/

namespace Chip8

namespace Operation

/-- The equation between the operands, the result and the flag of an operation. An operation without
a flag has none. -/
def Equation (a b r f : Int) : Operation → Prop
  | add => r + 256 * f = a + b
  | subtract => r = a - b + 256 * (1 - f)
  | shiftRight => 2 * r + f = a
  | subtractFrom => r = b - a + 256 * (1 - f)
  | shiftLeft => r + 256 * f = 2 * a
  | _ => False

/-- A result and a flag that are those of an operation on two bytes. -/
structure Solves (operation : Operation) (a b : UInt8) (r f : Nat) : Prop where
  /-- The result is a byte. -/
  result_le : r ≤ 255
  /-- The flag is a bit. -/
  flag_le : f ≤ 1
  /-- The two solve the equation of the operation. -/
  equation : operation.Equation a.toNat b.toNat r f

/-- The equation determines both the result and the flag. -/
theorem Solves.unique {operation : Operation} {a b : UInt8} {r f r' f' : Nat}
    (h : operation.Solves a b r f) (h' : operation.Solves a b r' f') : r = r' ∧ f = f' := by
  obtain ⟨hr, hf, he⟩ := h
  obtain ⟨hr', hf', he'⟩ := h'
  cases operation <;> simp only [Equation] at he he' <;> omega

/-- The lowest bit of a byte is set when the byte is odd. -/
theorem and_one_eq (a : UInt8) : (a &&& 0x01 == 0x01) = decide (a.toNat % 2 = 1) := by
  have hand : (a &&& 0x01).toNat = a.toNat % 2 := by
    rw [UInt8.toNat_and]
    exact Nat.and_one_is_mod a.toNat
  rw [Bool.eq_iff_iff, beq_iff_eq, decide_eq_true_eq, ← UInt8.toNat_inj, hand]
  rfl

/-- The highest bit of a byte is set when the byte is at least 128. -/
theorem and_128_eq (a : UInt8) : (a &&& 0x80 == 0x80) = decide (128 ≤ a.toNat) := by
  have hlt := a.toNat_lt
  have hand : (a &&& 0x80).toNat = (a.toNat.testBit 7).toNat * 128 := by
    rw [UInt8.toNat_and]
    exact Nat.and_two_pow a.toNat 7
  have hbit : a.toNat.testBit 7 = decide (128 ≤ a.toNat) := by
    rw [Nat.testBit_eq_decide_div_mod_eq, decide_eq_decide]
    omega
  rw [Bool.eq_iff_iff, beq_iff_eq, ← UInt8.toNat_inj, hand, hbit]
  cases decide (128 ≤ a.toNat) <;> decide

section Bytes

variable (a b : UInt8)

/-- The sum of two bytes and its carry make up the exact sum. -/
theorem toNat_add_carry :
    (a + b).toNat + 256 * (decide (256 ≤ a.toNat + b.toNat)).toNat = a.toNat + b.toNat := by
  have ha := a.toNat_lt
  have hb := b.toNat_lt
  rw [UInt8.toNat_add]
  by_cases hcarry : 256 ≤ a.toNat + b.toNat
  · simp only [hcarry, decide_true, Bool.toNat_true]
    omega
  · simp only [hcarry, decide_false, Bool.toNat_false]
    omega

/-- The difference of two bytes is the exact one, and 256 more if something was borrowed. -/
theorem toNat_sub_borrow :
    ((a - b).toNat : Int) = a.toNat - b.toNat + 256 * (1 - (decide (b ≤ a)).toNat) := by
  have ha := a.toNat_lt
  have hb := b.toNat_lt
  simp only [UInt8.toNat_sub, UInt8.le_iff_toNat_le]
  by_cases hle : b.toNat ≤ a.toNat
  · simp only [hle, decide_true, Bool.toNat_true]
    omega
  · simp only [hle, decide_false, Bool.toNat_false]
    omega

/-- A byte is twice its half, and the bit that was dropped. -/
theorem toNat_half : 2 * (a >>> 1).toNat + (a &&& 0x01 == 0x01).toNat = a.toNat := by
  have hhalf : (a >>> 1).toNat = a.toNat / 2 := by
    rw [UInt8.toNat_shiftRight]
    exact Nat.shiftRight_eq_div_pow a.toNat 1
  rw [hhalf, and_one_eq]
  by_cases hodd : a.toNat % 2 = 1
  · simp only [hodd, decide_true, Bool.toNat_true]
    omega
  · simp only [hodd, decide_false, Bool.toNat_false]
    omega

/-- The double of a byte and the bit that was dropped make up the exact double. -/
theorem toNat_double : (a <<< 1).toNat + 256 * (a &&& 0x80 == 0x80).toNat = 2 * a.toNat := by
  have ha := a.toNat_lt
  have hdouble : (a <<< 1).toNat = a.toNat * 2 % 256 := by
    rw [UInt8.toNat_shiftLeft]
    exact congrArg (· % 256) (Nat.shiftLeft_eq a.toNat 1)
  rw [hdouble, and_128_eq]
  by_cases hhigh : 128 ≤ a.toNat
  · simp only [hhigh, decide_true, Bool.toNat_true]
    omega
  · simp only [hhigh, decide_false, Bool.toNat_false]
    omega

end Bytes

/-- The result and the flag of an operation solve its equation. -/
theorem solves_result {operation : Operation} {a b : UInt8} {set : Bool}
    (h : operation.flag? a b = some set) :
    operation.Solves a b (operation.result a b).toNat set.toNat := by
  have hr := (operation.result a b).toNat_lt
  refine ⟨by omega, Bool.toNat_le set, ?_⟩
  cases operation <;> cases h
  case add =>
    have hsum := toNat_add_carry a b
    simp only [Equation, result]
    omega
  case subtract => exact toNat_sub_borrow a b
  case shiftRight =>
    have hhalf := toNat_half a
    simp only [Equation, result]
    omega
  case subtractFrom => exact toNat_sub_borrow b a
  case shiftLeft =>
    have hdouble := toNat_double a
    simp only [Equation, result]
    omega

end Operation

namespace Cpu

/-- Two processors are the same except for what some registers hold. -/
structure AgreesExcept (changed : List Register) (c after : Cpu) : Prop where
  /-- Any other register holds the same. -/
  registers : ∀ r, r ∉ changed → after.get r = c.get r
  /-- Everything but the registers is the same. -/
  rest : after = { c with registers := after.registers }

/-- Storing a byte in one of these registers changes nothing else. -/
theorem AgreesExcept.put {changed : List Register} {c after : Cpu}
    (h : c.AgreesExcept changed after) {x : Register} (hx : x ∈ changed) (b : UInt8) :
    c.AgreesExcept changed (after.put x b) where
  registers := by
    intro r hr
    have hne : r ≠ x := by
      rintro rfl
      exact hr hx
    rw [get_put, if_neg hne, h.registers r hr]
  rest := by
    rw [Cpu.put, h.rest]

/-- A processor is the same as itself. -/
theorem AgreesExcept.refl (changed : List Register) (c : Cpu) : c.AgreesExcept changed c :=
  ⟨fun _ _ => rfl, rfl⟩

/-- Storing a byte in a register changes nothing but that. -/
theorem agreesExcept_put (c : Cpu) (x : Register) (b : UInt8) : c.AgreesExcept [x] (c.put x b) :=
  (AgreesExcept.refl [x] c).put List.mem_cons_self b

section Combine

variable (c : Cpu) {operation : Operation} (x y : Register)

/-- An operation without a flag stores its result. -/
theorem combine_of_no_flag (h : operation.hasFlag = false) :
    c.combine operation x y = c.put x (operation.result (c.get x) (c.get y)) := by
  have hnone : operation.flag? (c.get x) (c.get y) = none := by
    rw [← Option.isNone_iff_eq_none, ← Option.not_isSome, operation.isSome_flag?, h]
    rfl
  simp only [combine, hnone]

/-- An operation with a flag stores its result, and then the flag, which the operands as they were
before determine. -/
theorem exists_combine_of_flag (h : operation.hasFlag = true) :
    ∃ set, operation.flag? (c.get x) (c.get y) = some set ∧ c.combine operation x y =
      (c.put x (operation.result (c.get x) (c.get y))).putFlag set := by
  rw [← operation.isSome_flag? (c.get x) (c.get y)] at h
  obtain ⟨set, hset⟩ := Option.isSome_iff_exists.mp h
  exact ⟨set, hset, by simp only [combine, hset]⟩

end Combine

/-- The flag register holds a flag that was stored in it, as a number. -/
theorem toNat_get_putFlag (c : Cpu) (set : Bool) :
    ((c.putFlag set).get .flag).toNat = set.toNat := by
  rw [putFlag, get_put, if_pos rfl]
  cases set <;> rfl

/-- A flag is stored in the flag register only. -/
theorem get_putFlag_of_ne (c : Cpu) (set : Bool) {r : Register} (h : r ≠ .flag) :
    (c.putFlag set).get r = c.get r := by
  rw [putFlag, get_put, if_neg h]

/-- An instruction succeeds, leaves a byte in a register, and changes nothing else. -/
structure Leaves (c : Cpu) (i : Instruction) (x : Register) (byte : UInt8) : Prop where
  /-- The instruction succeeds. -/
  answer : (c.execute i).answer = .ok ()
  /-- The register holds the byte. -/
  stored : (c.execute i).state.get x = byte
  /-- Nothing else is changed. -/
  rest : c.AgreesExcept [x] (c.execute i).state

/-- An instruction that stores a byte in a register leaves it there. -/
theorem Leaves.of_put {c : Cpu} {i : Instruction} {x : Register} {byte : UInt8}
    (answer : (c.execute i).answer = .ok ()) (state : (c.execute i).state = c.put x byte) :
    c.Leaves i x byte where
  answer := answer
  stored := by rw [state, get_put, if_pos rfl]
  rest := by
    rw [state]
    exact c.agreesExcept_put x byte

/-- An operation without a flag leaves its result. -/
theorem leaves_combine (c : Cpu) {operation : Operation} (x y : Register)
    (h : operation.hasFlag = false) :
    c.Leaves (.combine operation x y) x (operation.result (c.get x) (c.get y)) :=
  .of_put rfl (c.combine_of_no_flag x y h)

/-- The instructions that combine two registers, whichever registers these are. One with a flag
leaves a result and a flag that solve its equation in the operands as they were before. If the first
register is the flag register, it holds the flag, and the result is lost. One without a flag leaves
in the first register, be it the flag register, the second operand or the two operands combined bit
by bit, and to add a byte leaves the sum there without its carry. All of them succeed and change
nothing else; the program counter has been moved past the instruction before. -/
theorem arithmetic_with_flags :
    (∀ (c : Cpu) (operation : Operation) (x y : Register), operation.hasFlag = true →
      let done := c.execute (.combine operation x y)
      done.answer = .ok () ∧
        (x ≠ .flag → operation.Solves (c.get x) (c.get y) (done.state.get x).toNat
          (done.state.get .flag).toNat) ∧
        (x = .flag → ∃ lost, operation.Solves (c.get x) (c.get y) lost
          (done.state.get .flag).toNat) ∧
        c.AgreesExcept [x, .flag] done.state) ∧
    (∀ (c : Cpu) (x y : Register),
      c.Leaves (.combine .copy x y) x (c.get y) ∧
        c.Leaves (.combine .or x y) x (c.get x ||| c.get y) ∧
        c.Leaves (.combine .and x y) x (c.get x &&& c.get y) ∧
        c.Leaves (.combine .xor x y) x (c.get x ^^^ c.get y)) ∧
    (∀ (c : Cpu) (x : Register) (byte : UInt8),
      let done := c.execute (.addByte x byte)
      done.answer = .ok () ∧ (done.state.get x).toNat = ((c.get x).toNat + byte.toNat) % 256 ∧
        c.AgreesExcept [x] done.state) ∧
    ∀ (operation : Operation) (a b : UInt8) (r f r' f' : Nat), operation.Solves a b r f →
      operation.Solves a b r' f' → r = r' ∧ f = f' := by
  refine ⟨fun c operation x y h => ?_,
    fun c x y => ⟨c.leaves_combine x y rfl, c.leaves_combine x y rfl, c.leaves_combine x y rfl,
      c.leaves_combine x y rfl⟩,
    fun c x byte => ?_,
    fun operation a b r f r' f' hsolves hsolves' => hsolves.unique hsolves'⟩
  · intro done
    obtain ⟨set, hset, hcombine⟩ := c.exists_combine_of_flag x y h
    have hstate : done.state =
        (c.put x (operation.result (c.get x) (c.get y))).putFlag set := hcombine
    have hsolves := Operation.solves_result hset
    refine ⟨rfl, fun hx => ?_, fun _ => ?_, ?_⟩
    · rw [hstate, toNat_get_putFlag, get_putFlag_of_ne _ _ hx, get_put, if_pos rfl]
      exact hsolves
    · rw [hstate, toNat_get_putFlag]
      exact ⟨_, hsolves⟩
    · rw [hstate]
      exact ((AgreesExcept.refl [x, .flag] c).put (by simp) _).put (by simp) _
  · intro done
    have hsum : c.Leaves (.addByte x byte) x (c.get x + byte) := .of_put rfl rfl
    refine ⟨hsum.answer, ?_, hsum.rest⟩
    rw [hsum.stored]
    exact UInt8.toNat_add (c.get x) byte

/-- 200 in the first register and 100 in the flag register. Their sum goes to the first register as
44 with a carry, which replaces the operand. Their difference is lost when it is taken in the flag
register, where only the borrow is left, but a copy stays there, and so do the bits that the two
have in common. -/
theorem sum_with_flag_register :
    let c := ((initial { key := Vector.replicate 8 0 }).put 0 200).put .flag 100
    let sum := (c.execute (.combine .add 0 .flag)).state
    (Operation.add.hasFlag = true ∧ (0 : Register) ≠ .flag ∧
      Operation.add.Solves 200 100 (sum.get 0).toNat (sum.get .flag).toNat ∧
      (sum.get 0).toNat = 44 ∧ (sum.get .flag).toNat = 1) ∧
    (Operation.subtract.hasFlag = true ∧ ∃ lost, Operation.subtract.Solves 100 200 lost
      ((c.execute (.combine .subtract .flag 0)).state.get .flag).toNat) ∧
    (c.execute (.combine .copy .flag 0)).state.get .flag = 200 ∧
      (c.execute (.combine .and .flag 0)).state.get .flag = 64 := by
  intro c sum
  obtain ⟨hflagged, hplain, -, hunique⟩ := arithmetic_with_flags
  obtain ⟨-, hsum, -, -⟩ := hflagged c .add 0 .flag rfl
  obtain ⟨-, -, hlost, -⟩ := hflagged c .subtract .flag 0 rfl
  obtain ⟨hcopy, -, hand, -⟩ := hplain c .flag 0
  have hne : (0 : Register) ≠ .flag := by decide
  have hsolution : Operation.add.Solves 200 100 44 1 := ⟨by decide, by decide, rfl⟩
  obtain ⟨hresult, hcarry⟩ := hunique .add 200 100 _ _ 44 1 (hsum hne) hsolution
  exact ⟨⟨rfl, hne, hsum hne, hresult, hcarry⟩, ⟨rfl, hlost rfl⟩, hcopy.stored,
    hand.stored.trans (by decide)⟩

end Cpu

end Chip8
