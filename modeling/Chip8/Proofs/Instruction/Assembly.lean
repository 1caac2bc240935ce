import Chip8.Cpu.Execute
import Chip8.Instruction.Disassembly
import Chip8.Proofs.Instruction.Forms
import Chip8.Proofs.Text.Numerals
import Mathlib.Data.Set.List

/-!
# Assembly

A listing of a program has a line for each of its words, with the disassembly of the word.
`assemble?` reads a listing back, so no two programs have the same one
(`listing_identifies_program`).

Many instructions share a mnemonic, and `B` and `F` are digits as well as names of targets. So the
assembler reads a line in three steps. It is cut into words at blanks and commas. The mnemonic and
the number of operands then give the family, and within a family the operands are told apart by what
they can be: no numeral begins with the `V` of a register, and where a byte can stand in place of a
name, none of the names is a numeral. `ofText?_text` is that every instruction is read back from its
text.
-/

namespace Chip8

open Text (hex ofHex? ofHex?_paddedHexDigits toList_hex isSome_hexValue?_hex not_mem_hex)

namespace Assembly

/-! ## Words of a line -/

/-- Blanks and commas stand between words. -/
def isSeparator (c : Char) : Bool :=
  c = ' ' || c = ','

/-- The words among some characters. -/
def wordsAmong (cs : List Char) : List (List Char) :=
  (cs.splitOnP isSeparator).filter fun word => !word.isEmpty

/-- The words of a line. -/
def words (line : String) : List String :=
  (wordsAmong line.toList).map String.ofList

/-- A text is a single word. -/
def isWord (text : String) : Bool :=
  !text.toList.isEmpty && text.toList.all fun c => !isSeparator c

/-- A separator in front makes no word. -/
theorem wordsAmong_separator {c : Char} (h : isSeparator c = true) (rest : List Char) :
    wordsAmong (c :: rest) = wordsAmong rest := by
  rw [wordsAmong, List.splitOnP_cons_eq_if_modifyHead, if_pos h]
  rfl

/-- A word ends at a separator. -/
theorem wordsAmong_append {word : String} {c : Char} (h : isWord word = true)
    (hc : isSeparator c = true) (rest : List Char) :
    wordsAmong (word.toList ++ c :: rest) = word.toList :: wordsAmong rest := by
  simp only [isWord, Bool.and_eq_true, List.all_eq_true, Bool.not_eq_true'] at h
  rw [wordsAmong, List.splitOnP_append_cons_of_forall_mem h.2 c hc, List.filter_cons, h.1]
  rfl

/-- A word alone. -/
theorem words_of_isWord {word : String} (h : isWord word = true) : words word = [word] := by
  simp only [isWord, Bool.and_eq_true, List.all_eq_true, Bool.not_eq_true'] at h
  rw [words, wordsAmong, List.splitOnP_eq_singleton h.2, List.filter_cons, h.1]
  simp

/-- A word in front of a blank. -/
theorem words_blank {word : String} (h : isWord word = true) (rest : String) :
    words (word ++ " " ++ rest) = word :: words rest := by
  have hline : (word ++ " " ++ rest).toList = word.toList ++ ' ' :: rest.toList := by simp
  rw [words, hline, wordsAmong_append h rfl, List.map_cons, String.ofList_toList, words]

/-- A word in front of a comma and a blank. -/
theorem words_comma {word : String} (h : isWord word = true) (rest : String) :
    words (word ++ ", " ++ rest) = word :: words rest := by
  have hline : (word ++ ", " ++ rest).toList = word.toList ++ ',' :: ' ' :: rest.toList := by simp
  rw [words, hline, wordsAmong_append h rfl, wordsAmong_separator rfl, List.map_cons,
    String.ofList_toList, words]

/-! ## Operands -/

/-- The number below a bound that a text writes in hexadecimal. -/
def below? (bound : Nat) (text : String) : Option (Fin bound) :=
  (ofHex? text.toList).bind fun n => if h : n < bound then some ⟨n, h⟩ else none

/-- The address that a text writes in hexadecimal. -/
def address? (text : String) : Option Address :=
  below? 4096 text

/-- The byte that a text writes in hexadecimal. -/
def byte? (text : String) : Option UInt8 :=
  (below? 256 text).map UInt8.ofFin

/-- The register that has a text for its name. -/
def register? (text : String) : Option Register :=
  (List.finRange 16).find? fun x => x.text = text

/-- The operation that has a text for its mnemonic. -/
def operation? (text : String) : Option Operation :=
  [.copy, .or, .and, .xor, .add, .subtract, .shiftRight, .subtractFrom, .shiftLeft].find?
    fun operation => operation.mnemonic = text

/-- A numeral is read as its number. -/
theorem below?_hex {bound : Nat} (width : Nat) (n : Fin bound) :
    below? bound (hex width n.val) = some n := by
  rw [below?, toList_hex, ofHex?_paddedHexDigits, Option.bind_some, dif_pos n.isLt]

/-- An address is read from its three digits. -/
theorem address?_text (a : Address) : address? a.text = some a :=
  below?_hex 3 a

/-- A byte is read from its two digits. -/
theorem byte?_byteText (b : UInt8) : byte? (Instruction.byteText b) = some b := by
  have hbyte : below? 256 (Instruction.byteText b) = some b.toFin := below?_hex 2 b.toFin
  rw [byte?, hbyte]
  rfl

/-- A register is read from its name. -/
theorem register?_text (x : Register) : register? x.text = some x := by
  revert x
  decide

/-- No numeral is the name of a register. -/
theorem register?_hex (width n : Nat) : register? (hex width n) = none := by
  have hnone : ('V' : Char) ∉ (hex width n).toList := not_mem_hex (by decide) width n
  refine List.find?_eq_none.mpr fun x _ htext => hnone ?_
  rw [← of_decide_eq_true htext, Register.text, String.toList_append]
  exact List.mem_append_left _ (by decide)

/-- A numeral with a digit is a word. -/
theorem isWord_hex {width : Nat} (h : 0 < width) (n : Nat) : isWord (hex width n) = true := by
  have hlength : 0 < (hex width n).toList.length := by
    rw [toList_hex]
    exact Nat.lt_of_lt_of_le h (Text.le_length_paddedHexDigits width n)
  simp only [isWord, Bool.and_eq_true, List.all_eq_true, Bool.not_eq_true']
  refine ⟨List.isEmpty_eq_false_iff.mpr (List.ne_nil_of_length_pos hlength), fun c hc => ?_⟩
  have hdigit := isSome_hexValue?_hex c hc
  cases hseparator : isSeparator c with
  | false => rfl
  | true =>
    obtain rfl | rfl := (Bool.or_eq_true_iff.mp hseparator).imp of_decide_eq_true of_decide_eq_true
    · exact absurd hdigit (by decide)
    · exact absurd hdigit (by decide)

/-- An address is a word. -/
theorem isWord_address (a : Address) : isWord a.text = true :=
  isWord_hex (by decide) a.val

/-- A byte is a word. -/
theorem isWord_byteText (b : UInt8) : isWord (Instruction.byteText b) = true :=
  isWord_hex (by decide) b.toNat

/-- The name of a register is a word. -/
theorem isWord_register (x : Register) : isWord x.text = true := by
  revert x
  decide

/-- The mnemonic of an operation is a word. -/
theorem isWord_mnemonic (operation : Operation) : isWord operation.mnemonic = true := by
  cases operation <;> decide

end Assembly

open Assembly

namespace Instruction

/-! ## Lines -/

/-- The instruction with a mnemonic and no operands. -/
def ofMnemonic? (mnemonic : String) : Option Instruction :=
  match mnemonic with
  | "CLS" => some clearScreen
  | "RET" => some returnToCaller
  | _ => none

/-- The instruction with a mnemonic and one operand. -/
def ofUnary? (mnemonic operand : String) : Option Instruction :=
  match mnemonic with
  | "JP" => (address? operand).map jump
  | "CALL" => (address? operand).map call
  | "SKP" => (register? operand).map skipIfHeld
  | "SKNP" => (register? operand).map skipUnlessHeld
  | _ => none

/-- The instruction with a mnemonic and two registers. -/
def ofRegisters? (mnemonic : String) (x y : Register) : Option Instruction :=
  match mnemonic with
  | "SE" => some (skipIfSame x y)
  | "SNE" => some (skipUnlessSame x y)
  | _ => (operation? mnemonic).map fun operation => combine operation x y

/-- The instruction with a mnemonic, a register and a byte. -/
def ofByte? (mnemonic : String) (x : Register) (byte : UInt8) : Option Instruction :=
  match mnemonic with
  | "SE" => some (skipIfByte x byte)
  | "SNE" => some (skipUnlessByte x byte)
  | "LD" => some (setByte x byte)
  | "ADD" => some (addByte x byte)
  | "RND" => some (drawRandom x byte)
  | _ => none

/-- The instruction that fills a register from a source with a name. -/
def ofSource? (x : Register) (source : String) : Option Instruction :=
  match source with
  | "DT" => some (readDelay x)
  | "K" => some (awaitKey x)
  | "[I]" => some (loadRegisters x)
  | _ => none

/-- The instruction with a mnemonic that takes a register to a target with a name. -/
def ofTarget? (mnemonic target : String) (x : Register) : Option Instruction :=
  match mnemonic, target with
  | "LD", "DT" => some (setDelay x)
  | "LD", "ST" => some (setSound x)
  | "LD", "F" => some (pointAtGlyph x)
  | "LD", "B" => some (storeDigits x)
  | "LD", "[I]" => some (storeRegisters x)
  | "ADD", "I" => some (advanceIndex x)
  | _, _ => none

/-- The instruction with a mnemonic and two operands. -/
def ofBinary? (mnemonic first second : String) : Option Instruction :=
  -- The first operand of a jump is written as a register, but it is always the same one.
  if mnemonic = "JP" then
    if first = Register.zero.text then (address? second).map jumpWithOffset else none
  else match register? first, register? second with
    | some x, some y => ofRegisters? mnemonic x y
    | some x, none =>
      match byte? second with
      | some byte => ofByte? mnemonic x byte
      | none => if mnemonic = "LD" then ofSource? x second else none
    | none, some x => ofTarget? mnemonic first x
    | none, none =>
      if mnemonic = "LD" ∧ first = "I" then (address? second).map setIndex else none

/-- The instruction with a mnemonic and three operands. -/
def ofTernary? (mnemonic first second third : String) : Option Instruction :=
  if mnemonic = "DRW" then do
    return drawSprite (← register? first) (← register? second) (← below? 16 third)
  else none

/-- The instruction that is written in a line. -/
def ofText? (line : String) : Option Instruction :=
  match words line with
  | [mnemonic] => ofMnemonic? mnemonic
  | [mnemonic, operand] => ofUnary? mnemonic operand
  | [mnemonic, first, second] => ofBinary? mnemonic first second
  | [mnemonic, first, second, third] => ofTernary? mnemonic first second third
  | _ => none

variable {mnemonic first second third : String}

/-- A line with one operand. -/
theorem ofText?_unaryText (hmnemonic : isWord mnemonic = true) (hfirst : isWord first = true) :
    ofText? (unaryText mnemonic first) = ofUnary? mnemonic first := by
  rw [ofText?, unaryText, words_blank hmnemonic, words_of_isWord hfirst]

/-- A line with two operands. -/
theorem ofText?_binaryText (hmnemonic : isWord mnemonic = true) (hfirst : isWord first = true)
    (hsecond : isWord second = true) :
    ofText? (binaryText mnemonic first second) = ofBinary? mnemonic first second := by
  rw [ofText?, binaryText, unaryText, words_blank hmnemonic, words_comma hfirst,
    words_of_isWord hsecond]

/-- A line with three operands. -/
theorem ofText?_ternaryText (hmnemonic : isWord mnemonic = true) (hfirst : isWord first = true)
    (hsecond : isWord second = true) (hthird : isWord third = true) :
    ofText? (binaryText mnemonic first (second ++ ", " ++ third)) =
      ofTernary? mnemonic first second third := by
  rw [ofText?, binaryText, unaryText, words_blank hmnemonic, words_comma hfirst,
    words_comma hsecond, words_of_isWord hthird]

/-- A line with two registers. -/
theorem ofText?_registers (hmnemonic : isWord mnemonic = true) (hjump : mnemonic ≠ "JP")
    (x y : Register) :
    ofText? (binaryText mnemonic x.text y.text) = ofRegisters? mnemonic x y := by
  rw [ofText?_binaryText hmnemonic (isWord_register x) (isWord_register y), ofBinary?,
    if_neg hjump, register?_text, register?_text]

/-- A line with a register and a byte. -/
theorem ofText?_byte (hmnemonic : isWord mnemonic = true) (hjump : mnemonic ≠ "JP")
    (x : Register) (byte : UInt8) :
    ofText? (binaryText mnemonic x.text (byteText byte)) = ofByte? mnemonic x byte := by
  have hbyte : register? (byteText byte) = none := register?_hex 2 byte.toNat
  rw [ofText?_binaryText hmnemonic (isWord_register x) (isWord_byteText byte), ofBinary?,
    if_neg hjump, register?_text, hbyte, byte?_byteText]

/-- A line that fills a register from a source with a name. -/
theorem ofText?_source {source : String} (hsource : isWord source = true)
    (hregister : register? source = none) (hbyte : byte? source = none) (x : Register) :
    ofText? (binaryText "LD" x.text source) = ofSource? x source := by
  rw [ofText?_binaryText (by decide) (isWord_register x) hsource, ofBinary?, if_neg (by decide),
    register?_text, hregister, hbyte]
  exact if_pos rfl

/-- A line that takes a register to a target with a name. -/
theorem ofText?_target {target : String} (hmnemonic : isWord mnemonic = true)
    (hjump : mnemonic ≠ "JP") (htarget : isWord target = true) (hregister : register? target = none)
    (x : Register) :
    ofText? (binaryText mnemonic target x.text) = ofTarget? mnemonic target x := by
  rw [ofText?_binaryText hmnemonic htarget (isWord_register x), ofBinary?, if_neg hjump,
    hregister, register?_text]

/-- Every instruction is read back from its text. -/
theorem ofText?_text (i : Instruction) : ofText? i.text = some i := by
  -- What an instruction has in common with its family is settled by the lemma of the family.
  cases i with
  | clearScreen => decide
  | returnToCaller => decide
  | jump target =>
    rw [text, ofText?_unaryText (by decide) (isWord_address target), ofUnary?, address?_text]
    rfl
  | call target =>
    rw [text, ofText?_unaryText (by decide) (isWord_address target), ofUnary?, address?_text]
    rfl
  | skipIfHeld x =>
    rw [text, ofText?_unaryText (by decide) (isWord_register x), ofUnary?, register?_text]
    rfl
  | skipUnlessHeld x =>
    rw [text, ofText?_unaryText (by decide) (isWord_register x), ofUnary?, register?_text]
    rfl
  | skipIfSame x y => exact ofText?_registers (by decide) (by decide) x y
  | skipUnlessSame x y => exact ofText?_registers (by decide) (by decide) x y
  | combine operation x y =>
    rw [text, ofText?_registers (isWord_mnemonic operation) (by cases operation <;> decide)]
    cases operation <;> rfl
  | skipIfByte x byte => exact ofText?_byte (by decide) (by decide) x byte
  | skipUnlessByte x byte => exact ofText?_byte (by decide) (by decide) x byte
  | setByte x byte => exact ofText?_byte (by decide) (by decide) x byte
  | addByte x byte => exact ofText?_byte (by decide) (by decide) x byte
  | drawRandom x mask => exact ofText?_byte (by decide) (by decide) x mask
  | readDelay x => exact ofText?_source (by decide) (by decide) (by decide) x
  | awaitKey x => exact ofText?_source (by decide) (by decide) (by decide) x
  | loadRegisters x => exact ofText?_source (by decide) (by decide) (by decide) x
  | setDelay x => exact ofText?_target (by decide) (by decide) (by decide) (by decide) x
  | setSound x => exact ofText?_target (by decide) (by decide) (by decide) (by decide) x
  | advanceIndex x => exact ofText?_target (by decide) (by decide) (by decide) (by decide) x
  | pointAtGlyph x => exact ofText?_target (by decide) (by decide) (by decide) (by decide) x
  | storeDigits x => exact ofText?_target (by decide) (by decide) (by decide) (by decide) x
  | storeRegisters x => exact ofText?_target (by decide) (by decide) (by decide) (by decide) x
  | setIndex target =>
    have hregister : register? target.text = none := register?_hex 3 target.val
    have hindex : register? "I" = none := by decide
    rw [text, ofText?_binaryText (by decide) (by decide) (isWord_address target), ofBinary?,
      if_neg (by decide), hindex, hregister, address?_text]
    rfl
  | jumpWithOffset target =>
    rw [text, ofText?_binaryText (by decide) (by decide) (isWord_address target), ofBinary?,
      if_pos rfl, if_pos (by decide), address?_text]
    rfl
  | drawSprite x y height =>
    rw [text, ofText?_ternaryText (by decide) (isWord_register x) (isWord_register y)
      (isWord_hex (by decide) _), ofTernary?, if_pos rfl, register?_text, register?_text, below?_hex]
    rfl

/-- Different instructions have different texts. -/
theorem text_inj {i j : Instruction} : i.text = j.text ↔ i = j := by
  refine ⟨fun h => ?_, congrArg text⟩
  have hi := ofText?_text i
  rw [h, ofText?_text] at hi
  exact (Option.some.inj hi).symm

/-- No instruction has a line break in its text, nor the small letter that stands in front of the
registers in the log. -/
theorem not_mem_text {c : Char} (h : c = '\n' ∨ c = 'v') (i : Instruction) :
    c ∉ i.text.toList := by
  have hhex (width n : Nat) : c ∉ (hex width n).toList :=
    not_mem_hex (by obtain rfl | rfl := h <;> decide) width n
  have hmnemonic (operation : Operation) : c ∉ operation.mnemonic.toList := by
    obtain rfl | rfl := h <;> cases operation <;> decide
  unfold text
  cases i <;>
    simp only [unaryText, binaryText, byteText, Address.text, Register.text, String.toList_append,
      List.mem_append, not_or, hhex, hmnemonic, not_false_eq_true, and_true, true_and] <;>
    obtain rfl | rfl := h <;> decide

end Instruction

namespace Assembly

/-! ## Listings -/

/-- The listing of a program: for each word a line with its disassembly. -/
def listing (program : List UInt16) : Except Error String := do
  let instructions ← program.mapM Instruction.decode
  return String.join (instructions.map fun i => i.text ++ "\n")

/-- The program that a listing is of. -/
def assemble? (source : String) : Option (List UInt16) :=
  (source.toList.splitOn '\n').dropLast.mapM fun line =>
    (Instruction.ofText? (String.ofList line)).map Instruction.encode

/-- A program decodes to the instructions that are encoded by its words. -/
theorem mapM_decode_eq_ok_iff {program : List UInt16} {instructions : List Instruction} :
    program.mapM Instruction.decode = .ok instructions ↔
      instructions.map Instruction.encode = program := by
  induction program generalizing instructions with
  | nil =>
    rw [List.mapM_nil, List.map_eq_nil_iff]
    exact ⟨fun h => (Except.ok.inj h).symm, fun h => h ▸ rfl⟩
  | cons w program ih =>
    rw [List.mapM_cons, List.map_eq_cons_iff]
    constructor
    · intro h
      cases hw : Instruction.decode w with
      | error e => rw [hw] at h; cases h
      | ok i =>
        cases hrest : program.mapM Instruction.decode with
        | error e => rw [hw, hrest] at h; cases h
        | ok rest =>
          rw [hw, hrest] at h
          cases h
          exact ⟨i, rest, rfl, Instruction.decode_eq_ok_iff.mp hw, ih.mp hrest⟩
    · rintro ⟨i, rest, rfl, hi, hrest⟩
      rw [Instruction.decode_eq_ok_iff.mpr hi, ih.mpr hrest]
      rfl

/-- A listing is written of the instructions that are encoded by the words of a program. -/
theorem listing_eq_ok_iff {program : List UInt16} {source : String} :
    listing program = .ok source ↔ ∃ instructions : List Instruction,
      instructions.map Instruction.encode = program ∧
        source = String.join (instructions.map fun i => i.text ++ "\n") := by
  constructor
  · intro h
    cases hdecoded : program.mapM Instruction.decode with
    | error e => rw [listing, hdecoded] at h; cases h
    | ok instructions =>
      rw [listing, hdecoded] at h
      exact ⟨instructions, mapM_decode_eq_ok_iff.mp hdecoded, (Except.ok.inj h).symm⟩
  · rintro ⟨instructions, hdecoded, rfl⟩
    rw [listing, mapM_decode_eq_ok_iff.mpr hdecoded]
    rfl

/-- A listing is cut at its line breaks into the lines that it was made of. -/
theorem splitOn_join (instructions : List Instruction) :
    (String.join (instructions.map fun i => i.text ++ "\n")).toList.splitOn '\n' =
      instructions.map (fun i => i.text.toList) ++ [[]] := by
  induction instructions with
  | nil => rfl
  | cons i instructions ih =>
    have hline : (String.join ((i :: instructions).map fun i => i.text ++ "\n")).toList =
        i.text.toList ++
          '\n' :: (String.join (instructions.map fun i => i.text ++ "\n")).toList := by
      simp
    rw [hline, List.splitOn_append_cons_self_of_not_mem (i.not_mem_text (.inl rfl)), ih]
    rfl

/-- The listing of instructions is assembled to the words that encode them. -/
theorem assemble?_join (instructions : List Instruction) :
    assemble? (String.join (instructions.map fun i => i.text ++ "\n")) =
      some (instructions.map Instruction.encode) := by
  rw [assemble?, splitOn_join, List.dropLast_concat, List.mapM_map]
  have hline : ((fun line => (Instruction.ofText? (String.ofList line)).map Instruction.encode) ∘
      fun i : Instruction => i.text.toList) = fun i => pure i.encode := by
    funext i
    rw [Function.comp_apply, String.ofList_toList, Instruction.ofText?_text]
    rfl
  rw [hline, List.mapM_pure]
  rfl

/-- A program has a listing exactly if each of its words decodes. -/
theorem exists_listing_iff {program : List UInt16} :
    (∃ source, listing program = .ok source) ↔
      ∀ w ∈ program, ∃ i, Instruction.decode w = .ok i := by
  simp only [listing_eq_ok_iff, Instruction.decode_eq_ok_iff]
  constructor
  · rintro ⟨-, instructions, rfl, -⟩ w hw
    obtain ⟨i, -, hi⟩ := List.mem_map.mp hw
    exact ⟨i, hi⟩
  · intro h
    have hrange : program ∈ Set.range (List.map Instruction.encode) := by
      rw [Set.range_list_map]
      exact h
    obtain ⟨instructions, hencoded⟩ := hrange
    exact ⟨_, instructions, hencoded, rfl⟩

/-- A listing is assembled to its program. -/
theorem assemble?_of_listing {program : List UInt16} {source : String}
    (h : listing program = .ok source) : assemble? source = some program := by
  obtain ⟨instructions, rfl, rfl⟩ := listing_eq_ok_iff.mp h
  exact assemble?_join instructions

/-- A disassembly identifies the program. A program whose words all decode has a listing, from which
the assembler recovers it word for word. So no two such programs have the same listing, and no two
words that decode the same text. In particular the text tells which second register a shift names,
although the shift does the same whichever it is. -/
theorem listing_identifies_program :
    (∀ program : List UInt16, (∃ source, listing program = .ok source) ↔
      ∀ w ∈ program, ∃ i, Instruction.decode w = .ok i) ∧
    (∀ (program : List UInt16) (source : String), listing program = .ok source →
      assemble? source = some program) ∧
    (∀ first second : List UInt16, (∀ w ∈ first, ∃ i, Instruction.decode w = .ok i) →
      (∀ w ∈ second, ∃ i, Instruction.decode w = .ok i) →
      listing first = listing second → first = second) ∧
    (∀ (v w : UInt16) (i j : Instruction), Instruction.decode v = .ok i →
      Instruction.decode w = .ok j → i.text = j.text → v = w) ∧
    ∀ (operation : Operation) (x y z : Register),
      operation = .shiftRight ∨ operation = .shiftLeft →
      (∀ c : Cpu, c.execute (.combine operation x y) = c.execute (.combine operation x z)) ∧
      ((Instruction.combine operation x y).text = (Instruction.combine operation x z).text ↔
        y = z) := by
  refine ⟨fun program => exists_listing_iff, fun program source h => assemble?_of_listing h,
    fun first second hfirst hsecond h => ?_, fun v w i j hv hw h => ?_,
    fun operation x y z hshift => ⟨fun c => ?_, fun h => ?_, fun h => h ▸ rfl⟩⟩
  · obtain ⟨source, hsource⟩ := exists_listing_iff.mpr hfirst
    have hagain := assemble?_of_listing (h ▸ hsource)
    rw [assemble?_of_listing hsource] at hagain
    exact Option.some.inj hagain
  · rw [← Instruction.decode_eq_ok_iff.mp hv, ← Instruction.decode_eq_ok_iff.mp hw,
      Instruction.text_inj.mp h]
  · obtain rfl | rfl := hshift <;> rfl
  · exact (Instruction.combine.inj (Instruction.text_inj.mp h)).2.2

/-- Two shifts that differ in the register that they ignore, and numerals that look like names in
places where a name could stand. -/
theorem ignored_register_listed :
    let shift := Instruction.combine .shiftRight 0xA 0xB
    let program : List UInt16 := [0x8AB6, 0x8A06, 0x6BDE, 0xFB33, 0xD01B, 0xB300]
    let source := "SHR VA, VB\nSHR VA, V0\nLD VB, DE\nLD B, VB\nDRW V0, V1, B\nJP V0, 300\n"
    let encoded := [shift, .combine .shiftRight 0xA 0x0, .setByte 0xB 0xDE, .storeDigits 0xB,
      .drawSprite 0x0 0x1 0xB, .jumpWithOffset 0x300].map Instruction.encode
    (listing program = .ok source ∧ assemble? source = some program) ∧
    ((∀ w ∈ encoded, ∃ i, Instruction.decode w = .ok i) ∧
      (∀ w ∈ program, ∃ i, Instruction.decode w = .ok i) ∧
      listing encoded = listing program ∧ encoded = program) ∧
    (Instruction.decode 0x8AB6 = .ok shift ∧ Instruction.decode shift.encode = .ok shift ∧
      0x8AB6 = shift.encode) ∧
    (∀ c : Cpu, c.execute shift = c.execute (.combine .shiftRight 0xA 0x0)) ∧
    shift.text ≠ (Instruction.combine .shiftRight 0xA 0x0).text := by
  intro shift program source encoded
  obtain ⟨hdecodes, hassembles, hprograms, hwords, hshifts⟩ := listing_identifies_program
  have hlisting : listing program = .ok source := by decide +kernel
  have hencoded : listing encoded = .ok source := by decide +kernel
  have hprogram := (hdecodes program).mp ⟨source, hlisting⟩
  have hagain := (hdecodes encoded).mp ⟨source, hencoded⟩
  have hsame : listing encoded = listing program := hencoded.trans hlisting.symm
  have hword : Instruction.decode 0x8AB6 = .ok shift := by decide +kernel
  have hshift : Instruction.decode shift.encode = .ok shift := by decide +kernel
  obtain ⟨hexecute, htext⟩ := hshifts .shiftRight 0xA 0xB 0x0 (.inl rfl)
  exact ⟨⟨hlisting, hassembles program source hlisting⟩,
    ⟨hagain, hprogram, hsame, hprograms encoded program hagain hprogram hsame⟩,
    ⟨hword, hshift, hwords 0x8AB6 shift.encode shift shift hword hshift rfl⟩,
    hexecute, mt htext.mp (by decide)⟩

end Assembly

end Chip8
