import Chip8.Error
import Chip8.Proofs.Text.Numerals

/-!
# What a message reports

A message can be read in one way only. `messages_identify` says so of errors and of faults: equal
messages report the same error at the same place, with the same word, key, address and sizes.

The messages of errors begin with nine different characters (`Error.initial`), so the first one
tells the wording, and within a wording the numerals end where something other than a digit stands.
The message of a fault goes on with a bracket, which no error has in its message, so what stands in
front of the first bracket is the message of the error, and what follows it is the place. It begins
with another letter if the word is known than if it is not.
-/

namespace Chip8

open Text (hex decimal markedHex hex_inj markedHex_inj hex_append_inj decimal_append_inj not_mem_hex
  not_mem_decimal append_inj_of_ends)
open Json.Quoted (hexValue?)

namespace Error

/-- The character that the message of an error begins with. -/
def initial : Error → Char
  | notImplemented _ => 'u'
  | noSuchVariant _ => 'i'
  | emptyCallStack => 'r'
  | fullCallStack => 'c'
  | outsideMemory _ => 'm'
  | programTooLarge _ _ => 'R'
  | alreadyLoaded => 'a'
  | nothingLoaded => 'n'
  | unknownKey _ => 'k'

/-- A message begins with the character of its error. -/
theorem head_message (e : Error) : e.message.toList.head? = some e.initial := by
  unfold message
  cases e <;>
    simp only [String.append_assoc, String.toList_append, List.head?_append] <;>
    rfl

/-- No message of an error has a bracket. -/
theorem bracket_not_mem_message (e : Error) : '(' ∉ e.message.toList := by
  have hhex (width n : Nat) : '(' ∉ (hex width n).toList := not_mem_hex (by decide) width n
  have hdecimal (n : Nat) : '(' ∉ (decimal n).toList := not_mem_decimal (by decide) n
  unfold message
  cases e <;>
    simp only [markedHex, String.toList_append, List.mem_append, not_or, hhex, hdecimal,
      not_false_eq_true, and_true] <;>
    decide

/-- Different errors have different messages. -/
theorem message_inj {e f : Error} : e.message = f.message ↔ e = f := by
  refine ⟨fun h => ?_, congrArg message⟩
  have hinitial : e.initial = f.initial := by
    apply Option.some.inj
    rw [← head_message, ← head_message, h]
  -- The wording is the same, so that only the numerals are left to compare.
  unfold message at h
  cases e with
  | notImplemented word =>
    cases f with
    | notImplemented word' =>
      rw [String.append_right_inj, markedHex_inj] at h
      rw [UInt16.toNat_inj.mp h]
    | _ => cases hinitial
  | noSuchVariant word =>
    cases f with
    | noSuchVariant word' =>
      rw [String.append_right_inj, markedHex_inj] at h
      rw [UInt16.toNat_inj.mp h]
    | _ => cases hinitial
  | emptyCallStack =>
    cases f with
    | emptyCallStack => rfl
    | _ => cases hinitial
  | fullCallStack =>
    cases f with
    | fullCallStack => rfl
    | _ => cases hinitial
  | outsideMemory address =>
    cases f with
    | outsideMemory address' =>
      rw [String.append_right_inj, markedHex_inj] at h
      rw [h]
    | _ => cases hinitial
  | programTooLarge size limit =>
    cases f with
    | programTooLarge size' limit' =>
      simp only [String.append_assoc, String.append_right_inj] at h
      obtain ⟨hsize, hbehind⟩ := decimal_append_inj (by simp) (by simp) h
      rw [String.append_right_inj] at hbehind
      obtain ⟨hlimit, -⟩ := decimal_append_inj (by simp) (by simp) hbehind
      rw [hsize, hlimit]
    | _ => cases hinitial
  | alreadyLoaded =>
    cases f with
    | alreadyLoaded => rfl
    | _ => cases hinitial
  | nothingLoaded =>
    cases f with
    | nothingLoaded => rfl
    | _ => cases hinitial
  | unknownKey key =>
    cases f with
    | unknownKey key' =>
      rw [String.append_left_inj, String.append_right_inj, markedHex_inj] at h
      rw [UInt8.toNat_inj.mp h]
    | _ => cases hinitial

end Error

namespace Fault

/-- What the message of a fault has in brackets, with the bracket that closes them. -/
def place (fault : Fault) : String :=
  match fault.word with
  | some word => "op " ++ hex 4 word.toNat ++ " at pc " ++ hex 4 fault.pc.toNat ++ ")"
  | none => "at pc " ++ hex 4 fault.pc.toNat ++ ")"

/-- A message is that of the error, and the place in brackets. -/
theorem toList_message (fault : Fault) :
    fault.message.toList = (fault.error.message.toList ++ [' ']) ++ '(' :: fault.place.toList := by
  obtain ⟨pc, _ | word, error⟩ := fault <;> simp [message, place]

/-- Different places are written differently, and a place with a word is never written like one
without. -/
theorem place_inj {f g : Fault} (h : f.place = g.place) : f.pc = g.pc ∧ f.word = g.word := by
  obtain ⟨pc, word, error⟩ := f
  obtain ⟨pc', word', error'⟩ := g
  unfold place at h
  cases word with
  | none =>
    cases word' with
    | none =>
      rw [String.append_left_inj, String.append_right_inj, hex_inj] at h
      exact ⟨UInt16.toNat_inj.mp h, rfl⟩
    | some word' => simp [← String.toList_inj] at h
  | some word =>
    cases word' with
    | none => simp [← String.toList_inj] at h
    | some word' =>
      have hblank (rest : String) :
          ∀ c ∈ (" at pc " ++ rest).toList.head?, hexValue? c = none := by
        have : hexValue? ' ' = none := by decide
        simpa using this
      simp only [String.append_assoc, String.append_right_inj] at h
      obtain ⟨hword, hbehind⟩ := hex_append_inj (hblank _) (hblank _) h
      rw [String.append_right_inj, String.append_left_inj, hex_inj] at hbehind
      exact ⟨UInt16.toNat_inj.mp hbehind, congrArg some (UInt16.toNat_inj.mp hword)⟩

end Fault

/-- A message identifies what it reports. Two errors have the same message only if they are the same
error with the same word, key, address or sizes, however large these are, and two faults only if
they are the same error at the same address with the same word, or both without one. -/
theorem messages_identify :
    (∀ e f : Error, e.message = f.message ↔ e = f) ∧
    ∀ f g : Fault, f.message = g.message ↔ f = g := by
  refine ⟨fun e f => Error.message_inj, fun f g => ⟨fun h => ?_, congrArg Fault.message⟩⟩
  have hlist := congrArg String.toList h
  rw [Fault.toList_message, Fault.toList_message] at hlist
  have hfront (fault : Fault) :
      ∀ c ∈ fault.error.message.toList ++ [' '], (c != '(') = true := by
    intro c hc
    rw [bne_iff_ne]
    rintro rfl
    obtain hc | hc := List.mem_append.mp hc
    · exact fault.error.bracket_not_mem_message hc
    · cases List.mem_singleton.mp hc
  -- Both messages have their first bracket where the message of the error ends.
  obtain ⟨hmessage, hplace⟩ :=
    append_inj_of_ends (hfront f) (hfront g) (by simp) (by simp) hlist
  have herror : f.error = g.error :=
    Error.message_inj.mp (String.toList_inj.mp (List.append_cancel_right hmessage))
  obtain ⟨hpc, hword⟩ := Fault.place_inj (String.toList_inj.mp (List.cons.inj hplace).2)
  obtain ⟨pc, word, error⟩ := f
  obtain ⟨pc', word', error'⟩ := g
  exact (Fault.mk.injEq ..).mpr ⟨hpc, hword, herror⟩

/-- An address may need more digits than its field has places. -/
example : ({ pc := 0x0FFF, word := none, error := .outsideMemory 0x12345 } : Fault).message =
    "memory access out of range at 0x12345 (at pc 0FFF)" := by
  decide

end Chip8
