import Chip8.Log
import Chip8.Proofs.Instruction.Assembly

/-!
# What a line of the log reports

A line of the log can be read in one way only. Four letters, one for each kind of reports, stand in
no line before that of its own kind (`find?_line`). Within a kind the numerals end where something
other than a digit stands, and so does the text of an instruction, in front of the `v` of the
registers. `line_inj` puts this together.
-/

namespace Chip8

open Text (hex hex_inj hex_append_inj decimal_append_inj intercalate_append_inj append_inj_of_ends)
open Json.Quoted (hexValue?)

/-- Different registers have different names. -/
theorem Register.text_inj {x y : Register} : x.text = y.text ↔ x = y := by
  rw [text, text, String.append_right_inj, hex_inj, Fin.val_inj]

namespace Log

/-- The text of the registers has two digits for each. -/
theorem registersText_eq (registers : Vector UInt8 16) : registersText registers =
    "[" ++ ", ".intercalate (List.ofFn fun k : Fin 16 => hex 2 (registers.get k).toNat) ++ "]" := by
  have hlist : (registers.toList.map fun b => hex 2 b.toNat) =
      List.ofFn fun k : Fin 16 => hex 2 (registers.get k).toNat := by
    refine List.ext_getElem (by simp) fun k _ _ => ?_
    rw [List.getElem_map, Vector.getElem_toList, List.getElem_ofFn]
    rfl
  rw [registersText, hlist]

/-- A text tells the registers that it begins with, and what stands behind them. -/
theorem registersText_append_inj {registers registers' : Vector UInt8 16} {rest rest' : String}
    (h : registersText registers ++ rest = registersText registers' ++ rest') :
    registers = registers' ∧ rest = rest' := by
  have hbracket : hexValue? ']' = none := by decide
  have hmap (v : Vector UInt8 16) : (v.toList.map fun b => hex 2 b.toNat) =
      (v.toList.map UInt8.toNat).map (hex 2) := by
    rw [List.map_map]
    rfl
  simp only [registersText, String.append_assoc, String.append_right_inj, hmap] at h
  obtain ⟨hnumbers, hbehind⟩ :=
    intercalate_append_inj (by simp [hbracket]) (by simp [hbracket]) (by simp) h
  have hlist : registers.toList = registers'.toList :=
    List.map_injective_iff.mpr (fun _ _ => UInt8.toNat_inj.mp) hnumbers
  exact ⟨Vector.toList_inj.mp hlist, (String.append_right_inj _).mp hbehind⟩

/-- A text tells the instruction that it begins with, if the registers stand behind it. -/
theorem instructionText_append_inj {i j : Instruction} {rest rest' : String}
    (h : i.text ++ (" v" ++ rest) = j.text ++ (" v" ++ rest')) : i = j ∧ rest = rest' := by
  have hlist := congrArg String.toList h
  -- The blank is taken to the text of the instruction, which ends at the letter then.
  have hsplit (i : Instruction) (rest : String) : (i.text ++ (" v" ++ rest)).toList =
      (i.text.toList ++ [' ']) ++ 'v' :: rest.toList := by
    simp
  have hfront (i : Instruction) : ∀ c ∈ i.text.toList ++ [' '], (c != 'v') = true := by
    intro c hc
    rw [List.mem_append, List.mem_singleton] at hc
    rw [bne_iff_ne]
    rintro rfl
    exact hc.elim (i.not_mem_text (.inr rfl)) (by decide)
  rw [hsplit, hsplit] at hlist
  obtain ⟨htext, hbehind⟩ :=
    append_inj_of_ends (hfront i) (hfront j) (by simp) (by simp) hlist
  exact ⟨Instruction.text_inj.mp (String.toList_inj.mp (List.append_cancel_right htext)),
    String.toList_inj.mp (List.cons.inj hbehind).2⟩

/-- The line for an instruction tells all that is reported of it. -/
theorem Trace.text_inj {t u : Trace} : t.text = u.text ↔ t = u := by
  refine ⟨fun h => ?_, congrArg text⟩
  have hblank : hexValue? ' ' = none := by decide
  simp only [text, String.append_assoc] at h
  obtain ⟨hword, hmore⟩ := hex_append_inj (by simp [hblank]) (by simp [hblank]) h
  rw [String.append_right_inj] at hmore
  obtain ⟨hinstruction, hmore⟩ := instructionText_append_inj hmore
  obtain ⟨hregisters, hmore⟩ := registersText_append_inj hmore
  rw [String.append_right_inj] at hmore
  obtain ⟨hindex, hpc⟩ := hex_append_inj (by simp [hblank]) (by simp [hblank]) hmore
  rw [String.append_right_inj, hex_inj] at hpc
  obtain ⟨word, instruction, registers, index, pc⟩ := t
  obtain ⟨word', instruction', registers', index', pc'⟩ := u
  rw [Trace.mk.injEq]
  exact ⟨UInt16.toNat_inj.mp hword, hinstruction, hregisters, UInt16.toNat_inj.mp hindex,
    UInt16.toNat_inj.mp hpc⟩

namespace Entry

/-- The letter that tells the kind of a report. -/
def initial : Entry → Char
  | .loaded _ _ => 'l'
  | .executing _ => 'T'
  | .awaitingKey _ => 'a'
  | .keyStored _ _ => 'k'

/-- Of the four letters, that of its kind is the first in the line for a report. -/
theorem find?_line (e : Entry) :
    e.line.toList.find? (fun c => c = 'l' || c = 'T' || c = 'a' || c = 'k') = some e.initial := by
  unfold line level text
  cases e <;>
    simp only [String.append_assoc, String.toList_append, List.find?_append] <;>
    rfl

/-- Reports of a kind have the same level. -/
theorem level_eq {e f : Entry} (h : e.initial = f.initial) : e.level = f.level := by
  cases e <;> cases f <;> first | rfl | cases h

/-- Different reports have different lines. -/
theorem line_inj {e f : Entry} : e.line = f.line ↔ e = f := by
  refine ⟨fun h => ?_, congrArg line⟩
  have hinitial : e.initial = f.initial := by
    apply Option.some.inj
    rw [← find?_line, ← find?_line, h]
  have hblank : hexValue? ' ' = none := by decide
  rw [line, line, level_eq hinitial, String.append_right_inj] at h
  -- The kind is the same, so that only what is reported is left to compare.
  unfold text at h
  cases e with
  | loaded size start =>
    cases f with
    | loaded size' start' =>
      simp only [String.append_assoc, String.append_right_inj] at h
      obtain ⟨rfl, hstart⟩ := decimal_append_inj (by simp) (by simp) h
      rw [String.append_right_inj, hex_inj, UInt16.toNat_inj] at hstart
      rw [hstart]
    | _ => cases hinitial
  | executing t =>
    cases f with
    | executing u => rw [Trace.text_inj.mp h]
    | _ => cases hinitial
  | awaitingKey x =>
    cases f with
    | awaitingKey y =>
      rw [String.append_right_inj, Register.text_inj] at h
      rw [h]
    | _ => cases hinitial
  | keyStored key x =>
    cases f with
    | keyStored key' y =>
      simp only [String.append_assoc, String.append_right_inj] at h
      obtain ⟨hkey, hregister⟩ := hex_append_inj (by simp [hblank]) (by simp [hblank]) h
      rw [String.append_right_inj, Register.text_inj] at hregister
      rw [Fin.val_inj.mp hkey, hregister]
    | _ => cases hinitial

end Entry

end Log

end Chip8
