import Chip8.Proofs.Settings.Pieces
import Mathlib.Data.List.Nodup

/-!
# Command lines round-trip

A command line writes some arguments if each option that they have, each flag that is set and the
program stand in it once, in any order, with the values that the arguments hold (`Line.Writes`). An
option can be written in one word or in two, a number with zeros in front, and the program behind
two dashes. `command_lines_round_trip` says that every such command line is read back as exactly
these arguments, and that it is refused once an option or a flag stands in it a second time.

Since to read a command line is to give its pieces (`Arguments.parse_words`), the order in which
words are settled plays no part here. What has been given of the arguments after some pieces is the
part of them that these pieces name (`Arguments.only`).
-/

namespace Chip8.Settings

/-- A text writes a number in decimal, perhaps with zeros in front. -/
def IsNumeral (n : Nat) (text : String) : Prop :=
  ∃ zeros, text.toList = List.replicate zeros '0' ++ Nat.toDigits 10 n

/-- A text can be the value of an option: a path is not empty, and a number is in range. -/
def ValueOption.Accepts (text : String) : ValueOption → Prop
  | config => text ≠ ""
  | clockHz => ∃ n : UInt32, IsNumeral n.toNat text
  | timerHz => ∃ n : UInt32, IsNumeral n.toNat text
  | scale => ∃ n : UInt32, IsNumeral n.toNat text
  | seed => ∃ n : UInt64, IsNumeral n.toNat text

namespace Arguments

/-- Whether arguments have something that can be given. -/
def has (a : Arguments) : Slot → Bool
  | .option option => a.hasOption option
  | .flag f => a.hasFlag f
  | .rom => a.rom.isSome

/-- A text writes the value that arguments have for an option. -/
def Spells (a : Arguments) (text : String) : ValueOption → Prop
  | .config => a.config = some text
  | .clockHz => ∃ n, a.clockHz = some n ∧ IsNumeral n.toNat text
  | .timerHz => ∃ n, a.timerHz = some n ∧ IsNumeral n.toNat text
  | .scale => ∃ n, a.scale = some n ∧ IsNumeral n.toNat text
  | .seed => ∃ n, a.seed = some n ∧ IsNumeral n.toNat text

/-- No path in arguments is empty. -/
structure PathsNonempty (a : Arguments) : Prop where
  /-- The path of the config file is not empty. -/
  config : a.config ≠ some ""
  /-- The path of the program is not empty. -/
  rom : a.rom ≠ some ""

/-- The part of arguments that is in some slots. -/
def only (a : Arguments) (slots : List Slot) : Arguments where
  rom := if .rom ∈ slots then a.rom else none
  config := if .option .config ∈ slots then a.config else none
  clockHz := if .option .clockHz ∈ slots then a.clockHz else none
  timerHz := if .option .timerHz ∈ slots then a.timerHz else none
  scale := if .option .scale ∈ slots then a.scale else none
  console := decide (.flag .console ∈ slots) && a.console
  mute := decide (.flag .mute ∈ slots) && a.mute
  showBindings := decide (.flag .showBindings ∈ slots) && a.showBindings
  seed := if .option .seed ∈ slots then a.seed else none

end Arguments

/-- A piece says what arguments hold. -/
def Piece.Agrees (a : Arguments) : Piece → Prop
  | joined option value => a.Spells value option
  | spaced option value => a.Spells value option
  | flag f => a.hasFlag f = true
  | rom path => a.rom = some path

/-- A piece can be given: its value is accepted. -/
def Piece.Suits : Piece → Prop
  | joined option value => option.Accepts value
  | spaced option value => option.Accepts value
  | flag _ => True
  | rom path => path ≠ ""

/-- A command line writes arguments. -/
structure Line.Writes (line : Line) (a : Arguments) : Prop where
  /-- A value in a word of its own does not begin with a dash, nor does the program unless it stands
  behind two dashes. -/
  clear : ∀ p ∈ line.pieces, ¬p.Ambiguous
  /-- Each piece says what the arguments hold. -/
  agrees : ∀ p ∈ line.all, p.Agrees a
  /-- Nothing is written twice. -/
  once : (line.all.map Piece.slot).Nodup
  /-- Nothing is left out. -/
  complete : ∀ slot, a.has slot = true → slot ∈ line.all.map Piece.slot

/-- A command line is another one with an option or a flag of it written a second time, in front of
the two dashes, where the second value may be another one. -/
inductive Line.Repeats (line : Line) : Line → Prop where
  /-- The second writing stands anywhere between two pieces. -/
  | intro {before after : List Piece} {again : Piece} (pieces : line.pieces = before ++ after)
      (written : again.slot ∈ line.pieces.map Piece.slot) (notRom : again.slot ≠ .rom)
      (clear : ¬again.Ambiguous) (suits : again.Suits) :
    Repeats line { line with pieces := before ++ again :: after }

/-! ## Values -/

namespace IsNumeral

variable {n : Nat} {text : String}

/-- A numeral has a first digit. -/
theorem exists_cons (h : IsNumeral n text) :
    ∃ c rest, text.toList = c :: rest ∧ ∀ d ∈ c :: rest, d.isDigit = true := by
  obtain ⟨zeros, htext⟩ := h
  have hdigits : ∀ d ∈ text.toList, d.isDigit = true := by
    intro d hd
    rw [htext, List.mem_append, List.mem_replicate] at hd
    obtain ⟨-, rfl⟩ | hd := hd
    · rfl
    · exact Nat.isDigit_of_mem_toDigits (by decide) (by decide) hd
  cases hlist : text.toList with
  | nil =>
    rw [hlist] at htext
    exact absurd (List.append_eq_nil_iff.mp htext.symm).2 Nat.toDigits_ne_nil
  | cons c rest => exact ⟨c, rest, rfl, hlist ▸ hdigits⟩

/-- A numeral is read as the number that it writes. -/
theorem digitsValue?_eq (h : IsNumeral n text) :
    Arguments.digitsValue? text.toList = some n := by
  obtain ⟨c, rest, hlist, hdigits⟩ := h.exists_cons
  obtain ⟨zeros, htext⟩ := h
  have hvalue : Nat.ofDigitChars 10 text.toList 0 = n := by
    rw [htext, Nat.ofDigitChars_append, Nat.ofDigitChars_replicate_zero, Nat.mul_zero,
      Nat.ofDigitChars_ten_toDigits]
  rw [hlist] at hvalue ⊢
  rw [Arguments.digitsValue?, List.all_eq_true.mpr hdigits, hvalue]
  rfl

/-- A numeral does not begin with a sign. -/
theorem signedValue?_eq (h : IsNumeral n text) : Arguments.signedValue? text = some (n : Int) := by
  obtain ⟨c, rest, hlist, hdigits⟩ := h.exists_cons
  have hc := hdigits c List.mem_cons_self
  unfold Arguments.signedValue?
  split
  case h_1 heq => cases hlist.symm.trans heq; cases hc
  case h_2 heq => cases hlist.symm.trans heq; cases hc
  case h_3 => rw [h.digitsValue?_eq]; rfl

end IsNumeral

namespace Arguments

/-- A numeral in range is read as the 32-bit number that it writes. -/
theorem word32_of_isNumeral {n : UInt32} {text : String} (h : IsNumeral n.toNat text) :
    word32 text = .ok n := by
  have hn : 0 ≤ (n.toNat : Int) ∧ (n.toNat : Int) < UInt32.size := by
    have := n.toNat_lt_size
    omega
  rw [word32, h.signedValue?_eq]
  dsimp only
  rw [if_pos hn, Int.toNat_natCast, UInt32.ofNat_toNat]

/-- A numeral in range is read as the 64-bit number that it writes. -/
theorem word64_of_isNumeral {n : UInt64} {text : String} (h : IsNumeral n.toNat text) :
    word64 text = .ok n := by
  obtain ⟨c, rest, hlist, hdigits⟩ := h.exists_cons
  have hc := hdigits c List.mem_cons_self
  have hplus : ∀ digits, text.toList ≠ '+' :: digits := by
    rintro digits heq
    cases hlist.symm.trans heq
    cases hc
  unfold word64
  simp only [h.digitsValue?_eq, n.toNat_lt_size, if_true, UInt64.ofNat_toNat]

/-- A text that is not empty is a path. -/
theorem path_of_ne {text : String} (h : text ≠ "") : path text = .ok text :=
  if_neg h

/-- The value that arguments without empty paths have for an option is accepted. -/
theorem Spells.accepts {a : Arguments} {text : String} {option : ValueOption}
    (h : a.Spells text option) (paths : a.PathsNonempty) : option.Accepts text := by
  cases option with
  | config =>
    rintro rfl
    exact paths.config h
  | clockHz => exact h.imp fun _ hn => hn.2
  | timerHz => exact h.imp fun _ hn => hn.2
  | scale => exact h.imp fun _ hn => hn.2
  | seed => exact h.imp fun _ hn => hn.2

/-- A value that is accepted is put in the place of its option. -/
theorem putOption_of_accepts {text : String} {option : ValueOption} (a : Arguments)
    (h : option.Accepts text) :
    ∃ b, a.putOption text option = .ok b ∧
      ∀ slot, b.has slot = (a.has slot || decide (slot = .option option)) := by
  cases option with
  | config =>
    refine ⟨{ a with config := some text }, ?_, ?_⟩
    · rw [putOption, path_of_ne h]; rfl
    · rintro ((_ | _ | _ | _ | _) | (_ | _ | _) | _) <;> simp [has, hasOption, hasFlag]
  | clockHz =>
    obtain ⟨n, hn⟩ := h
    refine ⟨{ a with clockHz := some n }, ?_, ?_⟩
    · rw [putOption, word32_of_isNumeral hn]; rfl
    · rintro ((_ | _ | _ | _ | _) | (_ | _ | _) | _) <;> simp [has, hasOption, hasFlag]
  | timerHz =>
    obtain ⟨n, hn⟩ := h
    refine ⟨{ a with timerHz := some n }, ?_, ?_⟩
    · rw [putOption, word32_of_isNumeral hn]; rfl
    · rintro ((_ | _ | _ | _ | _) | (_ | _ | _) | _) <;> simp [has, hasOption, hasFlag]
  | scale =>
    obtain ⟨n, hn⟩ := h
    refine ⟨{ a with scale := some n }, ?_, ?_⟩
    · rw [putOption, word32_of_isNumeral hn]; rfl
    · rintro ((_ | _ | _ | _ | _) | (_ | _ | _) | _) <;> simp [has, hasOption, hasFlag]
  | seed =>
    obtain ⟨n, hn⟩ := h
    refine ⟨{ a with seed := some n }, ?_, ?_⟩
    · rw [putOption, word64_of_isNumeral hn]; rfl
    · rintro ((_ | _ | _ | _ | _) | (_ | _ | _) | _) <;> simp [has, hasOption, hasFlag]

/-- A flag is set in its place. -/
theorem has_putFlag (a : Arguments) (f : Flag) (slot : Slot) :
    (a.putFlag f).has slot = (a.has slot || decide (slot = .flag f)) := by
  cases f <;> rcases slot with (_ | _ | _ | _ | _) | (_ | _ | _) | _ <;>
    simp [has, putFlag, hasOption, hasFlag]

/-- An option that has the value that some arguments have for it is given to a part of them that
lacks it, and is then in that part. -/
theorem putOption_only {a : Arguments} {text : String} {option : ValueOption} {slots : List Slot}
    (h : a.Spells text option) (paths : a.PathsNonempty) :
    (a.only slots).putOption text option = .ok (a.only (slots ++ [.option option])) := by
  cases option with
  | config =>
    have hconfig : a.config = some text := h
    rw [putOption, path_of_ne (h.accepts paths)]
    simp [Except.map, only, hconfig]
  | clockHz =>
    obtain ⟨n, hvalue, hn⟩ := h
    rw [putOption, word32_of_isNumeral hn]
    simp [Except.map, only, hvalue]
  | timerHz =>
    obtain ⟨n, hvalue, hn⟩ := h
    rw [putOption, word32_of_isNumeral hn]
    simp [Except.map, only, hvalue]
  | scale =>
    obtain ⟨n, hvalue, hn⟩ := h
    rw [putOption, word32_of_isNumeral hn]
    simp [Except.map, only, hvalue]
  | seed =>
    obtain ⟨n, hvalue, hn⟩ := h
    rw [putOption, word64_of_isNumeral hn]
    simp [Except.map, only, hvalue]

/-! ## Pieces -/

section Give

variable {a : Arguments} {p : Piece}

/-- What agrees with arguments without empty paths can be given. -/
theorem suits_of_agrees (h : p.Agrees a) (paths : a.PathsNonempty) : p.Suits := by
  cases p with
  | joined option value => exact Spells.accepts h paths
  | spaced option value => exact Spells.accepts h paths
  | flag f => trivial
  | rom path =>
    rintro rfl
    exact paths.rom h

/-- An option or a flag that was given before is refused. -/
theorem give_of_has (h : a.has p.slot = true) (hp : p.slot ≠ .rom) :
    a.give p = .error .repeated := by
  cases p with
  | joined option value => exact if_pos h
  | spaced option value => exact if_pos h
  | flag f => exact if_pos h
  | rom path => exact absurd rfl hp

/-- A piece that suits can be given if its slot is free. -/
theorem give_of_suits (free : a.has p.slot = false) (h : p.Suits) :
    ∃ b, a.give p = .ok b ∧ ∀ slot, b.has slot = (a.has slot || decide (slot = p.slot)) := by
  have hfree : ¬a.has p.slot = true := Bool.eq_false_iff.mp free
  cases p with
  | joined option value =>
    obtain ⟨b, hb, hhas⟩ := a.putOption_of_accepts h
    exact ⟨b, (if_neg hfree).trans hb, hhas⟩
  | spaced option value =>
    obtain ⟨b, hb, hhas⟩ := a.putOption_of_accepts h
    exact ⟨b, (if_neg hfree).trans hb, hhas⟩
  | flag f => exact ⟨a.putFlag f, if_neg hfree, a.has_putFlag f⟩
  | rom path =>
    refine ⟨{ a with rom := some path }, ?_, ?_⟩
    · rw [give, giveRom, path_of_ne h]; rfl
    · rintro ((_ | _ | _ | _ | _) | (_ | _ | _) | _) <;>
        simp [has, hasOption, hasFlag, Piece.slot]

/-- A slot is taken in a part of arguments only if the part names it. -/
theorem has_only_eq_false {slots : List Slot} {slot : Slot} (h : slot ∉ slots) :
    (a.only slots).has slot = false := by
  rcases slot with (_ | _ | _ | _ | _) | (_ | _ | _) | _ <;>
    simp [has, hasOption, hasFlag, only, h]

/-- To give a part of some arguments a piece that agrees with them adds its slot to the part. -/
theorem give_only {slots : List Slot} (h : p.Agrees a) (paths : a.PathsNonempty)
    (fresh : p.slot ∉ slots) : (a.only slots).give p = .ok (a.only (slots ++ [p.slot])) := by
  have hfree : ¬(a.only slots).has p.slot = true := Bool.eq_false_iff.mp (has_only_eq_false fresh)
  cases p with
  | joined option value => exact (if_neg hfree).trans (putOption_only h paths)
  | spaced option value => exact (if_neg hfree).trans (putOption_only h paths)
  | flag f =>
    have hflag : a.hasFlag f = true := h
    refine (if_neg hfree).trans (congrArg Except.ok ?_)
    cases f <;> simp_all [putFlag, only, Piece.slot, hasFlag]
  | rom path =>
    have hrom : a.rom = some path := h
    rw [give, giveRom, path_of_ne (suits_of_agrees h paths)]
    simp [Except.map, only, Piece.slot, hrom]

/-- A part that leaves out nothing that arguments have is all of them. -/
theorem only_eq_self {slots : List Slot} (h : ∀ slot, a.has slot = true → slot ∈ slots) :
    a.only slots = a := by
  have hoption {α : Type} {x : Option α} {slot : Slot} (hx : x.isSome = true → slot ∈ slots) :
      (if slot ∈ slots then x else none) = x := by
    cases x with
    | none => exact ite_self _
    | some value => exact if_pos (hx rfl)
  have hflag {b : Bool} {slot : Slot} (hb : b = true → slot ∈ slots) :
      (decide (slot ∈ slots) && b) = b := by
    cases b with
    | false => exact Bool.and_false _
    | true => exact (Bool.and_true _).trans (decide_eq_true (hb rfl))
  rw [only, hoption (h .rom), hoption (h (.option .config)), hoption (h (.option .clockHz)),
    hoption (h (.option .timerHz)), hoption (h (.option .scale)), hoption (h (.option .seed)),
    hflag (b := a.console) (h (.flag .console)), hflag (b := a.mute) (h (.flag .mute)),
    hflag (b := a.showBindings) (h (.flag .showBindings))]

end Give

/-! ## Command lines -/

/-- Pieces that agree with arguments and stand in different slots give the part of the arguments
that they name. -/
theorem foldlM_give_only {a : Arguments} {pieces : List Piece} {slots : List Slot}
    (h : ∀ p ∈ pieces, p.Agrees a) (paths : a.PathsNonempty)
    (once : (slots ++ pieces.map Piece.slot).Nodup) :
    pieces.foldlM give (a.only slots) = .ok (a.only (slots ++ pieces.map Piece.slot)) := by
  -- The part grows by one slot a piece, and it never has the slot of a piece that is still to come.
  induction pieces generalizing slots with
  | nil => rw [List.map_nil, List.append_nil]; rfl
  | cons p rest ih =>
    have hfresh : p.slot ∉ slots := by
      intro hmem
      exact (List.nodup_append.mp once).2.2 _ hmem _ List.mem_cons_self rfl
    have hslots : slots ++ (p :: rest).map Piece.slot =
        slots ++ [p.slot] ++ rest.map Piece.slot := by
      rw [List.append_assoc]
      rfl
    rw [hslots] at once ⊢
    rw [List.foldlM_cons, give_only (h p List.mem_cons_self) paths hfresh]
    exact ih (fun q hq => h q (List.mem_cons_of_mem _ hq)) once

/-- Pieces that suit and stand in different slots, all of them free, can be given, and then these
slots are taken too. -/
theorem foldlM_give_of_suits {a : Arguments} {pieces : List Piece} (h : ∀ p ∈ pieces, p.Suits)
    (free : ∀ p ∈ pieces, a.has p.slot = false) (once : (pieces.map Piece.slot).Nodup) :
    ∃ b, pieces.foldlM give a = .ok b ∧
      ∀ slot, b.has slot = (a.has slot || decide (slot ∈ pieces.map Piece.slot)) := by
  induction pieces generalizing a with
  | nil => exact ⟨a, rfl, fun slot => by simp⟩
  | cons p rest ih =>
    obtain ⟨hp, hrest⟩ := List.nodup_cons.mp once
    obtain ⟨b, hb, hhas⟩ := give_of_suits (free p List.mem_cons_self) (h p List.mem_cons_self)
    have hfree : ∀ q ∈ rest, b.has q.slot = false := by
      intro q hq
      have hne : q.slot ≠ p.slot := fun heq => hp (heq ▸ List.mem_map_of_mem hq)
      rw [hhas, free q (List.mem_cons_of_mem _ hq), decide_eq_false hne, Bool.or_false]
    obtain ⟨c, hc, hhas'⟩ := ih (fun q hq => h q (List.mem_cons_of_mem _ hq)) hfree hrest
    refine ⟨c, ?_, fun slot => ?_⟩
    · rw [List.foldlM_cons, hb]
      exact hc
    · rw [hhas', hhas]
      simp [Bool.or_assoc]

/-- Pieces of which one stands in the slot of an earlier one, and those before it in different
slots, are refused for that. -/
theorem foldlM_give_repeated {before after : List Piece} {p : Piece} (h : ∀ q ∈ before, q.Suits)
    (once : (before.map Piece.slot).Nodup) (taken : p.slot ∈ before.map Piece.slot)
    (hp : p.slot ≠ .rom) :
    (before ++ p :: after).foldlM give ({} : Arguments) = .error .repeated := by
  have hfree : ∀ q ∈ before, ({} : Arguments).has q.slot = false := by
    intro q _
    show (({} : Arguments).only []).has q.slot = false
    exact has_only_eq_false List.not_mem_nil
  obtain ⟨b, hb, hhas⟩ := foldlM_give_of_suits h hfree once
  have hrepeated : b.give p = .error .repeated := by
    refine give_of_has ?_ hp
    rw [hhas, decide_eq_true taken, Bool.or_true]
  rw [List.foldlM_append, hb]
  show (p :: after).foldlM give b = .error .repeated
  rw [List.foldlM_cons, hrepeated]
  rfl

/-- Pieces that could all be given are refused once a piece is put between them that stands in the
slot of one of them. -/
theorem foldlM_give_insert {before after : List Piece} {again : Piece}
    (h : ∀ p ∈ before ++ after, p.Suits) (suits : again.Suits)
    (once : ((before ++ after).map Piece.slot).Nodup)
    (given : again.slot ∈ (before ++ after).map Piece.slot) (notRom : again.slot ≠ .rom) :
    (before ++ again :: after).foldlM give ({} : Arguments) = .error .repeated := by
  rw [List.map_append] at once given
  obtain hbefore | hafter := List.mem_append.mp given
  · -- The slot is taken where the piece is put.
    exact foldlM_give_repeated (fun p hp => h p (List.mem_append_left _ hp))
      (List.nodup_append.mp once).1 hbefore notRom
  · -- The piece takes the slot of one behind it.
    obtain ⟨p, hp, hslot⟩ := List.mem_map.mp hafter
    obtain ⟨between, behind, rfl⟩ := List.append_of_mem hp
    have hmiddle : ((before ++ between).map Piece.slot ++
        p.slot :: behind.map Piece.slot).Nodup := by
      simpa using once
    have hfront : ((before ++ again :: between).map Piece.slot).Nodup := by
      rw [List.map_append, List.map_cons, List.nodup_middle, ← hslot, ← List.map_append]
      exact (List.nodup_middle.mp hmiddle).sublist ((List.sublist_append_left ..).cons_cons _)
    have hsuits : ∀ q ∈ before ++ again :: between, q.Suits := by
      intro q hq
      obtain rfl | hq := List.mem_cons.mp (List.perm_middle.mem_iff.mp hq)
      · exact suits
      · refine h q ?_
        rw [← List.append_assoc]
        exact List.mem_append_left _ hq
    have htaken : p.slot ∈ (before ++ again :: between).map Piece.slot := by
      rw [hslot]
      exact List.mem_map_of_mem (List.mem_append_right _ List.mem_cons_self)
    have hsplit : before ++ again :: (between ++ p :: behind) =
        (before ++ again :: between) ++ p :: behind := by
      rw [List.append_assoc]
      rfl
    rw [hsplit]
    exact foldlM_give_repeated hsuits hfront htaken (hslot ▸ notRom)

end Arguments

section RoundTrip

variable {a : Arguments} {line : Line}

/-- The program is written once at most. -/
theorem Line.Writes.room (h : line.Writes a) : (line.all.map Piece.slot).count .rom ≤ 1 := by
  rw [h.once.count]
  split <;> omega

/-- A command line that writes arguments is read as these. -/
theorem Line.Writes.parse_eq (h : line.Writes a) (paths : a.PathsNonempty) :
    Arguments.parse line.words = .ok a := by
  calc Arguments.parse line.words
      = line.all.foldlM Arguments.give (a.only []) := Arguments.parse_words h.clear h.room
    _ = .ok (a.only (line.all.map Piece.slot)) := Arguments.foldlM_give_only h.agrees paths h.once
    _ = .ok a := congrArg Except.ok (Arguments.only_eq_self h.complete)

/-- An option or a flag that is written a second time is refused. -/
theorem Line.Repeats.parse_eq {longer : Line} (h : line.Repeats longer) (written : line.Writes a)
    (paths : a.PathsNonempty) : Arguments.parse longer.words = .error .repeated := by
  cases h with
  | @intro before after again pieces given notRom clear suits =>
    obtain ⟨front, last⟩ := line
    obtain rfl : front = before ++ after := pieces
    have hclear : ∀ p ∈ before ++ again :: after, ¬p.Ambiguous := by
      intro p hp
      obtain rfl | hp := List.mem_cons.mp (List.perm_middle.mem_iff.mp hp)
      · exact clear
      · exact written.clear p hp
    have hroom :
        ((Line.mk (before ++ again :: after) last).all.map Piece.slot).count .rom ≤ 1 := by
      simpa [Line.all, List.count_cons_of_ne notRom] using written.room
    have hall : (Line.mk (before ++ after) last).all =
        before ++ (after ++ (last.map Piece.rom).toList) := List.append_assoc ..
    have hlonger : (Line.mk (before ++ again :: after) last).all =
        before ++ again :: (after ++ (last.map Piece.rom).toList) := List.append_assoc ..
    rw [Arguments.parse_words hclear hroom, hlonger]
    refine Arguments.foldlM_give_insert ?_ suits ?_ ?_ notRom
    · rw [← hall]
      exact fun p hp => Arguments.suits_of_agrees (written.agrees p hp) paths
    · rw [← hall]
      exact written.once
    · rw [← hall, Line.all, List.map_append]
      exact List.mem_append_left _ given

end RoundTrip

/-- Every command line that writes some arguments is read as exactly these, in whichever order and
spelling it writes them. A command line with an option or a flag of it written a second time is
refused for that. -/
theorem command_lines_round_trip (a : Arguments) (paths : a.PathsNonempty) (line : Line)
    (written : line.Writes a) :
    Arguments.parse line.words = .ok a ∧
      ∀ longer, line.Repeats longer → Arguments.parse longer.words = .error .repeated :=
  ⟨written.parse_eq paths, fun _ h => h.parse_eq written paths⟩

/-- A command line with an equals sign in a path, the largest seed behind a zero, and a program that
begins with a dash. A second path for the config file in front of the flag is one too many. -/
theorem seed_and_dashed_program :
    let a : Arguments :=
      { rom := some "-x.ch8", config := some "a=b", mute := true,
        seed := some 18446744073709551615 }
    let line : Line :=
      { pieces := [.spaced .config "a=b", .flag .mute, .joined .seed "018446744073709551615"]
        last := some "-x.ch8" }
    let longer : Line :=
      { line with pieces := [.spaced .config "a=b"] ++ .joined .config "--" ::
          [.flag .mute, .joined .seed "018446744073709551615"] }
    (a.PathsNonempty ∧ line.Writes a ∧ Arguments.parse line.words = .ok a) ∧
      line.Repeats longer ∧ Arguments.parse longer.words = .error .repeated := by
  intro a line longer
  have hpaths : a.PathsNonempty := ⟨by decide, by decide⟩
  have hwrites : line.Writes a := by
    refine ⟨?_, ?_, by decide, ?_⟩
    · simp only [line, List.forall_mem_cons]
      exact ⟨show ¬beginsWithDash "a=b" = true by decide, id, id, nofun⟩
    · simp only [line, Line.all, Option.map_some, Option.toList_some, List.cons_append,
        List.nil_append, List.forall_mem_cons]
      exact ⟨rfl, rfl, ⟨_, rfl, 1, by decide⟩, rfl, nofun⟩
    · rintro ((_ | _ | _ | _ | _) | (_ | _ | _) | _) <;> decide
  have hrepeats : line.Repeats longer :=
    .intro rfl (by decide) nofun id (show "--" ≠ "" by decide)
  obtain ⟨hparse, hlonger⟩ := command_lines_round_trip a hpaths line hwrites
  exact ⟨⟨hpaths, hwrites, hparse⟩, hrepeats, hlonger longer hrepeats⟩

end Chip8.Settings
