import Chip8.Json.Quoted

/-!
# The text of a string

What stands between two quotes spells UTF-16 units (`Quoted.Spells`): a character spells its own
one or two units, an escape with a letter one character, and an escape with four digits one unit,
which may be half of a surrogate pair. `text?_of_spells` says that a string is read as the text with
these units, and as a string without text if no text has them.

The reader joins halves of surrogate pairs piece by piece. That it finds the text whenever there is
one rests on UTF-16 being a code in which no character begins like another one
(`utf16_append_inj`).
-/

namespace Chip8.Json

/-- The UTF-16 units of a character: one, or the two halves of a surrogate pair. -/
def utf16 (c : Char) : List Nat :=
  if c.toNat < 0x10000 then [c.toNat]
  else [0xD800 + (c.toNat - 0x10000) / 0x400, 0xDC00 + (c.toNat - 0x10000) % 0x400]

namespace Quoted

/-- A character is the hexadecimal digit of a number, in either case. -/
def IsHexDigit (n : Nat) (c : Char) : Prop :=
  n < 16 ∧ (c = n.digitChar ∨ c = n.digitChar.toUpper)

instance (n : Nat) (c : Char) : Decidable (IsHexDigit n c) :=
  inferInstanceAs (Decidable (n < 16 ∧ (c = n.digitChar ∨ c = n.digitChar.toUpper)))

/-- The letters of escapes, with the characters that they stand for. -/
def letters : List (Char × Char) :=
  [('"', '"'), ('\\', '\\'), ('/', '/'), ('b', '\x08'), ('f', '\x0c'), ('n', '\n'), ('r', '\r'),
    ('t', '\t')]

/-- The inside of a string spells UTF-16 units. -/
inductive Spells : List Nat → List Char → Prop where
  /-- Nothing spells nothing. -/
  | done : Spells [] []
  /-- A character spells its own units, unless it needs an escape. -/
  | plain {c : Char} {units : List Nat} {inside : List Char} (quote : c ≠ '"')
      (backslash : c ≠ '\\') (control : 0x20 ≤ c.toNat) (rest : Spells units inside) :
    Spells (utf16 c ++ units) (c :: inside)
  /-- An escape with a letter spells the units of a character. -/
  | letter {letter c : Char} {units : List Nat} {inside : List Char} (known : (letter, c) ∈ letters)
      (rest : Spells units inside) :
    Spells (utf16 c ++ units) ('\\' :: letter :: inside)
  /-- An escape with the four hexadecimal digits of a unit spells it. -/
  | unit {unit : Nat} {a b c d : Char} {units : List Nat} {inside : List Char}
      (first : IsHexDigit (unit / 0x1000) a) (second : IsHexDigit (unit / 0x100 % 0x10) b)
      (third : IsHexDigit (unit / 0x10 % 0x10) c) (fourth : IsHexDigit (unit % 0x10) d)
      (rest : Spells units inside) :
    Spells (unit :: units) ('\\' :: 'u' :: a :: b :: c :: d :: inside)

/-- A string with some units has a text if these are the units of the text, and it has no text if
they are not the units of any. -/
def IsText (units : List Nat) (text : Option String) : Prop :=
  ∀ t, text = some t ↔ units = t.toList.flatMap utf16

/-! ## UTF-16 -/

/-- The character with a valid number has this number. -/
theorem toNat_ofNat {n : Nat} (h : n.isValidChar) : (Char.ofNat n).toNat = n := by
  rw [Char.ofNat, dif_pos h]
  rfl

/-- A character has one unit, which is no half of a pair, or it is the character of a surrogate
pair. -/
theorem utf16_cases (c : Char) :
    (utf16 c = [c.toNat] ∧ isHighSurrogate c.toNat = false ∧ isLowSurrogate c.toNat = false) ∨
      ∃ high low, utf16 c = [high, low] ∧ isHighSurrogate high = true ∧
        isLowSurrogate low = true ∧ pairedChar high low = c := by
  have hvalid : c.toNat < 0xD800 ∨ 0xDFFF < c.toNat ∧ c.toNat < 0x110000 := c.valid
  unfold utf16 isHighSurrogate isLowSurrogate
  split
  case isTrue hsmall =>
    refine .inl ⟨rfl, ?_, ?_⟩ <;> simp <;> omega
  case isFalse hlarge =>
    refine .inr ⟨_, _, rfl, ?_, ?_, ?_⟩
    · simp
      omega
    · simp
      omega
    · have hnumber : 0x10000 + (0xD800 + (c.toNat - 0x10000) / 0x400 - 0xD800) * 0x400 +
          (0xDC00 + (c.toNat - 0x10000) % 0x400 - 0xDC00) = c.toNat := by
        omega
      rw [pairedChar, hnumber, Char.ofNat_toNat]

/-- The units of the character of a surrogate pair are its halves. -/
theorem utf16_pairedChar {high low : Nat} (hhigh : isHighSurrogate high = true)
    (hlow : isLowSurrogate low = true) : utf16 (pairedChar high low) = [high, low] := by
  simp only [isHighSurrogate, isLowSurrogate, Bool.and_eq_true, decide_eq_true_eq] at hhigh hlow
  have hvalid : (0x10000 + (high - 0xD800) * 0x400 + (low - 0xDC00)).isValidChar :=
    .inr (by omega)
  have hhalves (n : Nat) (hn : n = 0x10000 + (high - 0xD800) * 0x400 + (low - 0xDC00)) :
      0xD800 + (n - 0x10000) / 0x400 = high ∧ 0xDC00 + (n - 0x10000) % 0x400 = low := by
    omega
  rw [utf16, pairedChar, toNat_ofNat hvalid, if_neg (by omega), (hhalves _ rfl).1,
    (hhalves _ rfl).2]

/-- Every character has a unit. -/
theorem utf16_ne_nil (c : Char) : utf16 c ≠ [] := by
  obtain ⟨hc, -⟩ | ⟨high, low, hc, -⟩ := utf16_cases c <;> rw [hc] <;> exact List.cons_ne_nil _ _

/-- No character begins like another one. -/
theorem utf16_append_inj {c d : Char} {xs ys : List Nat} (h : utf16 c ++ xs = utf16 d ++ ys) :
    c = d ∧ xs = ys := by
  -- The first unit tells whether a character has one unit or two.
  obtain ⟨hc, hcHigh, -⟩ | ⟨high, low, hc, hhigh, -, hpair⟩ := utf16_cases c
  · obtain ⟨hd, -⟩ | ⟨high', low', hd, hhigh', -⟩ := utf16_cases d
    · rw [hc, hd] at h
      obtain ⟨hn, hxs⟩ := List.cons.inj h
      exact ⟨Char.ext (UInt32.toNat_inj.mp hn), hxs⟩
    · rw [hc, hd] at h
      rw [(List.cons.inj h).1, hhigh'] at hcHigh
      cases hcHigh
  · obtain ⟨hd, hdHigh, -⟩ | ⟨high', low', hd, -, -, hpair'⟩ := utf16_cases d
    · rw [hc, hd] at h
      rw [← (List.cons.inj h).1, hhigh] at hdHigh
      cases hdHigh
    · rw [hc, hd] at h
      simp only [List.cons_append, List.nil_append, List.cons.injEq] at h
      obtain ⟨rfl, rfl, hxs⟩ := h
      exact ⟨hpair.symm.trans hpair', hxs⟩

/-! ## Pieces -/

/-- The units of a piece. -/
def Piece.units : Piece → List Nat
  | char c => utf16 c
  | surrogate unit => [unit]

/-- A piece that stands for half of a surrogate pair does so. -/
def Piece.Sound : Piece → Prop
  | char _ => True
  | surrogate unit => isHighSurrogate unit = true ∨ isLowSurrogate unit = true

/-- A unit is read as a piece with this unit. -/
theorem units_ofUnit {unit : Nat} (h : unit < 0x10000) :
    (Piece.ofUnit unit).units = [unit] ∧ (Piece.ofUnit unit).Sound := by
  unfold Piece.ofUnit
  split
  case isTrue hhalf => exact ⟨rfl, Bool.or_eq_true_iff.mp hhalf⟩
  case isFalse hwhole =>
    refine ⟨?_, trivial⟩
    have hvalid : unit.isValidChar := by
      simp [isHighSurrogate, isLowSurrogate] at hwhole
      show unit < 0xD800 ∨ 0xDFFF < unit ∧ unit < 0x110000
      omega
    rw [Piece.units, utf16, toNat_ofNat hvalid, if_pos h]

/-- A text begins with a character if its units do. -/
theorem units_append_eq_iff {c : Char} {units : List Nat} {cs : List Char} :
    utf16 c ++ units = cs.flatMap utf16 ↔ ∃ ds, cs = c :: ds ∧ units = ds.flatMap utf16 := by
  constructor
  · intro h
    cases cs with
    | nil => exact absurd (List.append_eq_nil_iff.mp h).1 (utf16_ne_nil c)
    | cons d ds =>
      obtain ⟨rfl, hunits⟩ := utf16_append_inj (h.trans List.flatMap_cons)
      exact ⟨ds, rfl, hunits⟩
  · rintro ⟨ds, rfl, rfl⟩
    rfl

/-- Different texts have different units. -/
theorem flatMap_utf16_inj {cs ds : List Char} (h : cs.flatMap utf16 = ds.flatMap utf16) :
    cs = ds := by
  induction cs generalizing ds with
  | nil =>
    cases ds with
    | nil => rfl
    | cons d ds => exact absurd (List.append_eq_nil_iff.mp h.symm).1 (utf16_ne_nil d)
  | cons c cs ih =>
    obtain ⟨es, rfl, hes⟩ := units_append_eq_iff.mp h
    rw [ih hes]

/-- A text whose units begin with half of a surrogate pair begins with the character of a pair. -/
theorem exists_pair_of_units {unit : Nat} {units : List Nat} {cs : List Char}
    (half : (Piece.surrogate unit).Sound) (h : unit :: units = cs.flatMap utf16) :
    ∃ low rest, units = low :: rest ∧ isHighSurrogate unit = true ∧ isLowSurrogate low = true := by
  cases cs with
  | nil => cases h
  | cons c cs =>
    rw [List.flatMap_cons] at h
    obtain ⟨hc, hhigh, hlow⟩ | ⟨high, low, hc, hhigh, hlow, -⟩ := utf16_cases c
    · rw [hc] at h
      rw [← (List.cons.inj h).1] at hhigh hlow
      exact absurd half (by simp [Piece.Sound, hhigh, hlow])
    · rw [hc] at h
      obtain ⟨rfl, rfl⟩ := List.cons.inj h
      exact ⟨low, _, rfl, hhigh, hlow⟩

/-- No character begins with the second half of a surrogate pair. -/
theorem isLowSurrogate_of_utf16 {c : Char} {unit : Nat} {xs units : List Nat}
    (h : utf16 c ++ xs = unit :: units) : isLowSurrogate unit = false := by
  obtain ⟨hc, -, hlow⟩ | ⟨high, low, hc, hhigh, -⟩ := utf16_cases c
  · rw [hc] at h
    rw [← (List.cons.inj h).1]
    exact hlow
  · rw [hc] at h
    rw [← (List.cons.inj h).1]
    simp [isHighSurrogate, isLowSurrogate] at hhigh ⊢
    omega

/-- Pieces stand for the characters with their units. -/
theorem characters?_eq_some_iff {pieces : List Piece} {cs : List Char}
    (sound : ∀ p ∈ pieces, p.Sound) :
    characters? pieces = some cs ↔ pieces.flatMap Piece.units = cs.flatMap utf16 := by
  fun_induction characters? pieces generalizing cs with
  | case1 =>
    cases cs with
    | nil => exact iff_of_true rfl rfl
    | cons c cs => simp [utf16_ne_nil]
  | case2 c rest ih =>
    have hrest (ds : List Char) : characters? rest = some ds ↔
        rest.flatMap Piece.units = ds.flatMap utf16 :=
      ih fun p hp => sound p (List.mem_cons_of_mem _ hp)
    rw [List.flatMap_cons, Piece.units, units_append_eq_iff, Option.map_eq_some_iff]
    simp only [hrest]
    exact ⟨fun ⟨ds, h, e⟩ => ⟨ds, e.symm, h⟩, fun ⟨ds, e, h⟩ => ⟨ds, h, e.symm⟩⟩
  | case3 high low rest hpair ih =>
    have hrest (ds : List Char) : characters? rest = some ds ↔
        rest.flatMap Piece.units = ds.flatMap utf16 :=
      ih fun p hp => sound p (List.mem_cons_of_mem _ (List.mem_cons_of_mem _ hp))
    obtain ⟨hhigh, hlow⟩ := Bool.and_eq_true .. ▸ hpair
    have hunits : (Piece.surrogate high :: .surrogate low :: rest).flatMap Piece.units =
        utf16 (pairedChar high low) ++ rest.flatMap Piece.units := by
      rw [utf16_pairedChar hhigh hlow]
      rfl
    rw [hunits, units_append_eq_iff, Option.map_eq_some_iff]
    simp only [hrest]
    exact ⟨fun ⟨ds, h, e⟩ => ⟨ds, e.symm, h⟩, fun ⟨ds, e, h⟩ => ⟨ds, h, e.symm⟩⟩
  | case4 high low rest hpair =>
    -- No text has these units: one that begins with the first half goes on with the second.
    refine iff_of_false nofun fun h => hpair ?_
    obtain ⟨low', rest', hlist, hhigh, hlow⟩ :=
      exists_pair_of_units (sound _ List.mem_cons_self) h
    rw [← (List.cons.inj hlist).1] at hlow
    rw [hhigh, hlow]
    rfl
  | case5 high rest lone =>
    -- A character cannot take the place of the missing half, since it begins with none.
    refine iff_of_false nofun fun h => ?_
    obtain ⟨low, units, hlist, -, hlow⟩ := exists_pair_of_units (sound _ List.mem_cons_self) h
    match rest with
    | [] => cases hlist
    | .surrogate low' :: rest' => exact lone low' rest' rfl
    | .char c :: rest' =>
      rw [isLowSurrogate_of_utf16 hlist] at hlow
      cases hlow

/-- Pieces have the text of the characters that they stand for. -/
theorem isText_characters? {pieces : List Piece} (sound : ∀ p ∈ pieces, p.Sound) :
    IsText (pieces.flatMap Piece.units) ((characters? pieces).map String.ofList) := by
  intro t
  rw [← characters?_eq_some_iff sound, Option.map_eq_some_iff]
  constructor
  · rintro ⟨cs, hcs, rfl⟩
    rw [hcs, String.toList_ofList]
  · intro hcs
    exact ⟨t.toList, hcs, String.ofList_toList⟩

/-- A text has its own units. -/
theorem isText_text (t : String) : IsText (t.toList.flatMap utf16) (some t) := by
  intro u
  constructor
  · intro h
    rw [Option.some.inj h]
  · intro h
    rw [String.toList_inj.mp (flatMap_utf16_inj h)]

/-- No units have two texts. -/
theorem IsText.unique {units : List Nat} {s t : Option String} (hs : IsText units s)
    (ht : IsText units t) : s = t :=
  Option.ext fun u => (hs u).trans (ht u).symm

/-! ## Reading what is spelled -/

/-- A hexadecimal digit is read as its number. -/
theorem IsHexDigit.hexValue?_eq {n : Nat} {c : Char} (h : IsHexDigit n c) :
    hexValue? c = some n := by
  have hdigits : ∀ n : Fin 16, hexValue? n.val.digitChar = some n.val ∧
      hexValue? n.val.digitChar.toUpper = some n.val := by
    decide
  obtain ⟨hlower, hupper⟩ := hdigits ⟨n, h.1⟩
  obtain rfl | rfl := h.2
  · exact hlower
  · exact hupper

/-- A hexadecimal digit is no quote and no backslash. -/
theorem IsHexDigit.ne {n : Nat} {c : Char} (h : IsHexDigit n c) : c ≠ '"' ∧ c ≠ '\\' := by
  constructor <;> rintro rfl <;> cases h.hexValue?_eq

section Unit

variable {unit : Nat} {a b c d : Char}

/-- The four digits of a unit are read as the unit. -/
theorem unit?_of_isHexDigit (first : IsHexDigit (unit / 0x1000) a)
    (second : IsHexDigit (unit / 0x100 % 0x10) b) (third : IsHexDigit (unit / 0x10 % 0x10) c)
    (fourth : IsHexDigit (unit % 0x10) d) : unit? a b c d = some unit := by
  have hsum : 16 * (16 * (16 * (16 * 0 + unit / 0x1000) + unit / 0x100 % 0x10) +
      unit / 0x10 % 0x10) + unit % 0x10 = unit := by
    omega
  simp only [unit?, List.foldlM_cons, List.foldlM_nil, first.hexValue?_eq, second.hexValue?_eq,
    third.hexValue?_eq, fourth.hexValue?_eq, Option.map_some, Option.bind_eq_bind, Option.bind_some,
    hsum]
  rfl

end Unit

/-- The letter of an escape is read as its character. -/
theorem escaped?_of_mem {letter c : Char} (h : (letter, c) ∈ letters) :
    escaped? letter = some c := by
  have hletters : ∀ e ∈ letters, escaped? e.1 = some e.2 := by decide
  exact hletters _ h

/-- An escape with a letter is not one with digits. -/
theorem ne_of_mem_letters {letter c : Char} (h : (letter, c) ∈ letters) : letter ≠ 'u' := by
  rintro rfl
  cases escaped?_of_mem h

variable {units : List Nat} {inside : List Char}

/-- A character that is no quote and no backslash belongs to the inside of a string. -/
theorem split?_cons {c : Char} {cs rest after : List Char} (quote : c ≠ '"') (backslash : c ≠ '\\')
    (h : split? cs = some (rest, after)) : split? (c :: cs) = some (c :: rest, after) := by
  rw [split?]
  · rw [h]
    rfl
  · exact quote
  · exact fun _ _ heq => absurd heq backslash

/-- A string ends at the first quote that is not part of an escape. -/
theorem Spells.split?_append (h : Spells units inside) (after : List Char) :
    split? (inside ++ '"' :: after) = some (inside, after) := by
  induction h with
  | done => rfl
  | plain quote backslash control rest ih => exact split?_cons quote backslash ih
  | letter known rest ih => exact congrArg (Option.map _) ih
  | unit first second third fourth rest ih =>
    -- The digits hold no quote, so the string does not end among them.
    have hdigits := split?_cons first.ne.1 first.ne.2 (split?_cons second.ne.1 second.ne.2
      (split?_cons third.ne.1 third.ne.2 (split?_cons fourth.ne.1 fourth.ne.2 ih)))
    exact congrArg (Option.map _) hdigits

/-- What spells units is read as pieces with these units. -/
theorem Spells.pieces?_eq (h : Spells units inside) :
    ∃ pieces, pieces? inside = some pieces ∧ pieces.flatMap Piece.units = units ∧
      ∀ p ∈ pieces, p.Sound := by
  induction h with
  | done => exact ⟨[], rfl, rfl, nofun⟩
  | @plain c units inside quote backslash control rest ih =>
    obtain ⟨pieces, hpieces, hunits, hsound⟩ := ih
    refine ⟨.char c :: pieces, ?_, ?_, List.forall_mem_cons.mpr ⟨trivial, hsound⟩⟩
    · have hcontrol : isControl c = false := by
        simpa [isControl] using control
      simp [pieces?, backslash, hcontrol, hpieces]
    · rw [List.flatMap_cons, hunits]
      rfl
  | @letter letter c units inside known rest ih =>
    obtain ⟨pieces, hpieces, hunits, hsound⟩ := ih
    refine ⟨.char c :: pieces, ?_, ?_, List.forall_mem_cons.mpr ⟨trivial, hsound⟩⟩
    · simp [pieces?, ne_of_mem_letters known, escaped?_of_mem known, hpieces]
    · rw [List.flatMap_cons, hunits]
      rfl
  | @unit unit a b c d units inside first second third fourth rest ih =>
    obtain ⟨pieces, hpieces, hunits, hsound⟩ := ih
    have hunit : unit < 0x10000 := by
      have := first.1
      omega
    obtain ⟨hpiece, hhalf⟩ := units_ofUnit hunit
    refine ⟨.ofUnit unit :: pieces, ?_, ?_, List.forall_mem_cons.mpr ⟨hhalf, hsound⟩⟩
    · simp [pieces?, unit?_of_isHexDigit first second third fourth, hpieces]
    · rw [List.flatMap_cons, hunits, hpiece]
      rfl

/-- A string is read as the text with the units that it spells, if there is one. -/
theorem Spells.text?_eq {text : Option String} (h : Spells units inside) (ht : IsText units text) :
    text? inside = some text := by
  obtain ⟨pieces, hpieces, hunits, hsound⟩ := h.pieces?_eq
  rw [text?, hpieces, Option.map_some]
  exact congrArg some ((hunits ▸ isText_characters? hsound).unique ht)

/-- Whether a character can stand for itself. -/
def isPlain (c : Char) : Bool :=
  c ≠ '"' && c ≠ '\\' && 0x20 ≤ c.toNat

/-- Characters that need no escape spell their own units. -/
theorem spells_of_plain {cs : List Char} (h : cs.all isPlain = true) :
    Spells (cs.flatMap utf16) cs := by
  induction cs with
  | nil => exact .done
  | cons c rest ih =>
    simp only [List.all_cons, isPlain, Bool.and_eq_true, decide_eq_true_eq] at h
    obtain ⟨⟨⟨hquote, hbackslash⟩, hcontrol⟩, hrest⟩ := h
    exact .plain hquote hbackslash hcontrol (ih hrest)

end Quoted

end Chip8.Json
