import Chip8.Json.Token
import Chip8.Proofs.Json.Strings
import Mathlib.Data.List.Chain

/-!
# The text of tokens

A token has one or more spellings (`Token.Spells`), and a text writes some tokens if it has their
spellings in order with blanks between them (`Spaced`). A word ends only where something else
begins, so a text with two words next to each other may say something else. Every other text is cut
into exactly the tokens that it writes (`scan_of_spaced`).
-/

namespace Chip8.Json

/-! ## Numbers -/

/-- Digits, at least one of them. -/
def IsDigits (cs : List Char) : Prop :=
  cs ≠ [] ∧ ∀ c ∈ cs, c.isDigit = true

/-- The fraction of a number, which may be left out. -/
inductive IsFraction : List Char → Prop where
  /-- There is no fraction. -/
  | none : IsFraction []
  /-- A point and digits. -/
  | point {digits : List Char} (h : IsDigits digits) : IsFraction ('.' :: digits)

/-- The exponent of a number, which may be left out. -/
inductive IsExponent : List Char → Prop where
  /-- There is no exponent. -/
  | none : IsExponent []
  /-- A letter and digits. -/
  | plain {letter : Char} {digits : List Char} (hletter : letter = 'e' ∨ letter = 'E')
      (h : IsDigits digits) : IsExponent (letter :: digits)
  /-- A letter, a sign and digits. -/
  | signed {letter sign : Char} {digits : List Char} (hletter : letter = 'e' ∨ letter = 'E')
      (hsign : sign = '+' ∨ sign = '-') (h : IsDigits digits) :
    IsExponent (letter :: sign :: digits)

/-- A number without a sign: an integer in decimal, without zeros in front, and then perhaps a
fraction and an exponent. -/
inductive IsUnsigned : List Char → Prop where
  /-- The parts stand one behind the other. -/
  | intro (n : Nat) {fraction exponent : List Char} (hfraction : IsFraction fraction)
      (hexponent : IsExponent exponent) : IsUnsigned (Nat.toDigits 10 n ++ (fraction ++ exponent))

/-- The writing of a number. -/
inductive IsLiteral : List Char → Prop where
  /-- A number without a sign. -/
  | plain {cs : List Char} (h : IsUnsigned cs) : IsLiteral cs
  /-- A number behind a minus sign. -/
  | negative {cs : List Char} (h : IsUnsigned cs) : IsLiteral ('-' :: cs)

/-- What has a property up to a point, and not behind it, is cut at this point. -/
theorem takeWhile_dropWhile_append {p : Char → Bool} {front rest : List Char}
    (hfront : ∀ c ∈ front, p c = true) (hrest : ∀ c ∈ rest.head?, p c = false) :
    (front ++ rest).takeWhile p = front ∧ (front ++ rest).dropWhile p = rest := by
  rw [List.takeWhile_append_of_pos hfront, List.dropWhile_append_of_pos hfront]
  cases rest with
  | nil => exact ⟨List.append_nil front, rfl⟩
  | cons c rest =>
    have hc : p c = false := hrest c rfl
    rw [List.takeWhile_cons_of_neg (by simp [hc]), List.dropWhile_cons_of_neg (by simp [hc])]
    exact ⟨List.append_nil front, rfl⟩

/-- Digits are read up to what is no digit. -/
theorem IsDigits.digits?_append {digits rest : List Char} (h : IsDigits digits)
    (hrest : ∀ c ∈ rest.head?, c.isDigit = false) :
    digits? (digits ++ rest) = some (digits, rest) := by
  obtain ⟨htake, hdrop⟩ := takeWhile_dropWhile_append h.2 hrest
  obtain ⟨c, cs, rfl⟩ := List.exists_cons_of_ne_nil h.1
  rw [digits?, htake, hdrop]

/-- Digits are read up to the end. -/
theorem IsDigits.digits?_eq {digits : List Char} (h : IsDigits digits) :
    digits? digits = some (digits, []) := by
  have hnothing : ∀ c ∈ ([] : List Char).head?, c.isDigit = false := nofun
  simpa using h.digits?_append hnothing

/-- The decimal digits of a number are digits. -/
theorem isDigits_toDigits (n : Nat) : IsDigits (Nat.toDigits 10 n) :=
  ⟨Nat.toDigits_ne_nil, fun _ h => Nat.isDigit_of_mem_toDigits (by decide) (by decide) h⟩

/-- Decimal digits have no zero in front of other digits. -/
theorem eq_nil_of_toDigits {n : Nat} {rest : List Char} (h : Nat.toDigits 10 n = '0' :: rest) :
    rest = [] := by
  induction n using Nat.strongRecOn generalizing rest with
  | ind n ih =>
    by_cases hn : n < 10
    · rw [Nat.toDigits_of_lt_base hn] at h
      exact (List.cons.inj h).2.symm
    · rw [Nat.toDigits_of_base_le (by decide) (by omega)] at h
      obtain ⟨c, cs, hfront⟩ := List.exists_cons_of_ne_nil (isDigits_toDigits (n / 10)).1
      rw [hfront] at h
      obtain ⟨rfl, -⟩ := List.cons.inj h
      -- The digits in front would be a zero alone, and then there are no such digits.
      obtain rfl := ih (n / 10) (by omega) hfront
      have hzero := Nat.ofDigitChars_ten_toDigits (n := n / 10)
      rw [hfront] at hzero
      have : 0 = n / 10 := hzero
      omega

/-- An integer is read up to what is no digit. -/
theorem afterInteger?_toDigits {n : Nat} {rest : List Char}
    (hrest : ∀ c ∈ rest.head?, c.isDigit = false) :
    afterInteger? (Nat.toDigits 10 n ++ rest) = some rest := by
  rw [afterInteger?, (isDigits_toDigits n).digits?_append hrest]
  split
  case h_1 heq =>
    have hdigits := congrArg Prod.fst (Option.some.inj heq)
    cases eq_nil_of_toDigits hdigits
  case h_2 heq => exact congrArg some (congrArg Prod.snd (Option.some.inj heq)).symm
  case h_3 heq => cases heq

/-- What begins with a digit does not begin with a sign or with a point. -/
theorem IsDigits.exists_cons {digits : List Char} (h : IsDigits digits) :
    ∃ c rest, digits = c :: rest ∧ c ∉ ['+', '-', '.'] := by
  obtain ⟨c, rest, rfl⟩ := List.exists_cons_of_ne_nil h.1
  refine ⟨c, rest, rfl, fun hmem => ?_⟩
  have hc := h.2 c List.mem_cons_self
  simp only [List.mem_cons, List.not_mem_nil, or_false] at hmem
  obtain rfl | rfl | rfl := hmem <;> cases hc

namespace IsExponent

variable {exponent : List Char}

/-- An exponent begins with its letter. -/
theorem head_eq (h : IsExponent exponent) : ∀ c ∈ exponent.head?, c = 'e' ∨ c = 'E' := by
  cases h with
  | none => nofun
  | plain hletter h => exact fun c hc => Option.some.inj hc ▸ hletter
  | signed hletter hsign h => exact fun c hc => Option.some.inj hc ▸ hletter

/-- An exponent is read to its end. -/
theorem afterExponent?_eq (h : IsExponent exponent) : afterExponent? exponent = some [] := by
  cases h with
  | none => rfl
  | @plain letter digits hletter h =>
    -- No digit could be taken for the sign that may stand here.
    obtain ⟨c, rest, rfl, hc⟩ := h.exists_cons
    simp only [List.mem_cons, not_or] at hc
    simp [afterExponent?, hletter, hc, h.digits?_eq]
  | @signed letter sign digits hletter hsign h =>
    obtain rfl | rfl := hsign <;> simp [afterExponent?, hletter, h.digits?_eq]

end IsExponent

namespace IsFraction

variable {fraction exponent : List Char}

/-- A fraction is read up to the exponent. -/
theorem afterFraction?_append (h : IsFraction fraction) (hexponent : IsExponent exponent) :
    afterFraction? (fraction ++ exponent) = some exponent := by
  cases h with
  | none =>
    cases exponent with
    | nil => rfl
    | cons c rest =>
      obtain rfl | rfl := hexponent.head_eq c rfl <;> rfl
  | point h =>
    have hletter : ∀ c ∈ exponent.head?, c.isDigit = false := by
      intro c hc
      obtain rfl | rfl := hexponent.head_eq c hc <;> rfl
    exact congrArg (Option.map Prod.snd) (h.digits?_append hletter)

/-- What stands behind an integer does not begin with a digit. -/
theorem head_append (h : IsFraction fraction) (hexponent : IsExponent exponent) :
    ∀ c ∈ (fraction ++ exponent).head?, c.isDigit = false := by
  cases h with
  | none =>
    intro c hc
    obtain rfl | rfl := hexponent.head_eq c hc <;> rfl
  | point h => exact fun c hc => Option.some.inj hc ▸ rfl

end IsFraction

namespace IsUnsigned

variable {cs : List Char}

/-- A number without a sign does not begin with one. -/
theorem ne_minus (h : IsUnsigned cs) (rest : List Char) : cs ≠ '-' :: rest := by
  obtain ⟨n, hfraction, hexponent⟩ := h
  obtain ⟨c, digits, hdigits, hc⟩ := (isDigits_toDigits n).exists_cons
  rw [hdigits]
  rintro heq
  obtain ⟨rfl, -⟩ := List.cons.inj heq
  exact hc (by decide)

/-- A number without a sign is read to its end. -/
theorem read_eq (h : IsUnsigned cs) :
    ((afterInteger? cs).bind afterFraction?).bind afterExponent? = some [] := by
  obtain ⟨n, hfraction, hexponent⟩ := h
  rw [afterInteger?_toDigits (hfraction.head_append hexponent), Option.bind_some,
    hfraction.afterFraction?_append hexponent, Option.bind_some, hexponent.afterExponent?_eq]

/-- A number without a sign and with digits only is its integer. -/
theorem eq_toDigits (h : IsUnsigned cs) (hdigits : ∀ c ∈ cs, c.isDigit = true) :
    ∃ n, cs = Nat.toDigits 10 n := by
  obtain @⟨n, fraction, exponent, hfraction, hexponent⟩ := h
  have hnothing : fraction ++ exponent = [] := by
    cases hbehind : fraction ++ exponent with
    | nil => rfl
    | cons c rest =>
      have hc := hfraction.head_append hexponent c (by rw [hbehind]; rfl)
      rw [hdigits c (by simp [hbehind])] at hc
      cases hc
  exact ⟨n, by rw [hnothing, List.append_nil]⟩

end IsUnsigned

namespace IsLiteral

variable {literal : List Char}

/-- A literal is a number. -/
theorem isNumber_eq (h : IsLiteral literal) : isNumber literal = true := by
  cases h with
  | plain h =>
    unfold isNumber
    split
    case h_1 rest => exact absurd rfl (h.ne_minus rest)
    case h_2 => exact beq_iff_eq.mpr h.read_eq
  | negative h => exact beq_iff_eq.mpr h.read_eq

/-- A literal is read as a number. -/
theorem ofWord?_eq (h : IsLiteral literal) : Scalar.ofWord? literal = some (.number literal) := by
  have hne (name : List Char) (hname : isNumber name = false) : literal ≠ name := by
    rintro rfl
    exact absurd h.isNumber_eq (by rw [hname]; decide)
  simp [Scalar.ofWord?, hne ['t', 'r', 'u', 'e'] (by decide),
    hne ['f', 'a', 'l', 's', 'e'] (by decide), hne ['n', 'u', 'l', 'l'] (by decide), h.isNumber_eq]

/-- A literal with digits only is a number in decimal. -/
theorem eq_toDigits (h : IsLiteral literal) (hdigits : ∀ c ∈ literal, c.isDigit = true) :
    ∃ n, literal = Nat.toDigits 10 n := by
  cases h with
  | plain h => exact h.eq_toDigits hdigits
  | negative h => cases hdigits '-' List.mem_cons_self

end IsLiteral

/-! ## Words -/

/-- A digit belongs to a word. -/
theorem isWordCharacter_of_isDigit {c : Char} (h : c.isDigit = true) :
    Token.isWordCharacter c = true := by
  have hne (d : Char) (hd : d.isDigit = false) : c ≠ d := by
    rintro rfl
    exact absurd h (by rw [hd]; decide)
  simp [Token.isWordCharacter, Token.isBlank, Token.ofMark?, hne ' ' rfl, hne '\t' rfl,
    hne '\n' rfl, hne '\r' rfl, hne '\x7b' rfl, hne '\x7d' rfl, hne '[' rfl, hne ']' rfl,
    hne ',' rfl, hne ':' rfl, hne '"' rfl]

/-- Characters belong to a word. -/
def IsWord (cs : List Char) : Prop :=
  ∀ c ∈ cs, Token.isWordCharacter c = true

instance (cs : List Char) : Decidable (IsWord cs) :=
  decidable_of_iff (cs.all Token.isWordCharacter = true) List.all_eq_true

/-- Digits belong to a word. -/
theorem IsDigits.isWord {digits : List Char} (h : IsDigits digits) : IsWord digits :=
  fun c hc => isWordCharacter_of_isDigit (h.2 c hc)

/-- The letter of an exponent belongs to a word. -/
theorem isWordCharacter_of_letter {c : Char} (h : c = 'e' ∨ c = 'E') :
    Token.isWordCharacter c = true := by
  obtain rfl | rfl := h <;> decide

/-- A fraction belongs to a word. -/
theorem IsFraction.isWord {fraction : List Char} (h : IsFraction fraction) : IsWord fraction := by
  cases h with
  | none => nofun
  | point h => exact List.forall_mem_cons.mpr ⟨by decide, h.isWord⟩

/-- An exponent belongs to a word. -/
theorem IsExponent.isWord {exponent : List Char} (h : IsExponent exponent) : IsWord exponent := by
  cases h with
  | none => nofun
  | plain hletter h =>
    exact List.forall_mem_cons.mpr ⟨isWordCharacter_of_letter hletter, h.isWord⟩
  | @signed letter sign digits hletter hsign h =>
    have hsign : Token.isWordCharacter sign = true := by
      obtain rfl | rfl := hsign <;> decide
    exact List.forall_mem_cons.mpr ⟨isWordCharacter_of_letter hletter,
      List.forall_mem_cons.mpr ⟨hsign, h.isWord⟩⟩

/-- A number without a sign belongs to a word. -/
theorem IsUnsigned.isWord {cs : List Char} (h : IsUnsigned cs) : IsWord cs := by
  obtain ⟨n, hfraction, hexponent⟩ := h
  exact List.forall_mem_append.mpr ⟨(isDigits_toDigits n).isWord,
    List.forall_mem_append.mpr ⟨hfraction.isWord, hexponent.isWord⟩⟩

/-- A literal is a word. -/
theorem IsLiteral.isWord {literal : List Char} (h : IsLiteral literal) : IsWord literal := by
  cases h with
  | plain h => exact h.isWord
  | negative h => exact List.forall_mem_cons.mpr ⟨by decide, h.isWord⟩

/-- A literal is not empty. -/
theorem IsLiteral.ne_nil {literal : List Char} (h : IsLiteral literal) : literal ≠ [] := by
  rintro rfl
  cases h.isNumber_eq

namespace Token

/-! ## Texts -/

/-- The blanks. -/
def blanks : List Char := [' ', '\t', '\n', '\r']

/-- The marks and their tokens. -/
def marks : List (Char × Token) :=
  [('\x7b', openObject), ('\x7d', closeObject), ('[', openArray), (']', closeArray), (',', comma),
    (':', colon)]

/-- The texts that write a token. -/
inductive Spells : Token → List Char → Prop where
  /-- A mark is one character. -/
  | mark {c : Char} {t : Token} (h : (c, t) ∈ marks) : Spells t [c]
  /-- The null value has a name. -/
  | null : Spells (scalar .null) ['n', 'u', 'l', 'l']
  /-- Truth has a name. -/
  | truth : Spells (scalar (.bool true)) ['t', 'r', 'u', 'e']
  /-- Falsity has a name. -/
  | falsity : Spells (scalar (.bool false)) ['f', 'a', 'l', 's', 'e']
  /-- A number stands for itself. -/
  | number {literal : List Char} (h : IsLiteral literal) : Spells (scalar (.number literal)) literal
  /-- A string stands between two quotes. -/
  | string {units : List Nat} {inside : List Char} {text : Option String}
      (h : Quoted.Spells units inside) (htext : Quoted.IsText units text) :
    Spells (scalar (.string text)) ('"' :: (inside ++ ['"']))

/-- A text writes tokens, with blanks in front of them, between them and behind them. -/
inductive Spaced : List Token → List Char → Prop where
  /-- Nothing writes no tokens. -/
  | done : Spaced [] []
  /-- A blank may stand anywhere between tokens. -/
  | blank {c : Char} {tokens : List Token} {text : List Char} (h : c ∈ blanks)
      (rest : Spaced tokens text) : Spaced tokens (c :: text)
  /-- A token is followed by the other ones. -/
  | token {t : Token} {cs : List Char} {tokens : List Token} {text : List Char} (h : Spells t cs)
      (rest : Spaced tokens text) : Spaced (t :: tokens) (cs ++ text)

/-- Whether a token is a name or a number. -/
def isWord : Token → Bool
  | scalar (.string _) => false
  | scalar _ => true
  | _ => false

/-- Two tokens can stand next to each other without a blank: they are not both words. -/
def Apart (t u : Token) : Prop :=
  t.isWord = true → u.isWord = false

/-- A text that needs no escapes stands between two quotes as it is. -/
theorem spells_text (t : String) (h : t.toList.all Quoted.isPlain = true) :
    Spells (scalar (.string (some t))) ('"' :: (t.toList ++ ['"'])) :=
  .string (Quoted.spells_of_plain h) (Quoted.isText_text t)

/-- A number has the form of one wherever it is written. -/
theorem Spells.isLiteral {literal cs : List Char} (h : Spells (scalar (.number literal)) cs) :
    IsLiteral literal := by
  cases h with
  | mark h => simp [marks] at h
  | number h => exact h

/-- Each token that a text writes has a spelling. -/
theorem Spaced.exists_spells {t : Token} {tokens : List Token} {text : List Char}
    (h : Spaced tokens text) (ht : t ∈ tokens) : ∃ cs, Spells t cs := by
  induction h with
  | done => cases ht
  | blank _ _ ih => exact ih ht
  | token h rest ih =>
    obtain rfl | ht := List.mem_cons.mp ht
    · exact ⟨_, h⟩
    · exact ih ht

/-! ## Cutting a text -/

section Scan

variable {c : Char} {rest : List Char}

/-- A blank is passed over. -/
theorem scan_blank (h : c ∈ blanks) : scan (c :: rest) = scan rest := by
  have hblank : isBlank c = true := by simpa [isBlank, blanks, or_assoc] using h
  rw [scan, if_pos hblank]

/-- A mark is a token. -/
theorem scan_mark {t : Token} (h : (c, t) ∈ marks) :
    scan (c :: rest) = (scan rest).map (t :: ·) := by
  have hmarks : ∀ m ∈ marks, isBlank m.1 = false ∧ ofMark? m.1 = some m.2 := by decide
  obtain ⟨hblank, hmark⟩ := hmarks _ h
  rw [scan, if_neg (Bool.eq_false_iff.mp hblank)]
  simp only [hmark]

/-- A string is a token. -/
theorem scan_string {inside after : List Char} {text : Option String}
    (hsplit : Quoted.split? rest = some (inside, after))
    (htext : Quoted.text? inside = some text) :
    scan ('"' :: rest) = (scan after).map (.scalar (.string text) :: ·) := by
  have hmark : ofMark? '"' = none := by decide
  rw [scan, if_neg (by decide)]
  simp only [hmark, if_true]
  split
  case h_1 heq => cases heq.symm.trans hsplit
  case h_2 heq =>
    cases heq.symm.trans hsplit
    rw [htext, Option.bind_some]

/-- A word is a token. -/
theorem scan_word {word : List Char} {s : Scalar} (hword : IsWord word) (hne : word ≠ [])
    (hrest : ∀ c ∈ rest.head?, isWordCharacter c = false) (hs : Scalar.ofWord? word = some s) :
    scan (word ++ rest) = (scan rest).map (.scalar s :: ·) := by
  obtain ⟨c, cs, rfl⟩ := List.exists_cons_of_ne_nil hne
  obtain ⟨hc, hcs⟩ := List.forall_mem_cons.mp hword
  obtain ⟨htake, hdrop⟩ := takeWhile_dropWhile_append hcs hrest
  simp only [isWordCharacter, Bool.and_eq_true, Bool.not_eq_true', Option.isNone_iff_eq_none,
    bne_iff_ne] at hc
  obtain ⟨⟨hblank, hmark⟩, hquote⟩ := hc
  rw [List.cons_append, scan, if_neg (Bool.eq_false_iff.mp hblank)]
  simp only [hmark, if_neg hquote, htake, hdrop, hs, Option.bind_some]

end Scan

variable {t : Token} {tokens : List Token} {text : List Char}

/-- A token that is not a word does not begin like one. -/
theorem Spells.head_append {cs : List Char} (h : t.Spells cs) (ht : t.isWord = false) :
    ∀ c ∈ (cs ++ text).head?, isWordCharacter c = false := by
  cases h with
  | mark h =>
    have hmarks : ∀ m ∈ marks, isWordCharacter m.1 = false := by decide
    exact fun c hc => Option.some.inj hc ▸ hmarks _ h
  | string h htext => exact fun c hc => Option.some.inj hc ▸ rfl
  | null => cases ht
  | truth => cases ht
  | falsity => cases ht
  | number h => cases ht

/-- A text does not begin like a word unless its first token is one. -/
theorem Spaced.head_eq (h : Spaced tokens text) (hwords : ∀ t ∈ tokens.head?, t.isWord = false) :
    ∀ c ∈ text.head?, isWordCharacter c = false := by
  cases h with
  | done => nofun
  | blank h rest =>
    simp only [blanks, List.mem_cons, List.not_mem_nil, or_false] at h
    intro c hc
    obtain rfl := Option.some.inj hc
    obtain rfl | rfl | rfl | rfl := h <;> rfl
  | token h rest => exact h.head_append (hwords _ rfl)

/-- A token is cut off in front of a text that cannot go on with it. -/
theorem Spells.scan_append {cs : List Char} (h : t.Spells cs)
    (hrest : t.isWord = true → ∀ c ∈ text.head?, isWordCharacter c = false) :
    scan (cs ++ text) = (scan text).map (t :: ·) := by
  cases h with
  | mark h => exact scan_mark h
  | string h htext =>
    rw [List.cons_append, List.append_assoc]
    exact scan_string (h.split?_append text) (h.text?_eq htext)
  | null => exact scan_word (by decide) (List.cons_ne_nil _ _) (hrest rfl) rfl
  | truth => exact scan_word (by decide) (List.cons_ne_nil _ _) (hrest rfl) rfl
  | falsity => exact scan_word (by decide) (List.cons_ne_nil _ _) (hrest rfl) rfl
  | number h => exact scan_word h.isWord h.ne_nil (hrest rfl) h.ofWord?_eq

/-- A text is cut into the tokens that it writes if no two words stand next to each other. -/
theorem scan_of_spaced (h : Spaced tokens text) (apart : tokens.IsChain Apart) :
    scan text = some tokens := by
  induction h with
  | done => rw [scan]
  | blank h rest ih => rw [scan_blank h, ih apart]
  | token h rest ih =>
    -- Behind a word the text goes on with a blank, a mark or a quote, or it ends.
    obtain ⟨hfirst, hothers⟩ := List.isChain_cons.mp apart
    rw [h.scan_append fun hword => rest.head_eq fun u hu => hfirst u hu hword, ih hothers]
    rfl

end Token

end Chip8.Json
