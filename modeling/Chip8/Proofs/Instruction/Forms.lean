import Chip8.Instruction.Encoding

/-!
# The forms of the instruction words

Every instruction has one documented form: four hexadecimal digits in which letters stand for the
operands, such as `Dxyn` for a sprite. `form` is the number that the form writes for given operands.
`decode_exactly_inverts_encode` says that encoding writes these forms, that decoding is its inverse
in both directions, and that the words left over are told apart by their first digit alone. No
operand needs a bound in the statement, since the types of the operands hold exactly what the
letters can write.

Both directions are shown on the digits of a word, class by class: the digits of an instruction
select it (`ofDigits?_digits`), and an instruction that digits select has these digits
(`digits_of_ofDigits?`). Words and their digits correspond one to one, so `encode_eq_iff` follows.
-/

namespace Chip8

/-- The last digit of an operation that a digit selects is that digit. -/
theorem Operation.digit_of_ofDigit? {n : Fin 16} {operation : Operation}
    (h : ofDigit? n = some operation) : operation.digit = n := by
  revert n operation
  decide

namespace Instruction

/-- The number that the documented form of an instruction writes. -/
def form : Instruction → Nat
  | clearScreen => 0x00E0
  | returnToCaller => 0x00EE
  | jump target => 0x1000 + target.val
  | call target => 0x2000 + target.val
  | skipIfByte x byte => 0x3000 + 0x100 * x.val + byte.toNat
  | skipUnlessByte x byte => 0x4000 + 0x100 * x.val + byte.toNat
  | skipIfSame x y => 0x5000 + 0x100 * x.val + 0x10 * y.val
  | setByte x byte => 0x6000 + 0x100 * x.val + byte.toNat
  | addByte x byte => 0x7000 + 0x100 * x.val + byte.toNat
  | combine .copy x y => 0x8000 + 0x100 * x.val + 0x10 * y.val
  | combine .or x y => 0x8000 + 0x100 * x.val + 0x10 * y.val + 0x1
  | combine .and x y => 0x8000 + 0x100 * x.val + 0x10 * y.val + 0x2
  | combine .xor x y => 0x8000 + 0x100 * x.val + 0x10 * y.val + 0x3
  | combine .add x y => 0x8000 + 0x100 * x.val + 0x10 * y.val + 0x4
  | combine .subtract x y => 0x8000 + 0x100 * x.val + 0x10 * y.val + 0x5
  | combine .shiftRight x y => 0x8000 + 0x100 * x.val + 0x10 * y.val + 0x6
  | combine .subtractFrom x y => 0x8000 + 0x100 * x.val + 0x10 * y.val + 0x7
  | combine .shiftLeft x y => 0x8000 + 0x100 * x.val + 0x10 * y.val + 0xE
  | skipUnlessSame x y => 0x9000 + 0x100 * x.val + 0x10 * y.val
  | setIndex target => 0xA000 + target.val
  | jumpWithOffset target => 0xB000 + target.val
  | drawRandom x mask => 0xC000 + 0x100 * x.val + mask.toNat
  | drawSprite x y height => 0xD000 + 0x100 * x.val + 0x10 * y.val + height.val
  | skipIfHeld x => 0xE000 + 0x100 * x.val + 0x9E
  | skipUnlessHeld x => 0xE000 + 0x100 * x.val + 0xA1
  | readDelay x => 0xF000 + 0x100 * x.val + 0x07
  | awaitKey x => 0xF000 + 0x100 * x.val + 0x0A
  | setDelay x => 0xF000 + 0x100 * x.val + 0x15
  | setSound x => 0xF000 + 0x100 * x.val + 0x18
  | advanceIndex x => 0xF000 + 0x100 * x.val + 0x1E
  | pointAtGlyph x => 0xF000 + 0x100 * x.val + 0x29
  | storeDigits x => 0xF000 + 0x100 * x.val + 0x33
  | storeRegisters x => 0xF000 + 0x100 * x.val + 0x55
  | loadRegisters x => 0xF000 + 0x100 * x.val + 0x65

/-- The word that encodes an instruction is the number that its form writes. -/
theorem toNat_encode (i : Instruction) : i.encode.toNat = i.form := by
  -- There are three layouts behind the first digit: digits, an address, and a digit with a byte.
  have hdigits (kind x y n : Fin 16) : (WordDigits.mk kind x y n).toWord.toNat =
      0x1000 * kind.val + 0x100 * x.val + 0x10 * y.val + n.val := by
    simp only [WordDigits.toWord, UInt16.toNat_ofNat']
    omega
  have haddress (kind : Fin 16) (a : Address) :
      (WordDigits.ofAddress kind a).toWord.toNat = 0x1000 * kind.val + a.val := by
    simp only [WordDigits.ofAddress, hdigits, Fin.val_ofNat]
    omega
  have hbyte (kind x : Fin 16) (b : UInt8) : (WordDigits.ofByte kind x b).toWord.toNat =
      0x1000 * kind.val + 0x100 * x.val + b.toNat := by
    have hb := b.toNat_lt
    simp only [WordDigits.ofByte, hdigits, Fin.val_ofNat]
    omega
  cases i with
  | clearScreen => rfl
  | returnToCaller => rfl
  | jump target => exact haddress 0x1 target
  | call target => exact haddress 0x2 target
  | setIndex target => exact haddress 0xA target
  | jumpWithOffset target => exact haddress 0xB target
  | skipIfByte x byte => exact hbyte 0x3 x byte
  | skipUnlessByte x byte => exact hbyte 0x4 x byte
  | setByte x byte => exact hbyte 0x6 x byte
  | addByte x byte => exact hbyte 0x7 x byte
  | drawRandom x mask => exact hbyte 0xC x mask
  | skipIfSame x y => exact hdigits 0x5 x y 0x0
  | skipUnlessSame x y => exact hdigits 0x9 x y 0x0
  | drawSprite x y height => exact hdigits 0xD x y height
  | combine operation x y =>
    have hword := hdigits 0x8 x y operation.digit
    cases operation <;> exact hword
  | skipIfHeld x => exact hbyte 0xE x 0x9E
  | skipUnlessHeld x => exact hbyte 0xE x 0xA1
  | readDelay x => exact hbyte 0xF x 0x07
  | awaitKey x => exact hbyte 0xF x 0x0A
  | setDelay x => exact hbyte 0xF x 0x15
  | setSound x => exact hbyte 0xF x 0x18
  | advanceIndex x => exact hbyte 0xF x 0x1E
  | pointAtGlyph x => exact hbyte 0xF x 0x29
  | storeDigits x => exact hbyte 0xF x 0x33
  | storeRegisters x => exact hbyte 0xF x 0x55
  | loadRegisters x => exact hbyte 0xF x 0x65

/-! ## Digits -/

/-- The digits of an instruction select it. -/
theorem ofDigits?_digits (i : Instruction) : ofDigits? i.digits = some i := by
  cases i with
  | jump target => exact congrArg (some ∘ jump) (WordDigits.address_ofAddress 0x1 target)
  | call target => exact congrArg (some ∘ call) (WordDigits.address_ofAddress 0x2 target)
  | setIndex target => exact congrArg (some ∘ setIndex) (WordDigits.address_ofAddress 0xA target)
  | jumpWithOffset target =>
    exact congrArg (some ∘ jumpWithOffset) (WordDigits.address_ofAddress 0xB target)
  | skipIfByte x byte => exact congrArg (some ∘ skipIfByte x) (WordDigits.byte_ofByte 0x3 x byte)
  | skipUnlessByte x byte =>
    exact congrArg (some ∘ skipUnlessByte x) (WordDigits.byte_ofByte 0x4 x byte)
  | setByte x byte => exact congrArg (some ∘ setByte x) (WordDigits.byte_ofByte 0x6 x byte)
  | addByte x byte => exact congrArg (some ∘ addByte x) (WordDigits.byte_ofByte 0x7 x byte)
  | drawRandom x mask => exact congrArg (some ∘ drawRandom x) (WordDigits.byte_ofByte 0xC x mask)
  | combine operation x y =>
    exact congrArg (Option.map fun o => combine o x y) (Operation.ofDigit?_digit operation)
  | _ => rfl

/-- An instruction of class 0 has the digits that select it. -/
theorem digits_of_ofSystemDigits? {d : WordDigits} {i : Instruction} (kind : d.kind = 0x0)
    (h : ofSystemDigits? d = some i) : i.digits = d := by
  unfold ofSystemDigits? at h
  split at h
  case isTrue hx =>
    have hbyte (b : UInt8) (hb : d.byte.toNat = b.toNat) : WordDigits.ofByte 0x0 0x0 b = d := by
      calc WordDigits.ofByte 0x0 0x0 b = .ofByte d.kind d.x d.byte := by
            rw [kind, hx, UInt8.toNat_inj.mp hb]
        _ = d := d.ofByte_byte
    split at h
    case h_1 hb => cases h; exact hbyte 0xE0 hb
    case h_2 hb => cases h; exact hbyte 0xEE hb
    case h_3 => cases h
  case isFalse => cases h

/-- An instruction of class E has the digits that select it. -/
theorem digits_of_ofKeyByte? {x : Register} {b : UInt8} {i : Instruction}
    (h : ofKeyByte? x b = some i) : i.digits = .ofByte 0xE x b := by
  have hbyte (b' : UInt8) (hb : b.toNat = b'.toNat) :
      WordDigits.ofByte 0xE x b' = .ofByte 0xE x b := by
    rw [UInt8.toNat_inj.mp hb]
  unfold ofKeyByte? at h
  split at h
  case h_1 hb => cases h; exact hbyte 0x9E hb
  case h_2 hb => cases h; exact hbyte 0xA1 hb
  case h_3 => cases h

/-- An instruction of class F has the digits that select it. -/
theorem digits_of_ofTransferByte? {x : Register} {b : UInt8} {i : Instruction}
    (h : ofTransferByte? x b = some i) : i.digits = .ofByte 0xF x b := by
  have hbyte (b' : UInt8) (hb : b.toNat = b'.toNat) :
      WordDigits.ofByte 0xF x b' = .ofByte 0xF x b := by
    rw [UInt8.toNat_inj.mp hb]
  unfold ofTransferByte? at h
  split at h
  case h_1 hb => cases h; exact hbyte 0x07 hb
  case h_2 hb => cases h; exact hbyte 0x0A hb
  case h_3 hb => cases h; exact hbyte 0x15 hb
  case h_4 hb => cases h; exact hbyte 0x18 hb
  case h_5 hb => cases h; exact hbyte 0x1E hb
  case h_6 hb => cases h; exact hbyte 0x29 hb
  case h_7 hb => cases h; exact hbyte 0x33 hb
  case h_8 hb => cases h; exact hbyte 0x55 hb
  case h_9 hb => cases h; exact hbyte 0x65 hb
  case h_10 => cases h

/-- An instruction has the digits that select it. -/
theorem digits_of_ofDigits? {d : WordDigits} {i : Instruction} (h : ofDigits? d = some i) :
    i.digits = d := by
  have haddress (kind : Fin 16) (hk : d.kind.val = kind.val) : .ofAddress kind d.address = d := by
    rw [← Fin.ext hk]
    exact d.ofAddress_address
  have hbyte (kind : Fin 16) (hk : d.kind.val = kind.val) : .ofByte kind d.x d.byte = d := by
    rw [← Fin.ext hk]
    exact d.ofByte_byte
  have hdigits (kind n : Fin 16) (hk : d.kind.val = kind.val) (hn : d.n = n) :
      (⟨kind, d.x, d.y, n⟩ : WordDigits) = d := by
    rw [← Fin.ext hk, ← hn]
  unfold ofDigits? at h
  split at h
  case h_1 hk => exact digits_of_ofSystemDigits? (Fin.ext hk) h
  case h_2 hk => cases h; exact haddress 0x1 hk
  case h_3 hk => cases h; exact haddress 0x2 hk
  case h_4 hk => cases h; exact hbyte 0x3 hk
  case h_5 hk => cases h; exact hbyte 0x4 hk
  case h_6 hk =>
    split at h
    case isTrue hn => cases h; exact hdigits 0x5 0x0 hk hn
    case isFalse => cases h
  case h_7 hk => cases h; exact hbyte 0x6 hk
  case h_8 hk => cases h; exact hbyte 0x7 hk
  case h_9 hk =>
    obtain ⟨operation, hoperation, rfl⟩ := Option.map_eq_some_iff.mp h
    exact hdigits 0x8 _ hk (Operation.digit_of_ofDigit? hoperation).symm
  case h_10 hk =>
    split at h
    case isTrue hn => cases h; exact hdigits 0x9 0x0 hk hn
    case isFalse => cases h
  case h_11 hk => cases h; exact haddress 0xA hk
  case h_12 hk => cases h; exact haddress 0xB hk
  case h_13 hk => cases h; exact hbyte 0xC hk
  case h_14 hk => cases h; exact hdigits 0xD _ hk rfl
  case h_15 hk => rw [digits_of_ofKeyByte? h]; exact hbyte 0xE hk
  case h_16 =>
    -- The other fifteen classes are excluded, so this is the last one.
    have hlt := d.kind.isLt
    have hk : d.kind.val = 15 := by grind
    rw [digits_of_ofTransferByte? h]
    exact hbyte 0xF hk

/-! ## Words -/

/-- A word encodes an instruction exactly when its digits select that instruction. -/
theorem encode_eq_iff {w : UInt16} {i : Instruction} :
    i.encode = w ↔ ofDigits? (.ofWord w) = some i := by
  constructor
  · rintro rfl
    rw [encode, WordDigits.ofWord_toWord]
    exact ofDigits?_digits i
  · intro h
    rw [encode, digits_of_ofDigits? h]
    exact WordDigits.toWord_ofWord w

/-- A word decodes to the instruction that is encoded by it. -/
theorem decode_eq_ok_iff {w : UInt16} {i : Instruction} : decode w = .ok i ↔ i.encode = w := by
  rw [encode_eq_iff, decode]
  cases ofDigits? (.ofWord w) <;> simp

/-- The class of a word is zero exactly when its top digit is. -/
theorem kind_ofWord_eq_zero {w : UInt16} :
    (WordDigits.ofWord w).kind = 0 ↔ w.toNat / 0x1000 = 0 := by
  have hw := w.toNat_lt
  simp only [WordDigits.ofWord, Fin.ext_iff, Fin.val_ofNat, Fin.val_zero]
  omega

/-- Encoding writes the documented forms, and decoding is its exact inverse: a word decodes to the
instruction that is encoded by it and to no other. A word that encodes nothing is refused as a
machine code routine if its top digit is zero, and as a variant that does not exist otherwise.
Nothing else is refused. -/
theorem decode_exactly_inverts_encode :
    (∀ i : Instruction, i.encode.toNat = i.form) ∧
    (∀ (w : UInt16) (i : Instruction), decode w = .ok i ↔ i.encode = w) ∧
    ∀ (w : UInt16) (e : Error), decode w = .error e ↔
      (¬∃ i : Instruction, i.encode = w) ∧
        e = if w.toNat / 0x1000 = 0 then .notImplemented w else .noSuchVariant w := by
  refine ⟨toNat_encode, fun w i => ?_, fun w e => ?_⟩
  · rw [encode_eq_iff, decode]
    cases ofDigits? (.ofWord w) <;> simp
  · simp only [encode_eq_iff, decode, ← kind_ofWord_eq_zero]
    cases ofDigits? (.ofWord w) <;> simp [eq_comm]

end Instruction

end Chip8
