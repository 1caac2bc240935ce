import Chip8.Proofs.Json.Tokens
import Chip8.Text.Numeral

/-!
# Reading numerals

A numeral in hexadecimal has digits only, and they write its number however many zeros were put in
front of them (`ofHex?_paddedHexDigits`). So a text tells where a numeral in it ends, if something
other than a digit stands there, and which number it is. `hex_append_inj` and `decimal_append_inj`
say so without a bound on the number: a numeral may be longer than the width that was asked for.
-/

namespace Chip8.Text

open Json (takeWhile_dropWhile_append isDigits_toDigits)
open Json.Quoted (hexValue? IsHexDigit)

/-- The number that hexadecimal digits write. -/
def ofHex? (digits : List Char) : Option Nat :=
  digits.foldlM (fun sum digit => (hexValue? digit).map (16 * sum + ·)) 0

/-- A numeral is known by where it ends: two texts that begin with characters of a kind, and go on
with something else, begin with the same ones. -/
theorem append_inj_of_ends {p : Char → Bool} {front front' rest rest' : List Char}
    (hfront : ∀ c ∈ front, p c = true) (hfront' : ∀ c ∈ front', p c = true)
    (hrest : ∀ c ∈ rest.head?, p c = false) (hrest' : ∀ c ∈ rest'.head?, p c = false)
    (h : front ++ rest = front' ++ rest') : front = front' ∧ rest = rest' := by
  obtain ⟨htake, hdrop⟩ := takeWhile_dropWhile_append hfront hrest
  obtain ⟨htake', hdrop'⟩ := takeWhile_dropWhile_append hfront' hrest'
  exact ⟨htake.symm.trans (h ▸ htake'), hdrop.symm.trans (h ▸ hdrop')⟩

/-! ## Hexadecimal digits -/

/-- The digit of a number below sixteen. -/
theorem hexDigits_of_lt {n : Nat} (h : n < 16) : hexDigits n = [n.digitChar.toUpper] := by
  rw [hexDigits, Nat.toDigits_of_lt_base h]
  rfl

/-- The digits of a larger number end with that of its remainder. -/
theorem hexDigits_of_le {n : Nat} (h : 16 ≤ n) :
    hexDigits n = hexDigits (n / 16) ++ [(n % 16).digitChar.toUpper] := by
  rw [hexDigits, Nat.toDigits_of_base_le (by decide) h, List.map_append]
  rfl

/-- One more digit at the end. -/
theorem ofHex?_append_digit {digits : List Char} {n k : Nat} (h : ofHex? digits = some n)
    (hk : k < 16) : ofHex? (digits ++ [k.digitChar.toUpper]) = some (16 * n + k) := by
  have hdigit : hexValue? k.digitChar.toUpper = some k := IsHexDigit.hexValue?_eq ⟨hk, .inr rfl⟩
  rw [ofHex?] at h ⊢
  rw [List.foldlM_append, h, Option.bind_eq_bind, Option.bind_some, List.foldlM_cons, hdigit]
  rfl

/-- The digits of a number write it. -/
theorem ofHex?_hexDigits (n : Nat) : ofHex? (hexDigits n) = some n := by
  induction n using Nat.strongRecOn with
  | ind n ih =>
    by_cases hn : n < 16
    · have hdigit := ofHex?_append_digit (show ofHex? [] = some 0 from rfl) hn
      rw [hexDigits_of_lt hn, ← List.nil_append [_], hdigit, Nat.mul_zero, Nat.zero_add]
    · have hmore := ofHex?_append_digit (ih (n / 16) (by omega)) (Nat.mod_lt n (by decide))
      rw [hexDigits_of_le (by omega), hmore, Nat.div_add_mod]

/-- Zeros in front change nothing. -/
theorem ofHex?_replicate_zero (zeros : Nat) (digits : List Char) :
    ofHex? (List.replicate zeros '0' ++ digits) = ofHex? digits := by
  induction zeros with
  | zero => rfl
  | succ zeros ih => exact ih

/-- A padded numeral writes its number. -/
theorem ofHex?_paddedHexDigits (width n : Nat) : ofHex? (paddedHexDigits width n) = some n :=
  (ofHex?_replicate_zero _ _).trans (ofHex?_hexDigits n)

/-- Nothing but digits writes a number. -/
theorem isSome_hexValue?_of_mem {digits : List Char} {n : Nat} (h : ofHex? digits = some n) :
    ∀ c ∈ digits, (hexValue? c).isSome = true := by
  rw [ofHex?] at h
  generalize (0 : Nat) = sum at h
  induction digits generalizing sum with
  | nil => nofun
  | cons digit digits ih =>
    rw [List.foldlM_cons, Option.bind_eq_bind, Option.bind_eq_some_iff] at h
    obtain ⟨sum', hdigit, hrest⟩ := h
    obtain ⟨value, hvalue, -⟩ := Option.map_eq_some_iff.mp hdigit
    exact List.forall_mem_cons.mpr ⟨by rw [hvalue]; rfl, ih sum' hrest⟩

/-! ## Numerals in texts -/

/-- The characters of a numeral. -/
theorem toList_hex (width n : Nat) : (hex width n).toList = paddedHexDigits width n :=
  String.toList_ofList

/-- A numeral has digits only. -/
theorem isSome_hexValue?_hex {width n : Nat} :
    ∀ c ∈ (hex width n).toList, (hexValue? c).isSome = true := by
  rw [toList_hex]
  exact isSome_hexValue?_of_mem (ofHex?_paddedHexDigits width n)

/-- What is no digit does not stand in a numeral. -/
theorem not_mem_hex {c : Char} (h : hexValue? c = none) (width n : Nat) :
    c ∉ (hex width n).toList := by
  intro hmem
  have hdigit := isSome_hexValue?_hex c hmem
  rw [h] at hdigit
  cases hdigit

/-- Different numbers have different numerals. -/
theorem hex_inj {width m n : Nat} : hex width m = hex width n ↔ m = n := by
  constructor
  · intro h
    have hdigits : paddedHexDigits width m = paddedHexDigits width n := by
      rw [← toList_hex, ← toList_hex, h]
    have hm := ofHex?_paddedHexDigits width m
    rw [hdigits, ofHex?_paddedHexDigits] at hm
    exact (Option.some.inj hm).symm
  · rintro rfl
    rfl

/-- Different numbers have different marked numerals. -/
theorem markedHex_inj {width m n : Nat} : markedHex width m = markedHex width n ↔ m = n := by
  rw [markedHex, markedHex, String.append_right_inj, hex_inj]

/-- A text tells the numeral that it begins with, and what stands behind it. -/
theorem hex_append_inj {width m n : Nat} {rest rest' : String}
    (hrest : ∀ c ∈ rest.toList.head?, hexValue? c = none)
    (hrest' : ∀ c ∈ rest'.toList.head?, hexValue? c = none)
    (h : hex width m ++ rest = hex width n ++ rest') : m = n ∧ rest = rest' := by
  have hlist := congrArg String.toList h
  rw [String.toList_append, String.toList_append] at hlist
  obtain ⟨hnumeral, hbehind⟩ := append_inj_of_ends isSome_hexValue?_hex isSome_hexValue?_hex
    (fun c hc => by rw [hrest c hc]; rfl) (fun c hc => by rw [hrest' c hc]; rfl) hlist
  exact ⟨hex_inj.mp (String.toList_inj.mp hnumeral), String.toList_inj.mp hbehind⟩

/-- A text tells the numerals that it begins with, if it is known how many they are, and what stands
behind them. -/
theorem intercalate_append_inj {width : Nat} {rest rest' : String}
    (hrest : ∀ c ∈ rest.toList.head?, hexValue? c = none)
    (hrest' : ∀ c ∈ rest'.toList.head?, hexValue? c = none) :
    ∀ {ms ns : List Nat}, ms.length = ns.length →
      ", ".intercalate (ms.map (hex width)) ++ rest =
        ", ".intercalate (ns.map (hex width)) ++ rest' → ms = ns ∧ rest = rest'
  | [], [], _, h => ⟨rfl, (String.append_right_inj _).mp h⟩
  | [m], [n], _, h => by
    obtain ⟨rfl, hbehind⟩ := hex_append_inj hrest hrest' h
    exact ⟨rfl, hbehind⟩
  | m :: m' :: ms, n :: n' :: ns, same, h => by
    -- Behind the first numeral stands a comma.
    have hcomma : hexValue? ',' = none := by decide
    simp only [List.map_cons, String.intercalate_cons_cons, String.append_assoc] at h
    obtain ⟨rfl, hbehind⟩ := hex_append_inj (by simp [hcomma]) (by simp [hcomma]) h
    rw [String.append_right_inj] at hbehind
    obtain ⟨hmore, hlast⟩ := intercalate_append_inj hrest hrest' (Nat.succ.inj same) hbehind
    exact ⟨congrArg _ hmore, hlast⟩

/-- The characters of a decimal numeral. -/
theorem toList_decimal (n : Nat) : (decimal n).toList = Nat.toDigits 10 n := by
  rw [decimal, Nat.repr_eq_ofList_toDigits, String.toList_ofList]

/-- Different numbers have different decimal numerals. -/
theorem decimal_inj {m n : Nat} : decimal m = decimal n ↔ m = n := by
  constructor
  · intro h
    have hdigits : Nat.toDigits 10 m = Nat.toDigits 10 n := by
      rw [← toList_decimal, ← toList_decimal, h]
    calc m = Nat.ofDigitChars 10 (Nat.toDigits 10 m) 0 := Nat.ofDigitChars_ten_toDigits.symm
      _ = Nat.ofDigitChars 10 (Nat.toDigits 10 n) 0 := by rw [hdigits]
      _ = n := Nat.ofDigitChars_ten_toDigits
  · rintro rfl
    rfl

/-- A decimal numeral has decimal digits only. -/
theorem isDigit_decimal {n : Nat} : ∀ c ∈ (decimal n).toList, c.isDigit = true := by
  rw [toList_decimal]
  exact (isDigits_toDigits n).2

/-- What is no digit does not stand in a decimal numeral. -/
theorem not_mem_decimal {c : Char} (h : c.isDigit = false) (n : Nat) : c ∉ (decimal n).toList := by
  intro hmem
  have hdigit := isDigit_decimal c hmem
  rw [h] at hdigit
  cases hdigit

/-- A text tells the decimal numeral that it begins with, and what stands behind it. -/
theorem decimal_append_inj {m n : Nat} {rest rest' : String}
    (hrest : ∀ c ∈ rest.toList.head?, c.isDigit = false)
    (hrest' : ∀ c ∈ rest'.toList.head?, c.isDigit = false)
    (h : decimal m ++ rest = decimal n ++ rest') : m = n ∧ rest = rest' := by
  have hlist := congrArg String.toList h
  rw [String.toList_append, String.toList_append] at hlist
  obtain ⟨hnumeral, hbehind⟩ :=
    append_inj_of_ends isDigit_decimal isDigit_decimal hrest hrest' hlist
  exact ⟨decimal_inj.mp (String.toList_inj.mp hnumeral), String.toList_inj.mp hbehind⟩

end Chip8.Text
