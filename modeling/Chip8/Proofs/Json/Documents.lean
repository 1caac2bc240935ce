import Chip8.Json.Reader
import Chip8.Proofs.Json.Tokens

/-!
# The text of values

A value has one list of tokens (`Value.tokens`), and a text writes the value if it writes these
tokens, with any spelling of each and any blanks between them. `parse?_of_writtenBy` says that every
such text is read as the value.

The tokens are read whatever is open around the value and whatever follows it: they take the reader
from where it expects a value to where it has received this one (`foldlM_tokens`). A reader that has
just received a value does not go on with a word, so no two words stand next to each other in tokens
that it reads (`isChain_apart_of_foldlM`).
-/

namespace Chip8.Json

mutual

/-- The tokens of a value. -/
def Value.tokens : Value → List Token
  | .scalar s => [.scalar s]
  | .array [] => [.openArray, .closeArray]
  | .array (v :: rest) => .openArray :: (v.tokens ++ tokensBehindItem rest)
  | .object [] => [.openObject, .closeObject]
  | .object ((key, v) :: rest) =>
    .openObject :: .scalar (.string key) :: .colon :: (v.tokens ++ tokensBehindMember rest)

/-- The tokens behind an item of an array that has more items. -/
def tokensBehindItem : List Value → List Token
  | [] => [.closeArray]
  | v :: rest => .comma :: (v.tokens ++ tokensBehindItem rest)

/-- The tokens behind a member of an object that has more members. -/
def tokensBehindMember : List Member → List Token
  | [] => [.closeObject]
  | (key, v) :: rest =>
    .comma :: .scalar (.string key) :: .colon :: (v.tokens ++ tokensBehindMember rest)

end

/-- A text writes a value. -/
def Value.WrittenBy (v : Value) (text : String) : Prop :=
  Token.Spaced v.tokens text.toList

namespace Reader

/-- Behind the mark that opens an array, an item is read as a value is read anywhere. -/
theorem foldlM_firstItem (v : Value) (frames : List Frame) (after : List Token) :
    (v.tokens ++ after).foldlM next? (firstItem frames) =
      (v.tokens ++ after).foldlM next? (value (.item [] :: frames)) := by
  match v with
  | .scalar s => rfl
  | .array [] => rfl
  | .array (w :: rest) => rfl
  | .object [] => rfl
  | .object ((key, w) :: rest) => rfl

-- The induction is on the value. What is open around it and what follows it vary, since the parts
-- of an array or an object are read inside it and with the other parts behind them.
mutual

/-- The tokens of a value deliver it. -/
theorem foldlM_tokens (v : Value) (frames : List Frame) (after : List Token) :
    (v.tokens ++ after).foldlM next? (value frames) = after.foldlM next? (deliver v frames) := by
  match v with
  | .scalar s => rfl
  | .array [] => rfl
  | .array (w :: rest) =>
    calc (((Value.array (w :: rest)).tokens) ++ after).foldlM next? (value frames)
        = (w.tokens ++ (tokensBehindItem rest ++ after)).foldlM next? (firstItem frames) := by
          rw [Value.tokens, List.cons_append, List.append_assoc]
          rfl
      _ = (w.tokens ++ (tokensBehindItem rest ++ after)).foldlM next?
            (value (.item [] :: frames)) := foldlM_firstItem w frames _
      _ = (tokensBehindItem rest ++ after).foldlM next? (itemEnd frames [w]) :=
          foldlM_tokens w (.item [] :: frames) _
      _ = after.foldlM next? (deliver (.array (w :: rest)) frames) :=
          foldlM_tokensBehindItem rest frames [w] after
  | .object [] => rfl
  | .object ((key, w) :: rest) =>
    calc (((Value.object ((key, w) :: rest)).tokens) ++ after).foldlM next? (value frames)
        = (w.tokens ++ (tokensBehindMember rest ++ after)).foldlM next?
            (value (.member [] key :: frames)) := by
          rw [Value.tokens, List.cons_append, List.cons_append, List.cons_append,
            List.append_assoc]
          rfl
      _ = (tokensBehindMember rest ++ after).foldlM next? (memberEnd frames [(key, w)]) :=
          foldlM_tokens w (.member [] key :: frames) _
      _ = after.foldlM next? (deliver (.object ((key, w) :: rest)) frames) :=
          foldlM_tokensBehindMember rest frames [(key, w)] after

/-- The tokens behind an item deliver the array, if they begin where the item is complete. -/
theorem foldlM_tokensBehindItem (more : List Value) (frames : List Frame) (items : List Value)
    (after : List Token) :
    (tokensBehindItem more ++ after).foldlM next? (itemEnd frames items) =
      after.foldlM next? (deliver (.array (items.reverse ++ more)) frames) := by
  match more with
  | [] =>
    rw [List.append_nil]
    rfl
  | v :: rest =>
    calc (tokensBehindItem (v :: rest) ++ after).foldlM next? (itemEnd frames items)
        = (v.tokens ++ (tokensBehindItem rest ++ after)).foldlM next?
            (value (.item items :: frames)) := by
          rw [tokensBehindItem, List.cons_append, List.append_assoc]
          rfl
      _ = (tokensBehindItem rest ++ after).foldlM next? (itemEnd frames (v :: items)) :=
          foldlM_tokens v (.item items :: frames) _
      _ = after.foldlM next? (deliver (.array ((v :: items).reverse ++ rest)) frames) :=
          foldlM_tokensBehindItem rest frames (v :: items) after
      _ = after.foldlM next? (deliver (.array (items.reverse ++ v :: rest)) frames) := by
          rw [List.reverse_cons, List.append_assoc]
          rfl

/-- The tokens behind a member deliver the object, if they begin where the member is complete. -/
theorem foldlM_tokensBehindMember (more : List Member) (frames : List Frame)
    (members : List Member) (after : List Token) :
    (tokensBehindMember more ++ after).foldlM next? (memberEnd frames members) =
      after.foldlM next? (deliver (.object (members.reverse ++ more)) frames) := by
  match more with
  | [] =>
    rw [List.append_nil]
    rfl
  | (key, v) :: rest =>
    calc (tokensBehindMember ((key, v) :: rest) ++ after).foldlM next? (memberEnd frames members)
        = (v.tokens ++ (tokensBehindMember rest ++ after)).foldlM next?
            (value (.member members key :: frames)) := by
          rw [tokensBehindMember, List.cons_append, List.cons_append, List.cons_append,
            List.append_assoc]
          rfl
      _ = (tokensBehindMember rest ++ after).foldlM next?
            (memberEnd frames ((key, v) :: members)) :=
          foldlM_tokens v (.member members key :: frames) _
      _ = after.foldlM next? (deliver (.object (((key, v) :: members).reverse ++ rest)) frames) :=
          foldlM_tokensBehindMember rest frames ((key, v) :: members) after
      _ = after.foldlM next? (deliver (.object (members.reverse ++ (key, v) :: rest)) frames) := by
          rw [List.reverse_cons, List.append_assoc]
          rfl

end

/-! ## Neighbours -/

/-- A reader that received a value does not go on with a word. -/
theorem next?_deliver (v : Value) (frames : List Frame) {t : Token} (ht : t.isWord = true) :
    next? (deliver v frames) t = none := by
  obtain ⟨s, rfl⟩ : ∃ s, t = .scalar s := by
    cases t with
    | scalar s => exact ⟨s, rfl⟩
    | _ => cases ht
  match frames with
  | [] => rfl
  | .item items :: outer => rfl
  | .member members key :: outer => rfl

/-- A word is a value. -/
theorem exists_deliver_of_isWord {r r' : Reader} {t : Token} (ht : t.isWord = true)
    (h : next? r t = some r') : ∃ v frames, r' = deliver v frames := by
  cases t with
  | scalar s =>
    cases s with
    | string text => cases ht
    | _ =>
      cases r with
      | value frames => exact ⟨_, frames, (Option.some.inj h).symm⟩
      | firstItem frames => exact ⟨_, .item [] :: frames, (Option.some.inj h).symm⟩
      | _ => cases h
  | _ => cases ht

/-- In tokens that a reader goes through no two words stand next to each other. -/
theorem isChain_apart_of_foldlM {tokens : List Token} {r r' : Reader}
    (h : tokens.foldlM next? r = some r') : tokens.IsChain Token.Apart := by
  induction tokens generalizing r with
  | nil => exact .nil
  | cons t rest ih =>
    rw [List.foldlM_cons, Option.bind_eq_bind] at h
    obtain ⟨behind, hbehind, hrest⟩ := Option.bind_eq_some_iff.mp h
    refine List.isChain_cons.mpr ⟨fun u hu ht => ?_, ih hrest⟩
    -- A word delivers a value, and a word behind it would not be read.
    obtain ⟨v, frames, rfl⟩ := exists_deliver_of_isWord ht hbehind
    obtain ⟨others, rfl⟩ := List.head?_eq_some_iff.mp hu
    by_contra hword
    rw [List.foldlM_cons, next?_deliver v frames (Bool.not_eq_false _ ▸ hword)] at hrest
    cases hrest

end Reader

namespace Value

/-- The tokens of a value are read as the value alone. -/
theorem foldlM_tokens_eq (v : Value) :
    v.tokens.foldlM Reader.next? (.value []) = some (.complete v) := by
  have h := Reader.foldlM_tokens v [] []
  rw [List.append_nil] at h
  exact h

/-- A text that writes a value is read as this value. -/
theorem parse?_of_writtenBy {v : Value} {text : String} (h : v.WrittenBy text) :
    parse? text = some v := by
  have htokens := foldlM_tokens_eq v
  rw [parse?, Token.scan_of_spaced h (Reader.isChain_apart_of_foldlM htokens), Option.bind_some,
    ofTokens?, htokens]

/-- The value of a member is written in its object. -/
theorem mem_tokens_of_mem {members : List Member} {key : Option String} {v : Value} {t : Token}
    (hmem : (key, v) ∈ members) (ht : t ∈ v.tokens) : t ∈ (object members).tokens := by
  have hbehind (more : List Member) (hmem : (key, v) ∈ more) : t ∈ tokensBehindMember more := by
    induction more with
    | nil => cases hmem
    | cons m rest ih =>
      rw [tokensBehindMember]
      obtain rfl | hmem := List.mem_cons.mp hmem
      · simp [ht]
      · simp [ih hmem]
  cases members with
  | nil => cases hmem
  | cons m rest =>
    rw [tokens]
    obtain rfl | hmem := List.mem_cons.mp hmem
    · simp [ht]
    · simp [hbehind rest hmem]

/-- A number in a text has the form of one. -/
theorem WrittenBy.isLiteral {members : List Member} {key : Option String} {literal : List Char}
    {text : String} (h : (object members).WrittenBy text)
    (hmem : (key, scalar (.number literal)) ∈ members) : IsLiteral literal := by
  obtain ⟨cs, hcs⟩ := h.exists_spells (mem_tokens_of_mem hmem (List.mem_singleton.mpr rfl))
  exact hcs.isLiteral

end Value

end Chip8.Json
