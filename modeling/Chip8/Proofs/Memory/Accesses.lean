import Chip8.Log
import Chip8.Proofs.Memory.Patch

/-!
# Memory as an array of bytes

Every way to look at memory or to change it is an access, and `access` says what one does. Beside it
stands a plain array: whether an access is refused depends on the addresses that it covers and not
on memory (`Access.refusal?`), and the byte at a position is the last one that an access before has
put there (`written`). `bounded_array_under_accesses` says that memory is this array, whatever was
done to it: the same accesses are refused, those that are not find what the array holds, and those
that are refused leave everything as it was.

One equation says what an access does (`access_eq`). By it memory after a list of accesses is memory
before it under their patches (`afterAccesses_eq`), of which `byteAt_foldl_patch` knows what they
leave at a position.
-/

namespace Chip8.Memory

/-- A way to look at memory or to change it. -/
inductive Access where
  /-- The byte at an address is read. -/
  | readByte (address : UInt16)
  /-- The word at an address is read. -/
  | readWord (address : UInt16)
  /-- So many bytes are read from an address on. -/
  | read (start : UInt16) (count : Nat)
  /-- A byte is written at an address. -/
  | writeByte (address : UInt16) (b : UInt8)
  /-- Bytes are written from an address on. -/
  | write (start : UInt16) (bytes : List UInt8)
  /-- A program is put in its place. -/
  | load (program : List UInt8)
  deriving DecidableEq

/-- What an access that is not refused answers. -/
inductive Answer where
  /-- Something was written. -/
  | done
  /-- This byte was read. -/
  | byte (b : UInt8)
  /-- This word was read. -/
  | word (w : UInt16)
  /-- These bytes were read. -/
  | bytes (bytes : List UInt8)
  deriving DecidableEq

/-- What an attempt to write leaves behind: memory as it was if it is refused. -/
def settle (m : Memory) : Except Error Memory → Outcome Memory (Except Error Answer)
  | .ok after => { state := after, answer := .ok .done }
  | .error e => { state := m, answer := .error e }

/-- What an access does. -/
def access (m : Memory) : Access → Outcome Memory (Except Error Answer)
  | .readByte address => { state := m, answer := (m.readByte address).map .byte }
  | .readWord address => { state := m, answer := (m.readWord address).map .word }
  | .read start count => { state := m, answer := (m.read start count).map .bytes }
  | .writeByte address b => m.settle (m.write address [b])
  | .write start bytes => m.settle (m.write start bytes)
  | .load program => m.settle (m.load program)

/-- Memory after some accesses, one after the other. -/
def afterAccesses (m : Memory) (history : List Access) : Memory :=
  history.foldl (fun m a => (m.access a).state) m

/-! ## The array -/

/-- Why so many bytes from an address on cannot be accessed, if they leave memory. The error tells
the first of them that does not exist, or where they start if that is behind memory already. -/
def outside? (start : UInt16) (count : Nat) : Option Error :=
  if start.toNat + count ≤ 4096 then none else some (.outsideMemory (max start.toNat 4096))

namespace Access

/-- The address of the first byte that an access covers. -/
def start : Access → UInt16
  | readByte address => address
  | readWord address => address
  | read start _ => start
  | writeByte address _ => address
  | write start _ => start
  | load _ => programStart

/-- How many bytes an access covers. -/
def count : Access → Nat
  | readByte _ => 1
  | readWord _ => 2
  | read _ count => count
  | writeByte _ _ => 1
  | write _ bytes => bytes.length
  | load program => program.length

/-- The bytes that an access writes, none if it reads. -/
def bytes : Access → List UInt8
  | writeByte _ b => [b]
  | write _ bytes => bytes
  | load program => program
  | _ => []

/-- Why an access is refused, if it is: a program is too large, or anything else leaves memory. -/
def refusal? : Access → Option Error
  | load program =>
    if program.length ≤ 3584 then none else some (.programTooLarge program.length 3584)
  | a => outside? a.start a.count

/-- The patch that an access puts in memory, unless it is refused. -/
def patch? (a : Access) : Option Patch :=
  match a.refusal? with
  | some _ => none
  | none => some ⟨a.start.toNat, a.bytes⟩

/-- What an access finds in an array of bytes. The high byte of a word comes first. -/
def value (cells : Nat → UInt8) : Access → Answer
  | readByte address => .byte (cells address.toNat)
  | readWord address =>
    .word (.ofNat (256 * (cells address.toNat).toNat + (cells (address.toNat + 1)).toNat))
  | read start count => .bytes ((List.range count).map fun k => cells (start.toNat + k))
  | _ => .done

end Access

/-- The byte that some accesses to a new memory have left at a position: the last one that was
written there, or else a byte of the font, or zero. -/
def written (history : List Access) (k : Nat) : UInt8 :=
  ((history.filterMap Access.patch?).filterMap (Patch.at? k)).getLast?.getD
    (Font.glyphs[k]?.getD 0)

/-! ## One access -/

/-- What lies in memory can be accessed. -/
theorem outside?_eq_none {start : UInt16} {count : Nat} :
    outside? start count = none ↔ start.toNat + count ≤ 4096 := by
  unfold outside?
  split
  · rename_i h
    exact iff_of_true rfl h
  · rename_i h
    exact iff_of_false nofun h

/-- What does not all lie in memory is refused for the first address that does not exist. -/
theorem outside?_eq_some {start : UInt16} {count : Nat} {e : Error} :
    outside? start count = some e ↔
      4096 < start.toNat + count ∧ e = .outsideMemory (max start.toNat 4096) := by
  unfold outside?
  split
  · rename_i h
    exact iff_of_false nofun fun hout => Nat.not_lt_of_le h hout.1
  · rename_i h
    rw [Option.some.injEq, and_iff_right (Nat.lt_of_not_le h), eq_comm]

/-- An access to a part of memory is refused if the part leaves memory. -/
theorem map_checkAccess {α : Type} (start : UInt16) (count : Nat) (f : Unit → α) :
    (checkAccess start count).map f =
      match outside? start count with
      | some e => .error e
      | none => .ok (f ()) := by
  have hsize : size = 4096 := rfl
  rw [checkAccess, outside?, hsize]
  split <;> rfl

/-- Reading the byte at an address is an access to a part of memory of that byte. -/
theorem readByte_eq (m : Memory) (address : UInt16) :
    m.readByte address =
      match outside? address 1 with
      | some e => .error e
      | none => .ok (m.byteAt address.toNat) := by
  rw [readByte, outside?, byteAt]
  by_cases h : address.toNat + 1 ≤ 4096
  · rw [if_pos h, Vector.getElem?_eq_getElem h]
    rfl
  · have hle : 4096 ≤ address.toNat := by omega
    rw [if_neg h, Vector.getElem?_eq_none hle, Nat.max_eq_left hle]

/-- Two bytes put together are a word. -/
theorem shiftLeft_or_eq (high low : UInt8) :
    high.toUInt16 <<< 8 ||| low.toUInt16 = UInt16.ofNat (256 * high.toNat + low.toNat) := by
  have hhigh := high.toNat_lt
  have hlow := low.toNat_lt
  have hshift : (high.toUInt16 <<< 8).toNat = high.toNat <<< 8 := by
    have height : UInt16.toNat 8 % 16 = 8 := rfl
    rw [UInt16.toNat_shiftLeft, UInt8.toNat_toUInt16, height, Nat.shiftLeft_eq]
    omega
  apply UInt16.toNat_inj.mp
  rw [UInt16.toNat_or, hshift, UInt8.toNat_toUInt16, ← Nat.shiftLeft_add_eq_or_of_lt hlow,
    UInt16.toNat_ofNat', Nat.shiftLeft_eq]
  omega

/-- Reading a word finds its two bytes, the high one first. -/
theorem readWord_eq (m : Memory) (address : UInt16) :
    m.readWord address =
      match outside? address 2 with
      | some e => .error e
      | none =>
        .ok (.ofNat (256 * (m.byteAt address.toNat).toNat +
          (m.byteAt (address.toNat + 1)).toNat)) := by
  rw [readWord, map_checkAccess, shiftLeft_or_eq]

/-- Writing bytes puts a patch in memory. -/
theorem write_eq (m : Memory) (start : UInt16) (bytes : List UInt8) :
    m.write start bytes =
      match outside? start bytes.length with
      | some e => .error e
      | none => .ok (m.patch ⟨start.toNat, bytes⟩) := by
  rw [write, map_checkAccess]
  rfl

/-- What an access does: it is refused, or it puts its bytes in memory and answers what it finds
there. -/
theorem access_eq (m : Memory) (a : Access) :
    m.access a =
      match a.refusal? with
      | some e => { state := m, answer := .error e }
      | none =>
        { state := m.patch ⟨a.start.toNat, a.bytes⟩, answer := .ok (a.value m.byteAt) } := by
  cases a with
  | readByte address =>
    have hrefusal : (Access.readByte address).refusal? = outside? address 1 := rfl
    rw [access, readByte_eq, hrefusal]
    cases outside? address 1 <;> rfl
  | readWord address =>
    have hrefusal : (Access.readWord address).refusal? = outside? address 2 := rfl
    rw [access, readWord_eq, hrefusal]
    cases outside? address 2 <;> rfl
  | read start count =>
    have hrefusal : (Access.read start count).refusal? = outside? start count := rfl
    rw [access, read, map_checkAccess, hrefusal]
    cases outside? start count <;> rfl
  | writeByte address b =>
    have hrefusal : (Access.writeByte address b).refusal? = outside? address [b].length := rfl
    rw [access, write_eq, hrefusal]
    cases outside? address [b].length <;> rfl
  | write start bytes =>
    have hrefusal : (Access.write start bytes).refusal? = outside? start bytes.length := rfl
    rw [access, write_eq, hrefusal]
    cases outside? start bytes.length <;> rfl
  | load program =>
    have hlimit : programLimit = 3584 := rfl
    rw [access, load, Access.refusal?, hlimit]
    by_cases h : program.length ≤ 3584
    · -- A program that is not too large lies in memory.
      have hinside : programStart.toNat + program.length ≤ 4096 := by
        have hstart : programStart.toNat = 512 := rfl
        omega
      rw [if_pos h, if_pos h, write_eq, outside?, if_pos hinside]
      rfl
    · rw [if_neg h, if_neg h]
      rfl

/-! ## Histories of accesses -/

/-- Memory after some accesses is memory before them under their patches. -/
theorem afterAccesses_eq (m : Memory) (history : List Access) :
    m.afterAccesses history = (history.filterMap Access.patch?).foldl patch m := by
  induction history generalizing m with
  | nil => rfl
  | cons a rest ih =>
    show (m.access a).state.afterAccesses rest = _
    rw [ih, access_eq]
    cases h : a.refusal? with
    | some e =>
      have hpatch : a.patch? = none := by rw [Access.patch?, h]
      rw [List.filterMap_cons_none hpatch]
    | none =>
      have hpatch : a.patch? = some ⟨a.start.toNat, a.bytes⟩ := by rw [Access.patch?, h]
      rw [List.filterMap_cons_some hpatch, List.foldl_cons]

/-- A new memory holds after some accesses what they have written. -/
theorem byteAt_afterAccesses (history : List Access) {k : Nat} (hk : k < 4096) :
    (initial.afterAccesses history).byteAt k = written history k := by
  rw [afterAccesses_eq, byteAt_foldl_patch _ _ hk, byteAt_initial hk, written]

/-- What an access that is not refused finds in an array depends on the bytes up to the size of
memory only. -/
theorem Access.value_congr {a : Access} (h : a.refusal? = none) {cells others : Nat → UInt8}
    (agree : ∀ k, k < 4096 → cells k = others k) : a.value cells = a.value others := by
  cases a with
  | readByte address =>
    have hle : address.toNat + 1 ≤ 4096 := outside?_eq_none.mp h
    rw [value, value, agree _ (by omega)]
  | readWord address =>
    have hle : address.toNat + 2 ≤ 4096 := outside?_eq_none.mp h
    rw [value, value, agree address.toNat (by omega), agree (address.toNat + 1) (by omega)]
  | read start count =>
    have hle : start.toNat + count ≤ 4096 := outside?_eq_none.mp h
    have hbytes : (List.range count).map (fun k => cells (start.toNat + k)) =
        (List.range count).map fun k => others (start.toNat + k) := by
      refine List.map_congr_left fun k hk => agree _ ?_
      have hlt := List.mem_range.mp hk
      omega
    rw [value, value, hbytes]
  | _ => rfl

/-! ## Bytes one by one -/

/-- An access is refused for an address that does not exist only if it leaves memory, and then for
the first such address. -/
theorem Access.bounds_of_refusal? {a : Access} {e : Nat}
    (h : a.refusal? = some (.outsideMemory e)) :
    4096 < a.start.toNat + a.count ∧ e = max a.start.toNat 4096 := by
  have hbounds {start : UInt16} {count : Nat} (h : outside? start count = some (.outsideMemory e)) :
      4096 < start.toNat + count ∧ e = max start.toNat 4096 := by
    obtain ⟨hlt, he⟩ := outside?_eq_some.mp h
    exact ⟨hlt, Error.outsideMemory.inj he⟩
  cases a with
  | load program =>
    rw [refusal?] at h
    split at h <;> cases h
  | _ => exact hbounds h

/-- An access to one byte is refused if the byte does not exist. -/
theorem Access.refusal?_of_count_one {one : Access} (h : one.count = 1) :
    one.refusal? = outside? one.start 1 := by
  cases one with
  | load program =>
    have hfits : program.length ≤ 3584 := Nat.le_trans (Nat.le_of_eq h) (by omega)
    rw [refusal?, if_pos hfits]
    rfl
  | readWord address => cases h
  | readByte address => rfl
  | writeByte address b => rfl
  | read start count =>
    have hone : count = 1 := h
    rw [hone]
    rfl
  | write start bytes =>
    have hone : bytes.length = 1 := h
    show outside? start bytes.length = outside? start 1
    rw [hone]

/-- An access is answered with an error exactly if it is refused with that. -/
theorem answer_eq_error_iff (m : Memory) (a : Access) (e : Error) :
    (m.access a).answer = .error e ↔ a.refusal? = some e := by
  rw [access_eq]
  cases a.refusal? with
  | none => exact iff_of_false nofun nofun
  | some e' => exact ⟨fun h => congrArg some (Except.error.inj h), fun h => by cases h; rfl⟩

/-- An access that is not refused succeeds. -/
theorem exists_answer_of_fits (m : Memory) {a : Access} (h : a.refusal? = none) :
    ∃ v, (m.access a).answer = .ok v := by
  rw [access_eq, h]
  exact ⟨_, rfl⟩

/-- An access that leaves memory is refused for the first byte of it that could not be accessed on
its own either. -/
theorem first_missing_byte (m : Memory) {a : Access} {e : Nat}
    (h : a.refusal? = some (.outsideMemory e)) {one : Access} (single : one.count = 1) :
    (one.start.toNat = e → (m.access one).answer = .error (.outsideMemory e)) ∧
      (a.start.toNat ≤ one.start.toNat → one.start.toNat < e →
        ∃ v, (m.access one).answer = .ok v) := by
  obtain ⟨-, he⟩ := Access.bounds_of_refusal? h
  have hone := Access.refusal?_of_count_one single
  refine ⟨fun hstart => ?_, fun hfrom hbefore => ?_⟩
  · rw [answer_eq_error_iff, hone, outside?_eq_some, hstart]
    have hmax : max e 4096 = e := Nat.max_eq_left (by omega)
    exact ⟨by omega, by rw [hmax]⟩
  · -- If the access starts behind memory there is nothing of it before its start.
    refine exists_answer_of_fits m ?_
    rw [hone, outside?_eq_none]
    omega

/-- Reading one byte as a list is reading it on its own. -/
theorem read_one (m : Memory) (address : UInt16) :
    m.read address 1 = (m.readByte address).map fun b => [b] := by
  rw [read, map_checkAccess, readByte_eq]
  cases outside? address 1 <;> rfl

/-- Reading a word is reading its high byte, and then its low byte behind that. -/
theorem readWord_eq_readByte (m : Memory) (address : UInt16) :
    m.readWord address =
      match m.readByte address, m.readByte (address + 1) with
      | .error e, _ => .error e
      | .ok _, .error e => .error e
      | .ok high, .ok low => .ok (.ofNat (256 * high.toNat + low.toNat)) := by
  have hone : (1 : UInt16).toNat = 1 := rfl
  rw [readWord_eq, readByte_eq, readByte_eq]
  by_cases hfirst : address.toNat + 1 ≤ 4096
  · have hnext : (address + 1).toNat = address.toNat + 1 := by
      rw [UInt16.toNat_add, hone]
      omega
    rw [outside?_eq_none.mpr hfirst]
    by_cases hboth : address.toNat + 2 ≤ 4096
    · have hsecond : outside? (address + 1) 1 = none := outside?_eq_none.mpr (by omega)
      rw [outside?_eq_none.mpr hboth, hsecond, hnext]
    · -- The word starts at the last byte of memory, so that its second half is missing.
      have hword : outside? address 2 = some (.outsideMemory 4096) :=
        outside?_eq_some.mpr ⟨by omega, congrArg Error.outsideMemory (by omega)⟩
      have hsecond : outside? (address + 1) 1 = some (.outsideMemory 4096) :=
        outside?_eq_some.mpr ⟨by omega, congrArg Error.outsideMemory (by omega)⟩
      rw [hword, hsecond]
  · have hlt : 4096 < address.toNat + 1 := Nat.lt_of_not_le hfirst
    rw [outside?_eq_some.mpr ⟨Nat.lt_succ_of_lt hlt, rfl⟩, outside?_eq_some.mpr ⟨hlt, rfl⟩]

/-- A new memory is an array of 4096 bytes under any accesses. An access that lies in the array finds
what was written there last, or the font and the zeros that memory starts with, and a program is
loaded if it has at most 3584 bytes. Any other access is refused, and what is refused or only reads
changes nothing. An access is refused for the first of its bytes at which an access to each of them
in turn would be. Whether a byte is read on its own, as a list of one, or as the half of a word makes
no difference. -/
theorem bounded_array_under_accesses :
    (∀ (history : List Access) (a : Access),
      let m := initial.afterAccesses history
      (m.access a).answer =
          (match a.refusal? with
          | some e => .error e
          | none => .ok (a.value (written history))) ∧
        (a.refusal? ≠ none ∨ a.bytes = [] → (m.access a).state = m)) ∧
    (∀ (m : Memory) (a : Access) (e : Nat), (m.access a).answer = .error (.outsideMemory e) →
      1 ≤ a.count →
      e < 65536 ∧ a.start.toNat ≤ e ∧ e < a.start.toNat + a.count ∧
      ∀ one : Access, one.count = 1 →
        (one.start.toNat = e → (m.access one).answer = .error (.outsideMemory e)) ∧
        (a.start.toNat ≤ one.start.toNat → one.start.toNat < e →
          ∃ v, (m.access one).answer = .ok v)) ∧
    ∀ (m : Memory) (address : UInt16),
      m.read address 1 = (m.readByte address).map (fun b => [b]) ∧
      m.readWord address =
        match m.readByte address, m.readByte (address + 1) with
        | .error e, _ => .error e
        | .ok _, .error e => .error e
        | .ok high, .ok low => .ok (.ofNat (256 * high.toNat + low.toNat)) := by
  refine ⟨fun history a => ?_, fun m a e herror hcount => ?_,
    fun m address => ⟨m.read_one address, m.readWord_eq_readByte address⟩⟩
  · intro m
    rw [access_eq]
    cases h : a.refusal? with
    | some e => exact ⟨rfl, fun _ => rfl⟩
    | none =>
      have hvalue : a.value m.byteAt = a.value (written history) :=
        Access.value_congr h fun k hk => byteAt_afterAccesses history hk
      refine ⟨by rw [hvalue], fun hreads => ?_⟩
      rw [hreads.resolve_left (fun hne => hne rfl)]
      exact patch_nil m _
  · have hrefusal := (answer_eq_error_iff m a _).mp herror
    obtain ⟨hlt, he⟩ := Access.bounds_of_refusal? hrefusal
    have hstart := a.start.toNat_lt
    exact ⟨by omega, by omega, by omega, fun one => first_missing_byte m hrefusal⟩

/-- A program over which two bytes are written, of which the second is read as the high byte of a
word, and another one for its low byte. Three bytes do not fit at the end of memory. They are refused
for the third of them, and the first is not written either. -/
theorem word_over_two_writes :
    let beyond : Access := .write 0xFFE [1, 2, 3]
    let history : List Access :=
      [.load [0x12, 0x34, 0x56], beyond, .writeByte 0x201 0x78, .write 0x1FF [0x09, 0x08]]
    let m := initial.afterAccesses history
    (m.access (.readWord 0x200)).answer = .ok (.word 0x0878) ∧
    (beyond.refusal? ≠ none ∧ (m.access beyond).state = m ∧
      (m.access (.readByte 0xFFE)).answer = .ok (.byte 0)) ∧
    (m.access beyond).answer = .error (.outsideMemory 0x1000) ∧ 1 ≤ beyond.count ∧
      (∃ v, (m.access (.writeByte 0xFFF 2)).answer = .ok v) ∧
      (m.access (.writeByte 0x1000 3)).answer = .error (.outsideMemory 0x1000) := by
  intro beyond history m
  obtain ⟨harray, hfirst, -⟩ := bounded_array_under_accesses
  have hrefused : beyond.refusal? ≠ none := by decide
  have hbeyond := harray history beyond
  have hword : Access.value (written history) (.readWord 0x200) = .word 0x0878 := by
    decide +kernel
  have hbyte : Access.value (written history) (.readByte 0xFFE) = .byte 0 := by decide +kernel
  have hcount : 1 ≤ beyond.count := by decide
  have herror : (m.access beyond).answer = .error (.outsideMemory 0x1000) := hbeyond.1
  obtain ⟨-, -, -, hsingle⟩ := hfirst m beyond 0x1000 herror hcount
  have hinside := (hsingle (.writeByte 0xFFF 2) rfl).2 (by decide) (by decide)
  have hbehind := (hsingle (.writeByte 0x1000 3) rfl).1 rfl
  exact ⟨(harray history (.readWord 0x200)).1.trans (congrArg Except.ok hword),
    ⟨hrefused, hbeyond.2 (.inl hrefused),
      (harray history (.readByte 0xFFE)).1.trans (congrArg Except.ok hbyte)⟩,
    herror, hcount, hinside, hbehind⟩

end Chip8.Memory
