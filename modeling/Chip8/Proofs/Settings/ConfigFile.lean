import Chip8.Proofs.Json.Documents
import Chip8.Settings.Resolve
import Mathlib.Data.List.Nodup

/-!
# Config files round-trip

A config file renders settings as a JSON object: each known key occurs once at most, with the value
that the settings have for it (`File.value`), and a known key that is left out has its default.
Other keys may stand anywhere among them, with any values, and the object may be written in any way
(`Json.Value.WrittenBy`). `config_files_round_trip` says that a config file loads as some settings
exactly if it renders them, so it is refused if a known key occurs twice or has a value of the wrong
kind.

To set a key changes what the settings say for this key and nothing else (`set?_eq_some_iff`). A
file is read as these changes, one after the other (`setAll?_eq_some_iff`).
-/

namespace Chip8

/-- The value that a number is. -/
def Json.Value.ofWord (n : UInt32) : Json.Value :=
  .scalar (.number (Nat.toDigits 10 n.toNat))

/-- The value that a text is, or null if there is none. -/
def Json.Value.ofOptionalText : Option String → Json.Value
  | none => .scalar .null
  | some text => .scalar (.string (some text))

namespace Settings

/-- The value that settings have for a known key. -/
def File.value (f : File) : Field → Json.Value
  | .showBindings => .scalar (.bool f.showBindings)
  | .rom => .ofOptionalText f.rom
  | .clockHz => .ofWord f.clockHz
  | .timerHz => .ofWord f.timerHz
  | .scale => .ofWord f.scale
  | .console => .scalar (.bool f.console)
  | .mute => .scalar (.bool f.mute)

/-- The members of an object render settings. -/
structure File.RenderedBy (f : File) (members : List Json.Member) : Prop where
  /-- Every key is a text. -/
  keys : ∀ m ∈ members, m.1 ≠ none
  /-- A known key occurs once at most. -/
  once : ∀ field : Field, (members.map Prod.fst).count (some field.name) ≤ 1
  /-- A known key has the value that the settings have for it. -/
  agrees : ∀ (field : Field) (v : Json.Value), (some field.name, v) ∈ members → v = f.value field
  /-- A known key that is left out has its default. -/
  omitted : ∀ field : Field, some field.name ∉ members.map Prod.fst →
    f.value field = (default : File).value field

/-- The members of an object are no settings. -/
inductive Flawed (members : List Json.Member) : Prop where
  /-- A known key occurs twice. -/
  | repeated (field : Field) (h : 1 < (members.map Prod.fst).count (some field.name))
  /-- A known key has a value that no settings have for it. -/
  | wrongKind (field : Field) (v : Json.Value) (hmem : (some field.name, v) ∈ members)
      (h : ∀ f : File, v ≠ f.value field)

/-! ## Values -/

end Settings

namespace Json.Value

/-- A value is not a number with an impossible writing. -/
def Sound (v : Value) : Prop :=
  ∀ literal, v = .scalar (.number literal) → IsLiteral literal

variable {v : Value}

/-- The truth values. -/
theorem bool?_eq_some_iff {b : Bool} : v.bool? = some b ↔ v = .scalar (.bool b) := by
  constructor
  · intro h
    unfold bool? at h
    split at h
    · rw [Option.some.inj h]
    · cases h
  · rintro rfl
    rfl

/-- The texts, and null. -/
theorem optionalText?_eq_some_iff {text : Option String} :
    v.optionalText? = some text ↔ v = ofOptionalText text := by
  constructor
  · intro h
    unfold optionalText? at h
    split at h
    · rw [← Option.some.inj h, ofOptionalText]
    · rw [← Option.some.inj h, ofOptionalText]
    · cases h
  · rintro rfl
    cases text <;> rfl

/-- The numbers that are written with digits only. -/
theorem natural?_eq_some_iff {n : Nat} (sound : v.Sound) :
    v.natural? = some n ↔ v = .scalar (.number (Nat.toDigits 10 n)) := by
  constructor
  · intro h
    unfold natural? at h
    split at h
    case h_2 => cases h
    case h_1 literal =>
      split at h
      case isFalse => cases h
      case isTrue hdigits =>
        obtain ⟨m, rfl⟩ := (sound literal rfl).eq_toDigits (List.all_eq_true.mp hdigits)
        rw [Nat.ofDigitChars_ten_toDigits] at h
        rw [Option.some.inj h]
  · rintro rfl
    rw [natural?, if_pos (List.all_eq_true.mpr (isDigits_toDigits n).2),
      Nat.ofDigitChars_ten_toDigits]

/-- The 32-bit numbers. -/
theorem word?_eq_some_iff {n : UInt32} (sound : v.Sound) : v.word? = some n ↔ v = ofWord n := by
  rw [word?, Option.bind_eq_some_iff]
  simp only [natural?_eq_some_iff sound]
  constructor
  · rintro ⟨m, rfl, h⟩
    split at h
    case isTrue hm => rw [← Option.some.inj h, ofWord, UInt32.toNat_ofNat_of_lt' hm]
    case isFalse => cases h
  · rintro rfl
    exact ⟨n.toNat, rfl, by rw [if_pos n.toNat_lt_size, UInt32.ofNat_toNat]⟩

/-- Different numbers are different values. -/
theorem ofWord_inj {m n : UInt32} (h : ofWord m = ofWord n) : m = n := by
  have hdigits : Nat.toDigits 10 m.toNat = Nat.toDigits 10 n.toNat := by
    injection h with h
    injection h
  have hvalue := congrArg (Nat.ofDigitChars 10 · 0) hdigits
  simp only [Nat.ofDigitChars_ten_toDigits] at hvalue
  exact UInt32.toNat_inj.mp hvalue

/-- Different texts are different values. -/
theorem ofOptionalText_inj {s t : Option String} (h : ofOptionalText s = ofOptionalText t) :
    s = t := by
  have hs := optionalText?_eq_some_iff.mpr h
  cases s <;> exact Option.some.inj hs

end Json.Value

namespace Settings

namespace File

/-- Settings with the same values for all known keys are the same. -/
theorem ext_value {f g : File} (h : ∀ field, f.value field = g.value field) : f = g := by
  have hbool {a b : Bool} (hab : Json.Value.scalar (.bool a) = .scalar (.bool b)) : a = b := by
    injection hab with hab
    injection hab
  obtain ⟨⟩ := f
  obtain ⟨⟩ := g
  congr
  · exact hbool (h .showBindings)
  · exact Json.Value.ofOptionalText_inj (h .rom)
  · exact Json.Value.ofWord_inj (h .clockHz)
  · exact Json.Value.ofWord_inj (h .timerHz)
  · exact Json.Value.ofWord_inj (h .scale)
  · exact hbool (h .console)
  · exact hbool (h .mute)

/-- Settings with the value that others have for a known key. -/
def put (f g : File) : Field → File
  | .showBindings => { f with showBindings := g.showBindings }
  | .rom => { f with rom := g.rom }
  | .clockHz => { f with clockHz := g.clockHz }
  | .timerHz => { f with timerHz := g.timerHz }
  | .scale => { f with scale := g.scale }
  | .console => { f with console := g.console }
  | .mute => { f with mute := g.mute }

/-- Putting a value into settings changes it and no other one. -/
theorem value_put (f g : File) (field other : Field) :
    (f.put g field).value other = if other = field then g.value field else f.value other := by
  cases field <;> cases other <;> rfl

section Set

variable {f g : File} {v : Json.Value}

/-- A key whose values are read one to one is set to its value, and nothing else changes. -/
theorem map_change_eq_some_iff {α : Type} {read : Option α} {change : α → File}
    {write : α → Json.Value} {field : Field} (hread : ∀ a, read = some a ↔ v = write a)
    (hchange : ∀ a other, (change a).value other = if other = field then write a else f.value other)
    (hwrite : ∃ a, g.value field = write a) :
    read.map change = some g ↔
      ∀ other, g.value other = if other = field then v else f.value other := by
  rw [Option.map_eq_some_iff]
  constructor
  · rintro ⟨a, ha, rfl⟩ other
    rw [hchange, (hread a).mp ha]
  · intro h
    obtain ⟨a, ha⟩ := hwrite
    obtain rfl : v = write a := by
      rw [← ha, h, if_pos rfl]
    exact ⟨a, (hread a).mpr rfl, ext_value fun other => (hchange a other).trans (h other).symm⟩

/-- To set a key gives the settings that have the value for it and are otherwise the same, if there
are such settings. -/
theorem set?_eq_some_iff {field : Field} (sound : v.Sound) :
    f.set? field v = some g ↔
      ∀ other, g.value other = if other = field then v else f.value other := by
  cases field with
  | showBindings =>
    exact map_change_eq_some_iff (fun _ => Json.Value.bool?_eq_some_iff)
      (fun _ other => by cases other <;> rfl) ⟨g.showBindings, rfl⟩
  | rom =>
    exact map_change_eq_some_iff (fun _ => Json.Value.optionalText?_eq_some_iff)
      (fun _ other => by cases other <;> rfl) ⟨g.rom, rfl⟩
  | clockHz =>
    exact map_change_eq_some_iff (fun _ => Json.Value.word?_eq_some_iff sound)
      (fun _ other => by cases other <;> rfl) ⟨g.clockHz, rfl⟩
  | timerHz =>
    exact map_change_eq_some_iff (fun _ => Json.Value.word?_eq_some_iff sound)
      (fun _ other => by cases other <;> rfl) ⟨g.timerHz, rfl⟩
  | scale =>
    exact map_change_eq_some_iff (fun _ => Json.Value.word?_eq_some_iff sound)
      (fun _ other => by cases other <;> rfl) ⟨g.scale, rfl⟩
  | console =>
    exact map_change_eq_some_iff (fun _ => Json.Value.bool?_eq_some_iff)
      (fun _ other => by cases other <;> rfl) ⟨g.console, rfl⟩
  | mute =>
    exact map_change_eq_some_iff (fun _ => Json.Value.bool?_eq_some_iff)
      (fun _ other => by cases other <;> rfl) ⟨g.mute, rfl⟩

/-- To set keys, none of them twice, gives the settings that have the values for them and are
otherwise the same, if there are such settings. -/
theorem setAll?_eq_some_iff {entries : List (Field × Json.Value)}
    (sound : ∀ e ∈ entries, e.2.Sound) (once : (entries.map Prod.fst).Nodup) :
    f.setAll? entries = some g ↔ (∀ e ∈ entries, e.2 = g.value e.1) ∧
      ∀ field, field ∉ entries.map Prod.fst → g.value field = f.value field := by
  induction entries generalizing f with
  | nil =>
    constructor
    · intro h
      cases h
      exact ⟨nofun, fun _ _ => rfl⟩
    · rintro ⟨-, h⟩
      exact congrArg some (ext_value fun field => (h field List.not_mem_nil).symm)
  | cons e rest ih =>
    obtain ⟨hsound, hrest⟩ := List.forall_mem_cons.mp sound
    obtain ⟨hfresh, honce⟩ := List.nodup_cons.mp once
    have hstep : f.setAll? (e :: rest) = some g ↔
        ∃ h, f.set? e.1 e.2 = some h ∧ h.setAll? rest = some g := Option.bind_eq_some_iff
    simp only [hstep, set?_eq_some_iff hsound, ih hrest honce]
    rw [List.forall_mem_cons, List.map_cons]
    constructor
    · rintro ⟨h, hset, hagrees, hothers⟩
      -- What is set first stays, since no later entry has the same key.
      refine ⟨⟨?_, hagrees⟩, fun field hfield => ?_⟩
      · rw [hothers _ hfresh, hset, if_pos rfl]
      · obtain ⟨hne, hbehind⟩ := List.ne_and_not_mem_of_not_mem_cons hfield
        rw [hothers _ hbehind, hset, if_neg hne]
    · rintro ⟨⟨hfirst, hagrees⟩, hothers⟩
      -- In between are settings with the first value of `g` and otherwise still those of `f`.
      refine ⟨f.put g e.1, fun other => ?_, hagrees, fun field hfield => ?_⟩
      · rw [hfirst]
        exact f.value_put g e.1 other
      · rw [value_put]
        split
        case isTrue heq => rw [heq]
        case isFalse hne => exact hothers field (List.not_mem_cons_of_ne_of_not_mem hne hfield)

end Set

end File

/-! ## Members -/

namespace Field

/-- The spelling of a known key belongs to it alone. -/
theorem ofName?_eq_some_iff {spelling : String} {field : Field} :
    ofName? spelling = some field ↔ spelling = field.name := by
  constructor
  · intro h
    have hname := List.find?_some h
    exact (beq_iff_eq.mp hname).symm
  · rintro rfl
    cases field <;> decide

end Field

namespace File

/-- A member with a text for its key. -/
def spelled (m : String × Json.Value) : Json.Member :=
  (some m.1, m.2)

/-- The keys of members are read if all of them have a text. -/
theorem mapM_spelled?_eq_some_iff {members : List Json.Member}
    {named : List (String × Json.Value)} :
    members.mapM spelled? = some named ↔ members = named.map spelled := by
  induction members generalizing named with
  | nil =>
    cases named with
    | nil => exact iff_of_true rfl rfl
    | cons m rest => exact iff_of_false nofun nofun
  | cons m rest ih =>
    rw [List.mapM_cons]
    obtain ⟨key, v⟩ := m
    cases key with
    | none =>
      refine iff_of_false nofun fun h => ?_
      cases named with
      | nil => cases h
      | cons n others => cases (List.cons.inj h).1
    | some key =>
      show (rest.mapM spelled?).bind (fun others => some ((key, v) :: others)) = some named ↔ _
      rw [Option.bind_eq_some_iff]
      simp only [ih]
      constructor
      · rintro ⟨others, rfl, h⟩
        cases h
        rfl
      · intro h
        cases named with
        | nil => cases h
        | cons n others =>
          obtain ⟨hn, hothers⟩ := List.cons.inj h
          cases hn
          exact ⟨others, hothers, rfl⟩

/-- The entry of a member has its known key. -/
theorem known?_eq_some_iff {m : String × Json.Value} {field : Field} {v : Json.Value} :
    known? m = some (field, v) ↔ m = (field.name, v) := by
  rw [known?, Option.map_eq_some_iff]
  simp only [Field.ofName?_eq_some_iff]
  constructor
  · rintro ⟨other, hname, h⟩
    cases h
    exact Prod.ext hname rfl
  · rintro rfl
    exact ⟨field, rfl, rfl⟩

section Named

variable {named : List (String × Json.Value)}

/-- The entries are the members with known keys. -/
theorem mem_filterMap_known? {field : Field} {v : Json.Value} :
    (field, v) ∈ named.filterMap known? ↔ (some field.name, v) ∈ named.map spelled := by
  simp only [List.mem_filterMap, known?_eq_some_iff, List.mem_map]
  constructor
  · rintro ⟨m, hm, rfl⟩
    exact ⟨_, hm, rfl⟩
  · rintro ⟨⟨key, w⟩, hm, h⟩
    cases h
    exact ⟨_, hm, rfl⟩

/-- A known key occurs in the entries as often as in the members. -/
theorem count_filterMap_known? (field : Field) :
    ((named.filterMap known?).map Prod.fst).count field =
      ((named.map spelled).map Prod.fst).count (some field.name) := by
  have hfield (m : String × Json.Value) : (known? m).map Prod.fst = Field.ofName? m.1 := by
    rw [known?, Option.map_map]
    exact Option.map_id'
  -- Both sides count the members whose key is spelled like the known one.
  rw [List.map_filterMap, List.count_filterMap, List.map_map, List.count, List.countP_map]
  refine List.countP_congr fun m _ => ?_
  rw [hfield, beq_iff_eq, Field.ofName?_eq_some_iff]
  exact beq_iff_eq.trans Option.some_inj |>.symm

/-- Members render the settings that their entries set, if none is set twice. -/
theorem renderedBy_iff {f : File} (sound : ∀ m ∈ named.map spelled, m.2.Sound) :
    f.RenderedBy (named.map spelled) ↔ ((named.filterMap known?).map Prod.fst).Nodup ∧
      setAll? default (named.filterMap known?) = some f := by
  have hsound : ∀ e ∈ named.filterMap known?, e.2.Sound :=
    fun e he => sound _ (mem_filterMap_known?.mp he)
  have homitted (field : Field) : field ∉ (named.filterMap known?).map Prod.fst ↔
      some field.name ∉ (named.map spelled).map Prod.fst := by
    rw [← List.count_eq_zero, ← List.count_eq_zero, count_filterMap_known?]
  have honce : ((named.filterMap known?).map Prod.fst).Nodup ↔
      ∀ field : Field, ((named.map spelled).map Prod.fst).count (some field.name) ≤ 1 := by
    rw [List.nodup_iff_count_le_one]
    simp only [count_filterMap_known?]
  constructor
  · intro h
    have hnodup := honce.mpr h.once
    refine ⟨hnodup, (setAll?_eq_some_iff hsound hnodup).mpr ⟨?_, fun field hfield => ?_⟩⟩
    · exact fun e he => h.agrees e.1 e.2 (mem_filterMap_known?.mp he)
    · exact h.omitted field ((homitted field).mp hfield)
  · rintro ⟨hnodup, hset⟩
    obtain ⟨hagrees, hothers⟩ := (setAll?_eq_some_iff hsound hnodup).mp hset
    refine ⟨?_, honce.mp hnodup, fun field v hmem => ?_, fun field hfield => ?_⟩
    · rintro m hm heq
      obtain ⟨n, -, rfl⟩ := List.mem_map.mp hm
      cases heq
    · exact hagrees (field, v) (mem_filterMap_known?.mpr hmem)
    · exact hothers field ((homitted field).mpr hfield)

end Named

/-- Members whose keys are texts have them. -/
theorem exists_named {members : List Json.Member} (h : ∀ m ∈ members, m.1 ≠ none) :
    ∃ named : List (String × Json.Value), members = named.map spelled := by
  induction members with
  | nil => exact ⟨[], rfl⟩
  | cons m rest ih =>
    obtain ⟨hm, hrest⟩ := List.forall_mem_cons.mp h
    obtain ⟨named, rfl⟩ := ih hrest
    obtain ⟨key, hkey⟩ := Option.ne_none_iff_exists'.mp hm
    exact ⟨(key, m.2) :: named, List.cons_eq_cons.mpr ⟨Prod.ext hkey rfl, rfl⟩⟩

/-- The members of an object are read as the settings that they render. -/
theorem ofMembers?_eq_some_iff {f : File} {members : List Json.Member}
    (sound : ∀ m ∈ members, m.2.Sound) : ofMembers? members = some f ↔ f.RenderedBy members := by
  rw [ofMembers?, entries?, Option.bind_eq_some_iff]
  simp only [Option.map_eq_some_iff, mapM_spelled?_eq_some_iff]
  constructor
  · rintro ⟨_, ⟨named, rfl, rfl⟩, h⟩
    split at h
    case isTrue hnodup => exact (renderedBy_iff sound).mpr ⟨hnodup, h⟩
    case isFalse => cases h
  · intro h
    obtain ⟨named, rfl⟩ := exists_named h.keys
    obtain ⟨hnodup, hset⟩ := (renderedBy_iff sound).mp h
    exact ⟨_, ⟨named, rfl, rfl⟩, (if_pos hnodup).trans hset⟩

end File

/-! ## Documents -/

/-- What has a value that no settings have, or a known key twice, renders no settings. -/
theorem Flawed.not_renderedBy {members : List Json.Member} (h : Flawed members) (f : File) :
    ¬f.RenderedBy members := by
  intro hf
  cases h with
  | repeated field h => exact absurd (hf.once field) (Nat.not_le.mpr h)
  | wrongKind field v hmem h => exact h f (hf.agrees field v hmem)

/-- The text of a file is what it was written with. -/
theorem Directory.readText_eq {files : Directory} {path text : String}
    (h : files path = .ok text.toUTF8) : files.readText path = .ok text := by
  have htext : String.fromUTF8? text.toUTF8 = some text := dif_pos text.isValidUTF8
  rw [Directory.readText, h]
  dsimp only
  rw [htext]

section Document

variable {files : Directory} {path text : String} {members : List Json.Member}

/-- A file with the text of an object is read as the members of the object are. -/
theorem File.load_eq (there : files path = .ok text.toUTF8)
    (written : (Json.Value.object members).WrittenBy text) :
    File.load files path = match File.ofMembers? members with
      | some file => .ok file
      | none => .error (.malformed path) := by
  rw [File.load, Directory.readText_eq there]
  dsimp only
  rw [File.parse?, Json.Value.parse?_of_writtenBy written]
  rfl

end Document

/-- A file with the text of an object loads as some settings exactly if the object renders them, in
whichever way it is written. So it is refused if a known key occurs twice or has a value of the
wrong kind. -/
theorem config_files_round_trip (files : Directory) (path text : String)
    (members : List Json.Member) (there : files path = .ok text.toUTF8)
    (written : (Json.Value.object members).WrittenBy text) :
    (∀ f : File, File.load files path = .ok f ↔ f.RenderedBy members) ∧
      (Flawed members → File.load files path = .error (.malformed path)) := by
  have hsound : ∀ m ∈ members, m.2.Sound := by
    rintro ⟨key, v⟩ hm literal rfl
    exact written.isLiteral hm
  have hload := File.load_eq there written
  have hrendered (f : File) : File.load files path = .ok f ↔ f.RenderedBy members := by
    rw [← File.ofMembers?_eq_some_iff hsound, hload]
    cases File.ofMembers? members with
    | some g => exact ⟨fun h => congrArg some (Except.ok.inj h), fun h => congrArg Except.ok
        (Option.some.inj h)⟩
    | none => exact iff_of_false nofun nofun
  refine ⟨hrendered, fun h => ?_⟩
  cases hmembers : File.ofMembers? members with
  | some g =>
    rw [hmembers] at hload
    exact absurd ((hrendered g).mp hload) (h.not_renderedBy g)
  | none =>
    rw [hmembers] at hload
    exact hload

/-- A document with half of a surrogate pair below an unknown key, with escapes in a known key and
in the path, and with blanks in some places. Next to it a document with the least number that is out
of range. -/
theorem escaped_path_and_scale_out_of_range :
    let f : File := { rom := some "\"😀", scale := 7 }
    let members : List Json.Member :=
      [(some "x", .array [.scalar .null, .scalar (.string none)]),
        (some "SCALE", .scalar (.number ['7'])), (some "FILE_PATH", .scalar (.string (some "\"😀")))]
    let text :=
      "\x7b\"x\":[null,\"\\ud83d\"],\n\"SC\\u0041LE\" : 7,\"FILE_PATH\":\"\\\"\\uD83D\\ude00\"\x7d"
    let flawed : List Json.Member :=
      [(some "SCALE", .scalar (.number ['4', '2', '9', '4', '9', '6', '7', '2', '9', '6']))]
    let other := "\x7b\"SCALE\":4294967296\x7d"
    let files : Directory := fun path => .ok (if path = "a" then text else other).toUTF8
    (files "a" = .ok text.toUTF8 ∧ (Json.Value.object members).WrittenBy text ∧
        f.RenderedBy members ∧ File.load files "a" = .ok f) ∧
      files "b" = .ok other.toUTF8 ∧ (Json.Value.object flawed).WrittenBy other ∧
        Flawed flawed ∧ File.load files "b" = .error (.malformed "b") := by
  intro f members text flawed other files
  have hwritten : (Json.Value.object members).WrittenBy text := by
    have htext : text.toList = ['\x7b'] ++ (('"' :: ("x".toList ++ ['"'])) ++ ([':'] ++ (['['] ++
        (['n', 'u', 'l', 'l'] ++ ([','] ++ (('"' :: ("\\ud83d".toList ++ ['"'])) ++ ([']'] ++
        ([','] ++ ('\n' :: (('"' :: ("SC\\u0041LE".toList ++ ['"'])) ++ (' ' :: ([':'] ++ (' ' ::
        (['7'] ++ ([','] ++ (('"' :: ("FILE_PATH".toList ++ ['"'])) ++ ([':'] ++
        (('"' :: ("\\\"\\uD83D\\ude00".toList ++ ['"'])) ++ (['\x7d'] ++ []))))))))))))))))))) := by
      decide
    have hlone := Json.Quoted.isText_characters?
      (show ∀ p ∈ [Json.Quoted.Piece.surrogate 0xD83D], p.Sound from
        List.forall_mem_singleton.mpr (.inl rfl))
    have hhalf : Json.Token.Spells (.scalar (.string none)) ('"' :: ("\\ud83d".toList ++ ['"'])) :=
      .string (.unit (by decide) (by decide) (by decide) (by decide) .done) hlone
    have hkey : Json.Token.Spells (.scalar (.string (some "SCALE")))
        ('"' :: ("SC\\u0041LE".toList ++ ['"'])) :=
      .string (.plain (by decide) (by decide) (by decide) <| .plain (by decide) (by decide)
        (by decide) <| .unit (by decide) (by decide) (by decide) (by decide) <|
        .plain (by decide) (by decide) (by decide) <| .plain (by decide) (by decide) (by decide)
        .done) (Json.Quoted.isText_text "SCALE")
    have hpath : Json.Token.Spells (.scalar (.string (some "\"😀")))
        ('"' :: ("\\\"\\uD83D\\ude00".toList ++ ['"'])) :=
      .string (.letter (by decide) <| .unit (by decide) (by decide) (by decide) (by decide) <|
        .unit (by decide) (by decide) (by decide) (by decide) .done)
        (Json.Quoted.isText_text "\"😀")
    have hseven : Json.IsLiteral ['7'] := .plain (.intro 7 .none .none)
    rw [Json.Value.WrittenBy, htext]
    exact .token (.mark (by decide)) <| .token (Json.Token.spells_text "x" (by decide)) <|
      .token (.mark (by decide)) <| .token (.mark (by decide)) <| .token .null <|
      .token (.mark (by decide)) <| .token hhalf <| .token (.mark (by decide)) <|
      .token (.mark (by decide)) <| .blank (by decide) <| .token hkey <| .blank (by decide) <|
      .token (.mark (by decide)) <| .blank (by decide) <| .token (.number hseven) <|
      .token (.mark (by decide)) <| .token (Json.Token.spells_text "FILE_PATH" (by decide)) <|
      .token (.mark (by decide)) <| .token hpath <| .token (.mark (by decide)) .done
  have hother : (Json.Value.object flawed).WrittenBy other := by
    have htext : other.toList = ['\x7b'] ++ (('"' :: ("SCALE".toList ++ ['"'])) ++ ([':'] ++
        (['4', '2', '9', '4', '9', '6', '7', '2', '9', '6'] ++ (['\x7d'] ++ [])))) := by
      decide
    have hlarge : Json.IsLiteral ['4', '2', '9', '4', '9', '6', '7', '2', '9', '6'] :=
      .plain (.intro 4294967296 .none .none)
    rw [Json.Value.WrittenBy, htext]
    exact .token (.mark (by decide)) <| .token (Json.Token.spells_text "SCALE" (by decide)) <|
      .token (.mark (by decide)) <| .token (.number hlarge) <| .token (.mark (by decide)) .done
  have hrendered : f.RenderedBy members := by
    refine ⟨by decide, fun field => by cases field <;> decide, fun field v hmem => ?_,
      fun field hfield => ?_⟩
    · have hscale : f.value .scale = .scalar (.number ['7']) :=
        congrArg (Json.Value.scalar <| .number ·) (by decide)
      have hknown (spelling : String) (h : field.name = spelling) :
          Field.ofName? spelling = some field := Field.ofName?_eq_some_iff.mpr h.symm
      simp only [members, List.mem_cons, Prod.mk.injEq, Option.some.injEq, List.not_mem_nil,
        or_false] at hmem
      obtain ⟨h, rfl⟩ | ⟨h, rfl⟩ | ⟨h, rfl⟩ := hmem
      · cases hknown "x" h
      · cases hknown "SCALE" h
        exact hscale.symm
      · cases hknown "FILE_PATH" h
        rfl
    · cases field with
      | rom => exact absurd (by decide) hfield
      | scale => exact absurd (by decide) hfield
      | _ => rfl
  have hflawed : Flawed flawed := by
    refine .wrongKind .scale _ (List.mem_singleton.mpr rfl) fun g hg => ?_
    have hsound : (Json.Value.scalar (.number
        ['4', '2', '9', '4', '9', '6', '7', '2', '9', '6'])).Sound := by
      rintro literal h
      cases h
      exact hother.isLiteral (List.mem_singleton.mpr rfl)
    cases (Json.Value.word?_eq_some_iff hsound).mpr hg
  obtain ⟨hload, -⟩ := config_files_round_trip files "a" text members rfl hwritten
  obtain ⟨-, hrefused⟩ := config_files_round_trip files "b" other flawed rfl hother
  exact ⟨⟨rfl, hwritten, hrendered, (hload f).mpr hrendered⟩, rfl, hother, hflawed,
    hrefused hflawed⟩

end Settings

end Chip8
