import Chip8.Console.Session
import Chip8.Proofs.Settings.ConfigFile

/-!
# Where settings come from

The config file of a run is the one that the command line names, or else `config.json` if something
is found there (`Directory.Holds`), or else one in which every key has its default. What a config
file is read as, or why it is refused, is a table with a line for each way in which it can be broken
(`File.ReadAs`). What a command line and a config file make together is the relation `Merged`, with
a line for each setting.

`settings_resolved` says that `resolve` follows both tables: a file that is refused wins over all
that the command line says, no file but the one that is looked for matters, and the settings are
refused only if neither the command line nor the file has a program. It adds that the two divisions
by a number that a user has chosen, of a second by the steps and by the timer ticks in it, are
never divisions by zero.
-/

namespace Chip8

namespace Settings

/-- Something is found at a path, whether or not it can be read. A path that cannot be followed to
its end leads to nothing. -/
inductive Directory.Holds (files : Directory) (path : String) : Prop where
  /-- A file that can be read. -/
  | file {bytes : ByteArray} (h : files path = .ok bytes)
  /-- A directory. -/
  | directory (h : files path = .error .isDirectory)
  /-- Something that cannot be read for another reason. -/
  | unreadable {text : String} (h : files path = .error (.other text))

/-- What the file at a path is read as when it is taken for a config file. -/
inductive File.ReadAs (files : Directory) (path : String) : Except Error File → Prop where
  /-- The file cannot be read, because it is missing or for another reason. -/
  | unreadable {cause : ReadError} (h : files path = .error cause) :
      ReadAs files path (.error (.unreadable path cause))
  /-- The bytes of the file are not the encoding of a text. -/
  | notText {bytes : ByteArray} (h : files path = .ok bytes) (hbytes : ¬bytes.IsValidUTF8) :
      ReadAs files path (.error (.unreadable path (.other Directory.notTextReport)))
  /-- The text of the file does not have the required form. -/
  | malformed {text : String} (h : files path = .ok text.toUTF8) (hform : File.parse? text = none) :
      ReadAs files path (.error (.malformed path))
  /-- The text of the file has the required form. -/
  | settings {text : String} {file : File} (h : files path = .ok text.toUTF8)
      (hform : File.parse? text = some file) : ReadAs files path (.ok file)

/-- The settings are those of a command line and a config file together. -/
structure Merged (a : Arguments) (file : File) (s : Settings) : Prop where
  /-- The program is that of the command line, or else that of the file. -/
  rom : a.rom = some s.rom ∨ a.rom = none ∧ file.rom = some s.rom
  /-- The steps a second are those of the command line, or else of the file, and at least one. -/
  clockHz : s.clockHz.toNat = max (a.clockHz.getD file.clockHz).toNat 1
  /-- The scale is that of the command line, or else of the file, and at least one. -/
  scale : s.scale.toNat = max (a.scale.getD file.scale).toNat 1
  /-- Either of the two can ask for the console. -/
  console : s.console = true ↔ a.console = true ∨ file.console = true
  /-- Either of the two can ask for silence. -/
  mute : s.mute = true ↔ a.mute = true ∨ file.mute = true
  /-- Either of the two can ask for the key bindings. -/
  showBindings : s.showBindings = true ↔ a.showBindings = true ∨ file.showBindings = true
  /-- A second has as many timer ticks as the command line, or else the file, says, and at least
  one. The time between them is in whole nanoseconds. -/
  timerInterval :
    s.machine.timerInterval = 1000000000 / max (a.timerHz.getD file.timerHz).toNat 1
  /-- The seed is that of the command line. -/
  seed : s.machine.seed = a.seed

/-! ## Divisions -/

/-- The larger of two numbers is also the larger one in value. -/
theorem toNat_max (m n : UInt32) : (max m n).toNat = max m.toNat n.toNat := by
  have hmax : max m n = if m ≤ n then n else m := rfl
  rw [hmax]
  split
  case isTrue h => exact (Nat.max_eq_right (UInt32.le_iff_toNat_le.mp h)).symm
  case isFalse h =>
    have hlt : n.toNat < m.toNat := Nat.not_le.mp (mt UInt32.le_iff_toNat_le.mpr h)
    exact (Nat.max_eq_left hlt.le).symm

end Settings

/-- A second can be divided by a number that is at least one. -/
theorem Clock.share?_of_pos {hz : UInt32} {n : Nat} (h : hz.toNat = max n 1) :
    Clock.share? hz = some (Clock.period n) := by
  have hne : hz ≠ 0 := by
    rintro rfl
    have hzero : (0 : UInt32).toNat = 0 := rfl
    omega
  rw [Clock.share?, if_neg hne, Clock.period, h]

namespace Settings

/-! ## The config file -/

section Files

variable {files other : Directory} {path : String} {a : Arguments}

/-- Whether something is found at a path can be told from what reading it gives. -/
theorem Directory.contains_iff : files.contains path = true ↔ files.Holds path := by
  rw [contains]
  constructor
  · intro h
    cases hread : files path with
    | ok bytes => exact .file hread
    | error cause =>
      rw [hread] at h
      cases cause with
      | isDirectory => exact .directory hread
      | other text => exact .unreadable hread
      | missing | notDirectory | nameTooLong | nulInPath | unreachable => cases h
  · rintro (h | h | h) <;> rw [h] <;> rfl

/-- A config file loads as what it is read as. -/
theorem File.ReadAs.load_eq {r : Except Error File} (h : File.ReadAs files path r) :
    File.load files path = r := by
  cases h with
  | unreadable h => rw [File.load, Directory.readText, h]
  | notText h hbytes =>
    have htext : String.fromUTF8? _ = none := dif_neg hbytes
    rw [File.load, Directory.readText, h]
    dsimp only
    rw [htext]
  | malformed h hform =>
    rw [File.load, Directory.readText_eq h]
    dsimp only
    rw [hform]
  | settings h hform =>
    rw [File.load, Directory.readText_eq h]
    dsimp only
    rw [hform]

/-- Every file is read as something. -/
theorem File.exists_readAs (files : Directory) (path : String) : ∃ r, File.ReadAs files path r := by
  cases h : files path with
  | error cause => exact ⟨_, .unreadable h⟩
  | ok bytes =>
    by_cases hbytes : bytes.IsValidUTF8
    · -- The bytes are the encoding of the text that they make.
      let text : String := .ofByteArray bytes hbytes
      have htext : files path = .ok text.toUTF8 := h
      cases hform : File.parse? text with
      | none => exact ⟨_, .malformed htext hform⟩
      | some file => exact ⟨_, .settings htext hform⟩
    · exact ⟨_, .notText h hbytes⟩

/-- The table says what a config file loads as. -/
theorem File.load_eq_iff {r : Except Error File} :
    File.load files path = r ↔ File.ReadAs files path r := by
  constructor
  · rintro rfl
    obtain ⟨r, hr⟩ := File.exists_readAs files path
    rwa [hr.load_eq]
  · exact File.ReadAs.load_eq

/-- The config file that a command line names is the one that is found. -/
theorem File.find_of_named (h : a.config = some path) :
    File.find files a = File.load files path := by
  rw [File.find, h]

/-- The usual config file is found if it exists and the command line names no other one. -/
theorem File.find_of_holds (h : a.config = none) (hthere : files.Holds defaultFile) :
    File.find files a = File.load files defaultFile := by
  rw [File.find, h]
  exact if_pos (Directory.contains_iff.mpr hthere)

/-- Without any config file every key has its default. -/
theorem File.find_of_absent (h : a.config = none) (habsent : ¬files.Holds defaultFile) :
    File.find files a = .ok default := by
  rw [File.find, h]
  exact if_neg (mt Directory.contains_iff.mp habsent)

/-- What a file loads as depends on this file only. -/
theorem File.load_congr (h : other path = files path) :
    File.load other path = File.load files path := by
  rw [File.load, File.load, Directory.readText, Directory.readText, h]

/-- Without a named config file no file but the usual one makes a difference. -/
theorem File.find_congr (h : a.config = none) (hsame : other defaultFile = files defaultFile) :
    File.find other a = File.find files a := by
  have hcontains : other.contains defaultFile = files.contains defaultFile := by
    rw [Directory.contains, Directory.contains, hsame]
  rw [File.find, File.find, h]
  dsimp only
  rw [hcontains, File.load_congr hsame]

end Files

/-! ## The command line and the config file together -/

section Merge

variable {a : Arguments} {file : File} {s t : Settings}

/-- How the machine is made, in its two parts. -/
theorem machineConfig_eq (a : Arguments) (file : File) :
    machineConfig a file =
      { timerInterval := Clock.period (a.timerHz.getD file.timerHz).toNat, seed := a.seed } := by
  rw [machineConfig]
  cases a.seed <;> rfl

/-- A command line and a config file determine the settings. -/
theorem Merged.unique (hs : Merged a file s) (ht : Merged a file t) : s = t := by
  -- The program may come from either of two places, but from the same one in both.
  have hrom : s.rom = t.rom := by
    rcases hs.rom with h | ⟨h, hfile⟩ <;> rcases ht.rom with h' | ⟨h', hfile'⟩
    · exact Option.some.inj (h.symm.trans h')
    · cases h.symm.trans h'
    · cases h.symm.trans h'
    · exact Option.some.inj (hfile.symm.trans hfile')
  have hbool {b c : Bool} {p : Prop} (hb : b = true ↔ p) (hc : c = true ↔ p) : b = c :=
    Bool.eq_iff_iff.mpr (hb.trans hc.symm)
  have hword {m n : UInt32} {k : Nat} (hm : m.toNat = k) (hn : n.toNat = k) : m = n :=
    UInt32.toNat_inj.mp (hm.trans hn.symm)
  have hclock := hword hs.clockHz ht.clockHz
  have hscale := hword hs.scale ht.scale
  have hconsole := hbool hs.console ht.console
  have hmute := hbool hs.mute ht.mute
  have hbindings := hbool hs.showBindings ht.showBindings
  have hinterval := hs.timerInterval.trans ht.timerInterval.symm
  have hseed := hs.seed.trans ht.seed.symm
  -- All settings are the same, one by one.
  obtain ⟨_, _, _, _, _, _, _, _⟩ := s
  obtain ⟨_, _, _, _, _, _, _, _⟩ := t
  simp_all

/-- If there is a program, the settings are made. -/
theorem exists_merge {rom : String} (h : a.rom.or file.rom = some rom) :
    ∃ s, merge a file = .ok s ∧ Merged a file s := by
  refine ⟨_, by rw [merge, h], ?_⟩
  rw [machineConfig_eq]
  have hrom : a.rom = some rom ∨ a.rom = none ∧ file.rom = some rom := Option.or_eq_some_iff.mp h
  exact {
    rom := hrom
    clockHz := toNat_max _ 1
    scale := toNat_max _ 1
    console := Bool.or_eq_true_iff
    mute := Bool.or_eq_true_iff
    showBindings := Bool.or_eq_true_iff
    timerInterval := rfl
    seed := rfl }

/-- Settings are refused for one reason only, that there is no program. -/
theorem merge_eq_error_iff {e : Error} :
    merge a file = .error e ↔ e = .noRom ∧ a.rom = none ∧ file.rom = none := by
  rw [← Option.or_eq_none_iff]
  cases h : a.rom.or file.rom with
  | none =>
    have hmerge : merge a file = .error .noRom := by rw [merge, h]
    rw [hmerge]
    exact ⟨fun he => ⟨(Except.error.inj he).symm, rfl⟩, fun ⟨he, _⟩ => congrArg _ he.symm⟩
  | some rom =>
    obtain ⟨s, hs, -⟩ := exists_merge h
    rw [hs]
    exact iff_of_false nofun (fun ⟨_, hnone⟩ => nomatch hnone)

/-- The settings that are made are those of the relation. -/
theorem merge_eq_ok_iff : merge a file = .ok s ↔ Merged a file s := by
  cases h : a.rom.or file.rom with
  | none =>
    obtain ⟨hrom, hfile⟩ := Option.or_eq_none_iff.mp h
    rw [merge_eq_error_iff.mpr ⟨rfl, hrom, hfile⟩]
    refine iff_of_false nofun fun hs => ?_
    obtain hs | ⟨-, hs⟩ := hs.rom
    · cases hrom.symm.trans hs
    · cases hfile.symm.trans hs
  | some rom =>
    -- What is made meets the relation, and nothing else does.
    obtain ⟨t, ht, hmerged⟩ := exists_merge h
    rw [ht]
    exact ⟨fun hst => Except.ok.inj hst ▸ hmerged, fun hs => congrArg _ (hmerged.unique hs)⟩

/-- There is at least one step a second. -/
theorem Merged.one_le_clockHz (h : Merged a file s) : 1 ≤ s.clockHz := by
  rw [UInt32.le_iff_toNat_le, h.clockHz]
  exact Nat.le_max_right ..

end Merge

/-- The settings of a run come from where they should, whatever the command line asks for and
whatever files there are: from the config file that is named and no other one, else from
`config.json` if something is found there, else from the defaults. A config file that is broken is
an error of its own in each case. And no second is ever divided into zero parts. -/
theorem settings_resolved (files : Directory) (a : Arguments) :
    (∀ path, a.config = some path →
      (∀ r, File.find files a = r ↔ File.ReadAs files path r) ∧
        ∀ other : Directory, other path = files path → resolve other a = resolve files a) ∧
      (a.config = none →
        (files.Holds defaultFile →
          ∀ r, File.find files a = r ↔ File.ReadAs files defaultFile r) ∧
        (¬files.Holds defaultFile → File.find files a = .ok default) ∧
        ∀ other : Directory, other defaultFile = files defaultFile →
          resolve other a = resolve files a) ∧
      (∀ e, File.find files a = .error e → resolve files a = .error e) ∧
      (∀ file, File.find files a = .ok file →
        (∀ e, resolve files a = .error e ↔ e = .noRom ∧ a.rom = none ∧ file.rom = none) ∧
        ∀ s, resolve files a = .ok s ↔ Merged a file s) ∧
      (∀ s, resolve files a = .ok s →
        Clock.share? s.clockHz = some (Console.Session.cycle s)) ∧
      ∀ (config : Config) (hz : UInt32),
        Clock.share? (max hz 1) = some (config.withTimerHz hz).timerInterval := by
  have hmerge {file : File} (hfile : File.find files a = .ok file) :
      resolve files a = merge a file := by
    rw [resolve, hfile]
    rfl
  refine ⟨fun path hpath => ⟨fun r => ?_, fun other hother => ?_⟩, fun hnone => ⟨fun hthere r => ?_,
    File.find_of_absent hnone, fun other hother => ?_⟩, fun e he => ?_,
    fun file hfile => ⟨fun e => ?_, fun s => ?_⟩, fun s hs => ?_,
    fun config hz => Clock.share?_of_pos (toNat_max hz 1)⟩
  · rw [File.find_of_named hpath]
    exact File.load_eq_iff
  · rw [resolve, resolve, File.find_of_named hpath, File.find_of_named hpath,
      File.load_congr hother]
  · rw [File.find_of_holds hnone hthere]
    exact File.load_eq_iff
  · rw [resolve, resolve, File.find_congr hnone hother]
  · rw [resolve, he]
    rfl
  · rw [hmerge hfile]
    exact merge_eq_error_iff
  · rw [hmerge hfile]
    exact merge_eq_ok_iff
  · cases hfile : File.find files a with
    | error e =>
      rw [resolve, hfile] at hs
      cases hs
    | ok file =>
      have hmerged : Merged a file s := merge_eq_ok_iff.mp ((hmerge hfile).symm.trans hs)
      exact Console.Session.share?_clockHz hmerged.one_le_clockHz

/-- A directory with a usual config file that asks for no steps and no timer ticks, and with two
files that cannot be used. To name one of these or a file that is not there is an error, though a
program is given too. If none is named the zeros are raised, and without files there is no program.
A usual config file that may not be read is an error as well, but one that is a link to itself is
not found, so that the program is run with the defaults. -/
theorem broken_files_and_zero_rates :
    let text := "\x7b\"CLOCK_SPEED_HZ\":0,\"TIMER_HZ\":0,\"FILE_PATH\":\"a\",\"MUTE\":true\x7d"
    let files : Directory := fun path =>
      if path = "config.json" then .ok text.toUTF8
      else if path = "bytes" then .ok ⟨#[0x7B, 0xFF]⟩
      else if path = "brace" then .ok "\x7b".toUTF8
      else .error .missing
    let naming (path : String) : Arguments := { rom := some "b", config := some path }
    let zeros : File := { rom := some "a", clockHz := 0, timerHz := 0, mute := true }
    let raised : Settings :=
      { rom := "a", showBindings := false, clockHz := 1, scale := 10, console := false, mute := true
        machine := { timerInterval := 1000000000 } }
    let empty : Directory := fun _ => .error .missing
    let locked : Directory := fun _ => .error (.other "Permission denied (os error 13)")
    let looping : Directory := fun _ =>
      .error (.unreachable "Too many levels of symbolic links (os error 40)")
    resolve files (naming "none") = .error (.unreadable "none" .missing) ∧
      resolve files (naming "bytes") =
        .error (.unreadable "bytes" (.other "stream did not contain valid UTF-8")) ∧
      resolve files (naming "brace") = .error (.malformed "brace") ∧
      (files.Holds "config.json" ∧ File.find files {} = .ok zeros ∧ resolve files {} = .ok raised ∧
        Clock.share? raised.clockHz = some 1000000000) ∧
      (¬empty.Holds "config.json" ∧ resolve empty {} = .error .noRom) ∧
      (locked.Holds "config.json" ∧ resolve locked { rom := some "b" } =
        .error (.unreadable "config.json" (.other "Permission denied (os error 13)"))) ∧
      ¬looping.Holds "config.json" ∧ File.find looping { rom := some "b" } = .ok default := by
  intro text files naming zeros raised empty locked looping
  -- A file that is named is read as what the table says, and its error is that of the settings.
  have hbroken {path : String} {e : Error} (h : File.ReadAs files path (.error e)) :
      resolve files (naming path) = .error e := by
    obtain ⟨hnamed, -, herror, -⟩ := settings_resolved files (naming path)
    obtain ⟨hread, -⟩ := hnamed path rfl
    exact herror e ((hread _).mpr h)
  have htext : files "config.json" = .ok text.toUTF8 := rfl
  have hbrace : files "brace" = .ok "\x7b".toUTF8 := rfl
  have hzeros : File.ReadAs files "config.json" (.ok zeros) :=
    .settings htext (by decide +kernel)
  obtain ⟨-, husual, -, hmade, hshare, -⟩ := settings_resolved files {}
  obtain ⟨hthere, -⟩ := husual rfl
  have hfind : File.find files {} = .ok zeros := (hthere (.file htext) _).mpr hzeros
  have hraised : resolve files {} = .ok raised := by
    obtain ⟨-, hmerged⟩ := hmade zeros hfind
    exact (hmerged raised).mpr {
      rom := .inr ⟨rfl, rfl⟩, clockHz := rfl, scale := rfl, console := by decide
      mute := by decide, showBindings := by decide, timerInterval := by decide, seed := rfl }
  have hcycle : Clock.share? raised.clockHz = some 1000000000 := by
    rw [hshare raised hraised]
    decide
  have hgone : ¬empty.Holds "config.json" := by rintro (h | h | h) <;> cases h
  obtain ⟨-, hempty, -, hrefused, -⟩ := settings_resolved empty {}
  obtain ⟨-, habsent, -⟩ := hempty rfl
  obtain ⟨hnoRom, -⟩ := hrefused default (habsent hgone)
  have hlocked : locked.Holds "config.json" := .unreadable rfl
  obtain ⟨-, hlockedUsual, herror, -⟩ := settings_resolved locked { rom := some "b" }
  obtain ⟨hlockedRead, -⟩ := hlockedUsual rfl
  have hloop : ¬looping.Holds "config.json" := by rintro (h | h | h) <;> cases h
  obtain ⟨-, hloopUsual, -⟩ := settings_resolved looping { rom := some "b" }
  obtain ⟨-, hloopAbsent, -⟩ := hloopUsual rfl
  exact ⟨hbroken (.unreadable rfl), hbroken (.notText rfl (by decide +kernel)),
    hbroken (.malformed hbrace (by decide +kernel)), ⟨.file htext, hfind, hraised, hcycle⟩,
    ⟨hgone, (hnoRom _).mpr ⟨rfl, rfl, rfl⟩⟩,
    ⟨hlocked, herror _ ((hlockedRead hlocked _).mpr (.unreadable rfl))⟩, hloop, hloopAbsent hloop⟩

end Settings

end Chip8
