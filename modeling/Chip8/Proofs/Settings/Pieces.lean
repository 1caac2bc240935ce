import Chip8.Settings.CommandLine

/-!
# The pieces of a command line

A command line is made of pieces: an option with its value, in one word or in two, a flag, or the
program. The reader of a command line goes word by word and settles a piece only when the next one
has been looked at. `parse_words` says that this makes no difference: to read the words of some
pieces is to give the pieces one after the other, and the first piece that cannot be given decides
the error. The program may also come last, behind two dashes alone.

The proof follows what has been read with what has not been settled yet already given
(`Reading.outcome`). Each piece moves it on as if it was given at once (`read_words`).
-/

namespace Chip8.Settings

/-- Something that a command line can give, and gives once at most. -/
inductive Slot where
  /-- An option. -/
  | option (option : ValueOption)
  /-- A flag. -/
  | flag (flag : Flag)
  /-- The program. -/
  | rom
  deriving DecidableEq

/-- A piece of a command line. -/
inductive Piece where
  /-- An option with its value behind an equals sign. -/
  | joined (option : ValueOption) (value : String)
  /-- An option with its value as the next word. -/
  | spaced (option : ValueOption) (value : String)
  /-- A flag. -/
  | flag (flag : Flag)
  /-- The program. -/
  | rom (path : String)
  deriving DecidableEq

/-- Whether a text begins with a dash. -/
def beginsWithDash (text : String) : Bool :=
  text.toList.head? == some '-'

namespace Piece

/-- What a piece gives. -/
def slot : Piece → Slot
  | joined option _ => .option option
  | spaced option _ => .option option
  | flag f => .flag f
  | rom _ => .rom

/-- The words of a piece. -/
def words : Piece → List String
  | joined option value => ["--" ++ option.name ++ "=" ++ value]
  | spaced option value => ["--" ++ option.name, value]
  | flag f => ["--" ++ f.name]
  | rom path => [path]

/-- Whether a word of a piece could be taken for the name of an option: a value in a word of its
own, or the program, that begins with a dash. -/
def Ambiguous : Piece → Prop
  | spaced _ value => beginsWithDash value = true
  | rom path => beginsWithDash path = true
  | _ => False

end Piece

/-- A command line: some pieces, and perhaps the program behind two dashes alone. -/
structure Line where
  /-- The pieces in front. -/
  pieces : List Piece
  /-- The program behind two dashes. -/
  last : Option String := none

namespace Line

/-- All pieces of a command line. -/
def all (line : Line) : List Piece :=
  line.pieces ++ (line.last.map Piece.rom).toList

/-- What is written behind the pieces in front. -/
def lastWords (line : Line) : List String :=
  match line.last with
  | some path => ["--", path]
  | none => []

/-- The words of a command line. -/
def words (line : Line) : List String :=
  line.pieces.flatMap Piece.words ++ line.lastWords

end Line

/-- The arguments with what a piece gives. -/
def Arguments.give (a : Arguments) : Piece → Except ArgumentError Arguments
  | .joined option value => a.giveOption option value
  | .spaced option value => a.giveOption option value
  | .flag f => a.giveFlag f
  | .rom path => a.giveRom path

/-! ## Words -/

namespace Word

/-- A word that does not begin with a dash is plain. -/
theorem ofText_of_no_dash {text : String} (h : beginsWithDash text = false) :
    ofText text = plain text := by
  have hhead : text.toList.head? ≠ some '-' := by simpa [beginsWithDash] using h
  -- The first three shapes all begin with a dash.
  unfold ofText
  split
  case h_1 heq => rw [heq] at hhead; exact absurd rfl hhead
  case h_2 heq => rw [heq] at hhead; exact absurd rfl hhead
  case h_3 heq => rw [heq] at hhead; exact absurd rfl hhead
  case h_4 => rfl

/-- The names of options and flags are not empty and have no equals sign in them. -/
theorem name_text (name : LongName) :
    name.text.toList ≠ [] ∧ ∀ c ∈ name.text.toList, (c != '=') = true := by
  have htext : name.text.toList ≠ [] ∧ name.text.toList.all (· != '=') = true := by
    rcases name with option | flag | _
    · cases option <;> decide
    · cases flag <;> decide
    · decide
  exact ⟨htext.1, List.all_eq_true.mp htext.2⟩

/-- Two dashes and more are taken apart behind the dashes. -/
theorem ofText_dashes {text : String} (h : text.toList ≠ []) :
    ofText ("--" ++ text) = ofLong text.toList := by
  have hlist : ("--" ++ text).toList = '-' :: '-' :: text.toList := by
    rw [String.toList_append]
    rfl
  unfold ofText
  rw [hlist]
  cases hc : text.toList with
  | nil => exact absurd hc h
  | cons c rest => rfl

/-- A name behind two dashes is read as it is. -/
theorem ofText_name (name : LongName) : ofText ("--" ++ name.text) = long name.text none := by
  obtain ⟨hne, hname⟩ := name_text name
  have htake : (name.text.toList ++ []).takeWhile (· != '=') = name.text.toList ++ [] :=
    List.takeWhile_append_of_pos hname
  have hdrop : (name.text.toList ++ []).dropWhile (· != '=') = [] :=
    List.dropWhile_append_of_pos hname
  rw [List.append_nil] at htake hdrop
  rw [ofText_dashes hne, ofLong, htake, hdrop, String.ofList_toList]

/-- What follows the first equals sign behind a name is its value, whatever is in it. -/
theorem ofText_name_value (name : LongName) (value : String) :
    ofText ("--" ++ name.text ++ "=" ++ value) = long name.text (some value) := by
  obtain ⟨hne, hname⟩ := name_text name
  have hlist : (name.text ++ "=" ++ value).toList = name.text.toList ++ '=' :: value.toList := by
    simp [String.toList_append]
  have hsplit : "--" ++ name.text ++ "=" ++ value = "--" ++ (name.text ++ "=" ++ value) := by
    simp only [String.append_assoc]
  rw [hsplit, ofText_dashes (by simp [hlist]), hlist, ofLong]
  rw [List.takeWhile_append_of_pos hname, List.dropWhile_append_of_pos hname]
  simp

end Word

/-- A name is found by its spelling. -/
theorem LongName.ofText?_text (name : LongName) : LongName.ofText? name.text = some name := by
  rcases name with option | flag | _
  · cases option <;> decide
  · cases flag <;> decide
  · decide

namespace Reading

/-! ## Reading a piece -/

section Read

variable {r : Reading}

/-- The arguments that have been given, with what has not been settled yet. -/
def outcome (r : Reading) : Except ArgumentError Arguments :=
  r.settle.map settled

/-- What has been settled of a reading that may have failed. -/
theorem map_settled_map {x : Except ArgumentError Arguments} (f : Arguments → Reading)
    (h : ∀ a, (f a).settled = a) : (x.map f).map settled = x := by
  cases x with
  | error e => rfl
  | ok a => exact congrArg Except.ok (h a)

/-- A reader that has read whole pieces: no option waits for its value, and two dashes alone have
not been read. -/
structure Between (r : Reading) : Prop where
  /-- No option waits for its value. -/
  valued : ∀ option, r.pending ≠ .option option none
  /-- Two dashes alone have not been read. -/
  inFront : r.separated = false

/-- To settle what is pending fails with the error of the outcome, or it leaves nothing pending and
the outcome settled. -/
theorem settle_cases (r : Reading) :
    (∃ e, r.settle = .error e ∧ r.outcome = .error e) ∨
      ∃ a, r.settle = .ok { r with settled := a, pending := .nothing } ∧ r.outcome = .ok a := by
  obtain ⟨a, pending, romRead, separated⟩ := r
  -- The outcome is what settling leaves settled, so the cases of what is pending decide both.
  unfold outcome settle
  cases pending with
  | nothing => exact .inr ⟨a, rfl, rfl⟩
  | option option value =>
    cases value with
    | none => exact .inl ⟨_, rfl, rfl⟩
    | some text =>
      dsimp only
      cases a.giveOption option text with
      | error e => exact .inl ⟨e, rfl, rfl⟩
      | ok b => exact .inr ⟨b, rfl, rfl⟩
  | rom text =>
    dsimp only
    cases a.giveRom text with
    | error e => exact .inl ⟨e, rfl, rfl⟩
    | ok b => exact .inr ⟨b, rfl, rfl⟩

/-- The ways in which it can go to read the words of a piece: it is as if the piece was given to the
outcome. -/
inductive Gives (r : Reading) (p : Piece) : Except ArgumentError Reading → Prop where
  /-- The piece or what was pending before cannot be given. -/
  | fails {e : ArgumentError} (outcome : r.outcome.bind (·.give p) = .error e) :
    Gives r p (.error e)
  /-- The piece is given, or pending. -/
  | goes {r' : Reading} (outcome : r'.outcome = r.outcome.bind (·.give p)) (between : r'.Between)
      (romRead : r'.romRead = (r.romRead || decide (p.slot = .rom))) :
    Gives r p (.ok r')

/-- A name behind two dashes is read as the name that it is. -/
theorem read_name (between : r.Between) (name : LongName) :
    r.read ("--" ++ name.text) = r.readLong (some name) none := by
  rw [read, between.inFront, if_neg Bool.false_ne_true, Word.ofText_name]
  exact congrArg (r.readLong · none) name.ofText?_text

/-- A name behind two dashes and its value are read as what they are. -/
theorem read_name_value (between : r.Between) (name : LongName) (value : String) :
    r.read ("--" ++ name.text ++ "=" ++ value) = r.readLong (some name) (some value) := by
  rw [read, between.inFront, if_neg Bool.false_ne_true, Word.ofText_name_value]
  exact congrArg (r.readLong · (some value)) name.ofText?_text

/-- A word that does not begin with a dash is read as a plain one. -/
theorem read_plain (inFront : r.separated = false) {text : String}
    (h : beginsWithDash text = false) : r.read text = r.readPlain text := by
  rw [read, inFront, if_neg Bool.false_ne_true, Word.ofText_of_no_dash h]

/-- To read a single word is to read that word. -/
theorem foldlM_word (r : Reading) (text : String) : [text].foldlM read r = r.read text := by
  rw [List.foldlM_cons]
  exact bind_pure _

/-- A piece that is given once what is pending is settled. -/
theorem gives_at_once (between : r.Between) {p : Piece} (hp : p.slot ≠ .rom) :
    r.Gives p (r.settle.bind fun r =>
      (r.settled.give p).map fun a => { r with settled := a }) := by
  obtain ⟨e, hs, ho⟩ | ⟨a, hs, ho⟩ := r.settle_cases
  · rw [hs]
    exact .fails (by rw [ho]; rfl)
  · rw [hs]
    dsimp only [Except.bind]
    cases hg : a.give p with
    | error e => exact .fails (by rw [ho]; exact hg)
    | ok b => exact .goes (by rw [ho]; exact hg.symm) ⟨nofun, between.inFront⟩ (by simp [hp])

/-- An option with its value in one word is given as soon as it is read. -/
theorem gives_joined (between : r.Between) (option : ValueOption) (value : String) :
    r.Gives (.joined option value) ((Piece.joined option value).words.foldlM read r) := by
  have hread : (Piece.joined option value).words.foldlM read r =
      r.readLong (some (.valued option)) (some value) :=
    (foldlM_word r _).trans (read_name_value between (.valued option) value)
  rw [hread]
  exact gives_at_once between nofun

/-- A flag is given as soon as it is read. -/
theorem gives_flag (between : r.Between) (f : Flag) :
    r.Gives (.flag f) ((Piece.flag f).words.foldlM read r) := by
  have hread : (Piece.flag f).words.foldlM read r = r.readLong (some (.switch f)) none :=
    (foldlM_word r _).trans (read_name between (.switch f))
  rw [hread]
  exact gives_at_once between nofun

/-- An option with its value in the next word is pending once both are read. -/
theorem gives_spaced (between : r.Between) (option : ValueOption) {value : String}
    (h : beginsWithDash value = false) :
    r.Gives (.spaced option value) ((Piece.spaced option value).words.foldlM read r) := by
  have hread : (Piece.spaced option value).words.foldlM read r =
      (r.readLong (some (.valued option)) none).bind fun r => r.read value := by
    rw [← read_name between (.valued option), Piece.words, List.foldlM_cons]
    exact congrArg _ (funext fun r => foldlM_word r value)
  rw [hread, readLong]
  obtain ⟨e, hs, ho⟩ | ⟨a, hs, ho⟩ := r.settle_cases
  · rw [hs]
    exact .fails (by rw [ho]; rfl)
  · rw [hs]
    -- The name leaves the option pending without a value, and the next word fills it in.
    dsimp only [Except.map, Except.bind]
    rw [read_plain (r := { r with settled := a, pending := .option option none })
      between.inFront h]
    refine .goes ?_ ⟨nofun, between.inFront⟩ (Bool.or_false _).symm
    rw [ho, outcome, settle]
    exact map_settled_map _ fun _ => rfl

/-- The program is pending once it is read. -/
theorem readRom_cases (room : r.romRead = false) (path : String) :
    (∃ e, r.readRom path = .error e ∧ r.outcome.bind (·.giveRom path) = .error e) ∨
      ∃ r', r.readRom path = .ok r' ∧ r'.outcome = r.outcome.bind (·.giveRom path) ∧
        r'.pending = .rom path ∧ r'.romRead = true ∧ r'.separated = r.separated := by
  rw [readRom, room, if_neg Bool.false_ne_true]
  obtain ⟨e, hs, ho⟩ | ⟨a, hs, ho⟩ := r.settle_cases
  · rw [hs]
    exact .inl ⟨e, rfl, by rw [ho]; rfl⟩
  · rw [hs]
    refine .inr ⟨_, rfl, ?_, rfl, rfl, rfl⟩
    rw [ho, outcome, settle]
    exact map_settled_map _ fun _ => rfl

/-- The program, as a plain word, is pending once it is read. -/
theorem gives_rom (between : r.Between) (room : r.romRead = false) {path : String}
    (h : beginsWithDash path = false) :
    r.Gives (.rom path) ((Piece.rom path).words.foldlM read r) := by
  have hplain : r.readPlain path = r.readRom path := by
    unfold readPlain
    split
    case h_1 option heq => exact absurd heq (between.valued option)
    case h_2 => rfl
  have hread : (Piece.rom path).words.foldlM read r = r.readRom path :=
    (foldlM_word r path).trans ((read_plain between.inFront h).trans hplain)
  rw [hread]
  obtain ⟨e, hr, ho⟩ | ⟨r', hr, ho, hpending, hrom, hseparated⟩ := readRom_cases room path
  · rw [hr]
    exact .fails ho
  · rw [hr]
    refine .goes ho ⟨fun option heq => ?_, hseparated.trans between.inFront⟩ ?_
    · rw [hpending] at heq
      cases heq
    · rw [hrom]
      exact (Bool.or_true _).symm

/-- To read the words of a piece is to give the piece. -/
theorem gives_words (between : r.Between) {p : Piece} (clear : ¬p.Ambiguous)
    (room : p.slot = .rom → r.romRead = false) : r.Gives p (p.words.foldlM read r) := by
  cases p with
  | joined option value => exact gives_joined between option value
  | spaced option value => exact gives_spaced between option (Bool.eq_false_iff.mpr clear)
  | flag f => exact gives_flag between f
  | rom path => exact gives_rom between (room rfl) (Bool.eq_false_iff.mpr clear)

/-- Two dashes alone settle nothing, and the word behind them is the program. -/
theorem read_separator (inFront : r.separated = false) (path : String) :
    ["--", path].foldlM read r = { r with separated := true }.readRom path := by
  have hfirst : r.read "--" = .ok { r with separated := true } := by
    rw [read, inFront]
    rfl
  rw [List.foldlM_cons, hfirst]
  exact foldlM_word { r with separated := true } path

/-- Two dashes alone do not change the outcome. -/
theorem outcome_separated (r : Reading) : { r with separated := true }.outcome = r.outcome := by
  obtain ⟨a, pending, romRead, separated⟩ := r
  unfold outcome settle
  cases pending with
  | nothing => rfl
  | option option value =>
    cases value with
    | none => rfl
    | some text =>
      exact (map_settled_map _ fun _ => rfl).trans (map_settled_map _ fun _ => rfl).symm
  | rom text =>
    exact (map_settled_map _ fun _ => rfl).trans (map_settled_map _ fun _ => rfl).symm

/-! ## Reading a command line -/

/-- To read the program behind two dashes is to give it. -/
theorem bind_outcome_last (between : r.Between) (room : r.romRead = false) (path : String) :
    (["--", path].foldlM read r).bind outcome = r.outcome.bind (·.giveRom path) := by
  rw [read_separator between.inFront, ← r.outcome_separated]
  obtain ⟨e, hr, ho⟩ | ⟨r', hr, ho, -⟩ :=
    readRom_cases (r := { r with separated := true }) room path
  · rw [hr, ho]
    rfl
  · rw [hr, ← ho]
    rfl

/-- To read the words of a command line to the end is to give its pieces. -/
theorem bind_outcome_words {line : Line} (between : r.Between)
    (clear : ∀ p ∈ line.pieces, ¬p.Ambiguous)
    (room : (line.all.map Piece.slot).count .rom + r.romRead.toNat ≤ 1) :
    (line.words.foldlM read r).bind outcome =
      r.outcome.bind fun a => line.all.foldlM Arguments.give a := by
  -- The induction is on the pieces in front, and the invariant is that whole pieces were read.
  obtain ⟨pieces, last⟩ := line
  induction pieces generalizing r with
  | nil =>
    cases last with
    | none => exact (bind_pure r.outcome).symm
    | some path =>
      have hfree : r.romRead = false := by
        have hone : (1 : Nat) + r.romRead.toNat ≤ 1 := room
        exact Bool.toNat_eq_zero.mp (by omega)
      calc (["--", path].foldlM read r).bind outcome
          = r.outcome.bind (·.giveRom path) := bind_outcome_last between hfree path
        _ = r.outcome.bind fun a => [Piece.rom path].foldlM Arguments.give a :=
            congrArg _ (funext fun a => (bind_pure (a.giveRom path)).symm)
  | cons p rest ih =>
    have hwords : (Line.mk (p :: rest) last).words = p.words ++ (Line.mk rest last).words :=
      List.append_assoc ..
    have hcount : (p.slot :: (Line.mk rest last).all.map Piece.slot).count .rom +
        r.romRead.toNat ≤ 1 := room
    -- Once the program is read it is in no later piece.
    obtain ⟨hfree, hrest⟩ : (p.slot = .rom → r.romRead = false) ∧
        ((Line.mk rest last).all.map Piece.slot).count .rom +
          (r.romRead || decide (p.slot = .rom)).toNat ≤ 1 := by
      by_cases hp : p.slot = .rom
      · rw [hp, List.count_cons_self] at hcount
        have hfree : r.romRead = false := Bool.toNat_eq_zero.mp (by omega)
        rw [hfree] at hcount
        exact ⟨fun _ => hfree, by simpa [hp, hfree] using hcount⟩
      · rw [List.count_cons_of_ne hp] at hcount
        exact ⟨fun h => absurd h hp, by simpa [hp] using hcount⟩
    have hgives := gives_words between (clear p List.mem_cons_self) hfree
    have hall : (r.outcome.bind fun a => (Line.mk (p :: rest) last).all.foldlM Arguments.give a) =
        (r.outcome.bind (·.give p)).bind
          fun a => (Line.mk rest last).all.foldlM Arguments.give a :=
      (bind_assoc r.outcome (·.give p) _).symm
    rw [hwords, List.foldlM_append, hall]
    generalize p.words.foldlM read r = result at hgives ⊢
    -- The piece that fails decides the error of both, and otherwise both go on from its outcome.
    cases hgives with
    | fails houtcome =>
      rw [houtcome]
      rfl
    | goes houtcome between' hrom =>
      rw [← hrom] at hrest
      rw [← houtcome]
      exact ih between' (fun q hq => clear q (List.mem_cons_of_mem _ hq)) hrest

end Read

end Reading

/-- To read the words of a command line in which no word is ambiguous, and the program is given once
at most, is to give its pieces one after the other. -/
theorem Arguments.parse_words {line : Line} (clear : ∀ p ∈ line.pieces, ¬p.Ambiguous)
    (room : (line.all.map Piece.slot).count .rom ≤ 1) :
    Arguments.parse line.words = line.all.foldlM Arguments.give {} :=
  Reading.bind_outcome_words (r := {}) ⟨nofun, rfl⟩ clear room

end Chip8.Settings
