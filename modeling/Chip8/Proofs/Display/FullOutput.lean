import Chip8.Proofs.Console.Pictures
import Chip8.Proofs.Screen.Renderings

/-!
# Outputs that run full

An output that has room for a number of bytes takes what still fits and then fails. What a terminal
display leaves in it is always the beginning of what it would have written to an output without
limit, and a success means that everything up to there is in the output
(`limited_output_holds_beginning`).

Both come from one fact about writes: the output after two writes is the output after one write of
both texts (`write_write`). So after any number of them it is the output after a single write of
everything, whether or not one failed in between (`sink_renderAll`), and what a write answers is a
comparison of sizes (`answer_put`). All that has to be known of a picture is how many bytes it has.
-/

namespace Chip8

/-! ## How many bytes a picture has -/

namespace Screen

/-- A text whose characters have one byte each has as many bytes as characters. -/
theorem utf8ByteSize_of_single {cs : List Char} (h : ∀ c ∈ cs, c.utf8Size = 1) :
    (String.ofList cs).utf8ByteSize = cs.length := by
  induction cs with
  | nil => rfl
  | cons c rest ih =>
    obtain ⟨hfirst, hrest⟩ := List.forall_mem_cons.mp h
    have hsplit : String.ofList ([c] ++ rest) = String.ofList [c] ++ String.ofList rest :=
      String.ofList_append
    have hone : (String.ofList [c]).utf8ByteSize = c.utf8Size := by
      rw [← String.singleton_eq_ofList, String.utf8ByteSize_singleton]
    rw [← List.singleton_append, hsplit, String.utf8ByteSize_append, ih hrest, hone, hfirst,
      List.length_append, List.length_singleton]

/-- The characters of a picture are those for lit and dark pixels, and line breaks. -/
theorem mem_characters {s : Screen} {lit dark c : Char} (h : c ∈ s.characters lit dark) :
    c = lit ∨ c = dark ∨ c = '\n' := by
  rw [characters_eq, List.mem_flatMap] at h
  obtain ⟨y, -, hline⟩ := h
  rw [line, List.mem_append, List.mem_map, List.mem_singleton] at hline
  obtain ⟨x, -, rfl⟩ | rfl := hline
  · cases s.get x y
    · exact .inr (.inl rfl)
    · exact .inl rfl
  · exact .inr (.inr rfl)

/-- The picture for a terminal has a byte for each of its characters. -/
theorem size_terminalText (s : Screen) : s.terminalText.toUTF8.size = 2080 := by
  have hsingle : ∀ c ∈ s.characters '*' ' ', c.utf8Size = 1 := by
    intro c hc
    obtain rfl | rfl | rfl := mem_characters hc <;> rfl
  calc s.terminalText.toUTF8.size
      = s.terminalText.utf8ByteSize := String.size_toByteArray
    _ = (s.characters '*' ' ').length := utf8ByteSize_of_single hsingle
    _ = 2080 := s.length_characters '*' ' '

end Screen

namespace Display

/-! ## Writes -/

namespace Sink

/-- What a write to an output of limited size leaves there and answers. -/
theorem write_limited (written : ByteArray) (room : Nat) (text : String) :
    write ⟨written, some room⟩ text =
      (⟨written ++ text.toUTF8.extract 0 room, some (room - text.toUTF8.size)⟩,
        decide (text.toUTF8.size ≤ room)) :=
  rfl

/-- What a write to an output of unlimited size leaves there and answers. -/
theorem write_unlimited (written : ByteArray) (text : String) :
    write ⟨written, none⟩ text = (⟨written ++ text.toUTF8, none⟩, true) :=
  rfl

/-- The bytes of two texts are those of the first and then those of the second. -/
theorem toUTF8_append (first second : String) :
    (first ++ second).toUTF8 = first.toUTF8 ++ second.toUTF8 :=
  String.toByteArray_append

/-- What fits of two texts is what fits of the first, and of the second what fits behind it. -/
theorem extract_toUTF8_append (first second : String) (room : Nat) :
    (first ++ second).toUTF8.extract 0 room =
      first.toUTF8.extract 0 room ++ second.toUTF8.extract 0 (room - first.toUTF8.size) := by
  rw [toUTF8_append, ByteArray.extract_append, Nat.zero_sub]

/-- The output after two writes is the output after one write of both texts, even if the first one
did not fit. -/
theorem write_write (sink : Sink) (first second : String) :
    ((sink.write first).1.write second).1 = (sink.write (first ++ second)).1 := by
  obtain ⟨written, _ | room⟩ := sink
  · rw [write_unlimited, write_unlimited, write_unlimited, toUTF8_append, ByteArray.append_assoc]
  · rw [write_limited, write_limited, write_limited, extract_toUTF8_append, toUTF8_append,
      ByteArray.size_append, ByteArray.append_assoc, Nat.sub_sub]

/-- A text may be handed over in two parts, the second one if the first got through. -/
theorem write_append (sink : Sink) (first second : String) :
    sink.write (first ++ second) =
      if (sink.write first).2 then (sink.write first).1.write second else sink.write first := by
  split
  case isTrue hfits =>
    refine Prod.ext (sink.write_write first second).symm ?_
    obtain ⟨written, _ | room⟩ := sink
    · rfl
    · have hfits : first.toUTF8.size ≤ room := of_decide_eq_true hfits
      rw [write_limited, write_limited, write_limited, decide_eq_decide, toUTF8_append,
        ByteArray.size_append]
      omega
  case isFalse hfails =>
    obtain ⟨written, _ | room⟩ := sink
    · exact absurd rfl hfails
    · -- Nothing is left for the second text, so that it changes nothing.
      have hfull : room < first.toUTF8.size := Nat.lt_of_not_le (mt decide_eq_true hfails)
      have hnone : second.toUTF8.extract 0 (room - first.toUTF8.size) = .empty := by
        rw [Nat.sub_eq_zero_of_le (Nat.le_of_lt hfull)]
        exact ByteArray.extract_same
      have hroom : room - (first.toUTF8.size + second.toUTF8.size) = room - first.toUTF8.size := by
        omega
      have hanswer : first.toUTF8.size + second.toUTF8.size ≤ room ↔ first.toUTF8.size ≤ room := by
        omega
      rw [write_limited, write_limited, extract_toUTF8_append, toUTF8_append,
        ByteArray.size_append, hnone, ByteArray.append_empty, hroom, decide_eq_decide.mpr hanswer]

end Sink

namespace Terminal

/-- The answer of a write that takes a number of bytes where there is room for another. -/
def answer (size room : Nat) : Except Error Unit :=
  if size ≤ room then .ok () else .error (.output Sink.fullReport)

/-- To put a text is to write it. -/
theorem sink_put (sink : Sink) (text : String) : (put sink text).1 = (sink.write text).1 := by
  unfold put
  split <;> rename_i h <;> rw [h]

/-- A text can be put exactly if there is room for it. -/
theorem answer_put {sink : Sink} {room : Nat} (h : sink.room = some room) (text : String) :
    (put sink text).2 = answer text.toUTF8.size room := by
  obtain ⟨written, _⟩ := sink
  cases h
  rw [put, Sink.write_limited, answer]
  by_cases hfits : text.toUTF8.size ≤ room
  · rw [decide_eq_true hfits, if_pos hfits]
  · rw [decide_eq_false hfits, if_neg hfits]

/-- What is left of the room behind a text. -/
theorem room_put {sink : Sink} {room : Nat} (h : sink.room = some room) (text : String) :
    (put sink text).1.room = some (room - text.toUTF8.size) := by
  obtain ⟨written, _⟩ := sink
  cases h
  rw [sink_put, Sink.write_limited]

/-! ## Pictures -/

/-- A picture may be handed over behind its control sequence, once that got through. -/
theorem render_eq (sink : Sink) (screen : Screen) :
    render sink screen =
      match put sink homeSequence with
      | (after, .ok ()) => put after screen.terminalText
      | (after, .error e) => (after, .error e) := by
  have hparts := sink.write_append homeSequence screen.terminalText
  rw [render, frameText, put, put, hparts]
  cases hhome : sink.write homeSequence with
  | mk after fits => cases fits <;> rfl

/-- The control sequence has three bytes, and the picture behind it 2080. -/
theorem size_frameText (screen : Screen) : (frameText screen).toUTF8.size = 2083 := by
  have hhome : homeSequence.toUTF8.size = 3 := by decide
  rw [frameText, Sink.toUTF8_append, ByteArray.size_append, hhome, screen.size_terminalText]

/-- The output after pictures were shown is the output after one write of them all, whether or not
each could be shown. -/
theorem sink_renderAll (sink : Sink) (screens : List Screen) :
    (renderAll sink screens).1 = (sink.write (String.join (screens.map frameText))).1 := by
  induction screens generalizing sink with
  | nil =>
    have hnothing : (sink.write "").1 = sink := by
      obtain ⟨written, _ | room⟩ := sink
      · rw [Sink.write_unlimited, String.toUTF8, String.toByteArray_empty, ByteArray.append_empty]
      · have hempty : "".toUTF8.extract 0 room = .empty := by
          rw [← ByteArray.size_eq_zero_iff, ByteArray.size_extract]
          exact Nat.min_zero room
        rw [Sink.write_limited, hempty, ByteArray.append_empty]
        rfl
    exact hnothing.symm
  | cons screen rest ih =>
    show (renderAll (put sink (frameText screen)).1 rest).1 = _
    rw [ih, sink_put, Sink.write_write, List.map_cons, String.join_cons]

/-- Each picture can be shown exactly if there is room for it and for those before it. -/
theorem answers_renderAll {sink : Sink} {room : Nat} (h : sink.room = some room)
    (screens : List Screen) :
    (renderAll sink screens).2 =
      (List.range screens.length).map fun k => answer (2083 * (k + 1)) room := by
  induction screens generalizing sink room with
  | nil => rfl
  | cons screen rest ih =>
    show (put sink (frameText screen)).2 :: (renderAll (put sink (frameText screen)).1 rest).2 = _
    have hroom := room_put h (frameText screen)
    rw [size_frameText] at hroom
    rw [ih hroom, answer_put h, size_frameText, List.length_cons, List.range_succ_eq_map,
      List.map_cons, List.map_map]
    refine congrArg (answer 2083 room :: ·) (List.map_congr_left fun k _ => ?_)
    -- What the rest needs behind the first picture it needs with it before the first picture.
    have hneed : 2083 * (k + 1) ≤ room - 2083 ↔ 2083 * (k + 1 + 1) ≤ room := by omega
    rw [Function.comp_apply, answer, answer, if_congr hneed rfl rfl]

/-! ## The beginning of the whole -/

open Console (outputOf outputOf_eq)

/-- Pictures take four bytes to clear the terminal, and then as many as they have. -/
theorem size_outputOf (screens : List Screen) :
    (outputOf screens).toUTF8.size = 4 + 2083 * screens.length := by
  have hclear : clearSequence.toUTF8.size = 4 := by decide
  have hframes : (String.join (screens.map frameText)).toUTF8.size = 2083 * screens.length := by
    induction screens with
    | nil => rfl
    | cons screen rest ih =>
      rw [List.map_cons, String.join_cons, Sink.toUTF8_append, ByteArray.size_append, ih,
        size_frameText, List.length_cons]
      omega
  rw [outputOf_eq, Sink.toUTF8_append, ByteArray.size_append, hclear, hframes]

/-- What is written for the first pictures is the beginning of what is written for all. -/
theorem outputOf_take {screens : List Screen} {k : Nat} (h : k ≤ screens.length) :
    (outputOf (screens.take k)).toUTF8 =
      (outputOf screens).toUTF8.extract 0 (4 + 2083 * k) := by
  have hsplit : outputOf screens =
      outputOf (screens.take k) ++ String.join ((screens.drop k).map frameText) := by
    rw [outputOf_eq, outputOf_eq, String.append_assoc, ← String.join_append, ← List.map_append,
      List.take_append_drop]
  have hsize : (outputOf (screens.take k)).toUTF8.size = 4 + 2083 * k := by
    rw [size_outputOf, List.length_take_of_le h]
  rw [hsplit, Sink.toUTF8_append, ByteArray.extract_append_eq_left hsize.symm]

/-- What an output of limited size holds in the end is as much as fits of what is written. -/
theorem written_renderAll (room : Nat) (screens : List Screen) :
    (renderAll (start (.limited room)).1 screens).1.written =
      (outputOf screens).toUTF8.extract 0 room := by
  rw [sink_renderAll, start, sink_put, Sink.write_write]
  exact ByteArray.empty_append

/-- What an output of limited size holds once some pictures were shown is a beginning of what is
written for all of them. -/
theorem written_take {screens : List Screen} {k : Nat} (h : k ≤ screens.length) (room : Nat) :
    (renderAll (start (.limited room)).1 (screens.take k)).1.written =
      (outputOf screens).toUTF8.extract 0 (min room (4 + 2083 * k)) := by
  rw [written_renderAll, outputOf_take h, ByteArray.extract_extract, Nat.zero_add, Nat.zero_add]

/-- A terminal display on an output that takes what still fits of a number of bytes and then fails.
It can be made ready exactly if there is room for four bytes, and the picture of a number can be
shown exactly if there is room for those and 2083 bytes for it and each picture before it; otherwise
it tells that the output is full, and so do all later ones. At any time the output holds the
beginning of what is written for all pictures, as far as there is room, and a success means that all
of it up to there is in the output. It makes no difference whether a picture is handed over in one
piece, or behind its control sequence once that got through. -/
theorem limited_output_holds_beginning (room : Nat) (screens : List Screen) :
    let stream := (outputOf screens).toUTF8
    let opened := start (.limited room)
    (clearSequence = "\x1b[2J" ∧ homeSequence = "\x1b[H" ∧
      (∀ screen : Screen, screen.terminalText.toUTF8.size = 2080) ∧
      stream.size = 4 + 2083 * screens.length) ∧
    (opened.2 = answer 4 room ∧ opened.1.written = stream.extract 0 (min room 4)) ∧
    (∀ k, k ≤ screens.length →
      let shown := renderAll opened.1 (screens.take k)
      shown.2 = (List.range k).map (fun j => answer (4 + 2083 * (j + 1)) room) ∧
      shown.1.written = stream.extract 0 (min room (4 + 2083 * k)) ∧
      (4 + 2083 * k ≤ room → shown.1.written = (outputOf (screens.take k)).toUTF8)) ∧
    ∀ (sink : Sink) (screen : Screen), render sink screen =
      match put sink homeSequence with
      | (after, .ok ()) => put after screen.terminalText
      | (after, .error e) => (after, .error e) := by
  intro stream opened
  have hclear : clearSequence.toUTF8.size = 4 := by decide
  have hready : opened.2 = answer 4 room := by
    rw [← hclear]
    exact answer_put rfl clearSequence
  have hroom : opened.1.room = some (room - 4) := by
    rw [← hclear]
    exact room_put rfl clearSequence
  have hwritten : ∀ k, k ≤ screens.length → (renderAll opened.1 (screens.take k)).1.written =
      stream.extract 0 (min room (4 + 2083 * k)) :=
    fun k hk => written_take hk room
  refine ⟨⟨rfl, rfl, Screen.size_terminalText, size_outputOf screens⟩,
    ⟨hready, hwritten 0 (Nat.zero_le _)⟩, fun k hk => ⟨?_, hwritten k hk, fun hfits => ?_⟩,
    render_eq⟩
  · have hanswers := answers_renderAll hroom (screens.take k)
    rw [List.length_take_of_le hk] at hanswers
    refine hanswers.trans (List.map_congr_left fun j _ => ?_)
    have hneed : 2083 * (j + 1) ≤ room - 4 ↔ 4 + 2083 * (j + 1) ≤ room := by omega
    rw [answer, answer, if_congr hneed rfl rfl]
  · rw [hwritten k hk, Nat.min_eq_right hfits, outputOf_take hk]

/-- Two pictures on an output that has room for the first, and behind it for the control sequence of
the second and nothing more. -/
theorem second_picture_cut_off :
    let second := Screen.blank.set 0 0 true
    let screens := [.blank, second]
    let opened := start (.limited 2090)
    let once := renderAll opened.1 (screens.take 1)
    let twice := renderAll opened.1 (screens.take 2)
    opened.2 = .ok () ∧
    (1 ≤ screens.length ∧ 4 + 2083 * 1 ≤ 2090 ∧ once.2 = [.ok ()] ∧
      once.1.written = (outputOf (screens.take 1)).toUTF8) ∧
    2 ≤ screens.length ∧ twice.2 = [.ok (), .error (.output Sink.fullReport)] ∧
      twice.1.written = (outputOf (screens.take 1) ++ homeSequence).toUTF8 := by
  intro second screens opened once twice
  obtain ⟨-, ⟨hready, -⟩, hshown, -⟩ := limited_output_holds_beginning 2090 screens
  obtain ⟨hfirst, -, hwhole⟩ := hshown 1 (Nat.le_succ 1)
  obtain ⟨hboth, hwritten, -⟩ := hshown 2 (Nat.le_refl 2)
  have hroom : 4 + 2083 * 1 ≤ 2090 := by decide
  have hwhole := hwhole hroom
  -- The outputs keep their names only, so that nothing is written where they are mentioned.
  clear_value (htwice : twice = _) (honce : once = _) (hopened : opened = _)
  rw [← hopened] at hready hfirst hwhole hboth hwritten
  rw [← honce] at hfirst hwhole
  rw [← htwice] at hboth hwritten
  refine ⟨hready, ⟨Nat.le_succ 1, hroom, hfirst.trans ?_, hwhole⟩, Nat.le_refl 2,
    hboth.trans ?_, hwritten.trans ?_⟩
  · simp [answer]
  · simp [answer, List.range_succ]
  -- The output ends where the picture behind the second control sequence begins.
  · have hsplit : outputOf screens =
        outputOf (screens.take 1) ++ homeSequence ++ second.terminalText := by
      simp [screens, outputOf_eq, frameText, String.append_assoc]
    have hsize : (outputOf (screens.take 1) ++ homeSequence).toUTF8.size = 2090 := by
      have hhome : homeSequence.toUTF8.size = 3 := by decide
      have hone : (screens.take 1).length = 1 := rfl
      rw [Sink.toUTF8_append, ByteArray.size_append, size_outputOf, hhome, hone]
    rw [hsplit, Sink.toUTF8_append]
    exact ByteArray.extract_append_eq_left hsize.symm

end Terminal

end Display

end Chip8
