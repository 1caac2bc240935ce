import Chip8.Proofs.Log.Lines
import Chip8.Proofs.Machine.Lifecycle

/-!
# What the log tells

A machine reports a program that it takes, each instruction before it executes it, a register that
begins to wait for a key, and the key that is handed to this register. `log_faithful_record` says
that the log of a whole history is a faithful record of these four things and of nothing else.

What an event reports is one equation over what it does (`log_respond`), so that each kind of
reports, read off the log of a history, lists what was done of this kind (`filterMap_log_replay`).
How the four kinds follow one another is a relation on stages of a log (`Log.Leads`), with one line
for each kind. Each event leads from one stage to the next (`leads_respond`), and so every history
does (`leads_replay`). All that is said about the order of reports is read off this relation.
-/

namespace Chip8

namespace Log

/-! ## Reading reports -/

namespace Entry

/-- The size of the program that a report tells of, and where it was put. -/
def loaded? : Entry → Option (Nat × UInt16)
  | .loaded size start => some (size, start)
  | _ => none

/-- The register that a report tells to have waited, and the key that it was given. -/
def stored? : Entry → Option (Register × Key)
  | .keyStored key x => some (x, key)
  | _ => none

/-- Whether a report is about a register and a key. -/
def concernsKeys : Entry → Bool
  | .awaitingKey _ | .keyStored _ _ => true
  | _ => false

/-- A program that is read off a log has a report there. -/
theorem mem_of_loaded? {log : List Entry} {size : Nat} {start : UInt16}
    (h : (size, start) ∈ log.filterMap loaded?) : .loaded size start ∈ log := by
  obtain ⟨e, he, hread⟩ := List.mem_filterMap.mp h
  cases e with
  | loaded =>
    cases hread
    exact he
  | _ => cases hread

end Entry

/-- The reports that belong to a register and the key that it was given. -/
def exchange (p : Register × Key) : List Entry :=
  [.awaitingKey p.1, .keyStored p.2 p.1]

/-! ## The order of reports -/

/-- How far a log has come. -/
inductive Stage where
  /-- No program was loaded. -/
  | empty
  /-- The program runs. -/
  | running
  /-- A register waits for a key. -/
  | waiting (x : Register)

/-- The report without an answer in a log that has come to a stage. -/
def Stage.unanswered : Stage → List Entry
  | .waiting x => [.awaitingKey x]
  | _ => []

/-- Reports lead from one stage of a log to another. -/
inductive Leads : Stage → List Entry → Stage → Prop where
  /-- Without reports nothing changes. -/
  | done {s : Stage} : Leads s [] s
  /-- A program is loaded. -/
  | loaded {size : Nat} {start : UInt16} {rest : List Entry} {t : Stage}
      (h : Leads .running rest t) : Leads .empty (.loaded size start :: rest) t
  /-- An instruction is executed, or tried. -/
  | executing {trace : Trace} {rest : List Entry} {t : Stage}
      (h : Leads .running rest t) : Leads .running (.executing trace :: rest) t
  /-- A register begins to wait. -/
  | awaits {x : Register} {rest : List Entry} {t : Stage}
      (h : Leads (.waiting x) rest t) : Leads .running (.awaitingKey x :: rest) t
  /-- The register that waits is given a key. -/
  | stores {x : Register} {key : Key} {rest : List Entry} {t : Stage}
      (h : Leads .running rest t) : Leads (.waiting x) (.keyStored key x :: rest) t

namespace Leads

variable {a b c : Stage} {log first later : List Entry} {x : Register}

/-- Reports in two parts go through a stage in between. -/
theorem append_iff : Leads a (first ++ later) c ↔ ∃ b, Leads a first b ∧ Leads b later c := by
  constructor
  · intro h
    induction first generalizing a with
    | nil => exact ⟨a, .done, h⟩
    | cons e rest ih =>
      -- The first report decides from which stage the rest of the first part leads on.
      cases h with
      | loaded h => obtain ⟨b, hb, hc⟩ := ih h; exact ⟨b, hb.loaded, hc⟩
      | executing h => obtain ⟨b, hb, hc⟩ := ih h; exact ⟨b, hb.executing, hc⟩
      | awaits h => obtain ⟨b, hb, hc⟩ := ih h; exact ⟨b, hb.awaits, hc⟩
      | stores h => obtain ⟨b, hb, hc⟩ := ih h; exact ⟨b, hb.stores, hc⟩
  · rintro ⟨b, hb, hc⟩
    induction hb with
    | done => exact hc
    | loaded _ ih => exact (ih hc).loaded
    | executing _ ih => exact (ih hc).executing
    | awaits _ ih => exact (ih hc).awaits
    | stores _ ih => exact (ih hc).stores

/-- The reports about keys are exchanges, each of a register and its key, but for the ends: an
exchange may have begun before, and the last one may not have ended. -/
theorem exchanges (h : Leads a log b) :
    a.unanswered ++ log.filter Entry.concernsKeys =
      (log.filterMap Entry.stored?).flatMap exchange ++ b.unanswered := by
  induction h with
  | done => exact List.append_nil _
  | loaded _ ih => exact ih
  | executing _ ih => exact ih
  | awaits _ ih => exact ih
  | @stores x key rest t _ ih =>
    calc
      _ = exchange (x, key) ++ rest.filter Entry.concernsKeys := rfl
      _ = exchange (x, key) ++ ((rest.filterMap Entry.stored?).flatMap exchange ++ t.unanswered) :=
        congrArg _ ih
      _ = _ := (List.append_assoc _ _ _).symm

/-- The report behind a register that waits is that of its key. -/
theorem answered (h : Leads a (first ++ .awaitingKey x :: later) b) :
    later = [] ∨ ∃ key rest, later = .keyStored key x :: rest := by
  obtain ⟨_, -, h⟩ := append_iff.mp h
  cases h with
  | awaits h =>
    cases h with
    | done => exact .inl rfl
    | stores => exact .inr ⟨_, _, rfl⟩

/-- Once there is a program no other one is reported. -/
theorem loaded_not_mem (h : Leads a log b) (hloaded : a ≠ .empty) (size : Nat) (start : UInt16) :
    Entry.loaded size start ∉ log := by
  induction h with
  | done => exact List.not_mem_nil
  | loaded => exact absurd rfl hloaded
  | executing _ ih => exact List.not_mem_cons_of_ne_of_not_mem nofun (ih nofun)
  | awaits _ ih => exact List.not_mem_cons_of_ne_of_not_mem nofun (ih nofun)
  | stores _ ih => exact List.not_mem_cons_of_ne_of_not_mem nofun (ih nofun)

/-- The first report of all is that of a program, and no later one is. -/
theorem first_loaded (h : Leads .empty log b) :
    log = [] ∨ ∃ size start rest, log = .loaded size start :: rest ∧
      ∀ size start, Entry.loaded size start ∉ rest := by
  cases h with
  | done => exact .inl rfl
  | loaded h => exact .inr ⟨_, _, _, rfl, h.loaded_not_mem nofun⟩

end Leads

end Log

/-- Nothing is reported of an instruction when it is executed, but for a register that begins to
wait. -/
theorem Cpu.log_execute (c : Cpu) (i : Instruction) :
    (c.execute i).log =
      match i with
      | .awaitKey x => [.awaitingKey x]
      | _ => [] := by
  cases i with
  | returnToCaller => simp only [execute, returnToCaller]; split <;> rfl
  | call => simp only [execute, call]; split <;> rfl
  | drawSprite => simp only [execute, drawSprite]; split <;> rfl
  | storeDigits => simp only [execute, store]; split <;> rfl
  | storeRegisters => simp only [execute, store]; split <;> rfl
  | loadRegisters => simp only [execute, loadRegisters]; split <;> rfl
  | _ => rfl

namespace Machine

/-! ## What is done -/

/-- The instruction that an event has the machine fetch and decode, with the word that encodes it
and the registers as they are before it is executed. A step does not come to this if the program has
stopped, if there is none, or if it waits for a key. -/
def decoded? (m : Machine) : Event → Option Log.Trace
  | .step _ =>
    match m.fault, m.loaded, m.cpu.mode, m.cpu.fetch with
    | none, true, .running, .ok (word, i) =>
      some {
        word := word
        instruction := i
        registers := m.cpu.registers
        index := m.cpu.index
        pc := m.cpu.pc }
    | _, _, _, _ => none
  | _ => none

/-- The register that begins to wait for a key in an event. -/
def awaited? (m : Machine) (event : Event) : Option Register :=
  match m.executed event with
  | some (.awaitKey x) => some x
  | _ => none

/-- The register that waits for a key, and the key that an event hands to it. -/
def handed? (m : Machine) : Event → Option (Register × Key)
  | .press b =>
    match m.cpu.mode, Key.ofByte b with
    | .awaitingKey x, .ok key => some (x, key)
    | _, _ => none
  | _ => none

/-- The reports that an event calls for. -/
def reports (m : Machine) (event : Event) : List Log.Entry :=
  ((m.accepted? event).toList.map fun program => .loaded program.length Memory.programStart) ++
    (m.decoded? event).toList.map .executing ++ (m.awaited? event).toList.map .awaitingKey ++
    (m.handed? event).toList.map fun p => .keyStored p.2 p.1

/-- The timers do not decide what is fetched. -/
theorem fetch_serviceTimers (m : Machine) (now : Nat) :
    (m.serviceTimers now).cpu.fetch = m.cpu.fetch := by
  rw [cpu_serviceTimers]
  exact Cpu.fetch_congr rfl rfl

/-- The timers do not appear in the report of an instruction. -/
theorem announcement_serviceTimers {m : Machine} (going : m.fault = none) (loaded : m.loaded = true)
    (mode : m.cpu.mode = .running) (now : Nat) :
    (m.serviceTimers now).announcement =
      (m.decoded? (.step now)).toList.map .executing := by
  rw [announcement, fetch_serviceTimers, decoded?, going, loaded, mode]
  cases m.cpu.fetch with
  | error => rfl
  | ok fetched =>
    dsimp only [trace]
    rw [cpu_serviceTimers]
    rfl

/-- What a step reports. -/
theorem log_step (m : Machine) (now : Nat) :
    (m.step now).log =
      (m.decoded? (.step now)).toList.map .executing ++
        (m.awaited? (.step now)).toList.map .awaitingKey := by
  have hs := m.stepsTo_step now
  rw [awaited?, executed]
  generalize m.step now = stepped at hs ⊢
  cases hs with
  | stopped latched => rw [decoded?, latched]; rfl
  | unloaded going empty => rw [decoded?, going, empty]; rfl
  | waits going loaded mode => rw [decoded?, upcoming, going, loaded, mode]; rfl
  | faults going loaded mode =>
    -- It may be decoded and then refused, but it is not executed and nothing begins to wait.
    rw [announcement_serviceTimers going loaded mode]
    exact (List.append_nil _).symm
  | @executes word i going loaded mode next =>
    obtain ⟨hfetch, -⟩ := Cpu.next_eq_ok.mp next
    have hup := upcoming_eq_some.mpr ⟨loaded, mode, word, hfetch⟩
    have hexecuting : [Log.Entry.executing ((m.serviceTimers now).trace word i)] =
        (m.decoded? (.step now)).toList.map .executing := by
      rw [← announcement_serviceTimers going loaded mode, announcement, fetch_serviceTimers, hfetch]
    dsimp only
    -- Behind its announcement only an instruction that begins to wait is reported once more.
    rw [← hexecuting, hup, Cpu.log_execute, List.singleton_append]
    cases i <;> rfl

/-- An event is reported as it should be. -/
theorem log_respond (m : Machine) (event : Event) :
    (m.respond event).log = m.reports event := by
  have hr := m.responds_respond event
  cases event with
  | step now =>
    show (m.step now).log = _
    rw [log_step]
    exact (List.append_nil _).symm
  | load program =>
    rw [reports, accepted?, answer_load]
    generalize m.respond _ = outcome at hr ⊢
    cases hr with
    | refusesSecond loaded => rw [loaded]; rfl
    | refusesLarge empty large =>
      have hroom : Memory.hasRoomFor program = false := decide_eq_false (Nat.not_le_of_lt large)
      rw [empty, hroom]
      rfl
    | loads empty fits =>
      have hroom : Memory.hasRoomFor program = true := decide_eq_true fits
      rw [empty, hroom]
      rfl
  | press b =>
    rw [reports, handed?]
    generalize m.respond _ = outcome at hr ⊢
    cases hr with
    | refusesPress unknown => rw [ofByte_of_le unknown]; cases m.cpu.mode <;> rfl
    | holds key name mode => rw [mode]; rfl
    | delivers key name mode => rw [ofByte_of_toNat name, mode]; rfl
  | _ =>
    generalize m.respond _ = outcome at hr ⊢
    cases hr <;> rfl

/-! ## Whole logs -/

section Read

variable {α β : Type} {read : Log.Entry → Option β} {view : Machine → Event → Option α} {f : α → β}

/-- What is read off the log of a history is what was done, if it is so for each event. -/
theorem filterMap_log_replay
    (h : ∀ m event, (reports m event).filterMap read = (view m event).toList.map f) (m : Machine)
    (events : List Event) :
    (m.replay events).log.filterMap read = (m.collect view events).map f := by
  induction events generalizing m with
  | nil => rfl
  | cons event rest ih =>
    calc
      _ = ((m.respond event).log ++ ((m.respond event).state.replay rest).log).filterMap read := rfl
      _ = (view m event).toList.map f ++ ((m.respond event).state.collect view rest).map f := by
        rw [List.filterMap_append, log_respond, h, ih]
      _ = _ := List.map_append.symm

end Read

/-- The reports of instructions in a log are those of the instructions that were decoded. -/
theorem trace_log_replay (m : Machine) (events : List Event) :
    (m.replay events).log.filter (fun e => e.level = .trace) =
      (m.collect decoded? events).map .executing := by
  rw [← List.filterMap_eq_filter]
  refine filterMap_log_replay (fun m event => ?_) m events
  rw [reports]
  cases m.accepted? event <;> cases m.decoded? event <;> cases m.awaited? event <;>
    cases m.handed? event <;> rfl

/-- The keys that were stored according to a log are those that were handed over. -/
theorem stored_log_replay (m : Machine) (events : List Event) :
    (m.replay events).log.filterMap Log.Entry.stored? = m.collect handed? events := by
  rw [← List.map_id (m.collect handed? events)]
  refine filterMap_log_replay (fun m event => ?_) m events
  rw [reports]
  cases m.accepted? event <;> cases m.decoded? event <;> cases m.awaited? event <;>
    cases m.handed? event <;> rfl

/-- The programs that were loaded according to a log are those that were taken. -/
theorem loaded_log_replay (m : Machine) (events : List Event) :
    (m.replay events).log.filterMap Log.Entry.loaded? =
      (m.collect accepted? events).map fun program =>
        (program.length, Memory.programStart) := by
  refine filterMap_log_replay (fun m event => ?_) m events
  rw [reports]
  cases m.accepted? event <;> cases m.decoded? event <;> cases m.awaited? event <;>
    cases m.handed? event <;> rfl

/-! ## The order of the reports -/

/-- How far the log of a machine has come. -/
def stage (m : Machine) : Log.Stage :=
  match m.cpu.mode, m.loaded with
  | .awaitingKey x, _ => .waiting x
  | .running, true => .running
  | .running, false => .empty

/-- The log of a program that runs has come as far. -/
theorem stage_of_running {m : Machine} (loaded : m.loaded = true) (mode : m.cpu.mode = .running) :
    m.stage = .running := by
  rw [stage, mode, loaded]

/-- The log of a program that waits for a key has come as far. -/
theorem stage_of_awaitingKey {m : Machine} {x : Register} (mode : m.cpu.mode = .awaitingKey x) :
    m.stage = .waiting x := by
  rw [stage, mode]

/-- Reports lead from one machine to another if they lead from stage to stage. -/
theorem leads_of_stages {m after : Machine} {a b : Log.Stage} {log : List Log.Entry}
    (hm : m.stage = a) (h : Log.Leads a log b) (hafter : after.stage = b) :
    Log.Leads m.stage log after.stage := by
  rw [hm, hafter]
  exact h

/-- What is reported when an instruction is executed leads on to where it is done. -/
theorem leads_execute {m : Machine} {i : Instruction} (loaded : m.loaded = true)
    (mode : m.cpu.mode = .running) (ok : m.cpu.check i = .ok ()) :
    Log.Leads .running (m.cpu.advance.execute i).log
      { m with cpu := (m.cpu.advance.execute i).state }.stage := by
  have hframe := Cpu.frame_execute ((m.cpu.check_advance i).trans ok)
  have hrunning (unawaited : i.awaits = false) :
      { m with cpu := (m.cpu.advance.execute i).state }.stage = .running :=
    stage_of_running loaded ((hframe.mode unawaited).trans mode)
  rw [Cpu.log_execute]
  cases i with
  | awaitKey x => exact Log.Leads.done.awaits
  | _ =>
    rw [hrunning rfl]
    exact .done

/-- A step leads on in the log. -/
theorem leads_step (m : Machine) (now : Nat) :
    Log.Leads m.stage (m.step now).log (m.step now).state.stage := by
  have hs := m.stepsTo_step now
  have hmode : (m.serviceTimers now).cpu.mode = m.cpu.mode := by rw [cpu_serviceTimers]
  generalize m.step now = stepped at hs ⊢
  cases hs with
  | stopped => exact .done
  | unloaded => exact .done
  | waits going loaded mode =>
    exact leads_of_stages (stage_of_awaitingKey mode) .done
      (stage_of_awaitingKey (hmode.trans mode))
  | faults going loaded mode =>
    have hannounced : Log.Leads .running (m.serviceTimers now).announcement .running := by
      rw [announcement]
      cases (m.serviceTimers now).cpu.fetch with
      | error => exact .done
      | ok => exact Log.Leads.done.executing
    exact leads_of_stages (stage_of_running loaded mode) hannounced
      (stage_of_running loaded (hmode.trans mode))
  | @executes word i going loaded mode next =>
    obtain ⟨-, hcheck⟩ := Cpu.next_eq_ok.mp next
    have hchecked : (m.serviceTimers now).cpu.check i = .ok () :=
      (Cpu.check_advance ..).symm.trans ((m.check_serviceTimers now i).trans hcheck)
    have hexecuted := leads_execute (m := m.serviceTimers now) loaded (hmode.trans mode) hchecked
    exact leads_of_stages (stage_of_running loaded mode) hexecuted.executing rfl

/-- An event leads on in the log, if nothing waits for a key before there is a program. -/
theorem leads_respond {m : Machine} (h : m.loaded = false → m.cpu.mode = .running) (event : Event) :
    Log.Leads m.stage (m.respond event).log (m.respond event).state.stage := by
  have hr := m.responds_respond event
  cases event with
  | step now => exact m.leads_step now
  | load program =>
    generalize m.respond _ = outcome at hr ⊢
    cases hr with
    | refusesSecond => exact .done
    | refusesLarge => exact .done
    | loads empty =>
      have hempty : m.stage = .empty := by rw [stage, h empty, empty]
      exact leads_of_stages hempty Log.Leads.done.loaded (stage_of_running rfl (h empty))
  | press b =>
    generalize m.respond _ = outcome at hr ⊢
    cases hr with
    | refusesPress => exact .done
    | holds => exact .done
    | delivers key name mode =>
      -- A register waits only if there is a program.
      have hloaded : m.loaded = true := by
        refine Bool.of_not_eq_false fun hempty => ?_
        cases mode.symm.trans (h hempty)
      exact leads_of_stages (stage_of_awaitingKey mode) Log.Leads.done.stores
        (stage_of_running hloaded rfl)
  | _ =>
    generalize m.respond _ = outcome at hr ⊢
    cases hr <;> exact .done

/-- Nothing waits for a key before there is a program. -/
theorem running_respond_of_unloaded {m : Machine} (h : m.loaded = false → m.cpu.mode = .running)
    (event : Event) (hempty : (m.respond event).state.loaded = false) :
    (m.respond event).state.cpu.mode = .running := by
  rw [loaded_respond, Bool.or_eq_false_iff] at hempty
  have hmode := h hempty.1
  have hnone : m.executed event = none := by
    refine Option.eq_none_iff_forall_ne_some.mpr fun i hi => ?_
    cases event with
    | step now =>
      obtain ⟨-, hup, -⟩ := executed_step_eq_some.mp hi
      obtain ⟨hloaded, -⟩ := upcoming_eq_some.mp hup
      cases hempty.1.symm.trans hloaded
    | _ => cases hi
  rw [mode_respond, hnone, hmode]
  exact ite_self _

/-- The log of a history leads from where it begins to where it ends. -/
theorem leads_replay {m : Machine} (h : m.loaded = false → m.cpu.mode = .running)
    (events : List Event) :
    Log.Leads m.stage (m.replay events).log (m.after events).stage := by
  induction events generalizing m with
  | nil => exact .done
  | cons event rest ih =>
    exact Log.Leads.append_iff.mpr
      ⟨_, leads_respond h event, ih (running_respond_of_unloaded h event)⟩

/-- The report that has no answer yet: that of the register that waits for a key. -/
def unanswered (m : Machine) : List Log.Entry :=
  match m.cpu.mode with
  | .awaitingKey x => [.awaitingKey x]
  | .running => []

/-- A log that has come as far as a machine ends as the machine says. -/
theorem unanswered_stage (m : Machine) : m.stage.unanswered = m.unanswered := by
  rw [stage, unanswered]
  cases m.cpu.mode <;> cases m.loaded <;> rfl

/-- The log of a new machine, whatever is done to it, is a faithful record. The instructions in it
are those that a step fetched and decoded, in order, with their words and with the registers as they
were before. The reports about keys alternate: a register begins to wait, and it is given a key, and
only the last one may have to wait still. The report behind a register that waits is that of its
key, so that no instruction is in between. A program that was taken is the first thing of all that is
reported, and is reported once; if none was taken nothing is reported. In the end stand the wordings
of the four reports, with two digits for each register in that of an instruction. Nothing of a report
is lost in its wording. -/
theorem log_faithful_record (config : Config) (entropy : Random.Key) (events : List Event) :
    let start := new config entropy
    let log := (start.replay events).log
    log.filter (fun e => e.level = .trace) = (start.collect decoded? events).map .executing ∧
    (log.filter Log.Entry.concernsKeys =
        (start.collect handed? events).flatMap Log.exchange ++ (start.after events).unanswered ∧
      ∀ before x later, log = before ++ .awaitingKey x :: later →
        later = [] ∨ ∃ key rest, later = .keyStored key x :: rest) ∧
    ((start.collect accepted? events = [] → log = []) ∧
      ∀ program ∈ start.collect accepted? events, ∃ rest,
        log = .loaded program.length 0x200 :: rest ∧
          ∀ size address, Log.Entry.loaded size address ∉ rest) ∧
    (∀ size, (Log.Entry.loaded size 0x200).line =
      "DEBUG " ++ ("loaded " ++ Text.decimal size ++ " byte rom at " ++ "0200")) ∧
    (∀ x : Register, (Log.Entry.awaitingKey x).line =
      "DEBUG " ++ ("awaiting key press for " ++ x.text)) ∧
    (∀ (key : Key) (x : Register), (Log.Entry.keyStored key x).line =
      "DEBUG " ++ ("key " ++ Text.hex 1 key.val ++ " written to " ++ x.text)) ∧
    (∀ t : Log.Trace, (Log.Entry.executing t).line =
      "TRACE " ++ (Text.hex 4 t.word.toNat ++ " " ++ t.instruction.text ++
        " v" ++ ("[" ++ ", ".intercalate
          (List.ofFn fun k : Fin 16 => Text.hex 2 (t.registers.get k).toNat) ++ "]") ++
        " i" ++ Text.hex 4 t.index.toNat ++ " pc" ++ Text.hex 4 t.pc.toNat)) ∧
    ∀ e e' : Log.Entry, e.line = e'.line → e = e' := by
  intro start log
  have hleads : Log.Leads .empty log (start.after events).stage :=
    leads_replay (m := start) (fun _ => rfl) events
  have hloaded : log.filterMap Log.Entry.loaded? = (start.collect accepted? events).map
      fun program => (program.length, Memory.programStart) := start.loaded_log_replay events
  refine ⟨start.trace_log_replay events, ⟨?_, fun before x later heq => ?_⟩, ⟨fun hnone => ?_,
    fun program hprogram => ?_⟩, fun _ => ?_, fun _ => rfl, fun _ _ => rfl, fun t => ?_,
    fun _ _ => Log.Entry.line_inj.mp⟩
  · have hexchanges := hleads.exchanges
    rw [start.stored_log_replay, unanswered_stage] at hexchanges
    exact hexchanges
  · rw [heq] at hleads
    exact hleads.answered
  · obtain hnil | ⟨size, address, rest, hlog, -⟩ := hleads.first_loaded
    · exact hnil
    · -- A program at the beginning of the log was taken.
      rw [hnone, hlog] at hloaded
      cases hloaded
  · have hreport : .loaded program.length Memory.programStart ∈ log := by
      refine Log.Entry.mem_of_loaded? ?_
      rw [hloaded]
      exact List.mem_map_of_mem hprogram
    obtain hnil | ⟨size, address, rest, hlog, hrest⟩ := hleads.first_loaded
    · rw [hnil] at hreport
      cases hreport
    · -- The report of the program is the only one of its kind, the first.
      rw [hlog] at hreport
      obtain heq | hlater := List.mem_cons.mp hreport
      · exact ⟨rest, by rw [hlog, ← heq]; rfl, hrest⟩
      · exact absurd hlater (hrest _ _)
  · have hstart : Text.hex 4 (0x200 : UInt16).toNat = "0200" := by decide
    rw [← hstart]
    rfl
  · rw [← Log.registersText_eq]
    rfl

/-- A program that waits for a key and then returns without a call, with a step before it is loaded,
keys too early and too large, a second program, a step during the wait, and one after the fault. Two
instructions are reported, the one that failed among them. Before the key there is a report that has
no answer. A machine that is given no program reports nothing. -/
theorem wait_and_fault_logged :
    let early : List Event :=
      [.step 0, .press 3, .load [0xF1, 0x0A, 0x00, 0xEE], .load [0x00], .step 1, .step 2, .press 16]
    let events := early ++ [.press 9, .step 3, .step 4, .release 9]
    let start := new {} (Vector.replicate 8 0)
    let log := (start.replay events).log
    let zeros : Vector UInt8 16 := Vector.replicate 16 0
    let awaiting : Log.Trace :=
      { word := 0xF10A, instruction := .awaitKey 1, registers := zeros, index := 0, pc := 0x200 }
    let returning : Log.Trace :=
      { word := 0x00EE, instruction := .returnToCaller, registers := zeros.set 1 9, index := 0
        pc := 0x202 }
    log = [.loaded 4 0x200, .executing awaiting, .awaitingKey 1, .keyStored 9 1,
        .executing returning] ∧
      log.filter (fun e => e.level = .trace) = [.executing awaiting, .executing returning] ∧
      log.filter Log.Entry.concernsKeys = Log.exchange (1, 9) ∧
      (start.replay early).log.filter Log.Entry.concernsKeys = [.awaitingKey 1] ∧
      (∃ key rest, log.drop 3 = .keyStored key 1 :: rest) ∧
      (∃ rest, log = .loaded 4 0x200 :: rest ∧
        ∀ size address, Log.Entry.loaded size address ∉ rest) ∧
      (start.replay [.step 0, .press 3]).log = [] := by
  intro early events start log zeros awaiting returning
  obtain ⟨htraces, ⟨hkeys, hanswered⟩, ⟨-, hloaded⟩, -⟩ :=
    log_faithful_record {} (Vector.replicate 8 0) events
  obtain ⟨-, ⟨hearly, -⟩, -⟩ := log_faithful_record {} (Vector.replicate 8 0) early
  obtain ⟨-, -, ⟨hempty, -⟩, -⟩ :=
    log_faithful_record {} (Vector.replicate 8 0) [.step 0, .press 3]
  obtain ⟨hlog, hdecoded, hhanded, haccepted, hlate, hearlyHanded, hwaiting⟩ :
      log = [.loaded 4 0x200, .executing awaiting] ++
          .awaitingKey 1 :: [.keyStored 9 1, .executing returning] ∧
        start.collect decoded? events = [awaiting, returning] ∧
        start.collect handed? events = [(1, 9)] ∧
        [0xF1, 0x0A, 0x00, 0xEE] ∈ start.collect accepted? events ∧
        (start.after events).unanswered = [] ∧ start.collect handed? early = [] ∧
        (start.after early).unanswered = [.awaitingKey 1] := by
    decide +kernel
  have hkey : ∃ key rest, log.drop 3 = .keyStored key 1 :: rest := by
    have hbehind : log.drop 3 = [.keyStored 9 1, .executing returning] := congrArg _ hlog
    rw [hbehind]
    exact (hanswered _ _ _ hlog).resolve_left nofun
  rw [hdecoded] at htraces
  rw [hhanded, hlate] at hkeys
  rw [hearlyHanded, hwaiting] at hearly
  exact ⟨hlog, htraces, hkeys, hearly, hkey, hloaded _ haccepted, hempty (by decide +kernel)⟩

end Machine

end Chip8
