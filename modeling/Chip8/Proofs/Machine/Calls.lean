import Chip8.Proofs.Machine.AddressRange
import Chip8.Proofs.Machine.Execution
import Chip8.Proofs.Machine.Fault

/-!
# Calls and returns

A call is matched by the return that first brings the call stack back to its depth. Between the two
the program may do what it likes, and so may whoever presses keys and takes frames.
`calls_and_returns_match` states this for every history, and says which instructions fail for the
state of the call stack.

One event pushes an address, or pops one, or leaves the call stack alone (`movesStack_respond`). So
the addresses at the bottom of the stack stay where they are as long as it does not get less deep
than they are many (`suffix_after`), and the event that takes the uppermost of them away is a return
to it (`return_of_depth_le`). The innermost call comes first in `frames`, so that the bottom of the
stack is a suffix.
-/

namespace Chip8

/-- The error that a reply tells of, if it tells of one. -/
def Reply.error? : Reply → Option Error
  | .refused e => some e
  | .faulted fault => some fault.error
  | _ => none

/-- Whether an error is about the state of the call stack. -/
def Error.concernsCallStack : Error → Bool
  | .emptyCallStack => true
  | .fullCallStack => true
  | _ => false

/-! ## Instructions that fail for the call stack -/

namespace Cpu

/-- An access that leaves memory is no matter of the call stack. -/
theorem concernsCallStack_of_checkAccess {start : UInt16} {count : Nat} {e : Error}
    (h : Memory.checkAccess start count = .error e) : e.concernsCallStack = false := by
  rw [error_of_checkAccess h]
  rfl

/-- Only a call fails because the call stack is full. -/
theorem check_eq_fullCallStack {c : Cpu} {i : Instruction} :
    c.check i = .error .fullCallStack ↔
      (∃ target, i = .call target) ∧ CallStack.capacity ≤ c.stack.depth := by
  constructor
  · intro h
    cases i <;> simp only [check, reduceCtorEq] at h
    case call target =>
      split at h
      · cases h
      · rename_i full
        exact ⟨⟨target, rfl⟩, Nat.le_of_not_lt full⟩
    case returnToCaller => split at h <;> cases h
    all_goals cases concernsCallStack_of_checkAccess h
  · rintro ⟨⟨target, rfl⟩, full⟩
    rw [check, if_neg (Nat.not_lt_of_le full)]

/-- Only a return fails because the call stack is empty. -/
theorem check_eq_emptyCallStack {c : Cpu} {i : Instruction} :
    c.check i = .error .emptyCallStack ↔ i = .returnToCaller ∧ c.stack.depth = 0 := by
  have hempty : c.stack.isEmpty = true ↔ c.stack.depth = 0 := by
    rw [CallStack.isEmpty, CallStack.depth, List.isEmpty_iff, List.length_eq_zero_iff]
  constructor
  · intro h
    cases i <;> simp only [check, reduceCtorEq] at h
    case returnToCaller =>
      split at h
      · rename_i empty
        exact ⟨rfl, hempty.mp empty⟩
      · cases h
    case call target => split at h <;> cases h
    all_goals cases concernsCallStack_of_checkAccess h
  · rintro ⟨rfl, empty⟩
    rw [check, if_pos (hempty.mpr empty)]

/-- A word that cannot be fetched is no matter of the call stack. -/
theorem concernsCallStack_of_readWord {m : Memory} {address : UInt16} {e : Error}
    (h : m.readWord address = .error e) : e.concernsCallStack = false := by
  unfold Memory.readWord at h
  cases ha : Memory.checkAccess address 2 with
  | ok => rw [ha] at h; cases h
  | error e' =>
    rw [ha] at h
    rw [← Except.error.inj h]
    exact concernsCallStack_of_checkAccess ha

/-- A word that encodes no instruction is no matter of the call stack. -/
theorem concernsCallStack_of_decode {word : UInt16} {e : Error}
    (h : Instruction.decode word = .error e) : e.concernsCallStack = false := by
  unfold Instruction.decode at h
  split at h
  · cases h
  · rw [← Except.error.inj h]
    split <;> rfl

/-- What comes next fails for the call stack only if it is an instruction that is refused. -/
theorem check_of_next_error {c : Cpu} {fault : Fault} (h : c.next = .error fault)
    (stack : fault.error.concernsCallStack = true) :
    ∃ word i, c.fetch = .ok (word, i) ∧ c.check i = .error fault.error := by
  unfold next fetch at h
  unfold fetch
  cases hr : c.memory.readWord c.pc with
  | error e =>
    rw [hr] at h
    cases h
    rw [concernsCallStack_of_readWord hr] at stack
    cases stack
  | ok word =>
    rw [hr] at h
    dsimp only at h ⊢
    cases hd : Instruction.decode word with
    | error e =>
      rw [hd] at h
      cases h
      rw [concernsCallStack_of_decode hd] at stack
      cases stack
    | ok i =>
      rw [hd] at h
      dsimp only at h ⊢
      cases hc : c.check i with
      | error e =>
        rw [hc] at h
        cases h
        exact ⟨word, i, rfl, hc⟩
      | ok => rw [hc] at h; cases h

/-- An instruction that is fetched and refused is the fault that comes next. -/
theorem next_of_check_error {c : Cpu} {word : UInt16} {i : Instruction} {e : Error}
    (fetched : c.fetch = .ok (word, i)) (refused : c.check i = .error e) :
    c.next = .error { pc := c.pc, word := some word, error := e } := by
  rw [next, fetched]
  dsimp only
  rw [refused]

/-! ## What an instruction does to the call stack -/

/-- What can happen to the call stack of a processor, by the instruction that is executed. -/
inductive MovesStack (c after : Cpu) : Option Instruction → Prop where
  /-- A call adds the address behind itself. -/
  | pushes {target : Address} (pushed : after.stack.frames = (c.pc + 2) :: c.stack.frames) :
    MovesStack c after (some (.call target))
  /-- A return takes away the address that it goes to. -/
  | pops (popped : c.stack.frames = after.pc :: after.stack.frames) :
    MovesStack c after (some .returnToCaller)
  /-- Nothing but a call or a return changes the call stack. -/
  | keeps {executed : Option Instruction} (calls : ∀ target, executed ≠ some (.call target))
      (returns : executed ≠ some .returnToCaller) (kept : after.stack.frames = c.stack.frames) :
    MovesStack c after executed

/-- What an instruction that is executed does to the call stack. -/
theorem movesStack_execute {c : Cpu} {i : Instruction} (ok : c.check i = .ok ()) :
    c.MovesStack (c.advance.execute i).state (some i) := by
  have hf := c.advance.flow_execute i
  -- What is left behind is named before the cases, which are about its two components only.
  generalize (c.advance.execute i).state = after at hf ⊢
  generalize hpc : after.pc = pc at hf
  generalize hstack : after.stack = stack at hf
  cases hf with
  | passes straight =>
    refine .keeps ?_ ?_ (congrArg CallStack.frames hstack)
    · rintro target ⟨⟩
      cases straight
    · rintro ⟨⟩
      cases straight
  | stays refused =>
    rw [check_advance, ok] at refused
    cases refused
  | jumps => exact .keeps nofun nofun (congrArg CallStack.frames hstack)
  | jumpsWithOffset => exact .keeps nofun nofun (congrArg CallStack.frames hstack)
  | calls => exact .pushes (congrArg CallStack.frames hstack)
  | returns top =>
    refine .pops ?_
    rw [hpc, hstack]
    exact top

end Cpu

namespace Machine

/-- A program that runs answers a step as what comes next says. -/
theorem answer_step {m : Machine} (h : m.FaultsHold) (loaded : m.loaded = true)
    (mode : m.cpu.mode = .running) (now : Nat) :
    (m.step now).answer = m.cpu.next.map fun _ => () := by
  have hs := m.stepsTo_step now
  generalize m.step now = stepped at hs ⊢
  cases hs with
  | stopped latched => rw [(h _ latched).next]; rfl
  | unloaded _ empty => rw [loaded] at empty; cases empty
  | waits _ _ waiting => rw [mode] at waiting; cases waiting
  | faults _ _ _ next => rw [next]; rfl
  | executes _ _ _ next => rw [next]; rfl

/-- An event fails for the state of the call stack exactly when it is a step and the upcoming
instruction is refused for that. -/
theorem error_respond_iff {m : Machine} (h : m.FaultsHold) (event : Event) {e : Error}
    (stack : e.concernsCallStack = true) :
    (m.respond event).answer.error? = some e ↔
      (∃ now, event = .step now) ∧ ∃ i, m.upcoming = some i ∧ m.cpu.check i = .error e := by
  constructor
  · intro he
    -- Whether the fault is known already or new, it is what comes next.
    have hnext : (∃ now, event = .step now) ∧ m.loaded = true ∧ m.cpu.mode = .running ∧
        ∃ fault, m.cpu.next = .error fault ∧ fault.error = e := by
      have hr := m.responds_respond event
      generalize m.respond event = outcome at he hr
      cases hr with
      | refusesSecond => cases he; cases stack
      | refusesLarge => cases he; cases stack
      | loads => cases he
      | refusesPress => cases he; cases stack
      | holds => cases he
      | delivers => cases he
      | refusesRelease => cases he; cases stack
      | releases => cases he
      | takes => cases he
      | steps step =>
        refine ⟨⟨_, rfl⟩, ?_⟩
        cases step with
        | stopped latched =>
          have hm := h _ latched
          exact ⟨hm.loaded, hm.mode, _, hm.next, Option.some.inj he⟩
        | unloaded => cases he; cases stack
        | waits => cases he
        | faults _ loaded mode next => exact ⟨loaded, mode, _, next, Option.some.inj he⟩
        | executes => cases he
    obtain ⟨hstep, loaded, mode, fault, next, rfl⟩ := hnext
    obtain ⟨word, i, hf, hc⟩ := Cpu.check_of_next_error next stack
    exact ⟨hstep, i, upcoming_eq_some.mpr ⟨loaded, mode, word, hf⟩, hc⟩
  · rintro ⟨⟨now, rfl⟩, i, up, hc⟩
    obtain ⟨loaded, mode, word, hf⟩ := upcoming_eq_some.mp up
    have ha := answer_step h loaded mode now
    rw [Cpu.next_of_check_error hf hc] at ha
    show (Reply.ofStep (m.step now).answer).error? = some e
    rw [ha]
    rfl

/-- An event that fails leaves the program counter and the call stack alone. -/
theorem flow_of_error {m : Machine} {event : Event} {e : Error}
    (h : (m.respond event).answer.error? = some e) :
    (m.respond event).state.cpu.pc = m.cpu.pc ∧
      (m.respond event).state.cpu.stack = m.cpu.stack := by
  have hr := m.responds_respond event
  generalize m.respond event = outcome at h hr ⊢
  cases hr with
  | refusesSecond => exact ⟨rfl, rfl⟩
  | refusesLarge => exact ⟨rfl, rfl⟩
  | refusesPress => exact ⟨rfl, rfl⟩
  | refusesRelease => exact ⟨rfl, rfl⟩
  | steps step =>
    cases step with
    | stopped => exact ⟨rfl, rfl⟩
    | unloaded => exact ⟨rfl, rfl⟩
    | waits => cases h
    | @faults fault _ _ _ next =>
      show (m.serviceTimers _).cpu.pc = m.cpu.pc ∧ (m.serviceTimers _).cpu.stack = m.cpu.stack
      rw [cpu_serviceTimers]
      exact ⟨rfl, rfl⟩
    | executes => cases h
  | _ => cases h

/-- An upcoming instruction that passes its check is executed by the next step. -/
theorem executed_of_upcoming {m : Machine} (h : m.FaultsHold) {i : Instruction}
    (up : m.upcoming = some i) (ok : m.cpu.check i = .ok ()) (now : Nat) :
    m.executed (.step now) = some i := by
  obtain ⟨loaded, mode, word, hf⟩ := upcoming_eq_some.mp up
  have ha := answer_step h loaded mode now
  rw [Cpu.next_eq_ok.mpr ⟨hf, ok⟩] at ha
  simp only [executed, ha, Except.map]
  exact up

/-! ## The bottom of the call stack -/

/-- An event does to the call stack what the instruction that it executes does. -/
theorem movesStack_respond (m : Machine) (event : Event) :
    m.cpu.MovesStack (m.respond event).state.cpu (m.executed event) := by
  have hr := m.responds_respond event
  cases event with
  | step now =>
    have hstate : (m.respond (.step now)).state = (m.step now).state := rfl
    have hpc : (m.serviceTimers now).cpu.pc = m.cpu.pc := by rw [cpu_serviceTimers]
    have hstack : (m.serviceTimers now).cpu.stack = m.cpu.stack := by rw [cpu_serviceTimers]
    rw [hstate]
    obtain ⟨i, hi, -, ok, hs⟩ | ⟨hi, hs | ⟨fault, hs⟩⟩ := m.step_cases now
    · have hcheck : (m.serviceTimers now).cpu.check i = .ok () := by
        rw [← Cpu.check_advance, check_serviceTimers, ok]
      rw [hs, hi]
      cases Cpu.movesStack_execute hcheck with
      | pushes pushed => exact .pushes (by rw [← hpc, ← hstack]; exact pushed)
      | pops popped => exact .pops (by rw [← hstack]; exact popped)
      | keeps calls returns kept => exact .keeps calls returns (by rw [← hstack]; exact kept)
    · rw [hs, hi]
      exact .keeps nofun nofun rfl
    · rw [hs, hi]
      exact .keeps nofun nofun (congrArg CallStack.frames hstack)
  | _ =>
    generalize m.respond _ = outcome at hr ⊢
    cases hr <;> exact .keeps nofun nofun rfl

/-- Throughout a history at least so many calls are in progress, from the machine at its start to
that at its end. -/
def KeepsDepth (m : Machine) (depth : Nat) (events : List Event) : Prop :=
  ∀ early, early <+: events → depth ≤ (m.after early).cpu.stack.depth

/-- In a history without events there is one machine to look at. -/
theorem keepsDepth_nil {m : Machine} {depth : Nat} :
    m.KeepsDepth depth [] ↔ depth ≤ m.cpu.stack.depth := by
  constructor
  · exact fun h => h [] List.nil_prefix
  · intro h early hp
    rw [List.prefix_nil.mp hp]
    exact h

/-- A depth is kept throughout a history if it is kept at its start and throughout the rest. -/
theorem keepsDepth_cons {m : Machine} {depth : Nat} {event : Event} {rest : List Event} :
    m.KeepsDepth depth (event :: rest) ↔
      depth ≤ m.cpu.stack.depth ∧ (m.respond event).state.KeepsDepth depth rest := by
  constructor
  · exact fun h => ⟨h [] List.nil_prefix,
      fun early hp => h (event :: early) (List.cons_prefix_cons.mpr ⟨rfl, hp⟩)⟩
  · rintro ⟨h, hrest⟩ early hp
    rcases List.prefix_cons_iff.mp hp with rfl | ⟨early, rfl, hbehind⟩
    · exact h
    · exact hrest early hbehind

instance decidableKeepsDepth (m : Machine) (depth : Nat) :
    (events : List Event) → Decidable (m.KeepsDepth depth events)
  | [] => decidable_of_iff (depth ≤ m.cpu.stack.depth) keepsDepth_nil.symm
  | event :: rest =>
    have := decidableKeepsDepth (m.respond event).state depth rest
    decidable_of_iff (depth ≤ m.cpu.stack.depth ∧ (m.respond event).state.KeepsDepth depth rest)
      keepsDepth_cons.symm

/-- Addresses at the bottom of the call stack stay there in an event after which the stack is at
least as deep as they are many. -/
theorem suffix_respond {m : Machine} {event : Event} {bottom : List UInt16}
    (h : bottom <:+ m.cpu.stack.frames)
    (deep : bottom.length ≤ (m.respond event).state.cpu.stack.depth) :
    bottom <:+ (m.respond event).state.cpu.stack.frames := by
  have hs := m.movesStack_respond event
  generalize m.executed event = executed at hs
  cases hs with
  | pushes pushed =>
    rw [pushed]
    exact h.trans (List.suffix_cons _ _)
  | pops popped =>
    rw [popped] at h
    rcases List.suffix_cons_iff.mp h with heq | h
    · -- The address that was popped is not one of them, for the stack is deep enough.
      rw [heq, CallStack.depth, List.length_cons] at deep
      omega
    · exact h
  | keeps _ _ kept =>
    rw [kept]
    exact h

/-- Addresses at the bottom of the call stack stay there as long as the stack is at least as deep as
they are many. -/
theorem suffix_after {m : Machine} {events : List Event} {bottom : List UInt16}
    (h : bottom <:+ m.cpu.stack.frames) (deep : m.KeepsDepth bottom.length events) :
    bottom <:+ (m.after events).cpu.stack.frames := by
  induction events generalizing m with
  | nil => exact h
  | cons event rest ih =>
    obtain ⟨-, deep⟩ := keepsDepth_cons.mp deep
    exact ih (suffix_respond h (deep [] List.nil_prefix)) deep

/-- The event that takes away the uppermost of the addresses at the bottom is the return to it. -/
theorem return_of_depth_le {m : Machine} {event : Event} {back : UInt16} {below : List UInt16}
    (h : back :: below <:+ m.cpu.stack.frames)
    (left : (m.respond event).state.cpu.stack.depth ≤ below.length) :
    m.executed event = some .returnToCaller ∧ (m.respond event).state.cpu.pc = back ∧
      (m.respond event).state.cpu.stack.frames = below := by
  have hlen := h.length_le
  have hs := m.movesStack_respond event
  rw [CallStack.depth] at left
  rw [List.length_cons] at hlen
  generalize m.executed event = executed at hs ⊢
  cases hs with
  | pushes pushed =>
    rw [pushed, List.length_cons] at left
    omega
  | pops popped =>
    rw [popped] at h
    rcases List.suffix_cons_iff.mp h with heq | h
    · obtain ⟨hpc, hbelow⟩ := List.cons.inj heq
      exact ⟨rfl, hpc.symm, hbelow.symm⟩
    · -- An address of the bottom would have been above the one that was popped.
      have hlen := h.length_le
      rw [List.length_cons] at hlen
      omega
  | keeps _ _ kept =>
    rw [kept] at left
    omega

/-- As long as more calls are in progress than before a call, the addresses of those from before and
the one behind the call stay at the bottom. -/
theorem bottom_of_call {m : Machine} {now : Nat} {target : Address} {later : List Event}
    (hcall : m.executed (.step now) = some (.call target))
    (deep : (m.after [.step now]).KeepsDepth (m.cpu.stack.depth + 1) later) :
    (m.cpu.pc + 2) :: m.cpu.stack.frames <:+
      ((m.after [.step now]).after later).cpu.stack.frames := by
  have hpushed : (m.after [.step now]).cpu.stack.frames =
      (m.cpu.pc + 2) :: m.cpu.stack.frames := by
    have hs := m.movesStack_respond (.step now)
    rw [hcall] at hs
    cases hs with
    | pushes pushed => exact pushed
    | keeps calls => exact absurd rfl (calls target)
  exact suffix_after (hpushed ▸ List.suffix_refl _) deep

/-- When an event fails because the call stack is full. -/
theorem error_eq_fullCallStack {m : Machine} (h : m.FaultsHold)
    (shallow : m.cpu.stack.depth ≤ CallStack.capacity) (event : Event) :
    (m.respond event).answer.error? = some .fullCallStack ↔
      (∃ now, event = .step now) ∧ (∃ target, m.upcoming = some (.call target)) ∧
        m.cpu.stack.depth = CallStack.capacity := by
  rw [error_respond_iff h event rfl]
  refine and_congr_right fun _ => ?_
  constructor
  · rintro ⟨i, up, hc⟩
    obtain ⟨⟨target, rfl⟩, full⟩ := Cpu.check_eq_fullCallStack.mp hc
    exact ⟨⟨target, up⟩, Nat.le_antisymm shallow full⟩
  · rintro ⟨⟨target, up⟩, full⟩
    exact ⟨_, up, Cpu.check_eq_fullCallStack.mpr ⟨⟨target, rfl⟩, Nat.le_of_eq full.symm⟩⟩

/-- When an event fails because the call stack is empty. -/
theorem error_eq_emptyCallStack {m : Machine} (h : m.FaultsHold) (event : Event) :
    (m.respond event).answer.error? = some .emptyCallStack ↔
      (∃ now, event = .step now) ∧ m.upcoming = some .returnToCaller ∧
        m.cpu.stack.depth = 0 := by
  rw [error_respond_iff h event rfl]
  refine and_congr_right fun _ => ?_
  constructor
  · rintro ⟨i, up, hc⟩
    obtain ⟨rfl, empty⟩ := Cpu.check_eq_emptyCallStack.mp hc
    exact ⟨up, empty⟩
  · rintro ⟨up, empty⟩
    exact ⟨_, up, Cpu.check_eq_emptyCallStack.mpr ⟨rfl, empty⟩⟩

/-! ## Whole histories -/

/-- A program that comes to a call with fewer than twenty-four calls in progress executes it. As
long as more calls are in progress than before, whatever happens, the addresses of those from before
stay at the bottom of the call stack, and the next one is that behind the call. What ends this is a
return, which goes there and leaves the call stack as it was before the call. More generally, the
call stack is the same at both ends of a history throughout which it does not get less deep than at
the start and at the end of which it is as deep again. An event fails for a full call stack exactly
when it is a step of a program that comes to a call with twenty-four calls in progress, and for an
empty one exactly when the program comes to a return with none. It then leaves the program counter
and the call stack as they were. -/
theorem calls_and_returns_match (config : Config) (entropy : Random.Key) (events : List Event) :
    let m := (new config entropy).after events
    (∀ now target, m.upcoming = some (.call target) → m.cpu.stack.depth < 24 →
      let called := m.after [.step now]
      m.executed (.step now) = some (.call target) ∧
        (m.cpu.pc + 2).toNat = m.cpu.pc.toNat + 2 ∧
        ∀ later, called.KeepsDepth (m.cpu.stack.depth + 1) later →
          (∃ inner, (called.after later).cpu.stack.addresses =
            m.cpu.stack.addresses ++ (m.cpu.pc + 2) :: inner) ∧
          ∀ event,
            let left := called.after (later ++ [event])
            left.cpu.stack.depth ≤ m.cpu.stack.depth →
              (called.after later).executed event = some .returnToCaller ∧
                left.cpu.pc = m.cpu.pc + 2 ∧ left.cpu.stack = m.cpu.stack) ∧
    (∀ stretch, m.KeepsDepth m.cpu.stack.depth stretch →
      (m.after stretch).cpu.stack.depth = m.cpu.stack.depth →
      (m.after stretch).cpu.stack = m.cpu.stack) ∧
    ∀ event,
      ((m.respond event).answer.error? = some .fullCallStack ↔
        (∃ now, event = .step now) ∧ (∃ target, m.upcoming = some (.call target)) ∧
          m.cpu.stack.depth = 24) ∧
      ((m.respond event).answer.error? = some .emptyCallStack ↔
        (∃ now, event = .step now) ∧ m.upcoming = some .returnToCaller ∧
          m.cpu.stack.depth = 0) ∧
      ∀ e, (m.respond event).answer.error? = some e →
        (m.respond event).state.cpu.pc = m.cpu.pc ∧
          (m.respond event).state.cpu.stack = m.cpu.stack := by
  intro m
  have hfaults : m.FaultsHold := faultsHold_after_new config entropy events
  have hrange : m.cpu.InRange := after_induction (P := fun n => n.cpu.InRange)
    (fun _ _ _ => inRange_of_responds) _ events (Cpu.inRange_initial _)
  refine ⟨?_, ?_, ?_⟩
  · -- From a call to its return: the bottom of the stack ends with the address behind the call.
    intro now target up room called
    have hcheck : m.cpu.check (.call target) = .ok () := if_pos room
    have hexec := executed_of_upcoming hfaults up hcheck now
    obtain ⟨-, -, word, hfetch⟩ := upcoming_eq_some.mp up
    have hnext := Cpu.next_eq_ok.mpr ⟨hfetch, hcheck⟩
    refine ⟨hexec, Cpu.toNat_advance (Cpu.pc_le_of_next hnext), fun later deep => ?_⟩
    have hbottom := bottom_of_call hexec deep
    constructor
    · obtain ⟨inner, hinner⟩ := hbottom
      refine ⟨inner.reverse, ?_⟩
      rw [CallStack.addresses, ← hinner]
      simp [CallStack.addresses]
    · intro event left popped
      have hleft : left = ((called.after later).respond event).state := after_append _ _ _
      rw [hleft] at popped ⊢
      obtain ⟨hi, hpc, hframes⟩ := return_of_depth_le hbottom popped
      exact ⟨hi, hpc, congrArg CallStack.mk hframes⟩
  · intro stretch deep hdepth
    have hsuffix := suffix_after (List.suffix_refl m.cpu.stack.frames) deep
    have heq := hsuffix.eq_of_length hdepth.symm
    exact congrArg CallStack.mk heq.symm
  · intro event
    exact ⟨error_eq_fullCallStack hfaults hrange.depth event,
      error_eq_emptyCallStack hfaults event, fun e => flow_of_error⟩

/-- A subroutine that calls another one, with a key pressed and a frame taken in between, comes back
to where it was called. A program that starts with a return fails there. -/
theorem nested_calls_return :
    let program : List UInt8 := [0x22, 0x04, 0x00, 0xEE, 0x22, 0x08, 0x00, 0xEE, 0x00, 0xEE]
    let later : List Event := [.step 1, .press 3, .step 2, .takeFrame]
    let m := (new {} (Vector.replicate 8 0)).after [.load program]
    let called := m.after [.step 0]
    let left := called.after (later ++ [.step 3])
    let stretch : List Event := .step 0 :: later ++ [.step 3]
    let other := (new {} (Vector.replicate 8 0)).after [.load [0x00, 0xEE]]
    (m.upcoming = some (.call 0x204) ∧ m.cpu.stack.depth < 24 ∧
      called.KeepsDepth (m.cpu.stack.depth + 1) later ∧
      left.cpu.stack.depth ≤ m.cpu.stack.depth) ∧
    ((called.after later).executed (.step 3) = some .returnToCaller ∧
      left.cpu.pc = m.cpu.pc + 2 ∧ left.cpu.stack = m.cpu.stack) ∧
    (m.KeepsDepth m.cpu.stack.depth stretch ∧
      (m.after stretch).cpu.stack.depth = m.cpu.stack.depth ∧
      (m.after stretch).cpu.stack = m.cpu.stack) ∧
    (other.respond (.step 0)).answer.error? = some .emptyCallStack ∧
      (other.respond (.step 0)).state.cpu.pc = other.cpu.pc ∧
      (other.respond (.step 0)).state.cpu.stack = other.cpu.stack := by
  intro program later m called left stretch other
  obtain ⟨hcalls, hstretch, -⟩ := calls_and_returns_match {} (Vector.replicate 8 0) [.load program]
  obtain ⟨-, -, herrors⟩ :=
    calls_and_returns_match {} (Vector.replicate 8 0) [.load [0x00, 0xEE]]
  obtain ⟨hup, hroom, hkeeps, hleft, hdeep, hdepth, herror⟩ :
      m.upcoming = some (.call 0x204) ∧ m.cpu.stack.depth < 24 ∧
      called.KeepsDepth (m.cpu.stack.depth + 1) later ∧
      left.cpu.stack.depth ≤ m.cpu.stack.depth ∧
      m.KeepsDepth m.cpu.stack.depth stretch ∧
      (m.after stretch).cpu.stack.depth = m.cpu.stack.depth ∧
      (other.respond (.step 0)).answer.error? = some .emptyCallStack := by
    decide +kernel
  obtain ⟨-, -, hreturns⟩ := hcalls 0 0x204 hup hroom
  refine ⟨⟨hup, hroom, hkeeps, hleft⟩, (hreturns later hkeeps).2 (.step 3) hleft,
    ⟨hdeep, hdepth, hstretch stretch hdeep hdepth⟩, herror, ?_⟩
  subst other
  exact (herrors (.step 0)).2.2 _ herror

end Machine

end Chip8
