import Chip8.Machine.Step

/-!
# Histories

Everything that can be done to a machine is an event, and a history is a list of events. `respond`
says what one event does, and `replay` what a history does: the machine after it, the answers, and
all that was reported, each in order.
-/

namespace Chip8

/-- Something that is done to a machine. -/
inductive Event where
  /-- A program is loaded. -/
  | load (program : List UInt8)
  /-- The key that a byte names is pressed. -/
  | press (key : UInt8)
  /-- The key that a byte names is released. -/
  | release (key : UInt8)
  /-- The waiting frame is taken. -/
  | takeFrame
  /-- The machine makes a step at a time in nanoseconds. -/
  | step (now : Nat)
  deriving DecidableEq

/-- What a machine answers to an event. -/
inductive Reply where
  /-- It was done. -/
  | done
  /-- It was refused. -/
  | refused (e : Error)
  /-- The step failed. -/
  | faulted (fault : Fault)
  /-- This frame was taken, or none was waiting. -/
  | frame (screen : Option Screen)
  deriving DecidableEq

namespace Reply

/-- The reply to a request. -/
def ofRequest : Except Error Unit → Reply
  | .ok () => done
  | .error e => refused e

/-- The reply to a step. -/
def ofStep : Except Fault Unit → Reply
  | .ok () => done
  | .error fault => faulted fault

end Reply

/-- An outcome with its answer seen as something else. -/
def Outcome.mapAnswer {σ α β : Type} (f : α → β) (o : Outcome σ α) : Outcome σ β where
  state := o.state
  answer := f o.answer
  log := o.log

namespace Machine

/-- What an event does to a machine. -/
def respond (m : Machine) : Event → Outcome Machine Reply
  | .load program => (m.load program).mapAnswer .ofRequest
  | .press key => (m.press key).mapAnswer .ofRequest
  | .release key => (m.release key).mapAnswer .ofRequest
  | .takeFrame => m.takeFrame.mapAnswer .frame
  | .step now => (m.step now).mapAnswer .ofStep

/-- What a history does to a machine. -/
def replay (m : Machine) : List Event → Outcome Machine (List Reply)
  | [] => { state := m, answer := [] }
  | event :: rest =>
    let first := m.respond event
    let later := first.state.replay rest
    { state := later.state
      answer := first.answer :: later.answer
      log := first.log ++ later.log }

/-- The machine after a history. -/
def after (m : Machine) (events : List Event) : Machine :=
  (m.replay events).state

/-- A history in two parts leaves the machine where the second part takes it from the first. -/
theorem after_append (m : Machine) (first later : List Event) :
    m.after (first ++ later) = (m.after first).after later := by
  induction first generalizing m with
  | nil => rfl
  | cons event rest ih => exact ih (m.respond event).state

end Machine

end Chip8
