import Chip8.Error

/-!
# The call stack

The return addresses of the subroutines that are being executed, at most twenty-four of them.
-/

namespace Chip8

/-- The return addresses of the calls in progress. -/
structure CallStack where
  /-- The return addresses, that of the innermost call first. -/
  frames : List UInt16 := []
  deriving DecidableEq, Repr

namespace CallStack

/-- How many calls may be in progress at once. -/
def capacity : Nat := 24

/-- The call stack before the first call. -/
def empty : CallStack := {}

/-- How many calls are in progress. -/
def depth (s : CallStack) : Nat :=
  s.frames.length

/-- Whether no call is in progress. -/
def isEmpty (s : CallStack) : Bool :=
  s.frames.isEmpty

/-- The return addresses in the order of the calls, that of the outermost call first. -/
def addresses (s : CallStack) : List UInt16 :=
  s.frames.reverse

/-- Remembers a return address, if there is a place for it. -/
def push (s : CallStack) (address : UInt16) : Except Error CallStack :=
  if s.depth < capacity then .ok ⟨address :: s.frames⟩ else .error .fullCallStack

/-- Takes the return address of the innermost call. -/
def pop (s : CallStack) : Except Error (UInt16 × CallStack) :=
  match s.frames with
  | [] => .error .emptyCallStack
  | address :: outer => .ok (address, ⟨outer⟩)

end CallStack

end Chip8
