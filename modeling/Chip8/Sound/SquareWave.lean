import Chip8.Sound.Fraction

/-!
# The square wave

The tone of the machine. The phase runs from zero to one and starts over; in the first half of it
the samples are above zero and in the second half below. A playback device asks for samples in
buffers of its own choice, and the phase is carried from one buffer to the next.
-/

namespace Chip8.Sound

/-- A square wave at some point of its period. -/
structure SquareWave where
  /-- How far the phase moves for each sample. -/
  increment : Float32
  /-- The point of the period, where one is a whole period. -/
  phase : Float32

namespace SquareWave

/-- The frequency of the tone in Hertz. -/
def toneHz : Float32 := 440

/-- The volume of the tone. -/
def volume : Float32 := 0.25

/-- The wave at the start of a period, for a device that plays a number of samples a second. -/
def new (sampleRate : UInt32) : SquareWave where
  increment := toneHz / Float32.ofNat sampleRate.toNat
  phase := 0

/-- The sample at the present phase. -/
def sample (w : SquareWave) : Float32 :=
  if w.phase < 0.5 then volume else -volume

/-- The wave one sample later. -/
def next (w : SquareWave) : SquareWave :=
  { w with phase := fraction (w.phase + w.increment) }

/-- A buffer of samples, and the wave after it. -/
def fill (w : SquareWave) : Nat → List Float32 × SquareWave
  | 0 => ([], w)
  | count + 1 =>
    let (rest, after) := w.next.fill count
    (w.sample :: rest, after)

/-- Buffers of samples one after the other, and the wave after them. -/
def fillAll (w : SquareWave) : List Nat → List (List Float32) × SquareWave
  | [] => ([], w)
  | count :: counts =>
    let (buffer, later) := w.fill count
    let (buffers, after) := later.fillAll counts
    (buffer :: buffers, after)

end SquareWave

end Chip8.Sound
