import Chip8.Sound.SquareWave
import Mathlib.Algebra.GroupWithZero.Nat
import Mathlib.Logic.Function.Iterate

/-!
# Buffers of the square wave

A playback device asks for samples in buffers, each of a length of its own choice, also of none.
Every sample is the one of the wave after so many steps (`fill_eq`), wherever in a buffer it stands,
and the wave behind a buffer is where the next one takes it up. So to fill buffers one after the
other is to fill one buffer of their total length (`fillAll_eq`), and it cannot be heard where the
device cuts (`buffers_cut_anywhere`).

Nothing is used of the numbers themselves: all of this holds whatever their sum, their comparison
and their fractional part are, also where a phase or an increment is infinite or not a number.
-/

namespace Chip8.Sound.SquareWave

/-- A buffer holds the samples of the wave step by step, and leaves the wave as many steps later. -/
theorem fill_eq (w : SquareWave) (count : Nat) :
    w.fill count = ((List.range count).map fun k => (next^[k] w).sample, next^[count] w) := by
  induction count generalizing w with
  | zero => rfl
  | succ count ih =>
    rw [fill, ih, List.range_succ_eq_map, List.map_cons, List.map_map]
    rfl

/-- A buffer is as long as was asked for. -/
theorem length_fill (w : SquareWave) (count : Nat) : (w.fill count).1.length = count := by
  rw [fill_eq, List.length_map, List.length_range]

/-- A buffer may be cut in two: the second part goes on with the wave behind the first. -/
theorem fill_add (w : SquareWave) (first second : Nat) :
    w.fill (first + second) =
      ((w.fill first).1 ++ ((w.fill first).2.fill second).1, ((w.fill first).2.fill second).2) := by
  induction first generalizing w with
  | zero =>
    rw [Nat.zero_add]
    rfl
  | succ first ih =>
    rw [Nat.succ_add, fill, ih]
    rfl

/-- Each buffer is as long as was asked for. -/
theorem lengths_fillAll (w : SquareWave) (counts : List Nat) :
    (w.fillAll counts).1.map List.length = counts := by
  induction counts generalizing w with
  | nil => rfl
  | cons count counts ih => exact congrArg₂ List.cons (w.length_fill count) (ih _)

/-- Buffers one after the other are one buffer of the total length. -/
theorem fillAll_eq (w : SquareWave) (counts : List Nat) :
    ((w.fillAll counts).1.flatten, (w.fillAll counts).2) = w.fill counts.sum := by
  induction counts generalizing w with
  | nil => rfl
  | cons count counts ih =>
    rw [List.sum_cons, fill_add, ← ih]
    rfl

/-- The sound does not depend on how the device cuts its buffers. Buffers of any lengths, filled one
after the other, have these lengths, hold together the samples of one buffer of the total length,
and leave the wave where that buffer leaves it. Each sample depends only on its place in the whole,
so that none is left out, repeated or moved at the end of a buffer. Two ways to cut the same total
give the same samples and leave the same wave. -/
theorem buffers_cut_anywhere (w : SquareWave) (counts : List Nat) :
    let played := w.fillAll counts
    played.1.map List.length = counts ∧
    played.1.flatten = (w.fill counts.sum).1 ∧ played.2 = (w.fill counts.sum).2 ∧
    played.1.flatten = ((List.range counts.sum).map fun k => (next^[k] w).sample) ∧
    played.2 = next^[counts.sum] w ∧
    ∀ others : List Nat, others.sum = counts.sum →
      (w.fillAll others).1.flatten = played.1.flatten ∧ (w.fillAll others).2 = played.2 := by
  intro played
  obtain ⟨hsamples, hafter⟩ := Prod.mk.inj (w.fillAll_eq counts)
  have hwhole := w.fill_eq counts.sum
  refine ⟨w.lengths_fillAll counts, hsamples, hafter, ?_, ?_, fun others hsum => ?_⟩
  · exact hsamples.trans (congrArg Prod.fst hwhole)
  · exact hafter.trans (congrArg Prod.snd hwhole)
  · exact Prod.mk.inj ((w.fillAll_eq others).trans (hsum ▸ (w.fillAll_eq counts).symm))

/-- Eight samples of a wave with four to a period, cut in the middle of a half period with an empty
buffer in between, and cut where a period ends. -/
theorem two_cuttings_of_two_periods :
    let w : SquareWave := { increment := 0.25, phase := 0 }
    [4, 4].sum = [3, 0, 5].sum ∧
    (w.fillAll [3, 0, 5]).1.flatten =
      [volume, volume, -volume, -volume, volume, volume, -volume, -volume] ∧
    (w.fillAll [4, 4]).1.flatten = (w.fillAll [3, 0, 5]).1.flatten ∧
    (w.fillAll [4, 4]).2 = (w.fillAll [3, 0, 5]).2 := by
  intro w
  obtain ⟨-, hsamples, -, -, -, hothers⟩ := w.buffers_cut_anywhere [3, 0, 5]
  obtain ⟨hsame, hafter⟩ := hothers [4, 4] rfl
  refine ⟨rfl, hsamples.trans ?_, hsame, hafter⟩
  decide +kernel

end Chip8.Sound.SquareWave
