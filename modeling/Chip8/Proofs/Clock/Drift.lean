import Chip8.Clock
import Mathlib.Data.List.Chain

/-!
# The rate and the drift of the timer clock

A clock that is looked at again and again is never fast: the ticks that it gives, one interval each,
fit between the first look and the latest. It can be slow, because a tick is only noticed at the
next look and the wait for the one after it starts there. If the looks are never further apart than
a gap, each tick is late by less than that gap. `rate_and_drift_bounded` states both, for all
schedules of looks.

The time that the clock counts from is its reference. A look leaves the reference alone or moves it
to the present, by an interval at least (`tick_cases`). The bound on the rate needs no order of the
times: by induction on the looks, the reference is one of the times that were given, and as many
intervals after the first as the clock has ticked (`reference_look`). The bound on the drift is an
induction with the time of the look before as well, which is less than an interval after the
reference (`getLast_bounds`).
-/

namespace Chip8.Clock

/-- The clock after it was looked at at some times, one after the other. -/
def look (c : Clock) : List Nat → Clock
  | [] => c
  | now :: rest => (c.tick now).1.look rest

/-- How often the clock ticks when it is looked at at some times, one after the other. -/
def tickCount (c : Clock) : List Nat → Nat
  | [] => 0
  | now :: rest => (c.tick now).2.toNat + (c.tick now).1.tickCount rest

/-- A time comes next within a gap when it is not before the other and at most the gap after it. -/
def NextWithin (gap earlier later : Nat) : Prop :=
  earlier ≤ later ∧ later ≤ earlier + gap

instance (gap earlier later : Nat) : Decidable (NextWithin gap earlier later) :=
  inferInstanceAs (Decidable (earlier ≤ later ∧ later ≤ earlier + gap))

/-- Looks that come after others are looks at the clock that those leave. -/
theorem look_append (c : Clock) (earlier later : List Nat) :
    c.look (earlier ++ later) = (c.look earlier).look later := by
  induction earlier generalizing c with
  | nil => rfl
  | cons now rest ih => exact ih (c.tick now).1

/-- A look does not change the interval. -/
theorem interval_tick (c : Clock) (now : Nat) : (c.tick now).1.interval = c.interval := by
  unfold tick
  split
  · rfl
  · split <;> rfl

/-- Looks do not change the interval. -/
theorem interval_look (c : Clock) (times : List Nat) : (c.look times).interval = c.interval := by
  induction times generalizing c with
  | nil => rfl
  | cons now rest ih => exact (ih (c.tick now).1).trans (c.interval_tick now)

section Started

variable {c : Clock} {last : Nat}

/-- A look at a clock that was started finds that the interval has passed since the reference, and
moves the reference to the present, or it finds that it has not, and changes nothing. -/
theorem tick_cases (h : c.lastTick = some last) (now : Nat) :
    (c.interval ≤ now - last ∧ c.tick now = ({ c with lastTick := some now }, true)) ∨
      (now - last < c.interval ∧ c.tick now = (c, false)) := by
  by_cases hdue : c.interval ≤ now - last
  · exact .inl ⟨hdue, by simp only [tick, h, if_pos hdue]⟩
  · exact .inr ⟨Nat.lt_of_not_le hdue, by simp only [tick, h, if_neg hdue]⟩

/-- After any looks the reference is the one before or one of the times that were given, and at
least as many intervals after the one before as the clock has ticked. -/
theorem reference_look (h : c.lastTick = some last) (hpos : 0 < c.interval) (times : List Nat) :
    ∃ reference ∈ last :: times, (c.look times).lastTick = some reference ∧
      last + c.tickCount times * c.interval ≤ reference := by
  induction times generalizing c last with
  | nil => exact ⟨last, List.mem_cons_self, h, by simp only [tickCount]; omega⟩
  | cons now rest ih =>
    rw [look, tickCount]
    obtain ⟨hdue, ht⟩ | ⟨-, ht⟩ := tick_cases h now
    · rw [ht]
      obtain ⟨reference, hmem, hreference, hle⟩ :=
        ih (c := { c with lastTick := some now }) rfl hpos
      refine ⟨reference, List.mem_cons_of_mem last hmem, hreference, ?_⟩
      -- The tick is worth one interval, which lies between the old reference and the new one.
      dsimp only at hle ⊢
      rw [Bool.toNat_true, Nat.add_mul, Nat.one_mul]
      omega
    · rw [ht]
      obtain ⟨reference, hmem, hreference, hle⟩ := ih h hpos
      refine ⟨reference, ?_, hreference, ?_⟩
      · obtain rfl | hrest := List.mem_cons.mp hmem
        · exact List.mem_cons_self
        · exact List.mem_cons_of_mem last (List.mem_cons_of_mem now hrest)
      · dsimp only
        rwa [Bool.toNat_false, Nat.zero_add]

/-- If each look comes within a gap of the one before, the last of them is at least as many
intervals after the reference as the clock has ticked, and late by less than a gap for each of these
and less than an interval for the tick to come. -/
theorem getLast_bounds {gap previous : Nat} (h : c.lastTick = some last) (hpos : 0 < c.interval)
    (hle : last ≤ previous) (hrecent : previous < last + c.interval) {times : List Nat}
    (hgaps : (previous :: times).IsChain (NextWithin gap)) :
    last + c.tickCount times * c.interval ≤
        (previous :: times).getLast (List.cons_ne_nil _ _) ∧
      (previous :: times).getLast (List.cons_ne_nil _ _) <
        last + c.tickCount times * (c.interval + gap) + c.interval := by
  induction times generalizing c last previous with
  | nil =>
    simp only [tickCount, List.getLast_singleton]
    omega
  | cons now rest ih =>
    obtain ⟨⟨hfrom, hto⟩, hrest⟩ := List.isChain_cons_cons.mp hgaps
    rw [tickCount, List.getLast_cons_cons]
    obtain ⟨hdue, ht⟩ | ⟨hdue, ht⟩ := tick_cases h now
    · -- The reference is now, which is late by less than the gap since the look before was early.
      obtain ⟨hfast, hslow⟩ := ih (c := { c with lastTick := some now }) rfl hpos (Nat.le_refl now)
        (Nat.lt_add_of_pos_right hpos) hrest
      rw [ht]
      dsimp only at hfast hslow ⊢
      rw [Bool.toNat_true, Nat.add_mul, Nat.one_mul, Nat.add_mul, Nat.one_mul]
      omega
    · rw [ht]
      dsimp only
      rw [Bool.toNat_false, Nat.zero_add]
      exact ih h hpos (Nat.le_trans hle hfrom) (by omega) hrest

/-- A clock that has ticked does not tick again before the interval has passed, however long it had
not been looked at. -/
theorem rests_after_tick (hpos : 0 < c.interval) {now later : Nat} (hticks : (c.tick now).2 = true)
    (hlater : later < now + c.interval) : ((c.tick now).1.tick later).2 = false := by
  have hreference : (c.tick now).1.lastTick = some now := by
    cases hstarted : c.lastTick with
    | none => simp only [tick, hstarted]
    | some last =>
      obtain ⟨-, ht⟩ | ⟨-, ht⟩ := tick_cases hstarted now
      · rw [ht]
      · rw [ht] at hticks
        cases hticks
  obtain ⟨hdue, -⟩ | ⟨-, ht⟩ := tick_cases hreference later
  · rw [interval_tick] at hdue
    omega
  · rw [ht]

end Started

/-- A new clock that is looked at at any times, in any order, starts at the first of them without a
tick. The intervals that it ticks fit between the first time and the latest, and its reference never
moves backwards. However long a pause was, it is worth one tick. If no time is before the one that
was given before it, nor more than a gap behind it, the last time is at least as many intervals
after the first as there are ticks, and it is behind that by less than a gap for each tick and one
interval. -/
theorem rate_and_drift_bounded (interval : Nat) (hpos : 0 < interval) (first : Nat)
    (rest : List Nat) :
    let start : Clock := { interval := interval }
    let times := first :: rest
    let ticks := start.tickCount times
    (start.tick first).2 = false ∧
      first + ticks * interval ≤ times.max (List.cons_ne_nil _ _) ∧
      (∀ earlier later reference, times = earlier ++ later →
        (start.look earlier).lastTick = some reference →
        ∃ moved, (start.look times).lastTick = some moved ∧ reference ≤ moved) ∧
      (∀ now later, ((start.look times).tick now).2 = true → later < now + interval →
        (((start.look times).tick now).1.tick later).2 = false) ∧
      ∀ gap, times.IsChain (NextWithin gap) →
        first + ticks * interval ≤ times.getLast (List.cons_ne_nil _ _) ∧
          times.getLast (List.cons_ne_nil _ _) < first + ticks * (interval + gap) + interval := by
  intro start times ticks
  -- The first look only starts the clock, so that all ticks are those of the started one.
  let started : Clock := { interval := interval, lastTick := some first }
  have hticks : ticks = started.tickCount rest := Nat.zero_add _
  refine ⟨rfl, ?_, ?_, ?_, ?_⟩
  · obtain ⟨reference, hmem, -, hle⟩ := reference_look (c := started) rfl hpos rest
    rw [hticks]
    exact Nat.le_trans hle (List.le_max_of_mem hmem)
  · intro earlier later reference htimes hreference
    have hinterval : 0 < (start.look earlier).interval := by
      rw [interval_look]
      exact hpos
    obtain ⟨moved, -, hmoved, hle⟩ := reference_look hreference hinterval later
    rw [← look_append, ← htimes] at hmoved
    exact ⟨moved, hmoved, Nat.le_trans (Nat.le_add_right _ _) hle⟩
  · intro now later hnow hlater
    have hinterval : (start.look times).interval = interval := start.interval_look times
    rw [← hinterval] at hpos hlater
    exact rests_after_tick hpos hnow hlater
  · intro gap hgaps
    rw [hticks]
    exact getLast_bounds (c := started) rfl hpos (Nat.le_refl first)
      (Nat.lt_add_of_pos_right hpos) hgaps

/-- A clock with an interval of 7 that is looked at with gaps of at most 29. Two of the looks find
that it ticks. The pause before the second of these is worth several intervals but one tick only, as
is the one before a later look. -/
theorem two_ticks_over_a_pause :
    let start : Clock := { interval := 7 }
    let times := [3, 9, 11, 40, 46]
    0 < 7 ∧ times.IsChain (NextWithin 29) ∧ start.tickCount times = 2 ∧
      ((start.look [3, 9, 11]).lastTick = some 11 ∧
        ∃ moved, (start.look times).lastTick = some moved ∧ 11 ≤ moved) ∧
      (((start.look times).tick 90).2 = true ∧
        (((start.look times).tick 90).1.tick 96).2 = false) ∧
      3 + 2 * 7 ≤ times.max (List.cons_ne_nil _ _) ∧ 3 + 2 * 7 ≤ 46 ∧
      46 < 3 + 2 * (7 + 29) + 7 := by
  intro start times
  obtain ⟨-, hrate, hreference, hpause, hdrift⟩ :=
    rate_and_drift_bounded 7 (by decide) 3 [9, 11, 40, 46]
  have hgaps : times.IsChain (NextWithin 29) := by decide
  obtain ⟨hfast, hslow⟩ := hdrift 29 hgaps
  exact ⟨by decide, hgaps, rfl, ⟨rfl, hreference [3, 9, 11] [40, 46] 11 rfl rfl⟩,
    ⟨rfl, hpause 90 96 rfl (by decide)⟩, hrate, hfast, hslow⟩

end Chip8.Clock
