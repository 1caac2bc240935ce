import Chip8.Proofs.Cpu.Transfer
import Chip8.Proofs.Machine.LastWriter

/-!
# Saved registers

A program saves registers in memory and restores them later, whatever it did in between. It finds
them again if the index register points to the block where they were saved and the block still holds
what was saved there (`Cpu.KeepsBlock`). In between the program may run through any history: that it
does not move the index register and stores nothing in the block is enough (`keepsBlock_after`), and
that it undid what it changed there would be as well.

`block_transfers_round_trip` says so of the registers up to any one of them, and of the decimal
digits of a register.
-/

namespace Chip8.Machine

/-! ## What is between a store and a load -/

/-- The index register is the same after an event that does not move it. -/
theorem index_respond {m : Machine} {event : Event}
    (h : (m.executed event).any Instruction.movesIndex = false) :
    (m.respond event).state.cpu.index = m.cpu.index := by
  cases hi : m.executed event with
  | none => exact (untouched_respond hi).2.1
  | some i =>
    obtain ⟨delay, sound, hframe⟩ := frame_of_executed hi
    rw [hi] at h
    exact hframe.index h

/-- The index register is the same after a history that does not move it. -/
theorem index_after {m : Machine} {events : List Event}
    (unmoved : m.Avoids Instruction.movesIndex events) :
    (m.after events).cpu.index = m.cpu.index :=
  avoids_induction (P := fun n => n.cpu.index = m.cpu.index)
    (fun _ _ h still => (index_respond still).trans h) rfl unmoved

/-- A byte is the same after a history that puts nothing over it. -/
theorem byteAt_after {m : Machine} {events : List Event} {k : Nat} (hk : k < 4096)
    (spared : ∀ p ∈ m.collect patch? events, p.at? k = none) :
    (m.after events).cpu.memory.byteAt k = m.cpu.memory.byteAt k := by
  have hnone : (m.collect patch? events).filterMap (Memory.Patch.at? k) = [] :=
    List.filterMap_eq_nil_iff.mpr spared
  rw [memory_after, Memory.byteAt_foldl_patch _ _ hk, hnone]
  rfl

/-- A history that does not move the index register and stores nothing in the block there keeps the
block. -/
theorem keepsBlock_after {m : Machine} {events : List Event} {count : Nat}
    (inside : m.cpu.index.toNat + count ≤ 4096)
    (unmoved : m.Avoids Instruction.movesIndex events)
    (spared : ∀ p ∈ m.collect patch? events, ∀ k, k < count →
      p.at? (m.cpu.index.toNat + k) = none) :
    m.cpu.KeepsBlock (m.after events).cpu count := by
  have hindex := index_after unmoved
  refine ⟨hindex, ?_⟩
  rw [Cpu.block, Cpu.block, hindex]
  refine List.map_congr_left fun k hk => ?_
  have hlt := List.mem_range.mp hk
  exact byteAt_after (by omega) fun p hp => spared p hp k hlt

/-! ## A store and a load -/

/-- The timers do not matter to a store: after a step that executes it, the block is as if it had
been executed on its own. -/
theorem executed_store {m : Machine} {now : Nat} {i : Instruction} {count : Nat}
    (h : m.executed (.step now) = some i) (transfers : i.transferSize? = some count)
    (stores : i.storeSize = count) :
    m.cpu.index.toNat + count ≤ 4096 ∧ (m.step now).state.cpu.index = m.cpu.index ∧
      (m.step now).state.cpu.block count = m.cpu.stored i := by
  obtain ⟨delay, sound, ok, hs⟩ := cpu_of_executed h
  rw [← Cpu.answer_execute] at ok
  obtain ⟨hinside, -, hindex⟩ :=
    Cpu.execute_transfer (c := { m.cpu with delay := delay, sound := sound }.advance) transfers
  have hstored : { m.cpu with delay := delay, sound := sound }.advance.stored i =
      m.cpu.stored i := by
    cases i <;> rfl
  rw [hs, Cpu.block_execute ok transfers stores]
  exact ⟨hinside.mp ok, hindex, hstored⟩

/-- A machine that comes to a load after a store, with the block as the store left it, loads what was
stored. -/
theorem executed_load {m later : Machine} {now : Nat} {i : Instruction} {x : Register}
    (h : m.executed (.step now) = some i) (transfers : i.transferSize? = some (x.val + 1))
    (stores : i.storeSize = x.val + 1)
    (keeps : (m.step now).state.cpu.KeepsBlock later.cpu (x.val + 1))
    (going : later.fault = none) (up : later.upcoming = some (.loadRegisters x)) (next : Nat) :
    later.executed (.step next) = some (.loadRegisters x) ∧
      ∀ r, (later.step next).state.cpu.get r =
        (m.cpu.stored i)[r.val]?.getD (later.cpu.get r) := by
  obtain ⟨hinside, hindex, hblock⟩ := executed_store h transfers stores
  have hload : later.executed (.step next) = some (.loadRegisters x) := by
    refine executed_step_eq_some.mpr ⟨going, up, ?_⟩
    rw [Cpu.check_of_transfer rfl, Cpu.checkAccess_eq_ok, keeps.1, hindex]
    exact hinside
  refine ⟨hload, fun r => ?_⟩
  obtain ⟨delay, sound, ok, hs⟩ := cpu_of_executed hload
  rw [← Cpu.answer_execute] at ok
  rw [hs, Cpu.get_loadRegisters ok, ← hblock, ← keeps.2]
  rfl

/-- A transfer of a block succeeds exactly if the block lies in memory. If not it is refused for the
first address of the block that does not exist, and changes nothing. The index register stays where
it is.

Registers that are stored are loaded again, and the others left alone, in any later state that has
the index register where it was and the bytes there as they were stored. The digits of a register are
stored as three digits that make up its value, and a load of three registers in such a state has one
in each. The same is true of a machine at such a load, after any history in which the program does
not stop, and it does load. A history that does not move the index register and puts nothing in the
block leaves it as it was stored. -/
theorem block_transfers_round_trip :
    (∀ (c : Cpu) (i : Instruction) (count : Nat), i.transferSize? = some count →
      ((c.execute i).answer = .ok () ↔ c.index.toNat + count ≤ 4096) ∧
      (4096 < c.index.toNat + count →
        c.execute i = Cpu.failure c (.outsideMemory (max c.index.toNat 4096))) ∧
      (c.execute i).state.index = c.index) ∧
    (∀ (c later : Cpu) (x : Register), (c.execute (.storeRegisters x)).answer = .ok () →
      (c.execute (.storeRegisters x)).state.KeepsBlock later (x.val + 1) →
      (later.execute (.loadRegisters x)).answer = .ok () ∧
      ∀ r, (later.execute (.loadRegisters x)).state.get r =
        if r ≤ x then c.get r else later.get r) ∧
    (∀ (c : Cpu) (x : Register), (c.execute (.storeDigits x)).answer = .ok () →
      ∃ a b d, Cpu.AreDigits a b d (c.get x) ∧
        (c.execute (.storeDigits x)).state.block 3 = [a, b, d] ∧
        ∀ later, (c.execute (.storeDigits x)).state.KeepsBlock later 3 →
          let loaded := later.execute (.loadRegisters 2)
          loaded.answer = .ok () ∧
            loaded.state.get 0 = a ∧ loaded.state.get 1 = b ∧ loaded.state.get 2 = d) ∧
    (∀ (m : Machine) (now next : Nat) (x : Register) (between : List Event),
      let later := (m.step now).state.after between
      later.fault = none →
      (m.executed (.step now) = some (.storeRegisters x) →
        (m.step now).state.cpu.KeepsBlock later.cpu (x.val + 1) →
        later.upcoming = some (.loadRegisters x) →
        later.executed (.step next) = some (.loadRegisters x) ∧
        ∀ r, (later.step next).state.cpu.get r =
          if r ≤ x then m.cpu.get r else later.cpu.get r) ∧
      (m.executed (.step now) = some (.storeDigits x) →
        (m.step now).state.cpu.KeepsBlock later.cpu 3 →
        later.upcoming = some (.loadRegisters 2) →
        later.executed (.step next) = some (.loadRegisters 2) ∧
        Cpu.AreDigits ((later.step next).state.cpu.get 0) ((later.step next).state.cpu.get 1)
          ((later.step next).state.cpu.get 2) (m.cpu.get x))) ∧
    ∀ (m : Machine) (events : List Event) (count : Nat), m.cpu.index.toNat + count ≤ 4096 →
      m.Avoids Instruction.movesIndex events →
      (∀ p ∈ m.collect patch? events, ∀ k, k < count → p.at? (m.cpu.index.toNat + k) = none) →
      m.cpu.KeepsBlock (m.after events).cpu count := by
  refine ⟨fun c i count h => Cpu.execute_transfer h, fun c later x ok keeps => ?_,
    fun c x ok => ?_, fun m now next x between => ?_,
    fun m events count inside unmoved spared => keepsBlock_after inside unmoved spared⟩
  · obtain ⟨hload, hget⟩ := Cpu.loaded_of_stored ok rfl rfl keeps
    refine ⟨hload, fun r => ?_⟩
    rw [hget, ← Cpu.getD_registersUpTo]
    rfl
  · refine ⟨_, _, _, Cpu.areDigits_decimalDigits (c.get x), Cpu.block_execute ok rfl rfl, ?_⟩
    intro later keeps
    obtain ⟨hload, hget⟩ := Cpu.loaded_of_stored (x := 2) ok rfl rfl keeps
    exact ⟨hload, hget 0, hget 1, hget 2⟩
  · intro later going
    constructor
    · intro h keeps up
      obtain ⟨hload, hget⟩ := executed_load h rfl rfl keeps going up next
      refine ⟨hload, fun r => ?_⟩
      rw [hget, ← Cpu.getD_registersUpTo]
      rfl
    · intro h keeps up
      obtain ⟨hload, hget⟩ := executed_load h rfl rfl keeps going up next
      refine ⟨hload, ?_⟩
      rw [hget 0, hget 1, hget 2]
      exact Cpu.areDigits_decimalDigits _

/-- A program stores the digits of 254 and loads them. Then it saves the three registers, overwrites
the first one and restores them. Two registers do not fit at the last byte of memory. -/
theorem digits_saved_and_restored :
    let n := (new {} (Vector.replicate 8 0)).after [.load [0x60, 0xFE, 0xA3, 0x00, 0xF0, 0x33, 0xF2,
      0x65, 0xF2, 0x55, 0x60, 0x09, 0xF2, 0x65], .step 0, .step 1]
    let noted := (n.step 2).state.after [.press 7]
    let m := (noted.step 3).state
    let later := (m.step 4).state.after [.step 5]
    let last : Cpu := { m.cpu with index := 0xFFF }
    ((Instruction.storeRegisters 1).transferSize? = some 2 ∧ 4096 < last.index.toNat + 2 ∧
      last.execute (.storeRegisters 1) = Cpu.failure last (.outsideMemory 0x1000)) ∧
    (noted.fault = none ∧ n.executed (.step 2) = some (.storeDigits 0) ∧
      (n.step 2).state.cpu.KeepsBlock noted.cpu 3 ∧ noted.upcoming = some (.loadRegisters 2) ∧
      Cpu.AreDigits (m.cpu.get 0) (m.cpu.get 1) (m.cpu.get 2) 254) ∧
    ((m.step 4).state.cpu.index.toNat + 3 ≤ 4096 ∧
      (m.step 4).state.Avoids Instruction.movesIndex [.step 5] ∧
      (m.step 4).state.collect patch? [.step 5] = [] ∧
      (m.step 4).state.cpu.KeepsBlock later.cpu 3) ∧
    later.fault = none ∧ m.executed (.step 4) = some (.storeRegisters 2) ∧
      later.upcoming = some (.loadRegisters 2) ∧ later.cpu.get 0 = 9 ∧
      (later.step 6).state.cpu.get 0 = 2 ∧ (later.step 6).state.cpu.get 1 = 5 ∧
      (later.step 6).state.cpu.get 2 = 4 := by
  intro n noted m later last
  obtain ⟨htransfer, -, -, hrun, hkeeps⟩ := block_transfers_round_trip
  -- The machines keep their names only, so that nothing of them is evaluated where they are mentioned.
  clear_value (hlater : later = _) (hm : m = _) (hnoted : noted = _) (hn : n = _)
  obtain ⟨⟨hgoing, hstore, hindex, hblock, hload, hvalue⟩, ⟨hinside, hunmoved, hspared⟩,
      ⟨hgoing', hstore', hload', hused⟩, hzero, hone, htwo⟩ :
      (noted.fault = none ∧ n.executed (.step 2) = some (.storeDigits 0) ∧
        noted.cpu.index = (n.step 2).state.cpu.index ∧
        noted.cpu.block 3 = (n.step 2).state.cpu.block 3 ∧
        noted.upcoming = some (.loadRegisters 2) ∧ n.cpu.get 0 = 254) ∧
      ((m.step 4).state.cpu.index.toNat + 3 ≤ 4096 ∧
        (m.step 4).state.Avoids Instruction.movesIndex [.step 5] ∧
        (m.step 4).state.collect patch? [.step 5] = []) ∧
      (later.fault = none ∧ m.executed (.step 4) = some (.storeRegisters 2) ∧
        later.upcoming = some (.loadRegisters 2) ∧ later.cpu.get 0 = 9) ∧
      m.cpu.get 0 = 2 ∧ m.cpu.get 1 = 5 ∧ m.cpu.get 2 = 4 := by
    rw [hlater, hm, hnoted, hn]
    decide +kernel
  have hbehind : 4096 < last.index.toNat + 2 := by
    show 4096 < UInt16.toNat 0xFFF + 2
    decide
  have hrefused := (htransfer last (.storeRegisters 1) 2 rfl).2.1 hbehind
  have hnotes := hrun n 2 3 0 [.press 7]
  rw [← hnoted] at hnotes
  obtain ⟨-, hdigits⟩ := (hnotes hgoing).2 hstore ⟨hindex, hblock⟩ hload
  rw [← hm, hvalue] at hdigits
  have hkept : (m.step 4).state.cpu.KeepsBlock later.cpu 3 := by
    rw [hlater]
    refine hkeeps _ _ 3 hinside hunmoved fun p hp => ?_
    rw [hspared] at hp
    cases hp
  have hrestored := hrun m 4 6 2 [.step 5]
  rw [← hlater] at hrestored
  obtain ⟨-, hget⟩ := (hrestored hgoing').1 hstore' hkept hload'
  have hzero' := (hget 0).trans (if_pos (by decide))
  have hone' := (hget 1).trans (if_pos (by decide))
  have htwo' := (hget 2).trans (if_pos (by decide))
  exact ⟨⟨rfl, hbehind, hrefused⟩,
    ⟨hgoing, hstore, ⟨hindex, hblock⟩, hload, hdigits⟩,
    ⟨hinside, hunmoved, hspared, hkept⟩, hgoing', hstore', hload', hused, hzero'.trans hzero,
    hone'.trans hone, htwo'.trans htwo⟩

end Chip8.Machine
