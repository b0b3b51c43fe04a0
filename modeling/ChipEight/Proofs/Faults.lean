import ChipEight.Proofs.Calls

/-!
# Which instructions fail

A cycle that fails does so for one of nine reasons, and each of them can be read off the machine
before the cycle: the word at the program counter, the depth of the call stack, a register, the
index, and the random bytes.  All other words succeed in every state.
-/

namespace ChipEight

/-- The address of the instruction that a fault names, if it names one. -/
def Fault.instruction? : Fault → Option UInt16
  | .outOfBounds _ pc | .callTooDeep pc | .returnWithoutCall pc | .noSuchKey _ pc
  | .unknownWord _ pc => some pc
  | .halted | .noProgram | .noRandomByte => none

namespace Machine

/-- The fault that stops a cycle, with the instruction and the state that cause it. -/
inductive StopsWith (m : Machine) : Fault → Prop where
  | fetch (hend : 4096 < m.processor.pc.toNat + 2) :
      StopsWith m (.outOfBounds (max m.processor.pc.toNat 4096) m.processor.pc)
  | leave (hreads : m.Reads .leave) (hdepth : m.processor.stack.depth = 0) :
      StopsWith m (.returnWithoutCall m.processor.pc)
  | call {target : UInt16} (hreads : m.Reads (.call target))
      (hdepth : m.processor.stack.depth = 16) :
      StopsWith m (.callTooDeep m.processor.pc)
  | skipKey {down : Bool} {x : Register} (hreads : m.Reads (.skipKey down x))
      (hkey : 16 ≤ (m.processor.reg x).toNat) :
      StopsWith m (.noSuchKey (m.processor.reg x) m.processor.pc)
  | random {x : Register} {mask : UInt8} (hreads : m.Reads (.random x mask))
      (hrandom : m.random = []) :
      StopsWith m .noRandomByte
  | draw {x y : Register} {rows : Nat} (hreads : m.Reads (.draw x y rows))
      (hout : 4096 < m.processor.index.toNat + rows) :
      StopsWith m (.outOfBounds (max m.processor.index.toNat 4096) m.processor.pc)
  | decimal {x : Register} (hreads : m.Reads (.decimal x))
      (hout : 4096 < m.processor.index.toNat + 3) :
      StopsWith m (.outOfBounds (max m.processor.index.toNat 4096) m.processor.pc)
  | storeRegisters {x : Register} (hreads : m.Reads (.storeRegisters x))
      (hout : 4096 < m.processor.index.toNat + x.val + 1) :
      StopsWith m (.outOfBounds (max m.processor.index.toNat 4096) m.processor.pc)
  | loadRegisters {x : Register} (hreads : m.Reads (.loadRegisters x))
      (hout : 4096 < m.processor.index.toNat + x.val + 1) :
      StopsWith m (.outOfBounds (max m.processor.index.toNat 4096) m.processor.pc)

theorem stopsWith_of_refuses {m : Machine} {word : UInt16} {instruction : Instruction}
    {fault : Fault} (hdepth : m.processor.stack.depth ≤ CallStack.limit)
    (hreads : m.Reads instruction) (hrefuses : Refuses (m.fetched word) instruction fault) :
    m.StopsWith fault := by
  cases hrefuses with
  | leave htop => exact .leave hreads ((CallStack.top?_eq_none_iff hdepth).mp htop)
  | call target hpush =>
      have hfull := (CallStack.push?_eq_none_iff _ _).mp hpush
      exact .call hreads (Nat.le_antisymm hdepth hfull)
  | random x mask hrandom => exact .random hreads hrandom
  | skipKey down x hkey => exact .skipKey hreads hkey
  | reach hreach hout =>
      cases instruction with
      | draw x y rows => cases hreach; exact .draw hreads hout
      | decimal x => cases hreach; exact .decimal hreads hout
      | storeRegisters x => cases hreach; exact .storeRegisters hreads hout
      | loadRegisters x => cases hreach; exact .loadRegisters hreads hout
      | _ => cases hreach

theorem cycle_fault_of_refuses {m : Machine} {instruction : Instruction} {fault : Fault}
    (hrunning : m.processor.running = true) (hreads : m.Reads instruction)
    (hrefuses : ∀ word, Refuses (m.fetched word) instruction fault) :
    m.cycle.fault = some fault := by
  obtain ⟨word, hword, rfl⟩ := (m.reads_iff instruction).mp hreads
  exact (cycle_fault_iff hrunning fault).mpr (Or.inr ⟨word, hword, hrefuses word⟩)

theorem cycle_fault_of_stopsWith {m : Machine} {fault : Fault}
    (hrunning : m.processor.running = true)
    (hdepth : m.processor.stack.depth ≤ CallStack.limit) (hstops : m.StopsWith fault) :
    m.cycle.fault = some fault := by
  cases hstops with
  | fetch hend =>
      have hword := (m.memory.word_eq_error_iff m.processor.pc.toNat _).mpr ⟨hend, rfl⟩
      exact (cycle_fault_iff hrunning _).mpr (Or.inl ⟨_, hword, rfl⟩)
  | leave hreads hempty =>
      apply cycle_fault_of_refuses hrunning hreads
      exact fun _ => .leave ((CallStack.top?_eq_none_iff hdepth).mpr hempty)
  | call hreads hfull =>
      apply cycle_fault_of_refuses hrunning hreads
      exact fun _ => .call _ ((CallStack.push?_eq_none_iff _ _).mpr (Nat.le_of_eq hfull.symm))
  | skipKey hreads hkey =>
      apply cycle_fault_of_refuses hrunning hreads
      exact fun _ => .skipKey _ _ hkey
  | random hreads hrandom =>
      apply cycle_fault_of_refuses hrunning hreads
      exact fun _ => .random _ _ hrandom
  | draw hreads hout =>
      apply cycle_fault_of_refuses hrunning hreads
      exact fun _ => .reach rfl hout
  | decimal hreads hout =>
      apply cycle_fault_of_refuses hrunning hreads
      exact fun _ => .reach rfl hout
  | storeRegisters hreads hout =>
      apply cycle_fault_of_refuses hrunning hreads
      exact fun _ => .reach rfl hout
  | loadRegisters hreads hout =>
      apply cycle_fault_of_refuses hrunning hreads
      exact fun _ => .reach rfl hout

theorem cycle_fault_iff_stopsWith {m : Machine} (hrunning : m.processor.running = true)
    (hdepth : m.processor.stack.depth ≤ CallStack.limit) (fault : Fault) :
    m.cycle.fault = some fault ↔ m.StopsWith fault := by
  constructor
  · intro hfault
    rcases (cycle_fault_iff hrunning fault).mp hfault with
      ⟨e, hword, rfl⟩ | ⟨word, hword, hrefuses⟩
    · obtain ⟨hend, rfl⟩ := (m.memory.word_eq_error_iff _ e).mp hword
      exact .fetch hend
    · have hreads := (m.reads_iff _).mpr ⟨word, hword, rfl⟩
      exact stopsWith_of_refuses hdepth hreads hrefuses
  · exact cycle_fault_of_stopsWith hrunning hdepth

theorem StopsWith.instruction?_eq {m : Machine} {fault : Fault} (hstops : m.StopsWith fault)
    {address : UInt16} (hinstruction : fault.instruction? = some address) :
    address = m.processor.pc := by
  cases hstops <;> cases hinstruction <;> rfl

/-! ## The theorem -/

/-- On a processor that runs, a cycle fails exactly with the faults that its state and the word at the
program counter ask for; a fault that names an instruction names the one at the program counter;
and where nothing asks for a fault the cycle succeeds. -/
theorem cycle_fails_exactly (m : Machine) (hrunning : m.processor.running = true)
    (hdepth : m.processor.stack.depth ≤ 16) :
    (∀ fault, m.cycle.fault = some fault ↔ m.StopsWith fault) ∧
      (∀ fault address, m.cycle.fault = some fault → fault.instruction? = some address →
        address = m.processor.pc) ∧
      (m.cycle.succeeded = true ↔ ∀ fault, ¬ m.StopsWith fault) := by
  have hiff := cycle_fault_iff_stopsWith hrunning hdepth
  refine ⟨hiff, ?_, ?_⟩
  · intro fault address hfault hinstruction
    exact ((hiff fault).mp hfault).instruction?_eq hinstruction
  · rw [Attempt.succeeded_iff]
    exact forall_congr' fun fault => not_congr (hiff fault)

/-- A machine whose last word stores V0 to V2, one register more than there are cells behind the
index. -/
def storingAtTheEnd : Machine :=
  { new .standard .perStep [] 0 with
    processor := { Processor.new .standard with pc := 0xFFE, index := 0xFFE }
    memory := Memory.blank.store 0xFFE [0xF2, 0x55] }

theorem cycle_fails_exactly_storingAtTheEnd :
    storingAtTheEnd.processor.running = true ∧ storingAtTheEnd.processor.stack.depth ≤ 16 ∧
      storingAtTheEnd.cycle.fault = some (.outOfBounds 4096 0xFFE) := by
  have hreads : storingAtTheEnd.Reads (.storeRegisters 2) :=
    ⟨0xF2, 0x55, by decide +kernel, by decide +kernel, .storeRegisters 2⟩
  have hstops : storingAtTheEnd.StopsWith (.outOfBounds 4096 0xFFE) :=
    .storeRegisters hreads (by decide)
  exact ⟨rfl, by decide, ((cycle_fails_exactly storingAtTheEnd rfl (by decide)).1 _).mpr hstops⟩

end Machine

end ChipEight
