import ChipEight.Proofs.Arithmetic
import ChipEight.Proofs.ControlFlow

/-!
# What an instruction changes

Every instruction has a few parts of the machine that it may change, which can be told from the
instruction, the index and the depth of the call stack.  Whatever else there is in a machine is the
same after a cycle as before, and some parts no instruction changes at all.
-/

namespace ChipEight

/-- A part of a machine.  The program counter and the note of the last instruction are left out:
they change in every cycle. -/
inductive Part where
  | cell (address : Nat)
  | screen
  | slot (place : Nat)
  | depth
  | register (r : Register)
  | index
  | delay
  | sound
  | random
  | keypad
  | dialect
  | running
  | beep
  | lastTick
  | mode
  | loaded

namespace Instruction

/-- The parts that an instruction may change when it finds an index and a depth of the call stack,
row by row. -/
inductive Changes (index depth : Nat) : Instruction → Part → Prop where
  | clear : Changes index depth .clear .screen
  | leave : Changes index depth .leave .depth
  | call (target : UInt16) : Changes index depth (.call target) .depth
  | callSlot (target : UInt16) : Changes index depth (.call target) (.slot depth)
  | setByte (x : Register) (byte : UInt8) : Changes index depth (.setByte x byte) (.register x)
  | addByte (x : Register) (byte : UInt8) : Changes index depth (.addByte x byte) (.register x)
  | arithmetic (operation : Arithmetic) (x y : Register) :
      Changes index depth (.arithmetic operation x y) (.register x)
  | arithmeticFlag (operation : Arithmetic) (x y : Register)
      (hsets : operation.setsFlag = true) :
      Changes index depth (.arithmetic operation x y) (.register Register.flag)
  | setIndex (address : UInt16) : Changes index depth (.setIndex address) .index
  | random (x : Register) (mask : UInt8) : Changes index depth (.random x mask) (.register x)
  | randomByte (x : Register) (mask : UInt8) : Changes index depth (.random x mask) .random
  | draw (x y : Register) (rows : Nat) : Changes index depth (.draw x y rows) .screen
  | drawFlag (x y : Register) (rows : Nat) :
      Changes index depth (.draw x y rows) (.register Register.flag)
  | readDelay (x : Register) : Changes index depth (.readDelay x) (.register x)
  | awaitKey (x : Register) : Changes index depth (.awaitKey x) (.register x)
  | setDelay (x : Register) : Changes index depth (.setDelay x) .delay
  | setSound (x : Register) : Changes index depth (.setSound x) .sound
  | addIndex (x : Register) : Changes index depth (.addIndex x) .index
  | glyph (x : Register) : Changes index depth (.glyph x) .index
  | decimal (x : Register) (i : Nat) (hi : i < 3) :
      Changes index depth (.decimal x) (.cell (index + i))
  | storeRegisters (x : Register) (i : Nat) (hi : i ≤ x.val) :
      Changes index depth (.storeRegisters x) (.cell (index + i))
  | storeIndex (x : Register) : Changes index depth (.storeRegisters x) .index
  | loadRegisters (x r : Register) (hr : r ≤ x) :
      Changes index depth (.loadRegisters x) (.register r)
  | loadIndex (x : Register) : Changes index depth (.loadRegisters x) .index

end Instruction

namespace Machine

def SameIn (m after : Machine) : Part → Prop
  | .cell address => after.memory.cells[address]? = m.memory.cells[address]?
  | .screen => after.screen = m.screen
  | .slot place => after.processor.stack.slots[place]? = m.processor.stack.slots[place]?
  | .depth => after.processor.stack.depth = m.processor.stack.depth
  | .register r => after.processor.reg r = m.processor.reg r
  | .index => after.processor.index = m.processor.index
  | .delay => after.timers.delay = m.timers.delay
  | .sound => after.timers.sound = m.timers.sound
  | .random => after.random = m.random
  | .keypad => after.keypad = m.keypad
  | .dialect => after.processor.dialect = m.processor.dialect
  | .running => after.processor.running = m.processor.running
  | .beep => after.timers.beep = m.timers.beep
  | .lastTick => after.timers.lastTick = m.timers.lastTick
  | .mode => after.timers.mode = m.timers.mode
  | .loaded => after.loaded = m.loaded

theorem SameIn.refl (m : Machine) (part : Part) : m.SameIn m part := by
  cases part <;> rfl

theorem sameIn_of_store (m : Machine) (address : Nat) (bytes : List UInt8) (part : Part) :
    (∃ i < bytes.length, part = .cell (address + i)) ∨
      m.SameIn { m with memory := m.memory.store address bytes } part := by
  cases part with
  | cell place =>
      by_cases hinside : address ≤ place ∧ place < address + bytes.length
      · exact Or.inl ⟨place - address, by omega, by congr 1; omega⟩
      · exact Or.inr (m.memory.getElem?_store_outside (by omega))
  | _ => exact Or.inr rfl

theorem sameIn_of_set (m : Machine) (x : Register) (value : UInt8) (part : Part) :
    part = .register x ∨ m.SameIn { m with processor := m.processor.set x value } part := by
  cases part with
  | register r =>
      by_cases hr : r = x
      · exact Or.inl (congrArg Part.register hr)
      · exact Or.inr ((m.processor.reg_set x r value).trans (if_neg hr))
  | _ => exact Or.inr rfl

/-- What an instruction that is not refused leaves as it was. -/
theorem Effect.changes_or_sameIn {m after : Machine} {instruction : Instruction} {flow : Flow}
    (heffect : Effect m instruction flow after) (part : Part) :
    instruction.Changes m.processor.index.toNat m.processor.stack.depth part ∨
      m.SameIn after part := by
  cases heffect with
  | clear =>
      cases part with
      | screen => exact Or.inl .clear
      | _ => exact Or.inr rfl
  | leave htop =>
      cases part with
      | depth => exact Or.inl .leave
      | _ => exact Or.inr rfl
  | call target hpush =>
      cases part with
      | depth => exact Or.inl (.call target)
      | slot place =>
          by_cases hplace : place = m.processor.stack.depth
          · rw [hplace]
            exact Or.inl (.callSlot target)
          · exact Or.inr ((CallStack.getElem?_of_push? hpush place).trans (if_neg hplace))
      | _ => exact Or.inr rfl
  | setByte x byte =>
      rcases m.sameIn_of_set x byte part with rfl | hsame
      · exact Or.inl (.setByte x byte)
      · exact Or.inr hsame
  | addByte x byte =>
      rcases m.sameIn_of_set x _ part with rfl | hsame
      · exact Or.inl (.addByte x byte)
      · exact Or.inr hsame
  | arithmetic operation x y =>
      have hkept := (m.processor.calculated operation x y).kept
      obtain ⟨v, hv⟩ := calculate_keeps m.processor operation x y
      rw [hv] at hkept ⊢
      cases part with
      | register r =>
          by_cases hx : r = x
          · rw [hx]
            exact Or.inl (.arithmetic operation x y)
          · by_cases hflag : r = Register.flag ∧ operation.setsFlag = true
            · rw [hflag.1]
              exact Or.inl (.arithmeticFlag operation x y hflag.2)
            · exact Or.inr (hkept r hx (by simpa using hflag))
      | _ => exact Or.inr rfl
  | setIndex address =>
      cases part with
      | index => exact Or.inl (.setIndex address)
      | _ => exact Or.inr rfl
  | random x mask hrandom =>
      rcases m.sameIn_of_set x _ part with rfl | hsame
      · exact Or.inl (.random x mask)
      · cases part with
        | random => exact Or.inl (.randomByte x mask)
        | _ => exact Or.inr hsame
  | draw x y rows hrange =>
      rcases m.sameIn_of_set Register.flag _ part with rfl | hsame
      · exact Or.inl (.drawFlag x y rows)
      · cases part with
        | screen => exact Or.inl (.draw x y rows)
        | _ => exact Or.inr hsame
  | readDelay x =>
      rcases m.sameIn_of_set x _ part with rfl | hsame
      · exact Or.inl (.readDelay x)
      · exact Or.inr hsame
  | awaitKey x hkey =>
      rcases m.sameIn_of_set x _ part with rfl | hsame
      · exact Or.inl (.awaitKey x)
      · exact Or.inr hsame
  | setDelay x =>
      cases part with
      | delay => exact Or.inl (.setDelay x)
      | _ => exact Or.inr rfl
  | setSound x =>
      cases part with
      | sound => exact Or.inl (.setSound x)
      | _ => exact Or.inr rfl
  | addIndex x =>
      cases part with
      | index => exact Or.inl (.addIndex x)
      | _ => exact Or.inr rfl
  | glyph x =>
      cases part with
      | index => exact Or.inl (.glyph x)
      | _ => exact Or.inr rfl
  | decimal x hrange =>
      rcases m.sameIn_of_store m.processor.index.toNat (decimalDigits (m.processor.reg x)) part
        with ⟨i, hi, rfl⟩ | hsame
      · exact Or.inl (.decimal x i hi)
      · exact Or.inr hsame
  | storeRegisters x hrange =>
      obtain ⟨index, hindex⟩ := advanceIndex_keeps m.processor x
      rw [hindex]
      rcases m.sameIn_of_store m.processor.index.toNat (m.processor.v.upTo x) part
        with ⟨i, hi, rfl⟩ | hsame
      · rw [Registers.length_upTo] at hi
        exact Or.inl (.storeRegisters x i (Nat.le_of_lt_succ hi))
      · cases part with
        | index => exact Or.inl (.storeIndex x)
        | _ => exact Or.inr hsame
  | loadRegisters x hrange =>
      obtain ⟨index, hindex⟩ := advanceIndex_keeps { m.processor with v := _ } x
      rw [hindex]
      cases part with
      | register r =>
          by_cases hr : r ≤ x
          · exact Or.inl (.loadRegisters x r hr)
          · have hlength := (Memory.length_of_range_eq_ok hrange).2
            exact Or.inr (m.processor.v.get_overlay_of_length_le
              (Nat.le_trans (Nat.le_of_eq hlength) (Nat.lt_of_not_le hr)))
      | index => exact Or.inl (.loadIndex x)
      | _ => exact Or.inr rfl
  | _ => exact Or.inr (.refl m part)

theorem toNat_decimalDigits (n : UInt8) :
    ∃ hundreds tens ones : UInt8, decimalDigits n = [hundreds, tens, ones] ∧
      hundreds.toNat < 10 ∧ tens.toNat < 10 ∧ ones.toNat < 10 ∧
        100 * hundreds.toNat + 10 * tens.toNat + ones.toNat = n.toNat := by
  have hn := n.toNat_lt
  have hhundreds : (n / 100).toNat = n.toNat / 100 := rfl
  have htens : (n / 10 % 10).toNat = n.toNat / 10 % 10 := rfl
  have hones : (n % 10).toNat = n.toNat % 10 := rfl
  exact ⟨n / 100, n / 10 % 10, n % 10, rfl, by omega⟩

theorem Effect.depth_call {m after : Machine} {target : UInt16} {flow : Flow}
    (heffect : Effect m (.call target) flow after) :
    after.processor.stack.depth = m.processor.stack.depth + 1 := by
  cases heffect with
  | call target hpush => exact (CallStack.depth_of_push? hpush).2

theorem Effect.depth_leave {m after : Machine} {flow : Flow}
    (heffect : Effect m .leave flow after) :
    after.processor.stack.depth + 1 = m.processor.stack.depth := by
  cases heffect with
  | leave htop => exact Nat.sub_add_cancel (CallStack.depth_pos_of_top? htop)

theorem Effect.digits {m after : Machine} {x : Register} {flow : Flow}
    (heffect : Effect m (.decimal x) flow after) :
    ∃ hundreds tens ones : UInt8,
      after.memory.cells[m.processor.index.toNat]? = some hundreds ∧
      after.memory.cells[m.processor.index.toNat + 1]? = some tens ∧
      after.memory.cells[m.processor.index.toNat + 2]? = some ones ∧
      hundreds.toNat < 10 ∧ tens.toNat < 10 ∧ ones.toNat < 10 ∧
        100 * hundreds.toNat + 10 * tens.toNat + ones.toNat = (m.processor.reg x).toNat := by
  cases heffect with
  | decimal x hrange =>
      have hend := (Memory.length_of_range_eq_ok hrange).1
      obtain ⟨hundreds, tens, ones, hdigits, hspec⟩ := toNat_decimalDigits (m.processor.reg x)
      have hcell : ∀ i < 3, (m.memory.store m.processor.index.toNat
          [hundreds, tens, ones]).cells[m.processor.index.toNat + i]? =
            [hundreds, tens, ones][i]? := by
        intro i hi
        rw [Memory.getElem?_store _ _ _ _ (by omega), if_pos ⟨by omega, by simpa using hi⟩,
          Nat.add_sub_cancel_left]
      rw [hdigits]
      exact ⟨hundreds, tens, ones, hcell 0 (by decide), hcell 1 (by decide), hcell 2 (by decide),
        hspec⟩

theorem SameIn.of_performs {m after : Machine} {word : UInt16} {flow : Flow} {part : Part}
    (hsame : (m.fetched word).SameIn after part) :
    m.SameIn { after with processor := after.processor.follow flow } part := by
  obtain ⟨pc, hfollow⟩ := follow_eq after.processor flow
  rw [hfollow]
  cases part <;> exact hsame

/-! ## The theorem -/

/-- After a cycle that succeeds, every part of the machine is what it was before or is one that the
instruction changes.  A call makes the stack one deeper and a return one shallower, and the decimal
digits of a register are left in the three cells at the index. -/
theorem cycle_stays_in_footprint (m : Machine) (hsucceeded : m.cycle.succeeded = true) :
    ∃ instruction, m.Reads instruction ∧
      (∀ other, m.Reads other → other = instruction) ∧
      (∀ part, instruction.Changes m.processor.index.toNat m.processor.stack.depth part ∨
        m.SameIn m.cycle.state part) ∧
      (∀ target, instruction = .call target →
        m.cycle.state.processor.stack.depth = m.processor.stack.depth + 1) ∧
      (instruction = .leave →
        m.cycle.state.processor.stack.depth + 1 = m.processor.stack.depth) ∧
      ∀ x, instruction = .decimal x →
        ∃ hundreds tens ones : UInt8,
          m.cycle.state.memory.cells[m.processor.index.toNat]? = some hundreds ∧
          m.cycle.state.memory.cells[m.processor.index.toNat + 1]? = some tens ∧
          m.cycle.state.memory.cells[m.processor.index.toNat + 2]? = some ones ∧
          hundreds.toNat < 10 ∧ tens.toNat < 10 ∧ ones.toNat < 10 ∧
            100 * hundreds.toNat + 10 * tens.toNat + ones.toNat = (m.processor.reg x).toNat := by
  obtain ⟨word, flow, after, hperforms, hstate⟩ :=
    performs_of_cycle ((Attempt.fault_eq_none_iff _).mpr hsucceeded)
  have hreads : m.Reads (.decode word) := (m.reads_iff _).mpr ⟨word, hperforms.fetch, rfl⟩
  have heffect := hperforms.effect
  obtain ⟨pc, hfollow⟩ := follow_eq after.processor flow
  refine ⟨.decode word, hreads, fun _ => hreads.unique, ?_⟩
  generalize Instruction.decode word = instruction at heffect
  rw [hstate]
  refine ⟨?_, ?_, ?_, ?_⟩
  · intro part
    exact (heffect.changes_or_sameIn part).imp id SameIn.of_performs
  · rintro target rfl
    rw [hfollow]
    exact heffect.depth_call
  · rintro rfl
    rw [hfollow]
    exact heffect.depth_leave
  · rintro x rfl
    exact heffect.digits

/-- A machine that is about to write the digits of 157 at the end of memory. -/
def writingDigits : Machine :=
  { new .standard .perStep [] 0 with
    processor :=
      { Processor.new .standard with
        v := (Processor.new .standard).v.overlay [157]
        index := 0xFFD }
    memory := Memory.blank.store 0x200 [0xF0, 0x33] }

theorem cycle_stays_in_footprint_writingDigits :
    writingDigits.cycle.succeeded = true ∧
      (∃ hundreds tens ones : UInt8,
        writingDigits.cycle.state.memory.cells[0xFFD]? = some hundreds ∧
        writingDigits.cycle.state.memory.cells[0xFFE]? = some tens ∧
        writingDigits.cycle.state.memory.cells[0xFFF]? = some ones ∧
          100 * hundreds.toNat + 10 * tens.toNat + ones.toNat = 157) ∧
      writingDigits.cycle.state.memory.cells[0xFFC]? = writingDigits.memory.cells[0xFFC]? ∧
      writingDigits.cycle.state.processor.reg 0 = writingDigits.processor.reg 0 := by
  obtain ⟨hsucceeded, hindex, hvalue, hhigh, hlow⟩ :
      writingDigits.cycle.succeeded = true ∧ writingDigits.processor.index.toNat = 0xFFD ∧
        writingDigits.processor.reg 0 = 157 ∧
        writingDigits.memory.cells[writingDigits.processor.pc.toNat]? = some 0xF0 ∧
        writingDigits.memory.cells[writingDigits.processor.pc.toNat + 1]? = some 0x33 := by
    decide +kernel
  obtain ⟨instruction, -, hunique, hparts, -, -, hdigits⟩ :=
    cycle_stays_in_footprint writingDigits hsucceeded
  obtain rfl := hunique (.decimal 0) ⟨0xF0, 0x33, hhigh, hlow, .decimal 0⟩
  obtain ⟨hundreds, tens, ones, hfirst, hsecond, hthird, -, -, -, hsum⟩ := hdigits 0 rfl
  rw [hindex] at hfirst hsecond hthird hparts
  rw [hvalue] at hsum
  refine ⟨hsucceeded, ⟨hundreds, tens, ones, hfirst, hsecond, hthird, hsum⟩, ?_, ?_⟩
  · rcases hparts (.cell 0xFFC) with hchanges | hsame
    · generalize hplace : Part.cell 0xFFC = part at hchanges
      cases hchanges with
      | decimal x i hi =>
          have hbelow := Part.cell.inj hplace
          omega
    · exact hsame
  · rcases hparts (.register 0) with hchanges | hsame
    · cases hchanges
    · exact hsame

end Machine

end ChipEight
