import ChipEight.Proofs.Faults

/-!
# Where control goes on

The program counter moves twice in a cycle, past the word that was fetched and then as the
instruction says.  What comes of it is one number for every instruction, computed from the state
before the cycle and never reduced: a cycle succeeds only if its whole word lies in memory, which
leaves room for both moves.  What lies behind the end of memory cannot be fetched, so a machine that
has got there stays there.
-/

namespace ChipEight

namespace Keypad

theorem isDown_eq_true_iff (k : Keypad) (code : UInt8) :
    k.isDown code = true ↔ k.down[code.toNat]? = some true := by
  unfold isDown
  cases k.down[code.toNat]? with
  | none => simp
  | some down => simp

theorem highest?_eq_none_iff (k : Keypad) :
    k.highest? = none ↔ k.down.contains true = false := by
  unfold highest?
  rw [← Bool.not_eq_true, Vector.contains_iff_mem]
  simp only [List.find?_eq_none, List.mem_map, List.mem_reverse, List.mem_range,
    isDown_eq_true_iff]
  constructor
  · intro hnone hdown
    obtain ⟨i, hi, hget⟩ := Vector.mem_iff_getElem.mp hdown
    have hcode : (UInt8.ofNat i).toNat = i :=
      UInt8.toNat_ofNat_of_lt (Nat.lt_of_lt_of_le hi (by decide))
    apply hnone (UInt8.ofNat i) ⟨i, hi, rfl⟩
    rw [hcode, Vector.getElem?_eq_getElem hi, hget]
  · intro hnone code _ hdown
    exact hnone (Vector.mem_of_getElem? hdown)

end Keypad

/-! ## Instructions that skip -/

namespace Instruction

/-- The instruction with the same operands that skips where this one does not. -/
def opposite? : Instruction → Option Instruction
  | .skipByte equal x byte => some (.skipByte (!equal) x byte)
  | .skipRegister equal x y => some (.skipRegister (!equal) x y)
  | .skipKey down x => some (.skipKey (!down) x)
  | _ => none

/-- The register that names the key an instruction asks for. -/
def key? : Instruction → Option Register
  | .skipKey _ x => some x
  | _ => none

theorem opposite?_opposite {instruction opposite : Instruction}
    (hopposite : instruction.opposite? = some opposite) :
    opposite.opposite? = some instruction := by
  cases instruction with
  | skipByte equal x byte => cases hopposite; simp [opposite?]
  | skipRegister equal x y => cases hopposite; simp [opposite?]
  | skipKey down x => cases hopposite; simp [opposite?]
  | _ => cases hopposite

theorem key?_opposite {instruction opposite : Instruction}
    (hopposite : instruction.opposite? = some opposite) :
    opposite.key? = instruction.key? := by
  cases instruction with
  | skipByte equal x byte => cases hopposite; rfl
  | skipRegister equal x y => cases hopposite; rfl
  | skipKey down x => cases hopposite; rfl
  | _ => cases hopposite

end Instruction

namespace Machine

def withMemory (m : Machine) (memory : Memory) : Machine :=
  { m with memory }

/-- Whether an instruction skips the one behind it. -/
def skips (m : Machine) : Instruction → Bool
  | .skipByte true x byte => m.processor.reg x == byte
  | .skipByte false x byte => m.processor.reg x != byte
  | .skipRegister true x y => m.processor.reg x == m.processor.reg y
  | .skipRegister false x y => m.processor.reg x != m.processor.reg y
  | .skipKey true x => m.keypad.isDown (m.processor.reg x)
  | .skipKey false x => !m.keypad.isDown (m.processor.reg x)
  | _ => false

/-- The address at which control goes on after an instruction. -/
def successor (m : Machine) (instruction : Instruction) : Nat :=
  match instruction with
  | .jump target | .call target => target.toNat
  | .jumpOffset base => base.toNat + (m.processor.reg .offset).toNat
  | .leave => (m.processor.stack.slots[m.processor.stack.depth - 1]?.getD 0).toNat
  | .awaitKey _ =>
      if m.keypad.down.contains true then m.processor.pc.toNat + 2 else m.processor.pc.toNat
  | _ => if m.skips instruction then m.processor.pc.toNat + 4 else m.processor.pc.toNat + 2

theorem skips_opposite (m : Machine) {instruction opposite : Instruction}
    (hopposite : instruction.opposite? = some opposite) :
    m.skips opposite = !m.skips instruction := by
  cases instruction with
  | skipByte equal x byte => cases hopposite; cases equal <;> simp [skips, bne]
  | skipRegister equal x y => cases hopposite; cases equal <;> simp [skips, bne]
  | skipKey down x => cases hopposite; cases down <;> simp [skips]
  | _ => cases hopposite

theorem successor_of_opposite? (m : Machine) {instruction opposite : Instruction}
    (hopposite : instruction.opposite? = some opposite) :
    m.successor instruction =
      if m.skips instruction then m.processor.pc.toNat + 4 else m.processor.pc.toNat + 2 := by
  cases instruction with
  | skipByte equal x byte => rfl
  | skipRegister equal x y => rfl
  | skipKey down x => rfl
  | _ => cases hopposite

/-! ## Cycles that succeed -/

theorem toNat_pc_follow_skipIf (p : Processor) (hroom : p.pc.toNat + 2 < 0x10000)
    (condition : Bool) :
    (p.follow (.skipIf condition)).pc.toNat =
      if condition then p.pc.toNat + 2 else p.pc.toNat := by
  cases condition with
  | false => rfl
  | true =>
      have htwo : (2 : UInt16).toNat = 2 := rfl
      change (p.pc + 2).toNat = p.pc.toNat + 2
      rw [UInt16.toNat_add, htwo]
      omega

theorem Effect.flow_of_opposite? {m after : Machine} {instruction opposite : Instruction}
    {flow : Flow} (heffect : Effect m instruction flow after)
    (hopposite : instruction.opposite? = some opposite) :
    flow = .skipIf (m.skips instruction) := by
  cases heffect with
  | skipByte equal x byte => cases equal <;> simp [skips, bne]
  | skipRegister equal x y => cases equal <;> simp [skips, bne]
  | skipKey down x hkey => cases down <;> simp [skips]
  | _ => cases hopposite

theorem Performs.pc_follow {m after : Machine} {word : UInt16} {flow : Flow}
    (hperforms : Performs m word flow after) :
    (after.processor.follow flow).pc.toNat = m.successor (.decode word) := by
  obtain ⟨hpc, hend⟩ := toNat_pc_fetched hperforms.fetch
  have heffect := hperforms.effect
  have htarget : ∀ address, (Instruction.decode word).target? = some address →
      address.toNat < 0x1000 := fun _ => Instruction.toNat_target_lt
  have hnext : after.processor.pc.toNat = m.processor.pc.toNat + 2 := by
    rw [heffect.untouched.pc, hpc]
  generalize Instruction.decode word = instruction at heffect htarget
  cases hopposite : instruction.opposite? with
  | some opposite =>
      have hroom : after.processor.pc.toNat + 2 < 0x10000 := by
        simp only [Memory.size] at hend
        omega
      rw [heffect.flow_of_opposite? hopposite, toNat_pc_follow_skipIf _ hroom, hnext,
        successor_of_opposite? m hopposite]
      rfl
  | none =>
      cases heffect with
      | leave htop =>
          have hopen := CallStack.depth_pos_of_top? htop
          have hslot := (CallStack.top?_of_depth (Nat.sub_add_cancel hopen).symm).symm.trans htop
          unfold successor
          exact congrArg (fun slot : Option UInt16 => (slot.getD 0).toNat) hslot.symm
      | jumpOffset base => exact toNat_add_toUInt16 _ (htarget base rfl)
      | jump target => rfl
      | call target hpush => rfl
      | awaitNoKey x hnone =>
          have hidle : m.keypad.down.contains true = false :=
            (Keypad.highest?_eq_none_iff _).mp hnone
          unfold successor
          rw [hidle]
          rfl
      | awaitKey x hkey =>
          have hdown : m.keypad.down.contains true = true := by
            rw [← Bool.not_eq_false, ← Keypad.highest?_eq_none_iff]
            intro hnone
            exact Option.some_ne_none _ (hkey.symm.trans hnone)
          unfold successor
          rw [hdown]
          exact hnext
      | skipByte => cases hopposite
      | skipRegister => cases hopposite
      | skipKey => cases hopposite
      | _ => exact hnext

theorem Reads.unique {m : Machine} {instruction other : Instruction}
    (hreads : m.Reads instruction) (hother : m.Reads other) :
    other = instruction := by
  obtain ⟨word, hword, rfl⟩ := (m.reads_iff _).mp hreads
  obtain ⟨word', hword', rfl⟩ := (m.reads_iff _).mp hother
  rw [Except.ok.inj (hword.symm.trans hword')]

theorem reads_of_succeeded {m : Machine} (hsucceeded : m.cycle.succeeded = true) :
    ∃ instruction, m.Reads instruction ∧
      m.cycle.state.processor.pc.toNat = m.successor instruction := by
  obtain ⟨word, flow, after, hperforms, hstate⟩ :=
    performs_of_cycle ((Attempt.fault_eq_none_iff _).mpr hsucceeded)
  refine ⟨.decode word, (m.reads_iff _).mpr ⟨word, hperforms.fetch, rfl⟩, ?_⟩
  rw [hstate]
  exact hperforms.pc_follow

theorem pc_cycle_of_reads {m : Machine} {instruction : Instruction}
    (hsucceeded : m.cycle.succeeded = true) (hreads : m.Reads instruction) :
    m.cycle.state.processor.pc.toNat = m.successor instruction := by
  obtain ⟨other, hother, hpc⟩ := reads_of_succeeded hsucceeded
  rw [hother.unique hreads]
  exact hpc

/-! ## Opposite branches -/

theorem cycle_succeeded_of_opposite? {m : Machine} {instruction opposite : Instruction}
    (hopposite : instruction.opposite? = some opposite)
    (hrunning : m.processor.running = true) (hreads : m.Reads instruction)
    (hkey : ∀ x, instruction.key? = some x → (m.processor.reg x).toNat < Keypad.keyCount) :
    m.cycle.succeeded = true := by
  obtain ⟨word, hword, rfl⟩ := (m.reads_iff _).mp hreads
  rw [Attempt.succeeded_iff]
  intro fault hfault
  rcases (cycle_fault_iff hrunning fault).mp hfault with
    ⟨e, herror, -⟩ | ⟨fetched, hfetched, hrefuses⟩
  · rw [hword] at herror
    cases herror
  · obtain rfl : word = fetched := Except.ok.inj (hword.symm.trans hfetched)
    generalize Instruction.decode word = instruction at hopposite hkey hrefuses
    cases hrefuses with
    | skipKey down x hnone => exact absurd (hkey x rfl) (Nat.not_lt.mpr hnone)
    | reach hreach =>
        cases instruction with
        | skipByte => cases hreach
        | skipRegister => cases hreach
        | skipKey => cases hreach
        | _ => cases hopposite
    | _ => cases hopposite

/-- Of two machines that differ in memory, and read there instructions that skip in opposite cases,
one goes on behind the next word and the other at it. -/
theorem opposite_branches {m : Machine} {memory : Memory} {instruction opposite : Instruction}
    (hopposite : instruction.opposite? = some opposite)
    (hrunning : m.processor.running = true) (hreads : m.Reads instruction)
    (hother : (m.withMemory memory).Reads opposite)
    (hkey : ∀ x, instruction.key? = some x → (m.processor.reg x).toNat < Keypad.keyCount) :
    m.cycle.succeeded = true ∧ (m.withMemory memory).cycle.succeeded = true ∧
      (m.cycle.state.processor.pc.toNat, (m.withMemory memory).cycle.state.processor.pc.toNat) =
        if m.skips instruction then (m.processor.pc.toNat + 4, m.processor.pc.toNat + 2)
        else (m.processor.pc.toNat + 2, m.processor.pc.toNat + 4) := by
  have hback := Instruction.opposite?_opposite hopposite
  have hsucceeded := cycle_succeeded_of_opposite? hopposite hrunning hreads hkey
  have hsucceeded' : (m.withMemory memory).cycle.succeeded = true :=
    cycle_succeeded_of_opposite? hback hrunning hother
      ((Instruction.key?_opposite hopposite).symm ▸ hkey)
  have hskips : (m.withMemory memory).skips opposite = !m.skips instruction :=
    m.skips_opposite hopposite
  refine ⟨hsucceeded, hsucceeded', ?_⟩
  rw [pc_cycle_of_reads hsucceeded hreads, pc_cycle_of_reads hsucceeded' hother,
    successor_of_opposite? m hopposite, successor_of_opposite? _ hback, hskips]
  cases m.skips instruction <;> rfl

/-! ## Behind the end of memory -/

theorem cycle_beyond {m : Machine} (hbeyond : 0xFFE < m.processor.pc.toNat) :
    m.cycle.succeeded = false ∧ m.cycle.state.processor.pc = m.processor.pc := by
  cases hfault : m.cycle.fault with
  | none =>
      obtain ⟨word, flow, after, hperforms, -⟩ := performs_of_cycle hfault
      have hend := (toNat_pc_fetched hperforms.fetch).2
      simp only [Memory.size] at hend
      omega
  | some fault =>
      obtain ⟨lastAddress, lastWord, hnoting⟩ := m.noting_keeps fault
      refine ⟨by simp [Attempt.succeeded, hfault], ?_⟩
      rw [cycle_state_of_fault hfault, hnoting]

theorem iterate_cycle_beyond {m : Machine} (hbeyond : 0xFFE < m.processor.pc.toNat) (n : Nat) :
    ((fun m => m.cycle.state)^[n] m).processor.pc = m.processor.pc := by
  induction n with
  | zero => rfl
  | succ n ih =>
      rw [Function.iterate_succ_apply', (cycle_beyond (ih ▸ hbeyond)).2, ih]

/-! ## The theorem -/

/-- After a cycle that succeeds the program counter is the successor of the instruction that was
read, which a jump with an offset may put behind the end of memory.  Two instructions that differ
only in when they skip go opposite ways from one state, and where no word can be fetched no cycle
succeeds any more and the program counter stays. -/
theorem pc_cycle_eq_successor (m : Machine) :
    (m.cycle.succeeded = true →
      ∃ instruction, m.Reads instruction ∧
        (∀ other, m.Reads other → other = instruction) ∧
        m.cycle.state.processor.pc.toNat = m.successor instruction) ∧
      (∀ base, m.Reads (.jumpOffset base) → m.successor (.jumpOffset base) ≤ 0x10FE) ∧
      (∀ instruction opposite memory, instruction.opposite? = some opposite →
        m.processor.running = true → m.Reads instruction → (m.withMemory memory).Reads opposite →
        (∀ x, instruction.key? = some x → (m.processor.reg x).toNat < 16) →
        m.cycle.succeeded = true ∧ (m.withMemory memory).cycle.succeeded = true ∧
          (m.cycle.state.processor.pc.toNat,
              (m.withMemory memory).cycle.state.processor.pc.toNat) =
            if m.skips instruction then (m.processor.pc.toNat + 4, m.processor.pc.toNat + 2)
            else (m.processor.pc.toNat + 2, m.processor.pc.toNat + 4)) ∧
      (0xFFE < m.processor.pc.toNat → ∀ n,
        ((fun m => m.cycle.state)^[n] m).cycle.succeeded = false ∧
          ((fun m => m.cycle.state)^[n] m).processor.pc = m.processor.pc) := by
  refine ⟨?_, ?_, ?_, ?_⟩
  · intro hsucceeded
    obtain ⟨instruction, hreads, hpc⟩ := reads_of_succeeded hsucceeded
    exact ⟨instruction, hreads, fun _ => hreads.unique, hpc⟩
  · intro base hreads
    obtain ⟨word, -, hdecode⟩ := (m.reads_iff _).mp hreads
    have hbase : base.toNat < 0x1000 := by
      apply Instruction.toNat_target_lt
      rw [hdecode]
      rfl
    have hoffset := (m.processor.reg .offset).toNat_lt
    change base.toNat + (m.processor.reg .offset).toNat ≤ 0x10FE
    omega
  · intro instruction opposite memory hopposite hrunning hreads hother hkey
    exact opposite_branches hopposite hrunning hreads hother hkey
  · intro hbeyond n
    have hpc := iterate_cycle_beyond hbeyond n
    exact ⟨(cycle_beyond (hpc.symm ▸ hbeyond)).1, hpc⟩

/-- A machine that is about to jump as far as an instruction can. -/
def jumpingBeyond : Machine :=
  { new .standard .perStep [] 0 with
    processor := (Processor.new .standard).set .offset 0xFF
    memory := Memory.blank.store 0x200 [0xBF, 0xFF] }

/-- A machine that is about to skip if key 5 is down, which it is. -/
def skippingOnKey : Machine :=
  { new .standard .perStep [] 0 with
    processor := (Processor.new .standard).set .offset 5
    keypad := Keypad.released.set 5 true
    memory := Memory.blank.store 0x200 [0xE0, 0x9E] }

theorem pc_cycle_eq_successor_jumpingBeyond :
    jumpingBeyond.cycle.state.processor.pc.toNat = 0x10FE ∧
      ((fun m => m.cycle.state)^[3] jumpingBeyond.cycle.state).cycle.succeeded = false ∧
      skippingOnKey.cycle.state.processor.pc.toNat = 0x204 ∧
      (skippingOnKey.withMemory
        (Memory.blank.store 0x200 [0xE0, 0xA1])).cycle.state.processor.pc.toNat = 0x202 := by
  have hjump : jumpingBeyond.Reads (.jumpOffset 0xFFF) :=
    ⟨0xBF, 0xFF, by decide +kernel, by decide +kernel, .jumpOffset 0xFFF (by decide)⟩
  obtain ⟨instruction, -, hunique, hpc⟩ :=
    (pc_cycle_eq_successor jumpingBeyond).1 (by decide +kernel)
  rw [← hunique _ hjump] at hpc
  have hbeyond : 0xFFE < jumpingBeyond.cycle.state.processor.pc.toNat := by
    rw [hpc]
    decide +kernel
  have hstuck := (pc_cycle_eq_successor jumpingBeyond.cycle.state).2.2.2 hbeyond 3
  obtain ⟨-, -, hbranches⟩ := (pc_cycle_eq_successor skippingOnKey).2.2.1
    (.skipKey true .offset) (.skipKey false .offset) (Memory.blank.store 0x200 [0xE0, 0xA1])
    rfl rfl
    ⟨0xE0, 0x9E, by decide +kernel, by decide +kernel, .skipIfKey .offset⟩
    ⟨0xE0, 0xA1, by decide +kernel, by decide +kernel, .skipUnlessKey .offset⟩
    (fun x hx => Option.some.inj hx ▸ by decide +kernel)
  have hstart : skippingOnKey.processor.pc.toNat = 0x200 := by decide +kernel
  rw [if_pos (by decide +kernel), hstart] at hbranches
  have hpcs := Prod.mk.inj hbranches
  exact ⟨hpc, hstuck.1, hpcs.1, hpcs.2⟩

end Machine

end ChipEight
