import ChipEight.Proofs.Cells
import ChipEight.Proofs.Refusal

/-!
# Bounds of reachable machines

Whatever program a machine gets and whatever its owner does, its call stack and its program counter
stay within bounds that leave room for everything an instruction computes.  The bound on the program
counter is the farthest target of a jump with an offset, the bound on return addresses comes from
calls at the very end of memory.
-/

namespace ChipEight

/-! ## Operands -/

namespace Instruction

def target? : Instruction → Option UInt16
  | .jump target | .call target | .jumpOffset target => some target
  | _ => none

theorem toNat_target_lt {word target : UInt16}
    (htarget : (decode word).target? = some target) :
    target.toNat < 0x1000 := by
  have hwritten := written_decode word
  generalize decode word = instruction at hwritten htarget
  generalize word.toNat = code at hwritten
  cases hwritten with
  | jump address haddress => cases htarget; exact haddress
  | call address haddress => cases htarget; exact haddress
  | jumpOffset base hbase => cases htarget; exact hbase
  | _ => cases htarget

end Instruction

/-! ## The call stack -/

namespace CallStack

/-- No more calls than slots, and no return address behind the end of memory. -/
structure Bounded (s : CallStack) : Prop where
  depth_le : s.depth ≤ limit
  slot_le : ∀ i : Fin limit, (s.slots.get i).toNat ≤ Memory.size

theorem bounded_empty : empty.Bounded := by
  constructor
  · exact Nat.zero_le _
  · intro i
    simp [empty, Vector.get]

theorem Bounded.push {s pushed : CallStack} {returnAddress : UInt16} (hs : s.Bounded)
    (haddress : returnAddress.toNat ≤ Memory.size)
    (hpush : s.push? returnAddress = some pushed) :
    pushed.Bounded := by
  unfold push? at hpush
  split at hpush
  next hdepth =>
    cases hpush
    constructor
    · exact hdepth
    · intro i
      change ((s.slots.set s.depth returnAddress)[i.val]).toNat ≤ Memory.size
      rw [Vector.getElem_set]
      split
      · exact haddress
      · exact hs.slot_le i
  next => cases hpush

theorem Bounded.drop {s : CallStack} (hs : s.Bounded) : s.drop.Bounded :=
  ⟨Nat.le_trans (Nat.sub_le _ _) hs.depth_le, hs.slot_le⟩

theorem Bounded.top_le {s : CallStack} {target : UInt16} (hs : s.Bounded)
    (htop : s.top? = some target) :
    target.toNat ≤ Memory.size := by
  unfold top? at htop
  split at htop
  next => cases htop
  next hdepth =>
    have hplace : s.depth - 1 < limit := by
      have hle := hs.depth_le
      omega
    rw [Vector.getElem?_eq_getElem hplace, Option.some.injEq] at htop
    rw [← htop]
    exact hs.slot_le ⟨s.depth - 1, hplace⟩

end CallStack

namespace Machine

def farthest : Nat := 0xFFF + 0xFF

structure Bounded (m : Machine) : Prop where
  stack : m.processor.stack.Bounded
  pc_le : m.processor.pc.toNat ≤ farthest
  running : m.processor.running = true

theorem bounded_new (dialect : Dialect) (mode : TimerMode) (random : List UInt8) (now : Nat) :
    (new dialect mode random now).Bounded := by
  refine ⟨CallStack.bounded_empty, ?_, rfl⟩
  change (UInt16.ofNat Memory.programStart).toNat ≤ farthest
  decide

/-! ## One instruction -/

theorem lt_of_word_eq_ok {memory : Memory} {address : Nat} {word : UInt16}
    (hword : memory.word address = .ok word) :
    address + 1 < Memory.size := by
  unfold Memory.word at hword
  split at hword
  next hlt => exact hlt
  next => cases hword

theorem toNat_pc_fetched {m : Machine} {word : UInt16}
    (hword : m.memory.word m.processor.pc.toNat = .ok word) :
    (m.fetched word).processor.pc.toNat = m.processor.pc.toNat + 2 ∧
      m.processor.pc.toNat + 2 ≤ Memory.size := by
  have hlt : m.processor.pc.toNat + 1 < 4096 := lt_of_word_eq_ok hword
  have hstep : (m.fetched word).processor.pc = m.processor.pc + 2 := rfl
  have htwo : (2 : UInt16).toNat = 2 := rfl
  refine ⟨?_, by simp only [Memory.size]; omega⟩
  rw [hstep, UInt16.toNat_add, htwo]
  omega

theorem Effect.stack_bounded {m after : Machine} {instruction : Instruction} {flow : Flow}
    (heffect : Effect m instruction flow after)
    (hstack : m.processor.stack.Bounded) (hpc : m.processor.pc.toNat ≤ Memory.size) :
    after.processor.stack.Bounded := by
  cases heffect with
  | leave htop => exact hstack.drop
  | call target hpush => exact hstack.push hpc hpush
  | arithmetic operation x y =>
      obtain ⟨v, hv⟩ := calculate_keeps m.processor operation x y
      rw [hv]
      exact hstack
  | storeRegisters x hrange =>
      obtain ⟨index, hindex⟩ := advanceIndex_keeps m.processor x
      rw [hindex]
      exact hstack
  | loadRegisters x hrange =>
      obtain ⟨index, hindex⟩ := advanceIndex_keeps { m.processor with v := _ } x
      rw [hindex]
      exact hstack
  | _ => exact hstack

theorem skipIf_ne_jump (condition : Bool) (target : UInt16) :
    Flow.skipIf condition ≠ .jump target := by
  cases condition with
  | false => exact Flow.noConfusion
  | true => exact Flow.noConfusion

theorem toNat_add_toUInt16 {base : UInt16} (offset : UInt8) (hbase : base.toNat < 0x1000) :
    (base + offset.toUInt16).toNat = base.toNat + offset.toNat := by
  have hoffset := offset.toNat_lt
  rw [UInt16.toNat_add, UInt8.toNat_toUInt16]
  omega

theorem Effect.jump_le {m after : Machine} {instruction : Instruction} {flow : Flow}
    {target : UInt16} (heffect : Effect m instruction flow after)
    (htarget : ∀ address, instruction.target? = some address → address.toNat < 0x1000)
    (hstack : m.processor.stack.Bounded) (hflow : flow = .jump target) :
    target.toNat ≤ farthest := by
  unfold farthest
  cases heffect with
  | leave htop =>
      cases hflow
      have hle : target.toNat ≤ 4096 := hstack.top_le htop
      omega
  | jump =>
      cases hflow
      have hlt := htarget target rfl
      omega
  | call =>
      cases hflow
      have hlt := htarget target rfl
      omega
  | jumpOffset base =>
      cases hflow
      have hlt := htarget base rfl
      have hoffset := (m.processor.reg .offset).toNat_lt
      rw [toNat_add_toUInt16 _ hlt]
      omega
  | skipByte equal x byte => exact absurd hflow (skipIf_ne_jump _ _)
  | skipRegister equal x y => exact absurd hflow (skipIf_ne_jump _ _)
  | skipKey down x hkey => exact absurd hflow (skipIf_ne_jump _ _)
  | _ => cases hflow

theorem Performs.bounded {m after : Machine} {word : UInt16} {flow : Flow}
    (hperforms : Performs m word flow after) (hm : m.Bounded) :
    Machine.Bounded { after with processor := after.processor.follow flow } := by
  obtain ⟨hpc, hend⟩ := toNat_pc_fetched hperforms.fetch
  have huntouched := hperforms.effect.untouched
  have hsame : after.processor.pc = (m.fetched word).processor.pc := huntouched.pc
  constructor
  · have hstack := hperforms.effect.stack_bounded hm.stack (by rw [hpc]; exact hend)
    cases flow with
    | next => exact hstack
    | skip => exact hstack
    | jump target => exact hstack
    | again => exact hstack
  · simp only [Memory.size] at hend
    unfold farthest
    cases flow with
    | next =>
        change after.processor.pc.toNat ≤ 0xFFF + 0xFF
        rw [hsame]
        omega
    | skip =>
        change (after.processor.pc + 2).toNat ≤ 0xFFF + 0xFF
        have htwo : (2 : UInt16).toNat = 2 := rfl
        rw [UInt16.toNat_add, hsame, htwo]
        omega
    | jump target =>
        exact hperforms.effect.jump_le (fun _ => Instruction.toNat_target_lt) hm.stack rfl
    | again =>
        have haddress : after.processor.lastAddress = m.processor.pc := huntouched.lastAddress
        change after.processor.lastAddress.toNat ≤ 0xFFF + 0xFF
        rw [haddress]
        omega
  · have hrunning : after.processor.running = true :=
      huntouched.running.trans hperforms.running
    cases flow with
    | next => exact hrunning
    | skip => exact hrunning
    | jump target => exact hrunning
    | again => exact hrunning

/-! ## Operations and histories -/

theorem Bounded.noting {m : Machine} (hm : m.Bounded) (fault : Fault) :
    (m.noting fault).Bounded := by
  obtain ⟨lastAddress, lastWord, hnoting⟩ := m.noting_keeps fault
  rw [hnoting]
  exact ⟨hm.stack, hm.pc_le, hm.running⟩

theorem Bounded.step {m : Machine} (hm : m.Bounded) (now : Nat) :
    (m.step now).state.Bounded := by
  cases hfault : (m.step now).fault with
  | some fault =>
      rw [step_state_of_fault hfault]
      exact hm.noting fault
  | none =>
      obtain ⟨word, flow, after, hperforms, -, hstate⟩ := performs_of_step hfault
      have hafter := hperforms.bounded hm
      rw [hstate]
      exact ⟨hafter.stack, hafter.pc_le, hafter.running⟩

theorem bounded_reset (m : Machine) (now : Nat) : (m.reset now).Bounded := by
  have hnew := bounded_new m.processor.dialect m.timers.mode m.random now
  exact ⟨hnew.stack, hnew.pc_le, hnew.running⟩

theorem Bounded.load {m : Machine} (hm : m.Bounded) (program : Program) :
    (m.load program).state.Bounded := by
  obtain ⟨memory, loaded, hload⟩ := m.load_state program
  rw [hload]
  exact ⟨hm.stack, hm.pc_le, hm.running⟩

theorem Bounded.operate {m : Machine} (hm : m.Bounded) (now : Nat) (operation : Operation) :
    (m.operate now operation).2.Bounded := by
  cases operation with
  | load program => exact hm.load program
  | step => exact hm.step now
  | reset => exact bounded_reset m now
  | resetAndLoad program => exact (bounded_reset m now).load program
  | setKey code pressed => exact ⟨hm.stack, hm.pc_le, hm.running⟩
  | tickTimers => exact ⟨hm.stack, hm.pc_le, hm.running⟩
  | takeBeep => exact ⟨hm.stack, hm.pc_le, hm.running⟩
  | setSound value => exact ⟨hm.stack, hm.pc_le, hm.running⟩
  | acknowledgeScreen => exact ⟨hm.stack, hm.pc_le, hm.running⟩

theorem Bounded.after {m : Machine} (hm : m.Bounded) (history : List (Nat × Operation)) :
    (m.after history).Bounded := by
  induction history generalizing m with
  | nil => exact hm
  | cons event history ih => exact ih (hm.operate event.1 event.2)

/-! ## Faults -/

theorem Bounded.fault_ne {m : Machine} (hm : m.Bounded) {now : Nat} {fault : Fault}
    (hfault : (m.step now).fault = some fault) :
    fault ≠ .halted ∧ ∀ word address, fault ≠ .unknownWord word address := by
  rcases step_fault_cases hfault with ⟨-, hcycle⟩ | ⟨-, rfl⟩
  · rcases cycle_fault_cases hcycle with
      ⟨hstopped, -, -⟩ | ⟨-, -, ⟨e, -, rfl⟩ | ⟨word, -, hrefuses⟩⟩
    · rw [hm.running] at hstopped
      cases hstopped
    · simp
    · generalize Instruction.decode word = instruction at hrefuses
      cases hrefuses <;> simp
  · simp

/-! ## Room for every index and every number -/

/-- What an instruction asks of the machine on which it is executed, so that none of its indices
points outside of what it is taken from and none of its sums and products leaves its type. -/
def Fits (m : Machine) : Instruction → Prop
  | .leave =>
      0 < m.processor.stack.depth →
        ∃ hplace : m.processor.stack.depth - 1 < CallStack.limit,
          m.processor.stack.top? = some (m.processor.stack.slots.get ⟨_, hplace⟩)
  | .call _ =>
      ∀ stack, m.processor.stack.push? m.processor.pc = some stack →
        m.processor.stack.depth < CallStack.limit ∧
          stack.depth = m.processor.stack.depth + 1
  | .skipByte .. | .skipRegister .. | .skipKey .. => m.processor.pc.toNat + 2 < 0x10000
  | .jumpOffset base => base.toNat + (m.processor.reg .offset).toNat < 0x10000
  | .glyph x => (m.processor.reg x).toNat * Memory.glyphSize < 0x10000
  | .draw x y rows =>
      (∀ sprite, m.memory.range m.processor.index.toNat rows = .ok sprite →
        sprite.length = rows ∧ m.processor.index.toNat + rows ≤ Memory.size) ∧
      ∀ row bit, Screen.place ((m.processor.reg x).toNat + bit)
        ((m.processor.reg y).toNat + row) < Screen.width * Screen.height
  | .decimal _ =>
      ∀ bytes, m.memory.range m.processor.index.toNat 3 = .ok bytes →
        ∀ offset < 3, m.processor.index.toNat + offset < Memory.size
  | .storeRegisters x =>
      ∀ bytes, m.memory.range m.processor.index.toNat (x.val + 1) = .ok bytes →
        ∀ r ≤ x.val, r < 16 ∧ m.processor.index.toNat + r < Memory.size
  | .loadRegisters x =>
      ∀ bytes, m.memory.range m.processor.index.toNat (x.val + 1) = .ok bytes →
        bytes.length = x.val + 1 ∧ bytes.length ≤ 16 ∧
          m.processor.index.toNat + bytes.length ≤ Memory.size
  | _ => True

theorem Bounded.fits_fetched {m : Machine} {word : UInt16} (hm : m.Bounded)
    (hword : m.memory.word m.processor.pc.toNat = .ok word) :
    (m.fetched word).Fits (.decode word) := by
  obtain ⟨hpc, hend⟩ := toNat_pc_fetched hword
  simp only [Memory.size] at hend
  cases hinstruction : Instruction.decode word with
  | leave =>
      intro hopen
      have hdepth : m.processor.stack.depth ≤ 16 := hm.stack.depth_le
      have hplace : (m.fetched word).processor.stack.depth - 1 < CallStack.limit := by
        change m.processor.stack.depth - 1 < 16
        omega
      refine ⟨hplace, ?_⟩
      unfold CallStack.top?
      rw [if_neg (by omega), Vector.getElem?_eq_getElem hplace]
      rfl
  | call target =>
      intro stack hpush
      unfold CallStack.push? at hpush
      split at hpush
      next hdepth =>
        cases hpush
        exact ⟨hdepth, rfl⟩
      next => cases hpush
  | skipByte equal x byte =>
      unfold Fits
      omega
  | skipRegister equal x y =>
      unfold Fits
      omega
  | skipKey down x =>
      unfold Fits
      omega
  | jumpOffset base =>
      have hbase := Instruction.toNat_target_lt
        (show (Instruction.decode word).target? = some base by rw [hinstruction]; rfl)
      have hoffset := ((m.fetched word).processor.reg .offset).toNat_lt
      unfold Fits
      omega
  | glyph x =>
      have hdigit := ((m.fetched word).processor.reg x).toNat_lt
      unfold Fits Memory.glyphSize
      omega
  | draw x y rows =>
      refine ⟨?_, fun row bit => Screen.place_lt _ _⟩
      intro sprite hrange
      obtain ⟨hfits, hlength⟩ := Memory.length_of_range_eq_ok hrange
      exact ⟨hlength, hfits⟩
  | decimal x =>
      intro bytes hrange offset hoffset
      have hfits := (Memory.length_of_range_eq_ok hrange).1
      omega
  | storeRegisters x =>
      intro bytes hrange r hr
      have hfits := (Memory.length_of_range_eq_ok hrange).1
      have hx := x.isLt
      omega
  | loadRegisters x =>
      intro bytes hrange
      obtain ⟨hfits, hlength⟩ := Memory.length_of_range_eq_ok hrange
      have hx := x.isLt
      omega
  | _ => trivial

/-! ## The theorem -/

/-- A machine keeps its bounds in every history.  So it never halts for good and never meets a word
of no family, a loaded machine runs, and every instruction that is fetched finds room for its
indices and for its sums, beginning with the two bytes by which the program counter moves on. -/
theorem reachable_bounded (dialect : Dialect) (mode : TimerMode) (random : List UInt8)
    (created : Nat) (history : List (Nat × Operation)) :
    let m := (new dialect mode random created).after history
    m.processor.stack.depth ≤ 16 ∧
      (∀ i, (m.processor.stack.slots.get i).toNat ≤ 0x1000) ∧
      m.processor.pc.toNat ≤ 0x10FE ∧
      (∀ i, m.screen.cells.get i = 0 ∨ m.screen.cells.get i = 1) ∧
      m.processor.running = true ∧
      m.isRunning = m.loaded ∧
      (∀ now fault, (m.step now).fault = some fault →
        fault ≠ .halted ∧ ∀ word address, fault ≠ .unknownWord word address) ∧
      ∀ word, m.memory.word m.processor.pc.toNat = .ok word →
        (m.fetched word).processor.pc.toNat = m.processor.pc.toNat + 2 ∧
          (m.fetched word).Fits (.decode word) := by
  intro m
  have hm : m.Bounded := (bounded_new dialect mode random created).after history
  have hruns : m.isRunning = m.loaded := by
    unfold isRunning
    rw [hm.running, Bool.and_true]
  exact ⟨hm.stack.depth_le, hm.stack.slot_le, hm.pc_le, m.screen.get_cells_eq_zero_or_one,
    hm.running, hruns, fun _ _ => hm.fault_ne,
    fun _ hword => ⟨(toNat_pc_fetched hword).1, hm.fits_fetched hword⟩⟩

/-- The longest jump there is, `0xFFF` and the `0xFF` in the first register. -/
def longestJump : List (Nat × Operation) :=
  [(0, .load #[0x60, 0xFF, 0xBF, 0xFF]), (0, .step), (0, .step)]

theorem reachable_bounded_longestJump :
    ((new .standard .perStep [] 0).after longestJump).processor.pc = 0x10FE ∧
      ((new .standard .perStep [] 0).after longestJump).processor.pc.toNat ≤ 0x10FE ∧
      (((new .standard .perStep [] 0).after longestJump).step 0).fault =
        some (.outOfBounds 0x10FE 0x10FE) ∧
      Fault.outOfBounds 0x10FE 0x10FE ≠ .halted := by
  have hfault : (((new .standard .perStep [] 0).after longestJump).step 0).fault =
      some (.outOfBounds 0x10FE 0x10FE) := by
    decide +kernel
  obtain ⟨-, -, hbound, -, -, -, hne, -⟩ :=
    reachable_bounded .standard .perStep [] 0 longestJump
  exact ⟨by decide +kernel, hbound, hfault, (hne 0 _ hfault).1⟩

end Machine

end ChipEight
