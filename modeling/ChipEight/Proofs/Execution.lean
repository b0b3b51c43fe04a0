import ChipEight.Machine.Step
import ChipEight.Proofs.Words

/-!
# What an instruction does

The instructions that reach memory through the index check a whole range and then write one cell
after the other, and each of these writes has a check of its own.  The first check settles the
others, so that each of the four instructions is one decision between the whole change and none.
From this follows the main fact about refusals: an instruction of some family that is refused leaves
the machine as it found it.
-/

namespace ChipEight

namespace Memory

theorem write_of_lt (m : Memory) {address : Nat} (value : UInt8)
    (haddress : address < size) :
    m.write address value = .ok ⟨m.cells.setIfInBounds address value⟩ := by
  unfold write
  rw [dif_pos haddress]
  congr 2
  exact Vector.toArray_inj.mp (by simp [Array.setIfInBounds, haddress])

theorem length_of_range_eq_ok {m : Memory} {address count : Nat} {bytes : List UInt8}
    (hrange : m.range address count = .ok bytes) :
    address + count ≤ size ∧ bytes.length = count := by
  unfold range at hrange
  split at hrange
  next hle =>
    cases hrange
    refine ⟨hle, ?_⟩
    simp
    omega
  next => cases hrange

theorem range_eq_error {m : Memory} {address count : Nat} {e : AddressError}
    (hrange : m.range address count = .error e) :
    size < address + count ∧ e = ⟨max address size⟩ := by
  unfold range at hrange
  split at hrange
  next => cases hrange
  next hnot =>
    cases hrange
    exact ⟨by omega, rfl⟩

theorem range_of_lt (m : Memory) {address count : Nat} (hout : size < address + count) :
    m.range address count = .error ⟨max address size⟩ := by
  unfold range
  exact if_neg (Nat.not_le.mpr hout)

end Memory

namespace Instruction

/-- The number of cells from the index on that an instruction reads or writes, for the instructions
that go to memory through the index. -/
def reach? : Instruction → Option Nat
  | .draw _ _ rows => some rows
  | .decimal _ => some 3
  | .storeRegisters x | .loadRegisters x => some (x.val + 1)
  | _ => none

theorem decode_ne_unknown (word other : UInt16) : decode word ≠ .unknown other := by
  intro hunknown
  have hwritten := written_decode word
  rw [hunknown] at hwritten
  cases hwritten

end Instruction

namespace Machine

/-! ## Reaching memory -/

theorem run_readAtIndex (m : Machine) (count : Nat) :
    (readAtIndex count).run m =
      match m.memory.range m.processor.index.toNat count with
      | .ok bytes => .ok bytes m
      | .error e => .error (m.outOfBounds e) m := by
  simp only [readAtIndex, EStateM.run_bind, EStateM.run_get]
  cases m.memory.range m.processor.index.toNat count with
  | ok bytes => rfl
  | error e => rfl

theorem run_writeFrom (m : Machine) {address : Nat} {bytes : List UInt8}
    (hfits : address + bytes.length ≤ Memory.size) :
    (writeFrom address bytes).run m =
      .ok () { m with memory := m.memory.store address bytes } := by
  induction bytes generalizing m address with
  | nil => rfl
  | cons byte rest ih =>
      rw [List.length_cons] at hfits
      have hfirst := m.memory.write_of_lt byte (show address < Memory.size by omega)
      simp only [writeFrom, EStateM.run_bind, EStateM.run_get, hfirst, EStateM.run_set]
      rw [ih _ (by omega)]
      rfl

theorem run_execute_draw (m : Machine) (x y : Register) (rows : Nat) :
    (execute (.draw x y rows)).run m =
      match m.memory.range m.processor.index.toNat rows with
      | .ok sprite =>
          .ok .next
            { m with
              screen := (m.screen.draw (m.processor.reg x) (m.processor.reg y) sprite).2
              processor := m.processor.set .flag
                (flagOf (m.screen.draw (m.processor.reg x) (m.processor.reg y) sprite).1) }
      | .error e => .error (m.outOfBounds e) m := by
  change (executeDraw x y rows).run m = _
  rw [executeDraw, EStateM.run_bind, run_readAtIndex]
  cases m.memory.range m.processor.index.toNat rows with
  | ok sprite => rfl
  | error e => rfl

theorem run_execute_decimal (m : Machine) (x : Register) :
    (execute (.decimal x)).run m =
      match m.memory.range m.processor.index.toNat 3 with
      | .ok _ =>
          .ok .next
            { m with
              memory := m.memory.store m.processor.index.toNat
                (decimalDigits (m.processor.reg x)) }
      | .error e => .error (m.outOfBounds e) m := by
  change (executeDecimal x).run m = _
  rw [executeDecimal, EStateM.run_bind, run_readAtIndex]
  cases hrange : m.memory.range m.processor.index.toNat 3 with
  | ok bytes =>
      have hfits := (Memory.length_of_range_eq_ok hrange).1
      simp only [EStateM.run_bind, EStateM.run_get]
      rw [run_writeFrom m (by simpa [decimalDigits] using hfits)]
      rfl
  | error e => rfl

theorem run_execute_storeRegisters (m : Machine) (x : Register) :
    (execute (.storeRegisters x)).run m =
      match m.memory.range m.processor.index.toNat (x.val + 1) with
      | .ok _ =>
          .ok .next
            { m with
              memory := m.memory.store m.processor.index.toNat (m.processor.v.upTo x)
              processor := m.processor.advanceIndex x }
      | .error e => .error (m.outOfBounds e) m := by
  change (executeStore x).run m = _
  rw [executeStore, EStateM.run_bind, run_readAtIndex]
  cases hrange : m.memory.range m.processor.index.toNat (x.val + 1) with
  | ok bytes =>
      have hfits := (Memory.length_of_range_eq_ok hrange).1
      simp only [EStateM.run_bind, EStateM.run_get]
      rw [run_writeFrom m (by rw [Registers.length_upTo]; exact hfits)]
      rfl
  | error e => rfl

theorem run_execute_loadRegisters (m : Machine) (x : Register) :
    (execute (.loadRegisters x)).run m =
      match m.memory.range m.processor.index.toNat (x.val + 1) with
      | .ok bytes =>
          .ok .next
            { m with
              processor :=
                { m.processor with v := m.processor.v.overlay bytes }.advanceIndex x }
      | .error e => .error (m.outOfBounds e) m := by
  change (executeLoad x).run m = _
  rw [executeLoad, EStateM.run_bind, run_readAtIndex]
  cases m.memory.range m.processor.index.toNat (x.val + 1) with
  | ok bytes => rfl
  | error e => rfl

/-! ## Instructions that decide before they change -/

theorem run_execute_leave (m : Machine) :
    (execute .leave).run m =
      match m.processor.stack.top? with
      | none => .error (.returnWithoutCall m.processor.lastAddress) m
      | some target =>
          .ok (.jump target)
            { m with processor := { m.processor with stack := m.processor.stack.drop } } := by
  simp only [execute, EStateM.run_bind, EStateM.run_get]
  cases m.processor.stack.top? with
  | none => rfl
  | some target => rfl

theorem run_execute_call (m : Machine) (target : UInt16) :
    (execute (.call target)).run m =
      match m.processor.stack.push? m.processor.pc with
      | none => .error (.callTooDeep m.processor.lastAddress) m
      | some stack =>
          .ok (.jump target) { m with processor := { m.processor with stack } } := by
  simp only [execute, EStateM.run_bind, EStateM.run_get]
  cases m.processor.stack.push? m.processor.pc with
  | none => rfl
  | some stack => rfl

theorem run_execute_random (m : Machine) (x : Register) (mask : UInt8) :
    (execute (.random x mask)).run m =
      match m.random with
      | [] => .error .noRandomByte m
      | byte :: rest =>
          .ok .next { m with random := rest, processor := m.processor.set x (byte &&& mask) } := by
  simp only [execute, EStateM.run_bind, EStateM.run_get]
  cases m.random with
  | nil => rfl
  | cons byte rest => rfl

theorem run_execute_skipKey (m : Machine) (down : Bool) (x : Register) :
    (execute (.skipKey down x)).run m =
      if (m.processor.reg x).toNat < Keypad.keyCount then
        .ok (.skipIf (m.keypad.isDown (m.processor.reg x) == down)) m
      else
        .error (.noSuchKey (m.processor.reg x) m.processor.lastAddress) m := by
  change (executeSkipKey down x).run m = _
  simp only [executeSkipKey, EStateM.run_bind, EStateM.run_get]
  split
  next => rfl
  next => rfl

theorem run_execute_awaitKey (m : Machine) (x : Register) :
    (execute (.awaitKey x)).run m =
      match m.keypad.highest? with
      | none => .ok .again m
      | some key => .ok .next { m with processor := m.processor.set x key } := by
  simp only [execute, EStateM.run_bind, EStateM.run_get]
  cases m.keypad.highest? with
  | none => rfl
  | some key => rfl

/-! ## Refusals -/

/-- When and why an instruction is refused. -/
inductive Refuses (m : Machine) : Instruction → Fault → Prop where
  | leave (htop : m.processor.stack.top? = none) :
      Refuses m .leave (.returnWithoutCall m.processor.lastAddress)
  | call (target : UInt16) (hpush : m.processor.stack.push? m.processor.pc = none) :
      Refuses m (.call target) (.callTooDeep m.processor.lastAddress)
  | random (x : Register) (mask : UInt8) (hrandom : m.random = []) :
      Refuses m (.random x mask) .noRandomByte
  | skipKey (down : Bool) (x : Register)
      (hkey : Keypad.keyCount ≤ (m.processor.reg x).toNat) :
      Refuses m (.skipKey down x)
        (.noSuchKey (m.processor.reg x) m.processor.lastAddress)
  | reach {instruction : Instruction} {count : Nat}
      (hreach : instruction.reach? = some count)
      (hout : Memory.size < m.processor.index.toNat + count) :
      Refuses m instruction
        (.outOfBounds (max m.processor.index.toNat Memory.size) m.processor.lastAddress)

theorem Refuses.of_range_error {m : Machine} {instruction : Instruction} {count : Nat}
    {e : AddressError}
    (hreach : instruction.reach? = some count)
    (hrange : m.memory.range m.processor.index.toNat count = .error e) :
    Refuses m instruction (m.outOfBounds e) := by
  obtain ⟨hout, rfl⟩ := Memory.range_eq_error hrange
  exact .reach hreach hout

theorem refuses_of_run_execute {m after : Machine} {instruction : Instruction} {fault : Fault}
    (hknown : ∀ word, instruction ≠ .unknown word)
    (hrun : (execute instruction).run m = .error fault after) :
    after = m ∧ Refuses m instruction fault := by
  cases instruction with
  | leave =>
      rw [run_execute_leave] at hrun
      split at hrun
      next htop => cases hrun; exact ⟨rfl, .leave htop⟩
      next => cases hrun
  | call target =>
      rw [run_execute_call] at hrun
      split at hrun
      next hpush => cases hrun; exact ⟨rfl, .call target hpush⟩
      next => cases hrun
  | random x mask =>
      rw [run_execute_random] at hrun
      split at hrun
      next hrandom => cases hrun; exact ⟨rfl, .random x mask hrandom⟩
      next => cases hrun
  | skipKey down x =>
      rw [run_execute_skipKey] at hrun
      split at hrun
      next => cases hrun
      next hkey => cases hrun; exact ⟨rfl, .skipKey down x (Nat.le_of_not_lt hkey)⟩
  | awaitKey x =>
      rw [run_execute_awaitKey] at hrun
      split at hrun
      next => cases hrun
      next => cases hrun
  | draw x y rows =>
      rw [run_execute_draw] at hrun
      split at hrun
      next => cases hrun
      next hrange => cases hrun; exact ⟨rfl, .of_range_error rfl hrange⟩
  | decimal x =>
      rw [run_execute_decimal] at hrun
      split at hrun
      next => cases hrun
      next hrange => cases hrun; exact ⟨rfl, .of_range_error rfl hrange⟩
  | storeRegisters x =>
      rw [run_execute_storeRegisters] at hrun
      split at hrun
      next => cases hrun
      next hrange => cases hrun; exact ⟨rfl, .of_range_error rfl hrange⟩
  | loadRegisters x =>
      rw [run_execute_loadRegisters] at hrun
      split at hrun
      next => cases hrun
      next hrange => cases hrun; exact ⟨rfl, .of_range_error rfl hrange⟩
  | unknown word => exact absurd rfl (hknown word)
  | _ => cases hrun

theorem run_execute_of_refuses {m : Machine} {instruction : Instruction} {fault : Fault}
    (hrefuses : Refuses m instruction fault) :
    (execute instruction).run m = .error fault m := by
  cases hrefuses with
  | leave htop => rw [run_execute_leave, htop]
  | call target hpush => rw [run_execute_call, hpush]
  | random x mask hrandom => rw [run_execute_random, hrandom]
  | skipKey down x hkey => rw [run_execute_skipKey, if_neg (Nat.not_lt.mpr hkey)]
  | reach hreach hout =>
      have hrange := m.memory.range_of_lt hout
      cases instruction with
      | draw x y rows => cases hreach; rw [run_execute_draw, hrange]; rfl
      | decimal x => cases hreach; rw [run_execute_decimal, hrange]; rfl
      | storeRegisters x => cases hreach; rw [run_execute_storeRegisters, hrange]; rfl
      | loadRegisters x => cases hreach; rw [run_execute_loadRegisters, hrange]; rfl
      | _ => cases hreach

/-! ## Effects -/

/-- Where control goes on after an instruction that is not refused, and the machine after it. -/
inductive Effect (m : Machine) : Instruction → Flow → Machine → Prop where
  | clear : Effect m .clear .next { m with screen := m.screen.clear }
  | leave {target : UInt16} (htop : m.processor.stack.top? = some target) :
      Effect m .leave (.jump target)
        { m with processor := { m.processor with stack := m.processor.stack.drop } }
  | jump (target : UInt16) : Effect m (.jump target) (.jump target) m
  | call {stack : CallStack} (target : UInt16)
      (hpush : m.processor.stack.push? m.processor.pc = some stack) :
      Effect m (.call target) (.jump target) { m with processor := { m.processor with stack } }
  | skipByte (equal : Bool) (x : Register) (byte : UInt8) :
      Effect m (.skipByte equal x byte) (.skipIf ((m.processor.reg x == byte) == equal)) m
  | skipRegister (equal : Bool) (x y : Register) :
      Effect m (.skipRegister equal x y)
        (.skipIf ((m.processor.reg x == m.processor.reg y) == equal)) m
  | setByte (x : Register) (byte : UInt8) :
      Effect m (.setByte x byte) .next { m with processor := m.processor.set x byte }
  | addByte (x : Register) (byte : UInt8) :
      Effect m (.addByte x byte) .next
        { m with processor := m.processor.set x (m.processor.reg x + byte) }
  | arithmetic (operation : Arithmetic) (x y : Register) :
      Effect m (.arithmetic operation x y) .next
        { m with processor := m.processor.calculate operation x y }
  | setIndex (address : UInt16) :
      Effect m (.setIndex address) .next
        { m with processor := { m.processor with index := address } }
  | jumpOffset (base : UInt16) :
      Effect m (.jumpOffset base)
        (.jump (base + (m.processor.reg .offset).toUInt16)) m
  | random {byte : UInt8} {rest : List UInt8} (x : Register) (mask : UInt8)
      (hrandom : m.random = byte :: rest) :
      Effect m (.random x mask) .next
        { m with random := rest, processor := m.processor.set x (byte &&& mask) }
  | draw {sprite : List UInt8} (x y : Register) (rows : Nat)
      (hrange : m.memory.range m.processor.index.toNat rows = .ok sprite) :
      Effect m (.draw x y rows) .next
        { m with
          screen := (m.screen.draw (m.processor.reg x) (m.processor.reg y) sprite).2
          processor := m.processor.set .flag
            (flagOf (m.screen.draw (m.processor.reg x) (m.processor.reg y) sprite).1) }
  | skipKey (down : Bool) (x : Register)
      (hkey : (m.processor.reg x).toNat < Keypad.keyCount) :
      Effect m (.skipKey down x)
        (.skipIf (m.keypad.isDown (m.processor.reg x) == down)) m
  | readDelay (x : Register) :
      Effect m (.readDelay x) .next { m with processor := m.processor.set x m.timers.delay }
  | awaitNoKey (x : Register) (hnone : m.keypad.highest? = none) :
      Effect m (.awaitKey x) .again m
  | awaitKey {key : UInt8} (x : Register) (hkey : m.keypad.highest? = some key) :
      Effect m (.awaitKey x) .next { m with processor := m.processor.set x key }
  | setDelay (x : Register) :
      Effect m (.setDelay x) .next
        { m with timers := { m.timers with delay := m.processor.reg x } }
  | setSound (x : Register) : Effect m (.setSound x) .next (m.setSound (m.processor.reg x))
  | addIndex (x : Register) :
      Effect m (.addIndex x) .next
        { m with
          processor :=
            { m.processor with
              index := m.processor.index + (m.processor.reg x).toUInt16 } }
  | glyph (x : Register) :
      Effect m (.glyph x) .next
        { m with
          processor :=
            { m.processor with
              index := (m.processor.reg x).toUInt16 * UInt16.ofNat Memory.glyphSize } }
  | decimal {bytes : List UInt8} (x : Register)
      (hrange : m.memory.range m.processor.index.toNat 3 = .ok bytes) :
      Effect m (.decimal x) .next
        { m with
          memory := m.memory.store m.processor.index.toNat
            (decimalDigits (m.processor.reg x)) }
  | storeRegisters {bytes : List UInt8} (x : Register)
      (hrange : m.memory.range m.processor.index.toNat (x.val + 1) = .ok bytes) :
      Effect m (.storeRegisters x) .next
        { m with
          memory := m.memory.store m.processor.index.toNat (m.processor.v.upTo x)
          processor := m.processor.advanceIndex x }
  | loadRegisters {bytes : List UInt8} (x : Register)
      (hrange : m.memory.range m.processor.index.toNat (x.val + 1) = .ok bytes) :
      Effect m (.loadRegisters x) .next
        { m with
          processor :=
            { m.processor with v := m.processor.v.overlay bytes }.advanceIndex x }
  | unrecognised (family : Family) (word : UInt16) :
      Effect m (.unrecognised family word) .next m

theorem effect_of_run_execute {m after : Machine} {instruction : Instruction} {flow : Flow}
    (hrun : (execute instruction).run m = .ok flow after) :
    Effect m instruction flow after := by
  cases instruction with
  | leave =>
      rw [run_execute_leave] at hrun
      split at hrun
      next => cases hrun
      next htop => cases hrun; exact .leave htop
  | call target =>
      rw [run_execute_call] at hrun
      split at hrun
      next => cases hrun
      next hpush => cases hrun; exact .call target hpush
  | random x mask =>
      rw [run_execute_random] at hrun
      split at hrun
      next => cases hrun
      next hrandom => cases hrun; exact .random x mask hrandom
  | skipKey down x =>
      rw [run_execute_skipKey] at hrun
      split at hrun
      next hkey => cases hrun; exact .skipKey down x hkey
      next => cases hrun
  | awaitKey x =>
      rw [run_execute_awaitKey] at hrun
      split at hrun
      next hnone => cases hrun; exact .awaitNoKey x hnone
      next hkey => cases hrun; exact .awaitKey x hkey
  | draw x y rows =>
      rw [run_execute_draw] at hrun
      split at hrun
      next hrange => cases hrun; exact .draw x y rows hrange
      next => cases hrun
  | decimal x =>
      rw [run_execute_decimal] at hrun
      split at hrun
      next hrange => cases hrun; exact .decimal x hrange
      next => cases hrun
  | storeRegisters x =>
      rw [run_execute_storeRegisters] at hrun
      split at hrun
      next hrange => cases hrun; exact .storeRegisters x hrange
      next => cases hrun
  | loadRegisters x =>
      rw [run_execute_loadRegisters] at hrun
      split at hrun
      next hrange => cases hrun; exact .loadRegisters x hrange
      next => cases hrun
  | unknown word => cases hrun
  | _ => cases hrun; constructor

theorem run_execute_of_effect {m after : Machine} {instruction : Instruction} {flow : Flow}
    (heffect : Effect m instruction flow after) :
    (execute instruction).run m = .ok flow after := by
  cases heffect with
  | leave htop => rw [run_execute_leave, htop]
  | call target hpush => rw [run_execute_call, hpush]
  | random x mask hrandom => rw [run_execute_random, hrandom]
  | skipKey down x hkey => rw [run_execute_skipKey, if_pos hkey]
  | awaitNoKey x hnone => rw [run_execute_awaitKey, hnone]
  | awaitKey x hkey => rw [run_execute_awaitKey, hkey]
  | draw x y rows hrange => rw [run_execute_draw, hrange]
  | decimal x hrange => rw [run_execute_decimal, hrange]
  | storeRegisters x hrange => rw [run_execute_storeRegisters, hrange]
  | loadRegisters x hrange => rw [run_execute_loadRegisters, hrange]
  | _ => rfl

/-! ## What no instruction touches -/

/-- Two machines that agree in everything that an executed instruction leaves alone. -/
structure Untouched (m after : Machine) : Prop where
  pc : after.processor.pc = m.processor.pc
  dialect : after.processor.dialect = m.processor.dialect
  lastWord : after.processor.lastWord = m.processor.lastWord
  lastAddress : after.processor.lastAddress = m.processor.lastAddress
  running : after.processor.running = m.processor.running
  keypad : after.keypad = m.keypad
  mode : after.timers.mode = m.timers.mode
  beep : after.timers.beep = m.timers.beep
  lastTick : after.timers.lastTick = m.timers.lastTick
  loaded : after.loaded = m.loaded

theorem calculate_keeps (p : Processor) (operation : Arithmetic) (x y : Register) :
    ∃ v, p.calculate operation x y = { p with v } := by
  simp only [Processor.calculate]
  split
  · exact ⟨_, rfl⟩
  · exact ⟨_, rfl⟩

theorem advanceIndex_keeps (p : Processor) (x : Register) :
    ∃ index, p.advanceIndex x = { p with index } := by
  unfold Processor.advanceIndex
  split
  · exact ⟨_, rfl⟩
  · exact ⟨p.index, rfl⟩

theorem Effect.untouched {m after : Machine} {instruction : Instruction} {flow : Flow}
    (heffect : Effect m instruction flow after) :
    Untouched m after := by
  cases heffect with
  | arithmetic operation x y =>
      obtain ⟨v, hv⟩ := calculate_keeps m.processor operation x y
      rw [hv]
      constructor <;> rfl
  | storeRegisters x hrange =>
      obtain ⟨index, hindex⟩ := advanceIndex_keeps m.processor x
      rw [hindex]
      constructor <;> rfl
  | loadRegisters x hrange =>
      obtain ⟨index, hindex⟩ := advanceIndex_keeps { m.processor with v := _ } x
      rw [hindex]
      constructor <;> rfl
  | _ => constructor <;> rfl

/-! ## Cycles and steps that succeed -/

theorem follow_eq (p : Processor) (flow : Flow) : ∃ pc, p.follow flow = { p with pc } := by
  cases flow with
  | next => exact ⟨p.pc, rfl⟩
  | skip => exact ⟨p.pc + 2, rfl⟩
  | jump target => exact ⟨target, rfl⟩
  | again => exact ⟨p.lastAddress, rfl⟩

structure Performs (m : Machine) (word : UInt16) (flow : Flow) (after : Machine) : Prop where
  running : m.processor.running = true
  fetch : m.memory.word m.processor.pc.toNat = .ok word
  effect : Effect (m.fetched word) (.decode word) flow after

theorem cycle_of_performs {m after : Machine} {word : UInt16} {flow : Flow}
    (hperforms : Performs m word flow after) :
    m.cycle = .done { after with processor := after.processor.follow flow }
      #[(m.fetched word).record (.decode word)] := by
  unfold cycle perform
  rw [if_pos hperforms.running, hperforms.fetch]
  simp only [run_execute_of_effect hperforms.effect]

theorem cycle_of_reads {m : Machine} {instruction : Instruction} {flow : Flow}
    {after : UInt16 → Machine} (hrunning : m.processor.running = true)
    (hreads : m.Reads instruction)
    (heffect : ∀ word, Effect (m.fetched word) instruction flow (after word)) :
    ∃ word, m.cycle.succeeded = true ∧ m.cycle.state =
      { after word with processor := (after word).processor.follow flow } := by
  obtain ⟨word, hword, rfl⟩ := (m.reads_iff instruction).mp hreads
  have hcycle := cycle_of_performs ⟨hrunning, hword, heffect word⟩
  refine ⟨word, ?_, ?_⟩
  · rw [hcycle]
    rfl
  · rw [hcycle]
    rfl

theorem performs_of_cycle {m : Machine} (hfault : m.cycle.fault = none) :
    ∃ word flow after, Performs m word flow after ∧
      m.cycle.state = { after with processor := after.processor.follow flow } := by
  unfold cycle at hfault ⊢
  split at hfault
  next hrunning =>
    rw [if_pos hrunning]
    cases hword : m.memory.word m.processor.pc.toNat with
    | error e =>
        rw [hword] at hfault
        cases hfault
    | ok word =>
        simp only [hword, perform] at hfault ⊢
        cases hrun : (execute (.decode word)).run (m.fetched word) with
        | error fault after =>
            rw [hrun] at hfault
            cases hfault
        | ok flow after =>
            exact ⟨word, flow, after, ⟨hrunning, hword, effect_of_run_execute hrun⟩, rfl⟩
  next => cases hfault

/-- A step that succeeds is a cycle that succeeds, and then the timers. -/
theorem step_of_succeeded {m : Machine} {now : Nat} (hfault : (m.step now).fault = none) :
    m.loaded = true ∧ m.cycle.fault = none ∧
      (m.step now).state = m.cycle.state.updateTimers now := by
  unfold step at hfault ⊢
  split at hfault
  next hloaded =>
    rw [if_pos hloaded]
    cases hcycle : m.cycle.fault with
    | some fault =>
        rw [Attempt.andThen_of_fault hcycle, hcycle] at hfault
        cases hfault
    | none => exact ⟨hloaded, rfl, (Attempt.andThen_of_succeeded hcycle _).1⟩
  next => cases hfault

theorem step_of_performs {m after : Machine} {word : UInt16} {flow : Flow}
    (hloaded : m.loaded = true) (hperforms : Performs m word flow after) (now : Nat) :
    (m.step now).succeeded = true ∧
      (m.step now).state =
        { after with processor := after.processor.follow flow }.updateTimers now := by
  unfold step
  rw [if_pos hloaded, cycle_of_performs hperforms]
  exact ⟨rfl, rfl⟩

theorem step_of_reads {m : Machine} {instruction : Instruction} {flow : Flow}
    {after : UInt16 → Machine} (hloaded : m.loaded = true)
    (hrunning : m.processor.running = true) (hreads : m.Reads instruction)
    (heffect : ∀ word, Effect (m.fetched word) instruction flow (after word)) (now : Nat) :
    ∃ word, (m.step now).succeeded = true ∧ (m.step now).state =
      { after word with processor := (after word).processor.follow flow }.updateTimers now := by
  obtain ⟨word, hword, rfl⟩ := (m.reads_iff instruction).mp hreads
  exact ⟨word, step_of_performs hloaded ⟨hrunning, hword, heffect word⟩ now⟩

theorem performs_of_step {m : Machine} {now : Nat} (hfault : (m.step now).fault = none) :
    ∃ word flow after, Performs m word flow after ∧ m.loaded = true ∧
      (m.step now).state =
        { after with processor := after.processor.follow flow }.updateTimers now := by
  obtain ⟨hloaded, hcycle, hstep⟩ := step_of_succeeded hfault
  obtain ⟨word, flow, after, hperforms, hstate⟩ := performs_of_cycle hcycle
  refine ⟨word, flow, after, hperforms, hloaded, ?_⟩
  rw [hstep, hstate]

/-! ## Loading -/

/-- Loading a program, or failing to, leaves everything but memory alone. -/
theorem load_state (m : Machine) (program : Program) :
    ∃ memory loaded, (m.load program).state = { m with memory, loaded } := by
  unfold load Memory.load
  split
  next => exact ⟨m.memory, m.loaded, rfl⟩
  next =>
    split
    next => exact ⟨m.memory, m.loaded, rfl⟩
    next =>
      split
      next => exact ⟨m.memory, m.loaded, rfl⟩
      next => exact ⟨_, true, rfl⟩

/-- A change of a machine that memory and loading do not see makes no difference to a load. -/
theorem load_lift (m : Machine) (change : Machine → Machine)
    (hchange : ∀ memory loaded,
      change { m with memory, loaded } = { change m with memory, loaded })
    (program : Program) :
    (change m).load program = (m.load program).lift change id := by
  have hsame : change m = { change m with memory := m.memory, loaded := m.loaded } :=
    hchange m.memory m.loaded
  have hloaded : (change m).loaded = m.loaded := by rw [hsame]
  have hmemory : (change m).memory = m.memory := by rw [hsame]
  unfold load
  rw [hloaded, hmemory]
  split
  next => rfl
  next =>
    generalize m.memory.load program = a
    obtain ⟨memory, fault, log⟩ := a
    cases fault with
    | some e => exact congrArg (Attempt.mk · (some e) log) (hchange memory m.loaded).symm
    | none => exact congrArg (Attempt.mk · none _) (hchange memory true).symm

end Machine

end ChipEight
