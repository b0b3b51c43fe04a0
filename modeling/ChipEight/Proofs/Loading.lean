import ChipEight.History
import ChipEight.Machine.Trace
import ChipEight.Proofs.PowerOn

/-!
# Loading programs

As long as no program is loaded, no instruction is executed, and so memory is as it was made: the
font and zeros.  Whatever programs did to the memory of a machine, a reset makes it so again before
the next program can be loaded.  A program that is loaded therefore always finds the same memory
around it.
-/

namespace ChipEight

namespace Memory

theorem toList_store (m : Memory) {address : Nat} {bytes : List UInt8}
    (hfits : address + bytes.length ≤ size) :
    (m.store address bytes).cells.toList =
      m.cells.toList.take address ++ bytes ++ m.cells.toList.drop (address + bytes.length) := by
  apply List.ext_getElem?
  intro i
  have hlength : m.cells.toList.length = size := Vector.length_toList
  have htake : (m.cells.toList.take address).length = address := by
    rw [List.length_take, hlength]
    omega
  by_cases hi : i < size
  · rw [Vector.getElem?_toList, getElem?_store m address i bytes hi]
    split
    next hinside =>
      rw [List.append_assoc, List.getElem?_append_right (by omega), htake,
        List.getElem?_append_left (by omega)]
    next houtside =>
      by_cases hbefore : i < address
      · rw [List.append_assoc, List.getElem?_append_left (by omega),
          List.getElem?_take_of_lt hbefore, Vector.getElem?_toList]
      · rw [List.getElem?_append_right (by simp only [List.length_append, htake]; omega),
          List.getElem?_drop, Vector.getElem?_toList]
        congr 1
        simp only [List.length_append, htake]
        omega
  · rw [List.getElem?_eq_none (by simp only [Vector.length_toList]; omega),
      List.getElem?_eq_none (by
        simp only [List.length_append, htake, List.length_drop, hlength]; omega)]

theorem toList_blank :
    blank.cells.toList = font ++ List.replicate (size - font.length) 0 := by
  unfold blank
  rw [toList_store _ (by decide)]
  simp

theorem toList_load_blank {program : Program} (hfits : program.size ≤ programLimit) :
    (blank.store programStart program.toList).cells.toList =
      font ++ List.replicate (programStart - font.length) 0 ++ program.toList ++
        List.replicate (size - programStart - program.size) 0 := by
  have hlength : program.toList.length = program.size := Array.length_toList
  have hfontFits : font.length ≤ programStart := by decide
  have hend : programStart + program.size ≤ size := Nat.add_le_of_le_sub' (by decide) hfits
  have hbelow : (font ++ List.replicate (size - font.length) 0).take programStart =
      font ++ List.replicate (programStart - font.length) 0 := by
    rw [List.take_append, List.take_of_length_le hfontFits, List.take_replicate,
      Nat.min_eq_left (by omega)]
  have habove :
      (font ++ List.replicate (size - font.length) 0).drop (programStart + program.size) =
        List.replicate (size - programStart - program.size) 0 := by
    rw [List.drop_append, List.drop_of_length_le (by omega), List.drop_replicate,
      List.nil_append]
    rw [show size - font.length - (programStart + program.size - font.length) =
      size - programStart - program.size by omega]
  rw [toList_store _ (by rw [hlength]; exact hend), hlength, toList_blank, hbelow, habove]

end Memory

def Operation.loads : Operation → Bool
  | .load _ | .resetAndLoad _ => true
  | _ => false

namespace Machine

/-! ## One operation -/

theorem load_fault (m : Machine) (program : Program) :
    (m.load program).fault =
      if m.loaded then some .alreadyLoaded
      else if program.size = 0 then some .emptyProgram
      else if Memory.programLimit < program.size then
        some (.programTooLarge program.size Memory.programLimit)
      else none := by
  unfold load Memory.load
  split
  next => rfl
  next =>
    split
    next => rfl
    next => split <;> rfl

theorem load_fault_eq_none_iff (m : Machine) (program : Program) :
    (m.load program).fault = none ↔
      m.loaded = false ∧ 1 ≤ program.size ∧ program.size ≤ Memory.programLimit := by
  rw [load_fault]
  by_cases hloaded : m.loaded = true
  · simp [hloaded]
  · rw [if_neg hloaded]
    split
    next hempty => simp [hempty]
    next hempty =>
      split
      next hlarge => simp; omega
      next hfits => simp [hloaded]; omega

theorem load_state_of_succeeded {m : Machine} {program : Program}
    (hfault : (m.load program).fault = none) :
    (m.load program).state =
      { m with
        memory := m.memory.store Memory.programStart program.toList
        loaded := true } := by
  obtain ⟨hloaded, hnonempty, hfits⟩ := (m.load_fault_eq_none_iff program).mp hfault
  unfold load Memory.load
  rw [hloaded, if_neg Bool.false_ne_true, if_neg (by omega), if_neg (by omega)]
  rfl

theorem loaded_load (m : Machine) (program : Program) :
    (m.load program).state.loaded = true ↔ (m.load program).fault = none ∨ m.loaded = true := by
  cases hfault : (m.load program).fault with
  | none => simp [load_state_of_succeeded hfault]
  | some e => simp [load_state_of_fault hfault]

theorem loaded_operate (m : Machine) (now : Nat) (operation : Operation) :
    (m.operate now operation).2.loaded = true ↔
      operation.loads = true ∧ (m.operate now operation).1 = .done ∨
        m.loaded = true ∧ operation.resets = false := by
  have hreply : ∀ fault : Option LoadError,
      fault.elim Reply.done Reply.notLoaded = .done ↔ fault = none := by
    intro fault
    cases fault <;> simp
  cases operation with
  | load program =>
      simp only [operate, Operation.loads, Operation.resets, hreply, loaded_load]
      simp
  | step => simp [operate, Operation.loads, Operation.resets, (m.retains_step now).loaded]
  | resetAndLoad program =>
      simp only [operate, resetAndLoad, Operation.loads, Operation.resets, hreply, loaded_load]
      simp [reset]
  | reset => simp [operate, Operation.loads, Operation.resets, reset]
  | _ =>
      simp [operate, Operation.loads, Operation.resets, setKey, tickTimers, takeBeep, setSound,
        acknowledgeScreen]

theorem step_fault_noProgram_iff (m : Machine) (now : Nat) :
    (m.step now).fault = some .noProgram ↔ m.loaded = false := by
  constructor
  · intro hfault
    rcases step_fault_cases hfault with ⟨-, hcycle⟩ | ⟨hloaded, -⟩
    · rcases cycle_fault_cases hcycle with ⟨-, ⟨⟩, -⟩ | ⟨-, -, ⟨_, -, ⟨⟩⟩ | ⟨word, -, hrefuses⟩⟩
      generalize Instruction.decode word = instruction at hrefuses
      cases hrefuses
    · exact hloaded
  · intro hloaded
    unfold step
    rw [hloaded]
    rfl

/-! ## Histories -/

/-- Some operation loaded a program, and the machine was not reset since. -/
def LoadedSince (m : Machine) (history : List (Nat × Operation)) : Prop :=
  History.Since
    (fun before event =>
      event.2.loads = true ∧ ((m.after before).operate event.1 event.2).1 = .done)
    (fun event => event.2.resets) history

theorem loaded_after_iff {m : Machine} (hm : m.loaded = false)
    (history : List (Nat × Operation)) :
    (m.after history).loaded = true ↔ m.LoadedSince history := by
  refine History.iff_since (fun history => (m.after history).loaded = true) ?_ ?_ history
  · change ¬ m.loaded = true
    rw [hm]
    exact Bool.false_ne_true
  · intro history event
    rw [after_concat, loaded_operate]

/-- A machine without a program has the memory that machines are made with. -/
def Pristine (m : Machine) : Prop :=
  m.loaded = false → m.memory = .blank

theorem pristine_new (dialect : Dialect) (mode : TimerMode) (random : List UInt8) (now : Nat) :
    (new dialect mode random now).Pristine :=
  fun _ => rfl

theorem Pristine.load {m : Machine} (hm : m.Pristine) (program : Program) :
    (m.load program).state.Pristine := by
  cases hfault : (m.load program).fault with
  | none =>
      rw [load_state_of_succeeded hfault]
      rintro ⟨⟩
  | some e =>
      rw [load_state_of_fault hfault]
      exact hm

theorem Pristine.step {m : Machine} (hm : m.Pristine) (now : Nat) :
    (m.step now).state.Pristine := by
  intro hloaded
  rw [(m.retains_step now).loaded] at hloaded
  have hfault := (m.step_fault_noProgram_iff now).mpr hloaded
  rw [step_state_of_fault hfault]
  exact hm hloaded

theorem pristine_reset (m : Machine) (now : Nat) : (m.reset now).Pristine :=
  fun _ => rfl

theorem Pristine.operate {m : Machine} (hm : m.Pristine) (now : Nat) (operation : Operation) :
    (m.operate now operation).2.Pristine := by
  cases operation with
  | load program => exact hm.load program
  | step => exact hm.step now
  | reset => exact m.pristine_reset now
  | resetAndLoad program => exact (m.pristine_reset now).load program
  | _ => exact hm

theorem Pristine.after {m : Machine} (hm : m.Pristine) (history : List (Nat × Operation)) :
    (m.after history).Pristine := by
  induction history generalizing m with
  | nil => exact hm
  | cons event history ih => exact ih (hm.operate event.1 event.2)

/-! ## The theorem -/

/-- In every history, a machine without a program holds the font and zeros.  A program is loaded if
there is none yet and it has between 1 and 3584 bytes, and then memory holds the font and the program
and zeros everywhere else; a program that is not loaded leaves no trace.  Steps are refused for want
of a program exactly as long as none was loaded since the machine was made or last reset. -/
theorem loading_life_cycle (dialect : Dialect) (mode : TimerMode) (random : List UInt8)
    (created : Nat) (history : List (Nat × Operation)) :
    let made := new dialect mode random created
    let m := made.after history
    (m.loaded = true ↔ made.LoadedSince history) ∧
      (m.loaded = false →
        m.memory.cells.toList = Memory.font ++ List.replicate (0x1000 - 80) 0) ∧
      (∀ program : Program,
        ((m.load program).fault = none ↔
          m.loaded = false ∧ 1 ≤ program.size ∧ program.size ≤ 3584) ∧
        (m.loaded = true → (m.load program).fault = some .alreadyLoaded) ∧
        (m.loaded = false → program.size = 0 →
          (m.load program).fault = some .emptyProgram) ∧
        (m.loaded = false → 3584 < program.size →
          (m.load program).fault = some (.programTooLarge program.size 3584)) ∧
        ((m.load program).fault = none →
          (m.load program).state.memory.cells.toList =
            Memory.font ++ List.replicate (0x200 - 80) 0 ++ program.toList ++
              List.replicate (0x1000 - 0x200 - program.size) 0) ∧
        ∀ e, (m.load program).fault = some e → (m.load program).state = m) ∧
      ∀ now, (m.step now).fault = some .noProgram ↔ ¬ made.LoadedSince history := by
  intro made m
  have hloaded : m.loaded = true ↔ made.LoadedSince history := loaded_after_iff rfl history
  have hpristine : m.Pristine := (pristine_new dialect mode random created).after history
  refine ⟨hloaded, ?_, ?_, ?_⟩
  · intro hempty
    rw [hpristine hempty]
    exact Memory.toList_blank
  · intro program
    refine ⟨m.load_fault_eq_none_iff program, ?_, ?_, ?_, ?_, fun e => load_state_of_fault⟩
    · intro hfull
      rw [load_fault, if_pos hfull]
    · intro hempty hsize
      rw [load_fault, hempty, if_neg Bool.false_ne_true, if_pos hsize]
    · intro hempty hsize
      rw [load_fault, hempty, if_neg Bool.false_ne_true, if_neg (by omega),
        if_pos (show Memory.programLimit < program.size from hsize)]
      rfl
    · intro hfault
      obtain ⟨hempty, -, hfits⟩ := (m.load_fault_eq_none_iff program).mp hfault
      rw [load_state_of_succeeded hfault]
      change (m.memory.store Memory.programStart program.toList).cells.toList = _
      rw [hpristine hempty]
      exact Memory.toList_load_blank hfits
  · intro now
    rw [step_fault_noProgram_iff, ← hloaded, Bool.not_eq_true]

/-- A program that writes over the font, and a reset. -/
def overwritten : List (Nat × Operation) :=
  [(0, .load #[0xA0, 0x00, 0xF1, 0x55]), (1, .step), (2, .step), (3, .reset)]

theorem loading_life_cycle_overwritten :
    let made := new .standard .perStep [] 0
    let m := made.after overwritten
    (made.after (overwritten.take 3)).memory.read 0 = .ok 0 ∧
      m.memory.cells.toList = Memory.font ++ List.replicate (0x1000 - 80) 0 ∧
      (m.load #[]).state = m ∧
      (m.load #[0x12, 0x00]).state.memory.cells.toList =
        Memory.font ++ List.replicate (0x200 - 80) 0 ++ [0x12, 0x00] ++
          List.replicate (0x1000 - 0x200 - 2) 0 := by
  intro made m
  have hempty : m.loaded = false := by decide +kernel
  have hrefused : (m.load #[]).fault = some .emptyProgram := by decide +kernel
  have haccepted : (m.load #[0x12, 0x00]).fault = none := by decide +kernel
  obtain ⟨-, hblank, hload, -⟩ := loading_life_cycle .standard .perStep [] 0 overwritten
  exact ⟨by decide +kernel, hblank hempty, (hload #[]).2.2.2.2.2 _ hrefused,
    (hload #[0x12, 0x00]).2.2.2.2.1 haccepted⟩

end Machine

end ChipEight
