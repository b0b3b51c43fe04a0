import ChipEight.Proofs.Bounds

/-!
# What a cycle reports

A cycle that succeeds makes one record, after the instruction was carried out or before, and the
record is a warning for the words that name no instruction.  Such a word is skipped whatever the
machine holds: it has no operands that could be wrong.  A cycle that fails is silent, but for the
instructions that reach memory through the index, which report themselves before they look at the
range.
-/

namespace ChipEight

namespace Instruction

/-- The words of the four families with gaps that name no instruction of their family. -/
inductive Unassigned (word : UInt16) : Prop where
  | routine (hfamily : word.toNat / 0x1000 = 0x0) (hclear : word ≠ 0x00E0)
      (hleave : word ≠ 0x00EE)
  | arithmetic (hfamily : word.toNat / 0x1000 = 0x8)
      (hnone : word.toNat % 0x10 ∉ [0x0, 0x1, 0x2, 0x3, 0x4, 0x5, 0x6, 0x7, 0xE])
  | keys (hfamily : word.toNat / 0x1000 = 0xE) (hnone : word.toNat % 0x100 ∉ [0x9E, 0xA1])
  | misc (hfamily : word.toNat / 0x1000 = 0xF)
      (hnone :
        word.toNat % 0x100 ∉ [0x07, 0x0A, 0x15, 0x18, 0x1E, 0x29, 0x33, 0x55, 0x65])

/-- The words of the instructions that go to memory through the index: `Dxyn`, `Fx33`, `Fx55` and
`Fx65`. -/
inductive ReachesMemory (word : UInt16) : Prop where
  | draw (hfamily : word.toNat / 0x1000 = 0xD)
  | misc (hfamily : word.toNat / 0x1000 = 0xF) (hbyte : word.toNat % 0x100 ∈ [0x33, 0x55, 0x65])

/-! ## Words without a meaning -/

theorem exists_code_eq_iff (n : Nat) :
    (∃ operation : Arithmetic, operation.code = n) ↔
      n ∈ [0x0, 0x1, 0x2, 0x3, 0x4, 0x5, 0x6, 0x7, 0xE] := by
  constructor
  · rintro ⟨operation, rfl⟩
    cases operation <;> decide
  · intro hn
    simp only [List.mem_cons, List.not_mem_nil, or_false] at hn
    rcases hn with rfl | rfl | rfl | rfl | rfl | rfl | rfl | rfl | rfl
    · exact ⟨.copy, rfl⟩
    · exact ⟨.or, rfl⟩
    · exact ⟨.and, rfl⟩
    · exact ⟨.xor, rfl⟩
    · exact ⟨.add, rfl⟩
    · exact ⟨.sub, rfl⟩
    · exact ⟨.shiftRight, rfl⟩
    · exact ⟨.subFrom, rfl⟩
    · exact ⟨.shiftLeft, rfl⟩

theorem Unassigned.decode_eq {word : UInt16} (hunassigned : Unassigned word) :
    ∃ family, decode word = .unrecognised family word := by
  have hword := toNat_eq_nibbles word
  have hbyte := toNat_lowByte word
  cases hunassigned with
  | routine hfamily hclear hleave =>
      exact ⟨.routine, decode_of_written (.noRoutine word (by omega) hclear hleave)⟩
  | arithmetic hfamily hnone =>
      have hlast : (nibble word 0).val = word.toNat % 0x10 := by omega
      refine ⟨.arithmetic, decode_of_written ?_⟩
      refine .noArithmetic word (nibble word 2) (nibble word 1) (nibble word 0) (by omega) ?_
      intro operation hcode
      exact hnone ((exists_code_eq_iff _).mp ⟨operation, hcode.trans hlast⟩)
  | keys hfamily hnone =>
      have hlow : (lowByte word).toNat = word.toNat % 0x100 := by omega
      refine ⟨.keys, decode_of_written ?_⟩
      exact .noKeys word (nibble word 2) (lowByte word) (by omega) (hlow ▸ hnone)
  | misc hfamily hnone =>
      have hlow : (lowByte word).toNat = word.toNat % 0x100 := by omega
      refine ⟨.misc, decode_of_written ?_⟩
      exact .noMisc word (nibble word 2) (lowByte word) (by omega) (hlow ▸ hnone)

theorem unassigned_of_decode_eq {word other : UInt16} {family : Family}
    (hdecode : decode word = .unrecognised family other) :
    Unassigned word := by
  have hwritten := written_decode word
  rw [hdecode] at hwritten
  generalize hcode : word.toNat = code at hwritten
  cases hwritten with
  | noRoutine _ hfamily hclear hleave =>
      obtain rfl : word = other := UInt16.toNat_inj.mp hcode
      exact .routine (by omega) hclear hleave
  | noArithmetic _ x y last hword hnone =>
      have hlast : word.toNat % 0x10 = last.val := by omega
      refine .arithmetic (by omega) ?_
      intro hmem
      obtain ⟨operation, hoperation⟩ := (exists_code_eq_iff _).mpr hmem
      exact hnone operation (hoperation.trans hlast)
  | noKeys _ x byte hword hnone =>
      have hbyte := byte.toNat_lt
      have hlow : word.toNat % 0x100 = byte.toNat := by omega
      exact .keys (by omega) (hlow ▸ hnone)
  | noMisc _ x byte hword hnone =>
      have hbyte := byte.toNat_lt
      have hlow : word.toNat % 0x100 = byte.toNat := by omega
      exact .misc (by omega) (hlow ▸ hnone)

theorem level_decode (word : UInt16) :
    ((decode word).level = .warn ↔ Unassigned word) ∧
      ((decode word).level = .trace ↔ ¬ Unassigned word) := by
  by_cases hunassigned : Unassigned word
  · obtain ⟨family, hdecode⟩ := hunassigned.decode_eq
    simp [hdecode, level, hunassigned]
  · have hlevel : (decode word).level = .trace := by
      cases hdecode : decode word with
      | unrecognised family other =>
          exact absurd (unassigned_of_decode_eq hdecode) hunassigned
      | unknown other => exact absurd hdecode (decode_ne_unknown word other)
      | _ => rfl
    simp [hlevel, hunassigned]

/-! ## Words that go to memory through the index -/

theorem announced_decode_iff (word : UInt16) :
    (decode word).announced = true ↔ ReachesMemory word := by
  have hword := toNat_eq_nibbles word
  have hwritten := written_decode word
  constructor
  · intro hannounced
    generalize decode word = instruction at hannounced hwritten
    generalize hcode : word.toNat = code at hwritten
    cases hwritten with
    | draw x y rows => exact .draw (by omega)
    | decimal x => exact .misc (by omega) (by simp [show word.toNat % 0x100 = 0x33 by omega])
    | storeRegisters x =>
        exact .misc (by omega) (by simp [show word.toNat % 0x100 = 0x55 by omega])
    | loadRegisters x =>
        exact .misc (by omega) (by simp [show word.toNat % 0x100 = 0x65 by omega])
    | _ => cases hannounced
  · rintro (hfamily | ⟨hfamily, hbyte⟩)
    · have hdraw := Written.draw (nibble word 2) (nibble word 1) (nibble word 0)
      rw [decode_of_written (hdraw.of_eq (by omega))]
      rfl
    · simp only [List.mem_cons, List.not_mem_nil, or_false] at hbyte
      rcases hbyte with hbyte | hbyte | hbyte
      · rw [decode_of_written ((Written.decimal (nibble word 2)).of_eq (by omega))]
        rfl
      · rw [decode_of_written ((Written.storeRegisters (nibble word 2)).of_eq (by omega))]
        rfl
      · rw [decode_of_written ((Written.loadRegisters (nibble word 2)).of_eq (by omega))]
        rfl

theorem ReachesMemory.not_unassigned {word : UInt16} (hreaches : ReachesMemory word) :
    ¬ Unassigned word := by
  intro hunassigned
  obtain ⟨family, hdecode⟩ := hunassigned.decode_eq
  have hannounced := (announced_decode_iff word).mpr hreaches
  rw [hdecode] at hannounced
  cases hannounced

end Instruction

namespace Machine

open Instruction (Unassigned ReachesMemory)

/-- The machine after a word without a meaning: it has gone past the word and has a note of it. -/
def past (m : Machine) (word : UInt16) : Machine :=
  { m with
    processor :=
      { m.processor with
        pc := m.processor.pc + 2
        lastWord := word
        lastAddress := m.processor.pc } }

theorem cycle_of_unassigned {m : Machine} {word : UInt16}
    (hrunning : m.processor.running = true)
    (hword : m.memory.word m.processor.pc.toNat = .ok word) (hunassigned : Unassigned word) :
    m.cycle = .done (m.past word) #[(m.fetched word).record (.decode word)] := by
  obtain ⟨family, hdecode⟩ := hunassigned.decode_eq
  have heffect : Effect (m.fetched word) (.decode word) .next (m.fetched word) := by
    rw [hdecode]
    exact .unrecognised family word
  exact cycle_of_performs ⟨hrunning, hword, heffect⟩

theorem cycle_log_of_succeeded {m : Machine} (hfault : m.cycle.fault = none) :
    ∃ word, m.memory.word m.processor.pc.toNat = .ok word ∧
      m.cycle.log = #[(m.fetched word).record (.decode word)] := by
  obtain ⟨word, flow, after, hperforms, -⟩ := performs_of_cycle hfault
  refine ⟨word, hperforms.fetch, ?_⟩
  rw [cycle_of_performs hperforms]
  rfl

theorem cycle_log_of_fault {m : Machine} {fault : Fault} (hfault : m.cycle.fault = some fault) :
    m.cycle.log = #[] ∨
      ∃ word, m.memory.word m.processor.pc.toNat = .ok word ∧ ReachesMemory word ∧
        m.cycle.log = #[(m.fetched word).record (.decode word)] := by
  rcases cycle_fault_cases hfault with
    ⟨hstopped, -, -⟩ | ⟨hrunning, -, ⟨e, hword, -⟩ | ⟨word, hword, hrefuses⟩⟩
  · left
    unfold cycle
    rw [hstopped]
    rfl
  · left
    unfold cycle
    rw [if_pos hrunning, hword]
    rfl
  · rw [cycle_of_refuses hrunning hword hrefuses]
    by_cases hannounced : (Instruction.decode word).announced = true
    · right
      refine ⟨word, hword, (Instruction.announced_decode_iff word).mp hannounced, ?_⟩
      exact if_pos hannounced
    · left
      exact if_neg hannounced

/-- A cycle that succeeds makes one record, which is a warning for the words without a meaning and a
trace for all others.  A word without a meaning is skipped in every state.  A cycle that fails makes
no record or, on an instruction that goes to memory through the index, a trace. -/
theorem cycle_reports_once (m : Machine) :
    (m.cycle.fault = none →
      ∃ word record, m.memory.word m.processor.pc.toNat = .ok word ∧ m.cycle.log = #[record] ∧
        (record.level = .warn ↔ Unassigned word) ∧
        (record.level = .trace ↔ ¬ Unassigned word)) ∧
      (∀ word, m.processor.running = true → m.memory.word m.processor.pc.toNat = .ok word →
        Unassigned word →
          m.cycle.succeeded = true ∧ m.cycle.state = m.past word ∧
            (m.past word).processor.pc.toNat = m.processor.pc.toNat + 2) ∧
      ∀ fault, m.cycle.fault = some fault →
        m.cycle.log = #[] ∨
          ∃ word record, m.memory.word m.processor.pc.toNat = .ok word ∧ ReachesMemory word ∧
            m.cycle.log = #[record] ∧ record.level = .trace := by
  refine ⟨?_, ?_, ?_⟩
  · intro hfault
    obtain ⟨word, hword, hlog⟩ := cycle_log_of_succeeded hfault
    exact ⟨word, _, hword, hlog, Instruction.level_decode word⟩
  · intro word hrunning hword hunassigned
    rw [cycle_of_unassigned hrunning hword hunassigned]
    exact ⟨rfl, rfl, (toNat_pc_fetched hword).1⟩
  · intro fault hfault
    rcases cycle_log_of_fault hfault with hsilent | ⟨word, hword, hreaches, hlog⟩
    · exact Or.inl hsilent
    · right
      refine ⟨word, _, hword, hreaches, hlog, ?_⟩
      exact (Instruction.level_decode word).2.mpr hreaches.not_unassigned

/-- A machine on a word of the family of keys that names no instruction, with a register that names
no key. -/
def atKeyGap : Machine :=
  { Machine.new .standard .perStep [] 0 with
    processor := { Processor.new .standard with v := Vector.replicate 16 0xFF }
    memory := ⟨Vector.replicate Memory.size 0xEE⟩ }

theorem cycle_reports_once_atKeyGap :
    atKeyGap.cycle.succeeded = true ∧ atKeyGap.cycle.state = atKeyGap.past 0xEEEE ∧
      (∃ record, atKeyGap.cycle.log = #[record] ∧ record.level = .warn) ∧
      ∃ record, drawingOutside.cycle.log = #[record] ∧ record.level = .trace := by
  have hbyte : ∀ place < Memory.size, atKeyGap.memory.cells[place]? = some 0xEE := by
    intro place hplace
    exact Vector.getElem?_replicate.trans (if_pos hplace)
  have hword : atKeyGap.memory.word atKeyGap.processor.pc.toNat = .ok 0xEEEE :=
    (Memory.word_eq_ok_iff _ _ _).mpr
      ⟨0xEE, 0xEE, hbyte 0x200 (by decide), hbyte 0x201 (by decide), by decide⟩
  have hunassigned : Unassigned 0xEEEE := .keys rfl (by decide)
  obtain ⟨hsucceeded, hstate, -⟩ :=
    (cycle_reports_once atKeyGap).2.1 0xEEEE rfl hword hunassigned
  refine ⟨hsucceeded, hstate, ?_, ?_⟩
  · have hfault : atKeyGap.cycle.fault = none := by
      rw [Attempt.fault_eq_none_iff]
      exact hsucceeded
    obtain ⟨word, record, hfetch, hlog, hwarn, -⟩ := (cycle_reports_once atKeyGap).1 hfault
    obtain rfl : word = 0xEEEE := Except.ok.inj (hfetch.symm.trans hword)
    exact ⟨record, hlog, hwarn.mpr hunassigned⟩
  · have hfault : drawingOutside.cycle.fault = some (.outOfBounds 0xFFFF 0x200) := by
      decide +kernel
    have hsize : drawingOutside.cycle.log.size = 1 := by decide +kernel
    rcases (cycle_reports_once drawingOutside).2.2 _ hfault with
      hsilent | ⟨word, record, -, -, hlog, hlevel⟩
    · rw [hsilent] at hsize
      cases hsize
    · exact ⟨record, hlog, hlevel⟩

end Machine

end ChipEight
