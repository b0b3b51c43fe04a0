import ChipEight.Instruction.Table
import ChipEight.Machine.Trace

/-!
# Words and instructions

Every word is in exactly one row of the table, and decoding finds the row.  So what is proved about
the instruction at the program counter is proved about the words that a program has there.
-/

namespace ChipEight

namespace Instruction

/-! ## Nibbles -/

theorem toNat_eq_nibbles (word : UInt16) :
    word.toNat =
      0x1000 * (nibble word 3).val + 0x100 * (nibble word 2).val +
        0x10 * (nibble word 1).val + (nibble word 0).val := by
  have hword := word.toNat_lt
  have hnibble : ∀ place, (nibble word place).val = word.toNat >>> (4 * place) % 16 :=
    fun _ => rfl
  simp only [hnibble, Nat.shiftRight_eq_div_pow]
  omega

theorem toNat_lowByte (word : UInt16) :
    (lowByte word).toNat = 0x10 * (nibble word 1).val + (nibble word 0).val := by
  have hword := toNat_eq_nibbles word
  unfold lowByte
  rw [UInt16.toNat_toUInt8]
  omega

theorem toNat_address (word : UInt16) :
    (address word).toNat =
      0x100 * (nibble word 2).val + 0x10 * (nibble word 1).val + (nibble word 0).val := by
  have hword := toNat_eq_nibbles word
  have hmask : (address word).toNat = word.toNat % 0x1000 := by
    unfold address
    rw [UInt16.toNat_and]
    exact Nat.and_two_pow_sub_one_eq_mod word.toNat 12
  omega

/-! ## Decoding finds the row -/

theorem Written.of_eq {instruction : Instruction} {code other : Nat}
    (hwritten : instruction.Written code) (heq : code = other) :
    instruction.Written other :=
  heq ▸ hwritten

theorem arithmetic?_eq_some_iff (code : Nat) (operation : Arithmetic) :
    arithmetic? code = some operation ↔ operation.code = code := by
  unfold arithmetic?
  constructor
  · intro h
    split at h <;> cases h <;> rfl
  · rintro rfl
    cases operation <;> rfl

theorem written_decodeRoutine {word : UInt16} (hfamily : (nibble word 3).val = 0x0) :
    (decodeRoutine word).Written word.toNat := by
  have hword := toNat_eq_nibbles word
  unfold decodeRoutine
  split
  next hclear =>
    subst hclear
    exact .clear
  next hclear =>
    split
    next hleave =>
      subst hleave
      exact .leave
    next hleave => exact .noRoutine word (by omega) hclear hleave

theorem written_decodeArithmetic {word : UInt16} (hfamily : (nibble word 3).val = 0x8) :
    (decodeArithmetic word).Written word.toNat := by
  have hword := toNat_eq_nibbles word
  unfold decodeArithmetic
  split
  next operation hsome =>
    have hcode := (arithmetic?_eq_some_iff _ _).mp hsome
    exact (Written.arithmetic operation (nibble word 2) (nibble word 1)).of_eq (by omega)
  next hnone =>
    refine .noArithmetic word (nibble word 2) (nibble word 1) (nibble word 0) (by omega) ?_
    intro operation hcode
    rw [(arithmetic?_eq_some_iff _ _).mpr hcode] at hnone
    cases hnone

theorem written_decodeKeys {word : UInt16} (hfamily : (nibble word 3).val = 0xE) :
    (decodeKeys word).Written word.toNat := by
  have hword := toNat_eq_nibbles word
  have hbyte := toNat_lowByte word
  unfold decodeKeys
  split
  next hdown => exact (Written.skipIfKey (nibble word 2)).of_eq (by omega)
  next hup => exact (Written.skipUnlessKey (nibble word 2)).of_eq (by omega)
  next hdown hup =>
    exact .noKeys word (nibble word 2) (lowByte word) (by omega) (by simp_all)

theorem written_decodeMisc {word : UInt16} (hfamily : (nibble word 3).val = 0xF) :
    (decodeMisc word).Written word.toNat := by
  have hword := toNat_eq_nibbles word
  have hbyte := toNat_lowByte word
  unfold decodeMisc
  split
  next h => exact (Written.readDelay (nibble word 2)).of_eq (by omega)
  next h => exact (Written.awaitKey (nibble word 2)).of_eq (by omega)
  next h => exact (Written.setDelay (nibble word 2)).of_eq (by omega)
  next h => exact (Written.setSound (nibble word 2)).of_eq (by omega)
  next h => exact (Written.addIndex (nibble word 2)).of_eq (by omega)
  next h => exact (Written.glyph (nibble word 2)).of_eq (by omega)
  next h => exact (Written.decimal (nibble word 2)).of_eq (by omega)
  next h => exact (Written.storeRegisters (nibble word 2)).of_eq (by omega)
  next h => exact (Written.loadRegisters (nibble word 2)).of_eq (by omega)
  next => exact .noMisc word (nibble word 2) (lowByte word) (by omega) (by simp_all)

theorem written_decode (word : UInt16) : (decode word).Written word.toNat := by
  have hword := toNat_eq_nibbles word
  have hbyte := toNat_lowByte word
  have haddress := toNat_address word
  have hhigh := (nibble word 3).isLt
  unfold decode
  split
  next hfamily => exact written_decodeRoutine hfamily
  next hfamily => exact (Written.jump (address word) (by omega)).of_eq (by omega)
  next hfamily => exact (Written.call (address word) (by omega)).of_eq (by omega)
  next hfamily =>
    exact (Written.skipIfByte (nibble word 2) (lowByte word)).of_eq (by omega)
  next hfamily =>
    exact (Written.skipUnlessByte (nibble word 2) (lowByte word)).of_eq (by omega)
  next hfamily =>
    exact (Written.skipIfRegister (nibble word 2) (nibble word 1) (nibble word 0)).of_eq (by omega)
  next hfamily => exact (Written.setByte (nibble word 2) (lowByte word)).of_eq (by omega)
  next hfamily => exact (Written.addByte (nibble word 2) (lowByte word)).of_eq (by omega)
  next hfamily => exact written_decodeArithmetic hfamily
  next hfamily =>
    exact (Written.skipUnlessRegister (nibble word 2) (nibble word 1)
      (nibble word 0)).of_eq (by omega)
  next hfamily => exact (Written.setIndex (address word) (by omega)).of_eq (by omega)
  next hfamily => exact (Written.jumpOffset (address word) (by omega)).of_eq (by omega)
  next hfamily => exact (Written.random (nibble word 2) (lowByte word)).of_eq (by omega)
  next hfamily =>
    exact (Written.draw (nibble word 2) (nibble word 1) (nibble word 0)).of_eq (by omega)
  next hfamily => exact written_decodeKeys hfamily
  next hfamily => exact written_decodeMisc hfamily
  next =>
    -- sixteen families are all that four bits can name
    exfalso
    simp only [imp_false] at *
    omega

/-! ## Every row is decoded -/

theorem fields_of_address (family : Nat) {word target : UInt16} (htarget : target.toNat < 0x1000)
    (hcode : word.toNat = 0x1000 * family + target.toNat) :
    (nibble word 3).val = family ∧ address word = target := by
  have hword := toNat_eq_nibbles word
  have haddress := toNat_address word
  constructor
  · omega
  · apply UInt16.toNat_inj.mp
    omega

theorem fields_of_byte (family : Nat) {word : UInt16} {x : Register} (byte : UInt8)
    (hcode : word.toNat = 0x1000 * family + 0x100 * x.val + byte.toNat) :
    (nibble word 3).val = family ∧ nibble word 2 = x ∧ lowByte word = byte := by
  have hword := toNat_eq_nibbles word
  have hlow := toNat_lowByte word
  have hbyte := byte.toNat_lt
  refine ⟨by omega, ?_, ?_⟩
  · apply Fin.ext
    omega
  · apply UInt8.toNat_inj.mp
    omega

theorem fields_of_registers (family : Nat) {word : UInt16} {x y last : Register}
    (hcode : word.toNat = 0x1000 * family + 0x100 * x.val + 0x10 * y.val + last.val) :
    (nibble word 3).val = family ∧ nibble word 2 = x ∧ nibble word 1 = y ∧
      nibble word 0 = last := by
  have hword := toNat_eq_nibbles word
  refine ⟨by omega, ?_, ?_, ?_⟩ <;> apply Fin.ext <;> omega

theorem decode_of_written {word : UInt16} {instruction : Instruction}
    (hwritten : instruction.Written word.toNat) :
    decode word = instruction := by
  generalize hcode : word.toNat = code at hwritten
  cases hwritten with
  | clear =>
      obtain rfl : word = 0x00E0 := UInt16.toNat_inj.mp hcode
      rfl
  | leave =>
      obtain rfl : word = 0x00EE := UInt16.toNat_inj.mp hcode
      rfl
  | noRoutine other hfamily hclear hleave =>
      obtain rfl : word = other := UInt16.toNat_inj.mp hcode
      have hnibbles := toNat_eq_nibbles word
      have hzero : (nibble word 3).val = 0 := by omega
      simp [decode, hzero, decodeRoutine, hclear, hleave]
  | jump target htarget =>
      obtain ⟨hfamily, haddress⟩ := fields_of_address 0x1 htarget hcode
      simp [decode, hfamily, haddress]
  | call target htarget =>
      obtain ⟨hfamily, haddress⟩ := fields_of_address 0x2 htarget hcode
      simp [decode, hfamily, haddress]
  | skipIfByte x byte =>
      obtain ⟨hfamily, hx, hbyte⟩ := fields_of_byte 0x3 byte hcode
      simp [decode, hfamily, hx, hbyte]
  | skipUnlessByte x byte =>
      obtain ⟨hfamily, hx, hbyte⟩ := fields_of_byte 0x4 byte hcode
      simp [decode, hfamily, hx, hbyte]
  | skipIfRegister x y last =>
      obtain ⟨hfamily, hx, hy, -⟩ := fields_of_registers 0x5 hcode
      simp [decode, hfamily, hx, hy]
  | setByte x byte =>
      obtain ⟨hfamily, hx, hbyte⟩ := fields_of_byte 0x6 byte hcode
      simp [decode, hfamily, hx, hbyte]
  | addByte x byte =>
      obtain ⟨hfamily, hx, hbyte⟩ := fields_of_byte 0x7 byte hcode
      simp [decode, hfamily, hx, hbyte]
  | arithmetic operation x y =>
      have hlast : operation.code < 16 := by cases operation <;> decide
      have hregisters : word.toNat = 0x1000 * 0x8 + 0x100 * x.val + 0x10 * y.val +
          (⟨operation.code, hlast⟩ : Register).val := hcode
      obtain ⟨hfamily, hx, hy, hoperation⟩ := fields_of_registers 0x8 hregisters
      simp [decode, hfamily, decodeArithmetic, hx, hy, hoperation,
        (arithmetic?_eq_some_iff _ _).mpr rfl]
  | noArithmetic other x y last hother hnone =>
      obtain rfl : word = other := UInt16.toNat_inj.mp hcode
      obtain ⟨hfamily, -, -, hlast⟩ := fields_of_registers 0x8 hother
      have hunknown : arithmetic? last.val = none := by
        rw [Option.eq_none_iff_forall_ne_some]
        intro operation hsome
        exact hnone operation ((arithmetic?_eq_some_iff _ _).mp hsome)
      simp [decode, hfamily, decodeArithmetic, hlast, hunknown]
  | skipUnlessRegister x y last =>
      obtain ⟨hfamily, hx, hy, -⟩ := fields_of_registers 0x9 hcode
      simp [decode, hfamily, hx, hy]
  | setIndex target htarget =>
      obtain ⟨hfamily, haddress⟩ := fields_of_address 0xA htarget hcode
      simp [decode, hfamily, haddress]
  | jumpOffset base hbase =>
      obtain ⟨hfamily, haddress⟩ := fields_of_address 0xB hbase hcode
      simp [decode, hfamily, haddress]
  | random x mask =>
      obtain ⟨hfamily, hx, hbyte⟩ := fields_of_byte 0xC mask hcode
      simp [decode, hfamily, hx, hbyte]
  | draw x y rows =>
      obtain ⟨hfamily, hx, hy, hrows⟩ := fields_of_registers 0xD hcode
      simp [decode, hfamily, hx, hy, hrows]
  | skipIfKey x =>
      obtain ⟨hfamily, hx, hbyte⟩ := fields_of_byte 0xE 0x9E hcode
      simp [decode, hfamily, decodeKeys, hx, hbyte]
  | skipUnlessKey x =>
      obtain ⟨hfamily, hx, hbyte⟩ := fields_of_byte 0xE 0xA1 hcode
      simp [decode, hfamily, decodeKeys, hx, hbyte]
  | noKeys other x byte hother hnone =>
      obtain rfl : word = other := UInt16.toNat_inj.mp hcode
      obtain ⟨hfamily, -, hbyte⟩ := fields_of_byte 0xE byte hother
      have hkeys : decode word = decodeKeys word := by simp [decode, hfamily]
      rw [hkeys]
      unfold decodeKeys
      rw [hbyte]
      split
      next h => simp [h] at hnone
      next h => simp [h] at hnone
      next => rfl
  | readDelay x =>
      obtain ⟨hfamily, hx, hbyte⟩ := fields_of_byte 0xF 0x07 hcode
      simp [decode, hfamily, decodeMisc, hx, hbyte]
  | awaitKey x =>
      obtain ⟨hfamily, hx, hbyte⟩ := fields_of_byte 0xF 0x0A hcode
      simp [decode, hfamily, decodeMisc, hx, hbyte]
  | setDelay x =>
      obtain ⟨hfamily, hx, hbyte⟩ := fields_of_byte 0xF 0x15 hcode
      simp [decode, hfamily, decodeMisc, hx, hbyte]
  | setSound x =>
      obtain ⟨hfamily, hx, hbyte⟩ := fields_of_byte 0xF 0x18 hcode
      simp [decode, hfamily, decodeMisc, hx, hbyte]
  | addIndex x =>
      obtain ⟨hfamily, hx, hbyte⟩ := fields_of_byte 0xF 0x1E hcode
      simp [decode, hfamily, decodeMisc, hx, hbyte]
  | glyph x =>
      obtain ⟨hfamily, hx, hbyte⟩ := fields_of_byte 0xF 0x29 hcode
      simp [decode, hfamily, decodeMisc, hx, hbyte]
  | decimal x =>
      obtain ⟨hfamily, hx, hbyte⟩ := fields_of_byte 0xF 0x33 hcode
      simp [decode, hfamily, decodeMisc, hx, hbyte]
  | storeRegisters x =>
      obtain ⟨hfamily, hx, hbyte⟩ := fields_of_byte 0xF 0x55 hcode
      simp [decode, hfamily, decodeMisc, hx, hbyte]
  | loadRegisters x =>
      obtain ⟨hfamily, hx, hbyte⟩ := fields_of_byte 0xF 0x65 hcode
      simp [decode, hfamily, decodeMisc, hx, hbyte]
  | noMisc other x byte hother hnone =>
      obtain rfl : word = other := UInt16.toNat_inj.mp hcode
      obtain ⟨hfamily, -, hbyte⟩ := fields_of_byte 0xF byte hother
      have hmisc : decode word = decodeMisc word := by simp [decode, hfamily]
      rw [hmisc]
      unfold decodeMisc
      rw [hbyte]
      simp only [List.mem_cons, List.not_mem_nil, or_false, not_or] at hnone
      split <;> simp_all

/-- Decoding a word gives the one instruction that has it. -/
theorem decode_eq_iff_written (word : UInt16) (instruction : Instruction) :
    decode word = instruction ↔ instruction.Written word.toNat := by
  constructor
  · rintro rfl
    exact written_decode word
  · exact decode_of_written

end Instruction

/-! ## The word at the program counter -/

namespace Memory

theorem toNat_wordOf (high low : UInt8) :
    (wordOf high low).toNat = 0x100 * high.toNat + low.toNat := by
  have hhigh := high.toNat_lt
  have hlow := low.toNat_lt
  have hshift : high.toNat <<< 8 % 2 ^ 16 = high.toNat <<< 8 := by
    rw [Nat.shiftLeft_eq]
    omega
  unfold wordOf
  rw [UInt16.toNat_or, UInt16.toNat_shiftLeft, UInt8.toNat_toUInt16, UInt8.toNat_toUInt16]
  change high.toNat <<< 8 % 2 ^ 16 ||| low.toNat = _
  rw [hshift, ← Nat.shiftLeft_add_eq_or_of_lt hlow, Nat.shiftLeft_eq]
  omega

theorem word_eq_ok_iff (m : Memory) (address : Nat) (word : UInt16) :
    m.word address = .ok word ↔
      ∃ high low, m.cells[address]? = some high ∧ m.cells[address + 1]? = some low ∧
        word.toNat = 0x100 * high.toNat + low.toNat := by
  unfold Memory.word
  constructor
  · intro hword
    split at hword
    next hlt =>
      cases hword
      exact ⟨m.cells[address], m.cells[address + 1], Vector.getElem?_eq_getElem _,
        Vector.getElem?_eq_getElem _, toNat_wordOf _ _⟩
    next => cases hword
  · rintro ⟨high, low, hhigh, hlow, hword⟩
    obtain ⟨hplace, rfl⟩ := Vector.getElem?_eq_some_iff.mp hhigh
    obtain ⟨hnext, rfl⟩ := Vector.getElem?_eq_some_iff.mp hlow
    rw [dif_pos hnext, ← UInt16.toNat_inj.mp ((toNat_wordOf _ _).trans hword.symm)]

theorem word_eq_error_iff (m : Memory) (address : Nat) (e : AddressError) :
    m.word address = .error e ↔ size < address + 2 ∧ e = ⟨max address size⟩ := by
  unfold Memory.word
  split
  next hlt =>
    simp only [reduceCtorEq, false_iff]
    omega
  next hout =>
    rw [Except.error.injEq, eq_comm]
    simp only [show size < address + 2 by omega, true_and]

end Memory

namespace Machine

theorem next?_eq_some_iff (m : Machine) (instruction : Instruction) :
    m.next? = some instruction ↔
      ∃ word, m.memory.word m.processor.pc.toNat = .ok word ∧ .decode word = instruction := by
  unfold next?
  cases m.memory.word m.processor.pc.toNat with
  | error e => simp [Except.toOption]
  | ok word => simp [Except.toOption]

/-- The two bytes at the program counter, the high one first, are a word of the instruction. -/
def Reads (m : Machine) (instruction : Instruction) : Prop :=
  ∃ high low, m.memory.cells[m.processor.pc.toNat]? = some high ∧
    m.memory.cells[m.processor.pc.toNat + 1]? = some low ∧
      instruction.Written (0x100 * high.toNat + low.toNat)

theorem reads_iff (m : Machine) (instruction : Instruction) :
    m.Reads instruction ↔
      ∃ word, m.memory.word m.processor.pc.toNat = .ok word ∧
        .decode word = instruction := by
  constructor
  · rintro ⟨high, low, hhigh, hlow, hwritten⟩
    have hword := Memory.toNat_wordOf high low
    refine ⟨Memory.wordOf high low, ?_, ?_⟩
    · exact (m.memory.word_eq_ok_iff _ _).mpr ⟨high, low, hhigh, hlow, hword⟩
    · rw [← hword] at hwritten
      exact Instruction.decode_of_written hwritten
  · rintro ⟨word, hword, rfl⟩
    obtain ⟨high, low, hhigh, hlow, hcode⟩ := (m.memory.word_eq_ok_iff _ _).mp hword
    refine ⟨high, low, hhigh, hlow, ?_⟩
    rw [← hcode]
    exact Instruction.written_decode word

end Machine

end ChipEight
