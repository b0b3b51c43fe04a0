import ChipEight.Instruction

/-!
# The table of instructions

The words of an instruction, row by row: every word is a number whose nibbles, from the highest on,
are the family, the registers and the operands.  Four rows stand for the words of a family that
name no instruction of it.
-/

namespace ChipEight

namespace Arithmetic

/-- The lowest nibble of the words of an operation. -/
def code : Arithmetic → Nat
  | .copy => 0x0
  | .or => 0x1
  | .and => 0x2
  | .xor => 0x3
  | .add => 0x4
  | .sub => 0x5
  | .shiftRight => 0x6
  | .subFrom => 0x7
  | .shiftLeft => 0xE

end Arithmetic

namespace Instruction

/-- Whether a number is one of the words of an instruction. -/
inductive Written : Instruction → Nat → Prop where
  | clear : Written .clear 0x00E0
  | leave : Written .leave 0x00EE
  | noRoutine (word : UInt16) (hfamily : word.toNat < 0x1000) (hclear : word ≠ 0x00E0)
      (hleave : word ≠ 0x00EE) :
      Written (.unrecognised .routine word) word.toNat
  | jump (target : UInt16) (htarget : target.toNat < 0x1000) :
      Written (.jump target) (0x1000 + target.toNat)
  | call (target : UInt16) (htarget : target.toNat < 0x1000) :
      Written (.call target) (0x2000 + target.toNat)
  | skipIfByte (x : Register) (byte : UInt8) :
      Written (.skipByte true x byte) (0x3000 + 0x100 * x.val + byte.toNat)
  | skipUnlessByte (x : Register) (byte : UInt8) :
      Written (.skipByte false x byte) (0x4000 + 0x100 * x.val + byte.toNat)
  | skipIfRegister (x y last : Register) :
      Written (.skipRegister true x y) (0x5000 + 0x100 * x.val + 0x10 * y.val + last.val)
  | setByte (x : Register) (byte : UInt8) :
      Written (.setByte x byte) (0x6000 + 0x100 * x.val + byte.toNat)
  | addByte (x : Register) (byte : UInt8) :
      Written (.addByte x byte) (0x7000 + 0x100 * x.val + byte.toNat)
  | arithmetic (operation : Arithmetic) (x y : Register) :
      Written (.arithmetic operation x y)
        (0x8000 + 0x100 * x.val + 0x10 * y.val + operation.code)
  | noArithmetic (word : UInt16) (x y last : Register)
      (hword : word.toNat = 0x8000 + 0x100 * x.val + 0x10 * y.val + last.val)
      (hnone : ∀ operation : Arithmetic, operation.code ≠ last.val) :
      Written (.unrecognised .arithmetic word) word.toNat
  | skipUnlessRegister (x y last : Register) :
      Written (.skipRegister false x y) (0x9000 + 0x100 * x.val + 0x10 * y.val + last.val)
  | setIndex (address : UInt16) (haddress : address.toNat < 0x1000) :
      Written (.setIndex address) (0xA000 + address.toNat)
  | jumpOffset (base : UInt16) (hbase : base.toNat < 0x1000) :
      Written (.jumpOffset base) (0xB000 + base.toNat)
  | random (x : Register) (mask : UInt8) :
      Written (.random x mask) (0xC000 + 0x100 * x.val + mask.toNat)
  | draw (x y rows : Register) :
      Written (.draw x y rows.val) (0xD000 + 0x100 * x.val + 0x10 * y.val + rows.val)
  | skipIfKey (x : Register) : Written (.skipKey true x) (0xE000 + 0x100 * x.val + 0x9E)
  | skipUnlessKey (x : Register) : Written (.skipKey false x) (0xE000 + 0x100 * x.val + 0xA1)
  | noKeys (word : UInt16) (x : Register) (byte : UInt8)
      (hword : word.toNat = 0xE000 + 0x100 * x.val + byte.toNat)
      (hnone : byte.toNat ∉ [0x9E, 0xA1]) :
      Written (.unrecognised .keys word) word.toNat
  | readDelay (x : Register) : Written (.readDelay x) (0xF000 + 0x100 * x.val + 0x07)
  | awaitKey (x : Register) : Written (.awaitKey x) (0xF000 + 0x100 * x.val + 0x0A)
  | setDelay (x : Register) : Written (.setDelay x) (0xF000 + 0x100 * x.val + 0x15)
  | setSound (x : Register) : Written (.setSound x) (0xF000 + 0x100 * x.val + 0x18)
  | addIndex (x : Register) : Written (.addIndex x) (0xF000 + 0x100 * x.val + 0x1E)
  | glyph (x : Register) : Written (.glyph x) (0xF000 + 0x100 * x.val + 0x29)
  | decimal (x : Register) : Written (.decimal x) (0xF000 + 0x100 * x.val + 0x33)
  | storeRegisters (x : Register) : Written (.storeRegisters x) (0xF000 + 0x100 * x.val + 0x55)
  | loadRegisters (x : Register) : Written (.loadRegisters x) (0xF000 + 0x100 * x.val + 0x65)
  | noMisc (word : UInt16) (x : Register) (byte : UInt8)
      (hword : word.toNat = 0xF000 + 0x100 * x.val + byte.toNat)
      (hnone : byte.toNat ∉ [0x07, 0x0A, 0x15, 0x18, 0x1E, 0x29, 0x33, 0x55, 0x65]) :
      Written (.unrecognised .misc word) word.toNat

end Instruction

end ChipEight
