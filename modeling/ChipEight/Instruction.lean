/-!
# Instructions

An instruction is one word of sixteen bits.  Its highest nibble names a family, and the families of
arithmetic, keys and timers are divided again by their low bits.  Every word has a meaning: a word
that no family recognises is an instruction that does nothing.

The instructions and their words, in nibbles; `x` and `y` are registers, `kk` is a byte, `nnn` is an
address and `_` is a nibble that does not matter:

    clear         00E0           jumpOffset      Bnnn, to the address plus V0
    leave         00EE           random          Cxkk, under a mask
    jump          1nnn           draw            Dxyn, n rows from the index
    call          2nnn           skipKey         Ex9E down, ExA1 up
    skipByte      3xkk, 4xkk     readDelay       Fx07
    skipRegister  5xy_, 9xy_     awaitKey        Fx0A
    setByte       6xkk           setDelay        Fx15
    addByte       7xkk           setSound        Fx18
    arithmetic    8xy_           addIndex        Fx1E
    setIndex      Annn           glyph           Fx29
                                 decimal         Fx33
                                 storeRegisters  Fx55, V0 to Vx
                                 loadRegisters   Fx65, V0 to Vx

Beside the words of a family there is one more instruction, for a word of no family at all.  No word
decodes to it, since sixteen families use up the highest nibble; a processor that met it would stop
for good.
-/

namespace ChipEight

abbrev Register := Fin 16

def Register.flag : Register := 15

def Register.offset : Register := 0

inductive Arithmetic where
  | copy
  | or
  | and
  | xor
  | add
  | sub
  | shiftRight
  | subFrom
  | shiftLeft
  deriving DecidableEq, Repr

inductive Family where
  | routine
  | arithmetic
  | keys
  | misc
  deriving DecidableEq, Repr

inductive Instruction where
  | clear
  | leave
  | jump (target : UInt16)
  | call (target : UInt16)
  | skipByte (equal : Bool) (x : Register) (byte : UInt8)
  | skipRegister (equal : Bool) (x y : Register)
  | setByte (x : Register) (byte : UInt8)
  | addByte (x : Register) (byte : UInt8)
  | arithmetic (operation : Arithmetic) (x y : Register)
  | setIndex (address : UInt16)
  | jumpOffset (base : UInt16)
  | random (x : Register) (mask : UInt8)
  | draw (x y : Register) (rows : Nat)
  | skipKey (down : Bool) (x : Register)
  | readDelay (x : Register)
  | awaitKey (x : Register)
  | setDelay (x : Register)
  | setSound (x : Register)
  | addIndex (x : Register)
  | glyph (x : Register)
  | decimal (x : Register)
  | storeRegisters (x : Register)
  | loadRegisters (x : Register)
  | unrecognised (family : Family) (word : UInt16)
  | unknown (word : UInt16)
  deriving DecidableEq, Repr

namespace Instruction

/-- The nibble of a word at a place, counted from the lowest. -/
def nibble (word : UInt16) (place : Nat) : Fin 16 :=
  Fin.ofNat 16 (word.toNat >>> (4 * place))

def lowByte (word : UInt16) : UInt8 :=
  word.toUInt8

def address (word : UInt16) : UInt16 :=
  word &&& 0x0FFF

def arithmetic? : Nat → Option Arithmetic
  | 0x0 => some .copy
  | 0x1 => some .or
  | 0x2 => some .and
  | 0x3 => some .xor
  | 0x4 => some .add
  | 0x5 => some .sub
  | 0x6 => some .shiftRight
  | 0x7 => some .subFrom
  | 0xE => some .shiftLeft
  | _ => none

def decodeRoutine (word : UInt16) : Instruction :=
  if word = 0x00E0 then .clear
  else if word = 0x00EE then .leave
  else .unrecognised .routine word

def decodeArithmetic (word : UInt16) : Instruction :=
  match arithmetic? (nibble word 0).val with
  | some operation => .arithmetic operation (nibble word 2) (nibble word 1)
  | none => .unrecognised .arithmetic word

def decodeKeys (word : UInt16) : Instruction :=
  match (lowByte word).toNat with
  | 0x9E => .skipKey true (nibble word 2)
  | 0xA1 => .skipKey false (nibble word 2)
  | _ => .unrecognised .keys word

def decodeMisc (word : UInt16) : Instruction :=
  let x := nibble word 2
  match (lowByte word).toNat with
  | 0x07 => .readDelay x
  | 0x0A => .awaitKey x
  | 0x15 => .setDelay x
  | 0x18 => .setSound x
  | 0x1E => .addIndex x
  | 0x29 => .glyph x
  | 0x33 => .decimal x
  | 0x55 => .storeRegisters x
  | 0x65 => .loadRegisters x
  | _ => .unrecognised .misc word

def decode (word : UInt16) : Instruction :=
  let x := nibble word 2
  let y := nibble word 1
  let byte := lowByte word
  match (nibble word 3).val with
  | 0x0 => decodeRoutine word
  | 0x1 => .jump (address word)
  | 0x2 => .call (address word)
  | 0x3 => .skipByte true x byte
  | 0x4 => .skipByte false x byte
  | 0x5 => .skipRegister true x y
  | 0x6 => .setByte x byte
  | 0x7 => .addByte x byte
  | 0x8 => decodeArithmetic word
  | 0x9 => .skipRegister false x y
  | 0xA => .setIndex (address word)
  | 0xB => .jumpOffset (address word)
  | 0xC => .random x byte
  | 0xD => .draw x y (nibble word 0).val
  | 0xE => decodeKeys word
  | 0xF => decodeMisc word
  | _ => .unknown word

/-- Whether the instruction reports itself before it is known to succeed.  These are the
instructions that reach memory through the index, and the one that always fails. -/
def announced : Instruction → Bool
  | .draw .. | .decimal _ | .storeRegisters _ | .loadRegisters _ | .unknown _ => true
  | _ => false

end Instruction

end ChipEight
