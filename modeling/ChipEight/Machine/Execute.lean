import ChipEight.Machine.Basic

/-!
# Executing an instruction

Execution starts on a machine whose program counter is already past the instruction.  It changes the
machine as it goes and tells where control goes on, or it is refused on the way.  A refusal undoes
nothing: the machine that it leaves behind is the one that was reached.
-/

namespace ChipEight

inductive Flow where
  | next
  | skip
  | jump (target : UInt16)
  | again
  deriving DecidableEq, Repr

def Flow.skipIf (condition : Bool) : Flow :=
  if condition then .skip else .next

def flagOf (condition : Bool) : UInt8 :=
  if condition then 1 else 0

namespace Arithmetic

/-- The bit that `8xyE` shifts out of a register, as the dialect leaves it in the flag. -/
def shiftedOut (dialect : Dialect) (a : UInt8) : UInt8 :=
  if dialect.unitShiftFlag then a >>> 7 else a &&& 0x80

def result (a b : UInt8) : Arithmetic → UInt8
  | .copy => b
  | .or => a ||| b
  | .and => a &&& b
  | .xor => a ^^^ b
  | .add => a + b
  | .sub => a - b
  | .shiftRight => a >>> 1
  | .subFrom => b - a
  | .shiftLeft => a <<< 1

def flag? (dialect : Dialect) (a b : UInt8) : Arithmetic → Option UInt8
  | .copy | .or | .and | .xor => none
  | .add => some (flagOf (256 ≤ a.toNat + b.toNat))
  | .sub => some (flagOf (b ≤ a))
  | .shiftRight => some (a &&& 1)
  | .subFrom => some (flagOf (a ≤ b))
  | .shiftLeft => some (shiftedOut dialect a)

end Arithmetic

def decimalDigits (n : UInt8) : List UInt8 :=
  [n / 100, n / 10 % 10, n % 10]

namespace Processor

def calculate (p : Processor) (operation : Arithmetic) (x y : Register) : Processor :=
  let a := p.reg x
  let b := p.reg y
  match operation.flag? p.dialect a b with
  | none => p.set x (operation.result a b)
  | some flag => p.setWithFlag x (operation.result a b) flag

/-- Moves the index past V0 to Vx, where the dialect wants that. -/
def advanceIndex (p : Processor) (x : Register) : Processor :=
  if p.dialect.advanceIndex then { p with index := p.index + UInt16.ofNat (x.val + 1) } else p

end Processor

/-- What is done to a machine: it changes and yields a value, or it changes and a fault stops what
was to come. -/
abbrev Action (α : Type) : Type :=
  EStateM Fault Machine α

namespace Machine

def outOfBounds (m : Machine) (e : AddressError) : Fault :=
  .outOfBounds e.address m.processor.lastAddress

def proceed (after : Machine) : Action Flow := do
  set after
  return .next

@[simp] theorem run_proceed (m after : Machine) :
    (proceed after).run m = .ok .next after :=
  rfl

def readAtIndex (count : Nat) : Action (List UInt8) := do
  let m ← get
  match m.memory.range m.processor.index.toNat count with
  | .ok bytes => return bytes
  | .error e => throw (m.outOfBounds e)

/-- Puts bytes into consecutive cells, one after the other.  The bytes before the first that lies
outside of memory stay where they were put. -/
def writeFrom (address : Nat) : List UInt8 → Action Unit
  | [] => return ()
  | byte :: rest => do
      let m ← get
      match m.memory.write address byte with
      | .ok memory => set { m with memory }
      | .error e => throw (m.outOfBounds e)
      writeFrom (address + 1) rest

def executeSkipKey (down : Bool) (x : Register) : Action Flow := do
  let m ← get
  let key := m.processor.reg x
  if key.toNat < Keypad.keyCount then
    return .skipIf (m.keypad.isDown key == down)
  else
    throw (.noSuchKey key m.processor.lastAddress)

def executeDraw (x y : Register) (rows : Nat) : Action Flow := do
  let sprite ← readAtIndex rows
  let m ← get
  let drawn := m.screen.draw (m.processor.reg x) (m.processor.reg y) sprite
  proceed { m with screen := drawn.2, processor := m.processor.set .flag (flagOf drawn.1) }

def executeDecimal (x : Register) : Action Flow := do
  let _ ← readAtIndex 3
  let m ← get
  writeFrom m.processor.index.toNat (decimalDigits (m.processor.reg x))
  return .next

def executeStore (x : Register) : Action Flow := do
  let _ ← readAtIndex (x.val + 1)
  let m ← get
  writeFrom m.processor.index.toNat (m.processor.v.upTo x)
  let m ← get
  proceed { m with processor := m.processor.advanceIndex x }

def executeLoad (x : Register) : Action Flow := do
  let bytes ← readAtIndex (x.val + 1)
  let m ← get
  let loaded := { m.processor with v := m.processor.v.overlay bytes }
  proceed { m with processor := loaded.advanceIndex x }

def execute (instruction : Instruction) : Action Flow := do
  let m ← get
  let p := m.processor
  match instruction with
  | .clear => proceed { m with screen := m.screen.clear }
  | .leave =>
      match p.stack.top? with
      | none => throw (.returnWithoutCall p.lastAddress)
      | some target =>
          set { m with processor := { p with stack := p.stack.drop } }
          return .jump target
  | .jump target => return .jump target
  | .call target =>
      match p.stack.push? p.pc with
      | none => throw (.callTooDeep p.lastAddress)
      | some stack =>
          set { m with processor := { p with stack } }
          return .jump target
  | .skipByte equal x byte => return .skipIf ((p.reg x == byte) == equal)
  | .skipRegister equal x y => return .skipIf ((p.reg x == p.reg y) == equal)
  | .setByte x byte => proceed { m with processor := p.set x byte }
  | .addByte x byte => proceed { m with processor := p.set x (p.reg x + byte) }
  | .arithmetic operation x y => proceed { m with processor := p.calculate operation x y }
  | .setIndex address => proceed { m with processor := { p with index := address } }
  | .jumpOffset base => return .jump (base + (p.reg .offset).toUInt16)
  | .random x mask =>
      match m.random with
      | [] => throw .noRandomByte
      | byte :: rest => proceed { m with random := rest, processor := p.set x (byte &&& mask) }
  | .draw x y rows => executeDraw x y rows
  | .skipKey down x => executeSkipKey down x
  | .readDelay x => proceed { m with processor := p.set x m.timers.delay }
  | .awaitKey x =>
      match m.keypad.highest? with
      | none => return .again
      | some key => proceed { m with processor := p.set x key }
  | .setDelay x => proceed { m with timers := { m.timers with delay := p.reg x } }
  | .setSound x => proceed (m.setSound (p.reg x))
  | .addIndex x =>
      proceed { m with processor := { p with index := p.index + (p.reg x).toUInt16 } }
  | .glyph x =>
      proceed { m with
        processor := { p with
          index := (p.reg x).toUInt16 * UInt16.ofNat Memory.glyphSize } }
  | .decimal x => executeDecimal x
  | .storeRegisters x => executeStore x
  | .loadRegisters x => executeLoad x
  | .unrecognised _ _ => return .next
  | .unknown word =>
      set { m with processor := { p with running := false } }
      throw (.unknownWord word p.lastAddress)

end Machine

end ChipEight
