import ChipEight.Machine.Execute

/-!
# Describing an instruction

The record of an instruction says what it does in terms of the machine before it.  A word without a
meaning is a warning, a word of no family an error, everything else a trace.
-/

namespace ChipEight

namespace Register

def name (x : Register) : String :=
  "V" ++ Hex.filled 1 x.val

end Register

namespace Arithmetic

private def bitwise (x y : Register) (operation : String) (a b : UInt8) : String :=
  let left := Hex.filled 2 a.toNat
  let right := Hex.filled 2 b.toNat
  s!"Set {x.name} to {x.name} {operation} {y.name} ({left} {operation} {right})"

def describe (dialect : Dialect) (x y : Register) (a b : UInt8) (operation : Arithmetic) : String :=
  let flag := (operation.flag? dialect a b).getD 0
  match operation with
  | .copy => s!"Set {x.name} to {y.name} ({b})"
  | .or => bitwise x y "OR" a b
  | .and => bitwise x y "AND" a b
  | .xor => bitwise x y "XOR" a b
  | .add => s!"Set {x.name} to ({a} + {b}), VF = {flag}"
  | .sub => s!"Set {x.name} to ({a} - {b}), VF = {flag}"
  | .shiftRight => s!"{x.name} shifted one right, VF = {flag}"
  | .subFrom => s!"Set {x.name} to ({b} - {a}), VF = {flag}"
  | .shiftLeft => s!"{x.name} shifted one left, VF = {Hex.byte flag.toNat}"

end Arithmetic

def Family.describe (word address : UInt16) : Family → String
  | .routine => s!"Ignoring instruction {Hex.word word.toNat} at {Hex.word address.toNat}"
  | .arithmetic => s!"Invalid 8XY_ instruction: {Hex.word word.toNat}"
  | .keys => s!"Invalid EX__ instruction: {Hex.word word.toNat}"
  | .misc => s!"Invalid FX__ instruction: {Hex.word word.toNat}"

def Instruction.level : Instruction → Level
  | .unrecognised .. => .warn
  | .unknown _ => .error
  | _ => .trace

namespace Machine

def describe (m : Machine) (instruction : Instruction) : String :=
  let p := m.processor
  match instruction with
  | .clear => "Clear the screen"
  | .leave => s!"Return to addr {Hex.word (p.stack.top?.getD 0).toNat}"
  | .jump target => s!"Jump to addr {Hex.word target.toNat}"
  | .call target => s!"Call subroutine at {Hex.word target.toNat}"
  | .skipByte true x byte => s!"If {x.name} ({p.reg x}) == {byte}, skip next instr"
  | .skipByte false x byte => s!"If {x.name} ({p.reg x}) != {byte}, skip next instr"
  | .skipRegister true x y =>
      s!"If {x.name} ({p.reg x}) == {y.name} ({p.reg y}), skip next instr"
  | .skipRegister false x y =>
      s!"If {x.name} ({p.reg x}) != {y.name} ({p.reg y}), skip next instr"
  | .setByte x byte => s!"Set {x.name} to {byte}"
  | .addByte x byte => s!"Add {byte} to {x.name}"
  | .arithmetic operation x y => operation.describe p.dialect x y (p.reg x) (p.reg y)
  | .setIndex address => s!"Set I register to {Hex.word address.toNat}"
  | .jumpOffset base => s!"Jump to {Hex.word base.toNat} + {Hex.byte (p.reg .offset).toNat}"
  | .random x mask =>
      s!"Set {x.name} to {m.random.headD 0} [rand] AND {Hex.number mask.toNat}"
  | .draw x y rows =>
      s!"Draw {rows} byte sprite from addr {Hex.word p.index.toNat} at point ({p.reg x}, {p.reg y})"
  | .skipKey true x => s!"Skip instr if key {x.name} pressed ({m.keypad.isDown (p.reg x)})"
  | .skipKey false x =>
      s!"Skip next instr if key {x.name} not pressed ({!m.keypad.isDown (p.reg x)})"
  | .readDelay x => s!"Set {x.name} to delay timer ({m.timers.delay})"
  | .awaitKey x =>
      match m.keypad.highest? with
      | some key => s!"Store key press {Hex.number key.toNat} in {x.name}"
      | none => s!"Waiting for a key press for {x.name}"
  | .setDelay x => s!"Set delay timer to {x.name} ({p.reg x})"
  | .setSound x => s!"Set sound timer to {x.name} ({p.reg x})"
  | .addIndex x => s!"Set I to I + {x.name}"
  | .glyph x => s!"Set I to addr of sprite digit {(p.reg x)}"
  | .decimal x => s!"Store BCD of {(p.reg x)} starting at I"
  | .storeRegisters x => s!"Store V0 to {x.name} starting at I"
  | .loadRegisters x => s!"Read memory at I into V0 to {x.name}"
  | .unrecognised family word => family.describe word p.lastAddress
  | .unknown word => s!"Unknown opcode: {Hex.word word.toNat}, halting"

def record (m : Machine) (instruction : Instruction) : Record :=
  ⟨instruction.level, .processor, m.describe instruction⟩

end Machine

end ChipEight
