import ChipEight.Hex
import ChipEight.Instruction
import ChipEight.Memory

/-!
# Processor

The processor holds sixteen registers of one byte, the index, the program counter and the call
stack.  Returning from a subroutine leaves the return address in its slot, so the slots above the
depth are history that no instruction reads.  Beside them stand the dialect, which says how two
instructions behave, and the word and address of the last instruction, which are there for reports
only.
-/

namespace ChipEight

structure Dialect where
  /-- `8xyE` leaves the bit shifted out as `1`, not as the high bit `0x80`. -/
  unitShiftFlag : Bool
  /-- `Fx55` and `Fx65` move the index past the registers. -/
  advanceIndex : Bool
  deriving DecidableEq, Repr

def Dialect.standard : Dialect :=
  ⟨false, true⟩

inductive Fault where
  | outOfBounds (address : Nat) (pc : UInt16)
  | callTooDeep (pc : UInt16)
  | returnWithoutCall (pc : UInt16)
  | noSuchKey (key : UInt8) (pc : UInt16)
  | unknownWord (word pc : UInt16)
  | halted
  | noProgram
  | noRandomByte
  deriving DecidableEq, Repr

namespace CallStack

abbrev limit : Nat := 16

end CallStack

structure CallStack where
  depth : Nat
  slots : Vector UInt16 CallStack.limit
  deriving DecidableEq

namespace CallStack

def empty : CallStack :=
  ⟨0, Vector.replicate limit 0⟩

def push? (s : CallStack) (returnAddress : UInt16) : Option CallStack :=
  if h : s.depth < limit then some ⟨s.depth + 1, s.slots.set s.depth returnAddress⟩ else none

def top? (s : CallStack) : Option UInt16 :=
  if s.depth = 0 then none else s.slots[s.depth - 1]?

def drop (s : CallStack) : CallStack :=
  { s with depth := s.depth - 1 }

end CallStack

abbrev Registers := Vector UInt8 16

namespace Registers

def upTo (v : Registers) (x : Register) : List UInt8 :=
  v.toList.take (x.val + 1)

/-- Puts bytes into the registers from V0 on; the registers behind the last byte stay. -/
def overlay (v : Registers) (bytes : List UInt8) : Registers :=
  Vector.ofFn fun r => bytes[r.val]?.getD (v.get r)

theorem get_set (v : Registers) (x r : Register) (value : UInt8) :
    (v.set x value).get r = if r = x then value else v.get r := by
  change (v.set x value)[r.val] = if r = x then value else v[r.val]
  rw [Vector.getElem_set]
  simp only [Fin.ext_iff, eq_comm]

theorem length_upTo (v : Registers) (x : Register) : (v.upTo x).length = x.val + 1 := by
  unfold upTo
  rw [List.length_take, Vector.length_toList]
  exact Nat.min_eq_left x.isLt

theorem getElem?_upTo (v : Registers) {x r : Register} (hr : r ≤ x) :
    (v.upTo x)[r.val]? = some (v.get r) := by
  unfold upTo
  rw [List.getElem?_take_of_lt (Nat.lt_succ_of_le hr), Vector.getElem?_toList]
  exact Vector.getElem?_eq_getElem r.isLt

theorem get_overlay (v : Registers) (bytes : List UInt8) (r : Register) :
    (v.overlay bytes).get r = bytes[r.val]?.getD (v.get r) := by
  change (Vector.ofFn _)[r.val] = _
  rw [Vector.getElem_ofFn]

theorem get_overlay_of_length_le (v : Registers) {bytes : List UInt8} {r : Register}
    (hr : bytes.length ≤ r.val) :
    (v.overlay bytes).get r = v.get r := by
  rw [get_overlay, List.getElem?_eq_none hr]
  rfl

end Registers

structure Processor where
  v : Registers
  index : UInt16
  pc : UInt16
  stack : CallStack
  dialect : Dialect
  lastWord : UInt16
  lastAddress : UInt16
  running : Bool
  deriving DecidableEq

namespace Processor

def new (dialect : Dialect) : Processor where
  v := Vector.replicate 16 0
  index := 0
  pc := UInt16.ofNat Memory.programStart
  stack := .empty
  dialect := dialect
  lastWord := 0
  lastAddress := 0
  running := true

def reg (p : Processor) (x : Register) : UInt8 :=
  p.v.get x

def set (p : Processor) (x : Register) (value : UInt8) : Processor :=
  { p with v := p.v.set x value }

theorem reg_set (p : Processor) (x r : Register) (value : UInt8) :
    (p.set x value).reg r = if r = x then value else p.reg r :=
  p.v.get_set x r value

/-- Gives a register a value and then the flag register a flag, so that the flag wins where both are
the same register. -/
def setWithFlag (p : Processor) (x : Register) (value flag : UInt8) : Processor :=
  (p.set x value).set .flag flag

end Processor

namespace Fault

def noRandomByteText : String := "no random bytes left"

def message : Fault → String
  | .outOfBounds address pc =>
      "out of bounds memory access at " ++ Hex.word address ++ " by the instruction at " ++
        Hex.word pc.toNat
  | .callTooDeep pc =>
      "the call at " ++ Hex.word pc.toNat ++ " exceeds the maximum call depth of " ++
        toString CallStack.limit
  | .returnWithoutCall pc => "return at " ++ Hex.word pc.toNat ++ " with an empty call stack"
  | .noSuchKey key pc =>
      "the instruction at " ++ Hex.word pc.toNat ++ " references key " ++ Hex.number key.toNat ++
        ", which does not exist"
  | .unknownWord word pc =>
      "unknown opcode " ++ Hex.word word.toNat ++ " at " ++ Hex.word pc.toNat
  | .halted => "the processor has halted"
  | .noProgram => "no program has been loaded"
  | .noRandomByte => "failed to generate a random number: " ++ noRandomByteText

def causes (fault : Fault) : List String :=
  match fault with
  | .noRandomByte => [fault.message, noRandomByteText]
  | _ => [fault.message]

end Fault

end ChipEight
