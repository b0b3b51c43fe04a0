import ChipEight.Machine.Operation

/-!
# Traces

The trace of a history is the row of instructions that were carried out in it.  A step that fails
carries out nothing, and neither does any other operation.
-/

namespace ChipEight

def Instruction.isCall : Instruction → Bool
  | .call _ => true
  | _ => false

/-- Whether an operation takes the machine back to the state after power on. -/
def Operation.resets : Operation → Bool
  | .reset | .resetAndLoad _ => true
  | _ => false

namespace Machine

/-- The instruction at the program counter, if there is a whole word. -/
def next? (m : Machine) : Option Instruction :=
  (m.memory.word m.processor.pc.toNat).toOption.map .decode

/-- The instruction that an operation carries out. -/
def performed? (m : Machine) (now : Nat) : Operation → Option Instruction
  | .step => if (m.step now).succeeded then m.next? else none
  | _ => none

def trace (m : Machine) : List (Nat × Operation) → List Instruction
  | [] => []
  | (now, operation) :: rest =>
      (m.performed? now operation).toList ++ (m.operate now operation).2.trace rest

end Machine

end ChipEight
