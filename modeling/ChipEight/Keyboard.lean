import ChipEight.KeyCommand

/-!
# Keyboard

The keyboard carries out key commands on a keypad.  A tap promises to let the key go after a while.
The promise is void once the key was pressed or tapped again, which the keyboard sees from a count
of presses that it keeps for every key.

The keyboard does not own the keypad: others write to it too, and a release acts on whatever it
finds.
-/

namespace ChipEight

/-- The promise of a tap to let its key go. -/
structure Release where
  code : UInt8
  /-- The count of presses of the key when it was tapped. -/
  press : UInt32
  time : Nat
  deriving DecidableEq, Repr

structure Keyboard where
  presses : Vector UInt32 Keypad.keyCount
  pending : List Release
  deriving DecidableEq

namespace Keyboard

/-- How long a tapped key stays down, in nanoseconds. -/
def tapTime : Nat := 250000000

def idle : Keyboard :=
  ⟨Vector.replicate Keypad.keyCount 0, []⟩

def presses? (k : Keyboard) (code : UInt8) : Option UInt32 :=
  k.presses[code.toNat]?

def countPress (k : Keyboard) (code : UInt8) : Keyboard :=
  match k.presses? code with
  | none => k
  | some count => { k with presses := k.presses.setIfInBounds code.toNat (count + 1) }

def promise (k : Keyboard) (now : Nat) (code : UInt8) : Keyboard :=
  match k.presses? code with
  | none => k
  | some press => { k with pending := k.pending ++ [⟨code, press, now + tapTime⟩] }

def apply (k : Keyboard) (keypad : Keypad) (now : Nat) (command : KeyCommand) : Keyboard × Keypad :=
  match command.action with
  | .press => (k.countPress command.code, keypad.set command.code true)
  | .release => (k, keypad.set command.code false)
  | .tap => ((k.countPress command.code).promise now command.code, keypad.set command.code true)

def applyAll (k : Keyboard) (keypad : Keypad) (now : Nat) (commands : List KeyCommand) :
    Keyboard × Keypad :=
  commands.foldl (fun (k, keypad) command => k.apply keypad now command) (k, keypad)

/-- Whether no press came after the tap that made the promise. -/
def stands (k : Keyboard) (release : Release) : Bool :=
  k.presses? release.code == some release.press

def settle (k : Keyboard) (keypad : Keypad) (now : Nat) : Keyboard × Keypad :=
  let (come, later) := k.pending.partition (·.time ≤ now)
  ({ k with pending := later },
    (come.filter k.stands).foldl (fun keypad release => keypad.set release.code false) keypad)

end Keyboard

end ChipEight
