import ChipEight.Keyboard
import ChipEight.Machine.Step

/-!
# Console

A console is a machine with the keyboard of its user and the time.  Time moves only when it is told
to, and whenever it moves the taps whose time has come let their keys go.
-/

namespace ChipEight

structure Console where
  machine : Machine
  keyboard : Keyboard
  /-- Nanoseconds since the console was made. -/
  now : Nat
  deriving DecidableEq

namespace Console

def new (dialect : Dialect) (mode : TimerMode) (random : List UInt8) : Console :=
  ⟨.new dialect mode random 0, .idle, 0⟩

def advance (c : Console) (elapsed : Nat) : Console :=
  let now := c.now + elapsed
  let (keyboard, keypad) := c.keyboard.settle c.machine.keypad now
  { machine := { c.machine with keypad }, keyboard, now }

def command (c : Console) (commands : List KeyCommand) : Console :=
  let (keyboard, keypad) := c.keyboard.applyAll c.machine.keypad c.now commands
  { c with machine := { c.machine with keypad }, keyboard }

def line (c : Console) (text : List Char) : Console :=
  c.command (KeyCommand.ofLine text)

def step (c : Console) : Attempt Console Fault :=
  (c.machine.step c.now).lift (fun machine => { c with machine }) id

def load (c : Console) (program : Program) : Attempt Console LoadError :=
  (c.machine.load program).lift (fun machine => { c with machine }) id

end Console

end ChipEight
