import ChipEight.Keypad
import ChipEight.Processor
import ChipEight.Screen
import ChipEight.Timers

/-!
# The machine

A machine is a processor with its memory, screen, keypad and timers, the random bytes that are left
to it, and whether a program is loaded.  The random bytes are part of the state, so a machine and
the time determine everything that a step does.
-/

namespace ChipEight

structure Machine where
  processor : Processor
  memory : Memory
  screen : Screen
  keypad : Keypad
  timers : Timers
  random : List UInt8
  loaded : Bool
  deriving DecidableEq

namespace Machine

def new (dialect : Dialect) (mode : TimerMode) (random : List UInt8) (now : Nat) : Machine where
  processor := .new dialect
  memory := .blank
  screen := .blank
  keypad := .released
  timers := .new mode now
  random := random
  loaded := false

def isRunning (m : Machine) : Bool :=
  m.loaded && m.processor.running

def setKey (m : Machine) (code : UInt8) (pressed : Bool) : Machine :=
  { m with keypad := m.keypad.set code pressed }

def tickTimers (m : Machine) : Machine :=
  { m with timers := m.timers.tick }

def takeBeep (m : Machine) : Machine :=
  { m with timers := m.timers.takeBeep }

def setSound (m : Machine) (value : UInt8) : Machine :=
  { m with timers := { m.timers with sound := value } }

def acknowledgeScreen (m : Machine) : Machine :=
  { m with screen := m.screen.acknowledge }

/-- Back to the state after power on, without a program.  The keys, the dialect, the timer mode and
the random bytes stay. -/
def reset (m : Machine) (now : Nat) : Machine :=
  { m with
    processor := .new m.processor.dialect
    memory := .blank
    screen := m.screen.clear
    timers := m.timers.reset now
    loaded := false }

end Machine

end ChipEight
