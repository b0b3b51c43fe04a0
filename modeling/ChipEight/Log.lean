/-!
# Log records

Every part of the machine and of its host reports what it does as records.  A record keeps its level
and its source apart from its text, so that readers can select records without looking into texts.
-/

namespace ChipEight

inductive Level where
  | error
  | warn
  | info
  | debug
  | trace
  deriving DecidableEq, Repr

namespace Level

def name : Level → String
  | error => "ERROR"
  | warn => "WARN"
  | info => "INFO"
  | debug => "DEBUG"
  | trace => "TRACE"

def rank : Level → Nat
  | error => 1
  | warn => 2
  | info => 3
  | debug => 4
  | trace => 5

/-- The least important level that is shown when the user asked for more `verbosity` times. -/
def ofVerbosity : Nat → Level
  | 0 => warn
  | 1 => info
  | 2 => debug
  | _ => trace

end Level

inductive Source where
  | machine
  | memory
  | processor
  | timers
  | keys
  | host
  deriving DecidableEq, Repr

def Source.name : Source → String
  | .machine => "chip8"
  | .memory => "chip8::memory"
  | .processor => "chip8::processor"
  | .timers => "chip8::clock"
  | .keys => "chip8::input"
  | .host => "chip8::app"

structure Record where
  level : Level
  source : Source
  message : String
  deriving DecidableEq, Repr

namespace Record

def shownAt (threshold : Level) (record : Record) : Bool :=
  record.level.rank ≤ threshold.rank

def line (record : Record) : String :=
  "[" ++ record.level.name ++ "][" ++ record.source.name ++ "] " ++ record.message ++ "\n"

end Record

abbrev Log := Array Record

end ChipEight
