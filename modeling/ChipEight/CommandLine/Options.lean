import ChipEight.Host

/-!
# Options of the command line

The options say which program is run, on a machine of which dialect and timer mode, with which
settings of its host, and how much of the log is shown.
-/

namespace ChipEight.CommandLine

structure Options where
  romPath : String
  tickMilliseconds : Nat
  stepsPerTick : Nat
  timerMode : TimerMode
  unitShiftFlag : Bool
  keepIndex : Bool
  maxTicks : Option Nat
  plainFrames : Bool
  /-- How often more of the log was asked for. -/
  verbosity : Nat
  deriving DecidableEq, Repr

namespace Options

def dialect (o : Options) : Dialect :=
  ⟨o.unitShiftFlag, !o.keepIndex⟩

def settings (o : Options) : Settings where
  tickTime := o.tickMilliseconds * 1000000
  stepsPerTick := o.stepsPerTick
  timerMode := o.timerMode
  maxTicks := o.maxTicks
  ansi := !o.plainFrames

/-- The least important level that is logged. -/
def threshold (o : Options) : Level :=
  .ofVerbosity o.verbosity

end Options

end ChipEight.CommandLine
