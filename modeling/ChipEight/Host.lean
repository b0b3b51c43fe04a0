import ChipEight.Console
import ChipEight.Failure
import ChipEight.Frame

/-!
# Host

The host runs a console in ticks.  A tick executes a batch of steps, counts the timers down if that
is the host's business, paints the screen if it is stale and rings the bell if there was a beep.
What is left of the time of a tick is slept; a tick that took longer is not made up for.  A run ends
with its first fault or at its limit of ticks.  A run that has no limit is followed for a while, and
is said to be unfinished if it met no fault until then.

The output may be full at any piece.  A frame that was not written whole leaves the screen stale.
-/

namespace ChipEight

structure Settings where
  /-- The time of a tick in nanoseconds. -/
  tickTime : Nat
  stepsPerTick : Nat
  /-- What the host takes the machine's timer mode to be. -/
  timerMode : TimerMode
  maxTicks : Option Nat
  ansi : Bool
  deriving DecidableEq, Repr

/-- The number of ticks for which a run is followed: its limit, or as many as 64 bits can count. -/
def Settings.tickBound (s : Settings) : Nat :=
  s.maxTicks.getD 18446744073709551616

inductive HostFault where
  | step (fault : Fault)
  | frame
  | bell
  /-- The run has no limit and goes on after the ticks for which it was followed. -/
  | unfinished
  deriving DecidableEq, Repr

namespace HostFault

/-- The failure that the program ends with.  It does not end with a run that goes on. -/
def failure? : HostFault → Option Failure
  | .step fault => some ⟨"Failed to execute the program", fault.causes⟩
  | .frame => some ⟨"Failed to draw frame", [Output.fullMessage]⟩
  | .bell => some ⟨Output.fullMessage, []⟩
  | .unfinished => none

end HostFault

structure Host where
  console : Console
  painter : Painter
  output : Output
  settings : Settings
  flushTime : Nat
  deriving DecidableEq

namespace Host

def new (console : Console) (settings : Settings) (output : Output) (flushTime : Nat) : Host :=
  ⟨console, .new settings.ansi, output, settings, flushTime⟩

def advance (h : Host) (elapsed : Nat) : Host :=
  { h with console := h.console.advance elapsed }

def flush (h : Host) : Host :=
  h.advance h.flushTime

def stopRecord (console : Console) (fault : Fault) : Record :=
  let p := console.machine.processor
  let address := Hex.word p.lastAddress.toNat
  let word := Hex.word p.lastWord.toNat
  ⟨.error, .host, s!"Interpreter stopped at {address} (opcode {word}): {fault.message}"⟩

def batchOf (h : Host) (steps : Nat) : Attempt Host HostFault :=
  let a := Attempt.repeatedly Console.step steps (.done h.console #[])
  match a.fault with
  | none => .done { h with console := a.state } a.log
  | some fault =>
      .failed { h with console := a.state } (.step fault) (a.log.push (stopRecord a.state fault))

def batch (h : Host) : Attempt Host HostFault :=
  h.batchOf h.settings.stepsPerTick

def countDown (h : Host) : Attempt Host HostFault :=
  if h.settings.timerMode = .external then
    let m := h.console.machine
    .done { h with console := { h.console with machine := m.tickTimers } } m.timers.tickLog
  else
    .done h #[]

def present (h : Host) : Attempt Host HostFault :=
  let m := h.console.machine
  if m.screen.stale then
    let (painter, output, whole) := h.painter.paint m.screen.cells h.output
    let painted := { h with painter, output }
    if whole then
      let flushed := painted.flush
      let shown := flushed.console.machine.acknowledgeScreen
      .done { flushed with console := { flushed.console with machine := shown } } #[]
    else
      .failed painted .frame #[]
  else
    .done h #[]

def ring (h : Host) : Attempt Host HostFault :=
  let m := h.console.machine
  if m.timers.beep then
    let (output, whole) := h.output.write Frame.bell
    let rung := { h with output, console := { h.console with machine := m.takeBeep } }
    let log := #[⟨.info, .host, "Beep"⟩]
    if whole then .done rung.flush log else .failed rung .bell log
  else
    .done h #[]

def tick (h : Host) : Attempt Host HostFault :=
  ((h.batch.andThen countDown).andThen present).andThen ring

/-- Sleeps for what is left of the time of a tick that began at `started`. -/
def rest (h : Host) (started : Nat) : Host :=
  h.advance (h.settings.tickTime - (h.console.now - started))

def pacedTick (h : Host) : Attempt Host HostFault :=
  h.tick.andThen fun after => .done (after.rest h.console.now) #[]

def endRecord (ticks : Nat) : Record :=
  ⟨.info, .host, s!"Stopped after {ticks} ticks"⟩

/-- What becomes of a run that met no fault in the ticks for which it was followed. -/
def finish (h : Host) (maxTicks : Option Nat) : Attempt Host HostFault :=
  match maxTicks with
  | some limit => .done h #[endRecord limit]
  | none => .failed h .unfinished #[]

theorem finish_state (h : Host) (maxTicks : Option Nat) : (h.finish maxTicks).state = h := by
  cases maxTicks <;> rfl

theorem finish_fault (h : Host) (maxTicks : Option Nat) :
    (h.finish maxTicks).fault = if maxTicks.isNone then some .unfinished else none := by
  cases maxTicks <;> rfl

def run (h : Host) : Attempt Host HostFault :=
  (Attempt.repeatedly pacedTick h.settings.tickBound (.done h #[])).andThen
    (finish · h.settings.maxTicks)

end Host

end ChipEight
