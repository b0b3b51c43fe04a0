import ChipEight.Host

/-!
# Transcripts

The transcript of a host is the text that it writes when its output never fails.  It is determined
by what the ticks show, each at most one frame and then at most one bell.  With a terminal every
frame moves the cursor home, and the first one clears the terminal before.
-/

namespace ChipEight

structure Showing where
  /-- The cells of the frame, if there is one. -/
  cells? : Option Screen.Cells
  bell : Bool
  deriving DecidableEq

namespace Showing

def hasFrame (s : Showing) : Bool :=
  s.cells?.isSome

def text (ansi first : Bool) (s : Showing) : List Char :=
  (match s.cells? with
    | some cells =>
        (if ansi then (if first then Frame.clearTerminal else []) ++ Frame.cursorHome else []) ++
          (Frame.lines cells).flatten
    | none => []) ++
    if s.bell then Frame.bell else []

/-- The text of what is shown one after the other.  Whether a frame is the first one ever is known
from the frames before. -/
def transcript (ansi : Bool) : Bool → List Showing → List Char
  | _, [] => []
  | first, s :: rest => s.text ansi first ++ transcript ansi (first && !s.hasFrame) rest

end Showing

namespace Host

/-- The part of a tick before anything is shown. -/
def counted (h : Host) : Attempt Host HostFault :=
  h.batch.andThen countDown

/-- What the machine asks its host to show. -/
def due (h : Host) : Showing :=
  ⟨if h.console.machine.screen.stale then some h.console.machine.screen.cells else none,
    h.console.machine.timers.beep⟩

/-- What a tick is to show.  A tick whose steps fail shows nothing. -/
def showing? (h : Host) : Option Showing :=
  match h.counted.fault with
  | some _ => none
  | none => some h.counted.state.due

/-- What a row of ticks shows, up to the first whose steps fail. -/
def showings (h : Host) : Nat → List Showing
  | 0 => []
  | n + 1 =>
      match h.showing? with
      | none => []
      | some s => s :: h.pacedTick.state.showings n

/-- A call of `run` some time after the last one. -/
def call (h : Host) (pause : Nat) : Attempt Host HostFault :=
  (h.advance pause).run

/-- The host after a row of calls.  A call that met a fault does not keep the next one from being
made. -/
def afterCalls (h : Host) (pauses : List Nat) : Host :=
  pauses.foldl (fun h pause => (h.call pause).state) h

def showingsOfCall (h : Host) (pause : Nat) : List Showing :=
  (h.advance pause).showings h.settings.tickBound

def showingsOfCalls (h : Host) : List Nat → List Showing
  | [] => []
  | pause :: rest => h.showingsOfCall pause ++ (h.call pause).state.showingsOfCalls rest

/-- What showing all this adds to the text that was written so far. -/
def textOf (h : Host) (shown : List Showing) : List Char :=
  Showing.transcript h.painter.ansi (!h.painter.started) shown

end Host

end ChipEight
