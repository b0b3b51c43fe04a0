import ChipEight.Host
import ChipEight.Machine.Operation

/-!
# Operations on a host

The owner of a host runs it, and between two runs does to its machine whatever can be done to a
machine, gives key commands and lets time pass.  Every run has an output with its own room; what the
runs write is one text.  A single tick of a run is an operation of its own, so that a history may
end in the middle of a run.
-/

namespace ChipEight

inductive HostOperation where
  | run (room : Option Nat)
  | tick (room : Option Nat)
  | machine (operation : Operation)
  | command (commands : List KeyCommand)
  | wait (elapsed : Nat)
  deriving DecidableEq

namespace Host

/-- The host with an output that goes on after the text so far and has this much room. -/
def onto (h : Host) (room : Option Nat) : Host :=
  { h with output := { h.output with room } }

def operate (h : Host) : HostOperation → Host
  | .run room => (h.onto room).run.state
  | .tick room => (h.onto room).pacedTick.state
  | .machine operation =>
      let c := h.console
      { h with console := { c with machine := (c.machine.operate c.now operation).2 } }
  | .command commands => { h with console := h.console.command commands }
  | .wait elapsed => h.advance elapsed

def after (h : Host) (history : List HostOperation) : Host :=
  history.foldl operate h

end Host

end ChipEight
