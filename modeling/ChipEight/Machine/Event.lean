import ChipEight.Machine.Operation

/-!
# Events of a machine

The parts of a machine can also be used on their own: an instruction can be executed without the
timers, the timers can be updated without an instruction, and they can be reset by themselves.  An
event is one of these, or an operation on the whole machine.
-/

namespace ChipEight

inductive Event where
  | operation (operation : Operation)
  | cycle
  | updateTimers
  | resetTimers
  deriving DecidableEq

namespace Machine

def meet (m : Machine) (now : Nat) : Event → Machine
  | .operation operation => (m.operate now operation).2
  | .cycle => m.cycle.state
  | .updateTimers => m.updateTimers now
  | .resetTimers => { m with timers := m.timers.reset now }

def afterEvents (m : Machine) (history : List (Nat × Event)) : Machine :=
  history.foldl (fun m event => m.meet event.1 event.2) m

theorem afterEvents_concat (m : Machine) (history : List (Nat × Event)) (event : Nat × Event) :
    m.afterEvents (history ++ [event]) = (m.afterEvents history).meet event.1 event.2 := by
  unfold afterEvents
  rw [List.foldl_append]
  rfl

end Machine

end ChipEight
