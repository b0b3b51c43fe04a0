import ChipEight.Machine.Step

/-!
# Operations on a machine

Everything that the owner of a machine can do to it is one of nine operations.  An operation takes
place at a moment, has a reply and may report something.  A history is a row of operations with
their moments; operations that fail are part of it and what comes after them takes place all the
same.
-/

namespace ChipEight

inductive Operation where
  | load (program : Program)
  | step
  | reset
  | resetAndLoad (program : Program)
  | setKey (code : UInt8) (pressed : Bool)
  | tickTimers
  | takeBeep
  | setSound (value : UInt8)
  | acknowledgeScreen
  deriving DecidableEq

inductive Reply where
  | done
  | beep (pending : Bool)
  | notLoaded (error : LoadError)
  | stopped (fault : Fault)
  deriving DecidableEq

namespace Machine

def operate (m : Machine) (now : Nat) : Operation → Reply × Machine
  | .load program =>
      let a := m.load program
      (a.fault.elim .done .notLoaded, a.state)
  | .step =>
      let a := m.step now
      (a.fault.elim .done .stopped, a.state)
  | .reset => (.done, m.reset now)
  | .resetAndLoad program =>
      let a := m.resetAndLoad now program
      (a.fault.elim .done .notLoaded, a.state)
  | .setKey code pressed => (.done, m.setKey code pressed)
  | .tickTimers => (.done, m.tickTimers)
  | .takeBeep => (.beep m.timers.beep, m.takeBeep)
  | .setSound value => (.done, m.setSound value)
  | .acknowledgeScreen => (.done, m.acknowledgeScreen)

/-- What an operation reports. -/
def operationLog (m : Machine) (now : Nat) : Operation → Log
  | .load program => (m.load program).log
  | .step => (m.step now).log
  | .resetAndLoad program => (m.resetAndLoad now program).log
  | .setKey code _ => Keypad.setLog code
  | .tickTimers => m.timers.tickLog
  | .reset | .takeBeep | .setSound _ | .acknowledgeScreen => #[]

/-- A key that is reported to be unknown is left alone. -/
theorem operate_of_unknown_key {m : Machine} {now : Nat} {code : UInt8} {pressed : Bool}
    (hlog : m.operationLog now (.setKey code pressed) ≠ #[]) :
    m.operate now (.setKey code pressed) = (.done, m) := by
  change (Reply.done, { m with keypad := m.keypad.set code pressed }) = _
  rw [Keypad.set_eq_self_of_setLog hlog]

def after (m : Machine) (history : List (Nat × Operation)) : Machine :=
  history.foldl (fun m event => (m.operate event.1 event.2).2) m

theorem after_concat (m : Machine) (history : List (Nat × Operation)) (event : Nat × Operation) :
    m.after (history ++ [event]) = ((m.after history).operate event.1 event.2).2 := by
  unfold after
  rw [List.foldl_append]
  rfl

def afterSteps (m : Machine) (moments : List Nat) : Machine :=
  moments.foldl (fun m now => (m.step now).state) m

end Machine

end ChipEight
