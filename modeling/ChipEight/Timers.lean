import ChipEight.Log

/-!
# Timers

The delay timer and the sound timer count down to zero.  Who makes them count is the timer mode:
every step, the time that passed, or the host.  A sound timer that counts down to zero leaves a beep
behind, which stays until it is taken.

Times are nanoseconds since some moment that does not matter.
-/

namespace ChipEight

inductive TimerMode where
  | perStep
  | realTime
  | external
  deriving DecidableEq, Repr

structure Timers where
  delay : UInt8
  sound : UInt8
  mode : TimerMode
  /-- Whether the sound timer ran out since the last beep was taken. -/
  beep : Bool
  /-- When the timers last counted down by time, or were made or reset. -/
  lastTick : Nat
  deriving DecidableEq, Repr

namespace Timers

/-- The time between two ticks in real time, a sixtieth of a second rounded down. -/
def period : Nat := 1000000000 / 60

def new (mode : TimerMode) (now : Nat) : Timers :=
  ⟨0, 0, mode, false, now⟩

def countDown (n : UInt8) : UInt8 :=
  if n = 0 then 0 else n - 1

def tick (t : Timers) : Timers :=
  { t with
    delay := countDown t.delay
    sound := countDown t.sound
    beep := t.beep || t.sound == 1 }

def tickLog (t : Timers) : Log :=
  if t.sound = 1 then #[⟨.debug, .timers, "Sound timer expired"⟩] else #[]

def due (t : Timers) (now : Nat) : Bool :=
  match t.mode with
  | .perStep => true
  | .realTime => period ≤ now - t.lastTick
  | .external => false

/-- Counts down if it is time to.  In real time the next period starts now. -/
def update (t : Timers) (now : Nat) : Timers :=
  if t.due now then
    { t.tick with lastTick := if t.mode = .realTime then now else t.lastTick }
  else t

theorem mode_update (t : Timers) (now : Nat) : (t.update now).mode = t.mode := by
  unfold update
  split <;> rfl

def updateLog (t : Timers) (now : Nat) : Log :=
  if t.due now then t.tickLog else #[]

def reset (t : Timers) (now : Nat) : Timers :=
  new t.mode now

def takeBeep (t : Timers) : Timers :=
  { t with beep := false }

end Timers

end ChipEight
