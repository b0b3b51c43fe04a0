import ChipEight.Console

/-!
# Key events

What happens to the keys of a console over time is a row of events: commands are given and time
passes.  Time passes in pieces of any length, so commands come at any times that do not decrease.
-/

namespace ChipEight

inductive KeyEvent where
  | wait (elapsed : Nat)
  | give (command : KeyCommand)
  deriving DecidableEq

namespace KeyEvent

def elapsed : KeyEvent → Nat
  | .wait elapsed => elapsed
  | .give _ => 0

def duration : List KeyEvent → Nat
  | [] => 0
  | event :: rest => event.elapsed + duration rest

def issued (now : Nat) : List KeyEvent → List (Nat × KeyCommand)
  | [] => []
  | .wait elapsed :: rest => issued (now + elapsed) rest
  | .give command :: rest => (now, command) :: issued now rest

end KeyEvent

namespace Console

def meet (c : Console) : KeyEvent → Console
  | .wait elapsed => c.advance elapsed
  | .give command => c.command [command]

def afterKeys (c : Console) (events : List KeyEvent) : Console :=
  events.foldl meet c

end Console

end ChipEight
