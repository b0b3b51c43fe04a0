import ChipEight.Keypad
import ChipEight.Text.Blank
import ChipEight.Text.Quoted

/-!
# Key commands

A user without a keypad types words.  A word is the name of a key, which taps it, or a sign and the
name, which holds the key down or lets it go.  The names are the keys of a keyboard's left hand,
laid out like the keypad:

    1 2 3 4        1 2 3 C
    q w e r   for  4 5 6 D
    a s d f        7 8 9 E
    z x c v        A 0 B F

Only ASCII letters may be written in either case; every other spelling is no name.
-/

namespace ChipEight

inductive KeyAction where
  /-- `+name` holds the key down. -/
  | press
  /-- `-name` lets the key go. -/
  | release
  /-- `name` holds the key down for a moment. -/
  | tap
  deriving DecidableEq, Repr

structure KeyCommand where
  action : KeyAction
  code : UInt8
  deriving DecidableEq, Repr

def KeyAction.name : KeyAction → String
  | .press => "Press"
  | .release => "Release"
  | .tap => "Tap"

namespace KeyCommand

def keyNames : List (Char × UInt8) :=
  [('1', 0x1), ('2', 0x2), ('3', 0x3), ('4', 0xC),
   ('q', 0x4), ('w', 0x5), ('e', 0x6), ('r', 0xD),
   ('a', 0x7), ('s', 0x8), ('d', 0x9), ('f', 0xE),
   ('z', 0xA), ('x', 0x0), ('c', 0xB), ('v', 0xF)]

def keyCode? : List Char → Option UInt8
  | [c] => keyNames.lookup c.toLower
  | _ => none

def parse? (word : List Char) : Option KeyCommand :=
  match word with
  | '+' :: name => (keyCode? name).map (⟨.press, ·⟩)
  | '-' :: name => (keyCode? name).map (⟨.release, ·⟩)
  | name => (keyCode? name).map (⟨.tap, ·⟩)

/-- What the keypad reports when the command is carried out. -/
def log (command : KeyCommand) : Log :=
  Keypad.setLog command.code

def wordLog (word : List Char) : Log :=
  match parse? word with
  | some command =>
      #[⟨.debug, .keys, s!"Key command {command.action.name}({command.code})"⟩] ++ command.log
  | none => #[⟨.debug, .keys, "Ignoring unknown key " ++ Text.quoted word⟩]

/-- The commands of a line, in order.  Words that are no command are left out. -/
def ofLine (line : List Char) : List KeyCommand :=
  (Text.words line).filterMap parse?

def lineLog (line : List Char) : Log :=
  (Text.words line).foldl (fun log word => log ++ wordLog word) #[]

end KeyCommand

end ChipEight
