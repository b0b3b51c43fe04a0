import ChipEight.Console

/-!
# Standard input

While the host runs, a reader takes the lines that the user types and has their commands carried
out.  It goes on until the input is closed or cannot be read, and then reports that there is no more
input.
-/

namespace ChipEight.CommandLine

/-- What comes after the text that was typed. -/
inductive Ending where
  /-- The input stays open and nothing more is typed. -/
  | waiting
  | closed
  /-- The input cannot be read any further. -/
  | failed (reason : String)
  deriving DecidableEq, Repr

def Ending.log : Ending → Log
  | .waiting => #[]
  | .closed => #[⟨.debug, .keys, "Stdin closed, no more key input"⟩]
  | .failed reason =>
      #[⟨.error, .keys, "Failed to read from stdin: " ++ reason⟩,
        ⟨.debug, .keys, "Stdin closed, no more key input"⟩]

structure Stdin where
  typed : List Char
  ending : Ending
  deriving DecidableEq, Repr

namespace Stdin

/-- The lines of a text, and what stands after the last end of a line. -/
def cut (typed : List Char) : List (List Char) × List Char :=
  let pieces := typed.splitOn '\n'
  (pieces.dropLast, pieces.getLastD [])

/-- The lines that are read.  A last line without an end is one once the input is closed, and is
lost when the input cannot be read any further. -/
def lines (s : Stdin) : List (List Char) :=
  let (ended, rest) := cut s.typed
  if s.ending = .closed ∧ rest ≠ [] then ended ++ [rest] else ended

end Stdin

def typeLines (console : Console) (lines : List (List Char)) : Console × Log :=
  lines.foldl (fun (c, log) text => (c.line text, log ++ KeyCommand.lineLog text)) (console, #[])

end ChipEight.CommandLine
