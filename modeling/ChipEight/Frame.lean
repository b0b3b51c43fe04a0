import ChipEight.Output
import ChipEight.Screen

/-!
# Frames

A frame shows the cells of a screen as lines of text.  On a terminal frames are painted over each
other: the first one clears the terminal, and every one starts by moving the cursor home.
-/

namespace ChipEight

namespace Frame

/-- The mark of a cell.  Only the value one counts as lit. -/
def mark (cell : UInt8) : Char :=
  if cell = 1 then '#' else ' '

def line (cells : Screen.Cells) (y : Fin Screen.height) : List Char :=
  (List.finRange Screen.width).map (fun x =>
    mark (cells.get ⟨Screen.width * y.val + x.val, by
      have hx := x.isLt
      have hy := y.isLt
      simp only [Screen.width, Screen.height] at *
      omega⟩)) ++ ['\n']

def lines (cells : Screen.Cells) : List (List Char) :=
  (List.finRange Screen.height).map (line cells)

def clearTerminal : List Char := ['\x1b', '[', '2', 'J']

def cursorHome : List Char := ['\x1b', '[', 'H']

def bell : List Char := ['\x07']

end Frame

structure Painter where
  ansi : Bool
  /-- Whether the header of some frame was written whole. -/
  started : Bool
  deriving DecidableEq, Repr

namespace Painter

def new (ansi : Bool) : Painter :=
  ⟨ansi, false⟩

def header (p : Painter) : List (List Char) :=
  if p.ansi then
    (if p.started then [] else [Frame.clearTerminal]) ++ [Frame.cursorHome]
  else []

def paint (p : Painter) (cells : Screen.Cells) (o : Output) : Painter × Output × Bool :=
  match o.writeAll p.header with
  | (out, false) => (p, out, false)
  | (out, true) => ({ p with started := true }, out.writeAll (Frame.lines cells))

end Painter

end ChipEight
