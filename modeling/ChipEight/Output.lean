/-!
# Output with limited room

An output takes text piece by piece.  It may have room for so many characters and no more: of a
piece that does not fit it takes what fits, and the writer is told.  All text that the host writes
is ASCII, so characters and bytes are the same.
-/

namespace ChipEight

structure Output where
  written : Array Char
  room : Option Nat
  deriving DecidableEq

namespace Output

def new (room : Option Nat) : Output :=
  ⟨#[], room⟩

def text (o : Output) : String :=
  String.ofList o.written.toList

/-- Takes a piece, or as much of it as fits, and tells whether it was the whole piece. -/
def write (o : Output) (piece : List Char) : Output × Bool :=
  match o.room with
  | none => (⟨o.written ++ piece, none⟩, true)
  | some room =>
      (⟨o.written ++ piece.take room, some (room - piece.length)⟩, piece.length ≤ room)

def writeAll (o : Output) : List (List Char) → Output × Bool
  | [] => (o, true)
  | piece :: rest =>
      match o.write piece with
      | (next, true) => next.writeAll rest
      | (next, false) => (next, false)

theorem writeAll_eq_write_flatten (o : Output) (pieces : List (List Char)) :
    o.writeAll pieces = o.write pieces.flatten := by
  induction pieces generalizing o with
  | nil =>
      obtain ⟨written, room⟩ := o
      cases room <;> simp [writeAll, write]
  | cons piece rest ih =>
      obtain ⟨written, room⟩ := o
      cases room with
      | none =>
          simp only [writeAll, write, ih, List.flatten_cons]
          simp [← Array.toList_inj]
      | some n =>
          by_cases h : piece.length ≤ n
          · simp only [writeAll, write, h, decide_true, ih, List.flatten_cons, List.take_append,
              List.length_append]
            simp [List.take_of_length_le h, Nat.sub_sub, ← Array.toList_inj]
            omega
          · simp only [writeAll, write, h, decide_false, List.flatten_cons, List.take_append,
              List.length_append]
            simp [show n - piece.length = 0 by omega]
            omega

def fullMessage : String := "output is full"

end Output

end ChipEight
