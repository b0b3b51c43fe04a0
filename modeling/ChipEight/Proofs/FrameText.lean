import ChipEight.Frame
import ChipEight.Proofs.Cells

/-!
# Reading frames back

A frame is a text of a fixed size in which every mark and every end of a line has its place.
Reading takes the marks from their places and is exact on whatever was painted.  In a longer text
the last frame is the one that starts last.
-/

namespace ChipEight

namespace Frame

def textSize : Nat := (Screen.width + 1) * Screen.height

def allowed (place : Nat) (c : Char) : Bool :=
  if place % (Screen.width + 1) = Screen.width then c == '\n' else c == '#' || c == ' '

def isFrame (text : List Char) : Bool :=
  text.length == textSize && text.zipIdx.all fun (c, place) => allowed place c

def value (c : Char) : UInt8 :=
  if c = '#' then 1 else 0

/-- The cells that a text shows if it is a frame.  Every row of cells is followed by the end of its
line, which shifts the cells below by one more place. -/
def read? (text : List Char) : Option Screen.Cells :=
  if isFrame text then
    some (Vector.ofFn fun i => value (text.getD (i.val + i.val / Screen.width) ' '))
  else none

def last? : List Char → Option Screen.Cells
  | [] => none
  | c :: rest =>
      match last? rest with
      | some cells => some cells
      | none => read? ((c :: rest).take textSize)

/-! ## Places of a frame -/

theorem getElem?_flatten_of_length {α : Type} {n : Nat} (hn : 0 < n)
    {pieces : List (List α)} (hlength : ∀ piece ∈ pieces, piece.length = n) (place : Nat) :
    pieces.flatten[place]? = (pieces[place / n]?).bind (·[place % n]?) := by
  induction pieces generalizing place with
  | nil => simp
  | cons piece rest ih =>
      have hpiece : piece.length = n := hlength piece List.mem_cons_self
      rw [List.flatten_cons]
      by_cases hlt : place < n
      · rw [List.getElem?_append_left (by omega), Nat.div_eq_of_lt hlt, Nat.mod_eq_of_lt hlt]
        rfl
      · have hdiv : place / n = (place - n) / n + 1 := by
          rw [← Nat.add_div_right _ hn, Nat.sub_add_cancel (by omega)]
        have hmod : place % n = (place - n) % n := by
          rw [← Nat.mod_eq_sub_mod (by omega)]
        rw [List.getElem?_append_right (by omega), hpiece,
          ih (fun piece hmem => hlength piece (List.mem_cons_of_mem _ hmem)), hdiv, hmod]
        rfl

theorem length_line (cells : Screen.Cells) (y : Fin Screen.height) :
    (line cells y).length = Screen.width + 1 := by
  simp [line]

theorem length_flatten_lines (cells : Screen.Cells) :
    (lines cells).flatten.length = textSize := by
  have hlength : ∀ piece ∈ lines cells, piece.length = Screen.width + 1 := by
    intro piece hmem
    obtain ⟨y, -, rfl⟩ := List.mem_map.mp hmem
    exact length_line cells y
  rw [List.length_flatten, List.map_congr_left hlength, List.map_const',
    List.sum_replicate_nat, textSize]
  simp [lines, Nat.mul_comm]

theorem getElem?_flatten_lines (cells : Screen.Cells) (y : Fin Screen.height) {x : Nat}
    (hx : x < Screen.width + 1) :
    (lines cells).flatten[(Screen.width + 1) * y.val + x]? = (line cells y)[x]? := by
  have hlength : ∀ piece ∈ lines cells, piece.length = Screen.width + 1 := by
    intro piece hmem
    obtain ⟨z, -, rfl⟩ := List.mem_map.mp hmem
    exact length_line cells z
  have hdiv : ((Screen.width + 1) * y.val + x) / (Screen.width + 1) = y.val := by
    rw [Nat.mul_add_div (by decide), Nat.div_eq_of_lt hx, Nat.add_zero]
  have hmod : ((Screen.width + 1) * y.val + x) % (Screen.width + 1) = x := by
    rw [Nat.mul_add_mod, Nat.mod_eq_of_lt hx]
  rw [getElem?_flatten_of_length (by decide) hlength, hdiv, hmod]
  simp [lines]

theorem getElem?_line_of_lt (cells : Screen.Cells) (y : Fin Screen.height) {x : Nat}
    (hx : x < Screen.width) (hplace : Screen.width * y.val + x < Screen.width * Screen.height) :
    (line cells y)[x]? = some (mark (cells.get ⟨Screen.width * y.val + x, hplace⟩)) := by
  unfold line
  rw [List.getElem?_append_left (by simpa using hx)]
  simp [hx]

theorem getElem?_line_width (cells : Screen.Cells) (y : Fin Screen.height) :
    (line cells y)[Screen.width]? = some '\n' := by
  unfold line
  rw [List.getElem?_append_right (by simp)]
  simp

theorem isFrame_flatten_lines (cells : Screen.Cells) : isFrame (lines cells).flatten = true := by
  unfold isFrame
  rw [length_flatten_lines, beq_self_eq_true, Bool.true_and, List.all_eq_true]
  rintro ⟨c, place⟩ hmem
  have hat : (lines cells).flatten[place]? = some c := by
    simpa using List.mem_zipIdx_iff_getElem?.mp hmem
  have hlt : place < textSize := by
    rw [← length_flatten_lines cells]
    exact (List.getElem?_eq_some_iff.mp hat).1
  simp only [textSize, Screen.width, Screen.height] at hlt
  have hmod : place % 65 < 65 := Nat.mod_lt _ (by decide)
  let y : Fin Screen.height := ⟨place / 65, by simp only [Screen.height]; omega⟩
  have hsplit : place = (Screen.width + 1) * y.val + place % 65 := (Nat.div_add_mod place 65).symm
  rw [hsplit, getElem?_flatten_lines cells y hmod] at hat
  change allowed place c = true
  unfold allowed
  by_cases hend : place % 65 = 64
  · rw [hend] at hat
    have hc := (getElem?_line_width cells y).symm.trans hat
    rw [if_pos hend]
    simpa using hc.symm
  · have hx : place % 65 < 64 := by omega
    have hc := (getElem?_line_of_lt cells y hx (by
      have hy := y.isLt
      simp only [Screen.width, Screen.height] at *
      omega)).symm.trans hat
    rw [if_neg hend]
    rw [Option.some.injEq] at hc
    rw [← hc]
    unfold mark
    split <;> simp

theorem value_mark (cell : UInt8) : value (mark cell) = if cell = 1 then 1 else 0 := by
  unfold value mark
  split <;> simp

theorem getElem?_flatten_lines_mark (cells : Screen.Cells)
    (i : Fin (Screen.width * Screen.height)) :
    (lines cells).flatten[i.val + i.val / Screen.width]? = some (mark (cells.get i)) := by
  have hi := i.isLt
  simp only [Screen.width, Screen.height] at hi
  let y : Fin Screen.height := ⟨i.val / 64, by simp only [Screen.height]; omega⟩
  have hx : i.val % 64 < 64 := Nat.mod_lt _ (by decide)
  have hsplit : i.val + i.val / 64 = (Screen.width + 1) * y.val + i.val % 64 := by
    change i.val + i.val / 64 = 65 * (i.val / 64) + i.val % 64
    omega
  have hplace : Screen.width * y.val + i.val % 64 = i.val := Nat.div_add_mod i.val 64
  rw [hsplit, getElem?_flatten_lines cells y (by simp only [Screen.width]; omega),
    getElem?_line_of_lt cells y hx (by rw [hplace]; exact i.isLt)]
  simp only [hplace]

theorem read?_flatten_lines (cells : Screen.Cells) :
    read? (lines cells).flatten =
      some (Vector.ofFn fun i => if cells.get i = 1 then 1 else 0) := by
  unfold read?
  rw [if_pos (isFrame_flatten_lines cells)]
  congr 2
  funext i
  rw [List.getD_eq_getElem?_getD, getElem?_flatten_lines_mark, Option.getD_some, value_mark]

theorem read?_flatten_lines_cells (screen : Screen) :
    read? (lines screen.cells).flatten = some screen.cells := by
  rw [read?_flatten_lines]
  refine congrArg some (congrArg Vector.ofFn (funext fun i => ?_))
  rw [Screen.get_cells]
  split <;> rfl

/-! ## The last frame of a text -/

theorem isFrame_of_read? {text : List Char} {cells : Screen.Cells}
    (hread : read? text = some cells) :
    isFrame text = true := by
  unfold read? at hread
  split at hread
  next hframe => exact hframe
  next => cases hread

theorem length_of_isFrame {text : List Char} (hframe : isFrame text = true) :
    text.length = textSize := by
  unfold isFrame at hframe
  rw [Bool.and_eq_true] at hframe
  exact eq_of_beq hframe.1

theorem getElem?_of_isFrame {text : List Char} (hframe : isFrame text = true) :
    text[textSize - 1]? = some '\n' := by
  have hlength := length_of_isFrame hframe
  have hlast : textSize - 1 < text.length := by
    rw [hlength]
    decide
  unfold isFrame at hframe
  rw [Bool.and_eq_true, List.all_eq_true] at hframe
  have hallowed := hframe.2 (text[textSize - 1], textSize - 1)
    (List.mem_zipIdx_iff_getElem?.mpr (List.getElem?_eq_getElem hlast))
  have hend : (textSize - 1) % (Screen.width + 1) = Screen.width := by decide
  change allowed (textSize - 1) text[textSize - 1] = true at hallowed
  unfold allowed at hallowed
  rw [if_pos hend] at hallowed
  rw [List.getElem?_eq_getElem hlast, eq_of_beq hallowed]

theorem newline_mem_of_last? {text : List Char} {cells : Screen.Cells}
    (hlast : last? text = some cells) :
    '\n' ∈ text.drop (textSize - 1) := by
  induction text with
  | nil => cases hlast
  | cons c rest ih =>
      unfold last? at hlast
      split at hlast
      next found hfound =>
        cases hlast
        have hmem := ih hfound
        have hdrop : rest.drop (textSize - 1) = ((c :: rest).drop (textSize - 1)).drop 1 := by
          rw [List.drop_drop]
          rfl
        rw [hdrop] at hmem
        exact List.mem_of_mem_drop hmem
      next =>
        have hnewline := getElem?_of_isFrame (isFrame_of_read? hlast)
        rw [List.getElem?_take_of_lt (by decide)] at hnewline
        rw [List.mem_iff_getElem?]
        exact ⟨0, by rw [List.getElem?_drop, Nat.add_zero]; exact hnewline⟩

/-- Behind a frame a text without newlines holds no other frame, and what stands before a frame does
not matter. -/
theorem last?_append {frame after : List Char} {cells : Screen.Cells} (before : List Char)
    (hread : read? frame = some cells) (hafter : '\n' ∉ after) :
    last? (before ++ (frame ++ after)) = some cells := by
  have hlength := length_of_isFrame (isFrame_of_read? hread)
  induction before with
  | cons c before ih =>
      rw [List.cons_append, last?, ih]
  | nil =>
      cases frame with
      | nil => cases hlength
      | cons c frame =>
          have hrest : last? (frame ++ after) = none := by
            cases hlast : last? (frame ++ after) with
            | none => rfl
            | some later =>
                have hmem := newline_mem_of_last? hlast
                have hsize : frame.length = textSize - 1 := by
                  rw [← hlength, List.length_cons, Nat.add_sub_cancel]
                rw [← hsize, List.drop_left] at hmem
                exact absurd hmem hafter
          rw [List.nil_append, List.cons_append, last?, hrest, ← List.cons_append, ← hlength,
            List.take_left]
          exact hread

end Frame

end ChipEight
