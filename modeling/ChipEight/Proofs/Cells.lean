import ChipEight.Screen

/-!
# Cells of a screen

The cells of a screen are its pixels in one row of bytes.  They are zeros and ones, and every pixel
has its place among them.
-/

namespace ChipEight

namespace Screen

theorem get_cells (s : Screen) (i : Fin (width * height)) :
    s.cells.get i = if s.lit (i.val % width) (i.val / width) then 1 else 0 := by
  change (Vector.ofFn _)[i.val] = _
  rw [Vector.getElem_ofFn]

theorem get_cells_eq_zero_or_one (s : Screen) (i : Fin (width * height)) :
    s.cells.get i = 0 ∨ s.cells.get i = 1 := by
  rw [get_cells]
  split
  · exact Or.inr rfl
  · exact Or.inl rfl

/-- The place of a pixel among the cells of a screen; coordinates wrap. -/
def place (x y : Nat) : Nat :=
  x % width + width * (y % height)

theorem place_lt (x y : Nat) : place x y < width * height := by
  have hx : x % width < width := Nat.mod_lt _ (by decide)
  have hy : y % height < height := Nat.mod_lt _ (by decide)
  simp only [place, width, height] at *
  omega

/-- The cell of a pixel; coordinates wrap. -/
def cell (s : Screen) (x y : Nat) : UInt8 :=
  s.cells.get ⟨place x y, place_lt x y⟩

theorem get_cells_place (s : Screen) (x y : Nat) :
    s.cells.get ⟨place x y, place_lt x y⟩ = if s.lit x y then 1 else 0 := by
  have hcolumn : place x y % width = x % width := by
    simp only [place, width]
    omega
  have hrow : place x y / width = y % height := by
    simp only [place, width]
    omega
  rw [get_cells]
  simp only [hcolumn, hrow, lit, row, Nat.mod_mod]
  rfl

end Screen

end ChipEight
