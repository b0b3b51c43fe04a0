import ChipEight.Proofs.Cells
import Mathlib.Algebra.BigOperators.Group.Finset.Piecewise
import Mathlib.Algebra.BigOperators.Group.Finset.Sigma
import Mathlib.Data.List.GetD
import Mathlib.Data.Nat.Bits

/-!
# Drawing, pixel by pixel

A sprite flips a pixel once for every set bit that falls on it.  Whether a drawing leaves a pixel
changed is therefore a matter of parity, while the collision asks for more: it sees every moment at
which a lit pixel is flipped, so a pixel that is hit twice collides whatever it was before.  A sprite
of more rows than the screen has comes round to rows that it has flipped already, which is why the
set bits are counted and not only collected.
-/

namespace ChipEight

namespace Screen

/-- How many set bits of a sprite fall on a pixel when its top left corner is at a point: pairs of a
row and of a bit, counted from the most significant. -/
def hits (x y : Nat) (sprite : List UInt8) (column row : Nat) : Nat :=
  ((Finset.range sprite.length ×ˢ Finset.range 8).filter fun place =>
    (sprite.getD place.1 0).toBitVec.getMsbD place.2 = true ∧
      (x + place.2) % width = column ∧ (y + place.1) % height = row).card

/-! ## Counting -/

theorem hits_eq_sum (x y : Nat) (sprite : List UInt8) (column row : Nat) :
    hits x y sprite column row =
      ∑ r ∈ Finset.range sprite.length, ∑ b ∈ Finset.range 8,
        if (sprite.getD r 0).toBitVec.getMsbD b = true ∧
          (x + b) % width = column ∧ (y + r) % height = row then 1 else 0 := by
  unfold hits
  rw [Finset.card_filter, Finset.sum_product]

theorem hits_append (x y : Nat) (upper lower : List UInt8) (column row : Nat) :
    hits x y (upper ++ lower) column row =
      hits x y upper column row + hits x (y + upper.length) lower column row := by
  simp only [hits_eq_sum]
  rw [List.length_append, Finset.sum_range_add]
  apply congrArg₂ (· + ·)
  · apply Finset.sum_congr rfl
    intro r hr
    rw [List.getD_append _ _ _ _ (Finset.mem_range.mp hr)]
  · apply Finset.sum_congr rfl
    intro r hr
    rw [List.getD_append_right _ _ _ _ (Nat.le_add_right _ _), Nat.add_sub_cancel_left,
      Nat.add_assoc]

theorem hits_congr (x : Nat) {y z : Nat} (hy : y % height = z % height) (sprite : List UInt8)
    (column row : Nat) :
    hits x y sprite column row = hits x z sprite column row := by
  have hrow : ∀ r, (y + r) % height = (z + r) % height := by
    intro r
    rw [Nat.add_mod, hy, ← Nat.add_mod]
  unfold hits
  simp only [hrow]

/-- A sprite of one row hits no pixel twice, since it is narrower than the screen. -/
theorem hits_singleton (x y : Nat) (bits : UInt8) {column : Nat} (hcolumn : column < width)
    (row : Nat) :
    hits x y [bits] column row =
      if row = y % height ∧ (spread x bits).getMsbD column = true then 1 else 0 := by
  rw [hits_eq_sum, getMsbD_spread x column bits hcolumn, List.length_singleton,
    Finset.sum_range_one]
  simp only [List.getD_cons_zero, Nat.add_zero]
  by_cases hrow : row = y % height
  · -- the one bit of the row that can fall on the pixel
    generalize hbit : (column + width - x % width) % width = bit
    have hterm : ∀ b ∈ Finset.range 8,
        (if bits.toBitVec.getMsbD b = true ∧ (x + b) % width = column ∧ y % height = row
          then 1 else 0) =
        if bit = b then (if bits.toBitVec.getMsbD bit = true then 1 else 0) else 0 := by
      intro b hb
      have hplace : (x + b) % width = column ↔ bit = b := by
        have hb8 := Finset.mem_range.mp hb
        simp only [width] at *
        omega
      by_cases heq : bit = b
      · subst heq
        simp [hplace, hrow]
      · simp [hplace, heq]
    rw [Finset.sum_congr rfl hterm, Finset.sum_ite_eq]
    by_cases hlt : bit < 8
    · simp [hlt, hrow]
    · have hclear : bits.toBitVec.getMsbD bit = false :=
        BitVec.getMsbD_of_ge _ _ (Nat.le_of_not_lt hlt)
      simp [hclear]
  · rw [if_neg fun h => hrow h.1]
    apply Finset.sum_eq_zero
    intro b _
    rw [if_neg fun h => hrow h.2.2.symm]

/-! ## One row -/

theorem lit_mod (s : Screen) (column row : Nat) :
    s.lit (column % width) (row % height) = s.lit column row := by
  unfold lit Screen.row
  simp only [Nat.mod_mod]

theorem lit_of_lt (s : Screen) {column : Nat} (hcolumn : column < width) (row : Nat) :
    s.lit column row = (s.row row).getMsbD column := by
  unfold lit
  rw [Nat.mod_eq_of_lt hcolumn]

theorem row_mod (s : Screen) (row : Nat) : s.row (row % height) = s.row row := by
  unfold Screen.row
  simp only [Nat.mod_mod]

theorem ne_zero_iff_exists_getMsbD (word : BitVec width) :
    word ≠ 0 ↔ ∃ column < width, word.getMsbD column = true := by
  constructor
  · intro hne
    by_contra hnone
    apply hne
    apply BitVec.eq_of_getMsbD_eq
    intro column hcolumn
    have hclear : word.getMsbD column = false := by
      rw [Bool.eq_false_iff]
      exact fun hset => hnone ⟨column, hcolumn, hset⟩
    simp [hclear]
  · rintro ⟨column, -, hset⟩ rfl
    simp at hset

theorem lit_flipRow (s : Screen) (x y : Nat) (bits : UInt8) {column row : Nat}
    (hcolumn : column < width) (hrow : row < height) :
    (s.flipRow x y bits).lit column row =
      (s.lit column row ^^ (hits x y [bits] column row).bodd) := by
  rw [lit_of_lt _ hcolumn, lit_of_lt _ hcolumn, row_flipRow, hits_singleton x y bits hcolumn,
    Nat.mod_eq_of_lt hrow]
  by_cases hsame : row = y % height
  · rw [if_pos hsame, BitVec.getMsbD_xor]
    cases (spread x bits).getMsbD column <;> simp [hsame]
  · simp [hsame]

/-! ## Collisions -/

/-- Whether a pixel collides that is hit so many times: some hit finds it lit. -/
def Collides (before : Bool) (count : Nat) : Prop :=
  1 ≤ count ∧ before = true ∨ 2 ≤ count

/-- Whether some pixel of a screen collides, each hit as often as the count says. -/
def Collision (s : Screen) (count : Nat → Nat → Nat) : Prop :=
  ∃ column < width, ∃ row < height, Collides (s.lit column row) (count column row)

theorem collides_add (before : Bool) (first second : Nat) :
    Collides before (first + second) ↔
      Collides before first ∨ Collides (before ^^ first.bodd) second := by
  unfold Collides
  obtain rfl | rfl | hmany : first = 0 ∨ first = 1 ∨ 2 ≤ first := by omega
  · simp
  · cases before <;> simp
    omega
  · constructor
    · exact fun _ => Or.inl (Or.inr hmany)
    · exact fun _ => Or.inr (by omega)

/-- What the second of two drawings finds lit is what the first one left, so a pixel that both hit
collides in one of them exactly if it collides under the sum of the hits. -/
theorem collision_add {s t : Screen} {first second : Nat → Nat → Nat}
    (hlit : ∀ column < width, ∀ row < height,
      t.lit column row = (s.lit column row ^^ (first column row).bodd)) :
    s.Collision (fun column row => first column row + second column row) ↔
      s.Collision first ∨ t.Collision second := by
  constructor
  · rintro ⟨column, hcolumn, row, hrow, hcollides⟩
    rw [collides_add, ← hlit column hcolumn row hrow] at hcollides
    cases hcollides with
    | inl hfirst => exact Or.inl ⟨column, hcolumn, row, hrow, hfirst⟩
    | inr hsecond => exact Or.inr ⟨column, hcolumn, row, hrow, hsecond⟩
  · rintro (⟨column, hcolumn, row, hrow, hfirst⟩ | ⟨column, hcolumn, row, hrow, hsecond⟩)
    · exact ⟨column, hcolumn, row, hrow, (collides_add _ _ _).mpr (Or.inl hfirst)⟩
    · rw [hlit column hcolumn row hrow] at hsecond
      exact ⟨column, hcolumn, row, hrow, (collides_add _ _ _).mpr (Or.inr hsecond)⟩

theorem collides_iff (s : Screen) (x y : Nat) (bits : UInt8) :
    s.collides x y bits = true ↔ s.Collision (hits x y [bits]) := by
  unfold collides
  rw [bne_iff_ne, ne_zero_iff_exists_getMsbD]
  constructor
  · rintro ⟨column, hcolumn, hboth⟩
    rw [BitVec.getMsbD_and, Bool.and_eq_true] at hboth
    refine ⟨column, hcolumn, y % height, Nat.mod_lt _ (by decide), Or.inl ⟨?_, ?_⟩⟩
    · simp [hits_singleton x y bits hcolumn, hboth.2]
    · rw [lit_of_lt _ hcolumn, row_mod]
      exact hboth.1
  · rintro ⟨column, hcolumn, row, hrow, hcollides⟩
    unfold Collides at hcollides
    rw [hits_singleton x y bits hcolumn, lit_of_lt _ hcolumn] at hcollides
    split at hcollides
    next hset =>
      have hlit : (s.row row).getMsbD column = true := by simpa using hcollides
      rw [hset.1, row_mod] at hlit
      refine ⟨column, hcolumn, ?_⟩
      rw [BitVec.getMsbD_and, hlit, hset.2]
      rfl
    next => omega

/-! ## A whole sprite -/

theorem hits_cons (x y : Nat) (bits : UInt8) (rest : List UInt8) (column row : Nat) :
    hits x y (bits :: rest) column row =
      hits x y [bits] column row + hits x (y + 1) rest column row :=
  hits_append x y [bits] rest column row

theorem lit_flip (s : Screen) (x y : Nat) (sprite : List UInt8) {column row : Nat}
    (hcolumn : column < width) (hrow : row < height) :
    (s.flip x y sprite).2.lit column row =
      (s.lit column row ^^ (hits x y sprite column row).bodd) := by
  induction sprite generalizing s y with
  | nil => simp [flip, hits]
  | cons bits rest ih =>
      rw [hits_cons, Nat.bodd_add, ← Bool.xor_assoc, ← lit_flipRow s x y bits hcolumn hrow]
      exact ih (s.flipRow x y bits) (y + 1)

theorem flip_fst_iff (s : Screen) (x y : Nat) (sprite : List UInt8) :
    (s.flip x y sprite).1 = true ↔ s.Collision (hits x y sprite) := by
  induction sprite generalizing s y with
  | nil => simp [flip, hits, Collision, Collides]
  | cons bits rest ih =>
      have hflip : (s.flip x y (bits :: rest)).1 =
          (s.collides x y bits || ((s.flipRow x y bits).flip x (y + 1) rest).1) := rfl
      have hlit : ∀ column < width, ∀ row < height, (s.flipRow x y bits).lit column row =
          (s.lit column row ^^ (hits x y [bits] column row).bodd) :=
        fun _ hcolumn _ hrow => s.lit_flipRow x y bits hcolumn hrow
      rw [hflip, Bool.or_eq_true, collides_iff, ih, ← collision_add hlit]
      unfold Collision
      simp only [hits_cons x y bits rest]

theorem lit_draw (s : Screen) (x y : UInt8) (sprite : List UInt8) {column row : Nat}
    (hcolumn : column < width) (hrow : row < height) :
    (s.draw x y sprite).2.lit column row =
      (s.lit column row ^^ (hits x.toNat y.toNat sprite column row).bodd) :=
  s.lit_flip x.toNat y.toNat sprite hcolumn hrow

theorem draw_fst_iff (s : Screen) (x y : UInt8) (sprite : List UInt8) :
    (s.draw x y sprite).1 = true ↔ s.Collision (hits x.toNat y.toNat sprite) :=
  s.flip_fst_iff x.toNat y.toNat sprite

/-! ## Cells -/

theorem cell_eq (s : Screen) (column row : Nat) :
    s.cell column row = if s.lit column row then 1 else 0 :=
  s.get_cells_place column row

theorem lit_iff_cell (s : Screen) (column row : Nat) :
    s.lit column row = true ↔ s.cell column row = 1 := by
  rw [cell_eq]
  cases s.lit column row <;> simp

theorem cell_draw (s : Screen) (x y : UInt8) (sprite : List UInt8) {column row : Nat}
    (hcolumn : column < width) (hrow : row < height) :
    (s.draw x y sprite).2.cell column row =
      s.cell column row ^^^ UInt8.ofNat (hits x.toNat y.toNat sprite column row % 2) := by
  rw [cell_eq, cell_eq, lit_draw s x y sprite hcolumn hrow, Nat.mod_two_of_bodd]
  cases s.lit column row <;>
    cases (hits x.toNat y.toNat sprite column row).bodd <;> rfl

/-! ## The theorem -/

/-- Drawing a sprite flips every pixel as often as set bits of the sprite fall on it, coordinates
wrapping in both directions.  It collides exactly if some pixel was lit and is hit, or is hit twice.
The cells stay zeros and ones, a pixel is lit where its cell is one, and the screen is stale. -/
theorem draw_flips_hit_pixels (s : Screen) (x y : UInt8) (sprite : List UInt8) :
    let count := hits x.toNat y.toNat sprite
    let collision := (s.draw x y sprite).1
    let drawn := (s.draw x y sprite).2
    (∀ column < width, ∀ row < height,
      drawn.cell column row = s.cell column row ^^^ UInt8.ofNat (count column row % 2)) ∧
      (∀ i, drawn.cells.get i = 0 ∨ drawn.cells.get i = 1) ∧
      drawn.stale = true ∧
      (∀ column row,
        drawn.lit column row = true ↔ drawn.cell (column % width) (row % height) = 1) ∧
      (collision = true ↔
        ∃ column < width, ∃ row < height,
          1 ≤ count column row ∧ s.cell column row = 1 ∨ 2 ≤ count column row) := by
  intro count collision drawn
  refine ⟨?_, drawn.get_cells_eq_zero_or_one, rfl, ?_, ?_⟩
  · intro column hcolumn row hrow
    exact s.cell_draw x y sprite hcolumn hrow
  · intro column row
    rw [← lit_iff_cell, lit_mod]
  · simp only [← lit_iff_cell]
    exact s.draw_fst_iff x y sprite

/-- A column of 33 pixels comes back to its first row and collides with itself there. -/
example : (blank.draw 0 0 (List.replicate 33 0x80)).1 = true := by
  decide +kernel

end Screen

end ChipEight
