import ChipEight.Proofs.Pixels

/-!
# Drawing again erases

A program erases what it drew by drawing it once more.  This works for any number of sprites in any
order, overlapping or not, because a row of drawings leaves behind nothing but the parity of the
hits on every pixel.  The collision of a drawing does depend on the order, but not in a sprite that
is drawn twice in succession: what the first drawing turned on, the second turns off.
-/

namespace ChipEight

/-- A sprite and the point at which it is drawn. -/
structure Drawing where
  x : UInt8
  y : UInt8
  sprite : List UInt8
  deriving DecidableEq

namespace Drawing

def hits (d : Drawing) (column row : Nat) : Nat :=
  Screen.hits d.x.toNat d.y.toNat d.sprite column row

def totalHits (column row : Nat) : List Drawing → Nat
  | [] => 0
  | d :: drawings => d.hits column row + totalHits column row drawings

theorem totalHits_perm {drawings permuted : List Drawing} (hperm : drawings.Perm permuted)
    (column row : Nat) :
    totalHits column row drawings = totalHits column row permuted := by
  induction hperm with
  | nil => rfl
  | cons d _ ih => simp only [totalHits, ih]
  | swap d e drawings =>
      simp only [totalHits]
      omega
  | trans _ _ ihfirst ihsecond => exact ihfirst.trans ihsecond

end Drawing

namespace Screen

def drawAll (s : Screen) (drawings : List Drawing) : Screen :=
  drawings.foldl (fun s d => (s.draw d.x d.y d.sprite).2) s

theorem drawAll_cons (s : Screen) (d : Drawing) (drawings : List Drawing) :
    s.drawAll (d :: drawings) = (s.draw d.x d.y d.sprite).2.drawAll drawings :=
  rfl

/-! ## Equal screens -/

theorem rows_eq_of_lit_eq {s t : Screen}
    (hlit : ∀ column < width, ∀ row < height, s.lit column row = t.lit column row) :
    s.rows = t.rows := by
  apply Vector.ext
  intro row hrow
  apply BitVec.eq_of_getMsbD_eq
  intro column hcolumn
  have hget : ∀ u : Screen, u.lit column row = u.rows[row].getMsbD column := by
    intro u
    rw [lit_of_lt u hcolumn]
    unfold Screen.row
    simp only [Nat.mod_eq_of_lt hrow]
    rfl
  rw [← hget, ← hget]
  exact hlit column hcolumn row hrow

theorem cells_eq_of_lit_eq {s t : Screen}
    (hlit : ∀ column < width, ∀ row < height, s.lit column row = t.lit column row) :
    s.cells = t.cells := by
  unfold cells lit Screen.row
  rw [rows_eq_of_lit_eq hlit]

theorem eq_of_lit_eq {s t : Screen}
    (hlit : ∀ column < width, ∀ row < height, s.lit column row = t.lit column row)
    (hstale : s.stale = t.stale) :
    s = t := by
  obtain ⟨rows, stale⟩ := s
  obtain rfl : rows = t.rows := rows_eq_of_lit_eq hlit
  obtain rfl : stale = t.stale := hstale
  rfl

/-! ## Rows of drawings -/

theorem lit_drawAll (s : Screen) (drawings : List Drawing) {column row : Nat}
    (hcolumn : column < width) (hrow : row < height) :
    (s.drawAll drawings).lit column row =
      (s.lit column row ^^ (Drawing.totalHits column row drawings).bodd) := by
  induction drawings generalizing s with
  | nil => simp [drawAll, Drawing.totalHits]
  | cons d drawings ih =>
      rw [drawAll_cons, ih, lit_draw s d.x d.y d.sprite hcolumn hrow, Drawing.totalHits,
        Nat.bodd_add, Bool.xor_assoc]
      rfl

theorem stale_drawAll (s : Screen) (drawings : List Drawing) :
    (s.drawAll drawings).stale = (s.stale || !drawings.isEmpty) := by
  induction drawings generalizing s with
  | nil => simp [drawAll]
  | cons d drawings ih =>
      have hdrawn : (s.draw d.x d.y d.sprite).2.stale = true := rfl
      rw [drawAll_cons, ih, hdrawn]
      simp

theorem drawAll_perm (s : Screen) {drawings permuted : List Drawing}
    (hperm : drawings.Perm permuted) :
    s.drawAll permuted = s.drawAll drawings := by
  apply eq_of_lit_eq
  · intro column hcolumn row hrow
    rw [lit_drawAll s _ hcolumn hrow, lit_drawAll s _ hcolumn hrow,
      Drawing.totalHits_perm hperm]
  · rw [stale_drawAll, stale_drawAll, hperm.isEmpty_eq]

theorem cells_drawAll_drawAll (s : Screen) {drawings permuted : List Drawing}
    (hperm : drawings.Perm permuted) :
    ((s.drawAll drawings).drawAll permuted).cells = s.cells := by
  apply cells_eq_of_lit_eq
  intro column hcolumn row hrow
  rw [drawAll_perm _ hperm, lit_drawAll _ _ hcolumn hrow, lit_drawAll _ _ hcolumn hrow,
    Bool.xor_assoc, Bool.xor_self, Bool.xor_false]

/-! ## One sprite on top of another -/

/-- The lower part of a sprite starts below its upper part.  The row where it starts may be kept in a
byte, since the height of the screen divides the range of a byte. -/
theorem draw_append (s : Screen) (x y : UInt8) (upper lower : List UInt8) :
    let first := s.draw x y upper
    let second := first.2.draw x (UInt8.ofNat ((y.toNat + upper.length) % 256)) lower
    s.draw x y (upper ++ lower) = (first.1 || second.1, second.2) := by
  intro first second
  have hstart : (UInt8.ofNat ((y.toNat + upper.length) % 256)).toNat % height =
      (y.toNat + upper.length) % height := by
    rw [UInt8.toNat_ofNat']
    simp only [height]
    omega
  have hcount : ∀ column row,
      hits x.toNat y.toNat (upper ++ lower) column row =
        hits x.toNat y.toNat upper column row +
          hits x.toNat (UInt8.ofNat ((y.toNat + upper.length) % 256)).toNat lower column row := by
    intro column row
    rw [hits_append, hits_congr x.toNat hstart]
  have hlit : ∀ column < width, ∀ row < height, first.2.lit column row =
      (s.lit column row ^^ (hits x.toNat y.toNat upper column row).bodd) :=
    fun _ hcolumn _ hrow => s.lit_draw x y upper hcolumn hrow
  apply Prod.ext
  · rw [Bool.eq_iff_iff, Bool.or_eq_true, draw_fst_iff, draw_fst_iff, draw_fst_iff,
      ← collision_add hlit]
    unfold Collision
    simp only [hcount]
  · apply eq_of_lit_eq
    · intro column hcolumn row hrow
      rw [lit_draw s x y _ hcolumn hrow, hcount, Nat.bodd_add, ← Bool.xor_assoc,
        ← hlit column hcolumn row hrow]
      exact (lit_draw first.2 x _ lower hcolumn hrow).symm
    · rfl

/-! ## The same sprite twice -/

theorem exists_hit (x y : Nat) {sprite : List UInt8}
    (hset : ∃ bits ∈ sprite, ∃ b < 8, bits.toBitVec.getMsbD b = true) :
    ∃ column < width, ∃ row < height, 1 ≤ hits x y sprite column row := by
  obtain ⟨bits, hbits, b, hb, hset⟩ := hset
  obtain ⟨r, hr, rfl⟩ := List.getElem_of_mem hbits
  refine ⟨(x + b) % width, Nat.mod_lt _ (by decide), (y + r) % height,
    Nat.mod_lt _ (by decide), ?_⟩
  unfold hits
  rw [Nat.one_le_iff_ne_zero, ← Nat.pos_iff_ne_zero, Finset.card_pos]
  refine ⟨(r, b), ?_⟩
  simp [hr, hb, hset]

/-- If the first drawing finds nothing lit that it hits, it leaves all of it lit. -/
theorem draw_twice_collides (s : Screen) (x y : UInt8) {sprite : List UInt8}
    (hset : ∃ bits ∈ sprite, ∃ b < 8, bits.toBitVec.getMsbD b = true)
    (hfirst : (s.draw x y sprite).1 = false) :
    ((s.draw x y sprite).2.draw x y sprite).1 = true := by
  obtain ⟨column, hcolumn, row, hrow, hhit⟩ := exists_hit x.toNat y.toNat hset
  have hclear : ¬ Collides (s.lit column row) (hits x.toNat y.toNat sprite column row) := by
    intro hcollides
    have htrue := (s.draw_fst_iff x y sprite).mpr ⟨column, hcolumn, row, hrow, hcollides⟩
    rw [hfirst] at htrue
    contradiction
  unfold Collides at hclear
  have hdark : s.lit column row = false := by
    rw [Bool.eq_false_iff]
    exact fun hlit => hclear (Or.inl ⟨hhit, hlit⟩)
  have honce : hits x.toNat y.toNat sprite column row = 1 := by omega
  rw [draw_fst_iff]
  refine ⟨column, hcolumn, row, hrow, Or.inl ⟨hhit, ?_⟩⟩
  rw [lit_draw s x y sprite hcolumn hrow, hdark, honce]
  rfl

/-! ## The theorem -/

/-- Rows of drawings commute and are their own inverses, a sprite can be drawn in two parts, and a
sprite with a set bit that is drawn twice in succession collides at least once. -/
theorem drawings_commute_and_cancel (s : Screen) :
    (∀ drawings permuted : List Drawing, drawings.Perm permuted →
      s.drawAll permuted = s.drawAll drawings ∧
        ((s.drawAll drawings).drawAll permuted).cells = s.cells) ∧
      (∀ (x y : UInt8) (upper lower : List UInt8),
        let first := s.draw x y upper
        let second := first.2.draw x (UInt8.ofNat ((y.toNat + upper.length) % 256)) lower
        s.draw x y (upper ++ lower) = (first.1 || second.1, second.2)) ∧
      ∀ (x y : UInt8) (sprite : List UInt8),
        (∃ bits ∈ sprite, ∃ b < 8, bits.toBitVec.getMsbD b = true) →
        let first := s.draw x y sprite
        let second := first.2.draw x y sprite
        (first.1 || second.1) = true ∧ (first.1 = false → second.1 = true) := by
  refine ⟨?_, s.draw_append, ?_⟩
  · intro drawings permuted hperm
    exact ⟨s.drawAll_perm hperm, s.cells_drawAll_drawAll hperm⟩
  · intro x y sprite hset first second
    have hsecond : first.1 = false → second.1 = true := s.draw_twice_collides x y hset
    refine ⟨?_, hsecond⟩
    cases hfirst : first.1 with
    | true => rfl
    | false => exact hsecond hfirst

/-- Two sprites that overlap across the corner of the screen, and one that is taller than it. -/
def overlapping : List Drawing :=
  [⟨60, 30, [0xFF, 0x81]⟩, ⟨62, 31, [0xF0]⟩, ⟨0, 0, List.replicate 33 0x80⟩]

theorem drawings_commute_and_cancel_overlapping :
    overlapping.Perm overlapping.reverse ∧
      blank.drawAll overlapping.reverse = blank.drawAll overlapping ∧
      (blank.drawAll overlapping).lit 60 30 = true ∧
      ((blank.drawAll overlapping).drawAll overlapping.reverse).cells = blank.cells ∧
      (blank.draw 60 31 [0x00, 0x01]).1 = false ∧
      ((blank.draw 60 31 [0x00, 0x01]).2.draw 60 31 [0x00, 0x01]).1 = true := by
  have hperm : overlapping.Perm overlapping.reverse := (List.reverse_perm overlapping).symm
  have hset : ∃ bits ∈ ([0x00, 0x01] : List UInt8), ∃ b < 8, bits.toBitVec.getMsbD b = true :=
    ⟨0x01, by decide, 7, by decide, by decide⟩
  have hfirst : (blank.draw 60 31 [0x00, 0x01]).1 = false := by decide +kernel
  obtain ⟨hrows, -, htwice⟩ := drawings_commute_and_cancel blank
  obtain ⟨hcommute, hcancel⟩ := hrows overlapping overlapping.reverse hperm
  exact ⟨hperm, hcommute, by decide +kernel, hcancel, hfirst,
    (htwice 60 31 [0x00, 0x01] hset).2 hfirst⟩

end Screen

end ChipEight
