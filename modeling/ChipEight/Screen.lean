/-!
# Screen

The screen has 32 rows of 64 pixels and is a torus: what leaves it on one side comes back on the
other.  A row is a word of 64 bits whose most significant bit is the leftmost pixel, so a sprite row
is drawn by one exclusive or with a rotated word.  The screen remembers whether it changed since it
was last shown.
-/

namespace ChipEight

namespace Screen

abbrev width : Nat := 64

abbrev height : Nat := 32

end Screen

structure Screen where
  rows : Vector (BitVec Screen.width) Screen.height
  /-- Whether the rows may differ from what was last shown. -/
  stale : Bool
  deriving DecidableEq

namespace Screen

def blank : Screen :=
  ⟨Vector.replicate height 0, true⟩

/-- The row in which a sprite row with its left edge in column `x` flips pixels. -/
def spread (x : Nat) (bits : UInt8) : BitVec width :=
  (bits.toBitVec.setWidth width <<< (width - 8)).rotateRight x

def row (s : Screen) (y : Nat) : BitVec width :=
  s.rows.get ⟨y % height, Nat.mod_lt _ (by decide)⟩

def lit (s : Screen) (x y : Nat) : Bool :=
  (s.row y).getMsbD (x % width)

def collides (s : Screen) (x y : Nat) (bits : UInt8) : Bool :=
  s.row y &&& spread x bits != 0

def flipRow (s : Screen) (x y : Nat) (bits : UInt8) : Screen :=
  { s with
    rows := s.rows.set (y % height) (s.row y ^^^ spread x bits) (Nat.mod_lt _ (by decide)) }

def flip (s : Screen) (x y : Nat) : List UInt8 → Bool × Screen
  | [] => (false, s)
  | bits :: rest =>
      let (later, drawn) := flip (s.flipRow x y bits) x (y + 1) rest
      (s.collides x y bits || later, drawn)

/-- Draws a sprite with its top left corner at a point and tells whether it collided.  The screen is
stale afterwards, whatever the sprite. -/
def draw (s : Screen) (x y : UInt8) (sprite : List UInt8) : Bool × Screen :=
  let (collision, drawn) := s.flip x.toNat y.toNat sprite
  (collision, { drawn with stale := true })

def clear (_ : Screen) : Screen :=
  blank

def acknowledge (s : Screen) : Screen :=
  { s with stale := false }

/-- One byte for every pixel of a screen, row after row from the top left. -/
abbrev Cells := Vector UInt8 (width * height)

def cells (s : Screen) : Cells :=
  Vector.ofFn fun i => if s.lit (i.val % width) (i.val / width) then 1 else 0

theorem getMsbD_spread (x k : Nat) (bits : UInt8) (hk : k < width) :
    (spread x bits).getMsbD k = bits.toBitVec.getMsbD ((k + width - x % width) % width) := by
  have hplace : ∀ i, i < 64 → (bits.toBitVec.setWidth 64 <<< 56).getMsbD i =
      bits.toBitVec.getMsbD i := by
    intro i hi
    rw [BitVec.getMsbD_shiftLeft, BitVec.getMsbD_setWidth]
    by_cases hb : i < 8
    · simp [show i + 56 + 8 - 64 = i by omega]
    · simp [BitVec.getMsbD, hb]
  have hx : x % 64 < 64 := Nat.mod_lt _ (by decide)
  simp only [width] at hk
  simp only [spread, width]
  rw [BitVec.getMsbD_rotateRight]
  by_cases hlt : k < x % 64
  · simp only [hk, decide_true, Bool.true_and, hlt, if_true]
    rw [hplace _ (Nat.mod_lt _ (by decide)), Nat.add_comm 64 k]
  · simp only [hk, decide_true, Bool.true_and, hlt, if_false]
    rw [hplace _ (by omega)]
    congr 1
    omega

theorem row_flipRow (s : Screen) (x y z : Nat) (bits : UInt8) :
    (s.flipRow x y bits).row z =
      if z % height = y % height then s.row z ^^^ spread x bits else s.row z := by
  have hy : y % height < height := Nat.mod_lt _ (by decide)
  have hz : z % height < height := Nat.mod_lt _ (by decide)
  change (s.rows.set (y % height) (s.rows[y % height] ^^^ spread x bits))[z % height] =
    if z % height = y % height then s.rows[z % height] ^^^ spread x bits else s.rows[z % height]
  by_cases h : z % height = y % height
  · simp [h]
  · simp [h, Ne.symm h]

end Screen

end ChipEight
