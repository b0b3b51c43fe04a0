import ChipEight.History
import ChipEight.Proofs.FrameText
import ChipEight.Proofs.Transcript

/-!
# Frames on outputs of their own

A painter paints one frame after the other, each on a new output with room of its own.  What it
writes is the text of the frame, header and body, as far as there is room, and all that it keeps
from one frame to the next is whether some header was written whole.  The body has a mark for every
cell at a place that depends on nothing else, so that a body that was written whole tells exactly
which cells are lit.
-/

namespace ChipEight

namespace Frame

/-- What goes before a frame, where `first` says that no header was written whole yet. -/
def header (ansi first : Bool) : List Char :=
  if ansi then (if first then clearTerminal else []) ++ cursorHome else []

def body (cells : Screen.Cells) : List Char :=
  (lines cells).flatten

/-- A text is made of a line for every row of cells, with a mark for every cell and an end. -/
structure Depicts (text : List Char) (cells : Screen.Cells) : Prop where
  length : text.length = (Screen.width + 1) * Screen.height
  mark : ∀ x < Screen.width, ∀ y < Screen.height, text[(Screen.width + 1) * y + x]? =
    some (if cells[Screen.width * y + x]? = some 1 then '#' else ' ')
  lineEnd : ∀ y < Screen.height, text[(Screen.width + 1) * y + Screen.width]? = some '\n'

theorem depicts_body (cells : Screen.Cells) : Depicts (body cells) cells := by
  refine ⟨length_flatten_lines cells, ?_, ?_⟩
  · intro x hx y hy
    have hplace : Screen.width * y + x < Screen.width * Screen.height := by
      simp only [Screen.width, Screen.height] at *
      omega
    have hline := getElem?_flatten_lines cells ⟨y, hy⟩ (Nat.lt_succ_of_lt hx)
    rw [getElem?_line_of_lt cells ⟨y, hy⟩ hx hplace] at hline
    rw [body, hline, Vector.getElem?_eq_getElem hplace, mark]
    simp only [Option.some.injEq]
    rfl
  · intro y hy
    have hline := getElem?_flatten_lines cells ⟨y, hy⟩ (Nat.lt_succ_self Screen.width)
    rw [getElem?_line_width] at hline
    exact hline

/-- The body is decided by the cells that are lit, and decides them. -/
theorem body_eq_iff (cells other : Screen.Cells) :
    body cells = body other ↔ ∀ i, cells.get i = 1 ↔ other.get i = 1 := by
  constructor
  · intro heq i
    have hmark := getElem?_flatten_lines_mark cells i
    change (body cells)[i.val + i.val / Screen.width]? = _ at hmark
    rw [heq] at hmark
    have hsame := Option.some.inj (hmark.symm.trans (getElem?_flatten_lines_mark other i))
    have hvalue := congrArg value hsame
    rw [value_mark, value_mark] at hvalue
    by_cases hcell : cells.get i = 1
    · by_cases hother : other.get i = 1
      · exact iff_of_true hcell hother
      · rw [if_pos hcell, if_neg hother] at hvalue
        cases hvalue
    · by_cases hother : other.get i = 1
      · rw [if_neg hcell, if_pos hother] at hvalue
        cases hvalue
      · exact iff_of_false hcell hother
  · intro hsame
    have hmark : ∀ i, mark (cells.get i) = mark (other.get i) := by
      intro i
      unfold mark
      simp only [hsame i]
    unfold body lines line
    simp only [hmark]

theorem toNat_lt_of_mem_text (ansi first : Bool) (cells : Screen.Cells) {c : Char}
    (hmem : c ∈ header ansi first ++ body cells) : c.toNat < 128 := by
  have hshown : c ∈ Showing.text ansi first ⟨some cells, false⟩ :=
    List.mem_append_left [] hmem
  exact Showing.toNat_lt_of_mem_text hshown

end Frame

/-- A frame to be painted, and the room on the output for it. -/
structure Painting where
  cells : Screen.Cells
  room : Nat

namespace Painter

def paintAlone (p : Painter) (painting : Painting) : Painter × Output × Bool :=
  p.paint painting.cells (.new (some painting.room))

def afterPaintings (p : Painter) (paintings : List Painting) : Painter :=
  paintings.foldl (fun p painting => (p.paintAlone painting).1) p

/-- Whether every header of a row of paintings, each preceded by those before it, was cut. -/
def fresh (ansi : Bool) (paintings : List Painting) : Bool :=
  paintings.foldl
    (fun first painting => first && painting.room < (Frame.header ansi first).length) true

theorem flatten_header (p : Painter) : p.header.flatten = Frame.header p.ansi (!p.started) := by
  obtain ⟨ansi, started⟩ := p
  cases ansi <;> cases started <;> rfl

/-- The painter remembers whether the header fitted. -/
theorem paintAlone_fst (p : Painter) (painting : Painting) :
    (p.paintAlone painting).1 =
      ⟨p.ansi, p.started || (Frame.header p.ansi (!p.started)).length ≤ painting.room⟩ := by
  have hheader := p.flatten_header
  obtain ⟨-, hwrite⟩ :=
    Output.written_write_of_room (o := .new (some painting.room)) rfl p.header.flatten
  unfold paintAlone paint
  rw [Output.writeAll_eq_write_flatten]
  rw [hheader] at hwrite ⊢
  rcases hout : (Output.new (some painting.room)).write (Frame.header p.ansi (!p.started)) with
    ⟨out, whole⟩
  rw [hout] at hwrite
  cases whole with
  | true => simp [hwrite.mp rfl]
  | false => simp [mt hwrite.mpr Bool.false_ne_true]

theorem fresh_concat (ansi : Bool) (paintings : List Painting) (painting : Painting) :
    fresh ansi (paintings ++ [painting]) =
      (fresh ansi paintings &&
        painting.room < (Frame.header ansi (fresh ansi paintings)).length) := by
  unfold fresh
  rw [List.foldl_append]
  rfl

theorem afterPaintings_concat (p : Painter) (paintings : List Painting) (painting : Painting) :
    p.afterPaintings (paintings ++ [painting]) =
      ((p.afterPaintings paintings).paintAlone painting).1 := by
  unfold afterPaintings
  rw [List.foldl_append]
  rfl

theorem afterPaintings_new (ansi : Bool) (paintings : List Painting) :
    (new ansi).afterPaintings paintings = ⟨ansi, !fresh ansi paintings⟩ := by
  induction paintings using List.reverseRecOn with
  | nil => rfl
  | append_singleton paintings painting ih =>
      rw [afterPaintings_concat, ih, paintAlone_fst, fresh_concat, Bool.not_not, Bool.not_and,
        ← decide_not]
      simp only [Nat.not_lt]

theorem fresh_eq_false_iff (ansi : Bool) (paintings : List Painting) :
    fresh ansi paintings = false ↔
      ∃ earlier other later, paintings = earlier ++ other :: later ∧
        (Frame.header ansi (fresh ansi earlier)).length ≤ other.room := by
  have hsince : fresh ansi paintings = false ↔
      History.Since (fun earlier (other : Painting) =>
        (Frame.header ansi (fresh ansi earlier)).length ≤ other.room)
        (fun _ => false) paintings := by
    apply History.iff_since (fun paintings => fresh ansi paintings = false)
    · simp [fresh]
    · intro paintings painting
      rw [fresh_concat, Bool.and_eq_false_iff, decide_eq_false_iff_not, Nat.not_lt]
      simp [or_comm]
  rw [hsince]
  simp [History.Since]

/-! ## The theorem -/

/-- Whatever was painted before, a frame is cut where its room ends and is whole if and only if it
fits.  Its header clears the terminal as long as no header before was written whole.  Its body marks
the cells that are lit, which can be read back from what was written whole, and two rows of cells
have the same body if and only if the same cells are lit. -/
theorem paintings_are_cut_and_readable (ansi : Bool) (before : List Painting)
    (painting : Painting) :
    let painted := (((new ansi).afterPaintings before).paintAlone painting).2
    let header := Frame.header ansi (fresh ansi before)
    let text := header ++ Frame.body painting.cells
    painted.1.written.toList = text.take painting.room ∧
      (painted.2 = true ↔ text.length ≤ painting.room) ∧
      (fresh ansi before = false ↔
        ∃ earlier other later, before = earlier ++ other :: later ∧
          (Frame.header ansi (fresh ansi earlier)).length ≤ other.room) ∧
      Frame.Depicts (Frame.body painting.cells) painting.cells ∧ (∀ c ∈ text, c.toNat < 128) ∧
      (painted.2 = true → Frame.read? (painted.1.written.toList.drop header.length) =
        some (Vector.ofFn fun i => if painting.cells.get i = 1 then 1 else 0)) ∧
      ∀ other, Frame.body painting.cells = Frame.body other ↔
        ∀ i, painting.cells.get i = 1 ↔ other.get i = 1 := by
  intro painted header text
  have hpainted : painted = (Output.new (some painting.room)).write text := by
    change (((new ansi).afterPaintings before).paint painting.cells _).2 = _
    rw [paint_eq_write, Painter.text, flatten_header, afterPaintings_new, Bool.not_not]
    rfl
  obtain ⟨hwritten, hwhole⟩ :=
    Output.written_write_of_room (o := .new (some painting.room)) rfl text
  rw [← hpainted] at hwritten hwhole
  have hcut : painted.1.written.toList = text.take painting.room := hwritten
  refine ⟨hcut, hwhole, fresh_eq_false_iff ansi before, Frame.depicts_body painting.cells, ?_, ?_,
    Frame.body_eq_iff painting.cells⟩
  · intro c
    exact Frame.toNat_lt_of_mem_text ansi (fresh ansi before) painting.cells
  · intro hfits
    rw [hcut, List.take_of_length_le (hwhole.mp hfits), List.drop_left]
    exact Frame.read?_flatten_lines painting.cells

/-- Cells of three different bytes, a third of which are lit. -/
def stripes : Screen.Cells :=
  Vector.ofFn fun i => UInt8.ofNat (i.val % 3)

/-- The first frame is cut within the last part of its header, so the second one clears the terminal
again. -/
theorem paintings_are_cut_and_readable_cutHeader :
    let painted := (((new true).afterPaintings [⟨stripes, 6⟩]).paintAlone ⟨stripes, 2087⟩).2
    painted.2 = true ∧
      painted.1.written.toList =
        (Frame.clearTerminal ++ Frame.cursorHome ++ Frame.body stripes).take 2087 ∧
      Frame.read? (painted.1.written.toList.drop 7) =
        some (Vector.ofFn fun i => if stripes.get i = 1 then 1 else 0) := by
  intro painted
  have hfresh : fresh true [⟨stripes, 6⟩] = true := by decide
  obtain ⟨hwritten, hwhole, -, hdepicts, -, hread, -⟩ :=
    paintings_are_cut_and_readable true [⟨stripes, 6⟩] ⟨stripes, 2087⟩
  have hlength := hdepicts.length
  rw [hfresh] at hwritten hwhole hread
  have hfits : painted.2 = true := by
    apply hwhole.mpr
    rw [List.length_append, hlength]
    decide
  exact ⟨hfits, hwritten, hread hfits⟩

end Painter

end ChipEight
