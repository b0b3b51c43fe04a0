import ChipEight.Host

/-!
# What a tick shows

At the end of a tick the host shows a frame if the screen is stale and rings the bell if there was a
beep.  Both texts are decided before the first of them is written.  An output takes them piece by
piece, but since a piece that does not fit ends the tick, it takes from the pieces what it would
have taken from the whole text.  Apart from the output, a tick that shows everything leaves the same
host, whatever room there was.
-/

namespace ChipEight

namespace Output

theorem write_of_unlimited {o : Output} (hroom : o.room = none) (piece : List Char) :
    o.write piece = (⟨o.written ++ piece, none⟩, true) := by
  unfold write
  rw [hroom]

theorem write_nil (o : Output) : o.write [] = (o, true) := by
  obtain ⟨written, room⟩ := o
  cases room <;> simp [write]

/-- Two pieces are written like one, as long as the first fits. -/
theorem write_append (o : Output) (first second : List Char) :
    o.write (first ++ second) =
      if (o.write first).2 then (o.write first).1.write second else o.write first := by
  have hpieces := o.writeAll_eq_write_flatten [first, second]
  rw [List.flatten_cons, List.flatten_singleton] at hpieces
  rw [← hpieces]
  rcases hfirst : o.write first with ⟨next, whole⟩
  cases whole with
  | true =>
      simp only [writeAll, hfirst, if_true]
      rcases hsecond : next.write second with ⟨last, rest⟩
      cases rest <;> rfl
  | false => simp [writeAll, hfirst]

theorem write_append_of_whole {o : Output} {first : List Char}
    (hwhole : (o.write first).2 = true) (second : List Char) :
    o.write (first ++ second) = (o.write first).1.write second := by
  rw [write_append, if_pos hwhole]

theorem write_append_of_cut {o : Output} {first : List Char} (hcut : (o.write first).2 = false)
    (second : List Char) :
    o.write (first ++ second) = o.write first := by
  rw [write_append, hcut, if_neg Bool.false_ne_true]

theorem room_of_write_cut {o : Output} {piece : List Char} (hcut : (o.write piece).2 = false) :
    (o.write piece).1.room = some 0 := by
  unfold write at hcut ⊢
  cases hroom : o.room with
  | none =>
      rw [hroom] at hcut
      cases hcut
  | some room =>
      rw [hroom] at hcut
      simp only [decide_eq_false_iff_not] at hcut ⊢
      exact congrArg some (by omega)

/-- An output without room takes nothing. -/
theorem write_of_full {o : Output} (hfull : o.room = some 0) (piece : List Char) :
    (o.write piece).1 = o := by
  obtain ⟨written, room⟩ := o
  cases hfull
  simp [write]

theorem written_write_of_room {o : Output} {room : Nat} (hroom : o.room = some room)
    (piece : List Char) :
    (o.write piece).1.written.toList = o.written.toList ++ piece.take room ∧
      ((o.write piece).2 = true ↔ piece.length ≤ room) := by
  unfold write
  rw [hroom]
  simp

end Output

namespace Painter

def text (p : Painter) (cells : Screen.Cells) : List Char :=
  p.header.flatten ++ (Frame.lines cells).flatten

theorem paint_eq_write (p : Painter) (cells : Screen.Cells) (o : Output) :
    (p.paint cells o).2 = o.write (p.text cells) := by
  unfold paint text
  rw [Output.write_append, Output.writeAll_eq_write_flatten]
  rcases hheader : o.write p.header.flatten with ⟨out, whole⟩
  cases whole with
  | true => exact Output.writeAll_eq_write_flatten out (Frame.lines cells)
  | false => rfl

theorem paint_of_whole {p : Painter} {cells : Screen.Cells} {o : Output}
    (hwhole : (p.paint cells o).2.2 = true) :
    (p.paint cells o).1 = { p with started := true } := by
  unfold paint at hwhole ⊢
  split at hwhole
  next => cases hwhole
  next => rfl

end Painter

namespace Host

/-! ## The frame -/

def frameText (h : Host) : List Char :=
  if h.console.machine.screen.stale then h.painter.text h.console.machine.screen.cells else []

/-- The host after it has painted the screen, apart from what it wrote. -/
def painted (h : Host) : Host :=
  if h.console.machine.screen.stale then
    let flushed := { h with painter := { h.painter with started := true } }.flush
    let shown := flushed.console.machine.acknowledgeScreen
    { flushed with console := { flushed.console with machine := shown } }
  else h

theorem present_of_whole {h : Host} (hwhole : (h.output.write h.frameText).2 = true) :
    h.present = .done { h.painted with output := (h.output.write h.frameText).1 } #[] := by
  unfold frameText at hwhole ⊢
  unfold present painted
  cases hstale : h.console.machine.screen.stale with
  | false =>
      simp only [hstale, Bool.false_eq_true, if_false, Output.write_nil]
  | true =>
      simp only [hstale, if_true] at hwhole ⊢
      rw [← Painter.paint_eq_write] at hwhole ⊢
      have hpainter := Painter.paint_of_whole hwhole
      rcases hpaint : h.painter.paint h.console.machine.screen.cells h.output with
        ⟨painter, output, whole⟩
      rw [hpaint] at hwhole hpainter
      cases hwhole
      cases hpainter
      rfl

/-- A frame that does not fit changes nothing but the output and, perhaps, the painter. -/
theorem present_of_cut {h : Host} (hcut : (h.output.write h.frameText).2 = false) :
    ∃ painter, h.present =
      .failed { h with painter, output := (h.output.write h.frameText).1 } .frame #[] := by
  unfold frameText at hcut ⊢
  unfold present
  cases hstale : h.console.machine.screen.stale with
  | false =>
      simp only [hstale, Bool.false_eq_true, if_false, Output.write_nil] at hcut
      cases hcut
  | true =>
      simp only [hstale, if_true] at hcut ⊢
      rw [← Painter.paint_eq_write] at hcut ⊢
      rcases hpaint : h.painter.paint h.console.machine.screen.cells h.output with
        ⟨painter, output, whole⟩
      rw [hpaint] at hcut
      cases hcut
      exact ⟨painter, rfl⟩

/-! ## The bell -/

def bellText (h : Host) : List Char :=
  if h.console.machine.timers.beep then Frame.bell else []

/-- The host after it has rung the bell, apart from what it wrote. -/
def rung (h : Host) : Host :=
  if h.console.machine.timers.beep then
    { h with console := { h.console with machine := h.console.machine.takeBeep } }.flush
  else h

def bellLog (h : Host) : Log :=
  if h.console.machine.timers.beep then #[⟨.info, .host, "Beep"⟩] else #[]

theorem ring_of_whole {h : Host} (hwhole : (h.output.write h.bellText).2 = true) :
    h.ring = .done { h.rung with output := (h.output.write h.bellText).1 } h.bellLog := by
  unfold bellText at hwhole ⊢
  unfold ring rung bellLog
  cases hbeep : h.console.machine.timers.beep with
  | false =>
      simp only [hbeep, Bool.false_eq_true, if_false, Output.write_nil]
  | true =>
      simp only [hbeep, if_true] at hwhole ⊢
      rcases hbell : h.output.write Frame.bell with ⟨output, whole⟩
      rw [hbell] at hwhole
      cases hwhole
      rfl

/-- A bell that does not fit is taken from the machine all the same. -/
theorem ring_of_cut {h : Host} (hcut : (h.output.write h.bellText).2 = false) :
    h.console.machine.timers.beep = true ∧
      h.ring =
        .failed
          { h with
            output := (h.output.write h.bellText).1
            console := { h.console with machine := h.console.machine.takeBeep } }
          .bell h.bellLog := by
  unfold bellText at hcut ⊢
  unfold ring bellLog
  cases hbeep : h.console.machine.timers.beep with
  | false =>
      simp only [hbeep, Bool.false_eq_true, if_false, Output.write_nil] at hcut
      cases hcut
  | true =>
      simp only [hbeep, if_true] at hcut ⊢
      rcases hbell : h.output.write Frame.bell with ⟨output, whole⟩
      rw [hbell] at hcut
      cases hcut
      exact ⟨trivial, rfl⟩

end Host

end ChipEight
