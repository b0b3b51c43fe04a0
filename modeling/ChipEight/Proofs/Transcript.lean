import ChipEight.Host.Operation
import ChipEight.Host.Transcript
import ChipEight.Proofs.Display
import ChipEight.Proofs.Painting

/-!
# What a limited output takes of the transcript

Two hosts that differ only in their outputs go the same way for as long as both outputs take all
that is written.  Here one of them never runs out of room and writes its transcript.  The other one
is cut: up to the first piece that does not fit it is the same host, that piece ends its run with a
fault of the output, and after that there is no room for anything.
-/

namespace ChipEight

namespace Frame

theorem toNat_lt_of_mem_lines {cells : Screen.Cells} {c : Char}
    (hmem : c ∈ (lines cells).flatten) : c.toNat < 128 := by
  obtain ⟨row, hrow, hmem⟩ := List.mem_flatten.mp hmem
  unfold lines at hrow
  obtain ⟨y, -, rfl⟩ := List.mem_map.mp hrow
  unfold line at hmem
  rw [List.mem_append] at hmem
  rcases hmem with hmark | hend
  · obtain ⟨x, -, rfl⟩ := List.mem_map.mp hmark
    unfold mark
    split <;> decide
  · rw [List.mem_singleton.mp hend]
    decide

end Frame

namespace Showing

theorem transcript_singleton (ansi first : Bool) (s : Showing) :
    transcript ansi first [s] = s.text ansi first :=
  List.append_nil _

theorem text_frame (p : Painter) (cells : Screen.Cells) :
    text p.ansi (!p.started) ⟨some cells, false⟩ = p.text cells := by
  obtain ⟨ansi, started⟩ := p
  unfold text Painter.text Painter.header
  dsimp only
  generalize (Frame.lines cells).flatten = body
  cases ansi <;> cases started <;> simp

theorem transcript_append (ansi first : Bool) (shown later : List Showing) :
    transcript ansi first (shown ++ later) =
      transcript ansi first shown ++
        transcript ansi (first && !shown.any (·.hasFrame)) later := by
  induction shown generalizing first with
  | nil => simp [transcript]
  | cons s rest ih =>
      simp only [List.cons_append, transcript, ih, List.append_assoc, List.any_cons, Bool.not_or,
        Bool.and_assoc]

theorem toNat_lt_of_mem_text {ansi first : Bool} {s : Showing} {c : Char}
    (hmem : c ∈ s.text ansi first) : c.toNat < 128 := by
  unfold text at hmem
  rw [List.mem_append] at hmem
  rcases hmem with hframe | hbell
  · split at hframe
    next cells _ =>
      rw [List.mem_append] at hframe
      rcases hframe with hheader | hlines
      · have hheaders : ((if ansi then (if first then Frame.clearTerminal else []) ++
            Frame.cursorHome else []).all (·.toNat < 128)) = true := by
          cases ansi <;> cases first <;> rfl
        exact of_decide_eq_true (List.all_eq_true.mp hheaders c hheader)
      · exact Frame.toNat_lt_of_mem_lines hlines
    next => cases hframe
  · split at hbell
    next =>
      rw [List.mem_singleton.mp hbell]
      decide
    next => cases hbell

/-- Every character is a single byte. -/
theorem toNat_lt_of_mem_transcript {ansi first : Bool} {shown : List Showing} {c : Char}
    (hmem : c ∈ transcript ansi first shown) : c.toNat < 128 := by
  induction shown generalizing first with
  | nil => cases hmem
  | cons s rest ih =>
      unfold transcript at hmem
      rw [List.mem_append] at hmem
      rcases hmem with hfirst | hrest
      · exact toNat_lt_of_mem_text hfirst
      · exact ih hrest

end Showing

namespace Host

theorem textOf_nil (h : Host) : h.textOf [] = [] :=
  rfl

/-- The same host with another output. -/
def writingTo (h : Host) (o : Output) : Host :=
  { h with output := o }

/-! ## Cut hosts -/

/-- Where a host has got that writes a text, compared with one that has room for all of it. -/
structure Cut (o : Output) (text : List Char) (limited free : Host) : Prop where
  output : limited.output = (o.write text).1
  whole : (o.write text).2 = true → limited = free.writingTo (o.write text).1

theorem Cut.trans {o : Output} {text later : List Char} {limited free limited' free' : Host}
    (hcut : Cut o text limited free)
    (hwhole : (o.write text).2 = true → Cut (o.write text).1 later limited' free')
    (hfull : (o.write text).2 = false → limited'.output = limited.output) :
    Cut o (text ++ later) limited' free' := by
  cases hfits : (o.write text).2 with
  | true =>
      have hlater := hwhole hfits
      have hwrite := Output.write_append_of_whole hfits later
      exact ⟨by rw [hwrite]; exact hlater.output, by rw [hwrite]; exact hlater.whole⟩
  | false =>
      constructor
      · rw [Output.write_append_of_cut hfits, hfull hfits, hcut.output]
      · rw [Output.write_append_of_cut hfits, hfits]
        nofun

/-- The same for an attempt.  A text that does not fit ends it with a fault of the output. -/
structure CutOff (o : Output) (text : List Char) (limited free : Attempt Host HostFault) :
    Prop where
  state : Cut o text limited.state free.state
  whole : (o.write text).2 = true → limited.fault = free.fault
  cut : (o.write text).2 = false → limited.fault = some .frame ∨ limited.fault = some .bell

section

variable {o : Output} {text later : List Char} {limited free : Attempt Host HostFault}

theorem CutOff.andThen_of_cut (hcut : CutOff o text limited free)
    (hfits : (o.write text).2 = false) (next : Host → Attempt Host HostFault) :
    limited.andThen next = limited := by
  rcases hcut.cut hfits with hframe | hbell
  · exact Attempt.andThen_of_fault hframe next
  · exact Attempt.andThen_of_fault hbell next

theorem CutOff.andThen_of_fault (hcut : CutOff o text limited free) {fault : HostFault}
    (hfault : free.fault = some fault) (next : Host → Attempt Host HostFault) :
    CutOff o text (limited.andThen next) (free.andThen next) := by
  have hlimited : limited.andThen next = limited := by
    cases hfits : (o.write text).2 with
    | true => exact Attempt.andThen_of_fault ((hcut.whole hfits).trans hfault) next
    | false => exact hcut.andThen_of_cut hfits next
  rw [hlimited, Attempt.andThen_of_fault hfault]
  exact hcut

theorem CutOff.andThen (hcut : CutOff o text limited free) (hfree : free.fault = none)
    {next : Host → Attempt Host HostFault}
    (hnext : ∀ o, CutOff o later (next (free.state.writingTo o)) (next free.state)) :
    CutOff o (text ++ later) (limited.andThen next) (free.andThen next) := by
  obtain ⟨hfreeState, hfreeFault⟩ := Attempt.andThen_of_succeeded hfree next
  cases hfits : (o.write text).2 with
  | true =>
      obtain ⟨hstate, hfault⟩ :=
        Attempt.andThen_of_succeeded ((hcut.whole hfits).trans hfree) next
      have hlater := hnext (o.write text).1
      rw [← hcut.state.whole hfits] at hlater
      refine ⟨hcut.state.trans (fun _ => ?_) ?_, ?_, ?_⟩
      · rw [hstate, hfreeState]
        exact hlater.state
      · rw [hfits]
        nofun
      · rw [Output.write_append_of_whole hfits, hfault, hfreeFault]
        exact hlater.whole
      · rw [Output.write_append_of_whole hfits, hfault]
        exact hlater.cut
  | false =>
      rw [hcut.andThen_of_cut hfits next]
      refine ⟨hcut.state.trans ?_ fun _ => rfl, ?_, fun _ => hcut.cut hfits⟩
      · rw [hfits]
        nofun
      · rw [Output.write_append_of_cut hfits, hfits]
        nofun

end

/-! ## What an action prints -/

/-- An action of a host writes what it shows, whatever the output. -/
structure Prints (action : Host → Attempt Host HostFault) (h : Host) (shown : List Showing) :
    Prop where
  cutOff : ∀ o, CutOff o (h.textOf shown) (action (h.writingTo o)) (action h)
  painter : (action h).state.painter =
    { h.painter with started := h.painter.started || shown.any (·.hasFrame) }

variable {h : Host} {action next : Host → Attempt Host HostFault} {shown later : List Showing}

theorem Prints.output (hprints : Prints action h shown) :
    (action h).state.output = (h.output.write (h.textOf shown)).1 :=
  (hprints.cutOff h.output).state.output

theorem Prints.unlimited (hprints : Prints action h shown) (hfree : h.output.room = none) :
    (action h).state.output.room = none := by
  rw [hprints.output, Output.write_of_unlimited hfree]

theorem Prints.textOf_append (hprints : Prints action h shown) (later : List Showing) :
    h.textOf (shown ++ later) = h.textOf shown ++ (action h).state.textOf later := by
  unfold textOf
  rw [Showing.transcript_append, hprints.painter, Bool.not_or]

/-- Something that does not look at the output. -/
theorem Prints.of_quiet
    (hquiet : ∀ o, (action (h.writingTo o)).state = (action h).state.writingTo o ∧
      (action (h.writingTo o)).fault = (action h).fault)
    (hpainter : (action h).state.painter = h.painter) :
    Prints action h [] := by
  constructor
  · intro o
    obtain ⟨hstate, hfault⟩ := hquiet o
    rw [textOf_nil]
    refine ⟨⟨?_, ?_⟩, fun _ => hfault, ?_⟩
    · rw [hstate, Output.write_nil]
      rfl
    · rw [hstate, Output.write_nil]
      exact fun _ => rfl
    · rw [Output.write_nil]
      nofun
  · rw [hpainter, List.any_nil, Bool.or_false]

theorem Prints.andThen (hprints : Prints action h shown) (hfault : (action h).fault = none)
    (hnext : Prints next (action h).state later) :
    Prints (fun h => (action h).andThen next) h (shown ++ later) := by
  constructor
  · intro o
    rw [hprints.textOf_append]
    exact (hprints.cutOff o).andThen hfault hnext.cutOff
  · simp only [(Attempt.andThen_of_succeeded hfault next).1]
    rw [hnext.painter, hprints.painter, List.any_append, Bool.or_assoc]

theorem Prints.andThen_of_fault (hprints : Prints action h shown) {fault : HostFault}
    (hfault : (action h).fault = some fault) (next : Host → Attempt Host HostFault) :
    Prints (fun h => (action h).andThen next) h shown := by
  constructor
  · intro o
    exact (hprints.cutOff o).andThen_of_fault hfault next
  · simp only [Attempt.andThen_of_fault hfault]
    exact hprints.painter

/-- What shows nothing of its own may follow whether or not there was a fault. -/
theorem Prints.andThen_quiet (hprints : Prints action h shown)
    (hnext : Prints next (action h).state []) :
    Prints (fun h => (action h).andThen next) h shown := by
  cases hfault : (action h).fault with
  | some fault => exact hprints.andThen_of_fault hfault next
  | none =>
      have hboth := hprints.andThen hfault hnext
      rwa [List.append_nil] at hboth

/-! ## The parts of a tick -/

theorem prints_batch (h : Host) : Prints batch h [] := by
  refine .of_quiet (fun o => ?_) ?_
  · obtain ⟨hstate, hfault⟩ := h.batch_eq
    obtain ⟨hstate', hfault'⟩ := Host.batch_eq (h.writingTo o)
    rw [hstate', hfault', hstate, hfault]
    exact ⟨rfl, rfl⟩
  · rw [h.batch_eq.1]

theorem countDown_writingTo (h : Host) (o : Output) :
    (h.writingTo o).countDown.state = h.countDown.state.writingTo o ∧
      (h.writingTo o).countDown.fault = h.countDown.fault := by
  unfold countDown writingTo
  by_cases hexternal : h.settings.timerMode = .external
  · simp only [if_pos hexternal]
    exact ⟨rfl, rfl⟩
  · simp only [if_neg hexternal]
    exact ⟨rfl, rfl⟩

theorem prints_countDown (h : Host) : Prints countDown h [] := by
  refine .of_quiet h.countDown_writingTo ?_
  unfold countDown
  split <;> rfl

theorem prints_counted (h : Host) : Prints counted h [] :=
  h.prints_batch.andThen_quiet (prints_countDown _)

/-- The frame alone. -/
def dueFrame (h : Host) : Showing :=
  ⟨h.due.cells?, false⟩

/-- The bell alone. -/
def dueBell (h : Host) : Showing :=
  ⟨none, h.due.bell⟩

theorem textOf_dueFrame (h : Host) : h.textOf [h.dueFrame] = h.frameText := by
  unfold textOf dueFrame due frameText
  cases h.console.machine.screen.stale with
  | false => rfl
  | true =>
      rw [Showing.transcript_singleton]
      exact Showing.text_frame h.painter h.console.machine.screen.cells

theorem textOf_dueBell (h : Host) : h.textOf [h.dueBell] = h.bellText := by
  unfold textOf dueBell due bellText
  cases h.console.machine.timers.beep <;> rfl

theorem painted_writingTo (h : Host) (o : Output) :
    (h.writingTo o).painted = h.painted.writingTo o := by
  unfold painted writingTo
  split <;> rfl

theorem rung_writingTo (h : Host) (o : Output) :
    (h.writingTo o).rung = h.rung.writingTo o := by
  unfold rung writingTo
  split <;> rfl

theorem prints_present (hfree : h.output.room = none) : Prints present h [h.dueFrame] := by
  have hpresent := present_of_whole (h := h) (by rw [Output.write_of_unlimited hfree])
  constructor
  · intro o
    rw [textOf_dueFrame, hpresent]
    cases hfits : (o.write h.frameText).2 with
    | true =>
        have hlimited := present_of_whole (h := h.writingTo o) hfits
        rw [hlimited, painted_writingTo]
        exact ⟨⟨rfl, fun _ => rfl⟩, fun _ => rfl, by rw [hfits]; nofun⟩
    | false =>
        obtain ⟨painter, hlimited⟩ := present_of_cut (h := h.writingTo o) hfits
        rw [hlimited]
        exact ⟨⟨rfl, by rw [hfits]; nofun⟩, by rw [hfits]; nofun, fun _ => Or.inl rfl⟩
  · rw [hpresent]
    change h.painted.painter = _
    unfold painted dueFrame due
    cases h.console.machine.screen.stale with
    | false => simp [Showing.hasFrame]
    | true => simp [Showing.hasFrame, flush, advance]

theorem prints_ring (hfree : h.output.room = none) : Prints ring h [h.dueBell] := by
  have hring := ring_of_whole (h := h) (by rw [Output.write_of_unlimited hfree])
  constructor
  · intro o
    rw [textOf_dueBell, hring]
    cases hfits : (o.write h.bellText).2 with
    | true =>
        have hlimited := ring_of_whole (h := h.writingTo o) hfits
        rw [hlimited, rung_writingTo]
        exact ⟨⟨rfl, fun _ => rfl⟩, fun _ => rfl, by rw [hfits]; nofun⟩
    | false =>
        obtain ⟨-, hlimited⟩ := ring_of_cut (h := h.writingTo o) hfits
        rw [hlimited]
        exact ⟨⟨rfl, by rw [hfits]; nofun⟩, by rw [hfits]; nofun, fun _ => Or.inr rfl⟩
  · rw [hring]
    change h.rung.painter = _
    unfold rung dueBell
    split <;> simp [Showing.hasFrame, flush, advance]

/-! ## Ticks, runs and calls -/

theorem textOf_dueFrame_dueBell (h : Host) :
    h.textOf [h.dueFrame, h.dueBell] = h.textOf [h.due] := by
  unfold textOf dueFrame dueBell
  simp [Showing.transcript, Showing.text]

/-- A frame, painted or not, does not take the bell away. -/
theorem dueBell_present (h : Host) : h.present.state.dueBell = h.dueBell := by
  cases hfits : (h.output.write h.frameText).2 with
  | true =>
      rw [present_of_whole hfits]
      unfold painted dueBell due
      split <;> rfl
  | false =>
      obtain ⟨painter, hpresent⟩ := present_of_cut hfits
      rw [hpresent]
      rfl

theorem present_of_unlimited (hfree : h.output.room = none) :
    h.present.fault = none ∧ h.present.state.dueBell = h.dueBell := by
  refine ⟨?_, h.dueBell_present⟩
  rw [present_of_whole (h := h) (by rw [Output.write_of_unlimited hfree])]
  rfl

/-- The frame and then the bell of a tick are one showing. -/
theorem prints_due (hfree : h.output.room = none) :
    Prints (fun h => h.present.andThen ring) h [h.due] := by
  have hpresent := prints_present hfree
  obtain ⟨hfault, hbell⟩ := present_of_unlimited hfree
  have hring := prints_ring (hpresent.unlimited hfree)
  rw [hbell] at hring
  have hboth := hpresent.andThen hfault hring
  constructor
  · rw [← textOf_dueFrame_dueBell]
    exact hboth.cutOff
  · have hpainter := hboth.painter
    simpa [dueFrame, dueBell, Showing.hasFrame] using hpainter

theorem due_fault (hfree : h.output.room = none) : (h.present.andThen ring).fault = none := by
  have hpresent := prints_present hfree
  obtain ⟨hfault, -⟩ := present_of_unlimited hfree
  rw [(Attempt.andThen_of_succeeded hfault ring).2,
    ring_of_whole (by rw [Output.write_of_unlimited (hpresent.unlimited hfree)])]
  rfl

theorem tick_eq (h : Host) : h.tick = h.counted.andThen fun s => s.present.andThen ring :=
  Attempt.andThen_assoc h.counted present ring

theorem prints_tick (hfree : h.output.room = none) : Prints tick h h.showing?.toList := by
  have hcounted := h.prints_counted
  rw [show tick = fun h => h.counted.andThen fun s => s.present.andThen ring from funext tick_eq]
  unfold showing?
  cases hfault : h.counted.fault with
  | some fault => exact hcounted.andThen_of_fault hfault _
  | none => exact hcounted.andThen hfault (prints_due (hcounted.unlimited hfree))

theorem prints_pacedTick (hfree : h.output.room = none) :
    Prints pacedTick h h.showing?.toList := by
  have hrest : Prints (fun after => .done (after.rest h.console.now) #[]) h.tick.state [] :=
    .of_quiet (fun _ => ⟨rfl, rfl⟩) rfl
  have hpaced := (prints_tick hfree).andThen_quiet hrest
  exact ⟨hpaced.cutOff, hpaced.painter⟩

theorem pacedTick_fault (hfree : h.output.room = none) : h.pacedTick.fault = h.counted.fault := by
  have htick : h.tick.fault = h.counted.fault := by
    rw [tick_eq]
    cases hfault : h.counted.fault with
    | some fault => rw [Attempt.andThen_of_fault hfault, hfault]
    | none =>
        rw [(Attempt.andThen_of_succeeded hfault _).2]
        exact due_fault (h.prints_counted.unlimited hfree)
  unfold pacedTick
  cases hfault : h.tick.fault with
  | some fault => rw [Attempt.andThen_of_fault hfault, htick]
  | none =>
      rw [(Attempt.andThen_of_succeeded hfault _).2, ← htick, hfault]
      rfl

theorem prints_ticks (hfree : h.output.room = none) (n : Nat) :
    Prints (fun h => Attempt.repeatedly pacedTick n (.done h #[])) h (h.showings n) := by
  induction n generalizing h with
  | zero => exact .of_quiet (fun _ => ⟨rfl, rfl⟩) rfl
  | succ n ih =>
      have hfirst := prints_pacedTick hfree
      have hpaced := pacedTick_fault hfree
      simp only [Attempt.repeatedly_succ_done]
      unfold showings
      unfold showing? at hfirst ⊢
      cases hfault : h.counted.fault with
      | some fault =>
          simp only [hfault] at hfirst ⊢
          exact hfirst.andThen_of_fault (hpaced.trans hfault) _
      | none =>
          simp only [hfault] at hfirst ⊢
          exact hfirst.andThen (hpaced.trans hfault) (ih (hfirst.unlimited hfree))

theorem prints_run (hfree : h.output.room = none) :
    Prints run h (h.showings h.settings.tickBound) := by
  have hticks := prints_ticks hfree h.settings.tickBound
  have hend : ∀ after : Host, Prints (finish · h.settings.maxTicks) after [] := by
    intro after
    cases h.settings.maxTicks <;> exact .of_quiet (fun _ => ⟨rfl, rfl⟩) rfl
  have hrun := hticks.andThen_quiet (hend _)
  exact ⟨hrun.cutOff, hrun.painter⟩

theorem prints_call (hfree : h.output.room = none) (pause : Nat) :
    Prints (·.call pause) h (h.showingsOfCall pause) := by
  have hrun : Prints run (h.advance pause) (h.showingsOfCall pause) := prints_run hfree
  exact ⟨hrun.cutOff, hrun.painter⟩

/-! ## Rows of calls -/

variable {pause : Nat} {pauses : List Nat}

theorem output_call_of_full (hfull : h.output.room = some 0) (pause : Nat) :
    (h.call pause).state.output = h.output := by
  have hprints : Prints (·.call pause) (h.onto none) _ := prints_call rfl pause
  have hcall : (h.call pause).state.output = (h.output.write _).1 :=
    (hprints.cutOff h.output).state.output
  rw [hcall, Output.write_of_full hfull]

theorem output_afterCalls_of_full (hfull : h.output.room = some 0) (pauses : List Nat) :
    (h.afterCalls pauses).output = h.output := by
  induction pauses generalizing h with
  | nil => rfl
  | cons pause rest ih =>
      have hcall := output_call_of_full hfull pause
      have hrest := ih (h := (h.call pause).state) (by rw [hcall, hfull])
      exact hrest.trans hcall

/-- A call that was cut does not change what the next calls would have written, but there is no room
for it any more. -/
theorem cut_afterCalls (hfree : h.output.room = none) (o : Output) (pauses : List Nat) :
    Cut o (h.textOf (h.showingsOfCalls pauses)) ((h.writingTo o).afterCalls pauses)
      (h.afterCalls pauses) := by
  induction pauses generalizing h o with
  | nil =>
      constructor
      · rw [showingsOfCalls, textOf_nil, Output.write_nil]
        rfl
      · rw [showingsOfCalls, textOf_nil, Output.write_nil]
        exact fun _ => rfl
  | cons pause rest ih =>
      have hcall := prints_call hfree pause
      have hcut := hcall.cutOff o
      rw [showingsOfCalls, hcall.textOf_append]
      refine hcut.state.trans (fun hfits => ?_) fun hfits => ?_
      · have hrest := ih (hcall.unlimited hfree) (o.write (h.textOf (h.showingsOfCall pause))).1
        rw [← hcut.state.whole hfits] at hrest
        exact hrest
      · have hfull := Output.room_of_write_cut hfits
        rw [← hcut.state.output] at hfull
        exact output_afterCalls_of_full hfull rest

theorem textOf_showingsOfCalls_append (hfree : h.output.room = none) (pauses later : List Nat) :
    h.textOf (h.showingsOfCalls (pauses ++ later)) =
      h.textOf (h.showingsOfCalls pauses) ++
        (h.afterCalls pauses).textOf ((h.afterCalls pauses).showingsOfCalls later) := by
  induction pauses generalizing h with
  | nil => rfl
  | cons pause rest ih =>
      have hcall := prints_call hfree pause
      rw [List.cons_append, showingsOfCalls, showingsOfCalls, hcall.textOf_append,
        hcall.textOf_append, ih (hcall.unlimited hfree), List.append_assoc]
      rfl

theorem textOf_showingsOfCalls_concat (hfree : h.output.room = none) (pauses : List Nat)
    (pause : Nat) :
    h.textOf (h.showingsOfCalls (pauses ++ [pause])) =
      h.textOf (h.showingsOfCalls pauses) ++
        (h.afterCalls pauses).textOf ((h.afterCalls pauses).showingsOfCall pause) := by
  rw [textOf_showingsOfCalls_append hfree, showingsOfCalls, showingsOfCalls, List.append_nil]

theorem afterCalls_append (h : Host) (pauses later : List Nat) :
    h.afterCalls (pauses ++ later) = (h.afterCalls pauses).afterCalls later :=
  List.foldl_append

theorem output_afterCalls (hfree : h.output.room = none) (pauses : List Nat) :
    (h.afterCalls pauses).output =
      ⟨h.output.written ++ h.textOf (h.showingsOfCalls pauses), none⟩ := by
  have hcalls : (h.afterCalls pauses).output =
      (h.output.write (h.textOf (h.showingsOfCalls pauses))).1 :=
    (cut_afterCalls hfree h.output pauses).output
  rw [hcalls, Output.write_of_unlimited hfree]

/-- While everything fits, the next call meets what the call of the free host meets, unless it does
not fit itself. -/
theorem fault_call_afterCalls (hfree : h.output.room = none) {o : Output}
    (hfits : (o.write (h.textOf (h.showingsOfCalls pauses))).2 = true) (pause : Nat) :
    let whole := (o.write (h.textOf (h.showingsOfCalls (pauses ++ [pause])))).2
    let fault := (((h.writingTo o).afterCalls pauses).call pause).fault
    (whole = true → fault = ((h.afterCalls pauses).call pause).fault) ∧
      (whole = false → fault = some .frame ∨ fault = some .bell) := by
  have hroom : (h.afterCalls pauses).output.room = none := by rw [output_afterCalls hfree]
  have hcall := prints_call hroom pause
  have hafter := (cut_afterCalls hfree o pauses).whole hfits
  have hcut := hcall.cutOff (o.write (h.textOf (h.showingsOfCalls pauses))).1
  rw [← hafter] at hcut
  rw [textOf_showingsOfCalls_concat hfree, Output.write_append_of_whole hfits]
  exact ⟨hcut.whole, hcut.cut⟩

/-- A row of calls on an output that never fails writes the transcript of what the ticks show.  The
same row on an output with room for `limit` characters, each of them one byte, writes the part of
it that fits.  The calls meet the same as long as their text fits.  The first one whose text does
not fit meets a fault of the output, and the later ones write nothing. -/
theorem output_is_cut_transcript (h : Host) (limit : Nat) :
    let free := h.onto none
    let limited := h.onto (some limit)
    let transcript := fun pauses => free.textOf (free.showingsOfCalls pauses)
    (∀ pauses, (free.afterCalls pauses).output.written.toList =
        h.output.written.toList ++ transcript pauses) ∧
      (∀ pauses later, transcript pauses <+: transcript (pauses ++ later)) ∧
      (∀ pauses, ∀ c ∈ transcript pauses, c.toNat < 128) ∧
      (∀ pauses, (limited.afterCalls pauses).output.written.toList =
        h.output.written.toList ++ (transcript pauses).take limit) ∧
      (∀ pauses pause, (transcript (pauses ++ [pause])).length ≤ limit →
        ((limited.afterCalls pauses).call pause).fault =
          ((free.afterCalls pauses).call pause).fault) ∧
      (∀ pauses pause, (transcript pauses).length ≤ limit →
        limit < (transcript (pauses ++ [pause])).length →
          ((limited.afterCalls pauses).call pause).fault = some .frame ∨
            ((limited.afterCalls pauses).call pause).fault = some .bell) ∧
      ∀ pauses later, limit < (transcript pauses).length →
        (limited.afterCalls (pauses ++ later)).output = (limited.afterCalls pauses).output := by
  intro free limited transcript
  have hfree : free.output.room = none := rfl
  have hgrows : ∀ pauses later, transcript pauses <+: transcript (pauses ++ later) := by
    intro pauses later
    exact ⟨_, (textOf_showingsOfCalls_append hfree pauses later).symm⟩
  have hroom : limited.output.room = some limit := rfl
  have hfits : ∀ pauses, (limited.output.write (transcript pauses)).2 = true ↔
      (transcript pauses).length ≤ limit :=
    fun pauses => (Output.written_write_of_room hroom (transcript pauses)).2
  have hcut : ∀ pauses, Cut limited.output (transcript pauses) (limited.afterCalls pauses)
      (free.afterCalls pauses) :=
    cut_afterCalls hfree limited.output
  refine ⟨?_, hgrows, ?_, ?_, ?_, ?_, ?_⟩
  · intro pauses
    rw [output_afterCalls hfree]
    exact Array.toList_appendList
  · intro pauses c hmem
    exact Showing.toNat_lt_of_mem_transcript hmem
  · intro pauses
    rw [(hcut pauses).output]
    exact (Output.written_write_of_room hroom (transcript pauses)).1
  · intro pauses pause hlength
    have hbefore := Nat.le_trans (hgrows pauses [pause]).length_le hlength
    exact (fault_call_afterCalls hfree ((hfits pauses).mpr hbefore) pause).1
      ((hfits _).mpr hlength)
  · intro pauses pause hbefore hlength
    refine (fault_call_afterCalls hfree ((hfits pauses).mpr hbefore) pause).2 ?_
    exact Bool.eq_false_iff.mpr fun hwhole => absurd ((hfits _).mp hwhole) (by omega)
  · intro pauses later hlength
    have hwhole : (limited.output.write (transcript pauses)).2 = false :=
      Bool.eq_false_iff.mpr fun hwhole => absurd ((hfits _).mp hwhole) (by omega)
    have hfull := Output.room_of_write_cut hwhole
    rw [← (hcut pauses).output] at hfull
    rw [afterCalls_append]
    exact output_afterCalls_of_full hfull later

/-- A host whose program draws a new frame in every call. -/
def blinking : Host :=
  .new ((Console.new .standard .perStep []).load #[0xD0, 0x05, 0x12, 0x00]).state
    ⟨0, 2, .perStep, some 1, true⟩ (.new none) 0

theorem output_is_cut_transcript_blinking :
    let free := blinking.onto none
    let limited := blinking.onto (some 3000)
    (free.textOf (free.showingsOfCalls [0])).length = 2087 ∧
      (free.textOf (free.showingsOfCalls [0, 7])).length = 4170 ∧
      (limited.call 0).fault = none ∧
      (((limited.afterCalls [0]).call 7).fault = some .frame ∨
        ((limited.afterCalls [0]).call 7).fault = some .bell) ∧
      (limited.afterCalls [0, 7, 1]).output = (limited.afterCalls [0, 7]).output := by
  intro free limited
  have hlengths : (free.textOf (free.showingsOfCalls [0])).length = 2087 ∧
      (free.textOf (free.showingsOfCalls [0, 7])).length = 4170 ∧
      (free.call 0).fault = none := by
    decide +kernel
  obtain ⟨hfirst, hsecond, hdone⟩ := hlengths
  obtain ⟨-, -, -, -, hsame, hcut, hfull⟩ := output_is_cut_transcript blinking 3000
  have hfits : (free.textOf (free.showingsOfCalls [0])).length ≤ 3000 := by omega
  have hlong : 3000 < (free.textOf (free.showingsOfCalls [0, 7])).length := by omega
  exact ⟨hfirst, hsecond, (hsame [] 0 hfits).trans hdone, hcut [0] 7 hfits hlong,
    hfull [0, 7] [1] hlong⟩

end Host

end ChipEight
