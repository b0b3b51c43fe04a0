import ChipEight.Host.Operation
import ChipEight.Proofs.FrameText
import ChipEight.Proofs.Refusal

/-!
# The display is never stale

Between two frames the cells of a screen change only together with the mark that they did, and the
host takes that mark away only when it has written a whole frame of these very cells.  What it
writes after a frame and before the next one is bells.  So a screen without the mark is the one that
the last frame of the output shows, in whatever order runs, failures and operations on the machine
come.
-/

namespace ChipEight

/-! ## Machines -/

namespace Machine

def ScreenKept (m after : Machine) : Prop :=
  after.screen = m.screen ∨ after.screen.stale = true

theorem ScreenKept.refl (m : Machine) : ScreenKept m m :=
  Or.inl rfl

theorem ScreenKept.trans {m between after : Machine} (hfirst : ScreenKept m between)
    (hsecond : ScreenKept between after) :
    ScreenKept m after := by
  rcases hsecond with hsame | hstale
  · rcases hfirst with hsame' | hstale'
    · exact Or.inl (hsame.trans hsame')
    · exact Or.inr (by rw [hsame]; exact hstale')
  · exact Or.inr hstale

theorem Effect.screenKept {m after : Machine} {instruction : Instruction} {flow : Flow}
    (heffect : Effect m instruction flow after) :
    ScreenKept m after := by
  cases heffect with
  | clear => exact Or.inr rfl
  | draw x y rows hrange => exact Or.inr rfl
  | _ => exact Or.inl rfl

theorem screenKept_step (m : Machine) (now : Nat) : ScreenKept m (m.step now).state := by
  cases hfault : (m.step now).fault with
  | some fault =>
      obtain ⟨lastAddress, lastWord, hnoting⟩ := m.noting_keeps fault
      rw [step_state_of_fault hfault, hnoting]
      exact .refl m
  | none =>
      obtain ⟨word, flow, after, hperforms, -, hstate⟩ := performs_of_step hfault
      rw [hstate]
      exact hperforms.effect.screenKept

theorem screenKept_load (m : Machine) (program : Program) :
    ScreenKept m (m.load program).state := by
  obtain ⟨memory, loaded, hload⟩ := m.load_state program
  rw [hload]
  exact Or.inl rfl

theorem screenKept_operate (m : Machine) (now : Nat) {operation : Operation}
    (hoperation : operation ≠ .acknowledgeScreen) :
    ScreenKept m (m.operate now operation).2 := by
  cases operation with
  | load program => exact screenKept_load m program
  | step => exact screenKept_step m now
  | reset => exact Or.inr rfl
  | resetAndLoad program =>
      have hreset : ScreenKept m (m.reset now) := Or.inr rfl
      exact hreset.trans (screenKept_load (m.reset now) program)
  | acknowledgeScreen => exact absurd rfl hoperation
  | _ => exact Or.inl rfl

end Machine

/-! ## Outputs -/

namespace Output

theorem written_write (o : Output) (piece : List Char) :
    ∃ taken, (o.write piece).1.written.toList = o.written.toList ++ taken ∧
      (∀ c ∈ taken, c ∈ piece) ∧ ((o.write piece).2 = true → taken = piece) := by
  unfold write
  cases o.room with
  | none => exact ⟨piece, by simp, fun c hc => hc, fun _ => rfl⟩
  | some room =>
      refine ⟨piece.take room, by simp, fun c hc => List.mem_of_mem_take hc, ?_⟩
      intro hwhole
      exact List.take_of_length_le (of_decide_eq_true hwhole)

end Output

namespace Painter

theorem written_paint {p : Painter} {cells : Screen.Cells} {o : Output}
    (hwhole : (p.paint cells o).2.2 = true) :
    ∃ before, (p.paint cells o).2.1.written.toList =
      before ++ (Frame.lines cells).flatten := by
  unfold paint at hwhole ⊢
  split at hwhole
  next => cases hwhole
  next out hheader =>
    rw [Output.writeAll_eq_write_flatten] at hwhole ⊢
    obtain ⟨taken, hwritten, -, htaken⟩ := out.written_write (Frame.lines cells).flatten
    exact ⟨out.written.toList, by rw [hwritten, htaken hwhole]⟩

end Painter

/-! ## The host -/

namespace Host

/-- Unless the screen is marked as stale, the text ends in a frame of its cells, behind which no
other line has ended. -/
def Shows (h : Host) : Prop :=
  h.console.machine.screen.stale = false →
    ∃ before after, h.output.written.toList =
        before ++ ((Frame.lines h.console.machine.screen.cells).flatten ++ after) ∧
      '\n' ∉ after

theorem Shows.of_screenKept {h after : Host} (hshows : h.Shows)
    (hscreen : Machine.ScreenKept h.console.machine after.console.machine)
    (hwritten : after.output.written = h.output.written) :
    after.Shows := by
  intro hfresh
  rcases hscreen with hsame | hstale
  · rw [hsame] at hfresh ⊢
    rw [hwritten]
    exact hshows hfresh
  · rw [hstale] at hfresh
    cases hfresh

theorem Shows.last? {h : Host} (hshows : h.Shows)
    (hfresh : h.console.machine.screen.stale = false) :
    Frame.last? h.output.written.toList = some h.console.machine.screen.cells := by
  obtain ⟨before, after, hwritten, hafter⟩ := hshows hfresh
  rw [hwritten]
  exact Frame.last?_append before (Frame.read?_flatten_lines_cells _) hafter

/-! ## The parts of a tick -/

theorem Shows.advance {h : Host} (hshows : h.Shows) (elapsed : Nat) : (h.advance elapsed).Shows :=
  hshows.of_screenKept (Or.inl rfl) rfl

theorem screenKept_repeatedly_step (c : Console) (n : Nat) :
    Machine.ScreenKept c.machine
      (Attempt.repeatedly Console.step n (.done c #[])).state.machine := by
  refine Attempt.repeatedly_induction
    (Q := fun a : Attempt Console Fault => Machine.ScreenKept c.machine a.state.machine) ?_ n
    (.refl c.machine)
  intro a hfault ha
  rw [(Attempt.andThen_of_succeeded hfault Console.step).1]
  exact ha.trans (Machine.screenKept_step a.state.machine a.state.now)

theorem batch_eq (h : Host) :
    let a := Attempt.repeatedly Console.step h.settings.stepsPerTick (.done h.console #[])
    h.batch.state = { h with console := a.state } ∧ h.batch.fault = a.fault.map .step := by
  intro a
  unfold batch batchOf
  cases hfault : a.fault with
  | none =>
      simp only [a, hfault]
      exact ⟨rfl, rfl⟩
  | some fault =>
      simp only [a, hfault]
      exact ⟨rfl, rfl⟩

theorem Shows.batch {h : Host} (hshows : h.Shows) : h.batch.state.Shows := by
  rw [h.batch_eq.1]
  exact hshows.of_screenKept (screenKept_repeatedly_step h.console _) rfl

theorem Shows.countDown {h : Host} (hshows : h.Shows) : h.countDown.state.Shows := by
  unfold Host.countDown
  split
  next => exact hshows.of_screenKept (Or.inl rfl) rfl
  next => exact hshows

theorem present_of_fresh {h : Host} (hfresh : h.console.machine.screen.stale = false) :
    h.present = .done h #[] := by
  unfold present
  exact if_neg (by rw [hfresh]; exact Bool.false_ne_true)

theorem present_of_stale {h : Host} (hstale : h.console.machine.screen.stale = true) :
    (h.present.fault = none ∧
        h.present.state.console.machine.screen = h.console.machine.screen.acknowledge ∧
        ∃ before, h.present.state.output.written.toList =
          before ++ (Frame.lines h.console.machine.screen.cells).flatten) ∨
      (h.present.fault = some .frame ∧
        h.present.state.console.machine.screen = h.console.machine.screen) := by
  unfold present
  simp only [hstale, if_true]
  rcases hpaint : h.painter.paint h.console.machine.screen.cells h.output with
    ⟨painter, output, whole⟩
  cases whole with
  | true =>
      obtain ⟨before, hwritten⟩ := Painter.written_paint (congrArg (·.2.2) hpaint)
      rw [hpaint] at hwritten
      exact Or.inl ⟨rfl, rfl, before, hwritten⟩
  | false => exact Or.inr ⟨rfl, rfl⟩

theorem Shows.present {h : Host} (hshows : h.Shows) : h.present.state.Shows := by
  intro hfresh
  cases hstale : h.console.machine.screen.stale with
  | false =>
      rw [present_of_fresh hstale]
      exact hshows hstale
  | true =>
      rcases present_of_stale hstale with ⟨-, hscreen, before, hwritten⟩ | ⟨-, hscreen⟩
      · exact ⟨before, [], by rw [hwritten, hscreen, List.append_nil]; rfl, List.not_mem_nil⟩
      · rw [hscreen, hstale] at hfresh
        cases hfresh

theorem present_fault (h : Host) :
    (h.present.fault = none ∧ h.present.state.console.machine.screen.stale = false) ∨
      (h.present.fault = some .frame ∧ h.present.state.console.machine.screen.stale = true) := by
  cases hstale : h.console.machine.screen.stale with
  | false =>
      rw [present_of_fresh hstale]
      exact Or.inl ⟨rfl, hstale⟩
  | true =>
      rcases present_of_stale hstale with ⟨hfault, hscreen, -⟩ | ⟨hfault, hscreen⟩
      · exact Or.inl ⟨hfault, by rw [hscreen]; rfl⟩
      · exact Or.inr ⟨hfault, by rw [hscreen, hstale]⟩

theorem ring_keeps (h : Host) :
    h.ring.state.console.machine.screen = h.console.machine.screen ∧
      h.ring.fault ≠ some .frame ∧
      ∃ taken, h.ring.state.output.written.toList = h.output.written.toList ++ taken ∧
        '\n' ∉ taken := by
  obtain ⟨taken, hwritten, hpart, -⟩ := h.output.written_write Frame.bell
  have hnewline : '\n' ∉ taken := by
    intro hmem
    exact absurd (hpart _ hmem) (by decide)
  unfold ring
  cases hbeep : h.console.machine.timers.beep with
  | false =>
      simp only [hbeep, Bool.false_eq_true, if_false]
      refine ⟨rfl, ?_, [], (List.append_nil _).symm, List.not_mem_nil⟩
      intro hframe
      cases hframe
  | true =>
      simp only [hbeep, if_true]
      rcases hbell : h.output.write Frame.bell with ⟨output, whole⟩
      rw [hbell] at hwritten
      cases whole with
      | true =>
          refine ⟨rfl, ?_, taken, hwritten, hnewline⟩
          intro hframe
          cases hframe
      | false =>
          refine ⟨rfl, ?_, taken, hwritten, hnewline⟩
          intro hframe
          cases hframe

theorem Shows.ring {h : Host} (hshows : h.Shows) : h.ring.state.Shows := by
  obtain ⟨hscreen, -, taken, hring, htaken⟩ := h.ring_keeps
  intro hfresh
  rw [hscreen] at hfresh ⊢
  obtain ⟨before, after, hwritten, hafter⟩ := hshows hfresh
  refine ⟨before, after ++ taken, ?_, ?_⟩
  · rw [hring, hwritten, List.append_assoc, List.append_assoc]
  · rw [List.mem_append]
    exact not_or.mpr ⟨hafter, htaken⟩

/-! ## Ticks and runs -/

theorem Shows.tick {h : Host} (hshows : h.Shows) : h.tick.state.Shows := by
  have hcounted : (h.batch.andThen Host.countDown).state.Shows :=
    Attempt.andThen_state hshows.batch fun _ hbatch => hbatch.countDown
  have hpresented : ((h.batch.andThen Host.countDown).andThen Host.present).state.Shows :=
    Attempt.andThen_state hcounted fun _ hcount => hcount.present
  exact Attempt.andThen_state hpresented fun _ hpresent => hpresent.ring

theorem Shows.pacedTick {h : Host} (hshows : h.Shows) : h.pacedTick.state.Shows :=
  Attempt.andThen_state hshows.tick fun _ htick => htick.advance _

/-- Before it shows anything a tick can only fail in its steps. -/
theorem exists_step_of_counted_fault {h : Host} {fault : HostFault}
    (hfault : (h.batch.andThen countDown).fault = some fault) :
    ∃ cause, fault = .step cause := by
  cases hbatch : h.batch.fault with
  | some found =>
      rw [Attempt.andThen_of_fault hbatch, h.batch_eq.2, Option.map_eq_some_iff] at hfault
      obtain ⟨cause, -, hcause⟩ := hfault
      exact ⟨cause, hcause.symm⟩
  | none =>
      rw [(Attempt.andThen_of_succeeded hbatch countDown).2] at hfault
      unfold countDown at hfault
      split at hfault <;> cases hfault

theorem tick_fault (h : Host) :
    (h.tick.fault = none → h.tick.state.console.machine.screen.stale = false) ∧
      (h.tick.fault = some .frame → h.tick.state.console.machine.screen.stale = true) := by
  have hcounted : ∀ fault, (h.batch.andThen countDown).fault = some fault →
      ∃ cause, fault = .step cause := fun _ => exists_step_of_counted_fault
  unfold tick
  generalize h.batch.andThen countDown = counted at hcounted ⊢
  cases hfault : counted.fault with
  | some fault =>
      obtain ⟨cause, rfl⟩ := hcounted fault hfault
      rw [Attempt.andThen_of_fault hfault, Attempt.andThen_of_fault hfault, hfault]
      exact ⟨nofun, nofun⟩
  | none =>
      obtain ⟨hstate, hpresented⟩ := Attempt.andThen_of_succeeded hfault present
      rcases counted.state.present_fault with ⟨hnone, hfresh⟩ | ⟨hframe, hstale⟩
      · obtain ⟨hrung, hrungFault⟩ := Attempt.andThen_of_succeeded (hpresented.trans hnone) ring
        obtain ⟨hscreen, hbell, -⟩ := (counted.andThen present).state.ring_keeps
        rw [hrung, hrungFault, hscreen, hstate]
        rw [hstate] at hbell
        exact ⟨fun _ => hfresh, fun hframe => absurd hframe hbell⟩
      · rw [Attempt.andThen_of_fault (hpresented.trans hframe), hpresented, hframe, hstate]
        exact ⟨nofun, fun _ => hstale⟩

theorem pacedTick_fault_frame {h : Host} (hframe : h.pacedTick.fault = some .frame) :
    h.pacedTick.state.console.machine.screen.stale = true := by
  unfold pacedTick at hframe ⊢
  cases hfault : h.tick.fault with
  | none =>
      rw [(Attempt.andThen_of_succeeded hfault _).2] at hframe
      cases hframe
  | some fault =>
      rw [Attempt.andThen_of_fault hfault] at hframe ⊢
      exact h.tick_fault.2 hframe

theorem Shows.ticks {h : Host} (hshows : h.Shows) (n : Nat) :
    let a := Attempt.repeatedly Host.pacedTick n (.done h #[])
    a.state.Shows ∧ (a.fault = some .frame → a.state.console.machine.screen.stale = true) := by
  refine Attempt.repeatedly_induction
    (Q := fun a : Attempt Host HostFault => a.state.Shows ∧
      (a.fault = some .frame → a.state.console.machine.screen.stale = true)) ?_ n ⟨hshows, nofun⟩
  rintro a hnone ⟨ha, -⟩
  obtain ⟨hstate, hfault⟩ := Attempt.andThen_of_succeeded hnone Host.pacedTick
  rw [hstate, hfault]
  exact ⟨ha.pacedTick, pacedTick_fault_frame⟩

theorem Shows.run {h : Host} (hshows : h.Shows) : h.run.state.Shows := by
  refine Attempt.andThen_state (hshows.ticks _).1 fun after hticks => ?_
  rw [finish_state]
  exact hticks

theorem Shows.run_fault_frame {h : Host} (hshows : h.Shows) (hframe : h.run.fault = some .frame) :
    h.run.state.console.machine.screen.stale = true := by
  obtain ⟨-, hticks⟩ := hshows.ticks h.settings.tickBound
  unfold Host.run at hframe ⊢
  cases hfault : (Attempt.repeatedly Host.pacedTick h.settings.tickBound (.done h #[])).fault with
  | none =>
      rw [(Attempt.andThen_of_succeeded hfault _).2, finish_fault] at hframe
      split at hframe <;> cases hframe
  | some fault =>
      rw [Attempt.andThen_of_fault hfault] at hframe ⊢
      exact hticks hframe

/-! ## Histories -/

theorem Shows.onto {h : Host} (hshows : h.Shows) (room : Option Nat) : (h.onto room).Shows :=
  hshows.of_screenKept (Or.inl rfl) rfl

theorem Shows.operate {h : Host} (hshows : h.Shows) {operation : HostOperation}
    (hoperation : operation ≠ .machine .acknowledgeScreen) :
    (h.operate operation).Shows := by
  cases operation with
  | run room => exact (hshows.onto room).run
  | tick room => exact (hshows.onto room).pacedTick
  | machine operation =>
      refine hshows.of_screenKept ?_ rfl
      exact Machine.screenKept_operate _ _ fun hsame => hoperation (by rw [hsame])
  | command commands => exact hshows.of_screenKept (Or.inl rfl) rfl
  | wait elapsed => exact hshows.advance elapsed

theorem Shows.after {h : Host} (hshows : h.Shows) {history : List HostOperation}
    (hhistory : ∀ operation ∈ history, operation ≠ .machine .acknowledgeScreen) :
    (h.after history).Shows := by
  induction history generalizing h with
  | nil => exact hshows
  | cons operation rest ih =>
      have hnext := hshows.operate (hhistory operation List.mem_cons_self)
      exact ih hnext fun later hlater => hhistory later (List.mem_cons_of_mem _ hlater)

theorem shows_new (dialect : Dialect) (mode : TimerMode) (random : List UInt8)
    (settings : Settings) (output : Output) (flushTime : Nat) :
    (Host.new (.new dialect mode random) settings output flushTime).Shows := by
  intro hfresh
  cases hfresh

/-- Whatever the history of a host whose owner leaves the mark of its screen alone, a screen without
the mark is the one that the last frame shows.  A tick without a fault ends with such a screen, and
a frame that fails, in a tick or in a run, leaves the mark. -/
theorem last_frame_is_screen (dialect : Dialect) (mode : TimerMode) (random : List UInt8)
    (settings : Settings) (output : Output) (flushTime : Nat) {history : List HostOperation}
    (hhistory : ∀ operation ∈ history, operation ≠ .machine .acknowledgeScreen) :
    let h := (Host.new (.new dialect mode random) settings output flushTime).after history
    (h.console.machine.screen.stale = false →
        Frame.last? h.output.written.toList = some h.console.machine.screen.cells) ∧
      ∀ room : Option Nat,
        let tick := (h.onto room).tick
        let run := (h.onto room).run
        (tick.fault = none →
            tick.state.console.machine.screen.stale = false ∧
              Frame.last? tick.state.output.written.toList =
                some tick.state.console.machine.screen.cells) ∧
          (tick.fault = some .frame → tick.state.console.machine.screen.stale = true) ∧
          (run.fault = some .frame → run.state.console.machine.screen.stale = true) := by
  intro h
  have hshows : h.Shows := (shows_new dialect mode random settings output flushTime).after hhistory
  refine ⟨hshows.last?, ?_⟩
  intro room tick run
  refine ⟨?_, (h.onto room).tick_fault.2, (hshows.onto room).run_fault_frame⟩
  intro hnone
  have hfresh := (h.onto room).tick_fault.1 hnone
  exact ⟨hfresh, (hshows.onto room).tick.last? hfresh⟩

def presenting : Host :=
  .new (.new .standard .perStep []) ⟨0, 2, .perStep, some 1, true⟩ (.new none) 0

/-- A sprite whose frame fails at first and is painted in the next tick. -/
def lateFrame : List HostOperation :=
  [.machine (.load #[0xD0, 0x05, 0x12, 0x02]), .run (some 100), .tick none]

theorem last_frame_is_screen_lateFrame :
    (presenting.after lateFrame).console.machine.screen.stale = false ∧
      Frame.last? (presenting.after lateFrame).output.written.toList =
        some (presenting.after lateFrame).console.machine.screen.cells := by
  have hfresh : (presenting.after lateFrame).console.machine.screen.stale = false := by
    decide +kernel
  have hhistory : ∀ operation ∈ lateFrame, operation ≠ .machine .acknowledgeScreen := by decide
  obtain ⟨hshown, -⟩ := last_frame_is_screen .standard .perStep []
    ⟨0, 2, .perStep, some 1, true⟩ (.new none) 0 hhistory
  unfold presenting at hfresh ⊢
  exact ⟨hfresh, hshown hfresh⟩

end Host

end ChipEight
