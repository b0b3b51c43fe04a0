import ChipEight.Proofs.Display
import ChipEight.Proofs.Marks
import ChipEight.Proofs.Painting
import Mathlib.Data.List.Induction

/-!
# A run of the host is a row of batches

Between the batches of steps a host shows the screen, rings the bell and sleeps.  None of this
reaches the program: what it changes in the machine are the two marks, and time only matters to
timers that follow it.  So a run takes a machine where plain steps would have taken it, and it stops
where they would have stopped.
-/

namespace ChipEight

namespace Log

/-- The records that tell of the machine. -/
def withoutHost (log : Log) : Log :=
  log.filter (·.source != .host)

theorem withoutHost_append (first second : Log) :
    withoutHost (first ++ second) = withoutHost first ++ withoutHost second :=
  Array.filter_append Array.size_append

theorem withoutHost_eq_self {log : Log} (hlog : ∀ record ∈ log, record.source ≠ .host) :
    log.withoutHost = log := by
  unfold withoutHost
  rw [Array.filter_eq_self]
  intro record hmem
  simpa using hlog record hmem

end Log

namespace Attempt

variable {σ τ ε δ : Type}

/-- Two attempts that went the same way: they reached related states, were stopped by the same
fault if by any, and made the same records, apart from what the host adds of its own. -/
structure Agree (related : σ → τ → Prop) (cause : δ → ε) (a : Attempt σ ε) (b : Attempt τ δ) :
    Prop where
  state : related a.state b.state
  fault : a.fault = b.fault.map cause
  log : a.log.withoutHost = b.log

variable {related : σ → τ → Prop} {cause : δ → ε} {a : Attempt σ ε} {b : Attempt τ δ}

theorem Agree.done {state : σ} {other : τ} (hrelated : related state other) :
    Agree related cause (.done state #[]) (.done other #[]) :=
  ⟨hrelated, rfl, rfl⟩

theorem Agree.fault_eq_none_iff (hagree : Agree related cause a b) :
    a.fault = none ↔ b.fault = none := by
  rw [hagree.fault, Option.map_eq_none_iff]

theorem Agree.andThen (hagree : Agree related cause a b) {next : σ → Attempt σ ε}
    {later : τ → Attempt τ δ}
    (hnext : ∀ state other, related state other →
      Agree related cause (next state) (later other)) :
    Agree related cause (a.andThen next) (b.andThen later) := by
  cases hfault : b.fault with
  | some fault =>
      have hsame : a.fault = some (cause fault) := by
        rw [hagree.fault, hfault]
        rfl
      rw [andThen_of_fault hsame, andThen_of_fault hfault]
      exact hagree
  | none =>
      have hsame := hagree.fault_eq_none_iff.mpr hfault
      have hrest := hnext _ _ hagree.state
      obtain ⟨hstate, hfaults⟩ := andThen_of_succeeded hsame next
      obtain ⟨hstate', hfaults'⟩ := andThen_of_succeeded hfault later
      constructor
      · rw [hstate, hstate']
        exact hrest.state
      · rw [hfaults, hfaults']
        exact hrest.fault
      · rw [log_andThen_of_succeeded hsame, log_andThen_of_succeeded hfault,
          Log.withoutHost_append, hagree.log, hrest.log]

/-- Something that cannot fail and that the other side does not see. -/
theorem Agree.andThen_left (hagree : Agree related cause a b) {next : σ → Attempt σ ε}
    (hnext : ∀ state other, related state other → related (next state).state other ∧
      (next state).fault = none ∧ (next state).log.withoutHost = #[]) :
    Agree related cause (a.andThen next) b := by
  cases hfault : a.fault with
  | some fault =>
      rw [andThen_of_fault hfault]
      exact hagree
  | none =>
      obtain ⟨hrelated, hdone, hquiet⟩ := hnext _ _ hagree.state
      obtain ⟨hstate, hfaults⟩ := andThen_of_succeeded hfault next
      constructor
      · rw [hstate]
        exact hrelated
      · rw [hfaults, hdone, ← hfault]
        exact hagree.fault
      · rw [log_andThen_of_succeeded hfault, Log.withoutHost_append, hagree.log, hquiet,
          Array.append_empty]

theorem Agree.repeatedly (hagree : Agree related cause a b) {next : σ → Attempt σ ε}
    {later : τ → Attempt τ δ}
    (hnext : ∀ state other, related state other →
      Agree related cause (next state) (later other)) (n : Nat) :
    Agree related cause (repeatedly next n a) (repeatedly later n b) :=
  repeatedly_related (fun _ _ hboth => hboth.andThen hnext) n hagree

end Attempt

/-! ## Batches of steps -/

namespace Machine

/-- A row of steps, after which the timers count down if their owner sees to that. -/
def batch (m : Machine) (mode : TimerMode) (now count : Nat) : Attempt Machine Fault :=
  (m.steps now count).andThen fun after =>
    if mode = .external then .done after.tickTimers after.timers.tickLog else .done after #[]

def batches (m : Machine) (mode : TimerMode) (now count ticks : Nat) : Attempt Machine Fault :=
  Attempt.repeatedly (·.batch mode now count) ticks (.done m #[])

theorem batches_eq_steps (m : Machine) {mode : TimerMode} (hmode : mode ≠ .external)
    (now count ticks : Nat) :
    m.batches mode now count ticks = m.steps now (count * ticks) := by
  have hbatch : ∀ m : Machine, m.batch mode now count = m.steps now count := by
    intro m
    unfold batch
    simp only [if_neg hmode]
    exact (Attempt.repeatedly_eq_andThen (·.step now) 0 (m.steps now count)).symm
  unfold batches
  simp only [hbatch]
  exact Attempt.repeatedly_repeatedly _ count ticks _

/-! ## Records of the machine -/

theorem source_of_mem_tickLog {t : Timers} {record : Record} (hmem : record ∈ t.tickLog) :
    record.source = .timers := by
  unfold Timers.tickLog at hmem
  split at hmem
  next => rw [Array.mem_singleton.mp hmem]
  next => simp at hmem

theorem source_of_mem_log_cycle {m : Machine} {record : Record} (hmem : record ∈ m.cycle.log) :
    record.source = .processor := by
  unfold cycle at hmem
  split at hmem
  next =>
    split at hmem
    next => simp [Attempt.failed] at hmem
    next word _ =>
      unfold perform at hmem
      split at hmem
      next =>
        simp only [Attempt.failed] at hmem
        split at hmem
        next => rw [Array.mem_singleton.mp hmem]; rfl
        next => simp at hmem
      next => rw [Array.mem_singleton.mp hmem]; rfl
  next => simp [Attempt.failed] at hmem

theorem source_of_mem_log_step {m : Machine} {now : Nat} {record : Record}
    (hmem : record ∈ (m.step now).log) :
    record.source ≠ .host := by
  have hcycle : record ∈ m.cycle.log → record.source ≠ .host := by
    intro hrecord
    rw [source_of_mem_log_cycle hrecord]
    decide
  unfold step at hmem
  split at hmem
  next =>
    cases hfault : m.cycle.fault with
    | some fault =>
        rw [Attempt.andThen_of_fault hfault] at hmem
        exact hcycle hmem
    | none =>
        rw [Attempt.log_andThen_of_succeeded hfault, Array.mem_append] at hmem
        rcases hmem with hrecord | hrecord
        · exact hcycle hrecord
        · simp only [Attempt.done, Timers.updateLog] at hrecord
          split at hrecord
          next =>
            rw [source_of_mem_tickLog hrecord]
            decide
          next => simp at hrecord
  next => simp [Attempt.failed] at hmem

end Machine

/-! ## The host -/

namespace Console

/-- A console of which only the machine moves, beside a machine that it takes the same way. -/
structure Drives (start : Console) (c : Console) (m : Machine) : Prop where
  machine : c.machine.unmarked = m.unmarked
  mode : m.timers.mode ≠ .realTime
  rest : c = { start with machine := c.machine }

theorem Drives.step {start c : Console} {m : Machine} (hdrives : start.Drives c m) (now : Nat) :
    Attempt.Agree start.Drives id c.step (m.step now) := by
  obtain ⟨shown, rung, hstep⟩ :=
    Machine.step_marked hdrives.mode c.machine.screen.stale c.machine.timers.beep now c.now
  have hmode : (m.step now).state.timers.mode = m.timers.mode :=
    (Machine.Configured.step ⟨rfl, rfl⟩ now).mode
  have hlog : (m.step now).log.withoutHost = (m.step now).log :=
    Log.withoutHost_eq_self fun _ => Machine.source_of_mem_log_step
  rw [← Machine.eq_marked_of_unmarked_eq hdrives.machine] at hstep
  unfold Console.step
  rw [hstep]
  refine ⟨⟨rfl, ?_, ?_⟩, ?_, hlog⟩
  · rw [hmode]
    exact hdrives.mode
  · rw [hdrives.rest]
    rfl
  · simp [Attempt.lift]

theorem advance_of_idle {c : Console} (hidle : c.keyboard.pending = []) (elapsed : Nat) :
    c.advance elapsed = { c with now := c.now + elapsed } := by
  obtain ⟨machine, ⟨presses, pending⟩, now⟩ := c
  cases hidle
  rfl

end Console

namespace Host

theorem batchOf_add (h : Host) (m n : Nat) :
    h.batchOf (m + n) = (h.batchOf m).andThen (·.batchOf n) := by
  unfold batchOf
  rw [Attempt.repeatedly_add]
  generalize Attempt.repeatedly Console.step m (.done h.console #[]) = a
  cases hfault : a.fault with
  | some fault =>
      rw [Attempt.repeatedly_of_fault hfault]
      simp only [hfault, Attempt.andThen_failed]
  | none =>
      have hrest := Attempt.andThen_of_succeeded hfault fun c =>
        Attempt.repeatedly Console.step n (.done c #[])
      have hlog := Attempt.log_andThen_of_succeeded hfault fun c =>
        Attempt.repeatedly Console.step n (.done c #[])
      rw [Attempt.repeatedly_eq_andThen]
      simp only [hfault, hrest.1, hrest.2, hlog, Attempt.andThen_done]
      generalize Attempt.repeatedly Console.step n (.done a.state #[]) = b
      cases b.fault with
      | none => rfl
      | some fault =>
          have hpush : (a.log ++ b.log).push (stopRecord b.state fault) =
              a.log ++ b.log.push (stopRecord b.state fault) := Array.push_append
          simp only [hpush]
          rfl

/-- The steps of a batch can be made in pieces. -/
theorem foldl_batchOf (h : Host) (pieces : List Nat) :
    pieces.foldl (fun a steps => a.andThen (·.batchOf steps)) (.done h #[]) =
      h.batchOf (pieces.foldl (· + ·) 0) := by
  induction pieces using List.reverseRecOn with
  | nil => rfl
  | append_singleton pieces steps ih =>
      rw [List.foldl_append, ih, List.foldl_append]
      exact (h.batchOf_add _ steps).symm

/-- A host whose output never fails and whose keyboard has nothing to do, beside the machine that it
takes where plain steps take it. -/
structure Drives (settings : Settings) (h : Host) (m : Machine) : Prop where
  machine : h.console.machine.unmarked = m.unmarked
  mode : m.timers.mode ≠ .realTime
  idle : h.console.keyboard.pending = []
  unlimited : h.output.room = none
  same : h.settings = settings

variable {settings : Settings} {h : Host} {m : Machine}

theorem Drives.advance (hdrives : Drives settings h m) (elapsed : Nat) :
    Drives settings (h.advance elapsed) m := by
  unfold Host.advance
  rw [Console.advance_of_idle hdrives.idle]
  exact ⟨hdrives.machine, hdrives.mode, hdrives.idle, hdrives.unlimited, hdrives.same⟩

theorem withoutHost_log_batch (h : Host) :
    h.batch.log.withoutHost = (Attempt.repeatedly Console.step h.settings.stepsPerTick
      (.done h.console #[])).log.withoutHost := by
  unfold batch batchOf
  generalize Attempt.repeatedly Console.step h.settings.stepsPerTick (.done h.console #[]) = a
  cases hfault : a.fault with
  | none =>
      simp only [hfault]
      rfl
  | some fault =>
      simp only [hfault]
      change Log.withoutHost (a.log.push (stopRecord a.state fault)) = a.log.withoutHost
      rw [← Array.append_singleton, Log.withoutHost_append]
      exact Array.append_empty

theorem Drives.batch (hdrives : Drives settings h m) (now : Nat) :
    Attempt.Agree (Drives settings) .step h.batch (m.steps now settings.stepsPerTick) := by
  have hstart : h.console.Drives h.console m := ⟨hdrives.machine, hdrives.mode, rfl⟩
  obtain rfl := hdrives.same
  have hsteps := (Attempt.Agree.done hstart).repeatedly (fun _ _ hconsole => hconsole.step now)
    h.settings.stepsPerTick
  obtain ⟨hstate, hfault⟩ := h.batch_eq
  constructor
  · have hrest := hsteps.state.rest
    rw [hstate]
    refine ⟨hsteps.state.machine, hsteps.state.mode, ?_, hdrives.unlimited, rfl⟩
    rw [hrest]
    exact hdrives.idle
  · rw [hfault, hsteps.fault, Option.map_id_fun, id]
    rfl
  · exact h.withoutHost_log_batch.trans hsteps.log

theorem Drives.countDown (hdrives : Drives settings h m) :
    Attempt.Agree (Drives settings) .step h.countDown
      (if settings.timerMode = .external then .done m.tickTimers m.timers.tickLog
        else .done m #[]) := by
  have hmachine := Machine.eq_marked_of_unmarked_eq hdrives.machine
  obtain rfl := hdrives.same
  unfold Host.countDown
  split
  next =>
    refine ⟨⟨?_, hdrives.mode, hdrives.idle, hdrives.unlimited, rfl⟩, rfl, ?_⟩
    · change h.console.machine.tickTimers.unmarked = m.tickTimers.unmarked
      rw [hmachine]
      rfl
    · change h.console.machine.timers.tickLog.withoutHost = m.timers.tickLog
      rw [hmachine]
      refine Log.withoutHost_eq_self fun record hmem => ?_
      rw [Machine.source_of_mem_tickLog hmem]
      decide
  next => exact ⟨hdrives, rfl, rfl⟩

/-! ## Showing -/

theorem Drives.painted (hdrives : Drives settings h m) : Drives settings h.painted m := by
  unfold Host.painted
  split
  next =>
    have hflushed := hdrives.advance h.flushTime
    exact ⟨hflushed.machine, hflushed.mode, hflushed.idle, hflushed.unlimited, hflushed.same⟩
  next => exact hdrives

theorem Drives.present (hdrives : Drives settings h m) :
    Drives settings h.present.state m ∧ h.present.fault = none ∧
      h.present.log.withoutHost = #[] := by
  have hwrite := Output.write_of_unlimited hdrives.unlimited h.frameText
  have hpresent := present_of_whole (h := h) (by rw [hwrite])
  have hpainted := hdrives.painted
  rw [hpresent, hwrite]
  exact ⟨⟨hpainted.machine, hpainted.mode, hpainted.idle, rfl, hpainted.same⟩, rfl, rfl⟩

theorem Drives.rung (hdrives : Drives settings h m) : Drives settings h.rung m := by
  unfold Host.rung
  split
  next =>
    have htaken : Drives settings
        { h with console := { h.console with machine := h.console.machine.takeBeep } } m :=
      ⟨hdrives.machine, hdrives.mode, hdrives.idle, hdrives.unlimited, hdrives.same⟩
    exact htaken.advance h.flushTime
  next => exact hdrives

theorem withoutHost_bellLog (h : Host) : h.bellLog.withoutHost = #[] := by
  unfold bellLog
  split <;> rfl

theorem Drives.ring (hdrives : Drives settings h m) :
    Drives settings h.ring.state m ∧ h.ring.fault = none ∧ h.ring.log.withoutHost = #[] := by
  have hwrite := Output.write_of_unlimited hdrives.unlimited h.bellText
  have hring := ring_of_whole (h := h) (by rw [hwrite])
  have hrung := hdrives.rung
  rw [hring, hwrite]
  exact ⟨⟨hrung.machine, hrung.mode, hrung.idle, rfl, hrung.same⟩, rfl, h.withoutHost_bellLog⟩

/-! ## Ticks and runs -/

theorem Drives.tick (hdrives : Drives settings h m) (now : Nat) :
    Attempt.Agree (Drives settings) .step h.tick
      (m.batch settings.timerMode now settings.stepsPerTick) :=
  (((hdrives.batch now).andThen fun _ _ hbatch => hbatch.countDown).andThen_left
    fun _ _ hcounted => hcounted.present).andThen_left fun _ _ hpresented => hpresented.ring

theorem Drives.pacedTick (hdrives : Drives settings h m) (now : Nat) :
    Attempt.Agree (Drives settings) .step h.pacedTick
      (m.batch settings.timerMode now settings.stepsPerTick) :=
  (hdrives.tick now).andThen_left fun _ _ htick => ⟨htick.advance _, rfl, rfl⟩

theorem Drives.run (hdrives : Drives settings h m) {n : Nat} (hlimit : settings.maxTicks = some n)
    (now : Nat) :
    Attempt.Agree (Drives settings) .step h.run
      (m.batches settings.timerMode now settings.stepsPerTick n) := by
  have hticks := (Attempt.Agree.done hdrives).repeatedly (fun _ _ htick => htick.pacedTick now) n
  unfold Host.run Settings.tickBound
  rw [hdrives.same, hlimit]
  exact hticks.andThen_left fun _ _ hrun => ⟨hrun, rfl, rfl⟩

/-- With an output that never fails, no tap pending and timers that do not follow the time, a run of
a host is the row of batches that its settings ask for: it meets the same fault, if any, reaches the
same machine apart from the marks for the host, and the machine reports the same.  Where the host
does not count the timers down itself, only the number of all steps matters. -/
theorem run_eq_batches (h : Host) {n : Nat} (hticks : h.settings.maxTicks = some n)
    (hmode : h.console.machine.timers.mode ≠ .realTime)
    (hidle : h.console.keyboard.pending = []) (hunlimited : h.output.room = none) (now : Nat) :
    let m := h.console.machine
    let reference := m.batches h.settings.timerMode now h.settings.stepsPerTick n
    h.run.fault = reference.fault.map .step ∧
      h.run.state.console.machine.unmarked = reference.state.unmarked ∧
      h.run.log.withoutHost = reference.log ∧
      (h.settings.timerMode ≠ .external →
        reference = m.steps now (h.settings.stepsPerTick * n)) := by
  intro m reference
  have hdrives : Drives h.settings h m := ⟨rfl, hmode, hidle, hunlimited, rfl⟩
  have hagree := hdrives.run hticks now
  exact ⟨hagree.fault, hagree.state.machine, hagree.log,
    fun hexternal => m.batches_eq_steps hexternal now h.settings.stepsPerTick n⟩

/-- A program that sounds, draws and returns from nowhere, with two steps in a tick and timers that
its host counts down. -/
def stoppedInThirdTick : Host :=
  .new ((Console.new .standard .external []).load
    #[0x60, 0x02, 0xF0, 0x18, 0xF0, 0x15, 0xD0, 0x05, 0x00, 0xEE]).state
    ⟨16000000, 2, .external, some 4, true⟩ (.new none) 5

theorem run_eq_batches_stoppedInThirdTick :
    stoppedInThirdTick.run.fault = some (.step (.returnWithoutCall 0x208)) ∧
      stoppedInThirdTick.run.state.console.machine.unmarked =
        (stoppedInThirdTick.console.machine.batches .external 0 2 4).state.unmarked ∧
      (stoppedInThirdTick.console.machine.batches .external 0 2 4).state.timers.delay = 1 := by
  obtain ⟨hfault, hdelay⟩ :
      (stoppedInThirdTick.console.machine.batches .external 0 2 4).fault =
          some (.returnWithoutCall 0x208) ∧
        (stoppedInThirdTick.console.machine.batches .external 0 2 4).state.timers.delay = 1 := by
    decide +kernel
  obtain ⟨hrun, hmachine, -, -⟩ :=
    run_eq_batches stoppedInThirdTick (n := 4) rfl (by decide +kernel) rfl rfl 0
  refine ⟨hrun.trans ?_, hmachine, hdelay⟩
  exact congrArg (Option.map HostFault.step) hfault

end Host

end ChipEight
