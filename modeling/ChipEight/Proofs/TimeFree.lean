import ChipEight.Host.Transcript
import ChipEight.Proofs.Batches
import ChipEight.Proofs.Countdown

/-!
# Where time makes no difference

Time reaches a machine in two ways: through timers that follow it, and through taps that wait to let
their keys go.  Where there is neither, nothing that a host does depends on when it does it, so it
does not matter when a run begins, how long its flushes take and how much of a tick is left to
sleep.
-/

namespace ChipEight

namespace Attempt

variable {σ τ ε : Type}

/-- Two attempts that reached related states, were stopped by the same fault, if by any, and made
the same records. -/
structure Alike (related : σ → τ → Prop) (a : Attempt σ ε) (b : Attempt τ ε) : Prop where
  state : related a.state b.state
  fault : b.fault = a.fault
  log : b.log = a.log

variable {related : σ → τ → Prop} {a : Attempt σ ε} {b : Attempt τ ε}

theorem Alike.done {state : σ} {other : τ} (hrelated : related state other) (log : Log) :
    Alike related (.done state log : Attempt σ ε) (.done other log) :=
  ⟨hrelated, rfl, rfl⟩

theorem Alike.failed {state : σ} {other : τ} (hrelated : related state other) (fault : ε)
    (log : Log) :
    Alike related (.failed state fault log) (.failed other fault log) :=
  ⟨hrelated, rfl, rfl⟩

theorem Alike.andThen (halike : Alike related a b) {next : σ → Attempt σ ε}
    {later : τ → Attempt τ ε}
    (hnext : ∀ state other, related state other →
      Alike related (next state) (later other)) :
    Alike related (a.andThen next) (b.andThen later) := by
  cases hfault : a.fault with
  | some fault =>
      rw [andThen_of_fault hfault, andThen_of_fault (halike.fault.trans hfault)]
      exact halike
  | none =>
      have hsame : b.fault = none := halike.fault.trans hfault
      have hrest := hnext _ _ halike.state
      obtain ⟨hstate, hfaults⟩ := andThen_of_succeeded hfault next
      obtain ⟨hstate', hfaults'⟩ := andThen_of_succeeded hsame later
      constructor
      · rw [hstate, hstate']
        exact hrest.state
      · rw [hfaults, hfaults']
        exact hrest.fault
      · rw [log_andThen_of_succeeded hfault, log_andThen_of_succeeded hsame, halike.log,
          hrest.log]

theorem Alike.repeatedly (halike : Alike related a b) {next : σ → Attempt σ ε}
    {later : τ → Attempt τ ε}
    (hnext : ∀ state other, related state other →
      Alike related (next state) (later other)) (n : Nat) :
    Alike related (repeatedly next n a) (repeatedly later n b) :=
  repeatedly_related (fun _ _ hboth => hboth.andThen hnext) n halike

end Attempt

namespace Timers

theorem update_of_ne_realTime {t : Timers} (hmode : t.mode ≠ .realTime) (now later : Nat) :
    t.update later = t.update now ∧ t.updateLog later = t.updateLog now := by
  unfold update updateLog
  rw [due_of_ne_realTime hmode, due_of_ne_realTime hmode, if_neg hmode, if_neg hmode]
  exact ⟨rfl, rfl⟩

end Timers

namespace Machine

theorem step_of_ne_realTime {m : Machine} (hmode : m.timers.mode ≠ .realTime) (now later : Nat) :
    m.step later = m.step now := by
  have hafter : m.cycle.state.timers.mode ≠ .realTime := by
    rw [m.retains_cycle.mode]
    exact hmode
  obtain ⟨hupdate, hlog⟩ := Timers.update_of_ne_realTime hafter now later
  obtain ⟨_, rfl, hstep⟩ := step_alike (fun m m' => m' = m) m m now later rfl rfl
    (fun _ => ⟨_, rfl, rfl⟩)
    (fun _ hsame => by
      subst hsame
      exact ⟨congrArg (fun timers => { m.cycle.state with timers }) hupdate, hlog⟩)
  exact hstep

end Machine

/-! ## Consoles -/

/-- Two consoles that differ in the time only and on which time has nothing to do. -/
structure Console.Retimed (c c' : Console) : Prop where
  mode : c.machine.timers.mode ≠ .realTime
  idle : c.keyboard.pending = []
  rest : ∃ now, c' = { c with now }

namespace Console.Retimed

variable {c c' : Console}

theorem advance (hretimed : c.Retimed c') (elapsed elapsed' : Nat) :
    (c.advance elapsed).Retimed (c'.advance elapsed') := by
  obtain ⟨hmode, hidle, now, rfl⟩ := hretimed
  rw [advance_of_idle hidle, advance_of_idle (c := { c with now }) hidle]
  exact ⟨hmode, hidle, now + elapsed', rfl⟩

theorem step (hretimed : c.Retimed c') : Attempt.Alike Console.Retimed c.step c'.step := by
  obtain ⟨hmode, hidle, now, rfl⟩ := hretimed
  have hstep := Machine.step_of_ne_realTime hmode c.now now
  have hafter : (c.machine.step c.now).state.timers.mode ≠ .realTime := by
    rw [(c.machine.retains_step c.now).mode]
    exact hmode
  unfold Console.step
  rw [hstep]
  exact ⟨⟨hafter, hidle, now, rfl⟩, rfl, rfl⟩

end Console.Retimed

/-! ## Hosts -/

/-- Two hosts that differ in the time and in how long a flush takes, and on which time has nothing
to do. -/
structure Host.Retimed (h h' : Host) : Prop where
  console : h.console.Retimed h'.console
  rest : ∃ console flushTime, h' = { h with console, flushTime }

namespace Host.Retimed

variable {h h' : Host}

theorem output (hretimed : h.Retimed h') : h'.output = h.output := by
  obtain ⟨-, console, flushTime, rfl⟩ := hretimed
  rfl

theorem advance (hretimed : h.Retimed h') (elapsed elapsed' : Nat) :
    (h.advance elapsed).Retimed (h'.advance elapsed') := by
  obtain ⟨hconsole, console, flushTime, rfl⟩ := hretimed
  exact ⟨hconsole.advance elapsed elapsed', _, flushTime, rfl⟩

theorem batch (hretimed : h.Retimed h') : Attempt.Alike Host.Retimed h.batch h'.batch := by
  obtain ⟨hconsole, console, flushTime, rfl⟩ := hretimed
  have hsteps := (Attempt.Alike.done (ε := Fault) hconsole #[]).repeatedly
    (fun _ _ hconsole => hconsole.step) h.settings.stepsPerTick
  unfold Host.batch Host.batchOf
  generalize Attempt.repeatedly Console.step h.settings.stepsPerTick (.done h.console #[]) = a
    at hsteps ⊢
  simp only
  generalize Attempt.repeatedly Console.step h.settings.stepsPerTick (.done console #[]) = b
    at hsteps ⊢
  obtain ⟨state, fault, log⟩ := a
  obtain ⟨state', fault', log'⟩ := b
  obtain ⟨hstate, hfault, hlog⟩ := hsteps
  cases hfault
  cases hlog
  cases fault with
  | none => exact .done ⟨hstate, _, _, rfl⟩ log
  | some fault =>
      obtain ⟨hmode, hidle, now, rfl⟩ := hstate
      exact .failed ⟨⟨hmode, hidle, now, rfl⟩, _, _, rfl⟩ _ _

theorem countDown (hretimed : h.Retimed h') :
    Attempt.Alike Host.Retimed h.countDown h'.countDown := by
  obtain ⟨⟨hmode, hidle, now, hconsole⟩, console, flushTime, rfl⟩ := hretimed
  cases hconsole
  unfold Host.countDown
  simp only
  split
  next => exact .done ⟨⟨hmode, hidle, now, rfl⟩, _, _, rfl⟩ _
  next => exact .done ⟨⟨hmode, hidle, now, rfl⟩, _, _, rfl⟩ _

theorem acknowledge (hretimed : h.Retimed h') :
    Host.Retimed
      { h with console := { h.console with machine := h.console.machine.acknowledgeScreen } }
      { h' with
        console := { h'.console with machine := h'.console.machine.acknowledgeScreen } } := by
  obtain ⟨⟨hmode, hidle, now, hconsole⟩, console, flushTime, rfl⟩ := hretimed
  cases hconsole
  exact ⟨⟨hmode, hidle, now, rfl⟩, _, _, rfl⟩

theorem present (hretimed : h.Retimed h') :
    Attempt.Alike Host.Retimed h.present h'.present := by
  obtain ⟨⟨hmode, hidle, now, hconsole⟩, console, flushTime, rfl⟩ := hretimed
  cases hconsole
  unfold Host.present
  simp only
  split
  next =>
    rcases h.painter.paint h.console.machine.screen.cells h.output with ⟨painter, output, whole⟩
    have hpainted : Host.Retimed { h with painter, output }
        { h with painter, output, console := { h.console with now }, flushTime } :=
      ⟨⟨hmode, hidle, now, rfl⟩, _, _, rfl⟩
    cases whole with
    | true => exact .done (hpainted.advance h.flushTime flushTime).acknowledge #[]
    | false => exact .failed hpainted HostFault.frame #[]
  next => exact .done ⟨⟨hmode, hidle, now, rfl⟩, _, _, rfl⟩ #[]

theorem ring (hretimed : h.Retimed h') : Attempt.Alike Host.Retimed h.ring h'.ring := by
  obtain ⟨⟨hmode, hidle, now, hconsole⟩, console, flushTime, rfl⟩ := hretimed
  cases hconsole
  unfold Host.ring
  simp only
  split
  next =>
    rcases h.output.write Frame.bell with ⟨output, whole⟩
    have htaken : Host.Retimed
        { h with output, console := { h.console with machine := h.console.machine.takeBeep } }
        { h with
          output, flushTime
          console := { h.console with now, machine := h.console.machine.takeBeep } } :=
      ⟨⟨hmode, hidle, now, rfl⟩, _, _, rfl⟩
    cases whole with
    | true => exact .done (htaken.advance h.flushTime flushTime) _
    | false => exact .failed htaken HostFault.bell _
  next => exact .done ⟨⟨hmode, hidle, now, rfl⟩, _, _, rfl⟩ #[]

theorem tick (hretimed : h.Retimed h') : Attempt.Alike Host.Retimed h.tick h'.tick :=
  ((hretimed.batch.andThen fun _ _ hbatch => hbatch.countDown).andThen
    fun _ _ hcounted => hcounted.present).andThen fun _ _ hpresented => hpresented.ring

theorem pacedTick (hretimed : h.Retimed h') :
    Attempt.Alike Host.Retimed h.pacedTick h'.pacedTick :=
  hretimed.tick.andThen fun _ _ htick => .done (htick.advance _ _) #[]

theorem run (hretimed : h.Retimed h') : Attempt.Alike Host.Retimed h.run h'.run := by
  have hsettings : h'.settings = h.settings := by
    obtain ⟨-, console, flushTime, rfl⟩ := hretimed
    rfl
  have hticks := (Attempt.Alike.done (ε := HostFault) hretimed #[]).repeatedly
    (fun _ _ htick => htick.pacedTick) h.settings.tickBound
  unfold Host.run
  rw [hsettings]
  refine hticks.andThen fun _ _ hrun => ?_
  cases h.settings.maxTicks with
  | some limit => exact .done hrun _
  | none => exact .failed hrun HostFault.unfinished _

end Host.Retimed

end ChipEight
