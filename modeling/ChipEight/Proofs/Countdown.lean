import ChipEight.Machine.Trace
import ChipEight.Proofs.Footprint
import ChipEight.Proofs.PowerOn
import ChipEight.Proofs.RealTime

/-!
# The timers over a history

Where time plays no part, the timers tick when the owner of the machine says so, and in one of the
two modes that are left also after every step that succeeds.  Nothing else moves a timer but the one
instruction that sets it.  So a timer always shows what it was last set to, less one for every tick
since then, and the step that set it has a tick of its own.
-/

namespace ChipEight

inductive Timer where
  | delay
  | sound
  deriving DecidableEq

/-- The instruction that gives a timer the value of a register. -/
def Timer.setFrom : Timer → Register → Instruction
  | .delay, x => .setDelay x
  | .sound, x => .setSound x

def Timers.value (t : Timers) : Timer → UInt8
  | .delay => t.delay
  | .sound => t.sound

/-- Whether an operation writes a timer by itself, without an instruction. -/
def Operation.setsTimers : Operation → Bool
  | .reset | .resetAndLoad _ | .setSound _ => true
  | _ => false

namespace Machine

/-- How often the timers tick in an operation. -/
def ticksIn (m : Machine) (now : Nat) : Operation → Nat
  | .tickTimers => 1
  | .step => if (m.step now).succeeded && m.timers.mode == .perStep then 1 else 0
  | _ => 0

def ticks (m : Machine) : List (Nat × Operation) → Nat
  | [] => 0
  | (now, operation) :: later =>
      m.ticksIn now operation + (m.operate now operation).2.ticks later

/-- A step in a history gives a timer the value of a register, and no later step sets the timer. -/
structure SetsLast (m : Machine) (timer : Timer) (before : List (Nat × Operation)) (now : Nat)
    (later : List (Nat × Operation)) (x : Register) : Prop where
  succeeded : ((m.after before).step now).succeeded = true
  reads : (m.after before).Reads (timer.setFrom x)
  notAgain : ∀ y, timer.setFrom y ∉ ((m.after before).step now).state.trace later

end Machine

namespace Timers

theorem toNat_value_tick (t : Timers) (timer : Timer) :
    (t.tick.value timer).toNat = (t.value timer).toNat - 1 := by
  cases timer with
  | delay => exact toNat_countDown t.delay
  | sound => exact toNat_countDown t.sound

theorem toNat_value_update (t : Timers) (timer : Timer) (now : Nat) :
    ((t.update now).value timer).toNat =
      (t.value timer).toNat - if t.due now then 1 else 0 := by
  cases timer with
  | delay => exact t.delay_update now
  | sound => exact t.sound_update now

theorem due_of_ne_realTime {t : Timers} (hmode : t.mode ≠ .realTime) (now : Nat) :
    t.due now = (t.mode == .perStep) := by
  unfold due
  cases h : t.mode with
  | perStep => rfl
  | realTime => exact absurd h hmode
  | external => rfl

end Timers

namespace Machine

variable {m : Machine} {timer : Timer} {now : Nat}

/-! ## One instruction -/

theorem Effect.value_of_setFrom {after : Machine} {x : Register} {flow : Flow}
    (heffect : Effect m (timer.setFrom x) flow after) :
    after.timers.value timer = m.processor.reg x := by
  cases timer with
  | delay => cases heffect; rfl
  | sound => cases heffect; rfl

theorem Effect.value_of_ne {after : Machine} {instruction : Instruction} {flow : Flow}
    (heffect : Effect m instruction flow after) (hother : ∀ x, instruction ≠ timer.setFrom x) :
    after.timers.value timer = m.timers.value timer := by
  cases timer with
  | delay =>
      rcases heffect.changes_or_sameIn .delay with hchanges | hsame
      · cases hchanges with
        | setDelay x => exact absurd rfl (hother x)
      · exact hsame
  | sound =>
      rcases heffect.changes_or_sameIn .sound with hchanges | hsame
      · cases hchanges with
        | setSound x => exact absurd rfl (hother x)
      · exact hsame

/-! ## One step -/

theorem timers_step_of_fault {fault : Fault} (hfault : (m.step now).fault = some fault) :
    (m.step now).state.timers = m.timers := by
  obtain ⟨lastAddress, lastWord, hnoting⟩ := m.noting_keeps fault
  rw [step_state_of_fault hfault, hnoting]

/-- A step that succeeds leaves in a timer what its instruction left there, less a tick in the mode
in which the steps tick. -/
theorem toNat_value_step (hmode : m.timers.mode ≠ .realTime)
    (hsucceeded : (m.step now).succeeded = true) (timer : Timer) :
    ∃ instruction word flow after, m.Reads instruction ∧
      Effect (m.fetched word) instruction flow after ∧
      ((m.step now).state.timers.value timer).toNat =
        (after.timers.value timer).toNat - m.ticksIn now .step := by
  obtain ⟨word, flow, after, hperforms, -, hstate⟩ :=
    performs_of_step ((Attempt.fault_eq_none_iff _).mpr hsucceeded)
  have hafter : after.timers.mode = m.timers.mode := hperforms.effect.untouched.mode
  refine ⟨.decode word, word, flow, after,
    (m.reads_iff _).mpr ⟨word, hperforms.fetch, rfl⟩, hperforms.effect, ?_⟩
  rw [hstate]
  refine (after.timers.toNat_value_update timer now).trans ?_
  rw [Timers.due_of_ne_realTime (hafter ▸ hmode), hafter, ticksIn, hsucceeded, Bool.true_and]

theorem performed?_step_eq_some_iff {instruction : Instruction} :
    m.performed? now .step = some instruction ↔
      (m.step now).succeeded = true ∧ m.Reads instruction := by
  unfold performed?
  rw [reads_iff, ← next?_eq_some_iff]
  cases (m.step now).succeeded with
  | true => simp
  | false => simp

theorem value_step_of_setFrom (hmode : m.timers.mode ≠ .realTime)
    (hsucceeded : (m.step now).succeeded = true) {x : Register}
    (hreads : m.Reads (timer.setFrom x)) :
    ((m.step now).state.timers.value timer).toNat =
      (m.processor.reg x).toNat - m.ticksIn now .step := by
  obtain ⟨instruction, word, flow, after, hread, heffect, hvalue⟩ :=
    toNat_value_step hmode hsucceeded timer
  obtain rfl := hreads.unique hread
  rw [hvalue, heffect.value_of_setFrom]
  rfl

theorem value_step_of_not_set (hmode : m.timers.mode ≠ .realTime)
    (hother : ∀ x, m.performed? now .step ≠ some (timer.setFrom x)) :
    ((m.step now).state.timers.value timer).toNat =
      (m.timers.value timer).toNat - m.ticksIn now .step := by
  cases hfault : (m.step now).fault with
  | some fault =>
      rw [timers_step_of_fault hfault, ticksIn, Attempt.succeeded, hfault]
      rfl
  | none =>
      have hsucceeded : (m.step now).succeeded = true := (Attempt.fault_eq_none_iff _).mp hfault
      obtain ⟨instruction, word, flow, after, hreads, heffect, hvalue⟩ :=
        toNat_value_step hmode hsucceeded timer
      have hne : ∀ x, instruction ≠ timer.setFrom x := by
        rintro x rfl
        exact hother x (performed?_step_eq_some_iff.mpr ⟨hsucceeded, hreads⟩)
      rw [hvalue, heffect.value_of_ne hne]
      rfl

/-! ## Histories -/

theorem value_operate_of_not_set (hmode : m.timers.mode ≠ .realTime) {operation : Operation}
    (hsets : operation.setsTimers = false)
    (hother : ∀ x, m.performed? now operation ≠ some (timer.setFrom x)) :
    ((m.operate now operation).2.timers.value timer).toNat =
      (m.timers.value timer).toNat - m.ticksIn now operation := by
  cases operation with
  | step => exact value_step_of_not_set hmode hother
  | tickTimers => exact m.timers.toNat_value_tick timer
  | load program =>
      obtain ⟨memory, loaded, hload⟩ := m.load_state program
      change ((m.load program).state.timers.value timer).toNat = _
      rw [hload]
      rfl
  | reset => cases hsets
  | resetAndLoad program => cases hsets
  | setSound value => cases hsets
  | _ => rfl

theorem mode_operate (m : Machine) (now : Nat) (operation : Operation) :
    (m.operate now operation).2.timers.mode = m.timers.mode :=
  (Configured.operate ⟨rfl, rfl⟩ now operation).mode

theorem mode_after (m : Machine) (history : List (Nat × Operation)) :
    (m.after history).timers.mode = m.timers.mode :=
  (Configured.after ⟨rfl, rfl⟩ history).mode

theorem value_after_of_not_set {history : List (Nat × Operation)}
    (hmode : m.timers.mode ≠ .realTime)
    (hsets : ∀ event ∈ history, event.2.setsTimers = false)
    (hother : ∀ x, timer.setFrom x ∉ m.trace history) :
    ((m.after history).timers.value timer).toNat =
      (m.timers.value timer).toNat - m.ticks history := by
  induction history generalizing m with
  | nil => rfl
  | cons event later ih =>
      obtain ⟨now, operation⟩ := event
      have hfirst : ∀ x, m.performed? now operation ≠ some (timer.setFrom x) := by
        intro x hperformed
        apply hother x
        rw [trace, hperformed]
        exact List.mem_cons_self
      have hlater : ∀ x, timer.setFrom x ∉ (m.operate now operation).2.trace later :=
        fun x hmem => hother x (List.mem_append_right _ hmem)
      have hvalue := value_operate_of_not_set hmode (hsets _ List.mem_cons_self) hfirst
      have hrest := ih (m := (m.operate now operation).2)
        (by rw [mode_operate]; exact hmode)
        (fun event hevent => hsets event (List.mem_cons_of_mem _ hevent)) hlater
      rw [hvalue, Nat.sub_sub] at hrest
      exact hrest

theorem value_after_of_setsLast {before later : List (Nat × Operation)} {x : Register}
    (hmode : m.timers.mode ≠ .realTime) (hlast : m.SetsLast timer before now later x)
    (hsets : ∀ event ∈ later, event.2.setsTimers = false) :
    ((m.after (before ++ (now, .step) :: later)).timers.value timer).toNat =
      ((m.after before).processor.reg x).toNat -
        (m.after before).ticks ((now, .step) :: later) := by
  have hmodeBefore : (m.after before).timers.mode ≠ .realTime := by
    rw [mode_after]
    exact hmode
  have hmodeStep : ((m.after before).step now).state.timers.mode ≠ .realTime := by
    rw [((m.after before).retains_step now).mode]
    exact hmodeBefore
  have hset := value_step_of_setFrom hmodeBefore hlast.succeeded hlast.reads
  have hrest := value_after_of_not_set hmodeStep hsets hlast.notAgain
  rw [hset, Nat.sub_sub] at hrest
  unfold after at hrest ⊢
  rw [List.foldl_append]
  exact hrest

/-- A timer that was set in a history was set for the last time somewhere in it. -/
theorem exists_setsLast {history : List (Nat × Operation)} {x : Register}
    (hset : timer.setFrom x ∈ m.trace history) :
    ∃ before now later y, history = before ++ (now, .step) :: later ∧
      m.SetsLast timer before now later y := by
  induction history generalizing m x with
  | nil => cases hset
  | cons event later ih =>
      obtain ⟨now, operation⟩ := event
      -- A later step that sets the timer takes the place of this one.
      by_cases hagain : ∃ z, timer.setFrom z ∈ (m.operate now operation).2.trace later
      · obtain ⟨z, hz⟩ := hagain
        obtain ⟨before, moment, rest, y, rfl, hlast⟩ := ih hz
        exact ⟨(now, operation) :: before, moment, rest, y, rfl,
          hlast.succeeded, hlast.reads, hlast.notAgain⟩
      · have hhere : timer.setFrom x ∈ (m.performed? now operation).toList :=
          (List.mem_append.mp hset).resolve_right fun hx => hagain ⟨x, hx⟩
        cases operation with
        | step =>
            obtain ⟨hsucceeded, hreads⟩ :=
              performed?_step_eq_some_iff.mp (Option.mem_toList.mp hhere)
            exact ⟨[], now, later, x, rfl, hsucceeded, hreads, fun z hz => hagain ⟨z, hz⟩⟩
        | _ => cases hhere

/-! ## Steps that read a timer or wait -/

theorem reg_step_readDelay {x : Register} (hloaded : m.loaded = true)
    (hrunning : m.processor.running = true) (hreads : m.Reads (.readDelay x)) :
    (m.step now).succeeded = true ∧ (m.step now).state.processor.reg x = m.timers.delay := by
  obtain ⟨word, hsucceeded, hstate⟩ :=
    step_of_reads hloaded hrunning hreads (fun _ => .readDelay x) now
  refine ⟨hsucceeded, ?_⟩
  rw [hstate]
  exact ((m.fetched word).processor.reg_set x x m.timers.delay).trans (if_pos rfl)

/-- A step that waits for a key goes back to where it was. -/
theorem step_of_awaitKey {x : Register} (hloaded : m.loaded = true)
    (hrunning : m.processor.running = true) (hreads : m.Reads (.awaitKey x))
    (hkeys : ∀ code, m.keypad.isDown code = false) (now : Nat) :
    (m.step now).succeeded = true ∧ ∃ word, (m.step now).state =
      { m with
        processor := { m.processor with lastWord := word, lastAddress := m.processor.pc }
        timers := m.timers.update now } := by
  have hnone : m.keypad.highest? = none :=
    List.find?_eq_none.mpr fun code _ => Bool.eq_false_iff.mp (hkeys code)
  obtain ⟨word, hsucceeded, hstate⟩ :=
    step_of_reads hloaded hrunning hreads (fun _ => .awaitNoKey x hnone) now
  exact ⟨hsucceeded, word, hstate⟩

theorem step_awaitKey {x : Register} (hmode : m.timers.mode ≠ .realTime)
    (hloaded : m.loaded = true) (hrunning : m.processor.running = true)
    (hreads : m.Reads (.awaitKey x)) (hkeys : ∀ code, m.keypad.isDown code = false) :
    (m.step now).succeeded = true ∧ (m.step now).state.processor.pc = m.processor.pc ∧
      ∀ timer, ((m.step now).state.timers.value timer).toNat =
        (m.timers.value timer).toNat - if m.timers.mode = .perStep then 1 else 0 := by
  obtain ⟨hsucceeded, word, hstate⟩ := step_of_awaitKey hloaded hrunning hreads hkeys now
  refine ⟨hsucceeded, ?_, ?_⟩
  · rw [hstate]
  · intro timer
    rw [hstate]
    refine (m.timers.toNat_value_update timer now).trans ?_
    rw [Timers.due_of_ne_realTime hmode]
    simp only [beq_iff_eq]

/-! ## The theorem -/

/-- A timer shows the value of the register that it was last set from, or its first value, less one
for every tick since then, where the ticks are the owner's and those of the steps that succeed.  The
delay timer is read before the tick of the step that reads it, a step that fails does not tick, and
a step that waits for a key does. -/
theorem timers_count_down (m : Machine) (hmode : m.timers.mode ≠ .realTime) :
    (∀ (timer : Timer) history, (∀ event ∈ history, event.2.setsTimers = false) →
      (∀ x, timer.setFrom x ∉ m.trace history) →
      ((m.after history).timers.value timer).toNat =
        (m.timers.value timer).toNat - m.ticks history) ∧
    (∀ timer before now later x, m.SetsLast timer before now later x →
      (∀ event ∈ later, event.2.setsTimers = false) →
      ((m.after (before ++ (now, .step) :: later)).timers.value timer).toNat =
        ((m.after before).processor.reg x).toNat -
          (m.after before).ticks ((now, .step) :: later)) ∧
    (∀ (timer : Timer) history x, timer.setFrom x ∈ m.trace history →
      ∃ before now later y, history = before ++ (now, .step) :: later ∧
        m.SetsLast timer before now later y) ∧
    ∀ now,
      ((m.step now).succeeded = false → (m.step now).state.timers = m.timers) ∧
      (∀ x, m.loaded = true → m.processor.running = true → m.Reads (.readDelay x) →
        (m.step now).succeeded = true ∧
          (m.step now).state.processor.reg x = m.timers.delay) ∧
      ∀ x, m.loaded = true → m.processor.running = true → m.Reads (.awaitKey x) →
        (∀ code, m.keypad.isDown code = false) →
        (m.step now).succeeded = true ∧
          (m.step now).state.processor.pc = m.processor.pc ∧
          ∀ timer, ((m.step now).state.timers.value timer).toNat =
            (m.timers.value timer).toNat - if m.timers.mode = .perStep then 1 else 0 := by
  refine ⟨?_, ?_, ?_, ?_⟩
  · intro timer history
    exact value_after_of_not_set hmode
  · intro timer before now later x
    exact value_after_of_setsLast hmode
  · intro timer history x
    exact exists_setsLast
  · intro now
    refine ⟨?_, ?_, ?_⟩
    · intro hfailed
      obtain ⟨fault, hfault⟩ := Option.ne_none_iff_exists'.mp
        (mt (Attempt.fault_eq_none_iff _).mp (Bool.eq_false_iff.mp hfailed))
      exact timers_step_of_fault hfault
    · intro x
      exact reg_step_readDelay
    · intro x
      exact step_awaitKey hmode

/-- A machine that is about to set the delay timer to five and then does nothing. -/
def settingDelay : Machine :=
  { new .standard .perStep [] 0 with
    memory := Memory.blank.store 0x200 [0x61, 0x05, 0xF1, 0x15, 0x12, 0x04]
    loaded := true }

theorem timers_count_down_settingDelay :
    settingDelay.timers.mode ≠ .realTime ∧
      ((settingDelay.after [(1, .step), (2, .step), (3, .tickTimers), (4, .step)]).timers.value
        .delay).toNat = 5 - 3 := by
  obtain ⟨hsucceeded, htrace, hfive, hticks, hhigh, hlow⟩ :
      ((settingDelay.after [(1, .step)]).step 2).succeeded = true ∧
        ((settingDelay.after [(1, .step)]).step 2).state.trace [(3, .tickTimers), (4, .step)] =
          [.jump 0x204] ∧
        ((settingDelay.after [(1, .step)]).processor.reg 1).toNat = 5 ∧
        (settingDelay.after [(1, .step)]).ticks [(2, .step), (3, .tickTimers), (4, .step)] = 3 ∧
        (settingDelay.after [(1, .step)]).memory.cells[
          (settingDelay.after [(1, .step)]).processor.pc.toNat]? = some 0xF1 ∧
        (settingDelay.after [(1, .step)]).memory.cells[
          (settingDelay.after [(1, .step)]).processor.pc.toNat + 1]? = some 0x15 := by
    decide +kernel
  have hmode : settingDelay.timers.mode ≠ .realTime := nofun
  have hlast : settingDelay.SetsLast .delay [(1, .step)] 2 [(3, .tickTimers), (4, .step)] 1 := by
    refine ⟨hsucceeded, ⟨0xF1, 0x15, hhigh, hlow, .setDelay 1⟩, ?_⟩
    intro y
    rw [htrace]
    simp [Timer.setFrom]
  have hvalue := (timers_count_down settingDelay hmode).2.1 .delay _ _ _ _ hlast (by decide)
  rw [hfive, hticks] at hvalue
  exact ⟨hmode, hvalue⟩

end Machine

end ChipEight
