import ChipEight.History
import ChipEight.Machine.Event
import ChipEight.Proofs.Calls

/-!
# The beep

A beep is left behind by a timer tick that finds the sound timer at one, whoever made the timers
tick, and by nothing else.  It stays until it is taken or the timers are reset.  So there is a beep
to take exactly when the sound timer ran out since then, once or more often.
-/

namespace ChipEight

namespace Timers

/-- What an update finds in the sound timer, if it makes the timers tick. -/
def soundAtTick? (t : Timers) (now : Nat) : Option UInt8 :=
  if t.due now then some t.sound else none

theorem beep_tick (t : Timers) : t.tick.beep = true ↔ t.sound = 1 ∨ t.beep = true := by
  simp only [tick, Bool.or_eq_true, beq_iff_eq]
  exact Or.comm

theorem beep_update (t : Timers) (now : Nat) :
    (t.update now).beep = true ↔ t.soundAtTick? now = some 1 ∨ t.beep = true := by
  unfold update soundAtTick?
  by_cases hdue : t.due now = true
  · simp only [hdue, if_true, Option.some.injEq]
    exact t.beep_tick
  · simp [hdue]

theorem beep_update_of_ne_one {t : Timers} (hsound : t.sound ≠ 1) (now : Nat) :
    (t.update now).beep = t.beep := by
  have hfound : t.soundAtTick? now ≠ some 1 := by
    unfold soundAtTick?
    split
    next => exact fun h => hsound (Option.some.inj h)
    next => exact nofun
  rw [Bool.eq_iff_iff, beep_update]
  exact or_iff_right hfound

end Timers

/-- Whether an event leaves no beep behind, whatever was before. -/
def Event.silences : Event → Bool
  | .operation .takeBeep | .operation .reset | .operation (.resetAndLoad _) | .resetTimers => true
  | _ => false

namespace Machine

/-- What a timer tick finds in the sound timer, if an event makes the timers tick.  A step does so
after its instruction. -/
def soundAtTick? (m : Machine) (now : Nat) : Event → Option UInt8
  | .operation .step =>
      if (m.step now).succeeded then m.cycle.state.timers.soundAtTick? now else none
  | .operation .tickTimers => some m.timers.sound
  | .updateTimers => m.timers.soundAtTick? now
  | _ => none

/-! ## One event -/

theorem beep_noting (m : Machine) (fault : Fault) :
    (m.noting fault).timers.beep = m.timers.beep := by
  obtain ⟨lastAddress, lastWord, hnoting⟩ := m.noting_keeps fault
  rw [hnoting]

theorem beep_cycle (m : Machine) : m.cycle.state.timers.beep = m.timers.beep := by
  cases hfault : m.cycle.fault with
  | some fault =>
      rw [cycle_state_of_fault hfault]
      exact m.beep_noting fault
  | none =>
      obtain ⟨word, flow, after, hperforms, hstate⟩ := performs_of_cycle hfault
      rw [hstate]
      exact hperforms.effect.untouched.beep

theorem beep_load (m : Machine) (program : Program) :
    (m.load program).state.timers.beep = m.timers.beep := by
  obtain ⟨memory, loaded, hload⟩ := m.load_state program
  rw [hload]

theorem beep_step (m : Machine) (now : Nat) :
    (m.step now).state.timers.beep = true ↔
      m.soundAtTick? now (.operation .step) = some 1 ∨ m.timers.beep = true := by
  unfold soundAtTick? Attempt.succeeded
  cases hfault : (m.step now).fault with
  | some fault =>
      rw [step_state_of_fault hfault, beep_noting]
      simp
  | none =>
      have hupdate := m.cycle.state.timers.beep_update now
      rw [m.beep_cycle] at hupdate
      rw [(step_of_succeeded hfault).2.2]
      exact hupdate

/-- There is a beep after an event if a timer tick in it found the sound timer at one, or if there
was a beep before and the event does not silence it. -/
theorem beep_meet (m : Machine) (now : Nat) (event : Event) :
    (m.meet now event).timers.beep = true ↔
      m.soundAtTick? now event = some 1 ∨ m.timers.beep = true ∧ event.silences = false := by
  cases event with
  | operation operation =>
      cases operation with
      | load program =>
          simp [meet, operate, beep_load, soundAtTick?, Event.silences]
      | step =>
          simp only [Event.silences, and_true]
          exact m.beep_step now
      | resetAndLoad program =>
          simp [meet, operate, resetAndLoad, beep_load, reset, Timers.reset, Timers.new,
            soundAtTick?, Event.silences]
      | tickTimers =>
          simp only [soundAtTick?, Event.silences, Option.some.injEq, and_true]
          exact m.timers.beep_tick
      | reset =>
          simp [meet, operate, reset, Timers.reset, Timers.new, soundAtTick?, Event.silences]
      | takeBeep =>
          simp [meet, operate, takeBeep, Timers.takeBeep, soundAtTick?, Event.silences]
      | _ =>
          simp [meet, operate, setKey, setSound, acknowledgeScreen, soundAtTick?, Event.silences]
  | cycle => simp [meet, beep_cycle, soundAtTick?, Event.silences]
  | updateTimers =>
      simp only [soundAtTick?, Event.silences, and_true]
      exact m.timers.beep_update now
  | resetTimers => simp [meet, Timers.reset, Timers.new, soundAtTick?, Event.silences]

/-- A step that sets the sound timer to zero leaves no new beep behind, though the timers may tick
in it. -/
theorem beep_step_of_setSound_zero {m : Machine} {now : Nat} {x : Register}
    (hperformed : m.performed? now .step = some (.setSound x)) (hzero : m.processor.reg x = 0) :
    (m.step now).state.timers.beep = m.timers.beep := by
  unfold performed? Attempt.succeeded at hperformed
  cases hfault : (m.step now).fault with
  | some fault => simp [hfault] at hperformed
  | none =>
      obtain ⟨word, flow, after, hperforms, -, hstate⟩ := performs_of_step hfault
      have hsound : m.next? = some (.setSound x) := by simpa [hfault] using hperformed
      have hnext := (m.next?_eq_some_iff _).mpr ⟨word, hperforms.fetch, rfl⟩
      have heffect := hperforms.effect
      rw [Option.some.inj (hnext.symm.trans hsound)] at heffect
      rw [hstate]
      cases heffect with
      | setSound =>
          refine Timers.beep_update_of_ne_one ?_ now
          change m.processor.reg x ≠ 1
          rw [hzero]
          decide

/-! ## Histories -/

/-- Some timer tick found the sound timer at one, and nothing silenced the beep since. -/
def RanOutSince (m : Machine) (history : List (Nat × Event)) : Prop :=
  History.Since
    (fun before event => (m.afterEvents before).soundAtTick? event.1 event.2 = some 1)
    (fun event => event.2.silences) history

theorem beep_afterEvents_iff {m : Machine} (hm : m.timers.beep = false)
    (history : List (Nat × Event)) :
    (m.afterEvents history).timers.beep = true ↔ m.RanOutSince history := by
  refine History.iff_since (fun history => (m.afterEvents history).timers.beep = true) ?_ ?_
    history
  · change ¬ m.timers.beep = true
    rw [hm]
    exact Bool.false_ne_true
  · intro history event
    rw [afterEvents_concat, beep_meet]

/-! ## The theorem -/

/-- A machine has a beep to give exactly when a timer tick found the sound timer at one since the
machine was made, last reset or last asked.  Setting the sound timer does not raise a beep, neither
by its owner nor, where it is set to zero, by an instruction whose step ticks at once; a reset drops
what there was, a sound timer at zero stays silent, and a beep is given once. -/
theorem takeBeep_iff_ranOutSince (dialect : Dialect) (mode : TimerMode) (random : List UInt8)
    (created : Nat) (history : List (Nat × Event)) :
    let made := new dialect mode random created
    let m := made.afterEvents history
    (∀ now, (m.operate now .takeBeep).1 = .beep true ↔ made.RanOutSince history) ∧
      (∀ now value, (m.operate now (.setSound value)).2.timers.beep = m.timers.beep) ∧
      (∀ now x, m.performed? now .step = some (.setSound x) → m.processor.reg x = 0 →
        (m.step now).state.timers.beep = m.timers.beep) ∧
      (∀ now, (m.operate now .reset).2.timers.beep = false) ∧
      (m.timers.sound = 0 → ∀ now,
        (m.operate now .tickTimers).2.timers.beep = m.timers.beep ∧
          (m.updateTimers now).timers.beep = m.timers.beep) ∧
      ∀ now later, ((m.operate now .takeBeep).2.operate later .takeBeep).1 = .beep false := by
  intro made m
  have hbeep : m.timers.beep = true ↔ made.RanOutSince history :=
    beep_afterEvents_iff rfl history
  refine ⟨?_, fun _ _ => rfl, fun _ _ => beep_step_of_setSound_zero, fun _ => rfl, ?_,
    fun _ _ => rfl⟩
  · intro now
    change Reply.beep m.timers.beep = .beep true ↔ _
    rw [Reply.beep.injEq, hbeep]
  · intro hzero now
    have hsound : m.timers.sound ≠ 1 := by
      rw [hzero]
      decide
    refine ⟨?_, Timers.beep_update_of_ne_one hsound now⟩
    rw [Bool.eq_iff_iff]
    exact (m.timers.beep_tick).trans (or_iff_right hsound)

/-- A program that sets the sound timer to one, and to zero after that. -/
def shortSound : List (Nat × Event) :=
  [(0, .operation (.load #[0x60, 0x01, 0xF0, 0x18, 0x61, 0x00, 0xF1, 0x18])),
    (1, .operation .step), (2, .operation .step), (3, .operation .step)]

theorem takeBeep_iff_ranOutSince_shortSound :
    (new .standard .perStep [] 0).RanOutSince shortSound ∧
      ((new .standard .perStep [] 0).afterEvents shortSound).performed? 4 .step =
        some (.setSound 1) ∧
      (((new .standard .perStep [] 0).afterEvents shortSound).step 4).state.timers.beep =
        true ∧
      (((new .standard .perStep [] 0).afterEvents shortSound).operate 4
        .tickTimers).2.timers.beep = true ∧
      ((((new .standard .perStep [] 0).afterEvents shortSound).operate 4
        .takeBeep).2.operate 5 .takeBeep).1 = .beep false := by
  obtain ⟨hgiven, hperformed, hregister, hsound⟩ :
      (((new .standard .perStep [] 0).afterEvents shortSound).operate 4
        .takeBeep).1 = .beep true ∧
        ((new .standard .perStep [] 0).afterEvents shortSound).performed? 4 .step =
          some (.setSound 1) ∧
        ((new .standard .perStep [] 0).afterEvents shortSound).processor.reg 1 = 0 ∧
        ((new .standard .perStep [] 0).afterEvents shortSound).timers.sound = 0 := by
    decide +kernel
  obtain ⟨hiff, -, hset, -, hzero, honce⟩ :=
    takeBeep_iff_ranOutSince .standard .perStep [] 0 shortSound
  have hpending := Reply.beep.inj hgiven
  have hstep := (hset 4 1 hperformed hregister).trans hpending
  have htick := (hzero hsound 4).1.trans hpending
  exact ⟨(hiff 4).mp hgiven, hperformed, hstep, htick, honce 4 5⟩

end Machine

end ChipEight
