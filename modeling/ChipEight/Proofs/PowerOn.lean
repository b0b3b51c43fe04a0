import ChipEight.Proofs.Refusal

/-!
# Reset forgets history

A reset keeps three things, the dialect, the timer mode and the keys, beside the random bytes that
are left.  Nothing that happens to a machine changes the dialect or the timer mode, so a machine that
was reset is a new machine of the same kind on which the same keys are down, and from then on the
two cannot be told apart.
-/

namespace ChipEight

namespace Machine

/-- The replies to a row of operations, each with the machine after it. -/
def outcomes (m : Machine) : List (Nat × Operation) → List (Reply × Machine)
  | [] => []
  | (now, operation) :: rest =>
      m.operate now operation :: (m.operate now operation).2.outcomes rest

/-- A machine of one kind, which its owner chose when it was made. -/
structure Configured (dialect : Dialect) (mode : TimerMode) (m : Machine) : Prop where
  dialect : m.processor.dialect = dialect
  mode : m.timers.mode = mode

variable {dialect : Dialect} {mode : TimerMode}

theorem configured_new (dialect : Dialect) (mode : TimerMode) (random : List UInt8) (now : Nat) :
    (new dialect mode random now).Configured dialect mode :=
  ⟨rfl, rfl⟩

theorem Configured.step {m : Machine} (hm : m.Configured dialect mode) (now : Nat) :
    (m.step now).state.Configured dialect mode := by
  have hretains := m.retains_step now
  exact ⟨hretains.dialect.trans hm.dialect, hretains.mode.trans hm.mode⟩

theorem Configured.reset {m : Machine} (hm : m.Configured dialect mode) (now : Nat) :
    (m.reset now).Configured dialect mode :=
  ⟨hm.dialect, hm.mode⟩

theorem Configured.load {m : Machine} (hm : m.Configured dialect mode) (program : Program) :
    (m.load program).state.Configured dialect mode := by
  obtain ⟨memory, loaded, hload⟩ := m.load_state program
  rw [hload]
  exact ⟨hm.dialect, hm.mode⟩

theorem Configured.operate {m : Machine} (hm : m.Configured dialect mode) (now : Nat)
    (operation : Operation) :
    (m.operate now operation).2.Configured dialect mode := by
  cases operation with
  | load program => exact hm.load program
  | step => exact hm.step now
  | reset => exact hm.reset now
  | resetAndLoad program => exact (hm.reset now).load program
  | _ => exact ⟨hm.dialect, hm.mode⟩

theorem Configured.after {m : Machine} (hm : m.Configured dialect mode)
    (history : List (Nat × Operation)) :
    (m.after history).Configured dialect mode := by
  induction history generalizing m with
  | nil => exact hm
  | cons event history ih => exact ih (hm.operate event.1 event.2)

theorem Configured.reset_eq {m : Machine} (hm : m.Configured dialect mode) (now : Nat) :
    m.reset now = { new dialect mode m.random now with keypad := m.keypad } := by
  obtain ⟨rfl, rfl⟩ := hm
  rfl

theorem load_state_of_fault {m : Machine} {program : Program} {e : LoadError}
    (hfault : (m.load program).fault = some e) :
    (m.load program).state = m := by
  unfold load Memory.load at hfault ⊢
  split
  next => rfl
  next hloaded =>
    rw [if_neg hloaded] at hfault
    split
    next => rfl
    next hempty =>
      rw [if_neg hempty] at hfault
      split
      next => rfl
      next hfits =>
        rw [if_neg hfits] at hfault
        cases hfault

/-- Whatever the history of a machine, after a reset it is a new machine of the same kind with the
same keys down.  So loading a program with a reset gives on the one what loading it gives on the
other, in every reply and in every state from then on, and where that fails there is a machine
without a program. -/
theorem reset_forgets_history (dialect : Dialect) (mode : TimerMode) (random : List UInt8)
    (created : Nat) (history : List (Nat × Operation)) (now : Nat) :
    let used := (new dialect mode random created).after history
    let fresh := { new dialect mode used.random now with keypad := used.keypad }
    used.reset now = fresh ∧
      ∀ program : Program,
        (∀ later, used.outcomes ((now, .resetAndLoad program) :: later) =
          fresh.outcomes ((now, .load program) :: later)) ∧
        ∀ e, (used.resetAndLoad now program).fault = some e →
          (used.resetAndLoad now program).state = fresh ∧
            (used.resetAndLoad now program).state.loaded = false := by
  intro used fresh
  have hused : used.Configured dialect mode :=
    (configured_new dialect mode random created).after history
  have hreset : used.reset now = fresh := hused.reset_eq now
  refine ⟨hreset, ?_⟩
  intro program
  have hload : used.resetAndLoad now program = fresh.load program := by
    unfold resetAndLoad
    rw [hreset]
  constructor
  · intro later
    have hoperate : used.operate now (.resetAndLoad program) =
        fresh.operate now (.load program) := by
      simp only [operate, hload]
    unfold outcomes
    rw [hoperate]
  · intro e hfault
    rw [hload] at hfault ⊢
    rw [load_state_of_fault hfault]
    exact ⟨rfl, rfl⟩

/-- A program that takes a random byte, sounds for as long and calls a subroutine, on a machine with
a key down. -/
def busy : List (Nat × Operation) :=
  [(1, .load #[0xC1, 0xFF, 0xF1, 0x18, 0x22, 0x06]), (2, .setKey 5 true), (3, .step), (4, .step),
    (5, .step), (6, .tickTimers)]

theorem reset_forgets_history_busy :
    let used := (new .standard .perStep [1, 7] 0).after busy
    used.processor.stack.depth = 1 ∧ used.timers.beep = true ∧
      used.reset 9 = { new .standard .perStep used.random 9 with keypad := used.keypad } ∧
      (used.resetAndLoad 9 #[]).fault = some .emptyProgram ∧
      (used.resetAndLoad 9 #[]).state.loaded = false := by
  obtain ⟨hdepth, hbeep, hfault⟩ :
      ((new .standard .perStep [1, 7] 0).after busy).processor.stack.depth = 1 ∧
        ((new .standard .perStep [1, 7] 0).after busy).timers.beep = true ∧
        (((new .standard .perStep [1, 7] 0).after busy).resetAndLoad 9 #[]).fault =
          some .emptyProgram := by
    decide +kernel
  obtain ⟨hreset, hload⟩ := reset_forgets_history .standard .perStep [1, 7] 0 busy 9
  exact ⟨hdepth, hbeep, hreset, hfault, ((hload #[]).2 _ hfault).2⟩

end Machine

end ChipEight
