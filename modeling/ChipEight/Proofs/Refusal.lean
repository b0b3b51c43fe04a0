import ChipEight.Machine.Operation
import ChipEight.Proofs.Execution
import Mathlib.Logic.Function.Iterate

/-!
# A failed step leaves no trace on the program

A step that fails changes nothing that the program could see.  What it leaves behind is a note of
the instruction that failed, and a machine with that note fails in the same way again, so that a
failed step can be repeated at any time and as often as one likes.
-/

namespace ChipEight

namespace Machine

def noted (m : Machine) : Machine :=
  { m with
    processor :=
      { m.processor with
        lastAddress := m.processor.pc
        lastWord := (m.memory.word m.processor.pc.toNat).toOption.getD m.processor.lastWord } }

/-- The trace of a fault.  Without a program, or on a processor that has stopped for good, no
instruction is looked at and there is nothing to note. -/
def noting (m : Machine) : Fault → Machine
  | .halted | .noProgram => m
  | _ => m.noted

theorem noting_keeps (m : Machine) (fault : Fault) :
    ∃ lastAddress lastWord,
      m.noting fault = { m with processor := { m.processor with lastAddress, lastWord } } := by
  unfold noting
  split <;> exact ⟨_, _, rfl⟩

theorem Refuses.noting_eq {m m' : Machine} {instruction : Instruction} {fault : Fault}
    (hrefuses : Refuses m instruction fault) :
    m'.noting fault = m'.noted := by
  cases hrefuses with
  | leave => rfl
  | call => rfl
  | random => rfl
  | skipKey => rfl
  | reach => rfl

/-! ## Cycles -/

theorem stopped_fetched {m : Machine} {word : UInt16}
    (hword : m.memory.word m.processor.pc.toNat = .ok word) :
    (m.fetched word).stopped = m.noted := by
  unfold noted
  rw [hword]
  rfl

theorem aim_of_fetch_error {m : Machine} {e : AddressError}
    (hword : m.memory.word m.processor.pc.toNat = .error e) :
    { m with processor := m.processor.aim } = m.noted := by
  unfold noted
  rw [hword]
  rfl

theorem cycle_fault_cases {m : Machine} {fault : Fault}
    (hfault : m.cycle.fault = some fault) :
    (m.processor.running = false ∧ fault = .halted ∧ m.cycle.state = m) ∨
      m.processor.running = true ∧ m.cycle.state = m.noted ∧
        ((∃ e, m.memory.word m.processor.pc.toNat = .error e ∧
            fault = .outOfBounds e.address m.processor.pc) ∨
          ∃ word, m.memory.word m.processor.pc.toNat = .ok word ∧
            Refuses (m.fetched word) (.decode word) fault) := by
  unfold cycle at hfault ⊢
  by_cases hrunning : m.processor.running
  · right
    rw [if_pos hrunning] at hfault ⊢
    refine ⟨hrunning, ?_⟩
    cases hword : m.memory.word m.processor.pc.toNat with
    | error e =>
        simp only [hword] at hfault ⊢
        cases hfault
        exact ⟨aim_of_fetch_error hword, Or.inl ⟨e, rfl, rfl⟩⟩
    | ok word =>
        simp only [hword, perform] at hfault ⊢
        cases hrun : (execute (.decode word)).run (m.fetched word) with
        | ok flow after =>
            rw [hrun] at hfault
            cases hfault
        | error found after =>
            rw [hrun] at hfault
            cases hfault
            obtain ⟨rfl, hrefuses⟩ :=
              refuses_of_run_execute (Instruction.decode_ne_unknown word) hrun
            exact ⟨stopped_fetched hword, Or.inr ⟨word, rfl, hrefuses⟩⟩
  · rw [if_neg hrunning] at hfault ⊢
    cases hfault
    exact Or.inl ⟨by simpa using hrunning, rfl, rfl⟩

theorem cycle_of_refuses {m : Machine} {word : UInt16} {fault : Fault}
    (hrunning : m.processor.running = true)
    (hword : m.memory.word m.processor.pc.toNat = .ok word)
    (hrefuses : Refuses (m.fetched word) (.decode word) fault) :
    m.cycle = .failed m.noted fault
      (if (Instruction.decode word).announced then
        #[(m.fetched word).record (.decode word)] else #[]) := by
  unfold cycle perform
  rw [if_pos hrunning, hword]
  simp only [run_execute_of_refuses hrefuses, stopped_fetched hword]

theorem cycle_state_of_fault {m : Machine} {fault : Fault}
    (hfault : m.cycle.fault = some fault) :
    m.cycle.state = m.noting fault := by
  rcases cycle_fault_cases hfault with
    ⟨-, rfl, hstate⟩ | ⟨-, hstate, ⟨e, -, rfl⟩ | ⟨word, -, hrefuses⟩⟩
  · exact hstate
  · exact hstate
  · rw [hrefuses.noting_eq]
    exact hstate

theorem cycle_noted {m : Machine} (hrunning : m.processor.running = true) :
    m.noted.cycle = m.cycle := by
  unfold cycle
  have hnoted : m.noted.processor.running = true := hrunning
  have hmemory :
      m.noted.memory.word m.noted.processor.pc.toNat =
        m.memory.word m.processor.pc.toNat := rfl
  rw [if_pos hnoted, if_pos hrunning, hmemory]
  cases hword : m.memory.word m.processor.pc.toNat with
  | ok word => rfl
  | error e =>
      have haim : { m.noted with processor := m.noted.processor.aim } = m.noted := rfl
      simp only [aim_of_fetch_error hword, haim]

theorem cycle_noting {m : Machine} {fault : Fault}
    (hfault : m.cycle.fault = some fault) :
    (m.noting fault).cycle = m.cycle := by
  rcases cycle_fault_cases hfault with
    ⟨-, rfl, -⟩ | ⟨hrunning, -, ⟨e, -, rfl⟩ | ⟨word, -, hrefuses⟩⟩
  · rfl
  · exact cycle_noted hrunning
  · rw [hrefuses.noting_eq]
    exact cycle_noted hrunning

/-- Why a cycle of a processor that has not stopped for good fails. -/
theorem cycle_fault_iff {m : Machine} (hrunning : m.processor.running = true) (fault : Fault) :
    m.cycle.fault = some fault ↔
      (∃ e, m.memory.word m.processor.pc.toNat = .error e ∧
          fault = .outOfBounds e.address m.processor.pc) ∨
        ∃ word, m.memory.word m.processor.pc.toNat = .ok word ∧
          Refuses (m.fetched word) (.decode word) fault := by
  constructor
  · intro hfault
    rcases cycle_fault_cases hfault with ⟨hstopped, -, -⟩ | ⟨-, -, hcauses⟩
    · rw [hrunning] at hstopped
      cases hstopped
    · exact hcauses
  · rintro (⟨e, hword, rfl⟩ | ⟨word, hword, hrefuses⟩)
    · unfold cycle
      rw [if_pos hrunning, hword]
      rfl
    · exact congrArg Attempt.fault (cycle_of_refuses hrunning hword hrefuses)

/-! ## Steps -/

theorem step_of_cycle_fault {m : Machine} {fault : Fault} (hloaded : m.loaded = true)
    (hfault : m.cycle.fault = some fault) (now : Nat) :
    m.step now = m.cycle := by
  unfold step
  rw [if_pos hloaded]
  unfold Attempt.andThen
  rw [hfault]

theorem step_fault_cases {m : Machine} {now : Nat} {fault : Fault}
    (hfault : (m.step now).fault = some fault) :
    (m.loaded = true ∧ m.cycle.fault = some fault) ∨
      (m.loaded = false ∧ fault = .noProgram) := by
  unfold step at hfault
  split at hfault
  next hloaded =>
    left
    refine ⟨hloaded, ?_⟩
    unfold Attempt.andThen at hfault
    cases hcycle : m.cycle.fault with
    | none =>
        rw [hcycle] at hfault
        cases hfault
    | some found =>
        rw [hcycle] at hfault
        exact hcycle.symm.trans hfault
  next hloaded =>
    cases hfault
    exact Or.inr ⟨by simpa using hloaded, rfl⟩

/-- Why a step of a processor that has not stopped for good fails. -/
theorem step_fault_iff {m : Machine} (hrunning : m.processor.running = true) (now : Nat)
    (fault : Fault) :
    (m.step now).fault = some fault ↔
      (m.loaded = false ∧ fault = .noProgram) ∨
        m.loaded = true ∧
          ((∃ e, m.memory.word m.processor.pc.toNat = .error e ∧
              fault = .outOfBounds e.address m.processor.pc) ∨
            ∃ word, m.memory.word m.processor.pc.toNat = .ok word ∧
              Refuses (m.fetched word) (.decode word) fault) := by
  constructor
  · intro hfault
    rcases step_fault_cases hfault with ⟨hloaded, hcycle⟩ | hempty
    · exact Or.inr ⟨hloaded, (cycle_fault_iff hrunning fault).mp hcycle⟩
    · exact Or.inl hempty
  · rintro (⟨hloaded, rfl⟩ | ⟨hloaded, hcauses⟩)
    · unfold step
      rw [hloaded]
      rfl
    · have hcycle := (cycle_fault_iff hrunning fault).mpr hcauses
      rw [step_of_cycle_fault hloaded hcycle]
      exact hcycle

theorem step_state_of_fault {m : Machine} {now : Nat} {fault : Fault}
    (hfault : (m.step now).fault = some fault) :
    (m.step now).state = m.noting fault := by
  rcases step_fault_cases hfault with ⟨hloaded, hcycle⟩ | ⟨hloaded, rfl⟩
  · rw [step_of_cycle_fault hloaded hcycle]
    exact cycle_state_of_fault hcycle
  · unfold step
    rw [hloaded]
    rfl

/-- What neither a cycle nor a step changes. -/
structure Retains (m after : Machine) : Prop where
  dialect : after.processor.dialect = m.processor.dialect
  running : after.processor.running = m.processor.running
  keypad : after.keypad = m.keypad
  mode : after.timers.mode = m.timers.mode
  loaded : after.loaded = m.loaded

theorem retains_noting (m : Machine) (fault : Fault) : Retains m (m.noting fault) := by
  obtain ⟨lastAddress, lastWord, hnoting⟩ := m.noting_keeps fault
  rw [hnoting]
  exact ⟨rfl, rfl, rfl, rfl, rfl⟩

theorem Performs.retains {m after : Machine} {word : UInt16} {flow : Flow}
    (hperforms : Performs m word flow after) :
    Retains m { after with processor := after.processor.follow flow } := by
  have huntouched := hperforms.effect.untouched
  obtain ⟨pc, hfollow⟩ := follow_eq after.processor flow
  rw [hfollow]
  exact ⟨huntouched.dialect, huntouched.running, huntouched.keypad, huntouched.mode,
    huntouched.loaded⟩

theorem retains_cycle (m : Machine) : Retains m m.cycle.state := by
  cases hfault : m.cycle.fault with
  | some fault =>
      rw [cycle_state_of_fault hfault]
      exact m.retains_noting fault
  | none =>
      obtain ⟨word, flow, after, hperforms, hstate⟩ := performs_of_cycle hfault
      rw [hstate]
      exact hperforms.retains

theorem retains_step (m : Machine) (now : Nat) : Retains m (m.step now).state := by
  cases hfault : (m.step now).fault with
  | some fault =>
      rw [step_state_of_fault hfault]
      exact m.retains_noting fault
  | none =>
      obtain ⟨word, flow, after, hperforms, -, hstate⟩ := performs_of_step hfault
      have hretains := hperforms.retains
      rw [hstate]
      exact ⟨hretains.dialect, hretains.running, hretains.keypad,
        (Timers.mode_update _ now).trans hretains.mode, hretains.loaded⟩

theorem step_eq_of_fault {m : Machine} {now : Nat} {fault : Fault}
    (hfault : (m.step now).fault = some fault) (later : Nat) :
    m.step later = m.step now := by
  rcases step_fault_cases hfault with ⟨hloaded, hcycle⟩ | ⟨hloaded, rfl⟩
  · rw [step_of_cycle_fault hloaded hcycle, step_of_cycle_fault hloaded hcycle]
  · unfold step
    rw [hloaded]
    rfl

theorem step_noting {m : Machine} {now : Nat} {fault : Fault}
    (hfault : (m.step now).fault = some fault) (later : Nat) :
    (m.noting fault).step later = m.step now := by
  rcases step_fault_cases hfault with ⟨hloaded, hcycle⟩ | ⟨hloaded, rfl⟩
  · have hagain := cycle_noting hcycle
    have hstill : (m.noting fault).loaded = true :=
      (m.retains_noting fault).loaded.trans hloaded
    rw [step_of_cycle_fault hloaded hcycle,
      step_of_cycle_fault hstill (hagain ▸ hcycle), hagain]
  · unfold step noting
    simp [hloaded]

theorem afterSteps_noting {m : Machine} {now : Nat} {fault : Fault}
    (hfault : (m.step now).fault = some fault) (moments : List Nat) :
    (m.noting fault).afterSteps moments = m.noting fault := by
  induction moments with
  | nil => rfl
  | cons moment moments ih =>
      have hstate : ((m.noting fault).step moment).state = m.noting fault := by
        rw [step_noting hfault moment]
        exact step_state_of_fault hfault
      unfold afterSteps at ih ⊢
      rw [List.foldl_cons, hstate]
      exact ih

theorem iterate_cycle_noting {m : Machine} {fault : Fault}
    (hfault : m.cycle.fault = some fault) (n : Nat) :
    (fun m => m.cycle.state)^[n] (m.noting fault) = m.noting fault := by
  apply Function.iterate_fixed
  rw [cycle_noting hfault]
  exact cycle_state_of_fault hfault

/-! ## Two machines -/

/-- What an instruction does to one machine it does to the other, up to `alike`. -/
structure TreatsAlike (alike : Machine → Machine → Prop) (instruction : Instruction)
    (m m' : Machine) : Prop where
  record : m'.record instruction = m.record instruction
  refuses : ∀ fault, Refuses m instruction fault → Refuses m' instruction fault
  effect : ∀ flow after, Effect m instruction flow after →
    ∃ after', Effect m' instruction flow after' ∧
      alike { after with processor := after.processor.follow flow }
        { after' with processor := after'.processor.follow flow }

theorem TreatsAlike.perform {alike : Machine → Machine → Prop} {word : UInt16} {m m' : Machine}
    (htreats : TreatsAlike alike (.decode word) m m') (hstopped : alike m.stopped m'.stopped) :
    ∃ after, alike (m.perform (.decode word)).state after ∧
      m'.perform (.decode word) =
        ⟨after, (m.perform (.decode word)).fault, (m.perform (.decode word)).log⟩ := by
  unfold Machine.perform
  rw [htreats.record]
  cases hrun : (execute (.decode word)).run m with
  | error fault after =>
      obtain ⟨rfl, hrefuses⟩ := refuses_of_run_execute (Instruction.decode_ne_unknown word) hrun
      rw [run_execute_of_refuses (htreats.refuses fault hrefuses)]
      exact ⟨m'.stopped, hstopped, rfl⟩
  | ok flow after =>
      obtain ⟨after', heffect, halike⟩ := htreats.effect flow after (effect_of_run_execute hrun)
      rw [run_execute_of_effect heffect]
      exact ⟨_, halike, rfl⟩

/-- A cycle goes the same way in two machines that fetch the same word, where its instruction treats
them alike. -/
theorem cycle_alike (alike : Machine → Machine → Prop) (m m' : Machine)
    (hrunning : m'.processor.running = m.processor.running)
    (hpc : m'.processor.pc = m.processor.pc) (hmemory : m'.memory = m.memory)
    (hstart : alike m m') (hnoted : alike m.noted m'.noted)
    (htreats : ∀ word, m.processor.running = true →
      m.memory.word m.processor.pc.toNat = .ok word →
        TreatsAlike alike (.decode word) (m.fetched word) (m'.fetched word)) :
    ∃ after, alike m.cycle.state after ∧
      m'.cycle = ⟨after, m.cycle.fault, m.cycle.log⟩ := by
  have hfetch : m'.memory.word m'.processor.pc.toNat = m.memory.word m.processor.pc.toNat := by
    rw [hpc, hmemory]
  unfold cycle
  rw [hrunning, hfetch]
  by_cases hruns : m.processor.running = true
  · rw [if_pos hruns, if_pos hruns]
    cases hword : m.memory.word m.processor.pc.toNat with
    | error e =>
        simp only
        rw [aim_of_fetch_error hword, aim_of_fetch_error (hfetch.trans hword)]
        refine ⟨m'.noted, hnoted, ?_⟩
        change Attempt.failed m'.noted (Fault.outOfBounds e.address m'.processor.pc) #[] = _
        rw [hpc]
        rfl
    | ok word =>
        apply (htreats word hruns hword).perform
        rw [stopped_fetched hword, stopped_fetched (hfetch.trans hword)]
        exact hnoted
  · rw [if_neg hruns, if_neg hruns]
    exact ⟨m', hstart, rfl⟩

/-- A step goes the same way in two machines where a cycle does and the timers are treated alike. -/
theorem step_alike (alike : Machine → Machine → Prop) (m m' : Machine) (now now' : Nat)
    (hloaded : m'.loaded = m.loaded) (hstart : alike m m')
    (hcycle : m.loaded = true → ∃ after, alike m.cycle.state after ∧
      m'.cycle = ⟨after, m.cycle.fault, m.cycle.log⟩)
    (hupdate : ∀ after, alike m.cycle.state after →
      alike (m.cycle.state.updateTimers now) (after.updateTimers now') ∧
        after.timers.updateLog now' = m.cycle.state.timers.updateLog now) :
    ∃ after, alike (m.step now).state after ∧
      m'.step now' = ⟨after, (m.step now).fault, (m.step now).log⟩ := by
  unfold step
  rw [hloaded]
  by_cases hprogram : m.loaded = true
  · rw [if_pos hprogram, if_pos hprogram]
    obtain ⟨after, halike, hsame⟩ := hcycle hprogram
    rw [hsame]
    cases hfault : m.cycle.fault with
    | some fault =>
        rw [Attempt.andThen_of_fault hfault, Attempt.andThen_of_fault rfl, hfault]
        exact ⟨after, halike, rfl⟩
    | none =>
        obtain ⟨hupdated, hlog⟩ := hupdate after halike
        refine ⟨after.updateTimers now', ?_, ?_⟩
        · rw [(Attempt.andThen_of_succeeded hfault _).1]
          exact hupdated
        · rw [(Attempt.andThen_of_succeeded hfault _).2,
            Attempt.log_andThen_of_succeeded hfault]
          exact congrArg (fun records => Attempt.mk _ none (m.cycle.log ++ records)) hlog
  · rw [if_neg hprogram, if_neg hprogram]
    exact ⟨m', hstart, rfl⟩

theorem step_lift {m : Machine} (change : Machine → Machine) {now : Nat}
    (hloaded : (change m).loaded = m.loaded)
    (hcycle : m.loaded = true → (change m).cycle = m.cycle.lift change id)
    (hupdate :
      (change m.cycle.state).updateTimers now = change (m.cycle.state.updateTimers now) ∧
        (change m.cycle.state).timers.updateLog now = m.cycle.state.timers.updateLog now) :
    (change m).step now = (m.step now).lift change id := by
  obtain ⟨_, rfl, hstep⟩ :=
    step_alike (fun m m' => m' = change m) m (change m) now now hloaded rfl
      (fun hprogram => by
        rw [hcycle hprogram]
        exact ⟨_, rfl, by rw [Attempt.lift, Option.map_id, id]⟩)
      (fun _ hafter => by
        rw [hafter]
        exact hupdate)
  rw [hstep]
  unfold Attempt.lift
  rw [Option.map_id, id]

/-! ## The theorem -/

/-- A cycle or a step that fails keeps the whole machine but for the note of the failed instruction,
and however often it is repeated it fails in the same way and changes nothing more. -/
theorem fault_keeps_machine (m : Machine) (fault : Fault) :
    (m.cycle.fault = some fault →
      m.cycle.state = m.noting fault ∧
        ∀ n, ((fun m => m.cycle.state)^[n] m).cycle.fault = some fault ∧
          ((fun m => m.cycle.state)^[n] m).cycle.state = m.noting fault) ∧
      ∀ now, (m.step now).fault = some fault →
        (m.step now).state = m.noting fault ∧
          ∀ moments later, ((m.afterSteps moments).step later).fault = some fault ∧
            ((m.afterSteps moments).step later).state = m.noting fault := by
  constructor
  · intro hfault
    have hstate := cycle_state_of_fault hfault
    refine ⟨hstate, ?_⟩
    intro n
    cases n with
    | zero => exact ⟨hfault, hstate⟩
    | succ n =>
        rw [Function.iterate_succ_apply, hstate, iterate_cycle_noting hfault,
          cycle_noting hfault]
        exact ⟨hfault, hstate⟩
  · intro now hfault
    have hstate := step_state_of_fault hfault
    refine ⟨hstate, ?_⟩
    intro moments later
    cases moments with
    | nil =>
        change (m.step later).fault = some fault ∧ (m.step later).state = m.noting fault
        rw [step_eq_of_fault hfault later]
        exact ⟨hfault, hstate⟩
    | cons moment moments =>
        have hafter : m.afterSteps (moment :: moments) = m.noting fault := by
          change (m.step moment).state.afterSteps moments = m.noting fault
          rw [step_eq_of_fault hfault moment, hstate]
          exact afterSteps_noting hfault moments
        rw [hafter, step_noting hfault later]
        exact ⟨hfault, hstate⟩

/-- A machine that is about to draw a sprite from behind the end of memory. -/
def drawingOutside : Machine :=
  { Machine.new .standard .perStep [] 0 with
    processor := { Processor.new .standard with index := 0xFFFF }
    memory := ⟨Vector.replicate Memory.size 0xDD⟩
    loaded := true }

theorem fault_keeps_machine_drawingOutside :
    (drawingOutside.step 7).fault = some (.outOfBounds 0xFFFF 0x200) ∧
      drawingOutside.cycle.fault = some (.outOfBounds 0xFFFF 0x200) ∧
      (drawingOutside.step 7).state = drawingOutside.noted ∧
      drawingOutside.cycle.state = drawingOutside.noted :=
  have hstep : (drawingOutside.step 7).fault = some (.outOfBounds 0xFFFF 0x200) := by
    decide +kernel
  have hcycle : drawingOutside.cycle.fault = some (.outOfBounds 0xFFFF 0x200) := by
    decide +kernel
  ⟨hstep, hcycle, ((fault_keeps_machine drawingOutside _).2 7 hstep).1,
    ((fault_keeps_machine drawingOutside _).1 hcycle).1⟩

end Machine

end ChipEight
