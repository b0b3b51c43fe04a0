import ChipEight.History
import ChipEight.Proofs.Calls

/-!
# Keys and steps in any order

Three words read the keypad, `Ex9E`, `ExA1` and `Fx0A`, and no instruction writes it.  A step that
fetches none of the three therefore does the same whatever keys are down, and changing a key before
it or after it makes no difference.  So a row of such steps and a row of key events can be put into
one another in any way.
-/

namespace ChipEight

namespace Instruction

def readsKeys : Instruction → Bool
  | .skipKey .. | .awaitKey _ => true
  | _ => false

/-- Whether a word is `Ex9E`, `ExA1` or `Fx0A`. -/
def IsKeyWord (word : UInt16) : Prop :=
  (nibble word 3).val = 0xE ∧ (lowByte word = 0x9E ∨ lowByte word = 0xA1) ∨
    (nibble word 3).val = 0xF ∧ lowByte word = 0x0A

instance (word : UInt16) : Decidable (IsKeyWord word) :=
  inferInstanceAs (Decidable (_ ∨ _))

theorem readsKeys_decode_iff (word : UInt16) :
    (decode word).readsKeys = true ↔ IsKeyWord word := by
  unfold IsKeyWord
  constructor
  · intro hreads
    have hwritten := written_decode word
    generalize decode word = instruction at hwritten hreads
    generalize hcode : word.toNat = code at hwritten
    cases hwritten with
    | skipIfKey x =>
        obtain ⟨hfamily, -, hbyte⟩ := fields_of_byte 0xE 0x9E hcode
        exact Or.inl ⟨hfamily, Or.inl hbyte⟩
    | skipUnlessKey x =>
        obtain ⟨hfamily, -, hbyte⟩ := fields_of_byte 0xE 0xA1 hcode
        exact Or.inl ⟨hfamily, Or.inr hbyte⟩
    | awaitKey x =>
        obtain ⟨hfamily, -, hbyte⟩ := fields_of_byte 0xF 0x0A hcode
        exact Or.inr ⟨hfamily, hbyte⟩
    | _ => cases hreads
  · rintro (⟨hfamily, hbyte | hbyte⟩ | ⟨hfamily, hbyte⟩)
    · simp [decode, hfamily, decodeKeys, hbyte, readsKeys]
    · simp [decode, hfamily, decodeKeys, hbyte, readsKeys]
    · simp [decode, hfamily, decodeMisc, hbyte, readsKeys]

end Instruction

def Operation.setsKey : Operation → Bool
  | .setKey .. => true
  | _ => false

namespace Machine

def withKeypad (m : Machine) (keypad : Keypad) : Machine :=
  { m with keypad }

/-- The word that a step fetches.  Without a program, on a processor that has stopped for good and
outside of memory there is none. -/
def fetchedWord? (m : Machine) : Option UInt16 :=
  if m.isRunning then (m.memory.word m.processor.pc.toNat).toOption else none

/-- The step does not look at the keypad. -/
def KeyBlind (m : Machine) : Prop :=
  ∀ word ∈ m.fetchedWord?, ¬ Instruction.IsKeyWord word

-- Named, since a search may find the instance that runs over all words.
instance (m : Machine) : Decidable m.KeyBlind :=
  Option.decidableForallMem m.fetchedWord?

/-! ## One step -/

theorem Effect.withKeypad {m after : Machine} {instruction : Instruction} {flow : Flow}
    (heffect : Effect m instruction flow after) (hblind : instruction.readsKeys = false)
    (keypad : Keypad) :
    Effect (m.withKeypad keypad) instruction flow (after.withKeypad keypad) := by
  cases heffect with
  | skipKey down x hkey => cases hblind
  | awaitNoKey x hnone => cases hblind
  | awaitKey x hkey => cases hblind
  | _ => constructor <;> assumption

theorem Refuses.withKeypad {m : Machine} {instruction : Instruction} {fault : Fault}
    (hrefuses : Refuses m instruction fault) (keypad : Keypad) :
    Refuses (m.withKeypad keypad) instruction fault := by
  cases hrefuses with
  | leave htop => exact .leave htop
  | call target hpush => exact .call target hpush
  | random x mask hrandom => exact .random x mask hrandom
  | skipKey down x hkey => exact .skipKey down x hkey
  | reach hreach hout => exact .reach hreach hout

theorem record_withKeypad (m : Machine) {instruction : Instruction}
    (hblind : instruction.readsKeys = false) (keypad : Keypad) :
    (m.withKeypad keypad).record instruction = m.record instruction := by
  cases instruction with
  | skipKey down x => cases hblind
  | awaitKey x => cases hblind
  | skipByte equal x byte => cases equal <;> rfl
  | skipRegister equal x y => cases equal <;> rfl
  | _ => rfl

theorem cycle_withKeypad {m : Machine} (hloaded : m.loaded = true) (hblind : m.KeyBlind)
    (keypad : Keypad) :
    (m.withKeypad keypad).cycle = m.cycle.lift (·.withKeypad keypad) id := by
  obtain ⟨_, rfl, hcycle⟩ :=
    cycle_alike (fun m m' => m' = m.withKeypad keypad) m (m.withKeypad keypad)
      rfl rfl rfl rfl rfl fun word hrunning hword => by
        have hfetched : m.fetchedWord? = some word := by
          unfold fetchedWord? isRunning
          rw [hloaded, hrunning, hword]
          rfl
        have hreads : (Instruction.decode word).readsKeys = false := by
          rw [← Bool.not_eq_true, Instruction.readsKeys_decode_iff]
          exact hblind word hfetched
        exact
          { record := (m.fetched word).record_withKeypad hreads keypad
            refuses := fun _ hrefuses => hrefuses.withKeypad keypad
            effect := fun _ _ heffect => ⟨_, heffect.withKeypad hreads keypad, rfl⟩ }
  rw [hcycle]
  unfold Attempt.lift
  rw [Option.map_id, id]

theorem step_withKeypad {m : Machine} (hblind : m.KeyBlind) (now : Nat) (keypad : Keypad) :
    (m.withKeypad keypad).step now = (m.step now).lift (·.withKeypad keypad) id :=
  step_lift (·.withKeypad keypad) rfl (fun hloaded => cycle_withKeypad hloaded hblind keypad)
    ⟨rfl, rfl⟩

/-! ## Rows of steps -/

/-- The results of the steps in a history and the records that they make. -/
def stepResults (m : Machine) : List (Nat × Operation) → List (Option Fault × Log)
  | [] => []
  | (now, .step) :: rest =>
      ((m.step now).fault, (m.step now).log) :: (m.step now).state.stepResults rest
  | (now, operation) :: rest => (m.operate now operation).2.stepResults rest

theorem stepResults_step (m : Machine) (now : Nat) (rest : List (Nat × Operation)) :
    m.stepResults ((now, .step) :: rest) =
      ((m.step now).fault, (m.step now).log) :: (m.step now).state.stepResults rest :=
  rfl

/-- No step of a row looks at the keypad. -/
def AllKeyBlind (m : Machine) (steps : List (Nat × Operation)) : Prop :=
  ∀ i < steps.length, (m.after (steps.take i)).KeyBlind

instance (m : Machine) (steps : List (Nat × Operation)) : Decidable (m.AllKeyBlind steps) :=
  Nat.decidableBallLT steps.length fun i _ => (m.after (steps.take i)).KeyBlind

theorem AllKeyBlind.head {m : Machine} {event : Nat × Operation} {steps : List (Nat × Operation)}
    (hblind : m.AllKeyBlind (event :: steps)) : m.KeyBlind :=
  hblind 0 (Nat.succ_pos _)

theorem AllKeyBlind.tail {m : Machine} {event : Nat × Operation} {steps : List (Nat × Operation)}
    (hblind : m.AllKeyBlind (event :: steps)) :
    (m.operate event.1 event.2).2.AllKeyBlind steps :=
  fun i hi => hblind (i + 1) (Nat.succ_lt_succ hi)

/-- A row of steps that do not look at the keypad goes the same way with other keys down. -/
theorem after_withKeypad {m : Machine} {steps : List (Nat × Operation)}
    (hsteps : ∀ event ∈ steps, event.2 = .step) (hblind : m.AllKeyBlind steps)
    (keypad : Keypad) :
    (m.withKeypad keypad).after steps = (m.after steps).withKeypad keypad ∧
      (m.withKeypad keypad).stepResults steps = m.stepResults steps ∧
      (m.withKeypad keypad).AllKeyBlind steps := by
  induction steps generalizing m with
  | nil => exact ⟨rfl, rfl, fun i hi => absurd hi (Nat.not_lt_zero i)⟩
  | cons event steps ih =>
      obtain ⟨now, operation⟩ := event
      obtain rfl : operation = .step := hsteps _ List.mem_cons_self
      have hstep := step_withKeypad hblind.head now keypad
      obtain ⟨hafter, hresults, hlater⟩ :=
        ih (fun event hevent => hsteps event (List.mem_cons_of_mem _ hevent)) hblind.tail
      have hstate : ((m.withKeypad keypad).operate now .step).2 =
          (m.operate now .step).2.withKeypad keypad :=
        congrArg Attempt.state hstep
      refine ⟨?_, ?_, ?_⟩
      · change ((m.withKeypad keypad).operate now .step).2.after steps = _
        rw [hstate]
        exact hafter
      · rw [stepResults_step, stepResults_step, hstep]
        simp only [Attempt.lift, Option.map_id, id]
        exact congrArg _ hresults
      · intro i hi
        cases i with
        | zero => exact hblind.head
        | succ i =>
            change (((m.withKeypad keypad).operate now .step).2.after (steps.take i)).KeyBlind
            rw [hstate]
            exact hlater i (Nat.lt_of_succ_lt_succ hi)

theorem keypad_after_steps (m : Machine) {steps : List (Nat × Operation)}
    (hsteps : ∀ event ∈ steps, event.2 = .step) :
    (m.after steps).keypad = m.keypad := by
  induction steps generalizing m with
  | nil => rfl
  | cons event steps ih =>
      obtain ⟨now, operation⟩ := event
      obtain rfl : operation = .step := hsteps _ List.mem_cons_self
      have hrest := ih (m.step now).state
        fun event hevent => hsteps event (List.mem_cons_of_mem _ hevent)
      exact hrest.trans (m.retains_step now).keypad

/-- The induction goes over the history.  A key event that comes first is moved behind all steps,
which do not see it and leave the keypad to the key events that follow. -/
theorem after_interleaves {m : Machine} {steps keys history : List (Nat × Operation)}
    (hinterleaves : History.Interleaves steps keys history)
    (hsteps : ∀ event ∈ steps, event.2 = .step)
    (hkeys : ∀ event ∈ keys, event.2.setsKey = true) (hblind : m.AllKeyBlind steps) :
    m.after history = (m.after steps).after keys ∧
      m.stepResults history = m.stepResults steps := by
  induction hinterleaves generalizing m with
  | nil => exact ⟨rfl, rfl⟩
  | left event hrest ih =>
      obtain ⟨now, operation⟩ := event
      obtain rfl : operation = .step := hsteps _ List.mem_cons_self
      obtain ⟨hafter, hresults⟩ :=
        ih (fun event hevent => hsteps event (List.mem_cons_of_mem _ hevent)) hkeys hblind.tail
      refine ⟨hafter, ?_⟩
      rw [stepResults_step, stepResults_step]
      exact congrArg _ hresults
  | @right steps keys history event hrest ih =>
      obtain ⟨now, operation⟩ := event
      cases operation with
      | setKey code pressed =>
          obtain ⟨hmoved, hsame, hstill⟩ :=
            after_withKeypad hsteps hblind (m.keypad.set code pressed)
          obtain ⟨hafter, hresults⟩ :=
            ih hsteps (fun event hevent => hkeys event (List.mem_cons_of_mem _ hevent)) hstill
          constructor
          · change (m.withKeypad (m.keypad.set code pressed)).after history =
              ((m.after steps).withKeypad ((m.after steps).keypad.set code pressed)).after keys
            rw [hafter, hmoved, m.keypad_after_steps hsteps]
          · exact hresults.trans hsame
      | _ => cases hkeys _ List.mem_cons_self

/-! ## The theorem -/

/-- Where no step of a row fetches a word that reads the keypad, the steps and a row of key events
have the same results and lead to the same machine however they are put into one another.  No step
of any kind changes the keypad. -/
theorem keys_commute_with_steps (m : Machine) :
    (∀ steps keys history : List (Nat × Operation),
      (∀ event ∈ steps, event.2 = .step) → (∀ event ∈ keys, event.2.setsKey = true) →
      m.AllKeyBlind steps → History.Interleaves steps keys history →
        m.stepResults history = m.stepResults steps ∧
          m.after history = (m.after steps).after keys) ∧
      ∀ now, (m.step now).state.keypad = m.keypad ∧ m.cycle.state.keypad = m.keypad := by
  constructor
  · intro steps keys history hsteps hkeys hblind hinterleaves
    exact (after_interleaves hinterleaves hsteps hkeys hblind).symm
  · intro now
    exact ⟨(m.retains_step now).keypad, m.retains_cycle.keypad⟩

/-- A machine with a program that makes its last instruction, which would wait for a key, one that
reads the delay timer before it gets there. -/
def rewriting : Machine :=
  (new .standard .realTime [] 0).after
    [(0, .load #[0x60, 0x07, 0xA2, 0x07, 0xF0, 0x55, 0xF0, 0x0A])]

def fourSteps : List (Nat × Operation) :=
  [(1, .step), (2, .step), (3, .step), (4, .step)]

def threeKeys : List (Nat × Operation) :=
  [(0, .setKey 5 true), (0, .setKey 0xFF true), (0, .setKey 5 false)]

theorem keys_commute_with_steps_rewriting :
    let mixed : List (Nat × Operation) :=
      [(0, .setKey 5 true), (1, .step), (2, .step), (0, .setKey 0xFF true), (3, .step),
        (0, .setKey 5 false), (4, .step)]
    rewriting.memory.word 0x206 = .ok 0xF00A ∧ rewriting.AllKeyBlind fourSteps ∧
      rewriting.stepResults mixed = rewriting.stepResults fourSteps ∧
      rewriting.after mixed = (rewriting.after fourSteps).after threeKeys := by
  intro mixed
  have hblind : rewriting.AllKeyBlind fourSteps := by decide +kernel
  have hmixed : History.Interleaves fourSteps threeKeys mixed :=
    .right _ (.left _ (.left _ (.right _ (.left _ (.right _ (.left _ .nil))))))
  obtain ⟨hresults, hafter⟩ := (keys_commute_with_steps rewriting).1 fourSteps threeKeys mixed
    (by decide) (by decide) hblind hmixed
  exact ⟨by decide +kernel, hblind, hresults, hafter⟩

end Machine

end ChipEight
