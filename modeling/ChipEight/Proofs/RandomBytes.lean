import ChipEight.Proofs.Countdown
import ChipEight.Proofs.KeyOrder

/-!
# Random bytes

A machine has a supply of random bytes, and `Cxkk` is the one instruction that looks at it.  Every
`Cxkk` that succeeds takes the first byte that is left, and nothing else takes any, so the bytes
that were taken are the beginning of the supply.  What comes later in the supply cannot have made a
difference: with another end of the supply the machine does the same until a `Cxkk` gets there.
-/

namespace ChipEight

def Instruction.isRandom : Instruction → Bool
  | .random .. => true
  | _ => false

namespace Machine

def withRandom (m : Machine) (random : List UInt8) : Machine :=
  { m with random }

/-- The instruction that an operation comes to, whether it is carried out or refused. -/
def attempted? (m : Machine) : Operation → Option Instruction
  | .step => if m.isRunning then m.next? else none
  | _ => none

/-- How many `Cxkk` a history comes to. -/
def drawings (m : Machine) : List (Nat × Operation) → Nat
  | [] => 0
  | (now, operation) :: later =>
      (m.attempted? operation).toList.countP Instruction.isRandom +
        (m.operate now operation).2.drawings later

variable {m : Machine} {now : Nat}

/-! ## The bytes that are taken -/

/-- How the supply changes when an instruction is carried out, or when none is. -/
inductive SupplyChange (m after : Machine) : Option Instruction → Prop where
  | random {byte : UInt8} (x : Register) (mask : UInt8)
      (htaken : m.random = byte :: after.random)
      (hstored : after.processor.reg x = byte &&& mask) :
      SupplyChange m after (some (.random x mask))
  | other {performed : Option Instruction}
      (hother : ∀ instruction ∈ performed, instruction.isRandom = false)
      (hsame : after.random = m.random) :
      SupplyChange m after performed

theorem Effect.random_eq {after : Machine} {instruction : Instruction} {flow : Flow}
    (heffect : Effect m instruction flow after) (hother : instruction.isRandom = false) :
    after.random = m.random := by
  rcases heffect.changes_or_sameIn .random with hchanges | hsame
  · cases hchanges with
    | randomByte x mask => cases hother
  · exact hsame

theorem Performs.supplyChange {after : Machine} {word : UInt16} {flow : Flow}
    (hperforms : Performs m word flow after) :
    SupplyChange m { after with processor := after.processor.follow flow }
      (some (.decode word)) := by
  have heffect := hperforms.effect
  generalize Instruction.decode word = instruction at heffect
  cases hrandom : instruction.isRandom with
  | false =>
      refine .other ?_ (heffect.random_eq hrandom)
      rintro _ ⟨⟩
      exact hrandom
  | true =>
      cases heffect with
      | random x mask htaken =>
          exact .random x mask htaken
            (((m.fetched word).processor.reg_set x x _).trans (if_pos rfl))
      | _ => cases hrandom

theorem supplyChange_step (m : Machine) (now : Nat) :
    SupplyChange m (m.step now).state (m.performed? now .step) := by
  cases hfault : (m.step now).fault with
  | some fault =>
      obtain ⟨lastAddress, lastWord, hnoting⟩ := m.noting_keeps fault
      rw [performed?_step_of_fault hfault, step_state_of_fault hfault, hnoting]
      exact .other nofun rfl
  | none =>
      obtain ⟨word, flow, after, hperforms, -, hstate⟩ := performs_of_step hfault
      have hchange := hperforms.supplyChange
      rw [hperforms.performed?_step hfault, hstate]
      generalize Instruction.decode word = instruction at hchange
      cases hchange with
      | random x mask htaken hstored => exact .random x mask htaken hstored
      | other hother hsame => exact .other hother hsame

theorem supplyChange_operate (m : Machine) (now : Nat) (operation : Operation) :
    SupplyChange m (m.operate now operation).2 (m.performed? now operation) := by
  cases operation with
  | step => exact m.supplyChange_step now
  | load program =>
      obtain ⟨memory, loaded, hload⟩ := m.load_state program
      refine .other nofun ?_
      change (m.load program).state.random = m.random
      rw [hload]
  | resetAndLoad program =>
      obtain ⟨memory, loaded, hload⟩ := (m.reset now).load_state program
      refine .other nofun ?_
      change ((m.reset now).load program).state.random = m.random
      rw [hload]
      rfl
  | _ => exact .other nofun rfl

/-- The bytes that a history takes are as many as the `Cxkk` it carries out. -/
theorem random_eq_append_after (m : Machine) (history : List (Nat × Operation)) :
    ∃ taken, m.random = taken ++ (m.after history).random ∧
      taken.length = (m.trace history).countP Instruction.isRandom := by
  induction history generalizing m with
  | nil => exact ⟨[], rfl, rfl⟩
  | cons event later ih =>
      obtain ⟨now, operation⟩ := event
      obtain ⟨taken, hlater, hlength⟩ := ih (m.operate now operation).2
      have hchange := m.supplyChange_operate now operation
      rw [trace, List.countP_append, ← hlength]
      generalize m.performed? now operation = performed at hchange
      cases hchange with
      | @random byte x mask htaken hstored =>
          refine ⟨byte :: taken, ?_, ?_⟩
          · rw [htaken, hlater]
            rfl
          · exact Nat.add_comm taken.length 1
      | other hother hsame =>
          refine ⟨taken, hsame.symm.trans hlater, ?_⟩
          cases performed with
          | none => exact (Nat.zero_add _).symm
          | some instruction => simp [hother instruction rfl]

theorem random_after (m : Machine) (history : List (Nat × Operation)) :
    (m.trace history).countP Instruction.isRandom ≤ m.random.length ∧
      (m.after history).random =
        m.random.drop ((m.trace history).countP Instruction.isRandom) := by
  obtain ⟨taken, hsupply, hlength⟩ := m.random_eq_append_after history
  rw [← hlength, hsupply]
  exact ⟨by simp, List.drop_left.symm⟩

theorem reg_of_performed? {x : Register} {mask : UInt8}
    (hperformed : m.performed? now .step = some (.random x mask)) :
    ∃ byte, m.random.head? = some byte ∧
      (m.step now).state.processor.reg x = byte &&& mask := by
  have hchange := m.supplyChange_step now
  rw [hperformed] at hchange
  cases hchange with
  | @random byte x mask htaken hstored => exact ⟨byte, by rw [htaken]; rfl, hstored⟩
  | other hother hsame => cases hother _ rfl

theorem step_fault_noRandomByte_iff (m : Machine) (now : Nat) :
    (m.step now).fault = some .noRandomByte ↔
      m.isRunning = true ∧ (∃ x mask, m.Reads (.random x mask)) ∧ m.random = [] := by
  constructor
  · intro hfault
    rcases step_fault_cases hfault with ⟨hloaded, hcycle⟩ | ⟨-, ⟨⟩⟩
    rcases cycle_fault_cases hcycle with
      ⟨-, ⟨⟩, -⟩ | ⟨hrunning, -, ⟨_, -, ⟨⟩⟩ | ⟨word, hword, hrefuses⟩⟩
    have hreads := (m.reads_iff _).mpr ⟨word, hword, rfl⟩
    generalize Instruction.decode word = instruction at hrefuses hreads
    cases hrefuses with
    | random x mask hempty =>
        exact ⟨Bool.and_eq_true_iff.mpr ⟨hloaded, hrunning⟩, ⟨x, mask, hreads⟩, hempty⟩
  · rintro ⟨hruns, ⟨x, mask, hreads⟩, hempty⟩
    obtain ⟨hloaded, hrunning⟩ := Bool.and_eq_true_iff.mp hruns
    have hcycle : m.cycle.fault = some .noRandomByte :=
      cycle_fault_of_refuses hrunning hreads fun _ => .random x mask hempty
    rw [step_of_cycle_fault hloaded hcycle]
    exact hcycle

/-! ## Another end of the supply -/

/-- Two machines whose supplies have a beginning of `n` bytes or more in common and which differ in
nothing but what follows it. -/
def Parts (n : Nat) (one other : List UInt8) (m m' : Machine) : Prop :=
  ∃ shared, n ≤ shared.length ∧ m.random = shared ++ one ∧
    m' = m.withRandom (shared ++ other)

variable {n : Nat} {one other shared : List UInt8}

theorem Effect.parts {after : Machine} {instruction : Instruction} {flow : Flow}
    (heffect : Effect m instruction flow after) (hrandom : m.random = shared ++ one)
    (hshared : n + [instruction].countP Instruction.isRandom ≤ shared.length) :
    ∃ left, n ≤ left.length ∧ after.random = left ++ one ∧
      Effect (m.withRandom (shared ++ other)) instruction flow
        (after.withRandom (left ++ other)) := by
  cases heffect with
  | @random byte rest x mask htaken =>
      cases shared with
      | nil => cases hshared
      | cons first left =>
          rw [htaken] at hrandom
          obtain ⟨rfl, rfl⟩ := List.cons.inj hrandom
          exact ⟨left, Nat.le_of_succ_le_succ hshared, rfl, .random x mask rfl⟩
  | _ =>
      refine ⟨shared, hshared, hrandom, ?_⟩
      constructor <;> assumption

theorem Refuses.parts {instruction : Instruction} {fault : Fault}
    (hrefuses : Refuses m instruction fault) (hrandom : m.random = shared ++ one)
    (hshared : [instruction].countP Instruction.isRandom ≤ shared.length) :
    Refuses (m.withRandom (shared ++ other)) instruction fault := by
  cases hrefuses with
  | leave htop => exact .leave htop
  | call target hpush => exact .call target hpush
  | random x mask hempty =>
      rw [hempty] at hrandom
      rw [(List.append_eq_nil_iff.mp hrandom.symm).1] at hshared
      cases hshared
  | skipKey down x hkey => exact .skipKey down x hkey
  | reach hreach hout => exact .reach hreach hout

theorem record_parts {instruction : Instruction} (hrandom : m.random = shared ++ one)
    (hshared : [instruction].countP Instruction.isRandom ≤ shared.length) :
    (m.withRandom (shared ++ other)).record instruction = m.record instruction := by
  cases instruction with
  | random x mask =>
      cases shared with
      | nil => cases hshared
      | cons first left =>
          unfold record describe
          rw [hrandom]
          rfl
  | skipByte equal x byte => cases equal <;> rfl
  | skipRegister equal x y => cases equal <;> rfl
  | skipKey down x => cases down <;> rfl
  | _ => rfl

/-- A step that finds the byte it needs in the common beginning goes the same way. -/
theorem Parts.step {m' : Machine}
    (hparts : Parts (n + (m.attempted? .step).toList.countP Instruction.isRandom) one other m m')
    (now : Nat) :
    Parts n one other (m.step now).state (m'.step now).state ∧
      (m'.step now).fault = (m.step now).fault ∧ (m'.step now).log = (m.step now).log := by
  obtain ⟨shared, hshared, hrandom, rfl⟩ := hparts
  have hle : n ≤ shared.length := Nat.le_of_add_right_le hshared
  have hstart : Parts n one other m (m.withRandom (shared ++ other)) :=
    ⟨shared, hle, hrandom, rfl⟩
  have hcycle : m.loaded = true → ∃ after, Parts n one other m.cycle.state after ∧
      (m.withRandom (shared ++ other)).cycle = ⟨after, m.cycle.fault, m.cycle.log⟩ := by
    intro hloaded
    refine cycle_alike (Parts n one other) m (m.withRandom (shared ++ other)) rfl rfl rfl
      hstart ⟨shared, hle, hrandom, rfl⟩ fun word hrunning hword => ?_
    have hattempted : m.attempted? .step = some (.decode word) := by
      unfold attempted? isRunning
      rw [hloaded, hrunning]
      exact (m.next?_eq_some_iff _).mpr ⟨word, hword, rfl⟩
    rw [hattempted, Option.toList_some] at hshared
    have hneeded := Nat.le_of_add_left_le hshared
    exact
      { record := record_parts (m := m.fetched word) hrandom hneeded
        refuses := fun _ hrefuses => hrefuses.parts hrandom hneeded
        effect := by
          intro flow after heffect
          obtain ⟨left, hleft, hrest, hother⟩ := heffect.parts hrandom hshared
          exact ⟨_, hother, left, hleft, hrest, rfl⟩ }
  obtain ⟨_, hlater, hstep⟩ :=
    step_alike (Parts n one other) m (m.withRandom (shared ++ other)) now now rfl hstart hcycle
      fun _ hafter => by
        obtain ⟨left, hleft, hrest, rfl⟩ := hafter
        exact ⟨⟨left, hleft, hrest, rfl⟩, rfl⟩
  rw [hstep]
  exact ⟨hlater, rfl, rfl⟩

theorem load_withRandom (m : Machine) (random : List UInt8) (program : Program) :
    (m.withRandom random).load program = (m.load program).lift (·.withRandom random) id :=
  m.load_lift (·.withRandom random) (fun _ _ => rfl) program

theorem operate_withRandom (m : Machine) (random : List UInt8) (now : Nat)
    {operation : Operation} (hoperation : operation ≠ .step) :
    ((m.withRandom random).operate now operation).2 =
      (m.operate now operation).2.withRandom random := by
  cases operation with
  | step => exact absurd rfl hoperation
  | load program => exact congrArg Attempt.state (m.load_withRandom random program)
  | resetAndLoad program =>
      exact congrArg Attempt.state ((m.reset now).load_withRandom random program)
  | _ => rfl

theorem random_operate (m : Machine) (now : Nat) {operation : Operation}
    (hoperation : operation ≠ .step) :
    (m.operate now operation).2.random = m.random := by
  have hchange := m.supplyChange_operate now operation
  cases operation with
  | step => exact absurd rfl hoperation
  | _ =>
    cases hchange with
    | other hother hsame => exact hsame

theorem Parts.operate {m' : Machine} {operation : Operation} (hoperation : operation ≠ .step)
    (hparts : Parts n one other m m') (now : Nat) :
    Parts n one other (m.operate now operation).2 (m'.operate now operation).2 := by
  obtain ⟨shared, hshared, hrandom, rfl⟩ := hparts
  refine ⟨shared, hshared, ?_, m.operate_withRandom _ now hoperation⟩
  rw [m.random_operate now hoperation]
  exact hrandom

/-- The induction goes over the history.  What is left in common has a byte for every `Cxkk` that is
still to come. -/
theorem Parts.after {m' : Machine} {history : List (Nat × Operation)}
    (hparts : Parts (m.drawings history) one other m m') :
    Parts 0 one other (m.after history) (m'.after history) ∧
      m'.stepResults history = m.stepResults history := by
  induction history generalizing m m' with
  | nil => exact ⟨hparts, rfl⟩
  | cons event later ih =>
      obtain ⟨now, operation⟩ := event
      rw [drawings, Nat.add_comm] at hparts
      cases operation with
      | step =>
          obtain ⟨hstep, hfault, hlog⟩ := hparts.step now
          obtain ⟨hafter, hresults⟩ := ih hstep
          refine ⟨hafter, ?_⟩
          rw [stepResults_step, stepResults_step, hfault, hlog]
          exact congrArg _ hresults
      | _ => exact ih (hparts.operate (by nofun) now)

/-! ## The theorem -/

/-- The bytes that a history takes are the first of the supply, one for every `Cxkk` that succeeds,
which leaves its byte under its mask in its register; a step fails for want of a byte exactly if it
comes to a `Cxkk` when all bytes are taken.  With supplies that begin alike, a history that comes to
no more `Cxkk` than there are bytes in the common beginning has the same results and ends in the
same machine, but for what is left of the supplies. -/
theorem random_bytes_are_used_in_order (m : Machine) :
    (∀ history,
      let used := (m.trace history).countP Instruction.isRandom
      let reached := m.after history
      used ≤ m.random.length ∧ reached.random = m.random.drop used ∧
        ∀ now,
          (∀ x mask, (reached.step now).succeeded = true → reached.Reads (.random x mask) →
            ∃ byte, m.random[used]? = some byte ∧
              (reached.step now).state.processor.reg x = byte &&& mask) ∧
          ((reached.step now).fault = some .noRandomByte ↔
            reached.isRunning = true ∧ (∃ x mask, reached.Reads (.random x mask)) ∧
              used = m.random.length)) ∧
    ∀ shared one other history,
      let first := m.withRandom (shared ++ one)
      let second := m.withRandom (shared ++ other)
      first.drawings history ≤ shared.length →
        let left := shared.drop ((first.trace history).countP Instruction.isRandom)
        second.stepResults history = first.stepResults history ∧
          (first.after history).random = left ++ one ∧
          second.after history = (first.after history).withRandom (left ++ other) := by
  constructor
  · intro history used reached
    obtain ⟨hused, hleft⟩ := m.random_after history
    refine ⟨hused, hleft, ?_⟩
    intro now
    constructor
    · intro x mask hsucceeded hreads
      obtain ⟨byte, hbyte, hstored⟩ :=
        reg_of_performed? (performed?_step_eq_some_iff.mpr ⟨hsucceeded, hreads⟩)
      refine ⟨byte, ?_, hstored⟩
      rw [← List.head?_drop, ← hleft]
      exact hbyte
    · have hempty : reached.random = [] ↔ used = m.random.length := by
        rw [hleft, List.drop_eq_nil_iff]
        exact ⟨Nat.le_antisymm hused, fun h => Nat.le_of_eq h.symm⟩
      rw [step_fault_noRandomByte_iff, hempty]
  · intro shared one other history first second hdrawings left
    have hparts : Parts (first.drawings history) one other first second :=
      ⟨shared, hdrawings, rfl, rfl⟩
    obtain ⟨⟨rest, -, hrest, hsecond⟩, hresults⟩ := hparts.after
    obtain ⟨taken, hsupply, hlength⟩ := first.random_eq_append_after history
    have hleft : rest = left := by
      have hshared : shared = taken ++ rest := by
        rw [hrest, ← List.append_assoc] at hsupply
        exact List.append_cancel_right hsupply
      rw [show left = shared.drop taken.length by rw [hlength], hshared, List.drop_left]
    rw [← hleft]
    exact ⟨hresults, hrest, hsecond⟩

/-- A program of three `Cxkk`, the second of which masks its byte away. -/
def drawing (random : List UInt8) : Machine :=
  { new .standard .perStep random 0 with
    memory := Memory.blank.store 0x200 [0xC1, 0x0F, 0xC2, 0x00, 0xC3, 0xFF]
    loaded := true }

theorem random_bytes_are_used_in_order_thirdDrawing :
    let history := [(1, .step), (2, .step)]
    ((drawing [7, 9]).trace history).countP Instruction.isRandom = 2 ∧
      (((drawing [7, 9]).after history).step 3).fault = some .noRandomByte ∧
      (drawing [7, 9, 5]).after history =
        ((drawing [7, 9]).after history).withRandom [5] := by
  intro history
  obtain ⟨hused, hruns, hhigh, hlow, hdrawings⟩ :
      ((drawing [7, 9]).trace history).countP Instruction.isRandom = 2 ∧
        ((drawing [7, 9]).after history).isRunning = true ∧
        ((drawing [7, 9]).after history).memory.cells[
          ((drawing [7, 9]).after history).processor.pc.toNat]? = some 0xC3 ∧
        ((drawing [7, 9]).after history).memory.cells[
          ((drawing [7, 9]).after history).processor.pc.toNat + 1]? = some 0xFF ∧
        (drawing [7, 9]).drawings history = 2 := by
    decide +kernel
  have hreads : ((drawing [7, 9]).after history).Reads (.random 3 0xFF) :=
    ⟨0xC3, 0xFF, hhigh, hlow, .random 3 0xFF⟩
  obtain ⟨htaken, hparted⟩ := random_bytes_are_used_in_order (drawing [7, 9])
  have hfault := ((htaken history).2.2 3).2.mpr ⟨hruns, ⟨_, _, hreads⟩, hused⟩
  obtain ⟨-, -, hother⟩ := hparted [7, 9] [] [5] history (Nat.le_of_eq hdrawings)
  refine ⟨hused, hfault, hother.trans ?_⟩
  rw [show (((drawing [7, 9]).withRandom ([7, 9] ++ [])).trace history).countP
    Instruction.isRandom = 2 from hused]
  rfl

end Machine

end ChipEight
