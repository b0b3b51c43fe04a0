import ChipEight.Machine.Trace
import ChipEight.Proofs.Bounds

/-!
# Calls and returns are nested

Only a call and a return touch the call stack.  A call writes the slot at the depth, a return writes
none, so the slots below the depth outlive everything that happens until the stack gets shallower
than they are.  Whatever a subroutine does, the return that leaves it therefore finds the address
that its call stored.

Over a history without resets the depth is the number of calls that are still open, which is what
the two faults of the call stack are about.
-/

namespace ChipEight

namespace CallStack

theorem depth_of_push? {s pushed : CallStack} {returnAddress : UInt16}
    (hpush : s.push? returnAddress = some pushed) :
    s.depth < limit ∧ pushed.depth = s.depth + 1 := by
  unfold push? at hpush
  split at hpush
  next hdepth =>
    cases hpush
    exact ⟨hdepth, rfl⟩
  next => cases hpush

theorem getElem?_of_push? {s pushed : CallStack} {returnAddress : UInt16}
    (hpush : s.push? returnAddress = some pushed) (i : Nat) :
    pushed.slots[i]? = if i = s.depth then some returnAddress else s.slots[i]? := by
  unfold push? at hpush
  split at hpush
  next hdepth =>
    cases hpush
    rw [Vector.getElem?_set]
    simp only [eq_comm]
  next => cases hpush

theorem push?_eq_none_iff (s : CallStack) (returnAddress : UInt16) :
    s.push? returnAddress = none ↔ limit ≤ s.depth := by
  unfold push?
  split
  next hdepth => simp [hdepth]
  next hdepth => simp [Nat.le_of_not_lt hdepth]

theorem top?_of_depth {s : CallStack} {depth : Nat} (hdepth : s.depth = depth + 1) :
    s.top? = s.slots[depth]? := by
  unfold top?
  rw [hdepth, if_neg (Nat.succ_ne_zero depth), Nat.add_sub_cancel]

theorem depth_pos_of_top? {s : CallStack} {target : UInt16} (htop : s.top? = some target) :
    0 < s.depth := by
  unfold top? at htop
  split at htop
  next => cases htop
  next hdepth => exact Nat.pos_of_ne_zero hdepth

theorem top?_eq_none_iff {s : CallStack} (hdepth : s.depth ≤ limit) :
    s.top? = none ↔ s.depth = 0 := by
  unfold top?
  split
  next hempty => simp [hempty]
  next hopen =>
    have hplace : s.depth - 1 < limit := by omega
    simp [hopen, Vector.getElem?_eq_getElem hplace]

end CallStack

namespace Machine

/-! ## One operation -/

/-- How the call stack changes when an instruction is carried out, or when none is. -/
inductive StackChange (m after : Machine) : Option Instruction → Prop where
  | call (target : UInt16)
      (hpush : m.processor.stack.push? (m.processor.pc + 2) = some after.processor.stack) :
      StackChange m after (some (.call target))
  | leave (htop : m.processor.stack.top? = some after.processor.pc)
      (hdrop : after.processor.stack = m.processor.stack.drop) :
      StackChange m after (some .leave)
  | other {performed : Option Instruction}
      (hcall : ∀ instruction ∈ performed, instruction.isCall = false)
      (hleave : performed ≠ some .leave)
      (hsame : after.processor.stack = m.processor.stack) :
      StackChange m after performed

theorem Effect.stack_eq {m after : Machine} {instruction : Instruction} {flow : Flow}
    (heffect : Effect m instruction flow after) (hcall : instruction.isCall = false)
    (hleave : instruction ≠ .leave) :
    after.processor.stack = m.processor.stack := by
  cases heffect with
  | leave htop => exact absurd rfl hleave
  | call target hpush => cases hcall
  | arithmetic operation x y =>
      obtain ⟨v, hv⟩ := calculate_keeps m.processor operation x y
      rw [hv]
  | storeRegisters x hrange =>
      obtain ⟨index, hindex⟩ := advanceIndex_keeps m.processor x
      rw [hindex]
  | loadRegisters x hrange =>
      obtain ⟨index, hindex⟩ := advanceIndex_keeps { m.processor with v := _ } x
      rw [hindex]
  | _ => rfl

theorem Performs.stackChange {m after : Machine} {word : UInt16} {flow : Flow}
    (hperforms : Performs m word flow after) :
    StackChange m { after with processor := after.processor.follow flow }
      (some (.decode word)) := by
  have heffect := hperforms.effect
  generalize Instruction.decode word = instruction at heffect
  by_cases hother : instruction.isCall = false ∧ instruction ≠ .leave
  · refine .other ?_ ?_ ?_
    · rintro _ ⟨⟩
      exact hother.1
    · simpa using hother.2
    · obtain ⟨pc, hfollow⟩ := follow_eq after.processor flow
      simp only [hfollow]
      exact heffect.stack_eq hother.1 hother.2
  · cases heffect with
    | leave htop => exact .leave htop rfl
    | call target hpush => exact .call target hpush
    | _ => exact absurd ⟨rfl, Instruction.noConfusion⟩ hother

theorem performed?_step_of_fault {m : Machine} {now : Nat} {fault : Fault}
    (hfault : (m.step now).fault = some fault) :
    m.performed? now .step = none := by
  unfold performed? Attempt.succeeded
  simp [hfault]

theorem Performs.performed?_step {m after : Machine} {word : UInt16} {flow : Flow}
    (hperforms : Performs m word flow after) {now : Nat} (hfault : (m.step now).fault = none) :
    m.performed? now .step = some (.decode word) := by
  have hnext := (m.next?_eq_some_iff _).mpr ⟨word, hperforms.fetch, rfl⟩
  unfold performed? Attempt.succeeded
  simp [hfault, hnext]

theorem stackChange_step (m : Machine) (now : Nat) :
    StackChange m (m.step now).state (m.performed? now .step) := by
  cases hfault : (m.step now).fault with
  | some fault =>
      obtain ⟨lastAddress, lastWord, hnoting⟩ := m.noting_keeps fault
      rw [performed?_step_of_fault hfault, step_state_of_fault hfault, hnoting]
      exact .other nofun nofun rfl
  | none =>
      obtain ⟨word, flow, after, hperforms, -, hstate⟩ := performs_of_step hfault
      have hchange := hperforms.stackChange
      rw [hperforms.performed?_step hfault, hstate]
      generalize Instruction.decode word = instruction at hchange
      cases hchange with
      | call target hpush => exact .call target hpush
      | leave htop hdrop => exact .leave htop hdrop
      | other hcall hleave hsame => exact .other hcall hleave hsame

theorem stackChange_operate (m : Machine) (now : Nat) {operation : Operation}
    (hresets : operation.resets = false) :
    StackChange m (m.operate now operation).2 (m.performed? now operation) := by
  cases operation with
  | step => exact m.stackChange_step now
  | load program =>
      obtain ⟨memory, loaded, hload⟩ := m.load_state program
      refine .other nofun nofun ?_
      change (m.load program).state.processor.stack = m.processor.stack
      rw [hload]
  | reset => cases hresets
  | resetAndLoad program => cases hresets
  | _ => exact .other nofun nofun rfl

/-! ## The slots below the depth -/

theorem StackChange.getElem?_slots {m after : Machine} {performed : Option Instruction}
    (hchange : StackChange m after performed) {i : Nat} (hi : i < m.processor.stack.depth) :
    after.processor.stack.slots[i]? = m.processor.stack.slots[i]? := by
  cases hchange with
  | call target hpush =>
      rw [CallStack.getElem?_of_push? hpush, if_neg (Nat.ne_of_lt hi)]
  | leave htop hdrop =>
      rw [hdrop]
      rfl
  | other hcall hleave hsame => rw [hsame]

/-- While the stack stays deeper than a slot, the slot keeps its return address. -/
theorem getElem?_slots_after {m : Machine} {history : List (Nat × Operation)} {depth i : Nat}
    (hi : i ≤ depth) (hresets : ∀ event ∈ history, event.2.resets = false)
    (hdeep : ∀ n, depth < (m.after (history.take n)).processor.stack.depth) :
    (m.after history).processor.stack.slots[i]? = m.processor.stack.slots[i]? := by
  induction history generalizing m with
  | nil => rfl
  | cons event history ih =>
      have hstart : depth < m.processor.stack.depth := hdeep 0
      have hchange := m.stackChange_operate event.1 (hresets event List.mem_cons_self)
      have hrest := ih (m := (m.operate event.1 event.2).2)
        (fun later hlater => hresets later (List.mem_cons_of_mem _ hlater))
        (fun n => hdeep (n + 1))
      exact hrest.trans (hchange.getElem?_slots (Nat.lt_of_le_of_lt hi hstart))

/-- The step that makes the stack as shallow as a slot is the return to the address in it. -/
theorem leave_of_depth_step {m : Machine} {now depth : Nat}
    (hdeep : depth < m.processor.stack.depth)
    (hback : (m.step now).state.processor.stack.depth = depth) :
    m.performed? now .step = some .leave ∧
      m.processor.stack.slots[depth]? = some (m.step now).state.processor.pc := by
  have hchange := m.stackChange_step now
  generalize (m.step now).state = after at hchange hback
  cases hperformed : m.performed? now .step with
  | none =>
      rw [hperformed] at hchange
      cases hchange with
      | other hcall hleave hsame =>
          rw [hsame] at hback
          omega
  | some instruction =>
      rw [hperformed] at hchange
      cases hchange with
      | call target hpush =>
          have hdepth := (CallStack.depth_of_push? hpush).2
          omega
      | leave htop hdrop =>
          have hdepth : m.processor.stack.depth = depth + 1 := by
            rw [hdrop] at hback
            unfold CallStack.drop at hback
            simp only at hback
            omega
          rw [CallStack.top?_of_depth hdepth] at htop
          exact ⟨rfl, htop⟩
      | other hcall hleave hsame =>
          rw [hsame] at hback
          omega

/-! ## Counting calls -/

theorem depth_after (m : Machine) {history : List (Nat × Operation)}
    (hresets : ∀ event ∈ history, event.2.resets = false) :
    (m.after history).processor.stack.depth + (m.trace history).count .leave =
      m.processor.stack.depth + (m.trace history).countP Instruction.isCall := by
  induction history generalizing m with
  | nil => rfl
  | cons event history ih =>
      have hrest := ih (m.operate event.1 event.2).2
        fun later hlater => hresets later (List.mem_cons_of_mem _ hlater)
      have hchange := m.stackChange_operate event.1 (hresets event List.mem_cons_self)
      have hafter : m.after (event :: history) = (m.operate event.1 event.2).2.after history := rfl
      rw [hafter]
      unfold trace
      rw [List.count_append, List.countP_append]
      generalize m.performed? event.1 event.2 = performed at hchange
      cases hchange with
      | call target hpush =>
          have hdepth := (CallStack.depth_of_push? hpush).2
          simp [Instruction.isCall]
          omega
      | leave htop hdrop =>
          have hpos := CallStack.depth_pos_of_top? htop
          have hdepth : (m.operate event.1 event.2).2.processor.stack.depth =
              m.processor.stack.depth - 1 := by
            rw [hdrop]
            rfl
          simp [Instruction.isCall]
          omega
      | other hcall hleave hsame =>
          rw [hsame] at hrest
          cases performed with
          | none => simpa using hrest
          | some instruction =>
              have hnotCall := hcall instruction rfl
              have hnotLeave : instruction ≠ .leave := fun h => hleave (congrArg some h)
              simpa [hnotCall, hnotLeave] using hrest

/-! ## Faults of the call stack -/

theorem step_fault_callTooDeep_iff {m : Machine} (hm : m.Bounded) (now : Nat) (pc : UInt16) :
    (m.step now).fault = some (.callTooDeep pc) ↔
      m.loaded = true ∧ (∃ target, m.next? = some (.call target)) ∧
        m.processor.stack.depth = CallStack.limit ∧ pc = m.processor.pc := by
  rw [step_fault_iff hm.running]
  constructor
  · rintro (⟨-, ⟨⟩⟩ | ⟨hloaded, ⟨_, -, ⟨⟩⟩ | ⟨word, hword, hrefuses⟩⟩)
    have hnext := (m.next?_eq_some_iff _).mpr ⟨word, hword, rfl⟩
    generalize Instruction.decode word = instruction at hrefuses hnext
    cases hrefuses with
    | call target hpush =>
        have hfull := (CallStack.push?_eq_none_iff _ _).mp hpush
        exact ⟨hloaded, ⟨target, hnext⟩, Nat.le_antisymm hm.stack.depth_le hfull, rfl⟩
  · rintro ⟨hloaded, ⟨target, hnext⟩, hdepth, rfl⟩
    obtain ⟨word, hword, hdecode⟩ := (m.next?_eq_some_iff _).mp hnext
    refine Or.inr ⟨hloaded, Or.inr ⟨word, hword, ?_⟩⟩
    rw [hdecode]
    exact .call target ((CallStack.push?_eq_none_iff _ _).mpr (Nat.le_of_eq hdepth.symm))

theorem step_fault_returnWithoutCall_iff {m : Machine} (hm : m.Bounded) (now : Nat)
    (pc : UInt16) :
    (m.step now).fault = some (.returnWithoutCall pc) ↔
      m.loaded = true ∧ m.next? = some .leave ∧
        m.processor.stack.depth = 0 ∧ pc = m.processor.pc := by
  rw [step_fault_iff hm.running]
  constructor
  · rintro (⟨-, ⟨⟩⟩ | ⟨hloaded, ⟨_, -, ⟨⟩⟩ | ⟨word, hword, hrefuses⟩⟩)
    have hnext := (m.next?_eq_some_iff _).mpr ⟨word, hword, rfl⟩
    generalize Instruction.decode word = instruction at hrefuses hnext
    cases hrefuses with
    | leave htop =>
        have hempty := (CallStack.top?_eq_none_iff hm.stack.depth_le).mp htop
        exact ⟨hloaded, hnext, hempty, rfl⟩
  · rintro ⟨hloaded, hnext, hdepth, rfl⟩
    obtain ⟨word, hword, hdecode⟩ := (m.next?_eq_some_iff _).mp hnext
    refine Or.inr ⟨hloaded, Or.inr ⟨word, hword, ?_⟩⟩
    rw [hdecode]
    exact .leave ((CallStack.top?_eq_none_iff hm.stack.depth_le).mpr hdepth)

/-! ## The theorem -/

/-- From a call on, and until the step that makes the stack as shallow as it was before, the slots
up to the one of the call keep their return addresses; that step is the return to the instruction
after the call.  After a reset, the depth is the number of calls less the number of returns, a call
is refused exactly with sixteen calls open, and a return exactly with none. -/
theorem calls_are_nested (m : Machine) :
    (∀ (now : Nat) (target : UInt16) (history : List (Nat × Operation)),
      m.performed? now .step = some (.call target) →
      (∀ event ∈ history, event.2.resets = false) →
      let depth := m.processor.stack.depth
      let called := (m.step now).state
      let reached := called.after history
      (∀ n, depth < (called.after (history.take n)).processor.stack.depth) →
        depth < 16 ∧
        (∀ i < depth, reached.processor.stack.slots[i]? = m.processor.stack.slots[i]?) ∧
        reached.processor.stack.slots[depth]? = some (m.processor.pc + 2) ∧
        ∀ later, (reached.step later).state.processor.stack.depth = depth →
          reached.performed? later .step = some .leave ∧
            (reached.step later).state.processor.pc = m.processor.pc + 2) ∧
    ∀ (started : Nat) (history : List (Nat × Operation)),
      (∀ event ∈ history, event.2.resets = false) →
      let fresh := m.reset started
      let reached := fresh.after history
      let calls := (fresh.trace history).countP Instruction.isCall
      let returns := (fresh.trace history).count .leave
      reached.processor.stack.depth + returns = calls ∧
        ∀ now pc,
          ((reached.step now).fault = some (.callTooDeep pc) ↔
            reached.loaded = true ∧ (∃ target, reached.next? = some (.call target)) ∧
              calls = returns + 16 ∧ pc = reached.processor.pc) ∧
          ((reached.step now).fault = some (.returnWithoutCall pc) ↔
            reached.loaded = true ∧ reached.next? = some .leave ∧
              calls = returns ∧ pc = reached.processor.pc) := by
  constructor
  · intro now target history hcall hresets depth called reached hdeep
    have hchange := m.stackChange_step now
    rw [hcall] at hchange
    cases hchange with
    | other hnotCall hleave hsame => cases hnotCall _ rfl
    | call target hpush =>
        have hslots : ∀ i ≤ depth, reached.processor.stack.slots[i]? =
            if i = depth then some (m.processor.pc + 2) else m.processor.stack.slots[i]? := by
          intro i hi
          exact (getElem?_slots_after hi hresets hdeep).trans
            (CallStack.getElem?_of_push? hpush i)
        have hsaved := (hslots depth (Nat.le_refl depth)).trans (if_pos rfl)
        refine ⟨(CallStack.depth_of_push? hpush).1, ?_, hsaved, ?_⟩
        · intro i hi
          exact (hslots i (Nat.le_of_lt hi)).trans (if_neg (Nat.ne_of_lt hi))
        · intro later hback
          have hopen : depth < reached.processor.stack.depth := by
            have hwhole := hdeep history.length
            rwa [List.take_length] at hwhole
          obtain ⟨hleave, hslot⟩ := leave_of_depth_step hopen hback
          exact ⟨hleave, Option.some.inj (hslot.symm.trans hsaved)⟩
  · intro started history hresets fresh reached calls returns
    have hbounded : reached.Bounded := (bounded_reset m started).after history
    have hdepth : reached.processor.stack.depth + returns = calls :=
      (depth_after fresh hresets).trans (Nat.zero_add calls)
    refine ⟨hdepth, ?_⟩
    intro now pc
    rw [step_fault_callTooDeep_iff hbounded, step_fault_returnWithoutCall_iff hbounded]
    have hfull : reached.processor.stack.depth = CallStack.limit ↔ calls = returns + 16 := by
      simp only [CallStack.limit]
      omega
    have hempty : reached.processor.stack.depth = 0 ↔ calls = returns := by omega
    rw [hfull, hempty]
    exact ⟨Iff.rfl, Iff.rfl⟩

/-- A call to a subroutine that calls another one, which returns at once. -/
def nestedCalls : Machine :=
  { Machine.new .standard .perStep [] 0 with
    memory := Memory.store ⟨Vector.replicate Memory.size 0⟩ 0x200
      [0x22, 0x04, 0x00, 0xEE, 0x22, 0x08, 0x00, 0xEE, 0x00, 0xEE]
    loaded := true }

/-- A program that calls itself, as often as it can. -/
def sixteenCalls : List (Nat × Operation) :=
  (0, .load #[0x22, 0x00]) :: List.replicate 16 (0, .step)

theorem calls_are_nested_nestedCalls :
    nestedCalls.performed? 0 .step = some (.call 0x204) ∧
      (((nestedCalls.step 0).state.after [(0, .step), (0, .step)]).step 0).state.processor.pc =
        0x202 ∧
      (((nestedCalls.reset 0).after sixteenCalls).step 0).fault = some (.callTooDeep 0x200) ∧
      ((nestedCalls.reset 0).trace sixteenCalls).countP Instruction.isCall =
        ((nestedCalls.reset 0).trace sixteenCalls).count .leave + 16 := by
  obtain ⟨hcall, hshort, hback⟩ :
      nestedCalls.performed? 0 .step = some (.call 0x204) ∧
        (∀ n < 3, nestedCalls.processor.stack.depth <
          ((nestedCalls.step 0).state.after
            (List.take n [(0, .step), (0, .step)])).processor.stack.depth) ∧
        (((nestedCalls.step 0).state.after
          [(0, .step), (0, .step)]).step 0).state.processor.stack.depth =
            nestedCalls.processor.stack.depth := by
    decide +kernel
  have hdeep : ∀ n, nestedCalls.processor.stack.depth <
      ((nestedCalls.step 0).state.after
        (List.take n [(0, .step), (0, .step)])).processor.stack.depth := by
    intro n
    by_cases hn : n < 3
    · exact hshort n hn
    · have hwhole := hshort 2 (by decide)
      rw [List.take_of_length_le (Nat.le_refl 2)] at hwhole
      rwa [List.take_of_length_le (show 2 ≤ n by omega)]
  have hfull : (((nestedCalls.reset 0).after sixteenCalls).step 0).fault =
      some (.callTooDeep 0x200) := by
    decide +kernel
  obtain ⟨hnested, hcounted⟩ := calls_are_nested nestedCalls
  obtain ⟨-, -, -, hleave⟩ :=
    hnested 0 0x204 [(0, .step), (0, .step)] hcall (by decide) hdeep
  obtain ⟨-, -, hcalls, -⟩ :=
    ((hcounted 0 sixteenCalls (by decide)).2 0 0x200).1.mp hfull
  exact ⟨hcall, (hleave 0 hback).2, hfull, hcalls⟩

end Machine

end ChipEight
