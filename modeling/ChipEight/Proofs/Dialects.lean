import ChipEight.Proofs.Arithmetic
import ChipEight.Proofs.KeyOrder
import ChipEight.Proofs.PowerOn
import ChipEight.Proofs.Transfer

/-!
# Where dialects part

A dialect is two switches, and three words read them: `8xyE` reads the one when it shifts a bit out,
`Fx55` and `Fx65` read the other when they have moved the registers.  Machines that differ in their
dialects only go the same way until one of these words is carried out while its switch differs, and
what they differ in then is the flag register or the index and nothing else.
-/

namespace ChipEight

namespace Dialect

/-- What `8xyE` leaves in the flag register for a bit that it shifts out. -/
def bitFlag (dialect : Dialect) : UInt8 :=
  if dialect.unitShiftFlag then 1 else 0x80

/-- How far `Fx55` and `Fx65` move the index. -/
def indexMove (dialect : Dialect) (x : Register) : Nat :=
  if dialect.advanceIndex then x.val + 1 else 0

end Dialect

namespace Instruction

/-- Whether a word is `8xyE`. -/
def IsLeftShift (word : UInt16) : Prop :=
  (nibble word 3).val = 0x8 ∧ (nibble word 0).val = 0xE

instance (word : UInt16) : Decidable (IsLeftShift word) :=
  inferInstanceAs (Decidable (_ ∧ _))

/-- Whether a word is `Fx55` or `Fx65`. -/
def IsTransfer (word : UInt16) : Prop :=
  (nibble word 3).val = 0xF ∧ (lowByte word = 0x55 ∨ lowByte word = 0x65)

instance (word : UInt16) : Decidable (IsTransfer word) :=
  inferInstanceAs (Decidable (_ ∧ _))

theorem decode_eq_shiftLeft_iff (word : UInt16) (x y : Register) :
    decode word = .arithmetic .shiftLeft x y ↔
      IsLeftShift word ∧ nibble word 2 = x ∧ nibble word 1 = y := by
  rw [decode_eq_iff_written]
  constructor
  · intro hwritten
    generalize hcode : word.toNat = code at hwritten
    cases hwritten with
    | arithmetic _ x y =>
        have hlast : word.toNat =
            0x1000 * 0x8 + 0x100 * x.val + 0x10 * y.val + (Fin.mk 0xE (by decide) : Register).val :=
          hcode
        obtain ⟨hfamily, hx, hy, hlow⟩ := fields_of_registers 0x8 hlast
        exact ⟨⟨hfamily, congrArg Fin.val hlow⟩, hx, hy⟩
  · rintro ⟨⟨hfamily, hlast⟩, rfl, rfl⟩
    have hword := toNat_eq_nibbles word
    refine (Written.arithmetic .shiftLeft (nibble word 2) (nibble word 1)).of_eq ?_
    change 0x8000 + 0x100 * (nibble word 2).val + 0x10 * (nibble word 1).val + 0xE = _
    omega

theorem decode_eq_transfer_iff (word : UInt16) (x : Register) :
    decode word = .storeRegisters x ∨ decode word = .loadRegisters x ↔
      IsTransfer word ∧ nibble word 2 = x := by
  rw [decode_eq_iff_written, decode_eq_iff_written]
  constructor
  · intro hwritten
    generalize hcode : word.toNat = code at hwritten
    rcases hwritten with hwritten | hwritten
    · cases hwritten
      obtain ⟨hfamily, hx, hbyte⟩ := fields_of_byte 0xF 0x55 hcode
      exact ⟨⟨hfamily, Or.inl hbyte⟩, hx⟩
    · cases hwritten
      obtain ⟨hfamily, hx, hbyte⟩ := fields_of_byte 0xF 0x65 hcode
      exact ⟨⟨hfamily, Or.inr hbyte⟩, hx⟩
  · rintro ⟨⟨hfamily, hbyte | hbyte⟩, rfl⟩
    · have hword := toNat_eq_nibbles word
      have hlow := toNat_lowByte word
      rw [hbyte] at hlow
      refine Or.inl ((Written.storeRegisters (nibble word 2)).of_eq ?_)
      change 0x55 = _ at hlow
      omega
    · have hword := toNat_eq_nibbles word
      have hlow := toNat_lowByte word
      rw [hbyte] at hlow
      refine Or.inr ((Written.loadRegisters (nibble word 2)).of_eq ?_)
      change 0x65 = _ at hlow
      omega

end Instruction

open Instruction (IsLeftShift IsTransfer nibble)

namespace Arithmetic

theorem shiftedOut_of_lt (dialect : Dialect) {a : UInt8} (ha : a < 0x80) :
    shiftedOut dialect a = 0 := by
  have hbit : a.toNat / 128 = 0 := Nat.div_eq_of_lt ha
  apply UInt8.toNat_inj.mp
  rw [toNat_shiftedOut, hbit]
  split <;> rfl

theorem shiftedOut_of_le (dialect : Dialect) {a : UInt8} (ha : 0x80 ≤ a) :
    shiftedOut dialect a = dialect.bitFlag := by
  have hlow : 128 ≤ a.toNat := ha
  have hhigh := a.toNat_lt
  have hbit : a.toNat / 128 = 1 := by omega
  apply UInt8.toNat_inj.mp
  rw [toNat_shiftedOut, hbit, Dialect.bitFlag]
  split <;> rfl

/-- Only a shift to the left that shifts a bit out leaves another flag in another dialect. -/
theorem flag?_of_dialect {dialect other : Dialect} {a : UInt8} (b : UInt8)
    {operation : Arithmetic}
    (hsame : operation = .shiftLeft → 0x80 ≤ a → other.unitShiftFlag = dialect.unitShiftFlag) :
    operation.flag? other a b = operation.flag? dialect a b := by
  cases operation with
  | shiftLeft =>
      by_cases hbit : 0x80 ≤ a
      · have hflag : other.bitFlag = dialect.bitFlag := by
          unfold Dialect.bitFlag
          rw [hsame rfl hbit]
        change some (shiftedOut other a) = some (shiftedOut dialect a)
        rw [shiftedOut_of_le other hbit, shiftedOut_of_le dialect hbit, hflag]
      · have hlow : a < 0x80 := Nat.lt_of_not_le hbit
        change some (shiftedOut other a) = some (shiftedOut dialect a)
        rw [shiftedOut_of_lt other hlow, shiftedOut_of_lt dialect hlow]
  | _ => rfl

end Arithmetic

namespace Processor

theorem calculate_of_dialect (p : Processor) {dialect : Dialect} {operation : Arithmetic}
    {x y : Register}
    (hflag : operation.flag? dialect (p.reg x) (p.reg y) =
      operation.flag? p.dialect (p.reg x) (p.reg y)) :
    ({ p with dialect } : Processor).calculate operation x y =
      { p.calculate operation x y with dialect } := by
  have hreg : ∀ r, ({ p with dialect } : Processor).reg r = p.reg r := fun _ => rfl
  simp only [calculate, hreg, hflag]
  split <;> rfl

theorem calculate_shiftLeft_of_dialect (p : Processor) (dialect : Dialect) (x y : Register) :
    ({ p with dialect } : Processor).calculate .shiftLeft x y =
      { p.calculate .shiftLeft x y with dialect }.set .flag
        (Arithmetic.shiftedOut dialect (p.reg x)) := by
  have hset : ∀ (v : Registers) (r : Register) (first second : UInt8),
      (v.set r first).set r second = v.set r second :=
    fun _ _ _ _ => Vector.set_set ..
  simp only [calculate, Arithmetic.flag?, setWithFlag, set, hset]
  rfl

theorem advanceIndex_of_dialect (p : Processor) {dialect : Dialect} (x : Register)
    (hsame : dialect.advanceIndex = p.dialect.advanceIndex) :
    ({ p with dialect } : Processor).advanceIndex x = { p.advanceIndex x with dialect } := by
  unfold advanceIndex
  rw [hsame]
  split <;> rfl

theorem follow_of_dialect (p : Processor) (dialect : Dialect) (flow : Flow) :
    ({ p with dialect } : Processor).follow flow = { p.follow flow with dialect } := by
  cases flow <;> rfl

end Processor

namespace Machine

def withDialect (m : Machine) (dialect : Dialect) : Machine :=
  { m with processor := { m.processor with dialect } }

def withFlag (m : Machine) (flag : UInt8) : Machine :=
  { m with processor := m.processor.set .flag flag }

/-- The step carries out an `8xyE` that shifts a bit out of its register. -/
def ShiftsBitOut (m : Machine) : Prop :=
  ∃ word ∈ m.fetchedWord?, IsLeftShift word ∧ 0x80 ≤ m.processor.reg (nibble word 2)

/-- The step carries out an `Fx55` or `Fx65`. -/
def Transfers (m : Machine) (now : Nat) : Prop :=
  (m.step now).succeeded = true ∧ ∃ word ∈ m.fetchedWord?, IsTransfer word

/-- The step reads a switch that is set otherwise in another dialect. -/
def Discerns (m : Machine) (dialect : Dialect) (now : Nat) : Prop :=
  dialect.unitShiftFlag ≠ m.processor.dialect.unitShiftFlag ∧ m.ShiftsBitOut ∨
    dialect.advanceIndex ≠ m.processor.dialect.advanceIndex ∧ m.Transfers now

-- Named, since a search may find the instances that run over all words.
instance (m : Machine) : Decidable m.ShiftsBitOut :=
  Option.decidableExistsMem m.fetchedWord?

instance (m : Machine) (now : Nat) : Decidable (m.Transfers now) :=
  @instDecidableAnd _ _ _ (Option.decidableExistsMem m.fetchedWord?)

instance (m : Machine) (dialect : Dialect) (now : Nat) : Decidable (m.Discerns dialect now) :=
  inferInstanceAs (Decidable (_ ∧ _ ∨ _ ∧ _))

/-- No step of a history reads a switch that is set otherwise in another dialect. -/
def Indifferent (m : Machine) (dialect : Dialect) (history : List (Nat × Operation)) : Prop :=
  ∀ i, ∀ _ : i < history.length, history[i].2 = .step →
    ¬ (m.after (history.take i)).Discerns dialect history[i].1

instance (m : Machine) (dialect : Dialect) (history : List (Nat × Operation)) :
    Decidable (m.Indifferent dialect history) :=
  Nat.decidableBallLT history.length fun i _ => history[i].2 = .step →
    ¬ (m.after (history.take i)).Discerns dialect history[i].1

variable {m after : Machine} {dialect : Dialect} {instruction : Instruction} {flow : Flow}
  {now : Nat}

/-! ## One step -/

theorem fetchedWord?_eq_some_iff (m : Machine) (word : UInt16) :
    m.fetchedWord? = some word ↔ m.loaded = true ∧ m.processor.running = true ∧
      m.memory.word m.processor.pc.toNat = .ok word := by
  unfold fetchedWord? isRunning
  cases m.memory.word m.processor.pc.toNat with
  | error e => simp [Except.toOption]
  | ok found => simp [Except.toOption, and_assoc]

theorem Effect.withDialect (heffect : Effect m instruction flow after)
    (hshift : ∀ x y, instruction = .arithmetic .shiftLeft x y → 0x80 ≤ m.processor.reg x →
      dialect.unitShiftFlag = m.processor.dialect.unitShiftFlag)
    (htransfer : ∀ x, instruction = .storeRegisters x ∨ instruction = .loadRegisters x →
      dialect.advanceIndex = m.processor.dialect.advanceIndex) :
    Effect (m.withDialect dialect) instruction flow (after.withDialect dialect) := by
  cases heffect with
  | arithmetic operation x y =>
      have hflag := Arithmetic.flag?_of_dialect (m.processor.reg y)
        (a := m.processor.reg x) fun hoperation => hshift x y (hoperation ▸ rfl)
      have heffect := Effect.arithmetic (m := m.withDialect dialect) operation x y
      have hcalculate := m.processor.calculate_of_dialect hflag
      unfold Machine.withDialect at heffect ⊢
      rw [hcalculate] at heffect
      exact heffect
  | storeRegisters x hrange =>
      have heffect := Effect.storeRegisters (m := m.withDialect dialect) x hrange
      have hadvance := m.processor.advanceIndex_of_dialect x (htransfer x (Or.inl rfl))
      unfold Machine.withDialect at heffect ⊢
      rw [hadvance] at heffect
      exact heffect
  | @loadRegisters bytes x hrange =>
      have heffect := Effect.loadRegisters (m := m.withDialect dialect) x hrange
      have hadvance := Processor.advanceIndex_of_dialect
        { m.processor with v := m.processor.v.overlay bytes } x (htransfer x (Or.inr rfl))
      unfold Machine.withDialect at heffect ⊢
      rw [hadvance] at heffect
      exact heffect
  | _ => constructor <;> assumption

theorem Refuses.withDialect {fault : Fault} (hrefuses : Refuses m instruction fault)
    (dialect : Dialect) :
    Refuses (m.withDialect dialect) instruction fault := by
  cases hrefuses with
  | leave htop => exact .leave htop
  | call target hpush => exact .call target hpush
  | random x mask hrandom => exact .random x mask hrandom
  | skipKey down x hkey => exact .skipKey down x hkey
  | reach hreach hout => exact .reach hreach hout

theorem record_withDialect
    (hshift : ∀ x y, instruction = .arithmetic .shiftLeft x y → 0x80 ≤ m.processor.reg x →
      dialect.unitShiftFlag = m.processor.dialect.unitShiftFlag) :
    (m.withDialect dialect).record instruction = m.record instruction := by
  cases instruction with
  | arithmetic operation x y =>
      have hflag := Arithmetic.flag?_of_dialect (m.processor.reg y)
        (a := m.processor.reg x) fun hoperation => hshift x y (hoperation ▸ rfl)
      have hdescribe : operation.describe dialect x y (m.processor.reg x) (m.processor.reg y) =
          operation.describe m.processor.dialect x y (m.processor.reg x) (m.processor.reg y) := by
        unfold Arithmetic.describe
        rw [hflag]
      exact congrArg (Record.mk _ _) hdescribe
  | skipByte equal x byte => cases equal <;> rfl
  | skipRegister equal x y => cases equal <;> rfl
  | skipKey down x => cases down <;> rfl
  | _ => rfl

theorem cycle_withDialect (hloaded : m.loaded = true) (hsame : ¬ m.Discerns dialect now) :
    (m.withDialect dialect).cycle = m.cycle.lift (·.withDialect dialect) id := by
  obtain ⟨_, rfl, hcycle⟩ :=
    cycle_alike (fun m m' => m' = m.withDialect dialect) m (m.withDialect dialect)
      rfl rfl rfl rfl rfl fun word hrunning hword => by
        have hfetched : m.fetchedWord? = some word :=
          (m.fetchedWord?_eq_some_iff word).mpr ⟨hloaded, hrunning, hword⟩
        have hshift : ∀ x y, Instruction.decode word = .arithmetic .shiftLeft x y →
            0x80 ≤ m.processor.reg x →
              dialect.unitShiftFlag = m.processor.dialect.unitShiftFlag := by
          intro x y hdecode hbit
          obtain ⟨hcode, rfl, -⟩ := (Instruction.decode_eq_shiftLeft_iff word x y).mp hdecode
          by_contra hother
          exact hsame (Or.inl ⟨hother, word, hfetched, hcode, hbit⟩)
        exact
          { record := record_withDialect (m := m.fetched word) hshift
            refuses := fun _ hrefuses => hrefuses.withDialect dialect
            effect := by
              intro flow after heffect
              have hother : Effect ((m.fetched word).withDialect dialect) (.decode word) flow
                  (after.withDialect dialect) := by
                refine heffect.withDialect hshift ?_
                intro x hdecode
                have hcode := ((Instruction.decode_eq_transfer_iff word x).mp hdecode).1
                have hstep := step_of_performs hloaded ⟨hrunning, hword, heffect⟩ now
                by_contra hother
                exact hsame (Or.inr ⟨hother, hstep.1, word, hfetched, hcode⟩)
              refine ⟨_, hother, ?_⟩
              exact congrArg (fun processor => { after with processor })
                (after.processor.follow_of_dialect dialect flow) }
  rw [hcycle]
  unfold Attempt.lift
  rw [Option.map_id, id]

theorem step_withDialect (hsame : ¬ m.Discerns dialect now) :
    (m.withDialect dialect).step now = (m.step now).lift (·.withDialect dialect) id :=
  step_lift (·.withDialect dialect) rfl (fun hloaded => cycle_withDialect hloaded hsame) ⟨rfl, rfl⟩

/-! ## Histories -/

theorem reply_of_eq_lift {ε : Type} {a b : Attempt Machine ε} {change : Machine → Machine}
    (heq : b = a.lift change id) (cause : ε → Reply) :
    (b.fault.elim .done cause, b.state) = (a.fault.elim .done cause, change a.state) := by
  subst heq
  obtain ⟨state, fault, log⟩ := a
  cases fault <;> rfl

theorem operate_withDialect {operation : Operation}
    (hsame : operation = .step → ¬ m.Discerns dialect now) :
    (m.withDialect dialect).operate now operation =
      ((m.operate now operation).1, (m.operate now operation).2.withDialect dialect) := by
  cases operation with
  | step => exact reply_of_eq_lift (step_withDialect (hsame rfl)) .stopped
  | load program =>
      have hload := m.load_lift (·.withDialect dialect) (fun _ _ => rfl) program
      exact reply_of_eq_lift hload .notLoaded
  | resetAndLoad program =>
      have hload := (m.reset now).load_lift (·.withDialect dialect) (fun _ _ => rfl) program
      exact reply_of_eq_lift hload .notLoaded
  | _ => rfl

theorem Indifferent.head {event : Nat × Operation} {history : List (Nat × Operation)}
    (hsame : m.Indifferent dialect (event :: history)) :
    event.2 = .step → ¬ m.Discerns dialect event.1 :=
  hsame 0 (Nat.succ_pos _)

theorem Indifferent.tail {event : Nat × Operation} {history : List (Nat × Operation)}
    (hsame : m.Indifferent dialect (event :: history)) :
    (m.operate event.1 event.2).2.Indifferent dialect history :=
  fun i hi => hsame (i + 1) (Nat.succ_lt_succ hi)

theorem after_withDialect {history : List (Nat × Operation)}
    (hsame : m.Indifferent dialect history) :
    (m.withDialect dialect).outcomes history =
        (m.outcomes history).map (fun outcome => (outcome.1, outcome.2.withDialect dialect)) ∧
      (m.withDialect dialect).stepResults history = m.stepResults history ∧
      (m.withDialect dialect).after history = (m.after history).withDialect dialect := by
  induction history generalizing m with
  | nil => exact ⟨rfl, rfl, rfl⟩
  | cons event history ih =>
      obtain ⟨now, operation⟩ := event
      have hoperate := operate_withDialect hsame.head
      obtain ⟨houtcomes, hresults, hafter⟩ := ih hsame.tail
      refine ⟨?_, ?_, ?_⟩
      · rw [outcomes, outcomes, hoperate, houtcomes]
        rfl
      · have hstate : ((m.withDialect dialect).operate now operation).2.stepResults history =
            (m.operate now operation).2.stepResults history := by
          rw [hoperate]
          exact hresults
        cases operation with
        | step =>
            have hstep := step_withDialect (hsame.head rfl)
            rw [stepResults_step, stepResults_step]
            refine congrArg₂ List.cons ?_ hstate
            rw [hstep, Attempt.lift, Option.map_id, id]
        | _ => exact hstate
      · change ((m.withDialect dialect).operate now operation).2.after history = _
        rw [hoperate]
        exact hafter

/-! ## The step that tells the dialects apart -/

theorem step_of_fetchedWord? {word : UInt16} (hfetched : m.fetchedWord? = some word)
    (hdecode : .decode word = instruction)
    (heffect : Effect (m.fetched word) instruction flow after) (now : Nat) :
    (m.step now).succeeded = true ∧ (m.step now).state =
      { after with processor := after.processor.follow flow }.updateTimers now := by
  obtain ⟨hloaded, hrunning, hword⟩ := (m.fetchedWord?_eq_some_iff word).mp hfetched
  subst hdecode
  exact step_of_performs hloaded ⟨hrunning, hword, heffect⟩ now

/-- A shift that shifts a bit out succeeds in every dialect, and what differs is the flag. -/
theorem step_of_shiftsBitOut (hshifts : m.ShiftsBitOut) (dialect : Dialect) (now : Nat) :
    (m.step now).succeeded = true ∧ ((m.withDialect dialect).step now).succeeded = true ∧
      (m.step now).state.processor.reg .flag = m.processor.dialect.bitFlag ∧
      ((m.withDialect dialect).step now).state =
        ((m.step now).state.withDialect dialect).withFlag dialect.bitFlag := by
  obtain ⟨word, hfetched, hcode, hbit⟩ := hshifts
  have hdecode := (Instruction.decode_eq_shiftLeft_iff word _ _).mpr ⟨hcode, rfl, rfl⟩
  obtain ⟨hone, hstate⟩ := step_of_fetchedWord? hfetched hdecode (.arithmetic ..) now
  obtain ⟨htwo, hstate'⟩ :=
    @step_of_fetchedWord? (m.withDialect dialect) _ _ _ word hfetched hdecode (.arithmetic ..) now
  have hflag := Arithmetic.shiftedOut_of_le m.processor.dialect hbit
  have hflag' := Arithmetic.shiftedOut_of_le dialect hbit
  refine ⟨hone, htwo, ?_, ?_⟩
  · rw [hstate, ← hflag]
    exact (Processor.reg_set _ _ _ _).trans (if_pos rfl)
  · have hcalculate := (m.fetched word).processor.calculate_shiftLeft_of_dialect dialect
      (nibble word 2) (nibble word 1)
    rw [hstate, hstate', ← hflag']
    exact congrArg (fun processor => { (m.withDialect dialect).updateTimers now with processor })
      hcalculate

/-- A transfer that is not refused in one dialect is refused in none, and only the index depends on
the dialect. -/
theorem Effect.transfer_of_dialect {x : Register} (heffect : Effect m instruction flow after)
    (htransfer : instruction = .storeRegisters x ∨ instruction = .loadRegisters x)
    (dialect : Dialect) :
    ∃ index, Effect (m.withDialect dialect) instruction flow
        ((after.withDialect dialect).withIndex index) ∧
      index.toNat = m.processor.index.toNat + dialect.indexMove x ∧
      after.processor.index.toNat =
        m.processor.index.toNat + m.processor.dialect.indexMove x := by
  rcases htransfer with rfl | rfl
  · cases heffect with
    | storeRegisters _ hrange =>
        have hfits := (Memory.length_of_range_eq_ok hrange).1
        have hother := Effect.storeRegisters (m := m.withDialect dialect) x hrange
        have hmove := Processor.toNat_advanceIndex (m.withDialect dialect).processor hfits
        obtain ⟨index, hindex⟩ := advanceIndex_keeps (m.withDialect dialect).processor x
        obtain ⟨first, hfirst⟩ := advanceIndex_keeps m.processor x
        rw [hindex] at hother hmove
        refine ⟨index, ?_, hmove, m.processor.toNat_advanceIndex hfits⟩
        rw [hfirst]
        exact hother
  · cases heffect with
    | @loadRegisters bytes _ hrange =>
        have hfits := (Memory.length_of_range_eq_ok hrange).1
        have hother := Effect.loadRegisters (m := m.withDialect dialect) x hrange
        let moved : Processor := { m.processor with v := m.processor.v.overlay bytes }
        have hmove := Processor.toNat_advanceIndex { moved with dialect } hfits
        obtain ⟨index, hindex⟩ := advanceIndex_keeps { moved with dialect } x
        obtain ⟨first, hfirst⟩ := advanceIndex_keeps moved x
        have hone := Processor.toNat_advanceIndex moved hfits
        change Effect _ _ _
          { m.withDialect dialect with
            processor := ({ moved with dialect } : Processor).advanceIndex x } at hother
        rw [hindex] at hother hmove
        refine ⟨index, ?_, hmove, hone⟩
        change Effect _ _ _
          (({ m with processor := moved.advanceIndex x }.withDialect dialect).withIndex index)
        rw [hfirst]
        exact hother

/-- A transfer that succeeds does so in every dialect, and what differs is the index. -/
theorem step_of_transfer {word : UInt16} (hfetched : m.fetchedWord? = some word)
    (hcode : IsTransfer word) (hsucceeded : (m.step now).succeeded = true) (dialect : Dialect) :
    ∃ index, ((m.withDialect dialect).step now).succeeded = true ∧
      ((m.withDialect dialect).step now).state =
        ((m.step now).state.withDialect dialect).withIndex index ∧
      index.toNat = m.processor.index.toNat + dialect.indexMove (nibble word 2) ∧
      (m.step now).state.processor.index.toNat =
        m.processor.index.toNat + m.processor.dialect.indexMove (nibble word 2) := by
  obtain ⟨found, flow, after, hperforms, -, hstate⟩ :=
    performs_of_step ((Attempt.fault_eq_none_iff _).mpr hsucceeded)
  have hword := ((m.fetchedWord?_eq_some_iff word).mp hfetched).2.2
  obtain rfl : found = word := Except.ok.inj (hperforms.fetch.symm.trans hword)
  have htransfer := (Instruction.decode_eq_transfer_iff found _).mpr ⟨hcode, rfl⟩
  obtain ⟨index, hother, hindex, hafter⟩ :=
    hperforms.effect.transfer_of_dialect htransfer dialect
  obtain ⟨htwo, hstate'⟩ :=
    @step_of_fetchedWord? (m.withDialect dialect) _ _ _ found hfetched rfl hother now
  refine ⟨index, htwo, ?_, hindex, ?_⟩
  · rw [hstate, hstate']
    cases flow <;> rfl
  · rw [hstate]
    cases flow <;> exact hafter

/-! ## The theorem -/

/-- Machines that differ in their dialects only give the same replies, make the same records and
stay equal in everything else through every history in which no step reads a switch that is set
otherwise.  After it an `8xyE` that shifts a bit out succeeds in both and they differ in the flag
register, and a transfer that succeeds does so in both and they differ in the index. -/
theorem dialects_part_at_their_words (m : Machine) (dialect : Dialect)
    (history : List (Nat × Operation)) (hsame : m.Indifferent dialect history) :
    let other := m.withDialect dialect
    let reached := m.after history
    other.outcomes history =
        (m.outcomes history).map (fun outcome => (outcome.1, outcome.2.withDialect dialect)) ∧
      other.stepResults history = m.stepResults history ∧
      other.after history = reached.withDialect dialect ∧
      ∀ now,
        let one := reached.step now
        let two := (other.after history).step now
        (reached.ShiftsBitOut →
          one.succeeded = true ∧ two.succeeded = true ∧
            one.state.processor.reg .flag = m.processor.dialect.bitFlag ∧
            two.state = (one.state.withDialect dialect).withFlag dialect.bitFlag) ∧
        ∀ word ∈ reached.fetchedWord?, IsTransfer word → one.succeeded = true →
          two.succeeded = true ∧ ∃ index,
            two.state = (one.state.withDialect dialect).withIndex index ∧
            one.state.processor.index.toNat =
              reached.processor.index.toNat + m.processor.dialect.indexMove (nibble word 2) ∧
            index.toNat =
              reached.processor.index.toNat + dialect.indexMove (nibble word 2) := by
  intro other reached
  obtain ⟨houtcomes, hresults, hafter⟩ := after_withDialect hsame
  have hdialect : reached.processor.dialect = m.processor.dialect :=
    (Configured.after ⟨rfl, rfl⟩ history : reached.Configured _ m.timers.mode).dialect
  refine ⟨houtcomes, hresults, hafter, ?_⟩
  intro now one two
  have htwo : two = (reached.withDialect dialect).step now := congrArg (·.step now) hafter
  rw [htwo, ← hdialect]
  constructor
  · intro hshifts
    exact step_of_shiftsBitOut hshifts dialect now
  · intro word hfetched hcode hsucceeded
    obtain ⟨index, hother, hstate, hindex, hmove⟩ :=
      step_of_transfer hfetched hcode hsucceeded dialect
    exact ⟨hother, index, hstate, hmove, hindex⟩

/-- A program that shifts a register with a low value and then the flag register with a high one. -/
def shifting : Machine :=
  (new .standard .perStep [] 0).after
    [(0, .load #[0x62, 0x05, 0x82, 0x0E, 0x6F, 0x81, 0x8F, 0x0E])]

theorem dialects_part_at_their_words_shiftedFlag :
    let history := [(1, .step), (2, .setKey 3 true), (3, .step), (4, .step)]
    let one := (shifting.after history).step 5
    let two := ((shifting.withDialect ⟨true, false⟩).after history).step 5
    shifting.Indifferent ⟨true, false⟩ history ∧ one.succeeded = true ∧ two.succeeded = true ∧
      one.state.processor.reg .flag = 0x80 ∧
      two.state = (one.state.withDialect ⟨true, false⟩).withFlag 1 := by
  intro history
  have hsame : shifting.Indifferent ⟨true, false⟩ history := by decide +kernel
  obtain ⟨hshifts, hflag⟩ : (shifting.after history).ShiftsBitOut ∧
      shifting.processor.dialect.bitFlag = 0x80 := by decide +kernel
  obtain ⟨-, -, -, hlater⟩ := dialects_part_at_their_words shifting ⟨true, false⟩ history hsame
  obtain ⟨hone, htwo, hleft, hstate⟩ := (hlater 5).1 hshifts
  rw [hflag] at hleft
  exact ⟨hsame, hone, htwo, hleft, hstate⟩

end Machine

end ChipEight
