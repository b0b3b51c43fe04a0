import ChipEight.Proofs.Refusal
import Mathlib.Data.Nat.Bitwise

/-!
# Arithmetic on registers

An operation reads two registers, which may be the same, and writes its result into the first.  Most
operations then write the flag register as well, so that of the result and the flag only the flag is
left where both go to the same register.  Both are computed from what the registers held before.
-/

namespace ChipEight

theorem toNat_flagOf_decide (p : Prop) [Decidable p] :
    (flagOf (decide p)).toNat = if p then 1 else 0 := by
  by_cases hp : p <;> simp [flagOf, hp]

namespace Arithmetic

/-- Whether an operation leaves something in the flag register beside its result. -/
def setsFlag : Arithmetic → Bool
  | .copy | .or | .and | .xor => false
  | .add | .sub | .shiftRight | .subFrom | .shiftLeft => true

/-- The result and the flag that an operation on two bytes has to give. -/
def Yields (dialect : Dialect) (a b result flag : UInt8) : Arithmetic → Prop
  | .copy => result = b
  | .or => result = a ||| b
  | .and => result = a &&& b
  | .xor => result = a ^^^ b
  | .add => 256 * flag.toNat + result.toNat = a.toNat + b.toNat
  | .sub =>
      result.toNat = (256 + a.toNat - b.toNat) % 256 ∧
        flag.toNat = if b.toNat ≤ a.toNat then 1 else 0
  | .shiftRight => 2 * result.toNat + flag.toNat = a.toNat ∧ flag.toNat < 2
  | .subFrom =>
      result.toNat = (256 + b.toNat - a.toNat) % 256 ∧
        flag.toNat = if a.toNat ≤ b.toNat then 1 else 0
  | .shiftLeft =>
      ∃ bit, 256 * bit + result.toNat = 2 * a.toNat ∧
        flag.toNat = if dialect.unitShiftFlag then bit else 128 * bit

theorem toNat_sub (a b : UInt8) : (a - b).toNat = (256 + a.toNat - b.toNat) % 256 := by
  have hb := b.toNat_lt
  rw [UInt8.toNat_sub]
  omega

theorem toNat_shiftedOut (dialect : Dialect) (a : UInt8) :
    (shiftedOut dialect a).toNat =
      if dialect.unitShiftFlag then a.toNat / 128 else 128 * (a.toNat / 128) := by
  have ha := a.toNat_lt
  unfold shiftedOut
  split
  next =>
    rw [UInt8.toNat_shiftRight]
    exact Nat.shiftRight_eq_div_pow a.toNat 7
  next =>
    have hhigh : (a &&& 0x80).toNat = (a.toNat.testBit 7).toNat * 2 ^ 7 := by
      rw [UInt8.toNat_and]
      exact Nat.and_two_pow a.toNat 7
    rw [hhigh, Nat.toNat_testBit]
    omega

theorem yields_of_flag? {dialect : Dialect} {a b flag : UInt8} {operation : Arithmetic}
    (hflag : operation.flag? dialect a b = some flag) :
    operation.Yields dialect a b (operation.result a b) flag := by
  have ha := a.toNat_lt
  have hb := b.toNat_lt
  cases operation with
  | add =>
      obtain rfl := Option.some.inj hflag
      change 256 * (flagOf _).toNat + (a + b).toNat = _
      rw [toNat_flagOf_decide, UInt8.toNat_add]
      split <;> omega
  | sub =>
      obtain rfl := Option.some.inj hflag
      refine ⟨toNat_sub a b, ?_⟩
      simp only [toNat_flagOf_decide, UInt8.le_iff_toNat_le]
  | shiftRight =>
      obtain rfl := Option.some.inj hflag
      have hhalf : (a >>> 1).toNat = a.toNat / 2 := by
        rw [UInt8.toNat_shiftRight]
        exact Nat.shiftRight_eq_div_pow a.toNat 1
      have hlast : (a &&& 1).toNat = a.toNat % 2 := by
        rw [UInt8.toNat_and]
        exact Nat.and_one_is_mod a.toNat
      change 2 * (a >>> 1).toNat + (a &&& 1).toNat = a.toNat ∧ (a &&& 1).toNat < 2
      omega
  | subFrom =>
      obtain rfl := Option.some.inj hflag
      refine ⟨toNat_sub b a, ?_⟩
      simp only [toNat_flagOf_decide, UInt8.le_iff_toNat_le]
  | shiftLeft =>
      obtain rfl := Option.some.inj hflag
      have hdouble : (a <<< 1).toNat = 2 * a.toNat % 256 := by
        rw [UInt8.toNat_shiftLeft]
        change a.toNat <<< 1 % 256 = _
        rw [Nat.shiftLeft_eq]
        omega
      refine ⟨a.toNat / 128, ?_, toNat_shiftedOut dialect a⟩
      change 256 * (a.toNat / 128) + (a <<< 1).toNat = 2 * a.toNat
      omega
  | _ => cases hflag

theorem yields_of_flag?_eq_none {dialect : Dialect} {a b : UInt8} {operation : Arithmetic}
    (hflag : operation.flag? dialect a b = none) (flag : UInt8) :
    operation.Yields dialect a b (operation.result a b) flag := by
  cases operation with
  | copy => rfl
  | or => rfl
  | and => rfl
  | xor => rfl
  | _ => cases hflag

theorem isSome_flag? (dialect : Dialect) (a b : UInt8) (operation : Arithmetic) :
    (operation.flag? dialect a b).isSome = operation.setsFlag := by
  cases operation <;> rfl

/-- An operation that sets the flag asks for one result and one flag. -/
theorem Yields.unique {dialect : Dialect} {a b result flag result' flag' : UInt8}
    {operation : Arithmetic} (hsets : operation.setsFlag = true)
    (hyields : operation.Yields dialect a b result flag)
    (hother : operation.Yields dialect a b result' flag') :
    result' = result ∧ flag' = flag := by
  have hresult := result.toNat_lt
  have hresult' := result'.toNat_lt
  rw [← UInt8.toNat_inj, ← UInt8.toNat_inj]
  cases operation with
  | add =>
      change 256 * _ + _ = _ at hyields hother
      omega
  | sub =>
      obtain ⟨hdifference, hflag⟩ := hyields
      obtain ⟨hdifference', hflag'⟩ := hother
      omega
  | shiftRight =>
      obtain ⟨hsum, hbit⟩ := hyields
      obtain ⟨hsum', hbit'⟩ := hother
      omega
  | subFrom =>
      obtain ⟨hdifference, hflag⟩ := hyields
      obtain ⟨hdifference', hflag'⟩ := hother
      omega
  | shiftLeft =>
      obtain ⟨bit, hsum, hflag⟩ := hyields
      obtain ⟨bit', hsum', hflag'⟩ := hother
      obtain rfl : bit' = bit := by omega
      exact ⟨by omega, hflag'.trans hflag.symm⟩
  | _ => cases hsets

end Arithmetic

/-- The registers after an operation on two of them, which may be one and may be the flag
register. -/
structure Registers.Calculated (dialect : Dialect) (v after : Registers) (operation : Arithmetic)
    (x y : Register) : Prop where
  result : x ≠ Register.flag ∨ operation.setsFlag = false →
    operation.Yields dialect (v.get x) (v.get y) (after.get x) (after.get Register.flag)
  flagWins : x = Register.flag → operation.setsFlag = true →
    ∃ lost, operation.Yields dialect (v.get x) (v.get y) lost (after.get Register.flag) ∧
      ∀ other flag, operation.Yields dialect (v.get x) (v.get y) other flag →
        flag = after.get Register.flag
  kept : ∀ r, r ≠ x → (r = Register.flag → operation.setsFlag = false) →
    after.get r = v.get r

theorem Processor.get_calculate (p : Processor) (operation : Arithmetic) (x y r : Register) :
    (p.calculate operation x y).v.get r =
      match operation.flag? p.dialect (p.v.get x) (p.v.get y) with
      | none => if r = x then operation.result (p.v.get x) (p.v.get y) else p.v.get r
      | some flag =>
          if r = Register.flag then flag
          else if r = x then operation.result (p.v.get x) (p.v.get y) else p.v.get r := by
  simp only [calculate, reg]
  cases operation.flag? p.dialect (p.v.get x) (p.v.get y) with
  | none => exact p.v.get_set x r _
  | some flag =>
      change ((p.v.set x _).set Register.flag flag).get r = _
      rw [Registers.get_set, Registers.get_set]

theorem Processor.calculated (p : Processor) (operation : Arithmetic) (x y : Register) :
    p.v.Calculated p.dialect (p.calculate operation x y).v operation x y := by
  have hget := p.get_calculate operation x y
  have hsets := Arithmetic.isSome_flag? p.dialect (p.v.get x) (p.v.get y) operation
  cases hflag : operation.flag? p.dialect (p.v.get x) (p.v.get y) with
  | none =>
      simp only [hflag] at hget
      rw [hflag, Option.isSome_none] at hsets
      refine ⟨?_, ?_, ?_⟩
      · intro _
        rw [hget x, if_pos rfl]
        exact Arithmetic.yields_of_flag?_eq_none hflag _
      · intro _ hflagged
        rw [← hsets] at hflagged
        cases hflagged
      · intro r hr _
        rw [hget, if_neg hr]
  | some flag =>
      simp only [hflag] at hget
      rw [hflag, Option.isSome_some] at hsets
      have hyields := Arithmetic.yields_of_flag? hflag
      refine ⟨?_, ?_, ?_⟩
      · rintro (hx | hplain)
        · rw [hget x, hget Register.flag, if_neg hx, if_pos rfl, if_pos rfl]
          exact hyields
        · rw [← hsets] at hplain
          cases hplain
      · rintro - -
        rw [hget Register.flag, if_pos rfl]
        exact ⟨_, hyields, fun _ _ hother => (hyields.unique hsets.symm hother).2⟩
      · intro r hr hplain
        have hother : r ≠ Register.flag := by
          intro h
          rw [← hsets] at hplain
          exact Bool.noConfusion (hplain h)
        rw [hget, if_neg hother, if_neg hr]

namespace Machine

theorem cycle_arithmetic {m : Machine} {operation : Arithmetic} {x y : Register}
    (hrunning : m.processor.running = true)
    (hreads : m.Reads (.arithmetic operation x y)) :
    m.cycle.succeeded = true ∧
      m.processor.v.Calculated m.processor.dialect m.cycle.state.processor.v operation x y := by
  obtain ⟨word, hsucceeded, hstate⟩ :=
    cycle_of_reads hrunning hreads fun _ => .arithmetic operation x y
  rw [hstate]
  exact ⟨hsucceeded, (m.fetched word).processor.calculated operation x y⟩

/-! ## The theorem -/

/-- An operation gives its exact result in one register and its exact flag in the flag register, or
only the flag where these are one, and keeps the other registers.  Adding a register and subtracting
it again restores the sum's register, and the subtraction borrows exactly if the addition carried. -/
theorem arithmetic_is_exact (m : Machine) (hrunning : m.processor.running = true)
    (x y : Register) :
    (∀ operation, m.Reads (.arithmetic operation x y) →
      m.cycle.succeeded = true ∧
        m.processor.v.Calculated m.processor.dialect m.cycle.state.processor.v operation x y) ∧
    (x ≠ y → x ≠ Register.flag → y ≠ Register.flag → m.Reads (.arithmetic .add x y) →
      m.cycle.state.Reads (.arithmetic .sub x y) →
      let added := m.cycle.state
      let back := added.cycle.state
      added.cycle.succeeded = true ∧ back.processor.reg x = m.processor.reg x ∧
        (back.processor.reg .flag = 1 ↔ added.processor.reg .flag = 0)) := by
  refine ⟨fun _ => cycle_arithmetic hrunning, ?_⟩
  intro hxy hx hy hadd hsub added back
  obtain ⟨-, hsum⟩ := cycle_arithmetic hrunning hadd
  obtain ⟨hsucceeded, hdifference⟩ :=
    cycle_arithmetic ((m.retains_cycle).running.trans hrunning) hsub
  have htotal : 256 * (added.processor.reg .flag).toNat + (added.processor.reg x).toNat =
      (m.processor.reg x).toNat + (m.processor.reg y).toNat := hsum.result (Or.inl hx)
  have hsame : added.processor.reg y = m.processor.reg y :=
    hsum.kept y (Ne.symm hxy) fun h => absurd h hy
  obtain ⟨hback, hflag⟩ : (back.processor.reg x).toNat =
      (256 + (added.processor.reg x).toNat - (added.processor.reg y).toNat) % 256 ∧
        (back.processor.reg .flag).toNat =
          if (added.processor.reg y).toNat ≤ (added.processor.reg x).toNat then 1 else 0 :=
    hdifference.result (Or.inl hx)
  have ha := (m.processor.reg x).toNat_lt
  have hb := (m.processor.reg y).toNat_lt
  have hs := (added.processor.reg x).toNat_lt
  rw [hsame] at hback hflag
  refine ⟨hsucceeded, ?_, ?_⟩
  · apply UInt8.toNat_inj.mp
    omega
  · rw [← UInt8.toNat_inj, ← UInt8.toNat_inj, hflag]
    change (if _ then 1 else 0) = 1 ↔ _ = 0
    split
    next hfits => omega
    next hborrow => omega

/-- A machine that is about to add 100 to 200 and to subtract it again. -/
def addingBack : Machine :=
  { new .standard .perStep [] 0 with
    processor :=
      { Processor.new .standard with v := (Processor.new .standard).v.overlay [200, 100] }
    memory := Memory.blank.store 0x200 [0x80, 0x14, 0x80, 0x15] }

theorem arithmetic_is_exact_addingBack :
    addingBack.processor.running = true ∧
      Arithmetic.Yields .standard 200 100 (addingBack.cycle.state.processor.reg 0)
        (addingBack.cycle.state.processor.reg .flag) .add ∧
      addingBack.cycle.state.cycle.state.processor.reg 0 = 200 ∧
      addingBack.cycle.state.cycle.state.processor.reg .flag ≠ 1 := by
  obtain ⟨hfirst, hsecond, hcarry, ⟨hhigh, hlow⟩, hhigh', hlow'⟩ :
      addingBack.processor.reg 0 = 200 ∧ addingBack.processor.reg 1 = 100 ∧
        addingBack.cycle.state.processor.reg .flag ≠ 0 ∧
        (addingBack.memory.cells[addingBack.processor.pc.toNat]? = some 0x80 ∧
          addingBack.memory.cells[addingBack.processor.pc.toNat + 1]? = some 0x14) ∧
        addingBack.cycle.state.memory.cells[addingBack.cycle.state.processor.pc.toNat]? =
          some 0x80 ∧
        addingBack.cycle.state.memory.cells[addingBack.cycle.state.processor.pc.toNat + 1]? =
          some 0x15 := by
    decide +kernel
  have hadd : addingBack.Reads (.arithmetic .add 0 1) :=
    ⟨0x80, 0x14, hhigh, hlow, .arithmetic .add 0 1⟩
  have hsub : addingBack.cycle.state.Reads (.arithmetic .sub 0 1) :=
    ⟨0x80, 0x15, hhigh', hlow', .arithmetic .sub 0 1⟩
  obtain ⟨hexact, hback⟩ := arithmetic_is_exact addingBack rfl 0 1
  have hsum : Arithmetic.Yields .standard (addingBack.processor.reg 0)
      (addingBack.processor.reg 1) (addingBack.cycle.state.processor.reg 0)
      (addingBack.cycle.state.processor.reg .flag) .add :=
    (hexact .add hadd).2.result (Or.inl (by decide))
  obtain ⟨-, hrestored, hborrow⟩ :=
    hback (by decide) (by decide) (by decide) hadd hsub
  rw [hfirst] at hsum hrestored
  rw [hsecond] at hsum
  exact ⟨rfl, hsum, hrestored, mt hborrow.mp hcarry⟩

end Machine

end ChipEight
