import ChipEight.Proofs.KeyTiming
import ChipEight.Proofs.Transcript
import Mathlib.Logic.Function.Iterate

/-!
# The time of ticks

The clock of a host moves when an output is flushed and when the host sleeps, and at no other time.
A tick reaches at most two flushes, one for the frame and one for the bell, and sleeps for what they
left of its time.  The keys see nothing of this division: after a row of ticks they are as if all
the time had passed at once.
-/

namespace ChipEight

/-! ## Time that passes in pieces -/

theorem Keypad.eq_of_isDown_eq {k k' : Keypad}
    (hdown : ∀ code : UInt8, code.toNat < keyCount → k.isDown code = k'.isDown code) :
    k = k' := by
  obtain ⟨down⟩ := k
  obtain ⟨down'⟩ := k'
  congr 1
  apply Vector.ext
  intro place hplace
  have hcode : (UInt8.ofNat place).toNat = place :=
    UInt8.toNat_ofNat_of_lt' (Nat.lt_trans hplace (by decide))
  have hsame := hdown (UInt8.ofNat place) (by rwa [hcode])
  simp only [isDown, hcode] at hsame
  simpa [hplace] using hsame

namespace Keyboard

theorem settle_fst (k : Keyboard) (keypad : Keypad) (now : Nat) :
    (k.settle keypad now).1 = { k with pending := k.pending.filter fun r => now < r.time } := by
  unfold settle
  rw [List.partition_eq_filter_filter]
  change Keyboard.mk k.presses (k.pending.filter (not ∘ fun r => decide (r.time ≤ now))) = _
  congr 1
  apply List.filter_congr
  intro r _
  rw [Function.comp_apply, ← decide_not, decide_eq_decide]
  exact Nat.not_le

/-- Where nothing is due, nothing happens. -/
theorem settle_eq_self {k : Keyboard} {now : Nat} (hpending : ∀ r ∈ k.pending, now < r.time)
    (keypad : Keypad) :
    k.settle keypad now = (k, keypad) := by
  apply Prod.ext
  · rw [settle_fst, List.filter_eq_self.mpr]
    intro r hmem
    exact decide_eq_true (hpending r hmem)
  · apply Keypad.eq_of_isDown_eq
    intro code hcode
    rw [Bool.eq_iff_iff, isDown_settle hcode]
    refine ⟨fun hdown => hdown.1, fun hdown => ⟨hdown, ?_⟩⟩
    intro r hmem hdue
    exact absurd hdue (Nat.not_le_of_lt (hpending r hmem))

/-- A tap that comes due in the first of two pieces of time lets its key go there, a later one in
the second: whatever the order, a key that was let go stays so. -/
theorem settle_settle (k : Keyboard) (keypad : Keypad) {now later : Nat} (hle : now ≤ later) :
    (k.settle keypad now).1.settle (k.settle keypad now).2 later = k.settle keypad later := by
  apply Prod.ext
  · rw [settle_fst, settle_fst, settle_fst]
    congr 1
    rw [List.filter_filter]
    apply List.filter_congr
    intro r _
    rw [← Bool.decide_and, decide_eq_decide]
    omega
  · apply Keypad.eq_of_isDown_eq
    intro code hcode
    rw [Bool.eq_iff_iff, isDown_settle hcode, isDown_settle hcode, isDown_settle hcode]
    simp only [mem_pending_settle]
    rw [settle_fst]
    constructor
    · rintro ⟨⟨hdown, hfirst⟩, hsecond⟩
      refine ⟨hdown, ?_⟩
      intro r hmem hdue hstands
      by_cases hnow : r.time ≤ now
      · exact hfirst r hmem hnow hstands
      · exact hsecond r ⟨hmem, Nat.lt_of_not_le hnow⟩ hdue hstands
    · rintro ⟨hdown, hspared⟩
      refine ⟨⟨hdown, ?_⟩, ?_⟩
      · intro r hmem hdue
        exact hspared r hmem (Nat.le_trans hdue hle)
      · rintro r ⟨hmem, -⟩
        exact hspared r hmem

end Keyboard

namespace Console

theorem advance_advance (c : Console) (first second : Nat) :
    (c.advance first).advance second = c.advance (first + second) := by
  have hsettle := c.keyboard.settle_settle c.machine.keypad
    (show c.now + first ≤ c.now + first + second by omega)
  rw [Nat.add_assoc] at hsettle
  unfold advance
  simp only [Nat.add_assoc, hsettle]

theorem advance_zero {c : Console} (hpending : ∀ r ∈ c.keyboard.pending, c.now < r.time) :
    c.advance 0 = c := by
  unfold advance
  simp only [Nat.add_zero, Keyboard.settle_eq_self hpending]

/-- Two consoles with the same keys at the same time. -/
structure SameKeys (c other : Console) : Prop where
  keyboard : other.keyboard = c.keyboard
  keypad : other.machine.keypad = c.machine.keypad
  now : other.now = c.now

variable {c other third : Console}

theorem SameKeys.refl (c : Console) : SameKeys c c :=
  ⟨rfl, rfl, rfl⟩

theorem SameKeys.trans (hfirst : SameKeys c other) (hsecond : SameKeys other third) :
    SameKeys c third :=
  ⟨hsecond.keyboard.trans hfirst.keyboard, hsecond.keypad.trans hfirst.keypad,
    hsecond.now.trans hfirst.now⟩

theorem SameKeys.advance (hsame : SameKeys c other) (elapsed : Nat) :
    SameKeys (c.advance elapsed) (other.advance elapsed) := by
  unfold Console.advance
  rw [hsame.keyboard, hsame.keypad, hsame.now]
  exact ⟨rfl, rfl, rfl⟩

theorem SameKeys.iterate (hsame : SameKeys c other) (elapsed n : Nat) :
    SameKeys ((·.advance elapsed)^[n] c) ((·.advance elapsed)^[n] other) := by
  induction n generalizing c other with
  | zero => exact hsame
  | succ n ih => exact ih (hsame.advance elapsed)

theorem iterate_advance_succ (c : Console) (elapsed n : Nat) :
    (·.advance elapsed)^[n + 1] c = c.advance (elapsed * (n + 1)) := by
  induction n generalizing c with
  | zero => rw [Nat.mul_one]; rfl
  | succ n ih =>
      rw [Function.iterate_succ_apply, ih, advance_advance, Nat.mul_succ elapsed (n + 1),
        Nat.add_comm]

theorem now_iterate_advance (c : Console) (elapsed n : Nat) :
    ((·.advance elapsed)^[n] c).now = c.now + elapsed * n := by
  cases n with
  | zero => rfl
  | succ n => rw [iterate_advance_succ]; rfl

theorem iterate_advance_advance (c : Console) (elapsed n rest : Nat) :
    ((·.advance elapsed)^[n] c).advance rest = c.advance (elapsed * n + rest) := by
  cases n with
  | zero => rw [Nat.mul_zero, Nat.zero_add]; rfl
  | succ n => rw [iterate_advance_succ, advance_advance]

/-- The taps that came due have let their keys go, the later ones are still pending, and nothing
else has happened to the keys. -/
structure Settles (c after : Console) : Prop where
  presses : after.keyboard.presses = c.keyboard.presses
  pending : ∀ r, r ∈ after.keyboard.pending ↔ r ∈ c.keyboard.pending ∧ after.now < r.time
  down : ∀ code : UInt8, code.toNat < Keypad.keyCount →
    (after.machine.keypad.isDown code = true ↔
      c.machine.keypad.isDown code = true ∧
        ∀ r ∈ c.keyboard.pending, r.time ≤ after.now → c.keyboard.stands r = true → r.code ≠ code)

theorem SameKeys.settles {elapsed : Nat} (hsame : SameKeys (c.advance elapsed) other) :
    Settles c other := by
  constructor
  case presses =>
    rw [hsame.keyboard]
    rfl
  case pending =>
    rw [hsame.keyboard, hsame.now]
    exact c.keyboard.mem_pending_settle c.machine.keypad (c.now + elapsed)
  case down =>
    rw [hsame.keypad, hsame.now]
    intro code hcode
    exact Keyboard.isDown_settle hcode c.keyboard c.machine.keypad (c.now + elapsed)

theorem Settles.lt_time (hsettles : Settles c other) :
    ∀ r ∈ other.keyboard.pending, other.now < r.time :=
  fun r hmem => ((hsettles.pending r).mp hmem).2

end Console

/-- One flush for the frame and one for the bell. -/
def Showing.flushes (s : Showing) : Nat :=
  (if s.hasFrame then 1 else 0) + if s.bell then 1 else 0

namespace Host

/-- The flushes that a tick reaches.  The frame is flushed before the bell is rung, so a tick that
fails to ring has flushed its frame. -/
def flushes (h : Host) : Nat :=
  match h.showing?, h.tick.fault with
  | some s, none => s.flushes
  | some s, some .bell => if s.hasFrame then 1 else 0
  | _, _ => 0

/-- What a row of ticks adds to the clock, up to the first that is stopped. -/
def elapsed (h : Host) : Nat → Nat
  | 0 => 0
  | n + 1 =>
      match h.tick.fault with
      | none => max h.settings.tickTime (h.flushTime * h.flushes) + h.pacedTick.state.elapsed n
      | some _ => h.flushTime * h.flushes

/-! ## What an action does to the clock -/

/-- After an action that reached so many flushes the clock and the keys are as if only these flushes
had been. -/
structure Reaches (h after : Host) (flushes : Nat) : Prop where
  settings : after.settings = h.settings
  flushTime : after.flushTime = h.flushTime
  keys : Console.SameKeys ((·.advance h.flushTime)^[flushes] h.console) after.console

variable {h after later : Host} {m n : Nat}

theorem Reaches.refl (h : Host) : Reaches h h 0 :=
  ⟨rfl, rfl, .refl _⟩

theorem Reaches.trans (hfirst : Reaches h after m) (hsecond : Reaches after later n) :
    Reaches h later (m + n) := by
  refine ⟨hsecond.settings.trans hfirst.settings, hsecond.flushTime.trans hfirst.flushTime, ?_⟩
  have hkeys := hsecond.keys
  rw [hfirst.flushTime] at hkeys
  rw [Nat.add_comm, Function.iterate_add_apply]
  exact (hfirst.keys.iterate h.flushTime n).trans hkeys

theorem Reaches.now_eq (hreaches : Reaches h after n) :
    after.console.now = h.console.now + h.flushTime * n :=
  hreaches.keys.now.trans (h.console.now_iterate_advance h.flushTime n)

/-- The same host with another machine, on which nobody touched the keys. -/
def Stepped (h after : Host) : Prop :=
  ∃ machine : Machine, machine.keypad = h.console.machine.keypad ∧
    after = { h with console := { h.console with machine } }

theorem stepped_batch (h : Host) : h.Stepped h.batch.state := by
  have hsteps : ∃ machine : Machine, machine.keypad = h.console.machine.keypad ∧
      (Attempt.repeatedly Console.step h.settings.stepsPerTick (.done h.console #[])).state =
        { h.console with machine } := by
    refine Attempt.repeatedly_induction
      (Q := fun a : Attempt Console Fault => ∃ machine : Machine,
        machine.keypad = h.console.machine.keypad ∧ a.state = { h.console with machine })
      ?_ _ ⟨h.console.machine, rfl, rfl⟩
    rintro a hfault ⟨machine, hkeypad, hstate⟩
    rw [(Attempt.andThen_of_succeeded hfault Console.step).1, hstate]
    refine ⟨(machine.step h.console.now).state, ?_, rfl⟩
    exact (machine.retains_step h.console.now).keypad.trans hkeypad
  obtain ⟨machine, hkeypad, hstate⟩ := hsteps
  exact ⟨machine, hkeypad, by rw [h.batch_eq.1, hstate]⟩

theorem stepped_counted (h : Host) : h.Stepped h.counted.state := by
  refine Attempt.andThen_state (P := h.Stepped) h.stepped_batch ?_
  rintro state ⟨machine, hkeypad, rfl⟩
  unfold countDown
  split
  · exact ⟨machine.tickTimers, hkeypad, rfl⟩
  · exact ⟨machine, hkeypad, rfl⟩

theorem Stepped.reaches (hstepped : h.Stepped after) (hreaches : Reaches after later n) :
    Reaches h later n := by
  have hnothing : Reaches h after 0 := by
    obtain ⟨machine, hkeypad, rfl⟩ := hstepped
    exact ⟨rfl, rfl, rfl, hkeypad, rfl⟩
  have hboth := hnothing.trans hreaches
  rwa [Nat.zero_add] at hboth

theorem flushes_dueFrame (h : Host) : h.dueFrame.flushes = if h.due.hasFrame then 1 else 0 :=
  rfl

theorem flushes_dueBell (h : Host) : h.dueBell.flushes = if h.due.bell then 1 else 0 :=
  Nat.zero_add _

theorem flushes_due (h : Host) : h.due.flushes = h.dueFrame.flushes + h.dueBell.flushes := by
  rw [flushes_dueFrame, flushes_dueBell]
  rfl

theorem reaches_painted (h : Host) : Reaches h h.painted h.dueFrame.flushes := by
  rw [flushes_dueFrame]
  unfold painted due
  split
  · exact ⟨rfl, rfl, rfl, rfl, rfl⟩
  · exact .refl h

theorem reaches_rung (h : Host) : Reaches h h.rung h.dueBell.flushes := by
  rw [flushes_dueBell]
  unfold rung due
  split
  · exact ⟨rfl, rfl, rfl, rfl, rfl⟩
  · exact .refl h

theorem reaches_present (h : Host) :
    (h.present.fault = none ∧ Reaches h h.present.state h.dueFrame.flushes) ∨
      (h.present.fault = some .frame ∧ Reaches h h.present.state 0) := by
  cases hfits : (h.output.write h.frameText).2 with
  | true =>
      have hpainted := h.reaches_painted
      rw [present_of_whole hfits]
      exact Or.inl ⟨rfl, hpainted.settings, hpainted.flushTime, hpainted.keys⟩
  | false =>
      obtain ⟨painter, hpresent⟩ := present_of_cut hfits
      rw [hpresent]
      exact Or.inr ⟨rfl, rfl, rfl, .refl _⟩

theorem reaches_ring (h : Host) :
    (h.ring.fault = none ∧ Reaches h h.ring.state h.dueBell.flushes) ∨
      (h.ring.fault = some .bell ∧ h.due.bell = true ∧ Reaches h h.ring.state 0) := by
  cases hfits : (h.output.write h.bellText).2 with
  | true =>
      have hrung := h.reaches_rung
      rw [ring_of_whole hfits]
      exact Or.inl ⟨rfl, hrung.settings, hrung.flushTime, hrung.keys⟩
  | false =>
      obtain ⟨hbeep, hring⟩ := ring_of_cut hfits
      rw [hring]
      exact Or.inr ⟨rfl, hbeep, rfl, rfl, rfl, rfl, rfl⟩

/-- The frame and then the bell. -/
theorem reaches_due (h : Host) :
    ((h.present.andThen ring).fault = some .frame ∧ Reaches h (h.present.andThen ring).state 0) ∨
      ((h.present.andThen ring).fault = some .bell ∧ h.due.bell = true ∧
        Reaches h (h.present.andThen ring).state h.dueFrame.flushes) ∨
      ((h.present.andThen ring).fault = none ∧
        Reaches h (h.present.andThen ring).state h.due.flushes) := by
  rcases h.reaches_present with ⟨hpresent, hframe⟩ | ⟨hpresent, hframe⟩
  · right
    obtain ⟨hstate, hfault⟩ := Attempt.andThen_of_succeeded hpresent ring
    have hbell := h.dueBell_present
    rw [hstate, hfault]
    rcases h.present.state.reaches_ring with ⟨hring, hrung⟩ | ⟨hring, hdue, hrung⟩
    · right
      rw [hbell] at hrung
      rw [flushes_due]
      exact ⟨hring, hframe.trans hrung⟩
    · left
      exact ⟨hring, (congrArg Showing.bell hbell).symm.trans hdue, hframe.trans hrung⟩
  · left
    rw [Attempt.andThen_of_fault hpresent]
    exact ⟨hpresent, hframe⟩

/-! ## Ticks -/

theorem tick_of_counted (hfault : h.counted.fault = none) :
    h.showing? = some h.counted.state.due ∧
      h.tick.state = (h.counted.state.present.andThen ring).state ∧
      h.tick.fault = (h.counted.state.present.andThen ring).fault := by
  rw [tick_eq]
  refine ⟨?_, Attempt.andThen_of_succeeded hfault _⟩
  unfold showing?
  rw [hfault]

theorem tick_of_counted_fault {fault : HostFault} (hfault : h.counted.fault = some fault) :
    h.showing? = none ∧ h.tick = h.counted := by
  rw [tick_eq]
  refine ⟨?_, Attempt.andThen_of_fault hfault _⟩
  unfold showing?
  rw [hfault]

theorem reaches_tick (h : Host) : Reaches h h.tick.state h.flushes := by
  unfold flushes
  cases hfault : h.counted.fault with
  | some fault =>
      obtain ⟨hshowing, htick⟩ := tick_of_counted_fault hfault
      rw [hshowing, htick]
      exact h.stepped_counted.reaches (.refl _)
  | none =>
      obtain ⟨hshowing, hstate, htick⟩ := tick_of_counted hfault
      rw [hshowing, hstate, htick]
      rcases h.counted.state.reaches_due with ⟨hend, hdue⟩ | ⟨hend, -, hdue⟩ | ⟨hend, hdue⟩
      · rw [hend]
        exact h.stepped_counted.reaches hdue
      · rw [hend]
        exact h.stepped_counted.reaches hdue
      · rw [hend]
        exact h.stepped_counted.reaches hdue

theorem textOf_due (h : Host) : h.textOf [h.due] = h.frameText ++ h.bellText := by
  rw [← textOf_dueFrame_dueBell, ← textOf_dueFrame, ← textOf_dueBell]
  unfold textOf dueBell
  simp [Showing.transcript, Showing.text]

theorem write_due (hfault : (h.present.andThen ring).fault = none) :
    h.output.write (h.textOf [h.due]) = ((h.present.andThen ring).state.output, true) := by
  have hframe : (h.output.write h.frameText).2 = true := by
    by_contra hcut
    obtain ⟨painter, hpresent⟩ := present_of_cut (Bool.eq_false_iff.mpr hcut)
    rw [hpresent] at hfault
    cases hfault
  have hpresent := present_of_whole hframe
  have houtput : h.present.state.output = (h.output.write h.frameText).1 := by
    rw [hpresent]
    rfl
  obtain ⟨hstate, hring⟩ :=
    Attempt.andThen_of_succeeded (show h.present.fault = none by rw [hpresent]; rfl) ring
  have hbellText : h.present.state.bellText = h.bellText := by
    rw [← textOf_dueBell, ← textOf_dueBell, dueBell_present]
    rfl
  have hbell : (h.present.state.output.write h.bellText).2 = true := by
    rw [← hbellText]
    by_contra hcut
    obtain ⟨-, hend⟩ := ring_of_cut (Bool.eq_false_iff.mpr hcut)
    rw [hring, hend] at hfault
    cases hfault
  rw [textOf_due, Output.write_append_of_whole hframe, ← houtput, hstate,
    ring_of_whole (by rwa [hbellText]), hbellText]
  exact Prod.ext rfl hbell

/-- A tick that is completed has written all that it was to show. -/
theorem write_of_completed (hcompleted : h.tick.fault = none) :
    ∃ s, h.showing? = some s ∧ h.flushes = s.flushes ∧
      h.output.write (h.textOf [s]) = (h.tick.state.output, true) := by
  cases hcounted : h.counted.fault with
  | some fault =>
      rw [(tick_of_counted_fault hcounted).2, hcounted] at hcompleted
      cases hcompleted
  | none =>
      obtain ⟨hshowing, hstate, htick⟩ := tick_of_counted hcounted
      refine ⟨h.counted.state.due, hshowing, ?_, ?_⟩
      · simp only [flushes, hshowing, hcompleted]
      · have hwrite := write_due (htick.symm.trans hcompleted)
        obtain ⟨machine, -, hstepped⟩ := h.stepped_counted
        rw [hstate, ← hwrite, hstepped]
        rfl

theorem flushes_of_fault {fault : HostFault} (hfault : h.tick.fault = some fault)
    (hother : fault ≠ .bell) :
    h.flushes = 0 := by
  unfold flushes
  rw [hfault]
  split
  next hnone => cases hnone
  next hbell => exact absurd (Option.some.inj hbell) hother
  next => rfl

theorem flushes_of_bell (hbell : h.tick.fault = some .bell) :
    ∃ s, h.showing? = some s ∧ s.bell = true ∧ h.flushes = if s.hasFrame then 1 else 0 := by
  cases hcounted : h.counted.fault with
  | some fault =>
      obtain ⟨cause, rfl⟩ := exists_step_of_counted_fault hcounted
      rw [(tick_of_counted_fault hcounted).2, hcounted] at hbell
      cases hbell
  | none =>
      obtain ⟨hshowing, -, htick⟩ := tick_of_counted hcounted
      refine ⟨h.counted.state.due, hshowing, ?_, ?_⟩
      · rw [htick] at hbell
        rcases h.counted.state.reaches_due with ⟨hend, -⟩ | ⟨-, hdue, -⟩ | ⟨hend, -⟩
        · rw [hend] at hbell
          cases hbell
        · exact hdue
        · rw [hend] at hbell
          cases hbell
      · simp only [flushes, hshowing, hbell]

theorem flushes_le_two (h : Host) : h.flushes ≤ 2 := by
  have hshowing : ∀ s : Showing, s.flushes ≤ 2 := by
    intro s
    unfold Showing.flushes
    split <;> split <;> omega
  unfold flushes
  split
  next s _ _ => exact hshowing s
  next => split <;> omega
  next => omega

theorem Reaches.settles (hreaches : Reaches h after n) (hn : 0 < n) :
    h.console.Settles after.console := by
  obtain ⟨n, rfl⟩ := Nat.exists_eq_succ_of_ne_zero (Nat.ne_of_gt hn)
  have hkeys := hreaches.keys
  rw [Console.iterate_advance_succ] at hkeys
  exact hkeys.settles

/-! ## Paced ticks -/

theorem pacedTick_of_fault {fault : HostFault} (hfault : h.tick.fault = some fault) :
    h.pacedTick = h.tick :=
  Attempt.andThen_of_fault hfault _

theorem pacedTick_of_completed (hcompleted : h.tick.fault = none) :
    h.pacedTick.fault = none ∧
      h.pacedTick.state =
        h.tick.state.advance (h.settings.tickTime - h.flushTime * h.flushes) := by
  obtain ⟨hstate, hfault⟩ := Attempt.andThen_of_succeeded hcompleted
    fun after => .done (after.rest h.console.now) #[]
  refine ⟨hfault, hstate.trans ?_⟩
  have hreaches := h.reaches_tick
  change h.tick.state.rest h.console.now = _
  unfold rest
  rw [hreaches.settings, hreaches.now_eq, Nat.add_sub_cancel_left]

/-- The keys after a tick are as if the whole time of it had passed at once. -/
theorem sameKeys_pacedTick (hcompleted : h.tick.fault = none) :
    Console.SameKeys
      (h.console.advance (max h.settings.tickTime (h.flushTime * h.flushes)))
      h.pacedTick.state.console := by
  have hkeys := h.reaches_tick.keys.advance (h.settings.tickTime - h.flushTime * h.flushes)
  rw [Console.iterate_advance_advance] at hkeys
  have htotal : h.flushTime * h.flushes + (h.settings.tickTime - h.flushTime * h.flushes) =
      max h.settings.tickTime (h.flushTime * h.flushes) := by
    generalize h.flushTime * h.flushes = flushing
    omega
  rw [htotal] at hkeys
  rw [(pacedTick_of_completed hcompleted).2]
  exact hkeys

/-- A tick that took longer than its time is not followed by any sleep. -/
theorem pacedTick_of_overrun (hcompleted : h.tick.fault = none)
    (hover : h.settings.tickTime < h.flushTime * h.flushes) :
    h.pacedTick.state = h.tick.state := by
  have hsome : 0 < h.flushes := Nat.pos_of_mul_pos_left (Nat.lt_of_le_of_lt (Nat.zero_le _) hover)
  have hsettles := h.reaches_tick.settles hsome
  rw [(pacedTick_of_completed hcompleted).2, Nat.sub_eq_zero_of_le (Nat.le_of_lt hover)]
  unfold advance
  rw [Console.advance_zero hsettles.lt_time]

theorem pacedTick_keeps (h : Host) :
    h.pacedTick.state.settings = h.settings ∧ h.pacedTick.state.flushTime = h.flushTime := by
  have hreaches := h.reaches_tick
  cases hfault : h.tick.fault with
  | some fault =>
      rw [pacedTick_of_fault hfault]
      exact ⟨hreaches.settings, hreaches.flushTime⟩
  | none =>
      rw [(pacedTick_of_completed hfault).2]
      exact ⟨hreaches.settings, hreaches.flushTime⟩

/-! ## Rows of ticks -/

/-- A row of ticks, up to the first that is stopped. -/
def ticks (h : Host) (n : Nat) : Attempt Host HostFault :=
  Attempt.repeatedly pacedTick n (.done h #[])

theorem now_ticks (h : Host) (n : Nat) :
    (h.ticks n).state.console.now = h.console.now + h.elapsed n := by
  induction n generalizing h with
  | zero => rfl
  | succ n ih =>
      unfold ticks at ih ⊢
      rw [Attempt.repeatedly_succ_done, elapsed]
      cases hfault : h.tick.fault with
      | some fault =>
          rw [pacedTick_of_fault hfault, Attempt.andThen_of_fault hfault]
          exact h.reaches_tick.now_eq
      | none =>
          rw [(Attempt.andThen_of_succeeded (pacedTick_of_completed hfault).1 _).1, ih,
            (sameKeys_pacedTick hfault).now]
          exact Nat.add_assoc _ _ _

theorem ticks_succ (hcompleted : (h.ticks (n + 1)).fault = none) :
    h.tick.fault = none ∧ (h.pacedTick.state.ticks n).fault = none ∧
      (h.ticks (n + 1)).state = (h.pacedTick.state.ticks n).state := by
  unfold ticks at hcompleted ⊢
  rw [Attempt.repeatedly_succ_done] at hcompleted ⊢
  cases hfault : h.tick.fault with
  | some fault =>
      rw [pacedTick_of_fault hfault, Attempt.andThen_of_fault hfault, hfault] at hcompleted
      cases hcompleted
  | none =>
      obtain ⟨hstate, hrest⟩ := Attempt.andThen_of_succeeded (pacedTick_of_completed hfault).1
        fun after => Attempt.repeatedly pacedTick n (.done after #[])
      exact ⟨rfl, hrest.symm.trans hcompleted, hstate⟩

theorem elapsed_succ (hcompleted : h.tick.fault = none) (n : Nat) :
    h.elapsed (n + 1) =
      max h.settings.tickTime (h.flushTime * h.flushes) + h.pacedTick.state.elapsed n := by
  rw [elapsed, hcompleted]

theorem sameKeys_ticks (hcompleted : (h.ticks (n + 1)).fault = none) :
    Console.SameKeys (h.console.advance (h.elapsed (n + 1))) (h.ticks (n + 1)).state.console := by
  induction n generalizing h with
  | zero =>
      obtain ⟨hfirst, -, hstate⟩ := ticks_succ hcompleted
      rw [hstate, elapsed_succ hfirst]
      exact sameKeys_pacedTick hfirst
  | succ n ih =>
      obtain ⟨hfirst, hrest, hstate⟩ := ticks_succ hcompleted
      have hkeys := (sameKeys_pacedTick hfirst).advance (h.pacedTick.state.elapsed (n + 1))
      rw [Console.advance_advance, ← elapsed_succ hfirst] at hkeys
      rw [hstate]
      exact hkeys.trans (ih hrest)

/-- Ticks that have time for two flushes take their time exactly. -/
theorem elapsed_eq_mul (htime : 2 * h.flushTime ≤ h.settings.tickTime)
    (hcompleted : (h.ticks n).fault = none) :
    h.elapsed n = n * h.settings.tickTime := by
  induction n generalizing h with
  | zero => rw [Nat.zero_mul]; rfl
  | succ n ih =>
      obtain ⟨hfirst, hrest, -⟩ := ticks_succ hcompleted
      obtain ⟨hsettings, hflush⟩ := h.pacedTick_keeps
      have hlater := ih (by rwa [hsettings, hflush]) hrest
      have hflushes : h.flushTime * h.flushes ≤ h.settings.tickTime := by
        calc h.flushTime * h.flushes
            ≤ h.flushTime * 2 := Nat.mul_le_mul_left _ h.flushes_le_two
          _ = 2 * h.flushTime := Nat.mul_comm _ _
          _ ≤ h.settings.tickTime := htime
      rw [elapsed_succ hfirst, Nat.max_eq_left hflushes, hlater, hsettings, Nat.succ_mul,
        Nat.add_comm]

/-- A run is a row of ticks as long as its bound, and then goes on if it has no limit. -/
theorem run_eq_ticks (h : Host) :
    h.run.state = (h.ticks h.settings.tickBound).state ∧
      h.run.fault = (h.ticks h.settings.tickBound).fault.or
        (if h.settings.maxTicks.isNone then some .unfinished else none) := by
  unfold run ticks
  generalize Attempt.repeatedly pacedTick h.settings.tickBound (.done h #[]) = a
  cases hfault : a.fault with
  | some fault =>
      rw [Attempt.andThen_of_fault hfault]
      exact ⟨rfl, hfault⟩
  | none =>
      obtain ⟨hstate, hend⟩ := Attempt.andThen_of_succeeded hfault (finish · h.settings.maxTicks)
      rw [hstate, hend, finish_state, finish_fault]
      exact ⟨rfl, rfl⟩

/-- A tick that is completed moves the clock by its time, or by the flushes of what it has shown if
they took longer, and then it does not sleep.  A tick that is stopped moves it by the flushes that
it has reached: none before a step or a frame that failed, and that of the frame before a bell that
failed.  A row of ticks moves the clock by the sum, and in that time the taps that come due let
their keys go.  A run is such a row, and without a limit it only ends at a fault. -/
theorem ticks_are_paced (h : Host) :
    (h.tick.fault = none →
        (∃ s, h.showing? = some s ∧ h.flushes = s.flushes ∧
          h.output.write (h.textOf [s]) = (h.tick.state.output, true)) ∧
        h.pacedTick.fault = none ∧
        h.pacedTick.state.console.now =
          h.console.now + max h.settings.tickTime (h.flushTime * h.flushes) ∧
        (h.settings.tickTime < h.flushTime * h.flushes → h.pacedTick.state = h.tick.state)) ∧
      (∀ fault, h.tick.fault = some fault →
        h.pacedTick.fault = some fault ∧ h.pacedTick.state = h.tick.state ∧
          (fault ≠ .bell → h.tick.state.console.now = h.console.now) ∧
          (fault = .bell → ∃ s, h.showing? = some s ∧ s.bell = true ∧
            h.tick.state.console.now = h.console.now + if s.hasFrame then h.flushTime else 0)) ∧
      (∀ n, (h.ticks n).state.console.now = h.console.now + h.elapsed n ∧
        ((h.ticks n).fault = none →
          (0 < n → h.console.Settles (h.ticks n).state.console) ∧
          (2 * h.flushTime ≤ h.settings.tickTime →
            (h.ticks n).state.console.now = h.console.now + n * h.settings.tickTime))) ∧
      h.run.state = (h.ticks h.settings.tickBound).state ∧
      h.run.fault = (h.ticks h.settings.tickBound).fault.or
        (if h.settings.maxTicks.isNone then some .unfinished else none) := by
  refine ⟨?_, ?_, ?_, h.run_eq_ticks⟩
  · intro hcompleted
    exact ⟨write_of_completed hcompleted, (pacedTick_of_completed hcompleted).1,
      (sameKeys_pacedTick hcompleted).now, pacedTick_of_overrun hcompleted⟩
  · intro fault hfault
    have hnow := h.reaches_tick.now_eq
    rw [pacedTick_of_fault hfault]
    refine ⟨hfault, rfl, ?_, ?_⟩
    · intro hother
      rw [hnow, flushes_of_fault hfault hother]
      rfl
    · rintro rfl
      obtain ⟨s, hshowing, hbell, hflushes⟩ := flushes_of_bell hfault
      refine ⟨s, hshowing, hbell, ?_⟩
      rw [hnow, hflushes]
      split
      · rw [Nat.mul_one]
      · rw [Nat.mul_zero]
  · intro n
    refine ⟨h.now_ticks n, ?_⟩
    intro hcompleted
    constructor
    · intro hsome
      obtain ⟨n, rfl⟩ := Nat.exists_eq_succ_of_ne_zero (Nat.ne_of_gt hsome)
      exact (sameKeys_ticks hcompleted).settles
    · intro htime
      rw [h.now_ticks, elapsed_eq_mul htime hcompleted]

/-- A host that draws a frame in every tick of five nanoseconds. -/
def drawing (flushTime : Nat) : Host :=
  .new ((Console.new .standard .perStep []).load #[0xD0, 0x05, 0x12, 0x00]).state
    ⟨5, 2, .perStep, some 3, true⟩ (.new none) flushTime

theorem ticks_are_paced_drawing :
    (drawing 9).pacedTick.state.console.now = 9 ∧
      (drawing 9).pacedTick.state = (drawing 9).tick.state ∧
      ((drawing 2).ticks 3).state.console.now = 15 ∧
      (((drawing 2).onto (some 100)).tick.state.console.now = 0) := by
  have hslow : (drawing 9).tick.fault = none ∧ (drawing 9).flushes = 1 := by decide +kernel
  have hquick : ((drawing 2).ticks 3).fault = none := by decide +kernel
  have hfull : ((drawing 2).onto (some 100)).tick.fault = some .frame := by decide +kernel
  obtain ⟨hcompleted, hflushes⟩ := hslow
  obtain ⟨-, -, hnow, hover⟩ := (ticks_are_paced (drawing 9)).1 hcompleted
  rw [hflushes] at hnow hover
  refine ⟨hnow, hover (by decide), ?_, ?_⟩
  · exact (((ticks_are_paced (drawing 2)).2.2.1 3).2 hquick).2 (by decide)
  · exact ((ticks_are_paced ((drawing 2).onto (some 100))).2.1 _ hfull).2.2.1 (by decide)

end Host

end ChipEight
