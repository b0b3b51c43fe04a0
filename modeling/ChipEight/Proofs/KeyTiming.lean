import ChipEight.Console.KeyEvent

/-!
# Keys under timed commands

Whether a key is down depends on the last command that was given for it and on nothing else.  Many
promises to let it go may be pending at once.  The count of presses tells them apart: a promise acts
only if it carries the count of today, and that one was made by the last press there was.
-/

namespace ChipEight

namespace KeyEvent

def last? (code : UInt8) (given : List (Nat × KeyCommand)) : Option (Nat × KeyAction) :=
  (given.filter (·.2.code == code)).getLast?.map fun (time, command) => (time, command.action)

def pressCount (code : UInt8) (given : List (Nat × KeyCommand)) : Nat :=
  given.countP fun (_, command) => command.code == code && command.action != .release

def holds (now : Nat) : Option (Nat × KeyAction) → Bool
  | some (_, .press) => true
  | some (time, .tap) => now < time + Keyboard.tapTime
  | _ => false

theorem holds_iff {now : Nat} {last : Option (Nat × KeyAction)} :
    holds now last = true ↔
      (∃ time, last = some (time, .press)) ∨
        ∃ time, last = some (time, .tap) ∧ now < time + Keyboard.tapTime := by
  rcases last with - | ⟨time, action⟩
  · simp [holds]
  · cases action <;> simp [holds]

theorem last?_concat_of_eq {code : UInt8} {command : KeyCommand} (hcode : command.code = code)
    (given : List (Nat × KeyCommand)) (now : Nat) :
    last? code (given ++ [(now, command)]) = some (now, command.action) := by
  simp [last?, hcode]

theorem last?_concat_of_ne {code : UInt8} {command : KeyCommand} (hcode : command.code ≠ code)
    (given : List (Nat × KeyCommand)) (now : Nat) :
    last? code (given ++ [(now, command)]) = last? code given := by
  simp [last?, hcode]

theorem pressCount_concat (code : UInt8) (given : List (Nat × KeyCommand)) (now : Nat)
    (command : KeyCommand) :
    pressCount code (given ++ [(now, command)]) =
      pressCount code given +
        if command.code = code ∧ command.action ≠ .release then 1 else 0 := by
  simp [pressCount, List.countP_append, List.countP_singleton]

theorem pressCount_le_append (code : UInt8) (given later : List (Nat × KeyCommand)) :
    pressCount code given ≤ pressCount code (given ++ later) := by
  unfold pressCount
  rw [List.countP_append]
  exact Nat.le_add_right _ _

def concerns (code : UInt8) : KeyEvent → Bool
  | .wait _ => true
  | .give command => command.code == code

theorem issued_filter_concerns (code : UInt8) (now : Nat) (events : List KeyEvent) :
    issued now (events.filter (concerns code)) =
      (issued now events).filter (·.2.code == code) := by
  induction events generalizing now with
  | nil => rfl
  | cons event rest ih =>
      cases event with
      | wait elapsed => exact ih (now + elapsed)
      | give command =>
          by_cases hcode : command.code = code
          · simp [concerns, issued, hcode, ih]
          · simp [concerns, issued, hcode, ih]

theorem duration_filter_concerns (code : UInt8) (events : List KeyEvent) :
    duration (events.filter (concerns code)) = duration events := by
  induction events with
  | nil => rfl
  | cons event rest ih =>
      cases event with
      | wait elapsed => exact congrArg (elapsed + ·) ih
      | give command =>
          by_cases hcode : command.code = code
          · simp [concerns, duration, hcode, ih]
          · simp [concerns, duration, hcode, ih, elapsed]

theorem last?_filter (code : UInt8) (given : List (Nat × KeyCommand)) :
    last? code (given.filter (·.2.code == code)) = last? code given := by
  simp [last?, List.filter_filter]

theorem pressCount_filter_le (code : UInt8) (given : List (Nat × KeyCommand)) :
    pressCount code (given.filter (·.2.code == code)) ≤ pressCount code given :=
  List.filter_sublist.countP_le

end KeyEvent

namespace Keyboard

theorem presses?_countPress (k : Keyboard) (code other : UInt8) :
    (k.countPress code).presses? other =
      if other = code then (k.presses? other).map (· + 1) else k.presses? other := by
  by_cases hsame : other = code
  · subst hsame
    rw [if_pos rfl]
    unfold countPress
    cases hpresses : k.presses? other with
    | none => exact hpresses
    | some count =>
        have hplace : other.toNat < Keypad.keyCount := by
          unfold presses? at hpresses
          exact (Vector.getElem?_eq_some_iff.mp hpresses).1
        exact Vector.getElem?_setIfInBounds_self_of_lt hplace
  · rw [if_neg hsame]
    unfold countPress
    split
    next => rfl
    next =>
      have hplace : code.toNat ≠ other.toNat := by
        intro hcode
        exact hsame (UInt8.toNat_inj.mp hcode.symm)
      exact Vector.getElem?_setIfInBounds_ne hplace

theorem pending_countPress (k : Keyboard) (code : UInt8) :
    (k.countPress code).pending = k.pending := by
  unfold countPress
  split <;> rfl

theorem presses?_promise (k : Keyboard) (now : Nat) (code other : UInt8) :
    (k.promise now code).presses? other = k.presses? other := by
  unfold promise
  split <;> rfl

theorem mem_pending_promise {k : Keyboard} {now : Nat} {code : UInt8} {r : Release}
    (hmem : r ∈ (k.promise now code).pending) :
    r ∈ k.pending ∨ k.presses? code = some r.press ∧ r.code = code ∧ r.time = now + tapTime := by
  unfold promise at hmem
  split at hmem
  next => exact Or.inl hmem
  next press hpress =>
    rcases List.mem_append.mp hmem with hold | hnew
    · exact Or.inl hold
    · cases List.mem_singleton.mp hnew
      exact Or.inr ⟨hpress, rfl, rfl⟩

theorem promise_mem_pending {k : Keyboard} {code : UInt8} {press : UInt32}
    (hpress : k.presses? code = some press) (now : Nat) :
    ⟨code, press, now + tapTime⟩ ∈ (k.promise now code).pending := by
  unfold promise
  rw [hpress]
  exact List.mem_append_right _ List.mem_cons_self

theorem isDown_foldl_release {code : UInt8} (hcode : code.toNat < Keypad.keyCount)
    (keypad : Keypad) (releases : List Release) :
    (releases.foldl (fun keypad r => keypad.set r.code false) keypad).isDown code = true ↔
      keypad.isDown code = true ∧ ∀ r ∈ releases, r.code ≠ code := by
  induction releases generalizing keypad with
  | nil => simp
  | cons r rest ih =>
      rw [List.foldl_cons, ih, Keypad.isDown_set, List.forall_mem_cons]
      by_cases hsame : r.code = code
      · rw [if_pos ⟨hsame.symm, by rw [hsame]; exact hcode⟩]
        exact ⟨fun h => absurd h.1 Bool.false_ne_true, fun h => absurd hsame h.2.1⟩
      · rw [if_neg fun h => hsame h.1.symm]
        exact ⟨fun h => ⟨h.1, hsame, h.2⟩, fun h => ⟨h.1, h.2.2⟩⟩

theorem isDown_settle {code : UInt8} (hcode : code.toNat < Keypad.keyCount) (k : Keyboard)
    (keypad : Keypad) (now : Nat) :
    (k.settle keypad now).2.isDown code = true ↔
      keypad.isDown code = true ∧
        ∀ r ∈ k.pending, r.time ≤ now → k.stands r = true → r.code ≠ code := by
  unfold settle
  rw [List.partition_eq_filter_filter]
  refine (isDown_foldl_release hcode keypad _).trans ?_
  simp only [List.mem_filter, decide_eq_true_eq, and_imp]

theorem mem_pending_settle (k : Keyboard) (keypad : Keypad) (now : Nat) (r : Release) :
    r ∈ (k.settle keypad now).1.pending ↔ r ∈ k.pending ∧ now < r.time := by
  unfold settle
  rw [List.partition_eq_filter_filter]
  simp

/-! ## Single commands -/

theorem presses?_apply (k : Keyboard) (keypad : Keypad) (now : Nat) (command : KeyCommand)
    (code : UInt8) :
    (k.apply keypad now command).1.presses? code =
      if code = command.code ∧ command.action ≠ .release then (k.presses? code).map (· + 1)
      else k.presses? code := by
  obtain ⟨action, pressed⟩ := command
  cases action with
  | press => simpa [apply] using presses?_countPress k pressed code
  | release => simp [apply]
  | tap => simpa [apply, presses?_promise] using presses?_countPress k pressed code

theorem isDown_apply (k : Keyboard) (keypad : Keypad) (now : Nat) (command : KeyCommand)
    {code : UInt8} (hcode : code.toNat < Keypad.keyCount) :
    (k.apply keypad now command).2.isDown code =
      if code = command.code then command.action != .release else keypad.isDown code := by
  obtain ⟨action, pressed⟩ := command
  have hset (down : Bool) : (keypad.set pressed down).isDown code =
      if code = pressed then down else keypad.isDown code := by
    rw [Keypad.isDown_set]
    by_cases hsame : code = pressed
    · rw [if_pos ⟨hsame, by rw [← hsame]; exact hcode⟩, if_pos hsame]
    · rw [if_neg fun h => hsame h.1, if_neg hsame]
  cases action with
  | press => exact hset true
  | release => exact hset false
  | tap => exact hset true

theorem mem_pending_apply {k : Keyboard} {keypad : Keypad} {now : Nat} {command : KeyCommand}
    {r : Release} (hmem : r ∈ (k.apply keypad now command).1.pending) :
    r ∈ k.pending ∨ command.action = .tap ∧ r.code = command.code ∧
      (k.apply keypad now command).1.presses? r.code = some r.press ∧ r.time = now + tapTime := by
  obtain ⟨action, code⟩ := command
  cases action with
  | press => exact Or.inl (by rwa [← pending_countPress k code])
  | release => exact Or.inl hmem
  | tap =>
      rcases mem_pending_promise hmem with hold | ⟨hpress, hcode, htime⟩
      · exact Or.inl (by rwa [← pending_countPress k code])
      · refine Or.inr ⟨rfl, hcode, ?_, htime⟩
        rw [hcode]
        exact (presses?_promise _ now code code).trans hpress

theorem pending_subset_apply (k : Keyboard) (keypad : Keypad) (now : Nat) (command : KeyCommand) :
    k.pending ⊆ (k.apply keypad now command).1.pending := by
  obtain ⟨action, code⟩ := command
  intro r hmem
  rw [← pending_countPress k code] at hmem
  cases action with
  | press => exact hmem
  | release => rwa [pending_countPress] at hmem
  | tap =>
      change r ∈ ((k.countPress code).promise now code).pending
      unfold promise
      split
      next => exact hmem
      next => exact List.mem_append_left _ hmem

theorem promise_mem_apply (k : Keyboard) (keypad : Keypad) (now : Nat) {code : UInt8}
    {press : UInt32} (hpress : (k.apply keypad now ⟨.tap, code⟩).1.presses? code = some press) :
    ⟨code, press, now + tapTime⟩ ∈ (k.apply keypad now ⟨.tap, code⟩).1.pending := by
  change ((k.countPress code).promise now code).presses? code = some press at hpress
  rw [presses?_promise] at hpress
  exact promise_mem_pending hpress now

theorem stands_iff {k : Keyboard} {r : Release} {n : Nat} (hn : n < 4294967296)
    (hpresses : k.presses? r.code = some (UInt32.ofNat n)) :
    k.stands r = true ↔ r.press.toNat = n := by
  unfold stands
  rw [hpresses, beq_iff_eq, Option.some.injEq, ← UInt32.toNat_inj,
    UInt32.toNat_ofNat_of_lt' hn]
  exact eq_comm

end Keyboard

namespace Console

open KeyEvent

/-- What a console knows of a key and of the commands that were given for it.  No promise carries a
count above that of the presses so far, and one that carries this very count was made by the last
press, which no other press followed. -/
structure Tracks (c : Console) (code : UInt8) (given : List (Nat × KeyCommand)) : Prop where
  presses : c.keyboard.presses? code = some (UInt32.ofNat (pressCount code given))
  press_le : ∀ r ∈ c.keyboard.pending, r.code = code → r.press.toNat ≤ pressCount code given
  due : ∀ r ∈ c.keyboard.pending, r.code = code → r.press.toNat = pressCount code given →
    ∃ time action, last? code given = some (time, action) ∧ action ≠ .press ∧
      (action = .tap → r.time = time + Keyboard.tapTime)
  promised : ∀ time, last? code given = some (time, .tap) → c.now < time + Keyboard.tapTime →
    ∃ r ∈ c.keyboard.pending, r.code = code ∧ r.press.toNat = pressCount code given ∧
      r.time = time + Keyboard.tapTime
  down : c.machine.keypad.isDown code = holds c.now (last? code given)

variable {c : Console} {code : UInt8} {given : List (Nat × KeyCommand)}

theorem Tracks.advance (htracks : c.Tracks code given) (hcode : code.toNat < Keypad.keyCount)
    (hcount : pressCount code given < 4294967296) (elapsed : Nat) :
    (c.advance elapsed).Tracks code given := by
  have hpending (r : Release) : r ∈ (c.advance elapsed).keyboard.pending ↔
      r ∈ c.keyboard.pending ∧ c.now + elapsed < r.time :=
    Keyboard.mem_pending_settle c.keyboard c.machine.keypad (c.now + elapsed) r
  have hstands {r : Release} (hr : r.code = code) :
      c.keyboard.stands r = true ↔ r.press.toNat = pressCount code given :=
    Keyboard.stands_iff hcount (by rw [hr]; exact htracks.presses)
  constructor
  case presses => exact htracks.presses
  case press_le =>
    intro r hmem
    exact htracks.press_le r ((hpending r).mp hmem).1
  case due =>
    intro r hmem
    exact htracks.due r ((hpending r).mp hmem).1
  case promised =>
    intro time hlast hbefore
    have hbefore' : c.now + elapsed < time + Keyboard.tapTime := hbefore
    obtain ⟨r, hmem, hr, hpress, htime⟩ := htracks.promised time hlast (by omega)
    exact ⟨r, (hpending r).mpr ⟨hmem, by omega⟩, hr, hpress, htime⟩
  case down =>
    rw [Bool.eq_iff_iff]
    refine (Keyboard.isDown_settle hcode c.keyboard c.machine.keypad (c.now + elapsed)).trans ?_
    rw [htracks.down]
    constructor
    · rintro ⟨hheld, hspared⟩
      rcases holds_iff.mp hheld with ⟨time, hlast⟩ | ⟨time, hlast, hbefore⟩
      · exact holds_iff.mpr (Or.inl ⟨time, hlast⟩)
      · obtain ⟨r, hmem, hr, hpress, htime⟩ := htracks.promised time hlast hbefore
        -- Were the time of the tap over, its promise would have let the key go.
        refine holds_iff.mpr (Or.inr ⟨time, hlast, ?_⟩)
        rw [← htime]
        refine Nat.lt_of_not_le fun hcome => ?_
        exact hspared r hmem hcome ((hstands hr).mpr hpress) hr
    · intro hheld
      rcases holds_iff.mp hheld with ⟨time, hlast⟩ | ⟨time, hlast, hbefore⟩
      · refine ⟨holds_iff.mpr (Or.inl ⟨time, hlast⟩), ?_⟩
        intro r hmem _ hstand hr
        obtain ⟨_, _, hlast', haction, -⟩ := htracks.due r hmem hr ((hstands hr).mp hstand)
        rw [hlast] at hlast'
        cases hlast'
        exact haction rfl
      · have hbefore' : c.now + elapsed < time + Keyboard.tapTime := hbefore
        refine ⟨holds_iff.mpr (Or.inr ⟨time, hlast, by omega⟩), ?_⟩
        intro r hmem hcome hstand hr
        obtain ⟨_, _, hlast', -, htime⟩ := htracks.due r hmem hr ((hstands hr).mp hstand)
        rw [hlast] at hlast'
        cases hlast'
        have := htime rfl
        omega

theorem Tracks.give_other (htracks : c.Tracks code given) (hcode : code.toNat < Keypad.keyCount)
    {command : KeyCommand} (hother : command.code ≠ code) :
    (c.command [command]).Tracks code (given ++ [(c.now, command)]) := by
  have hlast := last?_concat_of_ne hother given c.now
  have hcount : pressCount code (given ++ [(c.now, command)]) = pressCount code given := by
    rw [pressCount_concat, if_neg fun h => hother h.1]
    rfl
  have hold {r : Release} (hr : r.code = code) (hmem : r ∈ (c.command [command]).keyboard.pending) :
      r ∈ c.keyboard.pending := by
    rcases Keyboard.mem_pending_apply hmem with hold | ⟨-, hnew, -, -⟩
    · exact hold
    · exact absurd (hnew.symm.trans hr) hother
  constructor
  case presses =>
    rw [hcount, ← htracks.presses]
    exact (Keyboard.presses?_apply ..).trans (if_neg fun h => hother h.1.symm)
  case press_le =>
    intro r hmem hr
    rw [hcount]
    exact htracks.press_le r (hold hr hmem) hr
  case due =>
    intro r hmem hr hpress
    rw [hcount] at hpress
    rw [hlast]
    exact htracks.due r (hold hr hmem) hr hpress
  case promised =>
    intro time htap hbefore
    rw [hlast] at htap
    obtain ⟨r, hmem, hr, hpress, htime⟩ := htracks.promised time htap hbefore
    exact ⟨r, Keyboard.pending_subset_apply _ _ _ _ hmem, hr, hcount ▸ hpress, htime⟩
  case down =>
    refine (Keyboard.isDown_apply _ _ _ command hcode).trans ?_
    rw [if_neg (Ne.symm hother), hlast]
    exact htracks.down

theorem Tracks.give_same (htracks : c.Tracks code given) (hcode : code.toNat < Keypad.keyCount)
    {command : KeyCommand} (hsame : command.code = code)
    (hcount : pressCount code (given ++ [(c.now, command)]) < 4294967296) :
    (c.command [command]).Tracks code (given ++ [(c.now, command)]) := by
  have hlast := last?_concat_of_eq hsame given c.now
  have hpressed : pressCount code (given ++ [(c.now, command)]) =
      pressCount code given + if command.action ≠ .release then 1 else 0 := by
    rw [pressCount_concat]
    simp only [hsame, true_and]
  have hpresses : (c.command [command]).keyboard.presses? code =
      some (UInt32.ofNat (pressCount code (given ++ [(c.now, command)]))) := by
    refine (Keyboard.presses?_apply ..).trans ?_
    rw [hpressed, htracks.presses]
    by_cases hrelease : command.action = .release
    · rw [if_neg fun h => h.2 hrelease, if_neg fun h => h hrelease]
      rfl
    · rw [if_pos ⟨hsame.symm, hrelease⟩, if_pos hrelease, Option.map_some, UInt32.ofNat_add]
      rfl
  constructor
  case presses => exact hpresses
  case press_le =>
    intro r hmem hr
    rcases Keyboard.mem_pending_apply hmem with hold | ⟨-, -, hnew, -⟩
    · have hle := htracks.press_le r hold hr
      rw [hpressed]
      omega
    · rw [hr] at hnew
      rw [Option.some.inj (hnew.symm.trans hpresses)]
      exact Nat.le_of_eq (UInt32.toNat_ofNat_of_lt' hcount)
  case due =>
    intro r hmem hr hpress
    refine ⟨c.now, command.action, hlast, ?_⟩
    rcases Keyboard.mem_pending_apply hmem with hold | ⟨htap, -, -, htime⟩
    · have hle := htracks.press_le r hold hr
      -- A press takes a count that no older promise has, so this command was none.
      have hrelease : command.action = .release := by
        refine Decidable.byContradiction fun hrelease => ?_
        rw [hpress, hpressed, if_pos hrelease] at hle
        omega
      rw [hrelease]
      exact ⟨nofun, nofun⟩
    · rw [htap]
      exact ⟨nofun, fun _ => htime⟩
  case promised =>
    intro time htap _
    obtain ⟨action, _⟩ := command
    rw [hlast] at htap
    cases htap
    cases hsame
    have hmem := Keyboard.promise_mem_apply c.keyboard c.machine.keypad c.now hpresses
    exact ⟨_, hmem, rfl, UInt32.toNat_ofNat_of_lt' hcount, rfl⟩
  case down =>
    refine (Keyboard.isDown_apply _ _ _ command hcode).trans ?_
    rw [if_pos hsame.symm, hlast]
    cases command.action with
    | press => rfl
    | release => rfl
    | tap => exact (decide_eq_true (Nat.lt_add_of_pos_right (by decide))).symm

theorem Tracks.afterKeys (htracks : c.Tracks code given) (hcode : code.toNat < Keypad.keyCount)
    {events : List KeyEvent}
    (hcount : pressCount code (given ++ KeyEvent.issued c.now events) < 4294967296) :
    (c.afterKeys events).Tracks code (given ++ KeyEvent.issued c.now events) := by
  induction events generalizing c given with
  | nil =>
      rw [KeyEvent.issued, List.append_nil]
      exact htracks
  | cons event rest ih =>
      cases event with
      | wait elapsed =>
          have hsofar := pressCount_le_append code given (KeyEvent.issued (c.now + elapsed) rest)
          exact ih (htracks.advance hcode (Nat.lt_of_le_of_lt hsofar hcount) elapsed) hcount
      | give command =>
          have hsplit : given ++ KeyEvent.issued c.now (.give command :: rest) =
              (given ++ [(c.now, command)]) ++ KeyEvent.issued c.now rest := by
            rw [List.append_assoc]
            rfl
          rw [hsplit] at hcount ⊢
          have hsofar := pressCount_le_append code (given ++ [(c.now, command)])
            (KeyEvent.issued c.now rest)
          have hnext : (c.command [command]).Tracks code (given ++ [(c.now, command)]) := by
            by_cases hsame : command.code = code
            · exact htracks.give_same hcode hsame (Nat.lt_of_le_of_lt hsofar hcount)
            · exact htracks.give_other hcode hsame
          exact ih hnext hcount

theorem now_afterKeys (c : Console) (events : List KeyEvent) :
    (c.afterKeys events).now = c.now + duration events := by
  induction events generalizing c with
  | nil => rfl
  | cons event rest ih =>
      refine (ih (c.meet event)).trans ?_
      rw [duration, ← Nat.add_assoc]
      cases event with
      | wait elapsed => rfl
      | give command => rfl

theorem command_of_no_key (c : Console) {code : UInt8} (hcode : Keypad.keyCount ≤ code.toNat)
    (action : KeyAction) :
    c.command [⟨action, code⟩] = c := by
  have hpresses : c.keyboard.presses? code = none := by
    unfold Keyboard.presses?
    exact Vector.getElem?_eq_none hcode
  have hcount : c.keyboard.countPress code = c.keyboard := by
    unfold Keyboard.countPress
    rw [hpresses]
  have hset (down : Bool) : c.machine.keypad.set code down = c.machine.keypad := by
    unfold Keypad.set
    rw [Vector.setIfInBounds_eq_of_size_le hcode]
  have hpromise : c.keyboard.promise c.now code = c.keyboard := by
    unfold Keyboard.promise
    rw [hpresses]
  cases action <;>
    simp [command, Keyboard.applyAll, Keyboard.apply, hcount, hset, hpromise]

def untouched (m : Machine) (start : Nat) : Console :=
  ⟨{ m with keypad := .released }, .idle, start⟩

theorem tracks_untouched (m : Machine) (start : Nat) {code : UInt8}
    (hcode : code.toNat < Keypad.keyCount) :
    (untouched m start).Tracks code [] := by
  constructor
  case presses => exact Vector.getElem?_replicate_of_lt hcode
  case press_le => exact nofun
  case due => exact nofun
  case promised => exact nofun
  case down =>
    change (Vector.replicate Keypad.keyCount false)[code.toNat]?.getD false = false
    rw [Vector.getElem?_replicate_of_lt hcode]
    rfl

/-- A key is down if and only if its last command was a press, or a tap whose time has not passed.
The commands for other keys do not matter, and a command for no key does nothing. -/
theorem isDown_afterKeys_iff (m : Machine) (start : Nat) (events : List KeyEvent) (code : UInt8) :
    (code.toNat < Keypad.keyCount → pressCount code (issued start events) < 4294967296 →
      (((untouched m start).afterKeys events).machine.keypad.isDown code = true ↔
        (∃ time, last? code (issued start events) = some (time, .press)) ∨
          ∃ time, last? code (issued start events) = some (time, .tap) ∧
            start + duration events < time + Keyboard.tapTime) ∧
      ((untouched m start).afterKeys events).machine.keypad.isDown code =
        ((untouched m start).afterKeys
          (events.filter (concerns code))).machine.keypad.isDown code) ∧
    (Keypad.keyCount ≤ code.toNat →
      ∀ (c : Console) (action : KeyAction), c.command [⟨action, code⟩] = c) := by
  refine ⟨?_, fun hcode c action => c.command_of_no_key hcode action⟩
  intro hcode hcount
  have hownCount : pressCount code (issued start (events.filter (concerns code))) <
      4294967296 := by
    rw [issued_filter_concerns]
    exact Nat.lt_of_le_of_lt (pressCount_filter_le code _) hcount
  have htracks := (tracks_untouched m start hcode).afterKeys hcode hcount
  have hown := (tracks_untouched m start hcode).afterKeys hcode hownCount
  have hdown := htracks.down
  have hownDown := hown.down
  rw [List.nil_append, now_afterKeys] at hdown
  rw [List.nil_append, issued_filter_concerns, last?_filter, now_afterKeys,
    duration_filter_concerns] at hownDown
  refine ⟨?_, hdown.trans hownDown.symm⟩
  rw [hdown]
  exact holds_iff

/-- A tap whose promise comes when the key was let go and pressed again. -/
def pressedAgain : List KeyEvent :=
  [.give ⟨.tap, 5⟩, .wait 100000000, .give ⟨.release, 5⟩, .give ⟨.press, 5⟩, .wait 200000000]

theorem isDown_afterKeys_iff_pressedAgain :
    pressCount 5 (issued 0 pressedAgain) = 2 ∧
      ((untouched (.new .standard .perStep [] 0) 0).afterKeys
        pressedAgain).machine.keypad.isDown 5 = true := by
  have hcount : pressCount 5 (issued 0 pressedAgain) = 2 := by decide
  have hlast : last? 5 (issued 0 pressedAgain) = some (100000000, .press) := by decide
  obtain ⟨hdown, -⟩ := (isDown_afterKeys_iff (.new .standard .perStep [] 0) 0 pressedAgain 5).1
    (by decide) (by rw [hcount]; decide)
  exact ⟨hcount, hdown.mpr (Or.inl ⟨_, hlast⟩)⟩

end Console

end ChipEight
