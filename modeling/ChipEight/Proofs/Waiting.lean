import ChipEight.Proofs.Countdown
import ChipEight.Proofs.KeyOrder
import Mathlib.Data.Finset.Max
import Mathlib.Data.Fintype.Basic

/-!
# Waiting for a key

A machine whose next instruction waits for a key stays on it for as long as no key is down.  Its
timers go on like those of any other machine, and nothing else moves.  The keys that are down are
those whose last event was a press, whatever else happened to them, and as soon as there are some
the instruction takes the highest and the machine goes on.
-/

namespace ChipEight

abbrev Key := Fin Keypad.keyCount

def Key.code (key : Key) : UInt8 :=
  UInt8.ofNat key.val

/-- What the owner of a keypad does to it. -/
inductive KeypadEvent where
  | set (code : UInt8) (pressed : Bool)
  | reset
  deriving DecidableEq

namespace KeypadEvent

def concerns (key : Key) : KeypadEvent → Bool
  | .set code _ => code == key.code
  | .reset => true

def last? (events : List KeypadEvent) (key : Key) : Option KeypadEvent :=
  events.reverse.find? (·.concerns key)

/-- The keys whose last event was a press. -/
def held (events : List KeypadEvent) : Finset Key :=
  Finset.univ.filter fun key => last? events key = some (.set key.code true)

theorem last?_concat (events : List KeypadEvent) (event : KeypadEvent) (key : Key) :
    last? (events ++ [event]) key =
      if event.concerns key then some event else last? events key := by
  unfold last?
  rw [List.reverse_append, List.reverse_singleton, List.singleton_append, List.find?_cons]
  cases event.concerns key with
  | true => rfl
  | false => rfl

theorem mem_held_iff (events : List KeypadEvent) (key : Key) :
    key ∈ held events ↔ last? events key = some (.set key.code true) := by
  unfold held
  rw [Finset.mem_filter]
  exact and_iff_right (Finset.mem_univ key)

end KeypadEvent

theorem Key.toNat_code (key : Key) : key.code.toNat = key.val :=
  UInt8.toNat_ofNat_of_lt (Nat.lt_of_lt_of_le key.isLt (by decide))

theorem Key.exists_code_eq {code : UInt8} (hcode : code.toNat < Keypad.keyCount) :
    ∃ key : Key, key.code = code :=
  ⟨⟨code.toNat, hcode⟩, UInt8.toNat_inj.mp (toNat_code _)⟩

namespace Keypad

open KeypadEvent

def meet (k : Keypad) : KeypadEvent → Keypad
  | .set code pressed => k.set code pressed
  | .reset => k.reset

def afterEvents (k : Keypad) (events : List KeypadEvent) : Keypad :=
  events.foldl meet k

theorem toNat_lt_of_isDown {k : Keypad} {code : UInt8} (hdown : k.isDown code = true) :
    code.toNat < keyCount := by
  rw [isDown_eq_true_iff] at hdown
  exact (Vector.getElem?_eq_some_iff.mp hdown).1

/-! ## The highest key -/

theorem mem_codes_of_isDown {k : Keypad} {code : UInt8} (hdown : k.isDown code = true) :
    code ∈ (List.range keyCount).reverse.map UInt8.ofNat := by
  have hcode := toNat_lt_of_isDown hdown
  rw [List.mem_map]
  exact ⟨code.toNat, by simpa using hcode, UInt8.ofNat_toNat⟩

theorem exists_highest?_of_isDown {k : Keypad} {code : UInt8} (hdown : k.isDown code = true) :
    ∃ highest, k.highest? = some highest := by
  rw [← Option.isSome_iff_exists, highest?, List.find?_isSome]
  exact ⟨code, mem_codes_of_isDown hdown, hdown⟩

/-- The keys are looked at from the highest on, so those before the one that is found are up. -/
theorem isDown_and_le_of_highest? {k : Keypad} {highest : UInt8}
    (hhighest : k.highest? = some highest) :
    k.isDown highest = true ∧ ∀ code, k.isDown code = true → code ≤ highest := by
  obtain ⟨hdown, before, later, hcodes, hbefore⟩ :=
    List.find?_eq_some_iff_append.mp hhighest
  refine ⟨hdown, ?_⟩
  intro code hcode
  have hfalling : ((List.range keyCount).reverse.map UInt8.ofNat).Pairwise (· > ·) := by decide
  have hmem := mem_codes_of_isDown hcode
  rw [hcodes] at hfalling hmem
  rcases List.mem_append.mp hmem with hearly | hlate
  · have hup := hbefore code hearly
    rw [hcode] at hup
    cases hup
  · rcases List.mem_cons.mp hlate with rfl | hlower
    · exact UInt8.le_refl code
    · have htail := (List.pairwise_append.mp hfalling).2.1
      exact UInt8.le_of_lt (List.rel_of_pairwise_cons htail hlower)

/-! ## Keys that are held -/

theorem isDown_afterEvents_iff {k : Keypad} (hreleased : ∀ code, k.isDown code = false)
    (events : List KeypadEvent) (key : Key) :
    (k.afterEvents events).isDown key.code = true ↔ key ∈ held events := by
  rw [mem_held_iff]
  induction events using List.reverseRecOn with
  | nil => simp [afterEvents, hreleased, last?]
  | append_singleton events event ih =>
      have hafter : k.afterEvents (events ++ [event]) = (k.afterEvents events).meet event :=
        List.foldl_concat meet k event events
      rw [hafter, last?_concat]
      cases event with
      | reset => simp [meet, isDown_reset, concerns]
      | set code pressed =>
          change ((k.afterEvents events).set code pressed).isDown key.code = true ↔ _
          rw [isDown_set]
          by_cases hcode : code = key.code
          · have hkey : code.toNat < keyCount := by
              rw [hcode, key.toNat_code]
              exact key.isLt
            rw [if_pos ⟨hcode.symm, hkey⟩]
            simp [concerns, hcode]
          · rw [if_neg fun h => hcode h.1.symm]
            simpa [concerns, hcode] using ih

theorem highest?_afterEvents {k : Keypad} (hreleased : ∀ code, k.isDown code = false)
    {events : List KeypadEvent} (hheld : (held events).Nonempty) :
    (k.afterEvents events).highest? = some ((held events).max' hheld).code := by
  have hiff := isDown_afterEvents_iff hreleased events
  have hsome := (hiff _).mpr (Finset.max'_mem (held events) hheld)
  obtain ⟨highest, hhighest⟩ := exists_highest?_of_isDown hsome
  obtain ⟨hdown, hgreatest⟩ := isDown_and_le_of_highest? hhighest
  obtain ⟨key, rfl⟩ := Key.exists_code_eq (toNat_lt_of_isDown hdown)
  have hmax : (held events).max' hheld = key := by
    rw [Finset.max'_eq_iff]
    refine ⟨(hiff key).mp hdown, ?_⟩
    intro other hother
    have hle := UInt8.le_iff_toNat_le.mp (hgreatest other.code ((hiff other).mpr hother))
    rw [other.toNat_code, key.toNat_code] at hle
    exact hle
  rw [hhighest, hmax]

theorem released_afterEvents {k : Keypad} (hreleased : ∀ code, k.isDown code = false)
    {events : List KeypadEvent} (hheld : held events = ∅) (code : UInt8) :
    (k.afterEvents events).isDown code = false := by
  rw [← Bool.not_eq_true]
  intro hdown
  obtain ⟨key, rfl⟩ := Key.exists_code_eq (toNat_lt_of_isDown hdown)
  have hmem := (isDown_afterEvents_iff hreleased events key).mp hdown
  rw [hheld] at hmem
  exact Finset.notMem_empty key hmem

/-! ## Codes of no key -/

theorem set_of_no_key (k : Keypad) {code : UInt8} (hcode : keyCount ≤ code.toNat)
    (pressed : Bool) :
    k.set code pressed = k := by
  unfold set
  rw [Vector.setIfInBounds_eq_of_size_le hcode]

theorem afterEvents_of_no_key (k : Keypad) {code : UInt8} (hcode : keyCount ≤ code.toNat)
    (before later : List KeypadEvent) (pressed : Bool) :
    k.afterEvents (before ++ .set code pressed :: later) = k.afterEvents (before ++ later) := by
  unfold afterEvents
  rw [List.foldl_append, List.foldl_append, List.foldl_cons]
  exact congrArg (later.foldl meet) (set_of_no_key _ hcode pressed)

end Keypad

namespace KeypadEvent

theorem held_of_no_key {code : UInt8} (hcode : Keypad.keyCount ≤ code.toNat)
    (before later : List KeypadEvent) (pressed : Bool) :
    held (before ++ .set code pressed :: later) = held (before ++ later) := by
  have hother : ∀ key : Key, concerns key (.set code pressed) = false := by
    intro key
    have hkey := key.isLt
    rw [concerns, beq_eq_false_iff_ne]
    rintro rfl
    rw [key.toNat_code] at hcode
    exact absurd hkey (Nat.not_lt.mpr hcode)
  unfold held last?
  simp [List.find?_append, hother]

end KeypadEvent

namespace Machine

open KeypadEvent

/-- The next instruction of a machine waits for a key, and no key is down. -/
structure Waits (m : Machine) (x : Register) : Prop where
  loaded : m.loaded = true
  running : m.processor.running = true
  reads : m.Reads (.awaitKey x)
  released : ∀ code, m.keypad.isDown code = false

def meetKeypad (m : Machine) : KeypadEvent → Machine
  | .set code pressed => m.setKey code pressed
  | .reset => m.withKeypad m.keypad.reset

def afterKeypad (m : Machine) (events : List KeypadEvent) : Machine :=
  events.foldl meetKeypad m

theorem afterKeypad_eq (m : Machine) (events : List KeypadEvent) :
    m.afterKeypad events = m.withKeypad (m.keypad.afterEvents events) := by
  induction events generalizing m with
  | nil => rfl
  | cons event later ih =>
      change (m.meetKeypad event).afterKeypad later = _
      rw [ih]
      cases event with
      | set code pressed => rfl
      | reset => rfl

def stepsAt (moments : List Nat) : List (Nat × Operation) :=
  moments.map (·, .step)

variable {m : Machine} {x : Register} {moments : List Nat}

/-! ## Steps and the timers -/

theorem Effect.timers_eq {after : Machine} {instruction : Instruction} {flow : Flow}
    (heffect : Effect m instruction flow after)
    (hother : ∀ (timer : Timer) y, instruction ≠ timer.setFrom y) :
    after.timers = m.timers := by
  cases heffect with
  | setDelay y => exact absurd rfl (hother .delay y)
  | setSound y => exact absurd rfl (hother .sound y)
  | _ => rfl

theorem timers_step {now : Nat} (hfault : (m.step now).fault = none)
    (hother : ∀ (timer : Timer) y, m.performed? now .step ≠ some (timer.setFrom y)) :
    (m.step now).state.timers = m.timers.update now := by
  obtain ⟨word, flow, after, hperforms, -, hstate⟩ := performs_of_step hfault
  have hsucceeded : (m.step now).succeeded = true := (Attempt.fault_eq_none_iff _).mp hfault
  have hkept : after.timers = m.timers := by
    apply hperforms.effect.timers_eq
    intro timer y hset
    apply hother timer y
    rw [performed?_step_eq_some_iff]
    exact ⟨hsucceeded, (m.reads_iff _).mpr ⟨word, hperforms.fetch, hset⟩⟩
  rw [hstate, ← hkept]
  rfl

/-- Steps that succeed and set no timer leave the timers to their updates. -/
theorem timers_after_stepsAt
    (hresults : ∀ result ∈ m.stepResults (stepsAt moments), result.1 = none)
    (hother : ∀ (timer : Timer) y, timer.setFrom y ∉ m.trace (stepsAt moments)) :
    (m.after (stepsAt moments)).timers = m.timers.afterUpdates moments := by
  induction moments generalizing m with
  | nil => rfl
  | cons now later ih =>
      have hfirst : (m.step now).state.timers = m.timers.update now := by
        apply timers_step (hresults _ List.mem_cons_self)
        intro timer y hset
        apply hother timer y
        exact List.mem_append_left _ (by rw [hset]; exact List.mem_cons_self)
      have hrest := ih (m := (m.step now).state)
        (fun result hresult => hresults result (List.mem_cons_of_mem _ hresult))
        (fun timer y hmem => hother timer y (List.mem_append_right _ hmem))
      rw [hfirst] at hrest
      exact hrest

/-! ## Steps of a machine that waits -/

theorem Waits.after_stepsAt (hwaits : m.Waits x) (moments : List Nat) :
    (∀ result ∈ m.stepResults (stepsAt moments), result.1 = none) ∧
      ∃ lastWord lastAddress, m.after (stepsAt moments) =
        { m with
          processor := { m.processor with lastWord, lastAddress }
          timers := m.timers.afterUpdates moments } := by
  induction moments generalizing m with
  | nil => exact ⟨nofun, m.processor.lastWord, m.processor.lastAddress, rfl⟩
  | cons now later ih =>
      obtain ⟨hsucceeded, word, hstate⟩ :=
        step_of_awaitKey hwaits.loaded hwaits.running hwaits.reads hwaits.released now
      have hnext : (m.step now).state.Waits x := by
        rw [hstate]
        exact ⟨hwaits.loaded, hwaits.running, hwaits.reads, hwaits.released⟩
      obtain ⟨hresults, lastWord, lastAddress, hafter⟩ := ih hnext
      constructor
      · intro result hresult
        rcases List.mem_cons.mp hresult with rfl | hlater
        · exact (Attempt.fault_eq_none_iff _).mpr hsucceeded
        · exact hresults result hlater
      · refine ⟨lastWord, lastAddress, ?_⟩
        rw [hstate] at hafter
        change (m.step now).state.after (stepsAt later) = _
        rw [hstate]
        exact hafter

theorem Waits.step_of_highest? (hwaits : m.Waits x) {keypad : Keypad} {key : UInt8}
    (hkey : keypad.highest? = some key) (now : Nat) :
    ((m.withKeypad keypad).step now).fault = none ∧
      (∀ r, ((m.withKeypad keypad).step now).state.processor.reg r =
        if r = x then key else m.processor.reg r) ∧
      ((m.withKeypad keypad).step now).state.processor.pc.toNat = m.processor.pc.toNat + 2 := by
  obtain ⟨word, hsucceeded, hstate⟩ :=
    step_of_reads (m := m.withKeypad keypad) hwaits.loaded hwaits.running hwaits.reads
      (fun _ => .awaitKey x hkey) now
  obtain ⟨fetched, hfetched, -⟩ := (m.reads_iff _).mp hwaits.reads
  refine ⟨(Attempt.fault_eq_none_iff _).mpr hsucceeded, ?_, ?_⟩
  · intro r
    rw [hstate]
    exact m.processor.reg_set x r key
  · rw [hstate]
    exact (toNat_pc_fetched hfetched).1

/-! ## The theorem -/

/-- As long as no key is down, a machine that waits for a key goes on waiting.  Its steps succeed
and change nothing but the note of the last instruction and the timers, which count down as they
would in any other row of steps that sets no timer.  After any events of the keypad it waits still
if no key is held, and if some are, its next step puts the highest of them into the register, leaves
the other registers and goes on behind the instruction.  Events for codes of no key count for
nothing. -/
theorem waits_for_highest_key (m : Machine) (x : Register) (hwaits : m.Waits x) :
    (∀ moments,
      let waited := m.after (stepsAt moments)
      waited.Waits x ∧
        (∀ result ∈ m.stepResults (stepsAt moments), result.1 = none) ∧
        (∃ lastWord lastAddress, waited =
          { m with
            processor := { m.processor with lastWord, lastAddress }
            timers := m.timers.afterUpdates moments }) ∧
        ∀ other : Machine, other.timers = m.timers →
          (∀ result ∈ other.stepResults (stepsAt moments), result.1 = none) →
          (∀ (timer : Timer) y, timer.setFrom y ∉ other.trace (stepsAt moments)) →
            waited.timers = (other.after (stepsAt moments)).timers) ∧
      (∀ events now,
        let ready := m.afterKeypad events
        (held events = ∅ → ready.Waits x) ∧
          ∀ hheld : (held events).Nonempty,
            (ready.step now).fault = none ∧
              (∀ r, (ready.step now).state.processor.reg r =
                if r = x then ((held events).max' hheld).code else m.processor.reg r) ∧
              (ready.step now).state.processor.pc.toNat = m.processor.pc.toNat + 2) ∧
      ∀ before code pressed later, 0xF < code.toNat →
        held (before ++ .set code pressed :: later) = held (before ++ later) ∧
          m.afterKeypad (before ++ .set code pressed :: later) =
            m.afterKeypad (before ++ later) := by
  refine ⟨?_, ?_, ?_⟩
  · intro moments waited
    obtain ⟨hresults, lastWord, lastAddress, hwaited⟩ := hwaits.after_stepsAt moments
    refine ⟨?_, hresults, ⟨lastWord, lastAddress, hwaited⟩, ?_⟩
    · change (m.after (stepsAt moments)).Waits x
      rw [hwaited]
      exact ⟨hwaits.loaded, hwaits.running, hwaits.reads, hwaits.released⟩
    · intro other htimers hothers hset
      change (m.after (stepsAt moments)).timers = _
      rw [timers_after_stepsAt hothers hset, htimers, hwaited]
  · intro events now ready
    have hready : ready = m.withKeypad (m.keypad.afterEvents events) := m.afterKeypad_eq events
    rw [hready]
    constructor
    · intro hheld
      exact ⟨hwaits.loaded, hwaits.running, hwaits.reads,
        Keypad.released_afterEvents hwaits.released hheld⟩
    · intro hheld
      exact hwaits.step_of_highest? (Keypad.highest?_afterEvents hwaits.released hheld) now
  · intro before code pressed later hcode
    refine ⟨held_of_no_key hcode before later pressed, ?_⟩
    rw [afterKeypad_eq, afterKeypad_eq, m.keypad.afterEvents_of_no_key hcode]

/-- A machine that waits for a key to put into V3. -/
def awaitingKey : Machine :=
  { new .standard .perStep [] 0 with
    memory := Memory.blank.store 0x200 [0xF3, 0x0A]
    timers := { Timers.new .perStep 0 with delay := 2 }
    loaded := true }

/-- Presses of two keys and of a code of no key, all of them undone, and then of three more keys,
the highest of which is let go. -/
def manyPresses : List KeypadEvent :=
  [.set 0xC true, .set 0x1C true, .set 3 true, .reset, .set 5 true, .set 2 true, .set 1 true,
    .set 5 false, .set 0xFF true]

theorem waits_for_highest_key_manyPresses :
    awaitingKey.Waits 3 ∧ held manyPresses = {1, 2} ∧
      let waited := awaitingKey.after (stepsAt [1, 2, 3])
      let went := ((waited.afterKeypad manyPresses).step 4).state
      (∀ result ∈ awaitingKey.stepResults (stepsAt [1, 2, 3]), result.1 = none) ∧
        waited.timers.delay = 0 ∧ went.processor.reg 3 = 2 ∧
          went.processor.pc.toNat = waited.processor.pc.toNat + 2 := by
  have hwaits : awaitingKey.Waits 3 := by
    refine ⟨rfl, rfl, ⟨0xF3, 0x0A, ?_, ?_, .awaitKey 3⟩, ?_⟩
    · decide +kernel
    · decide +kernel
    · intro code
      exact Keypad.isDown_reset awaitingKey.keypad code
  have hheld : held manyPresses = {1, 2} := by decide +kernel
  have hsome : (held manyPresses).Nonempty := by
    rw [hheld]
    exact ⟨1, by decide⟩
  have hmax : (held manyPresses).max' hsome = 2 := by
    rw [Finset.max'_eq_iff, hheld]
    decide
  obtain ⟨hrows, -, -⟩ := waits_for_highest_key awaitingKey 3 hwaits
  obtain ⟨hwaited, hresults, ⟨lastWord, lastAddress, hstate⟩, -⟩ := hrows [1, 2, 3]
  obtain ⟨-, hevents, -⟩ := waits_for_highest_key _ 3 hwaited
  obtain ⟨-, hreg, hpc⟩ := (hevents manyPresses 4).2 hsome
  refine ⟨hwaits, hheld, hresults, ?_, ?_, hpc⟩
  · rw [hstate]
    rfl
  · rw [hreg 3, if_pos rfl, hmax]
    rfl

end Machine

end ChipEight
