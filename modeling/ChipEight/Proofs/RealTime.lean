import ChipEight.Timers
import Mathlib.Algebra.Order.Floor.Div
import Mathlib.Data.List.Chain
import Mathlib.Data.List.Iterate

/-!
# Timers in real time

In real time the timers count down at the first update that comes a period or more after they last
did.  The next period starts with that update and not where the last one ended, so whatever a tick
came late is lost.  Over a row of updates the number of ticks is the number of whole periods in the
time that is left without those losses.  Updates that are never more than a period apart lose less
than half of the ticks; updates at an even pace tick once in as many updates as cover a period.
-/

namespace ChipEight

namespace Timers

def afterUpdates (t : Timers) (moments : List Nat) : Timers :=
  moments.foldl update t

/-- How often the timers count down in a row of updates. -/
def tickCount (t : Timers) : List Nat → Nat
  | [] => 0
  | now :: later => (if t.due now then 1 else 0) + (t.update now).tickCount later

/-- By how much the ticks in a row of updates come later than a period after the one before. -/
def lateness (t : Timers) : List Nat → Nat
  | [] => 0
  | now :: later =>
      (if t.due now then now - t.lastTick - period else 0) + (t.update now).lateness later

/-! ## One update -/

theorem period_pos : 0 < period := by decide

theorem toNat_countDown (n : UInt8) : (countDown n).toNat = n.toNat - 1 := by
  unfold countDown
  split
  next hzero => simp [hzero]
  next hpos =>
    have hne : n.toNat ≠ 0 := fun h => hpos (UInt8.toNat_inj.mp h)
    have hone : (1 : UInt8) ≤ n := UInt8.le_iff_toNat_le.mpr (Nat.one_le_iff_ne_zero.mpr hne)
    rw [UInt8.toNat_sub_of_le _ _ hone]
    rfl

theorem delay_update (t : Timers) (now : Nat) :
    (t.update now).delay.toNat = t.delay.toNat - if t.due now then 1 else 0 := by
  unfold update
  split
  next => exact toNat_countDown t.delay
  next => rfl

theorem sound_update (t : Timers) (now : Nat) :
    (t.update now).sound.toNat = t.sound.toNat - if t.due now then 1 else 0 := by
  unfold update
  split
  next => exact toNat_countDown t.sound
  next => rfl

theorem due_iff {t : Timers} (hmode : t.mode = .realTime) (now : Nat) :
    t.due now = true ↔ period ≤ now - t.lastTick := by
  unfold due
  rw [hmode]
  exact decide_eq_true_iff

theorem lastTick_update {t : Timers} (hmode : t.mode = .realTime) (now : Nat) :
    (t.update now).lastTick = if t.due now then now else t.lastTick := by
  unfold update
  by_cases hdue : t.due now = true
  · rw [if_pos hdue, if_pos hdue]
    exact if_pos hmode
  · rw [if_neg hdue, if_neg hdue]

/-! ## Rows of updates -/

theorem delay_afterUpdates (t : Timers) (moments : List Nat) :
    (t.afterUpdates moments).delay.toNat = t.delay.toNat - t.tickCount moments := by
  induction moments generalizing t with
  | nil => rfl
  | cons now later ih =>
      change ((t.update now).afterUpdates later).delay.toNat = _
      rw [ih, delay_update, tickCount, Nat.sub_sub]

theorem sound_afterUpdates (t : Timers) (moments : List Nat) :
    (t.afterUpdates moments).sound.toNat = t.sound.toNat - t.tickCount moments := by
  induction moments generalizing t with
  | nil => rfl
  | cons now later ih =>
      change ((t.update now).afterUpdates later).sound.toNat = _
      rw [ih, sound_update, tickCount, Nat.sub_sub]

/-- The time up to the last update is made of the periods that ended in ticks, what the ticks came
late, and less than a period since the last tick. -/
theorem getLastD_eq {t : Timers} {now : Nat} {moments : List Nat} (hmode : t.mode = .realTime)
    (hlast : t.lastTick ≤ now) (hnow : now < t.lastTick + period)
    (hmoments : (now :: moments).IsChain (· ≤ ·)) :
    ∃ rest < period, moments.getLastD now =
      t.lastTick + t.tickCount moments * period + t.lateness moments + rest := by
  induction moments generalizing t now with
  | nil =>
      refine ⟨now - t.lastTick, by omega, ?_⟩
      simp only [List.getLastD_nil, tickCount, lateness]
      omega
  | cons next later ih =>
      obtain ⟨hle, hlater⟩ := List.isChain_cons_cons.mp hmoments
      have hnext := t.lastTick_update hmode next
      have hmodeNext := (t.mode_update next).trans hmode
      rw [List.getLastD_cons]
      simp only [tickCount, lateness]
      by_cases hdue : t.due next = true
      · simp only [hdue, if_true] at hnext ⊢
        have hperiod := (due_iff hmode next).mp hdue
        obtain ⟨rest, hrest, hend⟩ := ih hmodeNext (by rw [hnext])
          (by rw [hnext]; exact Nat.lt_add_of_pos_right period_pos) hlater
        refine ⟨rest, hrest, ?_⟩
        rw [hend, hnext, Nat.add_mul, Nat.one_mul]
        omega
      · rw [if_neg hdue] at hnext
        rw [if_neg hdue, if_neg hdue]
        have hperiod : ¬ period ≤ next - t.lastTick := fun h => hdue ((due_iff hmode next).mpr h)
        obtain ⟨rest, hrest, hend⟩ := ih hmodeNext (by rw [hnext]; omega)
          (by rw [hnext]; omega) hlater
        refine ⟨rest, hrest, ?_⟩
        rw [hend, hnext, Nat.zero_add, Nat.zero_add]

/-- With updates at most a period apart, no tick comes as much as another period late. -/
theorem lateness_le {t : Timers} {now : Nat} {moments : List Nat} (hmode : t.mode = .realTime)
    (hlast : t.lastTick ≤ now) (hnow : now < t.lastTick + period)
    (hmoments : (now :: moments).IsChain fun a b => a ≤ b ∧ b ≤ a + period) :
    t.lateness moments ≤ t.tickCount moments * period := by
  induction moments generalizing t now with
  | nil => exact Nat.zero_le _
  | cons next later ih =>
      obtain ⟨⟨hle, hgap⟩, hlater⟩ := List.isChain_cons_cons.mp hmoments
      have hnext := t.lastTick_update hmode next
      have hmodeNext := (t.mode_update next).trans hmode
      simp only [tickCount, lateness]
      by_cases hdue : t.due next = true
      · simp only [hdue, if_true] at hnext ⊢
        have hlate := ih hmodeNext (by rw [hnext])
          (by rw [hnext]; exact Nat.lt_add_of_pos_right period_pos) hlater
        rw [Nat.add_mul, Nat.one_mul]
        omega
      · rw [if_neg hdue] at hnext
        rw [if_neg hdue, if_neg hdue, Nat.zero_add, Nat.zero_add]
        have hperiod : ¬ period ≤ next - t.lastTick := fun h => hdue ((due_iff hmode next).mpr h)
        exact ih hmodeNext (by rw [hnext]; omega) (by rw [hnext]; omega) hlater

/-- Updates at an even pace tick once in as many of them as cover a period.  The induction goes over
the updates; `passed` of them came since the last tick. -/
theorem tickCount_iterate {t : Timers} {pace : Nat} (hmode : t.mode = .realTime)
    (hpace : 0 < pace) (passed : Nat) (hpassed : passed < period ⌈/⌉ pace) (n : Nat) :
    t.tickCount (List.iterate (· + pace) (t.lastTick + pace * passed + pace) n) =
      (passed + n) / (period ⌈/⌉ pace) := by
  induction n generalizing t passed with
  | zero => exact (Nat.div_eq_of_lt hpassed).symm
  | succ n ih =>
      have hnext := t.lastTick_update hmode (t.lastTick + pace * passed + pace)
      have hmodeNext := (t.mode_update (t.lastTick + pace * passed + pace)).trans hmode
      have hdue : t.due (t.lastTick + pace * passed + pace) = true ↔
          period ⌈/⌉ pace ≤ passed + 1 := by
        rw [due_iff hmode, ceilDiv_le_iff_le_mul hpace, Nat.mul_succ]
        omega
      simp only [List.iterate, tickCount]
      by_cases hlast : period ⌈/⌉ pace ≤ passed + 1
      · have hcover : period ⌈/⌉ pace = passed + 1 := by omega
        rw [if_pos (hdue.mpr hlast)] at hnext
        have hrest := ih hmodeNext 0 (by omega)
        rw [hnext, Nat.mul_zero, Nat.add_zero, Nat.zero_add] at hrest
        rw [if_pos (hdue.mpr hlast), hrest, hcover,
          show passed + (n + 1) = n + (passed + 1) by omega,
          Nat.add_div_right n (Nat.succ_pos passed), Nat.succ_eq_add_one, Nat.add_comm]
      · have hrest := ih hmodeNext (passed + 1) (by omega)
        rw [if_neg (mt hdue.mp hlast)] at hnext
        rw [hnext, Nat.mul_succ, ← Nat.add_assoc] at hrest
        rw [if_neg (mt hdue.mp hlast), hrest, Nat.zero_add, Nat.add_right_comm, Nat.add_assoc]

/-! ## The theorem -/

/-- Updates every 16 ms come faster than the period.  After three of them two periods are over, and
the timers have ticked once. -/
theorem tickCount_ne_periods :
    ¬ ∀ (t : Timers) (moments : List Nat), t.mode = .realTime →
      (t.lastTick :: moments).IsChain (fun a b => a ≤ b ∧ b ≤ a + period) →
        t.tickCount moments = (moments.getLastD t.lastTick - t.lastTick) / period := by
  intro hall
  have hthree := hall (new .realTime 0) [16000000, 32000000, 48000000] rfl (by decide)
  exact absurd hthree (by decide)

/-- With updates at most a period apart, the timers tick once for every whole period in the time
that was not lost by ticks that came late.  This is the number of periods that are over exactly as
long as the losses fit into the period that is not over yet, and never less than half of it.  At an
even pace there is one tick in as many updates as cover a period. -/
theorem tickCount_of_realTime (t : Timers) (hmode : t.mode = .realTime) :
    (∀ moments : List Nat,
      (t.lastTick :: moments).IsChain (fun a b => a ≤ b ∧ b ≤ a + period) →
      let elapsed := moments.getLastD t.lastTick - t.lastTick
      let ticks := t.tickCount moments
      ticks = (elapsed - t.lateness moments) / period ∧
        (ticks = elapsed / period ↔ t.lateness moments ≤ elapsed % period) ∧
        elapsed / period ≤ 2 * ticks ∧
        (t.afterUpdates moments).delay.toNat = t.delay.toNat - ticks ∧
        (t.afterUpdates moments).sound.toNat = t.sound.toNat - ticks) ∧
    ∀ pace n, 0 < pace →
      t.tickCount (List.iterate (· + pace) (t.lastTick + pace) n) = n / (period ⌈/⌉ pace) := by
  constructor
  · intro moments hmoments elapsed ticks
    have hstart := Nat.lt_add_of_pos_right (n := t.lastTick) period_pos
    obtain ⟨rest, hrest, hend⟩ :=
      getLastD_eq hmode (Nat.le_refl _) hstart (hmoments.imp fun _ _ h => h.1)
    have hlate := lateness_le hmode (Nat.le_refl _) hstart hmoments
    have helapsed : elapsed = ticks * period + (t.lateness moments + rest) := by
      change moments.getLastD t.lastTick - t.lastTick = t.tickCount moments * period + _
      omega
    have hwhole : ∀ k r, r < period → (r + k * period) / period = k := by
      intro k r hr
      rw [Nat.add_mul_div_right r k period_pos, Nat.div_eq_of_lt hr, Nat.zero_add]
    refine ⟨?_, ?_, ?_, delay_afterUpdates t moments, sound_afterUpdates t moments⟩
    · rw [show elapsed - t.lateness moments = rest + ticks * period by omega, hwhole _ _ hrest]
    · have hdivision := Nat.div_add_mod' elapsed period
      constructor
      · intro hticks
        rw [← hticks] at hdivision
        omega
      · intro hkept
        have hmod := Nat.mod_lt elapsed period_pos
        rw [← hwhole ticks rest hrest,
          ← hwhole (elapsed / period) (elapsed % period - t.lateness moments) (by omega)]
        congr 1
        omega
    · apply Nat.le_of_lt_succ
      rw [Nat.div_lt_iff_lt_mul period_pos, Nat.succ_mul, Nat.mul_assoc]
      omega
  · intro pace n hpace
    have hcover : 0 < period ⌈/⌉ pace := by
      rw [Nat.pos_iff_ne_zero]
      intro hzero
      have hle := (ceilDiv_le_iff_le_mul (b := period) (c := 0) hpace).mp (Nat.le_of_eq hzero)
      exact absurd hle (Nat.not_le.mpr period_pos)
    have heven := tickCount_iterate hmode hpace 0 hcover n
    rwa [Nat.mul_zero, Nat.add_zero, Nat.zero_add] at heven

/-- Updates every 16 ms make the timers tick every 32 ms: in 960 ms there are 30 ticks, where there
are 57 periods. -/
theorem tickCount_of_realTime_sixteen :
    let t := { new .realTime 0 with delay := 10 }
    let moments := [16000000, 32000000, 48000000]
    t.tickCount moments =
        (moments.getLastD t.lastTick - t.lastTick - t.lateness moments) / period ∧
      t.lateness moments = 15333334 ∧
      (t.afterUpdates moments).delay.toNat = t.delay.toNat - t.tickCount moments ∧
      t.tickCount (List.iterate (· + 16000000) (t.lastTick + 16000000) 60) = 30 ∧
      60 * 16000000 / period = 57 := by
  intro t moments
  have hlateness : t.lateness moments = 15333334 := by decide
  have hcover : period ⌈/⌉ 16000000 = 2 := by decide
  obtain ⟨hrows, hpaces⟩ := tickCount_of_realTime t rfl
  obtain ⟨hcount, -, -, hdelay, -⟩ := hrows moments (by decide)
  have hsixty := hpaces 16000000 60 (by decide)
  rw [hcover] at hsixty
  exact ⟨hcount, hlateness, hdelay, hsixty, by decide⟩

end Timers

end ChipEight
