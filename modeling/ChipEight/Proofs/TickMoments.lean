import ChipEight.Proofs.RealTime

/-!
# When the timers tick in real time

In real time a row of updates makes the timers tick at some of its moments, whatever the gaps
between them.  The ticks are a greedy selection: each is the first update that comes a period or
more after the one before.  So no two ticks are closer together than a period, an update without a
tick comes within a period of the last one, and the number of ticks lies between two bounds that
depend on the time from the start to the last update and on the widest gap.
-/

namespace ChipEight

namespace Timers

/-- The moments of a row of updates at which the timers tick. -/
def tickMoments (t : Timers) : List Nat → List Nat
  | [] => []
  | now :: later => (if t.due now then [now] else []) ++ (t.update now).tickMoments later

theorem mode_afterUpdates (t : Timers) (moments : List Nat) :
    (t.afterUpdates moments).mode = t.mode := by
  induction moments generalizing t with
  | nil => rfl
  | cons now later ih => exact (ih (t.update now)).trans (t.mode_update now)

theorem tickMoments_concat (t : Timers) (moments : List Nat) (now : Nat) :
    t.tickMoments (moments ++ [now]) =
      t.tickMoments moments ++ if (t.afterUpdates moments).due now then [now] else [] := by
  induction moments generalizing t with
  | nil =>
      change (if t.due now then [now] else []) ++ [] = [] ++ if t.due now then [now] else []
      rw [List.append_nil, List.nil_append]
  | cons next later ih =>
      have hrest := ih (t.update next)
      rw [List.cons_append, tickMoments, hrest, tickMoments, List.append_assoc]
      rfl

/-- The period that is running began with the last tick. -/
theorem lastTick_afterUpdates {t : Timers} (hmode : t.mode = .realTime) (moments : List Nat) :
    (t.afterUpdates moments).lastTick = (t.tickMoments moments).getLastD t.lastTick := by
  induction moments using List.reverseRecOn with
  | nil => rfl
  | append_singleton moments now ih =>
      have hupdate :=
        (t.afterUpdates moments).lastTick_update ((t.mode_afterUpdates moments).trans hmode) now
      have hafter : t.afterUpdates (moments ++ [now]) = (t.afterUpdates moments).update now :=
        List.foldl_concat update t now moments
      rw [hafter, hupdate, tickMoments_concat]
      split
      next => rw [List.getLastD_concat]
      next => rw [List.append_nil, ih]

/-- An update makes the timers tick once or leaves them as they are. -/
theorem update_eq_of_realTime {t : Timers} (hmode : t.mode = .realTime) (now : Nat) :
    t.update now = if t.due now then { t.tick with lastTick := now } else t := by
  unfold update
  rw [if_pos hmode]

/-! ## The distance of ticks -/

theorem isChain_tickMoments {t : Timers} (hmode : t.mode = .realTime) (moments : List Nat) :
    (t.lastTick :: t.tickMoments moments).IsChain fun a b => a + period ≤ b := by
  induction moments generalizing t with
  | nil => exact List.isChain_singleton t.lastTick
  | cons now later ih =>
      have hrest := ih ((t.mode_update now).trans hmode)
      rw [lastTick_update hmode now] at hrest
      rw [tickMoments]
      by_cases hdue : t.due now = true
      · have hperiod := (due_iff hmode now).mp hdue
        have hpos := period_pos
        rw [if_pos hdue] at hrest ⊢
        rw [List.singleton_append, List.isChain_cons_cons]
        exact ⟨by omega, hrest⟩
      · rw [if_neg hdue] at hrest ⊢
        exact hrest

/-! ## The number of ticks -/

theorem length_tickMoments (t : Timers) (moments : List Nat) :
    (t.tickMoments moments).length = t.tickCount moments := by
  induction moments generalizing t with
  | nil => rfl
  | cons now later ih =>
      rw [tickMoments, tickCount, List.length_append, ih]
      split
      next => rfl
      next => rfl

theorem le_getLastD_of_isChain {now : Nat} {later : List Nat}
    (hlater : (now :: later).IsChain (· ≤ ·)) :
    now ≤ later.getLastD now := by
  induction later generalizing now with
  | nil => exact Nat.le_refl now
  | cons next later ih =>
      obtain ⟨hle, hrest⟩ := List.isChain_cons_cons.mp hlater
      rw [List.getLastD_cons]
      exact Nat.le_trans hle (ih hrest)

/-- Every tick takes a period of the time up to the last update. -/
theorem tickCount_mul_period_le {t : Timers} {moments : List Nat} (hmode : t.mode = .realTime)
    (hmoments : moments.IsChain (· ≤ ·)) :
    t.tickCount moments * period ≤ moments.getLastD t.lastTick - t.lastTick := by
  induction moments generalizing t with
  | nil =>
      rw [tickCount, Nat.zero_mul]
      exact Nat.zero_le _
  | cons now later ih =>
      have hrest := ih ((t.mode_update now).trans hmode) hmoments.tail
      have hlast := le_getLastD_of_isChain hmoments
      rw [lastTick_update hmode now] at hrest
      rw [tickCount, List.getLastD_cons, Nat.add_mul]
      by_cases hdue : t.due now = true
      · have hperiod := (due_iff hmode now).mp hdue
        have hpos := period_pos
        rw [if_pos hdue] at hrest ⊢
        omega
      · rw [if_neg hdue] at hrest ⊢
        rw [Nat.zero_mul, Nat.zero_add]
        -- The row that is left starts at the same tick, unless there is nothing left.
        cases later with
        | nil =>
            rw [tickCount, Nat.zero_mul]
            exact Nat.zero_le _
        | cons next later =>
            rw [List.getLastD_cons] at hrest ⊢
            exact hrest

/-- Between two ticks there is less than a period and a gap, and less than a period comes after the
last one. -/
theorem getLastD_lt_of_gaps {t : Timers} {now gap : Nat} {moments : List Nat}
    (hmode : t.mode = .realTime) (hnow : now < t.lastTick + period)
    (hgaps : (now :: moments).IsChain fun a b => b ≤ a + gap) :
    moments.getLastD now <
      t.lastTick + t.tickCount moments * (period + gap) + period := by
  induction moments generalizing t now with
  | nil =>
      rw [List.getLastD_nil, tickCount, Nat.zero_mul]
      exact hnow
  | cons next later ih =>
      obtain ⟨hgap, hlater⟩ := List.isChain_cons_cons.mp hgaps
      have hmodeNext := (t.mode_update next).trans hmode
      have hnext := t.lastTick_update hmode next
      rw [List.getLastD_cons, tickCount, Nat.add_mul]
      by_cases hdue : t.due next = true
      · rw [if_pos hdue] at hnext ⊢
        have hrest := ih hmodeNext
          (by rw [hnext]; exact Nat.lt_add_of_pos_right period_pos) hlater
        rw [hnext] at hrest
        omega
      · have hperiod : ¬ period ≤ next - t.lastTick := fun h => hdue ((due_iff hmode next).mpr h)
        rw [if_neg hdue] at hnext ⊢
        have hrest := ih hmodeNext (by rw [hnext]; omega) hlater
        rw [hnext] at hrest
        rwa [Nat.zero_mul, Nat.zero_add]

/-! ## The theorem -/

/-- In real time ticks, and the start and the first tick, are a period or more apart.  An update
that comes a period or more after the last tick makes one tick, and any other none.  So every tick
takes a whole period of the time up to the last update, and with no gap wider than `gap` every tick
but for a rest takes less than a period and a gap of it. -/
theorem ticks_keep_the_period (t : Timers) (hmode : t.mode = .realTime) (moments : List Nat)
    (hmoments : moments.IsChain (· ≤ ·)) :
    (t.lastTick :: t.tickMoments moments).IsChain (fun a b => a + period ≤ b) ∧
      (∀ before now,
        let s := t.afterUpdates before
        s.lastTick = (t.tickMoments before).getLastD t.lastTick ∧
          (period ≤ now - s.lastTick ∧ s.update now = { s.tick with lastTick := now } ∧
              t.tickMoments (before ++ [now]) = t.tickMoments before ++ [now] ∨
            now - s.lastTick < period ∧ s.update now = s ∧
              t.tickMoments (before ++ [now]) = t.tickMoments before)) ∧
      let ticks := (t.tickMoments moments).length
      let elapsed := moments.getLastD t.lastTick - t.lastTick
      ticks * period ≤ elapsed ∧
        ∀ gap, (t.lastTick :: moments).IsChain (fun a b => b ≤ a + gap) →
          elapsed < ticks * (period + gap) + period := by
  refine ⟨isChain_tickMoments hmode moments, ?_, ?_⟩
  · intro before now s
    have hmodeBefore : s.mode = .realTime := (t.mode_afterUpdates before).trans hmode
    have hdue := due_iff hmodeBefore now
    have hupdate := update_eq_of_realTime hmodeBefore now
    have hconcat := t.tickMoments_concat before now
    refine ⟨lastTick_afterUpdates hmode before, ?_⟩
    by_cases hperiod : period ≤ now - s.lastTick
    · rw [if_pos (hdue.mpr hperiod)] at hupdate hconcat
      exact Or.inl ⟨hperiod, hupdate, hconcat⟩
    · rw [if_neg (mt hdue.mp hperiod)] at hupdate hconcat
      rw [List.append_nil] at hconcat
      exact Or.inr ⟨Nat.lt_of_not_le hperiod, hupdate, hconcat⟩
  · intro ticks elapsed
    have hcount : ticks = t.tickCount moments := t.length_tickMoments moments
    refine ⟨?_, ?_⟩
    · rw [hcount]
      exact tickCount_mul_period_le hmode hmoments
    · intro gap hgaps
      have hlast := getLastD_lt_of_gaps hmode (Nat.lt_add_of_pos_right period_pos) hgaps
      have hpos := period_pos
      rw [hcount]
      omega

/-- Four updates in three periods and a half: one that comes early, one a period late, one too
early again, and one that comes exactly a period after the tick. -/
theorem ticks_keep_the_period_fourUpdates :
    let t := { new .realTime 0 with delay := 5 }
    let moments := [period / 2, 2 * period, 2 * period + period / 2, 3 * period]
    t.tickMoments moments = [2 * period, 3 * period] ∧ 2 * period ≤ 3 * period ∧
      3 * period < 2 * (period + (period + period / 2)) + period ∧
      (t.afterUpdates [period / 2, 2 * period]).lastTick = 2 * period := by
  intro t moments
  have hticks : t.tickMoments moments = [2 * period, 3 * period] := by decide
  obtain ⟨-, hupdates, hlow, hhigh⟩ :=
    ticks_keep_the_period t rfl moments (by decide)
  have hgap := hhigh (period + period / 2) (by decide)
  obtain ⟨hlast, -⟩ := hupdates [period / 2, 2 * period] (2 * period + period / 2)
  rw [hticks] at hlow hgap
  exact ⟨hticks, hlow, hgap, hlast⟩

end Timers

end ChipEight
