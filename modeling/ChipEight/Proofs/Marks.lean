import ChipEight.Proofs.PowerOn

/-!
# The marks for the host

A machine keeps two marks for its host: that the screen is stale and that there was a beep.  No
instruction reads them, so machines that differ in nothing but their marks do the same in every
step, and where the timers do not follow the time, the moment of a step does not matter either.
-/

namespace ChipEight

namespace Screen

theorem flip_stale (s : Screen) (stale : Bool) (x y : Nat) (sprite : List UInt8) :
    ({ s with stale } : Screen).flip x y sprite =
      ((s.flip x y sprite).1, { (s.flip x y sprite).2 with stale }) := by
  induction sprite generalizing s y with
  | nil => rfl
  | cons bits rest ih =>
      have hrow : ({ s with stale } : Screen).flipRow x y bits =
          { s.flipRow x y bits with stale } := rfl
      have hcollides : ({ s with stale } : Screen).collides x y bits = s.collides x y bits := rfl
      simp only [flip, hrow, hcollides, ih]

theorem draw_stale (s : Screen) (stale : Bool) (x y : UInt8) (sprite : List UInt8) :
    ({ s with stale } : Screen).draw x y sprite = s.draw x y sprite := by
  simp only [draw, flip_stale]

end Screen

namespace Timers

theorem update_beep {t : Timers} (hmode : t.mode ≠ .realTime) (beep : Bool) (now later : Nat) :
    ∃ rung, ({ t with beep } : Timers).update later = { t.update now with beep := rung } ∧
      ({ t with beep } : Timers).updateLog later = t.updateLog now := by
  cases hcase : t.mode with
  | realTime => exact absurd hcase hmode
  | perStep =>
      refine ⟨beep || t.sound == 1, ?_, ?_⟩
      · simp [update, due, hcase, tick]
      · simp [updateLog, due, hcase, tickLog]
  | external =>
      refine ⟨beep, ?_, ?_⟩
      · simp [update, due, hcase]
      · simp [updateLog, due, hcase]

end Timers

namespace Machine

def marked (m : Machine) (stale beep : Bool) : Machine :=
  { m with screen := { m.screen with stale }, timers := { m.timers with beep } }

/-- The machine after its host has shown the screen and rung the bell. -/
def unmarked (m : Machine) : Machine :=
  m.acknowledgeScreen.takeBeep

theorem eq_marked_of_unmarked_eq {m m' : Machine} (heq : m.unmarked = m'.unmarked) :
    m = m'.marked m.screen.stale m.timers.beep := by
  have hmarked := congrArg (·.marked m.screen.stale m.timers.beep) heq
  exact hmarked

/-! ## One step -/

theorem Effect.marked {m after : Machine} {instruction : Instruction} {flow : Flow}
    (heffect : Effect m instruction flow after) (stale beep : Bool) :
    ∃ shown, Effect (m.marked stale beep) instruction flow (after.marked shown beep) := by
  cases heffect with
  | clear => exact ⟨true, .clear⟩
  | draw x y rows hrange =>
      have hdraw := Effect.draw (m := m.marked stale beep) x y rows hrange
      have hscreen := m.screen.draw_stale stale
      change ∀ x y sprite, (m.marked stale beep).screen.draw x y sprite = _ at hscreen
      rw [hscreen] at hdraw
      exact ⟨true, hdraw⟩
  | _ =>
      refine ⟨stale, ?_⟩
      constructor <;> assumption

theorem Refuses.marked {m : Machine} {instruction : Instruction} {fault : Fault}
    (hrefuses : Refuses m instruction fault) (stale beep : Bool) :
    Refuses (m.marked stale beep) instruction fault := by
  cases hrefuses with
  | leave htop => exact .leave htop
  | call target hpush => exact .call target hpush
  | random x mask hrandom => exact .random x mask hrandom
  | skipKey down x hkey => exact .skipKey down x hkey
  | reach hreach hout => exact .reach hreach hout

theorem record_marked (m : Machine) (stale beep : Bool) (instruction : Instruction) :
    (m.marked stale beep).record instruction = m.record instruction := by
  cases instruction <;> rfl

theorem cycle_marked (m : Machine) (stale beep : Bool) :
    ∃ shown, (m.marked stale beep).cycle = m.cycle.lift (·.marked shown beep) id := by
  obtain ⟨_, ⟨shown, rfl⟩, hcycle⟩ :=
    cycle_alike (fun m m' => ∃ shown, m' = m.marked shown beep) m (m.marked stale beep)
      rfl rfl rfl ⟨stale, rfl⟩ ⟨stale, rfl⟩ fun word _ _ =>
        { record := record_marked (m.fetched word) stale beep _
          refuses := fun _ hrefuses => hrefuses.marked stale beep
          effect := by
            intro flow after heffect
            obtain ⟨shown, hmarked⟩ := heffect.marked stale beep
            exact ⟨_, hmarked, shown, rfl⟩ }
  refine ⟨shown, ?_⟩
  rw [hcycle]
  unfold Attempt.lift
  rw [Option.map_id, id]

theorem step_marked {m : Machine} (hmode : m.timers.mode ≠ .realTime) (stale beep : Bool)
    (now later : Nat) :
    ∃ shown rung, (m.marked stale beep).step later =
      (m.step now).lift (·.marked shown rung) id := by
  have hafter : m.cycle.state.timers.mode ≠ .realTime := by
    rw [m.retains_cycle.mode]
    exact hmode
  obtain ⟨_, ⟨shown, rung, rfl⟩, hstep⟩ :=
    step_alike (fun m m' => ∃ shown rung, m' = m.marked shown rung) m (m.marked stale beep)
      now later rfl ⟨stale, beep, rfl⟩
      (fun _ => by
        obtain ⟨shown, hcycle⟩ := m.cycle_marked stale beep
        rw [hcycle]
        exact ⟨_, ⟨shown, beep, rfl⟩, by rw [Attempt.lift, Option.map_id, id]⟩)
      (fun _ hmarked => by
        obtain ⟨shown, rung, rfl⟩ := hmarked
        obtain ⟨rungLater, hupdate, hlog⟩ := Timers.update_beep hafter rung now later
        exact ⟨⟨shown, rungLater, congrArg
          (fun timers => { m.cycle.state.marked shown rung with timers }) hupdate⟩, hlog⟩)
  refine ⟨shown, rung, ?_⟩
  rw [hstep]
  unfold Attempt.lift
  rw [Option.map_id, id]

end Machine

end ChipEight
