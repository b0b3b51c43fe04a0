import ChipEight.Log

/-!
# Attempts

An attempt is what an action that may fail leaves behind: the state it reached, the fault that
stopped it, if any, and the records it made.  A failed attempt still has a state and a log, because
a failure may leave traces that the next action sees.  Attempts are chained: what follows a fault
does not happen.
-/

namespace ChipEight

structure Attempt (σ ε : Type) where
  state : σ
  fault : Option ε
  log : Log

namespace Attempt

variable {σ τ ε δ : Type}

def done (state : σ) (log : Log) : Attempt σ ε :=
  ⟨state, none, log⟩

def failed (state : σ) (fault : ε) (log : Log) : Attempt σ ε :=
  ⟨state, some fault, log⟩

/-- Goes on from the state reached, unless there was a fault. -/
def andThen (a : Attempt σ ε) (next : σ → Attempt σ ε) : Attempt σ ε :=
  match a.fault with
  | some _ => a
  | none =>
      let b := next a.state
      ⟨b.state, b.fault, a.log ++ b.log⟩

def repeatedly (action : σ → Attempt σ ε) : Nat → Attempt σ ε → Attempt σ ε
  | 0, a => a
  | n + 1, a =>
      match a.fault with
      | some _ => a
      | none => repeatedly action n (a.andThen action)

def lift (a : Attempt σ ε) (embed : σ → τ) (cause : ε → δ) : Attempt τ δ :=
  ⟨embed a.state, a.fault.map cause, a.log⟩

def succeeded (a : Attempt σ ε) : Bool :=
  a.fault.isNone

theorem fault_eq_none_iff (a : Attempt σ ε) : a.fault = none ↔ a.succeeded = true :=
  Option.isNone_iff_eq_none.symm

theorem succeeded_iff (a : Attempt σ ε) :
    a.succeeded = true ↔ ∀ fault, a.fault ≠ some fault := by
  rw [← fault_eq_none_iff, Option.eq_none_iff_forall_ne_some]

@[simp] theorem andThen_done (state : σ) (log : Log) (next : σ → Attempt σ ε) :
    (done state log).andThen next =
      ⟨(next state).state, (next state).fault, log ++ (next state).log⟩ :=
  rfl

@[simp] theorem andThen_failed (state : σ) (fault : ε) (log : Log) (next : σ → Attempt σ ε) :
    (failed state fault log).andThen next = failed state fault log :=
  rfl

@[simp] theorem repeatedly_zero (action : σ → Attempt σ ε) (a : Attempt σ ε) :
    repeatedly action 0 a = a :=
  rfl

theorem andThen_of_fault {a : Attempt σ ε} {fault : ε} (hfault : a.fault = some fault)
    (next : σ → Attempt σ ε) :
    a.andThen next = a := by
  unfold andThen
  rw [hfault]

theorem andThen_of_succeeded {a : Attempt σ ε} (hfault : a.fault = none)
    (next : σ → Attempt σ ε) :
    (a.andThen next).state = (next a.state).state ∧
      (a.andThen next).fault = (next a.state).fault := by
  unfold andThen
  rw [hfault]
  exact ⟨rfl, rfl⟩

theorem log_andThen_of_succeeded {a : Attempt σ ε} (hfault : a.fault = none)
    (next : σ → Attempt σ ε) :
    (a.andThen next).log = a.log ++ (next a.state).log := by
  unfold andThen
  rw [hfault]

theorem andThen_assoc (a : Attempt σ ε) (next later : σ → Attempt σ ε) :
    (a.andThen next).andThen later = a.andThen fun state => (next state).andThen later := by
  cases hfault : a.fault with
  | some fault =>
      rw [andThen_of_fault hfault, andThen_of_fault hfault, andThen_of_fault hfault]
  | none =>
      unfold andThen
      simp only [hfault]
      generalize next a.state = b
      obtain ⟨state, fault, log⟩ := b
      cases fault with
      | some fault => rfl
      | none => simp only [Array.append_assoc]

/-- What holds of the state that an attempt reached and is kept by the next action holds in the end,
whether there was a fault or not. -/
theorem andThen_state {P : σ → Prop} {a : Attempt σ ε} {next : σ → Attempt σ ε}
    (ha : P a.state) (hnext : ∀ state, P state → P (next state).state) :
    P (a.andThen next).state := by
  cases hfault : a.fault with
  | some fault =>
      rw [andThen_of_fault hfault]
      exact ha
  | none =>
      rw [(andThen_of_succeeded hfault next).1]
      exact hnext a.state ha

theorem repeatedly_induction {Q : Attempt σ ε → Prop} {action : σ → Attempt σ ε}
    (haction : ∀ a, a.fault = none → Q a → Q (a.andThen action)) (n : Nat)
    {a : Attempt σ ε} (ha : Q a) :
    Q (repeatedly action n a) := by
  induction n generalizing a with
  | zero => exact ha
  | succ n ih =>
      unfold repeatedly
      split
      next => exact ha
      next hfault => exact ih (haction a hfault ha)

theorem repeatedly_of_fault {action : σ → Attempt σ ε} {a : Attempt σ ε} {fault : ε}
    (hfault : a.fault = some fault) (n : Nat) :
    repeatedly action n a = a := by
  cases n with
  | zero => rfl
  | succ n =>
      unfold repeatedly
      rw [hfault]

theorem repeatedly_succ (action : σ → Attempt σ ε) (n : Nat) (a : Attempt σ ε) :
    repeatedly action (n + 1) a = repeatedly action n (a.andThen action) := by
  cases hfault : a.fault with
  | some fault =>
      rw [andThen_of_fault hfault, repeatedly_of_fault hfault, repeatedly_of_fault hfault]
  | none =>
      rw [repeatedly]
      simp only [hfault]

/-- What relates two attempts and is kept by one more action of each is kept by rows of them. -/
theorem repeatedly_related {P : Attempt σ ε → Attempt τ δ → Prop} {action : σ → Attempt σ ε}
    {other : τ → Attempt τ δ}
    (haction : ∀ a b, P a b → P (a.andThen action) (b.andThen other)) (n : Nat)
    {a : Attempt σ ε} {b : Attempt τ δ} (hab : P a b) :
    P (repeatedly action n a) (repeatedly other n b) := by
  induction n generalizing a b with
  | zero => exact hab
  | succ n ih =>
      rw [repeatedly_succ, repeatedly_succ]
      exact ih (haction a b hab)

theorem repeatedly_eq_andThen (action : σ → Attempt σ ε) (n : Nat) (a : Attempt σ ε) :
    repeatedly action n a = a.andThen fun state => repeatedly action n (.done state #[]) := by
  induction n generalizing a with
  | zero =>
      obtain ⟨state, fault, log⟩ := a
      cases fault with
      | some fault => rfl
      | none => exact congrArg (Attempt.mk state none) Array.append_empty.symm
  | succ n ih =>
      have hfirst : ∀ state, repeatedly action (n + 1) (.done state #[]) =
          (action state).andThen fun state => repeatedly action n (.done state #[]) := by
        intro state
        rw [repeatedly_succ, ih, andThen_done]
        simp only [Array.empty_append]
      rw [repeatedly_succ, ih, andThen_assoc]
      simp only [hfirst]

theorem repeatedly_succ_done (action : σ → Attempt σ ε) (n : Nat) (state : σ) :
    repeatedly action (n + 1) (.done state #[]) =
      (action state).andThen fun after => repeatedly action n (.done after #[]) := by
  rw [repeatedly_succ, repeatedly_eq_andThen, andThen_done]
  simp only [Array.empty_append]

theorem repeatedly_add (action : σ → Attempt σ ε) (m n : Nat) (a : Attempt σ ε) :
    repeatedly action (m + n) a = repeatedly action n (repeatedly action m a) := by
  induction m generalizing a with
  | zero => rw [Nat.zero_add, repeatedly_zero]
  | succ m ih => rw [Nat.add_right_comm, repeatedly_succ, ih, repeatedly_succ]

/-- A row of rows is one long row. -/
theorem repeatedly_repeatedly (action : σ → Attempt σ ε) (m n : Nat) (a : Attempt σ ε) :
    repeatedly (fun state => repeatedly action m (.done state #[])) n a =
      repeatedly action (m * n) a := by
  induction n generalizing a with
  | zero => rfl
  | succ n ih =>
      rw [repeatedly_succ, ih, ← repeatedly_eq_andThen, ← repeatedly_add, Nat.mul_succ,
        Nat.add_comm]

end Attempt

end ChipEight
