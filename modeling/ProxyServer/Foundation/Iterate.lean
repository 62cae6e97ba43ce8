import Mathlib.Logic.Basic

/-!
# Deterministic runs

A step that may fail, taken until the state is halted.
-/

namespace Iterate

variable {σ ε : Type} (halted : σ → Prop) [DecidablePred halted] (step : σ → Except ε σ)

/-- At most `n` steps. -/
def run : Nat → σ → Except ε σ
  | 0, s => .ok s
  | n + 1, s => if halted s then .ok s else (step s).bind (run n)

/-- The run from `s` halts, without a failure, in a state that satisfies `P`. -/
def Reaches (s : σ) (P : σ → Prop) : Prop := ∃ n s', run halted step n s = .ok s' ∧ halted s' ∧ P s'

variable {halted step} {s s' : σ} {P : σ → Prop}

theorem run_halted (h : halted s) (n : Nat) : run halted step n s = .ok s := by
  cases n with
  | zero => rfl
  | succ n => rw [run, if_pos h]

theorem run_step (h : ¬halted s) (stepped : step s = .ok s') (n : Nat) :
    run halted step (n + 1) s = run halted step n s' := by
  rw [run, if_neg h, stepped]
  rfl

theorem run_add (a b : Nat) (s : σ) :
    run halted step (a + b) s = (run halted step a s).bind (run halted step b) := by
  induction a generalizing s with
  | zero => simp [run, Except.bind]
  | succ a ih =>
    rw [show a + 1 + b = (a + b) + 1 by omega, run, run]
    split
    · rename_i h
      simp [Except.bind, run_halted h]
    · cases step s with
      | error e => rfl
      | ok s' => exact ih s'

/-- The fate of a run is decided from any state that it passes. -/
theorem reaches_run {k : Nat} (h : run halted step k s = .ok s') :
    Reaches halted step s P ↔ Reaches halted step s' P := by
  constructor
  · rintro ⟨n, t, ran, stops, holds⟩
    refine ⟨n, t, ?_, stops, holds⟩
    have long : run halted step (n + k) s = .ok t := by
      rw [run_add, ran]
      exact run_halted stops k
    rwa [Nat.add_comm, run_add, h] at long
  · rintro ⟨n, t, ran, stops, holds⟩
    exact ⟨k + n, t, by rw [run_add, h]; exact ran, stops, holds⟩

theorem reaches_step (h : ¬halted s) (stepped : step s = .ok s') :
    Reaches halted step s P ↔ Reaches halted step s' P :=
  reaches_run (k := 1) (by rw [run_step h stepped]; rfl)

theorem reaches_halted (h : halted s) : Reaches halted step s P ↔ P s := by
  constructor
  · rintro ⟨n, t, ran, _, holds⟩
    rw [run_halted h] at ran
    cases ran
    exact holds
  · intro holds
    exact ⟨0, s, rfl, h, holds⟩

theorem not_reaches_error {e : ε} (h : ¬halted s) (failed : step s = .error e) :
    ¬Reaches halted step s P := by
  rintro ⟨n, t, ran, stops, _⟩
  cases n with
  | zero =>
    cases ran
    exact h stops
  | succ n =>
    rw [run, if_neg h, failed] at ran
    cases ran

theorem reaches_invariant {I : σ → Prop} (start : I s)
    (preserve : ∀ s s', I s → ¬halted s → step s = .ok s' → I s') (h : Reaches halted step s P) :
    ∃ t, halted t ∧ I t ∧ P t := by
  obtain ⟨n, t, ran, stops, holds⟩ := h
  refine ⟨t, stops, ?_, holds⟩
  clear stops holds
  induction n generalizing s with
  | zero =>
    cases ran
    exact start
  | succ n ih =>
    rw [run] at ran
    split at ran
    · cases ran
      exact start
    · rename_i running
      cases stepped : step s with
      | error e => rw [stepped] at ran; cases ran
      | ok s' =>
        rw [stepped] at ran
        exact ih (preserve s s' start running stepped) ran

end Iterate
