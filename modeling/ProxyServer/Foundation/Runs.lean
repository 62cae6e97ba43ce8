import Mathlib.Logic.Basic

/-!
# Event-driven runs

A system that takes a step for each event, or fails. A condition may be asked of
every step of a run.
-/

namespace Runs

variable {σ α ε : Type} {step : σ → α → Except ε σ} {s t : σ} {a : α} {as : List α}

theorem bind_ok {β γ : Type} {x : Except ε β} {f : β → Except ε γ} {c : γ} :
    x >>= f = .ok c ↔ ∃ b, x = .ok b ∧ f b = .ok c := by
  cases x with
  | error e => simp [bind, Except.bind]
  | ok b => simp [bind, Except.bind]

theorem bind_error {β γ : Type} {x : Except ε β} {f : β → Except ε γ} {e : ε} :
    x >>= f = .error e ↔ x = .error e ∨ ∃ b, x = .ok b ∧ f b = .error e := by
  cases x with
  | error e' => simp [bind, Except.bind]
  | ok b => simp [bind, Except.bind]

theorem map_ok {β γ : Type} {x : Except ε β} {f : β → γ} {c : γ} : x.map f = .ok c ↔ ∃ b, x = .ok b ∧ f b = c := by
  cases x with
  | error e => simp [Except.map]
  | ok b => simp [Except.map]

theorem map_error {β γ : Type} {x : Except ε β} {f : β → γ} {e : ε} : x.map f = .error e ↔ x = .error e := by
  cases x with
  | error e' => simp [Except.map]
  | ok b => simp [Except.map]

theorem ok_any {β : Type} {x : Except ε β} {p : β → Bool} (holds : x.toOption.any p = true) :
    ∃ b, x = .ok b ∧ p b = true := by
  cases x with
  | error e => cases holds
  | ok b => exact ⟨b, rfl, holds⟩

def run (step : σ → α → Except ε σ) (s : σ) (as : List α) : Except ε σ := as.foldlM step s

/-- Every step of the run meets `C`. -/
def Along (step : σ → α → Except ε σ) (C : σ → α → Prop) : σ → List α → Prop
  | _, [] => True
  | s, a :: as => C s a ∧ ∀ s', step s a = .ok s' → Along step C s' as

theorem Along.mono {C C' : σ → α → Prop} (along : Along step C s as) (weaker : ∀ s a, C s a → C' s a) :
    Along step C' s as := by
  induction as generalizing s with
  | nil => trivial
  | cons a as ih => exact ⟨weaker s a along.1, fun s' stepped => ih (along.2 s' stepped)⟩

theorem Along.always {C : σ → α → Prop} (all : ∀ s a, C s a) : Along step C s as := by
  induction as generalizing s with
  | nil => trivial
  | cons a as ih => exact ⟨all s a, fun _ _ => ih⟩

theorem Along.of_forall {P : α → Prop} (all : ∀ a ∈ as, P a) : Along step (fun _ a => P a) s as := by
  induction as generalizing s with
  | nil => trivial
  | cons a as ih =>
    exact ⟨all a List.mem_cons_self, fun _ _ => ih (fun b later => all b (List.mem_cons_of_mem _ later))⟩

instance Along.decide {C : σ → α → Prop} [∀ s a, Decidable (C s a)] :
    (s : σ) → (as : List α) → Decidable (Along step C s as)
  | _, [] => isTrue trivial
  | s, a :: as =>
    match h : step s a with
    | .ok s' =>
      have := Along.decide (C := C) s' as
      decidable_of_iff (C s a ∧ Along step C s' as) (by simp [Along, h])
    | .error _ => decidable_of_iff (C s a) (by simp [Along, h])

theorem run_nil : run step s [] = .ok s := rfl

theorem run_cons : run step s (a :: as) = .ok t ↔ ∃ s', step s a = .ok s' ∧ run step s' as = .ok t := by
  simp only [run, List.foldlM_cons, bind, Except.bind]
  cases step s a with
  | error e => simp
  | ok s' => simp

theorem run_append {bs : List α} : run step s (as ++ bs) = .ok t ↔
    ∃ s', run step s as = .ok s' ∧ run step s' bs = .ok t := by
  simp only [run, List.foldlM_append, bind, Except.bind]
  cases List.foldlM step s as with
  | error e => simp
  | ok s' => simp

theorem Along.at {C : σ → α → Prop} (along : Along step C s (as ++ [a])) (ran : run step s as = .ok t) : C t a := by
  induction as generalizing s with
  | nil =>
    cases ran
    exact along.1
  | cons b as ih =>
    obtain ⟨s', stepped, ran⟩ := run_cons.mp ran
    exact ih (along.2 s' stepped) ran

theorem run_ends (ends : (run step s as).isOk = true) : ∃ t, run step s as = .ok t := by
  cases result : run step s as with
  | error e =>
    rw [result] at ends
    cases ends
  | ok t => exact ⟨t, rfl⟩

theorem run_any {p : σ → Bool} (holds : (run step s as).toOption.any p = true) :
    ∃ t, run step s as = .ok t ∧ p t = true := ok_any holds

theorem invariant {I : σ → Prop} (start : I s) (preserve : ∀ s a s', I s → step s a = .ok s' → I s')
    (ran : run step s as = .ok t) : I t := by
  induction as generalizing s with
  | nil =>
    cases ran
    exact start
  | cons a as ih =>
    obtain ⟨s', stepped, ran⟩ := run_cons.mp ran
    exact ih (preserve s a s' start stepped) ran

/-- What every step that meets the condition preserves holds after a run of such steps. -/
theorem invariant_along {C : σ → α → Prop} {I : σ → Prop} (start : I s)
    (preserve : ∀ s a s', I s → C s a → step s a = .ok s' → I s')
    (along : Along step C s as) (ran : run step s as = .ok t) : I t := by
  induction as generalizing s with
  | nil =>
    cases ran
    exact start
  | cons a as ih =>
    obtain ⟨s', stepped, ran⟩ := run_cons.mp ran
    exact ih (preserve s a s' start along.1 stepped) (along.2 s' stepped) ran

theorem along_iff {C C' : σ → α → Prop} {I : σ → Prop} (start : I s)
    (preserve : ∀ s a s', I s → step s a = .ok s' → I s') (same : ∀ s a, I s → (C s a ↔ C' s a)) :
    Along step C s as ↔ Along step C' s as := by
  induction as generalizing s with
  | nil => exact Iff.rfl
  | cons a as ih =>
    unfold Along
    apply and_congr (same s a start)
    apply forall_congr'
    intro s'
    apply forall_congr'
    intro stepped
    exact ih (preserve s a s' start stepped)

/-- Two conditions that are the same in every step of a run that does not fail, where
the steps meet `D`. -/
theorem along_iff_given {C C' D : σ → α → Prop} {I : σ → Prop} (start : I s)
    (preserve : ∀ s a s', I s → step s a = .ok s' → I s')
    (same : ∀ s a s', I s → D s a → step s a = .ok s' → (C s a ↔ C' s a)) (given : Along step D s as)
    (ran : run step s as = .ok t) : Along step C s as ↔ Along step C' s as := by
  induction as generalizing s with
  | nil => exact Iff.rfl
  | cons a as ih =>
    obtain ⟨s', stepped, ran⟩ := run_cons.mp ran
    unfold Along
    apply and_congr (same s a s' start given.1 stepped)
    apply forall_congr'
    intro s''
    apply forall_congr'
    intro stepped'
    rw [stepped] at stepped'
    cases stepped'
    exact ih (preserve s a s' start stepped) (given.2 s' stepped) ran

theorem Along.and {C D : σ → α → Prop} (first : Along step C s as) (second : Along step D s as) :
    Along step (fun s a => C s a ∧ D s a) s as := by
  induction as generalizing s with
  | nil => trivial
  | cons a as ih => exact ⟨⟨first.1, second.1⟩, fun s' stepped => ih (first.2 s' stepped) (second.2 s' stepped)⟩

/-- `P` holds after a run whose steps meet `D` when it holds at its start and each step
meets the condition, if that is so of one step. -/
theorem holds_iff_given {C D : σ → α → Prop} {I P : σ → Prop} (start : I s)
    (preserve : ∀ s a s', I s → D s a → step s a = .ok s' → I s')
    (exact_step : ∀ s a s', I s → D s a → step s a = .ok s' → (P s' ↔ P s ∧ C s a))
    (given : Along step D s as) (ran : run step s as = .ok t) : P t ↔ P s ∧ Along step C s as := by
  induction as generalizing s with
  | nil =>
    cases ran
    exact (and_iff_left trivial).symm
  | cons a as ih =>
    obtain ⟨s', stepped, ran⟩ := run_cons.mp ran
    rw [ih (preserve s a s' start given.1 stepped) (given.2 s' stepped) ran, exact_step s a s' start given.1 stepped,
      and_assoc]
    have next : Along step C s' as ↔ ∀ s'', step s a = .ok s'' → Along step C s'' as := by
      constructor
      · intro along s'' same
        rw [stepped] at same
        cases same
        exact along
      · intro along
        exact along s' stepped
    rw [next]
    rfl

/-- `P` holds after a run when it holds at its start and each step meets the
condition, if that is so of one step. -/
theorem holds_iff_along {C : σ → α → Prop} {I P : σ → Prop} (start : I s)
    (preserve : ∀ s a s', I s → step s a = .ok s' → I s')
    (exact_step : ∀ s a s', I s → step s a = .ok s' → (P s' ↔ P s ∧ C s a))
    (ran : run step s as = .ok t) : P t ↔ P s ∧ Along step C s as :=
  holds_iff_given start (fun s a s' kept _ => preserve s a s' kept) (fun s a s' kept _ => exact_step s a s' kept)
    (Along.always (fun _ _ => trivial)) ran

/-- `P` holds in every state of a run when each step meets the condition, if that is so
of a step from a state where it holds. -/
theorem along_iff_reached {C : σ → α → Prop} {I P : σ → Prop} (start : I s) (holds : P s)
    (preserve : ∀ s a s', I s → step s a = .ok s' → I s')
    (exact_step : ∀ s a s', I s → P s → step s a = .ok s' → (P s' ↔ C s a)) (ran : run step s as = .ok t) :
    Along step (fun s a => ∀ s', step s a = .ok s' → P s') s as ↔ Along step C s as := by
  induction as generalizing s with
  | nil => exact Iff.rfl
  | cons a as ih =>
    obtain ⟨s', stepped, ran⟩ := run_cons.mp ran
    have here := exact_step s a s' start holds stepped
    have kept := preserve s a s' start stepped
    constructor
    · intro along
      have held := along.1 s' stepped
      refine ⟨here.mp held, fun s'' same => ?_⟩
      rw [stepped] at same
      cases same
      exact (ih kept held ran).mp (along.2 s' stepped)
    · intro along
      have held := here.mpr along.1
      refine ⟨fun s'' same => ?_, fun s'' same => ?_⟩
      · rw [stepped] at same
        cases same
        exact held
      · rw [stepped] at same
        cases same
        exact (ih kept held ran).mpr (along.2 s' stepped)

/-- A run that fails does so in a step from a state that is kept. -/
theorem failure_along {C : σ → α → Prop} {I : σ → Prop} {e : ε} (start : I s)
    (preserve : ∀ s a s', I s → C s a → step s a = .ok s' → I s')
    (along : Along step C s as) (failed : run step s as = .error e) : ∃ s a, I s ∧ C s a ∧ step s a = .error e := by
  induction as generalizing s with
  | nil => cases failed
  | cons a as ih =>
    simp only [run, List.foldlM_cons, bind, Except.bind] at failed
    cases stepped : step s a with
    | error e' =>
      rw [stepped] at failed
      cases failed
      exact ⟨s, a, start, along.1, stepped⟩
    | ok s' =>
      rw [stepped] at failed
      exact ih (preserve s a s' start along.1 stepped) (along.2 s' stepped) failed

/-- A run fails in one of its steps. -/
theorem failure_at {e : ε} (failed : run step s as = .error e) :
    ∃ before a after t, as = before ++ a :: after ∧ run step s before = .ok t ∧ step t a = .error e := by
  induction as generalizing s with
  | nil => cases failed
  | cons a as ih =>
    simp only [run, List.foldlM_cons, bind, Except.bind] at failed
    cases stepped : step s a with
    | error e' =>
      rw [stepped] at failed
      cases failed
      exact ⟨[], a, as, s, rfl, rfl, stepped⟩
    | ok s' =>
      rw [stepped] at failed
      obtain ⟨before, b, after, t, rfl, ran, fails⟩ := ih failed
      exact ⟨a :: before, b, after, t, rfl, run_cons.mpr ⟨s', stepped, ran⟩, fails⟩

/-- Every failure of a run is a `Q` if and only if that is so of the failures of its steps. -/
theorem failures_iff_along {C : σ → α → Prop} {I : σ → Prop} {Q : ε → Prop} (start : I s)
    (preserve : ∀ s a s', I s → step s a = .ok s' → I s')
    (exact_step : ∀ s a, I s → ((∀ e, step s a = .error e → Q e) ↔ C s a)) :
    (∀ e, run step s as = .error e → Q e) ↔ Along step C s as := by
  induction as generalizing s with
  | nil =>
    constructor
    · intro _
      trivial
    · intro _ e failed
      cases failed
  | cons a as ih =>
    unfold Along
    rw [← exact_step s a start]
    simp only [run, List.foldlM_cons, bind, Except.bind]
    cases stepped : step s a with
    | error e =>
      constructor
      · intro all
        exact ⟨all, fun s' same => by cases same⟩
      · intro both
        exact both.1
    | ok s' =>
      have later := ih (preserve s a s' start stepped)
      constructor
      · intro all
        refine ⟨fun e failed => (by cases failed), fun t same => ?_⟩
        cases same
        exact later.mp all
      · intro both
        exact later.mpr (both.2 s' rfl)

end Runs
