import ProxyServer.Foundation.Runs

/-!
# Runs that come to an end

When every step takes something off a measure, a run has no more steps than the measure
allows, and some run ends where no step is left.
-/

namespace Runs

variable {σ α β ε : Type} {step : σ → α → Except ε σ} {s t : σ} {as : List α} {μ : σ → Nat} {I : σ → Prop}

theorem run_map (f : β → α) (bs : List β) : run step s (bs.map f) = run (fun s b => step s (f b)) s bs := by
  rw [run, run, List.foldlM_map]

theorem length_le_measure (start : I s) (keeps : ∀ s a t, I s → step s a = .ok t → I t)
    (drops : ∀ s a t, I s → step s a = .ok t → μ t < μ s) (ran : run step s as = .ok t) : as.length + μ t ≤ μ s := by
  induction as generalizing s with
  | nil =>
    cases ran
    exact Nat.le_of_eq (Nat.zero_add _)
  | cons a as ih =>
    obtain ⟨s', stepped, ran⟩ := run_cons.mp ran
    have shorter := ih (keeps s a s' start stepped) ran
    have dropped := drops s a s' start stepped
    rw [List.length_cons]
    omega

theorem run_exhausts (start : I s) (keeps : ∀ s a t, I s → step s a = .ok t → I t)
    (drops : ∀ s a t, I s → step s a = .ok t → μ t < μ s) :
    ∃ as t, run step s as = .ok t ∧ I t ∧ ∀ a t', step t a ≠ .ok t' := by
  induction measured : μ s using Nat.strongRecOn generalizing s with
  | ind n ih =>
    by_cases exhausted : ∃ a s', step s a = .ok s'
    · obtain ⟨a, s', stepped⟩ := exhausted
      obtain ⟨as, t, ran, holds, none⟩ :=
        ih (μ s') (measured ▸ drops s a s' start stepped) (keeps s a s' start stepped) rfl
      exact ⟨a :: as, t, run_cons.mpr ⟨s', stepped, ran⟩, holds, none⟩
    · exact ⟨[], s, run_nil, start, fun a s' stepped => exhausted ⟨a, s', stepped⟩⟩

end Runs
