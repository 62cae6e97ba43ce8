import ProxyServer.Foundation.Frame

/-!
# Programs seen through a view of the state

`Via view x Q v` says that `x` takes every state that looks like `v` to one that looks like
`Q` asks, unless it fails.
-/

namespace Wp

variable {σ ν ε α β : Type} {view : σ → ν} {x : StateT σ (Except ε) α} {f : α → StateT σ (Except ε) β}
  {Q Q' : α → ν → Prop} {R : β → ν → Prop} {v : ν}

def Via (view : σ → ν) (x : StateT σ (Except ε) α) (Q : α → ν → Prop) (v : ν) : Prop :=
  ∀ s, view s = v → wp (fun _ => True) x (fun a t => Q a (view t)) s

theorem Via.pure {a : α} (h : Q a v) : Via view (pure a : StateT σ (Except ε) α) Q v := by
  rintro s rfl
  exact h

theorem Via.throw {e : ε} : Via view (throw e : StateT σ (Except ε) α) Q v := fun _ _ => trivial

theorem Via.bind (h : Via view x (fun a w => Via view (f a) R w) v) : Via view (x >>= f) R v := by
  intro s same
  exact wp_bind.mpr (wp_mono (fun a t here => here t rfl) (h s same))

theorem Via.mono (h : Via view x Q v) (weaker : ∀ a w, Q a w → Q' a w) : Via view x Q' v := fun s same =>
  wp_mono (fun a _ => weaker a _) (h s same)

theorem Via.get {f : σ → StateT σ (Except ε) β} (h : ∀ s, view s = v → Via view (f s) R v) :
    Via view (get >>= f) R v := by
  intro s same
  simp only [wp_bind, wp_get]
  exact h s same s same

theorem Via.whenever {c : Bool} {x : StateT σ (Except ε) Unit} {Q : Unit → ν → Prop}
    (h : c = true → Via view x Q v) (h' : c = false → Q () v) : Via view (whenever c x) Q v := by
  cases c with
  | true => exact h rfl
  | false => exact Via.pure (h' rfl)

/-- What a program leaves alone looks the same afterwards. -/
theorem Via.of_leaves (leaves : Leaves view x) (h : ∀ a, Q a v) : Via view x Q v := by
  rintro s rfl
  apply wp_mono _ (leaves s)
  intro a t same
  rw [← same]
  exact h a

theorem Via.then_leaves (leaves : Leaves view x) (h : ∀ a, Via view (f a) R v) : Via view (x >>= f) R v :=
  Via.bind (Via.of_leaves leaves h)

end Wp
