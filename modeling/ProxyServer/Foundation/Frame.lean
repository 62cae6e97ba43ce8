import ProxyServer.Foundation.Wp

/-!
# What a program does to a part of the state

`Takes R f x` says that `R` relates the part `f` of the state before `x` to the one
after it, unless `x` fails; `Leaves f x`, that the two are the same.
-/

namespace Wp

variable {σ ε α β γ : Type} {R : γ → γ → Prop} {f : σ → γ} {x : StateT σ (Except ε) α}
  {k : α → StateT σ (Except ε) β}

def Takes (R : γ → γ → Prop) (f : σ → γ) (x : StateT σ (Except ε) α) : Prop :=
  ∀ s, wp (fun _ => True) x (fun _ t => R (f s) (f t)) s

def Leaves (f : σ → γ) (x : StateT σ (Except ε) α) : Prop := Takes Eq f x

theorem Takes.throw {e : ε} : Takes R f (throw e : StateT σ (Except ε) α) := fun _ => trivial

theorem Takes.mono {R' : γ → γ → Prop} (takes : Takes R f x) (weaker : ∀ a b, R a b → R' a b) : Takes R' f x := by
  intro s
  exact wp_mono (fun _ t related => weaker _ _ related) (takes s)

theorem Leaves.then (first : Leaves f x) (rest : ∀ a, Takes R f (k a)) : Takes R f (x >>= k) := by
  intro s
  rw [wp_bind]
  apply wp_mono _ (first s)
  intro a t same
  rw [same]
  exact rest a t

theorem Takes.leaving (takes : Takes R f x) (rest : ∀ a, Leaves f (k a)) : Takes R f (x >>= k) := by
  intro s
  rw [wp_bind]
  apply wp_mono _ (takes s)
  intro a t related
  apply wp_mono _ (rest a t)
  intro b u same
  rw [← same]
  exact related

theorem Takes.whenever {c : Bool} {x : StateT σ (Except ε) Unit} (holds : c = true → Takes R f x)
    (same : c = false → ∀ a, R a a) : Takes R f (whenever c x) := by
  cases c with
  | true => exact holds rfl
  | false => exact fun s => same rfl (f s)

@[simp] theorem leaves_pure {a : α} : Leaves f (pure a : StateT σ (Except ε) α) := fun _ => rfl

@[simp] theorem leaves_throw {e : ε} : Leaves f (throw e : StateT σ (Except ε) α) := Takes.throw

@[simp] theorem leaves_get : Leaves f (get : StateT σ (Except ε) σ) := fun _ => rfl

@[simp] theorem leaves_modify {g : σ → σ} (same : ∀ s, f (g s) = f s) :
    Leaves f (modify g : StateT σ (Except ε) PUnit) := fun s => (same s).symm

@[simp] theorem Leaves.bind (first : Leaves f x) (rest : ∀ a, Leaves f (k a)) : Leaves f (x >>= k) := first.then rest

@[simp] theorem leaves_ite {c : Prop} [Decidable c] {y : StateT σ (Except ε) α} (yes : Leaves f x) (no : Leaves f y) :
    Leaves f (if c then x else y) := by
  split
  · exact yes
  · exact no

@[simp] theorem leaves_whenever {c : Bool} {x : StateT σ (Except ε) Unit} (holds : Leaves f x) :
    Leaves f (whenever c x) := Takes.whenever (fun _ => holds) fun _ _ => rfl

theorem leaves_update {g : σ → σ} {h : σ → α} (same : ∀ s, f (g s) = f s) :
    Leaves f (do let s ← get; set (g s); return h s : StateT σ (Except ε) α) := fun s => (same s).symm

end Wp
