import Mathlib.Logic.Basic

/-!
# Weakest preconditions

Programs with a state that may fail. `wp E x Q s` says that `x` takes `s` to a
result and a state that satisfy `Q`, or fails with an error that `E` allows.
-/

namespace Wp

variable {σ ε α β : Type}

def wp (E : ε → Prop) (x : StateT σ (Except ε) α) (Q : α → σ → Prop) (s : σ) : Prop :=
  match x s with
  | .ok (a, t) => Q a t
  | .error e => E e

/-- `x` when `c` holds, and else nothing. -/
def whenever (c : Bool) (x : StateT σ (Except ε) Unit) : StateT σ (Except ε) Unit :=
  if c then x else pure ()

variable {E : ε → Prop} {x : StateT σ (Except ε) α} {f : α → StateT σ (Except ε) β}
  {Q Q' : α → σ → Prop} {R : β → σ → Prop} {s t : σ}

@[simp] theorem wp_pure {a : α} : wp E (pure a) Q s ↔ Q a s := Iff.rfl

@[simp] theorem wp_throw {e : ε} : wp E (throw e) Q s ↔ E e := Iff.rfl

@[simp] theorem wp_get {Q : σ → σ → Prop} : wp E get Q s ↔ Q s s := Iff.rfl

@[simp] theorem wp_set {Q : PUnit → σ → Prop} : wp E (set t) Q s ↔ Q ⟨⟩ t := Iff.rfl

@[simp] theorem wp_modify {g : σ → σ} {Q : PUnit → σ → Prop} : wp E (modify g) Q s ↔ Q ⟨⟩ (g s) := Iff.rfl

@[simp] theorem wp_bind : wp E (x >>= f) R s ↔ wp E x (fun a t => wp E (f a) R t) s := by
  simp only [wp, bind, StateT.bind, Except.bind]
  cases x s <;> rfl

theorem wp_ite {c : Prop} [Decidable c] {y : StateT σ (Except ε) α} :
    wp E (if c then x else y) Q s ↔ (c → wp E x Q s) ∧ (¬c → wp E y Q s) := by
  split <;> simp_all

theorem wp_whenever {c : Bool} {x : StateT σ (Except ε) Unit} {Q : Unit → σ → Prop} :
    wp E (whenever c x) Q s ↔ (c = true → wp E x Q s) ∧ (c = false → Q () s) := by
  cases c <;> simp [whenever]

theorem wp_mono (weaker : ∀ a t, Q a t → Q' a t) (h : wp E x Q s) : wp E x Q' s := by
  simp only [wp] at h ⊢
  cases ran : x s with
  | error e => rwa [ran] at h
  | ok r => rw [ran] at h; exact weaker _ _ h

theorem wp_and (h : wp E x Q s) (also : wp (fun _ => True) x Q' s) : wp E x (fun a t => Q a t ∧ Q' a t) s := by
  simp only [wp] at h also ⊢
  cases ran : x s with
  | error e => rwa [ran] at h
  | ok r =>
    rw [ran] at h also
    exact ⟨h, also⟩

theorem wp_ok {a : α} (h : wp E x Q s) (ran : x s = .ok (a, t)) : Q a t := by
  rwa [wp, ran] at h

theorem wp_error {e : ε} (h : wp E x Q s) (ran : x s = .error e) : E e := by
  rwa [wp, ran] at h

end Wp
