import Mathlib.Data.List.Basic

/-!
# Pipes

What went into a first-in first-out channel, what came out of it and what it
still holds.
-/

structure Pipe (α : Type) where
  entered : List α
  left : List α
  held : List α
  conserved : left ++ held = entered

namespace Pipe

variable {α : Type} {p : Pipe α} {xs : List α} {n : Nat}

def empty : Pipe α := { entered := [], left := [], held := [], conserved := rfl }

def push (p : Pipe α) (xs : List α) : Pipe α where
  entered := p.entered ++ xs
  left := p.left
  held := p.held ++ xs
  conserved := by rw [← List.append_assoc, p.conserved]

/-- At most `n` elements come out. -/
def pop (p : Pipe α) (n : Nat) : Pipe α where
  entered := p.entered
  left := p.left ++ p.held.take n
  held := p.held.drop n
  conserved := by rw [List.append_assoc, List.take_append_drop, p.conserved]

theorem left_prefix : p.left <+: p.entered := ⟨p.held, p.conserved⟩

theorem left_eq_entered_iff : p.left = p.entered ↔ p.held = [] := by
  rw [← p.conserved]
  constructor
  · intro all
    exact List.append_cancel_left (all.symm.trans (List.append_nil _).symm)
  · intro none
    rw [none, List.append_nil]

/-- What leaves `p` enters `q`. -/
def comp (p q : Pipe α) (joined : q.entered = p.left) : Pipe α where
  entered := p.entered
  left := q.left
  held := q.held ++ p.held
  conserved := by rw [← List.append_assoc, q.conserved, joined, p.conserved]

end Pipe
