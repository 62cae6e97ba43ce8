import Mathlib.Data.List.Basic
import ProxyServer.Foundation.Iterate

/-!
# A loop that exchanges two arrays

The elements at one index after the other are exchanged, as long as a condition on the
index holds.
-/

namespace Exchange

variable {α : Type} {goesOn : Nat → Bool} {xs ys : List α} {i k n w : Nat}

/-- The loop from the index `i` on, with what the arrays hold from there on. There is no
result when it indexes past one of them. -/
def loop (goesOn : Nat → Bool) : Nat → List α → List α → Option (List α × List α)
  | i, x :: xs, y :: ys =>
    if goesOn i then (loop goesOn (i + 1) xs ys).map fun rest => (y :: rest.1, x :: rest.2) else some (x :: xs, y :: ys)
  | i, xs, ys => if goesOn i then none else some (xs, ys)

theorem loop_stop (stops : goesOn i = false) : loop goesOn i xs ys = some (xs, ys) := by
  unfold loop
  split
  · rw [stops]
    rfl
  · rw [stops]
    rfl

/-- The first elements are exchanged until the condition fails. -/
theorem loop_exchanges (goes : ∀ j < k, goesOn (i + j) = true) (stops : goesOn (i + k) = false) (left : k ≤ xs.length)
    (right : k ≤ ys.length) : loop goesOn i xs ys = some (ys.take k ++ xs.drop k, xs.take k ++ ys.drop k) := by
  induction k generalizing i xs ys with
  | zero => exact loop_stop stops
  | succ k ih =>
    obtain ⟨x, xs, rfl⟩ := List.exists_cons_of_length_pos (Nat.lt_of_lt_of_le (Nat.succ_pos k) left)
    obtain ⟨y, ys, rfl⟩ := List.exists_cons_of_length_pos (Nat.lt_of_lt_of_le (Nat.succ_pos k) right)
    have here : goesOn i = true := goes 0 (Nat.succ_pos k)
    have later : ∀ j < k, goesOn (i + 1 + j) = true := by
      intro j low
      rw [Nat.add_assoc, Nat.add_comm 1 j]
      exact goes (j + 1) (Nat.succ_lt_succ low)
    have ends : goesOn (i + 1 + k) = false := by
      rw [Nat.add_assoc, Nat.add_comm 1 k]
      exact stops
    rw [loop, if_pos here, ih later ends (Nat.le_of_succ_le_succ left) (Nat.le_of_succ_le_succ right)]
    rfl

theorem loop_outside (goes : goesOn i = true) (past : xs = [] ∨ ys = []) : loop goesOn i xs ys = none := by
  rw [loop, if_pos goes]
  intro x xs' y ys' left right
  rcases past with rfl | rfl
  · cases left
  · cases right

/-- A loop whose condition never fails leaves the arrays. -/
theorem loop_past (goes : ∀ j, goesOn (i + j) = true) : loop goesOn i xs ys = none := by
  induction xs generalizing i ys with
  | nil => exact loop_outside (goes 0) (.inl rfl)
  | cons x xs ih =>
    cases ys with
    | nil => exact loop_outside (goes 0) (.inr rfl)
    | cons y ys =>
      have here : goesOn i = true := goes 0
      have later : ∀ j, goesOn (i + 1 + j) = true := by
        intro j
        rw [Nat.add_assoc]
        exact goes (1 + j)
      rw [loop, if_pos here, ih later]
      rfl

/-! ### The loop by its index -/

/-- The index and the arrays, whole. -/
structure State (α : Type) where
  index : Nat
  first : List α
  second : List α

/-- The loop is at its end. -/
def Stops (goesOn : Nat → Bool) (s : State α) : Prop := goesOn s.index = false

instance : DecidablePred (Stops (α := α) goesOn) := fun s => inferInstanceAs (Decidable (goesOn s.index = false))

/-- The elements at the index are exchanged, or one of the arrays has none there. -/
def step (s : State α) : Except Unit (State α) :=
  match s.first[s.index]?, s.second[s.index]? with
  | some x, some y => .ok ⟨s.index + 1, s.first.set s.index y, s.second.set s.index x⟩
  | _, _ => .error ()

theorem step_inside {s : State α} {x y : α} (left : s.first[s.index]? = some x) (right : s.second[s.index]? = some y) :
    step s = .ok ⟨s.index + 1, s.first.set s.index y, s.second.set s.index x⟩ := by
  unfold step
  rw [left, right]

theorem step_outside {s : State α} (past : s.first.length ≤ s.index ∨ s.second.length ≤ s.index) : step s = .error () := by
  unfold step
  rcases past with left | right
  · rw [List.getElem?_eq_none left]
  · rw [List.getElem?_eq_none right]
    cases s.first[s.index]? with
    | none => rfl
    | some x => rfl

variable {p q : List α} {P : List α → List α → Prop}

theorem step_append (left : p.length = i) (right : q.length = i) (x y : α) :
    step ⟨i, p ++ x :: xs, q ++ y :: ys⟩ = .ok ⟨i + 1, (p ++ [y]) ++ xs, (q ++ [x]) ++ ys⟩ := by
  have first : (p ++ x :: xs)[i]? = some x := by
    rw [List.getElem?_append_right (Nat.le_of_eq left), left, Nat.sub_self]
    rfl
  have second : (q ++ y :: ys)[i]? = some y := by
    rw [List.getElem?_append_right (Nat.le_of_eq right), right, Nat.sub_self]
    rfl
  rw [step_inside first second]
  dsimp only
  rw [List.set_append_right i y (Nat.le_of_eq left), List.set_append_right i x (Nat.le_of_eq right), left, right,
    Nat.sub_self, List.append_assoc, List.append_assoc]
  rfl

theorem reaches_stop (stops : goesOn i = false) :
    Iterate.Reaches (Stops goesOn) step ⟨i, p ++ xs, q ++ ys⟩ (fun s => P s.first s.second) ↔
      ∃ rest, loop goesOn i xs ys = some rest ∧ P (p ++ rest.1) (q ++ rest.2) := by
  have ends : Stops goesOn (State.mk i (p ++ xs) (q ++ ys)) := stops
  rw [Iterate.reaches_halted ends, loop_stop stops]
  constructor
  · intro holds
    exact ⟨_, rfl, holds⟩
  · rintro ⟨rest, same, holds⟩
    cases same
    exact holds

theorem running (goes : goesOn i = true) : ¬Stops goesOn (State.mk i xs ys) := by
  intro stops
  have stops : goesOn i = false := stops
  rw [goes] at stops
  cases stops

theorem reaches_outside (left : p.length = i) (right : q.length = i) (past : xs = [] ∨ ys = []) :
    Iterate.Reaches (Stops goesOn) step ⟨i, p ++ xs, q ++ ys⟩ (fun s => P s.first s.second) ↔
      ∃ rest, loop goesOn i xs ys = some rest ∧ P (p ++ rest.1) (q ++ rest.2) := by
  cases goes : goesOn i with
  | false => exact reaches_stop goes
  | true =>
    have failed : step ⟨i, p ++ xs, q ++ ys⟩ = .error () := by
      apply step_outside
      rcases past with rfl | rfl
      · left
        rw [List.append_nil]
        exact Nat.le_of_eq left
      · right
        rw [List.append_nil]
        exact Nat.le_of_eq right
    refine iff_of_false (Iterate.not_reaches_error (running goes) failed) ?_
    rintro ⟨rest, ran, _⟩
    rw [loop_outside goes past] at ran
    cases ran

/-- What is in front of the index stays, so the loop by its index does what `loop` does. -/
theorem loop_reaches (left : p.length = i) (right : q.length = i) :
    Iterate.Reaches (Stops goesOn) step ⟨i, p ++ xs, q ++ ys⟩ (fun s => P s.first s.second) ↔
      ∃ rest, loop goesOn i xs ys = some rest ∧ P (p ++ rest.1) (q ++ rest.2) := by
  induction xs generalizing i ys p q with
  | nil => exact reaches_outside left right (.inl rfl)
  | cons x xs ih =>
    cases ys with
    | nil => exact reaches_outside left right (.inr rfl)
    | cons y ys =>
      cases goes : goesOn i with
      | false => exact reaches_stop goes
      | true =>
        have left' : (p ++ [y]).length = i + 1 := by rw [List.length_append, left]; rfl
        have right' : (q ++ [x]).length = i + 1 := by rw [List.length_append, right]; rfl
        rw [Iterate.reaches_step (running goes) (step_append left right x y), ih left' right', loop, if_pos goes]
        constructor
        · rintro ⟨rest, ran, holds⟩
          refine ⟨(y :: rest.1, x :: rest.2), by rw [ran]; rfl, ?_⟩
          rw [List.append_cons p y, List.append_cons q x]
          exact holds
        · rintro ⟨_, ran, holds⟩
          obtain ⟨rest, ran', rfl⟩ := Option.map_eq_some_iff.mp ran
          rw [List.append_cons p y, List.append_cons q x] at holds
          exact ⟨rest, ran', holds⟩

/-! ### What is exchanged -/

/-- Of the first elements, those that are exchanged. -/
theorem take_exchanged (within : k ≤ n) (room : k ≤ ys.length) :
    (ys.take k ++ xs.drop k).take n = ys.take k ++ (xs.take n).drop k := by
  rw [List.take_append, List.take_take, List.length_take_of_le room, Nat.min_eq_right within, List.drop_take]

/-- Where the others differ, that is kept. -/
theorem drop_exchanged_iff (within : k ≤ n) (room : k ≤ ys.length) :
    ((ys.take k ++ xs.drop k).take n).drop w = (ys.take n).drop w ↔
      (xs.take n).drop (max k w) = (ys.take n).drop (max k w) := by
  have same : ys.take n = ys.take k ++ (ys.take n).drop k := by
    rw [← take_exchanged within room, List.take_append_drop]
  have reach : k + (w - k) = max k w := by omega
  rw [take_exchanged within room]
  nth_rewrite 1 [same]
  rw [List.drop_append, List.drop_append, List.append_cancel_left_eq, List.length_take_of_le room, List.drop_drop,
    List.drop_drop, reach]

end Exchange
