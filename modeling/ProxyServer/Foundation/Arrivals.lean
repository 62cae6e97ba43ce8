import Mathlib.Data.List.Basic

/-!
# Streams that arrive in pieces

A stream is cut into arrivals. A read takes bytes of the first arrival only, and
at most as many as it asks for; any cut into reads is a list of arrivals.
-/

namespace Arrivals

variable {α : Type}

/-- A read of at most `n` elements: the result and what is left. -/
def take (n : Nat) : List (List α) → List α × List (List α)
  | [] => ([], [])
  | seg :: rest => (seg.take n, if seg.length ≤ n then rest else seg.drop n :: rest)

/-- The arrivals without the first `n` elements of the stream. -/
def skip : Nat → List (List α) → List (List α)
  | _, [] => []
  | n, seg :: rest => if seg.length ≤ n then skip (n - seg.length) rest else seg.drop n :: rest

/-- Where the arrival that holds the `e`th element ends. -/
def reach : Nat → List (List α) → Nat
  | _, [] => 0
  | e, seg :: rest =>
    if e ≤ seg.length then seg.length else seg.length + reach (e - seg.length) rest

/-- The results of successive reads of at most `n` elements of one arrival. -/
def pieces (n : Nat) : Nat → List α → List (List α)
  | 0, _ => []
  | _, [] => []
  | fuel + 1, x :: xs => (x :: xs).take n :: pieces n fuel ((x :: xs).drop n)

/-- The results of successive reads of at most `n` elements. -/
def reads (n : Nat) (segs : List (List α)) : List (List α) :=
  segs.flatMap (fun seg => pieces n seg.length seg)

def Present (segs : List (List α)) : Prop := ∀ seg ∈ segs, seg ≠ []

instance [DecidableEq α] (segs : List (List α)) : Decidable (Present segs) :=
  inferInstanceAs (Decidable (∀ seg ∈ segs, seg ≠ []))

theorem present_cons {seg : List α} {rest : List (List α)} (h : Present (seg :: rest)) :
    0 < seg.length ∧ Present rest :=
  ⟨List.length_pos_of_ne_nil (h seg (by simp)), fun s hs => h s (by simp [hs])⟩

theorem present_flatten {segs : List (List α)} (h : Present segs) : segs.flatten = [] ↔ segs = [] := by
  cases segs with
  | nil => simp
  | cons seg rest =>
    have := h seg (by simp)
    simp [this]

/-- A way to cut the stream `s` into arrivals. -/
structure Cut (s : List α) where
  segs : List (List α)
  present : Present segs
  joined : segs.flatten = s

/-! ### Skipping -/

theorem flatten_skip (n : Nat) (segs : List (List α)) : (skip n segs).flatten = segs.flatten.drop n := by
  induction segs generalizing n with
  | nil => simp [skip]
  | cons seg rest ih =>
    rw [skip]
    split
    · rename_i le
      rw [ih, List.flatten_cons, List.drop_append, List.drop_eq_nil_of_le le, List.nil_append]
    · rename_i gt
      rw [List.flatten_cons, List.flatten_cons, List.drop_append,
        show n - seg.length = 0 by omega, List.drop_zero]

theorem present_skip {n : Nat} {segs : List (List α)} (h : Present segs) : Present (skip n segs) := by
  induction segs generalizing n with
  | nil => exact h
  | cons seg rest ih =>
    obtain ⟨_, below⟩ := present_cons h
    rw [skip]
    split
    · exact ih below
    · rename_i gt
      intro s hs
      rcases List.mem_cons.mp hs with rfl | hs
      · intro empty
        have := congrArg List.length empty
        simp at this
        omega
      · exact below s hs

theorem skip_zero {segs : List (List α)} (h : Present segs) : skip 0 segs = segs := by
  cases segs with
  | nil => rfl
  | cons seg rest =>
    obtain ⟨pos, _⟩ := present_cons h
    rw [skip, if_neg (by omega), List.drop_zero]

theorem skip_skip (a b : Nat) {segs : List (List α)} (h : Present segs) :
    skip b (skip a segs) = skip (a + b) segs := by
  induction segs generalizing a b with
  | nil => rfl
  | cons seg rest ih =>
    obtain ⟨pos, below⟩ := present_cons h
    rw [skip, skip]
    by_cases le : seg.length ≤ a
    · rw [if_pos le, if_pos (by omega), ih _ _ below]
      congr 1
      omega
    · rw [if_neg le, skip, List.length_drop, List.drop_drop]
      by_cases more : seg.length ≤ a + b
      · rw [if_pos (by omega), if_pos more]
        congr 1
        omega
      · rw [if_neg (by omega), if_neg more]

theorem take_eq {n : Nat} {segs : List (List α)} (h : Present segs) :
    (take n segs).2 = skip (take n segs).1.length segs := by
  cases segs with
  | nil => rfl
  | cons seg rest =>
    obtain ⟨_, below⟩ := present_cons h
    rw [take, skip]
    simp only [List.length_take]
    by_cases le : seg.length ≤ n
    · rw [if_pos le, if_pos (by omega), show min n seg.length - seg.length = 0 by omega, skip_zero below]
    · rw [if_neg le, if_neg (by omega), show min n seg.length = n by omega]

theorem take_append (n : Nat) (segs : List (List α)) :
    (take n segs).1 ++ (take n segs).2.flatten = segs.flatten := by
  cases segs with
  | nil => rfl
  | cons seg rest =>
    rw [take]
    split
    · rename_i le
      simp [List.take_of_length_le le]
    · simp [← List.append_assoc]

theorem length_take_le (n : Nat) (segs : List (List α)) : (take n segs).1.length ≤ n := by
  cases segs with
  | nil => simp [take]
  | cons seg rest =>
    rw [take, List.length_take]
    exact Nat.min_le_left _ _

theorem length_take_pos {n : Nat} {segs : List (List α)} (h : Present segs) (pos : 0 < n)
    (left : segs ≠ []) : 0 < (take n segs).1.length := by
  cases segs with
  | nil => exact absurd rfl left
  | cons seg rest =>
    obtain ⟨_, _⟩ := present_cons h
    rw [take]
    simp only [List.length_take]
    omega

theorem take_spec {n : Nat} {segs : List (List α)} (h : Present segs) (pos : 0 < n) (left : segs ≠ []) :
    ∃ got, take n segs = (got, skip got.length segs) ∧ 0 < got.length ∧ got.length ≤ n ∧
      got ++ (skip got.length segs).flatten = segs.flatten := by
  refine ⟨(take n segs).1, Prod.ext rfl (take_eq h), length_take_pos h pos left, length_take_le n segs, ?_⟩
  rw [← take_eq h]
  exact take_append n segs

/-- A bound that the stream does not reach has no effect on a read. -/
theorem take_min {n k : Nat} {segs : List (List α)} (large : segs.flatten.length ≤ k) :
    take (min n k) segs = take n segs := by
  cases segs with
  | nil => rfl
  | cons seg rest =>
    simp only [List.flatten_cons, List.length_append] at large
    simp only [take]
    rw [← List.take_take, List.take_of_length_le (l := seg) (i := k) (by omega)]
    by_cases le : seg.length ≤ n
    · rw [if_pos le, if_pos (by omega)]
    · rw [if_neg le, if_neg (by omega), show min n k = n by omega]

/-! ### Reaching -/

theorem reach_le (e : Nat) (segs : List (List α)) : reach e segs ≤ segs.flatten.length := by
  induction segs generalizing e with
  | nil => simp [reach]
  | cons seg rest ih =>
    rw [reach]
    have := ih (e - seg.length)
    simp only [List.flatten_cons, List.length_append]
    split <;> omega

/-! ### Successive reads -/

theorem pieces_cons {n fuel : Nat} {s : List α} (present : s ≠ []) :
    pieces n (fuel + 1) s = s.take n :: pieces n fuel (s.drop n) := by
  obtain ⟨x, xs, rfl⟩ := List.exists_cons_of_ne_nil present
  rfl

theorem pieces_fuel {n fuel : Nat} {s : List α} (pos : 0 < n) (enough : s.length ≤ fuel) :
    pieces n fuel s = pieces n s.length s := by
  induction fuel using Nat.strongRecOn generalizing s with
  | ind fuel ih =>
    cases s with
    | nil => cases fuel <;> rfl
    | cons x xs =>
      obtain ⟨fuel, rfl⟩ : ∃ k, fuel = k + 1 := ⟨fuel - 1, by simp at enough; omega⟩
      rw [List.length_cons, pieces_cons (by simp), pieces_cons (by simp)]
      have size : ((x :: xs).drop n).length ≤ xs.length := by simp; omega
      have bound : xs.length ≤ fuel := by simpa using enough
      rw [ih fuel (by omega) (by omega)]
      by_cases same : xs.length = fuel
      · rw [same, ih fuel (by omega) (by omega)]
      · rw [ih xs.length (by omega) size]

theorem reads_take {n : Nat} {segs : List (List α)} (h : Present segs) (pos : 0 < n) (left : segs ≠ []) :
    reads n segs = (take n segs).1 :: reads n (take n segs).2 := by
  obtain ⟨seg, rest, rfl⟩ := List.exists_cons_of_ne_nil left
  obtain ⟨size, _⟩ := present_cons h
  obtain ⟨k, hk⟩ : ∃ k, seg.length = k + 1 := ⟨seg.length - 1, by omega⟩
  have present : seg ≠ [] := List.ne_nil_of_length_pos size
  simp only [reads, List.flatMap_cons, take]
  rw [hk, pieces_cons present, ← hk, List.cons_append]
  congr 1
  split
  · rename_i le
    rw [List.drop_eq_nil_of_le le]
    cases k <;> rfl
  · rw [List.flatMap_cons, pieces_fuel pos (by simp; omega)]

end Arrivals
