import Mathlib.Data.List.Basic

/-!
# Searching a list

Positions of the first occurrence of an element or of a pattern, counted from
the start of the list.
-/

namespace Search

variable {α : Type} [DecidableEq α]

/-- The first position at or after `pos` that holds `c`. -/
def findElem (s : List α) (c : α) (pos : Nat) : Option Nat :=
  ((s.drop pos).findIdx? (fun x => decide (x = c))).map (· + pos)

/-- The position of the first occurrence of `pat`. -/
def firstMatch (pat : List α) : List α → Option Nat
  | [] => if pat = [] then some 0 else none
  | x :: xs => if pat <+: x :: xs then some 0 else (firstMatch pat xs).map (· + 1)

/-! ### Elements -/

theorem findElem_append (pre l rest : List α) (c : α) (absent : c ∉ l) :
    findElem (pre ++ (l ++ c :: rest)) c pre.length = some (pre.length + l.length) := by
  have none_in : l.findIdx? (fun x => decide (x = c)) = none := by
    rw [List.findIdx?_eq_none_iff]
    intro x hx
    exact decide_eq_false (fun e => absent (e ▸ hx))
  simp [findElem, List.findIdx?_append, none_in, List.findIdx?_cons, Nat.add_comm]

theorem findElem_none (pre l : List α) (c : α) (absent : c ∉ l) :
    findElem (pre ++ l) c pre.length = none := by
  have none_in : l.findIdx? (fun x => decide (x = c)) = none := by
    rw [List.findIdx?_eq_none_iff]
    intro x hx
    exact decide_eq_false (fun e => absent (e ▸ hx))
  simp [findElem, none_in]

/-! ### Patterns -/

theorem firstMatch_skip {pat : List α} {x : α} {xs : List α} (h : ¬pat <+: x :: xs) :
    firstMatch pat (x :: xs) = (firstMatch pat xs).map (· + 1) := by
  rw [firstMatch, if_neg h]

theorem firstMatch_here {pat s : List α} (h : pat <+: s) : firstMatch pat s = some 0 := by
  cases s with
  | nil => simp [firstMatch, List.prefix_nil.mp h]
  | cons x xs => rw [firstMatch, if_pos h]

theorem firstMatch_append {c : α} {p l s : List α} (absent : c ∉ l) :
    firstMatch (c :: p) (l ++ s) = (firstMatch (c :: p) s).map (· + l.length) := by
  induction l with
  | nil => simp
  | cons x xs ih =>
    simp only [List.mem_cons, not_or] at absent
    have here : ¬(c :: p) <+: x :: (xs ++ s) := by
      intro h
      exact absent.1 (List.cons_prefix_cons.mp h).1
    rw [List.cons_append, firstMatch_skip here, ih absent.2, Option.map_map]
    congr 1

theorem firstMatch_spec {pat s : List α} {p : Nat} (h : firstMatch pat s = some p) :
    pat <+: s.drop p := by
  induction s generalizing p with
  | nil =>
    simp only [firstMatch] at h
    split at h
    · rename_i empty
      simp [empty]
    · cases h
  | cons x xs ih =>
    rw [firstMatch] at h
    split at h
    · rename_i here
      cases h
      exact here
    · obtain ⟨q, found, rfl⟩ := Option.map_eq_some_iff.mp h
      exact ih found

theorem firstMatch_le {pat s : List α} {p : Nat} (h : firstMatch pat s = some p) :
    p + pat.length ≤ s.length ∨ pat = [] := by
  have occurs := (firstMatch_spec h).length_le
  rw [List.length_drop] at occurs
  rcases pat with _ | ⟨c, pat⟩
  · exact Or.inr rfl
  · simp only [List.length_cons] at occurs ⊢
    omega

theorem firstMatch_min {pat s : List α} {k : Nat} (h : pat <+: s.drop k) (bound : k ≤ s.length) :
    ∃ p ≤ k, firstMatch pat s = some p := by
  induction s generalizing k with
  | nil =>
    obtain rfl : k = 0 := by simpa using bound
    exact ⟨0, Nat.le_refl _, firstMatch_here (by simpa using h)⟩
  | cons x xs ih =>
    by_cases here : pat <+: x :: xs
    · exact ⟨0, Nat.zero_le _, firstMatch_here here⟩
    cases k with
    | zero => exact absurd h here
    | succ k =>
      obtain ⟨p, low, found⟩ := ih (k := k) (by simpa using h) (by simpa using bound)
      exact ⟨p + 1, by omega, by rw [firstMatch_skip here, found]; rfl⟩

theorem firstMatch_prefix {pat s t : List α} {p : Nat} (h : firstMatch pat s = some p) :
    firstMatch pat (s ++ t) = some p := by
  induction s generalizing p with
  | nil =>
    simp only [firstMatch] at h
    split at h
    · rename_i empty
      subst empty
      cases h
      exact firstMatch_here List.nil_prefix
    · cases h
  | cons x xs ih =>
    rw [firstMatch] at h
    split at h
    · rename_i here
      cases h
      exact firstMatch_here (here.trans (List.prefix_append _ _))
    · rename_i here
      obtain ⟨q, found, rfl⟩ := Option.map_eq_some_iff.mp h
      by_cases later : pat <+: x :: (xs ++ t)
      · -- An occurrence at the head would fit inside the prefix, where the search found none.
        exfalso
        have fits := firstMatch_le found
        rcases fits with fits | empty
        · have inside : pat <+: x :: xs := by
            refine List.prefix_of_prefix_length_le later ⟨t, rfl⟩ ?_
            simp only [List.length_cons]
            omega
          exact here inside
        · exact here (empty ▸ List.nil_prefix)
      · rw [List.cons_append, firstMatch_skip later, ih found]
        rfl

/-- A prefix too short to hold the first occurrence holds none. -/
theorem firstMatch_none {pat s t : List α} {p : Nat} (h : firstMatch pat (s ++ t) = some p)
    (short : s.length < p + pat.length) : firstMatch pat s = none := by
  cases found : firstMatch pat s with
  | none => rfl
  | some q =>
    have same := firstMatch_prefix (t := t) found
    rw [h] at same
    cases same
    rcases firstMatch_le found with fits | empty
    · omega
    · subst empty
      rw [firstMatch_here List.nil_prefix] at found
      cases found
      simp at short

end Search
