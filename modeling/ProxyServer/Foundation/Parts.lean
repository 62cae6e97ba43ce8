import Mathlib.Data.List.Basic

/-!
# Cursors in a list of parts

A cursor stands inside a part, with something left of it, or behind the last part.
-/

namespace Parts

variable {α : Type} {parts : List (List α)} {part offset : Nat} {before : List α}

/-- The cursor at `offset` of the part number `part`, with `before` in front of it. -/
inductive At : List (List α) → Nat → Nat → List α → Prop
  | inside (done : List (List α)) (front back : List α) (rest : List (List α)) (left : back ≠ []) :
      At (done ++ (front ++ back) :: rest) done.length front.length (done.flatten ++ front)
  | stop (done : List (List α)) : At done done.length 0 done.flatten

theorem At.start (present : ∀ p ∈ parts, p ≠ []) : At parts 0 0 [] := by
  cases parts with
  | nil => exact At.stop []
  | cons p rest => simpa using At.inside [] [] p rest (present p (by simp))

theorem At.isPrefix (h : At parts part offset before) : before <+: parts.flatten := by
  cases h with
  | inside done front back rest => exact ⟨back ++ rest.flatten, by simp⟩
  | stop => exact List.prefix_refl _

theorem At.le_length (h : At parts part offset before) : part ≤ parts.length := by
  cases h with
  | inside => simp
  | stop => exact Nat.le_refl _

theorem At.stopped (h : At parts part offset before) (last : part = parts.length) :
    before = parts.flatten := by
  cases h with
  | inside done front back rest => simp at last
  | stop => rfl

theorem At.offset_stopped (h : At parts part offset before) (last : part = parts.length) : offset = 0 := by
  cases h with
  | inside done front back rest => simp at last
  | stop => rfl

theorem At.push (h : At parts part offset before) {p : List α} (present : p ≠ []) :
    At (parts ++ [p]) part offset before := by
  cases h with
  | inside done front back rest left =>
    simpa using At.inside done front back (rest ++ [p]) left
  | stop => simpa using At.inside parts [] p [] present

theorem At.getElem? (h : At parts part offset before) (more : part ≠ parts.length) :
    ∃ p, parts[part]? = some p ∧ offset < p.length := by
  cases h with
  | inside done front back rest left =>
    refine ⟨front ++ back, by simp, ?_⟩
    have := List.length_pos_of_ne_nil left
    simp only [List.length_append]
    omega
  | stop => exact absurd rfl more

/-- The cursor moves over `got`: to the next part when that was all of this one. -/
theorem At.advance (present : ∀ p ∈ parts, p ≠ []) (h : At parts part offset before) {p : List α}
    (here : parts[part]? = some p) (k : Nat) :
    if offset + ((p.drop offset).take k).length = p.length then
      At parts (part + 1) 0 (before ++ (p.drop offset).take k)
    else At parts part (offset + ((p.drop offset).take k).length) (before ++ (p.drop offset).take k) := by
  cases h with
  | inside done front back rest left =>
    obtain rfl : front ++ back = p := by simpa using here
    rw [List.drop_left]
    split
    · rename_i whole
      have all : back.take k = back := by
        refine List.take_of_length_le ?_
        simp only [List.length_append, List.length_take] at whole
        omega
      rw [all]
      cases rest with
      | nil => simpa using At.stop (done ++ [front ++ back])
      | cons q rest =>
        simpa using At.inside (done ++ [front ++ back]) [] q rest (present q (by simp))
    · rename_i partial_
      have shape : front ++ back = (front ++ back.take k) ++ back.drop k := by simp
      have remains : back.drop k ≠ [] := by
        intro gone
        rw [List.drop_eq_nil_iff] at gone
        simp only [List.length_append, List.length_take] at partial_
        omega
      have moved := At.inside done (front ++ back.take k) (back.drop k) rest remains
      rw [← shape, List.length_append, ← List.append_assoc] at moved
      exact moved
  | stop => simp at here

theorem At.rest (h : At parts part offset before) :
    before ++ (parts.drop part).flatten.drop offset = parts.flatten := by
  cases h with
  | inside done front back rest => simp
  | stop => simp

end Parts
