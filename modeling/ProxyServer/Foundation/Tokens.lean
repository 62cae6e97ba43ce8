import Mathlib.Algebra.GroupWithZero.Nat
import Mathlib.Data.List.Perm.Basic

/-!
# Tokens in places

What a list of places holds, when one of the places changes.
-/

namespace Tokens

variable {α β : Type} {f : α → List β} {places : List α} {i : Nat} {a b : α}

theorem set_perm (here : places[i]? = some a) :
    (f a ++ (places.set i b).flatMap f).Perm (f b ++ places.flatMap f) := by
  induction places generalizing i with
  | nil => cases here
  | cons p places ih =>
    cases i with
    | zero =>
      cases here
      simp only [List.set_cons_zero, List.flatMap_cons]
      rw [← List.append_assoc, ← List.append_assoc]
      exact List.perm_append_comm.append_right _
    | succ i =>
      have rest := ih (i := i) (by simpa using here)
      simp only [List.set_cons_succ, List.flatMap_cons]
      have front := List.perm_append_comm_assoc (f a) (f p) ((places.set i b).flatMap f)
      have back := List.perm_append_comm_assoc (f p) (f b) (places.flatMap f)
      exact front.trans ((rest.append_left (f p)).trans back)

/-- The weights of the places. -/
theorem set_sum (weight : α → Nat) (here : places[i]? = some a) :
    weight a + ((places.set i b).map weight).sum = weight b + (places.map weight).sum := by
  induction places generalizing i with
  | nil => cases here
  | cons p places ih =>
    cases i with
    | zero =>
      cases here
      simp only [List.set_cons_zero, List.map_cons, List.sum_cons]
      omega
    | succ i =>
      have rest := ih (i := i) (by simpa using here)
      simp only [List.set_cons_succ, List.map_cons, List.sum_cons]
      omega

/-! ### Tokens that are out -/

variable [DecidableEq α] {issued returned : List α}

/-- What was issued and not returned. -/
def out (issued returned : List α) : List α := issued.filter (· ∉ returned)

theorem mem_out : a ∈ out issued returned ↔ a ∈ issued ∧ a ∉ returned := by simp [out]

theorem out_issue (new : a ∉ returned) : out (issued ++ [a]) returned = out issued returned ++ [a] := by
  simp [out, new]

theorem out_return (apart : issued.Nodup) (returned : List α) (a : α) :
    out issued (returned ++ [a]) = (out issued returned).eraseIdx ((out issued returned).idxOf a) := by
  have kept : (out issued returned).Nodup := apart.filter _
  rw [List.eraseIdx_idxOf_eq_erase, kept.erase_eq_filter, out, out, List.filter_filter]
  refine List.filter_congr fun b _ => ?_
  by_cases same : b = a
  · simp [same]
  · simp [same, bne_iff_ne]

end Tokens
