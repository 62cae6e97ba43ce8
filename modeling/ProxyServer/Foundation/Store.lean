import Mathlib.Data.List.Basic
import Mathlib.Data.List.Range

/-!
# Stores

A store of live entries. An entry keeps its identity until it is erased, and no
later entry gets it.
-/

structure Store (β : Type) where
  get : Nat → Option β
  /-- The identity of the next entry. -/
  next : Nat
  fresh : ∀ id, next ≤ id → get id = none

namespace Store

variable {β : Type} {s : Store β} {id other : Nat} {v w : β} {p : β → Bool}

def empty : Store β := { get := fun _ => none, next := 0, fresh := fun _ _ => rfl }

theorem get_lt (h : s.get id = some v) : id < s.next := by
  by_contra beyond
  rw [s.fresh id (by omega)] at h
  cases h

theorem get_next : s.get s.next = none := s.fresh _ (Nat.le_refl _)

def insert (s : Store β) (v : β) : Store β where
  get id := if id = s.next then some v else s.get id
  next := s.next + 1
  fresh := by
    intro id beyond
    rw [if_neg (by omega), s.fresh id (by omega)]

def erase (s : Store β) (id : Nat) : Store β where
  get other := if other = id then none else s.get other
  next := s.next
  fresh := by
    intro other beyond
    rw [s.fresh other beyond, ite_self]

/-- A live entry gets the value `v`. -/
def set (s : Store β) (id : Nat) (v : β) : Store β where
  get other := if other = id then (s.get id).map (fun _ => v) else s.get other
  next := s.next
  fresh := by
    intro other beyond
    split
    · rename_i same
      rw [← same, s.fresh other beyond]
      rfl
    · exact s.fresh other beyond

/-- Only the entries that satisfy `p` stay. -/
def keep (s : Store β) (p : β → Bool) : Store β where
  get id := (s.get id).filter p
  next := s.next
  fresh := by
    intro id beyond
    rw [s.fresh id beyond]
    rfl

/-- The oldest entry that satisfies `p`. -/
def findId (s : Store β) (p : β → Bool) : Option Nat :=
  (List.range s.next).find? fun id => (s.get id).any p

def any (s : Store β) (p : β → Bool) : Bool := (List.range s.next).any fun id => (s.get id).any p

@[simp] theorem next_insert : (s.insert v).next = s.next + 1 := rfl

theorem get_insert : (s.insert v).get id = if id = s.next then some v else s.get id := rfl

theorem get_erase : (s.erase id).get other = if other = id then none else s.get other := rfl

theorem get_set : (s.set id v).get other = if other = id then (s.get id).map (fun _ => v) else s.get other := rfl

theorem get_set_live (h : s.get id = some w) :
    (s.set id v).get other = if other = id then some v else s.get other := by
  rw [get_set, h, Option.map_some]

theorem get_keep : (s.keep p).get id = some v ↔ s.get id = some v ∧ p v = true := Option.filter_eq_some_iff

theorem findId_some (h : s.findId p = some id) : ∃ v, s.get id = some v ∧ p v = true := by
  have here := List.find?_some h
  simpa only [Option.any_eq_true] using here

theorem findId_none (h : s.findId p = none) (live : s.get id = some v) : p v = false := by
  simp only [findId, List.find?_eq_none, List.mem_range] at h
  have here := h id (get_lt live)
  simpa [live] using here

/-- All live entries satisfy `P`. -/
def Forall (s : Store β) (P : Nat → β → Prop) : Prop := ∀ id v, s.get id = some v → P id v

instance Forall.decide {P : Nat → β → Prop} [∀ id v, Decidable (P id v)] : Decidable (s.Forall P) :=
  decidable_of_iff (∀ id < s.next, ∀ v ∈ s.get id, P id v)
    ⟨fun h id v live => h id (get_lt live) v live, fun h id _ v live => h id v live⟩

variable {P : Nat → β → Prop}

theorem Forall.insert (all : s.Forall P) (new : P s.next v) : (s.insert v).Forall P := by
  intro id w live
  rw [get_insert] at live
  split at live
  · rename_i last
    cases live
    exact last ▸ new
  · exact all id w live

theorem Forall.set (all : s.Forall P) (new : P id v) : (s.set id v).Forall P := by
  intro other w live
  rw [get_set] at live
  split at live
  · rename_i same
    rw [Option.map_eq_some_iff] at live
    obtain ⟨_, _, rfl⟩ := live
    exact same ▸ new
  · exact all other w live

theorem Forall.erase (all : s.Forall P) : (s.erase id).Forall P := by
  intro other w live
  rw [get_erase] at live
  split at live
  · cases live
  · exact all other w live

theorem Forall.keep (all : s.Forall P) : (s.keep p).Forall P :=
  fun id v live => all id v (get_keep.mp live).1

theorem any_iff : s.any p = true ↔ ∃ id v, s.get id = some v ∧ p v = true := by
  simp only [any, List.any_eq_true, List.mem_range, Option.any_eq_true]
  constructor
  · rintro ⟨id, _, v, live, holds⟩
    exact ⟨id, v, live, holds⟩
  · rintro ⟨id, v, live, holds⟩
    exact ⟨id, get_lt live, v, live, holds⟩

end Store
