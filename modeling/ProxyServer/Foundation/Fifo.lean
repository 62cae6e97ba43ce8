import Mathlib.Data.List.Nodup

/-!
# Bounded maps in insertion order

A map with room for `cap` pairs, held in the order of their insertion. A full map
gives up its oldest pair before it takes another one.
-/

namespace Fifo

variable {κ ν : Type} [DecidableEq κ]

inductive Op (κ ν : Type) where
  | insert (key : κ) (value : ν)
  | erase (key : κ)

def keys (q : List (κ × ν)) : List κ := q.map (·.1)

def find (q : List (κ × ν)) (key : κ) : Option ν := (q.find? (·.1 = key)).map (·.2)

def makeRoom (cap : Nat) (q : List (κ × ν)) : List (κ × ν) := if q.length = cap then q.tail else q

def insert (cap : Nat) (q : List (κ × ν)) (key : κ) (value : ν) : List (κ × ν) :=
  let q := makeRoom cap q
  if key ∈ keys q then q else q ++ [(key, value)]

def erase (q : List (κ × ν)) (key : κ) : List (κ × ν) := q.filter (·.1 ≠ key)

def step (cap : Nat) (q : List (κ × ν)) : Op κ ν → List (κ × ν)
  | .insert key value => insert cap q key value
  | .erase key => erase q key

def run (cap : Nat) (ops : List (Op κ ν)) : List (κ × ν) := ops.foldl (step cap) []

variable {cap : Nat} {q : List (κ × ν)} {key : κ} {value : ν}

omit [DecidableEq κ] in
@[simp] theorem keys_append (q r : List (κ × ν)) : keys (q ++ r) = keys q ++ keys r := List.map_append

/-! ### What an operation keeps -/

omit [DecidableEq κ] in
theorem makeRoom_sublist (cap : Nat) (q : List (κ × ν)) : (makeRoom cap q).Sublist q := by
  unfold makeRoom
  split
  · exact List.tail_sublist q
  · exact List.Sublist.refl q

omit [DecidableEq κ] in
theorem length_makeRoom (large : 0 < cap) (bound : q.length ≤ cap) : (makeRoom cap q).length < cap := by
  unfold makeRoom
  split
  · rw [List.length_tail]
    omega
  · omega

theorem nodup_insert (nodup : (keys q).Nodup) : (keys (insert cap q key value)).Nodup := by
  have kept : (keys (makeRoom cap q)).Nodup := nodup.sublist ((makeRoom_sublist cap q).map _)
  unfold insert
  dsimp only
  split
  · exact kept
  · rename_i absent
    rw [keys_append, List.nodup_append]
    refine ⟨kept, List.nodup_singleton key, ?_⟩
    intro a here b there same
    rw [same, List.mem_singleton.mp there] at here
    exact absent here

theorem nodup_step (op : Op κ ν) (nodup : (keys q).Nodup) : (keys (step cap q op)).Nodup := by
  cases op with
  | insert key value => exact nodup_insert nodup
  | erase key => exact nodup.sublist (List.filter_sublist.map _)

theorem length_step (large : 0 < cap) (op : Op κ ν) (bound : q.length ≤ cap) : (step cap q op).length ≤ cap := by
  cases op with
  | insert key value =>
    have room := length_makeRoom large bound
    show (insert cap q key value).length ≤ cap
    unfold insert
    dsimp only
    split
    · omega
    · rw [List.length_append, List.length_singleton]
      omega
  | erase key =>
    exact Nat.le_trans (List.length_filter_le _ q) bound

/-- Whatever is done, no key is held twice and the map is not overfull. -/
theorem run_sound (large : 0 < cap) (ops : List (Op κ ν)) : (keys (run cap ops)).Nodup ∧ (run cap ops).length ≤ cap := by
  unfold run
  have start : (keys ([] : List (κ × ν))).Nodup ∧ ([] : List (κ × ν)).length ≤ cap := ⟨List.nodup_nil, Nat.zero_le cap⟩
  generalize ([] : List (κ × ν)) = q at start
  induction ops generalizing q with
  | nil => exact start
  | cons op ops ih => exact ih (step cap q op) ⟨nodup_step op start.1, length_step large op start.2⟩

/-! ### Lookups -/

theorem find_eq_none : find q key = none ↔ key ∉ keys q := by
  simp only [find, keys, Option.map_eq_none_iff, List.find?_eq_none, decide_eq_true_eq, List.mem_map, not_exists, not_and]

theorem find_append_of_mem {r : List (κ × ν)} (present : key ∈ keys q) : find (q ++ r) key = find q key := by
  obtain ⟨p, member, named⟩ := List.mem_map.mp present
  have found : (q.find? (·.1 = key)).isSome = true := by
    rw [List.find?_isSome]
    exact ⟨p, member, by simpa using named⟩
  unfold find
  rw [List.find?_append, Option.or_of_isSome found]

theorem find_append_of_not_mem {r : List (κ × ν)} (absent : key ∉ keys q) : find (q ++ r) key = find r key := by
  have none_found : q.find? (·.1 = key) = none := by
    rw [List.find?_eq_none]
    intro p member named
    exact absent (List.mem_map.mpr ⟨p, member, by simpa using named⟩)
  unfold find
  rw [List.find?_append, none_found, Option.none_or]

theorem find_cons_self (value : ν) (q : List (κ × ν)) : find ((key, value) :: q) key = some value := by
  simp [find]

theorem find_cons_of_ne {k : κ} (different : k ≠ key) (value : ν) (q : List (κ × ν)) : find ((k, value) :: q) key = find q key := by
  simp [find, different]

theorem find_snoc_self (absent : key ∉ keys q) : find (q ++ [(key, value)]) key = some value := by
  rw [find_append_of_not_mem absent, find_cons_self]

theorem find_snoc_of_ne {k : κ} (different : k ≠ key) : find (q ++ [(key, value)]) k = find q k := by
  by_cases present : k ∈ keys q
  · exact find_append_of_mem present
  · rw [find_append_of_not_mem present, find_cons_of_ne different.symm, find_eq_none.mpr present]
    rfl

/-! ### The law of insertion -/

/-- What an insertion into a map is to do: the key gets the value, and nothing else
changes, but that a full map gives up its oldest pair for a new key. -/
def Law (cap : Nat) (q q' : List (κ × ν)) (key : κ) (value : ν) : Prop :=
  find q' key = some value ∧
  ∀ k, k ≠ key → find q' k = if key ∉ keys q ∧ q.length = cap ∧ (keys q).head? = some k then none else find q k

/-- A present key keeps its value, and a full map makes room for it all the same. -/
theorem law_iff (large : 0 < cap) (nodup : (keys q).Nodup) : Law cap q (insert cap q key value) key value ↔
    key ∉ keys q ∨ (q.length ≠ cap ∧ find q key = some value) ∨ (q.length = cap ∧ (keys q).head? = some key) := by
  unfold Law insert
  dsimp only
  by_cases full : q.length = cap
  · obtain ⟨⟨h, w⟩, rest, rfl⟩ := List.exists_cons_of_length_pos (by omega : 0 < q.length)
    have room : makeRoom cap ((h, w) :: rest) = rest := if_pos full
    obtain ⟨oldest, -⟩ := List.nodup_cons.mp nodup
    rw [room]
    by_cases present : key ∈ keys rest
    · -- The oldest pair is lost for nothing.
      have other : h ≠ key := fun same => oldest (same ▸ present)
      rw [if_pos present]
      apply iff_of_false
      · intro law
        have gone := law.2 h other
        rw [if_neg (fun new => new.1 (List.mem_cons_of_mem _ present)), find_cons_self, find_eq_none.mpr oldest] at gone
        cases gone
      · intro condition
        rcases condition with absent | ⟨notFull, -⟩ | ⟨-, first⟩
        · exact absent (List.mem_cons_of_mem _ present)
        · exact notFull full
        · exact other (Option.some.inj first)
    · rw [if_neg present]
      apply iff_of_true
      · refine ⟨find_snoc_self present, ?_⟩
        intro k different
        rw [find_snoc_of_ne different]
        by_cases first : h = k
        · subst first
          have absent : key ∉ keys ((h, w) :: rest) := by
            intro member
            rcases List.mem_cons.mp member with same | later
            · exact different same.symm
            · exact present later
          rw [if_pos ⟨absent, full, rfl⟩, find_eq_none.mpr oldest]
        · rw [if_neg (fun new => first (Option.some.inj new.2.2)), find_cons_of_ne first]
      · by_cases first : h = key
        · exact Or.inr (Or.inr ⟨full, congrArg some first⟩)
        · left
          intro member
          rcases List.mem_cons.mp member with same | later
          · exact first same.symm
          · exact present later
  · have room : makeRoom cap q = q := if_neg full
    rw [room]
    have unchanged : ∀ k, (if key ∉ keys q ∧ q.length = cap ∧ (keys q).head? = some k then none else find q k) = find q k :=
      fun k => if_neg fun new => full new.2.1
    by_cases present : key ∈ keys q
    · rw [if_pos present]
      constructor
      · intro law
        exact Or.inr (Or.inl ⟨full, law.1⟩)
      · intro condition
        rcases condition with absent | ⟨-, same⟩ | ⟨isFull, -⟩
        · exact absurd present absent
        · exact ⟨same, fun k _ => (unchanged k).symm⟩
        · exact absurd isFull full
    · rw [if_neg present]
      apply iff_of_true
      · refine ⟨find_snoc_self present, ?_⟩
        intro k different
        rw [find_snoc_of_ne different, unchanged]
      · exact Or.inl present

end Fifo
