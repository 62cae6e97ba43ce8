import ProxyServer.Util.Bytes

/-!
# The cache

`simple_cache`: a map whose nodes are linked in the order of their insertion. An
iterator is the identity of a node; using one that is `end()` or whose node was
erased is undefined, which `none` stands for.
-/

namespace ProxyServer

structure CacheNode (K V : Type) where
  id : Nat
  key : K
  value : V
  next : Option Nat
  prev : Option Nat
  deriving DecidableEq, Repr

structure SimpleCache (K V : Type) where
  values : List (CacheNode K V)
  first : Option Nat
  last : Option Nat
  nextId : Nat
  deriving DecidableEq, Repr

namespace SimpleCache

variable {K V : Type}

def empty : SimpleCache K V := { values := [], first := none, last := none, nextId := 0 }

/-- `*it` -/
def deref (c : SimpleCache K V) (it : Option Nat) : Option (CacheNode K V) :=
  it.bind fun id => c.values.find? (·.id = id)

/-- An assignment through `it`. -/
def modify (c : SimpleCache K V) (it : Option Nat) (f : CacheNode K V → CacheNode K V) :
    Option (SimpleCache K V) := do
  let node ← c.deref it
  return { c with values := c.values.map fun n => if n.id = node.id then f n else n }

/-- `values.erase(it)` -/
def eraseNode (c : SimpleCache K V) (it : Option Nat) : Option (SimpleCache K V) := do
  let node ← c.deref it
  return { c with values := c.values.filter (·.id ≠ node.id) }

def size (c : SimpleCache K V) : Nat := c.values.length

/-- At capacity the oldest node makes room. -/
def evict (maxSize : Nat) (c : SimpleCache K V) : Option (SimpleCache K V) :=
  if c.values.length = maxSize then do
    let oldest ← c.deref c.first
    let next := oldest.next
    let c ← c.eraseNode c.first
    modify { c with first := next } next (fun n => { n with prev := next })
  else some c

variable [DecidableEq K]

def has (c : SimpleCache K V) (key : K) : Bool := c.values.any (·.key = key)

def lookup (c : SimpleCache K V) (key : K) : Option V :=
  (c.values.find? (·.key = key)).map (·.value)

def find (c : SimpleCache K V) (key : K) : Except CppError V :=
  match c.lookup key with
  | some value => .ok value
  | none => .error (.annotated (lit "simple cache: element not found"))

/-- The new node behind the last one. -/
def link (c : SimpleCache K V) (key : K) (value : V) : Option (SimpleCache K V) := do
  let inserted := some c.nextId
  let node := { id := c.nextId, key, value, next := none, prev := none }
  let c := { c with values := c.values ++ [node], nextId := c.nextId + 1 }
  let c ← (if c.values.length = 1 then
      modify { c with first := inserted } inserted (fun n => { n with prev := inserted })
    else do
      let c ← c.modify inserted (fun n => { n with prev := c.last })
      c.modify c.last (fun n => { n with next := inserted }))
  modify { c with last := inserted } inserted (fun n => { n with next := inserted })

/-- Makes room before it looks for the key; a key that is present keeps its value. -/
def insert (maxSize : Nat) (c : SimpleCache K V) (key : K) (value : V) : Option (SimpleCache K V) := do
  let c ← c.evict maxSize
  if c.has key then some c else c.link key value

def erase (c : SimpleCache K V) (key : K) : Option (SimpleCache K V) :=
  match c.values.find? (·.key = key) with
  | none => some c
  | some node => do
    let it := some node.id
    let c ← (if it = c.first then some { c with first := node.next }
      else c.modify node.prev (fun n => { n with next := node.next }))
    let c ← (if it = c.last then some { c with last := node.prev }
      else c.modify node.next (fun n => { n with prev := node.prev }))
    c.eraseNode it

/-! ### What is stored -/

def entries (c : SimpleCache K V) : List (K × V) := c.values.map fun n => (n.key, n.value)

omit [DecidableEq K] in
theorem entries_modify {c c' : SimpleCache K V} {it : Option Nat} {f : CacheNode K V → CacheNode K V}
    (h : c.modify it f = some c') (keeps : ∀ n, (f n).key = n.key ∧ (f n).value = n.value) :
    c'.entries = c.entries := by
  simp only [modify, Option.bind_eq_bind, Option.bind_eq_some_iff, Option.pure_def, Option.some.injEq] at h
  obtain ⟨node, _, rfl⟩ := h
  simp only [entries, List.map_map]
  refine List.map_congr_left fun n _ => ?_
  simp only [Function.comp]
  split
  · rw [(keeps n).1, (keeps n).2]
  · rfl

omit [DecidableEq K] in
theorem entries_eraseNode {c d : SimpleCache K V} {it : Option Nat} (h : c.eraseNode it = some d) :
    d.entries ⊆ c.entries := by
  simp only [eraseNode, Option.bind_eq_bind, Option.bind_eq_some_iff, Option.pure_def,
    Option.some.injEq] at h
  obtain ⟨node, _, rfl⟩ := h
  exact List.map_subset _ (List.filter_subset_self _)

omit [DecidableEq K] in
theorem entries_evict {maxSize : Nat} {c c' : SimpleCache K V} (h : c.evict maxSize = some c') :
    c'.entries ⊆ c.entries := by
  simp only [evict] at h
  split at h
  · simp only [Option.bind_eq_bind, Option.bind_eq_some_iff] at h
    obtain ⟨oldest, _, c₁, erased, modified⟩ := h
    rw [entries_modify modified (fun _ => ⟨rfl, rfl⟩)]
    exact entries_eraseNode (d := c₁) erased
  · cases h
    exact List.Subset.refl _

omit [DecidableEq K] in
theorem entries_link {c c' : SimpleCache K V} {key : K} {value : V} (h : c.link key value = some c') :
    c'.entries = c.entries ++ [(key, value)] := by
  simp only [link, Option.bind_eq_bind, Option.bind_eq_some_iff] at h
  obtain ⟨c₁, linked, last⟩ := h
  rw [entries_modify last (fun _ => ⟨rfl, rfl⟩)]
  have held : c₁.entries = c.entries ++ [(key, value)] := by
    split at linked
    · rw [entries_modify linked (fun _ => ⟨rfl, rfl⟩)]
      simp [entries]
    · simp only [Option.bind_eq_some_iff] at linked
      obtain ⟨c₂, first, second⟩ := linked
      rw [entries_modify second (fun _ => ⟨rfl, rfl⟩), entries_modify first (fun _ => ⟨rfl, rfl⟩)]
      simp [entries]
  exact held

theorem entries_insert {maxSize : Nat} {c c' : SimpleCache K V} {key : K} {value : V}
    (h : c.insert maxSize key value = some c') : c'.entries ⊆ c.entries ++ [(key, value)] := by
  simp only [insert, Option.bind_eq_bind, Option.bind_eq_some_iff] at h
  obtain ⟨c₁, evicted, rest⟩ := h
  have kept := entries_evict evicted
  split at rest
  · cases rest
    exact List.subset_append_of_subset_left _ kept
  · rw [entries_link rest]
    exact List.append_subset.mpr ⟨List.subset_append_of_subset_left _ kept, List.subset_append_right _ _⟩

/-- The key is still there when room has been made. -/
def keeps (maxSize : Nat) (c : SimpleCache K V) (key : K) : Bool := (c.evict maxSize).any (·.has key)

theorem entries_insert_keeps {maxSize : Nat} {c c' : SimpleCache K V} {key : K} {value : V}
    (h : c.insert maxSize key value = some c') (kept : c.keeps maxSize key = true) : c'.entries ⊆ c.entries := by
  simp only [insert, Option.bind_eq_bind, Option.bind_eq_some_iff] at h
  obtain ⟨c₁, evicted, rest⟩ := h
  simp only [keeps, evicted, Option.any_some] at kept
  rw [if_pos kept] at rest
  cases rest
  exact entries_evict evicted

theorem entries_erase {c c' : SimpleCache K V} {key : K} (h : c.erase key = some c') :
    c'.entries ⊆ c.entries := by
  simp only [erase] at h
  split at h
  · cases h
    exact List.Subset.refl _
  · simp only [Option.bind_eq_bind, Option.bind_eq_some_iff] at h
    obtain ⟨c₁, front, c₂, back, erased⟩ := h
    have first : c₁.entries = c.entries := by
      split at front
      · cases front
        rfl
      · exact entries_modify front (fun _ => ⟨rfl, rfl⟩)
    have second : c₂.entries = c₁.entries := by
      split at back
      · cases back
        rfl
      · exact entries_modify back (fun _ => ⟨rfl, rfl⟩)
    rw [← first, ← second]
    exact entries_eraseNode erased

theorem find_ok {c : SimpleCache K V} {key : K} {value : V} (found : c.find key = .ok value) : c.lookup key = some value := by
  unfold find at found
  split at found
  · rename_i here
    cases found
    exact here
  · cases found

theorem lookup_entries {c : SimpleCache K V} {key : K} {value : V} (h : c.lookup key = some value) :
    (key, value) ∈ c.entries := by
  simp only [lookup, Option.map_eq_some_iff] at h
  obtain ⟨node, found, rfl⟩ := h
  have here := List.find?_some found
  simp only [decide_eq_true_eq] at here
  exact List.mem_map.mpr ⟨node, List.mem_of_find?_eq_some found, by rw [here]⟩

end SimpleCache

end ProxyServer
