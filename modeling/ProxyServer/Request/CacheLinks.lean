import Mathlib.Data.List.Chain
import ProxyServer.Request.SimpleCache

/-!
# The links of the cache

The nodes of a cache into which pairs are inserted are linked in their order, so
that no insertion uses an iterator that is not valid.
-/

namespace ProxyServer.SimpleCache

variable {K V : Type} {c c' : SimpleCache K V} {maxSize : Nat} {key : K} {value : V}

/-- Each node is linked to the next one. -/
structure Linked (c : SimpleCache K V) : Prop where
  ids : (c.values.map (·.id)).Pairwise (· < ·)
  fresh : ∀ n ∈ c.values, n.id < c.nextId
  first : c.first = c.values.head?.map (·.id)
  last : c.last = c.values.getLast?.map (·.id)
  next : c.values.IsChain fun a b => a.next = some b.id

/-- As much of it as an insertion relies on: where there are no nodes, the iterators to
the first and the last one may be those of a node that was erased. -/
structure Chained (c : SimpleCache K V) : Prop where
  ids : (c.values.map (·.id)).Pairwise (· < ·)
  fresh : ∀ n ∈ c.values, n.id < c.nextId
  first : c.values ≠ [] → c.first = c.values.head?.map (·.id)
  last : c.values ≠ [] → c.last = c.values.getLast?.map (·.id)
  next : c.values.IsChain fun a b => a.next = some b.id

theorem Linked.chained (linked : c.Linked) : c.Chained :=
  ⟨linked.ids, linked.fresh, fun _ => linked.first, fun _ => linked.last, linked.next⟩

theorem Chained.linked (chained : c.Chained) (present : c.values ≠ []) : c.Linked where
  ids := chained.ids
  fresh := chained.fresh
  first := chained.first present
  last := chained.last present
  next := chained.next

theorem empty_linked : (empty : SimpleCache K V).Linked where
  ids := List.Pairwise.nil
  fresh := by
    intro n here
    cases here
  first := rfl
  last := rfl
  next := List.IsChain.nil

variable {pre post : List (CacheNode K V)} {x y : CacheNode K V} {f : CacheNode K V → CacheNode K V}

/-! ### One node of a list -/

variable (pre post) in
theorem deref_at (values : c.values = pre ++ x :: post) (apart : ∀ n ∈ pre ++ post, n.id ≠ x.id) :
    c.deref (some x.id) = some x := by
  unfold deref
  rw [Option.bind_some, values, List.find?_append]
  have before : pre.find? (·.id = x.id) = none := by
    rw [List.find?_eq_none]
    intro n here
    simpa using apart n (List.mem_append_left _ here)
  rw [before, Option.none_or, List.find?_cons_of_pos (by simp)]

variable (pre post) in
theorem modify_at (values : c.values = pre ++ x :: post) (apart : ∀ n ∈ pre ++ post, n.id ≠ x.id) :
    c.modify (some x.id) f = some { c with values := pre ++ f x :: post } := by
  unfold modify
  rw [deref_at pre post values apart]
  show some _ = _
  have kept : ∀ l : List (CacheNode K V), (∀ n ∈ l, n.id ≠ x.id) →
      l.map (fun n => if n.id = x.id then f n else n) = l := by
    intro l others
    rw [List.map_congr_left (g := id), List.map_id]
    intro n here
    exact if_neg (others n here)
  rw [values, List.map_append, List.map_cons, if_pos rfl,
    kept pre (fun n here => apart n (List.mem_append_left _ here)),
    kept post (fun n here => apart n (List.mem_append_right _ here))]

variable (pre post) in
theorem eraseNode_at (values : c.values = pre ++ x :: post) (apart : ∀ n ∈ pre ++ post, n.id ≠ x.id) :
    c.eraseNode (some x.id) = some { c with values := pre ++ post } := by
  unfold eraseNode
  rw [deref_at pre post values apart]
  show some _ = _
  have kept : ∀ l : List (CacheNode K V), (∀ n ∈ l, n.id ≠ x.id) → l.filter (·.id ≠ x.id) = l := by
    intro l others
    rw [List.filter_eq_self]
    intro n here
    simpa using others n here
  rw [values, List.filter_append, List.filter_cons_of_neg (by simp),
    kept pre (fun n here => apart n (List.mem_append_left _ here)),
    kept post (fun n here => apart n (List.mem_append_right _ here))]

theorem apart_of_ids (ids : ((pre ++ x :: post).map (·.id)).Pairwise (· < ·)) : ∀ n ∈ pre ++ post, n.id ≠ x.id := by
  rw [List.map_append, List.map_cons, List.pairwise_append] at ids
  intro n here same
  rcases List.mem_append.mp here with before | behind
  · have lower := ids.2.2 n.id (List.mem_map_of_mem before) x.id List.mem_cons_self
    omega
  · have higher := (List.pairwise_cons.mp ids.2.1).1 n.id (List.mem_map_of_mem behind)
    omega

variable (pre post) in
theorem Chained.apart (linked : c.Chained) (values : c.values = pre ++ x :: post) :
    ∀ n ∈ pre ++ post, n.id ≠ x.id := by
  apply apart_of_ids
  rw [← values]
  exact linked.ids

/-! ### Insertion -/

theorem evict_full {a b : CacheNode K V} {rest : List (CacheNode K V)} (linked : c.Chained)
    (values : c.values = a :: b :: rest) (full : c.values.length = maxSize) :
    c.evict maxSize =
      some { c with values := { b with prev := some b.id } :: rest, first := some b.id } := by
  have oldest := deref_at [] _ values (linked.apart [] _ values)
  have erased := eraseNode_at [] _ values (linked.apart [] _ values)
  have next : a.next = some b.id := by
    have chain := linked.next
    rw [values] at chain
    exact (List.isChain_cons_cons.mp chain).1
  have first : c.first = some a.id := by
    rw [linked.first (by simp [values]), values]
    rfl
  have apart := linked.apart [a] rest (x := b) values
  have moved := modify_at [] _ (c := { c with values := b :: rest, first := some b.id })
    (f := fun n => { n with prev := some b.id }) rfl (fun n here => apart n (List.mem_cons_of_mem _ here))
  unfold evict
  rw [if_pos full, first, oldest]
  show (do let c ← c.eraseNode (some a.id); modify { c with first := a.next } a.next _) = _
  rw [erased, next]
  exact moved

theorem two_of_full {l : List (CacheNode K V)} (full : l.length = maxSize) (large : 2 ≤ maxSize) :
    ∃ a b rest, l = a :: b :: rest := by
  match l with
  | [] => simp at full; omega
  | [a] => simp at full; omega
  | a :: b :: rest => exact ⟨a, b, rest, rfl⟩

/-- Without its oldest node the cache is chained as before. -/
theorem Chained.evicted {a b : CacheNode K V} {rest : List (CacheNode K V)} (chained : c.Chained)
    (values : c.values = a :: b :: rest) :
    Chained { c with values := { b with prev := some b.id } :: rest, first := some b.id } := by
  obtain ⟨ids, fresh, first, last, next⟩ := chained
  rw [values] at ids fresh last next
  constructor
  · exact ids.tail
  · intro n here
    rcases List.mem_cons.mp here with same | later
    · rw [same]
      exact fresh b (List.mem_cons_of_mem _ List.mem_cons_self)
    · exact fresh n (List.mem_cons_of_mem _ (List.mem_cons_of_mem _ later))
  · intro _
    rfl
  · intro _
    rw [last (by simp)]
    cases rest <;> rfl
  · have kept := (List.isChain_cons_cons.mp next).2
    cases rest with
    | nil => exact List.IsChain.singleton _
    | cons d rest => exact List.isChain_cons_cons.mpr (List.isChain_cons_cons.mp kept)

theorem evict_linked (linked : c.Linked) (large : 2 ≤ maxSize) : ∃ c', c.evict maxSize = some c' ∧ c'.Linked := by
  by_cases full : c.values.length = maxSize
  · obtain ⟨a, b, rest, values⟩ := two_of_full full large
    exact ⟨_, evict_full linked.chained values full, (linked.chained.evicted values).linked (List.cons_ne_nil _ _)⟩
  · exact ⟨c, if_neg full, linked⟩

theorem link_first (values : c.values = []) :
    c.link key value = some { c with
      values := [{ id := c.nextId, key, value, next := some c.nextId, prev := some c.nextId }]
      first := some c.nextId, last := some c.nextId, nextId := c.nextId + 1 } := by
  simp [link, modify, deref, values]

/-- The new node stands behind the node `l`, which was the last one. -/
theorem link_behind {init : List (CacheNode K V)} {l : CacheNode K V} (linked : c.Chained)
    (values : c.values = init ++ [l]) :
    c.link key value = some { c with
      values := init ++ [{ l with next := some c.nextId },
        { id := c.nextId, key, value, next := some c.nextId, prev := some l.id }]
      last := some c.nextId, nextId := c.nextId + 1 } := by
  have last : c.last = some l.id := by
    rw [linked.last (by simp [values]), values, List.getLast?_concat]
    rfl
  have fresh : ∀ n ∈ init ++ [l], n.id ≠ c.nextId := by
    intro n here
    rw [← values] at here
    exact Nat.ne_of_lt (linked.fresh n here)
  have apart : ∀ n ∈ init, n.id ≠ l.id := by
    intro n here
    exact linked.apart init [] (x := l) (by rw [values]) n (List.mem_append_left _ here)
  have before : ∀ n ∈ init, n.id ≠ c.nextId := by
    intro n here
    exact fresh n (List.mem_append_left _ here)
  have own := fresh l (List.mem_append_right _ List.mem_cons_self)
  have many : ¬(init ++ [l, { id := c.nextId, key, value, next := none, prev := none }]).length = 1 := by
    rw [List.length_append]
    simp
  have prev := modify_at (init ++ [l]) [] (c := { c with values := _, nextId := c.nextId + 1 })
    (x := { id := c.nextId, key, value, next := none, prev := none }) (f := fun n => { n with prev := some l.id })
    rfl (by simpa using fresh)
  have next := modify_at init [{ id := c.nextId, key, value, next := none, prev := some l.id }]
    (c := { c with values := _, nextId := c.nextId + 1 })
    (x := l) (f := fun n => { n with next := some c.nextId }) rfl
    (by simpa [or_imp, forall_and, own.symm] using apart)
  have final := modify_at (init ++ [{ l with next := some c.nextId }]) []
    (c := { c with values := _, last := some c.nextId, nextId := c.nextId + 1 })
    (x := { id := c.nextId, key, value, next := none, prev := some l.id })
    (f := fun n => { n with next := some c.nextId }) rfl
    (by simpa [or_imp, forall_and, own] using before)
  unfold link
  simp only [values, last, List.append_assoc, List.cons_append, List.nil_append, if_neg many] at prev next final ⊢
  simp only [prev, next, final, Option.bind_eq_bind, Option.bind_some]

/-- With a node behind the last one the cache is chained as before. -/
theorem Chained.extended {init : List (CacheNode K V)} {l : CacheNode K V} (chained : c.Chained)
    (values : c.values = init ++ [l]) :
    Chained { c with
      values := init ++ [{ l with next := some c.nextId },
        { id := c.nextId, key, value, next := some c.nextId, prev := some l.id }]
      last := some c.nextId, nextId := c.nextId + 1 } := by
  obtain ⟨ids, fresh, first, last, next⟩ := chained
  rw [values] at ids fresh first next
  have lower : ∀ n ∈ init ++ [l], n.id < c.nextId := fresh
  constructor
  · have same : (init ++ [{ l with next := some c.nextId },
        { id := c.nextId, key, value, next := some c.nextId, prev := some l.id }]).map CacheNode.id =
        (init ++ [l]).map CacheNode.id ++ [c.nextId] := by
      simp
    show List.Pairwise _ (List.map _ (init ++ [_, _]))
    rw [same, List.pairwise_append]
    refine ⟨ids, List.pairwise_singleton _ _, ?_⟩
    intro a here b there
    obtain ⟨n, member, rfl⟩ := List.mem_map.mp here
    rw [List.mem_singleton.mp there]
    exact lower n member
  · intro n here
    rcases List.mem_append.mp here with before | added
    · exact Nat.lt_succ_of_lt (lower n (List.mem_append_left _ before))
    · rcases List.mem_cons.mp added with same | new
      · rw [same]
        exact Nat.lt_succ_of_lt (lower l (List.mem_append_right _ List.mem_cons_self))
      · rw [List.mem_singleton.mp new]
        exact Nat.lt_succ_self _
  · intro _
    show c.first = _
    rw [first (by simp)]
    cases init <;> rfl
  · intro _
    show some c.nextId = _
    simp
  · show List.IsChain _ (init ++ [_, _])
    rw [List.isChain_append] at next ⊢
    refine ⟨next.1, List.isChain_cons_cons.mpr ⟨rfl, List.IsChain.singleton _⟩, ?_⟩
    intro x final y behind
    cases behind
    exact next.2.2 x final l rfl

theorem Chained.single (c : SimpleCache K V) : Chained { c with
    values := [{ id := c.nextId, key, value, next := some c.nextId, prev := some c.nextId }]
    first := some c.nextId, last := some c.nextId, nextId := c.nextId + 1 } where
  ids := List.pairwise_singleton _ _
  fresh n here := by
    rw [List.mem_singleton.mp here]
    exact Nat.lt_succ_self _
  first _ := rfl
  last _ := rfl
  next := List.IsChain.singleton _

theorem link_linked (linked : c.Linked) : ∃ c', c.link key value = some c' ∧ c'.Linked := by
  rcases List.eq_nil_or_concat c.values with values | ⟨init, l, values⟩
  · exact ⟨_, link_first values, (Chained.single c).linked (List.cons_ne_nil _ _)⟩
  · rw [List.concat_eq_append] at values
    exact ⟨_, link_behind linked.chained values, (linked.chained.extended values).linked (by simp)⟩

theorem insert_linked [DecidableEq K] (key : K) (value : V) (linked : c.Linked) (large : 2 ≤ maxSize) :
    ∃ c', c.insert maxSize key value = some c' ∧ c'.Linked := by
  obtain ⟨c₁, evicted, kept⟩ := evict_linked linked large
  unfold insert
  rw [evicted]
  show ∃ c', (if c₁.has key then some c₁ else c₁.link key value) = some c' ∧ c'.Linked
  split
  · exact ⟨c₁, rfl, kept⟩
  · exact link_linked kept

end ProxyServer.SimpleCache
