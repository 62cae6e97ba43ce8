import ProxyServer.Foundation.Fifo
import ProxyServer.Request.CacheLinks

/-!
# The order of the cache

Over any insertions and erasures the nodes stay threaded in the order of their
insertion, both ways, and the cache is the bounded map of its pairs. The iterators at
the ends may be those of nodes that were erased: no operation uses them.
-/

namespace ProxyServer.SimpleCache

variable {K V : Type}

/-- The link between two neighbours. -/
def Link (a b : CacheNode K V) : Prop := a.next = some b.id ∧ b.prev = some a.id

/-- The nodes are linked in their order, each to the next one and back. Nothing is said
of the iterators that lead out of the cache. -/
structure Threaded (c : SimpleCache K V) : Prop where
  ids : (c.values.map (·.id)).Pairwise (· < ·)
  fresh : ∀ n ∈ c.values, n.id < c.nextId
  first : c.values ≠ [] → c.first = c.values.head?.map (·.id)
  last : c.values ≠ [] → c.last = c.values.getLast?.map (·.id)
  links : c.values.IsChain Link
  keys : (c.values.map (·.key)).Nodup

variable {c : SimpleCache K V} {maxSize : Nat}

theorem empty_threaded : (empty : SimpleCache K V).Threaded where
  ids := List.Pairwise.nil
  fresh := by
    intro n here
    cases here
  first := fun present => absurd rfl present
  last := fun present => absurd rfl present
  links := List.IsChain.nil
  keys := List.nodup_nil

theorem Threaded.chained (threaded : c.Threaded) : c.Chained :=
  ⟨threaded.ids, threaded.fresh, threaded.first, threaded.last, threaded.links.imp fun _ _ link => link.1⟩

theorem Chained.threaded (chained : c.Chained) (links : c.values.IsChain Link) (keys : (c.values.map (·.key)).Nodup) :
    c.Threaded :=
  ⟨chained.ids, chained.fresh, chained.first, chained.last, links, keys⟩

/-! ### Chains -/

variable {a b : CacheNode K V} {l r : List (CacheNode K V)}

theorem chain_head (b' : CacheNode K V) (chain : (b :: r).IsChain Link) (id : b'.id = b.id) (next : b'.next = b.next) :
    (b' :: r).IsChain Link := by
  cases r with
  | nil => exact List.IsChain.singleton b'
  | cons d r =>
    obtain ⟨link, rest⟩ := List.isChain_cons_cons.mp chain
    exact List.isChain_cons_cons.mpr ⟨⟨next.trans link.1, link.2.trans (by rw [id])⟩, rest⟩

theorem chain_last (a' : CacheNode K V) (chain : (l ++ [a]).IsChain Link) (id : a'.id = a.id) (prev : a'.prev = a.prev) :
    (l ++ [a']).IsChain Link := by
  rw [List.isChain_append] at chain ⊢
  refine ⟨chain.1, List.IsChain.singleton a', ?_⟩
  intro x final y behind
  cases behind
  have link := chain.2.2 x final a rfl
  exact ⟨link.1.trans (by rw [id]), prev.trans link.2⟩

theorem chain_join (front : (l ++ [a]).IsChain Link) (back : (b :: r).IsChain Link) (link : Link a b) :
    (l ++ a :: b :: r).IsChain Link := by
  have joined : l ++ a :: b :: r = (l ++ [a]) ++ b :: r := by simp
  rw [joined, List.isChain_append]
  refine ⟨front, back, ?_⟩
  intro x final y behind
  rw [List.getLast?_concat] at final
  cases final
  cases behind
  exact link

/-! ### Insertion -/

theorem Threaded.evict (threaded : c.Threaded) (large : 2 ≤ maxSize) :
    ∃ c', c.evict maxSize = some c' ∧ c'.Threaded ∧ c'.entries = Fifo.makeRoom maxSize c.entries := by
  by_cases full : c.values.length = maxSize
  · obtain ⟨a, b, rest, values⟩ := two_of_full full large
    refine ⟨_, evict_full threaded.chained values full, ?_, ?_⟩
    · have links := threaded.links
      have keys := threaded.keys
      rw [values] at links keys
      exact (threaded.chained.evicted values).threaded
        (chain_head _ (List.isChain_cons_cons.mp links).2 rfl rfl) keys.tail
    · have size : c.entries.length = maxSize := by
        rw [← full]
        exact List.length_map _
      rw [Fifo.makeRoom, if_pos size]
      simp [entries, values]
  · refine ⟨c, if_neg full, threaded, ?_⟩
    have size : c.entries.length ≠ maxSize := by
      intro same
      rw [← same] at full
      exact full (List.length_map _).symm
    rw [Fifo.makeRoom, if_neg size]

theorem keys_entries (c : SimpleCache K V) : Fifo.keys c.entries = c.values.map (·.key) := by
  simp [Fifo.keys, entries]

variable [DecidableEq K] {key : K} {value : V}

theorem has_iff (c : SimpleCache K V) (key : K) : c.has key = true ↔ key ∈ Fifo.keys c.entries := by
  rw [keys_entries]
  simp [has]

omit [DecidableEq K] in
theorem Threaded.link (threaded : c.Threaded) (value : V) (absent : key ∉ Fifo.keys c.entries) :
    ∃ c', c.link key value = some c' ∧ c'.Threaded := by
  rw [keys_entries] at absent
  rcases List.eq_nil_or_concat c.values with values | ⟨init, l, values⟩
  · exact ⟨_, link_first values, (Chained.single c).threaded (List.IsChain.singleton _) (List.nodup_singleton key)⟩
  · rw [List.concat_eq_append] at values
    have links := threaded.links
    have keys := threaded.keys
    rw [values] at links keys absent
    refine ⟨_, link_behind threaded.chained values, (threaded.chained.extended values).threaded ?_ ?_⟩
    · exact chain_join (chain_last _ links rfl rfl) (List.IsChain.singleton _) ⟨rfl, rfl⟩
    · have same : (init ++ [{ l with next := some c.nextId },
          { id := c.nextId, key, value, next := some c.nextId, prev := some l.id }]).map CacheNode.key =
          (init ++ [l]).map CacheNode.key ++ [key] := by
        simp
      show (List.map _ (init ++ [_, _])).Nodup
      rw [same, List.nodup_append]
      refine ⟨keys, List.nodup_singleton key, ?_⟩
      intro a here b there equal
      rw [equal, List.mem_singleton.mp there] at here
      exact absent here

theorem Threaded.insert (threaded : c.Threaded) (large : 2 ≤ maxSize) (key : K) (value : V) :
    ∃ c', c.insert maxSize key value = some c' ∧ c'.Threaded ∧ c'.entries = Fifo.insert maxSize c.entries key value := by
  obtain ⟨c₁, evicted, kept, room⟩ := threaded.evict large
  unfold SimpleCache.insert Fifo.insert
  rw [evicted, ← room]
  show ∃ c', (if c₁.has key then some c₁ else c₁.link key value) = some c' ∧ c'.Threaded ∧
    c'.entries = if key ∈ Fifo.keys c₁.entries then c₁.entries else c₁.entries ++ [(key, value)]
  by_cases present : c₁.has key = true
  · rw [if_pos present, if_pos ((has_iff c₁ key).mp present)]
    exact ⟨c₁, rfl, kept, rfl⟩
  · have absent : key ∉ Fifo.keys c₁.entries := fun member => present ((has_iff c₁ key).mpr member)
    rw [if_neg present, if_neg absent]
    obtain ⟨c', linked, threaded'⟩ := kept.link value absent
    exact ⟨c', linked, threaded', entries_link linked⟩

/-! ### Erasure -/

variable {x : CacheNode K V}

theorem Threaded.find_key (threaded : c.Threaded) (values : c.values = l ++ x :: r) :
    c.values.find? (·.key = x.key) = some x := by
  have keys := threaded.keys
  rw [values, List.map_append, List.map_cons] at keys
  have before : l.find? (·.key = x.key) = none := by
    rw [List.find?_eq_none]
    intro n here same
    have apart := (List.nodup_append.mp keys).2.2 n.key (List.mem_map_of_mem here) x.key List.mem_cons_self
    exact apart (by simpa using same)
  rw [values, List.find?_append, before, Option.none_or, List.find?_cons_of_pos (by simp)]

omit [DecidableEq K] in
theorem Threaded.neighbours (threaded : c.Threaded) (values : c.values = l ++ x :: r) :
    (∀ a ∈ l.getLast?, x.prev = some a.id) ∧ ∀ b ∈ r.head?, x.next = some b.id := by
  have links := threaded.links
  rw [values, List.isChain_append] at links
  constructor
  · intro a final
    exact (links.2.2 a final x rfl).2
  · intro b behind
    cases r with
    | nil => cases behind
    | cons d r =>
      cases behind
      exact (List.isChain_cons_cons.mp links.2.1).1.1

omit [DecidableEq K] in
theorem Threaded.first_eq (threaded : c.Threaded) (values : c.values = l ++ x :: r) :
    c.first = some x.id ↔ l = [] := by
  have apart := threaded.chained.apart l r values
  rw [threaded.first (by simp [values]), values]
  cases l with
  | nil => simp
  | cons d l => simpa using apart d List.mem_cons_self

omit [DecidableEq K] in
theorem Threaded.last_eq (threaded : c.Threaded) (values : c.values = l ++ x :: r) :
    c.last = some x.id ↔ r = [] := by
  have apart := threaded.chained.apart l r values
  rw [threaded.last (by simp [values]), values]
  rcases List.eq_nil_or_concat r with empty | ⟨s, d, concat⟩
  · simp [empty]
  · rw [List.concat_eq_append] at concat
    subst concat
    have other := apart d (by simp)
    have joined : l ++ x :: (s ++ [d]) = (l ++ x :: s) ++ [d] := by simp
    rw [joined, List.getLast?_concat]
    simpa using other

/-- A chain of nodes of which one is taken out: its neighbours are linked to each other. -/
def bridged (l : List (CacheNode K V)) (x : CacheNode K V) (r : List (CacheNode K V)) : List (CacheNode K V) :=
  l.dropLast ++ (l.getLast?.map fun a => { a with next := x.next }).toList ++
    ((r.head?.map fun b => { b with prev := x.prev }).toList ++ r.tail)

theorem Threaded.erase_at (threaded : c.Threaded) (values : c.values = l ++ x :: r) :
    c.erase x.key = some { c with
      values := bridged l x r
      first := if l = [] then x.next else c.first
      last := if r = [] then x.prev else c.last } := by
  have ids := threaded.ids
  rw [values] at ids
  have found := threaded.find_key values
  have isFirst := threaded.first_eq values
  have isLast := threaded.last_eq values
  obtain ⟨prev, next⟩ := threaded.neighbours values
  unfold erase
  rw [found]
  dsimp only
  rcases List.eq_nil_or_concat l with rfl | ⟨p, a, rfl⟩
  · rw [if_pos (isFirst.mpr rfl).symm]
    cases r with
    | nil =>
      have here : some x.id = c.last := (isLast.mpr rfl).symm
      have erased := eraseNode_at [] [] (c := { c with first := x.next, last := x.prev }) values (by simp)
      simp only [Option.bind_eq_bind, Option.bind_some, if_pos here, erased, bridged]
      rfl
    | cons b s =>
      have elsewhere : ¬some x.id = c.last := fun same => by simpa using isLast.mp same.symm
      have toNext : x.next = some b.id := next b rfl
      have behind : ∀ n ∈ [x] ++ s, n.id ≠ b.id := apart_of_ids (by simpa using ids)
      have back := modify_at [x] s (c := { c with first := x.next }) (f := fun n => { n with prev := x.prev }) values behind
      have erased := eraseNode_at [] ({ b with prev := x.prev } :: s)
        (c := { c with first := x.next, values := [x] ++ { b with prev := x.prev } :: s }) rfl
        (apart_of_ids (by simpa using ids))
      rw [← toNext] at back
      simp only [Option.bind_eq_bind, Option.bind_some, if_neg elsewhere, back, erased, bridged]
      rfl
  · rw [List.concat_eq_append] at *
    have elsewhere : ¬some x.id = c.first := fun same => by simpa using isFirst.mp same.symm
    have toPrev : x.prev = some a.id := prev a (by simp)
    have before : ∀ n ∈ p ++ (x :: r), n.id ≠ a.id := apart_of_ids (by simpa using ids)
    have front := modify_at p (x :: r) (c := c) (f := fun n => { n with next := x.next }) (by rw [values]; simp) before
    rw [← toPrev] at front
    rw [if_neg elsewhere]
    cases r with
    | nil =>
      have here : some x.id = c.last := (isLast.mpr rfl).symm
      have erased := eraseNode_at (p ++ [{ a with next := x.next }]) []
        (c := { c with values := p ++ { a with next := x.next } :: [x], last := x.prev }) (x := x) (by simp)
        (apart_of_ids (by simpa using ids))
      simp only [Option.bind_eq_bind, Option.bind_some, front, if_pos here, erased, bridged]
      simp
    | cons b s =>
      have notLast : ¬some x.id = c.last := fun same => by simpa using isLast.mp same.symm
      have toNext : x.next = some b.id := next b rfl
      have back := modify_at (p ++ [{ a with next := x.next }, x]) s
        (c := { c with values := p ++ { a with next := x.next } :: x :: b :: s }) (x := b)
        (f := fun n => { n with prev := x.prev }) (by simp) (apart_of_ids (by simpa using ids))
      rw [← toNext] at back
      have erased := eraseNode_at (p ++ [{ a with next := x.next }]) ({ b with prev := x.prev } :: s)
        (c := { c with values := p ++ [{ a with next := x.next }, x] ++ { b with prev := x.prev } :: s }) (x := x) (by simp)
        (apart_of_ids (by simpa using ids))
      simp only [Option.bind_eq_bind, Option.bind_some, front, if_neg notLast, back, erased, bridged]
      simp

omit [DecidableEq K] in
theorem map_bridged {β : Type} (f : CacheNode K V → β) (next : ∀ n it, f { n with next := it } = f n)
    (prev : ∀ n it, f { n with prev := it } = f n) (l : List (CacheNode K V)) (x : CacheNode K V)
    (r : List (CacheNode K V)) : (bridged l x r).map f = (l ++ r).map f := by
  have front : ∀ l : List (CacheNode K V),
      (l.dropLast ++ (l.getLast?.map fun a : CacheNode K V => { a with next := x.next }).toList).map f = l.map f := by
    intro l
    rcases List.eq_nil_or_concat l with rfl | ⟨p, a, rfl⟩
    · rfl
    · simp [next]
  have back : ((r.head?.map fun b : CacheNode K V => { b with prev := x.prev }).toList ++ r.tail).map f = r.map f := by
    cases r with
    | nil => rfl
    | cons b s => simp [prev]
  unfold bridged
  rw [List.map_append, front, back, List.map_append]

omit [DecidableEq K] in
theorem chain_bridged (chain : (l ++ x :: r).IsChain Link) : (bridged l x r).IsChain Link := by
  rw [List.isChain_append] at chain
  obtain ⟨front, back, joint⟩ := chain
  unfold bridged
  rcases List.eq_nil_or_concat l with rfl | ⟨p, a, rfl⟩
  · cases r with
    | nil => exact List.IsChain.nil
    | cons b s => exact chain_head _ (List.isChain_cons_cons.mp back).2 rfl rfl
  · rw [List.concat_eq_append] at *
    have before : Link a x := joint a (by simp) x rfl
    have kept := chain_last { a with next := x.next } front rfl rfl
    cases r with
    | nil => simpa using kept
    | cons b s =>
      obtain ⟨behind, rest⟩ := List.isChain_cons_cons.mp back
      have moved := chain_head { b with prev := x.prev } rest rfl rfl
      have joined := chain_join kept moved ⟨behind.1, before.2⟩
      simpa using joined

theorem Threaded.erased (threaded : c.Threaded) (values : c.values = l ++ x :: r) :
    ∃ c', c.erase x.key = some c' ∧ c'.Threaded ∧ c'.values.map (fun n => (n.key, n.value)) = (l ++ r).map (fun n => (n.key, n.value)) := by
  refine ⟨_, threaded.erase_at values, ?_, map_bridged _ (fun _ _ => rfl) (fun _ _ => rfl) l x r⟩
  have sub : (l ++ r).Sublist c.values := by
    rw [values]
    exact List.Sublist.append_left (List.sublist_cons_self x r) l
  have ids := map_bridged CacheNode.id (fun _ _ => rfl) (fun _ _ => rfl) l x r
  have keys := map_bridged CacheNode.key (fun _ _ => rfl) (fun _ _ => rfl) l x r
  obtain ⟨prev, next⟩ := threaded.neighbours values
  constructor
  · show List.Pairwise _ (List.map _ (bridged l x r))
    rw [ids]
    exact threaded.ids.sublist (sub.map _)
  · intro n here
    have member : n.id ∈ (l ++ r).map CacheNode.id := by
      rw [← ids]
      exact List.mem_map_of_mem here
    obtain ⟨m, there, same⟩ := List.mem_map.mp member
    rw [← same]
    exact threaded.fresh m (sub.subset there)
  · intro present
    show (if l = [] then x.next else c.first) = (bridged l x r).head?.map CacheNode.id
    rw [← List.head?_map, ids]
    cases l with
    | nil =>
      cases r with
      | nil => exact absurd rfl present
      | cons b s => exact next b rfl
    | cons d l =>
      rw [if_neg (by simp), threaded.first (by simp [values]), values]
      rfl
  · intro present
    show (if r = [] then x.prev else c.last) = (bridged l x r).getLast?.map CacheNode.id
    rw [← List.getLast?_map, ids]
    rcases List.eq_nil_or_concat r with rfl | ⟨s, d, rfl⟩
    · rcases List.eq_nil_or_concat l with rfl | ⟨p, a, rfl⟩
      · exact absurd rfl present
      · simpa using prev a (by simp)
    · rw [List.concat_eq_append] at *
      have joined : l ++ x :: (s ++ [d]) = (l ++ x :: s) ++ [d] := by simp
      rw [if_neg (by simp), threaded.last (by simp [values]), values, joined, List.getLast?_concat]
      simp
  · have links := threaded.links
    rw [values] at links
    exact chain_bridged links
  · show (List.map _ (bridged l x r)).Nodup
    rw [keys]
    exact threaded.keys.sublist (sub.map _)

theorem Threaded.erase (threaded : c.Threaded) (key : K) :
    ∃ c', c.erase key = some c' ∧ c'.Threaded ∧ c'.entries = Fifo.erase c.entries key := by
  by_cases present : key ∈ Fifo.keys c.entries
  · rw [keys_entries] at present
    obtain ⟨x, member, rfl⟩ := List.mem_map.mp present
    obtain ⟨l, r, values⟩ := List.append_of_mem member
    obtain ⟨c', erased, kept, same⟩ := threaded.erased values
    refine ⟨c', erased, kept, ?_⟩
    have keys := threaded.keys
    rw [values, List.map_append, List.map_cons] at keys
    have apart : ∀ n ∈ l ++ r, n.key ≠ x.key := by
      have moved := List.nodup_middle.mp keys
      intro n here equal
      apply (List.nodup_cons.mp moved).1
      rw [← List.map_append, ← equal]
      exact List.mem_map_of_mem here
    have others : (l ++ r).filter (fun n => n.key ≠ x.key) = l ++ r := by
      rw [List.filter_eq_self]
      intro n here
      simpa using apart n here
    unfold entries Fifo.erase
    rw [same, values, List.filter_map]
    have all : (l ++ x :: r).filter (fun n => n.key ≠ x.key) = l ++ r := by
      rw [← others, List.filter_append, List.filter_append, List.filter_cons_of_neg (by simp)]
    exact congrArg _ all.symm
  · have absent : c.values.find? (·.key = key) = none := by
      rw [List.find?_eq_none]
      intro n here same
      rw [keys_entries] at present
      exact present (List.mem_map.mpr ⟨n, here, by simpa using same⟩)
    refine ⟨c, ?_, threaded, ?_⟩
    · unfold SimpleCache.erase
      rw [absent]
    · unfold Fifo.erase
      symm
      rw [List.filter_eq_self]
      intro p here
      have other : p.1 ≠ key := fun same => present (List.mem_map.mpr ⟨p, here, same⟩)
      simpa using other

/-! ### Every sequence of operations -/

def operate (maxSize : Nat) (c : SimpleCache K V) : Fifo.Op K V → Option (SimpleCache K V)
  | .insert key value => c.insert maxSize key value
  | .erase key => c.erase key

/-- `none` when an iterator is used that is not one of the cache. -/
def operateAll (maxSize : Nat) (ops : List (Fifo.Op K V)) : Option (SimpleCache K V) :=
  ops.foldlM (operate maxSize) empty

theorem Threaded.operate (threaded : c.Threaded) (large : 2 ≤ maxSize) (op : Fifo.Op K V) :
    ∃ c', SimpleCache.operate maxSize c op = some c' ∧ c'.Threaded ∧ c'.entries = Fifo.step maxSize c.entries op := by
  cases op with
  | insert key value => exact threaded.insert large key value
  | erase key => exact threaded.erase key

/-- The cache is the bounded map of its pairs, whatever is done with it. -/
theorem operateAll_threaded (large : 2 ≤ maxSize) (ops : List (Fifo.Op K V)) :
    ∃ c, operateAll maxSize ops = some c ∧ c.Threaded ∧ c.entries = Fifo.run maxSize ops := by
  have from_any : ∀ (ops : List (Fifo.Op K V)) (c : SimpleCache K V), c.Threaded →
      ∃ c', ops.foldlM (SimpleCache.operate maxSize) c = some c' ∧ c'.Threaded ∧
        c'.entries = ops.foldl (Fifo.step maxSize) c.entries := by
    intro ops
    induction ops with
    | nil =>
      intro c threaded
      exact ⟨c, rfl, threaded, rfl⟩
    | cons op ops ih =>
      intro c threaded
      obtain ⟨c₁, operated, kept, entries⟩ := threaded.operate large op
      obtain ⟨c', rest, threaded', same⟩ := ih c₁ kept
      refine ⟨c', ?_, threaded', ?_⟩
      · rw [List.foldlM_cons, operated]
        exact rest
      · rw [same, entries]
        rfl
  exact from_any ops empty empty_threaded

/-- The nodes met from `it` on, following `next`. -/
def walk (c : SimpleCache K V) : Nat → Option Nat → Option (List (CacheNode K V))
  | 0, _ => some []
  | steps + 1, it => do
    let node ← c.deref it
    let rest ← c.walk steps node.next
    return node :: rest

omit [DecidableEq K] in
theorem Threaded.deref_mem (threaded : c.Threaded) {n : CacheNode K V} (member : n ∈ c.values) :
    c.deref (some n.id) = some n := by
  obtain ⟨l, r, values⟩ := List.append_of_mem member
  exact deref_at l r values (threaded.chained.apart l r values)

omit [DecidableEq K] in
theorem Threaded.walk (threaded : c.Threaded) {l r : List (CacheNode K V)} (values : c.values = l ++ r) {it : Option Nat}
    (start : r ≠ [] → it = r.head?.map (·.id)) : c.walk r.length it = some r := by
  induction r generalizing l it with
  | nil => rfl
  | cons x r ih =>
    have here : c.deref it = some x := by
      rw [start (by simp)]
      exact threaded.deref_mem (by simp [values])
    have below : c.walk r.length x.next = some r := by
      apply ih (l := l ++ [x]) (by simp [values])
      intro present
      obtain ⟨b, s, rfl⟩ := List.exists_cons_of_ne_nil present
      exact (threaded.neighbours values).2 b rfl
    rw [List.length_cons, SimpleCache.walk]
    simp only [here, below, Option.bind_eq_bind, Option.bind_some, Option.pure_def]

/-- What the links of a cache represent: the pairs `q` in their order. -/
structure Represents (c : SimpleCache K V) (q : List (K × V)) : Prop where
  size : c.size = q.length
  /-- From `first` on, `size() - 1` steps along `next` meet every node once and end at
  `last`; back along `prev` they are inverted. -/
  order : q ≠ [] → ∃ nodes, c.walk c.size c.first = some nodes ∧ nodes.Perm c.values ∧
    (nodes.map fun n => (n.key, n.value)) = q ∧ c.deref c.last = nodes.getLast? ∧
    nodes.IsChain fun a b => c.deref a.next = some b ∧ c.deref b.prev = some a

omit [DecidableEq K] in
theorem Threaded.represents (threaded : c.Threaded) : c.Represents c.entries where
  size := (List.length_map _).symm
  order := by
    intro present
    have nodes : c.values ≠ [] := by
      intro empty
      apply present
      unfold entries
      rw [empty]
      rfl
    refine ⟨c.values, threaded.walk (l := []) rfl threaded.first, List.Perm.refl _, rfl, ?_, ?_⟩
    · obtain ⟨init, l, concat⟩ := (List.eq_nil_or_concat c.values).resolve_left nodes
      rw [List.concat_eq_append] at concat
      have last : c.values.getLast? = some l := by rw [concat, List.getLast?_concat]
      rw [threaded.last nodes, last]
      exact threaded.deref_mem (List.mem_of_getLast? last)
    · apply threaded.links.imp_of_mem_imp
      intro a b here there link
      rw [link.1, link.2]
      exact ⟨threaded.deref_mem there, threaded.deref_mem here⟩

/-- Whatever is inserted and erased, no iterator is used that is not one of the cache,
the cache is not overfull, its links represent the pairs in the order of their
insertion, and an insertion at capacity evicts the oldest of them. -/
theorem cache_ordered (maxSize : Nat) (large : 2 ≤ maxSize) (ops : List (Fifo.Op K V)) :
    ∃ c, operateAll maxSize ops = some c ∧ c.size ≤ maxSize ∧ c.Represents (Fifo.run maxSize ops) ∧
      (Fifo.keys (Fifo.run maxSize ops)).Nodup ∧
      ∀ key value, c.size = maxSize → ∃ oldest rest c', Fifo.run maxSize ops = oldest :: rest ∧
        c.insert maxSize key value = some c' ∧
        c'.Represents (if key ∈ Fifo.keys rest then rest else rest ++ [(key, value)]) := by
  obtain ⟨c, operated, threaded, entries⟩ := operateAll_threaded large ops
  obtain ⟨nodup, bound⟩ := Fifo.run_sound (Nat.lt_of_lt_of_le Nat.zero_lt_two large) ops
  have represents := threaded.represents
  rw [entries] at represents
  refine ⟨c, operated, by rw [represents.size]; exact bound, represents, nodup, ?_⟩
  intro key value full
  rw [represents.size] at full
  obtain ⟨oldest, rest, held⟩ := List.exists_cons_of_length_pos (by omega : 0 < (Fifo.run maxSize ops).length)
  obtain ⟨c', inserted, threaded', after⟩ := threaded.insert large key value
  refine ⟨oldest, rest, c', held, inserted, ?_⟩
  have represents' := threaded'.represents
  have room : Fifo.makeRoom maxSize (oldest :: rest) = rest := by
    rw [← held]
    rw [Fifo.makeRoom, if_pos full, held]
    rfl
  rw [after, entries, held, Fifo.insert, room] at represents'
  exact represents'

theorem three_inserted :
    ∃ c, operateAll 2 [.insert 1 10, .insert 2 20, .erase 1, .insert 3 30] = some c ∧ c.size ≤ 2 ∧
      c.Represents (Fifo.run 2 [.insert 1 10, .insert 2 20, .erase 1, .insert 3 30]) ∧
      (Fifo.keys (Fifo.run 2 [.insert 1 10, .insert 2 20, .erase 1, .insert 3 30])).Nodup ∧
      ∀ key value, c.size = 2 → ∃ oldest rest c',
        Fifo.run 2 [.insert 1 10, .insert 2 20, .erase 1, .insert 3 30] = oldest :: rest ∧
        c.insert 2 key value = some c' ∧
        c'.Represents (if key ∈ Fifo.keys rest then rest else rest ++ [(key, value)]) :=
  cache_ordered (K := Nat) (V := Nat) 2 (by decide) [.insert 1 10, .insert 2 20, .erase 1, .insert 3 30]

/-! ### Insertion -/

theorem lookup_eq (c : SimpleCache K V) (key : K) : c.lookup key = Fifo.find c.entries key := by
  unfold lookup Fifo.find entries
  rw [List.find?_map, Option.map_map]
  rfl

theorem find_ok_iff (c : SimpleCache K V) (key : K) (value : V) : c.find key = .ok value ↔ c.lookup key = some value := by
  unfold SimpleCache.find
  cases c.lookup key with
  | none => simp
  | some v => simp

/-- What `insert` is to do: `find` returns the value, every other key keeps its value,
but that the oldest one is gone when a full cache takes a new key. -/
def InsertLaw (maxSize : Nat) (c : SimpleCache K V) (oldest : Option K) (key : K) (value : V) : Prop :=
  ∃ c', c.insert maxSize key value = some c' ∧ c'.find key = .ok value ∧
    ∀ k, k ≠ key → c'.lookup k = if c.has key = false ∧ c.size = maxSize ∧ oldest = some k then none else c.lookup k

/-- `insert` keeps its law for a key that is not present, for one that has the value and
finds the cache not full, and for the oldest one of a full cache. -/
theorem insert_law_iff (maxSize : Nat) (large : 2 ≤ maxSize) (ops : List (Fifo.Op K V)) (c : SimpleCache K V)
    (reached : operateAll maxSize ops = some c) (key : K) (value : V) :
    InsertLaw maxSize c (Fifo.keys (Fifo.run maxSize ops)).head? key value ↔
      c.has key = false ∨ (c.size ≠ maxSize ∧ c.lookup key = some value) ∨
        (c.size = maxSize ∧ (Fifo.keys (Fifo.run maxSize ops)).head? = some key) := by
  obtain ⟨c₁, operated, threaded, entries⟩ := operateAll_threaded large ops
  rw [reached] at operated
  obtain rfl := Option.some.inj operated
  obtain ⟨c', inserted, threaded', after⟩ := threaded.insert large key value
  have nodup := (Fifo.run_sound (Nat.lt_of_lt_of_le Nat.zero_lt_two large) ops).1
  rw [← entries] at nodup ⊢
  have size : c.size = c.entries.length := (List.length_map _).symm
  have absent : c.has key = false ↔ key ∉ Fifo.keys c.entries := by
    rw [← has_iff, Bool.not_eq_true]
  have others : ∀ k, (if c.has key = false ∧ c.size = maxSize ∧ (Fifo.keys c.entries).head? = some k then none
      else c.lookup k) =
      if key ∉ Fifo.keys c.entries ∧ c.entries.length = maxSize ∧ (Fifo.keys c.entries).head? = some k then none
      else Fifo.find c.entries k := by
    intro k
    exact if_congr (and_congr absent (by rw [size])) rfl (lookup_eq c k)
  rw [lookup_eq, absent, size, ← Fifo.law_iff (by omega) nodup]
  unfold InsertLaw Fifo.Law
  rw [← after, ← lookup_eq]
  constructor
  · intro ⟨d, same, found, kept⟩
    rw [inserted] at same
    obtain rfl := Option.some.inj same
    refine ⟨(find_ok_iff _ _ _).mp found, ?_⟩
    intro k different
    rw [← lookup_eq, ← others]
    exact kept k different
  · intro ⟨found, kept⟩
    refine ⟨c', inserted, (find_ok_iff _ _ _).mpr found, ?_⟩
    intro k different
    rw [others, lookup_eq]
    exact kept k different

theorem new_key_inserted : InsertLaw 2
    { values := [{ id := 0, key := 1, value := 10, next := some 1, prev := some 0 },
        { id := 1, key := 2, value := 20, next := some 1, prev := some 0 }]
      first := some 0, last := some 1, nextId := 2 } (some 1) 3 30 :=
  (insert_law_iff (K := Nat) (V := Nat) 2 (by decide) [.insert 1 10, .insert 2 20] _ rfl 3 30).mpr (by decide)

/-- A key that is present takes the oldest pair out of a full cache. -/
theorem present_key_evicts :
    (operateAll 2 [.insert 1 10, .insert 2 20, .insert 2 21]).map (fun c : SimpleCache Nat Nat => (c.lookup 1, c.lookup 2)) =
      some (none, some 20) := by
  decide

end ProxyServer.SimpleCache
