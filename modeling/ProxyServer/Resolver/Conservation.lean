import Mathlib.Data.List.Nodup
import ProxyServer.Foundation.Tokens
import ProxyServer.Request.CacheLinks
import ProxyServer.Resolver.Steps

/-!
# Conservation in the resolver

Every submission is in the incoming queue, in the hand of a worker, in the
outgoing queue or delivered, and the eventfd promises no more than the outgoing
queue holds.
-/

namespace ProxyServer

def Worker.query : Worker → Option InQuery
  | .find p => some p
  | .resolve p => some p
  | .publish p _ => some p
  | _ => none

def Worker.hand (w : Worker) : List Submission := w.query.toList.map (·.submission)

/-- A worker that has pushed a result owes a write to the eventfd. -/
def Worker.owes : Worker → List Unit
  | .notify => [()]
  | _ => []

/-- There is no colon in the host, or a number behind the first one. -/
def Readable (host : Bytes) : Prop := ∃ port, stoi (Resolver.portName host) = .ok port

def ResolverEvent.Readable : ResolverEvent → Prop
  | .resolveHost host _ => ProxyServer.Readable host
  | _ => True

/-- What the handler of the notifier has taken from the counter and not from the queue. -/
def MainThread.taken : MainThread → Nat
  | .reading => 1
  | _ => 0

namespace Resolver

def places (s : Resolver) : List Submission :=
  s.inQueue.map (·.submission) ++ (s.workers.flatMap Worker.hand ++
    (s.outQueue.map (·.submission) ++ s.delivered.map (·.submission)))

structure Conserved (s : Resolver) : Prop where
  placed : s.places.Perm s.submitted
  numbered : s.submitted.map (·.call) = List.range s.submitted.length
  counted : s.counter + (s.workers.flatMap Worker.owes).length + s.main.taken = s.outQueue.length
  queued : ∀ p ∈ s.inQueue, Readable p.host
  held : ∀ w ∈ s.workers, ∀ p ∈ w.query, Readable p.host
  linked : s.cache.Linked

variable {s s' : Resolver} {i : Nat} {w : Worker} {getaddrinfo : Bytes → Bytes → Option (List UInt32)}
  {e : ResolverEvent} {f : ResolverFault}

/-! ### What holds of the queries -/

/-- Every query that is waiting or in the hand of a worker is a `Q`. -/
structure Queries (Q : InQuery → Prop) (s : Resolver) : Prop where
  queued : ∀ p ∈ s.inQueue, Q p
  held : ∀ w ∈ s.workers, ∀ p ∈ w.query, Q p

variable {Q : InQuery → Prop}

theorem start_queries (Q : InQuery → Prop) (threads : Nat) : (start threads).Queries Q where
  queued p here := by cases here
  held w here p holds := by
    rw [List.eq_of_mem_replicate here] at holds
    cases holds

theorem Queries.walks (queries : s.Queries Q) (w' : Worker) (here : s.workers[i]? = some w)
    (query : ∀ p ∈ w'.query, p ∈ w.query) : (s.setWorker i w').Queries Q where
  queued := queries.queued
  held := by
    intro v member p holds
    rcases List.mem_or_eq_of_mem_set member with kept | same
    · exact queries.held v kept p holds
    · subst same
      exact queries.held w (List.mem_of_getElem? here) p (query p holds)

theorem Queries.takes {p : InQuery} {rest : List InQuery} (queries : s.Queries Q) (queue : s.inQueue = p :: rest) :
    ({ s with inQueue := rest }.setWorker i (.find p)).Queries Q where
  queued := by
    intro q there
    apply queries.queued
    rw [queue]
    exact List.mem_cons_of_mem _ there
  held := by
    intro v member q holds
    rcases List.mem_or_eq_of_mem_set member with kept | same
    · exact queries.held v kept q holds
    · subst same
      cases holds
      apply queries.queued
      rw [queue]
      exact List.mem_cons_self

theorem work_queries (queries : s.Queries Q) (here : s.workers[i]? = some w) (works : Works getaddrinfo s i w s') :
    s'.Queries Q := by
  have idle : ∀ {v : Worker}, v.query = none → (s.setWorker i v).Queries Q := by
    intro v none
    apply queries.walks _ here
    intro p holds
    rw [none] at holds
    cases holds
  cases works with
  | takes queue => exact queries.takes queue
  | asks _ => exact queries.walks _ here fun q holds => holds
  | finds _ _ => exact queries.walks _ here fun q holds => holds
  | unknown _ => exact queries.walks _ here fun q holds => holds
  | learns known inserted => exact { queries.walks (.publish _ _) here fun q holds => holds with }
  | publishes made => exact { idle (v := .notify) rfl with }
  | notifies => exact { idle (v := .check) rfl with }
  | _ => exact idle rfl

theorem Queries.wakes (queries : s.Queries Q) : s.wakeAll.Queries Q where
  queued := queries.queued
  held := by
    intro v there p holds
    obtain ⟨w, here, rfl⟩ := List.mem_map.mp there
    split at holds
    · cases holds
    · exact queries.held w here p holds

theorem Queries.woken (queries : s.Queries Q) (asleep : s.workers[i]? = some .asleep) :
    (s.setWorker i .check).Queries Q :=
  queries.walks _ asleep fun p holds => by cases holds

/-- A query that is submitted is a `Q`. -/
def Submits (Q : InQuery → Prop) (s : Resolver) : ResolverEvent → Prop
  | .resolveHost host extra => Q { host, submission := { call := s.submitted.length, extra } }
  | _ => True

theorem step_queries (queries : s.Queries Q) (submits : Submits Q s e) (steps : Steps getaddrinfo s e s') :
    s'.Queries Q := by
  cases steps with
  | submits _ =>
    refine ⟨?_, queries.held⟩
    intro p there
    rcases List.mem_append.mp there with before | added
    · exact queries.queued p before
    · rw [List.mem_singleton.mp added]
      exact submits
  | notifies _ asleep => exact { queries.woken asleep with }
  | notifiesAll _ => exact { queries.wakes with }
  | works here works => exact work_queries queries here works
  | wakes asleep => exact queries.woken asleep
  | _ => exact { queries with }

/-! ### What holds of the places -/

/-- Every submission is in one place, and the eventfd is counted. -/
structure Accounted (s : Resolver) : Prop where
  placed : s.places.Perm s.submitted
  numbered : s.submitted.map (·.call) = List.range s.submitted.length
  counted : s.counter + (s.workers.flatMap Worker.owes).length + s.main.taken = s.outQueue.length
  linked : s.cache.Linked

theorem Conserved.accounted (conserved : s.Conserved) : s.Accounted :=
  ⟨conserved.placed, conserved.numbered, conserved.counted, conserved.linked⟩

theorem Conserved.queries (conserved : s.Conserved) : s.Queries fun p => Readable p.host :=
  ⟨conserved.queued, conserved.held⟩

theorem Accounted.conserved (accounted : s.Accounted) (queries : s.Queries fun p => Readable p.host) : s.Conserved :=
  ⟨accounted.placed, accounted.numbered, accounted.counted, queries.queued, queries.held, accounted.linked⟩

theorem start_accounted (threads : Nat) : (start threads).Accounted where
  placed := by
    have idle : (List.replicate threads Worker.check).flatMap Worker.hand = [] := by
      rw [List.flatMap_eq_nil_iff]
      intro w here
      rw [List.eq_of_mem_replicate here]
      rfl
    unfold places start
    dsimp only
    rw [idle]
    exact List.Perm.refl _
  numbered := rfl
  counted := by
    have idle : (List.replicate threads Worker.check).flatMap Worker.owes = [] := by
      rw [List.flatMap_eq_nil_iff]
      intro w here
      rw [List.eq_of_mem_replicate here]
      rfl
    unfold start
    dsimp only
    rw [idle]
    rfl
  linked := SimpleCache.empty_linked

theorem Accounted.moves (accounted : s.Accounted) (s' : Resolver) (w' : Worker) (here : s.workers[i]? = some w)
    (workers : s'.workers = s.workers.set i w') (submitted : s'.submitted = s.submitted)
    (delivered : s'.delivered = s.delivered) (main : s'.main = s.main)
    (moved : (w'.hand ++ (s'.inQueue.map (·.submission) ++ s'.outQueue.map (·.submission))).Perm
      (w.hand ++ (s.inQueue.map (·.submission) ++ s.outQueue.map (·.submission))))
    (counted : s'.counter + w'.owes.length + s.outQueue.length = s.counter + w.owes.length + s'.outQueue.length)
    (linked : s'.cache.Linked) : s'.Accounted where
  placed := by
    have hands := Tokens.set_perm (f := Worker.hand) (b := w') here
    rw [submitted, List.perm_iff_count]
    intro a
    have handed := List.perm_iff_count.mp hands a
    have passed := List.perm_iff_count.mp moved a
    have before := List.perm_iff_count.mp accounted.placed a
    unfold places at *
    rw [workers, delivered]
    simp only [List.count_append] at *
    omega
  numbered := by
    rw [submitted]
    exact accounted.numbered
  counted := by
    have owed := (Tokens.set_perm (f := Worker.owes) (b := w') here).length_eq
    have before := accounted.counted
    simp only [List.length_append] at owed
    rw [workers, main]
    omega
  linked := linked

theorem Accounted.walks (accounted : s.Accounted) (w' : Worker) (here : s.workers[i]? = some w)
    (query : w'.query = w.query) (owes : w'.owes = w.owes) : (s.setWorker i w').Accounted := by
  have hand : w'.hand = w.hand := by
    unfold Worker.hand
    rw [query]
  apply accounted.moves (s.setWorker i w') w' here rfl rfl rfl rfl
  · rw [hand]
    exact List.Perm.refl _
  · rw [owes]
    rfl
  · exact accounted.linked

theorem readable_resolved {p : InQuery} (ips : List UInt32) (readable : Readable p.host) :
    ∃ result, resolved p ips = some result := by
  obtain ⟨port, read⟩ := readable
  unfold resolved
  rw [read]
  exact ⟨_, rfl⟩

theorem resolved_submission {p : InQuery} {ips : List UInt32} {result : Resolution}
    (made : resolved p ips = some result) : result.submission = p.submission := by
  unfold resolved at made
  split at made
  · cases made
    rfl
  · cases made

theorem Accounted.takes {p : InQuery} {rest : List InQuery} (accounted : s.Accounted)
    (here : s.workers[i]? = some .take) (queue : s.inQueue = p :: rest) :
    ({ s with inQueue := rest }.setWorker i (.find p)).Accounted := by
  refine accounted.moves _ (.find p) here rfl rfl rfl rfl ?_ ?_ ?_
  · show (p.submission :: (rest.map (·.submission) ++ _)).Perm ([] ++ (s.inQueue.map (·.submission) ++ _))
    rw [queue]
    exact List.Perm.refl _
  · rfl
  · exact accounted.linked

theorem Accounted.learns {p : InQuery} {ips : List UInt32} {cache : SimpleCache Bytes (List UInt32)}
    (accounted : s.Accounted) (here : s.workers[i]? = some (.resolve p))
    (inserted : s.cache.insert CACHE_SIZE (hostName p.host) ips = some cache) :
    ({ s with cache }.setWorker i (.publish p ips)).Accounted := by
  obtain ⟨cache', inserted', linked⟩ := SimpleCache.insert_linked (hostName p.host) ips accounted.linked
    (show 2 ≤ CACHE_SIZE by decide)
  rw [inserted] at inserted'
  cases inserted'
  have walked := accounted.walks (.publish p ips) here rfl rfl
  exact { walked with linked }

theorem Accounted.publishes {p : InQuery} {ips : List UInt32} {result : Resolution} (accounted : s.Accounted)
    (here : s.workers[i]? = some (.publish p ips)) (made : resolved p ips = some result) :
    ({ s with outQueue := s.outQueue ++ [result] }.setWorker i .notify).Accounted := by
  have same : result.submission = p.submission := resolved_submission made
  refine accounted.moves _ .notify here rfl rfl rfl rfl ?_ ?_ ?_
  · show ([] ++ (_ ++ (s.outQueue ++ [result]).map Resolution.submission)).Perm ([p.submission] ++ (_ ++ _))
    rw [List.map_append, List.map_singleton, same, List.nil_append, ← List.append_assoc]
    exact List.perm_append_comm
  · show s.counter + 1 + s.outQueue.length = s.counter + 0 + (s.outQueue ++ [result]).length
    rw [List.length_append, List.length_singleton]
    omega
  · exact accounted.linked

theorem Accounted.notifies (accounted : s.Accounted) (here : s.workers[i]? = some .notify) :
    ({ s with counter := s.counter + 1 }.setWorker i .check).Accounted := by
  refine accounted.moves _ .check here rfl rfl rfl rfl ?_ ?_ ?_
  · exact List.Perm.refl _
  · show s.counter + 1 + 0 + s.outQueue.length = s.counter + 1 + s.outQueue.length
    omega
  · exact accounted.linked

theorem work_accounted (accounted : s.Accounted) (here : s.workers[i]? = some w)
    (works : Works getaddrinfo s i w s') : s'.Accounted := by
  cases works with
  | takes queue => exact accounted.takes here queue
  | learns _ inserted => exact accounted.learns here inserted
  | publishes made => exact accounted.publishes here made
  | notifies => exact accounted.notifies here
  | _ => exact accounted.walks _ here rfl rfl

theorem Accounted.submits {host : Bytes} {extra : ResolverExtra} (accounted : s.Accounted) (free : s.main = .free) :
    Accounted { s with
      inQueue := s.inQueue ++ [{ host, submission := { call := s.submitted.length, extra } }]
      submitted := s.submitted ++ [{ call := s.submitted.length, extra }]
      main := .submitting } := by
  obtain ⟨placed, numbered, counted, linked⟩ := accounted
  constructor
  · unfold places at *
    dsimp only
    rw [List.map_append, List.append_assoc]
    apply List.Perm.trans (List.perm_append_comm_assoc _ [_] _)
    exact (placed.cons _).trans (List.perm_append_singleton _ _).symm
  · dsimp only
    rw [List.map_append, numbered, List.length_append, List.length_singleton, List.range_succ]
    rfl
  · dsimp only
    rw [free] at counted
    exact counted
  · exact linked

theorem Accounted.continues (accounted : s.Accounted) (main : MainThread)
    (taken : main.taken = s.main.taken) : Accounted { s with main } :=
  { accounted with
    counted := by
      show _ + _ + main.taken = _
      rw [taken]
      exact accounted.counted }

theorem flatMap_woken {β : Type} {f : Worker → List β} (same : f .check = f .asleep) :
    (s.workers.map fun w => if w = .asleep then .check else w).flatMap f = s.workers.flatMap f := by
  rw [List.flatMap_map]
  congr 1
  funext w
  split
  · rename_i asleep
    rw [asleep, same]
  · rfl

theorem Accounted.wakes (accounted : s.Accounted) : s.wakeAll.Accounted := by
  obtain ⟨placed, numbered, counted, linked⟩ := accounted
  constructor
  · unfold places wakeAll at *
    dsimp only
    rw [flatMap_woken rfl]
    exact placed
  · exact numbered
  · unfold wakeAll
    dsimp only
    rw [flatMap_woken rfl]
    exact counted
  · exact linked

theorem Accounted.reads (accounted : s.Accounted) (free : s.main = .free) (written : s.counter ≠ 0) :
    Accounted { s with counter := s.counter - 1, main := .reading } :=
  { accounted with
    counted := by
      have counted := accounted.counted
      rw [free] at counted
      change s.counter + (s.workers.flatMap Worker.owes).length + 0 = s.outQueue.length at counted
      show s.counter - 1 + (s.workers.flatMap Worker.owes).length + 1 = s.outQueue.length
      omega }

theorem Accounted.delivers {result : Resolution} {rest : List Resolution} (accounted : s.Accounted)
    (reading : s.main = .reading) (queue : s.outQueue = result :: rest) :
    Accounted { s with outQueue := rest, delivered := s.delivered ++ [result], main := .free } := by
  obtain ⟨placed, numbered, counted, linked⟩ := accounted
  rw [reading, queue, List.length_cons] at counted
  constructor
  · unfold places at *
    dsimp only
    rw [queue, List.map_cons] at placed
    have moved : (result.submission :: (rest.map (·.submission) ++ s.delivered.map (·.submission))).Perm
        (rest.map (·.submission) ++ (s.delivered ++ [result]).map (·.submission)) := by
      rw [List.map_append, ← List.append_assoc]
      exact (List.perm_append_singleton _ _).symm
    exact ((moved.append_left _).append_left _).symm.trans placed
  · exact numbered
  · exact Nat.succ.inj counted
  · exact linked

theorem step_accounted (accounted : s.Accounted) (steps : Steps getaddrinfo s e s') : s'.Accounted := by
  cases steps with
  | submits free => exact accounted.submits free
  | notifies submitting asleep =>
    have woken := accounted.walks .check asleep rfl rfl
    exact woken.continues .free (by show _ = s.main.taken; rw [submitting]; rfl)
  | wasted submitting awake => exact accounted.continues .free (by rw [submitting]; rfl)
  | reads free written => exact accounted.reads free written
  | delivers reading queue => exact accounted.delivers reading queue
  | stops free => exact { accounted.continues .stopping (by rw [free]; rfl) with }
  | notifiesAll stopping => exact accounted.wakes.continues .stopped (by show _ = s.main.taken; rw [stopping]; rfl)
  | works here works => exact work_accounted accounted here works
  | wakes asleep => exact accounted.walks .check asleep rfl rfl

/-- With the places accounted for, a step fails when its event cannot happen, or with an
exception of the query that is published. -/
theorem Accounted.fails (accounted : s.Accounted) (fails : Fails s e f) :
    f = .disabled ∨ f = .uncaught ∧ ∃ i p ips, e = .work i ∧ s.workers[i]? = some (.publish p ips) ∧ resolved p ips = none := by
  cases fails with
  | disabled => exact Or.inl rfl
  | emptyQueue reading empty =>
    -- The counter that was read promised a result.
    have counted := accounted.counted
    rw [reading, empty] at counted
    exact absurd counted (Nat.succ_ne_zero _)
  | uncaught here unread => exact Or.inr ⟨rfl, _, _, _, rfl, here, unread⟩
  | cache here lost =>
    obtain ⟨cache, inserted, _⟩ := SimpleCache.insert_linked _ _ accounted.linked (show 2 ≤ CACHE_SIZE by decide)
    rw [inserted] at lost
    cases lost

/-! ### Queries with a port that is a number -/

theorem start_conserved (threads : Nat) : (start threads).Conserved :=
  (start_accounted threads).conserved (start_queries _ threads)

/-- A step keeps the invariant, and fails only when its event cannot happen. -/
def Keeps (r : Except ResolverFault Resolver) : Prop :=
  match r with
  | .ok s' => s'.Conserved
  | .error f => f = .disabled

theorem step_conserved (conserved : s.Conserved) (readable : e.Readable) (steps : Steps getaddrinfo s e s') :
    s'.Conserved := by
  apply (step_accounted conserved.accounted steps).conserved
  apply step_queries conserved.queries _ steps
  cases e with
  | resolveHost host extra => exact readable
  | _ => trivial

theorem Conserved.disabled (conserved : s.Conserved) (fails : Fails s e f) : f = .disabled := by
  rcases conserved.accounted.fails fails with cannot | ⟨-, i, p, ips, -, here, unread⟩
  · exact cannot
  · obtain ⟨result, made⟩ := readable_resolved ips (conserved.held _ (List.mem_of_getElem? here) p rfl)
    rw [unread] at made
    cases made

variable (getaddrinfo) in
theorem step_keeps (conserved : s.Conserved) (readable : e.Readable) : Keeps (s.step getaddrinfo e) := by
  cases stepped : s.step getaddrinfo e with
  | ok s' => exact step_conserved conserved readable (step_ok stepped)
  | error f => exact conserved.disabled (step_error stepped)

/-! ### Over all runs -/

theorem portName_plain {host : Bytes} (absent : COLON ∉ host) : portName host = lit "80" := by
  have nowhere : find host COLON 0 = npos := by
    have missing := Search.findElem_none [] host COLON absent
    unfold find
    rw [show Search.findElem host COLON 0 = none from missing]
    rfl
  unfold portName
  rw [nowhere]
  rfl

theorem portName_behind {name port : Bytes} (absent : COLON ∉ name) (short : name.length < npos) :
    portName (name ++ COLON :: port) = port := by
  have found : find (name ++ COLON :: port) COLON 0 = name.length := by
    simpa using find_append (p := []) (r := port) absent
  unfold portName
  rw [found, if_neg (Nat.ne_of_lt short)]
  simp

theorem readable_plain {host : Bytes} (absent : COLON ∉ host) : Readable host :=
  ⟨80, by rw [portName_plain absent]; decide⟩

theorem readable_port {name port : Bytes} (absent : COLON ∉ name) (short : name.length < npos)
    (digits : port.all isDigit = true) (present : port ≠ []) (small : decimal port < 2 ^ 31) :
    Readable (name ++ COLON :: port) :=
  ⟨_, by rw [portName_behind absent short, stoi_digits digits present, if_pos small]⟩

variable {events : List ResolverEvent}

theorem run_conserved (readable : ∀ e ∈ events, e.Readable) (threads : Nat)
    (ran : Runs.run (step getaddrinfo) (start threads) events = .ok s) : s.Conserved := by
  apply Runs.invariant_along (start_conserved threads) _ (Runs.Along.of_forall readable) ran
  intro s e s' conserved named stepped
  have kept := step_keeps getaddrinfo conserved named
  rw [stepped] at kept
  exact kept

/-- Whatever the workers and the main thread do in whatever order, a submission is in
one place, and the eventfd does not promise what is not there. -/
theorem resolver_conserves (getaddrinfo : Bytes → Bytes → Option (List UInt32)) (threads : Nat)
    (events : List ResolverEvent) (readable : ∀ e ∈ events, e.Readable) :
    (∀ s, Runs.run (step getaddrinfo) (start threads) events = .ok s →
      s.places.Perm s.submitted ∧ s.places.Nodup ∧ s.counter ≤ s.outQueue.length) ∧
    ∀ f, Runs.run (step getaddrinfo) (start threads) events = .error f → f = .disabled := by
  constructor
  · intro s ran
    obtain ⟨placed, numbered, counted, queued, held, linked⟩ := run_conserved readable threads ran
    have apart : s.submitted.Nodup := by
      apply List.Nodup.of_map (·.call)
      rw [numbered]
      exact List.nodup_range
    exact ⟨placed, placed.nodup_iff.mpr apart, by omega⟩
  · intro f failed
    obtain ⟨s, e, conserved, named, stepped⟩ := Runs.failure_along (I := Conserved) (start_conserved threads)
      (fun s e s' conserved named stepped => by
        have kept := step_keeps getaddrinfo conserved named
        rw [stepped] at kept
        exact kept)
      (Runs.Along.of_forall readable) failed
    have kept := step_keeps getaddrinfo conserved named
    rw [stepped] at kept
    exact kept

/-- Two queries, of which one is delivered. -/
def twoQueries : List ResolverEvent :=
  [.resolveHost (lit "h:8080") ⟨6, lit "h:8080"⟩, .notifyOne none, .work 0, .work 0, .work 0, .work 0, .work 0,
    .resolveHost (lit "g") ⟨7, lit "g"⟩, .notifyOne none, .work 0, .work 0, .read, .getIp]

theorem two_queries_conserved :
    ∃ s, Runs.run (step fun _ _ => some [16777343]) (start 2) twoQueries = .ok s ∧ s.places.Perm s.submitted ∧
      s.inQueue.length = 1 ∧ s.delivered.length = 1 := by
  refine ⟨_, rfl, ((resolver_conserves (fun _ _ => some [16777343]) 2 twoQueries ?_).1 _ rfl).1, rfl, rfl⟩
  have number : Readable (lit "h" ++ COLON :: lit "8080") :=
    readable_port (by decide) (by decide) (by decide) (by decide) (by decide)
  have plain : Readable (lit "g") := readable_plain (by decide)
  simp only [twoQueries, List.forall_mem_cons, ResolverEvent.Readable]
  exact ⟨number, trivial, trivial, trivial, trivial, trivial, trivial, plain, by simp⟩

end Resolver

end ProxyServer
