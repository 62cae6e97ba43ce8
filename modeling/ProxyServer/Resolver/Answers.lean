import ProxyServer.Resolver.Ports

/-!
# Answers for every host

A worker takes a query to a result that it pushes, or lets an exception end the process.
`hosts_resolved_iff` says for which runs every query has the one result that its host
asks for.
-/

namespace ProxyServer

namespace Resolver

/-- The text is a decimal number that a port can have. -/
def IsPort (port : Bytes) : Prop := ∃ n, n < 2 ^ 16 ∧ Denotes port n

instance (port : Bytes) : Decidable (IsPort port) :=
  decidable_of_iff (decimal port < 2 ^ 16 ∧ Denotes port (decimal port)) (by
    constructor
    · rintro ⟨small, denotes⟩
      exact ⟨_, small, denotes⟩
    · rintro ⟨n, small, denotes⟩
      rw [denotes.2.2]
      exact ⟨small, denotes⟩)

/-- The addresses that `getaddrinfo` knows for the host and its port. -/
def addresses (getaddrinfo : Bytes → Bytes → Option (List UInt32)) (host : Bytes) : List UInt32 :=
  (getaddrinfo (hostName host) (portName host)).getD []

/-- The result that a query has to have: for a port that is a number, the port and the
addresses that `getaddrinfo` knows, and no addresses for any other. -/
structure Right (getaddrinfo : Bytes → Bytes → Option (List UInt32)) (r : Resolution) : Prop where
  plain : COLON ∉ r.submission.extra.host → r.port = htons 80
  number : ∀ n, n < 2 ^ 16 → Denotes (portName r.submission.extra.host) n → r.port = htons (UInt16.ofNat n)
  known : IsPort (portName r.submission.extra.host) → r.ips = addresses getaddrinfo r.submission.extra.host
  other : ¬IsPort (portName r.submission.extra.host) → r.ips = []

/-- Every query that was taken up has one result, which is right, and no exception has
left a worker. -/
def Resolves (getaddrinfo : Bytes → Bytes → Option (List UInt32)) : Except ResolverFault Resolver → Prop
  | .ok s => ((s.outQueue ++ s.delivered).map (·.submission) ++ s.inQueue.map (·.submission)).Perm s.submitted ∧
      ∀ r ∈ s.outQueue ++ s.delivered, Right getaddrinfo r
  | .error f => f ≠ .uncaught

/-- No worker has a query in its hand, or an exception has ended the process. -/
def Finished : Except ResolverFault Resolver → Prop
  | .ok s => ∀ w ∈ s.workers, w.query = none
  | .error f => f = .uncaught

/-- What a worker finds for a query: `stoi` reads its port; for a port that is a number
nothing is cached or what `getaddrinfo` knows; for any other nothing is cached or known. -/
def Answerable (getaddrinfo : Bytes → Bytes → Option (List UInt32)) (s : Resolver) (host : Bytes) : Prop :=
  Readable host ∧
  if IsPort (portName host) then
    (s.cache.lookup (hostName host)).getD [] = [] ∨
      (s.cache.lookup (hostName host)).getD [] = addresses getaddrinfo host
  else (s.cache.lookup (hostName host)).getD [] = [] ∧ addresses getaddrinfo host = []

def FindsAnswerable (getaddrinfo : Bytes → Bytes → Option (List UInt32)) (s : Resolver) : ResolverEvent → Prop
  | .work i => ∀ p, s.workers[i]? = some (.find p) → Answerable getaddrinfo s p.host
  | _ => True

instance (host : Bytes) : Decidable (Readable host) :=
  decidable_of_iff ((stoi (portName host)).isOk = true) (by
    unfold Readable
    cases stoi (portName host) with
    | error e => simp [Except.isOk, Except.toBool]
    | ok port => simp [Except.isOk, Except.toBool])

instance (getaddrinfo : Bytes → Bytes → Option (List UInt32)) (s : Resolver) (host : Bytes) :
    Decidable (Answerable getaddrinfo s host) :=
  inferInstanceAs (Decidable (Readable host ∧
    if IsPort (portName host) then
      (s.cache.lookup (hostName host)).getD [] = [] ∨
        (s.cache.lookup (hostName host)).getD [] = addresses getaddrinfo host
    else (s.cache.lookup (hostName host)).getD [] = [] ∧ addresses getaddrinfo host = []))

instance (getaddrinfo : Bytes → Bytes → Option (List UInt32)) (s : Resolver) :
    (e : ResolverEvent) → Decidable (FindsAnswerable getaddrinfo s e)
  | .work i =>
    match here : s.workers[i]? with
    | some (.find p) => decidable_of_iff (Answerable getaddrinfo s p.host) (by simp [FindsAnswerable, here])
    | none => isTrue (by simp [FindsAnswerable, here])
    | some .check => isTrue (by simp [FindsAnswerable, here])
    | some .look => isTrue (by simp [FindsAnswerable, here])
    | some .asleep => isTrue (by simp [FindsAnswerable, here])
    | some .take => isTrue (by simp [FindsAnswerable, here])
    | some (.resolve _) => isTrue (by simp [FindsAnswerable, here])
    | some (.publish _ _) => isTrue (by simp [FindsAnswerable, here])
    | some .notify => isTrue (by simp [FindsAnswerable, here])
    | some .stopped => isTrue (by simp [FindsAnswerable, here])
  | .resolveHost _ _ => isTrue trivial
  | .notifyOne _ => isTrue trivial
  | .read => isTrue trivial
  | .getIp => isTrue trivial
  | .stop => isTrue trivial
  | .notifyAll => isTrue trivial
  | .wake _ => isTrue trivial

instance : (r : Except ResolverFault Resolver) → Decidable (Finished r)
  | .ok s => inferInstanceAs (Decidable (∀ w ∈ s.workers, w.query = none))
  | .error f => inferInstanceAs (Decidable (f = .uncaught))

variable {s s' : Resolver} {i : Nat} {w : Worker} {getaddrinfo : Bytes → Bytes → Option (List UInt32)}
  {e : ResolverEvent} {f : ResolverFault} {p : InQuery} {ips : List UInt32}

/-! ### What a worker is about to push -/

/-- The addresses are those that a result for the host has to have. -/
structure Fits (getaddrinfo : Bytes → Bytes → Option (List UInt32)) (host : Bytes) (ips : List UInt32) : Prop where
  readable : Readable host
  known : IsPort (portName host) → ips = addresses getaddrinfo host
  other : ¬IsPort (portName host) → ips = []

/-- What the worker will push. -/
def outlook (getaddrinfo : Bytes → Bytes → Option (List UInt32)) : Worker → Option (Bytes × List UInt32)
  | .resolve p => some (p.host, addresses getaddrinfo p.host)
  | .publish p ips => some (p.host, ips)
  | _ => none

theorem outlook_idle (idle : w.query = none) : outlook getaddrinfo w = none := by
  cases w with
  | resolve p => cases idle
  | publish p ips => cases idle
  | _ => rfl

/-- What was pushed, and what the workers will push, is right. -/
structure Sound (getaddrinfo : Bytes → Bytes → Option (List UInt32)) (s : Resolver) : Prop where
  held : ∀ w ∈ s.workers, ∀ o ∈ outlook getaddrinfo w, Fits getaddrinfo o.1 o.2
  made : ∀ r ∈ s.outQueue ++ s.delivered, Right getaddrinfo r

theorem right_iff_fits {r : Resolution} (own : p.Own) (made : resolved p ips = some r) :
    Right getaddrinfo r ↔ Fits getaddrinfo p.host ips := by
  unfold InQuery.Own at own
  unfold resolved at made
  cases read : stoi (portName p.host) with
  | error e =>
    rw [read] at made
    cases made
  | ok port =>
    rw [read] at made
    cases made
    constructor
    · rintro ⟨-, -, known, other⟩
      dsimp only at known other
      rw [own] at known other
      exact ⟨⟨port, read⟩, known, other⟩
    · rintro ⟨-, known, other⟩
      have number : ∀ n, n < 2 ^ 16 → Denotes (portName p.host) n →
          htons (UInt16.ofNat (port % 2 ^ 16).toNat) = htons (UInt16.ofNat n) := by
        intro n small denotes
        rw [(denotes.read read).1, Int.emod_eq_of_lt (by omega) (by omega)]
        rfl
      constructor
      · dsimp only
        rw [own]
        intro absent
        have eighty : Denotes (portName p.host) 80 := by
          rw [portName_plain absent]
          decide
        exact number 80 (by decide) eighty
      · dsimp only
        rw [own]
        exact number
      · dsimp only
        rw [own]
        exact known
      · dsimp only
        rw [own]
        exact other

/-- What is found fits exactly when the query is answerable. -/
theorem answerable_iff (s : Resolver) (host : Bytes) {cached : List UInt32}
    (found : (s.cache.lookup (hostName host)).getD [] = cached) :
    Answerable getaddrinfo s host ↔ Fits getaddrinfo host (if cached = [] then addresses getaddrinfo host else cached) := by
  unfold Answerable
  rw [found]
  by_cases empty : cached = []
  · rw [if_pos empty]
    constructor
    · rintro ⟨readable, answer⟩
      refine ⟨readable, fun _ => rfl, fun other => ?_⟩
      rw [if_neg other] at answer
      exact answer.2
    · rintro ⟨readable, -, other⟩
      refine ⟨readable, ?_⟩
      split
      · exact Or.inl empty
      · rename_i notPort
        exact ⟨empty, other notPort⟩
  · rw [if_neg empty]
    constructor
    · rintro ⟨readable, answer⟩
      refine ⟨readable, fun isPort => ?_, fun other => ?_⟩
      · rw [if_pos isPort] at answer
        exact answer.resolve_left empty
      · rw [if_neg other] at answer
        exact absurd answer.1 empty
    · rintro ⟨readable, known, other⟩
      refine ⟨readable, ?_⟩
      split
      · rename_i isPort
        exact Or.inr (known isPort)
      · rename_i notPort
        exact absurd (other notPort) empty

/-! ### One step -/

/-- A worker that goes on to `w'` leaves what the others will push. -/
theorem held_set_iff (getaddrinfo : Bytes → Bytes → Option (List UInt32)) (w' : Worker) (here : s.workers[i]? = some w) :
    ((∀ v ∈ s.workers.set i w', ∀ o ∈ outlook getaddrinfo v, Fits getaddrinfo o.1 o.2) ∧
        ∀ o ∈ outlook getaddrinfo w, Fits getaddrinfo o.1 o.2) ↔
      (∀ v ∈ s.workers, ∀ o ∈ outlook getaddrinfo v, Fits getaddrinfo o.1 o.2) ∧
        ∀ o ∈ outlook getaddrinfo w', Fits getaddrinfo o.1 o.2 := by
  have inside := (List.getElem?_eq_some_iff.mp here).1
  constructor
  · rintro ⟨after, before⟩
    refine ⟨?_, after w' (List.mem_set inside w')⟩
    intro v member o holds
    obtain ⟨j, there⟩ := List.mem_iff_getElem?.mp member
    by_cases same : i = j
    · subst same
      rw [here] at there
      cases there
      exact before o holds
    · apply after v _ o holds
      apply List.mem_iff_getElem?.mpr
      exact ⟨j, by rw [List.getElem?_set_ne same]; exact there⟩
  · rintro ⟨all, next⟩
    refine ⟨?_, all w (List.mem_of_getElem? here)⟩
    intro v member o holds
    rcases List.mem_or_eq_of_mem_set member with kept | same
    · exact all v kept o holds
    · subst same
      exact next o holds

/-- A worker whose outlook stays leaves everything sound. -/
theorem walks_sound_iff {u : Worker} {q : Resolver} (here : s.workers[i]? = some w)
    (workers : q.workers = s.workers.set i u) (results : q.outQueue ++ q.delivered = s.outQueue ++ s.delivered)
    (same : outlook getaddrinfo u = outlook getaddrinfo w) : Sound getaddrinfo q ↔ Sound getaddrinfo s := by
  have held := held_set_iff getaddrinfo u here
  rw [same] at held
  constructor
  · rintro ⟨after, made⟩
    rw [workers] at after
    rw [results] at made
    refine ⟨?_, made⟩
    intro v member o holds
    by_cases known : ∀ o ∈ outlook getaddrinfo w, Fits getaddrinfo o.1 o.2
    · exact (held.mp ⟨after, known⟩).1 v member o holds
    · have inside := (List.getElem?_eq_some_iff.mp here).1
      have next := after u (List.mem_set inside u)
      rw [same] at next
      exact absurd next known
  · rintro ⟨before, made⟩
    refine ⟨?_, ?_⟩
    · rw [workers]
      exact (held.mpr ⟨before, before w (List.mem_of_getElem? here)⟩).1
    · rw [results]
      exact made

theorem finds_sound_iff {w' : Worker} {cached : List UInt32} (here : s.workers[i]? = some (.find p))
    (found : (s.cache.lookup (hostName p.host)).getD [] = cached)
    (next : outlook getaddrinfo w' = some (p.host, if cached = [] then addresses getaddrinfo p.host else cached)) :
    Sound getaddrinfo (s.setWorker i w') ↔ Sound getaddrinfo s ∧ FindsAnswerable getaddrinfo s (.work i) := by
  have held := held_set_iff getaddrinfo w' here
  have asks : FindsAnswerable getaddrinfo s (.work i) ↔ ∀ o ∈ outlook getaddrinfo w', Fits getaddrinfo o.1 o.2 := by
    unfold FindsAnswerable
    rw [next]
    constructor
    · intro answerable o same
      cases same
      exact (answerable_iff s p.host found).mp (answerable p here)
    · intro fits q same
      rw [here] at same
      cases same
      exact (answerable_iff s p.host found).mpr (fits _ rfl)
  have nothing : ∀ o ∈ outlook getaddrinfo (.find p), Fits getaddrinfo o.1 o.2 := by
    intro o holds
    cases holds
  rw [asks]
  constructor
  · rintro ⟨after, made⟩
    obtain ⟨before, fits⟩ := held.mp ⟨after, nothing⟩
    exact ⟨⟨before, made⟩, fits⟩
  · rintro ⟨⟨before, made⟩, fits⟩
    exact ⟨(held.mpr ⟨before, fits⟩).1, made⟩

theorem publishes_sound_iff {result : Resolution} (own : p.Own) (here : s.workers[i]? = some (.publish p ips))
    (made : resolved p ips = some result) :
    Sound getaddrinfo ({ s with outQueue := s.outQueue ++ [result] }.setWorker i .notify) ↔ Sound getaddrinfo s := by
  have held := held_set_iff getaddrinfo .notify here
  have right : Right getaddrinfo result ↔ Fits getaddrinfo p.host ips := right_iff_fits own made
  have nothing : ∀ o ∈ outlook getaddrinfo .notify, Fits getaddrinfo o.1 o.2 := by
    intro o holds
    cases holds
  constructor
  · rintro ⟨after, results⟩
    have fits : ∀ o ∈ outlook getaddrinfo (.publish p ips), Fits getaddrinfo o.1 o.2 := by
      intro o holds
      cases holds
      apply right.mp
      apply results
      simp [setWorker]
    refine ⟨(held.mp ⟨after, fits⟩).1, ?_⟩
    intro r there
    apply results
    rcases List.mem_append.mp there with out | given
    · exact List.mem_append_left _ (List.mem_append_left _ out)
    · exact List.mem_append_right _ given
  · rintro ⟨before, results⟩
    refine ⟨(held.mpr ⟨before, nothing⟩).1, ?_⟩
    intro r there
    rcases List.mem_append.mp there with out | given
    · rcases List.mem_append.mp out with old | new
      · exact results r (List.mem_append_left _ old)
      · rw [List.mem_singleton.mp new]
        exact right.mpr (before _ (List.mem_of_getElem? here) _ rfl)
    · exact results r (List.mem_append_right _ given)

theorem work_sound_iff (queries : s.Queries InQuery.Own) (here : s.workers[i]? = some w)
    (works : Works getaddrinfo s i w s') :
    Sound getaddrinfo s' ↔ Sound getaddrinfo s ∧ FindsAnswerable getaddrinfo s (.work i) := by
  have elsewhere : (∀ p, w ≠ .find p) → FindsAnswerable getaddrinfo s (.work i) := by
    intro other p finding
    rw [here] at finding
    exact absurd (Option.some.inj finding) (other p)
  cases works with
  | asks absent =>
    refine finds_sound_iff here absent ?_
    rw [if_pos rfl]
    rfl
  | finds cached present =>
    refine finds_sound_iff here cached ?_
    rw [if_neg present]
    rfl
  | @unknown p none =>
    have same : addresses getaddrinfo p.host = [] := by
      unfold addresses
      rw [none]
      rfl
    rw [and_iff_left (elsewhere (by simp))]
    refine walks_sound_iff here rfl rfl ?_
    show some (p.host, []) = some (p.host, addresses getaddrinfo p.host)
    rw [same]
  | @learns p ips cache known inserted =>
    have same : addresses getaddrinfo p.host = ips := by
      unfold addresses
      rw [known]
      rfl
    rw [and_iff_left (elsewhere (by simp))]
    refine walks_sound_iff (u := .publish p ips) here rfl rfl ?_
    show some (p.host, ips) = some (p.host, addresses getaddrinfo p.host)
    rw [same]
  | publishes made =>
    rw [and_iff_left (elsewhere (by simp))]
    exact publishes_sound_iff (queries.held _ (List.mem_of_getElem? here) _ rfl) here made
  | _ =>
    rw [and_iff_left (elsewhere (by simp))]
    exact walks_sound_iff here rfl rfl rfl

theorem delivers_results {result : Resolution} {rest : List Resolution} (queue : s.outQueue = result :: rest) :
    (rest ++ (s.delivered ++ [result])).Perm (s.outQueue ++ s.delivered) := by
  rw [queue, ← List.append_assoc]
  exact List.perm_append_singleton _ _

theorem wakes_sound_iff : Sound getaddrinfo s.wakeAll ↔ Sound getaddrinfo s := by
  have held : (∀ w ∈ s.wakeAll.workers, ∀ o ∈ outlook getaddrinfo w, Fits getaddrinfo o.1 o.2) ↔
      ∀ w ∈ s.workers, ∀ o ∈ outlook getaddrinfo w, Fits getaddrinfo o.1 o.2 := by
    unfold wakeAll
    dsimp only
    rw [List.forall_mem_map]
    apply forall_congr'
    intro w
    apply imp_congr_right
    intro _
    split
    · rename_i asleep
      rw [asleep]
      exact Iff.rfl
    · exact Iff.rfl
  constructor
  · intro sound
    exact ⟨held.mp sound.held, sound.made⟩
  · intro sound
    exact ⟨held.mpr sound.held, sound.made⟩

theorem step_sound_iff (queries : s.Queries InQuery.Own) (steps : Steps getaddrinfo s e s') :
    Sound getaddrinfo s' ↔ Sound getaddrinfo s ∧ FindsAnswerable getaddrinfo s e := by
  cases steps with
  | notifies _ asleep =>
    refine Iff.trans ?_ (and_iff_left trivial).symm
    exact walks_sound_iff (u := .check) asleep rfl rfl rfl
  | delivers _ queue =>
    refine Iff.trans ?_ (and_iff_left trivial).symm
    constructor
    · intro sound
      exact ⟨sound.held, fun r there => sound.made r ((delivers_results queue).symm.subset there)⟩
    · intro sound
      exact ⟨sound.held, fun r there => sound.made r ((delivers_results queue).subset there)⟩
  | notifiesAll _ =>
    refine Iff.trans ?_ (and_iff_left trivial).symm
    exact Iff.trans ⟨fun sound => ⟨sound.held, sound.made⟩, fun sound => ⟨sound.held, sound.made⟩⟩ wakes_sound_iff
  | works here works => exact work_sound_iff queries here works
  | wakes asleep =>
    refine Iff.trans ?_ (and_iff_left trivial).symm
    exact walks_sound_iff (u := .check) asleep rfl rfl rfl
  | _ =>
    refine Iff.trans ?_ (and_iff_left trivial).symm
    exact ⟨fun sound => ⟨sound.held, sound.made⟩, fun sound => ⟨sound.held, sound.made⟩⟩

/-! ### Over all runs -/

theorem start_sound (getaddrinfo : Bytes → Bytes → Option (List UInt32)) (threads : Nat) :
    Sound getaddrinfo (start threads) where
  held := by
    intro w member o holds
    rw [List.eq_of_mem_replicate member] at holds
    cases holds
  made r there := by cases there

/-- What holds in every run: the places are accounted for, and the queries are for the
hosts of their submissions. -/
structure Kept (s : Resolver) : Prop where
  accounted : s.Accounted
  queries : s.Queries InQuery.Own

theorem start_kept (threads : Nat) : (start threads).Kept := ⟨start_accounted threads, start_queries _ threads⟩

theorem Kept.step (kept : s.Kept) (own : e.Own) (steps : Steps getaddrinfo s e s') : s'.Kept :=
  ⟨step_accounted kept.accounted steps, step_queries kept.queries (submits_own own) steps⟩

theorem resolves_iff_sound (kept : s.Kept) (idle : Finished (.ok s)) :
    Resolves getaddrinfo (.ok s) ↔ Sound getaddrinfo s := by
  have hands : s.workers.flatMap Worker.hand = [] := by
    rw [List.flatMap_eq_nil_iff]
    intro w member
    unfold Worker.hand
    rw [idle w member]
    rfl
  have placed := kept.accounted.placed
  unfold places at placed
  rw [hands, List.nil_append] at placed
  constructor
  · rintro ⟨-, right⟩
    refine ⟨?_, right⟩
    intro w member o holds
    rw [outlook_idle (idle w member)] at holds
    cases holds
  · intro sound
    refine ⟨?_, sound.made⟩
    rw [List.map_append]
    exact List.perm_append_comm.trans placed

/-- In every run that takes its queries to an end, every query has one result, which is
right, exactly when each query is answerable as it is looked up. -/
theorem hosts_resolved_iff (getaddrinfo : Bytes → Bytes → Option (List UInt32)) (threads : Nat)
    (events : List ResolverEvent) (own : ∀ e ∈ events, e.Own)
    (finished : Finished (Runs.run (step getaddrinfo) (start threads) events)) :
    Resolves getaddrinfo (Runs.run (step getaddrinfo) (start threads) events) ↔
      Runs.Along (step getaddrinfo) (FindsAnswerable getaddrinfo) (start threads) events := by
  have given : Runs.Along (step getaddrinfo) (fun _ e => e.Own) (start threads) events := Runs.Along.of_forall own
  cases ran : Runs.run (step getaddrinfo) (start threads) events with
  | ok s =>
    rw [ran] at finished
    have kept : s.Kept := Runs.invariant_along (start_kept threads)
      (fun s e s' kept own stepped => kept.step own (step_ok stepped)) given ran
    rw [resolves_iff_sound kept finished, Runs.holds_iff_given (I := Kept) (C := FindsAnswerable getaddrinfo)
      (start_kept threads) (fun s e s' kept own stepped => kept.step own (step_ok stepped))
      (fun s e s' kept _ stepped => step_sound_iff kept.queries (step_ok stepped)) given ran]
    exact and_iff_right (start_sound getaddrinfo threads)
  | error f =>
    rw [ran] at finished
    refine iff_of_false (fun resolves => resolves finished) ?_
    intro answerable
    obtain ⟨s, e, ⟨kept, sound⟩, -, failed⟩ := Runs.failure_along (I := fun s => s.Kept ∧ Sound getaddrinfo s)
      ⟨start_kept threads, start_sound getaddrinfo threads⟩
      (fun s e s' both meets stepped => ⟨both.1.step meets.2 (step_ok stepped),
        (step_sound_iff both.1.queries (step_ok stepped)).mpr ⟨both.2, meets.1⟩⟩)
      (answerable.and given) ran
    rcases kept.accounted.fails (step_error failed) with cannot | ⟨-, i, p, ips, -, here, unread⟩
    · rw [show f = .uncaught from finished] at cannot
      cases cannot
    · have fits := sound.held _ (List.mem_of_getElem? here) (p.host, ips) rfl
      obtain ⟨result, made⟩ := readable_resolved ips fits.readable
      rw [unread] at made
      cases made

/-! ### A service that has a name -/

/-- The host, whose name is `h` with the address 127.0.0.1, has HTTP on port 80. -/
def services (host service : Bytes) : Option (List UInt32) :=
  if host = lit "h" ∧ (service = lit "80" ∨ service = lit "http") then some [16777343] else none

/-- One worker takes a query from the look at the queue to the write to the eventfd. -/
def asked (host : String) (blocks : Nat) : List ResolverEvent :=
  [.resolveHost (lit host) ⟨6, lit host⟩, .notifyOne none] ++ List.replicate blocks (.work 0)

theorem known_resolved : Resolves services (Runs.run (step services) (start 1) (asked "h" 7 ++ asked "h:80" 6)) :=
  (hosts_resolved_iff services 1 (asked "h" 7 ++ asked "h:80" 6) (by simp [asked, ResolverEvent.Own]) (by decide)).mpr
    (by decide)

/-- The name of a service is found and then not read as a number, and a port with a tail
is served from the cache. -/
theorem named_service_escapes :
    Runs.run (step services) (start 1) (asked "h:http" 6) = .error .uncaught ∧
    (Runs.run (step services) (start 1) (asked "h" 7 ++ asked "h:80abc" 6)).map (fun s => s.outQueue.map (·.ips)) =
      .ok [[16777343], [16777343]] ∧
    ¬∀ (getaddrinfo : Bytes → Bytes → Option (List UInt32)) (threads : Nat) (events : List ResolverEvent),
      (∀ e ∈ events, e.Own) → Finished (Runs.run (step getaddrinfo) (start threads) events) →
      Resolves getaddrinfo (Runs.run (step getaddrinfo) (start threads) events) := by
  have escapes : Runs.run (step services) (start 1) (asked "h:http" 6) = .error .uncaught := by decide
  refine ⟨escapes, by decide, ?_⟩
  intro claim
  have resolves := claim services 1 (asked "h:http" 6) (by simp [asked, ResolverEvent.Own]) (by rw [escapes]; rfl)
  rw [escapes] at resolves
  exact resolves rfl

end Resolver

end ProxyServer
