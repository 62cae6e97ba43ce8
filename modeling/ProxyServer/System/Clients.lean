import ProxyServer.Resolver.Wakeups
import ProxyServer.System.Refinement

/-!
# Every client that waits is answered

The host of a client that waits is in the queue, in the hand of a worker, or a result that
waits itself. So when the workers have come to rest and the notifier has been handled for
every result, no client waits.
-/

namespace ProxyServer

namespace ProxySystem

variable {getaddrinfo : Bytes → Bytes → Option (List UInt32)} {s t u : ProxySystem} {e : SystemEvent} {i : Nat}
  {timer notifier listener : Fd} {threads : Nat} {events : List SystemEvent}

/-! ### The workers -/

/-- What the main thread leaves the workers to do. -/
structure Idle (threads : Nat) (s : ProxySystem) : Prop where
  agrees : s.Agrees
  working : s.resolver.Working threads

theorem Idle.work (idle : s.Idle threads) (taken : s.step getaddrinfo (.work i) = .ok t) :
    t.Idle threads ∧ t.resolver.pendingWork < s.resolver.pendingWork := by
  have agrees := (idle.agrees.step taken).1
  obtain ⟨resolver, stepped, rfl⟩ := resolve_ok taken
  obtain ⟨working, descends⟩ := idle.working.work stepped
  exact ⟨⟨agrees, working⟩, descends⟩

theorem run_idle (opens : Proxy.Opens timer notifier listener)
    (ran : Runs.run (step getaddrinfo) (init timer notifier listener threads) events = .ok s)
    (free : s.resolver.main = .free) : s.Idle threads := by
  obtain ⟨agrees, -, rs, resolved⟩ := run_agrees opens ran
  exact ⟨agrees, agrees.accounted, Resolver.run_watched resolved, agrees.running, free, Resolver.run_crew resolved⟩

/-! ### The results -/

/-- The workers have answered, and the main thread is elsewhere. -/
structure Answered (s : ProxySystem) : Prop where
  agrees : s.Agrees
  answered : s.resolver.Answered
  free : s.resolver.main = .free

/-- The handler of the notifier, for one result. -/
def notification (event : Event) : List SystemEvent := [.read, .handle event]

theorem Answered.notified {event : Event} (answered : s.Answered)
    (ran : Runs.run (step getaddrinfo) s (notification event) = .ok u) :
    u.Answered ∧ u.resolver.outQueue.length + 1 = s.resolver.outQueue.length := by
  obtain ⟨t, first, rest⟩ := Runs.run_cons.mp ran
  obtain ⟨u', second, rest⟩ := Runs.run_cons.mp rest
  cases rest
  have agrees := ((answered.agrees.step first).1.step second).1
  obtain ⟨resolver, read, rfl⟩ := resolve_ok first
  cases Resolver.step_ok read with
  | reads free written =>
    cases stepped second with
    | inner same _ => cases same
    | serves quiet free => cases free
    | submits quiet free => cases free
    | answers notified reading queue stepped taken =>
      cases Resolver.step_ok taken with
      | delivers reading' queue' =>
        have longer := congrArg List.length queue'
        rw [List.length_cons] at longer
        exact ⟨⟨agrees, agrees.accounted.answered answered.answered.empty answered.answered.asleep rfl, rfl⟩, longer.symm⟩

/-- No client waits when no result does. -/
theorem Answered.served (answered : s.Answered) (none : s.resolver.outQueue = []) (f : Fd) (id : SocketId) (host : Bytes) :
    s.proxy.handlers f ≠ some (.resolving id host) := by
  intro installed
  have asking : s.proxy.docket.Asking (f, host) := by simp [Docket.Asking, Proxy.docket, installed, Handler.asks]
  have member : (f, host) ∈ s.proxy.resolving := (answered.agrees.waiting _ asking).2
  rw [answered.agrees.flight] at member
  obtain ⟨x, out, -⟩ := List.mem_map.mp member
  obtain ⟨submitted, waits⟩ := Tokens.mem_out.mp out
  have results := answered.answered.results
  rw [none] at results
  exact waits (results.mem_iff.mpr submitted)

theorem Answered.results {results : List Event} (answered : s.Answered) (all : results.length = s.resolver.outQueue.length)
    (ran : Runs.run (step getaddrinfo) s (results.flatMap notification) = .ok u) (f : Fd) (id : SocketId) (host : Bytes) :
    u.proxy.handlers f ≠ some (.resolving id host) := by
  induction results generalizing s with
  | nil =>
    cases ran
    exact answered.served (List.length_eq_zero_iff.mp all.symm) f id host
  | cons event results ih =>
    rw [List.flatMap_cons] at ran
    obtain ⟨t, first, ran⟩ := Runs.run_append.mp ran
    obtain ⟨answered', fewer⟩ := answered.notified first
    rw [List.length_cons] at all
    exact ih answered' (by omega) ran

/-! ### Runs -/

/-- Where the host of a client is that waits. -/
structure Known (s : ProxySystem) (f : Fd) (host : Bytes) : Prop where
  /-- What is done with a server is entered. -/
  pending : (s.proxy.onResolve (f, host)).isSome
  /-- The resolver has the host, or its result. -/
  placed : ∃ x : Submission, x.key = (f, host) ∧
    x ∈ s.resolver.inQueue.map (·.submission) ++ (s.resolver.workers.flatMap Worker.hand ++
      s.resolver.outQueue.map (·.submission))

theorem Agrees.known {f : Fd} {id : SocketId} {host : Bytes} (agrees : s.Agrees)
    (installed : s.proxy.handlers f = some (.resolving id host)) : s.Known f host := by
  have asking : s.proxy.docket.Asking (f, host) := by simp [Docket.Asking, Proxy.docket, installed, Handler.asks]
  obtain ⟨pending, member⟩ := agrees.waiting _ asking
  have member : (f, host) ∈ s.proxy.resolving := member
  rw [agrees.flight] at member
  obtain ⟨x, out, key⟩ := List.mem_map.mp member
  obtain ⟨submitted, waits⟩ := Tokens.mem_out.mp out
  have placed := agrees.accounted.placed.mem_iff.mpr submitted
  refine ⟨pending, x, key, ?_⟩
  simp only [Resolver.places, List.mem_append] at placed ⊢
  rcases placed with queued | held | found | delivered
  · exact Or.inl queued
  · exact Or.inr (Or.inl held)
  · exact Or.inr (Or.inr found)
  · exact absurd delivered waits

/-- In every run, whatever the handlers and the workers do in whatever order, no client is
forgotten: its action is entered, and its host is with the resolver. When the main thread is
elsewhere, the workers come to rest, and when the notifier has then been handled for every
result, no client waits. -/
theorem clients_answered (getaddrinfo : Bytes → Bytes → Option (List UInt32)) {threads : Nat} {events : List SystemEvent}
    (opens : Proxy.Opens timer notifier listener) (crew : 0 < threads)
    (ran : Runs.run (step getaddrinfo) (init timer notifier listener threads) events = .ok s) :
    (∀ f id host, s.proxy.handlers f = some (.resolving id host) → s.Known f host) ∧
    (s.resolver.main = .free → ∀ (order : List Nat) (t : ProxySystem),
      Runs.run (step getaddrinfo) s (order.map .work) = .ok t →
      order.length < (s.resolver.inQueue.length + 1) * (7 * threads + 1) ∧
      (t.resolver.Rests getaddrinfo → ∀ (results : List Event) (u : ProxySystem),
        results.length = t.resolver.outQueue.length →
        Runs.run (step getaddrinfo) t (results.flatMap notification) = .ok u →
        ∀ f id host, u.proxy.handlers f ≠ some (.resolving id host))) := by
  refine ⟨fun f id host installed => (run_agrees opens ran).1.known installed, fun free order t ordered => ?_⟩
  have idle := run_idle opens ran free
  rw [Runs.run_map] at ordered
  have short := Runs.length_le_measure (I := Idle threads) (μ := fun s => s.resolver.pendingWork) idle
    (fun s i t idle stepped => (idle.work stepped).1) (fun s i t idle stepped => (idle.work stepped).2) ordered
  have there := Runs.invariant (I := Idle threads) idle (fun s i t idle stepped => (idle.work stepped).1) ordered
  constructor
  · have most := s.resolver.pendingWork_le
    rw [idle.working.crew] at most
    omega
  · intro rests results u all handled
    have answered : t.Answered := ⟨there.agrees, there.working.answered crew rests, there.working.free⟩
    exact answered.results all handled

/-- A client asks for its server. -/
def asks : List SystemEvent :=
  [.handle (Proxy.accepts 6), .handle (Proxy.receives 6 (Proxy.postTo (lit "h"))), .notifyOne none]

theorem clients_answered_once : ∃ s t u : ProxySystem,
    Runs.run (step fun _ _ => some [16777343]) (init 3 4 5 1) asks = .ok s ∧ s.Known 6 (lit "h") ∧
    Runs.run (step fun _ _ => some [16777343]) s ((List.replicate 9 0).map .work) = .ok t ∧
    Runs.run (step fun _ _ => some [16777343]) t ([Proxy.resolves 7].flatMap notification) = .ok u ∧
    u.proxy.connections.any (fun conn => conn.server.fd = 7) = true ∧
    ∀ f id host, u.proxy.handlers f ≠ some (.resolving id host) := by
  obtain ⟨u, ran, there⟩ : ∃ u, Runs.run (step fun _ _ => some [16777343]) (init 3 4 5 1)
      ((asks ++ (List.replicate 9 0).map .work) ++ [Proxy.resolves 7].flatMap notification) = .ok u ∧
      u.proxy.connections.any (fun conn => conn.server.fd = 7) = true := Runs.run_any (by decide +kernel)
  obtain ⟨t, ran, handled⟩ := Runs.run_append.mp ran
  obtain ⟨s, asked, worked⟩ := Runs.run_append.mp ran
  have rested : ∃ t, Runs.run (step fun _ _ => some [16777343]) (init 3 4 5 1) (asks ++ (List.replicate 9 0).map .work) = .ok t ∧
      decide (t.resolver.workers = [.asleep] ∧ t.resolver.outQueue.length = 1) = true := Runs.run_any (by decide +kernel)
  have waiting : ∃ s, Runs.run (step fun _ _ => some [16777343]) (init 3 4 5 1) asks = .ok s ∧
      decide (s.resolver.main = .free ∧ (s.proxy.handlers 6).bind Handler.asks = some (lit "h")) = true :=
    Runs.run_any (by decide +kernel)
  obtain ⟨t', ran', rested⟩ := rested
  obtain rfl : t = t' := Except.ok.inj (ran.symm.trans ran')
  obtain ⟨s', asked', waiting⟩ := waiting
  obtain rfl : s = s' := Except.ok.inj (asked.symm.trans asked')
  obtain ⟨asleep, one⟩ := of_decide_eq_true rested
  obtain ⟨free, asking⟩ := of_decide_eq_true waiting
  have asking : s.proxy.docket.Asking (6, lit "h") := asking
  obtain ⟨id, installed⟩ := asking.resolving
  obtain ⟨known, served⟩ := clients_answered (fun _ _ => some [16777343]) Proxy.opens_345 Nat.one_pos asked
  have rests : t.resolver.Rests fun _ _ => some [16777343] := by
    intro i
    cases i with
    | zero => simp [Resolver.step, Resolver.work, asleep]
    | succ i => simp [Resolver.step, asleep]
  exact ⟨s, t, u, asked, known 6 id _ installed, worked, handled, there,
    (served free _ t worked).2 rests [Proxy.resolves 7] u one.symm handled⟩

end ProxySystem

end ProxyServer
