import ProxyServer.Resolver.Machine

/-!
# The steps of the resolver

What a block of a worker and an event make of the state, with the tests that they
passed, and where something other than a disabled event ends a run.
-/

namespace ProxyServer

namespace Resolver

variable {getaddrinfo : Bytes → Bytes → Option (List UInt32)} {s s' : Resolver} {i : Nat} {w : Worker}
  {e : ResolverEvent} {f : ResolverFault}

/-- The block of the worker `i`, by where the worker stands. -/
inductive Works (getaddrinfo : Bytes → Bytes → Option (List UInt32)) (s : Resolver) (i : Nat) :
    Worker → Resolver → Prop where
  | stops (stop : s.shouldStop = true) : Works getaddrinfo s i .check (s.setWorker i .stopped)
  | continues (runs : s.shouldStop = false) : Works getaddrinfo s i .check (s.setWorker i .look)
  | sleeps (empty : s.inQueue = []) : Works getaddrinfo s i .look (s.setWorker i .asleep)
  | sees (present : s.inQueue ≠ []) : Works getaddrinfo s i .look (s.setWorker i .take)
  | misses (empty : s.inQueue = []) : Works getaddrinfo s i .take (s.setWorker i .check)
  | takes {p : InQuery} {rest : List InQuery} (queue : s.inQueue = p :: rest) :
      Works getaddrinfo s i .take ({ s with inQueue := rest }.setWorker i (.find p))
  | asks {p : InQuery} (absent : (s.cache.lookup (hostName p.host)).getD [] = []) :
      Works getaddrinfo s i (.find p) (s.setWorker i (.resolve p))
  | finds {p : InQuery} {ips : List UInt32} (cached : (s.cache.lookup (hostName p.host)).getD [] = ips)
      (present : ips ≠ []) : Works getaddrinfo s i (.find p) (s.setWorker i (.publish p ips))
  | unknown {p : InQuery} (none : getaddrinfo (hostName p.host) (portName p.host) = none) :
      Works getaddrinfo s i (.resolve p) (s.setWorker i (.publish p []))
  | learns {p : InQuery} {ips : List UInt32} {cache : SimpleCache Bytes (List UInt32)}
      (known : getaddrinfo (hostName p.host) (portName p.host) = some ips)
      (inserted : s.cache.insert CACHE_SIZE (hostName p.host) ips = some cache) :
      Works getaddrinfo s i (.resolve p) ({ s with cache }.setWorker i (.publish p ips))
  | publishes {p : InQuery} {ips : List UInt32} {result : Resolution} (made : resolved p ips = some result) :
      Works getaddrinfo s i (.publish p ips) ({ s with outQueue := s.outQueue ++ [result] }.setWorker i .notify)
  | notifies : Works getaddrinfo s i .notify ({ s with counter := s.counter + 1 }.setWorker i .check)

theorem work_ok (worked : s.work getaddrinfo i w = .ok s') : Works getaddrinfo s i w s' := by
  unfold work at worked
  cases w with
  | check =>
    cases worked
    split
    · rename_i stop
      exact .stops stop
    · rename_i runs
      exact .continues (Bool.eq_false_iff.mpr runs)
  | look =>
    cases worked
    split
    · rename_i empty
      exact .sleeps empty
    · rename_i present
      exact .sees present
  | asleep => cases worked
  | take =>
    dsimp only at worked
    split at worked
    · rename_i empty
      cases worked
      exact .misses empty
    · rename_i queue
      cases worked
      exact .takes queue
  | find p =>
    cases worked
    split
    · rename_i absent
      exact .asks absent
    · rename_i present
      exact .finds rfl present
  | resolve p =>
    dsimp only at worked
    split at worked
    · rename_i none
      cases worked
      exact .unknown none
    · rename_i ips known
      split at worked
      · rename_i cache inserted
        cases worked
        exact .learns known inserted
      · cases worked
  | publish p ips =>
    dsimp only at worked
    split at worked
    · rename_i result made
      cases worked
      exact .publishes made
    · cases worked
  | notify =>
    cases worked
    exact .notifies
  | stopped => cases worked

inductive Steps (getaddrinfo : Bytes → Bytes → Option (List UInt32)) (s : Resolver) :
    ResolverEvent → Resolver → Prop where
  | submits {host : Bytes} {extra : ResolverExtra} (free : s.main = .free) :
      Steps getaddrinfo s (.resolveHost host extra)
        { s with
          inQueue := s.inQueue ++ [{ host, submission := { call := s.submitted.length, extra } }]
          submitted := s.submitted ++ [{ call := s.submitted.length, extra }]
          main := .submitting }
  | notifies {i : Nat} (submitting : s.main = .submitting) (asleep : s.workers[i]? = some .asleep) :
      Steps getaddrinfo s (.notifyOne (some i)) { s.setWorker i .check with main := .free }
  | wasted (submitting : s.main = .submitting) (awake : .asleep ∉ s.workers) :
      Steps getaddrinfo s (.notifyOne none) { s with main := .free }
  | reads (free : s.main = .free) (written : s.counter ≠ 0) :
      Steps getaddrinfo s .read { s with counter := s.counter - 1, main := .reading }
  | delivers {result : Resolution} {rest : List Resolution} (reading : s.main = .reading)
      (queue : s.outQueue = result :: rest) :
      Steps getaddrinfo s .getIp { s with outQueue := rest, delivered := s.delivered ++ [result], main := .free }
  | stops (free : s.main = .free) : Steps getaddrinfo s .stop { s with shouldStop := true, main := .stopping }
  | notifiesAll (stopping : s.main = .stopping) : Steps getaddrinfo s .notifyAll { s.wakeAll with main := .stopped }
  | works {i : Nat} {w : Worker} {s' : Resolver} (here : s.workers[i]? = some w)
      (works : Works getaddrinfo s i w s') : Steps getaddrinfo s (.work i) s'
  | wakes {i : Nat} (asleep : s.workers[i]? = some .asleep) :
      Steps getaddrinfo s (.wake i) (s.setWorker i .check)

theorem step_ok (stepped : s.step getaddrinfo e = .ok s') : Steps getaddrinfo s e s' := by
  unfold step at stepped
  cases e with
  | resolveHost host extra =>
    dsimp only at stepped
    split at stepped
    · rename_i free
      cases stepped
      exact .submits free
    · cases stepped
  | notifyOne woken =>
    cases woken with
    | none =>
      dsimp only at stepped
      split at stepped
      · rename_i enabled
        cases stepped
        exact .wasted enabled.1 enabled.2
      · cases stepped
    | some i =>
      dsimp only at stepped
      split at stepped
      · rename_i enabled
        cases stepped
        exact .notifies enabled.1 enabled.2
      · cases stepped
  | read =>
    dsimp only at stepped
    split at stepped
    · rename_i enabled
      cases stepped
      exact .reads enabled.1 enabled.2
    · cases stepped
  | getIp =>
    dsimp only at stepped
    split at stepped
    · rename_i reading
      split at stepped
      · cases stepped
      · rename_i queue
        cases stepped
        exact .delivers reading queue
    · cases stepped
  | stop =>
    dsimp only at stepped
    split at stepped
    · rename_i free
      cases stepped
      exact .stops free
    · cases stepped
  | notifyAll =>
    dsimp only at stepped
    split at stepped
    · rename_i stopping
      cases stepped
      exact .notifiesAll stopping
    · cases stepped
  | work i =>
    dsimp only at stepped
    split at stepped
    · rename_i w here
      exact .works here (work_ok stepped)
    · cases stepped
  | wake i =>
    dsimp only at stepped
    split at stepped
    · rename_i asleep
      cases stepped
      exact .wakes asleep
    · cases stepped

inductive Fails (s : Resolver) : ResolverEvent → ResolverFault → Prop where
  | disabled {e : ResolverEvent} : Fails s e .disabled
  | emptyQueue (reading : s.main = .reading) (empty : s.outQueue = []) : Fails s .getIp .emptyQueue
  | uncaught {i : Nat} {p : InQuery} {ips : List UInt32} (here : s.workers[i]? = some (.publish p ips))
      (unread : resolved p ips = none) : Fails s (.work i) .uncaught
  | cache {i : Nat} {p : InQuery} {ips : List UInt32} (here : s.workers[i]? = some (.resolve p))
      (lost : s.cache.insert CACHE_SIZE (hostName p.host) ips = none) : Fails s (.work i) .cache

theorem work_error (here : s.workers[i]? = some w) (failed : s.work getaddrinfo i w = .error f) :
    Fails s (.work i) f := by
  unfold work at failed
  cases w with
  | asleep =>
    cases failed
    exact .disabled
  | take =>
    dsimp only at failed
    split at failed <;> cases failed
  | resolve p =>
    dsimp only at failed
    split at failed
    · cases failed
    · split at failed
      · cases failed
      · rename_i lost
        cases failed
        exact .cache here lost
  | publish p ips =>
    dsimp only at failed
    split at failed
    · cases failed
    · rename_i unread
      cases failed
      exact .uncaught here unread
  | stopped =>
    cases failed
    exact .disabled
  | _ => cases failed

theorem step_error (failed : s.step getaddrinfo e = .error f) : Fails s e f := by
  unfold step at failed
  cases e with
  | notifyOne woken =>
    cases woken <;>
    · dsimp only at failed
      split at failed <;> cases failed
      exact .disabled
  | getIp =>
    dsimp only at failed
    split at failed
    · rename_i reading
      split at failed
      · rename_i empty
        cases failed
        exact .emptyQueue reading empty
      · cases failed
    · cases failed
      exact .disabled
  | work i =>
    dsimp only at failed
    split at failed
    · rename_i w here
      exact work_error here failed
    · cases failed
      exact .disabled
  | _ =>
    dsimp only at failed
    split at failed <;> cases failed
    exact .disabled

end Resolver

end ProxyServer
