import ProxyServer.Foundation.Runs
import ProxyServer.Request.SimpleCache
import ProxyServer.Server.State

/-!
# The resolver

The worker threads of `resolver::main_loop` and the main thread, with the two
queues between them and the eventfd. A block under a mutex is one step.
-/

namespace ProxyServer

structure ResolverExtra where
  socket : Fd
  host : Bytes
  deriving DecidableEq, Repr

/-- What one `resolve_host` call submits; the number of the call is not in the source. -/
structure Submission where
  call : Nat
  extra : ResolverExtra
  deriving DecidableEq, Repr

/-- `in_query` -/
structure InQuery where
  host : Bytes
  submission : Submission
  deriving DecidableEq, Repr

/-- `resolved_ip` -/
structure Resolution where
  ips : List UInt32
  port : UInt16
  submission : Submission
  deriving DecidableEq, Repr

/-- Where a worker stands in `main_loop`. -/
inductive Worker where
  /-- At the test of `should_stop`. -/
  | check
  /-- At the block that looks whether the queue is empty. -/
  | look
  /-- In `cv.wait`. -/
  | asleep
  /-- At the block that takes a query. -/
  | take
  /-- At `find_cached`. -/
  | find (p : InQuery)
  /-- At `resolve_ip`. -/
  | resolve (p : InQuery)
  /-- At the block that pushes the result. -/
  | publish (p : InQuery) (ips : List UInt32)
  /-- At the write to the eventfd. -/
  | notify
  | stopped
  deriving DecidableEq, Repr

inductive MainThread where
  | free
  /-- In `resolve_host`, before `cv.notify_one`. -/
  | submitting
  /-- In the handler of the notifier, before `get_ip`. -/
  | reading
  /-- In `stop`, before `cv.notify_all`. -/
  | stopping
  /-- `stop` has returned. -/
  | stopped
  deriving DecidableEq, Repr

structure Resolver where
  inQueue : List InQuery
  outQueue : List Resolution
  cache : SimpleCache Bytes (List UInt32)
  shouldStop : Bool
  workers : List Worker
  main : MainThread
  /-- The counter of the eventfd. -/
  counter : Nat
  /-- What was submitted and what `get_ip` has returned: not in the source. -/
  submitted : List Submission
  delivered : List Resolution
  deriving DecidableEq, Repr

inductive ResolverEvent where
  | resolveHost (host : Bytes) (extra : ResolverExtra)
  /-- Wakes the given worker, or none when none sleeps. -/
  | notifyOne (woken : Option Nat)
  /-- The read of the eventfd, which takes one from the counter. -/
  | read
  | getIp
  | stop
  | notifyAll
  /-- The next block of a worker. -/
  | work (worker : Nat)
  /-- A worker that sleeps wakes without a notification. -/
  | wake (worker : Nat)
  deriving DecidableEq, Repr

inductive ResolverFault where
  /-- The event cannot happen. -/
  | disabled
  /-- An exception leaves the thread. -/
  | uncaught
  /-- `front()` of an empty queue. -/
  | emptyQueue
  /-- An invalid iterator in the cache. -/
  | cache
  deriving DecidableEq, Repr

namespace Resolver

def CACHE_SIZE : Nat := 500

/-- `htons` -/
def htons (n : UInt16) : UInt16 := (n <<< 8) ||| (n >>> 8)

/-- `p.host` up to the first colon. -/
def hostName (host : Bytes) : Bytes :=
  let pos := find host COLON 0
  if pos = npos then host else host.take pos

def portName (host : Bytes) : Bytes :=
  let pos := find host COLON 0
  if pos = npos then lit "80" else host.drop (pos + 1)

/-- The result of a query: none when the port is not a number. -/
def resolved (p : InQuery) (ips : List UInt32) : Option Resolution :=
  match stoi (portName p.host) with
  | .ok port => some { ips, port := htons (UInt16.ofNat (port % 2 ^ 16).toNat), submission := p.submission }
  | .error _ => none

def setWorker (s : Resolver) (i : Nat) (w : Worker) : Resolver := { s with workers := s.workers.set i w }

/-- A worker that is woken goes on behind `cv.wait`. -/
def wakeAll (s : Resolver) : Resolver :=
  { s with workers := s.workers.map fun w => if w = .asleep then .check else w }

/-- The next block of the worker `i`, which stands at `w`. -/
def work (getaddrinfo : Bytes → Bytes → Option (List UInt32)) (s : Resolver) (i : Nat) :
    Worker → Except ResolverFault Resolver
  | .check => .ok (s.setWorker i (if s.shouldStop then .stopped else .look))
  | .look => .ok (s.setWorker i (if s.inQueue = [] then .asleep else .take))
  | .asleep => .error .disabled
  | .take => match s.inQueue with
    | [] => .ok (s.setWorker i .check)
    | p :: rest => .ok ({ s with inQueue := rest }.setWorker i (.find p))
  | .find p =>
    let ips := (s.cache.lookup (hostName p.host)).getD []
    .ok (s.setWorker i (if ips = [] then .resolve p else .publish p ips))
  | .resolve p => match getaddrinfo (hostName p.host) (portName p.host) with
    | none => .ok (s.setWorker i (.publish p []))
    | some ips => match s.cache.insert CACHE_SIZE (hostName p.host) ips with
      | some cache => .ok ({ s with cache }.setWorker i (.publish p ips))
      | none => .error .cache
  | .publish p ips => match resolved p ips with
    | some result => .ok ({ s with outQueue := s.outQueue ++ [result] }.setWorker i .notify)
    | none => .error .uncaught
  | .notify => .ok ({ s with counter := s.counter + 1 }.setWorker i .check)
  | .stopped => .error .disabled

def step (getaddrinfo : Bytes → Bytes → Option (List UInt32)) (s : Resolver) :
    ResolverEvent → Except ResolverFault Resolver
  | .resolveHost host extra =>
    if s.main = .free then
      let submission := { call := s.submitted.length, extra }
      .ok { s with
        inQueue := s.inQueue ++ [{ host, submission }], submitted := s.submitted ++ [submission]
        main := .submitting }
    else .error .disabled
  | .notifyOne (some i) =>
    if s.main = .submitting ∧ s.workers[i]? = some .asleep then .ok { s.setWorker i .check with main := .free }
    else .error .disabled
  | .notifyOne none =>
    if s.main = .submitting ∧ .asleep ∉ s.workers then .ok { s with main := .free } else .error .disabled
  | .read =>
    if s.main = .free ∧ s.counter ≠ 0 then .ok { s with counter := s.counter - 1, main := .reading }
    else .error .disabled
  | .getIp =>
    if s.main = .reading then match s.outQueue with
      | [] => .error .emptyQueue
      | result :: rest => .ok { s with outQueue := rest, delivered := s.delivered ++ [result], main := .free }
    else .error .disabled
  | .stop => if s.main = .free then .ok { s with shouldStop := true, main := .stopping } else .error .disabled
  | .notifyAll => if s.main = .stopping then .ok { s.wakeAll with main := .stopped } else .error .disabled
  | .work i => match s.workers[i]? with
    | some w => s.work getaddrinfo i w
    | none => .error .disabled
  | .wake i => if s.workers[i]? = some .asleep then .ok (s.setWorker i .check) else .error .disabled

/-- What the constructor leaves, with any number of threads. -/
def start (threads : Nat) : Resolver where
  inQueue := []
  outQueue := []
  cache := .empty
  shouldStop := false
  workers := List.replicate threads .check
  main := .free
  counter := 0
  submitted := []
  delivered := []

end Resolver

end ProxyServer
