import ProxyServer.Foundation.Tokens
import ProxyServer.Resolver.Machine
import ProxyServer.Server.Waiting

/-!
# The server and its resolver

The main thread runs the handlers and, in those of the notifier and of `connect_to_server`,
the blocks of the resolver that are its own; the worker threads take theirs in between.
-/

namespace ProxyServer

def Submission.key (x : Submission) : Fd × Bytes := (x.extra.socket, x.extra.host)

namespace Resolver

/-- What `resolve_host` was given and `get_ip` has not returned. -/
def outstanding (s : Resolver) : List Submission := Tokens.out s.submitted (s.delivered.map (·.submission))

/-- What the handler of the notifier is given by `get_ip`. -/
def answer (s : Resolver) (io : Io) (result : Resolution) : Io :=
  { io with resolved := s.outstanding.idxOf result.submission, ips := result.ips, port := result.port }

end Resolver

structure ProxySystem where
  proxy : Proxy
  resolver : Resolver

inductive SystemEvent where
  /-- The handler of an event runs, up to `cv.notify_one` where it calls `resolve_host`; that of
  the notifier, from its call of `get_ip`. -/
  | handle (event : Event)
  /-- `cv.notify_one` in `resolve_host`. -/
  | notifyOne (woken : Option Nat)
  /-- The handler of the notifier reads the eventfd. -/
  | read
  /-- The next block of a worker. -/
  | work (worker : Nat)
  /-- A worker that sleeps wakes without a notification. -/
  | wake (worker : Nat)
  deriving DecidableEq, Repr

inductive SystemFault where
  | server (fault : Fault)
  | resolver (fault : ResolverFault)
  deriving DecidableEq, Repr

namespace ProxySystem

variable (getaddrinfo : Bytes → Bytes → Option (List UInt32))

def resolve (s : ProxySystem) (e : ResolverEvent) : Except SystemFault ProxySystem :=
  match s.resolver.step getaddrinfo e with
  | .ok resolver => .ok { s with resolver }
  | .error fault => .error (.resolver fault)

def serve (s : ProxySystem) (event : Event) : Except SystemFault ProxySystem :=
  match s.proxy.step event with
  | .ok proxy => .ok { s with proxy }
  | .error fault => .error (.server fault)

def handle (s : ProxySystem) (event : Event) : Except SystemFault ProxySystem :=
  match s.proxy.notified event, s.resolver.main with
  | true, .reading =>
    match s.resolver.outQueue with
    | [] => .error (.resolver .emptyQueue)
    | result :: _ => do
      let served ← s.serve { event with io := s.resolver.answer event.io result }
      served.resolve getaddrinfo .getIp
  | false, .free => do
    let served ← s.serve event
    -- A handler that has called `resolve_host` has put a host behind those that are resolved.
    match served.proxy.resolving.drop s.proxy.resolving.length with
    | [] => return served
    | (socket, host) :: _ => served.resolve getaddrinfo (.resolveHost host { socket, host })
  | _, _ => .error (.resolver .disabled)

def step (s : ProxySystem) : SystemEvent → Except SystemFault ProxySystem
  | .handle event => s.handle getaddrinfo event
  | .notifyOne woken => s.resolve getaddrinfo (.notifyOne woken)
  | .read => s.resolve getaddrinfo .read
  | .work worker => s.resolve getaddrinfo (.work worker)
  | .wake worker => s.resolve getaddrinfo (.wake worker)

/-- What the constructors leave. -/
def init (timer notifier listener : Fd) (threads : Nat) : ProxySystem where
  proxy := .init timer notifier listener
  resolver := .start threads

end ProxySystem

end ProxyServer
