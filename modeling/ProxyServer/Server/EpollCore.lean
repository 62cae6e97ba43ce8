import ProxyServer.Foundation.Runs
import ProxyServer.Server.Handlers

/-!
# The loop

`run` and `start_wait`: `epoll_wait` returns the events of several descriptors, whose
handlers run one after another. By its turn an event may be older than the interest of its
descriptor.
-/

namespace ProxyServer

def SIGINT : Nat := 2

/-- `start_wait` between two handlers. -/
structure EpollCore where
  proxy : Proxy
  /-- The descriptor of `sig_fd`. -/
  signal : Fd
  /-- What is left of the events that `epoll_wait` returned. -/
  events : List (Fd × FdState)
  /-- The loop was left. -/
  left : Bool

/-- What the loop does next. -/
inductive Turn where
  /-- `epoll_wait` returns. -/
  | wait (events : List (Fd × FdState))
  /-- `epoll_wait` fails with EINTR. -/
  | interrupt
  /-- The handler of the next event runs. `ssi_signo` is what it reads if that is the one of
  `sig_fd`, or `none` if the read is short. -/
  | handle (io : Io) (ssi_signo : Option Nat)
  deriving DecidableEq, Repr

namespace EpollCore

def waits (l : EpollCore) : Bool := !l.left && l.events.isEmpty

def turn (l : EpollCore) : Turn → Except Fault EpollCore
  | .wait events => if l.waits then .ok { l with events } else .error .disabled
  | .interrupt => if l.waits then .ok { l with left := true } else .error .disabled
  | .handle io ssi_signo =>
    match l.left, l.events with
    | false, (fd, state) :: events =>
      if fd = l.signal then .ok { l with events, left := state.is .IN && ssi_signo = some SIGINT }
      else (l.proxy.step ⟨fd, state, io⟩).map ({ l with proxy := ·, events })
    | _, _ => .error .disabled

def init (timer notifier listener signal : Fd) : EpollCore where
  proxy := .init timer notifier listener
  signal
  events := []
  left := false

/-- Every descriptor is reported once, with IN or OUT only if it is registered for that. -/
structure Reports (l : EpollCore) (events : List (Fd × FdState)) : Prop where
  once : (events.map (·.1)).Nodup
  input : ∀ {f state r e}, (f, state) ∈ events → l.proxy.elem r = some e → e.fd = f → state.input = true →
    e.events.input = true
  output : ∀ {f state r e}, (f, state) ∈ events → l.proxy.elem r = some e → e.fd = f → state.output = true →
    e.events.output = true

/-- The elements of the queue. -/
def elems (l : EpollCore) : List ElemRef :=
  (List.range l.proxy.sockets.next).map .sock ++
    (List.range l.proxy.connections.next).flatMap fun c => [.client c, .server c]

theorem elem_mem {l : EpollCore} {r : ElemRef} {e : EpollElem} (live : l.proxy.elem r = some e) : r ∈ l.elems := by
  simp only [elems, List.mem_append, List.mem_map, List.mem_range, List.mem_flatMap, List.mem_cons, List.not_mem_nil, or_false]
  cases r with
  | sock id =>
    obtain ⟨entry, found, -⟩ := Option.map_eq_some_iff.mp live
    exact Or.inl ⟨id, Store.get_lt found, rfl⟩
  | client c =>
    obtain ⟨conn, found, -⟩ := Option.map_eq_some_iff.mp live
    exact Or.inr ⟨c, Store.get_lt found, Or.inl rfl⟩
  | server c =>
    obtain ⟨conn, found, -⟩ := Option.map_eq_some_iff.mp live
    exact Or.inr ⟨c, Store.get_lt found, Or.inr rfl⟩

instance (l : EpollCore) (events : List (Fd × FdState)) : Decidable (l.Reports events) :=
  decidable_of_iff ((events.map (·.1)).Nodup ∧ ∀ x ∈ events, ∀ r ∈ l.elems, (l.proxy.elem r).all fun e =>
      e.fd = x.1 → (x.2.input = true → e.events.input = true) ∧ (x.2.output = true → e.events.output = true))
    ⟨fun holds =>
      { once := holds.1
        input := fun reported live same => by
          have here := holds.2 _ reported _ (elem_mem live)
          rw [live, Option.all_some, decide_eq_true_eq] at here
          exact (here same).1
        output := fun reported live same => by
          have here := holds.2 _ reported _ (elem_mem live)
          rw [live, Option.all_some, decide_eq_true_eq] at here
          exact (here same).2 },
    fun reports => ⟨reports.once, fun x reported r _ => by
      cases live : l.proxy.elem r with
      | none => rfl
      | some e =>
        rw [Option.all_some, decide_eq_true_eq]
        exact fun same => ⟨reports.input reported live same, reports.output reported live same⟩⟩⟩

/-- `epoll_wait` returns what the descriptors are registered for. -/
def Faithful (l : EpollCore) : Turn → Prop
  | .wait events => l.Reports events
  | _ => True

instance (l : EpollCore) : (turn : Turn) → Decidable (l.Faithful turn)
  | .wait events => inferInstanceAs (Decidable (l.Reports events))
  | .interrupt => isTrue trivial
  | .handle _ _ => isTrue trivial

/-! ### Turns -/

/-- What a turn can do. -/
inductive Turned (l : EpollCore) : Turn → EpollCore → Prop where
  | wait (events : List (Fd × FdState)) (idle : l.events = []) : Turned l (.wait events) { l with events }
  | interrupt (idle : l.events = []) : Turned l .interrupt { l with left := true }
  | signal {state : FdState} {events : List (Fd × FdState)} (io : Io) (signo : Option Nat) (left : Bool)
      (next : l.events = (l.signal, state) :: events) : Turned l (.handle io signo) { l with events, left }
  | handle {fd : Fd} {state : FdState} {events : List (Fd × FdState)} {proxy : Proxy} (io : Io) (signo : Option Nat)
      (next : l.events = (fd, state) :: events) (stepped : l.proxy.step ⟨fd, state, io⟩ = .ok proxy) :
      Turned l (.handle io signo) { l with proxy, events }

theorem turned {l l' : EpollCore} {turn : Turn} (taken : l.turn turn = .ok l') : l.Turned turn l' := by
  cases turn with
  | wait events =>
    simp only [EpollCore.turn] at taken
    split at taken
    · rename_i waits
      cases taken
      exact .wait events (List.isEmpty_iff.mp (Bool.and_eq_true_iff.mp waits).2)
    · cases taken
  | interrupt =>
    simp only [EpollCore.turn] at taken
    split at taken
    · rename_i waits
      cases taken
      exact .interrupt (List.isEmpty_iff.mp (Bool.and_eq_true_iff.mp waits).2)
    · cases taken
  | handle io signo =>
    simp only [EpollCore.turn] at taken
    split at taken
    · rename_i fd state events _ next
      split at taken
      · rename_i signal
        subst signal
        cases taken
        exact .signal io signo _ next
      · obtain ⟨proxy, stepped, rfl⟩ := Runs.map_ok.mp taken
        exact .handle io signo next stepped
    · cases taken

/-- The server takes a run of steps in every run of the loop. -/
theorem runs {l l' : EpollCore} {turns : List Turn} (ran : Runs.run turn l turns = .ok l') :
    ∃ events, Runs.run Proxy.step l.proxy events = .ok l'.proxy := by
  induction turns generalizing l with
  | nil =>
    cases ran
    exact ⟨[], rfl⟩
  | cons turn turns ih =>
    obtain ⟨m, taken, ran⟩ := Runs.run_cons.mp ran
    obtain ⟨events, ran⟩ := ih ran
    cases turned taken with
    | wait events' => exact ⟨events, ran⟩
    | interrupt => exact ⟨events, ran⟩
    | signal io signo left next => exact ⟨events, ran⟩
    | handle io signo next stepped => exact ⟨_ :: events, Runs.run_cons.mpr ⟨_, stepped, ran⟩⟩

end EpollCore

end ProxyServer
