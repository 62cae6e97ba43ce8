import ProxyServer.Server.Steps

/-!
# Entries that were closed

A handler that closes its entry for HUP or ERROR, or for an exception of a raw
message, does not always return. In a run in which it does, no handler uses an entry
that it closed.
-/

namespace ProxyServer

namespace Proxy

variable {timer notifier listener : Fd} {events : List Event}

/-- What C++ leaves undefined: an entry is used that is not in the queue. -/
theorem closed_not_used (opens : Opens timer notifier listener)
    (returns : Runs.Along step (fun s event => s.returnsClosed event = true) (init timer notifier listener) events)
    (entry : EntryRef) : Runs.run step (init timer notifier listener) events ≠ .error (.useAfterClose entry) := by
  intro failed
  let guard : Guard := { closes := True }
  have careful : Runs.Along step (Careful guard) (init timer notifier listener) events :=
    returns.mono fun s event returns =>
      { closes := fun _ => returns
        pending := False.elim
        current := False.elim
        answers := fun _ _ _ _ _ _ _ => trivial
        validates := fun _ _ _ _ _ _ _ => trivial
        opens := fun _ _ => trivial }
  exact run_allows opens (fun _ => trivial) careful failed trivial

/-! ### Events -/

def quiet : Io where
  canRead := none
  soError := none
  read := none
  write := none
  newFd := none
  connect := 0
  resolved := 0
  ips := []
  port := 0
  ticked := 0
  garbage := []
  unset := 0

/-- The listener, with the descriptor 5, accepts a client. -/
def accepts (fd : Fd) : Event := { fd := 5, state := .IN, io := { quiet with newFd := some fd } }

def receives (fd : Fd) (text : Bytes) : Event := { fd, state := .IN, io := { quiet with read := some text } }

/-- A client resets its connection with three bytes unread. -/
def resets (fd : Fd) : Event where
  fd
  state := .union .IN (.union .RDHUP hupOrError)
  io := { quiet with canRead := some 3, soError := some 104, read := some (lit "GET") }

theorem opens_345 : Opens 3 4 5 := by
  constructor <;> decide

/-- A client is gone, and nothing of it is left to be read. -/
def departs (fd : Fd) : Event := { fd, state := .union .IN .RDHUP, io := { quiet with canRead := some 0 } }

/-- The connection of a client fails. -/
def breaks (fd : Fd) : Event := { fd, state := hupOrError, io := { quiet with soError := some 104 } }

/-- Two clients are closed, and for each an event comes late. -/
def closesTwice : List Event :=
  [accepts 6, receives 6 (lit "GET"), departs 6, receives 6 (lit "GET"), accepts 6, receives 6 (lit "GET"), breaks 6,
    receives 6 (lit "GET")]

theorem closed_not_used_half :
    (∃ t, Runs.run step (init 3 4 5) closesTwice = .ok t ∧ t.live (.sock 3) = false ∧ t.live (.sock 4) = false) ∧
      Runs.run step (init 3 4 5) closesTwice ≠ .error (.useAfterClose (.sock 3)) ∧
      Runs.run step (init 3 4 5) closesTwice ≠ .error (.useAfterClose (.sock 4)) := by
  have returns : Runs.Along step (fun s event => s.returnsClosed event = true) (init 3 4 5) closesTwice := by
    decide +kernel
  obtain ⟨t, ran, closed⟩ : ∃ t, Runs.run step (init 3 4 5) closesTwice = .ok t ∧
      (!t.live (.sock 3) && !t.live (.sock 4)) = true := Runs.run_any (by decide +kernel)
  simp only [Bool.and_eq_true, Bool.not_eq_true'] at closed
  exact ⟨⟨t, ran, closed⟩, closed_not_used opens_345 returns _, closed_not_used opens_345 returns _⟩

theorem reset_uses_closed : ¬∀ (timer notifier listener : Fd) (events : List Event) (entry : EntryRef),
    Opens timer notifier listener →
      Runs.run step (init timer notifier listener) events ≠ .error (.useAfterClose entry) := by
  intro claim
  refine claim 3 4 5 [accepts 6, resets 6] (.sock 3)
    opens_345 ?_
  rfl

end Proxy

end ProxyServer
