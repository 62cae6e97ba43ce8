import ProxyServer.Server.ClosedEntries

/-!
# Pending resolutions

The timer closes clients without a look at `on_resolve`, a resolver result may come
twice, and the handler of a server stays installed while the answer to CONNECT is
sent. In a run without these no look-up fails; in a run in which the timer leaves no
pending resolution behind, every client gets the action of its own latest call.
-/

namespace ProxyServer

namespace Proxy

variable {timer notifier listener : Fd} {events : List Event}

/-! ### Look-ups -/

/-- No handler dereferences or erases `end()`. -/
theorem pending_found (opens : Opens timer notifier listener)
    (keeps : Runs.Along step (fun s event => s.keepsPending event = true) (init timer notifier listener) events) :
    Runs.run step (init timer notifier listener) events ≠ .error .endIterator := by
  intro failed
  let guard : Guard := { pending := True }
  have careful : Runs.Along step (Careful guard) (init timer notifier listener) events :=
    keeps.mono fun s event keeps =>
      { closes := False.elim
        pending := fun _ => keeps
        current := False.elim
        answers := fun _ _ _ _ _ _ _ => trivial
        validates := fun _ _ _ _ _ _ _ => trivial
        opens := fun _ _ => trivial }
  exact run_allows opens (fun _ => trivial) careful failed trivial

/-- A request that is not for the cache. -/
def postTo (host : Bytes) : Bytes :=
  lit "POST / HTTP/1.1\r\nHost: " ++ host ++ lit "\r\nContent-Length: 0\r\n\r\n"

/-- The oldest result of the resolver, and a new socket for the server. -/
def resolves (server : Fd) : Event where
  fd := 4
  state := .IN
  io := { quiet with newFd := some server, ips := [1] }

/-- The timer has expired so many times. -/
def expires (ticked : Nat) : Event := { fd := 3, state := .IN, io := { quiet with ticked } }

def connects (server : Fd) : Event := { fd := server, state := .OUT, io := quiet }

def leaves (client : Fd) : Event := { fd := client, state := .RDHUP, io := { quiet with canRead := some 0 } }

theorem pending_found_once :
    Runs.run step (init 3 4 5) [accepts 6, receives 6 (postTo (lit "h")), resolves 7, connects 7] ≠
      .error .endIterator :=
  pending_found opens_345 (by decide +kernel)

/-- The timer closes a client whose name is being resolved; the result finds the
entry of `on_resolve` and no socket. -/
theorem expired_not_found : ¬∀ (timer notifier listener : Fd) (events : List Event),
    Opens timer notifier listener →
      Runs.run step (init timer notifier listener) events ≠ .error .endIterator := by
  intro claim
  refine claim 3 4 5 [accepts 6, receives 6 (postTo (lit "h")), expires 120, resolves 7]
    opens_345 ?_
  rfl

/-! ### Clients -/

/-- Every action that ran for a client was that of its latest call, and so is every
action that a connection attempt would run. -/
def ClientsIsolated (s : Proxy) : Prop :=
  Isolated s.trace ∧ ∀ c conn ip q, s.connections.get c = some conn →
    s.handlers conn.server.fd = some (.serverConnect c ip) → s.onResolve (ip.socket, ip.host) = some q →
    conn.client.call = some q.call

theorem clients_isolated (opens : Opens timer notifier listener)
    (forgets : Runs.Along step (fun s event => s.forgetsPending event = true) (init timer notifier listener) events)
    {t : Proxy} (ran : Runs.run step (init timer notifier listener) events = .ok t) : t.ClientsIsolated := by
  let guard : Guard := { current := True }
  have careful : Runs.Along step (Careful guard) (init timer notifier listener) events :=
    forgets.mono fun s event forgets =>
      { closes := False.elim
        pending := False.elim
        current := fun _ => forgets
        answers := fun _ _ _ _ _ _ _ => trivial
        validates := fun _ _ _ _ _ _ _ => trivial
        opens := fun _ _ => trivial }
  have sound := run_sound opens (fun _ => trivial) careful ran
  refine ⟨sound.isolated trivial, fun c conn ip q live installed found => ?_⟩
  have here : t.view.connection c = some conn.view := by simp [view, live]
  have owner := sound.own.server installed
  have same : ip.socket = conn.client.fd := by simpa [view_fd, elem, live, eq_comm] using owner
  exact sound.own.latest (sound.current trivial) here same found

/-- A second client gets the descriptor of one that left while its name was resolved. -/
def descriptorReused : List Event :=
  [accepts 6, receives 6 (postTo (lit "g")), leaves 6, accepts 6, receives 6 (postTo (lit "h")), resolves 7,
    resolves 7, connects 7]

theorem clients_isolated_reused :
    ∃ t, Runs.run step (init 3 4 5) descriptorReused = .ok t ∧ t.ClientsIsolated := by
  obtain ⟨t, ran⟩ : ∃ t, Runs.run step (init 3 4 5) descriptorReused = .ok t := Runs.run_ends (by decide +kernel)
  exact ⟨t, ran, clients_isolated opens_345
    (by decide +kernel) ran⟩

/-- The timer closes a connection attempt and leaves its entry in `on_resolve`. -/
def attemptExpired : List Event :=
  [accepts 6, receives 6 (postTo (lit "h")), resolves 7, expires 120, accepts 6, receives 6 (postTo (lit "h")),
    resolves 7, connects 7]

def Obs.isStale : Obs → Bool
  | .established latest ran => latest ≠ some ran
  | _ => false

theorem stale_action_runs : ¬∀ (timer notifier listener : Fd) (events : List Event) (t : Proxy),
    Opens timer notifier listener → Runs.run step (init timer notifier listener) events = .ok t →
      t.ClientsIsolated := by
  intro claim
  obtain ⟨t, ran, seen⟩ : ∃ t, Runs.run step (init 3 4 5) attemptExpired = .ok t ∧
      t.trace.any Obs.isStale = true := Runs.run_any (by decide +kernel)
  have isolated := (claim 3 4 5 attemptExpired t
    opens_345 ran).1
  obtain ⟨o, member, old⟩ := List.any_eq_true.mp seen
  cases o with
  | established latest call => exact of_decide_eq_true old (isolated latest call member)
  | _ => cases old

end Proxy

end ProxyServer
