import ProxyServer.Server.Resolution

/-!
# Installed handlers

What a handler captured is in the queue as long as the handler is installed, and
its element owns the descriptor.
-/

namespace ProxyServer

/-! ### Captures -/

def AfterRequest.captured : AfterRequest → List EntryRef
  | .firstRequestRead client => [.sock client]
  | .reuse conn _ => [.conn conn]

def AfterResponse.captured : AfterResponse → List EntryRef
  | .handleValidationResponse conn _ _ => [.conn conn]

def AfterSend.captured : AfterSend → List EntryRef
  | .readResponse dest iterator next => dest.entry :: iterator :: next.captured
  | .startTransfer conn _ => [.conn conn]
  | .reuseConnection conn _ => [.conn conn]
  | .handleConnect conn => [.conn conn]
  | .closeSent it => [.sock it]
  | .close404 client => [.sock client]

/-- The entries whose iterators or elements a handler captured, also through the
continuation it captured. -/
def Handler.captured : Handler → List EntryRef
  | .listener => []
  | .notifier => []
  | .timer => []
  | .resolving sock _ => [.sock sock]
  | .connecting conn _ _ => [.conn conn]
  | .serverConnect conn _ => [.conn conn]
  | .readRequest source _ iterator next => source.entry :: iterator :: next.captured
  | .readResponse source _ iterator next => source.entry :: iterator :: next.captured
  | .send dest _ iterator next => dest.entry :: iterator :: next.captured
  | .transferServer conn _ _ => [.conn conn]
  | .transferClient conn _ => [.conn conn]
  | .reused conn => [.conn conn]
  | .connectTransfer conn side _ _ => [(side.elem conn).entry, .conn conn]

theorem AfterRequest.captured_source (next : AfterRequest) : next.captured = [next.source.entry] := by
  cases next <;> rfl

theorem AfterResponse.captured_source (next : AfterResponse) : next.captured = [next.source.entry] := by
  cases next
  rfl

theorem AfterSend.captured_dest {next : AfterSend} {dest : ElemRef} (follows : next.Follows dest) :
    ∀ it ∈ next.captured, it = dest.entry := by
  obtain ⟨same, further⟩ := follows
  intro it captured
  cases next with
  | readResponse dest' iterator next =>
    obtain ⟨entry, source⟩ := further
    change dest' = dest at same
    change it ∈ dest'.entry :: iterator :: next.captured at captured
    rw [next.captured_source, source, entry, same] at captured
    simpa using captured
  | _ =>
    rw [← same]
    exact List.mem_singleton.mp captured

namespace Registry

variable {v : Registry} {h : Handler}

theorem alive_of_fd {r : ElemRef} {f : Fd} (owner : v.fd? r = some f) : v.alive r.entry = true := by
  by_contra closed
  rw [Bool.not_eq_true] at closed
  rw [Proxy.fd_of_closed closed] at owner
  cases owner

theorem captured_owner (coherent : h.Coherent) : ∀ it ∈ h.captured, it = (v.owner h).entry := by
  intro it captured
  cases h with
  | readRequest source m iterator next =>
    obtain ⟨entry, same⟩ := coherent
    change it ∈ source.entry :: iterator :: next.captured at captured
    rw [next.captured_source, same, entry] at captured
    simpa [owner] using captured
  | readResponse source m iterator next =>
    obtain ⟨entry, same⟩ := coherent
    change it ∈ source.entry :: iterator :: next.captured at captured
    rw [next.captured_source, same, entry] at captured
    simpa [owner] using captured
  | send dest m iterator next =>
    obtain ⟨entry, follows⟩ := coherent
    change it ∈ dest.entry :: iterator :: next.captured at captured
    rcases List.mem_cons.mp captured with same | captured
    · exact same
    · rcases List.mem_cons.mp captured with same | captured
      · exact same.trans entry
      · exact next.captured_dest follows it captured
  | connectTransfer conn side inMessage outMessage =>
    cases side <;> simpa [owner, Handler.captured, Side.elem, ElemRef.entry] using captured
  | listener => cases captured
  | notifier => cases captured
  | timer => cases captured
  | _ => exact List.mem_singleton.mp captured

end Registry

namespace Proxy

variable {timer notifier listener : Fd}

/-- The element of an installed handler owns its descriptor, and every entry that the
handler captured is in the queue. -/
structure Live (s : Proxy) (fd : Fd) (h : Handler) : Prop where
  owns : (s.elem (s.view.owner h)).map (·.fd) = some fd
  captured : ∀ it ∈ h.captured, s.live it = true

theorem Live.of_owned {s : Proxy} (own : s.view.Owned) {fd : Fd} {h : Handler}
    (installed : s.handlers fd = some h) : s.Live fd h := by
  obtain ⟨coherent, owner⟩ := own.owns installed
  constructor
  · rw [← view_fd]
    exact owner
  · intro it captured
    rw [Registry.captured_owner (v := s.view) coherent it captured, ← view_alive]
    exact Registry.alive_of_fd owner

/-- Between two events every installed handler is live. -/
theorem handlers_live (opens : Opens timer notifier listener) (events : List Event) (t : Proxy)
    (ran : Runs.run step (init timer notifier listener) events = .ok t) (fd : Fd) (h : Handler)
    (installed : t.handlers fd = some h) : t.Live fd h := by
  have own := run_owned opens ran
  exact Live.of_owned own installed

/-- The client 6 gets a server and leaves, the client 8 expires, and the response to the
client 10 is transferred. -/
def gainsAndLoses : List Event :=
  [accepts 6, receives 6 (postTo (lit "h")), resolves 7, connects 7, accepts 8, leaves 6, accepts 10,
    receives 10 (postTo (lit "g")), resolves 11, connects 11,
    { fd := 11, state := .OUT, io := { quiet with write := some BUFFER_LENGTH } }, expires 120]

theorem handlers_live_accepted :
    ∃ t, Runs.run step (init 3 4 5) gainsAndLoses = .ok t ∧ (∀ fd ∈ [6, 7, 8], t.handlers fd = none) ∧
      ∀ fd ∈ [10, 11], ∃ h, t.handlers fd = some h ∧ h.captured ≠ [] ∧ t.Live fd h := by
  obtain ⟨t, ran, there⟩ : ∃ t, Runs.run step (init 3 4 5) gainsAndLoses = .ok t ∧
      ([6, 7, 8].all (fun fd => (t.handlers fd).isNone) &&
        [10, 11].all fun fd => (t.handlers fd).any fun h => h.captured ≠ []) = true := Runs.run_any (by decide +kernel)
  simp only [Bool.and_eq_true, List.all_eq_true, Option.isNone_iff_eq_none] at there
  refine ⟨t, ran, there.1, fun fd member => ?_⟩
  obtain ⟨h, installed, captures⟩ := Option.any_eq_true _ _ |>.mp (there.2 fd member)
  exact ⟨h, installed, of_decide_eq_true captures, handlers_live opens_345 gainsAndLoses t ran fd h installed⟩

end Proxy

end ProxyServer
