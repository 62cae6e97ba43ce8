import ProxyServer.Server.Admission
import ProxyServer.Server.Resolution

/-!
# Where requests go

A request is sent on a connection whose server was found for the host that the request
names: when the connection is new, when it is used again, when a cached response is
validated and when the client is connected anew.
-/

namespace ProxyServer

namespace Proxy

/-- The server of the connection was found for the host, and for no other. -/
structure ServerFound (s : Proxy) (c : ConnId) (host : Bytes) : Prop where
  found : .connected c host ∈ s.trace
  only : ∀ other, .connected c other ∈ s.trace → other = host

/-- What is written of a request and what is left of it is its header, of which `host`
is the first Host value, and a body. -/
structure Carries (s : Proxy) (m : MsgId) (host : Bytes) : Prop where
  text : ∃ body, sentOf s.trace (.request m) ++ (s.requests m).unsent = (s.requests m).getHeader.print ++ body
  named : (s.requests m).getHeader.getProperty (lit "host") = host

/-- A handler that writes a request writes it to the server of a connection that was
found for the host that the request carries. -/
def RequestsRouted (s : Proxy) : Prop :=
  ∀ fd dest m iterator next, s.handlers fd = some (.send dest (.request m) iterator next) →
    ∃ c conn host, dest = .server c ∧ s.connections.get c = some conn ∧ conn.server.fd = fd ∧
      s.ServerFound c host ∧ s.Carries m host

variable {timer notifier listener : Fd} {s : Proxy} {c : ConnId} {m : MsgId} {fd : Fd}

theorem carries_headed {next : AfterSend} {dest : ElemRef} {bytes : Bytes}
    (headed : next.Headed (s.requests m).getHeader) (follows : s.view.ledger.Follows bytes next)
    (coherent : next.Follows dest) (rest : sentOf s.trace (.request m) ++ (s.requests m).unsent = bytes) :
    ∃ c host, dest = .server c ∧ s.view.ledger.Connected c host ∧ s.Carries m host := by
  obtain ⟨same, further⟩ := coherent
  cases next with
  | readResponse dest' iterator next =>
    cases next with
    | handleValidationResponse c rqst cached =>
      obtain ⟨_, text, routed⟩ := follows
      obtain ⟨_, source⟩ := further
      have server : .server c = dest := source
      refine ⟨c, _, server.symm, routed.connected, ?_, ?_⟩
      · refine ⟨[], ?_⟩
        rw [rest, text, headed, List.append_nil]
        rfl
      · rw [headed]
        exact makeValidateHeader_host rqst.getHeader cached.getHeader
  | startTransfer c rqst =>
    obtain ⟨text, routed⟩ := follows
    have server : .server c = dest := same
    obtain ⟨body, whole, _⟩ := routed.whole.text
    refine ⟨c, _, server.symm, routed.connected, ?_, ?_⟩
    · refine ⟨body, ?_⟩
      rw [rest, text, headed]
      exact whole
    · rw [headed]
  | _ => exact headed.elim

/-- Whatever the run, requests go to servers of the hosts that they name. -/
theorem requests_routed (opens : Opens timer notifier listener) (events : List Event) (t : Proxy)
    (ran : Runs.run step (init timer notifier listener) events = .ok t) : t.RequestsRouted := by
  have along : Runs.Along step (Careful {}) (init timer notifier listener) events :=
    Runs.Along.always (fun s event => careful_always s event)
  have sound := run_sound opens (fun _ => trivial) along ran
  intro fd dest m iterator next installed
  obtain ⟨⟨_, headed⟩, bytes, seen, follows⟩ := sound.relies (h := .send dest (.request m) iterator next) installed
  obtain ⟨⟨_, coherent⟩, owner⟩ := sound.own.owns (h := .send dest (.request m) iterator next) installed
  obtain ⟨c, host, rfl, connected, carries⟩ := carries_headed headed follows coherent (sound.recorded.sending seen).rest
  have server : (t.connections.get c).map (·.server.fd) = some fd := by
    have here : t.view.fd? (.server c) = some fd := owner
    rw [view_fd] at here
    simpa [elem] using here
  obtain ⟨conn, live, same⟩ := Option.map_eq_some_iff.mp server
  exact ⟨c, conn, host, rfl, live, same, ⟨connected, (sound.recorded.numbered c host connected).2⟩, carries⟩

/-! ### A request that is sent -/

def sendsRequest : Handler → Bool
  | .send _ (.request _) _ _ => true
  | _ => false

/-- A client has its request sent to a server, and then another one, for another host. -/
def twoHosts : List Event :=
  [accepts 6, receives 6 (getFrom (lit "g")), resolves 7, connects 7, sends 7,
    receives 7 (lit "HTTP/1.1 200 OK\r\nContent-Length: 0\r\n\r\n"), sends 6, receives 6 (getFrom (lit "h")),
    resolves 7, connects 7]

theorem second_request_routed :
    ∃ t, Runs.run step (init 3 4 5) twoHosts = .ok t ∧ (t.handlers 7).any sendsRequest = true ∧
      t.RequestsRouted := by
  obtain ⟨t, ran, sending⟩ : ∃ t, Runs.run step (init 3 4 5) twoHosts = .ok t ∧
      (t.handlers 7).any sendsRequest = true := Runs.run_any (by decide +kernel)
  exact ⟨t, ran, sending, requests_routed opens_345 twoHosts t ran⟩

end Proxy

end ProxyServer
