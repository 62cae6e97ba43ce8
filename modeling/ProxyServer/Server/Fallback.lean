import ProxyServer.Server.Resolution

/-!
# The addresses of a name

A server is tried at the addresses of its name while the connection is refused. What
moves on to the next address is the copy of the handler that was dispatched, and the
handler that stays installed tries the second address again. When `connect` fails at once,
the addresses that are left are not tried.
-/

namespace ProxyServer

open Wp

/-- The address that was tried with the descriptor `server`. -/
def Obs.attempt (server : Fd) : Obs → Option UInt32
  | .attempted fd address => if fd = server then some address.ip else none
  | _ => none

def Ledger.attempts (d : Ledger) (server : Fd) : List UInt32 := d.trace.filterMap (·.attempt server)

/-- `connect` fails at once. -/
def Io.Aborts (io : Io) : Prop := io.connect ≠ 0 ∧ io.connect ≠ EINPROGRESS

instance (io : Io) : Decidable io.Aborts := inferInstanceAs (Decidable (_ ∧ _))

/-- The connection is refused or the network cannot be reached. -/
structure Event.Refuses (event : Event) (server : Fd) : Prop where
  fd : event.fd = server
  stays : event.state.is .RDHUP = false
  failed : event.state.is Proxy.hupOrError = true
  code : event.io.soError = some ENETUNREACH ∨ event.io.soError = some ECONNREFUSED

structure Event.Establishes (event : Event) (server : Fd) : Prop where
  fd : event.fd = server
  stays : event.state.is .RDHUP = false
  fine : event.state.is Proxy.hupOrError = false
  output : event.state.is .OUT = true

namespace Proxy

open Registry

def attempts (s : Proxy) (server : Fd) : List UInt32 := s.view.ledger.attempts server

/-- The addresses of the name that the client `key.1` waits for arrive, and `server` is to
connect. -/
structure Begins (s : Proxy) (event : Event) (key : Fd × Bytes) (server : Fd) : Prop where
  notifier : s.handlers event.fd = some .notifier
  input : event.state.is .IN = true
  queued : s.resolving[event.io.resolved]? = some key
  pending : (s.onResolve key).isSome = true
  some_address : event.io.ips ≠ []
  descriptor : event.io.newFd = some server

/-- The client `fd` is being sent the 404. -/
def Sends404 (s : Proxy) (fd : Fd) : Prop :=
  ∃ id m, s.handlers fd = some (.send (.sock id) (.response m) (.sock id) (.close404 id)) ∧
    s.view.ledger.unsent (.response m) = notFound.unsent

/-- How many attempts fail: each that is refused, and each for which `connect` fails, be it
the first or the next after one that is refused. -/
def failures (event : Event) (refusals : List Event) : Nat :=
  refusals.length + (event :: refusals).countP (·.io.Aborts)

/-- The refusals up to the first after which `connect` fails. -/
def retries : List Event → Nat
  | [] => 0
  | e :: refusals => if e.io.Aborts then 1 else retries refusals + 1

/-- From the state `s` on, the addresses were tried in their order as long as they failed,
and then the client was sent the 404. -/
structure TriesInOrder (s t : Proxy) (client server : Fd) (ips : List UInt32) (failures : Nat) : Prop where
  tried : t.attempts server = s.attempts server ++ ips.take (failures + 1)
  dismissed : ips.length ≤ failures → t.Sends404 client

end Proxy

namespace Registry

/-- The server of the connection `c` is connecting. -/
structure Connecting (v : Registry) (key : Fd × Bytes) (server : Fd) (c : ConnId) (l : Link) (ip : ResolvedIp) : Prop where
  own : v.Owned
  live : v.connection c = some l
  peer : l.server = server
  client : l.client.fd = key.1
  handler : v.handlers server = some (.serverConnect c ip)
  same : (ip.socket, ip.host) = key
  pending : (v.onResolve key).isSome = true

/-- The attempt is over, and the client is being sent the 404. -/
def GaveUp (v : Registry) (client server : Fd) : Prop :=
  v.handlers server = none ∧ ∃ id m,
    v.handlers client = some (.send (.sock id) (.response m) (.sock id) (.close404 id)) ∧
      v.ledger.unsent (.response m) = Proxy.notFound.unsent

end Registry

namespace Proxy

open Registry

variable {v : Registry} {key : Fd × Bytes} {server : Fd} {c : ConnId} {l : Link} {ip : ResolvedIp} {io : Io}
  {state : FdState} {event : Event}

abbrev Any (_ : Fault) : Prop := True

theorem attempts_observe {d : Ledger} {o : Obs} :
    (d.observe o).attempts server = d.attempts server ++ (o.attempt server).toList := by
  unfold Ledger.attempts Ledger.observe
  rw [List.filterMap_append]
  cases tried : o.attempt server <;> simp [tried]

theorem attempts_connect {d : Ledger} {host : Bytes} : (d.connect host).attempts server = d.attempts server := by
  unfold Ledger.attempts Ledger.connect
  rw [List.filterMap_append]
  exact List.append_nil _

theorem attempts_queued {d d' : Ledger} {f : Fd} {ref : MessageRef} {bytes : Bytes} (queued : d.Queued d' f ref bytes) :
    d'.attempts server = d.attempts server := by
  unfold Ledger.attempts
  rw [queued.trace, List.filterMap_append]
  exact List.append_nil _

/-- The first address is tried. -/
theorem acts_begins (own : v.Owned) (input : state.is .IN = true)
    (queued : v.resolving[io.resolved]? = some key) (pending : (v.onResolve key).isSome = true)
    (some_address : io.ips ≠ []) (descriptor : io.newFd = some server) :
    Acts Any (onNotifier state io) (fun _ w =>
      w.ledger.attempts server = v.ledger.attempts server ++ io.ips.take 1 ∧ (io.Aborts → w.GaveUp key.1 server) ∧
        (¬io.Aborts → ∃ c l ip, w.Connecting key server c l ip ∧ ip.ips = io.ips)) v := by
  apply Acts.whenever
  · intro _
    apply Acts.get
    intro _ _
    apply Acts.bind (acts_service _ trivial _)
    apply Acts.bind (acts_newDescriptor io trivial _ (fun _ => Acts.throw trivial))
    intro d opened present unowned
    obtain rfl : server = d := by simpa [descriptor] using opened
    apply Acts.bind (acts_getIp trivial _)
    intro ip answer ips
    obtain rfl : (ip.socket, ip.host) = key := by
      rw [queued] at answer
      simpa [eq_comm] using answer
    apply Acts.get
    intro s same
    apply Acts.get
    intro s' same'
    have query : s'.onResolve = v.onResolve := congrArg Registry.onResolve same'
    obtain ⟨q, found⟩ := Option.isSome_iff_exists.mp pending
    rw [query, found]
    apply Acts.bind (acts_derefClient (fun _ => trivial) _)
    intro id client
    obtain ⟨e, live, keyed⟩ := (findId_view (d := ip.socket) same).1 id client
    rw [if_neg (by rw [ips]; exact some_address)]
    apply Acts.bind (acts_observe _ _)
    have live : v.socket id = some e := live
    have socket : ip.socket = e.client.fd := by rw [← keyed, own.keyed live]
    have moved := (own.dequeue (v.resolving.eraseIdx io.resolved)).withLedger
      (v.ledger.observe (.attempted server ip.getIp))
    have tried : (v.ledger.observe (.attempted server ip.getIp)).attempts server =
        v.ledger.attempts server ++ io.ips.take 1 := by
      rw [attempts_observe, Obs.attempt, if_pos rfl, ← ips]
      rw [← ips] at some_address
      obtain ⟨first, more, list⟩ := List.exists_cons_of_ne_nil some_address
      rw [ResolvedIp.getIp, list]
      rfl
    by_cases aborts : io.Aborts
    · rw [if_pos (show io.connect ≠ 0 ∧ io.connect ≠ EINPROGRESS from aborts)]
      have owner : v.fd? (.sock id) = some ip.socket := by simp [Registry.fd?, live, socket]
      have owner' : ((v.dequeue (v.resolving.eraseIdx io.resolved)).withLedger
          (v.ledger.observe (.attempted server ip.getIp))).fd? (.sock id) = some ip.socket := by
        rw [fd?_withLedger]
        exact owner
      apply Acts.bind (acts_sendResponse owner' (own.present owner) notFound _ io _)
      intro d queued _
      refine acts_erasePending _ ⟨?_, fun _ => ⟨?_, id, v.ledger.nextMessage, ?_, ?_⟩, fun starts => absurd aborts starts⟩
      · exact (attempts_queued queued).trans tried
      · -- The descriptor is nobody's, so it has no handler.
        show (if server = ip.socket then _ else v.handlers server) = none
        rw [if_neg fun same : server = ip.socket => unowned (.sock id) (same ▸ owner)]
        cases installed : v.handlers server with
        | none => rfl
        | some h => exact absurd (own.owns installed).2 (unowned _)
      · exact if_pos rfl
      · exact queued.unsent
    · rw [if_neg (show ¬(io.connect ≠ 0 ∧ io.connect ≠ EINPROGRESS) from aborts)]
      apply acts_startConnection moved live present
      intro c _ fresh
      have linkable : ((v.dequeue (v.resolving.eraseIdx io.resolved)).withLedger
          ((v.ledger.observe (.attempted server ip.getIp)).connect ip.host)).Linkable id c e server
            (ip.copy io.unset) :=
        ⟨live, fresh, present, fun r => by rw [fd?_withLedger]; exact unowned r, socket⟩
      refine ⟨?_, fun fails => absurd fails aborts, fun _ => ⟨c, ⟨e.client, server, false⟩, ip.copy io.unset, ?_, ips⟩⟩
      · exact attempts_connect.trans tried
      · constructor
        · exact (moved.withLedger _).link linkable
        · simp [Registry.link]
        · rfl
        · exact socket.symm
        · simp [Registry.link]
        · rfl
        · exact pending
  · intro closed
    rw [input] at closed
    cases closed

/-- What the handler does for an attempt that was refused, up to the next address. -/
theorem acts_refused {Q : Unit → Registry → Prop} (connecting : v.Connecting key server c l ip)
    (stays : state.is .RDHUP = false) (failed : state.is hupOrError = true)
    (code : io.soError = some ENETUNREACH ∨ io.soError = some ECONNREFUSED) (port : UInt16)
    (last : ip.ips.tail = [] → Acts Any (giveUp c key (v.onResolve key) io) Q v)
    (more : ip.ips.tail ≠ [] → Acts Any
      (if io.connect ≠ 0 ∧ io.connect ≠ EINPROGRESS then giveUp c key (v.onResolve key) io else pure ()) Q
      (v.withLedger (v.ledger.observe (.attempted server (ip.copy port).nextIp.getIp)))) :
    Acts Any (onServerConnect c (ip.copy port) state io) Q v := by
  obtain ⟨own, live, peer, client, handler, same, pending⟩ := connecting
  have here : v.fd? (.server c) = some server := by simp [Registry.fd?, live, peer]
  apply Acts.bind (acts_getElem _ (fun _ => trivial))
  intro elem owner
  rw [here] at owner
  cases owner
  apply Acts.bind (acts_setActive _ (fun _ => trivial))
  apply Acts.get
  intro s view
  have query : s.onResolve = v.onResolve := by rw [← view]; rfl
  show Acts Any (if state.is .RDHUP then _ else if state.is hupOrError then _ else _) Q v
  rw [if_neg (by rw [stays]; exact Bool.false_ne_true), if_pos failed, query]
  apply Acts.bind (acts_touch _ (fun _ => trivial))
  intro _
  have found : ∃ code, io.soError = some code ∧ (code = ENETUNREACH ∨ code = ECONNREFUSED) := by
    rcases code with code | code
    · exact ⟨_, code, Or.inl rfl⟩
    · exact ⟨_, code, Or.inr rfl⟩
  obtain ⟨code, found, refused⟩ := found
  rw [found]
  dsimp only
  rw [if_pos refused]
  subst same
  by_cases done : ip.ips.tail = []
  · rw [if_pos (show (ip.copy port).nextIp.ips = [] from done)]
    exact last done
  · rw [if_neg (show ¬(ip.copy port).nextIp.ips = [] from done)]
    exact Acts.bind (acts_observe _ (more done))

theorem acts_gaveUp {d : Ledger} (connecting : v.Connecting key server c l ip) :
    Acts Any (giveUp c key (v.onResolve key) io)
      (fun _ w => w.GaveUp key.1 server ∧ w.ledger.attempts server = d.attempts server) (v.withLedger d) := by
  obtain ⟨own, live, peer, client, handler, same, pending⟩ := connecting
  have own' := own.withLedger d
  have live' : (v.withLedger d).connection c = some l := live
  apply acts_giveUp own' live' (fun _ => trivial)
  intro n d' fresh queued
  have different := own.server_ne live
  have present : server ≠ 0 := own.present (r := .server c) (by simp [Registry.fd?, live, peer])
  rw [client] at different
  rw [peer] at different
  refine ⟨⟨?_, n, d.nextMessage, ?_, ?_⟩, ?_⟩
  · simp [Registry.setHandler, Registry.withLedger, Registry.addSocket, Registry.eraseConnection, release,
      unpend, client, peer, different.symm, present]
  · simp [Registry.setHandler, client]
  · exact queued.unsent
  · exact attempts_queued queued

/-- After a refusal the next address is tried. -/
theorem acts_retries (connecting : v.Connecting key server c l ip) (stays : state.is .RDHUP = false)
    (failed : state.is hupOrError = true) (code : io.soError = some ENETUNREACH ∨ io.soError = some ECONNREFUSED)
    (port : UInt16) {next : UInt32} {more : List UInt32} (ips : ip.ips.tail = next :: more) :
    Acts Any (onServerConnect c (ip.copy port) state io) (fun _ w =>
      w.ledger.attempts server = v.ledger.attempts server ++ [next] ∧ (io.Aborts → w.GaveUp key.1 server) ∧
        (¬io.Aborts → w.Connecting key server c l ip)) v := by
  have tried : (v.ledger.observe (.attempted server (ip.copy port).nextIp.getIp)).attempts server =
      v.ledger.attempts server ++ [next] := by
    rw [attempts_observe, Obs.attempt, if_pos rfl]
    have head : (ip.copy port).nextIp.getIp.ip = next := by
      unfold ResolvedIp.getIp ResolvedIp.nextIp ResolvedIp.copy
      dsimp only
      rw [ips]
    rw [head]
    rfl
  apply acts_refused connecting stays failed code port
  · intro none
    rw [ips] at none
    cases none
  · intro _
    by_cases aborts : io.Aborts
    · rw [if_pos (show io.connect ≠ 0 ∧ io.connect ≠ EINPROGRESS from aborts)]
      apply (acts_gaveUp connecting).mono
      intro _ w given
      obtain ⟨gone, attempts⟩ := given
      exact ⟨attempts.trans tried, fun _ => gone, fun goes => absurd aborts goes⟩
    · rw [if_neg (show ¬(io.connect ≠ 0 ∧ io.connect ≠ EINPROGRESS) from aborts)]
      apply Acts.pure
      obtain ⟨own, live, peer, client, handler, same, pending⟩ := connecting
      exact ⟨tried, fun fails => absurd fails aborts,
        fun _ => ⟨own.withLedger _, live, peer, client, handler, same, pending⟩⟩

theorem refused_last (connecting : v.Connecting key server c l ip) (stays : state.is .RDHUP = false)
    (failed : state.is hupOrError = true) (code : io.soError = some ENETUNREACH ∨ io.soError = some ECONNREFUSED)
    (port : UInt16) (ips : ip.ips.tail = []) :
    Acts Any (onServerConnect c (ip.copy port) state io) (fun _ w => w.GaveUp key.1 server ∧
      w.ledger.attempts server = v.ledger.attempts server) v := by
  apply acts_refused connecting stays failed code port
  · intro _
    exact acts_gaveUp (d := v.ledger) connecting
  · intro some
    exact absurd ips some

theorem sends_attempts (server : Fd) (io : Io) (own : v.Owned) {r : ElemRef} {f : Fd} (owner : v.fd? r = some f) (m : ClientRequest)
    (it : EntryRef) (next : AfterSend) : Acts Any (sendRequest r m it next io) (fun _ w =>
      w.ledger.attempts server = v.ledger.attempts server) v := by
  apply acts_sendRequest owner (own.present owner)
  intro d queued _
  exact attempts_queued queued

theorem handleClientRequest_attempts (server : Fd) (io : Io) (own : v.Owned) (live : v.connection c = some l)
    (rqst : ClientRequest) :
    Acts Any (handleClientRequest rqst c io) (fun _ w => w.ledger.attempts server = v.ledger.attempts server) v := by
  have client : v.fd? (.client c) = some l.client.fd := by simp [Registry.fd?, live]
  have peer : v.fd? (.server c) = some l.server := by simp [Registry.fd?, live]
  have observes : ∀ {w : Registry} {o : Obs}, w.ledger.attempts server = v.ledger.attempts server →
      o.attempt server = none → Acts Any (observe o)
        (fun _ w => w.ledger.attempts server = v.ledger.attempts server) w := by
    intro w o same other
    apply acts_observe
    show (w.ledger.observe o).attempts server = _
    rw [attempts_observe, other, same]
    exact List.append_nil _
  apply Acts.get
  intro s _
  split
  · exact Acts.throw trivial
  · rename_i request cached _
    apply Acts.bind (acts_touch _ (fun _ => trivial))
    intro _
    apply Acts.bind
    apply (sends_attempts server io own peer request (.conn c) _).mono
    intro _ w same
    exact observes same rfl
  · apply acts_sendResponse client (own.present client)
    intro d queued _
    exact attempts_queued queued
  · apply Acts.bind
    apply (sends_attempts server io own peer rqst (.conn c) _).mono
    intro _ w same
    exact observes same rfl

/-- What the handler does when the server is connected, up to the action that waits for it. -/
theorem acts_established {Q : Unit → Registry → Prop} {pending : Pending} (own : v.Owned) (live : v.connection c = some l)
    (found : v.onResolve (ip.socket, ip.host) = some pending) (stays : state.is .RDHUP = false)
    (fine : state.is hupOrError = false) (port : UInt16) (quiet : state.is .OUT = false → Q () v)
    (runs : ∀ latest, Acts Any (pending.next.run c io) Q ((v.establish c l (ip.socket, ip.host)).withLedger
      (v.ledger.observe (.established latest pending.call)))) : Acts Any (onServerConnect c (ip.copy port) state io) Q v := by
  apply Acts.bind (acts_getElem _ (fun _ => trivial))
  intro _ _
  apply Acts.bind (acts_setActive _ (fun _ => trivial))
  apply Acts.get
  intro s view
  show Acts Any (if state.is .RDHUP then _ else if state.is hupOrError then _ else _) _ v
  rw [if_neg (by rw [stays]; exact Bool.false_ne_true), if_neg (by rw [fine]; exact Bool.false_ne_true)]
  apply Acts.whenever
  · intro _
    apply Acts.bind (acts_touch _ (fun _ => trivial))
    intro _
    have query : s.onResolve = v.onResolve := by rw [← view]; rfl
    have copied : v.onResolve ((ip.copy port).socket, (ip.copy port).host) = some pending := found
    simp only [query, copied]
    apply Acts.bind (acts_erasePending _ _)
    refine Acts.bind (acts_updateState _ ?_ (fun zero => own.present (r := .client c) zero rfl) (fun _ => trivial))
    refine Acts.bind (acts_updateState _ ?_ (fun zero => own.present (r := .server c) zero rfl) (fun _ => trivial))
    apply Acts.bind (acts_changeTimeout _ (fun _ => trivial))
    intro l' live'
    obtain rfl : l = l' := by simpa [Registry.unpend, live] using live'
    apply Acts.bind (acts_getElem _ (fun _ => trivial))
    intro e _
    apply Acts.bind (acts_observe _ _)
    exact runs e.call
  · exact quiet

theorem established_attempts (connecting : v.Connecting key server c l ip) (stays : state.is .RDHUP = false)
    (fine : state.is hupOrError = false) (port : UInt16) :
    Acts Any (onServerConnect c (ip.copy port) state io) (fun _ w =>
      w.ledger.attempts server = v.ledger.attempts server) v := by
  obtain ⟨own, live, peer, client, handler, same, pending⟩ := connecting
  subst same
  obtain ⟨q, found⟩ := Option.isSome_iff_exists.mp pending
  apply acts_established own live found stays fine port (fun _ => rfl)
  intro latest
  have quiet : (v.ledger.observe (.established latest q.call)).attempts server = v.ledger.attempts server := by
    rw [attempts_observe]
    exact List.append_nil _
  have established : (v.establish c l (ip.socket, ip.host)).Owned := own.establish live
  have moved := established.withLedger (v.ledger.observe (.established latest q.call))
  have linked : ((v.establish c l (ip.socket, ip.host)).withLedger
      (v.ledger.observe (.established latest q.call))).connection c = some { l with established := true } := by
    simp [establish, Registry.withLedger]
  cases q.next with
  | handleClientRequest rqst =>
    apply (handleClientRequest_attempts server io moved linked rqst).mono
    intro _ w same
    exact same.trans quiet
  | fastTransfer rqst =>
    have peer : ((v.establish c l (ip.socket, ip.host)).withLedger
        (v.ledger.observe (.established latest q.call))).fd? (.server c) = some l.server := by
      simp [Registry.fd?, linked]
    apply (sends_attempts server io moved peer rqst (.conn c) _).mono
    intro _ w same
    exact same.trans quiet

/-! ### Runs of outcomes -/

/-- The attempts of which `refusals` are refused, and at the end one may succeed. -/
structure Outcomes (server : Fd) (refusals last : List Event) : Prop where
  refused : ∀ e ∈ refusals, e.Refuses server
  established : last = [] ∨ ∃ e, last = [e] ∧ e.Establishes server

variable {s t : Proxy} {refusals last : List Event} {events : List Event}

theorem gaveUp_run (gone : s.view.GaveUp key.1 server) (same : ∀ e ∈ events, e.fd = server)
    (ran : Runs.run step s events = .ok t) : t = s := by
  induction events generalizing s with
  | nil =>
    cases ran
    rfl
  | cons e events ih =>
    obtain ⟨s', stepped, later⟩ := Runs.run_cons.mp ran
    have none : s.handlers e.fd = none := by
      rw [same e List.mem_cons_self]
      exact gone.1
    have stayed := step_none none stepped
    subst stayed
    exact ih gone (fun e more => same e (List.mem_cons_of_mem _ more)) later

theorem begins_step (own : s.view.Owned) (begins : s.Begins event key server) (stepped : s.step event = .ok t) :
    t.attempts server = s.attempts server ++ event.io.ips.take 1 ∧
      (event.io.Aborts → t.view.GaveUp key.1 server) ∧
      (¬event.io.Aborts → ∃ c l ip, t.view.Connecting key server c l ip ∧ ip.ips = event.io.ips) := by
  have acts : Acts Any (Handler.notifier.run event.state event.io) _ s.view := acts_begins own begins.input
    begins.queued begins.pending begins.some_address begins.descriptor
  exact step_acts begins.notifier acts stepped

theorem refusals_next {next : UInt32} {more : List UInt32} (connecting : s.view.Connecting key server c l ip)
    (ips : ip.ips.tail = next :: more) (refused : ∀ e ∈ refusals, e.Refuses server)
    (ran : Runs.run step s refusals = .ok t) :
    t.attempts server = s.attempts server ++ List.replicate (retries refusals) next ∧
      ((∃ e ∈ refusals, e.io.Aborts) → t.view.GaveUp key.1 server) ∧
      ((∀ e ∈ refusals, ¬e.io.Aborts) → t.view.Connecting key server c l ip) := by
  induction refusals generalizing s with
  | nil =>
    cases ran
    exact ⟨(List.append_nil _).symm, nofun, fun _ => connecting⟩
  | cons e refusals ih =>
    obtain ⟨s', stepped, ran⟩ := Runs.run_cons.mp ran
    obtain ⟨fd, stays, failed, code⟩ := refused e List.mem_cons_self
    have refused' := fun e later => refused e (List.mem_cons_of_mem _ later)
    have installed : s.handlers e.fd = some (.serverConnect c ip) := by
      rw [fd]
      exact connecting.handler
    have acts : Acts Any ((Handler.serverConnect c ip).run e.state e.io) _ s.view :=
      acts_retries connecting stays failed code e.io.unset ips
    obtain ⟨attempts, gone, goes⟩ := step_acts installed acts stepped
    have attempts : s'.attempts server = s.attempts server ++ [next] := attempts
    by_cases aborts : e.io.Aborts
    · have same : t = s' := gaveUp_run (gone aborts) (fun e later => (refused' e later).fd) ran
      subst same
      rw [retries, if_pos aborts]
      exact ⟨attempts, fun _ => gone aborts, fun never => absurd aborts (never e List.mem_cons_self)⟩
    · obtain ⟨attempts', gone', goes'⟩ := ih (goes aborts) refused' ran
      rw [retries, if_neg aborts]
      refine ⟨?_, ?_, fun never => goes' fun e later => never e (List.mem_cons_of_mem _ later)⟩
      · rw [attempts', attempts, List.append_assoc]
        rfl
      · rintro ⟨e', member, fails⟩
        rcases List.mem_cons.mp member with same | later
        · exact absurd (same ▸ fails) aborts
        · exact gone' ⟨e', later, fails⟩

theorem refusals_last {e : Event} (connecting : s.view.Connecting key server c l ip) (ips : ip.ips.tail = [])
    (refused : e.Refuses server) (stepped : s.step e = .ok t) :
    t.view.GaveUp key.1 server ∧ t.attempts server = s.attempts server := by
  obtain ⟨fd, stays, failed, code⟩ := refused
  have installed : s.handlers e.fd = some (.serverConnect c ip) := by
    rw [fd]
    exact connecting.handler
  have acts : Acts Any ((Handler.serverConnect c ip).run e.state e.io) _ s.view :=
    refused_last connecting stays failed code e.io.unset ips
  exact step_acts installed acts stepped

theorem established_step {e : Event} (connecting : s.view.Connecting key server c l ip)
    (established : e.Establishes server) (stepped : s.step e = .ok t) : t.attempts server = s.attempts server := by
  obtain ⟨fd, stays, fine, _⟩ := established
  have installed : s.handlers e.fd = some (.serverConnect c ip) := by
    rw [fd]
    exact connecting.handler
  have acts : Acts Any ((Handler.serverConnect c ip).run e.state e.io) _ s.view :=
    established_attempts connecting stays fine e.io.unset
  exact step_acts installed acts stepped

theorem Outcomes.same (outcomes : Outcomes server refusals last) : ∀ e ∈ refusals ++ last, e.fd = server := by
  intro e member
  rcases List.mem_append.mp member with refused | established
  · exact (outcomes.refused e refused).fd
  · rcases outcomes.established with none | ⟨e', same, there⟩
    · rw [none] at established
      cases established
    · rw [same] at established
      obtain rfl := List.mem_singleton.mp established
      exact there.fd

theorem outcomes_one {only : UInt32} (connecting : s.view.Connecting key server c l ip) (ips : ip.ips = [only])
    (outcomes : Outcomes server refusals last) (ran : Runs.run step s (refusals ++ last) = .ok t) :
    t.attempts server = s.attempts server ∧ (1 ≤ refusals.length → t.Sends404 key.1) := by
  have same := outcomes.same
  cases refusals with
  | nil =>
    refine ⟨?_, fun some => absurd some (by simp)⟩
    rcases outcomes.established with none | ⟨e, same, established⟩
    · subst none
      cases ran
      rfl
    · subst same
      obtain ⟨s', stepped, ran⟩ := Runs.run_cons.mp ran
      cases ran
      exact established_step connecting established stepped
  | cons e refusals =>
    obtain ⟨s', stepped, ran⟩ := Runs.run_cons.mp ran
    have tail : ip.ips.tail = [] := by rw [ips]; rfl
    obtain ⟨gone, attempts⟩ := refusals_last connecting tail (outcomes.refused e List.mem_cons_self) stepped
    obtain rfl : t = s' := gaveUp_run gone (fun e later => same e (List.mem_cons_of_mem _ later)) ran
    exact ⟨attempts, fun _ => gone.2⟩

theorem outcomes_more {next : UInt32} {more : List UInt32} (connecting : s.view.Connecting key server c l ip)
    (ips : ip.ips.tail = next :: more) (outcomes : Outcomes server refusals last)
    (ran : Runs.run step s (refusals ++ last) = .ok t) :
    t.attempts server = s.attempts server ++ List.replicate (retries refusals) next ∧
      ((∃ e ∈ refusals, e.io.Aborts) → t.Sends404 key.1) := by
  have same := outcomes.same
  obtain ⟨s', ran, ran'⟩ := Runs.run_append.mp ran
  obtain ⟨attempts, gone, goes⟩ := refusals_next connecting ips outcomes.refused ran
  by_cases aborts : ∃ e ∈ refusals, e.io.Aborts
  · obtain rfl : t = s' := gaveUp_run (gone aborts) (fun e later => same e (List.mem_append_right _ later)) ran'
    exact ⟨attempts, fun _ => (gone aborts).2⟩
  · refine ⟨?_, fun fails => absurd fails aborts⟩
    rcases outcomes.established with none | ⟨e, same, established⟩
    · subst none
      cases ran'
      exact attempts
    · subst same
      obtain ⟨s'', stepped, ran'⟩ := Runs.run_cons.mp ran'
      cases ran'
      have connecting' := goes fun e member fails => aborts ⟨e, member, fails⟩
      rw [established_step connecting' established stepped, attempts]

theorem failures_none (starts : ¬event.io.Aborts) (goes : ¬∃ e ∈ refusals, e.io.Aborts) :
    failures event refusals = refusals.length ∧ retries refusals = refusals.length := by
  constructor
  · unfold failures
    rw [List.countP_eq_zero.mpr]
    · exact Nat.add_zero _
    · intro e member
      rw [decide_eq_true_eq]
      rcases List.mem_cons.mp member with same | later
      · exact same ▸ starts
      · exact fun fails => goes ⟨e, later, fails⟩
  · induction refusals with
    | nil => rfl
    | cons e refusals ih =>
      rw [retries, if_neg fun fails => goes ⟨e, List.mem_cons_self, fails⟩,
        ih fun ⟨e, later, fails⟩ => goes ⟨e, List.mem_cons_of_mem _ later, fails⟩]
      rfl

theorem retries_le : retries refusals ≤ refusals.length := by
  induction refusals with
  | nil => exact Nat.le_refl _
  | cons e refusals ih =>
    rw [retries, List.length_cons]
    split <;> omega

/-- One more attempt fails than there are retries. -/
theorem retries_lt_failures (fails : ∃ e ∈ refusals, e.io.Aborts) : retries refusals < failures event refusals := by
  obtain ⟨e, member, fails⟩ := fails
  have most : retries refusals ≤ refusals.length := retries_le
  have some : 0 < (event :: refusals).countP (·.io.Aborts) :=
    List.countP_pos_iff.mpr ⟨e, List.mem_cons_of_mem _ member, decide_eq_true fails⟩
  unfold failures
  omega

/-- Trying the second address again and again is in order when it is what follows. -/
theorem replicate_take {ips : List UInt32} {a next : UInt32} {more : List UInt32} {k : Nat}
    (list : ips = a :: next :: more) : a :: List.replicate k next = ips.take (k + 1) ↔
      k < ips.length ∧ ∀ i, 2 ≤ i → i ≤ k → ips[i]? = ips[1]? := by
  have second : ips[1]? = some next := by rw [list]; rfl
  have later : ∀ i, (a :: List.replicate k next)[i + 1]? = if i < k then some next else none := by
    intro i
    rw [List.getElem?_cons_succ, List.getElem?_replicate]
  constructor
  · intro same
    have length := congrArg List.length same
    rw [List.length_cons, List.length_replicate, List.length_take] at length
    refine ⟨by omega, ?_⟩
    intro i two bound
    obtain ⟨j, rfl⟩ := Nat.exists_eq_succ_of_ne_zero (show i ≠ 0 by omega)
    have here := congrArg (fun list => list[j + 1]?) same
    rw [later, if_pos (by omega), List.getElem?_take_of_lt (by omega)] at here
    rw [second, here]
  · rintro ⟨bound, same⟩
    apply List.ext_getElem?
    intro i
    cases i with
    | zero =>
      rw [list]
      rfl
    | succ j =>
      rw [later, List.getElem?_take]
      by_cases inside : j < k
      · rw [if_pos inside, if_pos (by omega)]
        by_cases first : j = 0
        · rw [first, second]
        · rw [same (j + 1) (by omega) (by omega), second]
      · rw [if_neg inside, if_neg (by omega)]

variable {timer notifier listener : Fd}

/-- The addresses are tried in order, and the client is sent the 404 at their end, when
there is one of them, or the retries do not get past the second one but for addresses that
are equal to it, and if `connect` fails for one of them it is the last. -/
theorem tries_in_order_iff (opens : Opens timer notifier listener) (before : List Event)
    (reached : Runs.run step (init timer notifier listener) before = .ok s) (begins : s.Begins event key server)
    (outcomes : Outcomes server refusals last)
    (ran : Runs.run step s (event :: (refusals ++ last)) = .ok t) :
    s.TriesInOrder t key.1 server event.io.ips (failures event refusals) ↔
      event.io.ips.length = 1 ∨ (¬event.io.Aborts ∧ retries refusals < event.io.ips.length ∧
        ((∃ e ∈ refusals, e.io.Aborts) → event.io.ips.length = retries refusals + 1) ∧
        ∀ i, 2 ≤ i → i ≤ retries refusals → event.io.ips[i]? = event.io.ips[1]?) := by
  have own := run_owned opens reached
  obtain ⟨s', stepped, ran⟩ := Runs.run_cons.mp ran
  obtain ⟨first, gone, goes⟩ := begins_step own begins stepped
  obtain ⟨a, rest, list⟩ := List.exists_cons_of_ne_nil begins.some_address
  have start : s'.attempts server = s.attempts server ++ [a] := by rw [first, list]; rfl
  by_cases starts : event.io.Aborts
  · -- The client is sent the 404 after one attempt.
    obtain rfl : t = s' := gaveUp_run (gone starts) outcomes.same ran
    rw [or_iff_left fun goes => goes.1 starts]
    have some : 0 < (event :: refusals).countP (·.io.Aborts) :=
      List.countP_pos_iff.mpr ⟨event, List.mem_cons_self, decide_eq_true starts⟩
    constructor
    · intro tries
      have length := congrArg List.length (List.append_cancel_left (start.symm.trans tries.tried))
      rw [List.length_singleton, List.length_take] at length
      unfold failures at length
      omega
    · intro one
      refine ⟨?_, fun _ => (gone starts).2⟩
      rw [start, List.take_of_length_le (by omega)]
      obtain rfl : rest = [] := List.length_eq_zero_iff.mp (by rw [list, List.length_cons] at one; omega)
      rw [list]
  obtain ⟨c, l, ip, connecting, ips⟩ := goes starts
  rw [list] at ips
  cases rest with
  | nil =>
    obtain ⟨attempts, dismissed⟩ := outcomes_one connecting ips outcomes ran
    refine iff_of_true ?_ (Or.inl (by rw [list]; rfl))
    constructor
    · rw [attempts, start, list, List.take_of_length_le (Nat.le_add_left 1 _)]
    · rw [list]
      intro all
      apply dismissed
      by_contra none
      obtain rfl : refusals = [] := List.length_eq_zero_iff.mp (by omega)
      simp [failures, starts] at all
  | cons next more =>
    have tail : ip.ips.tail = next :: more := by rw [ips]; rfl
    obtain ⟨attempts, dismissed⟩ := outcomes_more connecting tail outcomes ran
    rw [start, List.append_assoc] at attempts
    have several : ¬event.io.ips.length = 1 := by rw [list]; simp
    rw [or_iff_right several, and_iff_right starts]
    have repeats := replicate_take (k := retries refusals) list
    by_cases fails : ∃ e ∈ refusals, e.io.Aborts
    · have more : retries refusals < failures event refusals := retries_lt_failures fails
      rw [forall_prop_of_true fails]
      constructor
      · intro tries
        have tried := List.append_cancel_left (attempts.symm.trans tries.tried)
        have length := congrArg List.length tried
        rw [List.singleton_append, List.length_cons, List.length_replicate, List.length_take] at length
        have all : event.io.ips.length = retries refusals + 1 := by omega
        rw [List.take_of_length_le (by omega), ← List.take_of_length_le (Nat.le_of_eq all)] at tried
        obtain ⟨bound, same⟩ := repeats.mp tried
        exact ⟨bound, all, same⟩
      · rintro ⟨bound, all, same⟩
        refine ⟨?_, fun _ => dismissed fails⟩
        rw [attempts, List.take_of_length_le (by omega), ← List.take_of_length_le (Nat.le_of_eq all)]
        exact congrArg _ (repeats.mpr ⟨bound, same⟩)
    · obtain ⟨each, once⟩ := failures_none starts fails
      have counted : failures event refusals = retries refusals := each.trans once.symm
      rw [counted]
      constructor
      · intro tries
        obtain ⟨bound, same⟩ := repeats.mp (List.append_cancel_left (attempts.symm.trans tries.tried))
        exact ⟨bound, fun aborts => absurd aborts fails, same⟩
      · rintro ⟨bound, _, same⟩
        refine ⟨?_, fun all => by omega⟩
        rw [attempts]
        exact congrArg _ (repeats.mpr ⟨bound, same⟩)

/-! ### A client whose server refuses -/

/-- The oldest result of the resolver has these addresses, and the first is under way. -/
def resolvesTo (server : Fd) (ips : List UInt32) : Event :=
  { resolves server with io := { quiet with newFd := some server, ips, connect := EINPROGRESS } }

/-- What `connect` returns for a socket whose last attempt was refused. -/
def ECONNABORTED : Nat := 103

def refuses (server : Fd) : Event :=
  { fd := server, state := .union .HUP .OUT,
    io := { quiet with soError := some ECONNREFUSED, connect := ECONNABORTED } }

theorem refuses_refuses (server : Fd) : (refuses server).Refuses server := by
  constructor
  · rfl
  · rfl
  · rfl
  · exact Or.inr rfl

theorem refuses_outcomes : Outcomes 7 [refuses 7] [] := by
  refine ⟨fun e refused => ?_, Or.inl rfl⟩
  rw [List.mem_singleton.mp refused]
  exact refuses_refuses 7

/-- The client 6 waits for the addresses of the host `h`. -/
def waits : List Event := [accepts 6, receives 6 (postTo (lit "h"))]

def Waiting (s : Proxy) : Bool :=
  (match s.handlers 4 with
    | some .notifier => true
    | _ => false) &&
    s.resolving[0]? = some (6, lit "h") && (s.onResolve (6, lit "h")).isSome && s.attempts 7 = []

theorem waits_begins {s : Proxy} (waiting : s.Waiting = true) {ips : List UInt32} (some_address : ips ≠ []) :
    s.Begins (resolvesTo 7 ips) (6, lit "h") 7 ∧ s.attempts 7 = [] := by
  simp only [Waiting, Bool.and_eq_true, decide_eq_true_eq] at waiting
  obtain ⟨⟨⟨notifier, queued⟩, pending⟩, quiet⟩ := waiting
  refine ⟨⟨?_, rfl, queued, pending, some_address, rfl⟩, quiet⟩
  show s.handlers 4 = some .notifier
  split at notifier
  · assumption
  · cases notifier

theorem waits_reached : ∃ s, Runs.run step (init 3 4 5) waits = .ok s ∧ s.Waiting = true :=
  Runs.run_any (by decide +kernel)

/-- The first of two addresses is refused and the second fails at once, and the client is
sent the 404. -/
theorem two_addresses_in_order : ∃ s t, Runs.run step (init 3 4 5) waits = .ok s ∧
    Runs.run step s [resolvesTo 7 [1, 2], refuses 7] = .ok t ∧ s.TriesInOrder t 6 7 [1, 2] 2 := by
  obtain ⟨t, ran⟩ : ∃ t, Runs.run step (init 3 4 5) (waits ++ [resolvesTo 7 [1, 2], refuses 7]) = .ok t :=
    Runs.run_ends (by decide +kernel)
  obtain ⟨s, reached, ran⟩ := Runs.run_append.mp ran
  obtain ⟨s', reached', waiting⟩ := waits_reached
  rw [reached] at reached'
  cases reached'
  have begins := (waits_begins waiting (List.cons_ne_nil 1 [2])).1
  refine ⟨s, t, reached, ran,
    (tries_in_order_iff opens_345 waits reached begins refuses_outcomes ran).mpr (Or.inr ⟨?_, ?_, ?_, ?_⟩)⟩
  · decide
  · exact Nat.lt_succ_self 1
  · exact fun _ => rfl
  · intro i two one
    exact absurd (two.trans one) (Nat.lt_irrefl 1)

/-- Of three addresses the first is refused and the second fails at once, and the third is
not tried before the client is sent the 404. -/
theorem third_address_not_tried : ¬∀ (timer notifier listener : Fd) (before refusals last : List Event)
    (event : Event) (s t : Proxy) (key : Fd × Bytes) (server : Fd), Opens timer notifier listener →
      Runs.run step (init timer notifier listener) before = .ok s → s.Begins event key server →
      Outcomes server refusals last → Runs.run step s (event :: (refusals ++ last)) = .ok t →
      s.TriesInOrder t key.1 server event.io.ips (failures event refusals) := by
  intro claim
  obtain ⟨t, ran, tried⟩ : ∃ t, Runs.run step (init 3 4 5)
      (waits ++ [resolvesTo 7 [1, 2, 3], refuses 7]) = .ok t ∧
        decide (t.attempts 7 = [1, 2]) = true := Runs.run_any (by decide +kernel)
  obtain ⟨s, reached, ran⟩ := Runs.run_append.mp ran
  obtain ⟨s', reached', waiting⟩ := waits_reached
  rw [reached] at reached'
  cases reached'
  obtain ⟨begins, quiet⟩ := waits_begins waiting (List.cons_ne_nil 1 [2, 3])
  have order := (claim 3 4 5 waits _ _ _ s t (6, lit "h") 7 opens_345 reached begins refuses_outcomes ran).tried
  rw [quiet, of_decide_eq_true tried] at order
  cases order

end Proxy

end ProxyServer
