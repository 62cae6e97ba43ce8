import ProxyServer.Exchange.Steps

/-!
# The server runs the exchanges

In every run of the loop a connection goes through the exchanges of the machine, from where
its server is connected up to where it is left or its client connects anew.
-/

namespace ProxyServer

open Wp

/-! ### A new connection -/

/-- Nothing is left to be read of the server when its client connects anew. -/
def ExchangePhase.Spent (unread : Bytes) : ExchangePhase → Prop
  | .reconnecting _ => unread = []
  | .awaiting _ | .sending _ _ | .validating _ _ _ | .transferring _ _ | .answering _ _ _ _ | .left => True

namespace KeptAlive

variable {s s' : KeptAlive} {rqst : ClientRequest} {cached resp : ServerResponse} {garbage : Bytes} {call : KeptAliveCall}

theorem spent_handleClientRequest (handled : s.handleClientRequest rqst garbage = .ok s') : s'.phase.Spent s'.unread := by
  unfold handleClientRequest at handled
  split at handled
  · cases handled
  · cases handled
    trivial
  · cases handled
    trivial
  · cases handled
    trivial

theorem spent_handleValidationResponse (handled : s.handleValidationResponse rqst cached resp garbage = .ok s') :
    s'.phase.Spent s'.unread := by
  unfold handleValidationResponse at handled
  split at handled
  · cases handled
    trivial
  · split at handled
    · cases handled
      rfl
    · cases handled
  · split at handled
    · cases handled
      trivial
    · cases handled

theorem spent_serverIn {n : Nat} (stepped : s.serverIn n garbage = .ok s') : s'.phase.Spent s'.unread := by
  unfold serverIn at stepped
  split at stepped
  · obtain ⟨⟨m, t⟩, _, stepped⟩ := Runs.bind_ok.mp stepped
    dsimp only at stepped
    split at stepped
    · exact spent_handleValidationResponse stepped
    · cases stepped
      trivial
  · obtain ⟨⟨m, t⟩, _, stepped⟩ := Runs.bind_ok.mp stepped
    dsimp only at stepped
    split at stepped
    · unfold transferred at stepped
      split at stepped
      · cases stepped
        trivial
      · cases stepped
    · cases stepped
      trivial
  · cases stepped

theorem spent_clientOut {accepted : Nat} (stepped : s.clientOut accepted = .ok s') : s'.phase.Spent s'.unread := by
  unfold clientOut at stepped
  split at stepped
  · rename_i phase
    split at stepped
    · obtain ⟨_, _, stepped⟩ := Runs.bind_ok.mp stepped
      cases stepped
      trivial
    · cases stepped
      rw [phase]
      trivial
  · rename_i closing phase
    obtain ⟨_, _, stepped⟩ := Runs.bind_ok.mp stepped
    dsimp only at stepped
    split at stepped
    · split at stepped
      · cases stepped
        cases closing
        · trivial
        · trivial
      · cases stepped
    · cases stepped
      trivial
  · cases stepped

theorem spent_step (spent : s.phase.Spent s.unread) (stepped : s.step call = .ok s') : s'.phase.Spent s'.unread := by
  cases call with
  | request rqst garbage =>
    dsimp only [step] at stepped
    split at stepped
    · split at stepped
      · split at stepped
        · exact spent_handleClientRequest stepped
        · cases stepped
          trivial
      · cases stepped
    · cases stepped
  | share cache =>
    cases stepped
    exact spent
  | serverOut accepted answer garbage =>
    dsimp only [step] at stepped
    split at stepped
    · rename_i next phase
      split at stepped
      · split at stepped
        · cases stepped
          cases next with
          | validate rqst cached => trivial
          | transfer rqst => trivial
        · cases stepped
          trivial
      · cases stepped
    · cases stepped
  | serverIn n garbage => exact spent_serverIn stepped
  | clientOut accepted => exact spent_clientOut stepped
  | reconnected garbage =>
    dsimp only [step] at stepped
    split at stepped
    · cases stepped
      trivial
    · cases stepped
  | close =>
    cases stepped
    trivial

theorem spent_run {calls : List KeptAliveCall} (spent : s.phase.Spent s.unread) (ran : Runs.run step s calls = .ok s') :
    s'.phase.Spent s'.unread :=
  Runs.invariant (I := fun s => s.phase.Spent s.unread) spent (fun _ _ _ spent stepped => spent_step spent stepped) ran

end KeptAlive

/-! ### Where exchanges begin -/

namespace Proxy

open Registry

variable {a : ConnId → Nat → Answer} {v : Registry} {c : ConnId} {base : Began} {k : KeptAlive} {l : Link} {ip : ResolvedIp}
  {pending : Pending} {io : Io} {state : FdState} {socket : Fd} {host : Bytes} {rqst : ClientRequest}

/-- The exchange `k` goes on at a connection that is new. -/
theorem poised_connected (own : v.Owned) (live : v.connection c = some l) (unspoken : v.ledger.Unspoken c)
    (known : c < v.ledger.nextConnection) (key : Fd × Bytes) (latest : Option Nat) (ran : Nat) (cache : k.cache = v.ledger.cache)
    (unread : k.unread = []) (server : base.server = givenTo v.ledger.trace l.server) (asked : k.asked <:+ base.asked)
    (given : givenTo v.ledger.trace l.client.fd = base.client ++ k.done.flatMap (·.delivered) ++ k.written) :
    Poised a c l.client.fd base k ((v.establish c l key).withLedger (v.ledger.observe (.established latest ran))) := by
  have silent : Silent c v.ledger (v.ledger.observe (.established latest ran)) := silent_observe (fun _ => rfl) fun _ => rfl
  have owner : ∀ r, ((v.establish c l key).withLedger (v.ledger.observe (.established latest ran))).fd? r = v.fd? r := by
    intro r
    rw [fd?_withLedger, fd?_establish live]
  constructor
  · exact (own.establish live).withLedger _
  · rw [owner]
    simp [Registry.fd?, live]
  · constructor
    · exact cache.symm
    · intro _
      rw [withLedger_ledger, silent.said, unspoken, unread]
      rfl
    · intro f' here
      rw [owner] at here
      obtain rfl : l.server = f' := by simpa [Registry.fd?, live] using here
      refine ⟨[], ?_, ?_⟩
      · rw [withLedger_ledger, silent.given, server, List.append_nil]
      · rwa [List.append_nil]
    · exact known
  · exact (silent.given _).trans given

/-- The first request that is made on a connection. -/
theorem follows_connected (own : v.Owned) (live : v.connection c = some l) (unspoken : v.ledger.Unspoken c)
    (known : c < v.ledger.nextConnection) (client : v.handlers l.client.fd = some (.connecting c socket host))
    (found : v.onResolve (ip.socket, ip.host) = some pending) (next : pending.next = .handleClientRequest rqst)
    (whole : rqst.isRead = true) (stays : state.is .RDHUP = false) (fine : state.is hupOrError = false)
    (output : state.is .OUT = true) (io : Io) (port : UInt16) :
    Acts Any (onServerConnect c (ip.copy port) state io) (fun _ w => ∃ k,
      (KeptAlive.start (rqst.getHeader.getProperty (lit "host")) v.ledger.cache).step (.request rqst io.garbage) = .ok k ∧
        w.Follows a c l.client.fd ⟨givenTo v.ledger.trace l.client.fd, givenTo v.ledger.trace l.server, []⟩ k) v := by
  apply acts_established own live found stays fine port
  · intro quiet
    rw [output] at quiet
    cases quiet
  · intro latest
    rw [next]
    have begins : Poised a c l.client.fd ⟨givenTo v.ledger.trace l.client.fd, givenTo v.ledger.trace l.server, []⟩
        { KeptAlive.start (rqst.getHeader.getProperty (lit "host")) v.ledger.cache with requests := [rqst] } _ :=
      poised_connected own live unspoken known (ip.socket, ip.host) latest pending.call rfl rfl rfl List.nil_suffix
        (by simp [KeptAlive.start])
    apply (follows_handleClientRequest begins rfl client (.connecting socket host)).mono
    rintro _ w ⟨k, handled, follows⟩
    exact ⟨k, KeptAlive.step_requested rfl whole ((if_pos rfl).trans handled), follows⟩

/-- The request for which the client connected anew. -/
theorem follows_reconnected (own : v.Owned) (live : v.connection c = some l) (unspoken : v.ledger.Unspoken c)
    (known : c < v.ledger.nextConnection) (client : v.handlers l.client.fd = some (.connecting c socket host))
    (found : v.onResolve (ip.socket, ip.host) = some pending) (next : pending.next = .fastTransfer rqst)
    (phase : k.phase = .reconnecting rqst) (unread : k.unread = []) (server : base.server = givenTo v.ledger.trace l.server)
    (asked : k.asked <:+ base.asked)
    (given : givenTo v.ledger.trace l.client.fd = base.client ++ k.done.flatMap (·.delivered) ++ k.written)
    (stays : state.is .RDHUP = false) (fine : state.is hupOrError = false) (output : state.is .OUT = true) (io : Io)
    (port : UInt16) : Acts Any (onServerConnect c (ip.copy port) state io) (fun _ w => w.Goes a c l.client.fd base k) v := by
  apply acts_established own live found stays fine port
  · intro quiet
    rw [output] at quiet
    cases quiet
  · intro latest
    rw [next]
    have begins := poised_connected (a := a) (k := { k with cache := v.ledger.cache }) own live unspoken known
      (ip.socket, ip.host) latest pending.call rfl unread server asked given
    apply (follows_sendRequest (.transfer rqst) begins client (.connecting socket host)).mono
    intro _ w follows
    refine ⟨[.share v.ledger.cache, .reconnected io.garbage], _, ?_, follows⟩
    have stepped : ({ k with cache := v.ledger.cache } : KeptAlive).step (.reconnected io.garbage) = .ok
        { k with cache := v.ledger.cache, phase := .sending (rqst.transferred io.garbage) (.transfer rqst) } := by
      unfold KeptAlive.step
      simp only [phase]
    exact Runs.run_cons.mpr ⟨_, rfl, Runs.run_cons.mpr ⟨_, stepped, rfl⟩⟩

end Proxy

namespace EpollCore

open Registry

variable {a : ConnId → Nat → Answer} {l m : EpollCore} {turn : Turn} {turns : List Turn} {c : ConnId} {f : Fd} {base : Began}
  {k : KeptAlive}

/-- What is read of servers in the turn is some of what they answer next. -/
def tells (a : ConnId → Nat → Answer) (l : EpollCore) : Turn → Bool
  | .handle io _ => l.events.head?.all fun (fd, state) =>
    l.proxy.readsAnswers (fun c n => (a c n).bytes) ⟨fd, state, io⟩ && l.proxy.readsSome ⟨fd, state, io⟩
  | _ => true

theorem follows_turn (attended : l.Attended) (regular : l.proxy.Regular) (tells : l.tells a turn = true)
    (follows : l.proxy.view.Follows a c f base k) (going : ¬k.phase.Over) (taken : l.turn turn = .ok m) :
    m.proxy.view.Goes a c f base k := by
  cases turned taken with
  | wait events idle => exact follows.stays
  | interrupt idle => exact follows.stays
  | signal io signo left next => exact follows.stays
  | handle io signo next stepped =>
    obtain ⟨dispatched, _, _⟩ := batch_rest next attended.once
    simp only [EpollCore.tells, next, List.head?_cons, Option.all_some, Bool.and_eq_true] at tells
    exact Proxy.follows_step regular attended.staged dispatched tells.1 tells.2 follows going stepped

theorem regular_turn (regular : l.proxy.Regular) (taken : l.turn turn = .ok m) : m.proxy.Regular := by
  cases turned taken with
  | wait events idle => exact regular
  | interrupt idle => exact regular
  | signal io signo left next => exact regular
  | handle io signo next stepped => exact regular.step stepped

/-- The exchanges from `k` on are made in the turns: in all of them, or in those up to where the
connection is left or its client connects anew. -/
def Exchanges (a : ConnId → Nat → Answer) (c : ConnId) (f : Fd) (base : Began) (k : KeptAlive) (l : EpollCore)
    (turns : List Turn) : Prop :=
  ∃ first rest m calls k', turns = first ++ rest ∧ Runs.run EpollCore.turn l first = .ok m ∧
    Runs.run KeptAlive.step k calls = .ok k' ∧ m.proxy.view.Follows a c f base k' ∧ (rest = [] ∨ k'.phase.Over)

theorem Exchanges.after {calls : List KeptAliveCall} {k' : KeptAlive} (rest : Exchanges a c f base k' m turns)
    (taken : l.turn turn = .ok m) (called : Runs.run KeptAlive.step k calls = .ok k') :
    Exchanges a c f base k l (turn :: turns) := by
  obtain ⟨first, rest, m', calls', k'', rfl, ran, called', ends⟩ := rest
  refine ⟨turn :: first, rest, m', calls ++ calls', k'', rfl, ?_, ?_, ends⟩
  · exact Runs.run_cons.mpr ⟨m, taken, ran⟩
  · exact Runs.run_append.mpr ⟨k', called, called'⟩

/-- So do those that are watched. -/
theorem Exchanges.watched {w : Watched} (exchanges : Exchanges a c f base w.connection l turns) :
    ∃ first rest m calls w', turns = first ++ rest ∧ Runs.run EpollCore.turn l first = .ok m ∧
      Runs.run Watched.step w calls = .ok w' ∧ m.proxy.view.Follows a c f base w'.connection ∧
        (rest = [] ∨ w'.connection.phase.Over) := by
  obtain ⟨first, rest, m, calls, k', split, ran, called, follows, ends⟩ := exchanges
  obtain ⟨w', watched, rfl⟩ := Watched.watched called
  exact ⟨first, rest, m, calls, w', split, ran, watched, follows, ends⟩

theorem follows_run {l' : EpollCore} (attended : l.Attended) (regular : l.proxy.Regular)
    (faithful : Runs.Along EpollCore.turn Faithful l turns)
    (tells : Runs.Along EpollCore.turn (fun l turn => l.tells a turn = true) l turns)
    (ran : Runs.run EpollCore.turn l turns = .ok l') (follows : l.proxy.view.Follows a c f base k) :
    Exchanges a c f base k l turns := by
  induction turns generalizing l k with
  | nil => exact ⟨[], [], l, [], k, rfl, rfl, rfl, follows, Or.inl rfl⟩
  | cons turn turns ih =>
    by_cases going : k.phase.Over
    · exact ⟨[], turn :: turns, l, [], k, rfl, rfl, rfl, follows, Or.inr going⟩
    · obtain ⟨m, taken, ran⟩ := Runs.run_cons.mp ran
      obtain ⟨calls, k₁, called, follows⟩ := follows_turn attended regular tells.1 follows going taken
      exact (ih (attended_turn attended faithful.1 taken) (regular_turn regular taken) (faithful.2 m taken) (tells.2 m taken)
        ran follows).after taken called

/-! ### From the connection to the server on -/

/-- The server of the connection `c` is connected: the event is next, and `pending` waits for it. -/
structure Connects (l : EpollCore) (c : ConnId) (ip : ResolvedIp) (fd : Fd) (state : FdState) (pending : Pending) : Prop where
  next : l.events.head? = some (fd, state)
  other : fd ≠ l.signal
  server : l.proxy.handlers fd = some (.serverConnect c ip)
  found : l.proxy.onResolve (ip.socket, ip.host) = some pending
  stays : state.is .RDHUP = false
  fine : state.is Proxy.hupOrError = false
  output : state.is .OUT = true

variable {ip : ResolvedIp} {fd : Fd} {state : FdState} {pending : Pending} {rqst : ClientRequest} {io : Io} {signo : Option Nat}

/-- The client of the connection still waits for that. -/
theorem Connects.client (connects : l.Connects c ip fd state pending) (attended : l.Attended) :
    ∃ socket host, l.proxy.handlers ip.socket = some (.connecting c socket host) := by
  have own := attended.sound.own
  have server : l.proxy.view.fd? (.server c) = some fd := (own.owns connects.server).2
  have client : l.proxy.view.fd? (.client c) = some ip.socket := own.server connects.server
  obtain ⟨conn, here, same⟩ : ∃ conn, l.proxy.connections.get c = some conn ∧ conn.server.fd = fd := by
    simpa [Registry.fd?, Proxy.view, Connection.view] using server
  have peer : conn.client.fd = ip.socket := by simpa [Registry.fd?, Proxy.view, Connection.view, here] using client
  obtain ⟨h, h', installed, installed', stage⟩ := attended.connection here
  rw [peer] at installed
  rw [same] at installed'
  cases connects.server.symm.trans installed'
  have dispatched : l.batch.output conn.server.watch.fd = true := by
    obtain ⟨events, next⟩ := List.head?_eq_some_iff.mp connects.next
    show (l.events.lookup conn.server.fd).any _ = true
    rw [next, same, List.lookup_cons_self, Option.any_some, ← Proxy.is_output]
    exact connects.output
  obtain ⟨socket, host, rfl⟩ := stage.connecting_of_output dispatched
  exact ⟨socket, host, installed⟩

theorem Connects.link (connects : l.Connects c ip fd state pending) (attended : l.Attended) :
    ∃ x, l.proxy.view.connection c = some x ∧ x.client.fd = ip.socket ∧ x.server = fd ∧
      c < l.proxy.view.ledger.nextConnection := by
  have own := attended.sound.own
  have server : l.proxy.view.fd? (.server c) = some fd := (own.owns connects.server).2
  have client : l.proxy.view.fd? (.client c) = some ip.socket := own.server connects.server
  obtain ⟨x, live, peer⟩ : ∃ x, l.proxy.view.connection c = some x ∧ x.server = fd := by simpa [Registry.fd?] using server
  obtain ⟨conn, here, _⟩ := Option.map_eq_some_iff.mp live
  exact ⟨x, live, by simpa [Registry.fd?, live] using client, peer, Store.get_lt here⟩

theorem Connects.step (connects : l.Connects c ip fd state pending) (taken : l.turn (.handle io signo) = .ok m) :
    l.proxy.step ⟨fd, state, io⟩ = .ok m.proxy := by
  obtain ⟨events, next⟩ := List.head?_eq_some_iff.mp connects.next
  cases turned taken with
  | signal io signo left here =>
    rw [next] at here
    cases here
    exact absurd rfl connects.other
  | handle io signo here stepped =>
    rw [next] at here
    cases here
    exact stepped

/-- The server is connected for the first request on the connection. -/
theorem exchanges_begin (connects : l.Connects c ip fd state pending) (attended : l.Attended)
    (next : pending.next = .handleClientRequest rqst) (taken : l.turn (.handle io signo) = .ok m) :
    ∃ k, (KeptAlive.start (rqst.getHeader.getProperty (lit "host")) l.proxy.cache).step (.request rqst io.garbage) = .ok k ∧
      m.proxy.view.Follows a c ip.socket ⟨givenTo l.proxy.trace ip.socket, givenTo l.proxy.trace fd, []⟩ k := by
  obtain ⟨x, live, same, rfl, known⟩ := connects.link attended
  obtain ⟨socket, host, client⟩ := connects.client attended
  obtain ⟨_, unspoken⟩ : l.proxy.view.ledger.Connected c ip.host ∧ l.proxy.view.ledger.Unspoken c :=
    attended.sound.relies connects.server
  have whole := (attended.sound.asked connects.found).whole.isRead
  rw [next] at whole
  rw [← same] at client ⊢
  have acts := Proxy.follows_connected (a := a) attended.sound.own live unspoken known client connects.found next whole
    connects.stays connects.fine connects.output io io.unset
  exact Proxy.step_acts connects.server acts (connects.step taken)

/-- The server is connected for the request for which the client connected anew. -/
theorem exchanges_go_on (connects : l.Connects c ip fd state pending) (attended : l.Attended)
    (next : pending.next = .fastTransfer rqst) (phase : k.phase = .reconnecting rqst) (unread : k.unread = [])
    (server : base.server = givenTo l.proxy.trace fd) (asked : k.asked <:+ base.asked)
    (given : givenTo l.proxy.trace ip.socket = base.client ++ k.done.flatMap (·.delivered) ++ k.written)
    (taken : l.turn (.handle io signo) = .ok m) : m.proxy.view.Goes a c ip.socket base k := by
  obtain ⟨x, live, same, rfl, known⟩ := connects.link attended
  obtain ⟨socket, host, client⟩ := connects.client attended
  obtain ⟨_, unspoken⟩ : l.proxy.view.ledger.Connected c ip.host ∧ l.proxy.view.ledger.Unspoken c :=
    attended.sound.relies connects.server
  rw [← same] at client given ⊢
  have acts := Proxy.follows_reconnected (a := a) attended.sound.own live unspoken known client connects.found next phase
    unread server asked given connects.stays connects.fine connects.output io io.unset
  exact Proxy.step_acts connects.server acts (connects.step taken)

variable {timer notifier listener signal : Fd} {before : List Turn}

theorem run_regular (opens : Proxy.Opens timer notifier listener)
    (ran : Runs.run EpollCore.turn (init timer notifier listener signal) before = .ok l) : l.proxy.Regular := by
  obtain ⟨events, ran⟩ := runs ran
  exact Proxy.run_regular opens ran

/-- Whatever the loop does with a connection is what its exchanges do: from the event on with which its server is connected,
in every run in which servers send answers. -/
theorem exchanges_refined {m : EpollCore} (opens : Proxy.Opens timer notifier listener)
    (registered : Runs.Along EpollCore.turn Faithful (init timer notifier listener signal) before)
    (reached : Runs.run EpollCore.turn (init timer notifier listener signal) before = .ok l)
    (connects : l.Connects c ip fd state pending) (next : pending.next = .handleClientRequest rqst)
    (faithful : Runs.Along EpollCore.turn Faithful l (.handle io signo :: turns))
    (tells : Runs.Along EpollCore.turn (fun l turn => l.tells a turn = true) l (.handle io signo :: turns))
    (ran : Runs.run EpollCore.turn l (.handle io signo :: turns) = .ok m) :
    Exchanges a c ip.socket ⟨givenTo l.proxy.trace ip.socket, givenTo l.proxy.trace fd, []⟩
      (.start (rqst.getHeader.getProperty (lit "host")) l.proxy.cache) l (.handle io signo :: turns) := by
  have attended := run_attended opens registered reached
  have regular := run_regular opens reached
  obtain ⟨l', taken, ran⟩ := Runs.run_cons.mp ran
  obtain ⟨k, stepped, follows⟩ := exchanges_begin connects attended next taken
  have called : Runs.run KeptAlive.step (.start (rqst.getHeader.getProperty (lit "host")) l.proxy.cache)
      [.request rqst io.garbage] = .ok k := Runs.run_cons.mpr ⟨k, stepped, rfl⟩
  exact (follows_run (attended_turn attended faithful.1 taken) (regular_turn regular taken) (faithful.2 l' taken)
    (tells.2 l' taken) ran follows).after taken called

/-- A POST is waiting for the server 7 of its host. -/
def awaited : List Turn :=
  singly [Proxy.accepts 6, Proxy.receives 6 (Proxy.postTo (lit "h")), Proxy.resolves 7] ++ [.wait [(7, .OUT)]]

/-- The server is connected, sent the request and read, and the client is given its response. -/
def answered : List Turn :=
  .handle Proxy.quiet none :: singly [Proxy.sends 7, Proxy.receives 7 KeptAlive.v1.bytes, Proxy.sends 6]

def Awaited (l : EpollCore) : Bool :=
  match l.proxy.handlers 7, l.proxy.onResolve (6, lit "h") with
  | some (.serverConnect 0 ip), some { next := .handleClientRequest rqst, .. } =>
    ip.socket = 6 && ip.host = lit "h" && rqst.getHeader.getProperty (lit "host") = lit "h"
  | _, _ => false

theorem exchanges_refined_page : ∃ l m, Runs.run EpollCore.turn (init 3 4 5 8) awaited = .ok l ∧
    Runs.run EpollCore.turn l answered = .ok m ∧ givenTo m.proxy.trace 6 = KeptAlive.v1.forwarded ∧
      ∃ cache, Exchanges (fun _ _ => KeptAlive.v1) 0 6 ⟨[], [], []⟩ (.start (lit "h") cache) l answered := by
  obtain ⟨l, reached, holds⟩ : ∃ l, Runs.run EpollCore.turn (init 3 4 5 8) awaited = .ok l ∧
      (l.Awaited && decide (l.events.head? = some (7, .OUT)) && decide (l.signal = 8) &&
        decide (givenTo l.proxy.trace 6 = []) && decide (givenTo l.proxy.trace 7 = []) &&
        decide (Runs.Along EpollCore.turn Faithful l answered) &&
        decide (Runs.Along EpollCore.turn (fun l turn => l.tells (fun _ _ => KeptAlive.v1) turn = true) l answered) &&
        (Runs.run EpollCore.turn l answered).toOption.any fun m => givenTo m.proxy.trace 6 = KeptAlive.v1.forwarded) = true :=
    Runs.run_any (by decide +kernel)
  simp only [Bool.and_eq_true, decide_eq_true_eq] at holds
  obtain ⟨⟨⟨⟨⟨⟨⟨waits, next⟩, signal⟩, client⟩, server⟩, faithful⟩, tells⟩, ends⟩ := holds
  obtain ⟨m, ran, given⟩ := Runs.ok_any ends
  refine ⟨l, m, reached, ran, of_decide_eq_true given, l.proxy.cache, ?_⟩
  unfold Awaited at waits
  split at waits
  · rename_i ip call rqst installed found
    simp only [Bool.and_eq_true, decide_eq_true_eq] at waits
    obtain ⟨⟨socket, host⟩, named⟩ := waits
    have connects : l.Connects 0 ip 7 .OUT { call, next := .handleClientRequest rqst } := by
      constructor
      · exact next
      · rw [signal]
        decide
      · exact installed
      · rw [socket, host]
        exact found
      · rfl
      · rfl
      · rfl
    have refined := exchanges_refined Proxy.opens_345 (by decide +kernel) reached connects rfl faithful tells ran
    rw [socket, client, server, named] at refined
    exact refined
  · cases waits

/-- And so they go on when the client has connected anew. -/
theorem exchanges_reconnected {m : EpollCore} {client host : Bytes} {cache : Cache} {calls : List KeptAliveCall}
    (opens : Proxy.Opens timer notifier listener)
    (registered : Runs.Along EpollCore.turn Faithful (init timer notifier listener signal) before)
    (reached : Runs.run EpollCore.turn (init timer notifier listener signal) before = .ok l)
    (connects : l.Connects c ip fd state pending) (next : pending.next = .fastTransfer rqst)
    (made : Runs.run KeptAlive.step (.start host cache) calls = .ok k) (phase : k.phase = .reconnecting rqst)
    (given : givenTo l.proxy.trace ip.socket = client ++ k.done.flatMap (·.delivered) ++ k.written)
    (faithful : Runs.Along EpollCore.turn Faithful l (.handle io signo :: turns))
    (tells : Runs.Along EpollCore.turn (fun l turn => l.tells a turn = true) l (.handle io signo :: turns))
    (ran : Runs.run EpollCore.turn l (.handle io signo :: turns) = .ok m) :
    Exchanges a c ip.socket ⟨client, givenTo l.proxy.trace fd, k.asked⟩ k l (.handle io signo :: turns) := by
  have attended := run_attended opens registered reached
  have regular := run_regular opens reached
  have spent : k.phase.Spent k.unread := KeptAlive.spent_run (s := .start host cache) trivial made
  rw [phase] at spent
  obtain ⟨l', taken, ran⟩ := Runs.run_cons.mp ran
  have goes : l'.proxy.view.Goes a c ip.socket ⟨client, givenTo l.proxy.trace fd, k.asked⟩ k :=
    exchanges_go_on connects attended next phase spent rfl (List.suffix_refl _) given taken
  obtain ⟨calls, k', called, follows⟩ := goes
  exact (follows_run (attended_turn attended faithful.1 taken) (regular_turn regular taken) (faithful.2 l' taken)
    (tells.2 l' taken) ran follows).after taken called

end EpollCore

end ProxyServer
