import ProxyServer.Exchange.Reuse
import ProxyServer.Server.Attended
import ProxyServer.Server.Fallback
import ProxyServer.Server.Isolation

/-!
# Where the exchanges are in the server

What the handlers of a connection and its messages say of the phase that its exchanges are
in, and what the continuations of the server make of it.
-/

namespace ProxyServer

open Wp

/-- What the server does when a request is sent. -/
def Sent.action (c : ConnId) : Sent → AfterSend
  | .validate rqst cached => .readResponse (.server c) (.conn c) (.handleValidationResponse c rqst cached)
  | .transfer rqst => .startTransfer c rqst

/-- A handler of the client that is left installed while the server is asked. -/
inductive Handler.Rests (c : ConnId) : Handler → Prop where
  | connecting (socket : Fd) (host : Bytes) : Rests c (.connecting c socket host)
  | read (m : MsgId) (host : Bytes) : Rests c (.readRequest (.client c) m (.conn c) (.reuse c host))

theorem Handler.LeftClient.rests {p : Batch} {c : ConnId} {f : Fd} {h : Handler} (left : h.LeftClient p c f) :
    h.Rests c := by
  cases left with
  | connecting socket host => exact .connecting socket host
  | read m host => exact .read m host

namespace ExchangePhase

/-- The origin has an answer to what it was sent last. -/
def Answered : ExchangePhase → Prop
  | .validating _ _ _ | .transferring _ _ | .answering _ _ _ _ => True
  | .awaiting _ | .sending _ _ | .reconnecting _ | .left => False

/-- The exchanges go on elsewhere, or not at all. -/
def Over : ExchangePhase → Prop
  | .reconnecting _ | .left => True
  | .awaiting _ | .sending _ _ | .validating _ _ _ | .transferring _ _ | .answering _ _ _ _ => False

end ExchangePhase

/-- What a client was given by a machine in the phase: `before`, and what it was written since
its last request. -/
def Given (before written : Bytes) (given : Bytes) : ExchangePhase → Prop
  | .left => before <+: given
  | .awaiting _ => given = before
  | .sending _ _ | .validating _ _ _ | .transferring _ _ | .answering _ _ _ _ | .reconnecting _ => given = before ++ written

theorem Given.left {before written given : Bytes} {phase : ExchangePhase} (holds : Given before written given phase) :
    before <+: given := by
  cases phase with
  | left => exact holds
  | awaiting host =>
    obtain rfl : given = before := holds
    exact List.prefix_refl _
  | sending m next | validating m rqst cached | transferring m rqst | answering m rqst certified closing | reconnecting rqst =>
    obtain rfl : given = before ++ written := holds
    exact List.prefix_append _ _

namespace Registry

/-- The handlers and the messages of the client `f`, which is on the connection `c`, are those of
the phase. -/
inductive Placed (v : Registry) (c : ConnId) (f : Fd) : ExchangePhase → Prop where
  | awaiting {f' : Fd} {m : MsgId} {host : Bytes}
      (client : v.handlers f = some (.readRequest (.client c) m (.conn c) (.reuse c host)))
      (server : v.handlers f' = some (.reused c)) : Placed v c f (.awaiting host)
  | sending {f' : Fd} {h : Handler} {m : MsgId} {rqst : ClientRequest} {next : Sent} (client : v.handlers f = some h)
      (rests : h.Rests c) (server : v.handlers f' = some (.send (.server c) (.request m) (.conn c) (next.action c)))
      (message : v.ledger.requests m = rqst) : Placed v c f (.sending rqst next)
  | validating {f' : Fd} {h : Handler} {m : MsgId} {rqst : ClientRequest} {cached resp : ServerResponse}
      (client : v.handlers f = some h) (rests : h.Rests c)
      (server : v.handlers f' = some (.readResponse (.server c) m (.conn c) (.handleValidationResponse c rqst cached)))
      (message : v.ledger.responses m = resp) : Placed v c f (.validating resp rqst cached)
  | transferring {f' : Fd} {m : MsgId} {rqst : ClientRequest} {resp : ServerResponse}
      (client : v.handlers f = some (.transferClient c m)) (server : v.handlers f' = some (.transferServer c rqst m))
      (message : v.ledger.responses m = resp) : Placed v c f (.transferring resp rqst)
  | answering {m : MsgId} {rqst : ClientRequest} {resp : ServerResponse} {certified : Option ServerResponse}
      (client : v.handlers f = some (.send (.client c) (.response m) (.conn c)
        (.reuseConnection c (rqst.getHeader.getProperty (lit "host")))))
      (message : v.ledger.responses m = resp) : Placed v c f (.answering resp rqst certified false)
  | closing {n : SocketId} {m : MsgId} {rqst : ClientRequest} {resp : ServerResponse} {certified : Option ServerResponse}
      (gone : v.connection c = none)
      (client : v.handlers f = some (.send (.sock n) (.response m) (.sock n) (.closeSent n)))
      (message : v.ledger.responses m = resp) : Placed v c f (.answering resp rqst certified true)
  | reconnecting {n : SocketId} {rqst : ClientRequest} (gone : v.connection c = none)
      (client : v.handlers f = some (.resolving n (rqst.getHeader.getProperty (lit "host")))) :
      Placed v c f (.reconnecting rqst)
  | left (gone : v.connection c = none)
      (unanswered : ∀ n m, v.handlers f ≠ some (.send (.sock n) m (.sock n) (.closeSent n))) : Placed v c f .left
  | establishing {m : MessageRef} (client : v.handlers f = some (.send (.client c) m (.conn c) (.handleConnect c))) :
      Placed v c f .left

/-- What had been given when a server was connected to: to the client, to the descriptor of the
server, and to other servers since the last request of the client. -/
structure Began where
  client : Bytes
  server : Bytes
  asked : Bytes

/-- What is known of the connection in every phase: the cache, what the server has not said yet
of its answers, and the last of what was asked. -/
structure Tracks (a : ConnId → Nat → Answer) (base : Began) (v : Registry) (c : ConnId) (cache : Cache)
    (unread asked : Bytes) : Prop where
  cache : v.ledger.cache = cache
  heard : v.connection c ≠ none → (dialogue v.ledger.trace c).earlier ++ (dialogue v.ledger.trace c).since ++ unread =
    Origins.stream (fun c n => (a c n).bytes) c (dialogue v.ledger.trace c).requests.length
  asked : ∀ f', v.fd? (.server c) = some f' → ∃ since, givenTo v.ledger.trace f' = base.server ++ since ∧
    asked <:+ base.asked ++ since
  known : c < v.ledger.nextConnection

/-- The connection `c` is where the machine `k` is, and the client `f` has been given what the
machine delivered, behind `base`. -/
structure Follows (a : ConnId → Nat → Answer) (c : ConnId) (f : Fd) (base : Began) (k : KeptAlive) (v : Registry) : Prop where
  placed : v.Placed c f k.phase
  tracks : v.Tracks a base c k.cache k.unread k.asked
  given : Given (base.client ++ k.done.flatMap (·.delivered)) k.written (givenTo v.ledger.trace f) k.phase
  answered : k.phase.Answered → k.answer ≠ none

/-- The machine makes calls that lead where the server is. -/
def Goes (a : ConnId → Nat → Answer) (c : ConnId) (f : Fd) (base : Began) (k : KeptAlive) (v : Registry) : Prop :=
  ∃ calls k', Runs.run KeptAlive.step k calls = .ok k' ∧ v.Follows a c f base k'

variable {a : ConnId → Nat → Answer} {v w : Registry} {c : ConnId} {f f' : Fd} {base : Began} {k k' : KeptAlive}
  {d : Ledger} {h : Handler} {l : Link} {cache : Cache} {unread asked : Bytes}

theorem Follows.stays (follows : v.Follows a c f base k) : v.Goes a c f base k := ⟨[], k, rfl, follows⟩

theorem Follows.called {call : KeptAliveCall} (stepped : k.step call = .ok k') (follows : v.Follows a c f base k') :
    v.Goes a c f base k :=
  ⟨[call], k', Runs.run_cons.mpr ⟨k', stepped, rfl⟩, follows⟩

/-! ### What is said and given stays -/

/-- Nothing is said to the server of the connection or read of it, and nothing is written. -/
structure Silent (c : ConnId) (d d' : Ledger) : Prop where
  said : dialogue d'.trace c = dialogue d.trace c
  given : ∀ f, givenTo d'.trace f = givenTo d.trace f
  connections : d'.nextConnection = d.nextConnection

theorem Silent.same {d' : Ledger} (trace : d'.trace = d.trace) (connections : d'.nextConnection = d.nextConnection) :
    Silent c d d' :=
  ⟨by rw [trace], fun _ => by rw [trace], connections⟩

theorem Silent.trans {d₁ d₂ d₃ : Ledger} (first : Silent c d₁ d₂) (rest : Silent c d₂ d₃) : Silent c d₁ d₃ :=
  ⟨rest.said.trans first.said, fun f => (rest.given f).trans (first.given f), rest.connections.trans first.connections⟩

theorem silent_observe {o : Obs} (said : ∀ e, o.adds c e = e) (given : ∀ f, o.gives f = []) : Silent c d (d.observe o) where
  said := (dialogue_append _ _ _).trans (said _)
  given f := by
    show givenTo (d.trace ++ [o]) f = _
    rw [givenTo_append, given, List.append_nil]
  connections := rfl

theorem silent_queued {d' : Ledger} {ref : MessageRef} {bytes : Bytes} (queued : d.Queued d' f ref bytes) : Silent c d d' where
  said := by
    rw [queued.trace]
    exact dialogue_append _ _ _
  given f := by
    rw [queued.trace, givenTo_append]
    exact List.append_nil _
  connections := queued.connections

theorem Tracks.silent {cache' : Cache} (tracks : v.Tracks a base c cache unread asked) (silent : Silent c v.ledger d)
    (same : d.cache = cache') : (v.withLedger d).Tracks a base c cache' unread asked where
  cache := same
  heard live := by
    rw [withLedger_ledger, silent.said]
    exact tracks.heard live
  asked f' server := by
    rw [withLedger_ledger, silent.given]
    exact tracks.asked f' (by rwa [fd?_withLedger] at server)
  known := by
    rw [withLedger_ledger, silent.connections]
    exact tracks.known

theorem Tracks.setHandler (tracks : v.Tracks a base c cache unread asked) :
    (v.setHandler f h).Tracks a base c cache unread asked :=
  ⟨tracks.cache, tracks.heard, fun f' server => tracks.asked f' (by rwa [fd?_setHandler] at server), tracks.known⟩

/-- The connection is gone. -/
theorem Tracks.gone (tracks : v.Tracks a base c cache unread asked) (gone : w.connection c = none)
    (ledger : w.ledger = v.ledger) : w.Tracks a base c cache unread' asked' where
  cache := by
    rw [ledger]
    exact tracks.cache
  heard live := absurd gone live
  asked f' server := by simp [Registry.fd?, gone] at server
  known := by
    rw [ledger]
    exact tracks.known

/-- The connection is gone in `w`, and its client is not answered. -/
structure Loses (v w : Registry) (c : ConnId) (f : Fd) : Prop where
  gone : w.connection c = none
  unanswered : ∀ n m, w.handlers f ≠ some (.send (.sock n) m (.sock n) (.closeSent n))
  cache : w.ledger.cache = v.ledger.cache
  connections : v.ledger.nextConnection ≤ w.ledger.nextConnection
  given : givenTo w.ledger.trace f = givenTo v.ledger.trace f

theorem Loses.unpend (loses : v.Loses w c f) (key : Fd × Bytes) : v.Loses (w.unpend key) c f :=
  ⟨loses.gone, loses.unanswered, loses.cache, loses.connections, loses.given⟩

theorem Follows.lost (follows : v.Follows a c f base k) (loses : v.Loses w c f) : w.Goes a c f base k := by
  have stepped : k.step .close = .ok { k with phase := .left } := rfl
  apply Follows.called stepped
  constructor
  · exact .left loses.gone loses.unanswered
  · constructor
    · exact loses.cache.trans follows.tracks.cache
    · exact fun live => absurd loses.gone live
    · intro f' server
      simp [Registry.fd?, loses.gone] at server
    · exact Nat.lt_of_lt_of_le follows.tracks.known loses.connections
  · show base.client ++ k.done.flatMap (·.delivered) <+: givenTo w.ledger.trace f
    rw [loses.given]
    exact follows.given.left
  · exact False.elim

theorem unanswered_of_none {n : SocketId} {m : MessageRef} (released : w.handlers f = none) :
    w.handlers f ≠ some (.send (.sock n) m (.sock n) (.closeSent n)) := by
  intro installed
  rw [released] at installed
  cases installed

/-- The connection is closed. -/
theorem Follows.closed (follows : v.Follows a c f base k) (client : l.client.fd = f) (present : f ≠ 0) :
    (v.eraseConnection c l).Goes a c f base k := by
  have released : (v.eraseConnection c l).handlers f = none := if_pos ⟨client.symm, client ▸ present⟩
  exact follows.lost ⟨if_pos rfl, fun _ _ => unanswered_of_none released, rfl, Nat.le_refl _, rfl⟩

theorem Placed.withLedger {phase : ExchangePhase} (placed : v.Placed c f phase) (requests : d.requests = v.ledger.requests)
    (responses : d.responses = v.ledger.responses) : (v.withLedger d).Placed c f phase := by
  cases placed with
  | awaiting client server => exact .awaiting client server
  | sending client rests server message => exact .sending client rests server ((congrFun requests _).trans message)
  | validating client rests server message => exact .validating client rests server ((congrFun responses _).trans message)
  | transferring client server message => exact .transferring client server ((congrFun responses _).trans message)
  | answering client message => exact .answering client ((congrFun responses _).trans message)
  | closing gone client message => exact .closing gone client ((congrFun responses _).trans message)
  | reconnecting gone client => exact .reconnecting gone client
  | left gone unanswered => exact .left gone unanswered
  | establishing client => exact .establishing client

theorem Follows.observe {o : Obs} (follows : v.Follows a c f base k) (said : ∀ e, o.adds c e = e)
    (given : ∀ f, o.gives f = []) : (v.withLedger (v.ledger.observe o)).Follows a c f base k where
  placed := follows.placed.withLedger rfl rfl
  tracks := follows.tracks.silent (silent_observe said given) follows.tracks.cache
  given := by
    rw [withLedger_ledger, (silent_observe said given).given]
    exact follows.given
  answered := follows.answered

end Registry

namespace Proxy

open Registry

variable {a : ConnId → Nat → Answer} {v : Registry} {c : ConnId} {f f' : Fd} {base : Began} {k : KeptAlive} {h : Handler}
  {r : ElemRef} {it : EntryRef} {io : Io} {state : FdState} {rqst : ClientRequest} {resp : ServerResponse}
  {host : Bytes} {Q : Unit → Registry → Prop}

/-! ### What continuations do to a registry -/

theorem any_readRequest {message : ClientRequest} {next : AfterRequest} (owner : v.fd? r = some f) (present : f ≠ 0)
    (h : Q () ((v.withLedger (v.ledger.newMessage.setRequest v.ledger.nextMessage (message.transferred io.garbage))).setHandler f
      (.readRequest r v.ledger.nextMessage it next))) : Acts Any (readRequest r message it next io) Q v := by
  apply Acts.bind
  apply acts_newRequest
  apply acts_update
  · intro f' owner'
    rw [fd?_withLedger, owner] at owner'
    cases owner'
    exact h
  · rw [fd?_withLedger, owner]
    exact fun zero => present (Option.some.inj zero)
  · exact fun _ => trivial

theorem any_readResponse {next : AfterResponse} (owner : v.fd? r = some f) (present : f ≠ 0)
    (h : Q () ((v.withLedger (v.ledger.newMessage.setResponse v.ledger.nextMessage (resp.transferred io.garbage))).setHandler f
      (.readResponse r v.ledger.nextMessage it next))) : Acts Any (readResponse r resp it next io) Q v := by
  apply Acts.bind
  apply acts_newResponse
  apply acts_update
  · intro f' owner'
    rw [fd?_withLedger, owner] at owner'
    cases owner'
    exact h
  · rw [fd?_withLedger, owner]
    exact fun zero => present (Option.some.inj zero)
  · exact fun _ => trivial

theorem any_startTransfer (client : v.fd? (.client c) = some f) (server : v.fd? (.server c) = some f') (present : f ≠ 0)
    (present' : f' ≠ 0)
    (h : Q () (((v.withLedger (v.ledger.newMessage.setResponse v.ledger.nextMessage .new)).setHandler f'
      (.transferServer c rqst v.ledger.nextMessage)).setHandler f (.transferClient c v.ledger.nextMessage))) :
    Acts Any (startTransfer c rqst) Q v := by
  apply Acts.bind
  apply acts_newResponse
  apply Acts.bind
  apply acts_update
  · intro g owner
    rw [fd?_withLedger, server] at owner
    cases owner
    apply acts_update
    · intro g owner
      rw [fd?_setHandler, fd?_withLedger, client] at owner
      cases owner
      exact h
    · rw [fd?_setHandler, fd?_withLedger, client]
      exact fun zero => present (Option.some.inj zero)
    · exact fun _ => trivial
  · rw [fd?_withLedger, server]
    exact fun zero => present' (Option.some.inj zero)
  · exact fun _ => trivial

theorem any_reuseConnection (client : v.fd? (.client c) = some f) (server : v.fd? (.server c) = some f') (present : f ≠ 0)
    (present' : f' ≠ 0)
    (h : Q () ((((v.setHandler f' (.reused c)).withLedger (v.ledger.newMessage.setRequest v.ledger.nextMessage
      (BufferedMessage.new.transferred io.garbage)))).setHandler f
        (.readRequest (.client c) v.ledger.nextMessage (.conn c) (.reuse c host)))) :
    Acts Any (reuseConnection c host io) Q v := by
  apply Acts.bind
  apply acts_touch _ (fun _ => trivial)
  intro _
  apply Acts.bind
  apply acts_update
  · intro g owner
    rw [server] at owner
    cases owner
    exact any_readRequest (by rwa [fd?_setHandler]) present h
  · rw [server]
    exact fun zero => present' (Option.some.inj zero)
  · exact fun _ => trivial

/-- The client leaves its connection to connect anew. -/
theorem any_reconnect {next : AfterConnect} (own : v.Owned) (client : v.fd? (.client c) = some f)
    (h : ∀ w n, w.connection c = none → w.handlers f = some (.resolving n host) → w.ledger = v.ledger → Q () w) :
    Acts Any (reconnect c host next) Q v := by
  apply Acts.bind
  apply acts_touch _ (fun _ => trivial)
  intro _
  apply Acts.bind
  apply acts_takeClient _ (fun _ => trivial)
  intro e l live same
  obtain rfl : l.client.fd = f := by simpa [Registry.fd?, live] using client
  have fd : e.fd = l.client.fd := by rw [same]
  apply Acts.bind
  apply acts_closeConnection _ (fun _ => trivial)
  intro l' live'
  apply Acts.bind
  apply acts_saveRegistration
  · intro n entry here
    rw [fd]
    exact own.unkeyed live (n := n) here
  · intro n fresh
    have present := own.present client
    apply acts_connectToServer (e := ⟨e.fd, ⟨e.fd, e.call⟩⟩) (if_pos rfl) (by rwa [fd]) host next trivial
    intro call
    apply h _ n
    · exact if_pos rfl
    · exact if_pos fd.symm
    · rfl

/-- A response is sent to the client: by the connection, or by a socket of its own when the connection
is closed. -/
theorem any_sendServerResponse (own : v.Owned) (client : v.fd? (.client c) = some f)
    (stays : closes resp.getHeader = false → ∀ d, v.ledger.Queued d f (.response v.ledger.nextMessage) resp.unsent →
      d.responses v.ledger.nextMessage = resp.transferred io.garbage →
      Q () ((v.withLedger d).setHandler f (.send (.client c) (.response v.ledger.nextMessage) (.conn c)
        (.reuseConnection c (rqst.getHeader.getProperty (lit "host"))))))
    (leaves : closes resp.getHeader = true → ∀ w n, w.connection c = none →
      v.ledger.Queued w.ledger f (.response v.ledger.nextMessage) resp.unsent →
      w.ledger.responses v.ledger.nextMessage = resp.transferred io.garbage →
      w.handlers f = some (.send (.sock n) (.response v.ledger.nextMessage) (.sock n) (.closeSent n)) → Q () w) :
    Acts Any (sendServerResponse c rqst resp io) Q v := by
  obtain ⟨l, live, rfl⟩ : ∃ l, v.connection c = some l ∧ l.client.fd = f := by simpa [Registry.fd?] using client
  apply Acts.bind
  apply acts_touch _ (fun _ => trivial)
  intro _
  split
  · rename_i closing
    apply Acts.bind
    apply acts_escapeClient own live
    intro n fresh
    apply Acts.bind
    apply acts_closeConnection _ (fun _ => trivial)
    intro l' live'
    obtain rfl : l.widow = l' := by simpa [setLink, addSocket] using live'
    show Acts _ _ _ (((v.setLink c l.widow).eraseConnection c l.widow).addSocket n l.client)
    apply acts_sendResponse (f := l.client.fd) fd?_addSocket_self (own.present client) resp _ io
    intro d queued made
    exact leaves closing _ n (if_pos rfl) queued made (if_pos rfl)
  · rename_i open_
    apply Acts.bind
    apply acts_updateState
    · exact acts_sendResponse client (own.present client) resp _ io (stays (Bool.eq_false_iff.mpr open_))
    · intro zero
      exact own.present zero rfl
    · exact fun _ => trivial

/-! ### What the exchanges make of continuations -/

theorem any_deleteCached {request : RequestHeader} (h : ∀ cache, v.ledger.cache.deleteCached request = some cache →
    Q () (v.withLedger { v.ledger with cache })) : Acts Any (deleteCached request) Q v := by
  rintro s rfl
  simp only [deleteCached, wp_bind, wp_get]
  cases erased : s.cache.deleteCached request with
  | none => trivial
  | some cache => exact h cache erased

theorem any_saveTransferred (h : ∀ cache, v.ledger.cache.saveIfAllowed rqst resp = some cache →
    Q () (v.withLedger { v.ledger.observe (.transferred rqst resp) with cache })) :
    Acts Any (saveTransferred rqst resp) Q v := by
  rintro s rfl
  simp only [saveTransferred, wp_bind, wp_get]
  cases saved : s.cache.saveIfAllowed rqst resp with
  | none => trivial
  | some cache => exact h cache saved

/-- The exchange `k` goes on at the connection `c` of the client `f`, where a continuation is called. -/
structure Poised (a : ConnId → Nat → Answer) (c : ConnId) (f : Fd) (base : Began) (k : KeptAlive) (v : Registry) : Prop where
  own : v.Owned
  client : v.fd? (.client c) = some f
  tracks : v.Tracks a base c k.cache k.unread k.asked
  given : givenTo v.ledger.trace f = base.client ++ k.done.flatMap (·.delivered) ++ k.written

theorem Poised.server (poised : Poised a c f base k v) : ∃ f', v.fd? (.server c) = some f' ∧ f' ≠ 0 ∧ f ≠ f' := by
  have client := poised.client
  obtain ⟨l, live, rfl⟩ : ∃ l, v.connection c = some l ∧ l.client.fd = f := by simpa [Registry.fd?] using client
  have server : v.fd? (.server c) = some l.server := by simp [Registry.fd?, live]
  exact ⟨l.server, server, poised.own.present server, poised.own.server_ne live⟩

theorem Poised.setCache {cache : Cache} {d : Ledger} (poised : Poised a c f base k v) (silent : Silent c v.ledger d)
    (same : d.cache = cache) : Poised a c f base { k with cache } (v.withLedger d) where
  own := poised.own.withLedger d
  client := by
    rw [fd?_withLedger]
    exact poised.client
  tracks := poised.tracks.silent silent same
  given := by
    rw [withLedger_ledger, silent.given]
    exact poised.given

theorem follows_sendRequest {message : ClientRequest} (next : Sent) (poised : Poised a c f base k v)
    (client : v.handlers f = some h) (rests : h.Rests c) :
    Acts Any (sendRequest (.server c) message (.conn c) (next.action c) io) (fun _ w =>
      w.Follows a c f base { k with phase := .sending (message.transferred io.garbage) next }) v := by
  obtain ⟨f', server, present', apart⟩ := poised.server
  apply acts_sendRequest server present'
  intro d queued made
  have silent := silent_queued (c := c) queued
  constructor
  · apply Placed.sending _ rests (if_pos rfl) made
    exact (if_neg apart).trans client
  · exact (poised.tracks.silent silent (queued.cache.trans poised.tracks.cache)).setHandler
  · exact (silent.given f).trans poised.given
  · exact False.elim

theorem follows_handleClientRequest (poised : Poised a c f base k v) (fresh : k.written = [])
    (client : v.handlers f = some h) (rests : h.Rests c) :
    Acts Any (handleClientRequest rqst c io) (fun _ w =>
      ∃ k', k.handleClientRequest rqst io.garbage = .ok k' ∧ w.Follows a c f base k') v := by
  apply Acts.get
  intro s same
  have plans : planRequest k.cache rqst = planRequest s.cache rqst := by
    rw [← poised.tracks.cache, ← same]
    rfl
  unfold KeptAlive.handleClientRequest
  rw [plans]
  cases plan : planRequest s.cache rqst with
  | error e => exact Acts.throw trivial
  | ok decided =>
    cases decided with
    | validate request cached =>
      apply Acts.bind
      apply acts_touch _ (fun _ => trivial)
      intro _
      apply Acts.bind
      apply (follows_sendRequest (.validate rqst cached) poised client rests).mono
      intro _ w follows
      exact acts_observe _ ⟨_, rfl, follows.observe (fun _ => rfl) fun _ => rfl⟩
    | establish resp =>
      apply acts_sendResponse poised.client (poised.own.present poised.client)
      intro d queued _
      have silent := silent_queued (c := c) queued
      refine ⟨_, rfl, ?_⟩
      constructor
      · exact .establishing (if_pos rfl)
      · exact (poised.tracks.silent silent (queued.cache.trans poised.tracks.cache)).setHandler
      · have given := (silent.given f).trans poised.given
        rw [fresh, List.append_nil] at given
        exact given ▸ List.prefix_refl _
      · exact False.elim
    | transfer =>
      apply Acts.bind
      apply (follows_sendRequest (.transfer rqst) poised client rests).mono
      intro _ w follows
      exact acts_observe _ ⟨_, rfl, follows.observe (fun _ => rfl) fun _ => rfl⟩

theorem follows_sendServerResponse (poised : Poised a c f base k v) (certified : Option ServerResponse)
    (answered : k.answer ≠ none) : Acts Any (sendServerResponse c rqst resp io) (fun _ w =>
      w.Follows a c f base (k.sendServerResponse rqst resp certified io.garbage)) v := by
  apply any_sendServerResponse poised.own poised.client
  · intro open_ d queued made
    have silent := silent_queued (c := c) queued
    constructor
    · show Placed _ c f (.answering _ rqst certified (closes resp.getHeader))
      rw [open_]
      exact .answering (if_pos rfl) made
    · exact (poised.tracks.silent silent (queued.cache.trans poised.tracks.cache)).setHandler
    · exact (silent.given f).trans poised.given
    · exact fun _ => answered
  · intro closing w n gone queued made installed
    have silent := silent_queued (c := c) queued
    constructor
    · show Placed _ c f (.answering _ rqst certified (closes resp.getHeader))
      rw [closing]
      exact .closing gone installed made
    · exact (poised.tracks.silent silent (queued.cache.trans poised.tracks.cache)).gone gone rfl
    · exact (silent.given f).trans poised.given
    · exact fun _ => answered

theorem follows_transferred (poised : Poised a c f base k v) (answered : k.answer ≠ none) :
    Acts Any (do saveTransferred rqst resp; sendServerResponse c rqst (resp.transferred io.garbage) io) (fun _ w =>
      ∃ k', k.transferred rqst resp io.garbage = .ok k' ∧ w.Follows a c f base k') v := by
  apply Acts.bind
  apply any_saveTransferred
  intro cache saved
  rw [poised.tracks.cache] at saved
  have silent : Silent c v.ledger { v.ledger.observe (.transferred rqst resp) with cache } :=
    (silent_observe (o := .transferred rqst resp) (fun _ => rfl) fun _ => rfl).trans (.same rfl rfl)
  apply (follows_sendServerResponse (poised.setCache silent rfl) none answered).mono
  intro _ w follows
  refine ⟨_, ?_, follows⟩
  unfold KeptAlive.transferred
  rw [saved]
  rfl

theorem follows_handleValidationResponse {cached : ServerResponse} (poised : Poised a c f base k v)
    (answered : k.answer ≠ none) (client : v.handlers f = some h) (rests : h.Rests c) :
    Acts Any (handleValidationResponse c rqst cached resp io) (fun _ w =>
      ∃ k', k.handleValidationResponse rqst cached resp io.garbage = .ok k' ∧ w.Follows a c f base k') v := by
  apply Acts.bind
  apply acts_touch _ (fun _ => trivial)
  intro _
  unfold KeptAlive.handleValidationResponse
  cases validationVerdict resp with
  | sendCached =>
    apply Acts.bind
    apply acts_getElem _ (fun _ => trivial)
    intro e _
    apply Acts.get
    intro s _
    apply Acts.bind
    apply (follows_sendServerResponse poised (some cached) answered).mono
    intro _ w follows
    exact acts_observe _ ⟨_, rfl, follows.observe (fun _ => rfl) fun _ => rfl⟩
  | reconnect =>
    apply Acts.bind
    apply acts_observe
    apply Acts.bind
    apply any_deleteCached
    intro cache erased
    have erased : k.cache.deleteCached rqst.getHeader = some cache := poised.tracks.cache ▸ erased
    have silent : Silent c v.ledger { v.ledger.observe (.validated rqst cached resp none) with cache } :=
      (silent_observe (o := .validated rqst cached resp none) (fun _ => rfl) fun _ => rfl).trans (.same rfl rfl)
    have after := poised.setCache silent rfl
    apply any_reconnect after.own after.client
    intro w n gone installed ledger
    rw [erased]
    refine ⟨_, rfl, ?_⟩
    constructor
    · exact .reconnecting gone installed
    · exact after.tracks.gone gone ledger
    · have given := after.given
      rw [← ledger] at given
      exact given
    · exact False.elim
  | refetch =>
    apply Acts.bind
    apply acts_observe
    apply Acts.bind
    apply any_deleteCached
    intro cache erased
    have erased : k.cache.deleteCached rqst.getHeader = some cache := poised.tracks.cache ▸ erased
    have silent : Silent c v.ledger { v.ledger.observe (.validated rqst cached resp none) with cache } :=
      (silent_observe (o := .validated rqst cached resp none) (fun _ => rfl) fun _ => rfl).trans (.same rfl rfl)
    apply (follows_sendRequest (.transfer rqst) (poised.setCache silent rfl) client rests).mono
    intro _ w follows
    rw [erased]
    exact ⟨_, rfl, follows⟩

/-- The continuation of `reuse_connection`, with the next request. -/
theorem follows_requestReused (poised : Poised a c f base k v) (fresh : k.written = [])
    (client : v.handlers f = some h) (rests : h.Rests c) : Acts Any (requestReused c host rqst io) (fun _ w =>
      ∃ k', (if rqst.getHeader.getProperty (lit "host") = host then k.handleClientRequest rqst io.garbage
        else .ok { k with phase := .left }) = .ok k' ∧ w.Follows a c f base k') v := by
  apply Acts.bind
  apply acts_touch _ (fun _ => trivial)
  intro _
  by_cases same : rqst.getHeader.getProperty (lit "host") = host
  · rw [if_pos same, if_pos same]
    exact follows_handleClientRequest poised fresh client rests
  · rw [if_neg same, if_neg same]
    apply any_reconnect poised.own poised.client
    intro w n gone installed ledger
    refine ⟨_, rfl, ?_⟩
    constructor
    · apply Placed.left gone
      intro n' m other
      rw [installed] at other
      cases other
    · exact poised.tracks.gone gone ledger
    · have given := poised.given
      rw [fresh, List.append_nil, ← ledger] at given
      exact given ▸ List.prefix_refl _
    · exact False.elim

/-- The server was sent the request, and its answer is read. -/
theorem follows_sent {next : Sent} {answer : Answer} (own : v.Owned) (owner : v.fd? (.client c) = some f)
    (tracks : v.Tracks a base c k.cache (k.unread ++ answer.bytes) k.asked)
    (given : givenTo v.ledger.trace f = base.client ++ k.done.flatMap (·.delivered) ++ k.written)
    (client : v.handlers f = some h) (rests : h.Rests c) : Acts Any ((next.action c).run io) (fun _ w =>
      w.Follows a c f base (k.sent answer io.garbage next)) v := by
  have poised : Poised a c f base { k with unread := k.unread ++ answer.bytes } v := ⟨own, owner, tracks, given⟩
  obtain ⟨f', server, present', apart⟩ := poised.server
  have silent : ∀ m, Silent c v.ledger (v.ledger.newMessage.setResponse v.ledger.nextMessage m) := fun m => .same rfl rfl
  cases next with
  | validate rqst cached =>
    apply Acts.bind
    apply acts_touch _ (fun _ => trivial)
    intro _
    apply any_readResponse server present'
    constructor
    · exact .validating ((if_neg apart).trans client) rests (if_pos rfl) (if_pos rfl)
    · exact (tracks.silent (silent _) tracks.cache).setHandler
    · exact given
    · exact fun _ => Option.some_ne_none _
  | transfer rqst =>
    apply any_startTransfer owner server (own.present owner) present'
    constructor
    · exact .transferring (if_pos rfl) ((if_neg apart.symm).trans (if_pos rfl)) (if_pos rfl)
    · exact (tracks.silent (silent _) tracks.cache).setHandler.setHandler
    · exact given
    · exact fun _ => Option.some_ne_none _

theorem follows_reuseConnection (own : v.Owned) (client : v.fd? (.client c) = some f)
    (tracks : v.Tracks a base c k.cache k.unread k.asked)
    (given : givenTo v.ledger.trace f = base.client ++ k.done.flatMap (·.delivered)) :
    Acts Any (reuseConnection c host io) (fun _ w => w.Follows a c f base { k with phase := .awaiting host }) v := by
  obtain ⟨l, live, rfl⟩ : ∃ l, v.connection c = some l ∧ l.client.fd = f := by simpa [Registry.fd?] using client
  have server : v.fd? (.server c) = some l.server := by simp [Registry.fd?, live]
  have apart : l.client.fd ≠ l.server := own.server_ne live
  apply any_reuseConnection client server (own.present client) (own.present server)
  constructor
  · exact .awaiting (if_pos rfl) ((if_neg apart.symm).trans (if_pos rfl))
  · have silent : ∀ m, Silent c v.ledger (v.ledger.newMessage.setRequest v.ledger.nextMessage m) := fun m => .same rfl rfl
    exact ((tracks.setHandler (f := l.server) (h := .reused c)).silent (silent _) tracks.cache).setHandler
  · exact given
  · exact False.elim

/-- The client of a connection that was closed is closed. -/
theorem follows_closeSocket {n : SocketId} (own : v.Owned) (gone : v.connection c = none) (owner : v.fd? (.sock n) = some f)
    (tracks : v.Tracks a base c k.cache k.unread k.asked)
    (given : base.client ++ k.done.flatMap (·.delivered) <+: givenTo v.ledger.trace f) :
    Acts Any (closeSocket n) (fun _ w => w.Follows a c f base { k with phase := .left } ∧ w.fd? (.sock n) = none) v := by
  apply acts_closeSocket _ (fun _ => trivial)
  intro e live
  have same : e.client.fd = f := by simpa [Registry.fd?, live] using owner
  have still : (v.eraseSocket n e).connection c = none := gone
  have released : (v.eraseSocket n e).handlers f = none := if_pos ⟨same.symm, same ▸ own.present owner⟩
  constructor
  · constructor
    · apply Placed.left still
      intro n' m installed
      rw [released] at installed
      cases installed
    · exact tracks.gone still rfl
    · exact given
    · exact False.elim
  · simp [Registry.fd?, eraseSocket]

end Proxy

end ProxyServer
