import ProxyServer.Server.Handlers

/-!
# Where handlers go wrong

The branches in which a handler goes on with an entry that it closed, looks up a
pending resolution that is not there, or leaves one behind.
-/

namespace ProxyServer

namespace Proxy

/-! ### Entries that were closed -/

/-- The branch of HUP and ERROR closes the entry and does not return. -/
def fallsThrough (state : FdState) (io : Io) : Bool := state.is hupOrError && io.soError.isSome

/-- The branch of RDHUP does not return while there is something to read. -/
def staysReadable (state : FdState) (io : Io) : Bool := !state.is .RDHUP || io.canRead.any (· ≠ 0)

def readsOn (state : FdState) (io : Io) : Bool :=
  !state.is hupOrError && staysReadable state io && state.is .IN

def readsClosed (state : FdState) (io : Io) : Bool :=
  fallsThrough state io && staysReadable state io && state.is .IN

def writesClosed (state : FdState) (io : Io) (ready : Bool) : Bool :=
  fallsThrough state io && !state.is .RDHUP && (state.is .OUT && ready)

/-- An exception of `read_from` or `write_to` closes the connection, and the handler
goes on to look at the messages. -/
def transfersClosed (state : FdState) (io : Io) (inMsg outMsg : RawMessage) : Bool :=
  !state.is .RDHUP &&
    ((state.is .IN && inMsg.canRead && io.read.isNone && (inMsg.canWrite || (state.is .OUT && outMsg.canWrite))) ||
      (state.is .OUT && outMsg.canWrite && io.write.isNone && outMsg.canRead))

end Proxy

/-! ### What is read of servers -/

/-- What is read of the server of a connection. -/
def Handler.hears (h : Handler) (responses : MsgId → ServerResponse) (state : FdState) (io : Io) : Option (ConnId × Bytes) :=
  match h, io.read with
  | .readResponse _ m _ (.handleValidationResponse conn _ _), some bytes =>
    if Proxy.readsOn state io then some (conn, bytes.take (responses m).shouldRead) else none
  | .transferServer conn _ resp, some bytes =>
    if Proxy.readsOn state io then some (conn, bytes.take (responses resp).shouldRead) else none
  | _, _ => none

/-- The response to a request that a handler has read to its end: `bytes` is what it read last. -/
structure Arrival where
  conn : ConnId
  bytes : Bytes
  rqst : ClientRequest
  resp : ServerResponse

def Handler.completed (h : Handler) (responses : MsgId → ServerResponse) (state : FdState) (io : Io) : Option Arrival :=
  match h, io.read with
  | .transferServer conn rqst resp, some bytes =>
    match (responses resp).readFrom (bytes.take (responses resp).shouldRead) with
    | .ok m =>
      if Proxy.readsOn state io && m.isRead then
        some { conn, bytes := bytes.take (responses resp).shouldRead, rqst, resp := m } else none
    | .error _ => none
  | _, _ => none

/-- The answer to the validation of what is cached, which the handler completes. -/
def Handler.validated (h : Handler) (responses : MsgId → ServerResponse) (state : FdState) (io : Io) :
    Option (ServerResponse × Arrival) :=
  match h, io.read with
  | .readResponse _ m _ (.handleValidationResponse conn rqst cached), some bytes =>
    match (responses m).readFrom (bytes.take (responses m).shouldRead) with
    | .ok resp =>
      if Proxy.readsOn state io && resp.isRead then
        some (cached, { conn, bytes := bytes.take (responses m).shouldRead, rqst, resp := resp.transferred io.garbage })
      else none
    | .error _ => none
  | _, _ => none

theorem Handler.hears_completed {h : Handler} {responses : MsgId → ServerResponse} {state : FdState} {io : Io} {a : Arrival}
    (completed : h.completed responses state io = some a) : h.hears responses state io = some (a.conn, a.bytes) := by
  unfold Handler.completed at completed
  split at completed
  · rename_i conn rqst resp bytes read
    split at completed
    · split at completed
      · rename_i done
        rw [Bool.and_eq_true] at done
        cases completed
        simp only [Handler.hears, read, done.1, if_true]
      · cases completed
    · cases completed
  · cases completed

theorem Handler.hears_validated {h : Handler} {responses : MsgId → ServerResponse} {state : FdState} {io : Io} {a : Arrival}
    {cached : ServerResponse} (validated : h.validated responses state io = some (cached, a)) :
    h.hears responses state io = some (a.conn, a.bytes) := by
  unfold Handler.validated at validated
  split at validated
  · rename_i source m it conn rqst cached' bytes read
    split at validated
    · split at validated
      · rename_i done
        rw [Bool.and_eq_true] at done
        cases validated
        simp only [Handler.hears, read, done.1, if_true]
      · cases validated
    · cases validated
  · cases validated

/-- The handler goes on with an entry that it closed. -/
def Handler.usesClosed (h : Handler) (responses : MsgId → ServerResponse) (raws : MsgId → RawMessage)
    (state : FdState) (io : Io) : Bool :=
  match h with
  | .readRequest .. => Proxy.readsClosed state io
  | .readResponse .. => Proxy.readsClosed state io
  | .transferServer .. => Proxy.readsClosed state io
  | .send .. => Proxy.writesClosed state io true
  | .transferClient _ resp => Proxy.writesClosed state io (responses resp).canWrite
  | .connectTransfer _ _ inMessage outMessage =>
    Proxy.transfersClosed state io (raws inMessage) (raws outMessage)
  | _ => false

namespace Proxy

/-- The handler that is dispatched does not go on with an entry that it closed. -/
def returnsClosed (s : Proxy) (event : Event) : Bool :=
  match s.handlers event.fd with
  | some h => !h.usesClosed s.responses s.raws event.state event.io
  | none => true

/-! ### Pending resolutions -/

/-- The pending resolution that an entry waits for. -/
def awaits (s : Proxy) : EntryRef → Option (Fd × Bytes)
  | .sock id => match s.sockets.get id with
    | some entry => match s.handlers entry.elem.fd with
      | some (.resolving _ host) => some (entry.elem.fd, host)
      | _ => none
    | none => none
  | .conn c => match s.connections.get c with
    | some conn => match s.handlers conn.server.fd with
      | some (.serverConnect _ ip) =>
        if conn.timeout = SHORT_SOCKET_TIMEOUT then some (ip.socket, ip.host) else none
      | _ => none
    | none => none

def sweeps (s : Proxy) (ticked : Nat) : EntryRef → Bool
  | .sock id => (s.sockets.get id).any fun entry => entry.elem.expiresIn ≤ s.ticks + ticked * TICK_INTERVAL
  | .conn c => (s.connections.get c).any fun conn => conn.expiresIn ≤ s.ticks + ticked * TICK_INTERVAL + ticked

def refs (s : Proxy) : List EntryRef :=
  (List.range s.sockets.next).map .sock ++ (List.range s.connections.next).map .conn

/-- The timer closes no entry that waits for a pending resolution of `K`. -/
def spares (s : Proxy) (K : Fd × Bytes → Bool) (ticked : Nat) : Bool :=
  s.refs.all fun it => !s.sweeps ticked it || (s.awaits it).all fun key => !K key || (s.onResolve key).isNone

/-- The result of the resolver is not for a client that is being connected. -/
def delivers (s : Proxy) (io : Io) : Bool :=
  s.resolving[io.resolved]?.all fun key => (s.onResolve key).isNone ||
    (List.range s.connections.next).all fun c => s.awaits (.conn c) ≠ some key

/-- `make_server_connect_handler` uses the result of its look-up. -/
def looksUp (ip : ResolvedIp) (state : FdState) (io : Io) : Bool :=
  if state.is .RDHUP then true
  else if state.is hupOrError then
    match io.soError with
    | none => false
    | some code => !((code = ENETUNREACH ∨ code = ECONNREFUSED) ∧ ip.ips.tail ≠ [] ∧
        (io.connect = 0 ∨ io.connect = EINPROGRESS) : Bool)
  else state.is .OUT

/-- The step does not go wrong with a pending resolution. -/
def keepsPending (s : Proxy) (event : Event) : Bool :=
  match s.handlers event.fd with
  | some .timer => s.spares (· ∈ s.resolving) event.io.ticked
  | some .notifier => s.delivers event.io
  | some (.serverConnect c ip) => !looksUp ip event.state event.io ||
      (s.connections.get c).all (·.timeout = SHORT_SOCKET_TIMEOUT)
  | _ => true

/-- The step leaves no pending resolution behind. -/
def forgetsPending (s : Proxy) (event : Event) : Bool :=
  match s.handlers event.fd with
  | some .timer => s.spares (fun _ => true) event.io.ticked
  | _ => true

/-! ### Descriptors that are opened -/

/-- The descriptor that `accept` or `socket` returns. -/
def opened (s : Proxy) (event : Event) : Option Fd :=
  match s.handlers event.fd with
  | some .listener => if event.state.is .IN then event.io.newFd else none
  | some .notifier => if event.state.is .IN then event.io.newFd else none
  | _ => none

end Proxy

end ProxyServer
