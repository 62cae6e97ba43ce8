import ProxyServer.Server.Operations

/-!
# Handlers

What each handler does with the events reported for its descriptor, and the step
of the server that dispatches them.
-/

namespace ProxyServer

open Wp

namespace Proxy

def hupOrError : FdState := .union .HUP .ERROR

/-- `state.is(RDHUP)` and `fd.can_read() == 0` -/
def hungUp (state : FdState) (io : Io) : ProxyM Bool :=
  if state.is .RDHUP then
    match io.canRead with
    | some n => return n = 0
    | none => throw .uncaught
  else return false

def logAndClose (iterator : EntryRef) : ProxyM Unit := do
  touch iterator
  close iterator

/-- The HUP and ERROR branch, behind which the handlers go on. -/
def closeFailed (iterator : EntryRef) (io : Io) : ProxyM Unit :=
  match io.soError with
  | some _ => logAndClose iterator
  | none => throw .uncaught

/-- The handlers of `read` and of the server in `fast_transfer`, up to what they
do with IN. -/
def onReadable (source : ElemRef) (iterator : EntryRef) (state : FdState) (io : Io)
    (receive : ProxyM Unit) : ProxyM Unit := do
  let _ ← getElem source
  setActive iterator
  let gone ← hungUp state io
  if gone then logAndClose iterator
  else do
    whenever (state.is hupOrError) (closeFailed iterator io)
    whenever (state.is .IN) do
      let _ ← getElem source
      receive

/-- The handlers of `send` and of the client in `fast_transfer`, up to what they
do with OUT. -/
def onWritable (dest : ElemRef) (iterator : EntryRef) (state : FdState) (io : Io)
    (ready : ProxyM Bool) (transmit : ProxyM Unit) : ProxyM Unit := do
  let _ ← getElem dest
  setActive iterator
  if state.is .RDHUP then logAndClose iterator
  else do
    whenever (state.is hupOrError) (closeFailed iterator io)
    let ready ← ready
    whenever (state.is .OUT && ready) do
      let _ ← getElem dest
      transmit

/-! ### Reading and sending -/

def receiveRequest (source : ElemRef) (message : MsgId) (iterator : EntryRef) (next : AfterRequest)
    (io : Io) : ProxyM Unit := do
  let m ← readMessage source ((← get).requests message) io
  match m with
  | none => logAndClose iterator
  | some m =>
    setRequest message m
    whenever m.isRead do
      updateState source .WAIT
      next.run (m.transferred io.garbage) io

def receiveResponse (source : ElemRef) (message : MsgId) (iterator : EntryRef) (next : AfterResponse)
    (io : Io) : ProxyM Unit := do
  let m ← readMessage source ((← get).responses message) io
  match m with
  | none => logAndClose iterator
  | some m =>
    setResponse message m
    whenever m.isRead do
      updateState source .WAIT
      next.run (m.transferred io.garbage) io

/-- `write_to` of a message: whether it is written, or `none` for an exception. -/
def writeRef (dest : ElemRef) (message : MessageRef) (io : Io) : ProxyM (Option Bool) := do
  match message with
  | .request id => match ← writeMessage dest message ((← get).requests id) io with
    | none => return none
    | some m =>
      setRequest id m
      return some m.isWritten
  | .response id => match ← writeMessage dest message ((← get).responses id) io with
    | none => return none
    | some m =>
      setResponse id m
      return some m.isWritten

def transmitMessage (dest : ElemRef) (message : MessageRef) (iterator : EntryRef) (next : AfterSend)
    (io : Io) : ProxyM Unit := do
  let written ← writeRef dest message io
  match written with
  | none => logAndClose iterator
  | some done => whenever done do
      observe (.delivered dest message)
      updateState dest .WAIT
      next.run io

/-! ### Transfer -/

def saveTransferred (rqst : ClientRequest) (resp : ServerResponse) : ProxyM Unit := do
  match (← get).cache.saveIfAllowed rqst resp with
  | some cache =>
    observe (.transferred rqst resp)
    modify ({ · with cache })
  | none => throw .cache

def transferIn (conn : ConnId) (rqst : ClientRequest) (resp : MsgId) (io : Io) : ProxyM Unit := do
  let m ← readMessage (.server conn) ((← get).responses resp) io
  match m with
  | none => logAndClose (.conn conn)
  | some m =>
    setResponse resp m
    whenever m.canWrite (updateState (.client conn) (.union .OUT .RDHUP))
    whenever m.isRead do
      saveTransferred rqst m
      sendServerResponse conn rqst (m.transferred io.garbage) io

def transferOut (conn : ConnId) (resp : MsgId) (io : Io) : ProxyM Unit := do
  let m ← writeMessage (.client conn) (.response resp) ((← get).responses resp) io
  match m with
  | none => logAndClose (.conn conn)
  | some m =>
    setResponse resp m
    whenever (!m.canWrite) do
      let e ← getElem (.client conn)
      updateState (.client conn) (e.events.xor .OUT)

/-! ### CONNECT -/

def connectTransferIn (conn : ConnId) (side other : ElemRef) (inMessage : MsgId) (io : Io) : ProxyM Unit := do
  let _ ← getElem side
  let m := (← get).raws inMessage
  match io.read with
  | none => logAndClose (.conn conn)
  | some bytes => setRaw inMessage (m.readFrom (bytes.take (BUFFER_LENGTH - m.readLength)))
  let m := (← get).raws inMessage
  whenever (!m.canRead) do
    let e ← getElem side
    updateState side (e.events.xor .IN)
  whenever m.canWrite do
    let e ← getElem other
    updateState other (e.events.union .OUT)

def connectTransferOut (conn : ConnId) (side other : ElemRef) (outMessage : MsgId) (io : Io) : ProxyM Unit := do
  let _ ← getElem side
  let m := (← get).raws outMessage
  match io.write with
  | none => logAndClose (.conn conn)
  | some accepted => setRaw outMessage (m.writeTo accepted).2
  let m := (← get).raws outMessage
  whenever (!m.canWrite) do
    let e ← getElem side
    updateState side (e.events.xor .OUT)
  whenever m.canRead do
    let e ← getElem other
    updateState other (e.events.union .IN)

def onConnectTransfer (conn : ConnId) (side other : ElemRef) (inMessage outMessage : MsgId)
    (state : FdState) (io : Io) : ProxyM Unit := do
  setActive (.conn conn)
  if state.is .RDHUP then logAndClose (.conn conn)
  else do
    let inMsg := (← get).raws inMessage
    whenever (state.is .IN && inMsg.canRead) (connectTransferIn conn side other inMessage io)
    let outMsg := (← get).raws outMessage
    whenever (state.is .OUT && outMsg.canWrite) (connectTransferOut conn side other outMessage io)

/-! ### Connecting -/

/-- `on_resolve.erase(it)`, where `it` was the result of `find`. -/
def eraseFound (key : Fd × Bytes) (query : Option Pending) : ProxyM Unit :=
  match query with
  | some _ => erasePending key
  | none => throw .endIterator

/-- The handler of `connect_to_server`. -/
def onResolving (sock : SocketId) (host : Bytes) (state : FdState) : ProxyM Unit :=
  whenever (state.is .RDHUP) do
    touch (.sock sock)
    let e ← getElem (.sock sock)
    eraseFound (e.fd, host) ((← get).onResolve (e.fd, host))
    closeSocket sock

/-- The handler of the client while the server is connecting. -/
def onConnecting (conn : ConnId) (socket : Fd) (host : Bytes) (state : FdState) : ProxyM Unit :=
  whenever (state.is .RDHUP) do
    touch (.conn conn)
    erasePending (socket, host)
    closeConnection conn

/-- Gives up a connection: the client is sent a 404. -/
def giveUp (conn : ConnId) (key : Fd × Bytes) (query : Option Pending) (io : Io) : ProxyM Unit := do
  touch (.conn conn)
  eraseFound key query
  let client ← escapeClient conn
  send404 client io
  closeConnection conn

def onServerConnect (conn : ConnId) (ip : ResolvedIp) (state : FdState) (io : Io) : ProxyM Unit := do
  let server ← getElem (.server conn)
  setActive (.conn conn)
  let key := (ip.socket, ip.host)
  let query := (← get).onResolve key
  if state.is .RDHUP then giveUp conn key query io
  else if state.is hupOrError then
    touch (.conn conn)
    match io.soError with
    | none => throw .uncaught
    | some code =>
      if code = ENETUNREACH ∨ code = ECONNREFUSED then
        -- `next_ip` acts on the copy of the handler that was dispatched.
        if ip.nextIp.ips = [] then giveUp conn key query io
        else do
          observe (.attempted server.fd ip.nextIp.getIp)
          if io.connect ≠ 0 ∧ io.connect ≠ EINPROGRESS then giveUp conn key query io else pure ()
      else giveUp conn key query io
  else whenever (state.is .OUT) do
    touch (.conn conn)
    match query with
    | none => throw .endIterator
    | some pending =>
      erasePending key
      updateState (.client conn) .WAIT
      updateState (.server conn) .WAIT
      changeTimeout conn LONG_SOCKET_TIMEOUT
      let client ← getElem (.client conn)
      observe (.established client.call pending.call)
      pending.next.run conn io

/-! ### The listener, the notifier and the timer -/

def onListener (state : FdState) (io : Io) : ProxyM Unit :=
  whenever (state.is .IN) do
    service (← get).listener
    let accepted ← newDescriptor io
    match accepted with
    | none => pure ()
    | some fd =>
      let client ← insertSocket (.new fd .IN SHORT_SOCKET_TIMEOUT (← get).ticks)
      readRequest (.sock client) .new (.sock client) (.firstRequestRead client) io

/-- `rt.get_ip()` -/
def getIp (io : Io) : ProxyM ResolvedIp := do
  let s ← get
  match s.resolving[io.resolved]? with
  | some (socket, host) =>
    set { s with resolving := s.resolving.eraseIdx io.resolved }
    return { ips := io.ips, port := io.port, socket, host }
  | none => throw .disabled

/-- `client->second` of the iterator that `sockets.find` returned. -/
def derefClient (client : Option SocketId) : ProxyM SocketId := do
  match client with
  | some it => return it
  | none => throw .endIterator

/-- The client moves from the sockets to a connection with a new server. -/
def startConnection (client : SocketId) (destination : Fd) (ip : ResolvedIp) (io : Io) : ProxyM Unit := do
  let e ← getElem (.sock client)
  modify (·.setElem (.sock client) .null)
  let ticks := (← get).ticks
  let server := EpollElem.new destination .OUT 0 ticks
  closeSocket client
  let conn := (← get).connections.next
  let connection := ⟨e, server, SHORT_SOCKET_TIMEOUT, ticks + SHORT_SOCKET_TIMEOUT⟩
  modify fun s => { s with connections := s.connections.insert connection }
  observe (.connected conn ip.host)
  update (.client conn) .RDHUP (.connecting conn ip.socket ip.host)
  updateHandler (.server conn) (.serverConnect conn (ip.copy io.unset))

def onNotifier (state : FdState) (io : Io) : ProxyM Unit :=
  whenever (state.is .IN) do
    service (← get).notifier
    let destination ← newDescriptor io
    match destination with
    | none => throw .uncaught
    | some destination =>
      let ip ← getIp io
      let key := (ip.socket, ip.host)
      let client := (← get).sockets.findId (·.key = ip.socket)
      match (← get).onResolve key with
      | none => pure ()
      | some _ =>
        let client ← derefClient client
        if ip.ips = [] then
          erasePending key
          send404 client io
        else do
          observe (.attempted destination ip.getIp)
          if io.connect ≠ 0 ∧ io.connect ≠ EINPROGRESS then
            send404 client io
            erasePending key
          else startConnection client destination ip io

def expired (ticks : Nat) (entry : SocketEntry) : Bool := entry.elem.expiresIn ≤ ticks

/-- The sockets that have expired are closed. -/
def sweepSockets (s : Proxy) : Proxy :=
  { s with
    sockets := s.sockets.keep (!expired s.ticks ·)
    handlers := fun fd =>
      if s.sockets.any (fun entry => expired s.ticks entry && entry.elem.fd = fd && fd ≠ 0) then none
      else s.handlers fd }

/-- The connections that have expired are closed. -/
def sweepConnections (s : Proxy) : Proxy :=
  { s with
    connections := s.connections.keep (fun c => s.ticks < c.expiresIn)
    handlers := fun fd =>
      if s.connections.any (fun c =>
          c.expiresIn ≤ s.ticks && (c.client.fd = fd || c.server.fd = fd) && fd ≠ 0) then none
      else s.handlers fd }

def onTimer (state : FdState) (io : Io) : ProxyM Unit :=
  whenever (state.is .IN) do
    service (← get).timer
    modify fun s => sweepSockets { s with ticks := s.ticks + io.ticked * TICK_INTERVAL }
    modify fun s => sweepConnections { s with ticks := s.ticks + io.ticked }

end Proxy

/-- `handler(state)` -/
def Handler.run (h : Handler) (state : FdState) (io : Io) : ProxyM Unit :=
  match h with
  | .listener => Proxy.onListener state io
  | .notifier => Proxy.onNotifier state io
  | .timer => Proxy.onTimer state io
  | .resolving sock host => Proxy.onResolving sock host state
  | .connecting conn socket host => Proxy.onConnecting conn socket host state
  | .serverConnect conn ip => Proxy.onServerConnect conn (ip.copy io.unset) state io
  | .readRequest source message iterator next =>
    Proxy.onReadable source iterator state io (Proxy.receiveRequest source message iterator next io)
  | .readResponse source message iterator next =>
    Proxy.onReadable source iterator state io (Proxy.receiveResponse source message iterator next io)
  | .send dest message iterator next =>
    Proxy.onWritable dest iterator state io (pure true) (Proxy.transmitMessage dest message iterator next io)
  | .transferServer conn rqst resp =>
    Proxy.onReadable (.server conn) (.conn conn) state io (Proxy.transferIn conn rqst resp io)
  | .transferClient conn resp =>
    Proxy.onWritable (.client conn) (.conn conn) state io
      (do return ((← get).responses resp).canWrite) (Proxy.transferOut conn resp io)
  | .reused conn => whenever (state.is .RDHUP) (Proxy.logAndClose (.conn conn))
  | .connectTransfer conn .client inMessage outMessage =>
    Proxy.onConnectTransfer conn (.client conn) (.server conn) inMessage outMessage state io
  | .connectTransfer conn .server inMessage outMessage =>
    Proxy.onConnectTransfer conn (.server conn) (.client conn) inMessage outMessage state io

/-- An event on a descriptor, and what the system calls of its handler return. -/
structure Event where
  fd : Fd
  state : FdState
  io : Io
  deriving DecidableEq, Repr

namespace Proxy

/-- One event of `start_wait`: the handler that is found runs. -/
def step (s : Proxy) (event : Event) : Except Fault Proxy :=
  match s.handlers event.fd with
  | none => .ok s
  | some h => (h.run event.state event.io s).map (·.2)

/-- The state that the constructor leaves, with the descriptors of the timer, the
notifier and the listener. -/
def init (timer notifier listener : Fd) : Proxy where
  sockets := ((Store.empty.insert ⟨timer, .new timer .IN INFINITE_TIMEOUT 0⟩).insert
    ⟨notifier, .new notifier .IN INFINITE_TIMEOUT 0⟩).insert ⟨listener, .new listener .IN INFINITE_TIMEOUT 0⟩
  connections := .empty
  handlers fd :=
    if fd = timer then some .timer else if fd = notifier then some .notifier
    else if fd = listener then some .listener else none
  onResolve _ := none
  resolving := []
  cache := .empty
  ticks := 0
  requests _ := .new
  responses _ := .new
  raws _ := .new
  nextMessage := 0
  timer := 0
  notifier := 1
  listener := 2
  calls := 0
  trace := []

end Proxy

end ProxyServer
