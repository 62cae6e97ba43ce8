import ProxyServer.Server.Decisions
import ProxyServer.Server.State

/-!
# Operations

The operations of `epoll_queue` and `epoll_elem`, and the functions of
`proxy_server` that handlers and continuations are made of.
-/

namespace ProxyServer

open Wp

namespace Proxy

/-! ### The queue -/

/-- A use of an entry, as by `log`. -/
def touch (it : EntryRef) : ProxyM Unit := do
  if (← get).live it then pure () else throw (.useAfterClose it)

def getElem (r : ElemRef) : ProxyM EpollElem := do
  match (← get).elem r with
  | some e => pure e
  | none => throw (.useAfterClose r.entry)

/-- `update(fd_state)` -/
def updateState (r : ElemRef) (state : FdState) : ProxyM Unit := do
  let e ← getElem r
  if e.events = state then pure ()
  else if e.fd = 0 then throw .nullElem
  else modify (·.setElem r { e with events := state })

/-- `update(handler_t)` -/
def updateHandler (r : ElemRef) (h : Handler) : ProxyM Unit := do
  let e ← getElem r
  if e.fd = 0 then throw .nullElem else modify (·.setHandler e.fd (some h))

def update (r : ElemRef) (state : FdState) (h : Handler) : ProxyM Unit := do
  updateState r state
  updateHandler r h

def closeSocket (it : SocketId) : ProxyM Unit := do
  match (← get).sockets.get it with
  | some entry => modify fun s => { s with sockets := s.sockets.erase it }.destroy entry.elem
  | none => throw (.useAfterClose (.sock it))

def closeConnection (it : ConnId) : ProxyM Unit := do
  match (← get).connections.get it with
  | some conn => modify fun s =>
      ({ s with connections := s.connections.erase it }.destroy conn.server).destroy conn.client
  | none => throw (.useAfterClose (.conn it))

def close : EntryRef → ProxyM Unit
  | .sock it => closeSocket it
  | .conn it => closeConnection it

def setActive (it : EntryRef) : ProxyM Unit := do
  let s ← get
  match it with
  | .sock id => match s.sockets.get id with
    | some entry =>
      let elem := { entry.elem with expiresIn := s.ticks + entry.elem.timeout }
      set { s with sockets := s.sockets.set id { entry with elem } }
    | none => throw (.useAfterClose it)
  | .conn id => match s.connections.get id with
    | some conn => set { s with
        connections := s.connections.set id { conn with expiresIn := s.ticks + conn.timeout } }
    | none => throw (.useAfterClose it)

/-- `sockets.insert(std::make_pair(fd, elem)).first` -/
def insertSocket (elem : EpollElem) : ProxyM SocketId := do
  let s ← get
  match s.sockets.findId (·.key = elem.fd) with
  | some it =>
    set (s.destroy elem)
    return it
  | none =>
    set { s with sockets := s.sockets.insert { key := elem.fd, elem } }
    return s.sockets.next

def saveRegistration (registration : EpollElem) (timeout : Nat) : ProxyM SocketId := do
  insertSocket { registration with expiresIn := (← get).ticks + timeout, timeout }

def getConnection (it : ConnId) : ProxyM Connection := do
  match (← get).connections.get it with
  | some conn => return conn
  | none => throw (.useAfterClose (.conn it))

/-- `change_timeout` -/
def changeTimeout (it : ConnId) (timeout : Nat) : ProxyM Unit := do
  let conn ← getConnection it
  modify fun s => { s with connections := s.connections.set it { conn with timeout } }

/-- `std::move(conn->get_client_registration())` -/
def takeClient (conn : ConnId) : ProxyM EpollElem := do
  let client ← getElem (.client conn)
  modify (·.setElem (.client conn) .null)
  return client

/-- A descriptor from the kernel is not open yet. -/
def newDescriptor (io : Io) : ProxyM (Option Fd) := do
  match io.newFd with
  | some fd => if fd = 0 ∨ (← get).owned fd then throw .disabled else return some fd
  | none => return none

/-- An entry that is never closed: the listener, the notifier or the timer. -/
def service (it : SocketId) : ProxyM Unit := do
  if (← get).live (.sock it) then pure () else throw .service

/-! ### Messages -/

def newRequest (m : ClientRequest) : ProxyM MsgId := do
  let s ← get
  set { s with
    requests := fun id => if id = s.nextMessage then m else s.requests id, nextMessage := s.nextMessage + 1 }
  return s.nextMessage

def newResponse (m : ServerResponse) : ProxyM MsgId := do
  let s ← get
  set { s with
    responses := fun id => if id = s.nextMessage then m else s.responses id, nextMessage := s.nextMessage + 1 }
  return s.nextMessage

def newRaw : ProxyM MsgId := do
  let s ← get
  set { s with
    raws := fun id => if id = s.nextMessage then .new else s.raws id, nextMessage := s.nextMessage + 1 }
  return s.nextMessage

def setRequest (id : MsgId) (m : ClientRequest) : ProxyM Unit :=
  modify fun s => { s with requests := fun other => if other = id then m else s.requests other }

def setResponse (id : MsgId) (m : ServerResponse) : ProxyM Unit :=
  modify fun s => { s with responses := fun other => if other = id then m else s.responses other }

def setRaw (id : MsgId) (m : RawMessage) : ProxyM Unit :=
  modify fun s => { s with raws := fun other => if other = id then m else s.raws other }

def observe (o : Obs) : ProxyM Unit := modify fun s => { s with trace := s.trace ++ [o] }

/-- `read_from`: the message, or `none` for an exception that the handlers catch. -/
def readMessage {L : Type} [Line L] (source : ElemRef) (m : BufferedMessage L) (io : Io) :
    ProxyM (Option (BufferedMessage L)) := do
  let _ ← getElem source
  match io.read with
  | none => return none
  | some bytes => match m.readFrom (bytes.take m.shouldRead) with
    | .ok m' =>
      observe (.read source (bytes.take m.shouldRead))
      return some m'
    | .error (.annotated _) => return none
    | .error _ => throw .uncaught

/-- `write_to` of the message `ref`, likewise. -/
def writeMessage {L : Type} (dest : ElemRef) (ref : MessageRef) (m : BufferedMessage L) (io : Io) :
    ProxyM (Option (BufferedMessage L)) := do
  let e ← getElem dest
  match io.write with
  | none => if m.curPart < m.cache.length then return none else throw .outOfBounds
  | some accepted => match m.writeTo accepted with
    | some (bytes, m') =>
      observe (.wrote e.fd ref bytes)
      return some m'
    | none => throw .outOfBounds

/-! ### Reading and sending -/

def readRequest (source : ElemRef) (message : ClientRequest) (iterator : EntryRef) (next : AfterRequest)
    (io : Io) : ProxyM Unit := do
  let m ← newRequest (message.transferred io.garbage)
  update source (.union .IN .RDHUP) (.readRequest source m iterator next)

def readResponse (source : ElemRef) (message : ServerResponse) (iterator : EntryRef) (next : AfterResponse)
    (io : Io) : ProxyM Unit := do
  let m ← newResponse (message.transferred io.garbage)
  update source (.union .IN .RDHUP) (.readResponse source m iterator next)

def sendRequest (dest : ElemRef) (message : ClientRequest) (iterator : EntryRef) (next : AfterSend)
    (io : Io) : ProxyM Unit := do
  let m ← newRequest (message.transferred io.garbage)
  let e ← getElem dest
  observe (.sending e.fd (.request m) message.unsent)
  update dest (.union .OUT .RDHUP) (.send dest (.request m) iterator next)

def sendResponse (dest : ElemRef) (message : ServerResponse) (iterator : EntryRef) (next : AfterSend)
    (io : Io) : ProxyM Unit := do
  let m ← newResponse (message.transferred io.garbage)
  let e ← getElem dest
  observe (.sending e.fd (.response m) message.unsent)
  update dest (.union .OUT .RDHUP) (.send dest (.response m) iterator next)

def sendAndRead (dest : ElemRef) (rqst : ClientRequest) (iterator : EntryRef) (next : AfterResponse)
    (io : Io) : ProxyM Unit :=
  sendRequest dest rqst iterator (.readResponse dest iterator next) io

def notFound : ServerResponse :=
  .ofHeader { requestLine := .new 404 (lit "Not Found"), properties := [] } []

def send404 (client : SocketId) (io : Io) : ProxyM Unit :=
  sendResponse (.sock client) notFound (.sock client) (.close404 client) io

def escapeClient (conn : ConnId) : ProxyM SocketId := do
  let client ← takeClient conn
  saveRegistration client SHORT_SOCKET_TIMEOUT

/-! ### Connecting -/

/-- `on_resolve.erase(key)` -/
def erasePending (key : Fd × Bytes) : ProxyM Unit :=
  modify fun s => { s with onResolve := fun other => if other = key then none else s.onResolve other }

/-- `on_resolve.insert`, which keeps an entry that is there. -/
def insertPending (key : Fd × Bytes) (pending : Pending) : ProxyM Unit :=
  modify fun s => { s with
    onResolve := fun other =>
      if other = key then some ((s.onResolve key).getD pending) else s.onResolve other }

def connectToServer (sock : SocketId) (host : Bytes) (next : AfterConnect) : ProxyM Unit := do
  let e ← getElem (.sock sock)
  let call := (← get).calls
  modify fun s => { s with calls := call + 1 }.setElem (.sock sock) { e with call := some call }
  insertPending (e.fd, host) { call, next }
  update (.sock sock) .RDHUP (.resolving sock host)
  service (← get).notifier
  modify fun s => { s with resolving := s.resolving ++ [(e.fd, host)] }

def fastTransfer (conn : ConnId) (rqst : ClientRequest) (io : Io) : ProxyM Unit :=
  sendRequest (.server conn) rqst (.conn conn) (.startTransfer conn rqst) io

def sendServerResponse (conn : ConnId) (rqst : ClientRequest) (resp : ServerResponse) (io : Io) :
    ProxyM Unit := do
  touch (.conn conn)
  if closes resp.getHeader then
    let it ← escapeClient conn
    closeConnection conn
    sendResponse (.sock it) resp (.sock it) (.closeSent it) io
  else
    updateState (.server conn) .WAIT
    sendResponse (.client conn) resp (.conn conn)
      (.reuseConnection conn (rqst.getHeader.getProperty (lit "host"))) io

/-! ### Continuations -/

def firstRequestRead (client : SocketId) (rqst : ClientRequest) : ProxyM Unit :=
  connectToServer client (rqst.getHeader.getProperty (lit "host")) (.handleClientRequest rqst)

def handleClientRequest (rqst : ClientRequest) (conn : ConnId) (io : Io) : ProxyM Unit := do
  let s ← get
  let handled := Obs.handled rqst (s.cache.lookup (toUrl rqst.getHeader)) (.request s.nextMessage)
  match planRequest s.cache rqst with
  | .error _ => throw .uncaught
  | .ok (.validate request cached) =>
    touch (.conn conn)
    sendAndRead (.server conn) request (.conn conn) (.handleValidationResponse conn rqst cached) io
    observe handled
  | .ok (.establish resp) => sendResponse (.client conn) resp (.conn conn) (.handleConnect conn) io
  | .ok .transfer =>
    fastTransfer conn rqst io
    observe handled

/-- The client leaves a connection that is closed, to connect anew. -/
def reconnect (conn : ConnId) (host : Bytes) (next : AfterConnect) : ProxyM Unit := do
  touch (.conn conn)
  let client ← takeClient conn
  closeConnection conn
  let it ← saveRegistration client LONG_SOCKET_TIMEOUT
  connectToServer it host next

def deleteCached (request : RequestHeader) : ProxyM Unit := do
  match (← get).cache.deleteCached request with
  | some cache => modify ({ · with cache })
  | none => throw .cache

def handleValidationResponse (conn : ConnId) (rqst : ClientRequest) (cached resp : ServerResponse) (io : Io) :
    ProxyM Unit := do
  touch (.conn conn)
  match validationVerdict resp with
  | .sendCached =>
    let client ← getElem (.client conn)
    let answer := (← get).nextMessage
    sendServerResponse conn rqst cached io
    observe (.validated rqst cached resp (some (client.fd, .response answer)))
  | .reconnect =>
    observe (.validated rqst cached resp none)
    deleteCached rqst.getHeader
    reconnect conn (rqst.getHeader.getProperty (lit "host")) (.fastTransfer rqst)
  | .refetch =>
    observe (.validated rqst cached resp none)
    deleteCached rqst.getHeader
    fastTransfer conn rqst io

def reuseConnection (conn : ConnId) (oldHost : Bytes) (io : Io) : ProxyM Unit := do
  touch (.conn conn)
  update (.server conn) .RDHUP (.reused conn)
  readRequest (.client conn) .new (.conn conn) (.reuse conn oldHost) io

/-- The continuation of `reuse_connection`, with the next request. -/
def requestReused (conn : ConnId) (oldHost : Bytes) (rqst : ClientRequest) (io : Io) : ProxyM Unit := do
  let host := rqst.getHeader.getProperty (lit "host")
  touch (.conn conn)
  if host = oldHost then handleClientRequest rqst conn io
  else reconnect conn host (.handleClientRequest rqst)

def handleConnect (conn : ConnId) : ProxyM Unit := do
  touch (.conn conn)
  let clientMessage ← newRaw
  let serverMessage ← newRaw
  let all := FdState.union .RDHUP (.union .IN .OUT)
  update (.server conn) all (.connectTransfer conn .server serverMessage clientMessage)
  update (.client conn) all (.connectTransfer conn .client clientMessage serverMessage)

/-- The continuation of `fast_transfer`, when the request is sent. -/
def startTransfer (conn : ConnId) (rqst : ClientRequest) : ProxyM Unit := do
  let resp ← newResponse .new
  update (.server conn) (.union .IN .RDHUP) (.transferServer conn rqst resp)
  update (.client conn) (.union .WAIT .RDHUP) (.transferClient conn resp)

end Proxy

def AfterConnect.run (next : AfterConnect) (conn : ConnId) (io : Io) : ProxyM Unit :=
  match next with
  | .handleClientRequest rqst => Proxy.handleClientRequest rqst conn io
  | .fastTransfer rqst => Proxy.fastTransfer conn rqst io

def AfterRequest.run (next : AfterRequest) (rqst : ClientRequest) (io : Io) : ProxyM Unit :=
  match next with
  | .firstRequestRead client => Proxy.firstRequestRead client rqst
  | .reuse conn oldHost => Proxy.requestReused conn oldHost rqst io

def AfterResponse.run (next : AfterResponse) (resp : ServerResponse) (io : Io) : ProxyM Unit :=
  match next with
  | .handleValidationResponse conn rqst cached => Proxy.handleValidationResponse conn rqst cached resp io

def AfterSend.run (next : AfterSend) (io : Io) : ProxyM Unit :=
  match next with
  | .readResponse dest iterator next => do
    Proxy.touch iterator
    Proxy.readResponse dest .new iterator next io
  | .startTransfer conn rqst => Proxy.startTransfer conn rqst
  | .reuseConnection conn oldHost => Proxy.reuseConnection conn oldHost io
  | .handleConnect conn => Proxy.handleConnect conn
  | .closeSent it => do
    Proxy.touch (.sock it)
    Proxy.closeSocket it
  | .close404 client => Proxy.closeSocket client

end ProxyServer
