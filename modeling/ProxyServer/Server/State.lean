import ProxyServer.Foundation.Wp
import ProxyServer.Queue.EpollQueue
import ProxyServer.Request.CacheControl

/-!
# The state of the server

The queue, the handlers in `epoll_core`, pending resolutions and the cache. A
handler or a continuation is the closure of the source with its captures.
-/

namespace ProxyServer

/-! ### Closures -/

/-- A message behind a `shared_ptr`. -/
abbrev MsgId := Nat

inductive MessageRef where
  | request (id : MsgId)
  | response (id : MsgId)
  deriving DecidableEq, Repr

/-- `resolved_ip` with its `resolver_extra`. -/
structure ResolvedIp where
  ips : List UInt32
  port : UInt16
  socket : Fd
  host : Bytes
  deriving DecidableEq, Repr

/-- `adress_t` -/
structure Address where
  ip : UInt32
  port : UInt16
  deriving DecidableEq, Repr

/-- `resolved_ip(resolved_ip const &other)`, which leaves the port unset. -/
def ResolvedIp.copy (ip : ResolvedIp) (port : UInt16) : ResolvedIp := { ip with port }

def ResolvedIp.getIp (ip : ResolvedIp) : Address :=
  match ip.ips with
  | [] => { ip := 0, port := 0 }
  | first :: _ => { ip := first, port := ip.port }

def ResolvedIp.nextIp (ip : ResolvedIp) : ResolvedIp := { ip with ips := ip.ips.tail }

/-- `action_with_connection` -/
inductive AfterConnect where
  | handleClientRequest (rqst : ClientRequest)
  | fastTransfer (rqst : ClientRequest)

/-- `action_with_request` -/
inductive AfterRequest where
  | firstRequestRead (client : SocketId)
  | reuse (conn : ConnId) (oldHost : Bytes)

/-- `action_with_response` -/
inductive AfterResponse where
  | handleValidationResponse (conn : ConnId) (rqst : ClientRequest) (cached : ServerResponse)

/-- `action` -/
inductive AfterSend where
  | readResponse (dest : ElemRef) (iterator : EntryRef) (next : AfterResponse)
  | startTransfer (conn : ConnId) (rqst : ClientRequest)
  | reuseConnection (conn : ConnId) (oldHost : Bytes)
  | handleConnect (conn : ConnId)
  | closeSent (it : SocketId)
  | close404 (client : SocketId)

/-- One of the two elements of a connection. -/
inductive Side where
  | client | server
  deriving DecidableEq, Repr

def Side.elem (conn : ConnId) : Side → ElemRef
  | .client => .client conn
  | .server => .server conn

/-- `epoll_core::handler_t` -/
inductive Handler where
  | listener
  | notifier
  | timer
  /-- Installed by `connect_to_server`. -/
  | resolving (sock : SocketId) (host : Bytes)
  /-- Installed on the client by `notifier_handler`. -/
  | connecting (conn : ConnId) (socket : Fd) (host : Bytes)
  /-- `make_server_connect_handler` -/
  | serverConnect (conn : ConnId) (ip : ResolvedIp)
  | readRequest (source : ElemRef) (message : MsgId) (iterator : EntryRef) (next : AfterRequest)
  | readResponse (source : ElemRef) (message : MsgId) (iterator : EntryRef) (next : AfterResponse)
  | send (dest : ElemRef) (message : MessageRef) (iterator : EntryRef) (next : AfterSend)
  | transferServer (conn : ConnId) (rqst : ClientRequest) (resp : MsgId)
  | transferClient (conn : ConnId) (resp : MsgId)
  /-- Installed on the server by `reuse_connection`. -/
  | reused (conn : ConnId)
  /-- `make_connect_transfer_handler` of the element `side`. -/
  | connectTransfer (conn : ConnId) (side : Side) (inMessage outMessage : MsgId)

/-! ### State -/

/-- A value of `on_resolve`, with the number of the `connect_to_server` call. -/
structure Pending where
  call : Nat
  next : AfterConnect

/-- Observations of a run: not in the source. -/
inductive Obs where
  /-- The action of call `ran` runs on a client whose latest call is `latest`. -/
  | established (latest : Option Nat) (ran : Nat)
  /-- `connect` is called on a server's descriptor. -/
  | attempted (server : Fd) (address : Address)
  /-- A connection is made to a server at an address of the host. -/
  | connected (conn : ConnId) (host : Bytes)
  /-- A transfer of the response to a request is complete. -/
  | transferred (rqst : ClientRequest) (resp : ServerResponse)
  /-- `read_from` took these bytes from the element. -/
  | read (source : ElemRef) (bytes : Bytes)
  /-- A message of which these bytes are to be sent to the descriptor. -/
  | sending (fd : Fd) (message : MessageRef) (bytes : Bytes)
  /-- `write_to` gave these bytes of a message to the descriptor. -/
  | wrote (fd : Fd) (message : MessageRef) (bytes : Bytes)
  /-- The whole of a message was given to the element. -/
  | delivered (dest : ElemRef) (message : MessageRef)
  /-- The request of a client is handled, `held` is what is cached for its URL, and
  `message` is sent to the server. -/
  | handled (rqst : ClientRequest) (held : Option CachedMessage) (message : MessageRef)
  /-- The server has answered the request for a validation of what is cached for
  `rqst`. For some answers the client is sent the cached response: `given` is its
  descriptor and the message. -/
  | validated (rqst : ClientRequest) (cached resp : ServerResponse) (given : Option (Fd × MessageRef))

structure Proxy where
  sockets : Store SocketEntry
  connections : Store Connection
  handlers : Fd → Option Handler
  onResolve : Fd × Bytes → Option Pending
  /-- What `resolve_host` was given and `get_ip` has not returned. -/
  resolving : List (Fd × Bytes)
  cache : Cache
  ticks : Nat
  requests : MsgId → ClientRequest
  responses : MsgId → ServerResponse
  raws : MsgId → RawMessage
  nextMessage : MsgId
  listener : SocketId
  notifier : SocketId
  timer : SocketId
  /-- The number of `connect_to_server` calls: not in the source. -/
  calls : Nat
  trace : List Obs

inductive Fault where
  /-- The event cannot happen. -/
  | disabled
  /-- An exception that no handler catches. -/
  | uncaught
  /-- An operation on an entry that is not in the queue. -/
  | useAfterClose (entry : EntryRef)
  /-- `end()` is dereferenced or erased. -/
  | endIterator
  /-- The epoll of an element that was moved from. -/
  | nullElem
  /-- The listener, the notifier or the timer was closed. -/
  | service
  /-- `cache[cur_part]` is out of bounds. -/
  | outOfBounds
  /-- An invalid iterator in the cache. -/
  | cache
  deriving DecidableEq, Repr

abbrev ProxyM := StateT Proxy (Except Fault)

/-- What the system calls of one handler run return; `none` is an error. -/
structure Io where
  /-- `FIONREAD` -/
  canRead : Option Nat
  /-- `SO_ERROR` -/
  soError : Option Nat
  read : Option Bytes
  write : Option Nat
  /-- The descriptor of `accept` or `socket`. -/
  newFd : Option Fd
  /-- The error of `connect`, or 0. -/
  connect : Nat
  /-- The position in `resolving` of the next result, its addresses and port. -/
  resolved : Nat
  ips : List UInt32
  port : UInt16
  ticked : Nat
  /-- Memory that is not initialized. -/
  garbage : Bytes
  unset : UInt16
  deriving DecidableEq, Repr

def EINPROGRESS : Nat := 115
def ENETUNREACH : Nat := 101
def ECONNREFUSED : Nat := 111

namespace Proxy

open Wp

def elem (s : Proxy) : ElemRef → Option EpollElem
  | .sock id => (s.sockets.get id).map (·.elem)
  | .client conn => (s.connections.get conn).map (·.client)
  | .server conn => (s.connections.get conn).map (·.server)

def live (s : Proxy) : EntryRef → Bool
  | .sock id => (s.sockets.get id).isSome
  | .conn id => (s.connections.get id).isSome

def setElem (s : Proxy) (r : ElemRef) (e : EpollElem) : Proxy :=
  match r with
  | .sock id => match s.sockets.get id with
    | some entry => { s with sockets := s.sockets.set id { entry with elem := e } }
    | none => s
  | .client conn => match s.connections.get conn with
    | some c => { s with connections := s.connections.set conn { c with client := e } }
    | none => s
  | .server conn => match s.connections.get conn with
    | some c => { s with connections := s.connections.set conn { c with server := e } }
    | none => s

def owned (s : Proxy) (fd : Fd) : Bool :=
  s.sockets.any (·.elem.fd = fd) || s.connections.any fun c => c.client.fd = fd || c.server.fd = fd

def setHandler (s : Proxy) (fd : Fd) (h : Option Handler) : Proxy :=
  { s with handlers := fun other => if other = fd then h else s.handlers other }

/-- `~epoll_elem()` and `~file_descriptor()` -/
def destroy (s : Proxy) (e : EpollElem) : Proxy := if e.fd = 0 then s else s.setHandler e.fd none

end Proxy

end ProxyServer
