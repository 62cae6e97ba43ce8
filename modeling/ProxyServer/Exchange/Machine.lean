import ProxyServer.Foundation.Runs
import ProxyServer.Request.Chunked
import ProxyServer.Server.Decisions
import ProxyServer.Server.State

/-!
# The exchanges of a connection

A client and a server of one host on a connection that is kept alive: the
continuations of `handle_client_request`, `fast_transfer`, `send_server_response`
and `reuse_connection`, and an origin that answers the requests that it is sent.
-/

namespace ProxyServer

/-! ### What the origin answers -/

/-- An interim response: a header with a code of 1xx and no body. -/
structure Interim where
  text : HeaderText
  header : ResponseHeader
  parsed : text.header = .ok header
  code : 100 ≤ header.requestLine.code ∧ header.requestLine.code < 200
  unsized : header.hasProperty (lit "content-length") = false
  uncoded : header.hasProperty (lit "transfer-encoding") = false

/-- How a body ends: at the length that is declared, with its last chunk, or with the
header when there is none, whatever that declares. -/
def Framed (header : ResponseHeader) (body : Bytes) : Prop :=
  body = [] ∨
  header.hasProperty (lit "content-length") = true ∧
    header.getInt (lit "content-length") = .ok (body.length : Int) ∨
  header.hasProperty (lit "content-length") = false ∧
    (∃ p ∈ header.properties, p.name = lit "transfer-encoding" ∧ toLower p.value = lit "chunked") ∧
    ChunkedBody body

structure Final where
  text : HeaderText
  header : ResponseHeader
  parsed : text.header = .ok header
  code : 200 ≤ header.requestLine.code
  body : Bytes
  framed : Framed header body

/-- The answer to a request: interim responses and the final one. -/
structure Answer where
  interims : List Interim
  final : Final

namespace Answer

/-- The answer on the stream from the origin. -/
def bytes (a : Answer) : Bytes := a.interims.flatMap (·.text.bytes) ++ (a.final.text.bytes ++ a.final.body)

/-- The first header of the answer, on the stream and parsed. -/
def first (a : Answer) : HeaderText :=
  match a.interims with
  | [] => a.final.text
  | interim :: _ => interim.text

def head (a : Answer) : ResponseHeader :=
  match a.interims with
  | [] => a.final.header
  | interim :: _ => interim.header

def behind (a : Answer) : Bytes :=
  match a.interims with
  | [] => a.final.body
  | _ :: rest => rest.flatMap (·.text.bytes) ++ (a.final.text.bytes ++ a.final.body)

/-- The answer as a client is given it: its first header is printed. -/
def forwarded (a : Answer) : Bytes := a.head.print ++ a.behind

theorem bytes_eq (a : Answer) : a.bytes = a.first.bytes ++ a.behind := by
  unfold bytes first behind
  cases a.interims with
  | nil => rfl
  | cons interim rest => simp

theorem parsed (a : Answer) : a.first.header = .ok a.head := by
  unfold first head
  cases a.interims with
  | nil => exact a.final.parsed
  | cons interim rest => exact interim.parsed

end Answer

/-! ### The connection -/

/-- What is done when a request is sent. -/
inductive Sent where
  | validate (rqst : ClientRequest) (cached : ServerResponse)
  | transfer (rqst : ClientRequest)
  deriving DecidableEq, Repr

inductive ExchangePhase where
  /-- The next request of the client is read; the connection is to `oldHost`. -/
  | awaiting (oldHost : Bytes)
  | sending (m : ClientRequest) (next : Sent)
  /-- `send_and_read` reads the answer to a validation. -/
  | validating (m : ServerResponse) (rqst : ClientRequest) (cached : ServerResponse)
  | transferring (m : ServerResponse) (rqst : ClientRequest)
  /-- A response is sent to the client, which is closed then if `closing`. -/
  | answering (m : ServerResponse) (rqst : ClientRequest) (certified : Option ServerResponse) (closing : Bool)
  /-- A new connection to the server is made for the request. -/
  | reconnecting (rqst : ClientRequest)
  /-- The connection is closed, or a tunnel. -/
  | left
  deriving DecidableEq, Repr

/-- A request of the client that is answered: what the origin answered to what it was
sent last, what was certified by that when it is the cached response that the client
was given, and what the client was given. -/
structure Exchange where
  rqst : ClientRequest
  answer : Answer
  certified : Option ServerResponse
  delivered : Bytes

structure KeptAlive where
  phase : ExchangePhase
  cache : Cache
  /-- What the origin sent and was not read. -/
  unread : Bytes
  /-- What the server was sent since the last request of the client. -/
  asked : Bytes
  /-- What the client was given since its last request. -/
  written : Bytes
  /-- The origin's answer to the last request that it was sent for that of the client. -/
  answer : Option Answer
  requests : List ClientRequest
  done : List Exchange

/-- What happens: a request of the client is read, other connections change the
cache, the server takes bytes of a request, for which the origin has an answer, a read
of the server returns `n` bytes, the client takes bytes, or something is closed. -/
inductive KeptAliveCall where
  | request (rqst : ClientRequest) (garbage : Bytes)
  | share (cache : Cache)
  | serverOut (accepted : Nat) (answer : Answer) (garbage : Bytes)
  | serverIn (n : Nat) (garbage : Bytes)
  | clientOut (accepted : Nat)
  | reconnected (garbage : Bytes)
  | close

namespace KeptAlive

def start (host : Bytes) (cache : Cache) : KeptAlive :=
  { phase := .awaiting host, cache, unread := [], asked := [], written := [], answer := none, requests := [], done := [] }

/-- `handle_client_request` -/
def handleClientRequest (s : KeptAlive) (rqst : ClientRequest) (garbage : Bytes) : Except Fault KeptAlive :=
  match planRequest s.cache rqst with
  | .error _ => .error .uncaught
  | .ok (.validate request cached) =>
    .ok { s with phase := .sending (request.transferred garbage) (.validate rqst cached) }
  | .ok (.establish _) => .ok { s with phase := .left }
  | .ok .transfer => .ok { s with phase := .sending (rqst.transferred garbage) (.transfer rqst) }

/-- `send_server_response` -/
def sendServerResponse (s : KeptAlive) (rqst : ClientRequest) (resp : ServerResponse)
    (certified : Option ServerResponse) (garbage : Bytes) : KeptAlive :=
  { s with phase := .answering (resp.transferred garbage) rqst certified (closes resp.getHeader) }

/-- `handle_validation_response` -/
def handleValidationResponse (s : KeptAlive) (rqst : ClientRequest) (cached resp : ServerResponse)
    (garbage : Bytes) : Except Fault KeptAlive :=
  match validationVerdict resp with
  | .sendCached => .ok (s.sendServerResponse rqst cached (some cached) garbage)
  | .reconnect =>
    match s.cache.deleteCached rqst.getHeader with
    | some cache => .ok { s with cache, phase := .reconnecting rqst, unread := [] }
    | none => .error .cache
  | .refetch =>
    match s.cache.deleteCached rqst.getHeader with
    | some cache => .ok { s with cache, phase := .sending (rqst.transferred garbage) (.transfer rqst) }
    | none => .error .cache

def transferred (s : KeptAlive) (rqst : ClientRequest) (resp : ServerResponse) (garbage : Bytes) :
    Except Fault KeptAlive :=
  match s.cache.saveIfAllowed rqst resp with
  | some cache => .ok ({ s with cache }.sendServerResponse rqst resp none garbage)
  | none => .error .cache

def sent (s : KeptAlive) (answer : Answer) (garbage : Bytes) (next : Sent) : KeptAlive :=
  let s := { s with unread := s.unread ++ answer.bytes, answer := some answer }
  match next with
  | .validate rqst cached => { s with phase := .validating (BufferedMessage.new.transferred garbage) rqst cached }
  | .transfer rqst => { s with phase := .transferring .new rqst }

/-- `read_from` of the server. -/
def readFrom (s : KeptAlive) (m : ServerResponse) (n : Nat) : Except Fault (ServerResponse × KeptAlive) :=
  if 0 < n ∧ n ≤ m.shouldRead ∧ n ≤ s.unread.length then
    match m.readFrom (s.unread.take n) with
    | .ok m => .ok (m, { s with unread := s.unread.drop n })
    | .error _ => .error .uncaught
  else .error .disabled

/-- `write_to` of the client. -/
def writeTo (s : KeptAlive) (m : ServerResponse) (accepted : Nat) : Except Fault (ServerResponse × KeptAlive) :=
  match m.writeTo accepted with
  | some (bytes, m) => .ok (m, { s with written := s.written ++ bytes })
  | none => .error .outOfBounds

def serverIn (s : KeptAlive) (n : Nat) (garbage : Bytes) : Except Fault KeptAlive :=
  match s.phase with
  | .validating m rqst cached => do
    let (m, s) ← s.readFrom m n
    if m.isRead then s.handleValidationResponse rqst cached (m.transferred garbage) garbage
    else return { s with phase := .validating m rqst cached }
  | .transferring m rqst => do
    let (m, s) ← s.readFrom m n
    if m.isRead then s.transferred rqst m garbage else return { s with phase := .transferring m rqst }
  | _ => .error .disabled

def clientOut (s : KeptAlive) (accepted : Nat) : Except Fault KeptAlive :=
  match s.phase with
  | .transferring m rqst =>
    if m.canWrite then do
      let (m, s) ← s.writeTo m accepted
      return { s with phase := .transferring m rqst }
    else .ok s
  | .answering m rqst certified closing => do
    let (m, s) ← s.writeTo m accepted
    if m.isWritten then
      match s.answer with
      | some answer => return { s with
          phase := if closing then .left else .awaiting (rqst.getHeader.getProperty (lit "host"))
          done := s.done ++ [{ rqst, answer, certified, delivered := s.written }] }
      | none => .error .disabled
    else return { s with phase := .answering m rqst certified closing }
  | _ => .error .disabled

def step (s : KeptAlive) : KeptAliveCall → Except Fault KeptAlive
  | .request rqst garbage =>
    match s.phase with
    | .awaiting oldHost =>
      if rqst.isRead then
        let s := { s with requests := s.requests ++ [rqst], asked := [], written := [], answer := none }
        if rqst.getHeader.getProperty (lit "host") = oldHost then s.handleClientRequest rqst garbage
        else .ok { s with phase := .left }
      else .error .disabled
    | _ => .error .disabled
  | .share cache => .ok { s with cache }
  | .serverOut accepted answer garbage =>
    match s.phase with
    | .sending m next =>
      match m.writeTo accepted with
      | some (bytes, m) =>
        let s := { s with asked := s.asked ++ bytes }
        if m.isWritten then .ok (s.sent answer garbage next) else .ok { s with phase := .sending m next }
      | none => .error .outOfBounds
    | _ => .error .disabled
  | .serverIn n garbage => s.serverIn n garbage
  | .clientOut accepted => s.clientOut accepted
  | .reconnected garbage =>
    match s.phase with
    | .reconnecting rqst => .ok { s with phase := .sending (rqst.transferred garbage) (.transfer rqst) }
    | _ => .error .disabled
  | .close => .ok { s with phase := .left }

/-- A read of what is there. -/
theorem readFrom_of {s : KeptAlive} {m m' : ServerResponse} {p rest : Bytes} (present : p ≠ []) (room : p.length ≤ m.shouldRead)
    (unread : s.unread = p ++ rest) (read : m.readFrom p = .ok m') :
    s.readFrom m p.length = .ok (m', { s with unread := rest }) := by
  have some_ := List.length_pos_of_ne_nil present
  have within : p.length ≤ s.unread.length := by
    rw [unread, List.length_append]
    omega
  unfold KeptAlive.readFrom
  rw [if_pos ⟨some_, room, within⟩, unread, List.take_left, List.drop_left, read]

end KeptAlive

end ProxyServer
