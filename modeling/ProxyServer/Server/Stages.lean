import ProxyServer.Server.Board

/-!
# The stages of clients and connections

Where the server stands with a client or a connection: which handlers are installed for it
and which events they wait for.
-/

namespace ProxyServer

open Proxy (reads writes)

/-! ### Stages -/

/-- The events that `epoll_wait` has returned and that are still to be dispatched. -/
abbrev Batch := Fd → Option FdState

namespace Batch

def input (p : Batch) (f : Fd) : Bool := (p f).any (·.input)

def output (p : Batch) (f : Fd) : Bool := (p f).any (·.output)

/-- What is left of `q` are the events of `p`. -/
def Rest (q p : Batch) : Prop := ∀ f, p f = q f ∨ p f = none

variable {p q : Batch} {f : Fd}

theorem input_of_spent (spent : p f = none) : p.input f = false := by
  rw [input, spent, Option.any_none]

theorem output_of_spent (spent : p f = none) : p.output f = false := by
  rw [output, spent, Option.any_none]

theorem Rest.input (rest : q.Rest p) (unread : q.input f = false) : p.input f = false := by
  rcases rest f with same | spent
  · rwa [Batch.input, same]
  · exact input_of_spent spent

theorem Rest.output (rest : q.Rest p) (unwritten : q.output f = false) : p.output f = false := by
  rcases rest f with same | spent
  · rwa [Batch.output, same]
  · exact output_of_spent spent

theorem Rest.waiting (rest : q.Rest p) (waiting : p f ≠ none) : q f ≠ none := by
  rcases rest f with same | spent
  · rwa [← same]
  · exact absurd spent waiting

end Batch

/-- A handler of the client that is left installed, with no interest, while the server is
asked. -/
inductive Handler.LeftClient (p : Batch) (c : ConnId) (f : Fd) : Handler → Prop where
  | connecting (socket : Fd) (host : Bytes) : LeftClient p c f (.connecting c socket host)
  | read (m : MsgId) (host : Bytes) (unread : p.input f = false) :
      LeftClient p c f (.readRequest (.client c) m (.conn c) (.reuse c host))

/-- A handler of the server that is left installed, with no interest, while the client is
answered. -/
inductive Handler.LeftServer (c : ConnId) : Handler → Prop where
  | transferred (rqst : ClientRequest) (m : MsgId) : LeftServer c (.transferServer c rqst m)
  | read (m : MsgId) (next : AfterResponse) : LeftServer c (.readResponse (.server c) m (.conn c) next)

/-- The server while a request is handled. -/
inductive ReadyServer (p : Batch) (c : ConnId) : Handler → Watch → Prop where
  | established (f : Fd) (ip : ResolvedIp) (unwritten : p.output f = false) : ReadyServer p c (.serverConnect c ip) ⟨f, .WAIT⟩
  | reused (f : Fd) : ReadyServer p c (.reused c) ⟨f, .RDHUP⟩

/-- What is done when a request is sent. -/
inductive AfterSend.Asks (c : ConnId) : AfterSend → Prop where
  | transfer (rqst : ClientRequest) : Asks c (.startTransfer c rqst)
  | validate (rqst : ClientRequest) (cached : ServerResponse) :
      Asks c (.readResponse (.server c) (.conn c) (.handleValidationResponse c rqst cached))

/-- The handlers and the interests of the client and the server of a connection. What is
still to be dispatched for a descriptor may be older than its interest: the stage says which
of it the handler does not take. -/
inductive Stage (p : Batch) (c : ConnId) : Handler → Watch → Handler → Watch → Prop where
  | connecting {f f' socket : Fd} {host : Bytes} {ip : ResolvedIp} :
      Stage p c (.connecting c socket host) ⟨f, .RDHUP⟩ (.serverConnect c ip) ⟨f', .OUT⟩
  | asking {f f' : Fd} {client : Handler} {m : MsgId} {next : AfterSend} (left : client.LeftClient p c f) (asks : next.Asks c)
      (unwritten : p f' ≠ none → p.output f = false) :
      Stage p c client ⟨f, .WAIT⟩ (.send (.server c) (.request m) (.conn c) next) ⟨f', writes⟩
  | validating {f f' : Fd} {client : Handler} {m : MsgId} {rqst : ClientRequest} {cached : ServerResponse}
      (left : client.LeftClient p c f) :
      Stage p c client ⟨f, .WAIT⟩ (.readResponse (.server c) m (.conn c) (.handleValidationResponse c rqst cached)) ⟨f', reads⟩
  | transferring {f f' : Fd} {rqst : ClientRequest} {m : MsgId} (events : FdState)
      (waits : events = .RDHUP ∧ p.output f = false ∨ events = writes) :
      Stage p c (.transferClient c m) ⟨f, events⟩ (.transferServer c rqst m) ⟨f', reads⟩
  | answering {f f' : Fd} {server : Handler} {m : MsgId} {host : Bytes} (left : server.LeftServer c)
      (unread : p.input f' = false) :
      Stage p c (.send (.client c) (.response m) (.conn c) (.reuseConnection c host)) ⟨f, writes⟩ server ⟨f', .WAIT⟩
  | keptAlive {f f' : Fd} {m : MsgId} {host : Bytes} :
      Stage p c (.readRequest (.client c) m (.conn c) (.reuse c host)) ⟨f, reads⟩ (.reused c) ⟨f', .RDHUP⟩
  | establishing {f : Fd} {k' : Watch} {server : Handler} {m : MsgId} (ready : ReadyServer p c server k') :
      Stage p c (.send (.client c) (.response m) (.conn c) (.handleConnect c)) ⟨f, writes⟩ server k'
  | tunnelling {f f' : Fd} {a b : MsgId} (client server : FdState) (left : client.rdhup = true) (right : server.rdhup = true) :
      Stage p c (.connectTransfer c .client a b) ⟨f, client⟩ (.connectTransfer c .server b a) ⟨f', server⟩

section

variable {p q : Batch} {c : ConnId} {f : Fd} {h h' : Handler} {k k' : Watch}

theorem Handler.LeftClient.rest (left : h.LeftClient q c f) (rest : q.Rest p) : h.LeftClient p c f := by
  cases left with
  | connecting socket host => exact .connecting socket host
  | read m host unread => exact .read m host (rest.input unread)

theorem ReadyServer.rest (ready : ReadyServer q c h k) (rest : q.Rest p) : ReadyServer p c h k := by
  cases ready with
  | established f ip unwritten => exact .established f ip (rest.output unwritten)
  | reused f => exact .reused f

/-- A stage is kept when events are dispatched. -/
theorem Stage.rest (stage : Stage q c h k h' k') (rest : q.Rest p) : Stage p c h k h' k' := by
  cases stage with
  | connecting => exact .connecting
  | asking left asks unwritten =>
    exact .asking (left.rest rest) asks fun waiting => rest.output (unwritten (rest.waiting waiting))
  | validating left => exact .validating (left.rest rest)
  | transferring events waits => exact .transferring events (waits.imp_left fun waits => ⟨waits.1, rest.output waits.2⟩)
  | answering left unread => exact .answering left (rest.input unread)
  | keptAlive => exact .keptAlive
  | establishing ready => exact .establishing (ready.rest rest)
  | tunnelling client server left right => exact .tunnelling client server left right

end

/-- The handler and the interest of an entry of `queue.sockets`. -/
inductive SocketStage (id : SocketId) : Handler → FdState → Prop where
  | listener : SocketStage id .listener .IN
  | notifier : SocketStage id .notifier .IN
  | timer : SocketStage id .timer .IN
  | reading {m : MsgId} :
      SocketStage id (.readRequest (.sock id) m (.sock id) (.firstRequestRead id)) reads
  | resolving {host : Bytes} : SocketStage id (.resolving id host) .RDHUP
  | closing {m : MsgId} : SocketStage id (.send (.sock id) (.response m) (.sock id) (.closeSent id)) writes
  | refusing {m : MsgId} : SocketStage id (.send (.sock id) (.response m) (.sock id) (.close404 id)) writes

namespace Board

def StagedAt (b : Board) (p : Batch) : EntryRef → Prop
  | .sock id => ∀ k, b.elem (.sock id) = some k → ∃ h, b.handlers k.fd = some h ∧ SocketStage id h k.events
  | .conn c => ∀ k k', b.elem (.client c) = some k → b.elem (.server c) = some k' →
      ∃ h h', b.handlers k.fd = some h ∧ b.handlers k'.fd = some h' ∧ Stage p c h k h' k'

/-- Every entry of the queue is at a stage. -/
def Staged (b : Board) (p : Batch) : Prop := ∀ it, b.StagedAt p it

theorem Staged.rest {b : Board} {p q : Batch} (staged : b.Staged q) (rest : q.Rest p) : b.Staged p := by
  intro it
  cases it with
  | sock id => exact staged (.sock id)
  | conn c =>
    intro k k' client server
    obtain ⟨h, h', installed, installed', stage⟩ := staged (.conn c) k k' client server
    exact ⟨h, h', installed, installed', stage.rest rest⟩

def alive (b : Board) : EntryRef → Prop
  | .sock id => b.elem (.sock id) ≠ none
  | .conn c => b.elem (.client c) ≠ none ∨ b.elem (.server c) ≠ none

/-- Every descriptor is owned once, and a socket has its descriptor for its key. -/
structure Exclusive (b : Board) : Prop where
  present : ∀ {r k}, b.elem r = some k → k.fd ≠ 0
  unique : ∀ {r r' k k'}, b.elem r = some k → b.elem r' = some k' → k.fd = k'.fd → r = r'
  keyed : ∀ {id f}, b.key id = some f → ∃ k, b.elem (.sock id) = some k ∧ k.fd = f

/-! ### What is touched -/

/-- From `b` to `w` only the entries of `D` have changed, and they have no descriptor of
another entry. -/
structure Touched (b : Board) (D : EntryRef → Prop) (w : Board) : Prop where
  elems : ∀ r, ¬D r.entry → w.elem r = b.elem r
  handlers : ∀ {r k}, ¬D r.entry → b.elem r = some k → w.handlers k.fd = b.handlers k.fd
  apart : ∀ r' {r k k'}, ¬D r.entry → b.elem r = some k → D r'.entry → w.elem r' = some k' → k'.fd ≠ k.fd

variable {b w : Board} {D D' : EntryRef → Prop} {r r' : ElemRef} {k k' : Watch} {it : EntryRef} {id n : SocketId}
  {c : ConnId} {h : Handler} {f : Fd}

theorem Exclusive.touched (exclusive : b.Exclusive) (D : EntryRef → Prop) : Touched b D b where
  elems _ _ := rfl
  handlers _ _ := rfl
  apart := by
    intro r' r k k' outside owner inside owner' same
    rw [exclusive.unique owner' owner same] at inside
    exact outside inside

theorem Touched.staged {p : Batch} (touched : Touched b D w) (staged : b.Staged p) (here : ∀ it, D it → w.StagedAt p it) :
    w.Staged p := by
  intro it
  by_cases inside : D it
  · exact here it inside
  · cases it with
    | sock id =>
      intro k owner
      rw [touched.elems (.sock id) inside] at owner
      rw [touched.handlers (r := .sock id) inside owner]
      exact staged (.sock id) k owner
    | conn c =>
      intro k k' client server
      rw [touched.elems (.client c) inside] at client
      rw [touched.elems (.server c) inside] at server
      rw [touched.handlers (r := .client c) inside client, touched.handlers (r := .server c) inside server]
      exact staged (.conn c) k k' client server

/-! ### What moves make of a board -/

@[simp] theorem elem_setElem (r other : ElemRef) : (b.setElem r k).elem other = if other = r then some k else b.elem other := rfl

@[simp] theorem elem_setHandler : (b.setHandler f h).elem r = b.elem r := rfl

@[simp] theorem elem_seat (r other : ElemRef) : (b.seat r k h).elem other = if other = r then some k else b.elem other := rfl

@[simp] theorem handlers_seat (r : ElemRef) : (b.seat r k h).handlers f = if f = k.fd then some h else b.handlers f := rfl

@[simp] theorem key_seat (r : ElemRef) : (b.seat r k h).key = b.key := rfl

@[simp] theorem handlers_setElem (r : ElemRef) : (b.setElem r k).handlers = b.handlers := rfl

@[simp] theorem key_setElem (r : ElemRef) : (b.setElem r k).key = b.key := rfl

@[simp] theorem elem_addSocket (r : ElemRef) : (b.addSocket n k).elem r = if r = .sock n then some k else b.elem r := rfl

@[simp] theorem handlers_addSocket : (b.addSocket n k).handlers = b.handlers := rfl

@[simp] theorem elem_eraseConnection (r : ElemRef) :
    (b.eraseConnection c k k').elem r = if r = .client c ∨ r = .server c then none else b.elem r := rfl

@[simp] theorem key_eraseConnection : (b.eraseConnection c k k').key = b.key := rfl

@[simp] theorem elem_addConnection (r : ElemRef) : (b.addConnection c k k').elem r =
    if r = .client c then some k else if r = .server c then some k' else b.elem r := rfl

@[simp] theorem elem_eraseSocket (r : ElemRef) : (b.eraseSocket id k).elem r = if r = .sock id then none else b.elem r := rfl

theorem handlers_eraseConnection (client : f ≠ k.fd) (server : f ≠ k'.fd) :
    (b.eraseConnection c k k').handlers f = b.handlers f := by
  simp [eraseConnection, release, client, server]

theorem Touched.setElem (touched : Touched b D w) (inside : D r.entry)
    (apart : ∀ r' k', ¬D r'.entry → b.elem r' = some k' → k.fd ≠ k'.fd) : Touched b D (w.setElem r k) where
  elems := by
    intro other outside
    rw [elem_setElem, if_neg (by rintro rfl; exact outside inside)]
    exact touched.elems other outside
  handlers outside owner := touched.handlers outside owner
  apart := by
    intro other r' k' k'' outside owner inside' owner'
    rw [elem_setElem] at owner'
    split at owner'
    · cases owner'
      exact apart r' k' outside owner
    · exact touched.apart other outside owner inside' owner'

theorem Touched.setHandler (touched : Touched b D w) (apart : ∀ r' k', ¬D r'.entry → b.elem r' = some k' → f ≠ k'.fd) :
    Touched b D (w.setHandler f h) where
  elems := touched.elems
  handlers := by
    intro r k outside owner
    show (if k.fd = f then some h else w.handlers k.fd) = _
    rw [if_neg (apart r k outside owner).symm]
    exact touched.handlers outside owner
  apart := touched.apart

/-- An element of an entry of `D` keeps its descriptor. -/
theorem Touched.seat (touched : Touched b D w) (inside : D r.entry) (owner : w.elem r = some k) (events : FdState) :
    Touched b D (w.seat r ⟨k.fd, events⟩ h) := by
  have apart : ∀ r' k', ¬D r'.entry → b.elem r' = some k' → k.fd ≠ k'.fd := fun r' k' outside owner' =>
    touched.apart r outside owner' inside owner
  exact (touched.setElem (k := ⟨k.fd, events⟩) inside apart).setHandler apart

theorem Touched.release (touched : Touched b D w) (apart : ∀ r' k', ¬D r'.entry → b.elem r' = some k' → f ≠ k'.fd) :
    Touched b D (w.release f) where
  elems := touched.elems
  handlers := by
    intro r k outside owner
    show (if k.fd = f ∧ f ≠ 0 then none else w.handlers k.fd) = _
    rw [if_neg (fun both => (apart r k outside owner).symm both.1)]
    exact touched.handlers outside owner
  apart := touched.apart

theorem Touched.eraseElems {w' : Board} (touched : Touched b D w) (handlers : w'.handlers = w.handlers)
    (elems : ∀ r, w'.elem r = w.elem r ∨ D r.entry ∧ w'.elem r = none) : Touched b D w' where
  elems := by
    intro r outside
    rcases elems r with same | ⟨inside, -⟩
    · rw [same, touched.elems r outside]
    · exact absurd inside outside
  handlers outside owner := by
    rw [handlers]
    exact touched.handlers outside owner
  apart := by
    intro r' r k k' outside owner inside owner'
    rcases elems r' with same | ⟨-, gone⟩
    · rw [same] at owner'
      exact touched.apart r' outside owner inside owner'
    · rw [gone] at owner'
      cases owner'

theorem Touched.eraseSocket (touched : Touched b D w) (inside : D (.sock id)) (owner : w.elem (.sock id) = some k) :
    Touched b D (w.eraseSocket id k) := by
  have released : Touched b D (w.release k.fd) :=
    touched.release fun r' k' outside owner' => touched.apart (.sock id) outside owner' inside owner
  refine released.eraseElems rfl fun r => ?_
  by_cases same : r = .sock id
  · subst same
    exact Or.inr ⟨inside, if_pos rfl⟩
  · exact Or.inl (if_neg same)

theorem Touched.eraseConnection (touched : Touched b D w) (inside : D (.conn c)) (client : w.elem (.client c) = some k)
    (server : w.elem (.server c) = some k') : Touched b D (w.eraseConnection c k k') := by
  have released : Touched b D ((w.release k'.fd).release k.fd) := by
    refine (touched.release ?_).release ?_
    · exact fun r' k'' outside owner' => touched.apart (.server c) outside owner' inside server
    · exact fun r' k'' outside owner' => touched.apart (.client c) outside owner' inside client
  refine released.eraseElems rfl fun r => ?_
  by_cases same : r = .client c ∨ r = .server c
  · refine Or.inr ⟨?_, if_pos same⟩
    rcases same with rfl | rfl
    · exact inside
    · exact inside
  · exact Or.inl (if_neg same)

/-- A new entry. -/
theorem Touched.extend {w' : Board} (touched : Touched b D w) (it : EntryRef) (handlers : w'.handlers = w.handlers)
    (elems : ∀ r, r.entry ≠ it → w'.elem r = w.elem r)
    (apart : ∀ r k r' k', ¬D r.entry → b.elem r = some k → r'.entry = it → w'.elem r' = some k' → k'.fd ≠ k.fd) :
    Touched b (fun x => D x ∨ x = it) w' where
  elems := by
    intro r outside
    obtain ⟨outside, other⟩ := not_or.mp outside
    rw [elems r other, touched.elems r outside]
  handlers outside owner := by
    rw [handlers]
    exact touched.handlers (not_or.mp outside).1 owner
  apart := by
    intro r' r k k' outside owner inside owner'
    obtain ⟨outside, -⟩ := not_or.mp outside
    by_cases new : r'.entry = it
    · exact apart r k r' k' outside owner new owner'
    · rw [elems r' new] at owner'
      exact touched.apart r' outside owner (inside.resolve_right new) owner'

end Board

end ProxyServer
