import ProxyServer.Foundation.View
import ProxyServer.Server.Acts

/-!
# Descriptors, interests and handlers

What the loop of `epoll_core` sees of the server: the descriptor of every element with the
events that it is registered for, and the handlers. Times and messages are left out.
-/

namespace ProxyServer

open Wp

/-- The descriptor of an element and its interest. -/
structure Watch where
  fd : Fd
  events : FdState
  deriving DecidableEq, Repr

def EpollElem.watch (e : EpollElem) : Watch := ⟨e.fd, e.events⟩

@[ext]
structure Board where
  elem : ElemRef → Option Watch
  /-- The keys of `queue.sockets`. -/
  key : SocketId → Option Fd
  handlers : Fd → Option Handler

namespace Board

variable (b : Board)

def setElem (r : ElemRef) (k : Watch) : Board := { b with elem := fun other => if other = r then some k else b.elem other }

def setHandler (f : Fd) (h : Handler) : Board := { b with handlers := fun other => if other = f then some h else b.handlers other }

/-- The element gets an interest and a handler. -/
def seat (r : ElemRef) (k : Watch) (h : Handler) : Board := (b.setElem r k).setHandler k.fd h

/-- The handler of an element that is destroyed is erased. -/
def release (fd : Fd) : Board := { b with handlers := fun f => if f = fd ∧ fd ≠ 0 then none else b.handlers f }

def eraseSocket (id : SocketId) (k : Watch) : Board :=
  { b.release k.fd with
    elem := fun r => if r = .sock id then none else b.elem r
    key := fun other => if other = id then none else b.key other }

def eraseConnection (c : ConnId) (client server : Watch) : Board :=
  { (b.release server.fd).release client.fd with
    elem := fun r => if r = .client c ∨ r = .server c then none else b.elem r }

def addSocket (n : SocketId) (k : Watch) : Board :=
  { b with
    elem := fun r => if r = .sock n then some k else b.elem r
    key := fun id => if id = n then some k.fd else b.key id }

def addConnection (c : ConnId) (client server : Watch) : Board :=
  { b with
    elem := fun r => if r = .client c then some client else if r = .server c then some server else b.elem r }

end Board

namespace Proxy

def board (s : Proxy) : Board where
  elem r := (s.elem r).map (·.watch)
  key id := (s.sockets.get id).map (·.key)
  handlers := s.handlers

variable {s : Proxy} {r : ElemRef} {it : EntryRef} {id : SocketId} {c : ConnId} {b : Board} {io : Io} {e e' : EpollElem}

abbrev Shows {α : Type} (x : ProxyM α) (Q : α → Board → Prop) (b : Board) : Prop := Via board x Q b

/-! ### Parts of the state -/

theorem board_set_socket {entry entry' : SocketEntry} (live : s.sockets.get id = some entry) (key : entry'.key = entry.key) :
    ({ s with sockets := s.sockets.set id entry' } : Proxy).board = s.board.setElem (.sock id) entry'.elem.watch := by
  ext1
  · funext r
    cases r with
    | sock other =>
      simp only [board, elem, Board.setElem, Store.get_set_live live, ElemRef.sock.injEq]
      split <;> rfl
    | client c => rfl
    | server c => rfl
  · funext other
    simp only [board, Board.setElem, Store.get_set_live live]
    split
    · rename_i same
      rw [same, live, Option.map_some, Option.map_some, key]
    · rfl
  · rfl

theorem board_set_connection {conn conn' : Connection} (live : s.connections.get c = some conn) :
    ({ s with connections := s.connections.set c conn' } : Proxy).board =
      (s.board.setElem (.client c) conn'.client.watch).setElem (.server c) conn'.server.watch := by
  ext1
  · funext r
    cases r with
    | sock other => rfl
    | client other =>
      simp only [board, elem, Board.setElem, Store.get_set_live live, ElemRef.client.injEq, reduceCtorEq, if_false]
      split <;> rfl
    | server other =>
      simp only [board, elem, Board.setElem, Store.get_set_live live, ElemRef.server.injEq, reduceCtorEq, if_false]
      split <;> rfl
  · rfl
  · rfl

theorem setElem_self {k : Watch} (here : b.elem r = some k) : b.setElem r k = b := by
  ext1
  · funext other
    simp only [Board.setElem]
    split
    · rename_i same
      rw [same, here]
    · rfl
  · rfl
  · rfl

theorem board_setElem (live : s.elem r = some e) : (s.setElem r e').board = s.board.setElem r e'.watch := by
  cases r with
  | sock id =>
    obtain ⟨entry, here, rfl⟩ := Option.map_eq_some_iff.mp live
    simp only [setElem, here]
    exact board_set_socket here rfl
  | client c =>
    obtain ⟨conn, here, rfl⟩ := Option.map_eq_some_iff.mp live
    simp only [setElem, here]
    rw [board_set_connection here]
    apply setElem_self
    simp [Board.setElem, board, elem, here]
  | server c =>
    obtain ⟨conn, here, rfl⟩ := Option.map_eq_some_iff.mp live
    simp only [setElem, here]
    rw [board_set_connection here, setElem_self (r := .client c)]
    simp [board, elem, here]

theorem board_destroy : (s.destroy e).board = s.board.release e.fd := by
  unfold destroy
  split
  · rename_i zero
    simp [Board.release, zero]
  · rename_i present
    simp only [Board.release, board, setHandler]
    ext1
    · rfl
    · rfl
    · funext f
      simp [present]

/-! ### The queue -/

theorem board_of_parts {g : Proxy → Proxy} (sockets : ∀ s, (g s).sockets = s.sockets)
    (connections : ∀ s, (g s).connections = s.connections) (handlers : ∀ s, (g s).handlers = s.handlers) :
    Leaves board (modify g : ProxyM PUnit) := by
  apply leaves_modify
  intro s
  ext1
  · funext r
    cases r with
    | sock id => simp only [board, elem, sockets]
    | client c => simp only [board, elem, connections]
    | server c => simp only [board, elem, connections]
  · simp only [board, sockets]
  · exact handlers s

attribute [local grind ←] Leaves.bind leaves_pure leaves_throw leaves_get leaves_whenever

theorem unseen_touch : Leaves board (touch it) := by
  unfold touch
  grind

theorem unseen_service (id : SocketId) : Leaves board (service id) := by
  unfold service
  grind

theorem unseen_setActive : Leaves board (setActive it) := by
  intro s
  unfold setActive
  simp only [wp_bind, wp_get]
  cases it with
  | sock id =>
    cases live : s.sockets.get id with
    | none =>
      simp only [live]
      trivial
    | some entry =>
      simp only [live, wp_set]
      refine Eq.symm (Eq.trans (board_set_socket live ?_) (setElem_self ?_))
      · rfl
      · simp [board, elem, live, EpollElem.watch]
  | conn c =>
    cases live : s.connections.get c with
    | none =>
      simp only [live]
      trivial
    | some conn =>
      simp only [live, wp_set]
      rw [board_set_connection live, setElem_self (r := .client c), setElem_self]
      · simp [board, elem, live]
      · simp [board, elem, live]

theorem unseen_changeTimeout (timeout : Nat) : Leaves board (changeTimeout c timeout) := by
  intro s
  unfold changeTimeout getConnection
  simp only [wp_bind, wp_get]
  cases live : s.connections.get c with
  | none => trivial
  | some conn =>
    simp only [wp_pure, wp_modify]
    rw [board_set_connection live, setElem_self (r := .client c), setElem_self]
    · simp [board, elem, live]
    · simp [board, elem, live]

theorem via_getElem {Q : EpollElem → Board → Prop} (h : ∀ e, b.elem r = some e.watch → Q e b) :
    Shows (getElem r) Q b := by
  refine Via.get fun s same => ?_
  subst same
  cases live : s.elem r with
  | none => exact Via.throw
  | some e =>
    refine Via.pure (h e ?_)
    simp [board, live]

theorem via_updateState {Q : Unit → Board → Prop} (state : FdState)
    (h : ∀ k, b.elem r = some k → Q () (b.setElem r ⟨k.fd, state⟩)) : Shows (updateState r state) Q b := by
  rintro s rfl
  simp only [updateState, getElem, wp_bind, wp_get]
  cases live : s.elem r with
  | none => trivial
  | some e =>
    have here : s.board.elem r = some e.watch := by simp [board, live]
    have after := h e.watch here
    simp only [wp_pure]
    split
    · rename_i same
      subst same
      change Q () (s.board.setElem r e.watch) at after
      rwa [setElem_self here] at after
    · split
      · trivial
      · rw [wp_modify, board_setElem live]
        exact after

theorem via_updateHandler {Q : Unit → Board → Prop} (handler : Handler)
    (h : ∀ k, b.elem r = some k → Q () (b.setHandler k.fd handler)) : Shows (updateHandler r handler) Q b := by
  rintro s rfl
  simp only [updateHandler, getElem, wp_bind, wp_get]
  cases live : s.elem r with
  | none => trivial
  | some e =>
    simp only [wp_pure]
    split
    · trivial
    · rw [wp_modify]
      exact h e.watch (by simp [board, live])

theorem via_update {Q : Unit → Board → Prop} (state : FdState) (handler : Handler)
    (h : ∀ k, b.elem r = some k → Q () (b.seat r ⟨k.fd, state⟩ handler)) : Shows (update r state handler) Q b := by
  refine Via.bind (via_updateState state fun k here => ?_)
  refine via_updateHandler handler fun k' here' => ?_
  obtain rfl : k' = ⟨k.fd, state⟩ := by simpa [Board.setElem, eq_comm] using here'
  exact h k here

theorem via_closeSocket {Q : Unit → Board → Prop} (h : ∀ k, b.elem (.sock id) = some k → Q () (b.eraseSocket id k)) :
    Shows (closeSocket id) Q b := by
  rintro s rfl
  simp only [closeSocket, wp_bind, wp_get]
  cases live : s.sockets.get id with
  | none => trivial
  | some entry =>
    rw [wp_modify, board_destroy]
    have here := h entry.elem.watch (by simp [board, elem, live])
    convert here using 1
    ext1
    · funext r
      cases r with
      | sock other =>
        simp only [board, elem, Board.eraseSocket, Board.release, Store.get_erase, ElemRef.sock.injEq]
        split <;> rfl
      | client c => rfl
      | server c => rfl
    · funext other
      simp only [board, Board.eraseSocket, Board.release, Store.get_erase]
      split <;> rfl
    · rfl

theorem via_closeConnection {Q : Unit → Board → Prop}
    (h : ∀ k k', b.elem (.client c) = some k → b.elem (.server c) = some k' → Q () (b.eraseConnection c k k')) :
    Shows (closeConnection c) Q b := by
  rintro s rfl
  simp only [closeConnection, wp_bind, wp_get]
  cases live : s.connections.get c with
  | none => trivial
  | some conn =>
    rw [wp_modify, board_destroy, board_destroy]
    have here := h conn.client.watch conn.server.watch (by simp [board, elem, live]) (by simp [board, elem, live])
    convert here using 1
    ext1
    · funext r
      cases r with
      | sock other => simp [board, elem, Board.eraseConnection, Board.release]
      | client other =>
        simp only [board, elem, Board.eraseConnection, Board.release, Store.get_erase, ElemRef.client.injEq, reduceCtorEq,
          or_false]
        split <;> rfl
      | server other =>
        simp only [board, elem, Board.eraseConnection, Board.release, Store.get_erase, ElemRef.server.injEq, reduceCtorEq,
          false_or]
        split <;> rfl
    · rfl
    · rfl

theorem via_insertSocket {Q : SocketId → Board → Prop} (e : EpollElem) (unkeyed : ∀ id, b.key id ≠ some e.fd)
    (h : ∀ n, b.elem (.sock n) = none → b.key n = none → Q n (b.addSocket n e.watch)) : Shows (insertSocket e) Q b := by
  rintro s rfl
  simp only [insertSocket, wp_bind, wp_get]
  cases found : s.sockets.findId (·.key = e.fd) with
  | some id =>
    obtain ⟨entry, live, same⟩ := Store.findId_some found
    exact absurd (by simpa [board, live] using of_decide_eq_true same) (unkeyed id)
  | none =>
    have here := h s.sockets.next (by simp [board, elem, Store.get_next]) (by simp [board, Store.get_next])
    simp only [wp_bind, wp_set, wp_pure]
    convert here using 1
    ext1
    · funext r
      cases r with
      | sock other =>
        simp only [board, elem, Board.addSocket, Store.get_insert, ElemRef.sock.injEq]
        split <;> rfl
      | client c => rfl
      | server c => rfl
    · funext other
      simp only [board, Board.addSocket, Store.get_insert]
      split <;> rfl
    · rfl

theorem via_saveRegistration {Q : SocketId → Board → Prop} (e : EpollElem) (timeout : Nat)
    (unkeyed : ∀ id, b.key id ≠ some e.fd)
    (h : ∀ n, b.elem (.sock n) = none → b.key n = none → Q n (b.addSocket n e.watch)) :
    Shows (saveRegistration e timeout) Q b :=
  Via.get fun s _ => via_insertSocket { e with expiresIn := s.ticks + timeout, timeout } unkeyed h

theorem via_takeClient {Q : EpollElem → Board → Prop}
    (h : ∀ e, b.elem (.client c) = some e.watch → Q e (b.setElem (.client c) ⟨0, .WAIT⟩)) : Shows (takeClient c) Q b := by
  refine Via.bind (via_getElem fun e here => ?_)
  refine Via.bind ?_
  rintro s rfl
  obtain ⟨e', live, _⟩ := Option.map_eq_some_iff.mp here
  rw [wp_modify, board_setElem live]
  exact Via.pure (h e here)

theorem via_takeSocket {Q : PUnit → Board → Prop} {k : Watch} (here : b.elem (.sock id) = some k)
    (h : Q ⟨⟩ (b.setElem (.sock id) ⟨0, .WAIT⟩)) : Shows (modify (·.setElem (.sock id) .null)) Q b := by
  rintro s rfl
  obtain ⟨e, live, _⟩ := Option.map_eq_some_iff.mp here
  rw [wp_modify, board_setElem live]
  exact h

theorem via_insertConnection (conn : Connection) (next : ConnId → ProxyM Unit) {Q : Unit → Board → Prop}
    (h : ∀ c, b.elem (.client c) = none → b.elem (.server c) = none →
      Shows (next c) Q (b.addConnection c conn.client.watch conn.server.watch)) :
    Shows (do
      let c := (← get).connections.next
      modify fun s => { s with connections := s.connections.insert conn }
      next c) Q b := by
  rintro s rfl
  have here := h s.connections.next (by simp [board, elem, Store.get_next]) (by simp [board, elem, Store.get_next])
  simp only [wp_bind, wp_get, wp_modify]
  refine here _ ?_
  ext1
  · funext r
    cases r with
    | sock id => simp [board, elem, Board.addConnection]
    | client c =>
      simp only [board, elem, Board.addConnection, Store.get_insert, ElemRef.client.injEq, reduceCtorEq, if_false]
      split <;> rfl
    | server c =>
      simp only [board, elem, Board.addConnection, Store.get_insert, ElemRef.server.injEq, reduceCtorEq, if_false]
      split <;> rfl
  · rfl
  · rfl

theorem via_newDescriptor {Q : Option Fd → Board → Prop}
    (h : ∀ f, io.newFd = some f → f ≠ 0 → (∀ r k, b.elem r = some k → k.fd ≠ f) → Q (some f) b)
    (h' : io.newFd = none → Q none b) : Shows (newDescriptor io) Q b := by
  rintro s rfl
  unfold newDescriptor
  cases opened : io.newFd with
  | none => exact h' opened
  | some f =>
    simp only [wp_bind, wp_get]
    split
    · trivial
    · rename_i fresh
      obtain ⟨present, unowned⟩ := not_or.mp fresh
      refine h f opened present fun r k owner same => unowned ?_
      obtain ⟨e, here, rfl⟩ := Option.map_eq_some_iff.mp owner
      rw [← same]
      exact owned_of_elem here

/-! ### Messages and pending resolutions -/

variable {L : Type} {m : BufferedMessage L} {ref : MessageRef} {rqst : ClientRequest} {resp : ServerResponse}
  {key : Fd × Bytes}

theorem unseen_observe (o : Obs) : Leaves board (observe o) :=
  board_of_parts (fun _ => rfl) (fun _ => rfl) fun _ => rfl

theorem unseen_newRequest : Leaves board (newRequest rqst) := leaves_update fun _ => rfl

theorem unseen_newResponse : Leaves board (newResponse resp) := leaves_update fun _ => rfl

theorem unseen_newRaw : Leaves board newRaw := leaves_update fun _ => rfl

theorem unseen_setRequest (k : MsgId) : Leaves board (setRequest k rqst) :=
  board_of_parts (fun _ => rfl) (fun _ => rfl) fun _ => rfl

theorem unseen_setResponse (k : MsgId) : Leaves board (setResponse k resp) :=
  board_of_parts (fun _ => rfl) (fun _ => rfl) fun _ => rfl

theorem unseen_setRaw (k : MsgId) (m : RawMessage) : Leaves board (setRaw k m) :=
  board_of_parts (fun _ => rfl) (fun _ => rfl) fun _ => rfl

theorem unseen_erasePending : Leaves board (erasePending key) :=
  board_of_parts (fun _ => rfl) (fun _ => rfl) fun _ => rfl

theorem unseen_insertPending (pending : Pending) : Leaves board (insertPending key pending) :=
  board_of_parts (fun _ => rfl) (fun _ => rfl) fun _ => rfl

theorem unseen_eraseFound {query : Option Pending} : Leaves board (eraseFound key query) := by
  cases query with
  | none => exact leaves_throw
  | some pending => exact unseen_erasePending

theorem unseen_getElem : Leaves board (getElem r) := by
  unfold getElem
  grind

theorem unseen_readMessage [Line L] : Leaves board (readMessage r m io) := by
  unfold readMessage
  refine unseen_getElem.bind fun e => ?_
  split
  · exact leaves_pure
  · split
    · exact (unseen_observe _).bind fun _ => leaves_pure
    · exact leaves_pure
    · exact leaves_throw

theorem unseen_writeMessage : Leaves board (writeMessage r ref m io) := by
  unfold writeMessage
  refine unseen_getElem.bind fun e => ?_
  split
  · split
    · exact leaves_pure
    · exact leaves_throw
  · split
    · exact (unseen_observe _).bind fun _ => leaves_pure
    · exact leaves_throw

theorem unseen_writeRef : Leaves board (writeRef r ref io) := by
  unfold writeRef
  split
  · refine leaves_get.bind fun s => unseen_writeMessage.bind fun written => ?_
    split
    · exact leaves_pure
    · exact (unseen_setRequest _).bind fun _ => leaves_pure
  · refine leaves_get.bind fun s => unseen_writeMessage.bind fun written => ?_
    split
    · exact leaves_pure
    · exact (unseen_setResponse _).bind fun _ => leaves_pure

theorem unseen_deleteCached (request : RequestHeader) : Leaves board (deleteCached request) := by
  unfold deleteCached
  apply leaves_get.bind
  intro s
  split
  · exact board_of_parts (fun _ => rfl) (fun _ => rfl) fun _ => rfl
  · exact leaves_throw

theorem unseen_saveTransferred : Leaves board (saveTransferred rqst resp) := by
  unfold saveTransferred
  apply leaves_get.bind
  intro s
  split
  · apply (unseen_observe _).bind
    intro _
    exact board_of_parts (fun _ => rfl) (fun _ => rfl) fun _ => rfl
  · exact leaves_throw

/-! ### Reading, sending and connecting -/

def reads : FdState := .union .IN .RDHUP

def writes : FdState := .union .OUT .RDHUP

theorem via_readRequest {Q : Unit → Board → Prop} {next : AfterRequest}
    (h : ∀ k m, b.elem r = some k → Q () (b.seat r ⟨k.fd, reads⟩ (.readRequest r m it next))) :
    Shows (readRequest r rqst it next io) Q b :=
  Via.then_leaves unseen_newRequest fun _ => via_update _ _ fun k here => h k _ here

theorem via_readResponse {Q : Unit → Board → Prop} {next : AfterResponse}
    (h : ∀ k m, b.elem r = some k → Q () (b.seat r ⟨k.fd, reads⟩ (.readResponse r m it next))) :
    Shows (readResponse r resp it next io) Q b :=
  Via.then_leaves unseen_newResponse fun _ => via_update _ _ fun k here => h k _ here

theorem via_sendRequest {Q : Unit → Board → Prop} {next : AfterSend}
    (h : ∀ k m, b.elem r = some k → Q () (b.seat r ⟨k.fd, writes⟩ (.send r (.request m) it next))) :
    Shows (sendRequest r rqst it next io) Q b := by
  refine Via.then_leaves unseen_newRequest fun m => Via.then_leaves unseen_getElem fun e => ?_
  exact Via.then_leaves (unseen_observe _) fun _ => via_update _ _ fun k here => h k m here

theorem via_sendResponse {Q : Unit → Board → Prop} {next : AfterSend}
    (h : ∀ k m, b.elem r = some k → Q () (b.seat r ⟨k.fd, writes⟩ (.send r (.response m) it next))) :
    Shows (sendResponse r resp it next io) Q b := by
  refine Via.then_leaves unseen_newResponse fun m => Via.then_leaves unseen_getElem fun e => ?_
  exact Via.then_leaves (unseen_observe _) fun _ => via_update _ _ fun k here => h k m here

theorem via_connectToServer {Q : Unit → Board → Prop} (host : Bytes) (next : AfterConnect)
    (h : ∀ k, b.elem (.sock id) = some k → Q () (b.seat (.sock id) ⟨k.fd, .RDHUP⟩ (.resolving id host))) :
    Shows (connectToServer id host next) Q b := by
  refine Via.bind (via_getElem fun e here => Via.get fun s _ => ?_)
  refine Via.bind ?_
  rintro t rfl
  obtain ⟨e', live, same⟩ := Option.map_eq_some_iff.mp here
  have kept : ({ t with calls := s.calls + 1 }.setElem (.sock id) { e with call := some s.calls }).board = t.board := by
    have live : ({ t with calls := s.calls + 1 } : Proxy).elem (.sock id) = some e' := live
    rw [board_setElem live]
    exact setElem_self here
  rw [wp_modify, kept]
  refine Via.then_leaves (unseen_insertPending _) fun _ => Via.bind (via_update _ _ fun k here => ?_)
  refine Via.get fun u _ => Via.then_leaves (unseen_service _) fun _ => ?_
  exact Via.of_leaves (board_of_parts (fun _ => rfl) (fun _ => rfl) fun _ => rfl) fun _ => h k here

end Proxy

end ProxyServer
