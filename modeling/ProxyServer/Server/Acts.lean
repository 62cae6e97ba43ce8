import ProxyServer.Server.Handlers
import ProxyServer.Server.Moves

/-!
# What operations do to the registry

The state of the server contains a registry. Every operation acts on the registry
as a move does, and the rest of the state only chooses between moves.
-/

namespace ProxyServer

open Wp

/-- The link of a connection whose client was moved out. -/
def Link.widow (l : Link) : Link := { l with client := ⟨0, none⟩ }

namespace Registry

def alive (v : Registry) : EntryRef → Bool
  | .sock id => (v.socket id).isSome
  | .conn c => (v.connection c).isSome

/-- The handler of an element that is destroyed is erased. -/
def release (v : Registry) (fd : Fd) : Registry :=
  { v with handlers := fun f => if f = fd ∧ fd ≠ 0 then none else v.handlers f }

def eraseSocket (v : Registry) (id : SocketId) (e : SocketView) : Registry :=
  { v.release e.client.fd with socket := fun other => if other = id then none else v.socket other }

def eraseConnection (v : Registry) (c : ConnId) (l : Link) : Registry :=
  { (v.release l.server).release l.client.fd with
    connection := fun other => if other = c then none else v.connection other }

def setSocket (v : Registry) (id : SocketId) (e : SocketView) : Registry :=
  { v with socket := fun other => if other = id then some e else v.socket other }

def setLink (v : Registry) (c : ConnId) (l : Link) : Registry :=
  { v with connection := fun other => if other = c then some l else v.connection other }

def unpend (v : Registry) (key : Fd × Bytes) : Registry :=
  { v with onResolve := fun other => if other = key then none else v.onResolve other }

def withLedger (v : Registry) (ledger : Ledger) : Registry := { v with ledger }

@[simp] theorem withLedger_ledger (v : Registry) (d : Ledger) : (v.withLedger d).ledger = d := rfl

@[simp] theorem fd?_withLedger (v : Registry) (d : Ledger) (r : ElemRef) : (v.withLedger d).fd? r = v.fd? r := by
  cases r <;> rfl

end Registry

def SocketEntry.view (entry : SocketEntry) : SocketView :=
  { key := entry.key, client := { fd := entry.elem.fd, call := entry.elem.call } }

def Connection.view (c : Connection) : Link :=
  { client := { fd := c.client.fd, call := c.client.call }
    server := c.server.fd
    established := c.timeout ≠ SHORT_SOCKET_TIMEOUT }

namespace Proxy

def view (s : Proxy) : Registry where
  socket id := (s.sockets.get id).map (·.view)
  connection c := (s.connections.get c).map (·.view)
  handlers := s.handlers
  onResolve := s.onResolve
  resolving := s.resolving
  listener := s.listener
  notifier := s.notifier
  timer := s.timer
  ledger :=
    { trace := s.trace
      cache := s.cache
      requests := s.requests
      responses := s.responses
      raws := s.raws
      nextMessage := s.nextMessage
      nextConnection := s.connections.next }

variable {s : Proxy} {r : ElemRef} {it : EntryRef} {id : SocketId} {c : ConnId}

theorem view_fd : s.view.fd? r = (s.elem r).map (·.fd) := by
  cases r with
  | sock id => simp [Registry.fd?, view, elem, SocketEntry.view, Function.comp_def]
  | client c => simp [Registry.fd?, view, elem, Connection.view, Function.comp_def]
  | server c => simp [Registry.fd?, view, elem, Connection.view, Function.comp_def]

theorem view_alive : s.view.alive it = s.live it := by
  cases it <;> simp [Registry.alive, view, live]

theorem view_set_socket {entry entry' : SocketEntry} (here : s.sockets.get id = some entry)
    (same : entry'.view = entry.view) : ({ s with sockets := s.sockets.set id entry' } : Proxy).view = s.view := by
  ext1 <;> try rfl
  funext other
  simp only [view, Store.get_set_live here]
  split
  · rename_i equal
    rw [equal, here, Option.map_some, Option.map_some, same]
  · rfl

theorem view_set_connection {conn conn' : Connection} (here : s.connections.get c = some conn) :
    ({ s with connections := s.connections.set c conn' } : Proxy).view = s.view.setLink c conn'.view := by
  ext1 <;> try rfl
  funext other
  simp only [view, Registry.setLink, Store.get_set_live here]
  split <;> rfl

theorem setLink_self {conn conn' : Connection} (here : s.connections.get c = some conn)
    (same : conn'.view = conn.view) : s.view.setLink c conn'.view = s.view := by
  ext1 <;> try rfl
  funext other
  simp only [Registry.setLink, view]
  split
  · rename_i equal
    rw [equal, here, Option.map_some, same]
  · rfl

theorem view_setElem {e e' : EpollElem} (here : s.elem r = some e) (fd : e'.fd = e.fd) (call : e'.call = e.call) :
    (s.setElem r e').view = s.view := by
  cases r with
  | sock id =>
    obtain ⟨entry, live, rfl⟩ := Option.map_eq_some_iff.mp here
    simp only [setElem, live]
    exact view_set_socket live (by simp [SocketEntry.view, fd, call])
  | client c =>
    obtain ⟨conn, live, rfl⟩ := Option.map_eq_some_iff.mp here
    simp only [setElem, live]
    rw [view_set_connection live, setLink_self live (by simp [Connection.view, fd, call])]
  | server c =>
    obtain ⟨conn, live, rfl⟩ := Option.map_eq_some_iff.mp here
    simp only [setElem, live]
    rw [view_set_connection live, setLink_self live (by simp [Connection.view, fd])]

/-! ### Acting on a registry -/

/-- `x` takes every state with the registry `v` to one whose registry satisfies `Q`,
or fails as `E` allows. -/
def Acts {α : Type} (E : Fault → Prop) (x : ProxyM α) (Q : α → Registry → Prop) (v : Registry) : Prop :=
  ∀ s : Proxy, s.view = v → wp E x (fun a t => Q a t.view) s

variable {α β : Type} {E : Fault → Prop} {x : ProxyM α} {f : α → ProxyM β} {Q Q' : α → Registry → Prop}
  {R : β → Registry → Prop} {v : Registry}

theorem Acts.pure {a : α} (h : Q a v) : Acts E (pure a) Q v := by
  rintro s rfl
  exact h

theorem Acts.throw {e : Fault} (h : E e) : Acts E (throw e : ProxyM α) Q v := fun _ _ => h

theorem Acts.bind (h : Acts E x (fun a w => Acts E (f a) R w) v) : Acts E (x >>= f) R v := by
  intro s same
  exact wp_bind.mpr (wp_mono (fun a t here => here t rfl) (h s same))

theorem Acts.mono (h : Acts E x Q v) (weaker : ∀ a w, Q a w → Q' a w) : Acts E x Q' v := fun s same =>
  wp_mono (fun a _ => weaker a _) (h s same)

theorem Acts.get {f : Proxy → ProxyM β} (h : ∀ s, s.view = v → Acts E (f s) R v) : Acts E (get >>= f) R v := by
  intro s same
  simp only [wp_bind, wp_get]
  exact h s same s same

theorem Acts.modify {g : Proxy → Proxy} {Q : PUnit → Registry → Prop} {w : Registry}
    (moves : ∀ s, s.view = v → (g s).view = w) (h : Q ⟨⟩ w) : Acts E (modify g) Q v := by
  intro s same
  simpa only [wp_modify, moves s same] using h

theorem Acts.whenever {c : Bool} {x : ProxyM Unit} {Q : Unit → Registry → Prop}
    (h : c = true → Acts E x Q v) (h' : c = false → Q () v) : Acts E (whenever c x) Q v := by
  cases c with
  | true => exact h rfl
  | false => exact Acts.pure (h' rfl)

/-! ### The queue -/

theorem acts_touch {Q : Unit → Registry → Prop} (h : v.alive it = true → Q () v)
    (closed : v.alive it = false → E (.useAfterClose it)) : Acts E (touch it) Q v := by
  refine Acts.get fun s same => ?_
  subst same
  rw [view_alive] at h closed
  cases live : s.live it with
  | true => exact Acts.pure (h live)
  | false => exact Acts.throw (closed live)

theorem acts_getElem {Q : EpollElem → Registry → Prop} (h : ∀ e, v.fd? r = some e.fd → Q e v)
    (closed : v.fd? r = none → E (.useAfterClose r.entry)) : Acts E (getElem r) Q v := by
  refine Acts.get fun s same => ?_
  subst same
  rw [view_fd] at h closed
  cases live : s.elem r with
  | some e => exact Acts.pure (h e (by rw [live]; rfl))
  | none => exact Acts.throw (closed (by rw [live]; rfl))

theorem acts_updateState {Q : Unit → Registry → Prop} (state : FdState) (h : Q () v)
    (present : v.fd? r ≠ some 0) (closed : v.fd? r = none → E (.useAfterClose r.entry)) :
    Acts E (updateState r state) Q v := by
  rintro s rfl
  rw [view_fd] at present closed
  simp only [updateState, getElem, wp_bind, wp_get]
  cases live : s.elem r with
  | none => exact closed (by rw [live]; rfl)
  | some e =>
    simp only [wp_pure]
    split
    · exact h
    · split
      · rename_i zero
        exact absurd (by rw [live, Option.map_some, zero]) present
      · rw [wp_modify, view_setElem live]
        · exact h
        · rfl
        · rfl

theorem acts_updateHandler {Q : Unit → Registry → Prop} (handler : Handler)
    (h : ∀ f, v.fd? r = some f → Q () (v.setHandler f handler)) (present : v.fd? r ≠ some 0)
    (closed : v.fd? r = none → E (.useAfterClose r.entry)) : Acts E (updateHandler r handler) Q v := by
  rintro s rfl
  rw [view_fd] at present closed h
  simp only [updateHandler, getElem, wp_bind, wp_get]
  cases live : s.elem r with
  | none => exact closed (by rw [live]; rfl)
  | some e =>
    simp only [wp_pure]
    split
    · rename_i zero
      exact absurd (by rw [live, Option.map_some, zero]) present
    · exact h e.fd (by rw [live]; rfl)

theorem acts_update {Q : Unit → Registry → Prop} (state : FdState) (handler : Handler)
    (h : ∀ f, v.fd? r = some f → Q () (v.setHandler f handler)) (present : v.fd? r ≠ some 0)
    (closed : v.fd? r = none → E (.useAfterClose r.entry)) : Acts E (update r state handler) Q v :=
  Acts.bind (acts_updateState state (acts_updateHandler handler h present closed) present closed)

theorem view_destroy (e : EpollElem) : (s.destroy e).view = s.view.release e.fd := by
  unfold destroy
  split
  · rename_i zero
    simp [Registry.release, zero]
  · rename_i present
    simp [Registry.release, view, setHandler, present]

theorem acts_closeSocket {Q : Unit → Registry → Prop} (h : ∀ e, v.socket id = some e → Q () (v.eraseSocket id e))
    (closed : v.socket id = none → E (.useAfterClose (.sock id))) : Acts E (closeSocket id) Q v := by
  rintro s rfl
  simp only [closeSocket, wp_bind, wp_get]
  cases live : s.sockets.get id with
  | none => exact closed (by simp [view, live])
  | some entry =>
    rw [wp_modify, view_destroy]
    have here := h entry.view (by simp [view, live])
    convert here using 1
    ext1 <;> try rfl
    funext other
    simp only [view, Registry.release, Registry.eraseSocket, Store.get_erase]
    split <;> rfl

theorem acts_closeConnection {Q : Unit → Registry → Prop}
    (h : ∀ l, v.connection c = some l → Q () (v.eraseConnection c l))
    (closed : v.connection c = none → E (.useAfterClose (.conn c))) : Acts E (closeConnection c) Q v := by
  rintro s rfl
  simp only [closeConnection, wp_bind, wp_get]
  cases live : s.connections.get c with
  | none => exact closed (by simp [view, live])
  | some conn =>
    rw [wp_modify, view_destroy, view_destroy]
    have here := h conn.view (by simp [view, live])
    convert here using 1
    ext1 <;> try rfl
    funext other
    simp only [view, Registry.release, Registry.eraseConnection, Store.get_erase]
    split <;> rfl

theorem acts_close {Q : Unit → Registry → Prop} (socket : ∀ id e, it = .sock id → v.socket id = some e →
      Q () (v.eraseSocket id e))
    (connection : ∀ c l, it = .conn c → v.connection c = some l → Q () (v.eraseConnection c l))
    (closed : v.alive it = false → E (.useAfterClose it)) : Acts E (close it) Q v := by
  cases it with
  | sock id => exact acts_closeSocket (socket id · rfl) (fun gone => closed (by simp [Registry.alive, gone]))
  | conn c => exact acts_closeConnection (connection c · rfl) (fun gone => closed (by simp [Registry.alive, gone]))

theorem acts_setActive {Q : Unit → Registry → Prop} (h : Q () v)
    (closed : v.alive it = false → E (.useAfterClose it)) : Acts E (setActive it) Q v := by
  rintro s rfl
  rw [view_alive] at closed
  simp only [setActive, wp_bind, wp_get]
  cases it with
  | sock id =>
    cases live : s.sockets.get id with
    | none => simpa [live, Proxy.live] using closed
    | some entry =>
      simp only [live, wp_set]
      rw [view_set_socket live]
      · exact h
      · rfl
  | conn c =>
    cases live : s.connections.get c with
    | none => simpa [live, Proxy.live] using closed
    | some conn =>
      simp only [live, wp_set]
      rw [view_set_connection live, setLink_self live]
      · exact h
      · rfl

theorem acts_insertSocket {Q : SocketId → Registry → Prop} (e : EpollElem)
    (unkeyed : ∀ id entry, v.socket id = some entry → entry.key ≠ e.fd)
    (h : ∀ n, v.socket n = none → Q n (v.addSocket n ⟨e.fd, e.call⟩)) : Acts E (insertSocket e) Q v := by
  rintro s rfl
  simp only [insertSocket, wp_bind, wp_get]
  cases found : s.sockets.findId (·.key = e.fd) with
  | some id =>
    obtain ⟨entry, live, same⟩ := Store.findId_some found
    exact absurd (of_decide_eq_true same) (unkeyed id entry.view (by simp [view, live]))
  | none =>
    have here := h s.sockets.next (by simp [view, Store.get_next])
    simp only [wp_bind, wp_set, wp_pure]
    convert here using 1
    ext1 <;> try rfl
    funext other
    simp only [view, Registry.addSocket, Store.get_insert]
    split <;> rfl

theorem acts_saveRegistration {Q : SocketId → Registry → Prop} (e : EpollElem) (timeout : Nat)
    (unkeyed : ∀ id entry, v.socket id = some entry → entry.key ≠ e.fd)
    (h : ∀ n, v.socket n = none → Q n (v.addSocket n ⟨e.fd, e.call⟩)) :
    Acts E (saveRegistration e timeout) Q v :=
  Acts.get fun s _ => acts_insertSocket { e with expiresIn := s.ticks + timeout, timeout } unkeyed h

theorem acts_changeTimeout {Q : Unit → Registry → Prop}
    (h : ∀ l, v.connection c = some l → Q () (v.setLink c { l with established := true }))
    (closed : v.connection c = none → E (.useAfterClose (.conn c))) :
    Acts E (changeTimeout c LONG_SOCKET_TIMEOUT) Q v := by
  rintro s rfl
  simp only [changeTimeout, getConnection, wp_bind, wp_get]
  cases live : s.connections.get c with
  | none => exact closed (by simp [view, live])
  | some conn =>
    simp only [wp_pure, wp_modify]
    rw [view_set_connection live]
    exact h conn.view (by simp [view, live])

theorem acts_takeClient {Q : EpollElem → Registry → Prop}
    (h : ∀ e l, v.connection c = some l → l.client = ⟨e.fd, e.call⟩ → Q e (v.setLink c l.widow))
    (closed : v.connection c = none → E (.useAfterClose (.conn c))) : Acts E (takeClient c) Q v := by
  rintro s rfl
  simp only [takeClient, getElem, wp_bind, wp_get, elem]
  cases live : s.connections.get c with
  | none => exact closed (by simp [view, live])
  | some conn =>
    have here := h conn.client conn.view (by simp [view, live]) rfl
    simp only [Option.map_some, wp_pure, wp_modify, setElem, live]
    rw [view_set_connection live]
    exact here

theorem owned_of_elem {e : EpollElem} (here : s.elem r = some e) : s.owned e.fd = true := by
  rw [owned, Bool.or_eq_true, Store.any_iff, Store.any_iff]
  cases r with
  | sock id =>
    obtain ⟨entry, live, rfl⟩ := Option.map_eq_some_iff.mp here
    exact Or.inl ⟨id, entry, live, by simp⟩
  | client c =>
    obtain ⟨conn, live, rfl⟩ := Option.map_eq_some_iff.mp here
    exact Or.inr ⟨c, conn, live, by simp⟩
  | server c =>
    obtain ⟨conn, live, rfl⟩ := Option.map_eq_some_iff.mp here
    exact Or.inr ⟨c, conn, live, by simp⟩

theorem acts_newDescriptor {Q : Option Fd → Registry → Prop} (io : Io) (disabled : E .disabled)
    (h : ∀ f, io.newFd = some f → f ≠ 0 → (∀ r, v.fd? r ≠ some f) → Q (some f) v) (h' : io.newFd = none → Q none v) :
    Acts E (newDescriptor io) Q v := by
  rintro s rfl
  unfold newDescriptor
  cases opened : io.newFd with
  | none => exact h' opened
  | some f =>
    simp only [wp_bind, wp_get]
    split
    · exact disabled
    · rename_i fresh
      obtain ⟨present, unowned⟩ := not_or.mp fresh
      refine h f opened present fun r owner => unowned ?_
      rw [view_fd] at owner
      obtain ⟨e, here, rfl⟩ := Option.map_eq_some_iff.mp owner
      exact owned_of_elem here

theorem view_setElem_socket {entry : SocketEntry} (live : s.sockets.get id = some entry) (e : EpollElem) :
    (s.setElem (.sock id) e).view = s.view.setSocket id ⟨entry.key, ⟨e.fd, e.call⟩⟩ := by
  simp only [setElem, live]
  ext1 <;> try rfl
  funext other
  simp only [view, Registry.setSocket, Store.get_set_live live]
  split <;> rfl

theorem acts_setCall {Q : Unit → Registry → Prop} {e : SocketView} (live : v.socket id = some e)
    {elem : EpollElem} (same : e.client.fd = elem.fd) (call : Nat)
    (h : Q () (v.setSocket id { e with client := { e.client with call := some call } })) :
    Acts E (modify fun s => { s with calls := call + 1 }.setElem (.sock id) { elem with call := some call }) Q v := by
  rintro s rfl
  obtain ⟨entry, here, rfl⟩ := Option.map_eq_some_iff.mp live
  have moved := view_setElem_socket (s := { s with calls := call + 1 }) here { elem with call := some call }
  rw [wp_modify, moved, ← same]
  exact h

theorem acts_insertPending {Q : Unit → Registry → Prop} (key : Fd × Bytes) (pending : Pending)
    (h : Q () { v with
      onResolve := fun other =>
        if other = key then some ((v.onResolve key).getD pending) else v.onResolve other }) :
    Acts E (insertPending key pending) Q v := by
  rintro s rfl
  exact h

theorem acts_erasePending {Q : Unit → Registry → Prop} (key : Fd × Bytes) (h : Q () (v.unpend key)) :
    Acts E (erasePending key) Q v := by
  rintro s rfl
  exact h

theorem acts_service {Q : Unit → Registry → Prop} (id : SocketId) (allowed : E .service) (h : Q () v) :
    Acts E (service id) Q v := by
  refine Acts.get fun s _ => ?_
  split
  · exact Acts.pure h
  · exact Acts.throw allowed

theorem acts_connectToServer {Q : Unit → Registry → Prop} {e : SocketView} (live : v.socket id = some e)
    (present : e.client.fd ≠ 0) (host : Bytes) (next : AfterConnect) (allowed : E .service)
    (h : ∀ call, Q () (v.request id e host { call, next })) : Acts E (connectToServer id host next) Q v := by
  have owner : v.fd? (.sock id) = some e.client.fd := by simp [Registry.fd?, live]
  refine Acts.bind (acts_getElem (fun elem here => ?_) (fun gone => by simp [gone] at owner))
  have same : e.client.fd = elem.fd := by simpa [owner] using here
  refine Acts.get fun s _ => ?_
  refine Acts.bind (acts_setCall live same s.calls ?_)
  refine Acts.bind (acts_insertPending _ _ ?_)
  refine Acts.bind (acts_update _ _ (fun f here => ?_) ?_ ?_)
  · have last : e.client.fd = f := by simpa [Registry.fd?, Registry.setSocket] using here
    refine Acts.get fun s' _ => Acts.bind (acts_service _ allowed ?_)
    refine Acts.modify (fun t moved => ?_) (h s.calls)
    show { t.view with resolving := t.view.resolving ++ [(elem.fd, host)] } = _
    rw [moved, ← last, ← same]
    rfl
  · simpa [Registry.fd?, Registry.setSocket] using present
  · simp [Registry.fd?, Registry.setSocket]

/-! ### Messages -/

theorem acts_observe {Q : Unit → Registry → Prop} (o : Obs) (h : Q () (v.withLedger (v.ledger.observe o))) :
    Acts E (observe o) Q v := by
  rintro s rfl
  exact h

theorem acts_newRequest {Q : MsgId → Registry → Prop} (m : ClientRequest)
    (h : Q v.ledger.nextMessage (v.withLedger (v.ledger.newMessage.setRequest v.ledger.nextMessage m))) :
    Acts E (newRequest m) Q v := by
  rintro s rfl
  exact h

theorem acts_newResponse {Q : MsgId → Registry → Prop} (m : ServerResponse)
    (h : Q v.ledger.nextMessage (v.withLedger (v.ledger.newMessage.setResponse v.ledger.nextMessage m))) :
    Acts E (newResponse m) Q v := by
  rintro s rfl
  exact h

theorem acts_newRaw {Q : MsgId → Registry → Prop}
    (h : Q v.ledger.nextMessage (v.withLedger (v.ledger.newMessage.setRaw v.ledger.nextMessage .new))) :
    Acts E newRaw Q v := by
  rintro s rfl
  exact h

theorem acts_setRequest {Q : Unit → Registry → Prop} (id : MsgId) (m : ClientRequest)
    (h : Q () (v.withLedger (v.ledger.setRequest id m))) : Acts E (setRequest id m) Q v := by
  rintro s rfl
  exact h

theorem acts_setResponse {Q : Unit → Registry → Prop} (id : MsgId) (m : ServerResponse)
    (h : Q () (v.withLedger (v.ledger.setResponse id m))) : Acts E (setResponse id m) Q v := by
  rintro s rfl
  exact h

theorem acts_setRaw {Q : Unit → Registry → Prop} (id : MsgId) (m : RawMessage)
    (h : Q () (v.withLedger (v.ledger.setRaw id m))) : Acts E (setRaw id m) Q v := by
  rintro s rfl
  exact h

/-- A message is made to be sent, and the handler that sends it installed. -/
theorem acts_sendRequest {Q : Unit → Registry → Prop} {f : Fd} (owner : v.fd? r = some f) (present : f ≠ 0)
    (m : ClientRequest) (next : AfterSend) (io : Io)
    (h : ∀ d, v.ledger.Queued d f (.request v.ledger.nextMessage) m.unsent →
      d.requests v.ledger.nextMessage = m.transferred io.garbage →
      Q () ((v.withLedger d).setHandler f (.send r (.request v.ledger.nextMessage) it next))) :
    Acts E (sendRequest r m it next io) Q v := by
  refine Acts.bind (acts_newRequest _ (Acts.bind (acts_getElem (fun e here => ?_) fun closed => ?_)))
  · obtain rfl : f = e.fd := by simpa [owner] using here
    refine Acts.bind (acts_observe _ (acts_update _ _ (fun f' owner' => ?_) (fun zero => ?_) fun closed => ?_))
    · obtain rfl : e.fd = f' := by simpa [owner] using owner'
      exact h _ (Ledger.queued_request _) (if_pos rfl)
    · exact present (by simpa [owner] using zero)
    · simp [owner] at closed
  · simp [owner] at closed

theorem acts_sendResponse {Q : Unit → Registry → Prop} {f : Fd} (owner : v.fd? r = some f) (present : f ≠ 0)
    (m : ServerResponse) (next : AfterSend) (io : Io)
    (h : ∀ d, v.ledger.Queued d f (.response v.ledger.nextMessage) m.unsent →
      d.responses v.ledger.nextMessage = m.transferred io.garbage →
      Q () ((v.withLedger d).setHandler f (.send r (.response v.ledger.nextMessage) it next))) :
    Acts E (sendResponse r m it next io) Q v := by
  refine Acts.bind (acts_newResponse _ (Acts.bind (acts_getElem (fun e here => ?_) fun closed => ?_)))
  · obtain rfl : f = e.fd := by simpa [owner] using here
    refine Acts.bind (acts_observe _ (acts_update _ _ (fun f' owner' => ?_) (fun zero => ?_) fun closed => ?_))
    · obtain rfl : e.fd = f' := by simpa [owner] using owner'
      exact h _ (Ledger.queued_response _) (if_pos rfl)
    · exact present (by simpa [owner] using zero)
    · simp [owner] at closed
  · simp [owner] at closed

theorem acts_readMessage {L : Type} [Line L] {m : BufferedMessage L} {io : Io} {f : Fd}
    {Q : Option (BufferedMessage L) → Registry → Prop} (owner : v.fd? r = some f) (uncaught : E .uncaught)
    (failed : Q none v)
    (h : ∀ bytes m', io.read = some bytes → m.readFrom (bytes.take m.shouldRead) = .ok m' →
      Q (some m') (v.withLedger (v.ledger.observe (.read r (bytes.take m.shouldRead))))) :
    Acts E (readMessage r m io) Q v := by
  refine Acts.bind (acts_getElem (fun _ _ => ?_) fun closed => by simp [owner] at closed)
  cases read : io.read with
  | none => exact Acts.pure failed
  | some bytes =>
    cases result : m.readFrom (bytes.take m.shouldRead) with
    | ok m' =>
      simp only [result]
      exact Acts.bind (acts_observe _ (Acts.pure (h bytes m' read result)))
    | error e =>
      simp only [result]
      cases e with
      | annotated => exact Acts.pure failed
      | _ => exact Acts.throw uncaught

theorem acts_writeMessage {L : Type} {m : BufferedMessage L} {ref : MessageRef} {io : Io} {f : Fd}
    {Q : Option (BufferedMessage L) → Registry → Prop} (owner : v.fd? r = some f) (outOfBounds : E .outOfBounds)
    (failed : Q none v)
    (h : ∀ accepted bytes m', io.write = some accepted → m.writeTo accepted = some (bytes, m') →
      Q (some m') (v.withLedger (v.ledger.observe (.wrote f ref bytes)))) :
    Acts E (writeMessage r ref m io) Q v := by
  refine Acts.bind (acts_getElem (fun e here => ?_) fun closed => by simp [owner] at closed)
  obtain rfl : f = e.fd := by simpa [owner] using here
  cases write : io.write with
  | none =>
    simp only
    split
    · exact Acts.pure failed
    · exact Acts.throw outOfBounds
  | some accepted =>
    cases result : m.writeTo accepted with
    | none =>
      simp only [result]
      exact Acts.throw outOfBounds
    | some written =>
      simp only [result]
      exact Acts.bind (acts_observe _ (Acts.pure (h accepted written.1 written.2 write result)))

end Proxy

end ProxyServer
