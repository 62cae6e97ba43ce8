import ProxyServer.Foundation.Frame
import ProxyServer.Server.Steps

/-!
# Clients that wait for the resolver

Which clients wait for their host, which of them `on_resolve` knows, and which hosts are
with the resolver. Most of the server leaves the three as they are, or lets clients go.
-/

namespace ProxyServer

open Wp

/-- The host that the client of the handler waits for. -/
def Handler.asks : Handler → Option Bytes
  | .resolving _ host => some host
  | _ => none

/-- What the server has to do with the resolver. -/
structure Docket where
  handlers : Fd → Option Handler
  onResolve : Fd × Bytes → Option Pending
  resolving : List (Fd × Bytes)

namespace Docket

/-- The client of the key waits for its host. -/
def Asking (d : Docket) (key : Fd × Bytes) : Prop := (d.handlers key.1).bind Handler.asks = some key.2

theorem Asking.resolving {d : Docket} {key : Fd × Bytes} (asking : d.Asking key) :
    ∃ id, d.handlers key.1 = some (.resolving id key.2) := by
  obtain ⟨h, installed, asks⟩ := Option.bind_eq_some_iff.mp asking
  cases h with
  | resolving id host =>
    cases asks
    exact ⟨id, installed⟩
  | _ => cases asks

/-- What a client waits for is pending and with the resolver. -/
def Waiting (d : Docket) : Prop := ∀ key, d.Asking key → (d.onResolve key).isSome ∧ key ∈ d.resolving

/-- No client begins to wait, and none of those that wait is forgotten. -/
structure Calm (d d' : Docket) : Prop where
  resolving : d'.resolving = d.resolving
  asking : ∀ key, d'.Asking key → d.Asking key
  pending : ∀ key, d'.Asking key → (d.onResolve key).isSome → (d'.onResolve key).isSome

/-- One host at most is submitted. -/
inductive Submits (d d' : Docket) : Prop where
  | none (calm : Calm d d')
  | one (key : Fd × Bytes) (resolving : d'.resolving = d.resolving ++ [key])
      (asking : ∀ other, d'.Asking other → other = key ∨ d.Asking other)
      (pending : ∀ other, d'.Asking other → other = key ∨ (d.onResolve other).isSome → (d'.onResolve other).isSome)

variable {d d' d'' : Docket}

/-- The resolver's result `i` is taken, and its client no longer waits. -/
structure Answers (i : Nat) (d d' : Docket) : Prop where
  present : i < d.resolving.length
  resolving : d'.resolving = d.resolving.eraseIdx i
  asking : ∀ key, d'.Asking key → d.Asking key
  pending : ∀ key, d'.Asking key → (d.onResolve key).isSome → (d'.onResolve key).isSome
  spent : ∀ key, d.resolving[i]? = some key → d'.Asking key → d.onResolve key = none

theorem Calm.refl (d : Docket) : Calm d d := ⟨rfl, fun _ => id, fun _ _ => id⟩

theorem Calm.trans (first : Calm d d') (rest : Calm d' d'') : Calm d d'' where
  resolving := rest.resolving.trans first.resolving
  asking key asking := first.asking key (rest.asking key asking)
  pending key asking pending := rest.pending key asking (first.pending key (rest.asking key asking) pending)

theorem Calm.submits (first : Calm d d') (rest : Submits d' d'') : Submits d d'' := by
  cases rest with
  | none calm => exact .none (first.trans calm)
  | one key resolving asking pending =>
    refine .one key (by rw [resolving, first.resolving]) (fun other waits => ?_) fun other waits known => ?_
    · exact (asking other waits).imp_right (first.asking other)
    · refine pending other waits ?_
      rcases asking other waits with same | before
      · exact Or.inl same
      · exact known.imp_right (first.pending other before)

theorem Submits.calm (first : Submits d d') (rest : Calm d' d'') : Submits d d'' := by
  cases first with
  | none calm => exact .none (calm.trans rest)
  | one key resolving asking pending =>
    refine .one key (by rw [rest.resolving, resolving]) (fun other waits => asking other (rest.asking other waits)) ?_
    exact fun other waits known => rest.pending other waits (pending other (rest.asking other waits) known)

theorem Waiting.answers {i : Nat} (waiting : d.Waiting) (answers : Answers i d d') : d'.Waiting := by
  intro key asking
  obtain ⟨pending, member⟩ := waiting key (answers.asking key asking)
  refine ⟨answers.pending key asking pending, ?_⟩
  obtain ⟨j, here⟩ := List.mem_iff_getElem?.mp member
  have other : j ≠ i := by
    rintro rfl
    rw [answers.spent key here asking] at pending
    cases pending
  rw [answers.resolving, List.mem_eraseIdx_iff_getElem?]
  exact ⟨j, other, here⟩

theorem Answers.of_replaced {i : Nat} {key : Fd × Bytes} (queued : d.resolving[i]? = some key)
    (resolving : d'.resolving = d.resolving.eraseIdx i)
    (handlers : ∀ f, (d'.handlers f).bind Handler.asks = none ∨ f ≠ key.1 ∧ d'.handlers f = d.handlers f)
    (onResolve : ∀ other, other.1 ≠ key.1 → d'.onResolve other = d.onResolve other) : Answers i d d' where
  present := (List.getElem?_eq_some_iff.mp queued).1
  resolving := resolving
  asking other asking := by
    unfold Asking at asking ⊢
    rcases handlers other.1 with idle | ⟨-, same⟩
    · rw [idle] at asking
      cases asking
    · rwa [same] at asking
  pending other asking known := by
    unfold Asking at asking
    rcases handlers other.1 with idle | ⟨apart, -⟩
    · rw [idle] at asking
      cases asking
    · rwa [onResolve other apart]
  spent other same asking := by
    obtain rfl : key = other := Option.some.inj (queued.symm.trans same)
    unfold Asking at asking
    rcases handlers key.1 with idle | ⟨apart, -⟩
    · rw [idle] at asking
      cases asking
    · exact absurd rfl apart

theorem Waiting.submits (waiting : d.Waiting) (submits : Submits d d') : d'.Waiting := by
  intro key asking
  cases submits with
  | none calm =>
    obtain ⟨pending, member⟩ := waiting key (calm.asking key asking)
    exact ⟨calm.pending key asking pending, calm.resolving ▸ member⟩
  | one new resolving began pending =>
    rw [resolving]
    rcases began key asking with rfl | before
    · exact ⟨pending key asking (Or.inl rfl), List.mem_append_right _ (List.mem_singleton_self key)⟩
    · obtain ⟨known, member⟩ := waiting key before
      exact ⟨pending key asking (Or.inr known), List.mem_append_left _ member⟩

end Docket

def Registry.docket (v : Registry) : Docket := ⟨v.handlers, v.onResolve, v.resolving⟩

namespace Proxy

def docket (s : Proxy) : Docket := ⟨s.handlers, s.onResolve, s.resolving⟩

/-- `x` forgets no client. -/
abbrev Calmly {α : Type} (x : ProxyM α) : Prop := Takes Docket.Calm docket x

variable {α β : Type} {x : ProxyM α} {k : α → ProxyM β}

theorem calmly_of_leaves (leaves : Leaves docket x) : Calmly x := leaves.mono fun d _ same => same ▸ Docket.Calm.refl d

theorem calmly_pure {a : α} : Calmly (pure a) := calmly_of_leaves leaves_pure

theorem calmly_throw {e : Fault} : Calmly (throw e : ProxyM α) := Takes.throw

theorem calmly_get : Calmly get := calmly_of_leaves leaves_get

theorem calmly_bind (first : Calmly x) (rest : ∀ a, Calmly (k a)) : Calmly (x >>= k) := by
  intro s
  rw [wp_bind]
  apply wp_mono _ (first s)
  intro a t calm
  exact wp_mono (fun _ _ more => calm.trans more) (rest a t)

theorem calmly_whenever {c : Bool} {x : ProxyM Unit} (calmly : Calmly x) : Calmly (whenever c x) :=
  Takes.whenever (fun _ => calmly) fun _ d => Docket.Calm.refl d

theorem calmly_modify {g : Proxy → Proxy} (same : ∀ s, (g s).docket = s.docket) : Calmly (modify g) :=
  calmly_of_leaves (leaves_modify same)

variable {L : Type} {m : BufferedMessage L} {rqst : ClientRequest} {resp : ServerResponse} {ref : MessageRef} {n : MsgId}
  {e : EpollElem} {it : EntryRef} {r other : ElemRef} {id : SocketId} {c : ConnId} {io : Io} {state : FdState}
  {key : Fd × Bytes} {host : Bytes} {timeout : Nat}

attribute [local grind ←] calmly_bind calmly_pure calmly_throw calmly_get calmly_whenever

/-! ### The queue -/

theorem docket_setElem {s : Proxy} : (s.setElem r e).docket = s.docket := by
  unfold setElem
  cases r <;> dsimp only <;> split <;> rfl

theorem calm_destroy (s : Proxy) (e : EpollElem) : Docket.Calm s.docket (s.destroy e).docket := by
  unfold destroy
  split
  · exact Docket.Calm.refl _
  · have fewer : ∀ key, (s.setHandler e.fd none).docket.Asking key → s.docket.Asking key := by
      intro key asking
      simp only [Docket.Asking, docket, setHandler] at asking ⊢
      split at asking
      · cases asking
      · exact asking
    exact ⟨rfl, fewer, fun _ _ => id⟩

@[grind ←] theorem calmly_touch : Calmly (touch it) := by
  unfold touch
  grind

@[grind ←] theorem calmly_getElem : Calmly (getElem r) := by
  unfold getElem
  grind

@[grind ←] theorem calmly_updateState : Calmly (updateState r state) := by
  unfold updateState
  grind [calmly_modify, docket_setElem]

@[grind ←] theorem calmly_updateHandler {h : Handler} (quiet : h.asks = none) : Calmly (updateHandler r h) := by
  unfold updateHandler
  refine calmly_bind calmly_getElem fun e => ?_
  split
  · exact calmly_throw
  · intro s
    rw [wp_modify]
    have fewer : ∀ key, (s.setHandler e.fd (some h)).docket.Asking key → s.docket.Asking key := by
      intro key asking
      simp only [Docket.Asking, docket, setHandler] at asking ⊢
      split at asking
      · rw [Option.bind_some, quiet] at asking
        cases asking
      · exact asking
    exact ⟨rfl, fewer, fun _ _ => id⟩

@[grind ←] theorem calmly_update {h : Handler} (quiet : h.asks = none) : Calmly (update r state h) :=
  calmly_bind calmly_updateState fun _ => calmly_updateHandler quiet

@[grind ←] theorem calmly_closeSocket : Calmly (closeSocket id) := by
  intro s
  unfold closeSocket
  simp only [wp_bind, wp_get]
  split
  · exact calm_destroy { s with sockets := s.sockets.erase id } _
  · trivial

@[grind ←] theorem calmly_closeConnection : Calmly (closeConnection c) := by
  intro s
  unfold closeConnection
  simp only [wp_bind, wp_get]
  split
  · rename_i conn live
    have server := calm_destroy { s with connections := s.connections.erase c } conn.server
    exact server.trans (calm_destroy _ conn.client)
  · trivial

@[grind ←] theorem calmly_setActive : Calmly (setActive it) := by
  intro s
  unfold setActive
  cases it <;> simp only [wp_bind, wp_get] <;> split <;> first | trivial | exact Docket.Calm.refl _

@[grind ←] theorem calmly_insertSocket : Calmly (insertSocket e) := by
  intro s
  unfold insertSocket
  simp only [wp_bind, wp_get]
  split
  · exact calm_destroy _ _
  · exact Docket.Calm.refl _

@[grind ←] theorem calmly_saveRegistration : Calmly (saveRegistration e timeout) := by
  unfold saveRegistration
  grind

@[grind ←] theorem calmly_changeTimeout : Calmly (changeTimeout c timeout) := by
  intro s
  unfold changeTimeout getConnection
  simp only [wp_bind, wp_get]
  split
  · exact Docket.Calm.refl s.docket
  · trivial

@[grind ←] theorem calmly_takeClient : Calmly (takeClient c) := by
  unfold takeClient
  grind [calmly_modify, docket_setElem]

@[grind ←] theorem calmly_escapeClient : Calmly (escapeClient c) := by
  unfold escapeClient
  grind

@[grind ←] theorem calmly_newDescriptor : Calmly (newDescriptor io) := by
  unfold newDescriptor
  grind

@[grind ←] theorem calmly_service : Calmly (service id) := by
  unfold service
  grind

/-! ### Messages -/

@[grind ←] theorem calmly_newRequest : Calmly (newRequest rqst) := calmly_of_leaves (leaves_update fun _ => rfl)

@[grind ←] theorem calmly_newResponse : Calmly (newResponse resp) := calmly_of_leaves (leaves_update fun _ => rfl)

@[grind ←] theorem calmly_newRaw : Calmly newRaw := calmly_of_leaves (leaves_update fun _ => rfl)

@[grind ←] theorem calmly_setRequest : Calmly (setRequest n rqst) := calmly_modify fun _ => rfl

@[grind ←] theorem calmly_setResponse : Calmly (setResponse n resp) := calmly_modify fun _ => rfl

@[grind ←] theorem calmly_setRaw {raw : RawMessage} : Calmly (setRaw n raw) := calmly_modify fun _ => rfl

@[grind ←] theorem calmly_observe {o : Obs} : Calmly (observe o) := calmly_modify fun _ => rfl

@[grind ←] theorem calmly_readMessage [Line L] : Calmly (readMessage r m io) := by
  unfold readMessage
  refine calmly_bind calmly_getElem fun e => ?_
  split
  · exact calmly_pure
  · split
    · exact calmly_bind calmly_observe fun _ => calmly_pure
    · exact calmly_pure
    · exact calmly_throw

@[grind ←] theorem calmly_writeMessage : Calmly (writeMessage r ref m io) := by
  unfold writeMessage
  refine calmly_bind calmly_getElem fun e => ?_
  split
  · split
    · exact calmly_pure
    · exact calmly_throw
  · split
    · exact calmly_bind calmly_observe fun _ => calmly_pure
    · exact calmly_throw

@[grind ←] theorem calmly_readRequest {next : AfterRequest} : Calmly (readRequest r rqst it next io) := by
  unfold readRequest
  grind [Handler.asks]

@[grind ←] theorem calmly_readResponse {next : AfterResponse} : Calmly (readResponse r resp it next io) := by
  unfold readResponse
  grind [Handler.asks]

@[grind ←] theorem calmly_sendRequest {next : AfterSend} : Calmly (sendRequest r rqst it next io) := by
  unfold sendRequest
  grind [Handler.asks]

@[grind ←] theorem calmly_sendResponse {next : AfterSend} : Calmly (sendResponse r resp it next io) := by
  unfold sendResponse
  grind [Handler.asks]

@[grind ←] theorem calmly_send404 : Calmly (send404 id io) := calmly_sendResponse

@[grind ←] theorem calmly_sendServerResponse : Calmly (sendServerResponse c rqst resp io) := by
  unfold sendServerResponse
  grind

@[grind ←] theorem calmly_fastTransfer : Calmly (fastTransfer c rqst io) := calmly_sendRequest

@[grind ←] theorem calmly_handleClientRequest : Calmly (handleClientRequest rqst c io) := by
  unfold handleClientRequest sendAndRead
  grind

@[grind ←] theorem calmly_deleteCached {request : RequestHeader} : Calmly (deleteCached request) := by
  unfold deleteCached
  grind [calmly_modify, docket]

@[grind ←] theorem calmly_reuseConnection : Calmly (reuseConnection c host io) := by
  unfold reuseConnection
  grind [Handler.asks]

@[grind ←] theorem calmly_handleConnect : Calmly (handleConnect c) := by
  unfold handleConnect
  grind [Handler.asks]

@[grind ←] theorem calmly_startTransfer : Calmly (startTransfer c rqst) := by
  unfold startTransfer
  grind [Handler.asks]

theorem calmly_afterConnect {next : AfterConnect} : Calmly (next.run c io) := by
  cases next with
  | handleClientRequest rqst => exact calmly_handleClientRequest
  | fastTransfer rqst => exact calmly_fastTransfer

@[grind ←] theorem calmly_afterSend {next : AfterSend} : Calmly (next.run io) := by
  cases next with
  | readResponse dest iterator next => exact calmly_bind calmly_touch fun _ => calmly_readResponse
  | startTransfer c rqst => exact calmly_startTransfer
  | reuseConnection c host => exact calmly_reuseConnection
  | handleConnect c => exact calmly_handleConnect
  | closeSent it => exact calmly_bind calmly_touch fun _ => calmly_closeSocket
  | close404 client => exact calmly_closeSocket

/-! ### Submitting a host -/

/-- `x` submits one host at most, and forgets no client. -/
abbrev Submitting {α : Type} (x : ProxyM α) : Prop := Takes Docket.Submits docket x

theorem Submitting.of_calmly (calmly : Calmly x) : Submitting x := calmly.mono fun _ _ => .none

theorem Submitting.behind (first : Calmly x) (rest : ∀ a, Submitting (k a)) : Submitting (x >>= k) := by
  intro s
  rw [wp_bind]
  apply wp_mono _ (first s)
  intro a t calm
  exact wp_mono (fun _ _ more => calm.submits more) (rest a t)

theorem Submitting.before (first : Submitting x) (rest : ∀ a, Calmly (k a)) : Submitting (x >>= k) := by
  intro s
  rw [wp_bind]
  apply wp_mono _ (first s)
  intro a t submits
  exact wp_mono (fun _ _ more => submits.calm more) (rest a t)

theorem Submitting.whenever {c : Bool} {x : ProxyM Unit} (submitting : Submitting x) : Submitting (whenever c x) :=
  Takes.whenever (fun _ => submitting) fun _ d => .none (Docket.Calm.refl d)

theorem submits_request {v : Registry} {e : SocketView} {pending : Pending} :
    Docket.Submits v.docket (v.request id e host pending).docket := by
  refine .one (e.client.fd, host) rfl (fun other asking => ?_) fun other _ known => ?_
  · by_cases here : other.1 = e.client.fd
    · simp only [Docket.Asking, Registry.docket, Registry.request, here, if_true, Option.bind_some, Handler.asks,
        Option.some.injEq] at asking
      exact Or.inl (Prod.ext here asking.symm)
    · simp only [Docket.Asking, Registry.docket, Registry.request, here, if_false] at asking
      exact Or.inr asking
  · simp only [Registry.docket, Registry.request] at known ⊢
    split
    · rfl
    · rename_i apart
      exact known.resolve_left apart

/-- A socket that was moved from has no descriptor to wait on. -/
theorem wp_connectToServer_null {Q : Unit → Proxy → Prop} {s : Proxy} {entry : SocketEntry} {next : AfterConnect}
    (live : s.sockets.get id = some entry) (null : entry.elem.fd = 0) :
    wp (fun _ => True) (connectToServer id host next) Q s := by
  have here : ∀ entry', (s.sockets.set id entry').get id = some entry' := fun entry' => by
    rw [Store.get_set_live live, if_pos rfl]
  simp only [connectToServer, getElem, elem, insertPending, update, updateState, updateHandler, setElem, live, here, null,
    wp_bind, wp_get, wp_pure, wp_modify, Option.map_some, if_true]
  split
  · simp only [here, wp_pure, Option.map_some, if_true]
    trivial
  · trivial

theorem submitting_connectToServer {next : AfterConnect} : Submitting (connectToServer id host next) := by
  intro s
  cases live : s.sockets.get id with
  | none =>
    have gone : s.elem (.sock id) = none := by simp [elem, live]
    simp only [connectToServer, getElem, wp_bind, wp_get, gone]
    trivial
  | some entry =>
    by_cases null : entry.elem.fd = 0
    · exact wp_connectToServer_null live null
    · have view : s.view.socket id = some entry.view := by simp [Proxy.view, live]
      exact acts_connectToServer (E := fun _ => True) (Q := fun _ w => Docket.Submits s.view.docket w.docket) view null host
        next trivial (fun call => submits_request) s rfl

theorem submitting_reconnect {next : AfterConnect} : Submitting (reconnect c host next) := by
  unfold reconnect
  refine .behind calmly_touch fun _ => .behind calmly_takeClient fun client => .behind calmly_closeConnection fun _ => ?_
  exact .behind calmly_saveRegistration fun _ => submitting_connectToServer

theorem submitting_afterRequest {next : AfterRequest} : Submitting (next.run rqst io) := by
  cases next with
  | firstRequestRead client => exact submitting_connectToServer
  | reuse c oldHost =>
    show Submitting (requestReused c oldHost rqst io)
    unfold requestReused
    refine .behind calmly_touch fun _ => ?_
    split
    · exact .of_calmly calmly_handleClientRequest
    · exact submitting_reconnect

theorem submitting_afterResponse {next : AfterResponse} : Submitting (next.run resp io) := by
  cases next with
  | handleValidationResponse c rqst cached =>
    show Submitting (handleValidationResponse c rqst cached resp io)
    unfold handleValidationResponse
    refine .behind calmly_touch fun _ => ?_
    split
    · exact .of_calmly (by grind)
    · exact .behind calmly_observe fun _ => .behind calmly_deleteCached fun _ => submitting_reconnect
    · exact .of_calmly (by grind)

/-! ### Handlers -/

@[grind ←] theorem calmly_hungUp : Calmly (hungUp state io) := by
  unfold hungUp
  grind

@[grind ←] theorem calmly_logAndClose : Calmly (logAndClose it) := by
  unfold logAndClose close
  grind

@[grind ←] theorem calmly_closeFailed : Calmly (closeFailed it io) := by
  unfold closeFailed
  grind

theorem submitting_onReadable {receive : ProxyM Unit} (submitting : Submitting receive) :
    Submitting (onReadable r it state io receive) := by
  unfold onReadable
  refine .behind calmly_getElem fun _ => .behind calmly_setActive fun _ => .behind calmly_hungUp fun gone => ?_
  split
  · exact .of_calmly calmly_logAndClose
  · refine .behind (calmly_whenever calmly_closeFailed) fun _ => .whenever ?_
    exact .behind calmly_getElem fun _ => submitting

theorem calmly_onWritable {ready : ProxyM Bool} {transmit : ProxyM Unit} (asks : Calmly ready) (calmly : Calmly transmit) :
    Calmly (onWritable r it state io ready transmit) := by
  unfold onWritable
  grind

theorem submitting_receiveRequest {next : AfterRequest} : Submitting (receiveRequest r n it next io) := by
  unfold receiveRequest
  refine .behind calmly_get fun s => .behind calmly_readMessage fun read => ?_
  split
  · exact .of_calmly calmly_logAndClose
  · refine .behind calmly_setRequest fun _ => .whenever ?_
    exact .behind calmly_updateState fun _ => submitting_afterRequest

theorem submitting_receiveResponse {next : AfterResponse} : Submitting (receiveResponse r n it next io) := by
  unfold receiveResponse
  refine .behind calmly_get fun s => .behind calmly_readMessage fun read => ?_
  split
  · exact .of_calmly calmly_logAndClose
  · refine .behind calmly_setResponse fun _ => .whenever ?_
    exact .behind calmly_updateState fun _ => submitting_afterResponse

@[grind ←] theorem calmly_writeRef : Calmly (writeRef r ref io) := by
  unfold writeRef
  cases ref <;> grind

theorem calmly_transmitMessage {next : AfterSend} : Calmly (transmitMessage r ref it next io) := by
  unfold transmitMessage
  grind

@[grind ←] theorem calmly_saveTransferred : Calmly (saveTransferred rqst resp) := by
  unfold saveTransferred
  grind [calmly_modify, docket]

theorem calmly_transferIn : Calmly (transferIn c rqst n io) := by
  unfold transferIn
  refine calmly_bind calmly_get fun s => calmly_bind calmly_readMessage fun read => ?_
  grind

theorem calmly_transferOut : Calmly (transferOut c n io) := by
  unfold transferOut
  grind

@[grind ←] theorem calmly_connectTransferIn : Calmly (connectTransferIn c r other n io) := by
  unfold connectTransferIn
  refine calmly_bind calmly_getElem fun _ => calmly_bind calmly_get fun s => ?_
  split
  · refine calmly_bind calmly_logAndClose fun _ => ?_
    grind
  · refine calmly_bind calmly_setRaw fun _ => ?_
    grind

@[grind ←] theorem calmly_connectTransferOut : Calmly (connectTransferOut c r other n io) := by
  unfold connectTransferOut
  refine calmly_bind calmly_getElem fun _ => calmly_bind calmly_get fun s => ?_
  split
  · refine calmly_bind calmly_logAndClose fun _ => ?_
    grind
  · refine calmly_bind calmly_setRaw fun _ => ?_
    grind

theorem calmly_onConnectTransfer {inMessage outMessage : MsgId} :
    Calmly (onConnectTransfer c r other inMessage outMessage state io) := by
  unfold onConnectTransfer
  grind

theorem calmly_onListener : Calmly (onListener state io) := by
  unfold onListener
  refine calmly_whenever (calmly_bind calmly_get fun s => ?_)
  grind

theorem calm_of_handlers {d d' : Docket} (resolving : d'.resolving = d.resolving) (onResolve : d'.onResolve = d.onResolve)
    (handlers : ∀ f h, d'.handlers f = some h → d.handlers f = some h) : Docket.Calm d d' := by
  refine ⟨resolving, fun key asking => ?_, fun key _ known => by rwa [onResolve]⟩
  obtain ⟨h, installed, asks⟩ := Option.bind_eq_some_iff.mp asking
  exact Option.bind_eq_some_iff.mpr ⟨h, handlers _ _ installed, asks⟩

theorem calmly_onTimer : Calmly (onTimer state io) := by
  unfold onTimer
  refine calmly_whenever (calmly_bind calmly_get fun s => calmly_bind calmly_service fun _ => ?_)
  refine calmly_bind (fun s => ?_) fun _ s => ?_
  · rw [wp_modify]
    refine calm_of_handlers rfl rfl fun f h installed => ?_
    simp only [docket, sweepSockets] at installed
    split at installed
    · cases installed
    · exact installed
  · rw [wp_modify]
    refine calm_of_handlers rfl rfl fun f h installed => ?_
    simp only [docket, sweepConnections] at installed
    split at installed
    · cases installed
    · exact installed

end Proxy

end ProxyServer
