import ProxyServer.Foundation.Frame
import ProxyServer.Server.Handlers

/-!
# Which handlers try addresses

`connect` is called in the handler of the notifier and in the one that
`make_server_connect_handler` returns. All other code leaves the attempts as they are.
-/

namespace ProxyServer

open Wp

def Obs.tries : Obs → Option (Fd × Address)
  | .attempted server address => some (server, address)
  | _ => none

namespace Proxy

/-- The addresses that were tried, with the descriptors of the servers. -/
def tried (s : Proxy) : List (Fd × Address) := s.trace.filterMap Obs.tries

abbrev Quiet {α : Type} (x : ProxyM α) : Prop := Leaves tried x

variable {L : Type} {m : BufferedMessage L} {rqst : ClientRequest} {resp : ServerResponse} {ref : MessageRef} {k : MsgId}
  {e : EpollElem} {it : EntryRef} {r other : ElemRef} {id : SocketId} {c : ConnId} {io : Io} {state : FdState}
  {key : Fd × Bytes} {host : Bytes} {timeout : Nat}

attribute [local grind ←] Leaves.bind leaves_pure leaves_throw leaves_get leaves_whenever

/-! ### The queue -/

@[grind ←] theorem quiet_of_trace {g : Proxy → Proxy} (same : ∀ s, (g s).trace = s.trace) : Quiet (modify g) := by
  apply leaves_modify
  intro s
  unfold tried
  rw [same]

@[grind =] theorem trace_setElem {s : Proxy} : (s.setElem r e).trace = s.trace := by
  unfold setElem
  cases r <;> dsimp only <;> split <;> rfl

@[grind =] theorem trace_destroy {s : Proxy} : (s.destroy e).trace = s.trace := by
  unfold destroy
  split <;> rfl

@[grind ←] theorem quiet_touch : Quiet (touch it) := by
  unfold touch
  grind

@[grind ←] theorem quiet_getElem : Quiet (getElem r) := by
  unfold getElem
  grind

@[grind ←] theorem quiet_updateState : Quiet (updateState r state) := by
  unfold updateState
  grind

@[grind ←] theorem quiet_updateHandler {h : Handler} : Quiet (updateHandler r h) := by
  unfold updateHandler setHandler
  grind

@[grind ←] theorem quiet_update {h : Handler} : Quiet (update r state h) := quiet_updateState.bind fun _ => quiet_updateHandler

@[grind ←] theorem quiet_closeSocket : Quiet (closeSocket id) := by
  unfold closeSocket
  grind

@[grind ←] theorem quiet_closeConnection : Quiet (closeConnection c) := by
  unfold closeConnection
  grind

@[grind ←] theorem quiet_setActive : Quiet (setActive it) := by
  intro s
  unfold setActive
  cases it <;> simp only [wp_bind, wp_get] <;> split <;> simp [tried]

@[grind ←] theorem quiet_insertSocket : Quiet (insertSocket e) := by
  intro s
  unfold insertSocket
  simp only [wp_bind, wp_get]
  split <;> simp only [wp_bind, wp_set, wp_pure, tried, trace_destroy]

@[grind ←] theorem quiet_saveRegistration : Quiet (saveRegistration e timeout) := by
  unfold saveRegistration
  grind

@[grind ←] theorem quiet_changeTimeout : Quiet (changeTimeout c timeout) := by
  unfold changeTimeout getConnection
  grind

@[grind ←] theorem quiet_takeClient : Quiet (takeClient c) := by
  unfold takeClient
  grind

@[grind ←] theorem quiet_escapeClient : Quiet (escapeClient c) := by
  unfold escapeClient
  grind

@[grind ←] theorem leaves_newDescriptor {γ : Type} {f : Proxy → γ} : Leaves f (newDescriptor io) := by
  unfold newDescriptor
  grind

@[grind ←] theorem leaves_service {γ : Type} {f : Proxy → γ} : Leaves f (service id) := by
  unfold service
  grind

/-! ### Messages -/

@[grind ←] theorem quiet_newRequest : Quiet (newRequest rqst) := leaves_update fun _ => rfl

@[grind ←] theorem quiet_newResponse : Quiet (newResponse resp) := leaves_update fun _ => rfl

@[grind ←] theorem quiet_newRaw : Quiet newRaw := leaves_update fun _ => rfl

@[grind ←] theorem quiet_setRequest : Quiet (setRequest k rqst) := quiet_of_trace fun _ => rfl

@[grind ←] theorem quiet_setResponse : Quiet (setResponse k resp) := quiet_of_trace fun _ => rfl

@[grind ←] theorem quiet_setRaw {raw : RawMessage} : Quiet (setRaw k raw) := quiet_of_trace fun _ => rfl

@[grind ←] theorem quiet_observe {o : Obs} (other : o.tries = none) : Quiet (observe o) := by
  apply leaves_modify
  intro s
  simp [tried, other]

@[grind ←] theorem quiet_readMessage [Line L] : Quiet (readMessage r m io) := by
  unfold readMessage
  grind [Obs.tries]

@[grind ←] theorem quiet_writeMessage : Quiet (writeMessage r ref m io) := by
  unfold writeMessage
  grind [Obs.tries]

@[grind ←] theorem quiet_readRequest {next : AfterRequest} : Quiet (readRequest r rqst it next io) := by
  unfold readRequest
  grind

@[grind ←] theorem quiet_readResponse {next : AfterResponse} : Quiet (readResponse r resp it next io) := by
  unfold readResponse
  grind

@[grind ←] theorem quiet_sendRequest {next : AfterSend} : Quiet (sendRequest r rqst it next io) := by
  unfold sendRequest
  grind [Obs.tries]

@[grind ←] theorem quiet_sendResponse {next : AfterSend} : Quiet (sendResponse r resp it next io) := by
  unfold sendResponse
  grind [Obs.tries]

@[grind ←] theorem quiet_send404 : Quiet (send404 id io) := quiet_sendResponse

@[grind ←] theorem quiet_sendServerResponse : Quiet (sendServerResponse c rqst resp io) := by
  unfold sendServerResponse
  grind

/-! ### Continuations -/

@[grind ←] theorem quiet_erasePending : Quiet (erasePending key) := quiet_of_trace fun _ => rfl

@[grind ←] theorem quiet_insertPending {pending : Pending} : Quiet (insertPending key pending) :=
  quiet_of_trace fun _ => rfl

@[grind ←] theorem quiet_connectToServer {next : AfterConnect} : Quiet (connectToServer id host next) := by
  unfold connectToServer
  apply Leaves.bind quiet_getElem
  intro e
  apply Leaves.bind leaves_get
  intro s
  dsimp only
  grind

@[grind ←] theorem quiet_fastTransfer : Quiet (fastTransfer c rqst io) := quiet_sendRequest

@[grind ←] theorem quiet_handleClientRequest : Quiet (handleClientRequest rqst c io) := by
  unfold handleClientRequest sendAndRead
  grind [Obs.tries]

@[grind ←] theorem quiet_reconnect {next : AfterConnect} : Quiet (reconnect c host next) := by
  unfold reconnect
  grind

@[grind ←] theorem quiet_deleteCached {request : RequestHeader} : Quiet (deleteCached request) := by
  unfold deleteCached
  grind

theorem quiet_handleValidationResponse {cached : ServerResponse} :
    Quiet (handleValidationResponse c rqst cached resp io) := by
  unfold handleValidationResponse
  grind [Obs.tries]

theorem quiet_requestReused : Quiet (requestReused c host rqst io) := by
  unfold requestReused
  grind

theorem quiet_reuseConnection : Quiet (reuseConnection c host io) := by
  unfold reuseConnection
  grind

theorem quiet_handleConnect : Quiet (handleConnect c) := by
  unfold handleConnect
  grind

theorem quiet_startTransfer : Quiet (startTransfer c rqst) := by
  unfold startTransfer
  grind

@[grind ←] theorem quiet_afterConnect {next : AfterConnect} : Quiet (next.run c io) := by
  cases next with
  | handleClientRequest rqst => exact quiet_handleClientRequest
  | fastTransfer rqst => exact quiet_fastTransfer

@[grind ←] theorem quiet_afterRequest {next : AfterRequest} : Quiet (next.run rqst io) := by
  cases next with
  | firstRequestRead client => exact quiet_connectToServer
  | reuse c host => exact quiet_requestReused

@[grind ←] theorem quiet_afterResponse {next : AfterResponse} : Quiet (next.run resp io) := by
  cases next with
  | handleValidationResponse c rqst cached => exact quiet_handleValidationResponse

@[grind ←] theorem quiet_afterSend {next : AfterSend} : Quiet (next.run io) := by
  cases next with
  | readResponse dest iterator next => exact quiet_touch.bind fun _ => quiet_readResponse
  | startTransfer c rqst => exact quiet_startTransfer
  | reuseConnection c host => exact quiet_reuseConnection
  | handleConnect c => exact quiet_handleConnect
  | closeSent it => exact quiet_touch.bind fun _ => quiet_closeSocket
  | close404 client => exact quiet_closeSocket

/-! ### Handlers -/

@[grind ←] theorem quiet_hungUp : Quiet (hungUp state io) := by
  unfold hungUp
  grind

@[grind ←] theorem quiet_logAndClose : Quiet (logAndClose it) := by
  unfold logAndClose close
  grind

@[grind ←] theorem quiet_closeFailed : Quiet (closeFailed it io) := by
  unfold closeFailed
  grind

theorem quiet_onReadable {receive : ProxyM Unit} (quiet : Quiet receive) : Quiet (onReadable r it state io receive) := by
  unfold onReadable
  grind

theorem quiet_onWritable {ready : ProxyM Bool} {transmit : ProxyM Unit} (asks : Quiet ready) (quiet : Quiet transmit) :
    Quiet (onWritable r it state io ready transmit) := by
  unfold onWritable
  grind

theorem quiet_receiveRequest {next : AfterRequest} : Quiet (receiveRequest r k it next io) := by
  unfold receiveRequest
  grind

theorem quiet_receiveResponse {next : AfterResponse} : Quiet (receiveResponse r k it next io) := by
  unfold receiveResponse
  grind

@[grind ←] theorem quiet_writeRef : Quiet (writeRef r ref io) := by
  unfold writeRef
  cases ref <;> grind

theorem quiet_transmitMessage {next : AfterSend} : Quiet (transmitMessage r ref it next io) := by
  unfold transmitMessage
  grind [Obs.tries]

@[grind ←] theorem quiet_saveTransferred : Quiet (saveTransferred rqst resp) := by
  unfold saveTransferred
  grind [Obs.tries]

theorem quiet_transferIn : Quiet (transferIn c rqst k io) := by
  unfold transferIn
  apply Leaves.bind leaves_get
  intro s
  apply Leaves.bind quiet_readMessage
  grind

theorem quiet_transferOut : Quiet (transferOut c k io) := by
  unfold transferOut
  grind

@[grind ←] theorem quiet_connectTransferIn : Quiet (connectTransferIn c r other k io) := by
  unfold connectTransferIn
  apply Leaves.bind quiet_getElem
  intro _
  apply Leaves.bind leaves_get
  intro s
  split
  · apply Leaves.bind quiet_logAndClose
    grind
  · apply Leaves.bind quiet_setRaw
    grind

@[grind ←] theorem quiet_connectTransferOut : Quiet (connectTransferOut c r other k io) := by
  unfold connectTransferOut
  apply Leaves.bind quiet_getElem
  intro _
  apply Leaves.bind leaves_get
  intro s
  split
  · apply Leaves.bind quiet_logAndClose
    grind
  · apply Leaves.bind quiet_setRaw
    grind

theorem quiet_onConnectTransfer {inMessage outMessage : MsgId} :
    Quiet (onConnectTransfer c r other inMessage outMessage state io) := by
  unfold onConnectTransfer
  grind

theorem quiet_onResolving : Quiet (onResolving id host state) := by
  unfold onResolving eraseFound
  grind

theorem quiet_onConnecting {socket : Fd} : Quiet (onConnecting c socket host state) := by
  unfold onConnecting
  grind

@[grind ←] theorem quiet_giveUp {query : Option Pending} : Quiet (giveUp c key query io) := by
  unfold giveUp eraseFound
  grind

@[grind ←] theorem quiet_derefClient {client : Option SocketId} : Quiet (derefClient client) := by
  unfold derefClient
  grind

theorem quiet_onListener : Quiet (onListener state io) := by
  unfold onListener
  apply leaves_whenever
  apply Leaves.bind leaves_get
  grind

theorem quiet_onTimer : Quiet (onTimer state io) := by
  unfold onTimer
  grind [sweepSockets, sweepConnections]

@[grind ←] theorem quiet_startConnection {ip : ResolvedIp} {destination : Fd} :
    Quiet (startConnection id destination ip io) := by
  unfold startConnection
  apply Leaves.bind quiet_getElem
  intro e
  apply Leaves.bind (quiet_of_trace fun _ => trace_setElem)
  intro _
  apply Leaves.bind leaves_get
  intro s
  apply Leaves.bind quiet_closeSocket
  intro _
  apply Leaves.bind leaves_get
  intro t
  dsimp only
  apply Leaves.bind
  · apply quiet_of_trace
    intro u
    rfl
  · grind [Obs.tries]

end Proxy

/-- The handlers that call `connect`. -/
def Handler.connects : Handler → Bool
  | .notifier => true
  | .serverConnect .. => true
  | _ => false

namespace Proxy

theorem quiet_run {h : Handler} {state : FdState} {io : Io} (other : h.connects = false) : Quiet (h.run state io) := by
  cases h with
  | listener => exact quiet_onListener
  | notifier => cases other
  | timer => exact quiet_onTimer
  | resolving sock host => exact quiet_onResolving
  | connecting conn socket host => exact quiet_onConnecting
  | serverConnect conn ip => cases other
  | readRequest source message iterator next => exact quiet_onReadable quiet_receiveRequest
  | readResponse source message iterator next => exact quiet_onReadable quiet_receiveResponse
  | send dest message iterator next => exact quiet_onWritable leaves_pure quiet_transmitMessage
  | transferServer conn rqst resp => exact quiet_onReadable quiet_transferIn
  | transferClient conn resp =>
    exact quiet_onWritable (leaves_get.bind fun _ => leaves_pure) quiet_transferOut
  | reused conn => exact leaves_whenever quiet_logAndClose
  | connectTransfer conn side inMessage outMessage => cases side <;> exact quiet_onConnectTransfer

end Proxy

end ProxyServer
