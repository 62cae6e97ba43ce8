import ProxyServer.Server.Tending

/-!
# Bystanders

A handler runs for the entry that it was installed for; every other entry stands by. What each
handler leaves alone.
-/

namespace ProxyServer

open Wp

namespace Proxy

variable {p : Reserve} {s t : Proxy} {L : Type} {m : BufferedMessage L} {rqst : ClientRequest} {resp : ServerResponse}
  {ref : MessageRef} {n : MsgId} {it : EntryRef} {r other : ElemRef} {id : SocketId} {c : ConnId} {io : Io}
  {state : FdState} {key : Fd × Bytes} {host : Bytes} {f : Fd}

/-! ### Handlers of clients and servers -/

theorem tends_closeFailed (guest : p.Guest it) : TendsTo p (closeFailed it io) := by
  unfold closeFailed
  split
  · exact tends_logAndClose _ guest
  · exact tends_throw nofun

theorem tends_hungUp : Tends p (hungUp state io) fun _ => True := by
  unfold hungUp
  split
  · split
    · exact tends_pure trivial
    · exact tends_throw nofun
  · exact tends_pure trivial

theorem tends_onReadable {receive : ProxyM Unit} (guest : p.Guest r.entry) (receives : TendsTo p receive) :
    TendsTo p (onReadable r r.entry state io receive) := by
  unfold onReadable
  refine tends_bind (tends_getElem guest) fun _ _ => tends_bind (tends_setActive _ guest) fun _ _ => ?_
  refine tends_bind tends_hungUp fun gone _ => ?_
  split
  · exact tends_logAndClose _ guest
  · refine tends_bind (tends_whenever fun _ => tends_closeFailed guest) fun _ _ => tends_whenever fun _ => ?_
    exact tends_bind (tends_getElem guest) fun _ _ => receives

theorem tends_onWritable {ready : ProxyM Bool} {transmit : ProxyM Unit} (guest : p.Guest r.entry)
    (asks : Tends p ready fun _ => True) (transmits : TendsTo p transmit) :
    TendsTo p (onWritable r r.entry state io ready transmit) := by
  unfold onWritable
  refine tends_bind (tends_getElem guest) fun _ _ => tends_bind (tends_setActive _ guest) fun _ _ => ?_
  split
  · exact tends_logAndClose _ guest
  · refine tends_bind (tends_whenever fun _ => tends_closeFailed guest) fun _ _ => tends_bind asks fun _ _ => ?_
    exact tends_whenever fun _ => tends_bind (tends_getElem guest) fun _ _ => transmits

theorem tends_receiveRequest {next : AfterRequest} (guest : p.Guest r.entry) (mine : ¬p.Captures n)
    (follows : next.source = r) :
    TendsTo p (receiveRequest r n r.entry next io) := by
  unfold receiveRequest
  refine tends_bind tends_get fun s _ => tends_bind (tends_readMessage guest) fun m _ => ?_
  cases m with
  | none => exact tends_logAndClose _ guest
  | some m =>
    refine tends_bind (tends_setRequest mine) fun _ _ => tends_whenever fun _ => ?_
    exact tends_bind (tends_updateState guest) fun _ _ => tends_afterRequest (follows ▸ guest)

theorem tends_receiveResponse {next : AfterResponse} (guest : p.Guest r.entry) (mine : ¬p.Captures n)
    (follows : next.source = r) :
    TendsTo p (receiveResponse r n r.entry next io) := by
  unfold receiveResponse
  refine tends_bind tends_get fun s _ => tends_bind (tends_readMessage guest) fun m _ => ?_
  cases m with
  | none => exact tends_logAndClose _ guest
  | some m =>
    refine tends_bind (tends_setResponse mine) fun _ _ => tends_whenever fun _ => ?_
    exact tends_bind (tends_updateState guest) fun _ _ => tends_afterResponse (follows ▸ guest)

theorem tends_writeRef (guest : p.Guest r.entry) (mine : ¬p.Captures ref.id) :
    Tends p (writeRef r ref io) fun _ => True := by
  cases ref with
  | request n =>
    refine tends_bind tends_get fun s _ => tends_bind (tends_writeMessage guest) fun m _ => ?_
    cases m with
    | none => exact tends_pure trivial
    | some m => exact tends_bind (tends_setRequest mine) fun _ _ => tends_pure trivial
  | response n =>
    refine tends_bind tends_get fun s _ => tends_bind (tends_writeMessage guest) fun m _ => ?_
    cases m with
    | none => exact tends_pure trivial
    | some m => exact tends_bind (tends_setResponse mine) fun _ _ => tends_pure trivial

theorem tends_transmitMessage {next : AfterSend} (guest : p.Guest r.entry) (mine : ¬p.Captures ref.id)
    (follows : next.dest = r) :
    TendsTo p (transmitMessage r ref r.entry next io) := by
  unfold transmitMessage
  refine tends_bind (tends_writeRef guest mine) fun written _ => ?_
  cases written with
  | none => exact tends_logAndClose _ guest
  | some done =>
    refine tends_whenever fun _ => tends_bind (tends_observe (spares_delivered guest)) fun _ _ => ?_
    refine tends_bind (tends_updateState guest) fun _ _ => ?_
    exact tends_afterSend (follows ▸ guest)

theorem tends_saveTransferred : TendsTo p (saveTransferred rqst resp) := by
  unfold saveTransferred
  refine tends_bind tends_get fun s _ => ?_
  split
  · exact tends_bind (tends_note (fun _ _ => rfl) fun _ => rfl) fun _ _ => tends_modify fun _ kept => kept
  · exact tends_throw nofun

theorem tends_transferIn (guest : p.Guest (.conn c)) (mine : ¬p.Captures n) : TendsTo p (transferIn c rqst n io) := by
  unfold transferIn
  refine tends_bind tends_get fun s _ => tends_bind (tends_readMessage (r := .server c) guest) fun m _ => ?_
  cases m with
  | none => exact tends_logAndClose (.conn c) guest
  | some m =>
    refine tends_bind (tends_setResponse mine) fun _ _ => ?_
    refine tends_bind (tends_whenever fun _ => tends_updateState (r := .client c) guest) fun _ _ => ?_
    exact tends_whenever fun _ => tends_bind tends_saveTransferred fun _ _ => tends_sendServerResponse guest

theorem tends_transferOut (guest : p.Guest (.conn c)) (mine : ¬p.Captures n) : TendsTo p (transferOut c n io) := by
  unfold transferOut
  refine tends_bind tends_get fun s _ => tends_bind (tends_writeMessage (r := .client c) guest) fun m _ => ?_
  cases m with
  | none => exact tends_logAndClose (.conn c) guest
  | some m =>
    refine tends_bind (tends_setResponse mine) fun _ _ => tends_whenever fun _ => ?_
    exact tends_bind (tends_getElem (r := .client c) guest) fun _ _ => tends_updateState (r := .client c) guest

theorem tends_watch (guest : p.Guest r.entry) (g : EpollElem → FdState) :
    TendsTo p (do let e ← getElem r; updateState r (g e)) :=
  tends_bind (tends_getElem guest) fun _ _ => tends_updateState guest

theorem tends_onConnectTransfer {inMessage outMessage : MsgId} (guest : p.Guest r.entry) (guest' : p.Guest other.entry)
    (whole : p.Guest (.conn c)) (mine : ¬p.Captures inMessage) (mine' : ¬p.Captures outMessage) :
    TendsTo p (onConnectTransfer c r other inMessage outMessage state io) := by
  have closes : TendsTo p (logAndClose (.conn c)) := tends_logAndClose _ whole
  unfold onConnectTransfer
  refine tends_bind (tends_setActive (.conn c) whole) fun _ _ => ?_
  split
  · exact closes
  refine tends_bind tends_get fun s _ => tends_bind (tends_whenever fun _ => ?_) fun _ _ =>
    tends_bind tends_get fun s _ => tends_whenever fun _ => ?_
  · unfold connectTransferIn
    refine tends_bind (tends_getElem guest) fun _ _ => tends_bind tends_get fun s _ => ?_
    have rest : ∀ _ : Unit, True → TendsTo p (do
        let m := (← get).raws inMessage
        whenever (!m.canRead) do
          let e ← getElem r
          updateState r (e.events.xor .IN)
        whenever m.canWrite do
          let e ← getElem other
          updateState other (e.events.union .OUT)) := fun _ _ => by
      refine tends_bind tends_get fun s _ => ?_
      exact tends_bind (tends_whenever fun _ => tends_watch guest _) fun _ _ => tends_whenever fun _ => tends_watch guest' _
    cases io.read with
    | none => exact tends_bind closes rest
    | some bytes => exact tends_bind (tends_setRaw mine) rest
  · unfold connectTransferOut
    refine tends_bind (tends_getElem guest) fun _ _ => tends_bind tends_get fun s _ => ?_
    have rest : ∀ _ : Unit, True → TendsTo p (do
        let m := (← get).raws outMessage
        whenever (!m.canWrite) do
          let e ← getElem r
          updateState r (e.events.xor .OUT)
        whenever m.canRead do
          let e ← getElem other
          updateState other (e.events.union .IN)) := fun _ _ => by
      refine tends_bind tends_get fun s _ => ?_
      exact tends_bind (tends_whenever fun _ => tends_watch guest _) fun _ _ => tends_whenever fun _ => tends_watch guest' _
    cases io.write with
    | none => exact tends_bind closes rest
    | some accepted => exact tends_bind (tends_setRaw mine') rest

theorem tends_eraseFound {query : Option Pending} (apart : ¬p.Has key.1) : TendsTo p (eraseFound key query) := by
  cases query with
  | some q => exact tends_erasePending apart
  | none => exact tends_throw nofun

theorem tends_onResolving (guest : p.Guest (.sock id)) : TendsTo p (onResolving id host state) := by
  refine tends_whenever fun _ => tends_bind tends_touch fun _ _ => ?_
  refine tends_bind (tends_getElem (r := .sock id) guest) fun e foreign => tends_bind tends_get fun s _ => ?_
  exact tends_bind (tends_eraseFound foreign.apart) fun _ _ => tends_closeSocket guest

theorem tends_onConnecting (guest : p.Guest (.conn c)) (apart : ¬p.Has f) : TendsTo p (onConnecting c f host state) := by
  refine tends_whenever fun _ => tends_bind tends_touch fun _ _ => ?_
  exact tends_bind (tends_erasePending apart) fun _ _ => tends_closeConnection guest

theorem tends_giveUp {query : Option Pending} (guest : p.Guest (.conn c)) (apart : ¬p.Has key.1) :
    TendsTo p (giveUp c key query io) := by
  refine tends_bind tends_touch fun _ _ => tends_bind (tends_eraseFound apart) fun _ _ => ?_
  refine tends_bind (tends_escapeClient guest) fun client guest' => ?_
  exact tends_bind (tends_send404 guest') fun _ _ => tends_closeConnection guest

theorem tends_onServerConnect {ip : ResolvedIp} (guest : p.Guest (.conn c)) (apart : ¬p.Has ip.socket) :
    TendsTo p (onServerConnect c ip state io) := by
  have gives : ∀ {query}, TendsTo p (giveUp c (ip.socket, ip.host) query io) := tends_giveUp guest apart
  unfold onServerConnect
  refine tends_bind (tends_getElem (r := .server c) guest) fun server _ => ?_
  refine tends_bind (tends_setActive (.conn c) guest) fun _ _ => tends_bind tends_get fun s _ => ?_
  dsimp only
  split
  · exact gives
  split
  · refine tends_bind tends_touch fun _ _ => ?_
    split
    · exact tends_throw nofun
    · split
      · split
        · exact gives
        · refine tends_bind (tends_note (fun _ _ => rfl) fun _ => rfl) fun _ _ => ?_
          split
          · exact gives
          · exact tends_pure trivial
      · exact gives
  · refine tends_whenever fun _ => tends_bind tends_touch fun _ _ => ?_
    split
    · exact tends_throw nofun
    · refine tends_bind (tends_erasePending apart) fun _ _ => ?_
      refine tends_bind (tends_updateState (r := .client c) guest) fun _ _ => ?_
      refine tends_bind (tends_updateState (r := .server c) guest) fun _ _ => ?_
      refine tends_bind (tends_changeTimeout guest (Nat.le_refl _)) fun _ _ => ?_
      refine tends_bind (tends_getElem (r := .client c) guest) fun _ _ => ?_
      exact tends_bind (tends_note (fun _ _ => rfl) fun _ => rfl) fun _ _ => tends_afterConnect guest

/-! ### The listener and the notifier -/

theorem foreign_new (kept : Kept p s.roster) (apart : ¬p.Has f) {timeout : Nat} (short : timeout ≤ LONG_SOCKET_TIMEOUT) :
    p.Foreign (.new f state timeout s.ticks) := ⟨apart, short, expires_of_ticks kept short⟩

theorem tends_onListener : TendsTo p (onListener state io) := by
  refine tends_whenever fun _ s kept => ?_
  rw [wp_bind, wp_get, wp_bind]
  refine kept_service kept (service_listener kept) ?_
  rw [wp_bind]
  refine kept_newDescriptor kept (fun fd _ apart => ?_) ⟨kept, trivial⟩
  refine tends_bind tends_get (fun t kept' => ?_) s kept
  refine tends_bind (tends_insertSocket (foreign_new kept' apart (by decide))) fun client guest => ?_
  exact tends_readRequest (r := .sock client) guest

theorem tends_startConnection {ip : ResolvedIp} (guest : p.Guest (.sock id)) (apart : ¬p.Has f) :
    TendsTo p (startConnection id f ip io) := by
  unfold startConnection
  refine tends_bind (tends_getElem (r := .sock id) guest) fun e foreign => ?_
  refine tends_bind (tends_modify fun s kept => kept_setElem kept (r := .sock id) guest (foreign_null kept)) fun _ _ => ?_
  refine tends_bind tends_get fun s kept => tends_bind (tends_closeSocket guest) fun _ _ => tends_bind tends_get fun t kept' => ?_
  have short : SHORT_SOCKET_TIMEOUT ≤ LONG_SOCKET_TIMEOUT := by decide
  have link : p.ForeignLink ⟨e, .new f .OUT 0 s.ticks, SHORT_SOCKET_TIMEOUT, s.ticks + SHORT_SOCKET_TIMEOUT⟩ :=
    ⟨foreign, foreign_new kept apart (Nat.zero_le _), short, expires_of_ticks kept short⟩
  refine tends_bind (tends_modify fun u kept => kept.insertConnection link) fun _ _ => ?_
  have guest : p.Guest (.conn t.connections.next) := kept'.guest_connection
  refine tends_bind (tends_note (fun _ _ => rfl) fun _ => rfl) fun _ _ => ?_
  refine tends_bind (tends_update (fun _ _ held => held) (r := .client t.connections.next) guest) fun _ _ => ?_
  exact tends_updateHandler (fun _ _ held => held) (r := .server t.connections.next) guest

theorem kept_getIp {Q : ResolvedIp → Proxy → Prop} (h : ∀ socket host, s.resolving[io.resolved]? = some (socket, host) →
    Q ⟨io.ips, io.port, socket, host⟩ { s with resolving := s.resolving.eraseIdx io.resolved }) :
    wp p.Allows (getIp io) Q s := by
  simp only [getIp, wp_bind, wp_get]
  cases queued : s.resolving[io.resolved]? with
  | none => exact p.allows_disabled
  | some key => exact h key.1 key.2 queued

/-- The entry with another key is none that is set aside. -/
theorem guest_of_key (kept : Kept p s.roster) {entry : SocketEntry} (live : s.sockets.get id = some entry)
    (apart : ¬p.Has entry.key) : p.Guest (.sock id) :=
  fun aside => apart (kept.keyed id entry aside ((kept.socket id aside).symm.trans live))

/-- The result is for a client that is not set aside. -/
theorem tends_onNotifier (kept : Kept p s.roster) (answers : ∀ key, s.resolving[io.resolved]? = some key →
    (p.base.onResolve key).isSome = true → ¬p.Has key.1) :
    wp p.Allows (onNotifier state io) (fun _ t => Kept p t.roster ∧ True) s := by
  rw [onNotifier, wp_whenever]
  refine ⟨fun _ => ?_, fun _ => ⟨kept, trivial⟩⟩
  rw [wp_bind, wp_get, wp_bind]
  refine kept_service kept (service_notifier kept) ?_
  rw [wp_bind]
  refine kept_newDescriptor kept (fun fd _ fresh => ?_) nofun
  rw [wp_bind]
  refine kept_getIp fun socket host queued => ?_
  refine (?_ : TendsTo p _) { s with resolving := s.resolving.eraseIdx io.resolved } kept
  refine tends_bind tends_get fun t kept' => tends_bind tends_get fun u kept'' => ?_
  dsimp only
  split
  · exact tends_pure trivial
  · rename_i q found
    have apart : ¬p.Has socket := fun reserved => by
      have known : u.onResolve (socket, host) = p.base.onResolve (socket, host) := kept''.pending (socket, host) reserved
      exact answers _ queued (by rw [← known, found]; rfl) reserved
    have derefs : Tends p (derefClient (t.sockets.findId (·.key = socket))) (fun id => p.Guest (.sock id)) := by
      cases here : t.sockets.findId (·.key = socket) with
      | none => exact tends_throw nofun
      | some id =>
        obtain ⟨entry, live, same⟩ := Store.findId_some here
        refine tends_pure (guest_of_key kept' live ?_)
        rwa [of_decide_eq_true same]
    refine tends_bind derefs fun client guest => ?_
    split
    · exact tends_bind (tends_erasePending apart) fun _ _ => tends_send404 guest
    · refine tends_bind (tends_note (fun _ _ => rfl) fun _ => rfl) fun _ _ => ?_
      split
      · exact tends_bind (tends_send404 guest) fun _ _ => tends_erasePending apart
      · exact tends_startConnection guest fresh

end Proxy

end ProxyServer
