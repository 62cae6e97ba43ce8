import ProxyServer.Server.Staging
import ProxyServer.Server.Steps

/-!
# Every entry is at a stage

The loop reports events that an element is registered for, besides HUP and ERROR. In a run
of such events every client and every connection is at a stage, whatever is read, written
and resolved.
-/

namespace ProxyServer

open Wp

namespace Proxy

open Board

variable {b w : Board} {p q : Batch} {k k' : Watch} {it : EntryRef} {id n : SocketId} {c : ConnId} {h h' : Handler} {f f' : Fd}
  {io : Io} {state events : FdState} {r : ElemRef} {rqst : ClientRequest} {resp cached : ServerResponse} {m : MsgId}
  {Q : Unit → Board → Prop}

/-! ### The common parts of the handlers -/

theorem unseen_hungUp : Leaves board (hungUp state io) := by
  unfold hungUp
  split
  · split
    · exact leaves_pure
    · exact leaves_throw
  · exact leaves_pure

theorem via_closed {α : Type} {next : EpollElem → ProxyM α} {R : α → Board → Prop} (gone : w.elem r = none) :
    Shows (getElem r >>= next) R w :=
  Via.bind (via_getElem fun e here => by rw [gone] at here; cases here)

theorem shows_closeFailed (closes : Shows (logAndClose it) Q w) : Shows (closeFailed it io) Q w := by
  unfold closeFailed
  split
  · exact closes
  · exact Via.throw

theorem shows_onReadable {receive : ProxyM Unit} (closes : Shows (logAndClose it) (fun _ => b.Shut p it) w)
    (here : r.entry = it) (stays : b.Settled p (· = it) w)
    (receives : state.is .IN = true → Shows receive (fun _ => b.Settled p (· = it)) w) :
    Shows (onReadable r it state io receive) (fun _ => b.Settled p (· = it)) w := by
  refine Via.then_leaves unseen_getElem fun _ => Via.then_leaves unseen_setActive fun _ => ?_
  refine Via.then_leaves unseen_hungUp fun gone => ?_
  split
  · exact closes.mono fun _ _ shut => shut.settled
  · refine Via.bind (Via.whenever (fun _ => ?_) fun _ => Via.whenever (fun input => ?_) fun _ => stays)
    · refine shows_closeFailed (closes.mono fun _ w' shut => ?_)
      exact Via.whenever (fun _ => via_closed (shut.gone r here)) fun _ => shut.settled
    · exact Via.then_leaves unseen_getElem fun _ => receives input

theorem shows_onWritable {ready : ProxyM Bool} {transmit : ProxyM Unit}
    (closes : Shows (logAndClose it) (fun _ => b.Shut p it) w) (here : r.entry = it) (asks : Leaves board ready)
    (stays : b.Settled p (· = it) w)
    (transmits : state.is .OUT = true → Shows transmit (fun _ => b.Settled p (· = it)) w) :
    Shows (onWritable r it state io ready transmit) (fun _ => b.Settled p (· = it)) w := by
  refine Via.then_leaves unseen_getElem fun _ => Via.then_leaves unseen_setActive fun _ => ?_
  split
  · exact closes.mono fun _ _ shut => shut.settled
  · refine Via.bind (Via.whenever (fun _ => ?_) fun _ => ?_)
    · refine shows_closeFailed (closes.mono fun _ w' shut => Via.then_leaves asks fun _ => ?_)
      exact Via.whenever (fun _ => via_closed (shut.gone r here)) fun _ => shut.settled
    · refine Via.then_leaves asks fun _ => Via.whenever (fun both => ?_) fun _ => stays
      exact Via.then_leaves unseen_getElem fun _ => transmits (Bool.and_eq_true_iff.mp both).1

theorem shows_receiveRequest {next : AfterRequest} (closes : Shows (logAndClose it) (fun _ => b.Shut p it) w)
    (stays : b.Settled p (· = it) w)
    (done : ∀ k rqst, w.elem r = some k →
      Shows (next.run rqst io) (fun _ => b.Settled p (· = it)) (w.setElem r ⟨k.fd, .WAIT⟩)) :
    Shows (receiveRequest r m it next io) (fun _ => b.Settled p (· = it)) w := by
  refine Via.get fun s _ => Via.then_leaves unseen_readMessage fun message => ?_
  cases message with
  | none => exact closes.mono fun _ _ shut => shut.settled
  | some message =>
    refine Via.then_leaves (unseen_setRequest m) fun _ => Via.whenever (fun _ => ?_) fun _ => stays
    exact Via.bind (via_updateState _ fun k owner => done k _ owner)

theorem shows_receiveResponse {next : AfterResponse} (closes : Shows (logAndClose it) (fun _ => b.Shut p it) w)
    (stays : b.Settled p (· = it) w)
    (done : ∀ k resp, w.elem r = some k →
      Shows (next.run resp io) (fun _ => b.Settled p (· = it)) (w.setElem r ⟨k.fd, .WAIT⟩)) :
    Shows (receiveResponse r m it next io) (fun _ => b.Settled p (· = it)) w := by
  refine Via.get fun s _ => Via.then_leaves unseen_readMessage fun message => ?_
  cases message with
  | none => exact closes.mono fun _ _ shut => shut.settled
  | some message =>
    refine Via.then_leaves (unseen_setResponse m) fun _ => Via.whenever (fun _ => ?_) fun _ => stays
    exact Via.bind (via_updateState _ fun k owner => done k _ owner)

theorem shows_transmitMessage {ref : MessageRef} {next : AfterSend}
    (closes : Shows (logAndClose it) (fun _ => b.Shut p it) w) (stays : b.Settled p (· = it) w)
    (done : ∀ k, w.elem r = some k → Shows (next.run io) (fun _ => b.Settled p (· = it)) (w.setElem r ⟨k.fd, .WAIT⟩)) :
    Shows (transmitMessage r ref it next io) (fun _ => b.Settled p (· = it)) w := by
  refine Via.then_leaves unseen_writeRef fun written => ?_
  cases written with
  | none => exact closes.mono fun _ _ shut => shut.settled
  | some _ =>
    refine Via.whenever (fun _ => ?_) fun _ => stays
    refine Via.then_leaves (unseen_observe _) fun _ => ?_
    exact Via.bind (via_updateState _ fun k owner => done k owner)

/-! ### Clients -/

theorem is_input : state.is .IN = state.input := by
  simp [FdState.is, FdState.IN, FdState.WAIT]

theorem is_output : state.is .OUT = state.output := by
  simp [FdState.is, FdState.OUT, FdState.WAIT]

theorem shows_reading (at_ : b.Held id k w) (stays : b.Settled p (· = .sock id) w) :
    Shows (Handler.run (.readRequest (.sock id) m (.sock id) (.firstRequestRead id)) state io)
      (fun _ => b.Settled p (· = .sock id)) w := by
  refine shows_onReadable at_.shows_logAndClose rfl stays fun _ => ?_
  refine shows_receiveRequest at_.shows_logAndClose stays fun x rqst owner => ?_
  obtain rfl : k = x := Option.some.inj (at_.socket.symm.trans owner)
  refine via_connectToServer _ _ fun x owner => ?_
  obtain rfl : (⟨k.fd, .WAIT⟩ : Watch) = x := Option.some.inj (at_.setElem.socket.symm.trans owner)
  exact at_.setElem.seat.settled (if_pos rfl) .resolving

theorem shows_resolving {host : Bytes} (at_ : b.Held id k w) (stays : b.Settled p (· = .sock id) w) :
    Shows (onResolving id host state) (fun _ => b.Settled p (· = .sock id)) w := by
  refine Via.whenever (fun _ => Via.then_leaves unseen_touch fun _ => ?_) fun _ => stays
  refine Via.then_leaves unseen_getElem fun e => Via.get fun s _ => Via.then_leaves unseen_eraseFound fun _ => ?_
  exact at_.shows_close.mono fun _ _ shut => shut.settled

theorem shows_sending {ref : MessageRef} {next : AfterSend} (at_ : b.Held id k w)
    (stays : b.Settled p (· = .sock id) w) (ends : next = .closeSent id ∨ next = .close404 id) :
    Shows (Handler.run (.send (.sock id) ref (.sock id) next) state io) (fun _ => b.Settled p (· = .sock id)) w := by
  refine shows_onWritable at_.shows_logAndClose rfl leaves_pure stays fun _ => ?_
  refine shows_transmitMessage at_.shows_logAndClose stays fun x owner => ?_
  obtain rfl : k = x := Option.some.inj (at_.socket.symm.trans owner)
  have closes : Shows (closeSocket id) (fun _ => b.Settled p (· = .sock id)) (w.setElem (.sock id) ⟨k.fd, .WAIT⟩) :=
    at_.setElem.shows_close.mono fun _ _ shut => shut.settled
  rcases ends with rfl | rfl
  · exact Via.then_leaves unseen_touch fun _ => closes
  · exact closes

/-! ### Connections -/

theorem shows_connecting {socket : Fd} {host : Bytes} (at_ : b.Open c k k' w) (stays : b.Settled p (· = .conn c) w) :
    Shows (onConnecting c socket host state) (fun _ => b.Settled p (· = .conn c)) w := by
  refine Via.whenever (fun _ => Via.then_leaves unseen_touch fun _ => ?_) fun _ => stays
  exact Via.then_leaves unseen_erasePending fun _ => at_.shows_close.mono fun _ _ shut => shut.settled

/-- Without IN a reader only closes the connection. -/
theorem shows_unread {receive : ProxyM Unit} (here : r.entry = .conn c) (at_ : b.Open c k k' w)
    (stays : b.Settled p (· = .conn c) w) (unread : state.input = false) :
    Shows (onReadable r (.conn c) state io receive) (fun _ => b.Settled p (· = .conn c)) w := by
  refine shows_onReadable at_.shows_logAndClose here stays fun input => ?_
  rw [is_input, unread] at input
  cases input

/-- The handler of a client with no interest closes the connection, or does nothing. -/
theorem shows_leftClient (at_ : b.Open c k k' w) (stays : b.Settled p (· = .conn c) w) (left : h.LeftClient q c f)
    (dispatched : q f = some state) : Shows (h.run state io) (fun _ => b.Settled p (· = .conn c)) w := by
  cases left with
  | connecting socket host => exact shows_connecting at_ stays
  | read m host unread =>
    refine shows_unread rfl at_ stays ?_
    rwa [Batch.input, dispatched, Option.any_some] at unread

theorem shows_leftServer (at_ : b.Open c k k' w) (stays : b.Settled p (· = .conn c) w) (left : h.LeftServer c)
    (unread : state.input = false) : Shows (h.run state io) (fun _ => b.Settled p (· = .conn c)) w := by
  cases left with
  | transferred rqst m => exact shows_unread rfl at_ stays unread
  | read m next => exact shows_unread rfl at_ stays unread

theorem shows_reused (at_ : b.Open c k k' w) (stays : b.Settled p (· = .conn c) w) :
    Shows (Handler.run (.reused c) state io) (fun _ => b.Settled p (· = .conn c)) w :=
  Via.whenever (fun _ => at_.shows_logAndClose.mono fun _ _ shut => shut.settled) fun _ => stays

theorem shows_asked {next : AfterSend} (at_ : b.Open c ⟨f, .WAIT⟩ k' w) (stays : b.Settled p (· = .conn c) w)
    (client : w.handlers f = some h) (left : h.LeftClient p c f) (unwritten : p.output f = false) (asks : next.Asks c) :
    Shows (Handler.run (.send (.server c) (.request m) (.conn c) next) state io) (fun _ => b.Settled p (· = .conn c)) w := by
  refine shows_onWritable at_.shows_logAndClose rfl leaves_pure stays fun _ => ?_
  refine shows_transmitMessage at_.shows_logAndClose stays fun x owner => ?_
  obtain rfl : k' = x := Option.some.inj (at_.server.symm.trans owner)
  cases asks with
  | transfer rqst => exact shows_startTransfer at_.setServer unwritten
  | validate rqst cached =>
    refine Via.then_leaves unseen_touch fun _ => via_readResponse fun x m owner => ?_
    obtain rfl : (⟨k'.fd, .WAIT⟩ : Watch) = x := Option.some.inj (at_.setServer.server.symm.trans owner)
    exact at_.setServer.seatServer.settled ((if_neg at_.distinct).trans client) (if_pos rfl) (.validating left)

theorem shows_validating (exclusive : b.Exclusive) (at_ : b.Open c ⟨f, .WAIT⟩ k' w) (stays : b.Settled p (· = .conn c) w)
    (present : k'.fd ≠ 0) (client : w.handlers f = some h) (left : h.LeftClient p c f) (spent : p k'.fd = none)
    (server : w.handlers k'.fd = some (.readResponse (.server c) m (.conn c) (.handleValidationResponse c rqst cached))) :
    Shows (Handler.run (.readResponse (.server c) m (.conn c) (.handleValidationResponse c rqst cached)) state io)
      (fun _ => b.Settled p (· = .conn c)) w := by
  refine shows_onReadable at_.shows_logAndClose rfl stays fun _ => ?_
  refine shows_receiveResponse at_.shows_logAndClose stays fun x resp owner => ?_
  obtain rfl : k' = x := Option.some.inj (at_.server.symm.trans owner)
  exact shows_handleValidationResponse exclusive at_.setServer present client left server (.read m _) spent

theorem shows_transferServer (exclusive : b.Exclusive) (at_ : b.Open c k ⟨f, reads⟩ w)
    (stays : b.Settled p (· = .conn c) w) (present : f ≠ 0) (client : w.handlers k.fd = some (.transferClient c m))
    (server : w.handlers f = some (.transferServer c rqst m)) (spent : p f = none) :
    Shows (Handler.run (.transferServer c rqst m) state io) (fun _ => b.Settled p (· = .conn c)) w := by
  refine shows_onReadable at_.shows_logAndClose rfl stays fun _ => ?_
  refine Via.get fun s _ => Via.then_leaves unseen_readMessage fun message => ?_
  cases message with
  | none => exact at_.shows_logAndClose.mono fun _ _ shut => shut.settled
  | some message =>
    refine Via.then_leaves (unseen_setResponse m) fun _ => Via.bind ?_
    refine (Via.whenever (Q := fun _ w' => ∃ k, b.Open c k ⟨f, reads⟩ w' ∧ w'.handlers = w.handlers ∧
      b.Settled p (· = .conn c) w') (fun _ => ?_) fun _ => ⟨k, at_, rfl, stays⟩).mono ?_
    · refine via_updateState _ fun x owner => ?_
      obtain rfl : k = x := Option.some.inj (at_.client.symm.trans owner)
      exact ⟨_, at_.setClient, rfl, at_.setClient.settled client server (.transferring _ (Or.inr rfl))⟩
    · rintro _ w' ⟨k, at_, same, stays⟩
      refine Via.whenever (fun _ => Via.then_leaves unseen_saveTransferred fun _ => ?_) fun _ => stays
      refine shows_sendServerResponse exclusive at_ present ?_ (.transferred rqst m) (Batch.input_of_spent spent)
      rw [same]
      exact server

theorem shows_transferClient (at_ : b.Open c ⟨f, events⟩ ⟨f', reads⟩ w) (stays : b.Settled p (· = .conn c) w)
    (client : w.handlers f = some (.transferClient c m)) (server : w.handlers f' = some (.transferServer c rqst m))
    (asked : state.output = true → events = writes) (spent : p f = none) :
    Shows (Handler.run (.transferClient c m) state io) (fun _ => b.Settled p (· = .conn c)) w := by
  refine shows_onWritable at_.shows_logAndClose rfl (leaves_get.bind fun _ => leaves_pure) stays fun output => ?_
  refine Via.get fun s _ => Via.then_leaves unseen_writeMessage fun message => ?_
  cases message with
  | none => exact at_.shows_logAndClose.mono fun _ _ shut => shut.settled
  | some message =>
    refine Via.then_leaves (unseen_setResponse m) fun _ => Via.whenever (fun _ => ?_) fun _ => stays
    refine Via.bind (via_getElem fun e here => via_updateState _ fun x owner => ?_)
    obtain rfl : (⟨f, events⟩ : Watch) = x := Option.some.inj (at_.client.symm.trans owner)
    have same : events = e.events := congrArg Watch.events (Option.some.inj (at_.client.symm.trans here))
    refine at_.setClient.settled client server (.transferring _ (Or.inl ⟨?_, Batch.output_of_spent spent⟩))
    rw [← same, asked (is_output ▸ output)]
    rfl

theorem shows_answering {next : AfterSend} (at_ : b.Open c k k' w) (stays : b.Settled p (· = .conn c) w)
    (answers : next = .handleConnect c ∨ ∃ host, next = .reuseConnection c host) :
    Shows (Handler.run (.send (.client c) (.response m) (.conn c) next) state io) (fun _ => b.Settled p (· = .conn c)) w := by
  refine shows_onWritable at_.shows_logAndClose rfl leaves_pure stays fun _ => ?_
  refine shows_transmitMessage at_.shows_logAndClose stays fun x owner => ?_
  obtain rfl : k = x := Option.some.inj (at_.client.symm.trans owner)
  rcases answers with rfl | ⟨host, rfl⟩
  · exact shows_handleConnect at_.setClient
  · exact shows_reuseConnection at_.setClient host

theorem shows_keptAlive {host : Bytes} (exclusive : b.Exclusive) (at_ : b.Open c k ⟨f', .RDHUP⟩ w)
    (stays : b.Settled p (· = .conn c) w) (present : f' ≠ 0) (spent : p k.fd = none)
    (client : w.handlers k.fd = some (.readRequest (.client c) m (.conn c) (.reuse c host)))
    (server : w.handlers f' = some (.reused c)) :
    Shows (Handler.run (.readRequest (.client c) m (.conn c) (.reuse c host)) state io)
      (fun _ => b.Settled p (· = .conn c)) w := by
  refine shows_onReadable at_.shows_logAndClose rfl stays fun _ => ?_
  refine shows_receiveRequest at_.shows_logAndClose stays fun x rqst owner => ?_
  obtain rfl : k = x := Option.some.inj (at_.client.symm.trans owner)
  refine Via.then_leaves unseen_touch fun _ => ?_
  split
  · refine shows_handleClientRequest at_.setClient client (.read m host (Batch.input_of_spent spent)) (fun _ => ?_) server
      (.reused f')
    exact Batch.output_of_spent spent
  · exact shows_reconnect exclusive at_.setClient present _ _

/-! ### The server of a connection that is made -/

/-- The client is sent a 404 and the connection is closed. -/
theorem shows_giveUp {key : Fd × Bytes} {query : Option Pending} (exclusive : b.Exclusive) (at_ : b.Open c k k' w)
    (present : k.fd ≠ 0) (present' : k'.fd ≠ 0) : Shows (giveUp c key query io) (fun _ => b.Settled p (· = .conn c)) w := by
  refine Via.then_leaves unseen_touch fun _ => Via.then_leaves unseen_eraseFound fun _ => Via.bind ?_
  refine shows_escapeClient exclusive at_ present' fun n w' landed client server _ => Via.bind ?_
  refine via_sendResponse fun x m owner => ?_
  obtain rfl : k = x := Option.some.inj (landed.socket.symm.trans owner)
  refine via_closeConnection fun x y client' server' => ?_
  obtain rfl : (⟨0, .WAIT⟩ : Watch) = x := Option.some.inj (client.symm.trans (by simpa using client'))
  obtain rfl : k' = y := Option.some.inj (server.symm.trans (by simpa using server'))
  refine (landed.seat.erase client' server').settled (by simp) ?_ (.refusing (m := m))
  rw [handlers_eraseConnection present at_.distinct]
  exact if_pos rfl

theorem shows_serverConnect {ip : ResolvedIp} (exclusive : b.Exclusive) (at_ : b.Open c k k' w)
    (stays : b.Settled p (· = .conn c) w) (present : k.fd ≠ 0) (present' : k'.fd ≠ 0) (spent : p k'.fd = none)
    (established : state.output = true → ∃ h, w.handlers k.fd = some h ∧ h.LeftClient p c k.fd)
    (server : w.handlers k'.fd = some (.serverConnect c ip)) (copy : ResolvedIp) :
    Shows (onServerConnect c copy state io) (fun _ => b.Settled p (· = .conn c)) w := by
  have givesUp : ∀ key query, Shows (giveUp c key query io) (fun _ => b.Settled p (· = .conn c)) w := fun key query =>
    shows_giveUp exclusive at_ present present'
  refine Via.then_leaves unseen_getElem fun e => Via.then_leaves unseen_setActive fun _ => Via.get fun s _ => ?_
  split
  · exact givesUp _ _
  · split
    · refine Via.then_leaves unseen_touch fun _ => ?_
      cases io.soError with
      | none => exact Via.throw
      | some code =>
        dsimp only
        split
        · split
          · exact givesUp _ _
          · refine Via.then_leaves (unseen_observe _) fun _ => ?_
            split
            · exact givesUp _ _
            · exact Via.pure stays
        · exact givesUp _ _
    · refine Via.whenever (fun output => Via.then_leaves unseen_touch fun _ => ?_) fun _ => stays
      obtain ⟨h, client, left⟩ := established (is_output ▸ output)
      cases s.onResolve (copy.socket, copy.host) with
      | none => exact Via.throw
      | some pending =>
        refine Via.then_leaves unseen_erasePending fun _ => Via.bind (via_updateState _ fun x owner => ?_)
        obtain rfl : k = x := Option.some.inj (at_.client.symm.trans owner)
        refine Via.bind (via_updateState _ fun x owner => ?_)
        obtain rfl : k' = x := Option.some.inj (at_.setClient.server.symm.trans owner)
        refine Via.then_leaves (unseen_changeTimeout _) fun _ => Via.then_leaves unseen_getElem fun e => ?_
        refine Via.then_leaves (unseen_observe _) fun _ => ?_
        refine shows_afterConnect pending.next at_.setClient.setServer client left (fun waiting => absurd spent waiting) server ?_
        exact .established k'.fd ip (Batch.output_of_spent spent)

end Proxy

end ProxyServer
