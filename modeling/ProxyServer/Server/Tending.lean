import ProxyServer.Server.Roster

/-!
# What is done for one entry

What a handler or a continuation does for a client or a connection leaves every other entry
alone. Messages are made for the entry whose handlers get to hold them.
-/

namespace ProxyServer

open Wp

namespace Proxy

def roster (s : Proxy) : Roster :=
  ⟨s.sockets, s.connections, s.handlers, s.onResolve, s.timer, s.notifier, s.listener, s.ticks, s.requests, s.responses,
    s.raws, s.nextMessage, s.trace⟩

/-- `x` leaves alone what is set aside, and `P` holds of its result. -/
def Tends {α : Type} (p : Reserve) (x : ProxyM α) (P : α → Prop) : Prop :=
  ∀ s : Proxy, Kept p s.roster → wp p.Allows x (fun a t => Kept p t.roster ∧ P a) s

/-- A program that is run for what it does. -/
abbrev TendsTo (p : Reserve) (x : ProxyM Unit) : Prop := Tends p x fun _ => True

variable {α β : Type} {p : Reserve} {x : ProxyM α} {k : α → ProxyM β} {P : α → Prop} {Q : β → Prop} {s t : Proxy}

theorem tends_pure {a : α} (holds : P a) : Tends p (pure a) P := fun _ kept => ⟨kept, holds⟩

theorem tends_throw {e : Fault} (other : e ≠ .service) : Tends p (throw e : ProxyM α) P :=
  fun _ _ same => absurd same other

theorem tends_get : Tends p get (fun s => Kept p s.roster) := fun _ kept => ⟨kept, kept⟩

theorem tends_modify {g : Proxy → Proxy} (keeps : ∀ s, Kept p s.roster → Kept p (g s).roster) : TendsTo p (modify g) :=
  fun s kept => ⟨keeps s kept, trivial⟩

theorem tends_bind (first : Tends p x P) (rest : ∀ a, P a → Tends p (k a) Q) : Tends p (x >>= k) Q := by
  intro s kept
  rw [wp_bind]
  exact wp_mono (fun a t both => rest a both.2 t both.1) (first s kept)

theorem tends_whenever {c : Bool} {x : ProxyM Unit} (tends : c = true → TendsTo p x) : TendsTo p (whenever c x) := by
  cases c with
  | true => exact tends rfl
  | false => exact tends_pure trivial

variable {L : Type} {m : BufferedMessage L} {rqst : ClientRequest} {resp cached : ServerResponse} {ref : MessageRef}
  {n : MsgId} {e : EpollElem} {it : EntryRef} {r other : ElemRef} {id : SocketId} {c : ConnId} {io : Io}
  {state : FdState} {key : Fd × Bytes} {host : Bytes} {timeout : Nat} {h : Handler} {f : Fd}

/-! ### The queue -/

theorem kept_elem (kept : Kept p s.roster) (guest : p.Guest r.entry) (here : s.elem r = some e) : p.Foreign e := by
  cases r with
  | sock id =>
    obtain ⟨entry, live, rfl⟩ := Option.map_eq_some_iff.mp here
    exact (kept.sockets id entry live guest).2
  | client c =>
    obtain ⟨conn, live, rfl⟩ := Option.map_eq_some_iff.mp here
    exact (kept.connections c conn live guest).client
  | server c =>
    obtain ⟨conn, live, rfl⟩ := Option.map_eq_some_iff.mp here
    exact (kept.connections c conn live guest).server

theorem kept_setElem (kept : Kept p s.roster) (guest : p.Guest r.entry) (foreign : p.Foreign e) :
    Kept p (s.setElem r e).roster := by
  cases r with
  | sock id =>
    cases live : s.sockets.get id with
    | none => simpa [setElem, live] using kept
    | some entry =>
      simp only [setElem, live]
      exact kept.setSocket guest ⟨(kept.sockets id entry live guest).1, foreign⟩
  | client c =>
    cases live : s.connections.get c with
    | none => simpa [setElem, live] using kept
    | some conn =>
      simp only [setElem, live]
      have before := kept.connections c conn live guest
      exact kept.setConnection guest ⟨foreign, before.server, before.timeout, before.expires⟩
  | server c =>
    cases live : s.connections.get c with
    | none => simpa [setElem, live] using kept
    | some conn =>
      simp only [setElem, live]
      have before := kept.connections c conn live guest
      exact kept.setConnection guest ⟨before.client, foreign, before.timeout, before.expires⟩

theorem kept_destroy (kept : Kept p s.roster) (apart : ¬p.Has e.fd) : Kept p (s.destroy e).roster := by
  unfold destroy
  split
  · exact kept
  · exact kept.dropHandler apart

theorem foreign_null (kept : Kept p s.roster) : p.Foreign .null := ⟨kept.present, Nat.zero_le _, Nat.zero_le _⟩

theorem tends_touch : TendsTo p (touch it) := by
  unfold touch
  refine tends_bind tends_get fun s _ => ?_
  split
  · exact tends_pure trivial
  · exact tends_throw nofun

theorem tends_getElem (guest : p.Guest r.entry) : Tends p (getElem r) p.Foreign := by
  unfold getElem
  refine tends_bind tends_get fun s kept => ?_
  split
  · rename_i e here
    exact tends_pure (kept_elem kept guest here)
  · exact tends_throw nofun

theorem tends_updateState (guest : p.Guest r.entry) : TendsTo p (updateState r state) := by
  unfold updateState
  refine tends_bind (tends_getElem guest) fun e foreign => ?_
  split
  · exact tends_pure trivial
  · split
    · exact tends_throw nofun
    · exact tends_modify fun s kept => kept_setElem kept guest ⟨foreign.apart, foreign.timeout, foreign.expires⟩

theorem tends_updateHandler (plain : ∀ it n, ¬h.Holds it n) (guest : p.Guest r.entry) : TendsTo p (updateHandler r h) := by
  unfold updateHandler
  refine tends_bind (tends_getElem guest) fun e foreign => ?_
  split
  · exact tends_throw nofun
  · exact tends_modify fun s kept => kept.setPlain foreign.apart plain

theorem tends_update (plain : ∀ it n, ¬h.Holds it n) (guest : p.Guest r.entry) : TendsTo p (update r state h) :=
  tends_bind (tends_updateState guest) fun _ _ => tends_updateHandler plain guest

theorem tends_closeSocket (guest : p.Guest (.sock id)) : TendsTo p (closeSocket id) := by
  intro s kept
  simp only [closeSocket, wp_bind, wp_get]
  split
  · rename_i entry live
    have erased : Kept p { s with sockets := s.sockets.erase id }.roster := kept.eraseSocket guest
    exact ⟨kept_destroy erased (kept.sockets id entry live guest).2.apart, trivial⟩
  · exact p.allows_closed _

theorem tends_closeConnection (guest : p.Guest (.conn c)) : TendsTo p (closeConnection c) := by
  intro s kept
  simp only [closeConnection, wp_bind, wp_get]
  split
  · rename_i conn live
    have before := kept.connections c conn live guest
    have erased : Kept p { s with connections := s.connections.erase c }.roster := kept.eraseConnection guest
    exact ⟨kept_destroy (kept_destroy erased before.server.apart) before.client.apart, trivial⟩
  · exact p.allows_closed _

theorem tends_logAndClose (it : EntryRef) (guest : p.Guest it) : TendsTo p (logAndClose it) := by
  unfold logAndClose close
  refine tends_bind tends_touch fun _ _ => ?_
  cases it with
  | sock id => exact tends_closeSocket guest
  | conn c => exact tends_closeConnection guest

theorem expires_of_ticks (kept : Kept p s.roster) {timeout : Nat} (short : timeout ≤ LONG_SOCKET_TIMEOUT) :
    s.ticks + timeout ≤ p.base.ticks + LONG_SOCKET_TIMEOUT := by
  rw [show s.ticks = p.base.ticks from kept.ticks]
  exact Nat.add_le_add_left short _

theorem tends_setActive (it : EntryRef) (guest : p.Guest it) : TendsTo p (setActive it) := by
  intro s kept
  unfold setActive
  cases it with
  | sock id =>
    simp only [wp_bind, wp_get]
    split
    · rename_i entry live
      obtain ⟨apart, foreign⟩ := kept.sockets id entry live guest
      exact ⟨kept.setSocket guest ⟨apart, foreign.apart, foreign.timeout, expires_of_ticks kept foreign.timeout⟩, trivial⟩
    · exact p.allows_closed _
  | conn c =>
    simp only [wp_bind, wp_get]
    split
    · rename_i conn live
      have before := kept.connections c conn live guest
      exact ⟨kept.setConnection guest
        ⟨before.client, before.server, before.timeout, expires_of_ticks kept before.timeout⟩, trivial⟩
    · exact p.allows_closed _

/-- The entry that has the descriptor as its key, or the new one, is no entry that is set aside. -/
theorem tends_insertSocket (foreign : p.Foreign e) : Tends p (insertSocket e) (fun id => p.Guest (.sock id)) := by
  intro s kept
  simp only [insertSocket, wp_bind, wp_get]
  split
  · rename_i id found
    obtain ⟨entry, live, same⟩ := Store.findId_some found
    refine ⟨kept_destroy kept foreign.apart, fun aside => foreign.apart ?_⟩
    have before : p.base.sockets.get id = some entry := (kept.socket id aside).symm.trans live
    have key : entry.key = e.fd := of_decide_eq_true same
    exact key ▸ kept.keyed id entry aside before
  · exact ⟨kept.insertSocket ⟨foreign.apart, foreign⟩, kept.guest_socket⟩

theorem tends_saveRegistration (foreign : p.Foreign e) (short : timeout ≤ LONG_SOCKET_TIMEOUT) :
    Tends p (saveRegistration e timeout) (fun id => p.Guest (.sock id)) := by
  refine tends_bind tends_get fun s kept => tends_insertSocket ?_
  exact ⟨foreign.apart, short, expires_of_ticks kept short⟩

theorem tends_changeTimeout (guest : p.Guest (.conn c)) (short : timeout ≤ LONG_SOCKET_TIMEOUT) :
    TendsTo p (changeTimeout c timeout) := by
  intro s kept
  simp only [changeTimeout, getConnection, wp_bind, wp_get]
  split
  · rename_i conn live
    have before := kept.connections c conn live guest
    exact ⟨kept.setConnection guest ⟨before.client, before.server, short, before.expires⟩, trivial⟩
  · exact p.allows_closed _

theorem tends_takeClient (guest : p.Guest (.conn c)) : Tends p (takeClient c) p.Foreign := by
  unfold takeClient
  refine tends_bind (tends_getElem (r := .client c) guest) fun client foreign => ?_
  refine tends_bind (tends_modify fun s kept => ?_) fun _ _ => tends_pure foreign
  exact kept_setElem kept (r := .client c) guest (foreign_null kept)

theorem owned_of_has (kept : Kept p s.roster) (reserved : p.Has f) : s.owned f = true := by
  obtain ⟨it, aside, has⟩ := reserved
  rw [owned, Bool.or_eq_true, Store.any_iff, Store.any_iff]
  cases it with
  | sock id =>
    obtain ⟨entry, live, rfl⟩ := has
    exact Or.inl ⟨id, entry, (kept.socket id aside).trans live, decide_eq_true rfl⟩
  | conn c =>
    obtain ⟨conn, live, same⟩ := has
    refine Or.inr ⟨c, conn, (kept.connection c aside).trans live, ?_⟩
    rcases same with rfl | rfl
    · simp
    · simp

theorem kept_newDescriptor {Q : Option Fd → Proxy → Prop} (kept : Kept p s.roster)
    (opened : ∀ fd, io.newFd = some fd → ¬p.Has fd → Q (some fd) s) (none : Q none s) :
    wp p.Allows (newDescriptor io) Q s := by
  unfold newDescriptor
  cases new : io.newFd with
  | none => exact none
  | some fd =>
    simp only [wp_bind, wp_get]
    split
    · exact p.allows_disabled
    · rename_i fresh
      exact opened fd new fun reserved => fresh (Or.inr (owned_of_has kept reserved))

/-- A service is there, or it was closed before. -/
theorem kept_service {Q : Unit → Proxy → Prop} (kept : Kept p s.roster) (service : p.base.Service (.sock id)) (h : Q () s) :
    wp p.Allows (Proxy.service id) Q s := by
  have same : s.sockets.get id = p.base.sockets.get id := kept.manned service
  simp only [Proxy.service, wp_bind, wp_get, Proxy.live, same]
  split
  · exact h
  · rename_i closed
    exact fun _ manned => closed (manned id service)

theorem service_notifier (kept : Kept p s.roster) : p.base.Service (.sock s.notifier) :=
  Or.inr (Or.inl (congrArg EntryRef.sock kept.services.2.1))

theorem service_listener (kept : Kept p s.roster) : p.base.Service (.sock s.listener) :=
  Or.inr (Or.inr (congrArg EntryRef.sock kept.services.2.2))

/-! ### Messages -/

theorem tends_setRequest (other : ¬p.Captures n) : TendsTo p (setRequest n rqst) :=
  tends_modify fun _ kept => kept.setMessages (Nat.le_refl _) fun n' captured _ =>
    ⟨if_neg (by rintro rfl; exact other captured), rfl, rfl⟩

theorem tends_setResponse (other : ¬p.Captures n) : TendsTo p (setResponse n resp) :=
  tends_modify fun _ kept => kept.setMessages (Nat.le_refl _) fun n' captured _ =>
    ⟨rfl, if_neg (by rintro rfl; exact other captured), rfl⟩

theorem tends_setRaw {raw : RawMessage} (other : ¬p.Captures n) : TendsTo p (setRaw n raw) :=
  tends_modify fun _ kept => kept.setMessages (Nat.le_refl _) fun n' captured _ =>
    ⟨rfl, rfl, if_neg (by rintro rfl; exact other captured)⟩

theorem tends_observe {o : Obs} (spares : p.Spares o) : TendsTo p (observe o) := tends_modify fun _ kept => kept.observe spares

/-- Nothing is read or written. -/
theorem tends_note {o : Obs} (said : ∀ c d, o.adds c d = d) (given : ∀ f, o.gives f = []) : TendsTo p (observe o) :=
  tends_observe ⟨fun c d _ => said c d, fun f _ => given f⟩

theorem spares_read {bytes : Bytes} (guest : p.Guest r.entry) : p.Spares (.read r bytes) where
  said c d aside := by
    cases r with
    | server other => exact if_neg (by rintro rfl; exact guest aside)
    | _ => rfl
  given _ _ := rfl

theorem spares_delivered {message : MessageRef} (guest : p.Guest r.entry) : p.Spares (.delivered r message) where
  said c d aside := by
    cases r with
    | server other => exact if_neg (by rintro rfl; exact guest aside)
    | _ => rfl
  given _ _ := rfl

theorem spares_wrote {message : MessageRef} {bytes : Bytes} (apart : ¬p.Has f) : p.Spares (.wrote f message bytes) where
  said _ _ _ := rfl
  given _ reserved := if_neg (by rintro rfl; exact apart reserved)

theorem tends_readMessage [Line L] (guest : p.Guest r.entry) : Tends p (readMessage r m io) fun _ => True := by
  unfold readMessage
  refine tends_bind (tends_getElem guest) fun e _ => ?_
  split
  · exact tends_pure trivial
  · split
    · exact tends_bind (tends_observe (spares_read guest)) fun _ _ => tends_pure trivial
    · exact tends_pure trivial
    · exact tends_throw nofun

theorem tends_writeMessage (guest : p.Guest r.entry) : Tends p (writeMessage r ref m io) fun _ => True := by
  unfold writeMessage
  refine tends_bind (tends_getElem guest) fun e foreign => ?_
  split
  · split
    · exact tends_pure trivial
    · exact tends_throw nofun
  · split
    · exact tends_bind (tends_observe (spares_wrote foreign.apart)) fun _ _ => tends_pure trivial
    · exact tends_throw nofun

/-! ### New messages -/

theorem lending_setElem (lending : Lending p it n s.roster) (guest : p.Guest r.entry) (foreign : p.Foreign e) :
    Lending p it n (s.setElem r e).roster ∧ (s.setElem r e).nextMessage = s.nextMessage := by
  have same : (s.setElem r e).handlers = s.handlers ∧ (s.setElem r e).nextMessage = s.nextMessage := by
    unfold Proxy.setElem
    cases r <;> dsimp only <;> split <;> exact ⟨rfl, rfl⟩
  refine ⟨⟨kept_setElem lending.kept guest foreign, fun n' beyond below => ?_⟩, same.2⟩
  have before : s.roster.Lent it n' := lending.new n' beyond (Nat.lt_of_lt_of_eq below same.2)
  refine ⟨below, fun {f h it'} installed held => before.only (f := f) (h := h) ?_ held⟩
  exact (congrFun same.1 f).symm.trans installed

/-- A handler of the entry is installed that holds only messages that were made for it. -/
theorem lending_setHandler (lending : Lending p it n s.roster) (apart : ¬p.Has f)
    (holds : ∀ it' n', h.Holds it' n' → it' = it ∧ n ≤ n' ∧ n' < s.nextMessage) :
    Lending p it n (s.setHandler f (some h)).roster where
  kept := lending.kept.setHandler apart fun h' same it' n' held => by
    cases same
    obtain ⟨rfl, beyond, below⟩ := holds it' n' held
    exact lending.new n' beyond below
  new n' beyond below := by
    refine ⟨below, fun {g h' it'} installed held => ?_⟩
    simp only [roster, Proxy.setHandler] at installed
    split at installed
    · cases installed
      exact (holds it' n' held).1
    · exact (lending.new n' beyond below).only installed held

theorem lent_update {R : Proxy → Prop} (lending : Lending p r.entry n s.roster) (guest : p.Guest r.entry)
    (holds : ∀ it n', h.Holds it n' → it = r.entry ∧ n ≤ n' ∧ n' < s.nextMessage)
    (rest : ∀ t, Lending p r.entry n t.roster → t.nextMessage = s.nextMessage → R t) :
    wp p.Allows (update r state h) (fun _ t => R t) s := by
  have installs : ∀ t, Lending p r.entry n t.roster → t.nextMessage = s.nextMessage →
      wp p.Allows (updateHandler r h) (fun _ t => R t) t := by
    intro t lending same
    unfold updateHandler getElem
    simp only [wp_bind, wp_get]
    cases here : t.elem r with
    | none => exact p.allows_closed _
    | some e =>
      have foreign := kept_elem lending.kept guest here
      simp only [wp_pure]
      split
      · exact p.allows_null
      · exact rest _ (lending_setHandler lending foreign.apart fun it n' held => same ▸ holds it n' held) same
  unfold update updateState getElem
  simp only [wp_bind, wp_get]
  cases here : s.elem r with
  | none => exact p.allows_closed _
  | some e =>
    have foreign := kept_elem lending.kept guest here
    simp only [wp_pure]
    split
    · exact installs s lending rfl
    · split
      · exact p.allows_null
      · obtain ⟨lending, same⟩ := lending_setElem (e := { e with events := state }) lending guest
          ⟨foreign.apart, foreign.timeout, foreign.expires⟩
        exact installs _ lending same

theorem lending_request (kept : Kept p s.roster) (it : EntryRef) (rqst : ClientRequest) :
    Lending p it s.nextMessage { s with
      requests := fun id => if id = s.nextMessage then rqst else s.requests id, nextMessage := s.nextMessage + 1 }.roster :=
  (kept.lending it).make fun _ known => ⟨if_neg (Nat.ne_of_lt known), rfl, rfl⟩

theorem lending_response (kept : Kept p s.roster) (it : EntryRef) (resp : ServerResponse) :
    Lending p it s.nextMessage { s with
      responses := fun id => if id = s.nextMessage then resp else s.responses id, nextMessage := s.nextMessage + 1 }.roster :=
  (kept.lending it).make fun _ known => ⟨rfl, if_neg (Nat.ne_of_lt known), rfl⟩

theorem lent_newRaw {R : MsgId → Proxy → Prop} (lending : Lending p it n s.roster)
    (rest : ∀ t, Lending p it n t.roster → t.nextMessage = s.nextMessage + 1 → R s.nextMessage t) :
    wp p.Allows newRaw R s :=
  rest _ (lending.make fun _ known => ⟨rfl, rfl, if_neg (Nat.ne_of_lt known)⟩) rfl

theorem holds_new {it' : EntryRef} {n' : MsgId} (held : it' = it ∧ n' = n) : it' = it ∧ n ≤ n' ∧ n' < n + 1 := by
  obtain ⟨rfl, rfl⟩ := held
  exact ⟨rfl, Nat.le_refl _, Nat.lt_succ_self _⟩

/-! ### Reading and sending -/

theorem tends_readRequest {next : AfterRequest} (guest : p.Guest r.entry) : TendsTo p (readRequest r rqst it next io) :=
  fun s kept => lent_update (h := .readRequest r s.nextMessage it next) (lending_request kept r.entry _) guest
    (fun _ _ => holds_new) fun _ lending _ => ⟨lending.kept, trivial⟩

theorem tends_readResponse {next : AfterResponse} (guest : p.Guest r.entry) : TendsTo p (readResponse r resp it next io) :=
  fun s kept => lent_update (h := .readResponse r s.nextMessage it next) (lending_response kept r.entry _) guest
    (fun _ _ => holds_new) fun _ lending _ => ⟨lending.kept, trivial⟩

/-- The element is looked at and the message recorded before the handler is installed. -/
theorem lent_sending {bytes : Bytes} (lending : Lending p r.entry n s.roster) (guest : p.Guest r.entry)
    (holds : ∀ it n', h.Holds it n' → it = r.entry ∧ n ≤ n' ∧ n' < s.nextMessage) :
    wp p.Allows (do let e ← getElem r; observe (.sending e.fd ref bytes); update r state h)
      (fun _ t => Kept p t.roster ∧ True) s := by
  unfold getElem
  simp only [wp_bind, wp_get]
  cases s.elem r with
  | none => exact p.allows_closed _
  | some e =>
    have spares : p.Spares (.sending e.fd ref bytes) := ⟨fun _ _ _ => rfl, fun _ _ => rfl⟩
    exact lent_update (s := { s with trace := s.trace ++ [.sending e.fd ref bytes] }) (lending.observe spares) guest holds
      fun _ lending _ => ⟨lending.kept, trivial⟩

theorem tends_sendRequest {next : AfterSend} (guest : p.Guest r.entry) : TendsTo p (sendRequest r rqst it next io) :=
  fun s kept => lent_sending (h := .send r (.request s.nextMessage) it next) (lending_request kept r.entry _) guest
    fun _ _ => holds_new

theorem tends_sendResponse {next : AfterSend} (guest : p.Guest r.entry) : TendsTo p (sendResponse r resp it next io) :=
  fun s kept => lent_sending (h := .send r (.response s.nextMessage) it next) (lending_response kept r.entry _) guest
    fun _ _ => holds_new

theorem tends_send404 (guest : p.Guest (.sock id)) : TendsTo p (send404 id io) := tends_sendResponse (r := .sock id) guest

theorem tends_escapeClient (guest : p.Guest (.conn c)) : Tends p (escapeClient c) (fun id => p.Guest (.sock id)) :=
  tends_bind (tends_takeClient guest) fun _ foreign => tends_saveRegistration foreign (by decide)

theorem tends_fastTransfer (guest : p.Guest (.conn c)) : TendsTo p (fastTransfer c rqst io) :=
  tends_sendRequest (r := .server c) guest

theorem tends_sendServerResponse (guest : p.Guest (.conn c)) : TendsTo p (sendServerResponse c rqst resp io) := by
  unfold sendServerResponse
  refine tends_bind tends_touch fun _ _ => ?_
  split
  · refine tends_bind (tends_escapeClient guest) fun id guest' => tends_bind (tends_closeConnection guest) fun _ _ => ?_
    exact tends_sendResponse (r := .sock id) guest'
  · refine tends_bind (tends_updateState (r := .server c) guest) fun _ _ => ?_
    exact tends_sendResponse (r := .client c) guest

/-! ### Connecting -/

theorem tends_erasePending (apart : ¬p.Has key.1) : TendsTo p (erasePending key) := by
  refine tends_modify fun s kept => kept.setPending fun other reserved => ?_
  exact if_neg (by rintro rfl; exact apart reserved)

theorem tends_insertPending {pending : Pending} (apart : ¬p.Has key.1) : TendsTo p (insertPending key pending) := by
  refine tends_modify fun s kept => kept.setPending fun other reserved => ?_
  exact if_neg (by rintro rfl; exact apart reserved)

theorem tends_connectToServer {next : AfterConnect} (guest : p.Guest (.sock id)) : TendsTo p (connectToServer id host next) := by
  unfold connectToServer
  refine tends_bind (tends_getElem (r := .sock id) guest) fun e foreign => tends_bind tends_get fun s _ => ?_
  refine tends_bind (tends_modify fun s kept => ?_) fun _ _ => ?_
  · exact kept_setElem (s := { s with calls := _ }) (r := .sock id) kept guest ⟨foreign.apart, foreign.timeout, foreign.expires⟩
  refine tends_bind (tends_insertPending foreign.apart) fun _ _ => ?_
  refine tends_bind (tends_update (fun _ _ held => held) (r := .sock id) guest) fun _ _ => ?_
  intro t kept
  rw [wp_bind, wp_get, wp_bind]
  exact kept_service kept (service_notifier kept) ⟨kept, trivial⟩

theorem tends_reconnect {next : AfterConnect} (guest : p.Guest (.conn c)) : TendsTo p (reconnect c host next) := by
  unfold reconnect
  refine tends_bind tends_touch fun _ _ => tends_bind (tends_takeClient guest) fun client foreign => ?_
  refine tends_bind (tends_closeConnection guest) fun _ _ => ?_
  exact tends_bind (tends_saveRegistration foreign (by decide)) fun it guest => tends_connectToServer guest

/-! ### Continuations -/

theorem tends_deleteCached {request : RequestHeader} : TendsTo p (deleteCached request) := by
  unfold deleteCached
  refine tends_bind tends_get fun s _ => ?_
  split
  · exact tends_modify fun _ kept => kept
  · exact tends_throw nofun

theorem tends_handleClientRequest (guest : p.Guest (.conn c)) : TendsTo p (handleClientRequest rqst c io) := by
  unfold handleClientRequest sendAndRead
  refine tends_bind tends_get fun s _ => ?_
  dsimp only
  split
  · exact tends_throw nofun
  · refine tends_bind tends_touch fun _ _ => ?_
    exact tends_bind (tends_sendRequest (r := .server c) guest) fun _ _ => tends_note (fun _ _ => rfl) fun _ => rfl
  · exact tends_sendResponse (r := .client c) guest
  · exact tends_bind (tends_fastTransfer guest) fun _ _ => tends_note (fun _ _ => rfl) fun _ => rfl

theorem tends_handleValidationResponse (guest : p.Guest (.conn c)) :
    TendsTo p (handleValidationResponse c rqst cached resp io) := by
  unfold handleValidationResponse
  refine tends_bind tends_touch fun _ _ => ?_
  split
  · refine tends_bind (tends_getElem (r := .client c) guest) fun client _ => tends_bind tends_get fun s _ => ?_
    exact tends_bind (tends_sendServerResponse guest) fun _ _ => tends_note (fun _ _ => rfl) fun _ => rfl
  · refine tends_bind (tends_note (fun _ _ => rfl) fun _ => rfl) fun _ _ => ?_
    exact tends_bind tends_deleteCached fun _ _ => tends_reconnect guest
  · refine tends_bind (tends_note (fun _ _ => rfl) fun _ => rfl) fun _ _ => ?_
    exact tends_bind tends_deleteCached fun _ _ => tends_fastTransfer guest

theorem tends_reuseConnection (guest : p.Guest (.conn c)) : TendsTo p (reuseConnection c host io) := by
  unfold reuseConnection
  refine tends_bind tends_touch fun _ _ => tends_bind (tends_update (fun _ _ held => held) (r := .server c) guest) fun _ _ => ?_
  exact tends_readRequest (r := .client c) guest

theorem tends_requestReused (guest : p.Guest (.conn c)) : TendsTo p (requestReused c host rqst io) := by
  unfold requestReused
  refine tends_bind tends_touch fun _ _ => ?_
  split
  · exact tends_handleClientRequest guest
  · exact tends_reconnect guest

/-- The handlers of both sides of a connection hold the message that is made for it. -/
theorem tends_startTransfer (guest : p.Guest (.conn c)) : TendsTo p (startTransfer c rqst) := by
  intro s kept
  unfold startTransfer
  rw [wp_bind]
  refine (wp_bind (x := update _ _ _)).mpr ?_
  refine lent_update (r := .server c) (lending_response kept (.conn c) .new) guest (fun _ _ => holds_new) fun t lending same => ?_
  refine lent_update (r := .client c) lending guest (fun it n held => ?_) fun u lending _ => ⟨lending.kept, trivial⟩
  rw [same]
  exact holds_new held

theorem tends_handleConnect (guest : p.Guest (.conn c)) : TendsTo p (handleConnect c) := by
  unfold handleConnect
  refine tends_bind tends_touch fun _ _ => ?_
  intro s kept
  refine wp_bind.mpr (lent_newRaw (kept.lending (.conn c)) fun t lending next => ?_)
  refine wp_bind.mpr (lent_newRaw lending fun u lending next' => ?_)
  have mine : ∀ (it : EntryRef) (n : MsgId), it = .conn c ∧ (n = s.nextMessage ∨ n = t.nextMessage) →
      it = .conn c ∧ s.nextMessage ≤ n ∧ n < u.nextMessage := by
    rw [next', next]
    rintro it n ⟨same, rfl | rfl⟩
    · exact ⟨same, Nat.le_refl _, Nat.lt_succ_of_lt (Nat.lt_succ_self _)⟩
    · exact ⟨same, Nat.le_succ _, Nat.lt_succ_self _⟩
  dsimp only
  refine wp_bind.mpr (lent_update (r := .server c) lending guest (fun it n held => ?_) fun w lending same => ?_)
  · exact mine it n ⟨held.1, held.2.symm⟩
  refine lent_update (r := .client c) lending guest (fun it n held => ?_) fun _ lending _ => ⟨lending.kept, trivial⟩
  rw [same]
  exact mine it n held

theorem tends_afterConnect {next : AfterConnect} (guest : p.Guest (.conn c)) : TendsTo p (next.run c io) := by
  cases next with
  | handleClientRequest rqst => exact tends_handleClientRequest guest
  | fastTransfer rqst => exact tends_fastTransfer guest

theorem tends_afterRequest {next : AfterRequest} (guest : p.Guest next.source.entry) : TendsTo p (next.run rqst io) := by
  cases next with
  | firstRequestRead client => exact tends_connectToServer guest
  | reuse c oldHost => exact tends_requestReused guest

theorem tends_afterResponse {next : AfterResponse} (guest : p.Guest next.source.entry) : TendsTo p (next.run resp io) := by
  cases next with
  | handleValidationResponse c rqst cached => exact tends_handleValidationResponse guest

theorem tends_afterSend {next : AfterSend} (guest : p.Guest next.dest.entry) : TendsTo p (next.run io) := by
  cases next with
  | readResponse dest iterator next => exact tends_bind tends_touch fun _ _ => tends_readResponse guest
  | startTransfer c rqst => exact tends_startTransfer guest
  | reuseConnection c host => exact tends_reuseConnection guest
  | handleConnect c => exact tends_handleConnect guest
  | closeSent it => exact tends_bind tends_touch fun _ _ => tends_closeSocket guest
  | close404 client => exact tends_closeSocket guest

end Proxy

end ProxyServer
