import ProxyServer.Server.Transfers

/-!
# Connection attempts

How a client gets a server: its request is accepted, the name is resolved, the
server connects or is given up.
-/

namespace ProxyServer

open Wp

namespace Proxy

open Registry

variable {g : Guard} {v : Registry} {r : ElemRef} {it : EntryRef} {id : SocketId} {c : ConnId} {io : Io}
  {state : FdState} {f : Fd} {host : Bytes} {l : Link} {e : SocketView}

theorem acts_eraseFound {E : Fault → Prop} {Q : Unit → Registry → Prop} {key : Fd × Bytes} {query : Option Pending}
    (missing : query = none → E .endIterator) (h : query.isSome = true → Q () (v.unpend key)) :
    Acts E (eraseFound key query) Q v := by
  cases query with
  | none => exact Acts.throw (missing rfl)
  | some q => exact acts_erasePending key (h rfl)

/-! ### A client that waits -/

theorem waits_resolving (own : v.Owned) (live : v.socket id = some e)
    (installed : v.handlers e.client.fd = some (.resolving id host)) {key : Fd × Bytes}
    (waits : v.Waits key (.sock id)) : key = (e.client.fd, host) := by
  cases waits with
  | resolving _ e' live' installed' =>
    have owner := (own.owns installed').2
    have here : e.client.fd = key.1 := by simpa [Registry.fd?, Registry.owner, live] using owner
    rw [← here, installed] at installed'
    have last : host = key.2 := by simpa using installed'
    rw [here, last]

theorem sounds_onResolving (sound : v.Sound g) (installed : v.handlers f = some (.resolving id host)) :
    Sounds g (onResolving id host state) v := by
  have owner := (sound.own.owns installed).2
  obtain ⟨e, live, rfl⟩ : ∃ e, v.socket id = some e ∧ e.client.fd = f := by
    simpa [Registry.fd?, Registry.owner] using owner
  refine Acts.whenever (fun _ => ?_) fun _ => sound
  refine Acts.bind (acts_touch (fun _ => ?_) fun closed => by simp [Registry.alive, live] at closed)
  refine Acts.bind (acts_getElem (fun elem here => ?_) fun closed => by simp [Registry.fd?, live] at closed)
  obtain same : e.client.fd = elem.fd := by simpa [Registry.fd?, live] using here
  refine Acts.get fun s same' => ?_
  have query : s.onResolve = v.onResolve := by rw [← same']; rfl
  rw [query, ← same]
  have waits : v.Waits (e.client.fd, host) (.sock id) := .resolving id e live installed trivial
  refine Acts.bind (acts_eraseFound (fun missing on => ?_) fun _ => ?_)
  · have pending := (sound.awaited on).pending waits
    simp [missing] at pending
  · refine acts_closeSocket (fun e' live' => ?_) fun closed => by simp [Registry.unpend, live] at closed
    obtain rfl : e = e' := by simpa [Registry.unpend, live] using live'
    have drops := (Drops.eraseSocket sound.own live).unpend (r := .sock id) (e.client.fd, host) rfl
      (by simp [Registry.fd?, live])
    refine sound.drops drops fun key it same waits => ?_
    subst same
    rw [waits_resolving sound.own live installed waits]
    exact if_pos rfl

theorem waits_connecting {ip : ResolvedIp} (live : v.connection c = some l)
    (installed : l.established = false → v.handlers l.server = some (.serverConnect c ip))
    {key : Fd × Bytes} (waits : v.Waits key (.conn c)) : key = (ip.socket, ip.host) := by
  cases waits with
  | connecting _ l' ip' live' unestablished installed' same =>
    obtain rfl : l = l' := by simpa [live] using live'
    rw [installed unestablished] at installed'
    obtain rfl : ip = ip' := by simpa using installed'
    exact same.symm

theorem sounds_onConnecting {socket : Fd} (sound : v.Sound g)
    (installed : v.handlers f = some (.connecting c socket host)) :
    Sounds g (onConnecting c socket host state) v := by
  have owner := (sound.own.owns installed).2
  obtain ⟨l, live, rfl⟩ : ∃ l, v.connection c = some l ∧ l.client.fd = f := by
    simpa [Registry.fd?, Registry.owner] using owner
  obtain rfl := sound.own.client installed
  refine Acts.whenever (fun _ => ?_) fun _ => sound
  refine Acts.bind (acts_touch (fun _ => ?_) fun closed => by simp [Registry.alive, live] at closed)
  refine Acts.bind (acts_erasePending _ ?_)
  refine acts_closeConnection (fun l' live' => ?_) fun closed => by simp [Registry.unpend, live] at closed
  obtain rfl : l = l' := by simpa [Registry.unpend, live] using live'
  have drops := (Drops.eraseConnection sound.own live).unpend (r := .client c) (l.client.fd, host) rfl
    (by simp [Registry.fd?, live])
  refine sound.drops drops fun key it same waits => ?_
  subst same
  cases waits with
  | connecting _ l' ip live' unestablished server equal =>
    obtain rfl : l = l' := by simpa [live] using live'
    obtain ⟨ip', server', client'⟩ := sound.own.linking live unestablished
    rw [server] at server'
    obtain rfl : ip = ip' := by simpa using server'
    rw [installed] at client'
    obtain ⟨socket, last⟩ : l.client.fd = ip.socket ∧ host = ip.host := by simpa using client'
    rw [← equal, ← socket, ← last]
    exact if_pos rfl

/-! ### A server that connects -/

/-- The client is sent a 404 on a socket of its own, and the connection is closed. -/
theorem acts_giveUp {E : Fault → Prop} {Q : Unit → Registry → Prop} {key : Fd × Bytes} {query : Option Pending}
    (own : v.Owned) (live : v.connection c = some l) (missing : query = none → E .endIterator)
    (h : ∀ n d, v.socket n = none →
      v.ledger.Queued d l.client.fd (.response v.ledger.nextMessage) notFound.unsent →
      Q () (((((v.unpend key).eraseConnection c l).addSocket n l.client).withLedger d).setHandler l.client.fd
        (.send (.sock n) (.response v.ledger.nextMessage) (.sock n) (.close404 n)))) :
    Acts E (giveUp c key query io) Q v := by
  have client : v.fd? (.client c) = some l.client.fd := by simp [Registry.fd?, live]
  refine Acts.bind (acts_touch (fun _ => ?_) fun closed => by simp [Registry.alive, live] at closed)
  refine Acts.bind (acts_eraseFound missing fun _ => ?_)
  refine Acts.bind (acts_escapeClient (own.forget _) live fun n fresh => ?_)
  refine Acts.bind (acts_sendResponse (f := l.client.fd) fd?_addSocket_self (own.present client) notFound _ io
    fun d queued _ => ?_)
  refine acts_closeConnection (fun l' live' => ?_) fun closed => by
    simp [Registry.setHandler, Registry.withLedger, Registry.addSocket, setLink] at closed
  obtain rfl : l.widow = l' := by
    simpa [Registry.setHandler, Registry.withLedger, Registry.addSocket, setLink] using live'
  rw [eraseConnection_setHandler (f := l.client.fd) (l := l.widow) (own.server_ne live) (own.present client)]
  have given := h n d fresh queued
  show Q () (((((((v.unpend key).withLedger d).setLink c l.widow).eraseConnection c l.widow).addSocket n
    l.client).setHandler l.client.fd _))
  rw [escape_setHandler]
  exact given

theorem sounds_giveUp {ip : ResolvedIp} {query : Option Pending} (sound : v.Sound g)
    (installed : v.handlers f = some (.serverConnect c ip))
    (missing : query = none → ¬g.pending) : Sounds g (giveUp c (ip.socket, ip.host) query io) v := by
  obtain ⟨l, live, rfl⟩ : ∃ l, v.connection c = some l ∧ l.server = f := by
    simpa [Registry.fd?, Registry.owner] using (sound.own.owns installed).2
  have client : v.fd? (.client c) = some l.client.fd := by simp [Registry.fd?, live]
  have same : ip.socket = l.client.fd := by simpa [client, eq_comm] using sound.own.server installed
  refine acts_giveUp sound.own live missing fun n d fresh queued => ?_
  have drops : Drops (· = .conn c) v ((v.unpend (ip.socket, ip.host)).eraseConnection c l) :=
    (Drops.eraseConnection sound.own live).unpend (r := .client c) _ rfl (by rw [same]; exact client)
  have dropped : ((v.unpend (ip.socket, ip.host)).eraseConnection c l).Sound g := by
    refine sound.drops drops fun key it same waits => ?_
    subst same
    rw [waits_connecting live (fun _ => installed) waits]
    exact if_pos rfl
  have coherent : (AfterSend.close404 n).Follows (.sock n) := ⟨rfl, trivial⟩
  have concerns : d.Concerns (.close404 n) (.response v.ledger.nextMessage) := trivial
  exact sound_sendEscaped dropped sound live fresh drops coherent concerns queued trivial

theorem acts_getClient {E : Fault → Prop} {Q : EpollElem → Registry → Prop} (live : v.connection c = some l)
    (h : ∀ e, e.call = l.client.call → Q e v) : Acts E (getElem (.client c)) Q v := by
  rintro s rfl
  obtain ⟨conn, here, rfl⟩ := Option.map_eq_some_iff.mp live
  simp only [getElem, elem, here, Option.map_some, wp_bind, wp_get, wp_pure]
  exact h _ rfl

theorem sounds_established {ip : ResolvedIp} {q : Pending} (sound : v.Sound g) (live : v.connection c = some l)
    (installed : v.handlers l.server = some (.serverConnect c ip)) {e : EpollElem} (latest : e.call = l.client.call)
    (found : v.onResolve (ip.socket, ip.host) = some q) :
    ((v.establish c l (ip.socket, ip.host)).withLedger (v.ledger.observe (.established e.call q.call))).Sound g := by
  have same : ip.socket = l.client.fd := by
    simpa [Registry.fd?, live, eq_comm] using sound.own.server installed
  have attempt : ∀ ip', l.established = false → v.handlers l.server = some (.serverConnect c ip') →
      (ip'.socket, ip'.host) = (ip.socket, ip.host) := by
    intro ip' _ installed'
    rw [installed] at installed'
    cases installed'
    rfl
  have moved : (v.establish c l (ip.socket, ip.host)).Sound g :=
    sound.move (sound.own.establish live) rfl Or.inl
      (fun {r _} owner => Or.inl ⟨r, by rwa [fd?_establish live] at owner⟩)
      (fun found => by
        simp only [establish] at found
        split at found
        · cases found
        · exact found)
      fun _ _ => Keeps.establish sound.own live same attempt
  refine moved.observe trivial trivial fun on latest' ran seen => ?_
  obtain ⟨rfl, rfl⟩ : e.call = latest' ∧ q.call = ran := by simpa using seen
  rw [latest]
  exact sound.own.latest (sound.current on) live same found

theorem sounds_onServerConnect {ip : ResolvedIp} (sound : v.Sound g)
    (installed : v.handlers f = some (.serverConnect c ip))
    (attempt : g.pending → looksUp ip state io = true → ∀ l, v.connection c = some l → l.established = false)
    (port : UInt16) : Sounds g (onServerConnect c (ip.copy port) state io) v := by
  obtain ⟨l, live, rfl⟩ : ∃ l, v.connection c = some l ∧ l.server = f := by
    simpa [Registry.fd?, Registry.owner] using (sound.own.owns installed).2
  have client : v.fd? (.client c) = some l.client.fd := by simp [Registry.fd?, live]
  have server : v.fd? (.server c) = some l.server := by simp [Registry.fd?, live]
  refine Acts.bind (acts_getElem (fun elem _ => ?_) fun closed => by simp [server] at closed)
  refine Acts.bind (acts_setActive ?_ fun closed => by simp [Registry.alive, live] at closed)
  refine Acts.get fun s same => ?_
  have query : s.onResolve = v.onResolve := by rw [← same]; rfl
  rw [query]
  show Acts _ (if _ then giveUp c (ip.socket, ip.host) (v.onResolve (ip.socket, ip.host)) io else _) _ v
  -- The entry of a connection attempt is there.
  have missing : looksUp ip state io = true → v.onResolve (ip.socket, ip.host) = none → ¬g.pending := by
    intro uses gone on
    have waits : v.Waits (ip.socket, ip.host) (.conn c) :=
      .connecting c l ip live (attempt on uses l live) installed rfl trivial
    have pending := (sound.awaited on).pending waits
    simp [gone] at pending
  have givesUp : looksUp ip state io = true →
      Sounds g (giveUp c (ip.socket, ip.host) (v.onResolve (ip.socket, ip.host)) io) v :=
    fun uses => sounds_giveUp sound installed (missing uses)
  split
  · rename_i gone
    exact givesUp (by simp [looksUp, gone])
  · rename_i stays
    split
    · rename_i failed
      refine Acts.bind (acts_touch (fun _ => ?_) fun closed => by simp [Registry.alive, live] at closed)
      split
      · exact Acts.throw trivial
      · rename_i code found
        split
        · rename_i refused
          split
          · rename_i last
            have last : ip.ips.tail = [] := last
            exact givesUp (by simp [looksUp, stays, failed, found, last])
          · rename_i more
            refine Acts.bind (acts_observe _ ?_)
            have observed := sound.observe (o := .attempted elem.fd (ip.copy port).nextIp.getIp) trivial trivial
              fun _ _ _ same => by cases same
            split
            · rename_i bad
              show Sounds g (giveUp c (ip.socket, ip.host) _ io) _
              refine sounds_giveUp observed installed (missing ?_)
              simp only [looksUp, stays, failed, found]
              simp [bad]
            · exact Acts.pure observed
        · rename_i other
          refine givesUp ?_
          simp only [looksUp, stays, failed, found]
          simp [other]
    · rename_i fine
      refine Acts.whenever (fun output => ?_) fun _ => sound
      refine Acts.bind (acts_touch (fun _ => ?_) fun closed => by simp [Registry.alive, live] at closed)
      split
      · rename_i gone
        exact Acts.throw (missing (by simp [looksUp, stays, fine, output]) gone)
      · rename_i q found
        refine Acts.bind (acts_erasePending _ ?_)
        refine Acts.bind (acts_updateState _ ?_ (fun zero => sound.own.present (r := .client c) zero rfl)
          fun closed => by simp [Registry.fd?, Registry.unpend, live] at closed)
        refine Acts.bind (acts_updateState _ ?_ (fun zero => sound.own.present (r := .server c) zero rfl)
          fun closed => by simp [Registry.fd?, Registry.unpend, live] at closed)
        refine Acts.bind (acts_changeTimeout (fun l' live' => ?_) fun closed => by
          simp [Registry.unpend, live] at closed)
        obtain rfl : l = l' := by simpa [Registry.unpend, live] using live'
        refine Acts.bind (acts_getClient (l := { l with established := true }) (by simp [setLink]) fun e latest => ?_)
        refine Acts.bind (acts_observe _ ?_)
        have connected : v.ledger.Connected c ip.host := (sound.relies installed).1
        exact sounds_afterConnect (sounds_established sound live installed latest found)
          ⟨{ l with established := true }, by simp [setLink, Registry.withLedger], rfl⟩
          (((sound.asked found).routed connected).mono (List.subset_append_left _ _))

/-! ### A client that is accepted -/

theorem sounds_onListener (sound : v.Sound g)
    (opens : ∀ f, state.is .IN = true → io.newFd = some f → g.opens f) : Sounds g (onListener state io) v := by
  refine Acts.whenever (fun input => ?_) fun _ => sound
  refine Acts.get fun s _ => Acts.bind (acts_service _ trivial ?_)
  refine Acts.bind (acts_newDescriptor io trivial (fun f opened present unowned => ?_) fun _ => ?_)
  · refine Acts.get fun s _ => Acts.bind (acts_insertSocket _ (fun id e live same => ?_) fun n fresh => ?_)
    · have owner : v.fd? (.sock id) = some f := by
        have key := sound.own.keyed live
        simp only [EpollElem.new] at same
        simp [Registry.fd?, live, ← key, same]
      exact unowned _ owner
    · exact sounds_readRequest (r := .sock n) (sound.addSocket fresh present unowned (opens f input opened))
        (sound.own.ready_addSocket unowned) rfl BufferedMessage.gathered_new trivial
  · exact Acts.pure sound

/-! ### A name that is resolved -/

theorem acts_getIp {E : Fault → Prop} {Q : ResolvedIp → Registry → Prop} (disabled : E .disabled)
    (h : ∀ ip, v.resolving[io.resolved]? = some (ip.socket, ip.host) → ip.ips = io.ips →
      Q ip (v.dequeue (v.resolving.eraseIdx io.resolved))) : Acts E (getIp io) Q v := by
  rintro s rfl
  simp only [getIp, wp_bind, wp_get]
  cases queued : s.resolving[io.resolved]? with
  | none => exact disabled
  | some key => exact h ⟨io.ips, io.port, key.1, key.2⟩ queued rfl

theorem acts_derefClient {E : Fault → Prop} {Q : SocketId → Registry → Prop} {client : Option SocketId}
    (missing : client = none → E .endIterator) (h : ∀ id, client = some id → Q id v) :
    Acts E (derefClient client) Q v := by
  cases client with
  | none => exact Acts.throw (missing rfl)
  | some id => exact Acts.pure (h id rfl)

theorem sounds_notResolved {d : Ledger} (bytes : Bytes) (sound : v.Sound g) (key : Fd × Bytes)
    (live : v.socket id = some e) (same : key.1 = e.client.fd)
    (installed : g.pending ∨ g.current → v.handlers key.1 = some (.resolving id key.2))
    (queued : v.ledger.Queued d key.1 (.response v.ledger.nextMessage) bytes) :
    ((v.withLedger d).dismiss key
      (.send (.sock id) (.response v.ledger.nextMessage) (.sock id) (.close404 id))).Sound g :=
  (sound.queue queued).dismissed live same ⟨rfl, rfl, trivial⟩ ⟨trivial, bytes, queued.seen, trivial⟩ installed

theorem acts_getSocket {E : Fault → Prop} {Q : EpollElem → Registry → Prop} (live : v.socket id = some e)
    (h : ∀ elem, elem.fd = e.client.fd → elem.call = e.client.call → Q elem v) :
    Acts E (getElem (.sock id)) Q v := by
  rintro s rfl
  obtain ⟨entry, here, rfl⟩ := Option.map_eq_some_iff.mp live
  simp only [getElem, elem, here, Option.map_some, wp_bind, wp_get, wp_pure]
  exact h _ rfl rfl

theorem acts_saveConnection {E : Fault → Prop} {R : Unit → Registry → Prop} (connection : Connection) (host : Bytes)
    (f : ConnId → ProxyM Unit)
    (h : ∀ c, c = v.ledger.nextConnection → v.connection c = none →
      Acts E (f c) R ((v.setLink c connection.view).withLedger (v.ledger.connect host))) :
    Acts E (do
      let c := (← get).connections.next
      modify fun s => { s with connections := s.connections.insert connection }
      observe (.connected c host)
      f c) R v := by
  rintro s rfl
  simp only [observe, wp_bind, wp_get, wp_modify]
  refine h s.connections.next rfl (by simp [view, Store.get_next]) _ ?_
  ext1 <;> try rfl
  funext other
  simp only [view, setLink, Registry.withLedger, Store.get_insert]
  split <;> rfl

theorem acts_startConnection {E : Fault → Prop} {Q : Unit → Registry → Prop} {d : Fd} {ip : ResolvedIp}
    (own : v.Owned) (live : v.socket id = some e) (present : d ≠ 0)
    (h : ∀ c, c = v.ledger.nextConnection → v.connection c = none →
      Q () ((v.withLedger (v.ledger.connect ip.host)).link id c e.client d (ip.copy io.unset))) :
    Acts E (startConnection id d ip io) Q v := by
  have owner : v.fd? (.sock id) = some e.client.fd := by simp [Registry.fd?, live]
  refine Acts.bind (acts_getSocket live fun elem fd call => ?_)
  refine Acts.bind (Acts.modify (w := v.setSocket id ⟨e.key, ⟨0, none⟩⟩) ?_ ?_)
  · rintro s rfl
    obtain ⟨entry, here, rfl⟩ := Option.map_eq_some_iff.mp live
    exact view_setElem_socket here .null
  · refine Acts.get fun s _ => ?_
    refine Acts.bind (acts_closeSocket (fun e' live' => ?_) fun closed => by
      simp [setSocket] at closed)
    obtain rfl : ⟨e.key, ⟨0, none⟩⟩ = e' := by simpa [setSocket] using live'
    refine acts_saveConnection ⟨elem, EpollElem.new d .OUT 0 s.ticks, SHORT_SOCKET_TIMEOUT, s.ticks + SHORT_SOCKET_TIMEOUT⟩
      ip.host (fun conn => do
        update (.client conn) .RDHUP (.connecting conn ip.socket ip.host)
        updateHandler (.server conn) (.serverConnect conn (ip.copy io.unset))) fun c new fresh => ?_
    have linked := h c new fresh
    have started : (Connection.view ⟨elem, EpollElem.new d .OUT 0 s.ticks, SHORT_SOCKET_TIMEOUT,
        s.ticks + SHORT_SOCKET_TIMEOUT⟩) = ⟨e.client, d, false⟩ := by
      simp [Connection.view, EpollElem.new, fd, call]
    rw [started]
    refine Acts.bind (acts_update _ _ (fun f client => ?_) (fun zero => ?_) fun closed => ?_)
    · obtain rfl : e.client.fd = f := by simpa [Registry.fd?, setLink, Registry.withLedger] using client
      refine acts_updateHandler _ (fun f server => ?_) (fun zero => ?_) fun closed => ?_
      · obtain rfl : d = f := by simpa [Registry.fd?, setLink, Registry.withLedger, Registry.setHandler] using server
        rw [← link_steps e.key] at linked
        exact linked
      · exact present (by simpa [Registry.fd?, setLink, Registry.withLedger, Registry.setHandler] using zero)
      · simp [Registry.fd?, setLink, Registry.withLedger, Registry.setHandler] at closed
    · exact own.present owner (by simpa [Registry.fd?, setLink, Registry.withLedger] using zero)
    · simp [Registry.fd?, setLink, Registry.withLedger] at closed

theorem sounds_startConnection {d : Fd} {ip : ResolvedIp} (sound : v.Sound g) (live : v.socket id = some e)
    (present : d ≠ 0) (unowned : ∀ r, v.fd? r ≠ some d) (opens : g.opens d) (same : ip.socket = e.client.fd)
    (installed : g.pending ∨ g.current → v.handlers e.client.fd = some (.resolving id ip.host)) :
    Sounds g (startConnection id d ip io) v := by
  refine acts_startConnection sound.own live present fun c new fresh => ?_
  have linkable : (v.withLedger (v.ledger.connect ip.host)).Linkable id c e d (ip.copy io.unset) :=
    ⟨live, fresh, present, fun r => by rw [fd?_withLedger]; exact unowned r, same⟩
  have connected : (v.ledger.connect ip.host).Connected c ip.host := by
    rw [new]
    exact List.mem_append_right _ (List.mem_singleton_self _)
  have unspoken : (v.ledger.connect ip.host).Unspoken c :=
    (sound.recorded.unspoken c (Nat.le_of_eq new.symm)).append rfl fun _ => rfl
  exact (sound.connect ip.host).linked linkable opens ⟨connected, unspoken⟩ installed

theorem findId_view {s : Proxy} {d : Fd} (same : s.view = v) :
    (∀ id, s.sockets.findId (·.key = d) = some id → ∃ e, v.socket id = some e ∧ e.key = d) ∧
      (s.sockets.findId (·.key = d) = none → ∀ id e, v.socket id = some e → e.key ≠ d) := by
  subst same
  refine ⟨fun id found => ?_, fun missing id e live => ?_⟩
  · obtain ⟨entry, live, key⟩ := Store.findId_some found
    exact ⟨entry.view, by simp [view, live], of_decide_eq_true key⟩
  · obtain ⟨entry, here, rfl⟩ := Option.map_eq_some_iff.mp live
    have other := Store.findId_none missing here
    exact of_decide_eq_false other

section

variable {d : Fd} {ip : ResolvedIp} {q : Pending} {rest : List (Fd × Bytes)}

/-- What the handler of the client of a result is, when that matters. -/
theorem Sound.resolving (sound : v.Sound g) (queued : (ip.socket, ip.host) ∈ v.resolving)
    (found : v.onResolve (ip.socket, ip.host) = some q) (live : v.socket id = some e) (key : e.key = ip.socket) :
    ip.socket = e.client.fd ∧
      (g.pending ∨ g.current → v.handlers ip.socket = some (.resolving id ip.host)) := by
  have same : ip.socket = e.client.fd := by rw [← key, sound.own.keyed live]
  exact ⟨same, fun on => sound.answered queued found live same on⟩

theorem sounds_attempted (sound : v.Sound g)
    (queued : (ip.socket, ip.host) ∈ v.resolving) (found : v.onResolve (ip.socket, ip.host) = some q)
    (live : v.socket id = some e) (key : e.key = ip.socket) (present : d ≠ 0)
    (unowned : ∀ r, v.fd? r ≠ some d) (opens : g.opens d) (fewer : rest ⊆ v.resolving) :
    Sounds g (if io.connect ≠ 0 ∧ io.connect ≠ EINPROGRESS then do
        send404 id io
        erasePending (ip.socket, ip.host)
      else startConnection id d ip io) (v.dequeue rest) := by
  obtain ⟨same, installed⟩ := Sound.resolving sound queued found live key
  have owner : (v.dequeue rest).fd? (.sock id) = some ip.socket := by
    simp [Registry.fd?, Registry.dequeue, live, same]
  split
  · refine Acts.bind (acts_sendResponse owner (sound.own.present (r := .sock id) owner) notFound _ io
      fun d queued _ => ?_)
    exact acts_erasePending _ (sounds_notResolved _ (sound.dequeue fewer) (ip.socket, ip.host) live same installed
      queued)
  · refine sounds_startConnection (sound.dequeue fewer) live present unowned opens same fun on => ?_
    rw [← same]
    exact installed on

theorem sounds_resolved (sound : v.Sound g)
    (queued : (ip.socket, ip.host) ∈ v.resolving) (found : v.onResolve (ip.socket, ip.host) = some q)
    (live : v.socket id = some e) (key : e.key = ip.socket) (present : d ≠ 0)
    (unowned : ∀ r, v.fd? r ≠ some d) (opens : g.opens d) (fewer : rest ⊆ v.resolving) :
    Sounds g (if ip.ips = [] then do
        erasePending (ip.socket, ip.host)
        send404 id io
      else do
        observe (.attempted d ip.getIp)
        if io.connect ≠ 0 ∧ io.connect ≠ EINPROGRESS then do
          send404 id io
          erasePending (ip.socket, ip.host)
        else startConnection id d ip io) (v.dequeue rest) := by
  obtain ⟨same, installed⟩ := Sound.resolving sound queued found live key
  split
  · have owner : ((v.dequeue rest).unpend (ip.socket, ip.host)).fd? (.sock id) = some ip.socket := by
      simp [Registry.fd?, Registry.dequeue, Registry.unpend, live, same]
    refine Acts.bind (acts_erasePending _ ?_)
    exact acts_sendResponse owner (sound.own.present (r := .sock id) owner) notFound _ io fun d queued _ =>
      sounds_notResolved _ (sound.dequeue fewer) (ip.socket, ip.host) live same installed queued
  · have observed := sound.observe (o := .attempted d ip.getIp) trivial trivial fun _ _ _ same => by cases same
    refine Acts.bind (acts_observe _ ?_)
    exact sounds_attempted observed queued found live key present (fun r => by simpa using unowned r) opens fewer

end

theorem sounds_onNotifier (sound : v.Sound g)
    (opens : ∀ f, state.is .IN = true → io.newFd = some f → g.opens f)
    (idle : g.pending → ∀ key c, v.resolving[io.resolved]? = some key → (v.onResolve key).isSome = true →
      ¬v.Waits key (.conn c)) : Sounds g (onNotifier state io) v := by
  refine Acts.whenever (fun input => ?_) fun _ => sound
  refine Acts.get fun s _ => Acts.bind (acts_service _ trivial ?_)
  refine Acts.bind (acts_newDescriptor io trivial (fun d opened present unowned => ?_) fun _ => Acts.throw trivial)
  refine Acts.bind (acts_getIp trivial fun ip queued ips => ?_)
  have fewer : v.resolving.eraseIdx io.resolved ⊆ v.resolving := List.eraseIdx_subset
  refine Acts.get fun s same => Acts.get fun s' same' => ?_
  have query : s'.onResolve = v.onResolve := congrArg Registry.onResolve same'
  rw [query]
  split
  · exact Acts.pure (sound.dequeue fewer)
  · rename_i q found
    have known := findId_view (d := ip.socket) same
    refine Acts.bind (acts_derefClient (fun missing on => ?_) fun id client => ?_)
    · obtain ⟨it, waits⟩ := (sound.awaited on).attended (List.mem_of_getElem? queued) (by rw [found]; rfl)
      cases waits with
      | resolving id e live installed =>
        have owner := (sound.own.owns installed).2
        have here : e.client.fd = ip.socket := by simpa [Registry.fd?, Registry.owner, live] using owner
        exact known.2 missing id e live (by rw [sound.own.keyed live, here])
      | connecting c l ip' live unestablished installed equal =>
        exact idle on _ c queued (by rw [found]; rfl) (.connecting c l ip' live unestablished installed equal trivial)
    · obtain ⟨e, live, key⟩ := known.1 id client
      exact sounds_resolved sound (List.mem_of_getElem? queued) found live key present unowned (opens d input opened) fewer

end Proxy

end ProxyServer
