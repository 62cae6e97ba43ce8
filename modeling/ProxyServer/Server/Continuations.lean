import ProxyServer.Server.Invariant

/-!
# What continuations keep

Every function of the server that a handler calls takes a sound registry to a sound
one, or fails as the guard allows.
-/

namespace ProxyServer

open Wp

namespace Proxy

open Registry

variable {g : Guard} {v : Registry} {r : ElemRef} {it : EntryRef} {id : SocketId} {c : ConnId} {io : Io}

abbrev Sounds (g : Guard) (x : ProxyM Unit) (v : Registry) : Prop :=
  Acts g.Allows x (fun _ w => w.Sound g) v

/-! ### Operations on a ready entry -/

theorem fd_of_closed (closed : v.alive r.entry = false) : v.fd? r = none := by
  cases r <;> simpa [Registry.alive, ElemRef.entry, Registry.fd?] using closed

theorem ready_touch {Q : Unit → Registry → Prop} (ready : v.Ready it) (h : Q () v) :
    Acts g.Allows (touch it) Q v :=
  acts_touch (fun _ => h) fun closed => by simp [ready.alive] at closed

theorem ready_getElem {Q : EpollElem → Registry → Prop} (ready : v.Ready r.entry) (h : ∀ e, Q e v) :
    Acts g.Allows (getElem r) Q v :=
  acts_getElem (fun e _ => h e) fun closed => by
    obtain ⟨f, owner⟩ := ready.fd
    simp [owner] at closed

theorem ready_setActive {Q : Unit → Registry → Prop} (ready : v.Ready it) (h : Q () v) :
    Acts g.Allows (setActive it) Q v :=
  acts_setActive h fun closed => by simp [ready.alive] at closed

theorem ready_updateState {Q : Unit → Registry → Prop} (sound : v.Sound g) (ready : v.Ready r.entry)
    (state : FdState) (h : Q () v) : Acts g.Allows (updateState r state) Q v := by
  obtain ⟨f, owner⟩ := ready.fd
  refine acts_updateState state h (fun zero => ?_) (fun closed => ?_)
  · exact sound.own.present zero rfl
  · simp [owner] at closed

theorem ready_update {Q : Unit → Registry → Prop} {h : Handler} (sound : v.Sound g) (ready : v.Ready r.entry)
    (fits : v.Fits h r) (state : FdState)
    (after : ∀ f, (v.setHandler f h).Sound g → (∀ it, v.Ready it → (v.setHandler f h).Ready it) →
      Q () (v.setHandler f h)) : Acts g.Allows (update r state h) Q v := by
  obtain ⟨f, owner⟩ := ready.fd
  refine acts_update state h (fun f owner => ?_) (fun zero => ?_) (fun closed => ?_)
  · exact after f (sound.install ready owner fits) fun it ready => ready.setHandler fits.settled
  · exact sound.own.present zero rfl
  · simp [owner] at closed

theorem sounds_update {h : Handler} (sound : v.Sound g) (ready : v.Ready r.entry) (fits : v.Fits h r)
    (state : FdState) : Sounds g (update r state h) v :=
  ready_update sound ready fits state fun _ sound _ => sound

theorem sounds_close (sound : v.Sound g) (ready : v.Ready it) :
    Acts g.Allows (close it) (fun _ w => w.Sound g ∧ w.alive it = false ∧ w.ledger = v.ledger) v := by
  refine acts_close ?_ ?_ (fun closed => by simp [ready.alive] at closed)
  · rintro id e rfl live
    exact ⟨sound.closed (Drops.eraseSocket sound.own live) ready, by simp [Registry.alive, eraseSocket], rfl⟩
  · rintro c l rfl live
    exact ⟨sound.closed (Drops.eraseConnection sound.own live) ready,
      by simp [Registry.alive, eraseConnection], rfl⟩

/-! ### Reading and sending -/

theorem ready_withLedger {d : Ledger} : (v.withLedger d).Ready it ↔ v.Ready it := by cases it <;> rfl

theorem sounds_readRequest {next : AfterRequest} {message : ClientRequest} (sound : v.Sound g)
    (ready : v.Ready r.entry) (named : next.source = r) (gathered : message.Gathered)
    (resumes : v.ledger.Resumes next) : Sounds g (readRequest r message r.entry next io) v := by
  refine Acts.bind (acts_newRequest _ ?_)
  refine sounds_update (sound.newRequest _) (ready_withLedger.mpr ready) ?_ _
  refine ⟨rfl, ⟨rfl, named⟩, trivial, fun _ _ => ⟨sound.recorded.reading rfl rfl rfl, ?_, ?_⟩, fun _ => nofun⟩
  · show (if v.ledger.nextMessage = v.ledger.nextMessage then _ else _ : ClientRequest).Gathered
    rw [if_pos rfl]
    exact gathered.transferred io.garbage
  · exact Ledger.Resumes.mono resumes (List.Subset.refl _)

theorem sounds_readResponse {next : AfterResponse} (sound : v.Sound g) (ready : v.Ready r.entry)
    (named : next.source = r) (proceeds : v.ledger.Proceeds (.readResponse r it next)) :
    Sounds g (readResponse r .new r.entry next io) v := by
  refine Acts.bind (acts_newResponse _ ?_)
  refine sounds_update (sound.newResponse _) (ready_withLedger.mpr ready) ?_ _
  cases next with
  | handleValidationResponse c rqst cached =>
    obtain ⟨awaits, unanswered⟩ := proceeds
    refine ⟨rfl, ⟨rfl, named⟩, trivial, fun _ _ => ⟨sound.recorded.reading rfl rfl rfl, awaits.mono (.same rfl)⟩, ?_⟩
    rintro l ⟨⟩
    exact sound.listens rfl (BufferedMessage.received_new _) unanswered

theorem sound_send {d : Ledger} {f : Fd} {ref : MessageRef} {bytes : Bytes} {next : AfterSend} (sound : v.Sound g)
    (ready : v.Ready r.entry) (owner : v.fd? r = some f) (coherent : next.Follows r) (concerns : d.Concerns next ref)
    (queued : v.ledger.Queued d f ref bytes) (follows : v.ledger.Follows bytes next) :
    ((v.withLedger d).setHandler f (.send r ref r.entry next)).Sound g := by
  refine (sound.queue queued).install (r := r) (ready_withLedger.mpr ready) (by simpa using owner)
    ⟨rfl, ⟨rfl, coherent⟩, trivial, fun f' owner' => ?_, fun _ => nofun⟩
  obtain rfl : f = f' := by simpa [owner] using owner'
  exact ⟨concerns, bytes, queued.seen, Ledger.Follows.mono follows queued.grows.trace⟩

theorem ready_sendRequest {Q : Unit → Registry → Prop} {next : AfterSend} (sound : v.Sound g)
    (ready : v.Ready r.entry) (coherent : next.Follows r) (message : ClientRequest)
    (headed : next.Headed message.getHeader)
    (follows : v.ledger.Follows message.unsent next)
    (h : ∀ {f} w, w.Sound g → v.ledger.Queued w.ledger f (.request v.ledger.nextMessage) message.unsent → Q () w) :
    Acts g.Allows (sendRequest r message r.entry next io) Q v := by
  obtain ⟨f, owner⟩ := ready.fd
  apply acts_sendRequest owner (sound.own.present owner) message next io
  intro d queued made
  have concerns : d.Concerns next (.request v.ledger.nextMessage) := by
    refine ⟨by rw [queued.next]; exact Nat.lt_succ_self _, ?_⟩
    rw [made]
    exact headed
  exact h _ (sound_send sound ready owner coherent concerns queued follows) queued

theorem ready_sendResponse {Q : Unit → Registry → Prop} {f : Fd} {next : AfterSend} (sound : v.Sound g)
    (ready : v.Ready r.entry) (owner : v.fd? r = some f) (coherent : next.Follows r) (message : ServerResponse)
    (follows : v.ledger.Follows message.unsent next)
    (h : ∀ w, w.Sound g → v.ledger.Queued w.ledger f (.response v.ledger.nextMessage) message.unsent → Q () w) :
    Acts g.Allows (sendResponse r message r.entry next io) Q v :=
  acts_sendResponse owner (sound.own.present owner) message next io fun _ queued _ =>
    h _ (sound_send sound ready owner coherent trivial queued follows) queued

theorem sounds_fastTransfer {rqst : ClientRequest} (sound : v.Sound g) (ready : v.Ready (.conn c))
    (routed : v.ledger.Routed c rqst) : Sounds g (fastTransfer c rqst io) v :=
  ready_sendRequest (r := .server c) sound ready ⟨rfl, trivial⟩ rqst rfl ⟨rfl, routed⟩ fun _ sound _ => sound

/-! ### Connecting -/

theorem sounds_connectToServer {host : Bytes} {next : AfterConnect} (sound : v.Sound g) (ready : v.Ready (.sock id))
    (asks : next.Asks host) : Sounds g (connectToServer id host next) v := by
  obtain ⟨e, live, idle⟩ := ready
  have owner : v.fd? (.sock id) = some e.client.fd := by simp [Registry.fd?, live]
  exact acts_connectToServer live (sound.own.present owner) host next trivial
    fun call => sound.request live idle host { call, next } asks

theorem sounds_reconnect {host : Bytes} {next : AfterConnect} (sound : v.Sound g) (ready : v.Ready (.conn c))
    (asks : next.Asks host) : Sounds g (reconnect c host next) v := by
  refine Acts.bind (ready_touch ready ?_)
  obtain ⟨l, live, established⟩ := id ready
  refine Acts.bind (acts_takeClient (fun e l' live' same => ?_) (fun closed => by simp [live] at closed))
  obtain rfl : l = l' := by simpa [live] using live'
  refine Acts.bind (acts_closeConnection (fun l' live' => ?_) (fun closed => by simp [setLink] at closed))
  obtain rfl : l.widow = l' := by simpa [setLink] using live'
  refine Acts.bind (acts_saveRegistration e _ (fun n entry here => ?_) (fun n fresh => ?_))
  · have unkeyed := sound.own.unkeyed live (n := n) here
    rwa [same] at unkeyed
  · have drops := Drops.eraseConnection sound.own live
    have owner : v.fd? (.client c) = some l.client.fd := by simp [Registry.fd?, live]
    obtain ⟨escaped, idle⟩ := (sound.closed drops ready).escaped sound.own live drops fresh (sound.confined owner)
    have present := sound.own.present owner
    obtain ⟨e', live', idle⟩ := idle
    obtain rfl : ⟨l.client.fd, l.client⟩ = e' := by simpa [Registry.addSocket] using live'
    rw [← same]
    refine acts_connectToServer (e := ⟨l.client.fd, l.client⟩) (by simp [Registry.addSocket]) present host next
      trivial fun call => ?_
    rw [escape_request rfl]
    exact escaped.request live' idle host { call, next } asks

/-- The client is given a socket of its own, and a response to be sent. -/
theorem acts_escapeClient {E : Fault → Prop} {Q : SocketId → Registry → Prop} {l : Link} (own : v.Owned)
    (live : v.connection c = some l) (h : ∀ n, v.socket n = none → Q n ((v.setLink c l.widow).addSocket n l.client)) :
    Acts E (escapeClient c) Q v := by
  refine Acts.bind (acts_takeClient (fun e l' live' same => ?_) (fun closed => by simp [live] at closed))
  obtain rfl : l = l' := by simpa [live] using live'
  refine acts_saveRegistration e _ (fun n entry here => ?_) (fun n fresh => ?_)
  · have unkeyed := own.unkeyed live (n := n) here
    rwa [same] at unkeyed
  · rw [← same]
    exact h n fresh

/-- A client that has left its connection, which was closed, is sent a response. -/
theorem sound_sendEscaped {w : Registry} {l : Link} {n : SocketId} {next : AfterSend} {d : Ledger}
    {ref : MessageRef} {bytes : Bytes} (closed : w.Sound g) (sound : v.Sound g) (live : v.connection c = some l)
    (fresh : v.socket n = none) (drops : Drops (· = .conn c) v w) (coherent : next.Follows (.sock n))
    (concerns : d.Concerns next ref) (queued : v.ledger.Queued d l.client.fd ref bytes)
    (follows : v.ledger.Follows bytes next) :
    (((w.addSocket n l.client).withLedger d).setHandler l.client.fd (.send (.sock n) ref (.sock n) next)).Sound g := by
  have owner : v.fd? (.client c) = some l.client.fd := by simp [Registry.fd?, live]
  obtain ⟨escaped, idle⟩ := closed.escaped sound.own live drops fresh (sound.confined owner)
  rw [← drops.ledger] at queued follows
  exact sound_send (r := .sock n) escaped idle fd?_addSocket_self coherent concerns queued follows

theorem acts_sendServerResponse {Q : Unit → Registry → Prop} {f : Fd} (sound : v.Sound g) (ready : v.Ready (.conn c))
    (client : v.fd? (.client c) = some f) (rqst : ClientRequest) (resp : ServerResponse)
    (connected : v.ledger.Connected c (rqst.getHeader.getProperty (lit "host")))
    (h : ∀ w, w.Sound g → v.ledger.Queued w.ledger f (.response v.ledger.nextMessage) resp.unsent → Q () w) :
    Acts g.Allows (sendServerResponse c rqst resp io) Q v := by
  refine Acts.bind (ready_touch ready ?_)
  obtain ⟨l, live, established⟩ := id ready
  obtain rfl : l.client.fd = f := by simpa [Registry.fd?, live] using client
  split
  · refine Acts.bind (acts_escapeClient sound.own live fun n fresh => ?_)
    refine Acts.bind (acts_closeConnection (fun l' live' => ?_) (fun closed => by simp [setLink, addSocket] at closed))
    obtain rfl : l.widow = l' := by simpa [setLink, addSocket] using live'
    have drops := Drops.eraseConnection sound.own live
    show Acts _ _ _ (((v.setLink c l.widow).eraseConnection c l.widow).addSocket n l.client)
    refine acts_sendResponse (f := l.client.fd) fd?_addSocket_self (sound.own.present client) resp _ io
      fun d queued _ => h _ ?_ queued
    have coherent : (AfterSend.closeSent n).Follows (.sock n) := ⟨rfl, trivial⟩
    have concerns : d.Concerns (.closeSent n) (.response v.ledger.nextMessage) := trivial
    have final := sound_sendEscaped (sound.closed drops ready) sound live fresh drops coherent concerns queued trivial
    show ((((((v.withLedger d).setLink c l.widow).eraseConnection c l.widow).addSocket n l.client).setHandler
      l.client.fd _)).Sound g
    rw [escape_setHandler]
    exact final
  · refine Acts.bind (ready_updateState (r := .server c) sound ready _ ?_)
    exact ready_sendResponse (r := .client c) sound ready client ⟨rfl, trivial⟩ resp connected h

theorem sounds_sendServerResponse {rqst : ClientRequest} (sound : v.Sound g) (ready : v.Ready (.conn c))
    (connected : v.ledger.Connected c (rqst.getHeader.getProperty (lit "host"))) (resp : ServerResponse) :
    Sounds g (sendServerResponse c rqst resp io) v := by
  obtain ⟨f, client⟩ := Ready.fd (r := .client c) ready
  exact acts_sendServerResponse sound ready client rqst resp connected fun _ sound _ => sound

theorem sounds_deleteCached {request : RequestHeader} {Q : Unit → Registry → Prop} (sound : v.Sound g)
    (h : ∀ d, (v.withLedger d).Sound g → d.trace = v.ledger.trace → Q () (v.withLedger d)) :
    Acts g.Allows (deleteCached request) Q v := by
  rintro s rfl
  simp only [deleteCached, wp_bind, wp_get]
  cases erased : s.cache.deleteCached request with
  | none => trivial
  | some cache =>
    refine h { s.view.ledger with cache } (sound.withLedger sound.isolated (fun _ _ _ relies => ?_) (fun _ _ hears => ?_)
      (sound.recorded.setCache fun held => sound.recorded.admitted (SimpleCache.entries_erase erased held))) rfl
    · exact relies.keep rfl (Nat.le_refl _) (.same fun _ _ => rfl)
    · exact hears.keep rfl (Nat.le_refl _) fun _ received => received

/-! ### Continuations -/

theorem sound_handled {d : Ledger} {rqst : ClientRequest} {held : Option CachedMessage} {f : Fd} {ref : MessageRef}
    {bytes : Bytes} (sound : v.Sound g) (queued : d.Queued v.ledger f ref bytes)
    (text : requestText rqst held = .ok bytes) : (v.withLedger (v.ledger.observe (.handled rqst held ref))).Sound g := by
  refine sound.withLedger (fun on => isolated_append (sound.isolated on) nofun)
    (fun _ _ _ relies => relies.observe (fun _ _ _ => nofun) fun _ _ _ _ => rfl) (fun _ _ hears => hears.observe fun _ => rfl) ?_
  refine sound.recorded.observe (fun _ _ _ => nofun) (fun _ _ _ => nofun) (fun _ _ => nofun) ?_
    (fun _ _ _ _ => nofun) fun _ _ _ => rfl
  rintro _ _ _ ⟨⟩
  exact ⟨f, bytes, queued.seen, text⟩

theorem sound_validated {rqst : ClientRequest} {cached resp : ServerResponse} {given : Option (Fd × MessageRef)}
    (sound : v.Sound g) (verified : v.ledger.Verified g.validates rqst cached resp given) :
    (v.withLedger (v.ledger.observe (.validated rqst cached resp given))).Sound g := by
  refine sound.withLedger (fun on => isolated_append (sound.isolated on) nofun)
    (fun _ _ _ relies => relies.observe (fun _ _ _ => nofun) fun _ _ _ _ => rfl) (fun _ _ hears => hears.observe fun _ => rfl) ?_
  refine sound.recorded.observe (fun _ _ _ => nofun) (fun _ _ _ => nofun) (fun _ _ => nofun) (fun _ _ _ => nofun) ?_
    fun _ _ _ => rfl
  rintro _ _ _ _ ⟨⟩
  exact verified

theorem sounds_handleClientRequest {rqst : ClientRequest} (sound : v.Sound g) (ready : v.Ready (.conn c))
    (routed : v.ledger.Routed c rqst) : Sounds g (handleClientRequest rqst c io) v := by
  refine Acts.get fun s same => ?_
  subst same
  split
  · exact Acts.throw trivial
  · rename_i request cached plan
    refine Acts.bind (ready_touch ready ?_)
    obtain ⟨value, found, parsed, get, rfl⟩ := planRequest_validate plan
    refine Acts.bind (ready_sendRequest (r := .server c) sound ready ?_ _ rfl ?_ fun w sound queued => ?_)
    · exact ⟨rfl, rfl, rfl⟩
    · obtain ⟨rqst', resp, seen, url, rfl, _⟩ := sound.recorded.admitted (SimpleCache.lookup_entries found)
      exact ⟨⟨rqst', resp, seen, url.symm, parsed⟩, unsent_validate rqst cached, routed⟩
    · refine acts_observe _ (sound_handled sound queued ?_)
      rw [unsent_validate, found, requestText, if_pos get, parsed, Except.map]
  · obtain ⟨f, client⟩ := Ready.fd (r := .client c) ready
    exact ready_sendResponse (r := .client c) sound ready client ⟨rfl, trivial⟩ _ trivial fun _ sound _ => sound
  · rename_i plan
    refine Acts.bind (ready_sendRequest (r := .server c) sound ready ⟨rfl, trivial⟩ rqst rfl ⟨rfl, routed⟩
      fun w sound queued => ?_)
    exact acts_observe _ (sound_handled sound queued (planRequest_transfer plan))

theorem sounds_handleValidationResponse {rqst : ClientRequest} {cached resp : ServerResponse} {k : Nat} (sound : v.Sound g)
    (ready : v.Ready (.conn c)) (asked : v.ledger.Asked rqst cached) (routed : v.ledger.Routed c rqst)
    (told : v.ledger.Told c k (validationText rqst cached)) (validates : g.validates cached c k rqst resp) :
    Sounds g (handleValidationResponse c rqst cached resp io) v := by
  refine Acts.bind (ready_touch ready ?_)
  have refused : validationVerdict resp ≠ .sendCached →
      (v.withLedger (v.ledger.observe (.validated rqst cached resp none))).Sound g := fun verdict =>
    sound_validated sound ⟨asked, ⟨c, k, told, validates⟩, by simp [verdict], nofun⟩
  split
  · rename_i valid
    obtain ⟨f, client⟩ := Ready.fd (r := .client c) ready
    refine Acts.bind (acts_getElem (fun e here => ?_) fun closed => by simp [client] at closed)
    obtain rfl : f = e.fd := by simpa [client] using here
    refine Acts.get fun s same => ?_
    subst same
    refine Acts.bind (acts_sendServerResponse sound ready client rqst cached routed.connected
      fun w sound queued => ?_)
    refine acts_observe _ (sound_validated sound ?_)
    refine ⟨asked.mono queued.grows, ⟨c, k, told.mono queued.grows, validates⟩, by simp [valid], ?_⟩
    rintro _ _ ⟨⟩
    obtain ⟨_, resp, _, _, parsed⟩ := asked.stocked
    rw [← BufferedMessage.unsent_ofCache parsed]
    exact queued.seen
  · rename_i verdict
    refine Acts.bind (acts_observe _ (Acts.bind (sounds_deleteCached (refused (by simp [verdict])) fun _ sound _ => ?_)))
    exact sounds_reconnect sound (ready_withLedger.mpr ready) ⟨rfl, routed.whole⟩
  · rename_i verdict
    refine Acts.bind (acts_observe _ (Acts.bind (sounds_deleteCached (refused (by simp [verdict])) fun _ sound trace => ?_)))
    refine sounds_fastTransfer sound (ready_withLedger.mpr ready) (routed.mono ?_)
    rw [withLedger_ledger, trace]
    exact List.subset_append_left _ _

theorem sounds_requestReused {oldHost : Bytes} {rqst : ClientRequest} (sound : v.Sound g)
    (ready : v.Ready (.conn c)) (connected : v.ledger.Connected c oldHost) (whole : rqst.Whole) :
    Sounds g (requestReused c oldHost rqst io) v := by
  refine Acts.bind (ready_touch ready ?_)
  split
  · rename_i same
    exact sounds_handleClientRequest sound ready ⟨same ▸ connected, whole⟩
  · exact sounds_reconnect sound ready ⟨rfl, whole⟩

theorem sounds_reuseConnection {oldHost : Bytes} (sound : v.Sound g) (ready : v.Ready (.conn c))
    (connected : v.ledger.Connected c oldHost) : Sounds g (reuseConnection c oldHost io) v := by
  refine Acts.bind (ready_touch ready ?_)
  refine Acts.bind (ready_update (r := .server c) sound ready ?_ _ fun f sound keeps => ?_)
  · exact ⟨rfl, trivial, trivial, fun _ _ => trivial, fun _ => nofun⟩
  · exact sounds_readRequest (r := .client c) sound (keeps _ ready) rfl BufferedMessage.gathered_new connected

theorem sounds_handleConnect (sound : v.Sound g) (ready : v.Ready (.conn c)) : Sounds g (handleConnect c) v := by
  refine Acts.bind (ready_touch ready ?_)
  refine Acts.bind (acts_newRaw (Acts.bind (acts_newRaw ?_)))
  have distinct : v.ledger.nextMessage ≠ v.ledger.nextMessage + 1 := Nat.ne_of_lt (Nat.lt_succ_self _)
  have ready : ∀ d, (v.withLedger d).Ready (.conn c) := fun d => ready_withLedger.mpr ready
  refine Acts.bind (ready_update (r := .server c) sound.newRaw.newRaw (ready _) ?_ _ fun f sound keeps => ?_)
  · exact ⟨rfl, distinct.symm, trivial, fun _ _ => trivial, fun _ => nofun⟩
  · refine sounds_update (r := .client c) sound (keeps _ (ready _)) ?_ _
    exact ⟨rfl, distinct, trivial, fun _ _ => trivial, fun _ => nofun⟩

theorem sounds_startTransfer {rqst : ClientRequest} (sound : v.Sound g) (ready : v.Ready (.conn c))
    (routed : v.ledger.Routed c rqst) (unanswered : v.ledger.Unanswered c rqst.unsent) :
    Sounds g (startTransfer c rqst) v := by
  refine Acts.bind (acts_newResponse _ ?_)
  have ready : ∀ d, (v.withLedger d).Ready (.conn c) := fun d => ready_withLedger.mpr ready
  have reading : ∀ resp, (v.ledger.newMessage.setResponse v.ledger.nextMessage resp).Reading
      (.response v.ledger.nextMessage) := fun _ => sound.recorded.reading rfl rfl rfl
  refine Acts.bind (ready_update (r := .server c) (sound.newResponse .new) (ready _) ?_ _ fun f sound keeps => ?_)
  · refine ⟨rfl, trivial, trivial, fun _ _ => ⟨reading .new, routed.mono (List.Subset.refl _)⟩, ?_⟩
    rintro l ⟨⟩
    exact Sound.listens ‹v.Sound g› rfl (BufferedMessage.received_new []) unanswered
  · refine sounds_update (r := .client c) sound (keeps _ (ready _)) ?_ _
    exact ⟨rfl, trivial, trivial, fun _ _ => reading .new, fun _ => nofun⟩

theorem sounds_afterConnect {next : AfterConnect} (sound : v.Sound g) (ready : v.Ready (.conn c))
    (routed : v.ledger.Routed c next.request) : Sounds g (next.run c io) v := by
  cases next with
  | handleClientRequest rqst => exact sounds_handleClientRequest sound ready routed
  | fastTransfer rqst => exact sounds_fastTransfer sound ready routed

theorem sounds_afterRequest {next : AfterRequest} {rqst : ClientRequest} (sound : v.Sound g)
    (ready : v.Ready next.source.entry) (resumes : v.ledger.Resumes next) (whole : rqst.Whole) :
    Sounds g (next.run rqst io) v := by
  cases next with
  | firstRequestRead client => exact sounds_connectToServer sound ready ⟨rfl, whole⟩
  | reuse conn oldHost => exact sounds_requestReused sound ready resumes whole

theorem sounds_closeEntry (it : EntryRef) (sound : v.Sound g) (ready : v.Ready it) : Sounds g (close it) v :=
  (sounds_close sound ready).mono fun _ _ closed => closed.1

theorem sounds_afterSend (sound : v.Sound g) {next : AfterSend} (ready : v.Ready r.entry) (coherent : next.Follows r)
    (proceeds : v.ledger.Proceeds next) : Sounds g (next.run io) v := by
  obtain ⟨rfl, more⟩ := coherent
  cases next with
  | readResponse dest iterator next =>
    obtain ⟨same, named⟩ := more
    obtain rfl : iterator = dest.entry := same
    exact Acts.bind (ready_touch ready (sounds_readResponse sound ready named proceeds))
  | startTransfer conn rqst => exact sounds_startTransfer sound ready proceeds.1 proceeds.2
  | reuseConnection conn oldHost => exact sounds_reuseConnection sound ready proceeds
  | handleConnect conn => exact sounds_handleConnect sound ready
  | closeSent id => exact Acts.bind (ready_touch ready (sounds_closeEntry (.sock id) sound ready))
  | close404 id => exact sounds_closeEntry (.sock id) sound ready

end Proxy

end ProxyServer
