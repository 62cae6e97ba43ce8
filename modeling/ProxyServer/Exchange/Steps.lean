import ProxyServer.Exchange.Events

/-!
# What steps make of the exchanges

Every event leaves a connection where calls of its exchanges do: an event of the connection
makes one of them or none, and others change what is cached, or close it.
-/

namespace ProxyServer

open Wp

/-! ### The side that is not waited for -/

section

variable {p : Batch} {c : ConnId} {h : Handler} {x x' : Watch} {m : MsgId}

theorem Stage.connecting_of_output {ip : ResolvedIp} (stage : Stage p c h x (.serverConnect c ip) x')
    (output : p.output x'.fd = true) : ∃ socket host, h = .connecting c socket host := by
  cases stage with
  | connecting => exact ⟨_, _, rfl⟩
  | answering left unread => cases left
  | establishing ready =>
    cases ready with
    | established f ip unwritten => cases unwritten.symm.trans output

theorem Stage.leftClient {next : AfterSend}
    (stage : Stage p c h x (.send (.server c) (.request m) (.conn c) next) x') : h.LeftClient p c x.fd := by
  cases stage with
  | asking left asks unwritten => exact left
  | answering left unread => cases left
  | establishing ready => cases ready

theorem Stage.leftClient_validating {next : AfterResponse} (rests : h.Rests c)
    (stage : Stage p c h x (.readResponse (.server c) m (.conn c) next) x') : h.LeftClient p c x.fd := by
  cases stage with
  | validating left => exact left
  | answering left unread => cases rests
  | establishing ready => cases ready

theorem Stage.leftServer {host : Bytes}
    (stage : Stage p c (.send (.client c) (.response m) (.conn c) (.reuseConnection c host)) x h x') :
    h.LeftServer c ∧ p.input x'.fd = false := by
  cases stage with
  | asking left asks unwritten => cases left
  | validating left => cases left
  | answering left unread => exact ⟨left, unread⟩

end

namespace Proxy

open Registry

variable {a : ConnId → Nat → Answer} {v : Registry} {c : ConnId} {f g : Fd} {base : Began} {k : KeptAlive} {h : Handler}
  {io : Io} {state : FdState} {p : Batch}

/-- What was reported before there was no interest in it is not read. -/
theorem not_readsOn (unread : p.input f = false) (dispatched : p f = some state) : readsOn state io = false := by
  rw [Batch.input, dispatched, Option.any_some] at unread
  rw [readsOn, is_input, unread, Bool.and_false]

theorem calls_leftClient (follows : v.Follows a c f base k) (own : v.Owned) (client : v.fd? (.client c) = some f)
    (left : h.LeftClient p c f) (dispatched : p f = some state) : Calls a c f base k (h.run state io) v := by
  have present := own.present client
  cases left with
  | connecting socket host =>
    apply Acts.whenever
    · intro _
      apply Acts.bind
      apply acts_touch _ (fun _ => trivial)
      intro _
      apply Acts.bind
      apply acts_erasePending
      apply acts_closeConnection _ (fun _ => trivial)
      intro l live
      have live : v.connection c = some l := live
      have same : l.client.fd = f := by simpa [Registry.fd?, live] using client
      have released : ((v.unpend (socket, host)).eraseConnection c l).handlers f = none :=
        if_pos ⟨same.symm, same ▸ present⟩
      exact follows.lost ⟨if_pos rfl, fun _ _ => unanswered_of_none released, rfl, Nat.le_refl _, rfl⟩
    · exact fun _ => follows.stays
  | read m host unread =>
    apply any_onReadable
    · exact goes_logAndClose follows present client rfl
    · exact follows.stays
    · intro reads
      rw [not_readsOn unread dispatched] at reads
      cases reads

theorem calls_leftServer (follows : v.Follows a c f base k) (own : v.Owned) (client : v.fd? (.client c) = some f)
    (left : h.LeftServer c) (unread : p.input g = false) (dispatched : p g = some state) :
    Calls a c f base k (h.run state io) v := by
  have present := own.present client
  have silent : readsOn state io = false := not_readsOn unread dispatched
  cases left with
  | transferred rqst m =>
    apply any_onReadable
    · exact goes_logAndClose follows present client rfl
    · exact follows.stays
    · intro reads
      rw [silent] at reads
      cases reads
  | read m next =>
    apply any_onReadable
    · exact goes_logAndClose follows present client rfl
    · exact follows.stays
    · intro reads
      rw [silent] at reads
      cases reads

theorem calls_reused (follows : v.Follows a c f base k) (own : v.Owned) (client : v.fd? (.client c) = some f) :
    Calls a c f base k ((Handler.reused c).run state io) v := by
  apply Acts.whenever
  · intro _
    exact (goes_logAndClose (r := .client c) follows (own.present client) client rfl).mono fun _ _ closed => closed.1
  · exact fun _ => follows.stays

/-! ### The handlers of a connection -/

/-- The handlers of the two sides are those of a stage. -/
def Paired (p : Batch) (v : Registry) (c : ConnId) : Prop :=
  ∀ f f' h h', v.fd? (.client c) = some f → v.fd? (.server c) = some f' → v.handlers f = some h →
    v.handlers f' = some h' → ∃ e e', Stage p c h ⟨f, e⟩ h' ⟨f', e'⟩

theorem calls_client (follows : v.Follows a c f base k) (going : ¬k.phase.Over) (own : v.Owned) (paired : Paired p v c)
    (client : v.fd? (.client c) = some f) (installed : v.handlers f = some h) (dispatched : p f = some state) :
    Calls a c f base k (h.run state io) v := by
  have present := own.present client
  have placed := follows.placed
  generalize phase : k.phase = at_ at placed going
  cases placed with
  | awaiting here server =>
    cases installed.symm.trans here
    apply any_onReadable
    · exact goes_logAndClose follows present client rfl
    · exact follows.stays
    · exact fun _ => calls_receiveRequest follows phase own here
  | sending here rests server message =>
    cases installed.symm.trans here
    obtain ⟨e, e', stage⟩ := paired _ _ _ _ client (own.owns server).2 here server
    exact calls_leftClient follows own client stage.leftClient dispatched
  | validating here rests server message =>
    cases installed.symm.trans here
    obtain ⟨e, e', stage⟩ := paired _ _ _ _ client (own.owns server).2 here server
    exact calls_leftClient follows own client (stage.leftClient_validating rests) dispatched
  | @transferring f' m rqst resp here server message =>
    cases installed.symm.trans here
    subst message
    apply any_onWritable (fun w => (w.ledger.responses m).canWrite)
    · exact goes_logAndClose (r := .client c) follows present client rfl
    · exact follows.stays
    · intro w R ready
      apply Acts.get
      intro s same
      subst same
      exact Acts.pure ready
    · exact fun ready => calls_transferOut follows phase own here server ready
  | answering here message =>
    cases installed.symm.trans here
    subst message
    apply any_onWritable (fun _ => true)
    · exact goes_logAndClose (r := .client c) follows present client rfl
    · exact follows.stays
    · exact fun w R ready => Acts.pure ready
    · exact fun _ => calls_transmitResponse follows phase own here
  | closing gone here message => simp [Registry.fd?, gone] at client
  | reconnecting gone here => exact absurd trivial going
  | left gone unanswered => exact absurd trivial going
  | establishing here => exact absurd trivial going

theorem calls_server (follows : v.Follows a c f base k) (going : ¬k.phase.Over) (own : v.Owned) (paired : Paired p v c)
    (client : v.fd? (.client c) = some f) (server : v.fd? (.server c) = some g) (installed : v.handlers g = some h)
    (dispatched : p g = some state)
    (speaks : ∀ bytes, h.hears v.ledger.responses state io = some (c, bytes) → v.Speaks a c bytes) :
    Calls a c f base k (h.run state io) v := by
  have present := own.present client
  have placed := follows.placed
  have same : ∀ {f' h'}, v.handlers f' = some h' → v.owner h' = .server c → f' = g ∧ h = h' := by
    intro f' h' there owner
    have owner' := (own.owns there).2
    rw [owner, server] at owner'
    cases owner'
    exact ⟨rfl, Option.some.inj (installed.symm.trans there)⟩
  generalize phase : k.phase = at_ at placed going
  cases placed with
  | awaiting here there =>
    obtain ⟨rfl, rfl⟩ := same there rfl
    exact calls_reused follows own client
  | sending here rests there message =>
    obtain ⟨rfl, rfl⟩ := same there rfl
    subst message
    apply any_onWritable (r := .server c) (fun _ => true)
    · exact goes_logAndClose follows present client rfl
    · exact follows.stays
    · exact fun w R ready => Acts.pure ready
    · exact fun _ => calls_transmitRequest follows phase own here rests there
  | validating here rests there message =>
    obtain ⟨rfl, rfl⟩ := same there rfl
    subst message
    apply any_onReadable (r := .server c)
    · exact goes_logAndClose follows present client rfl
    · exact follows.stays
    · intro reads
      apply calls_receiveResponse follows phase own here rests there
      intro bytes read
      apply speaks
      simp only [Handler.hears, read, reads, if_true]
  | transferring here there message =>
    obtain ⟨rfl, rfl⟩ := same there rfl
    subst message
    apply any_onReadable (r := .server c)
    · exact goes_logAndClose follows present client rfl
    · exact follows.stays
    · intro reads
      apply calls_transferIn follows phase own here there
      intro bytes read
      apply speaks
      simp only [Handler.hears, read, reads, if_true]
  | answering here message =>
    obtain ⟨e, e', stage⟩ := paired _ _ _ _ client server here installed
    obtain ⟨left, unread⟩ := stage.leftServer
    exact calls_leftServer follows own client left unread dispatched
  | closing gone here message => simp [Registry.fd?, gone] at client
  | reconnecting gone here => exact absurd trivial going
  | left gone unanswered => exact absurd trivial going
  | establishing here => exact absurd trivial going

/-- The client of a connection that was closed. -/
theorem calls_closing (follows : v.Follows a c f base k) (going : ¬k.phase.Over) (own : v.Owned)
    (gone : v.connection c = none) (installed : v.handlers f = some h) : Calls a c f base k (h.run state io) v := by
  have placed := follows.placed
  have dead : ∀ {f' h'}, v.handlers f' = some h' → (v.owner h').entry ≠ .conn c := by
    intro f' h' there same
    have owner := (own.owns there).2
    cases element : v.owner h' with
    | sock id =>
      rw [element] at same
      cases same
    | client c' =>
      rw [element] at same owner
      cases same
      simp [Registry.fd?, gone] at owner
    | server c' =>
      rw [element] at same owner
      cases same
      simp [Registry.fd?, gone] at owner
  generalize phase : k.phase = at_ at placed going
  cases placed with
  | awaiting here there => exact absurd rfl (dead there)
  | sending here rests there message => exact absurd rfl (dead there)
  | validating here rests there message => exact absurd rfl (dead there)
  | transferring here there message => exact absurd rfl (dead there)
  | answering here message => exact absurd rfl (dead here)
  | @closing n m rqst resp certified gone here message =>
    cases installed.symm.trans here
    subst message
    apply any_onWritable (r := .sock n) (fun _ => true)
    · exact goes_closeSocket follows gone own (own.owns here).2
    · exact follows.stays
    · exact fun w R ready => Acts.pure ready
    · exact fun _ => calls_transmitLast follows phase own gone here
  | reconnecting gone here => exact absurd trivial going
  | left gone unanswered => exact absurd trivial going
  | establishing here => exact absurd trivial going

end Proxy

/-! ### Events that are for others -/

namespace Registry

variable {v w : Registry} {c : ConnId} {f : Fd} {phase : ExchangePhase}

/-- The entry is the connection, or that of its client. -/
def Belongs (v : Registry) (c : ConnId) (f : Fd) (it : EntryRef) : Prop :=
  it = .conn c ∨ ∃ r : ElemRef, r.entry = it ∧ v.fd? r = some f

theorem Placed.client (placed : v.Placed c f phase) (going : ¬phase.Over) : ∃ h, v.handlers f = some h ∧
    (v.owner h = .client c ∨ v.connection c = none ∧ ∃ n, v.owner h = .sock n) := by
  cases placed with
  | awaiting client server => exact ⟨_, client, Or.inl rfl⟩
  | sending client rests server message => exact ⟨_, client, Or.inl rests.owner⟩
  | validating client rests server message => exact ⟨_, client, Or.inl rests.owner⟩
  | transferring client server message => exact ⟨_, client, Or.inl rfl⟩
  | answering client message => exact ⟨_, client, Or.inl rfl⟩
  | closing gone client message => exact ⟨_, client, Or.inr ⟨gone, _, rfl⟩⟩
  | reconnecting gone client => exact absurd trivial going
  | left gone unanswered => exact absurd trivial going
  | establishing client => exact absurd trivial going

/-- The handlers of the connection and its client stay, with their messages. -/
theorem Placed.kept (placed : v.Placed c f phase) (going : ¬phase.Over) (gone : v.connection c = none → w.connection c = none)
    (kept : ∀ {g h}, v.handlers g = some h → (v.owner h).entry = .conn c ∨ g = f → w.handlers g = some h ∧
      ∀ n, h.Holds (v.owner h).entry n →
        w.ledger.requests n = v.ledger.requests n ∧ w.ledger.responses n = v.ledger.responses n) : w.Placed c f phase := by
  cases placed with
  | awaiting client server => exact .awaiting (kept client (Or.inr rfl)).1 (kept server (Or.inl rfl)).1
  | sending client rests server message =>
    obtain ⟨installed, same⟩ := kept server (Or.inl rfl)
    exact .sending (kept client (Or.inr rfl)).1 rests installed ((same _ ⟨rfl, rfl⟩).1.trans message)
  | validating client rests server message =>
    obtain ⟨installed, same⟩ := kept server (Or.inl rfl)
    exact .validating (kept client (Or.inr rfl)).1 rests installed ((same _ ⟨rfl, rfl⟩).2.trans message)
  | transferring client server message =>
    obtain ⟨installed, same⟩ := kept server (Or.inl rfl)
    exact .transferring (kept client (Or.inr rfl)).1 installed ((same _ ⟨rfl, rfl⟩).2.trans message)
  | answering client message =>
    obtain ⟨installed, same⟩ := kept client (Or.inr rfl)
    exact .answering installed ((same _ ⟨rfl, rfl⟩).2.trans message)
  | closing here client message =>
    obtain ⟨installed, same⟩ := kept client (Or.inr rfl)
    exact .closing (gone here) installed ((same _ ⟨rfl, rfl⟩).2.trans message)
  | reconnecting gone client => exact absurd trivial going
  | left gone unanswered => exact absurd trivial going
  | establishing client => exact absurd trivial going

end Registry

namespace Proxy

open Registry

variable {a : ConnId → Nat → Answer} {s t : Proxy} {c : ConnId} {f g : Fd} {base : Began} {k : KeptAlive} {event : Event}
  {it : EntryRef} {ticked : Nat} {r : ElemRef} {p : Batch}

theorem known_of_fd (owner : s.view.fd? r = some f) : s.roster.Known r.entry := by
  apply known_of_live
  rw [← view_alive]
  cases alive : s.view.alive r.entry with
  | true => rfl
  | false =>
    rw [fd_of_closed alive] at owner
    cases owner

/-- The exchanges see of the events of others what they leave in the cache. -/
theorem follows_elsewhere (regular : Regular s) (follows : s.view.Follows a c f base k) (going : ¬k.phase.Over)
    (others : ∀ it, s.view.Belongs c f it → s.concerns it event = false) (stepped : s.step event = .ok t) :
    t.view.Goes a c f base k := by
  have conn := others (.conn c) (Or.inl rfl)
  have known : s.roster.Known (.conn c) := follows.tracks.known
  obtain ⟨untouched, known'⟩ := step_untouched regular known conn stepped
  obtain ⟨said, givenServer⟩ := step_unsaid regular known conn stepped
  have same : t.view.connection c = s.view.connection c := congrArg (Option.map Connection.view) (untouched.connection c rfl)
  obtain ⟨h, client, _⟩ := follows.placed.client going
  have owner := (regular.sound.own.owns client).2
  have other := others _ (Or.inr ⟨_, rfl, owner⟩)
  have untouched' := (step_untouched regular (known_of_fd owner) other stepped).1
  have givenClient := (step_unsaid regular (known_of_fd owner) other stepped).2 f (mem_fds.mpr (has_iff.mpr ⟨_, rfl, owner⟩))
  have shared : k.step (.share t.cache) = .ok { k with cache := t.cache } := rfl
  apply Follows.called shared
  constructor
  · apply follows.placed.kept going
    · exact fun gone => same.trans gone
    · intro g h' installed here
      have owner' := (regular.sound.own.owns installed).2
      have member : g ∈ s.fds (s.view.owner h').entry := mem_fds.mpr (has_iff.mpr ⟨_, rfl, owner'⟩)
      have untouched : Untouched s t (s.view.owner h').entry := by
        rcases here with here | rfl
        · rw [here]
          exact untouched
        · cases installed.symm.trans client
          exact untouched'
      constructor
      · exact (untouched.handlers g member).trans installed
      · intro n held
        obtain ⟨request, response, _⟩ := untouched.messages g member h' n installed held
        exact ⟨request, response⟩
  · constructor
    · rfl
    · intro live
      rw [same] at live
      have said : dialogue t.view.ledger.trace c = dialogue s.view.ledger.trace c := said c rfl
      rw [said]
      exact follows.tracks.heard live
    · intro f' server
      have server : s.view.fd? (.server c) = some f' := by
        rw [← server]
        exact congrArg (Option.map Link.server) same.symm
      show ∃ since, givenTo t.trace f' = base.server ++ since ∧ _
      rw [givenServer f' (mem_fds.mpr (has_iff.mpr ⟨_, rfl, server⟩))]
      exact follows.tracks.asked f' server
    · exact known'
  · show Given _ _ (givenTo t.trace f) _
    rw [givenClient]
    exact follows.given
  · exact follows.answered

/-! ### The timer -/

theorem follows_swept (regular : Regular s) (swept' : Regular (s.elapse ticked)) (follows : s.view.Follows a c f base k)
    (going : ¬k.phase.Over) (belongs : s.view.Belongs c f it) (swept : s.sweeps ticked it = true) :
    (s.elapse ticked).view.Goes a c f base k := by
  have closed := swept_closed swept
  obtain ⟨h, client, place⟩ := follows.placed.client going
  have owner := (regular.sound.own.owns client).2
  have here : (s.view.owner h).entry = it := by
    rcases belongs with rfl | ⟨r, rfl, owner'⟩
    · rcases place with same | ⟨gone, n, same⟩
      · rw [same]
        rfl
      · obtain ⟨conn, live, _⟩ := (Option.any_eq_true _ _).mp swept
        simp [view, live] at gone
    · rw [regular.sound.own.unique owner owner']
  have gone : (s.elapse ticked).view.connection c = none := by
    rcases place with same | ⟨gone, n, same⟩
    · rw [← here, same] at closed
      have closed : ((s.elapse ticked).connections.get c).isSome = false := closed
      show ((s.elapse ticked).connections.get c).map _ = none
      rw [Option.not_isSome_iff_eq_none.mp (Bool.eq_false_iff.mp closed)]
      rfl
    · cases live : (s.elapse ticked).connections.get c with
      | none =>
        show ((s.elapse ticked).connections.get c).map _ = none
        rw [live]
        rfl
      | some conn =>
        have before := (Store.get_keep.mp live).1
        simp only [view, Option.map_eq_none_iff] at gone
        cases gone.symm.trans before
  have released : (s.elapse ticked).view.handlers f = none := by
    cases installed : (s.elapse ticked).handlers f with
    | none => exact installed
    | some h' =>
      have owner' := (swept'.sound.own.owns installed).2
      obtain ⟨r, same, before⟩ := has_iff.mp (elapse_has (has_iff.mpr ⟨_, rfl, owner'⟩))
      have entry : ((s.elapse ticked).view.owner h').entry = it := by
        rw [← same, regular.sound.own.unique before owner, here]
      have dead : (s.elapse ticked).view.alive ((s.elapse ticked).view.owner h').entry = false := by
        rw [entry, view_alive]
        exact closed
      rw [fd_of_closed dead] at owner'
      cases owner'
  exact follows.lost ⟨gone, fun _ _ => unanswered_of_none released, rfl, Nat.le_refl _, rfl⟩

/-! ### The resolver -/

section

variable {v u : Registry} {io : Io} {state : FdState} {key : Fd × Bytes} {id : SocketId}

theorem loses_send404 (silent : Silent c v.ledger u.ledger) (cache : u.ledger.cache = v.ledger.cache)
    (gone : u.connection c = none) (owner : u.fd? (.sock id) = some f) (present : f ≠ 0) :
    Acts Any (send404 id io) (fun _ w => v.Loses w c f) u := by
  apply acts_sendResponse owner present
  intro d queued _
  have silent := silent.trans (silent_queued queued)
  constructor
  · exact gone
  · intro n m same
    cases Eq.trans (if_pos rfl).symm same
  · exact queued.cache.trans cache
  · exact Nat.le_of_eq silent.connections.symm
  · exact silent.given f

/-- A result for a client whose connection was closed sends it a 404, or to a server. -/
theorem calls_notifier (follows : v.Follows a c f base k) (own : v.Owned) (queued : v.resolving[io.resolved]? = some key)
    (pending : (v.onResolve key).isSome = true) (owner : v.fd? r = some key.1)
    (here : r.entry = .conn c ∨ v.connection c = none ∧ key.1 = f) : Calls a c f base k (onNotifier state io) v := by
  apply Acts.whenever
  · intro _
    apply Acts.get
    intro _ _
    apply Acts.bind (acts_service _ trivial _)
    apply Acts.bind (acts_newDescriptor io trivial _ (fun _ => Acts.throw trivial))
    intro d _ opened _
    apply Acts.bind (acts_getIp trivial _)
    intro ip answer _
    obtain rfl : (ip.socket, ip.host) = key := by
      rw [queued] at answer
      simpa [eq_comm] using answer
    apply Acts.get
    intro s same
    apply Acts.get
    intro s' same'
    have query : s'.onResolve = v.onResolve := congrArg Registry.onResolve same'
    obtain ⟨q, found⟩ := Option.isSome_iff_exists.mp pending
    rw [query, found]
    apply Acts.bind (acts_derefClient (fun _ => trivial) _)
    intro id client
    obtain ⟨e, live, keyed⟩ := (findId_view (d := ip.socket) same).1 id client
    have live : v.socket id = some e := live
    have socket : e.client.fd = ip.socket := by rw [← keyed, own.keyed live]
    have owner' : v.fd? (.sock id) = some ip.socket := by simp [Registry.fd?, live, socket]
    have present := own.present owner'
    obtain rfl := own.unique owner owner'
    obtain ⟨gone, rfl⟩ : v.connection c = none ∧ ip.socket = f := here.resolve_left fun same => by cases same
    split
    · apply Acts.bind
      apply acts_erasePending
      have silent : Silent c v.ledger v.ledger := .same rfl rfl
      exact (loses_send404 (u := (v.dequeue (v.resolving.eraseIdx io.resolved)).unpend (ip.socket, ip.host)) silent rfl gone owner
        present).mono fun _ _ loses => follows.lost loses
    · apply Acts.bind
      apply acts_observe
      have silent : Silent c v.ledger (v.ledger.observe (.attempted d ip.getIp)) := silent_observe (fun _ => rfl) fun _ => rfl
      split
      · apply Acts.bind
        have sent : ((v.dequeue (v.resolving.eraseIdx io.resolved)).withLedger
            (v.ledger.observe (.attempted d ip.getIp))).fd? (.sock id) = some ip.socket := by rwa [fd?_withLedger]
        apply (loses_send404 (u := (v.dequeue (v.resolving.eraseIdx io.resolved)).withLedger
          (v.ledger.observe (.attempted d ip.getIp))) silent rfl gone sent present).mono
        intro _ w loses
        exact acts_erasePending _ (follows.lost (loses.unpend _))
      · have moved := (own.dequeue (v.resolving.eraseIdx io.resolved)).withLedger (v.ledger.observe (.attempted d ip.getIp))
        apply acts_startConnection moved live opened
        intro c' new _
        have other : c ≠ c' := by
          rintro rfl
          exact absurd follows.tracks.known (Nat.not_lt_of_le (Nat.le_of_eq new.symm))
        apply follows.lost
        constructor
        · exact (if_neg other).trans gone
        · intro n m installed
          have installed : (if ip.socket = d then some (Handler.serverConnect c' (ip.copy io.unset)) else
            if ip.socket = e.client.fd then some (.connecting c' ip.socket ip.host) else v.handlers ip.socket) =
              some (.send (.sock n) m (.sock n) (.closeSent n)) := installed
          rw [if_pos socket.symm] at installed
          split at installed
          · cases installed
          · cases installed
        · rfl
        · exact Nat.le_succ _
        · exact (givenTo_append _ _ _).trans ((List.append_nil _).trans (silent.given _))
  · exact fun _ => follows.stays

end

/-! ### Steps -/

/-- A read of a server returns something. -/
def readsSome (s : Proxy) (event : Event) : Bool :=
  (s.handlers event.fd).all fun h => (h.hears s.responses event.state event.io).all fun (_, bytes) => bytes ≠ []

theorem speaks_of_reads {h : Handler} {bytes : Bytes} (answers : s.readsAnswers (fun c n => (a c n).bytes) event = true)
    (some_ : s.readsSome event = true) (installed : s.handlers event.fd = some h)
    (hears : h.hears s.responses event.state event.io = some (c, bytes)) : s.view.Speaks a c bytes := by
  simp only [readsSome, installed, hears, Option.all_some, decide_eq_true_eq] at some_
  simp only [readsAnswers, installed, hears, Option.all_some, List.isPrefixOf_iff_prefix] at answers
  exact ⟨some_, answers⟩

theorem hears_cases (heard : s.hears it event = true) :
    (∃ h, s.handlers event.fd = some h ∧ event.fd ∈ s.fds it) ∨
      s.handlers event.fd = some .notifier ∧ ∃ key, s.resolving[event.io.resolved]? = some key ∧
        (s.onResolve key).isSome = true ∧ key.1 ∈ s.fds it := by
  unfold hears at heard
  split at heard
  · rename_i installed
    obtain ⟨key, queued, both⟩ := (Option.any_eq_true _ _).mp heard
    rw [Bool.and_eq_true, decide_eq_true_eq] at both
    exact Or.inr ⟨installed, key, queued, both⟩
  · cases heard
  · cases heard
  · rename_i h _ _ _ installed
    exact Or.inl ⟨h, installed, of_decide_eq_true heard⟩
  · cases heard

/-- The entry of the client is its connection, or the socket that it is answered by when that was closed. -/
theorem belongs_cases (own : s.view.Owned) (follows : s.view.Follows a c f base k) (going : ¬k.phase.Over)
    (belongs : s.view.Belongs c f it) (owner : s.view.fd? r = some g) (here : r.entry = it) :
    s.view.fd? (.client c) = some f ∧ (r = .client c ∨ r = .server c) ∨ s.view.connection c = none ∧ g = f := by
  obtain ⟨h, client, place⟩ := follows.placed.client going
  have client := (own.owns client).2
  have inside : r.entry = .conn c → r = .client c ∨ r = .server c := by
    intro same
    cases r with
    | sock id => cases same
    | client c' =>
      cases same
      exact Or.inl rfl
    | server c' =>
      cases same
      exact Or.inr rfl
  rcases place with same | ⟨gone, n, same⟩
  · rw [same] at client
    refine Or.inl ⟨client, ?_⟩
    rcases belongs with rfl | ⟨r', rfl, owner'⟩
    · exact inside here
    · obtain rfl := own.unique owner' client
      exact inside here
  · rw [same] at client
    refine Or.inr ⟨gone, ?_⟩
    rcases belongs with rfl | ⟨r', rfl, owner'⟩
    · rcases inside here with rfl | rfl
      · simp [Registry.fd?, gone] at owner
      · simp [Registry.fd?, gone] at owner
    · obtain rfl := own.unique owner' client
      cases r with
      | sock id =>
        cases here
        exact Option.some.inj (owner.symm.trans client)
      | client c' => cases here
      | server c' => cases here

theorem paired_of_staged (staged : s.board.Staged p) : Paired p s.view c := by
  intro f f' h h' client server installed installed'
  obtain ⟨⟨_, e⟩, owner, rfl⟩ := elem_of_fd client
  obtain ⟨⟨_, e'⟩, owner', rfl⟩ := elem_of_fd server
  obtain ⟨h₁, h₁', there, there', stage⟩ := staged (.conn c) _ _ owner owner'
  cases installed.symm.trans there
  cases installed'.symm.trans there'
  exact ⟨e, e', stage⟩

/-- A step of the server is one of its exchanges: none or one of their calls leads to where it
leaves the connection. -/
theorem follows_step (regular : Regular s) (staged : s.board.Staged p) (dispatched : p event.fd = some event.state)
    (answers : s.readsAnswers (fun c n => (a c n).bytes) event = true) (some_ : s.readsSome event = true)
    (follows : s.view.Follows a c f base k) (going : ¬k.phase.Over) (stepped : s.step event = .ok t) :
    t.view.Goes a c f base k := by
  have own := regular.sound.own
  by_cases others : ∀ it, s.view.Belongs c f it → s.concerns it event = false
  · exact follows_elsewhere regular follows going others stepped
  · obtain ⟨it, concerned⟩ := not_forall.mp others
    obtain ⟨belongs, concerned⟩ := Classical.not_imp.mp concerned
    rcases Bool.or_eq_true_iff.mp (Bool.eq_true_of_not_eq_false concerned) with heard | expires
    · rcases hears_cases heard with ⟨h, installed, member⟩ | ⟨notifier, key, queued, pending, member⟩
      · obtain ⟨r, here, owner⟩ := has_iff.mp (mem_fds.mp member)
        rcases belongs_cases own follows going belongs owner here with ⟨client, side⟩ | ⟨gone, same⟩
        · rcases side with rfl | rfl
          · obtain rfl : event.fd = f := Option.some.inj (owner.symm.trans client)
            have calls : Calls a c event.fd base k (h.run event.state event.io) s.view :=
              calls_client follows going own (paired_of_staged staged) client installed dispatched
            exact step_acts installed calls stepped
          · have calls := calls_server follows going own (paired_of_staged staged) client owner installed dispatched
              fun bytes hears => speaks_of_reads answers some_ installed hears
            exact step_acts installed calls stepped
        · rw [same] at installed
          exact step_acts (same ▸ installed) (calls_closing follows going own gone installed) stepped
      · obtain ⟨r, here, owner⟩ := has_iff.mp (mem_fds.mp member)
        have where_ : r.entry = .conn c ∨ s.view.connection c = none ∧ key.1 = f := by
          apply (belongs_cases own follows going belongs owner here).imp_left
          rintro ⟨client, rfl | rfl⟩
          · rfl
          · rfl
        have calls : Calls a c f base k (onNotifier event.state event.io) s.view :=
          calls_notifier follows own queued pending owner where_
        exact step_acts notifier calls stepped
    · split at expires
      · rename_i timer
        obtain ⟨input, swept⟩ := Bool.and_eq_true_iff.mp expires
        have after := timer_step timer stepped
        rw [if_pos input] at after
        subst after
        exact follows_swept regular (regular.step stepped) follows going belongs swept
      · cases expires

end Proxy

end ProxyServer
