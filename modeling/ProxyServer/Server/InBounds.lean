import ProxyServer.Server.Manifest

/-!
# In bounds

No handler writes a message beyond its parts or follows an iterator of the cache that is not
valid, whatever is reported to it. What ends the server otherwise is explained by the event:
a system call that fails, or a header that cannot be parsed.
-/

namespace ProxyServer

open Wp

/-! ### Exceptions that no handler catches -/

/-- `read_from` throws what no handler catches. -/
def BufferedMessage.escapes {L : Type} [Line L] (m : BufferedMessage L) (io : Io) : Bool :=
  io.read.any fun bytes => !(m.readFrom (bytes.take m.shouldRead)).isOk

namespace Proxy

/-- FIONREAD or SO_ERROR cannot be read. -/
def readingRaises (state : FdState) (io : Io) : Bool :=
  (state.is .RDHUP && io.canRead.isNone) || (staysReadable state io && state.is hupOrError && io.soError.isNone)

def writingRaises (state : FdState) (io : Io) : Bool := !state.is .RDHUP && state.is hupOrError && io.soError.isNone

end Proxy

/-- The handler throws what nobody catches. -/
def Handler.raises (h : Handler) (requests : MsgId → ClientRequest) (responses : MsgId → ServerResponse)
    (state : FdState) (io : Io) : Bool :=
  match h with
  | .readRequest _ m _ _ => Proxy.readingRaises state io || (Proxy.readsOn state io && (requests m).escapes io)
  | .readResponse _ m _ _ => Proxy.readingRaises state io || (Proxy.readsOn state io && (responses m).escapes io)
  | .transferServer _ _ m => Proxy.readingRaises state io || (Proxy.readsOn state io && (responses m).escapes io)
  | .send .. => Proxy.writingRaises state io
  | .transferClient .. => Proxy.writingRaises state io
  | .serverConnect .. => Proxy.writingRaises state io
  | .notifier => state.is .IN && io.newFd.isNone
  | _ => false

namespace Proxy

def raises (s : Proxy) (event : Event) : Bool :=
  (s.handlers event.fd).any (·.raises s.requests s.responses event.state event.io)

/-- `get_ip` has a result. -/
def resultReady (s : Proxy) (event : Event) : Bool :=
  match s.handlers event.fd with
  | some .notifier => !event.state.is .IN || event.io.resolved < s.resolving.length
  | _ => true

/-- What `accept` or `socket` returns was not open. -/
def opensFresh (s : Proxy) (event : Event) : Bool := (s.opened event).all fun fd => fd ≠ 0 && !s.owned fd

def possible (s : Proxy) (event : Event) : Bool := s.opensFresh event && s.resultReady event

/-- How a step may fail. -/
def Explains (s : Proxy) (event : Event) : Fault → Prop
  | .outOfBounds => False
  | .cache => False
  | .uncaught => s.raises event = true
  | .disabled => s.possible event = false
  | _ => True

end Proxy

namespace Manifest

variable {m : Manifest}

variable {h : Handler} {k : MsgId} {f : Fd}

theorem Bears.setRequest (bears : m.Bears h) (apart : ∀ dest it next, h ≠ .send dest (.request k) it next)
    (rqst : ClientRequest) : Bears { m with requests := fun id => if id = k then rqst else m.requests id } h := by
  cases h with
  | send dest ref iterator next =>
    obtain ⟨known, sendable, laden⟩ := bears
    refine ⟨known, ?_, laden⟩
    cases ref with
    | request id =>
      have other : id ≠ k := fun same => apart dest iterator next (by rw [same])
      show (if id = k then rqst else m.requests id).Sendable
      rw [if_neg other]
      exact sendable
    | response id => exact sendable
  | readResponse source message iterator next => exact bears
  | transferServer conn rqst' resp => exact bears
  | _ => trivial

theorem Bears.setResponse {resp : ServerResponse} (bears : m.Bears h)
    (apart : ∀ dest it next, h ≠ .send dest (.response k) it next)
    (streams : ∀ c rqst, h = .transferServer c rqst k → (m.responses k).Streams → resp.Streams) :
    Bears { m with responses := fun id => if id = k then resp else m.responses id } h := by
  cases h with
  | send dest ref iterator next =>
    obtain ⟨known, sendable, laden⟩ := bears
    refine ⟨known, ?_, laden⟩
    cases ref with
    | request id => exact sendable
    | response id =>
      have other : id ≠ k := fun same => apart dest iterator next (by rw [same])
      show (if id = k then resp else m.responses id).Sendable
      rw [if_neg other]
      exact sendable
  | transferServer conn rqst id =>
    obtain ⟨known, streaming, sendable⟩ := bears
    refine ⟨known, ?_, sendable⟩
    show (if id = k then resp else m.responses id).Streams
    split
    · rename_i same
      subst same
      exact streams conn rqst rfl streaming
    · exact streaming
  | readResponse source message iterator next => exact bears
  | _ => trivial

/-- No handler sends the message. -/
def Unsent (m : Manifest) (ref : MessageRef) : Prop :=
  ∀ {f dest ref' it next}, m.handlers f = some (.send dest ref' it next) → ref' ≠ ref

theorem Unsent.apart {ref : MessageRef} (unsent : m.Unsent ref) (installed : m.handlers f = some h) (dest : ElemRef)
    (it : EntryRef) (next : AfterSend) : h ≠ .send dest ref it next := by
  rintro rfl
  exact unsent installed rfl

theorem Stowed.setRequest (stowed : m.Stowed) (unsent : m.Unsent (.request k)) (rqst : ClientRequest) :
    Stowed { m with requests := fun id => if id = k then rqst else m.requests id } where
  bears installed := (stowed.bears installed).setRequest (unsent.apart installed) rqst
  pending := stowed.pending
  cache := stowed.cache

/-- A response that is transferred goes on with its transfer. -/
theorem Stowed.setResponse {resp : ServerResponse} (stowed : m.Stowed) (unsent : m.Unsent (.response k))
    (streams : (m.responses k).Streams → resp.Streams) :
    Stowed { m with responses := fun id => if id = k then resp else m.responses id } where
  bears installed := (stowed.bears installed).setResponse (unsent.apart installed) fun _ _ _ => streams
  pending := stowed.pending
  cache := stowed.cache

/-- The handler of the descriptor sends, and it is the only one that may not bear its message. -/
structure StowedBut (m : Manifest) (f : Fd) : Prop where
  sends : ∃ dest ref it next, m.handlers f = some (.send dest ref it next)
  bears : ∀ {g h}, g ≠ f → m.handlers g = some h → m.Bears h
  pending : ∀ {key q}, m.onResolve key = some q → q.next.request.Sendable
  cache : m.cache.Orderly

theorem StowedBut.stowed (but : m.StowedBut f) (bears : ∀ h, m.handlers f = some h → m.Bears h) : m.Stowed where
  bears := by
    intro g h installed
    by_cases here : g = f
    · exact bears h (here ▸ installed)
    · exact but.bears here installed
  pending := but.pending
  cache := but.cache

/-- When the handler is gone, all that are left bear their messages. -/
theorem StowedBut.grows {m' : Manifest} (but : m.StowedBut f) (grows : Grows m m')
    (gone : ∀ dest ref it next, m'.handlers f ≠ some (.send dest ref it next)) : m'.Stowed where
  bears := by
    intro g h installed
    rcases grows.handlers installed with before | bears
    · by_cases here : g = f
      · subst here
        obtain ⟨dest, ref, it, next, sends⟩ := but.sends
        rw [sends] at before
        cases before
        exact absurd installed (gone dest ref it next)
      · exact grows.bears (but.bears here before)
    · exact bears
  pending found := (grows.pending found).elim but.pending id
  cache := grows.cache

end Manifest

namespace Registry.Sound

variable {v : Registry} {f g : Fd}

/-- A message that is read is not sent by a handler. -/
theorem unsent {ref : MessageRef} (sound : v.Sound {}) (reading : v.ledger.Reading ref) : v.manifest.Unsent ref := by
  intro f dest ref' it next installed same
  obtain ⟨-, bytes, seen, -⟩ := sound.relies (f := f) installed
  rw [same] at seen
  exact reading.apart f bytes seen

/-- The message that a handler sends is its own. -/
theorem only {dest dest' : ElemRef} {it it' : EntryRef} {ref : MessageRef} {next next' : AfterSend} (sound : v.Sound {})
    (installed : v.handlers f = some (.send dest ref it next))
    (installed' : v.handlers g = some (.send dest' ref it' next')) : g = f := by
  obtain ⟨-, bytes, seen, -⟩ := sound.relies (f := f) installed
  obtain ⟨-, bytes', seen', -⟩ := sound.relies (f := g) installed'
  exact ((sound.recorded.sending seen).once g bytes' seen').1

/-- And no transfer reads it. -/
theorem unread {dest : ElemRef} {it : EntryRef} {c : ConnId} {k k' : MsgId} {next : AfterSend} {rqst : ClientRequest}
    (sound : v.Sound {}) (installed : v.handlers f = some (.send dest (.response k) it next))
    (installed' : v.handlers g = some (.transferServer c rqst k')) : k' ≠ k := by
  rintro rfl
  obtain ⟨-, bytes, seen, -⟩ := sound.relies (f := f) installed
  obtain ⟨reading, -⟩ := sound.relies (f := g) installed'
  exact reading.apart f bytes seen

end Registry.Sound

namespace Proxy

open Registry

variable {E : Fault → Prop} {v : Registry} {r : ElemRef} {it : EntryRef} {id : SocketId} {c : ConnId} {io : Io}
  {state : FdState} {f : Fd} {rqst : ClientRequest} {resp : ServerResponse}

/-- `x` keeps the messages fit for what is done with them. -/
abbrev Stows (E : Fault → Prop) (x : ProxyM Unit) (v : Registry) : Prop :=
  Acts E x (fun _ w => w.manifest.Stowed) v

theorem Growing.stows {x : ProxyM Unit} (growing : Growing E x) (stowed : v.manifest.Stowed) : Stows E x v := by
  rintro s rfl
  exact wp_mono (fun _ t grows => stowed.grows grows) (growing s stowed.cache)

theorem Acts.and {α : Type} {x : ProxyM α} {Q Q' : α → Registry → Prop} (h : Acts E x Q v)
    (also : Acts (fun _ => True) x Q' v) : Acts E x (fun a w => Q a w ∧ Q' a w) v :=
  fun s same => wp_and (h s same) (also s same)

theorem acts_closed : Acts (fun _ => True) (logAndClose it) (fun _ w => w.alive it = false) v := by
  refine Acts.bind (acts_touch (fun _ => acts_close ?_ ?_ fun _ => trivial) fun _ => trivial)
  · rintro id e rfl live
    simp [Registry.alive, eraseSocket]
  · rintro c l rfl live
    simp [Registry.alive, eraseConnection]

theorem acts_closesFailed (lenient : Lenient E) (stowed : v.manifest.Stowed) (raises : io.soError = none → E .uncaught) :
    Acts E (closeFailed it io) (fun _ w => w.manifest.Stowed ∧ w.alive it = false) v := by
  unfold closeFailed
  cases code : io.soError with
  | none => exact Acts.throw (raises code)
  | some _ => exact ((growing_logAndClose lenient).stows stowed).and acts_closed

theorem acts_getElem_gone {Q : EpollElem → Registry → Prop} (lenient : Lenient E) (closed : v.alive r.entry = false) :
    Acts E (getElem r) Q v := by
  refine acts_getElem (fun e owner => ?_) fun _ => lenient.closed _
  rw [fd_of_closed closed] at owner
  cases owner

theorem stows_onReadable {receive : ProxyM Unit} (lenient : Lenient E) (stowed : v.manifest.Stowed)
    (raises : readingRaises state io = true → E .uncaught) (received : readsOn state io = true → Stows E receive v) :
    Stows E (onReadable r r.entry state io receive) v := by
  have closes : Stows E (logAndClose r.entry) v := (growing_logAndClose lenient).stows stowed
  refine Acts.bind (acts_getElem (fun _ _ => ?_) fun _ => lenient.closed _)
  refine Acts.bind (acts_setActive ?_ fun _ => lenient.closed _)
  have rest : staysReadable state io = true → Stows E (do
      whenever (state.is hupOrError) (closeFailed r.entry io)
      whenever (state.is .IN) do
        let _ ← getElem r
        receive) v := by
    intro stays
    refine Acts.bind (Acts.whenever (fun failed => ?_) fun sane => ?_)
    · refine (acts_closesFailed lenient stowed fun code => raises ?_).mono fun _ w both => ?_
      · simp [readingRaises, stays, failed, code]
      · exact Acts.whenever (fun _ => Acts.bind (acts_getElem_gone lenient both.2)) fun _ => both.1
    · refine Acts.whenever (fun input => ?_) fun _ => stowed
      refine Acts.bind (acts_getElem (fun _ _ => received ?_) fun _ => lenient.closed _)
      simp [readsOn, sane, stays, input]
  unfold hungUp
  cases hup : state.is .RDHUP with
  | false => exact Acts.bind (Acts.pure (rest (by simp [staysReadable, hup])))
  | true =>
    cases left : io.canRead with
    | none => exact Acts.bind (Acts.throw (raises (by simp [readingRaises, hup, left])))
    | some n =>
      refine Acts.bind (Acts.pure ?_)
      by_cases empty : n = 0
      · simpa [empty] using closes
      · simpa [empty] using rest (by simp [staysReadable, left, empty])

theorem stows_onWritable {isReady : ProxyM Bool} {transmit : ProxyM Unit} (lenient : Lenient E) (stowed : v.manifest.Stowed)
    (raises : writingRaises state io = true → E .uncaught)
    (asks : ∀ (w : Registry) (Q : Bool → Registry → Prop), (∀ b, (w = v → b = true → Stows E transmit v) → Q b w) →
      Acts E isReady Q w) :
    Stows E (onWritable r r.entry state io isReady transmit) v := by
  refine Acts.bind (acts_getElem (fun _ _ => ?_) fun _ => lenient.closed _)
  refine Acts.bind (acts_setActive ?_ fun _ => lenient.closed _)
  split
  · exact (growing_logAndClose lenient).stows stowed
  · rename_i stays
    refine Acts.bind (Acts.whenever (fun failed => ?_) fun sane => ?_)
    · refine (acts_closesFailed lenient stowed fun code => raises ?_).mono fun _ w both => ?_
      · simp [writingRaises, stays, failed, code]
      · refine Acts.bind (asks w _ fun b _ => ?_)
        exact Acts.whenever (fun _ => Acts.bind (acts_getElem_gone lenient both.2)) fun _ => both.1
    · refine Acts.bind (asks v _ fun b ready => ?_)
      refine Acts.whenever (fun output => ?_) fun _ => stowed
      exact Acts.bind (acts_getElem (fun _ _ => ready rfl (Bool.and_eq_true_iff.mp output).2) fun _ => lenient.closed _)

/-! ### Reading -/

/-- What is read of a message that is read without an exception. -/
theorem acts_reads {L : Type} [Line L] {m : BufferedMessage L} {Q : Option (BufferedMessage L) → Registry → Prop}
    (lenient : Lenient E) (escapes : m.escapes io = true → E .uncaught) (failed : Q none v)
    (h : ∀ (bytes : Bytes) m', m.readFrom (bytes.take m.shouldRead) = .ok m' →
      Q (some m') (v.withLedger (v.ledger.observe (.read r (bytes.take m.shouldRead))))) :
    Acts E (readMessage r m io) Q v := by
  refine Acts.bind (acts_getElem (fun _ _ => ?_) fun _ => lenient.closed _)
  cases read : io.read with
  | none => exact Acts.pure failed
  | some bytes =>
    cases result : m.readFrom (bytes.take m.shouldRead) with
    | ok m' =>
      simp only [result]
      exact Acts.bind (acts_observe _ (Acts.pure (h bytes m' result)))
    | error e =>
      have escaped : E .uncaught := escapes (by simp [BufferedMessage.escapes, read, result, Except.isOk, Except.toBool])
      simp only [result]
      cases e with
      | annotated what => exact Acts.pure failed
      | _ => exact Acts.throw escaped

theorem stows_receiveRequest {k : MsgId} {next : AfterRequest} (lenient : Lenient E) (sound : v.Sound {})
    (stowed : v.manifest.Stowed) (reading : v.ledger.Reading (.request k)) (gathered : (v.ledger.requests k).Gathered)
    (escapes : (v.ledger.requests k).escapes io = true → E .uncaught) :
    Stows E (receiveRequest r k it next io) v := by
  refine Acts.get fun s same => Acts.bind ?_
  subst same
  refine acts_reads lenient escapes ((growing_logAndClose lenient).stows stowed) fun bytes m' read => ?_
  have collected : m'.Gathered := BufferedMessage.Gathered.readFrom gathered (List.length_take_le _ _) read
  refine Acts.bind (acts_setRequest k m' ?_)
  have kept := stowed.setRequest (sound.unsent reading) m'
  refine Acts.whenever (fun isRead => ?_) fun _ => kept
  exact Growing.stows ((idle_updateState lenient).before fun _ =>
    growing_afterRequest lenient ((collected.sendable isRead).transferred io.garbage)) kept

theorem stows_receiveResponse {k : MsgId} {next : AfterResponse} (lenient : Lenient E) (sound : v.Sound {})
    (stowed : v.manifest.Stowed) (reading : v.ledger.Reading (.response k)) (laden : next.Laden)
    (escapes : (v.ledger.responses k).escapes io = true → E .uncaught) :
    Stows E (receiveResponse r k it next io) v := by
  refine Acts.get fun s same => Acts.bind ?_
  subst same
  refine acts_reads lenient escapes ((growing_logAndClose lenient).stows stowed) fun bytes m' read => ?_
  refine Acts.bind (acts_setResponse k m' ?_)
  have after : (s.responses k).Streams → m'.Streams := fun streams => streams.read read
  have kept := stowed.setResponse (sound.unsent reading) after
  refine Acts.whenever (fun _ => ?_) fun _ => kept
  exact Growing.stows ((idle_updateState lenient).before fun _ => growing_afterResponse lenient laden) kept

theorem growing_saveTransferred (restorable : Restorable resp.getCache) : Growing E (saveTransferred rqst resp) := by
  intro s cache
  simp only [saveTransferred, wp_bind, wp_get]
  obtain ⟨cache', saved, orderly⟩ : ∃ cache', s.cache.saveIfAllowed rqst resp = some cache' ∧ cache'.Orderly :=
    cache.saveIfAllowed restorable
  rw [saved]
  exact ⟨Or.inl, Or.inl, orderly, fun _ => rfl, fun _ => rfl, Nat.le_refl _⟩

theorem stows_transferIn {k : MsgId} (lenient : Lenient E) (sound : v.Sound {}) (stowed : v.manifest.Stowed)
    (reading : v.ledger.Reading (.response k)) (streams : (v.ledger.responses k).Streams)
    (escapes : (v.ledger.responses k).escapes io = true → E .uncaught) :
    Stows E (transferIn c rqst k io) v := by
  refine Acts.get fun s same => Acts.bind ?_
  subst same
  refine acts_reads lenient escapes ((growing_logAndClose lenient).stows stowed) fun bytes m' read => ?_
  refine Acts.bind (acts_setResponse k m' ?_)
  have after : (s.responses k).Streams → m'.Streams := fun streams => streams.read read
  have kept := stowed.setResponse (sound.unsent reading) after
  refine Growing.stows ?_ kept
  refine growing_bind (growing_whenever fun _ => (idle_updateState lenient).growing) fun _ => growing_whenever fun isRead => ?_
  refine growing_bind (growing_saveTransferred ((after streams).restorable isRead)) fun _ => ?_
  exact growing_sendServerResponse lenient ((streams.sendable read isRead).transferred io.garbage)

/-! ### Writing -/

theorem acts_writes {L : Type} {m : BufferedMessage L} {ref : MessageRef} {Q : Option (BufferedMessage L) → Registry → Prop}
    (lenient : Lenient E) (inside : m.curPart < m.cache.length) (failed : Q none v)
    (h : ∀ (f : Fd) accepted (bytes : Bytes) m', m.writeTo accepted = some (bytes, m') →
      Q (some m') (v.withLedger (v.ledger.observe (.wrote f ref bytes)))) : Acts E (writeMessage r ref m io) Q v := by
  refine Acts.bind (acts_getElem (fun e _ => ?_) fun _ => lenient.closed _)
  cases write : io.write with
  | none =>
    simp only [if_pos inside]
    exact Acts.pure failed
  | some accepted =>
    obtain ⟨bytes, m', written⟩ := BufferedMessage.writeTo_of_lt inside accepted
    simp only [written]
    exact Acts.bind (acts_observe _ (Acts.pure (h e.fd accepted bytes m' written)))

theorem stows_transferOut {k : MsgId} (lenient : Lenient E) (sound : v.Sound {}) (stowed : v.manifest.Stowed)
    (reading : v.ledger.Reading (.response k)) (canWrite : (v.ledger.responses k).canWrite = true) :
    Stows E (transferOut c k io) v := by
  refine Acts.get fun s same => Acts.bind ?_
  subst same
  refine acts_writes lenient (BufferedMessage.lt_of_canWrite canWrite) ((growing_logAndClose lenient).stows stowed) ?_
  intro f accepted bytes m' written
  refine Acts.bind (acts_setResponse k m' ?_)
  have after : (s.responses k).Streams → m'.Streams := fun streams => streams.write canWrite written
  have kept := stowed.setResponse (sound.unsent reading) after
  exact Growing.stows (growing_whenever fun _ => (idle_getElem lenient).before fun _ => (idle_updateState lenient).growing)
    kept

/-- The handler of the descriptor does not send. -/
def Quits (f : Fd) (v : Registry) : Prop := ∀ dest ref it next, v.handlers f ≠ some (.send dest ref it next)

theorem quits_setHandler {h : Handler} {g : Fd} (other : ∀ dest ref it next, h ≠ .send dest ref it next)
    (quits : g = f ∨ Quits f v) : Quits f (v.setHandler g h) := by
  intro dest ref it next installed
  simp only [Registry.setHandler] at installed
  split at installed
  · cases installed
    exact other dest ref it next rfl
  · rename_i apart
    rcases quits with same | quits
    · exact apart same.symm
    · exact quits dest ref it next installed

theorem quits_update {h : Handler} (own : v.Owned) (other : ∀ dest ref it next, h ≠ .send dest ref it next)
    (quits : v.fd? r = some f ∨ Quits f v) : Acts (fun _ => True) (update r state h) (fun _ w => Quits f w) v := by
  refine acts_update _ _ (fun g owner => quits_setHandler other ?_) (fun zero => own.present zero rfl) fun _ => trivial
  exact quits.imp_left fun here => Option.some.inj (owner.symm.trans here)

theorem quits_closeSocket (own : v.Owned) (owner : v.fd? (.sock id) = some f) :
    Acts (fun _ => True) (closeSocket id) (fun _ w => Quits f w) v := by
  refine acts_closeSocket (fun e live dest ref it next installed => ?_) fun _ => trivial
  obtain rfl : e.client.fd = f := by simpa [Registry.fd?, live] using owner
  exact (release_handlers.mp installed).2 ⟨rfl, own.present owner⟩

/-- When a message is sent, its handler is replaced or erased. -/
theorem quits_afterSend {next : AfterSend} (own : v.Owned) (follows : next.Follows r) (owner : v.fd? r = some f) :
    Acts (fun _ => True) (next.run io) (fun _ w => Quits f w) v := by
  obtain ⟨rfl, -⟩ := follows
  cases next with
  | readResponse dest iterator next =>
    refine Acts.bind (acts_touch (fun _ => Acts.bind (acts_newResponse _ ?_)) fun _ => trivial)
    change v.fd? dest = some f at owner
    exact quits_update (own.withLedger _) nofun (Or.inl (by simpa using owner))
  | startTransfer conn rqst =>
    change v.fd? (.server conn) = some f at owner
    refine Acts.bind (acts_newResponse _ (Acts.bind ?_))
    have own := own.withLedger (v.ledger.newMessage.setResponse v.ledger.nextMessage .new)
    refine acts_update _ _ (fun g owner' => ?_) (fun zero => own.present zero rfl) fun _ => trivial
    have same : g = f := Option.some.inj (owner'.symm.trans (by simpa using owner))
    refine acts_update _ _ (fun _ _ => quits_setHandler nofun (Or.inr (quits_setHandler nofun (Or.inl same)))) ?_ fun _ => trivial
    intro zero
    rw [fd?_setHandler] at zero
    exact own.present zero rfl
  | reuseConnection conn oldHost =>
    refine Acts.bind (acts_touch (fun _ => Acts.bind ?_) fun _ => trivial)
    refine acts_update _ _ (fun g owner' => ?_) (fun zero => own.present zero rfl) fun _ => trivial
    refine Acts.bind (acts_newRequest _ ?_)
    refine acts_update _ _ (fun g' here => quits_setHandler nofun (Or.inl ?_)) ?_ fun _ => trivial
    · rw [fd?_withLedger, fd?_setHandler] at here
      exact Option.some.inj (here.symm.trans owner)
    · intro zero
      rw [fd?_withLedger, fd?_setHandler] at zero
      exact own.present zero rfl
  | handleConnect conn =>
    refine Acts.bind (acts_touch (fun _ => Acts.bind (acts_newRaw (Acts.bind (acts_newRaw (Acts.bind ?_))))) fun _ => trivial)
    refine acts_update _ _ (fun g owner' => ?_) (fun zero => ?_) fun _ => trivial
    · refine acts_update _ _ (fun g' here => quits_setHandler nofun (Or.inl ?_)) ?_ fun _ => trivial
      · rw [fd?_setHandler, fd?_withLedger, fd?_withLedger] at here
        exact Option.some.inj (here.symm.trans owner)
      · intro zero
        rw [fd?_setHandler, fd?_withLedger, fd?_withLedger] at zero
        exact own.present zero rfl
    · rw [fd?_withLedger, fd?_withLedger] at zero
      exact own.present zero rfl
  | closeSent it => exact Acts.bind (acts_touch (fun _ => quits_closeSocket own owner) fun _ => trivial)
  | close404 client => exact quits_closeSocket own owner

/-- What is left to do when `write_to` has returned. -/
theorem acts_writesRef {dest : ElemRef} {ref : MessageRef} {next : AfterSend} {Q : Option Bool → Registry → Prop}
    (lenient : Lenient E) (sound : v.Sound {}) (stowed : v.manifest.Stowed)
    (installed : v.handlers f = some (.send dest ref it next)) (failed : Q none v)
    (h : ∀ done d, (v.withLedger d).manifest.StowedBut f → (done = false → (v.withLedger d).manifest.Stowed) →
      Q (some done) (v.withLedger d)) : Acts E (writeRef dest ref io) Q v := by
  obtain ⟨known, sendable, laden⟩ := stowed.bears (f := f) installed
  cases ref with
  | request k =>
    refine Acts.get fun s same => Acts.bind ?_
    subst same
    refine acts_writes lenient sendable.inside (Acts.pure failed) fun g accepted bytes m' written => ?_
    refine Acts.bind (acts_setRequest k m' (Acts.pure ?_))
    have but : Manifest.StowedBut { s.manifest with requests := fun id => if id = k then m' else s.requests id } f := by
      refine ⟨⟨_, _, _, _, installed⟩, fun {g h} other here => ?_, stowed.pending, stowed.cache⟩
      refine (stowed.bears here).setRequest (fun dest' it' next' same => ?_) m'
      subst same
      exact other (sound.only installed here)
    refine h _ _ but fun unwritten => but.stowed fun h here => ?_
    obtain rfl : Handler.send dest (.request k) it next = h := Option.some.inj (installed.symm.trans here)
    refine ⟨known, ?_, laden⟩
    show (if k = k then m' else s.requests k).Sendable
    rw [if_pos rfl]
    exact sendable.writeTo written unwritten
  | response k =>
    refine Acts.get fun s same => Acts.bind ?_
    subst same
    refine acts_writes lenient sendable.inside (Acts.pure failed) fun g accepted bytes m' written => ?_
    refine Acts.bind (acts_setResponse k m' (Acts.pure ?_))
    have but : Manifest.StowedBut { s.manifest with responses := fun id => if id = k then m' else s.responses id } f := by
      refine ⟨⟨_, _, _, _, installed⟩, fun {g h} other here => ?_, stowed.pending, stowed.cache⟩
      refine (stowed.bears here).setResponse (fun dest' it' next' same => ?_) fun c rqst same => ?_
      · subst same
        exact absurd (sound.only installed here) other
      · subst same
        exact absurd rfl (sound.unread installed here)
    refine h _ _ but fun unwritten => but.stowed fun h here => ?_
    obtain rfl : Handler.send dest (.response k) it next = h := Option.some.inj (installed.symm.trans here)
    refine ⟨known, ?_, laden⟩
    show (if k = k then m' else s.responses k).Sendable
    rw [if_pos rfl]
    exact sendable.writeTo written unwritten

theorem stows_transmitMessage {ref : MessageRef} {next : AfterSend} (lenient : Lenient E) (sound : v.Sound {})
    (stowed : v.manifest.Stowed) (installed : v.handlers f = some (.send r ref it next)) (follows : next.Follows r) :
    Stows E (transmitMessage r ref it next io) v := by
  have owner : v.fd? r = some f := (sound.own.owns installed).2
  have laden : next.Laden := (stowed.bears (f := f) installed).2.2
  refine Acts.bind (acts_writesRef lenient sound stowed installed ?_ fun done d but kept => ?_)
  · exact (growing_logAndClose lenient).stows stowed
  · refine Acts.whenever (fun _ => ?_) kept
    have quits : Acts (fun _ => True) (next.run io) (fun _ w => Quits f w)
        ((v.withLedger d).withLedger (d.observe (.delivered r ref))) :=
      quits_afterSend ((sound.own.withLedger d).withLedger _) follows (by simpa using owner)
    have grows : Growing E (next.run io) := growing_afterSend lenient laden
    refine Acts.bind (acts_observe _ ?_)
    refine Acts.bind (acts_updateState _ ?_ (fun zero => ?_) fun _ => lenient.closed _)
    · intro s same
      have but : s.manifest.StowedBut f := by
        show s.view.manifest.StowedBut f
        rw [same]
        exact but
      exact wp_mono (fun _ t both => but.grows both.1 both.2) (wp_and (grows s but.cache) (quits s same))
    · exact sound.own.present (r := r) (by simpa using zero) rfl

end Proxy

end ProxyServer
