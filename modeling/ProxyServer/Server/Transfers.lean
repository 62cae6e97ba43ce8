import ProxyServer.Server.Continuations
import ProxyServer.Server.Hazards

/-!
# What transfers keep

The handlers that read, send, and transfer between the client and the server.
-/

namespace ProxyServer

open Wp

namespace Proxy

open Registry

variable {g : Guard} {v : Registry} {r : ElemRef} {it : EntryRef} {id : SocketId} {c : ConnId} {io : Io}
  {state : FdState}

theorem acts_logAndClose {Q : Unit → Registry → Prop} (sound : v.Sound g) (ready : v.Ready it)
    (h : ∀ w, w.Sound g → w.alive it = false → w.ledger = v.ledger → Q () w) :
    Acts g.Allows (logAndClose it) Q v :=
  Acts.bind (ready_touch ready ((sounds_close sound ready).mono fun _ w closed =>
    h w closed.1 closed.2.1 closed.2.2))

theorem sounds_logAndClose (sound : v.Sound g) (ready : v.Ready it) : Sounds g (logAndClose it) v :=
  acts_logAndClose sound ready fun _ sound _ _ => sound

theorem acts_closeFailed {Q : Unit → Registry → Prop} (sound : v.Sound g) (ready : v.Ready it)
    (h : io.soError.isSome = true → ∀ w, w.Sound g → w.alive it = false → w.ledger = v.ledger → Q () w) :
    Acts g.Allows (closeFailed it io) Q v := by
  unfold closeFailed
  cases code : io.soError with
  | none => exact Acts.throw trivial
  | some _ => exact acts_logAndClose sound ready (h (by simp [code]))

theorem acts_getElem_closed {Q : EpollElem → Registry → Prop} (closed : v.alive r.entry = false)
    (allowed : ¬g.closes) : Acts g.Allows (getElem r) Q v :=
  acts_getElem (fun e owner => by simp [fd_of_closed closed] at owner) fun _ => allowed

theorem acts_hungUp {E : Fault → Prop} {Q : Bool → Registry → Prop} (uncaught : E .uncaught) (gone : Q true v)
    (stays : staysReadable state io = true → Q false v) : Acts E (hungUp state io) Q v := by
  unfold hungUp
  unfold staysReadable at stays
  split
  · cases left : io.canRead with
    | none => exact Acts.throw uncaught
    | some n =>
      refine Acts.pure ?_
      by_cases empty : n = 0
      · simpa [empty] using gone
      · simpa [empty] using stays (by simp [left, empty])
  · exact Acts.pure (stays (by simp_all))

theorem sounds_onReadable {receive : ProxyM Unit} (sound : v.Sound g) (ready : v.Ready r.entry)
    (safe : g.closes → readsClosed state io = false)
    (received : readsOn state io = true → Sounds g receive v) :
    Sounds g (onReadable r r.entry state io receive) v := by
  refine Acts.bind (ready_getElem ready fun _ => Acts.bind (ready_setActive ready ?_))
  refine Acts.bind (acts_hungUp trivial ?_ fun stays => ?_)
  · exact sounds_logAndClose sound ready
  · refine Acts.bind (Acts.whenever (fun failed => ?_) fun _ => ?_)
    · refine acts_closeFailed sound ready fun code w sound closed _ => ?_
      refine Acts.whenever (fun input => Acts.bind (acts_getElem_closed closed fun on => ?_)) fun _ => sound
      have never := safe on
      simp [readsClosed, fallsThrough, failed, code, stays, input] at never
    · refine Acts.whenever (fun input => Acts.bind (ready_getElem ready fun _ => received ?_)) fun _ => sound
      simp_all [readsOn]

theorem sounds_onWritable {isReady : ProxyM Bool} {transmit : ProxyM Unit} {b : Bool} (sound : v.Sound g)
    (ready : v.Ready r.entry) (safe : g.closes → writesClosed state io b = false)
    (same : ∀ (w : Registry) (Q : Bool → Registry → Prop), w.ledger = v.ledger → Q b w →
      Acts g.Allows isReady Q w)
    (transmitted : Sounds g transmit v) : Sounds g (onWritable r r.entry state io isReady transmit) v := by
  refine Acts.bind (ready_getElem ready fun _ => Acts.bind (ready_setActive ready ?_))
  split
  · exact sounds_logAndClose sound ready
  · rename_i stays
    refine Acts.bind (Acts.whenever (fun failed => ?_) fun _ => ?_)
    · refine acts_closeFailed sound ready fun code w sound closed kept => Acts.bind (same w _ kept ?_)
      refine Acts.whenever (fun output => Acts.bind (acts_getElem_closed closed fun on => ?_)) fun _ => sound
      have never := safe on
      simp_all [writesClosed, fallsThrough]
    · refine Acts.bind (same v _ rfl ?_)
      exact Acts.whenever (fun _ => Acts.bind (ready_getElem ready fun _ => transmitted)) fun _ => sound

/-! ### Reading and sending -/

theorem Reading.observe {d : Ledger} {ref : MessageRef} {r : ElemRef} {bytes : Bytes} (reading : d.Reading ref) :
    (d.observe (.read r bytes)).Reading ref :=
  ⟨reading.known, fun f' bytes' seen => reading.apart f' bytes' ((List.mem_append.mp seen).resolve_right
    fun new => by cases List.mem_singleton.mp new)⟩

/-- No request is read of a server. -/
theorem AfterRequest.aside (next : AfterRequest) (bytes : Bytes) : (Obs.read next.source bytes).Aside := by
  cases next <;> trivial

theorem sounds_receiveRequest {m : MsgId} {next : AfterRequest} (sound : v.Sound g) (ready : v.Ready r.entry)
    (named : next.source = r) (reading : v.ledger.Reading (.request m)) (gathered : (v.ledger.requests m).Gathered)
    (resumes : v.ledger.Resumes next) : Sounds g (receiveRequest r m r.entry next io) v := by
  obtain ⟨f, owner⟩ := ready.fd
  refine Acts.get fun s same => Acts.bind (acts_readMessage owner trivial ?_ fun bytes m' _ got => ?_)
  · exact sounds_logAndClose sound ready
  · subst same named
    have gathered : m'.Gathered := BufferedMessage.Gathered.readFrom gathered (List.length_take_le _ _) got
    have sound := (sound.observe (o := .read next.source (bytes.take (s.requests m).shouldRead)) trivial
      (AfterRequest.aside next _) fun _ _ _ => nofun).setRequest (Reading.observe reading) fun _ => gathered
    have ready : ∀ d, (s.view.withLedger d).Ready next.source.entry := fun d => ready_withLedger.mpr ready
    refine Acts.bind (acts_setRequest _ _ (Acts.whenever (fun done => ?_) fun _ => sound))
    refine Acts.bind (ready_updateState sound (ready _) _ ?_)
    apply sounds_afterRequest sound (ready _)
    · exact Ledger.Resumes.mono resumes (List.subset_append_left _ _)
    · exact (gathered.transferred io.garbage).whole done

/-- What is known of a message that a handler has read to its end: it is what the server said
since it was sent its last request. -/
structure Heeds (d : Ledger) (c : ConnId) (k : Nat) (bytes : Bytes) (m : ServerResponse) : Prop where
  count : (dialogue d.trace c).requests.length = k + 1
  received : m.Received ((dialogue d.trace c).since ++ bytes)
  done : m.isRead = true

theorem sounds_receiveResponse {f : Fd} {m : MsgId} {rqst : ClientRequest} {cached : ServerResponse} (sound : v.Sound g)
    (ready : v.Ready (.conn c))
    (installed : v.handlers f = some (.readResponse (.server c) m (.conn c) (.handleValidationResponse c rqst cached)))
    (validates : ∀ bytes m' k, io.read = some bytes →
      (v.ledger.responses m).readFrom (bytes.take (v.ledger.responses m).shouldRead) = .ok m' →
      Heeds v.ledger c k (bytes.take (v.ledger.responses m).shouldRead) m' →
      g.validates cached c k rqst (m'.transferred io.garbage)) :
    Sounds g (receiveResponse (.server c) m (.conn c) (.handleValidationResponse c rqst cached) io) v := by
  obtain ⟨_, owner⟩ := sound.own.owns installed
  obtain ⟨reading, awaits⟩ : v.ledger.Reading (.response m) ∧ v.ledger.Awaits (.handleValidationResponse c rqst cached) :=
    sound.relies installed
  obtain ⟨_, ⟨k, count, told⟩, received⟩ := sound.heard.hears installed rfl
  have closes : Sounds g (logAndClose (.conn c)) v := sounds_logAndClose sound ready
  refine Acts.get fun s same => Acts.bind (acts_readMessage owner trivial closes fun bytes m' read got => ?_)
  subst same
  have grows : s.view.ledger.Grows ((s.view.ledger.observe (.read (.server c)
    (bytes.take (s.responses m).shouldRead))).setResponse m m') := .append rfl
  have heard := sound.hear installed rfl reading (List.length_take_le _ _) got
  have ready : ∀ d, (s.view.withLedger d).Ready (.conn c) := fun d => ready_withLedger.mpr ready
  refine Acts.bind (acts_setResponse _ _ (Acts.whenever (fun done => ?_) fun _ => heard))
  refine Acts.bind (ready_updateState (r := .server c) heard (ready _) _ ?_)
  refine sounds_handleValidationResponse heard (ready _) (awaits.1.mono grows) (awaits.2.mono grows.trace)
    (told.mono grows) ?_
  exact validates bytes m' k read got ⟨count, received.readFrom (List.length_take_le _ _) got, done⟩

theorem acts_writeRef {Q : Option Bool → Registry → Prop} {ref : MessageRef} {f : Fd} {bytes : Bytes}
    (sound : v.Sound g) (owner : v.fd? r = some f) (seen : .sending f ref bytes ∈ v.ledger.trace) (failed : Q none v)
    (h : ∀ done d, (v.withLedger d).Sound g → v.ledger.trace ⊆ d.trace → (done = true → d.unsent ref = []) →
      Q (some done) (v.withLedger d)) : Acts g.Allows (writeRef r ref io) Q v := by
  obtain ⟨known, _, _, once⟩ := sound.recorded.sending seen
  have here : ∀ f' bytes', .sending f' ref bytes' ∈ v.ledger.trace → f' = f := fun f' bytes' seen' =>
    (once f' bytes' seen').1
  cases ref with
  | request k =>
    refine Acts.get fun s same => Acts.bind (acts_writeMessage owner trivial (Acts.pure failed)
      fun n out m _ written => ?_)
    subst same
    have wrote : s.view.ledger.Written _ f (.request k) out :=
      Ledger.written_request written fun reading => reading.apart _ _ seen
    refine Acts.bind (acts_setRequest _ _ (Acts.pure (h _ _ (sound.write wrote known here)
      (List.subset_append_left _ _) fun done => ?_)))
    simpa [Ledger.unsent, Ledger.setRequest] using BufferedMessage.unsent_isWritten done
  | response k =>
    refine Acts.get fun s same => Acts.bind (acts_writeMessage owner trivial (Acts.pure failed)
      fun n out m _ written => ?_)
    subst same
    have wrote : s.view.ledger.Written _ f (.response k) out := Ledger.written_response written
    refine Acts.bind (acts_setResponse _ _ (Acts.pure (h _ _ (sound.write wrote known here)
      (List.subset_append_left _ _) fun done => ?_)))
    simpa [Ledger.unsent, Ledger.setResponse] using BufferedMessage.unsent_isWritten done

theorem sounds_transmitMessage {ref : MessageRef} {next : AfterSend} {f : Fd} (sound : v.Sound g)
    (ready : v.Ready r.entry) (installed : v.handlers f = some (.send r ref r.entry next)) :
    Sounds g (transmitMessage r ref r.entry next io) v := by
  obtain ⟨⟨_, coherent⟩, owner⟩ := sound.own.owns installed
  obtain ⟨_, bytes, seen, follows⟩ := sound.relies installed
  refine Acts.bind (acts_writeRef sound owner seen ?_ fun done d sound longer sent => ?_)
  · exact sounds_logAndClose sound ready
  · refine Acts.whenever (fun written => Acts.bind (acts_observe _ ?_)) fun _ => sound
    have owner : (v.withLedger d).fd? r = some f := by rwa [fd?_withLedger]
    have delivered : ((v.withLedger d).withLedger (d.observe (.delivered r ref))).Sound g :=
      sound.deliver owner installed rfl trivial (sound.reached coherent (Ledger.Follows.mono follows longer))
    have ready : ((v.withLedger d).withLedger (d.observe (.delivered r ref))).Ready r.entry :=
      ready_withLedger.mpr (ready_withLedger.mpr ready)
    refine Acts.bind (ready_updateState delivered ready _ (sounds_afterSend delivered ready coherent ?_))
    exact sound.proceeds coherent (Ledger.Follows.mono follows longer) (longer seen) (sent written)

/-! ### Transfer -/

theorem acts_saveTransferred {Q : Unit → Registry → Prop} {rqst : ClientRequest} {m : ServerResponse} {k : Nat}
    (sound : v.Sound g) (routed : v.ledger.Routed c rqst) (told : v.ledger.Told c k rqst.unsent)
    (answers : v.ledger.cache.admits rqst m = true → g.answers c k rqst m)
    (h : ∀ d, (v.withLedger d).Sound g → v.ledger.trace ⊆ d.trace → Q () (v.withLedger d)) :
    Acts g.Allows (saveTransferred rqst m) Q v := by
  rintro s rfl
  simp only [saveTransferred, wp_bind, wp_get]
  cases admitted : s.cache.saveIfAllowed rqst m with
  | none => trivial
  | some cache =>
    have grows : s.view.ledger.Grows (s.view.ledger.observe (.transferred rqst m)) := .append rfl
    refine h { s.view.ledger.observe (.transferred rqst m) with cache } ?_ grows.trace
    have sound := sound.observe (o := .transferred rqst m) trivial trivial fun _ _ _ same => by cases same
    refine sound.withLedger sound.isolated
      (fun _ _ _ relies => relies.keep rfl (Nat.le_refl _) (.same fun _ _ => rfl))
      (fun _ _ hears => hears.keep rfl (Nat.le_refl _) fun _ received => received) ?_
    refine sound.recorded.setCache fun held => ?_
    rcases Cache.entries_saveIfAllowed admitted held with old | ⟨admits, url, cached⟩
    · exact sound.recorded.admitted old
    · exact ⟨rqst, m, List.mem_append_right _ (List.mem_singleton_self _), url, cached, c, k,
        routed.mono grows.trace, told.mono grows, answers admits⟩

theorem sounds_transferIn {f : Fd} {rqst : ClientRequest} {resp : MsgId} (sound : v.Sound g)
    (ready : v.Ready (.conn c)) (installed : v.handlers f = some (.transferServer c rqst resp))
    (answers : ∀ bytes m k, io.read = some bytes →
      (v.ledger.responses resp).readFrom (bytes.take (v.ledger.responses resp).shouldRead) = .ok m →
      Heeds v.ledger c k (bytes.take (v.ledger.responses resp).shouldRead) m →
      v.ledger.cache.admits rqst m = true → g.answers c k rqst m) :
    Sounds g (transferIn c rqst resp io) v := by
  obtain ⟨_, owner⟩ := sound.own.owns installed
  obtain ⟨reading, routed⟩ := sound.relies installed
  obtain ⟨_, ⟨k, count, told⟩, received⟩ := sound.heard.hears installed rfl
  refine Acts.get fun s same => Acts.bind (acts_readMessage owner trivial ?_ fun bytes m read got => ?_)
  · exact sounds_logAndClose sound ready
  · subst same
    have grows : s.view.ledger.Grows ((s.view.ledger.observe (.read (.server c)
      (bytes.take (s.responses resp).shouldRead))).setResponse resp m) := .append rfl
    have heard := sound.hear installed rfl reading (List.length_take_le _ _) got
    have ready' : ∀ d, (s.view.withLedger d).Ready (.conn c) := fun d => ready_withLedger.mpr ready
    refine Acts.bind (acts_setResponse _ _ ?_)
    refine Acts.bind (Acts.mono (Q := fun _ w => w = s.view.withLedger ((s.view.ledger.observe
      (.read (.server c) (bytes.take (s.responses resp).shouldRead))).setResponse resp m)) ?_ ?_)
    · refine Acts.whenever (fun _ => ?_) fun _ => rfl
      exact ready_updateState (r := .client c) heard (ready' _) _ rfl
    · rintro _ w rfl
      refine Acts.whenever (fun done => ?_) fun _ => heard
      have heeds : Heeds s.view.ledger c k (bytes.take (s.responses resp).shouldRead) m :=
        ⟨count, received.readFrom (List.length_take_le _ _) got, done⟩
      refine Acts.bind (acts_saveTransferred heard (routed.mono grows.trace) (told.mono grows)
        (answers bytes m k read got heeds) fun d sound longer => ?_)
      exact sounds_sendServerResponse sound (ready' d) (longer (grows.trace routed.connected)) _

theorem sounds_transferOut {f : Fd} {resp : MsgId} (sound : v.Sound g) (ready : v.Ready (.conn c))
    (installed : v.handlers f = some (.transferClient c resp)) : Sounds g (transferOut c resp io) v := by
  have reading : v.ledger.Reading (.response resp) := sound.relies installed
  obtain ⟨_, owner⟩ := sound.own.owns installed
  refine Acts.get fun s same => Acts.bind (acts_writeMessage owner trivial ?_ fun n bytes m _ written => ?_)
  · exact sounds_logAndClose sound ready
  · subst same
    have wrote : s.view.ledger.Written _ f (.response resp) bytes := Ledger.written_response written
    have sound := sound.write wrote reading.known fun f' bytes' seen => absurd seen (reading.apart f' bytes')
    have ready : ∀ d, (s.view.withLedger d).Ready (.conn c) := fun d => ready_withLedger.mpr ready
    refine Acts.bind (acts_setResponse _ _ (Acts.whenever (fun _ => ?_) fun _ => sound))
    refine Acts.bind (ready_getElem (r := .client c) (ready _) fun e => ?_)
    exact ready_updateState (r := .client c) sound (ready _) _ sound

/-! ### CONNECT -/

/-- The state of a connection between the two parts of `make_connect_transfer_handler`. -/
def Halfway (g : Guard) (v w : Registry) (c : ConnId) (inMessage : MsgId) (io : Io) : Prop :=
  w.Sound g ∧
    ((w.Ready (.conn c) ∧ ∀ k, k ≠ inMessage → w.ledger.raws k = v.ledger.raws k) ∨
      (w.alive (.conn c) = false ∧ w.ledger = v.ledger ∧ io.read = none))

theorem acts_connectTransferIn {side other : ElemRef} {inMessage : MsgId} (sound : v.Sound g)
    (ready : v.Ready (.conn c)) (here : side.entry = .conn c) (there : other.entry = .conn c)
    (reads : (v.ledger.raws inMessage).canRead = true)
    (safe : g.closes → io.read = none → (v.ledger.raws inMessage).canWrite = false) :
    Acts g.Allows (connectTransferIn c side other inMessage io) (fun _ w => Halfway g v w c inMessage io) v := by
  have readySide : v.Ready side.entry := by rwa [here]
  refine Acts.bind (ready_getElem readySide fun _ => Acts.get fun s same => ?_)
  cases read : io.read with
  | none =>
    refine Acts.bind (acts_logAndClose sound ready fun w sound closed kept => Acts.get fun s' same' => ?_)
    have kept' : s'.raws = v.ledger.raws := by rw [← kept, ← same']; rfl
    simp only [kept', reads, Bool.not_true]
    refine Acts.bind (Acts.whenever (fun never => by cases never) fun _ => ?_)
    refine Acts.whenever (fun writes => ?_) fun _ => ⟨sound, Or.inr ⟨closed, kept, read⟩⟩
    refine Acts.bind (acts_getElem_closed (by rw [there, closed]) fun on => ?_)
    rw [safe on read] at writes
    cases writes
  | some bytes =>
    refine Acts.bind (acts_setRaw _ _ (Acts.get fun s' _ => ?_))
    have sound' := sound.setRaw inMessage ((s.raws inMessage).readFrom (bytes.take (BUFFER_LENGTH -
      (s.raws inMessage).readLength)))
    generalize (s.raws inMessage).readFrom _ = m at sound' ⊢
    have ready' : ∀ r : ElemRef, r.entry = .conn c → (v.withLedger (v.ledger.setRaw inMessage m)).Ready r.entry := fun r same => by
      rw [same]
      exact ready_withLedger.mpr ready
    have final : Halfway g v (v.withLedger (v.ledger.setRaw inMessage m)) c inMessage io :=
      ⟨sound', Or.inl ⟨ready_withLedger.mpr ready, fun k distinct => if_neg distinct⟩⟩
    refine Acts.bind (Acts.mono (Q := fun _ w => w = v.withLedger (v.ledger.setRaw inMessage m)) ?_ ?_)
    · refine Acts.whenever (fun _ => Acts.bind (ready_getElem (ready' side here) fun e => ?_)) fun _ => rfl
      exact ready_updateState sound' (ready' side here) _ rfl
    · rintro _ w rfl
      refine Acts.whenever (fun _ => Acts.bind (ready_getElem (ready' other there) fun e => ?_)) fun _ => final
      exact ready_updateState sound' (ready' other there) _ final

theorem sounds_connectTransferOut {side other : ElemRef} {outMessage : MsgId} (sound : v.Sound g)
    (ready : v.Ready (.conn c)) (here : side.entry = .conn c) (there : other.entry = .conn c)
    (writes : (v.ledger.raws outMessage).canWrite = true)
    (safe : g.closes → io.write = none → (v.ledger.raws outMessage).canRead = false) :
    Sounds g (connectTransferOut c side other outMessage io) v := by
  have readySide : v.Ready side.entry := by rwa [here]
  refine Acts.bind (ready_getElem readySide fun _ => Acts.get fun s same => ?_)
  cases write : io.write with
  | none =>
    refine Acts.bind (acts_logAndClose sound ready fun w sound closed kept => Acts.get fun s' same' => ?_)
    have kept' : s'.raws = v.ledger.raws := by rw [← kept, ← same']; rfl
    simp only [kept', writes, Bool.not_true]
    refine Acts.bind (Acts.whenever (fun never => by cases never) fun _ => ?_)
    refine Acts.whenever (fun reads => ?_) fun _ => sound
    refine Acts.bind (acts_getElem_closed (by rw [there, closed]) fun on => ?_)
    rw [safe on write] at reads
    cases reads
  | some accepted =>
    refine Acts.bind (acts_setRaw _ _ (Acts.get fun s' _ => ?_))
    have sound' := sound.setRaw outMessage ((s.raws outMessage).writeTo accepted).2
    generalize ((s.raws outMessage).writeTo accepted).2 = m at sound' ⊢
    have ready' : ∀ r : ElemRef, r.entry = .conn c → (v.withLedger (v.ledger.setRaw outMessage m)).Ready r.entry := fun r same => by
      rw [same]
      exact ready_withLedger.mpr ready
    refine Acts.bind (Acts.mono (Q := fun _ w => w = v.withLedger (v.ledger.setRaw outMessage m)) ?_ ?_)
    · refine Acts.whenever (fun _ => Acts.bind (ready_getElem (ready' side here) fun e => ?_)) fun _ => rfl
      exact ready_updateState sound' (ready' side here) _ rfl
    · rintro _ w rfl
      refine Acts.whenever (fun _ => Acts.bind (ready_getElem (ready' other there) fun e => ?_)) fun _ => sound'
      exact ready_updateState sound' (ready' other there) _ sound'

theorem sounds_onConnectTransfer {inMessage outMessage : MsgId} (sound : v.Sound g) (side other : ElemRef)
    (ready : v.Ready (.conn c)) (here : side.entry = .conn c) (there : other.entry = .conn c)
    (distinct : inMessage ≠ outMessage)
    (safe : g.closes → transfersClosed state io (v.ledger.raws inMessage) (v.ledger.raws outMessage) = false) :
    Sounds g (onConnectTransfer c side other inMessage outMessage state io) v := by
  refine Acts.bind (ready_setActive ready ?_)
  split
  · exact sounds_logAndClose sound ready
  · rename_i stays
    refine Acts.get fun s same => ?_
    have raws : s.raws = v.ledger.raws := by rw [← same]; rfl
    rw [raws]
    refine Acts.bind (Acts.mono (Q := fun _ w => Halfway g v w c inMessage io ∧ (w.alive (.conn c) = false →
      state.is .IN = true ∧ (v.ledger.raws inMessage).canRead = true)) ?_ ?_)
    · refine Acts.whenever (fun reads => ?_) fun _ =>
        ⟨⟨sound, Or.inl ⟨ready, fun _ _ => rfl⟩⟩, fun closed => by simp [ready.alive] at closed⟩
      obtain ⟨input, reads⟩ : state.is .IN = true ∧ (v.ledger.raws inMessage).canRead = true := by simpa using reads
      refine (acts_connectTransferIn sound ready here there reads fun on failed => ?_).mono
        fun _ w half => ⟨half, fun _ => ⟨input, reads⟩⟩
      have never := safe on
      simp_all [transfersClosed]
    · rintro _ w ⟨⟨sound, half⟩, how⟩
      refine Acts.get fun s' same' => ?_
      have raws' : s'.raws = w.ledger.raws := by rw [← same']; rfl
      rw [raws']
      refine Acts.whenever (fun writes => ?_) fun _ => sound
      obtain ⟨output, writes⟩ : state.is .OUT = true ∧ (w.ledger.raws outMessage).canWrite = true := by simpa using writes
      rcases half with ⟨ready, others⟩ | ⟨closed, kept, failed⟩
      · rw [others outMessage distinct.symm] at writes
        refine sounds_connectTransferOut sound ready here there (by rw [others outMessage distinct.symm, writes])
          fun on failed => ?_
        rw [others outMessage distinct.symm]
        have never := safe on
        simp_all [transfersClosed]
      · refine Acts.bind (acts_getElem_closed (by rw [here, closed]) fun on => ?_)
        have never := safe on
        simp_all [transfersClosed]

end Proxy

end ProxyServer
