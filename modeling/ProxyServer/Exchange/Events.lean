import ProxyServer.Exchange.Follows

/-!
# What events make of the exchanges

The handlers of a connection that is kept alive make the calls of its exchanges.
-/

namespace ProxyServer

open Wp

namespace Registry

variable {a : ConnId → Nat → Answer} {v : Registry} {c : ConnId} {f f' : Fd} {base : Began} {k k' : KeptAlive}
  {d : Ledger} {h : Handler} {l : Link} {cache : Cache} {unread asked bytes : Bytes} {ref : MessageRef}

/-- Nothing was asked since the last request of the client. -/
theorem Tracks.forget (tracks : v.Tracks a base c cache unread asked) : v.Tracks a base c cache unread [] :=
  ⟨tracks.cache, tracks.heard, fun f' server => (tracks.asked f' server).imp fun _ given => ⟨given.1, List.nil_suffix⟩,
    tracks.known⟩

/-- A message is written on. -/
structure Wrote (d d' : Ledger) (f : Fd) (ref : MessageRef) (bytes : Bytes) : Prop where
  trace : d'.trace = d.trace ++ [.wrote f ref bytes]
  cache : d'.cache = d.cache
  connections : d'.nextConnection = d.nextConnection

theorem Wrote.said (wrote : Wrote v.ledger d f ref bytes) : dialogue d.trace c = dialogue v.ledger.trace c := by
  rw [wrote.trace]
  exact dialogue_append _ _ _

theorem Wrote.here (wrote : Wrote v.ledger d f ref bytes) : givenTo d.trace f = givenTo v.ledger.trace f ++ bytes := by
  rw [wrote.trace, givenTo_append, Obs.gives, if_pos rfl]

theorem Wrote.elsewhere (wrote : Wrote v.ledger d f ref bytes) (other : f ≠ f') :
    givenTo d.trace f' = givenTo v.ledger.trace f' := by
  rw [wrote.trace, givenTo_append, Obs.gives, if_neg other, List.append_nil]

theorem Tracks.asks (tracks : v.Tracks a base c cache unread asked) (server : v.fd? (.server c) = some f')
    (wrote : Wrote v.ledger d f' ref bytes) : (v.withLedger d).Tracks a base c cache unread (asked ++ bytes) where
  cache := wrote.cache.trans tracks.cache
  heard live := by
    rw [withLedger_ledger, wrote.said]
    exact tracks.heard live
  asked g owner := by
    rw [fd?_withLedger, server] at owner
    cases owner
    rw [withLedger_ledger, wrote.here]
    obtain ⟨since, given, before, same⟩ := tracks.asked f' server
    refine ⟨since ++ bytes, ?_, before, ?_⟩
    · rw [given, List.append_assoc]
    · rw [← List.append_assoc, same, List.append_assoc]
  known := by
    rw [withLedger_ledger, wrote.connections]
    exact tracks.known

theorem Tracks.gives (tracks : v.Tracks a base c cache unread asked) (other : v.fd? (.server c) ≠ some f)
    (wrote : Wrote v.ledger d f ref bytes) : (v.withLedger d).Tracks a base c cache unread asked where
  cache := wrote.cache.trans tracks.cache
  heard live := by
    rw [withLedger_ledger, wrote.said]
    exact tracks.heard live
  asked g owner := by
    rw [fd?_withLedger] at owner
    have apart : f ≠ g := fun same => other (same ▸ owner)
    rw [withLedger_ledger, wrote.elsewhere apart]
    exact tracks.asked g owner
  known := by
    rw [withLedger_ledger, wrote.connections]
    exact tracks.known

/-- The server has been sent a request, and has an answer to it. -/
theorem Tracks.delivered (tracks : v.Tracks a base c cache unread asked) :
    (v.withLedger (v.ledger.observe (.delivered (.server c) ref))).Tracks a base c cache
      (unread ++ (a c (dialogue v.ledger.trace c).requests.length).bytes) asked where
  cache := tracks.cache
  heard live := by
    have said : dialogue (v.ledger.observe (.delivered (.server c) ref)).trace c =
        { requests := (dialogue v.ledger.trace c).requests ++ [ref]
          earlier := (dialogue v.ledger.trace c).earlier ++ (dialogue v.ledger.trace c).since
          since := [] } := (dialogue_append _ _ _).trans (if_pos rfl)
    rw [withLedger_ledger, said, List.append_nil, ← List.append_assoc, tracks.heard live, List.length_append]
    exact (Origins.stream_succ _ _ _).symm
  asked g owner := by
    rw [fd?_withLedger] at owner
    have given : givenTo (v.ledger.observe (.delivered (.server c) ref)).trace g = givenTo v.ledger.trace g :=
      (givenTo_append _ _ _).trans (List.append_nil _)
    rw [withLedger_ledger, given]
    exact tracks.asked g owner
  known := tracks.known

/-- What is read of the server comes next in its answers. -/
structure Speaks (a : ConnId → Nat → Answer) (v : Registry) (c : ConnId) (bytes : Bytes) : Prop where
  present : bytes ≠ []
  next : (dialogue v.ledger.trace c).earlier ++ (dialogue v.ledger.trace c).since ++ bytes <+:
    Origins.stream (fun c n => (a c n).bytes) c (dialogue v.ledger.trace c).requests.length

theorem Tracks.ahead (tracks : v.Tracks a base c cache unread asked) (live : v.connection c ≠ none)
    (speaks : v.Speaks a c bytes) : ∃ rest, unread = bytes ++ rest := by
  have next := speaks.next
  rw [← tracks.heard live] at next
  obtain ⟨rest, same⟩ := (List.prefix_append_right_inj _).mp next
  exact ⟨rest, same.symm⟩

theorem Tracks.read {rest : Bytes} (tracks : v.Tracks a base c cache (bytes ++ rest) asked) :
    (v.withLedger (v.ledger.observe (.read (.server c) bytes))).Tracks a base c cache rest asked where
  cache := tracks.cache
  heard live := by
    have said : dialogue (v.ledger.observe (.read (.server c) bytes)).trace c =
        { dialogue v.ledger.trace c with since := (dialogue v.ledger.trace c).since ++ bytes } :=
      (dialogue_append _ _ _).trans (if_pos rfl)
    rw [withLedger_ledger, said, ← tracks.heard live]
    simp only [List.append_assoc]
  asked g owner := by
    rw [fd?_withLedger] at owner
    have given : givenTo (v.ledger.observe (.read (.server c) bytes)).trace g = givenTo v.ledger.trace g :=
      (givenTo_append _ _ _).trans (List.append_nil _)
    rw [withLedger_ledger, given]
    exact tracks.asked g owner
  known := tracks.known

end Registry

namespace Proxy

open Registry

variable {a : ConnId → Nat → Answer} {v : Registry} {c : ConnId} {f f' : Fd} {base : Began} {k : KeptAlive} {h : Handler}
  {r : ElemRef} {it : EntryRef} {io : Io} {state : FdState} {rqst : ClientRequest} {resp : ServerResponse} {m : MsgId}
  {host : Bytes} {Q : Unit → Registry → Prop}

/-! ### The common parts of the handlers -/

theorem any_onReadable {receive : ProxyM Unit}
    (closes : Acts Any (logAndClose it) (fun _ w => Q () w ∧ w.fd? r = none) v) (stays : Q () v)
    (received : readsOn state io = true → Acts Any receive Q v) : Acts Any (onReadable r it state io receive) Q v := by
  apply Acts.bind
  apply acts_getElem _ (fun _ => trivial)
  intro _ _
  apply Acts.bind
  apply acts_setActive _ (fun _ => trivial)
  apply Acts.bind
  apply acts_hungUp trivial
  · exact closes.mono fun _ _ closed => closed.1
  · intro open_
    apply Acts.bind
    apply Acts.whenever
    · intro _
      unfold closeFailed
      cases io.soError with
      | none => exact Acts.throw trivial
      | some code =>
        apply closes.mono
        intro _ w closed
        apply Acts.whenever
        · intro _
          apply Acts.bind
          apply acts_getElem _ (fun _ => trivial)
          intro e owner
          rw [closed.2] at owner
          cases owner
        · exact fun _ => closed.1
    · intro fine
      apply Acts.whenever
      · intro input
        apply Acts.bind
        apply acts_getElem _ (fun _ => trivial)
        intro _ _
        apply received
        unfold readsOn
        rw [fine, open_, input]
        rfl
      · exact fun _ => stays

/-- `b` says when there is something to transmit. -/
theorem any_onWritable {ready : ProxyM Bool} {transmit : ProxyM Unit} (b : Registry → Bool)
    (closes : Acts Any (logAndClose it) (fun _ w => Q () w ∧ w.fd? r = none) v) (stays : Q () v)
    (asks : ∀ w (R : Bool → Registry → Prop), R (b w) w → Acts Any ready R w)
    (transmitted : b v = true → Acts Any transmit Q v) : Acts Any (onWritable r it state io ready transmit) Q v := by
  apply Acts.bind
  apply acts_getElem _ (fun _ => trivial)
  intro _ _
  apply Acts.bind
  apply acts_setActive _ (fun _ => trivial)
  split
  · exact closes.mono fun _ _ closed => closed.1
  · apply Acts.bind
    apply Acts.whenever
    · intro _
      unfold closeFailed
      cases io.soError with
      | none => exact Acts.throw trivial
      | some code =>
        apply closes.mono
        intro _ w closed
        apply Acts.bind
        apply asks
        apply Acts.whenever
        · intro _
          apply Acts.bind
          apply acts_getElem _ (fun _ => trivial)
          intro e owner
          rw [closed.2] at owner
          cases owner
        · exact fun _ => closed.1
    · intro _
      apply Acts.bind
      apply asks
      apply Acts.whenever
      · intro both
        apply Acts.bind
        apply acts_getElem _ (fun _ => trivial)
        intro _ _
        exact transmitted (Bool.and_eq_true_iff.mp both).2
      · exact fun _ => stays

theorem any_writeRequest {R : Option Bool → Registry → Prop} (owner : v.fd? r = some f) (failed : R none v)
    (h : ∀ accepted bytes m' d, (v.ledger.requests m).writeTo accepted = some (bytes, m') →
      Wrote v.ledger d f (.request m) bytes → d.requests m = m' → R (some m'.isWritten) (v.withLedger d)) :
    Acts Any (writeRef r (.request m) io) R v := by
  apply Acts.get
  intro s same
  subst same
  apply Acts.bind
  apply acts_writeMessage owner trivial (Acts.pure failed)
  intro accepted bytes m' _ wrote
  apply Acts.bind
  apply acts_setRequest
  exact Acts.pure (h accepted bytes m' _ wrote ⟨rfl, rfl, rfl⟩ (if_pos rfl))

theorem any_writeResponse {R : Option Bool → Registry → Prop} (owner : v.fd? r = some f) (failed : R none v)
    (h : ∀ accepted bytes m' d, (v.ledger.responses m).writeTo accepted = some (bytes, m') →
      Wrote v.ledger d f (.response m) bytes → d.responses m = m' → R (some m'.isWritten) (v.withLedger d)) :
    Acts Any (writeRef r (.response m) io) R v := by
  apply Acts.get
  intro s same
  subst same
  apply Acts.bind
  apply acts_writeMessage owner trivial (Acts.pure failed)
  intro accepted bytes m' _ wrote
  apply Acts.bind
  apply acts_setResponse
  exact Acts.pure (h accepted bytes m' _ wrote ⟨rfl, rfl, rfl⟩ (if_pos rfl))

theorem goes_logAndClose (follows : v.Follows a c f base k) (present : f ≠ 0) (client : v.fd? (.client c) = some f)
    (here : r.entry = .conn c) :
    Acts Any (logAndClose (.conn c)) (fun _ w => w.Goes a c f base k ∧ w.fd? r = none) v := by
  apply Acts.bind
  apply acts_touch _ (fun _ => trivial)
  intro _
  apply acts_closeConnection _ (fun _ => trivial)
  intro l live
  have same : l.client.fd = f := by simpa [Registry.fd?, live] using client
  constructor
  · exact follows.closed same present
  · cases r with
    | sock id => cases here
    | client c' =>
      cases here
      simp [Registry.fd?, eraseConnection]
    | server c' =>
      cases here
      simp [Registry.fd?, eraseConnection]

theorem any_updateState {events : FdState} (own : v.Owned) (h : Q () v) : Acts Any (updateState r events) Q v := by
  apply acts_updateState events h
  · intro zero
    exact own.present zero rfl
  · exact fun _ => trivial

end Proxy

/-! ### The calls of the exchanges -/

namespace KeptAlive

variable {s s' t : KeptAlive} {rqst message message' : ClientRequest} {cached m m' : ServerResponse} {garbage bytes : Bytes}
  {accepted n : Nat}

theorem step_requested {host : Bytes} (phase : s.phase = .awaiting host) (whole : rqst.isRead = true)
    (handled : (if rqst.getHeader.getProperty (lit "host") = host then
      handleClientRequest { s with requests := s.requests ++ [rqst], asked := [], written := [], answer := none } rqst garbage
      else .ok { s with requests := s.requests ++ [rqst], asked := [], written := [], answer := none, phase := .left }) =
        .ok s') : s.step (.request rqst garbage) = .ok s' := by
  unfold step
  simp only [phase]
  rw [if_pos whole]
  exact handled

theorem step_serverOut {next : Sent} (phase : s.phase = .sending message next)
    (wrote : message.writeTo accepted = some (bytes, message')) (answer : Answer) (garbage : Bytes) :
    s.step (.serverOut accepted answer garbage) =
      .ok (if message'.isWritten then sent { s with asked := s.asked ++ bytes } answer garbage next
        else { s with asked := s.asked ++ bytes, phase := .sending message' next }) := by
  unfold step
  simp only [phase, wrote]
  split <;> rfl

theorem step_validating (phase : s.phase = .validating m rqst cached) (got : s.readFrom m n = .ok (m', t)) (garbage : Bytes) :
    s.step (.serverIn n garbage) = if m'.isRead then t.handleValidationResponse rqst cached (m'.transferred garbage) garbage
      else .ok { t with phase := .validating m' rqst cached } := by
  show s.serverIn n garbage = _
  unfold serverIn
  simp only [phase, got, bind, Except.bind]
  rfl

theorem step_transferring (phase : s.phase = .transferring m rqst) (got : s.readFrom m n = .ok (m', t)) (garbage : Bytes) :
    s.step (.serverIn n garbage) = if m'.isRead then t.transferred rqst m' garbage
      else .ok { t with phase := .transferring m' rqst } := by
  show s.serverIn n garbage = _
  unfold serverIn
  simp only [phase, got, bind, Except.bind]
  rfl

theorem step_relay (phase : s.phase = .transferring m rqst) (ready : m.canWrite = true)
    (wrote : m.writeTo accepted = some (bytes, m')) :
    s.step (.clientOut accepted) = .ok { s with written := s.written ++ bytes, phase := .transferring m' rqst } := by
  show s.clientOut accepted = _
  unfold clientOut writeTo
  simp only [phase, wrote]
  rw [if_pos ready]
  rfl

theorem step_answering {certified : Option ServerResponse} {closing : Bool} {answer : Answer}
    (phase : s.phase = .answering m rqst certified closing) (answered : s.answer = some answer)
    (wrote : m.writeTo accepted = some (bytes, m')) : s.step (.clientOut accepted) =
      .ok (if m'.isWritten then { s with
          written := s.written ++ bytes
          phase := if closing then .left else .awaiting (rqst.getHeader.getProperty (lit "host"))
          done := s.done ++ [{ rqst, answer, certified, delivered := s.written ++ bytes }] }
        else { s with written := s.written ++ bytes, phase := .answering m' rqst certified closing }) := by
  show s.clientOut accepted = _
  unfold clientOut writeTo
  simp only [phase, wrote, bind, Except.bind, answered]
  split <;> rfl

end KeptAlive

theorem Handler.Rests.owner {v : Registry} {c : ConnId} {h : Handler} (rests : h.Rests c) : v.owner h = .client c := by
  cases rests with
  | connecting socket host => rfl
  | read m host => rfl

namespace Proxy

open Registry

variable {a : ConnId → Nat → Answer} {v : Registry} {c : ConnId} {f f' : Fd} {base : Began} {k : KeptAlive} {h : Handler}
  {r : ElemRef} {io : Io} {state : FdState} {rqst : ClientRequest} {resp cached : ServerResponse} {m : MsgId} {host : Bytes}
  {n : SocketId} {certified : Option ServerResponse}

/-- The handler that runs makes the calls of the exchange. -/
abbrev Calls (a : ConnId → Nat → Answer) (c : ConnId) (f : Fd) (base : Began) (k : KeptAlive) (x : ProxyM Unit)
    (v : Registry) : Prop :=
  Acts Any x (fun _ w => w.Goes a c f base k) v

/-! ### Reading the client -/

theorem calls_receiveRequest (follows : v.Follows a c f base k) (phase : k.phase = .awaiting host) (own : v.Owned)
    (client : v.handlers f = some (.readRequest (.client c) m (.conn c) (.reuse c host))) :
    Calls a c f base k (receiveRequest (.client c) m (.conn c) (.reuse c host) io) v := by
  have owner : v.fd? (.client c) = some f := (own.owns client).2
  have closes := goes_logAndClose (r := .client c) follows (own.present owner) owner rfl
  obtain ⟨placed, tracks, given, _⟩ := follows
  rw [phase] at placed given
  apply Acts.get
  intro s same
  subst same
  apply Acts.bind
  apply acts_readMessage owner trivial
  · exact closes.mono fun _ _ closed => closed.1
  · intro bytes m' _ _
    have silent : Silent c s.view.ledger
        ((s.view.ledger.observe (.read (.client c) (bytes.take (s.requests m).shouldRead))).setRequest m m') :=
      (silent_observe (fun _ => rfl) fun _ => rfl).trans (.same rfl rfl)
    apply Acts.bind
    apply acts_setRequest
    apply Acts.whenever
    · intro whole
      have poised : Poised a c f base { k with
          requests := k.requests ++ [m'.transferred io.garbage], asked := [], written := [], answer := none }
          (s.view.withLedger
            ((s.view.ledger.observe (.read (.client c) (bytes.take (s.requests m).shouldRead))).setRequest m m')) := by
        constructor
        · exact own.withLedger _
        · rwa [fd?_withLedger]
        · exact (tracks.silent silent tracks.cache).forget
        · exact ((silent.given f).trans given).trans (List.append_nil _).symm
      apply Acts.bind
      apply any_updateState poised.own
      apply (follows_requestReused poised rfl client (.read m host)).mono
      rintro _ w ⟨k', handled, follows⟩
      have complete : (m'.transferred io.garbage).isRead = true := whole
      exact Follows.called (KeptAlive.step_requested phase complete handled) follows
    · intro _
      apply Follows.stays
      constructor
      · rw [phase]
        cases placed with
        | awaiting client server => exact .awaiting client server
      · exact tracks.silent silent tracks.cache
      · rw [phase]
        exact (silent.given f).trans given
      · rw [phase]
        exact False.elim

/-! ### Sending to the server -/

theorem calls_transmitRequest {next : Sent} (follows : v.Follows a c f base k)
    (phase : k.phase = .sending (v.ledger.requests m) next) (own : v.Owned) (client : v.handlers f = some h) (rests : h.Rests c)
    (server : v.handlers f' = some (.send (.server c) (.request m) (.conn c) (next.action c))) :
    Calls a c f base k (transmitMessage (.server c) (.request m) (.conn c) (next.action c) io) v := by
  have owner : v.fd? (.client c) = some f := rests.owner ▸ (own.owns client).2
  have owner' : v.fd? (.server c) = some f' := (own.owns server).2
  have closes := goes_logAndClose (r := .client c) follows (own.present owner) owner rfl
  have apart : f' ≠ f := by
    rintro rfl
    cases own.unique owner owner'
  obtain ⟨_, tracks, given, _⟩ := follows
  rw [phase] at given
  apply Acts.bind
  apply any_writeRequest owner'
  · exact closes.mono fun _ _ closed => closed.1
  · intro accepted bytes m' d wrote written made
    have asks := tracks.asks owner' written
    have kept := (written.elsewhere apart).trans given
    have stepped := fun answer => KeptAlive.step_serverOut phase wrote answer io.garbage
    apply Acts.whenever
    · intro done
      apply Acts.bind
      apply acts_observe
      apply Acts.bind
      apply any_updateState ((own.withLedger _).withLedger _)
      apply (follows_sent (k := { k with asked := k.asked ++ bytes }) ((own.withLedger _).withLedger _) _ asks.delivered _ client
        rests).mono
      · intro _ w follows
        exact Follows.called ((stepped _).trans (congrArg Except.ok (if_pos done))) follows
      · rwa [fd?_withLedger, fd?_withLedger]
      · exact (givenTo_append _ _ _).trans ((List.append_nil _).trans kept)
    · intro more
      apply Follows.called ((stepped (a c 0)).trans (congrArg Except.ok (if_neg (Bool.eq_false_iff.mp more))))
      constructor
      · exact .sending client rests server made
      · exact asks
      · exact kept
      · exact False.elim

/-! ### Reading the server -/

/-- What was read of the server comes next in its answers. -/
theorem heard_next {unread asked bytes : Bytes} {cache : Cache} (m : MsgId) (m' : ServerResponse)
    (tracks : v.Tracks a base c cache unread asked) (owner : v.fd? (.server c) = some f') (speaks : v.Speaks a c bytes) :
    ∃ rest, unread = bytes ++ rest ∧
      (v.withLedger ((v.ledger.observe (.read (.server c) bytes)).setResponse m m')).Tracks a base c cache rest asked := by
  have live : v.connection c ≠ none := by
    intro gone
    simp [Registry.fd?, gone] at owner
  obtain ⟨rest, rfl⟩ := tracks.ahead live speaks
  exact ⟨rest, rfl, tracks.read.silent (.same rfl rfl) tracks.cache⟩

theorem calls_receiveResponse (follows : v.Follows a c f base k)
    (phase : k.phase = .validating (v.ledger.responses m) rqst cached) (own : v.Owned) (client : v.handlers f = some h)
    (rests : h.Rests c)
    (server : v.handlers f' = some (.readResponse (.server c) m (.conn c) (.handleValidationResponse c rqst cached)))
    (speaks : ∀ bytes, io.read = some bytes → v.Speaks a c (bytes.take (v.ledger.responses m).shouldRead)) :
    Calls a c f base k (receiveResponse (.server c) m (.conn c) (.handleValidationResponse c rqst cached) io) v := by
  have owner : v.fd? (.client c) = some f := rests.owner ▸ (own.owns client).2
  have owner' : v.fd? (.server c) = some f' := (own.owns server).2
  have closes := goes_logAndClose (r := .client c) follows (own.present owner) owner rfl
  obtain ⟨_, tracks, given, answered⟩ := follows
  rw [phase] at given answered
  apply Acts.get
  intro s same
  subst same
  apply Acts.bind
  apply acts_readMessage owner' trivial
  · exact closes.mono fun _ _ closed => closed.1
  · intro bytes m' read got
    obtain ⟨rest, unread, tracks⟩ := heard_next m m' tracks owner' (speaks bytes read)
    have next := KeptAlive.readFrom_of (speaks bytes read).present (List.length_take_le _ _) unread got
    have stepped := KeptAlive.step_validating phase next io.garbage
    have kept := (givenTo_append s.trace (.read (.server c) (bytes.take (s.responses m).shouldRead)) f).trans
      ((List.append_nil _).trans given)
    apply Acts.bind
    apply acts_setResponse
    apply Acts.whenever
    · intro done
      have poised : Poised a c f base { k with unread := rest } (s.view.withLedger ((s.view.ledger.observe
          (.read (.server c) (bytes.take (s.responses m).shouldRead))).setResponse m m')) := by
        constructor
        · exact own.withLedger _
        · rwa [fd?_withLedger]
        · exact tracks
        · exact kept
      apply Acts.bind
      apply any_updateState poised.own
      apply (follows_handleValidationResponse poised (answered trivial) client rests).mono
      rintro _ w ⟨k', handled, follows⟩
      exact Follows.called (stepped.trans ((if_pos done).trans handled)) follows
    · intro more
      apply Follows.called (stepped.trans (if_neg (Bool.eq_false_iff.mp more)))
      constructor
      · exact .validating client rests server (if_pos rfl)
      · exact tracks
      · exact kept
      · exact answered

theorem calls_transferIn (follows : v.Follows a c f base k) (phase : k.phase = .transferring (v.ledger.responses m) rqst)
    (own : v.Owned) (client : v.handlers f = some (.transferClient c m))
    (server : v.handlers f' = some (.transferServer c rqst m))
    (speaks : ∀ bytes, io.read = some bytes → v.Speaks a c (bytes.take (v.ledger.responses m).shouldRead)) :
    Calls a c f base k (transferIn c rqst m io) v := by
  have owner : v.fd? (.client c) = some f := (own.owns client).2
  have owner' : v.fd? (.server c) = some f' := (own.owns server).2
  have closes := goes_logAndClose (r := .client c) follows (own.present owner) owner rfl
  obtain ⟨_, tracks, given, answered⟩ := follows
  rw [phase] at given answered
  apply Acts.get
  intro s same
  subst same
  apply Acts.bind
  apply acts_readMessage owner' trivial
  · exact closes.mono fun _ _ closed => closed.1
  · intro bytes m' read got
    obtain ⟨rest, unread, tracks⟩ := heard_next m m' tracks owner' (speaks bytes read)
    have next := KeptAlive.readFrom_of (speaks bytes read).present (List.length_take_le _ _) unread got
    have stepped := KeptAlive.step_transferring phase next io.garbage
    have kept := (givenTo_append s.trace (.read (.server c) (bytes.take (s.responses m).shouldRead)) f).trans
      ((List.append_nil _).trans given)
    have poised : Poised a c f base { k with unread := rest } (s.view.withLedger ((s.view.ledger.observe
        (.read (.server c) (bytes.take (s.responses m).shouldRead))).setResponse m m')) := by
      constructor
      · exact own.withLedger _
      · rwa [fd?_withLedger]
      · exact tracks
      · exact kept
    have finish : Calls a c f base k (whenever m'.isRead do
        saveTransferred rqst m'
        sendServerResponse c rqst (m'.transferred io.garbage) io) (s.view.withLedger ((s.view.ledger.observe
          (.read (.server c) (bytes.take (s.responses m).shouldRead))).setResponse m m')) := by
      apply Acts.whenever
      · intro done
        apply (follows_transferred poised (answered trivial)).mono
        rintro _ w ⟨k', handled, follows⟩
        exact Follows.called (stepped.trans ((if_pos done).trans handled)) follows
      · intro more
        apply Follows.called (stepped.trans (if_neg (Bool.eq_false_iff.mp more)))
        constructor
        · exact .transferring client server (if_pos rfl)
        · exact tracks
        · exact kept
        · exact answered
    apply Acts.bind
    apply acts_setResponse
    apply Acts.bind
    apply Acts.whenever
    · intro _
      exact any_updateState poised.own finish
    · exact fun _ => finish

/-! ### Sending to the client -/

/-- The client has been given more of the response. -/
theorem given_more {bytes : Bytes} {d : Ledger} {ref : MessageRef}
    (given : givenTo v.ledger.trace f = base.client ++ k.done.flatMap (·.delivered) ++ k.written)
    (wrote : Wrote v.ledger d f ref bytes) :
    givenTo d.trace f = base.client ++ k.done.flatMap (·.delivered) ++ (k.written ++ bytes) := by
  rw [wrote.here, given, List.append_assoc]

theorem calls_transferOut (follows : v.Follows a c f base k) (phase : k.phase = .transferring (v.ledger.responses m) rqst)
    (own : v.Owned) (client : v.handlers f = some (.transferClient c m))
    (server : v.handlers f' = some (.transferServer c rqst m))
    (ready : (v.ledger.responses m).canWrite = true) : Calls a c f base k (transferOut c m io) v := by
  have owner : v.fd? (.client c) = some f := (own.owns client).2
  have owner' : v.fd? (.server c) = some f' := (own.owns server).2
  have closes := goes_logAndClose (r := .client c) follows (own.present owner) owner rfl
  have other : v.fd? (.server c) ≠ some f := by
    intro same
    cases own.unique owner same
  obtain ⟨_, tracks, given, answered⟩ := follows
  rw [phase] at given answered
  apply Acts.get
  intro s same
  subst same
  apply Acts.bind
  apply acts_writeMessage owner trivial
  · exact closes.mono fun _ _ closed => closed.1
  · intro accepted bytes m' _ wrote
    have written : Wrote s.view.ledger ((s.view.ledger.observe (.wrote f (.response m) bytes)).setResponse m m') f
        (.response m) bytes := ⟨rfl, rfl, rfl⟩
    have goes : Goes a c f base k
        (s.view.withLedger ((s.view.ledger.observe (.wrote f (.response m) bytes)).setResponse m m')) := by
      apply Follows.called (KeptAlive.step_relay phase ready wrote)
      constructor
      · exact .transferring client server (if_pos rfl)
      · exact tracks.gives other written
      · exact given_more given written
      · exact answered
    apply Acts.bind
    apply acts_setResponse
    apply Acts.whenever
    · intro _
      apply Acts.bind
      apply acts_getElem _ (fun _ => trivial)
      intro e _
      exact any_updateState (own.withLedger _) goes
    · exact fun _ => goes

/-- The client has been given the whole of the response. -/
theorem given_done {bytes : Bytes} {d : Ledger} {ref : MessageRef} {answer : Answer}
    (given : givenTo v.ledger.trace f = base.client ++ k.done.flatMap (·.delivered) ++ k.written)
    (wrote : Wrote v.ledger d f ref bytes) :
    givenTo d.trace f = base.client ++
      (k.done ++ [({ rqst, answer, certified, delivered := k.written ++ bytes } : Exchange)]).flatMap (·.delivered) := by
  rw [given_more given wrote]
  simp

theorem calls_transmitResponse (follows : v.Follows a c f base k)
    (phase : k.phase = .answering (v.ledger.responses m) rqst certified false) (own : v.Owned)
    (client : v.handlers f = some (.send (.client c) (.response m) (.conn c)
      (.reuseConnection c (rqst.getHeader.getProperty (lit "host"))))) :
    Calls a c f base k (transmitMessage (.client c) (.response m) (.conn c)
      (.reuseConnection c (rqst.getHeader.getProperty (lit "host"))) io) v := by
  have owner : v.fd? (.client c) = some f := (own.owns client).2
  have closes := goes_logAndClose (r := .client c) follows (own.present owner) owner rfl
  have other : v.fd? (.server c) ≠ some f := by
    intro same
    cases own.unique owner same
  obtain ⟨_, tracks, given, answered⟩ := follows
  rw [phase] at given answered
  obtain ⟨answer, known⟩ := Option.ne_none_iff_exists'.mp (answered trivial)
  apply Acts.bind
  apply any_writeResponse owner
  · exact closes.mono fun _ _ closed => closed.1
  · intro accepted bytes m' d wrote written made
    have gives := tracks.gives other written
    have stepped := KeptAlive.step_answering phase known wrote
    apply Acts.whenever
    · intro done
      have silent : Silent c d (d.observe (.delivered (.client c) (.response m))) := silent_observe (fun _ => rfl) fun _ => rfl
      apply Acts.bind
      apply acts_observe
      apply Acts.bind
      apply any_updateState ((own.withLedger _).withLedger _)
      apply (follows_reuseConnection (k := { k with
        written := k.written ++ bytes
        done := k.done ++ [{ rqst, answer, certified, delivered := k.written ++ bytes }] })
        ((own.withLedger _).withLedger _) _ (gives.silent silent gives.cache)
        ((silent.given f).trans (given_done given written))).mono
      · intro _ w follows
        exact Follows.called (stepped.trans (congrArg Except.ok (if_pos done))) follows
      · rwa [fd?_withLedger, fd?_withLedger]
    · intro more
      apply Follows.called (stepped.trans (congrArg Except.ok (if_neg (Bool.eq_false_iff.mp more))))
      constructor
      · exact .answering client made
      · exact gives
      · exact given_more given written
      · exact answered

/-! ### The client of a connection that was closed -/

theorem goes_closeSocket (follows : v.Follows a c f base k) (gone : v.connection c = none) (own : v.Owned)
    (owner : v.fd? (.sock n) = some f) :
    Acts Any (logAndClose (.sock n)) (fun _ w => w.Goes a c f base k ∧ w.fd? (.sock n) = none) v := by
  apply Acts.bind
  apply acts_touch _ (fun _ => trivial)
  intro _
  apply (follows_closeSocket own gone owner follows.tracks follows.given.left).mono
  intro _ w closed
  have stepped : k.step .close = .ok { k with phase := .left } := rfl
  exact ⟨Follows.called stepped closed.1, closed.2⟩

theorem calls_transmitLast (follows : v.Follows a c f base k)
    (phase : k.phase = .answering (v.ledger.responses m) rqst certified true) (own : v.Owned) (gone : v.connection c = none)
    (client : v.handlers f = some (.send (.sock n) (.response m) (.sock n) (.closeSent n))) :
    Calls a c f base k (transmitMessage (.sock n) (.response m) (.sock n) (.closeSent n) io) v := by
  have owner : v.fd? (.sock n) = some f := (own.owns client).2
  have closes := goes_closeSocket follows gone own owner
  obtain ⟨_, tracks, given, answered⟩ := follows
  rw [phase] at given answered
  obtain ⟨answer, known⟩ := Option.ne_none_iff_exists'.mp (answered trivial)
  have other : v.fd? (.server c) ≠ some f := by simp [Registry.fd?, gone]
  apply Acts.bind
  apply any_writeResponse owner
  · exact closes.mono fun _ _ closed => closed.1
  · intro accepted bytes m' d wrote written made
    have gives := tracks.gives other written
    have stepped := KeptAlive.step_answering phase known wrote
    apply Acts.whenever
    · intro done
      have silent : Silent c d (d.observe (.delivered (.sock n) (.response m))) := silent_observe (fun _ => rfl) fun _ => rfl
      apply Acts.bind
      apply acts_observe
      apply Acts.bind
      apply any_updateState ((own.withLedger _).withLedger _)
      apply Acts.bind
      apply acts_touch _ (fun _ => trivial)
      intro _
      have still : (v.withLedger (d.observe (.delivered (.sock n) (.response m)))).connection c = none := gone
      have whole : givenTo d.trace f = base.client ++
          (k.done ++ [({ rqst, answer, certified, delivered := k.written ++ bytes } : Exchange)]).flatMap (·.delivered) :=
        given_done given written
      have all : base.client ++
          (k.done ++ [({ rqst, answer, certified, delivered := k.written ++ bytes } : Exchange)]).flatMap (·.delivered) <+:
            givenTo (d.observe (.delivered (.sock n) (.response m))).trace f :=
        ⟨[], (List.append_nil _).trans (whole.symm.trans (silent.given f).symm)⟩
      apply (follows_closeSocket (k := { k with
        written := k.written ++ bytes
        done := k.done ++ [{ rqst, answer, certified, delivered := k.written ++ bytes }] })
        ((own.withLedger _).withLedger _) still _ (gives.silent silent gives.cache)
        all).mono
      · intro _ w closed
        exact Follows.called (stepped.trans (congrArg Except.ok (if_pos done))) closed.1
      · rwa [fd?_withLedger, fd?_withLedger]
    · intro more
      apply Follows.called (stepped.trans (congrArg Except.ok (if_neg (Bool.eq_false_iff.mp more))))
      constructor
      · exact .closing gone client made
      · exact gives
      · exact given_more given written
      · exact answered

end Proxy

end ProxyServer
