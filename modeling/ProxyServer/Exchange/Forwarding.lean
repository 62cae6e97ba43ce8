import ProxyServer.Exchange.Pairing

/-!
# Requests that are forwarded

Whether a request is sent as it is and answered with what the server answers depends on
its method and on what is cached: every method but POST and CONNECT is a GET.
-/

namespace ProxyServer

/-- A request of a client that is read. -/
structure CompleteRequest where
  message : ClientRequest
  gathered : message.Gathered
  isRead : message.isRead = true

namespace CompleteRequest

def body (r : CompleteRequest) : Bytes := r.message.getCache.flatten.drop r.message.getHeader.print.length

def text (r : CompleteRequest) : Bytes := r.message.getHeader.print ++ r.body

def host (r : CompleteRequest) : Bytes := r.message.getHeader.getProperty (lit "host")

theorem unsent (r : CompleteRequest) : r.message.unsent = r.text := by
  have start := BufferedMessage.unsent_start r.gathered.curPart r.gathered.writeLength
  obtain ⟨x, whole, _⟩ := (r.gathered.whole r.isRead).text
  have printed : r.message.getCache.flatten = r.message.getHeader.print ++ x := start.symm.trans whole
  unfold text body
  rw [start, printed, List.drop_left]

end CompleteRequest

def KeptAliveCall.isRequest : KeptAliveCall → Bool
  | .request _ _ => true
  | _ => false

namespace KeptAlive

/-- What the server was sent is of the request, and what the client was given is of the
server's answer, and nothing is taken from the cache. -/
structure Forwarded (r : CompleteRequest) (s : KeptAlive) : Prop where
  asked : s.asked <+: r.text
  whole : s.answer ≠ none → s.asked = r.text
  given : ∀ a ∈ s.answer, s.written <+: a.forwarded
  unanswered : s.answer = none → s.written = []
  uncached : ∀ m rqst cached closing, s.phase ≠ .answering m rqst (some cached) closing
  done : ∀ x ∈ s.done, x.certified = none ∧ s.answer = some x.answer ∧ x.delivered <+: x.answer.forwarded

/-- Handled with this cache, the request is sent to the server as it is and the client is
given the server's answer to it, the whole one when no read ends it too early. -/
structure Forwards (cache : Cache) (r : CompleteRequest) : Prop where
  handled : ∀ garbage, ∃ s m next, (start r.host cache).step (.request r.message garbage) = .ok s ∧
    s.phase = .sending m next ∧ m.unsent = r.text
  forwarded : ∀ garbage calls t, (∀ call ∈ calls, call.isRequest = false) →
    Runs.run step (start r.host cache) (.request r.message garbage :: calls) = .ok t → t.Forwarded r
  answered : ∀ garbage calls t, (∀ call ∈ calls, call.isRequest = false) →
    Runs.run step (start r.host cache) (.request r.message garbage :: calls) = .ok t →
    Runs.Along step Timely (start r.host cache) (.request r.message garbage :: calls) →
    ∀ x ∈ t.done, x.delivered = x.answer.forwarded

/-! ### A request that is transferred -/

variable {r : CompleteRequest} {s t : KeptAlive} {cache : Cache} {garbage : Bytes}

/-- What is known of a request that is transferred: what was sent of it, and that
what is read and given to the client comes from the answer. -/
def Transfers (r : CompleteRequest) (s : KeptAlive) : Prop :=
  match s.phase with
  | .sending m next => next = .transfer r.message ∧ s.asked ++ m.unsent = r.text ∧ s.answer = none ∧
    s.unread = [] ∧ s.written = [] ∧ s.done = []
  | .transferring m _ => s.asked = r.text ∧ s.done = [] ∧ s.Follows m
  | .answering m _ certified _ => s.asked = r.text ∧ s.done = [] ∧ certified = none ∧
    ∃ a, s.answer = some a ∧ s.written ++ m.unsent <+: a.forwarded
  | .awaiting _ | .left => s.Forwarded r
  | .validating _ _ _ | .reconnecting _ => False

theorem Forwarded.share (forwarded : s.Forwarded r) (cache : Cache) : Forwarded r { s with cache } :=
  ⟨forwarded.asked, forwarded.whole, forwarded.given, forwarded.unanswered, forwarded.uncached, forwarded.done⟩

theorem Forwarded.leave (forwarded : s.Forwarded r) : Forwarded r { s with phase := .left } := by
  refine ⟨forwarded.asked, forwarded.whole, forwarded.given, forwarded.unanswered, ?_, forwarded.done⟩
  intro m rqst cached closing same
  cases same

theorem forwarded_done {a : Answer} {x : Exchange} {phase : ExchangePhase} {written : Bytes}
    (idle : phase = .left ∨ ∃ host, phase = .awaiting host) (asked : s.asked = r.text) (answered : s.answer = some a)
    (given : written <+: a.forwarded) (uncertified : x.certified = none) (answer : x.answer = a)
    (delivered : x.delivered = written) :
    Forwarded r { s with phase, written, done := [x] } := by
  constructor
  · exact ⟨[], (List.append_nil _).trans asked⟩
  · intro _
    exact asked
  · intro b other
    have same : some a = some b := answered.symm.trans other
    cases same
    exact given
  · intro unanswered
    have impossible : some a = none := answered.symm.trans unanswered
    cases impossible
  · intro m rqst cached closing same
    rcases idle with left | ⟨host, awaiting⟩
    · cases left.symm.trans same
    · cases awaiting.symm.trans same
  · intro y member
    rw [List.mem_singleton.mp member]
    refine ⟨uncertified, ?_, ?_⟩
    · rw [answer]
      exact answered
    · rw [answer, delivered]
      exact given

theorem forwarded_given {a : Answer} (uncached : ∀ m rqst cached closing, s.phase ≠ .answering m rqst (some cached) closing)
    (asked : s.asked = r.text) (done : s.done = []) (answered : s.answer = some a) (given : s.written <+: a.forwarded) :
    s.Forwarded r := by
  constructor
  · exact ⟨[], (List.append_nil _).trans asked⟩
  · intro _
    exact asked
  · intro b other
    have same : some a = some b := answered.symm.trans other
    cases same
    exact given
  · intro none
    rw [answered] at none
    cases none
  · exact uncached
  · intro x member
    rw [done] at member
    cases member

theorem Transfers.forwarded (known : s.Transfers r) : s.Forwarded r := by
  unfold Transfers at known
  split at known
  · rename_i m next phase
    obtain ⟨_, rest, unanswered, _, fresh, done⟩ := known
    constructor
    · rw [← rest]
      exact List.prefix_append _ _
    · intro answered
      exact absurd unanswered answered
    · intro a other
      have impossible : none = some a := unanswered.symm.trans other
      cases impossible
    · intro _
      exact fresh
    · intro m rqst cached closing same
      rw [phase] at same
      cases same
    · intro x member
      rw [done] at member
      cases member
  · rename_i m rqst phase
    obtain ⟨asked, done, follows⟩ := known
    obtain ⟨a, answered, given⟩ := follows.given
    apply forwarded_given _ asked done answered given
    intro m rqst cached closing same
    rw [phase] at same
    cases same
  · rename_i m rqst certified closing phase
    obtain ⟨asked, done, uncertified, a, answered, given⟩ := known
    apply forwarded_given _ asked done answered ((List.prefix_append _ _).trans given)
    intro m rqst cached closing same
    rw [phase, uncertified] at same
    cases same
  · exact known
  · exact known
  · exact known.elim
  · exact known.elim

/-- What is known of the request holds after the step, if there is one. -/
def Keeping (r : CompleteRequest) (result : Except Fault KeptAlive) : Prop := ∀ t, result = .ok t → Transfers r t

theorem keeping_error (e : Fault) : Keeping r (.error e) := by
  intro t failed
  cases failed

theorem Transfers.keeping (known : s.Transfers r) : Keeping r (.ok s) := by
  intro t same
  cases same
  exact known

theorem transfers_serverIn {n : Nat} (known : s.Transfers r) : Keeping r (s.serverIn n garbage) := by
  unfold serverIn
  cases phase : s.phase with
  | validating m rqst cached =>
    unfold Transfers at known
    rw [phase] at known
    exact known.elim
  | transferring m rqst =>
    unfold Transfers at known
    rw [phase] at known
    obtain ⟨asked, done, follows⟩ := known
    dsimp only
    cases got : s.readFrom m n with
    | error e => exact keeping_error e
    | ok result =>
      obtain ⟨m', s'⟩ := result
      obtain ⟨a, k, answered, unread, within, rfl, after⟩ := follows.readFrom got
      simp only [bind, Except.bind, pure, Except.pure]
      split
      · rename_i isRead
        unfold transferred
        split
        · apply Transfers.keeping
          refine ⟨asked, done, rfl, a, answered, ?_⟩
          show s.written ++ m'.unsent <+: a.forwarded
          rw [after.written.unsent]
          exact Answer.prefix_forwarded (after.ended isRead)
        · exact keeping_error _
      · rename_i reading
        have more := after.more (Bool.eq_false_iff.mpr reading)
        exact Transfers.keeping ⟨asked, done, a, k + n, answered, within, rfl, more⟩
  | _ => exact keeping_error _

theorem transfers_clientOut {accepted : Nat} (known : s.Transfers r) : Keeping r (s.clientOut accepted) := by
  unfold clientOut
  cases phase : s.phase with
  | transferring m rqst =>
    dsimp only
    split
    · rename_i ready
      unfold Transfers at known
      rw [phase] at known
      obtain ⟨asked, done, follows⟩ := known
      cases wrote : s.writeTo m accepted with
      | error e => exact keeping_error e
      | ok result =>
        obtain ⟨m', s'⟩ := result
        obtain ⟨bytes, rfl, later⟩ := follows.writeTo ready wrote
        exact Transfers.keeping ⟨asked, done, later⟩
    · exact known.keeping
  | answering m rqst certified closing =>
    unfold Transfers at known
    rw [phase] at known
    obtain ⟨asked, done, uncertified, a, answered, given⟩ := known
    dsimp only
    unfold writeTo
    cases wrote : m.writeTo accepted with
    | none => exact keeping_error _
    | some result =>
      obtain ⟨bytes, m'⟩ := result
      have rest := BufferedMessage.unsent_writeTo wrote
      rw [← rest, ← List.append_assoc] at given
      simp only [bind, Except.bind, pure, Except.pure, answered]
      split
      · rename_i written
        rw [BufferedMessage.unsent_isWritten written, List.append_nil] at given
        apply Transfers.keeping
        rw [done]
        have idle : ∀ host, (if closing then .left else .awaiting host) = ExchangePhase.left ∨
            ∃ host', (if closing then .left else .awaiting host) = ExchangePhase.awaiting host' := by
          intro host
          cases closing
          · exact Or.inr ⟨host, rfl⟩
          · exact Or.inl rfl
        have final := forwarded_done (x := { rqst, answer := a, certified, delivered := s.written ++ bytes })
          (idle (rqst.getHeader.getProperty (lit "host"))) asked answered given uncertified rfl rfl
        rw [answered] at final
        cases closing
        · exact final
        · exact final
      · exact Transfers.keeping ⟨asked, done, uncertified, a, rfl, given⟩
  | _ => exact keeping_error _

theorem transfers_share (known : s.Transfers r) (cache : Cache) : Keeping r (.ok { s with cache }) := by
  apply Transfers.keeping
  unfold Transfers at known ⊢
  dsimp only
  cases phase : s.phase with
  | sending m next =>
    rw [phase] at known
    exact known
  | transferring m rqst =>
    rw [phase] at known
    exact known
  | answering m rqst certified closing =>
    rw [phase] at known
    exact known
  | awaiting host =>
    rw [phase] at known
    have shared := known.share cache
    rw [phase] at shared
    exact shared
  | left =>
    rw [phase] at known
    have shared := known.share cache
    rw [phase] at shared
    exact shared
  | validating m rqst cached =>
    rw [phase] at known
    exact known
  | reconnecting rqst =>
    rw [phase] at known
    exact known

theorem transfers_serverOut {accepted : Nat} {answer : Answer} (known : s.Transfers r) :
    Keeping r (s.step (.serverOut accepted answer garbage)) := by
  unfold step
  dsimp only
  split
  · rename_i m next phase
    unfold Transfers at known
    rw [phase] at known
    obtain ⟨rfl, rest, unanswered, drained, fresh, done⟩ := known
    split
    · rename_i bytes m' wrote
      have left := BufferedMessage.unsent_writeTo wrote
      rw [← left, ← List.append_assoc] at rest
      split
      · rename_i written
        rw [BufferedMessage.unsent_isWritten written, List.append_nil] at rest
        apply Transfers.keeping
        have unread : s.unread ++ answer.bytes = answer.bytes.drop 0 := by
          rw [drained]
          rfl
        refine ⟨rest, done, answer, 0, rfl, Nat.zero_le _, unread, ?_⟩
        show Reading answer _ 0 s.written
        rw [fresh]
        exact reading_new answer []
      · exact Transfers.keeping ⟨rfl, rest, unanswered, drained, fresh, done⟩
    · exact keeping_error _
  · exact keeping_error _

theorem transfers_step {call : KeptAliveCall} (known : s.Transfers r) (quiet : call.isRequest = false) :
    Keeping r (s.step call) := by
  cases call with
  | request rqst garbage => cases quiet
  | share cache => exact transfers_share known cache
  | serverOut accepted answer garbage => exact transfers_serverOut known
  | serverIn n garbage => exact transfers_serverIn known
  | clientOut accepted => exact transfers_clientOut known
  | reconnected garbage =>
    unfold step
    dsimp only
    split
    · rename_i rqst phase
      unfold Transfers at known
      rw [phase] at known
      exact known.elim
    · exact keeping_error _
  | close => exact Transfers.keeping known.forwarded.leave

theorem transfers_run {calls : List KeptAliveCall} (known : s.Transfers r)
    (quiet : ∀ call ∈ calls, call.isRequest = false) (ran : Runs.run step s calls = .ok t) : t.Transfers r := by
  apply Runs.invariant_along (C := fun _ call => call.isRequest = false) known _ (Runs.Along.of_forall quiet) ran
  intro s call s' known quiet stepped
  exact transfers_step known quiet s' stepped

/-! ### Which requests are transferred -/

/-- The connection when the request is read. -/
def requested (r : CompleteRequest) (cache : Cache) : KeptAlive :=
  { start r.host cache with requests := [r.message] }

theorem step_request (garbage : Bytes) : (start r.host cache).step (.request r.message garbage) =
    (requested r cache).handleClientRequest r.message garbage := by
  unfold step start requested CompleteRequest.host
  dsimp only
  rw [if_pos r.isRead, if_pos rfl]
  rfl

theorem handle_transfer (garbage : Bytes) (plan : planRequest cache r.message = .ok .transfer) :
    (requested r cache).handleClientRequest r.message garbage =
      .ok { requested r cache with phase := .sending (r.message.transferred garbage) (.transfer r.message) } := by
  have here : (requested r cache).cache = cache := rfl
  unfold handleClientRequest
  rw [here, plan]
  rfl

theorem forwards_of_transfer (plan : planRequest cache r.message = .ok .transfer) : Forwards cache r := by
  have handled := fun garbage => (step_request garbage).trans (handle_transfer garbage plan)
  have known : ∀ garbage, Transfers r
      { requested r cache with phase := .sending (r.message.transferred garbage) (.transfer r.message) } :=
    fun garbage => ⟨rfl, r.unsent, rfl, rfl, rfl, rfl⟩
  have forwarded : ∀ garbage calls t, (∀ call ∈ calls, call.isRequest = false) →
      Runs.run step (start r.host cache) (.request r.message garbage :: calls) = .ok t → t.Forwarded r := by
    intro garbage calls t quiet ran
    obtain ⟨s, stepped, ran⟩ := Runs.run_cons.mp ran
    rw [handled garbage, Except.ok.injEq] at stepped
    subst stepped
    exact (transfers_run (known garbage) quiet ran).forwarded
  constructor
  · intro garbage
    exact ⟨_, _, _, handled garbage, rfl, r.unsent⟩
  · exact forwarded
  · intro garbage calls t quiet ran timely x member
    obtain ⟨uncertified, _, _⟩ := (forwarded garbage calls t quiet ran).done x member
    obtain ⟨k, here⟩ := List.getElem?_of_mem member
    obtain ⟨_, same | ⟨cached, certified, _⟩⟩ := (run_sync ran timely).paired k x here
    · exact same
    · rw [uncertified] at certified
      cases certified

/-! ### A request whose URL is cached -/

theorem unmodified_room : unmodified.bytes.length ≤ BUFFER_LENGTH := by decide

theorem writeTo_validate (rqst : RequestHeader) (response : ResponseHeader) (garbage : Bytes) :
    ∃ accepted bytes m, ((makeValidateRequest rqst response).transferred garbage).writeTo accepted = some (bytes, m) ∧
      m.isWritten = true := by
  refine ⟨((makeValidateHeader rqst response).print ++ []).length, (makeValidateHeader rqst response).print ++ [], ?_⟩
  unfold makeValidateRequest BufferedMessage.ofHeader BufferedMessage.transferred BufferedMessage.writeTo
  simp [BufferedMessage.isWritten, BufferedMessage.isRead]

theorem readFrom_unmodified (garbage : Bytes) :
    ∃ m, ((BufferedMessage.new : ServerResponse).transferred garbage).readFrom unmodified.bytes = .ok m ∧
      m.isRead = true ∧ validationVerdict m = .sendCached := by
  have awaits := BufferedMessage.awaits_transferred (L := ResponseLine) garbage
  have front : [] ++ unmodified.bytes = notModified.final.text.bytes ++ [] := rfl
  have bound : (notModified.final.text.bytes ++ []).length < npos := by decide
  have declared : BufferedMessage.declaredLength notModified.final.header = .ok 0 := rfl
  have read := BufferedMessage.readFrom_header awaits front bound
  rw [notModified.final.parsed] at read
  simp only [bind, Except.bind, declared, pure, Except.pure] at read
  exact ⟨_, read, rfl, rfl⟩

/-- The connection when the server is asked about what is cached. -/
def asking (r : CompleteRequest) (cache : Cache) (cached : ServerResponse) (request : ClientRequest) : KeptAlive :=
  { requested r cache with phase := .sending request (.validate r.message cached) }

theorem handle_validate (garbage : Bytes) {request : ClientRequest} {cached : ServerResponse}
    (plan : planRequest cache r.message = .ok (.validate request cached)) :
    (requested r cache).handleClientRequest r.message garbage =
      .ok (asking r cache cached (request.transferred garbage)) := by
  have here : (requested r cache).cache = cache := rfl
  unfold handleClientRequest
  rw [here, plan]
  rfl

theorem step_sent (r : CompleteRequest) (cache : Cache) (cached : ServerResponse) (answer : Answer) (garbage : Bytes)
    {request sent : ClientRequest} {accepted : Nat} {bytes : Bytes} (wrote : request.writeTo accepted = some (bytes, sent)) (written : sent.isWritten = true) :
    (asking r cache cached request).step (.serverOut accepted answer garbage) =
      .ok ({ asking r cache cached request with asked := bytes }.sent answer garbage (.validate r.message cached)) := by
  unfold step asking
  dsimp only
  rw [wrote]
  dsimp only
  rw [if_pos written]
  rfl

theorem planRequest_cached (get : r.message.getHeader.requestLine.getType = .GET)
    (held : cache.isCached r.message.getHeader = true) :
    planRequest cache r.message ≠ .ok .transfer ∧ ∀ resp, planRequest cache r.message ≠ .ok (.establish resp) := by
  unfold planRequest
  dsimp only
  rw [if_pos ⟨get, held⟩]
  simp only [bind, Except.bind, pure, Except.pure]
  constructor
  · split
    · intro same
      cases same
    · split
      · intro same
        cases same
      · intro same
        cases same
  · intro resp
    split
    · intro same
      cases same
    · split
      · intro same
        cases same
      · intro same
        cases same

theorem step_unmodified (garbage : Bytes) {rqst : ClientRequest} {cached : ServerResponse}
    (phase : s.phase = .validating (BufferedMessage.new.transferred garbage) rqst cached)
    (unread : s.unread = unmodified.bytes) : s.step (.serverIn unmodified.bytes.length garbage) =
      .ok ({ s with unread := [] }.sendServerResponse rqst cached (some cached) garbage) := by
  obtain ⟨m, read, isRead, verdict⟩ := readFrom_unmodified garbage
  have some_ : 0 < unmodified.bytes.length := by decide
  have enabled : unmodified.bytes.length ≤ ((BufferedMessage.new : ServerResponse).transferred garbage).shouldRead := by
    rw [(BufferedMessage.awaits_transferred garbage).shouldRead]
    exact unmodified_room
  have got : s.readFrom (BufferedMessage.new.transferred garbage) unmodified.bytes.length =
      .ok (m, { s with unread := [] }) := by
    unfold KeptAlive.readFrom
    rw [unread, if_pos ⟨some_, enabled, Nat.le_refl _⟩, List.take_length, List.drop_length, read]
  unfold step serverIn
  dsimp only
  rw [phase]
  dsimp only
  rw [got]
  simp only [bind, Except.bind, isRead, if_true]
  unfold handleValidationResponse
  have same : validationVerdict (m.transferred garbage) = .sendCached := verdict
  rw [same]
  rfl

theorem cached_given {request : ClientRequest} {cached : ServerResponse}
    (plan : planRequest cache r.message = .ok (.validate request cached)) :
    ∃ calls t m closing, (∀ call ∈ calls, call.isRequest = false) ∧
      Runs.run step (start r.host cache) (.request r.message [] :: calls) = .ok t ∧
      t.phase = .answering m r.message (some cached) closing := by
  obtain ⟨_, _, _, _, same⟩ := planRequest_validate plan
  obtain ⟨accepted, bytes, sent, wrote, written⟩ : ∃ accepted bytes m,
      (request.transferred []).writeTo accepted = some (bytes, m) ∧ m.isWritten = true := by
    rw [same]
    exact writeTo_validate r.message.getHeader cached.getHeader []
  have asked := (step_request []).trans (handle_validate [] plan)
  have answered := step_sent r cache cached unmodified [] wrote written
  have certified := step_unmodified []
    (s := { asking r cache cached (request.transferred []) with asked := bytes }.sent unmodified [] (.validate r.message cached)) rfl rfl
  have ran := Runs.run_cons.mpr ⟨_, asked, Runs.run_cons.mpr ⟨_, answered, Runs.run_cons.mpr ⟨_, certified, Runs.run_nil⟩⟩⟩
  refine ⟨[.serverOut accepted unmodified [], .serverIn unmodified.bytes.length []], _, _, _, ?_, ran, rfl⟩
  intro call member
  simp only [List.mem_cons, List.not_mem_nil, or_false] at member
  rcases member with rfl | rfl
  · rfl
  · rfl

theorem cached_not_forwarded (get : r.message.getHeader.requestLine.getType = .GET)
    (held : cache.isCached r.message.getHeader = true) : ¬Forwards cache r := by
  intro forwards
  obtain ⟨transfers, establishes⟩ := planRequest_cached get held
  cases plan : planRequest cache r.message with
  | error e =>
    obtain ⟨s, m, next, handled, _⟩ := forwards.handled []
    rw [step_request] at handled
    have here : (requested r cache).cache = cache := rfl
    unfold handleClientRequest at handled
    rw [here, plan] at handled
    cases handled
  | ok decided =>
    cases decided with
    | validate request cached =>
      obtain ⟨calls, t, m, closing, quiet, ran, phase⟩ := cached_given plan
      exact (forwards.forwarded [] calls t quiet ran).uncached _ _ _ _ phase
    | establish resp => exact establishes resp plan
    | transfer => exact transfers plan

def putText : Bytes := lit "PUT /a HTTP/1.1\r\nHost: h\r\nContent-Length: 1\r\n\r\nx"

theorem put_read : (BufferedMessage.new : ClientRequest).readFrom putText = .ok (reads putText) := by decide +kernel

theorem put_isRead : (reads putText).isRead = true := by decide +kernel

def put : CompleteRequest where
  message := reads putText
  gathered := BufferedMessage.gathered_new.readFrom (by decide) put_read
  isRead := put_isRead

/-- What was given to the client is cached. -/
def cacheOf (calls : List KeptAliveCall) : Cache :=
  ((Runs.run step (start (lit "h") .empty) calls).toOption.map (·.cache)).getD .empty

end KeptAlive

end ProxyServer
