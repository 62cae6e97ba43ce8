import ProxyServer.Exchange.Reading

/-!
# Requests and responses in pairs

In a run in which no read ends a response before the answer ends, the k-th response
that a client is given answers its k-th request.
-/

namespace ProxyServer

/-- The client was given the whole answer, or the cached response that the answer
certifies. -/
def Exchange.Paired (x : Exchange) : Prop :=
  x.delivered = x.answer.forwarded ∨ ∃ cached, x.certified = some cached ∧
    x.answer.final.header.requestLine.code = 304 ∧ x.delivered = cached.getCache.flatten

namespace Sent

def rqst : Sent → ClientRequest
  | .validate rqst _ => rqst
  | .transfer rqst => rqst

/-- What is cached was not written yet. -/
def Unwritten : Sent → Prop
  | .validate _ cached => cached.unsent = cached.getCache.flatten
  | .transfer _ => True

end Sent

namespace KeptAlive

/-- The k-th response that was delivered answers the k-th request. -/
def Paired (s : KeptAlive) : Prop :=
  ∀ (k : Nat) (x : Exchange), s.done[k]? = some x → s.requests[k]? = some x.rqst ∧ x.Paired

/-- The answer to a validation is no 200 that carries something else than what is cached. -/
def Certifies (a : Answer) : ExchangePhase → Prop
  | .validating _ _ cached => a.head.requestLine.code = 200 → cached.getCache.flatten = a.forwarded
  | _ => True

instance Certifies.decide (a : Answer) : (phase : ExchangePhase) → Decidable (Certifies a phase)
  | .validating _ _ _ => inferInstanceAs (Decidable (_ → _))
  | .awaiting _ | .sending _ _ | .transferring _ _ | .answering _ _ _ _ | .reconnecting _ | .left => isTrue trivial

/-- A read that ends a response takes all that is left of the answer. -/
def Timely (s : KeptAlive) : KeptAliveCall → Prop
  | .serverIn n _ => ∀ a ∈ s.answer,
    (a.Ends (a.bytes.length - s.unread.length) n → n = s.unread.length) ∧ Certifies a s.phase
  | _ => True

instance Timely.decide (s : KeptAlive) : (call : KeptAliveCall) → Decidable (s.Timely call)
  | .serverIn _ _ => inferInstanceAs (Decidable (∀ a ∈ s.answer, _))
  | .request _ _ | .share _ | .serverOut _ _ _ | .clientOut _ | .reconnected _ | .close => isTrue trivial

structure Asks (s : KeptAlive) (rqst : ClientRequest) : Prop where
  count : s.requests.length = s.done.length + 1
  last : s.requests[s.done.length]? = some rqst

/-- What is known in each phase: nothing of an earlier answer is left to be read. -/
def Place (s : KeptAlive) : ExchangePhase → Prop
  | .awaiting _ => s.unread = [] ∧ s.requests.length = s.done.length
  | .sending _ next => s.Asks next.rqst ∧ s.unread = [] ∧ s.written = [] ∧ next.Unwritten
  | .validating m rqst cached => s.Asks rqst ∧ s.written = [] ∧ cached.unsent = cached.getCache.flatten ∧ s.Follows m
  | .transferring m rqst => s.Asks rqst ∧ s.Follows m
  | .answering m rqst certified _ => s.Asks rqst ∧ s.unread = [] ∧ ∃ answer, s.answer = some answer ∧
    Exchange.Paired { rqst, answer, certified, delivered := s.written ++ m.unsent }
  | .reconnecting rqst => s.Asks rqst ∧ s.unread = [] ∧ s.written = []
  | .left => True

structure Sync (s : KeptAlive) : Prop where
  paired : s.Paired
  place : s.Place s.phase

theorem sync_start (host : Bytes) (cache : Cache) : Sync (start host cache) := by
  constructor
  · intro k x here
    cases here
  · exact ⟨rfl, rfl⟩

/-- The step, if there is one, keeps what is known. -/
def Keeps (result : Except Fault KeptAlive) : Prop := ∀ t, result = .ok t → Sync t

variable {s t : KeptAlive} {rqst : ClientRequest} {garbage : Bytes}

theorem keeps_error (e : Fault) : Keeps (.error e) := by
  intro t failed
  cases failed

theorem Sync.keeps (sync : Sync s) : Keeps (.ok s) := by
  intro t same
  cases same
  exact sync

theorem Asks.push (count : s.requests.length = s.done.length) (rqst : ClientRequest) :
    Asks { s with requests := s.requests ++ [rqst], asked := [], written := [], answer := none } rqst := by
  constructor
  · simp [count]
  · simp [← count]

theorem Paired.push (paired : s.Paired) (rqst : ClientRequest) :
    Paired { s with requests := s.requests ++ [rqst], asked := [], written := [], answer := none } := by
  intro k x here
  obtain ⟨asked, fine⟩ := paired k x here
  obtain ⟨bound, _⟩ := List.getElem?_eq_some_iff.mp asked
  exact ⟨(List.getElem?_append_left bound).trans asked, fine⟩

theorem Paired.answered (paired : s.Paired) (asks : s.Asks rqst) {answer : Answer} {certified : Option ServerResponse}
    {delivered : Bytes} (fine : Exchange.Paired { rqst, answer, certified, delivered })
    (requests : t.requests = s.requests)
    (done : t.done = s.done ++ [({ rqst, answer, certified, delivered } : Exchange)]) : t.Paired := by
  intro k x here
  rw [requests]
  rw [done] at here
  rcases Nat.lt_trichotomy k s.done.length with earlier | now | later
  · exact paired k x ((List.getElem?_append_left earlier).symm.trans here)
  · subst now
    have same : some ({ rqst, answer, certified, delivered } : Exchange) = some x := by
      rw [← here]
      exact List.getElem?_concat_length.symm
    cases same
    exact ⟨asks.last, fine⟩
  · have beyond : (s.done ++ [({ rqst, answer, certified, delivered } : Exchange)])[k]? = none := by
      rw [List.getElem?_eq_none_iff, List.length_append]
      exact later
    rw [beyond] at here
    cases here

theorem handleClientRequest_keeps (paired : s.Paired) (asks : s.Asks rqst) (drained : s.unread = [])
    (fresh : s.written = []) : Keeps (s.handleClientRequest rqst garbage) := by
  unfold handleClientRequest
  cases plan : planRequest s.cache rqst with
  | error e => exact keeps_error _
  | ok decided =>
    cases decided with
    | validate request cached =>
      obtain ⟨value, _, made, _⟩ := planRequest_validate plan
      exact Sync.keeps ⟨paired, ⟨asks.count, asks.last⟩, drained, fresh, BufferedMessage.unsent_ofCache made⟩
    | establish resp => exact Sync.keeps ⟨paired, trivial⟩
    | transfer => exact Sync.keeps ⟨paired, ⟨asks.count, asks.last⟩, drained, fresh, trivial⟩

theorem final_of_code {a : Answer} (code : 200 ≤ a.head.requestLine.code) : a.head = a.final.header := by
  unfold Answer.head at *
  cases interims : a.interims with
  | nil => rfl
  | cons interim rest =>
    rw [interims] at code
    have low := interim.code.2
    dsimp only at code
    omega

theorem handleValidationResponse_keeps {a : Answer} {cached resp : ServerResponse} (paired : s.Paired)
    (asks : s.Asks rqst) (drained : s.unread = []) (fresh : s.written = []) (answered : s.answer = some a)
    (header : resp.header = a.head) (unwritten : cached.unsent = cached.getCache.flatten)
    (current : a.head.requestLine.code = 200 → cached.getCache.flatten = a.forwarded) :
    Keeps (s.handleValidationResponse rqst cached resp garbage) := by
  unfold handleValidationResponse
  cases verdict : validationVerdict resp with
  | sendCached =>
    refine Sync.keeps ⟨paired, ⟨asks.count, asks.last⟩, drained, a, answered, ?_⟩
    have given : s.written ++ (cached.transferred garbage).unsent = cached.getCache.flatten := by
      rw [fresh]
      exact unwritten
    show Exchange.Paired { rqst, answer := a, certified := some cached, delivered := s.written ++ (cached.transferred garbage).unsent }
    rw [given]
    unfold validationVerdict BufferedMessage.getHeader at verdict
    have code : a.head.requestLine.code = 200 ∨ a.head.requestLine.code = 304 := by
      by_contra other
      rw [← header] at other
      dsimp only at verdict
      rw [if_neg other] at verdict
      split at verdict <;> cases verdict
    rcases code with ok | notModified
    · exact Or.inl (current ok)
    · right
      have high : 200 ≤ a.head.requestLine.code := by omega
      refine ⟨cached, rfl, ?_, rfl⟩
      rw [← final_of_code high]
      exact notModified
  | reconnect =>
    dsimp only
    split
    · exact Sync.keeps ⟨paired, ⟨asks.count, asks.last⟩, rfl, fresh⟩
    · exact keeps_error _
  | refetch =>
    dsimp only
    split
    · exact Sync.keeps ⟨paired, ⟨asks.count, asks.last⟩, drained, fresh, trivial⟩
    · exact keeps_error _

theorem transferred_keeps {a : Answer} {resp : ServerResponse} (paired : s.Paired) (asks : s.Asks rqst)
    (drained : s.unread = []) (answered : s.answer = some a) (written : resp.Written s.written)
    (content : resp.cache.flatten = a.forwarded) : Keeps (s.transferred rqst resp garbage) := by
  unfold transferred
  split
  · refine Sync.keeps ⟨paired, ⟨asks.count, asks.last⟩, drained, a, answered, Or.inl ?_⟩
    show s.written ++ resp.unsent = a.forwarded
    rw [written.unsent, content]
  · exact keeps_error _

theorem sent_sync {m : ClientRequest} {next : Sent} (place : s.Place (.sending m next)) (paired : s.Paired) (answer : Answer) :
    Sync (s.sent answer garbage next) := by
  obtain ⟨asks, drained, fresh, unwritten⟩ := place
  have unread : s.unread ++ answer.bytes = answer.bytes.drop 0 := by
    rw [drained]
    rfl
  cases next with
  | validate rqst cached =>
    refine ⟨paired, ⟨asks.count, asks.last⟩, fresh, unwritten, answer, 0, rfl, Nat.zero_le _, unread, ?_⟩
    show Reading answer _ 0 s.written
    rw [fresh]
    exact reading_new answer garbage
  | transfer rqst =>
    refine ⟨paired, ⟨asks.count, asks.last⟩, answer, 0, rfl, Nat.zero_le _, unread, ?_⟩
    show Reading answer _ 0 s.written
    rw [fresh]
    exact reading_new answer []

/-- A read that leaves a response leaves nothing of the answer. -/
theorem whole_of_timely {a : Answer} {m : ServerResponse} {k n : Nat} {before : Bytes}
    (answered : s.answer = some a) (unread : s.unread = a.bytes.drop k) (within : k + n ≤ a.bytes.length)
    (after : AfterRead a m k n before) (isRead : m.isRead = true) (timely : s.Timely (.serverIn n garbage)) :
    k + n = a.bytes.length := by
  have left : s.unread.length = a.bytes.length - k := by rw [unread, List.length_drop]
  have place : a.bytes.length - s.unread.length = k := by omega
  have ends := (timely a answered).1
  rw [place] at ends
  apply after.whole isRead
  intro early
  have all := ends early
  omega

theorem serverIn_keeps {n : Nat} (sync : Sync s) (timely : s.Timely (.serverIn n garbage)) :
    Keeps (s.serverIn n garbage) := by
  have place := sync.place
  unfold serverIn
  cases phase : s.phase with
  | validating m rqst cached =>
    rw [phase] at place
    obtain ⟨asks, fresh, unwritten, follows⟩ := place
    dsimp only
    cases got : s.readFrom m n with
    | error e => exact keeps_error e
    | ok result =>
      obtain ⟨m', s'⟩ := result
      obtain ⟨a, k, answered, unread, within, rfl, after⟩ := follows.readFrom got
      have current := (timely a answered).2
      rw [phase] at current
      simp only [bind, Except.bind, pure, Except.pure]
      split
      · rename_i isRead
        have all := whole_of_timely answered unread within after isRead timely
        have gone : a.bytes.drop (k + n) = [] := List.drop_eq_nil_of_le (by omega)
        exact handleValidationResponse_keeps (s := { s with unread := a.bytes.drop (k + n) }) sync.paired
          ⟨asks.count, asks.last⟩ gone fresh answered (after.ended isRead).isHeader unwritten current
      · rename_i reading
        have more := after.more (Bool.eq_false_iff.mpr reading)
        exact Sync.keeps
          ⟨sync.paired, ⟨asks.count, asks.last⟩, fresh, unwritten, a, k + n, answered, within, rfl, more⟩
  | transferring m rqst =>
    rw [phase] at place
    obtain ⟨asks, follows⟩ := place
    dsimp only
    cases got : s.readFrom m n with
    | error e => exact keeps_error e
    | ok result =>
      obtain ⟨m', s'⟩ := result
      obtain ⟨a, k, answered, unread, within, rfl, after⟩ := follows.readFrom got
      simp only [bind, Except.bind, pure, Except.pure]
      split
      · rename_i isRead
        have all := whole_of_timely answered unread within after isRead timely
        have gone : a.bytes.drop (k + n) = [] := List.drop_eq_nil_of_le (by omega)
        exact transferred_keeps (s := { s with unread := a.bytes.drop (k + n) }) sync.paired
          ⟨asks.count, asks.last⟩ gone answered after.written (after.forwarded isRead all)
      · rename_i reading
        have more := after.more (Bool.eq_false_iff.mpr reading)
        exact Sync.keeps ⟨sync.paired, ⟨asks.count, asks.last⟩, a, k + n, answered, within, rfl, more⟩
  | _ => exact keeps_error _

theorem clientOut_keeps {accepted : Nat} (sync : Sync s) : Keeps (s.clientOut accepted) := by
  have place := sync.place
  unfold clientOut
  cases phase : s.phase with
  | transferring m rqst =>
    rw [phase] at place
    obtain ⟨asks, follows⟩ := place
    dsimp only
    split
    · rename_i ready
      cases wrote : s.writeTo m accepted with
      | error e => exact keeps_error e
      | ok result =>
        obtain ⟨m', s'⟩ := result
        obtain ⟨bytes, rfl, later⟩ := follows.writeTo ready wrote
        exact Sync.keeps ⟨sync.paired, ⟨asks.count, asks.last⟩, later⟩
    · exact sync.keeps
  | answering m rqst certified closing =>
    rw [phase] at place
    obtain ⟨asks, drained, answer, answered, fine⟩ := place
    dsimp only
    unfold writeTo
    cases wrote : m.writeTo accepted with
    | none => exact keeps_error _
    | some result =>
      obtain ⟨bytes, m'⟩ := result
      have rest := BufferedMessage.unsent_writeTo wrote
      rw [← rest, ← List.append_assoc] at fine
      simp only [bind, Except.bind, pure, Except.pure, answered]
      split
      · rename_i done
        rw [BufferedMessage.unsent_isWritten done, List.append_nil] at fine
        refine Sync.keeps ⟨Paired.answered sync.paired asks fine rfl rfl, ?_⟩
        have count : s.requests.length = (s.done ++ [({ rqst, answer, certified, delivered := s.written ++ bytes } :
            Exchange)]).length := by
          rw [List.length_append]
          exact asks.count
        cases closing
        · exact ⟨drained, count⟩
        · trivial
      · exact Sync.keeps ⟨sync.paired, ⟨asks.count, asks.last⟩, drained, answer, rfl, fine⟩
  | _ => exact keeps_error _

theorem Place.share (cache : Cache) {phase : ExchangePhase} (place : s.Place phase) :
    Place { s with cache } phase := by
  cases phase with
  | awaiting oldHost => exact place
  | sending m next =>
    obtain ⟨asks, rest⟩ := place
    exact ⟨⟨asks.count, asks.last⟩, rest⟩
  | validating m rqst cached =>
    obtain ⟨asks, rest⟩ := place
    exact ⟨⟨asks.count, asks.last⟩, rest⟩
  | transferring m rqst =>
    obtain ⟨asks, rest⟩ := place
    exact ⟨⟨asks.count, asks.last⟩, rest⟩
  | answering m rqst certified closing =>
    obtain ⟨asks, rest⟩ := place
    exact ⟨⟨asks.count, asks.last⟩, rest⟩
  | reconnecting rqst =>
    obtain ⟨asks, rest⟩ := place
    exact ⟨⟨asks.count, asks.last⟩, rest⟩
  | left => trivial

theorem step_keeps {call : KeptAliveCall} (sync : Sync s) (timely : s.Timely call) : Keeps (s.step call) := by
  have place := sync.place
  cases call with
  | request rqst garbage =>
    unfold step
    dsimp only
    split
    · rename_i oldHost phase
      rw [phase] at place
      obtain ⟨drained, count⟩ := place
      split
      · split
        · exact handleClientRequest_keeps (Paired.push sync.paired rqst) (Asks.push count rqst) drained rfl
        · exact Sync.keeps ⟨Paired.push sync.paired rqst, trivial⟩
      · exact keeps_error _
    · exact keeps_error _
  | share cache => exact Sync.keeps ⟨sync.paired, place.share cache⟩
  | serverOut accepted answer garbage =>
    unfold step
    dsimp only
    split
    · rename_i m next phase
      rw [phase] at place
      obtain ⟨asks, drained, fresh, unwritten⟩ := place
      split
      · rename_i bytes m' wrote
        split
        · exact Sync.keeps (sent_sync (s := { s with asked := s.asked ++ bytes }) (m := m)
            ⟨⟨asks.count, asks.last⟩, drained, fresh, unwritten⟩ sync.paired answer)
        · exact Sync.keeps ⟨sync.paired, ⟨asks.count, asks.last⟩, drained, fresh, unwritten⟩
      · exact keeps_error _
    · exact keeps_error _
  | serverIn n garbage => exact serverIn_keeps sync timely
  | clientOut accepted => exact clientOut_keeps sync
  | reconnected garbage =>
    unfold step
    dsimp only
    split
    · rename_i rqst phase
      rw [phase] at place
      obtain ⟨asks, drained, fresh⟩ := place
      exact Sync.keeps ⟨sync.paired, ⟨asks.count, asks.last⟩, drained, fresh, trivial⟩
    · exact keeps_error _
  | close => exact Sync.keeps ⟨sync.paired, trivial⟩

theorem run_sync {host : Bytes} {cache : Cache} {calls : List KeptAliveCall}
    (ran : Runs.run step (start host cache) calls = .ok t)
    (timely : Runs.Along step Timely (start host cache) calls) : Sync t := by
  apply Runs.invariant_along (C := Timely) (sync_start host cache) _ timely ran
  intro s call s' sync timely stepped
  exact step_keeps sync timely s' stepped

/-- On a connection that is kept alive the k-th response that is delivered is the
origin's answer to the k-th request, or the cached response that it certifies, in every
run in which no read ends a response before the answer ends. -/
theorem responses_paired {host : Bytes} {cache : Cache} {calls : List KeptAliveCall}
    (ran : Runs.run step (start host cache) calls = .ok t)
    (timely : Runs.Along step Timely (start host cache) calls) : t.Paired :=
  (run_sync ran timely).paired

/-! ### An interim response -/

def reads (text : Bytes) : ClientRequest := ((BufferedMessage.new : ClientRequest).readFrom text).toOption.getD .new

def pageText : HeaderText :=
  .ofLines (lit "HTTP/1.1 200 OK") [lit "ETag: 1", lit "Content-Length: 2"] (by decide)

def pageHeader : ResponseHeader where
  requestLine := .new 200 (lit "OK")
  properties := [⟨lit "etag", lit "1"⟩, ⟨lit "content-length", lit "2"⟩]

theorem page_framed {body : Bytes} (two : body.length = 2) : Framed pageHeader body := by
  right
  left
  rw [two]
  decide

/-- The answer that carries the body, which is cached. -/
def page (body : Bytes) (two : body.length = 2) : Answer where
  interims := []
  final := {
    text := pageText
    header := pageHeader
    parsed := by decide
    code := by decide
    body
    framed := page_framed two }

/-- A GET is sent to the server. -/
def gets (path : Bytes) (answer : Answer) : List KeptAliveCall :=
  [.request (reads (lit "GET " ++ path ++ lit " HTTP/1.1\r\nHost: h\r\n\r\n")) [], .serverOut BUFFER_LENGTH answer []]

/-- `n` bytes of the server are read, and the client is given the response. -/
def given (n : Nat) : List KeptAliveCall := [.serverIn n [], .clientOut BUFFER_LENGTH]

def v1 : Answer := page (lit "v1") rfl

def v2 : Answer := page (lit "v2") rfl

def other : Answer := page (lit "bb") rfl

/-- Every answer is read as a whole. -/
def wholeAnswers : List KeptAliveCall :=
  gets (lit "/a") v1 ++ given v1.bytes.length ++ gets (lit "/b") other ++ given other.bytes.length

theorem whole_answers_paired :
    ∃ t, Runs.run step (start (lit "h") .empty) wholeAnswers = .ok t ∧ t.done.length = 2 ∧ t.Paired := by
  obtain ⟨t, ran, both⟩ : ∃ t, Runs.run step (start (lit "h") .empty) wholeAnswers = .ok t ∧
      decide (t.done.length = 2) = true := Runs.run_any (by decide +kernel)
  exact ⟨t, ran, of_decide_eq_true both, responses_paired ran (by decide +kernel)⟩

def earlyHints : Interim where
  text := .ofLines (lit "HTTP/1.1 103 Early Hints") [] (by decide)
  header := { requestLine := .new 103 (lit "Early Hints"), properties := [] }
  parsed := by decide
  code := by decide
  unsized := by decide
  uncoded := by decide

def notModified : Answer where
  interims := [earlyHints]
  final := {
    text := .ofLines (lit "HTTP/1.1 304 Not Modified") [] (by decide)
    header := { requestLine := .new 304 (lit "Not Modified"), properties := [] }
    parsed := by decide
    code := by decide
    body := []
    framed := Or.inl rfl }

/-- The answer of a server whose validator matches. -/
def unmodified : Answer := { notModified with interims := [] }

/-- The 103 comes in a segment of its own. -/
def hinted : List KeptAliveCall :=
  gets (lit "/a") v1 ++ given v1.bytes.length ++
    gets (lit "/a") notModified ++ [.serverIn earlyHints.text.bytes.length [], .serverOut BUFFER_LENGTH v2 []] ++
    given notModified.final.text.bytes.length ++ gets (lit "/b") other ++ given v2.bytes.length

/-- The third request was answered with the response to the second. -/
def shifted (s : KeptAlive) : Bool :=
  s.done[2]?.any fun x => x.certified.isNone && x.delivered = v2.forwarded && x.delivered ≠ x.answer.forwarded

theorem hinted_shifted : ¬∀ (host : Bytes) (cache : Cache) (calls : List KeptAliveCall) (t : KeptAlive),
    Runs.run step (start host cache) calls = .ok t → t.Paired := by
  intro claim
  obtain ⟨t, ran, seen⟩ : ∃ t, Runs.run step (start (lit "h") .empty) hinted = .ok t ∧ t.shifted = true :=
    Runs.run_any (by decide +kernel)
  unfold shifted at seen
  cases here : t.done[2]? with
  | none =>
    rw [here] at seen
    cases seen
  | some x =>
    simp only [here, Option.any_some, Bool.and_eq_true, Option.isNone_iff_eq_none, decide_eq_true_eq] at seen
    obtain ⟨⟨uncertified, _⟩, different⟩ := seen
    obtain ⟨_, same | ⟨cached, certified, _⟩⟩ := claim _ _ _ t ran 2 x here
    · exact different same
    · rw [uncertified] at certified
      cases certified

end KeptAlive

end ProxyServer
