import ProxyServer.Server.Admission

/-!
# Validated responses

The cached response is sent to the client for an answer of status 200 as for one of
status 304. In a run in which every such 200 carries what is cached, a client is
given what the server has certified.
-/

namespace ProxyServer

/-- The representation that the answer to a validation certifies: the one that it
carries, or the cached one. -/
def certified (cached resp : ServerResponse) : Bytes :=
  if resp.getHeader.requestLine.code = 200 then resp.getCache.flatten else cached.getCache.flatten

namespace Proxy

variable {timer notifier listener : Fd} {events : List Event} {g : Guard} {s : Proxy}

def isWritten (s : Proxy) : MessageRef → Bool
  | .request id => (s.requests id).isWritten
  | .response id => (s.responses id).isWritten

/-! ### What is sent -/

/-- The bytes are sent from the message to the descriptor, and to no other. -/
structure Conveys (s : Proxy) (fd : Fd) (message : MessageRef) (bytes : Bytes) : Prop where
  sending : .sending fd message bytes ∈ s.trace
  sent : sentOf s.trace message <+: bytes
  whole : s.isWritten message = true → sentOf s.trace message = bytes
  only : ∀ fd' out, .wrote fd' message out ∈ s.trace → fd' = fd

theorem conveys_sending (sound : s.view.Sound g) {fd : Fd} {message : MessageRef} {bytes : Bytes}
    (seen : .sending fd message bytes ∈ s.trace) : s.Conveys fd message bytes := by
  obtain ⟨_, rest, only, _⟩ := sound.recorded.sending seen
  refine ⟨seen, ⟨_, rest⟩, fun written => ?_, only⟩
  have done : s.view.ledger.unsent message = [] := by
    cases message with
    | request id => exact BufferedMessage.unsent_isWritten written
    | response id => exact BufferedMessage.unsent_isWritten written
  rw [done, List.append_nil] at rest
  exact rest

/-! ### Freshness -/

/-- The response is stored for the URL after the observation. -/
def StoredSince (s : Proxy) (o : Obs) (url : Bytes) (value : CachedMessage) : Prop :=
  ∃ before after rqst resp, s.trace = before ++ o :: after ∧ .transferred rqst resp ∈ after ∧
    toUrl rqst.getHeader = url ∧ resp.getCache = value

/-- What is cached for the URL of the request was transferred for it. -/
def Transferred (s : Proxy) (rqst : ClientRequest) (cached : ServerResponse) : Prop :=
  ∃ rqst' resp, .transferred rqst' resp ∈ s.trace ∧ toUrl rqst'.getHeader = toUrl rqst.getHeader ∧
    BufferedMessage.ofCache resp.getCache = .ok cached

/-- A client is given a cached representation when the server has certified it, and
else the one that the server certified. -/
structure Fresh (s : Proxy) : Prop where
  /-- For a GET whose URL is cached the server is asked about what is cached. -/
  asks : ∀ {rqst value message}, .handled rqst (some value) message ∈ s.trace →
    rqst.getHeader.requestLine.type = lit "GET" → ∃ fd cached, BufferedMessage.ofCache value = .ok cached ∧
      s.Conveys fd message (validationText rqst cached)
  /-- An answer is one to the request for a validation of what is cached. -/
  asked : ∀ {rqst cached resp given}, .validated rqst cached resp given ∈ s.trace →
    s.Transferred rqst cached ∧ ∃ fd message, s.Conveys fd message (validationText rqst cached) ∧
      sentOf s.trace message = validationText rqst cached
  gives : ∀ {rqst cached resp given}, .validated rqst cached resp given ∈ s.trace →
    resp.getHeader.requestLine.code = 200 ∨ resp.getHeader.requestLine.code = 304 →
    ∃ client answer, given = some (client, answer) ∧ s.Conveys client answer (certified cached resp)
  /-- Nothing else that is cached is given to a client. -/
  only : ∀ {rqst cached resp client answer}, .validated rqst cached resp (some (client, answer)) ∈ s.trace →
    s.Conveys client answer (certified cached resp)
  /-- After a 200 the cache does not hold what it superseded. -/
  drops : ∀ {rqst cached resp given}, .validated rqst cached resp given ∈ s.trace →
    resp.getHeader.requestLine.code = 200 → cached.getCache.flatten ≠ resp.getCache.flatten →
    (toUrl rqst.getHeader, cached.getCache) ∈ s.cache.entries →
    s.StoredSince (.validated rqst cached resp given) (toUrl rqst.getHeader) cached.getCache

/-- An answer of status 200 to a validation carries what is cached. -/
def Revalidates (cached resp : ServerResponse) : Prop :=
  resp.getHeader.requestLine.code = 200 → resp.getCache.flatten = cached.getCache.flatten

instance (cached resp : ServerResponse) : Decidable (Revalidates cached resp) :=
  inferInstanceAs (Decidable (_ → _))

/-- The answer to a validation that the step completes, if any, is such. -/
def revalidates (s : Proxy) (event : Event) : Bool :=
  (s.handlers event.fd).all fun h =>
    (h.validated s.responses event.state event.io).all fun (cached, a) => Revalidates cached a.resp

theorem Revalidates.certified {cached resp : ServerResponse} (revalidates : Revalidates cached resp) :
    certified cached resp = cached.getCache.flatten := by
  unfold ProxyServer.certified
  split
  · rename_i found
    exact revalidates found
  · rfl

theorem validationVerdict_valid {resp : ServerResponse}
    (valid : resp.getHeader.requestLine.code = 200 ∨ resp.getHeader.requestLine.code = 304) :
    validationVerdict resp = .sendCached := by
  unfold validationVerdict
  exact if_pos valid

theorem sound_given {rqst : ClientRequest} {cached resp : ServerResponse} {client : Fd} {answer : MessageRef}
    (sound : s.view.Sound { validates := fun cached _ _ _ resp => Revalidates cached resp })
    (seen : .validated rqst cached resp (some (client, answer)) ∈ s.trace) :
    s.Conveys client answer (certified cached resp) := by
  have verified := sound.recorded.validated seen
  obtain ⟨_, _, _, holds⟩ := verified.holds
  rw [Revalidates.certified holds]
  exact conveys_sending sound (verified.sending client answer rfl)

theorem sound_fresh (sound : s.view.Sound { validates := fun cached _ _ _ resp => Revalidates cached resp }) : s.Fresh where
  asks := by
    intro rqst value message seen get
    obtain ⟨fd, bytes, sending, text⟩ := sound.recorded.handled seen
    have type : rqst.getHeader.requestLine.getType = .GET := by rw [RequestLine.getType, if_pos get]
    rw [requestText, if_pos type] at text
    cases parsed : BufferedMessage.ofCache (L := ResponseLine) value with
    | error e => simp [parsed, Except.map] at text
    | ok cached =>
      obtain rfl : validationText rqst cached = bytes := by simpa [parsed, Except.map] using text
      exact ⟨fd, cached, rfl, conveys_sending sound sending⟩
  asked := by
    intro rqst cached resp given seen
    obtain ⟨stocked, fd, message, sending, whole⟩ := (sound.recorded.validated seen).asked
    have conveys := conveys_sending sound sending
    exact ⟨stocked, fd, message, conveys, List.IsPrefix.eq_of_length_le conveys.sent whole.length_le⟩
  gives := by
    intro rqst cached resp given seen code
    obtain ⟨⟨client, answer⟩, rfl⟩ : ∃ x, given = some x :=
      Option.isSome_iff_exists.mp ((sound.recorded.validated seen).valid.mpr (validationVerdict_valid code))
    exact ⟨client, answer, rfl, sound_given sound seen⟩
  only := sound_given sound
  drops := by
    intro rqst cached resp given seen found superseded
    obtain ⟨_, _, _, holds⟩ := (sound.recorded.validated seen).holds
    exact absurd (holds found).symm superseded

/-! ### What the origin has sent -/

/-- The answer that was read is what the server has sent in answer to the request. -/
def AnsweredBy (o : Origins) (c : ConnId) (k : Nat) (resp : ServerResponse) : Prop :=
  ∀ h : Headed ResponseLine, o c k = h.bytes →
    resp.getHeader = h.header ∧ resp.getCache.flatten <+: h.header.print ++ h.behind ∧
      (h.header.hasProperty (lit "content-length") = true → Frames h.header h.behind →
        resp.getCache.flatten = h.header.print ++ h.behind)

/-- Every answer to a validation is what the server has sent in answer to the request for it. -/
def Certifies (o : Origins) (s : Proxy) : Prop :=
  ∀ rqst cached resp given, .validated rqst cached resp given ∈ s.trace →
    ∃ c k, s.view.ledger.Told c k (validationText rqst cached) ∧ AnsweredBy o c k resp

/-- When the server was asked about what is cached, nothing that it had sent was left to be read. -/
def asksPromptly (o : Origins) (s : Proxy) (event : Event) : Bool :=
  (s.handlers event.fd).all fun h =>
    (h.validated s.responses event.state event.io).all fun (_, a) =>
      let d := dialogue s.trace a.conn
      d.earlier = o.stream a.conn (d.requests.length - 1)

theorem answeredBy_of_heeds {o : Origins} {h : Handler} {event : Event} {cached : ServerResponse} {a : Arrival} {k : Nat}
    (reads : s.readsAnswers o event = true) (prompt : s.asksPromptly o event = true) (installed : s.handlers event.fd = some h)
    (validated : h.validated s.responses event.state event.io = some (cached, a))
    (heeds : Heeds s.view.ledger a.conn k a.bytes a.resp) : AnsweredBy o a.conn k a.resp := by
  have count : (dialogue s.trace a.conn).requests.length = k + 1 := heeds.count
  simp only [asksPromptly, installed, Option.all_some, validated, decide_eq_true_eq, count, Nat.add_sub_cancel] at prompt
  have begins := begins_of_reads reads installed (Handler.hears_validated validated) count prompt
  intro page sent
  rw [sent] at begins
  obtain ⟨header, content⟩ := heeds.received.begins begins heeds.done
  exact ⟨header, content, fun announced framed =>
    framed.content heeds.received heeds.done begins fun unannounced => by simp [announced] at unannounced⟩

theorem certifies_run (opens : Opens timer notifier listener) {o : Origins}
    (reads : Runs.Along step (fun s event => s.readsAnswers o event = true) (init timer notifier listener) events)
    (prompt : Runs.Along step (fun s event => s.asksPromptly o event = true) (init timer notifier listener) events)
    {t : Proxy} (ran : Runs.run step (init timer notifier listener) events = .ok t) : t.Certifies o := by
  have careful : Runs.Along step (Careful { validates := fun _ c k _ resp => AnsweredBy o c k resp })
      (init timer notifier listener) events :=
    (reads.and prompt).mono fun s event both =>
      { closes := False.elim
        pending := False.elim
        current := False.elim
        answers := fun _ _ _ _ _ _ _ => trivial
        validates := fun h cached a k installed validated heeds =>
          answeredBy_of_heeds both.1 both.2 installed validated heeds
        opens := fun _ _ => trivial }
  intro rqst cached resp given seen
  exact ((run_sound opens (fun _ => trivial) careful ran).recorded.validated seen).holds

/-- A client gets `found`, and again, when the server answers the validation with
`answer`. -/
def validation (answer : Bytes) : List Event :=
  exchange found ++
    [sends 6, receives 6 (getFrom (lit "h")), sends 7, receives 7 answer, sends 6]

def notModified : Bytes := lit "HTTP/1.1 304 Not Modified\r\n\r\n"

def superseding : Bytes := lit "HTTP/1.1 200 OK\r\nETag: 2\r\nContent-Length: 3\r\n\r\nnew"

/-- What was sent after a validation is not what was certified. -/
def Obs.givesOther (trace : List Obs) : Obs → Bool
  | .validated _ cached resp (some (_, answer)) => !(sentOf trace answer).isPrefixOf (certified cached resp)
  | _ => false

end Proxy

end ProxyServer
