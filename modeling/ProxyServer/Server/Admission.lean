import ProxyServer.Request.Chunked
import ProxyServer.Server.Resolution

/-!
# What the cache holds

`should_cache` looks at properties of the response only, and the response to a request is
what is read of the server next. The cache holds complete responses to plain GETs in a run in
which nothing else is admitted.
-/

namespace ProxyServer

/-- The properties that make a request conditional, or one for a range. -/
def selective : List Bytes :=
  [lit "if-match", lit "if-none-match", lit "if-modified-since", lit "if-unmodified-since", lit "if-range",
    lit "range"]

def PlainGet (request : RequestHeader) : Prop :=
  request.requestLine.type = lit "GET" ∧ ∀ name ∈ selective, request.hasProperty name = false

instance (request : RequestHeader) : Decidable (PlainGet request) :=
  inferInstanceAs (Decidable (_ ∧ ∀ name ∈ selective, _))

/-- The body is the one that the header frames. -/
def Frames (header : ResponseHeader) (body : Bytes) : Prop :=
  if header.hasProperty (lit "content-length") then
    BufferedMessage.declaredLength header = .ok body.length
  else header.getProperty (lit "transfer-encoding") = lit "chunked" ∧ ChunkedBody body

/-! ### What origins send -/

/-- What the server of each connection sends in answer to each request that it was sent. -/
abbrev Origins := ConnId → Nat → Bytes

/-- What the server sends in answer to its first `n` requests. -/
def Origins.stream (o : Origins) (c : ConnId) (n : Nat) : Bytes := (List.range n).flatMap (o c)

theorem Origins.stream_succ (o : Origins) (c : ConnId) (n : Nat) : o.stream c (n + 1) = o.stream c n ++ o c n := by
  simp [Origins.stream, List.range_succ]

/-- One response of status 200 with the whole of its body, and nothing behind it. -/
structure CompleteOk (answer : Bytes) (h : Headed ResponseLine) : Prop where
  whole : answer = h.bytes
  ok : h.header.requestLine.code = 200
  framed : Frames h.header h.behind

/-- A message that is read to its end, of a server that sends one response and nothing else, holds
the response. -/
theorem Frames.content {bytes : Bytes} {h : Headed ResponseLine} {resp : ServerResponse} (framed : Frames h.header h.behind)
    (received : resp.Received bytes) (done : resp.isRead = true) (begins : bytes <+: h.bytes)
    (ends : h.header.hasProperty (lit "content-length") = false → h.bytes.length ≤ bytes.length) :
    resp.getCache.flatten = h.header.print ++ h.behind := by
  have all : bytes = h.bytes := by
    cases announced : h.header.hasProperty (lit "content-length") with
    | true =>
      rw [Frames, if_pos announced] at framed
      exact received.ends begins done announced framed
    | false => exact begins.eq_of_length_le (ends announced)
  rw [all] at received
  exact received.whole.2.1

namespace Proxy

variable {timer notifier listener : Fd} {events : List Event} {o : Origins} {s : Proxy} {event : Event}

/-- What is read of a server in the step is what it sends next. -/
def readsAnswers (o : Origins) (s : Proxy) (event : Event) : Bool :=
  (s.handlers event.fd).all fun h =>
    (h.hears s.responses event.state event.io).all fun (c, bytes) =>
      let d := dialogue s.trace c
      (d.earlier ++ d.since ++ bytes).isPrefixOf (o.stream c d.requests.length)

/-- The response that is stored is to a plain GET. The server has answered it with one complete
response of status 200, before which nothing was left to be read; without a Content-Length
that is read to its end. -/
structure Admissible (o : Origins) (d : Dialogue) (a : Arrival) (k : Nat) : Prop where
  plain : PlainGet a.rqst.getHeader
  prompt : d.earlier = o.stream a.conn k
  complete : ∃ h, CompleteOk (o a.conn k) h ∧
    (h.header.hasProperty (lit "content-length") = false → (o a.conn k).length ≤ (d.since ++ a.bytes).length)

/-- Nothing else is stored. -/
def AdmitsAnswers (o : Origins) (s : Proxy) (event : Event) : Prop :=
  ∀ h a k, s.handlers event.fd = some h → h.completed s.responses event.state event.io = some a →
    s.cache.admits a.rqst a.resp = true → (dialogue s.trace a.conn).requests.length = k + 1 →
    Admissible o (dialogue s.trace a.conn) a k

/-- The stored response is what the server that was found for the host has answered to a plain
GET of the URL, the `k`-th request that it was sent. -/
structure Answers (o : Origins) (s : Proxy) (url : Bytes) (cached : CachedMessage) (c : ConnId) (k : Nat)
    (rqst : ClientRequest) : Prop where
  url : url = toUrl rqst.getHeader
  plain : PlainGet rqst.getHeader
  routed : s.view.ledger.Routed c rqst
  told : s.view.ledger.Told c k rqst.unsent
  complete : ∃ h, CompleteOk (o c k) h ∧ cached.flatten = h.header.print ++ h.behind

def CacheAnswers (o : Origins) (s : Proxy) : Prop :=
  ∀ url cached, (url, cached) ∈ s.cache.entries → ∃ c k rqst, s.Answers o url cached c k rqst

/-- What is read of the server follows in its answer to the last request, when nothing is left of
the others. -/
theorem begins_of_reads {h : Handler} {a : Arrival} {k : Nat} (reads : s.readsAnswers o event = true)
    (installed : s.handlers event.fd = some h)
    (hears : h.hears s.responses event.state event.io = some (a.conn, a.bytes))
    (count : (dialogue s.trace a.conn).requests.length = k + 1) (prompt : (dialogue s.trace a.conn).earlier = o.stream a.conn k) :
    (dialogue s.trace a.conn).since ++ a.bytes <+: o a.conn k := by
  simp only [readsAnswers, installed, hears, Option.all_some, List.isPrefixOf_iff_prefix, count, prompt,
    Origins.stream_succ, List.append_assoc] at reads
  exact (List.prefix_append_right_inj _).mp reads

/-- The response is all that the server answers to a plain GET. -/
def satisfies (o : Origins) : Ledger.Answering := fun c k rqst resp =>
  PlainGet rqst.getHeader ∧ ∃ h, CompleteOk (o c k) h ∧ resp.getCache.flatten = h.header.print ++ h.behind

theorem cache_answers (opens : Opens timer notifier listener)
    (reads : Runs.Along step (fun s event => s.readsAnswers o event = true) (init timer notifier listener) events)
    (admits : Runs.Along step (AdmitsAnswers o) (init timer notifier listener) events) {t : Proxy}
    (ran : Runs.run step (init timer notifier listener) events = .ok t) : t.CacheAnswers o := by
  let guard : Guard := { answers := satisfies o }
  have careful : Runs.Along step (Careful guard) (init timer notifier listener) events :=
    (reads.and admits).mono fun s event both =>
      { closes := False.elim
        pending := False.elim
        current := False.elim
        answers := by
          intro h a k installed completed heeds stores
          obtain ⟨plain, prompt, page, complete, ends⟩ := both.2 h a k installed completed stores heeds.count
          have begins := begins_of_reads both.1 installed (Handler.hears_completed completed) heeds.count prompt
          rw [complete.whole] at begins ends
          exact ⟨plain, page, complete, complete.framed.content heeds.received heeds.done begins ends⟩
        validates := fun _ _ _ _ _ _ _ => trivial
        opens := fun _ _ => trivial }
  intro url cached held
  obtain ⟨rqst, resp, _, url, rfl, c, k, routed, told, plain, complete⟩ :=
    (run_sound opens (fun _ => trivial) careful ran).recorded.admitted held
  exact ⟨c, k, rqst, url, plain, routed, told, complete⟩

def getFrom (host : Bytes) : Bytes := lit "GET / HTTP/1.1\r\nHost: " ++ host ++ lit "\r\n\r\n"

def sends (fd : Fd) : Event := { fd, state := .OUT, io := { quiet with write := some BUFFER_LENGTH } }

/-- A client gets `response` from the server. -/
def exchange (response : Bytes) : List Event :=
  [accepts 6, receives 6 (getFrom (lit "h")), resolves 7, connects 7, sends 7, receives 7 response]

/-- The server of the first connection sends the answers, and the others nothing. -/
def firstSends (answers : List Bytes) : Origins := fun c k => if c = 0 then answers.getD k [] else []

def found : Bytes := lit "HTTP/1.1 200 OK\r\nContent-Length: 2\r\nETag: 1\r\n\r\nok"

def foundPage : Headed ResponseLine where
  text := .ofLines (lit "HTTP/1.1 200 OK") [lit "Content-Length: 2", lit "ETag: 1"] (by decide)
  header := {
    requestLine := .new 200 (lit "OK")
    properties := [⟨lit "content-length", lit "2"⟩, ⟨lit "etag", lit "1"⟩] }
  parsed := by decide
  behind := lit "ok"

theorem found_complete : CompleteOk found foundPage where
  whole := by decide
  ok := by decide
  framed := by
    rw [Frames, if_pos (by decide)]
    decide

/-- What is stored in the step is read in answer to the first request, a plain GET. -/
def admitsFirst (s : Proxy) (event : Event) : Bool :=
  (s.handlers event.fd).all fun h =>
    (h.completed s.responses event.state event.io).all fun a =>
      PlainGet a.rqst.getHeader ∧ a.conn = 0 ∧ (dialogue s.trace 0).earlier = [] ∧ (dialogue s.trace 0).requests.length = 1

theorem admitsAnswers_of_first {page : Bytes} {h : Headed ResponseLine} (complete : CompleteOk page h)
    (announced : h.header.hasProperty (lit "content-length") = true) (first : s.admitsFirst event = true) :
    s.AdmitsAnswers (firstSends [page]) event := by
  rintro handler ⟨c, bytes, rqst, resp⟩ k installed completed _ count
  simp only [admitsFirst, installed, Option.all_some, completed, decide_eq_true_eq] at first
  obtain ⟨plain, rfl, silent, once⟩ := first
  obtain rfl : 0 = k := Nat.succ.inj (once.symm.trans count)
  exact ⟨plain, silent, h, complete, fun unannounced => by simp [announced] at unannounced⟩

theorem cache_answers_found : ∃ t, Runs.run step (init 3 4 5) (exchange found) = .ok t ∧
    t.cache.entries ≠ [] ∧ t.CacheAnswers (firstSends [found]) := by
  obtain ⟨t, ran, stored⟩ : ∃ t, Runs.run step (init 3 4 5) (exchange found) = .ok t ∧
      decide (t.cache.entries ≠ []) = true := Runs.run_any (by decide +kernel)
  have first : Runs.Along step (fun s event => s.admitsFirst event = true) (init 3 4 5) (exchange found) := by
    decide +kernel
  exact ⟨t, ran, of_decide_eq_true stored, cache_answers opens_345 (by decide +kernel)
    (first.mono fun _ _ => admitsAnswers_of_first found_complete (by decide)) ran⟩

def missing : Bytes := lit "HTTP/1.1 404 Not Found\r\nETag: 1\r\nContent-Length: 0\r\n\r\n"

/-- `missing` does not begin with the header of a response of status 200. -/
theorem missing_incomplete (h : Headed ResponseLine) : ¬CompleteOk missing h := by
  intro complete
  have whole := complete.whole
  have bound : (h.text.bytes ++ h.behind).length < npos := by
    rw [← Headed.bytes, ← whole]
    decide
  have parsed : HttpHeader.parse missing = .ok h.header := by
    rw [whole, Headed.bytes, HeaderText.parse_text h.text h.behind bound, h.parsed]
  have code : (HttpHeader.parse missing : Except CppError ResponseHeader).toOption.any
      (fun header => header.requestLine.code ≠ 200) = true := by decide +kernel
  rw [parsed] at code
  exact of_decide_eq_true code complete.ok

theorem not_found_stored : ¬∀ (timer notifier listener : Fd) (o : Origins) (events : List Event) (t : Proxy),
    Opens timer notifier listener →
      Runs.Along step (fun s event => s.readsAnswers o event = true) (init timer notifier listener) events →
      Runs.run step (init timer notifier listener) events = .ok t → t.CacheAnswers o := by
  intro claim
  obtain ⟨t, ran, stored⟩ : ∃ t, Runs.run step (init 3 4 5) (exchange missing) = .ok t ∧
      decide (t.cache.entries ≠ []) = true := Runs.run_any (by decide +kernel)
  have answers := claim 3 4 5 (firstSends [missing]) (exchange missing) t opens_345 (by decide +kernel) ran
  obtain ⟨⟨url, cached⟩, held⟩ := List.exists_mem_of_ne_nil _ (of_decide_eq_true stored)
  obtain ⟨c, k, rqst, answered⟩ := answers url cached held
  obtain ⟨h, complete, _⟩ := answered.complete
  have sent : firstSends [missing] c k = missing ∨ firstSends [missing] c k = [] := by
    unfold firstSends
    cases k <;> split <;> simp
  rcases sent with all | none
  · exact missing_incomplete h (all ▸ complete)
  · have size := HeaderText.four_le_length h.text
    have empty := congrArg List.length complete.whole
    rw [none, h.length_bytes, List.length_nil] at empty
    omega

end Proxy

end ProxyServer
