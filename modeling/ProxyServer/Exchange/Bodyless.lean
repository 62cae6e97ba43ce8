import ProxyServer.Exchange.Machine
import ProxyServer.Request.CacheOrder
import ProxyServer.Request.Lengths

/-!
# Responses without a body

A 304 may repeat the Content-Length of the page that it certifies, and the answer to a
HEAD announces the body of a GET. `bodyless_handed_over_iff` says for which responses
without a body the read that completes the header hands them over.
-/

namespace ProxyServer

open BufferedMessage

/-- A response to the request with this header has no body, whatever it announces. -/
def Bodyless (rqst : ClientRequest) (header : ResponseHeader) : Prop :=
  100 ≤ header.requestLine.code ∧ header.requestLine.code < 200 ∨ header.requestLine.code = 204 ∨
    header.requestLine.code = 304 ∨ rqst.getHeader.requestLine.type = lit "HEAD"

instance (rqst : ClientRequest) (header : ResponseHeader) : Decidable (Bodyless rqst header) :=
  inferInstanceAs (Decidable (_ ∨ _ ∨ _ ∨ _))

/-- The header of a response without a body, in the reads that it arrives in: the last of
them holds its end, and what came behind it. -/
structure BodylessAnswer (rqst : ClientRequest) where
  early : List Bytes
  last : Bytes
  header : ResponseHeader
  present : ∀ p ∈ early, p ≠ []
  fits : (early.flatten ++ last).length ≤ BUFFER_LENGTH
  waits : headerEnd early.flatten = npos
  complete : headerEnd (early.flatten ++ last) ≠ npos
  parsed : HttpHeader.parse (early.flatten ++ last) = .ok header
  bodyless : Bodyless rqst header

namespace BodylessAnswer

variable {rqst : ClientRequest}

def message (r : BodylessAnswer rqst) : Bytes := r.early.flatten ++ r.last

def behind (r : BodylessAnswer rqst) : Bytes := r.message.drop (headerEnd r.message + 4)

/-- The header ends in an empty line, and nothing is waited for behind it. -/
def Ends (r : BodylessAnswer rqst) : Prop :=
  headerEnd r.message + 4 ≤ r.message.length ∧ EndsAtHeader r.header r.behind

theorem last_present (r : BodylessAnswer rqst) : r.last ≠ [] := by
  intro empty
  have complete := r.complete
  rw [empty, List.append_nil] at complete
  exact complete r.waits

/-- The reads of the server. -/
def calls (r : BodylessAnswer rqst) (garbage : Bytes) : List KeptAliveCall :=
  r.early.map (.serverIn ·.length garbage) ++ [.serverIn r.last.length garbage]

end BodylessAnswer

/-- The response to the request is read into `m`. -/
def ExchangePhase.ReadsInto (rqst : ClientRequest) (m : ServerResponse) : ExchangePhase → Prop
  | .validating m' rqst' _ => m' = m ∧ rqst' = rqst
  | .transferring m' rqst' => m' = m ∧ rqst' = rqst
  | _ => False

def ExchangePhase.reads : ExchangePhase → Bool
  | .validating .. => true
  | .transferring .. => true
  | _ => false

theorem headerEnd_front {c bytes : Bytes} (missing : headerEnd (c ++ bytes) = npos) : headerEnd c = npos := by
  have findText_front : ∀ pat, findText (c ++ bytes) pat = npos → findText c pat = npos := by
    intro pat missing
    unfold findText at missing ⊢
    cases found : Search.firstMatch pat c with
    | none => rfl
    | some p =>
      rw [Search.firstMatch_prefix found] at missing
      exact missing
  unfold headerEnd at missing ⊢
  dsimp only at missing ⊢
  by_cases proper : findText (c ++ bytes) terminator = npos
  · rw [if_pos proper] at missing
    rw [if_pos (findText_front _ proper), findText_front _ missing]
  · rw [if_neg proper] at missing
    exact absurd missing proper

namespace KeptAlive

variable {s s' : KeptAlive} {rqst : ClientRequest} {m m' : ServerResponse} {c p rest : Bytes}

/-- The first bytes `c` of a header are read, and `rest` is to be read. -/
structure Hears (rqst : ClientRequest) (s : KeptAlive) (c rest : Bytes) : Prop where
  into : ∃ m : ServerResponse, s.phase.ReadsInto rqst m ∧ m.Awaits c
  unread : s.unread = rest

theorem readFrom_back {t : KeptAlive} (unread : s.unread = p ++ rest) (got : s.readFrom m p.length = .ok (m', t)) :
    m.readFrom p = .ok m' := by
  unfold KeptAlive.readFrom at got
  rw [unread, List.take_left] at got
  split at got
  · cases read : m.readFrom p with
    | error e =>
      rw [read] at got
      cases got
    | ok m'' =>
      rw [read] at got
      cases got
      rfl
  · cases got

theorem room_of {c p : Bytes} (awaits : m.Awaits c) (fits : (c ++ p).length ≤ BUFFER_LENGTH) :
    p.length ≤ m.shouldRead := by
  rw [awaits.shouldRead]
  rw [List.length_append] at fits
  omega

/-- More is read of the response. -/
theorem serverIn_more {n : Nat} {t : KeptAlive} (into : s.phase.ReadsInto rqst m) (got : s.readFrom m n = .ok (m', t))
    (more : m'.isRead = false) (garbage : Bytes) :
    ∃ s', s.serverIn n garbage = .ok s' ∧ s'.phase.ReadsInto rqst m' ∧ s'.phase.reads = true ∧ s'.unread = t.unread ∧
      s'.cache = t.cache := by
  unfold serverIn
  cases phase : s.phase with
  | validating m₁ rqst₁ cached =>
    rw [phase] at into
    obtain ⟨rfl, rfl⟩ := into
    simp only [got, bind, Except.bind, more, Bool.false_eq_true, if_false, pure, Except.pure]
    exact ⟨_, rfl, ⟨rfl, rfl⟩, rfl, rfl, rfl⟩
  | transferring m₁ rqst₁ =>
    rw [phase] at into
    obtain ⟨rfl, rfl⟩ := into
    simp only [got, bind, Except.bind, more, Bool.false_eq_true, if_false, pure, Except.pure]
    exact ⟨_, rfl, ⟨rfl, rfl⟩, rfl, rfl, rfl⟩
  | awaiting _ | sending _ _ | answering _ _ _ _ | reconnecting _ | left =>
    rw [phase] at into
    exact into.elim

theorem Hears.wait (hears : Hears rqst s c (p ++ rest)) (garbage : Bytes) (present : p ≠ [])
    (fits : (c ++ p).length ≤ BUFFER_LENGTH) (missing : headerEnd (c ++ p) = npos) :
    ∃ s', s.step (.serverIn p.length garbage) = .ok s' ∧ Hears rqst s' (c ++ p) rest ∧ s'.cache = s.cache := by
  obtain ⟨⟨m, into, awaits⟩, unread⟩ := hears
  obtain ⟨m', read, next⟩ := awaits.wait missing fits
  have got := readFrom_of present (room_of awaits fits) unread read
  obtain ⟨s', stepped, into', _, left, kept⟩ := serverIn_more into got next.isRead garbage
  exact ⟨s', stepped, ⟨⟨m', into', next⟩, left⟩, kept⟩

theorem Hears.waits {pieces : List Bytes} (hears : Hears rqst s c (pieces.flatten ++ rest)) (garbage : Bytes)
    (present : ∀ p ∈ pieces, p ≠ [])
    (fits : (c ++ pieces.flatten).length ≤ BUFFER_LENGTH) (missing : headerEnd (c ++ pieces.flatten) = npos) :
    ∃ s', Runs.run step s (pieces.map (.serverIn ·.length garbage)) = .ok s' ∧
      Hears rqst s' (c ++ pieces.flatten) rest ∧ s'.cache = s.cache := by
  induction pieces generalizing s c with
  | nil =>
    rw [List.flatten_nil, List.append_nil]
    exact ⟨s, rfl, hears, rfl⟩
  | cons p pieces ih =>
    rw [List.flatten_cons, List.append_assoc] at hears
    rw [List.flatten_cons, ← List.append_assoc] at fits missing
    have early : (c ++ p).length ≤ BUFFER_LENGTH := by
      rw [List.length_append] at fits
      omega
    obtain ⟨s₁, stepped, hears₁, kept₁⟩ := hears.wait garbage (present p List.mem_cons_self) early
      (headerEnd_front missing)
    obtain ⟨s', ran, hears', kept'⟩ := ih hears₁ (fun q member => present q (List.mem_cons_of_mem _ member)) fits missing
    rw [List.flatten_cons, ← List.append_assoc]
    exact ⟨s', Runs.run_cons.mpr ⟨s₁, stepped, ran⟩, hears', kept'.trans kept₁⟩

/-! ### The response is handed over -/

/-- What happens next with a response that is read. -/
theorem handed_over (threaded : s.cache.Threaded) (rqst : ClientRequest) (cached resp : ServerResponse) :
    ∃ s', s.handleValidationResponse rqst cached resp garbage = .ok s' ∧ s'.phase.reads = false := by
  obtain ⟨cache, erased, -⟩ := threaded.erase (toUrl rqst.getHeader)
  have deleted : s.cache.deleteCached rqst.getHeader = some cache := erased
  unfold handleValidationResponse
  cases validationVerdict resp with
  | sendCached => exact ⟨_, rfl, rfl⟩
  | reconnect =>
    dsimp only
    rw [deleted]
    exact ⟨_, rfl, rfl⟩
  | refetch =>
    dsimp only
    rw [deleted]
    exact ⟨_, rfl, rfl⟩

theorem transferred_over (threaded : s.cache.Threaded) (rqst : ClientRequest) (resp : ServerResponse) :
    ∃ s', s.transferred rqst resp garbage = .ok s' ∧ s'.phase.reads = false := by
  obtain ⟨cache, inserted, -⟩ := threaded.insert (show 2 ≤ MAX_CACHE_SIZE by decide) (toUrl rqst.getHeader) resp.getCache
  unfold KeptAlive.transferred Cache.saveIfAllowed
  dsimp only
  split
  · rename_i kept
    split at kept
    · exact ⟨_, rfl, rfl⟩
    · exact ⟨_, rfl, rfl⟩
  · rename_i failed
    split at failed
    · unfold Cache.saveCached at failed
      rw [inserted] at failed
      cases failed
    · cases failed

/-- The response is read. -/
theorem serverIn_done {n : Nat} {t : KeptAlive} (into : s.phase.ReadsInto rqst m) (got : s.readFrom m n = .ok (m', t))
    (done : m'.isRead = true) (garbage : Bytes) (threaded : t.cache.Threaded) :
    ∃ s', s.serverIn n garbage = .ok s' ∧ s'.phase.reads = false := by
  unfold serverIn
  cases phase : s.phase with
  | validating m₁ rqst₁ cached =>
    rw [phase] at into
    obtain ⟨rfl, rfl⟩ := into
    simp only [got, bind, Except.bind, done, if_true]
    exact handed_over threaded rqst₁ cached _
  | transferring m₁ rqst₁ =>
    rw [phase] at into
    obtain ⟨rfl, rfl⟩ := into
    simp only [got, bind, Except.bind, done, if_true]
    exact transferred_over threaded rqst₁ m'
  | awaiting _ | sending _ _ | answering _ _ _ _ | reconnecting _ | left =>
    rw [phase] at into
    exact into.elim

theorem serverIn_ok {n : Nat} (into : s.phase.ReadsInto rqst m) (stepped : s.serverIn n garbage = .ok s') :
    ∃ result, s.readFrom m n = .ok result := by
  unfold serverIn at stepped
  cases phase : s.phase with
  | validating m₁ rqst₁ cached =>
    rw [phase] at into stepped
    obtain ⟨rfl, rfl⟩ := into
    obtain ⟨result, got, _⟩ := Runs.bind_ok.mp stepped
    exact ⟨result, got⟩
  | transferring m₁ rqst₁ =>
    rw [phase] at into stepped
    obtain ⟨rfl, rfl⟩ := into
    obtain ⟨result, got, _⟩ := Runs.bind_ok.mp stepped
    exact ⟨result, got⟩
  | awaiting _ | sending _ _ | answering _ _ _ _ | reconnecting _ | left =>
    rw [phase] at into
    exact into.elim

/-- The response is handed over when the message is read. -/
theorem Hears.completes_iff {Q : Prop} (hears : Hears rqst s c (p ++ rest)) (garbage : Bytes) (threaded : s.cache.Threaded)
    (present : p ≠ []) (fits : (c ++ p).length ≤ BUFFER_LENGTH)
    (ends : ∀ m : ServerResponse, m.Awaits c → ((∃ m', m.readFrom p = .ok m' ∧ m'.isRead = true) ↔ Q)) :
    (∃ s', s.step (.serverIn p.length garbage) = .ok s' ∧ s'.phase.reads = false) ↔ Q := by
  obtain ⟨⟨m, into, awaits⟩, unread⟩ := hears
  rw [← ends m awaits]
  have room := room_of awaits fits
  constructor
  · rintro ⟨s', stepped, ended⟩
    obtain ⟨⟨m', t⟩, got⟩ := serverIn_ok into stepped
    refine ⟨m', readFrom_back unread got, ?_⟩
    by_contra more
    obtain ⟨s'', same, _, reads, _⟩ := serverIn_more into got (Bool.eq_false_iff.mpr more) garbage
    have same' : s' = s'' := Except.ok.inj (stepped.symm.trans same)
    rw [same', reads] at ended
    cases ended
  · rintro ⟨m', read, done⟩
    exact serverIn_done into (readFrom_of present room unread read) done garbage threaded

/-- A fresh message is read for the request. -/
inductive Begins (rqst : ClientRequest) : ExchangePhase → Prop
  | validating (cached : ServerResponse) (garbage : Bytes) :
    Begins rqst (.validating (BufferedMessage.new.transferred garbage) rqst cached)
  | transferring : Begins rqst (.transferring .new rqst)

theorem Begins.hears (begins : Begins rqst s.phase) (unread : s.unread = rest) : Hears rqst s [] rest := by
  refine ⟨?_, unread⟩
  generalize s.phase = phase at begins
  cases begins with
  | validating cached garbage =>
    have awaits : ((BufferedMessage.new : ServerResponse).transferred garbage).Awaits [] :=
      { (BufferedMessage.awaits_new : (BufferedMessage.new : ServerResponse).Awaits []) with }
    exact ⟨_, ⟨rfl, rfl⟩, awaits⟩
  | transferring => exact ⟨_, ⟨rfl, rfl⟩, BufferedMessage.awaits_new⟩

end KeptAlive

/-- The read that completes the header completes the message when it ends there. -/
theorem BodylessAnswer.ends_iff {rqst : ClientRequest} (r : BodylessAnswer rqst) (m : ServerResponse)
    (awaits : m.Awaits r.early.flatten) : (∃ m', m.readFrom r.last = .ok m' ∧ m'.isRead = true) ↔ r.Ends := by
  have fits : r.message.length ≤ BUFFER_LENGTH := r.fits
  have message : m.buffered r.last = r.message := awaits.buffered r.last
  have complete : headerEnd r.message ≠ npos := r.complete
  have inside := headerEnd_le complete
  unfold BUFFER_LENGTH at fits
  have place : addSize (headerEnd r.message) 4 = headerEnd r.message + 4 :=
    addSize_eq (by unfold SIZE_RANGE; omega)
  unfold Ends
  by_cases proper : headerEnd r.message + 4 ≤ r.message.length
  · have parses : Parses m r.last r.behind r.header := by
      constructor
      · exact awaits.headerLength
      · rw [message]
        exact complete
      · rw [message, place, substrFrom, if_neg (Nat.not_lt.mpr proper)]
        rfl
      · rw [message]
        exact r.parsed
    have room : r.behind.length < INF := by
      unfold behind INF
      rw [List.length_drop]
      omega
    rw [parses.ends_iff room, and_iff_right proper]
  · refine iff_of_false ?_ (fun ends => proper ends.1)
    rintro ⟨m', read, -⟩
    unfold BufferedMessage.readFrom readHeader at read
    unfold buffered at message
    dsimp only at read
    rw [message, if_pos awaits.headerLength, if_pos complete, place, substrFrom, if_pos (Nat.not_le.mp proper)] at read
    cases read

namespace KeptAlive

/-- A response without a body is handed over with the read that completes its header
exactly when its header ends the message. -/
theorem bodyless_handed_over_iff (rqst : ClientRequest) (r : BodylessAnswer rqst) (s : KeptAlive) (rest garbage : Bytes)
    (ops : List (Fifo.Op Bytes CachedMessage)) (cached : SimpleCache.operateAll MAX_CACHE_SIZE ops = some s.cache)
    (begins : Begins rqst s.phase) (unread : s.unread = r.message ++ rest) :
    (∃ s', Runs.run step s (r.calls garbage) = .ok s' ∧ s'.phase.reads = false) ↔ r.Ends := by
  obtain ⟨cache, same, threaded, -⟩ := SimpleCache.operateAll_threaded (show 2 ≤ MAX_CACHE_SIZE by decide) ops
  rw [cached] at same
  cases same
  have shape : r.message ++ rest = r.early.flatten ++ (r.last ++ rest) := by
    rw [BodylessAnswer.message, List.append_assoc]
  have early : ([] ++ r.early.flatten).length ≤ BUFFER_LENGTH := by
    have fits := r.fits
    rw [List.length_append] at fits
    rw [List.nil_append]
    omega
  obtain ⟨s₁, waited, hears, kept⟩ := (begins.hears (unread.trans shape)).waits garbage r.present
    early r.waits
  rw [List.nil_append] at hears
  rw [← hears.completes_iff garbage (by rw [kept]; exact threaded) r.last_present r.fits r.ends_iff]
  constructor
  · rintro ⟨s', ran, ended⟩
    obtain ⟨s₂, first, last⟩ := Runs.run_append.mp ran
    rw [waited] at first
    cases first
    obtain ⟨s₃, stepped, nil⟩ := Runs.run_cons.mp last
    cases nil
    exact ⟨s', stepped, ended⟩
  · rintro ⟨s', stepped, ended⟩
    exact ⟨s', Runs.run_append.mpr ⟨s₁, waited, Runs.run_cons.mpr ⟨s', stepped, rfl⟩⟩, ended⟩

/-! ### A page that is still valid -/

def asksAgain : ClientRequest :=
  .ofHeader { requestLine := ⟨lit "GET", lit "/a", lit "HTTP/1.1"⟩, properties := [⟨lit "host", lit "h"⟩] } []

def heldPage : ServerResponse :=
  .ofHeader
    { requestLine := .new 200 (lit "OK"), properties := [⟨lit "etag", lit "1"⟩, ⟨lit "content-length", lit "2"⟩] }
    (lit "v1")

/-- The server answered that the page is valid. -/
def validates (answered : Bytes) : KeptAlive where
  phase := .validating .new asksAgain heldPage
  cache := .empty
  unread := answered
  asked := []
  written := []
  answer := none
  requests := []
  done := []

theorem none_early : ∀ p ∈ ([] : List Bytes), p ≠ [] := fun _ member => absurd member List.not_mem_nil

def bare : BodylessAnswer asksAgain where
  early := []
  last := lit "HTTP/1.1 304 Not Modified\r\n\r\n"
  header := { requestLine := .new 304 (lit "Not Modified"), properties := [] }
  present := none_early
  fits := by decide
  waits := rfl
  complete := by decide +kernel
  parsed := by decide +kernel
  bodyless := by decide

/-- The length is that of the page. -/
def repeated : BodylessAnswer asksAgain where
  early := []
  last := lit "HTTP/1.1 304 Not Modified\r\nContent-Length: 2\r\n\r\n"
  header := { requestLine := .new 304 (lit "Not Modified"), properties := [⟨lit "content-length", lit "2"⟩] }
  present := none_early
  fits := by decide
  waits := rfl
  complete := by decide +kernel
  parsed := by decide +kernel
  bodyless := by decide

theorem bare_handed_over : ∃ s', Runs.run step (validates bare.message) (bare.calls []) = .ok s' ∧ s'.phase.reads = false := by
  have ends : bare.Ends := by
    refine ⟨by decide +kernel, ?_⟩
    unfold EndsAtHeader
    rw [if_neg (by decide)]
    intro chunked
    exact absurd chunked (by decide)
  exact (bodyless_handed_over_iff asksAgain bare (validates bare.message) [] [] [] rfl (.validating heldPage [])
    (List.append_nil _).symm).mpr ends

/-- The whole answer is read, and two more bytes are waited for. -/
theorem repeated_waits : ¬∃ s', Runs.run step (validates repeated.message) (repeated.calls []) = .ok s' ∧
    s'.phase.reads = false := by
  obtain ⟨t, ran, waits⟩ : ∃ t, Runs.run step (validates repeated.message) (repeated.calls []) = .ok t ∧
      (t.unread = [] ∧ t.phase.reads = true : Bool) = true := Runs.run_any (by decide +kernel)
  rintro ⟨s', same, ended⟩
  rw [ran] at same
  cases same
  rw [ended] at waits
  simp at waits

end KeptAlive

end ProxyServer
