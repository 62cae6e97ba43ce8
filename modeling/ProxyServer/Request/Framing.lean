import ProxyServer.Request.Session

/-!
# Where messages end

`messages_framed_iff` says for which streams, and for which ways they arrive,
successive messages read exactly the messages that were sent.
-/

namespace ProxyServer

variable {L : Type} [Line L]

/-- A well-formed message: a header that parses, and a body whose length is the
Content-Length, unless there is no body. -/
structure Message (L : Type) [Line L] where
  text : HeaderText
  header : HttpHeader L
  body : Bytes
  parsed : text.header = .ok header
  uncoded : header.hasProperty (lit "transfer-encoding") = false
  digits : header.hasProperty (lit "content-length") = true →
    (header.getProperty (lit "content-length")).all isDigit = true ∧
      header.getProperty (lit "content-length") ≠ []
  framed : body ≠ [] → header.hasProperty (lit "content-length") = true ∧
    decimal (header.getProperty (lit "content-length")) = body.length

namespace Message

def bytes (m : Message L) : Bytes := m.text.bytes ++ m.body

/-- What a message object should hold of it. -/
def content (m : Message L) : Bytes := m.header.print ++ m.body

/-- The Content-Length is that of the body and an `int`; the header fits in the
buffer; and the arrival with the end of the header, or else the buffer, ends
before the message does. -/
def Fits (m : Message L) (segs : List Bytes) : Prop :=
  (m.header.hasProperty (lit "content-length") = true →
    decimal (m.header.getProperty (lit "content-length")) = m.body.length ∧ m.body.length < 2 ^ 31) ∧
  m.text.bytes.length ≤ BUFFER_LENGTH ∧
  min (Arrivals.reach m.text.bytes.length segs) BUFFER_LENGTH ≤ m.bytes.length

/-- Every message fits in the bytes that are left when its turn comes. -/
def FitsAll : List (Message L) → List Bytes → Prop
  | [], _ => True
  | m :: ms, segs => m.Fits segs ∧ FitsAll ms (Arrivals.skip m.bytes.length segs)

/-- The length that the code takes from the header. -/
def declared (m : Message L) : Nat :=
  if m.header.hasProperty (lit "content-length") then
    decimal (m.header.getProperty (lit "content-length"))
  else 0

theorem declaredLength_eq (m : Message L) : BufferedMessage.declaredLength m.header =
    if m.declared < 2 ^ 31 then .ok m.declared else .error .outOfRange := by
  unfold BufferedMessage.declaredLength declared
  by_cases has : m.header.hasProperty (lit "content-length") = true
  · obtain ⟨digits, present⟩ := m.digits has
    rw [if_pos has, if_pos has, HttpHeader.getInt, if_neg present, stoi_digits digits present]
    split
    · rename_i small
      rw [Except.map, toSize_ofNat (by unfold SIZE_RANGE; omega)]
    · rfl
  · have absent : m.header.getProperty (lit "transfer-encoding") ≠ lit "chunked" := by
      have none_ := m.uncoded
      simp only [HttpHeader.hasProperty, List.any_eq_false] at none_
      have notFound : m.header.properties.find? (·.name = lit "transfer-encoding") = none := by
        rw [List.find?_eq_none]
        exact none_
      rw [HttpHeader.getProperty, notFound]
      decide
    rw [if_neg has, if_neg absent, if_neg has]
    rfl

theorem declared_eq {m : Message L} (present : m.body ≠ []) : m.declared = m.body.length := by
  obtain ⟨has, size⟩ := m.framed present
  rw [declared, if_pos has, size]

theorem fits_iff {m : Message L} {segs : List Bytes} (short : m.text.bytes.length ≤ BUFFER_LENGTH) :
    m.Fits segs ↔ (m.declared = m.body.length ∧ m.declared < 2 ^ 31) ∧
      Session.overrun m.text [] segs ≤ m.body.length := by
  have excess : min (Arrivals.reach m.text.bytes.length segs) BUFFER_LENGTH ≤ m.bytes.length ↔
      Session.overrun m.text [] segs ≤ m.body.length := by
    simp only [Session.overrun, bytes, List.length_nil, Nat.sub_zero, Nat.zero_add, List.length_append]
    omega
  have length : (m.header.hasProperty (lit "content-length") = true →
      decimal (m.header.getProperty (lit "content-length")) = m.body.length ∧ m.body.length < 2 ^ 31) ↔
        m.declared = m.body.length ∧ m.declared < 2 ^ 31 := by
    unfold declared
    by_cases has : m.header.hasProperty (lit "content-length") = true
    · simp only [has, if_true, true_implies]
      omega
    · have empty : m.body = [] := by
        by_contra present
        exact has (m.framed present).1
      simp [has, empty]
  rw [Fits, excess, length]
  constructor
  · intro fits
    exact ⟨fits.1, fits.2.2⟩
  · intro fits
    exact ⟨fits.1, short, fits.2⟩

theorem yields_iff (msgs : List (Message L)) (done : List (BufferedMessage L)) (segs : List Bytes)
    (present : Arrivals.Present segs) (stream : segs.flatten = msgs.flatMap bytes) :
    Session.Yields { done, cur := .new, arrivals := segs }
      (done.map Session.content ++ msgs.map content) ↔ FitsAll msgs segs := by
  induction msgs generalizing done segs with
  | nil =>
    obtain rfl : segs = [] := (Arrivals.present_flatten present).mp (by simpa using stream)
    rw [Session.Yields, Iterate.reaches_halted (by rfl)]
    simp [FitsAll]
  | cons m ms ih =>
    have shape : segs.flatten = m.text.bytes ++ (m.body ++ ms.flatMap bytes) := by
      rw [stream]
      simp [bytes]
    have next : segs.flatten.drop m.bytes.length = ms.flatMap bytes := by
      rw [stream]
      simp
    rw [List.map_cons, FitsAll]
    by_cases short : m.text.bytes.length ≤ BUFFER_LENGTH
    swap
    · exact iff_of_false (Session.not_yields_long shape (by omega)) (fun h => short h.1.2.1)
    have length := m.declaredLength_eq
    rw [fits_iff short]
    by_cases small : m.declared < 2 ^ 31
    swap
    · rw [if_neg small] at length
      exact iff_of_false (Session.not_reaches_declared present shape short m.parsed length)
        (fun h => small h.1.1.2)
    rw [if_pos small] at length
    obtain ⟨m', held, same⟩ := Session.yields_sized done present shape short m.parsed length
      (by unfold INF; omega) (by unfold SIZE_RANGE; omega) (ms.map content)
    have rest := ih (done ++ [m']) (Arrivals.skip m.bytes.length segs) (Arrivals.present_skip present)
      (by rw [Arrivals.flatten_skip, next])
    rw [content, same, ← bytes, rest]
    constructor
    · rintro ⟨⟨within, sized⟩, later⟩
      refine ⟨⟨⟨?_, small⟩, within⟩, later⟩
      by_cases empty : m.body = []
      · simp only [empty, List.length_nil] at sized ⊢
        omega
      · exact declared_eq empty
    · rintro ⟨⟨⟨sized, _⟩, within⟩, later⟩
      exact ⟨⟨within, Or.inl sized⟩, later⟩

/-- Reading a stream of messages with successive fresh objects yields exactly these
messages if and only if each of them fits. -/
theorem messages_framed_iff (msgs : List (Message L)) (cut : Arrivals.Cut (msgs.flatMap bytes)) :
    (Session.start cut.segs : Session L).Yields (msgs.map content) ↔ FitsAll msgs cut.segs :=
  yields_iff msgs [] cut.segs cut.present cut.joined

/-- `GET / HTTP/1.1` without properties. -/
def bareGet : Message RequestLine where
  text := ⟨lit "GET / HTTP/1.1", [], by decide, by decide, by decide⟩
  header := { requestLine := ⟨lit "GET", lit "/", lit "HTTP/1.1"⟩, properties := [] }
  body := []
  parsed := by decide
  uncoded := by decide
  digits := by decide
  framed := by decide

def pipelined : Arrivals.Cut ([bareGet, bareGet].flatMap bytes) where
  segs := [[bareGet, bareGet].flatMap bytes]
  present := by decide
  joined := by simp

theorem pipelined_not_framed :
    ¬∀ (msgs : List (Message RequestLine)) (cut : Arrivals.Cut (msgs.flatMap bytes)),
      (Session.start cut.segs : Session RequestLine).Yields (msgs.map content) := by
  intro h
  have framed := h [bareGet, bareGet] pipelined
  have fits := (yields_iff _ [] _ pipelined.present pipelined.joined).mp framed
  exact absurd fits.1.2.2 (by decide)

end Message

end ProxyServer
