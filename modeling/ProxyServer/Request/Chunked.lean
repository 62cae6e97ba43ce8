import ProxyServer.Request.Framing

/-!
# Chunked messages

The end of a chunked body is found by its last five bytes, in one read.
`chunked_framed_iff` says for which messages, and for which ways they arrive,
that is where the body ends.
-/

namespace ProxyServer

variable {L : Type} [Line L]

def isHexDigit (b : UInt8) : Bool :=
  isDigit b || (97 ≤ b ∧ b ≤ 102 : Bool) || (65 ≤ b ∧ b ≤ 70 : Bool)

def hexDigitValue (b : UInt8) : Nat :=
  if isDigit b then b.toNat - 48 else if 97 ≤ b then b.toNat - 87 else b.toNat - 55

def hexValue (s : Bytes) : Nat := s.foldl (fun n b => 16 * n + hexDigitValue b) 0

/-- A chunk size, with an extension behind a semicolon. -/
structure ChunkSize (n : Nat) where
  digits : Bytes
  extension : Bytes
  hex : digits.all isHexDigit = true
  present : digits ≠ []
  value : hexValue digits = n
  plain : Plain extension
  separated : extension ≠ [] → extension.head? = some 59

def ChunkSize.bytes {n : Nat} (c : ChunkSize n) : Bytes := c.digits ++ c.extension ++ crlf

/-- The chunked bodies: chunks with data, the last chunk of size zero, and
trailer lines. -/
inductive ChunkedBody : Bytes → Prop where
  | last (size : ChunkSize 0) (trailers : List Bytes) (plain : ∀ l ∈ trailers, Plain l)
      (present : ∀ l ∈ trailers, l ≠ []) : ChunkedBody (size.bytes ++ HeaderText.tail trailers)
  | chunk (data rest : Bytes) (size : ChunkSize data.length) (present : data ≠ [])
      (more : ChunkedBody rest) : ChunkedBody (size.bytes ++ data ++ crlf ++ rest)

theorem ChunkedBody.ne_nil {body : Bytes} (h : ChunkedBody body) : body ≠ [] := by
  cases h with
  | last size => simp [ChunkSize.bytes, crlf]
  | chunk data rest size => simp [ChunkSize.bytes, crlf]

/-- Only the last of the pieces ends like a last chunk; `full` excuses it. -/
def EndsLast (full : Prop) : List Bytes → Prop
  | [] => False
  | [p] => endsChunks p = true ∨ full
  | p :: q :: rest => endsChunks p = false ∧ EndsLast full (q :: rest)

instance EndsLast.decide (full : Prop) [Decidable full] : (reads : List Bytes) → Decidable (EndsLast full reads)
  | [] => inferInstanceAs (Decidable False)
  | [p] => inferInstanceAs (Decidable (endsChunks p = true ∨ full))
  | p :: q :: rest =>
    have := EndsLast.decide full (q :: rest)
    inferInstanceAs (Decidable (endsChunks p = false ∧ EndsLast full (q :: rest)))

namespace Session

variable {done : List (BufferedMessage L)} {m : BufferedMessage L} {segs : List Bytes}

theorem yields_unknown (done : List (BufferedMessage L)) (opened : m.Opened) (unknown : m.bodyLength = INF) (room : m.read < INF)
    (present : Arrivals.Present segs) (left : segs ≠ []) :
    Yields ⟨done, m, segs⟩ (done.map content ++ [content m ++ segs.flatten]) ↔
      m.read + segs.flatten.length ≤ INF ∧
        EndsLast (m.read + segs.flatten.length = INF) (Arrivals.reads BUFFER_LENGTH segs) := by
  generalize size : segs.flatten.length = k at *
  induction k using Nat.strongRecOn generalizing m segs with
  | ind k ih =>
    have asks := opened.shouldRead (by omega) (by rw [unknown]; decide)
    obtain ⟨bytes, taken, pos, most, joined⟩ := Arrivals.take_spec (n := m.shouldRead) present
      (by unfold BUFFER_LENGTH at asks; omega) left
    have stepped := step_body done opened taken
    have running : ¬Drained ({ done, cur := m, arrivals := segs } : Session L) := left
    have count : (m.appended bytes).read = m.read + bytes.length := rfl
    have length : bytes.length + (Arrivals.skip bytes.length segs).flatten.length = k := by
      rw [← size, ← joined, List.length_append]
    have present' := Arrivals.present_skip (n := bytes.length) present
    have drained : Arrivals.skip bytes.length segs = [] ↔ bytes.length = k := by
      rw [← Arrivals.present_flatten present', ← List.length_eq_zero_iff]
      omega
    have pieces : m.read + k ≤ INF → Arrivals.reads BUFFER_LENGTH segs =
        bytes :: Arrivals.reads BUFFER_LENGTH (Arrivals.skip bytes.length segs) := by
      intro small
      have same : Arrivals.take BUFFER_LENGTH segs = (bytes, Arrivals.skip bytes.length segs) := by
        rw [← taken, asks, unknown, Arrivals.take_min (by omega)]
      rw [Arrivals.reads_take present (by decide) left, same]
    have content' : content (m.appended bytes) ++ (Arrivals.skip bytes.length segs).flatten =
        content m ++ segs.flatten := by
      rw [content_appended, List.append_assoc, joined]
    have total : (m.appended bytes).bodyLength =
        if endsChunks bytes then m.read + bytes.length else INF := by
      simp [BufferedMessage.appended, unknown]
    rw [Yields, Iterate.reaches_step running stepped]
    by_cases complete : (m.appended bytes).isRead = true
    · rw [after, if_pos complete]
      by_cases last : bytes.length = k
      · -- The stream is drained by this read.
        have gone := drained.mpr last
        rw [gone, List.flatten_nil, List.append_nil] at content'
        rw [Iterate.reaches_halted (by rw [gone]; rfl)]
        have small : m.read + k ≤ INF := by
          unfold BUFFER_LENGTH at asks
          omega
        have ends : endsChunks bytes = true ∨ m.read + k = INF := by
          by_contra neither
          rw [not_or] at neither
          rw [BufferedMessage.isRead, total, if_neg neither.1, count, decide_eq_true_eq] at complete
          omega
        rw [pieces small, gone]
        simp [content', small, Arrivals.reads, EndsLast, ends]
      · refine iff_of_false (not_yields_other ?_) ?_
        · intro same
          have size' := congrArg List.length (content'.trans same.symm)
          simp only [List.length_append] at size'
          omega
        · rintro ⟨small, ends⟩
          have more : Arrivals.skip bytes.length segs ≠ [] := fun gone => last (drained.mp gone)
          rw [pieces small, Arrivals.reads_take present' (by decide) more] at ends
          rw [BufferedMessage.isRead, total, ends.1, if_neg (by simp), count, decide_eq_true_eq] at complete
          omega
    · rw [after, if_neg complete]
      have quiet : endsChunks bytes = false := by
        by_contra ends
        exact complete (by simp [BufferedMessage.isRead, total, ends, count])
      have room' : m.read + bytes.length < INF := by
        simpa [BufferedMessage.isRead, total, quiet, count] using complete
      by_cases last : bytes.length = k
      · -- The stream is drained and the message not complete.
        have gone := drained.mpr last
        rw [Iterate.reaches_halted (by rw [gone]; rfl)]
        refine iff_of_false (fun h => opened.headerLength (congrArg BufferedMessage.headerLength h.1)) ?_
        rintro ⟨small, ends⟩
        rw [pieces small, gone] at ends
        simp only [Arrivals.reads, List.flatMap_nil, EndsLast, quiet, Bool.false_eq_true, false_or] at ends
        omega
      · have more : Arrivals.skip bytes.length segs ≠ [] := fun gone => last (drained.mp gone)
        have later := ih (k - bytes.length) (by omega) (BufferedMessage.opened_appended opened bytes)
          (by rw [total, quiet]; rfl) (by rw [count]; exact room') present' more (by omega)
        rw [Yields, content', count, show m.read + bytes.length + (k - bytes.length) = m.read + k by omega]
          at later
        rw [later]
        refine and_congr_right fun small => ?_
        rw [pieces small, Arrivals.reads_take present' (by decide) more]
        simp [EndsLast, quiet]

/-- A message of unknown length is read whole when the last chunk ends a read,
and no read before it ends alike. -/
theorem yields_chunked (done : List (BufferedMessage L)) {t : HeaderText} {header : HttpHeader L} {body : Bytes}
    (present : Arrivals.Present segs) (stream : segs.flatten = t.bytes ++ body)
    (fits : t.bytes.length ≤ BUFFER_LENGTH) (parsed : t.header = .ok header)
    (declared : BufferedMessage.declaredLength header = .ok INF) :
    Yields ⟨done, .new, segs⟩ (done.map content ++ [header.print ++ body]) ↔
      body.length ≤ INF ∧ EndsLast (body.length = INF)
        ((header.print ++ body.take (overrun t [] segs)) :: Arrivals.reads BUFFER_LENGTH
          (Arrivals.skip (t.bytes.length + overrun t [] segs) segs)) := by
  have excess := overrun_le stream
  have room : overrun t [] segs ≤ BUFFER_LENGTH := by
    simp only [overrun]
    omega
  have behind : (Arrivals.skip (t.bytes.length + overrun t [] segs) segs).flatten =
      body.drop (overrun t [] segs) := by
    rw [Arrivals.flatten_skip, stream, ← List.drop_drop, List.drop_left]
  have left := Arrivals.present_skip (n := t.bytes.length + overrun t [] segs) present
  obtain ⟨m', begun, same⟩ := reaches_begun done
    (P := fun s => s.cur = BufferedMessage.new ∧ s.done.map content = done.map content ++ [header.print ++ body])
    present stream fits parsed declared
  generalize overrun t [] segs = o at *
  have count : m'.read = o := by
    rw [begun.read, List.length_take]
    omega
  have stored : content m' = header.print ++ body.take o := by
    simp [content, begun.cache]
  have total : m'.bodyLength = if endsChunks (header.print ++ body.take o) then o else INF := by
    rw [begun.bodyLength, ← begun.read, count]
    simp
  have drained : Arrivals.skip (t.bytes.length + o) segs = [] ↔ o = body.length := by
    rw [← Arrivals.present_flatten left, behind, List.drop_eq_nil_iff]
    omega
  unfold BUFFER_LENGTH at room
  rw [Yields, same]
  by_cases ends : endsChunks (header.print ++ body.take o) = true
  · rw [after, if_pos (by simp [BufferedMessage.isRead, total, ends, count])]
    by_cases last : o = body.length
    · rw [Iterate.reaches_halted (by rw [drained.mpr last]; rfl), drained.mpr last]
      rw [last, List.take_length] at ends stored ⊢
      unfold INF
      simp [stored, EndsLast, Arrivals.reads, ends]
      omega
    · have more : Arrivals.skip (t.bytes.length + o) segs ≠ [] := fun gone => last (drained.mp gone)
      refine iff_of_false (not_yields_other ?_) ?_
      · rw [stored, Ne, List.append_cancel_left_eq]
        intro whole
        have size := congrArg List.length whole
        rw [List.length_take] at size
        omega
      · rw [Arrivals.reads_take left (by decide) more]
        simp [EndsLast, ends]
  · have unread : ¬m'.isRead = true := by
      simp only [BufferedMessage.isRead, total, ends, count, INF]
      simp
      omega
    rw [after, if_neg unread]
    by_cases last : o = body.length
    · rw [Iterate.reaches_halted (by rw [drained.mpr last]; rfl), drained.mpr last]
      refine iff_of_false (fun h => begun.headerLength (congrArg BufferedMessage.headerLength h.1)) ?_
      simp only [EndsLast, Arrivals.reads, List.flatMap_nil, ends, Bool.false_eq_true, false_or, INF]
      omega
    · have more : Arrivals.skip (t.bytes.length + o) segs ≠ [] := fun gone => last (drained.mp gone)
      have later := yields_unknown done begun.toOpened (by rw [total, if_neg ends])
        (by rw [count]; unfold INF; omega) left more
      rw [stored, behind, List.append_assoc, List.take_append_drop, count, List.length_drop,
        show o + (body.length - o) = body.length by omega] at later
      rw [← Yields, later, Arrivals.reads_take left (by decide) more]
      simp [EndsLast, ends]

end Session

structure ChunkedMessage (L : Type) [Line L] where
  text : HeaderText
  header : HttpHeader L
  body : Bytes
  parsed : text.header = .ok header
  chunked : ∃ p ∈ header.properties, p.name = lit "transfer-encoding" ∧ toLower p.value = lit "chunked"
  valid : ChunkedBody body

namespace ChunkedMessage

def bytes (m : ChunkedMessage L) : Bytes := m.text.bytes ++ m.body

/-- How much of the body the read takes that completes the header. -/
def ahead (m : ChunkedMessage L) (segs : List Bytes) : Nat :=
  min (Arrivals.reach m.text.bytes.length segs) BUFFER_LENGTH - m.text.bytes.length

/-- What `read_from` tests for the last chunk: the printed header with what
arrived with it, and each later read. -/
def tested (m : ChunkedMessage L) (segs : List Bytes) : List Bytes :=
  (m.header.print ++ m.body.take (m.ahead segs)) ::
    Arrivals.reads BUFFER_LENGTH (Arrivals.skip (m.text.bytes.length + m.ahead segs) segs)

/-- The header fits in the buffer, and: a Content-Length is by chance that of the
chunked body; or there is none, the first Transfer-Encoding is literally
`chunked`, the body is not longer than `INF`, and of the reads only the last ends
like a last chunk; or else the body arrives with the header. -/
def Ends (m : ChunkedMessage L) (segs : List Bytes) : Prop :=
  m.text.bytes.length ≤ BUFFER_LENGTH ∧
  if m.header.hasProperty (lit "content-length") then
    ∃ v : Int, m.header.getInt (lit "content-length") = .ok v ∧
      (toSize v = m.body.length ∨ toSize v ≤ m.body.length ∧ m.ahead segs = m.body.length)
  else if m.header.getProperty (lit "transfer-encoding") = lit "chunked" then
    m.body.length ≤ INF ∧ EndsLast (m.body.length = INF) (m.tested segs)
  else m.ahead segs = m.body.length

theorem yields_iff (m : ChunkedMessage L) (cut : Arrivals.Cut m.bytes) :
    (Session.start cut.segs : Session L).Yields [m.header.print ++ m.body] ↔ m.Ends cut.segs := by
  have stream : cut.segs.flatten = m.text.bytes ++ m.body := cut.joined
  have ahead : Session.overrun m.text [] cut.segs = m.ahead cut.segs := by
    simp [Session.overrun, ChunkedMessage.ahead]
  have within := Session.overrun_le stream
  have size := List.length_pos_of_ne_nil m.valid.ne_nil
  have sized {n : Nat} (declared : BufferedMessage.declaredLength m.header = .ok n)
      (fits : m.text.bytes.length ≤ BUFFER_LENGTH) (known : n ≠ INF ∧ n < SIZE_RANGE) :
      (Session.start cut.segs : Session L).Yields [m.header.print ++ m.body] ↔
        n = m.body.length ∨ n ≤ m.body.length ∧ m.ahead cut.segs = m.body.length := by
    have stream' : cut.segs.flatten = m.text.bytes ++ (m.body ++ []) := by simpa using stream
    obtain ⟨m', held, same⟩ := Session.yields_sized [] cut.present stream' fits m.parsed declared known.1 known.2 []
    have gone : Arrivals.skip (m.text.bytes ++ m.body).length cut.segs = [] := by
      rw [← Arrivals.present_flatten (Arrivals.present_skip cut.present), Arrivals.flatten_skip, stream]
      simp
    have finished : Session.Yields (⟨[m'], .new, []⟩ : Session L) [Session.content m'] := by
      rw [Session.Yields, Iterate.reaches_halted (by rfl)]
      exact ⟨rfl, rfl⟩
    rw [gone] at same
    simp only [List.map_nil, List.nil_append, List.map_cons, List.append_nil, finished, and_true,
      ahead, ahead ▸ within, true_and] at same
    exact same
  rw [Ends]
  by_cases fits : m.text.bytes.length ≤ BUFFER_LENGTH
  swap
  · refine iff_of_false (Session.not_yields_long stream (by omega)) (fun h => fits h.1)
  simp only [fits, true_and]
  by_cases has : m.header.hasProperty (lit "content-length") = true
  · rw [if_pos has]
    cases got : m.header.getInt (lit "content-length") with
    | error e =>
      have failed : BufferedMessage.declaredLength m.header = .error e := by
        rw [BufferedMessage.declaredLength, if_pos has, got]
        rfl
      refine iff_of_false (Session.not_reaches_declared cut.present stream fits m.parsed failed) ?_
      rintro ⟨v, h, _⟩
      cases h
    | ok v =>
      have declared : BufferedMessage.declaredLength m.header = .ok (toSize v) := by
        rw [BufferedMessage.declaredLength, if_pos has, got]
        rfl
      rw [sized declared fits (HttpHeader.getInt_known got)]
      simp
  rw [if_neg has]
  by_cases literal : m.header.getProperty (lit "transfer-encoding") = lit "chunked"
  · have declared : BufferedMessage.declaredLength m.header = .ok INF := by
      rw [BufferedMessage.declaredLength, if_neg has, if_pos literal]
    rw [if_pos literal, tested, ← ahead]
    exact Session.yields_chunked [] cut.present stream fits m.parsed declared
  · have declared : BufferedMessage.declaredLength m.header = .ok 0 := by
      rw [BufferedMessage.declaredLength, if_neg has, if_neg literal]
    rw [if_neg literal, sized declared fits (by decide)]
    omega

/-- A chunked message is read as itself if and only if its end shows. -/
theorem chunked_framed_iff (m : ChunkedMessage L) (cut : Arrivals.Cut m.bytes) :
    (Session.start cut.segs : Session L).Yields [m.header.print ++ m.body] ↔ m.Ends cut.segs :=
  yields_iff m cut

/-- A response with an empty chunked body. -/
def emptyChunked : ChunkedMessage ResponseLine where
  text := ⟨lit "HTTP/1.1 200 OK", [lit "Transfer-Encoding: chunked"], by decide, by decide, by decide⟩
  header :=
    { requestLine := ⟨200, lit "OK", lit "HTTP/1.1"⟩,
      properties := [⟨lit "transfer-encoding", lit "chunked"⟩] }
  body := lit "0\r\n\r\n"
  parsed := by decide
  chunked := by decide
  valid := .last ⟨lit "0", [], by decide, by decide, by decide, by decide, by decide⟩ [] (by simp) (by simp)

/-- The last chunk arrives in two pieces behind the header. -/
def splitLast : Arrivals.Cut emptyChunked.bytes where
  segs := [emptyChunked.text.bytes, lit "0\r\n", lit "\r\n"]
  present := by decide
  joined := by decide

theorem split_last_not_framed :
    ¬∀ (m : ChunkedMessage ResponseLine) (cut : Arrivals.Cut m.bytes),
      (Session.start cut.segs : Session ResponseLine).Yields [m.header.print ++ m.body] := by
  intro h
  have ends := ((yields_iff emptyChunked splitLast).mp (h emptyChunked splitLast)).2
  rw [if_neg (by decide), if_pos (by decide)] at ends
  exact absurd ends.2 (by decide)

end ChunkedMessage

end ProxyServer
