import ProxyServer.Request.Collected

/-!
# What was read from a stream

A stream on which other bytes follow a header, and a message that is read from it.
-/

namespace ProxyServer

variable {L : Type} [Line L]

/-- A header on the stream, and what follows it. -/
structure Headed (L : Type) [Line L] where
  text : HeaderText
  header : HttpHeader L
  parsed : text.header = .ok header
  behind : Bytes

def Headed.bytes (h : Headed L) : Bytes := h.text.bytes ++ h.behind

theorem Headed.length_bytes (h : Headed L) : h.bytes.length = h.text.bytes.length + h.behind.length := by
  rw [Headed.bytes, List.length_append]

namespace BufferedMessage

/-- The first `k` bytes of the stream were read, which do not complete the header. -/
structure Heading (h : Headed L) (m : BufferedMessage L) (k : Nat) : Prop where
  awaits : m.Awaits (h.bytes.take k)
  short : k < h.text.bytes.length

/-- The header was read and `k` bytes of the stream. -/
structure Bodied (h : Headed L) (m : BufferedMessage L) (k : Nat) : Prop extends m.Opened where
  started : h.text.bytes.length ≤ k
  isHeader : m.header = h.header
  read : m.read = k - h.text.bytes.length
  content : m.cache.flatten = h.header.print ++ h.behind.take (k - h.text.bytes.length)
  announced : h.header.hasProperty (lit "content-length") = true → declaredLength h.header = .ok m.bodyLength

variable {h : Headed L} {m m' : BufferedMessage L} {k n : Nat}

theorem awaits_transferred (garbage : Bytes) : ((new : BufferedMessage L).transferred garbage).Awaits [] :=
  { (awaits_new : (new : BufferedMessage L).Awaits []) with }

theorem heading_new (h : Headed L) (garbage : Bytes) : Heading h ((new : BufferedMessage L).transferred garbage) 0 := by
  have size := HeaderText.four_le_length h.text
  constructor
  · exact awaits_transferred garbage
  · omega

theorem take_next (bytes : Bytes) (k n : Nat) : bytes.take k ++ (bytes.drop k).take n = bytes.take (k + n) :=
  List.take_add.symm

theorem length_next {bytes : Bytes} (inside : k + n ≤ bytes.length) : ((bytes.drop k).take n).length = n := by
  rw [List.length_take, List.length_drop]
  omega

/-- A read that does not complete the header. -/
theorem Heading.read_partial (heading : Heading h m k) (inside : k + n ≤ h.bytes.length) (asked : n ≤ m.shouldRead)
    (short : k + n < h.text.bytes.length) (read : m.readFrom ((h.bytes.drop k).take n) = .ok m') :
    Heading h m' (k + n) := by
  have size := length_next inside
  have awaits := heading.awaits
  rw [awaits.shouldRead] at asked
  have fits := awaits.fits
  have front : h.bytes.take k ++ (h.bytes.drop k).take n = h.text.bytes.take (k + n) := by
    rw [take_next, Headed.bytes, List.take_append_of_le_length (by omega)]
  obtain ⟨other, same, next⟩ := readFrom_partial awaits short front (by rw [List.length_append, size]; omega)
  rw [same, Except.ok.injEq] at read
  subst read
  rw [take_next] at next
  exact ⟨next, short⟩

/-- A read that completes the header. -/
theorem Heading.read_rest (heading : Heading h m k) (inside : k + n ≤ h.bytes.length) (asked : n ≤ m.shouldRead)
    (started : h.text.bytes.length ≤ k + n) (read : m.readFrom ((h.bytes.drop k).take n) = .ok m') :
    Bodied h m' (k + n) ∧ m'.writeLength = 0 ∧ ∃ length, declaredLength h.header = .ok length ∧
      m'.Begun h.header length (h.behind.take (k + n - h.text.bytes.length)) := by
  have awaits := heading.awaits
  have fits := awaits.fits
  have short := heading.short
  have total := h.length_bytes
  rw [awaits.shouldRead] at asked
  generalize excess : k + n - h.text.bytes.length = o
  have count : (h.behind.take o).length = o := by
    rw [List.length_take]
    omega
  have front : h.bytes.take k ++ (h.bytes.drop k).take n = h.text.bytes ++ h.behind.take o := by
    rw [take_next, Headed.bytes, List.take_append, List.take_of_length_le started, excess]
  have bound : (h.text.bytes ++ h.behind.take o).length < npos := by
    rw [List.length_append, count]
    rw [List.length_take] at asked fits
    unfold BUFFER_LENGTH at asked fits
    unfold npos SIZE_RANGE
    omega
  rw [readFrom_header awaits front bound, h.parsed] at read
  cases declared : declaredLength h.header with
  | error e =>
    simp [bind, Except.bind, declared] at read
  | ok length =>
    simp only [bind, Except.bind, declared, pure, Except.pure, Except.ok.injEq] at read
    have begun := begun_opened m h.header length (h.behind.take o) (store m.buffer m.readLength ((h.bytes.drop k).take n))
    have offset : (opened m h.header length (h.behind.take o)
        (store m.buffer m.readLength ((h.bytes.drop k).take n))).writeLength = 0 := awaits.writeLength
    rw [read] at begun offset
    refine ⟨?_, offset, length, rfl, begun⟩
    refine { begun.toOpened with started, isHeader := begun.isHeader, read := ?_, content := ?_, announced := ?_ }
    · rw [begun.read, count, excess]
    · rw [begun.cache, excess]
      exact List.append_nil _
    · intro announced
      rw [declared, begun.bodyLength, if_neg fun unknown => declaredLength_known announced declared unknown.1]

/-- What a read behind the header appends. -/
theorem Bodied.drop_next (bodied : Bodied h m k) (n : Nat) :
    (h.bytes.drop k).take n = (h.behind.drop (k - h.text.bytes.length)).take n := by
  rw [Headed.bytes, List.drop_append, List.drop_eq_nil_of_le bodied.started, List.nil_append]

/-- A read behind the header. -/
theorem Bodied.read_more (bodied : Bodied h m k) (inside : k + n ≤ h.bytes.length)
    (read : m.readFrom ((h.bytes.drop k).take n) = .ok m') :
    Bodied h m' (k + n) ∧ m' = appended m ((h.bytes.drop k).take n) := by
  have started := bodied.started
  have place : k - h.text.bytes.length + n = k + n - h.text.bytes.length := by omega
  rw [readFrom_body bodied.toOpened, Except.ok.injEq] at read
  subst read
  refine ⟨?_, rfl⟩
  constructor
  · exact opened_appended bodied.toOpened _
  · omega
  · exact bodied.isHeader
  · show m.read + _ = _
    rw [bodied.read, length_next inside, place]
  · show (m.cache ++ [_]).flatten = _
    rw [List.flatten_append, bodied.content, List.flatten_singleton, bodied.drop_next, List.append_assoc, ← List.take_add,
      place]
  · intro announced
    have declared := bodied.announced announced
    show _ = Except.ok (if _ then _ else m.bodyLength)
    rw [if_neg fun unknown => declaredLength_known announced declared unknown.1]
    exact declared

/-! ### Any reads -/

/-- The bytes were read into the message: it is where they end on every stream that begins
with them. -/
def Received (m : BufferedMessage L) (bytes : Bytes) : Prop :=
  ∀ h : Headed L, bytes <+: h.bytes → Heading h m bytes.length ∨ Bodied h m bytes.length

theorem received_new (garbage : Bytes) : ((new : BufferedMessage L).transferred garbage).Received [] :=
  fun h _ => Or.inl (heading_new h garbage)

theorem Received.readFrom {bytes next : Bytes} (received : m.Received bytes) (asked : next.length ≤ m.shouldRead)
    (read : m.readFrom next = .ok m') : m'.Received (bytes ++ next) := by
  intro h begins
  have inside : bytes.length + next.length ≤ h.bytes.length := by
    rw [← List.length_append]
    exact begins.length_le
  obtain ⟨rest, whole⟩ := begins
  have here : (h.bytes.drop bytes.length).take next.length = next := by
    rw [← whole, List.append_assoc, List.drop_left, List.take_left]
  rw [← here] at read
  rw [List.length_append]
  rcases received h ((List.prefix_append bytes next).trans ⟨rest, whole⟩) with heading | bodied
  · by_cases short : bytes.length + next.length < h.text.bytes.length
    · exact Or.inl (heading.read_partial inside asked short read)
    · exact Or.inr (heading.read_rest inside asked (by omega) read).1
  · exact Or.inr (bodied.read_more inside read).1

theorem Received.writeTo {bytes out : Bytes} {accepted : Nat} (received : m.Received bytes)
    (written : m.writeTo accepted = some (out, m')) : m'.Received bytes := by
  obtain ⟨part, offset, rfl⟩ := writeTo_eq written
  intro h begins
  rcases received h begins with heading | bodied
  · have empty := heading.awaits.cache
    simp [BufferedMessage.writeTo, empty] at written
  · exact Or.inr { bodied with toOpened := ⟨bodied.headerLength, bodied.readLength⟩ }

theorem Received.transferred {bytes : Bytes} (received : m.Received bytes) (done : m.isRead = true) (garbage : Bytes) :
    (m.transferred garbage).Received bytes := by
  intro h begins
  rcases received h begins with heading | bodied
  · rw [heading.awaits.isRead] at done
    cases done
  · exact Or.inr { bodied with toOpened := ⟨bodied.headerLength, bodied.readLength⟩ }

/-- A message that is read begins as the stream does. -/
theorem Received.begins {bytes : Bytes} (received : m.Received bytes) (begins : bytes <+: h.bytes) (done : m.isRead = true) :
    m.header = h.header ∧ m.cache.flatten <+: h.header.print ++ h.behind := by
  rcases received h begins with heading | bodied
  · rw [heading.awaits.isRead] at done
    cases done
  · refine ⟨bodied.isHeader, ?_⟩
    rw [bodied.content]
    exact (List.prefix_append_right_inj _).mpr (List.take_prefix _ _)

/-- A message with a Content-Length is read where the stream ends, when that is as long as
announced. -/
theorem Received.ends {bytes : Bytes} (received : m.Received bytes) (begins : bytes <+: h.bytes) (done : m.isRead = true)
    (announced : h.header.hasProperty (lit "content-length") = true)
    (declared : declaredLength h.header = .ok h.behind.length) : bytes = h.bytes := by
  have total := h.length_bytes
  rcases received h begins with heading | bodied
  · rw [heading.awaits.isRead] at done
    cases done
  · have waits := bodied.announced announced
    rw [declared, Except.ok.injEq] at waits
    have full : m.bodyLength ≤ m.read := of_decide_eq_true done
    have read := bodied.read
    have started := bodied.started
    exact begins.eq_of_length_le (by omega)

/-- Where the stream has been read to its end, the message is the printed header and what
follows it. -/
theorem Received.whole (received : m.Received h.bytes) :
    m.header = h.header ∧ m.cache.flatten = h.header.print ++ h.behind ∧ m.read = h.behind.length := by
  have total := h.length_bytes
  rcases received h (List.prefix_refl _) with heading | bodied
  · have short := heading.short
    omega
  · have behind : h.bytes.length - h.text.bytes.length = h.behind.length := by omega
    refine ⟨bodied.isHeader, ?_, ?_⟩
    · rw [bodied.content, behind, List.take_length]
    · rw [bodied.read, behind]

end BufferedMessage

end ProxyServer
