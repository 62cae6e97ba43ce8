import ProxyServer.Foundation.Runs
import ProxyServer.Request.BufferedMessage

/-!
# What `read_from` does

The three cases of a read on a header text: the header is not complete, the read
completes it, the read is part of the body.
-/

namespace ProxyServer.BufferedMessage

variable {L : Type}

theorem store_take {buffer c bytes : Bytes} (held : buffer.take c.length = c) :
    (store buffer c.length bytes).take (c.length + bytes.length) = c ++ bytes := by
  rw [store, held, ← List.append_assoc, ← List.length_append, List.take_left]

/-- A suffix that ends the chunks contains the end of a header. -/
theorem endsChunks_terminator {message : Bytes} (bound : message.length < npos)
    (ends : endsChunks message = true) : findText message terminator ≠ npos := by
  simp only [endsChunks, decide_eq_true_eq] at ends
  obtain ⟨size, suffix⟩ := ends
  have occurs : terminator <+: message.drop (message.length - 4) := by
    have shift : message.drop (message.length - 4) = (message.drop (message.length - 5)).drop 1 := by
      rw [List.drop_drop]
      congr 1
      omega
    rw [shift, suffix]
    exact ⟨[], rfl⟩
  obtain ⟨p, le, found⟩ := Search.firstMatch_min occurs (by omega)
  simp only [findText, found, Option.getD_some]
  omega

/-- A fresh message that holds the first bytes of a header. -/
structure Awaits (m : BufferedMessage L) (c : Bytes) : Prop where
  headerLength : m.headerLength = 0
  bodyLength : m.bodyLength = INF
  read : m.read = 0
  writeLength : m.writeLength = 0
  curPart : m.curPart = 0
  cache : m.cache = []
  readLength : m.readLength = c.length
  held : m.buffer.take c.length = c
  fits : c.length ≤ BUFFER_LENGTH

/-- A message whose header is read, between two reads. -/
structure Opened (m : BufferedMessage L) : Prop where
  headerLength : m.headerLength ≠ 0
  readLength : m.readLength = 0

theorem Awaits.isRead {m : BufferedMessage L} {c : Bytes} (h : Awaits m c) : m.isRead = false := by
  simp [BufferedMessage.isRead, h.bodyLength, h.read, INF]

theorem Awaits.shouldRead {m : BufferedMessage L} {c : Bytes} (h : Awaits m c) :
    m.shouldRead = BUFFER_LENGTH - c.length := by
  have fits := h.fits
  unfold BUFFER_LENGTH at fits
  have room : subSize BUFFER_LENGTH c.length = BUFFER_LENGTH - c.length :=
    subSize_eq h.fits (by decide)
  have body : subSize INF 0 = INF := by decide
  rw [BufferedMessage.shouldRead, h.bodyLength, h.read, h.readLength, room, body]
  unfold INF BUFFER_LENGTH
  rw [if_pos (by omega)]

theorem Opened.shouldRead {m : BufferedMessage L} (h : Opened m) (left : m.read < m.bodyLength)
    (bound : m.bodyLength < SIZE_RANGE) :
    m.shouldRead = min BUFFER_LENGTH (m.bodyLength - m.read) := by
  have room : subSize BUFFER_LENGTH 0 = BUFFER_LENGTH := by decide
  rw [BufferedMessage.shouldRead, h.readLength, room, subSize_eq (by omega) bound]
  unfold BUFFER_LENGTH
  split <;> omega

variable [Line L]

theorem awaits_new : Awaits (new : BufferedMessage L) [] :=
  { headerLength := rfl, bodyLength := rfl, read := rfl, writeLength := rfl, curPart := rfl,
    cache := rfl, readLength := rfl, held := rfl, fits := by decide }

/-- What has no end of a header has no last chunk at its end. -/
theorem unended {message : Bytes} (short : message.length < npos) (missing : headerEnd message = npos) :
    ¬endsChunks message = true := by
  intro ends
  apply endsChunks_terminator short ends
  by_contra there
  unfold headerEnd at missing
  dsimp only at missing
  rw [if_neg there] at missing
  exact there missing

theorem readFrom_more {m : BufferedMessage L} {bytes message : Bytes} (unknown : m.headerLength = 0)
    (held : (store m.buffer m.readLength bytes).take (m.readLength + bytes.length) = message)
    (short : message.length < npos) (missing : headerEnd message = npos) :
    m.readFrom bytes =
      .ok { m with buffer := store m.buffer m.readLength bytes, readLength := m.readLength + bytes.length } := by
  have waits : ¬(m.bodyLength = INF ∧ endsChunks message = true) := fun both => unended short missing both.2
  unfold readFrom readHeader
  dsimp only
  rw [held, if_pos unknown, if_neg (not_not_intro missing)]
  simp only [bind, Except.bind, pure, Except.pure]
  rw [if_neg waits]

/-- Without an end of the header the message waits for more of it. -/
theorem Awaits.wait {m : BufferedMessage L} {c bytes : Bytes} (awaits : Awaits m c) (missing : headerEnd (c ++ bytes) = npos)
    (fits : (c ++ bytes).length ≤ BUFFER_LENGTH) : ∃ m', m.readFrom bytes = .ok m' ∧ Awaits m' (c ++ bytes) := by
  have message : (store m.buffer m.readLength bytes).take (m.readLength + bytes.length) = c ++ bytes := by
    rw [awaits.readLength]
    exact store_take awaits.held
  have bound : (c ++ bytes).length < npos := by
    unfold BUFFER_LENGTH at fits
    unfold npos SIZE_RANGE
    omega
  refine ⟨_, readFrom_more awaits.headerLength message bound missing, ?_⟩
  exact { awaits with
    readLength := by simp [awaits.readLength]
    held := by rw [List.length_append, ← awaits.readLength]; exact message
    fits }

theorem readFrom_partial {m : BufferedMessage L} {c bytes : Bytes} {t : HeaderText} {k : Nat}
    (awaits : Awaits m c) (short : k < t.bytes.length) (front : c ++ bytes = t.bytes.take k)
    (fits : (c ++ bytes).length ≤ BUFFER_LENGTH) :
    ∃ m', m.readFrom bytes = .ok m' ∧ Awaits m' (c ++ bytes) := by
  obtain ⟨noEnd, noBare⟩ := HeaderText.findText_partial t short
  rw [← front] at noEnd noBare
  have missing : headerEnd (c ++ bytes) = npos := by simp [headerEnd, noEnd, noBare]
  exact awaits.wait missing fits

/-- The message after the read that completed the header, with `x` of the body. -/
def opened (m : BufferedMessage L) (header : HttpHeader L) (n : Nat) (x buffer : Bytes) : BufferedMessage L :=
  { m with
    header, buffer, headerLength := header.print.length, read := x.length,
    bodyLength := if n = INF ∧ endsChunks (header.print ++ x) then x.length else n,
    cache := [header.print ++ x], readLength := 0, curPart := 0 }

/-- A message whose header is read, with `x` of the body, when `n` is the length
that the header declares. -/
structure Begun (m : BufferedMessage L) (header : HttpHeader L) (n : Nat) (x : Bytes) : Prop extends
    Opened m where
  isHeader : m.header = header
  bodyLength : m.bodyLength = if n = INF ∧ endsChunks (header.print ++ x) then x.length else n
  read : m.read = x.length
  cache : m.cache = [header.print ++ x]
  curPart : m.curPart = 0

theorem begun_opened (m : BufferedMessage L) (header : HttpHeader L) (n : Nat) (x buffer : Bytes) :
    Begun (opened m header n x buffer) header n x where
  headerLength := by simpa [opened] using header.print_ne_nil
  readLength := rfl
  isHeader := rfl
  bodyLength := rfl
  read := rfl
  cache := rfl
  curPart := rfl

theorem readFrom_header {m : BufferedMessage L} {c bytes x : Bytes} {t : HeaderText}
    (awaits : Awaits m c) (front : c ++ bytes = t.bytes ++ x) (bound : (t.bytes ++ x).length < npos) :
    m.readFrom bytes = (do
      let header ← t.header
      let n ← declaredLength header
      return opened m header n x (store m.buffer m.readLength bytes)) := by
  have message : (store m.buffer m.readLength bytes).take (m.readLength + bytes.length) = t.bytes ++ x := by
    rw [awaits.readLength, ← front]
    exact store_take awaits.held
  have size := HeaderText.four_le_length t
  have small : t.bytes.length < npos := by
    rw [List.length_append] at bound
    omega
  have stop : headerEnd (t.bytes ++ x) = t.bytes.length - 4 := by
    rw [headerEnd, HeaderText.findText_text, if_neg (by omega)]
  have found : t.bytes.length - 4 ≠ npos := by omega
  have behind : addSize (t.bytes.length - 4) 4 = t.bytes.length := by
    rw [addSize_eq (by have := npos_lt small; omega)]
    omega
  have body : substrFrom (t.bytes ++ x) t.bytes.length = .ok x := by simp [substrFrom]
  have parsed := HeaderText.parse_text (L := L) t x bound
  simp only [readFrom, message, awaits.headerLength, if_true, readHeader, stop, found, ne_eq,
    not_false_eq_true, behind, body, parsed, awaits.cache, List.nil_append]
  cases t.header (L := L) with
  | error e => rfl
  | ok header =>
    simp only [bind, Except.bind]
    cases declaredLength header with
    | error e => rfl
    | ok n =>
      simp only [pure, Except.pure, opened]
      split <;> rfl

/-- The message after a read behind its header. -/
def appended (m : BufferedMessage L) (bytes : Bytes) : BufferedMessage L :=
  { m with
    buffer := store m.buffer 0 bytes, read := m.read + bytes.length, cache := m.cache ++ [bytes],
    bodyLength := if m.bodyLength = INF ∧ endsChunks bytes then m.read + bytes.length else m.bodyLength }

/-- A read behind the header is a part of its own. -/
theorem readFrom_body {m : BufferedMessage L} (opened : Opened m) (bytes : Bytes) :
    m.readFrom bytes = .ok (appended m bytes) := by
  have message : (store m.buffer 0 bytes).take (0 + bytes.length) = bytes :=
    store_take (c := []) rfl
  simp only [readFrom, opened.readLength, message, opened.headerLength, if_false, pure, Except.pure,
    bind, Except.bind, appended]
  split <;> rfl

omit [Line L] in
theorem opened_appended {m : BufferedMessage L} (opened : Opened m) (bytes : Bytes) :
    Opened (appended m bytes) :=
  ⟨opened.headerLength, opened.readLength⟩

/-! ### Any read -/

/-- The end of `read_from`: a message of unknown length may end here. -/
def settled (m : BufferedMessage L) (message : Bytes) : BufferedMessage L :=
  { m with bodyLength := if m.bodyLength = INF ∧ endsChunks message then m.read else m.bodyLength }

/-- What is in the buffer when the descriptor returned `bytes`. -/
def buffered (m : BufferedMessage L) (bytes : Bytes) : Bytes :=
  (store m.buffer m.readLength bytes).take (m.readLength + bytes.length)

omit [Line L] in
theorem Awaits.buffered {m : BufferedMessage L} {c : Bytes} (awaits : Awaits m c) (bytes : Bytes) :
    m.buffered bytes = c ++ bytes := by
  unfold BufferedMessage.buffered
  rw [awaits.readLength]
  exact store_take awaits.held

/-- What a read leaves: it is part of the body, or no end of the header is found, or
the header is complete. -/
inductive ReadCase (m : BufferedMessage L) (bytes : Bytes) : BufferedMessage L → Prop
  | body (known : m.headerLength ≠ 0) : ReadCase m bytes (settled
      { m with
        buffer := store m.buffer m.readLength bytes, readLength := 0, read := m.read + bytes.length,
        cache := m.cache ++ [m.buffered bytes] } (m.buffered bytes))
  | waits (unknown : m.headerLength = 0) (missing : headerEnd (m.buffered bytes) = npos) :
      ReadCase m bytes (settled
        { m with buffer := store m.buffer m.readLength bytes, readLength := m.readLength + bytes.length }
        (m.buffered bytes))
  | opens (unknown : m.headerLength = 0) (x : Bytes) (header : HttpHeader L) (n : Nat)
      (cut : substrFrom (m.buffered bytes) (addSize (headerEnd (m.buffered bytes)) 4) = .ok x)
      (parsed : HttpHeader.parse (m.buffered bytes) = .ok header)
      (declared : declaredLength header = .ok n) : ReadCase m bytes (settled
        { m with
          buffer := store m.buffer m.readLength bytes, readLength := 0, read := x.length, header,
          headerLength := header.print.length, bodyLength := n, curPart := 0,
          cache := m.cache ++ [header.print ++ x] } (header.print ++ x))

theorem readHeader_ok {m : BufferedMessage L} {message : Bytes} {result : BufferedMessage L × Bytes}
    (read : m.readHeader message = .ok result) :
    headerEnd message = npos ∧ result = (m, message) ∨ headerEnd message ≠ npos ∧
      ∃ x header n, substrFrom message (addSize (headerEnd message) 4) = .ok x ∧ HttpHeader.parse message = .ok header ∧
        declaredLength header = .ok n ∧ result = ({ m with
          header, headerLength := header.print.length, bodyLength := n, read := x.length,
          cache := m.cache ++ [header.print ++ x], readLength := 0, curPart := 0 }, header.print ++ x) := by
  unfold readHeader at read
  dsimp only at read
  split at read
  · rename_i complete
    obtain ⟨x, cut, read⟩ := Runs.bind_ok.mp read
    obtain ⟨header, parsed, read⟩ := Runs.bind_ok.mp read
    obtain ⟨n, declared, read⟩ := Runs.bind_ok.mp read
    cases read
    exact Or.inr ⟨complete, x, header, n, cut, parsed, declared, rfl⟩
  · rename_i missing
    cases read
    exact Or.inl ⟨not_not.mp missing, rfl⟩

theorem readFrom_cases {m m' : BufferedMessage L} {bytes : Bytes} (read : m.readFrom bytes = .ok m') :
    ReadCase m bytes m' := by
  have settle : ∀ (t : BufferedMessage L) message,
      (if t.bodyLength = INF ∧ endsChunks message then { t with bodyLength := t.read } else t) =
        settled t message := by
    intro t message
    unfold settled
    split <;> rfl
  unfold BufferedMessage.readFrom at read
  dsimp only at read
  simp only [settle] at read
  split at read
  · rename_i unknown
    obtain ⟨⟨t, message⟩, took, read⟩ := Runs.bind_ok.mp read
    cases read
    obtain ⟨missing, same⟩ | ⟨_, x, header, n, cut, parsed, declared, same⟩ := readHeader_ok took
    · cases same
      exact ReadCase.waits unknown missing
    · cases same
      exact ReadCase.opens unknown x header n cut parsed declared
  · rename_i known
    cases read
    exact ReadCase.body known

end ProxyServer.BufferedMessage
