import ProxyServer.Foundation.Runs
import ProxyServer.Request.ReadFrom
import ProxyServer.Request.WriteTo

/-!
# Streaming a response

`fast_transfer` reads a response from the server and writes it to the client at
the same time, until it is read; `send` writes the rest.
-/

namespace ProxyServer

/-- A response that declares the length of its body. -/
structure SizedResponse where
  text : HeaderText
  header : ResponseHeader
  body : Bytes
  parsed : text.header = .ok header
  declared : header.hasProperty (lit "content-length") = true
  sized : header.getInt (lit "content-length") = .ok (body.length : Int)
  fits : text.bytes.length ≤ BUFFER_LENGTH

namespace SizedResponse

/-- The response on the stream from the server. -/
def received (r : SizedResponse) : Bytes := r.text.bytes ++ r.body

/-- The response on the stream to the client. -/
def forwarded (r : SizedResponse) : Bytes := r.header.print ++ r.body

theorem declaredLength_eq (r : SizedResponse) :
    BufferedMessage.declaredLength r.header = .ok r.body.length := by
  have bounds := HttpHeader.getInt_bounds r.sized
  rw [BufferedMessage.declaredLength, if_pos r.declared, r.sized, Except.map,
    toSize_ofNat (by unfold SIZE_RANGE; omega)]

theorem length_body (r : SizedResponse) : r.body.length < 2 ^ 31 := by
  have bounds := HttpHeader.getInt_bounds r.sized
  omega

end SizedResponse

/-- Where a response is written: by the client's handler in `fast_transfer`, by
the one in `send`, or by none. -/
inductive StreamPhase where
  | transferring | sending | sent
  deriving DecidableEq, Repr

structure Streaming where
  phase : StreamPhase
  resp : ServerResponse
  /-- What the server sent and was not read. -/
  unread : Bytes
  /-- What the client was sent. -/
  written : Bytes
  deriving DecidableEq, Repr

/-- An event on the server, with the number of bytes that `read` returns and the
memory that a copy of the message finds, or on the client, with the number of
bytes that `write` takes. -/
inductive StreamEvent where
  | serverIn (n : Nat) (garbage : Bytes)
  | clientOut (accepted : Nat)

/-- Why an event has no step: it cannot happen, `read_from` throws, or `write_to`
indexes the cache out of bounds. -/
inductive StreamFault where
  | disabled
  | thrown (e : CppError)
  | outOfBounds
  deriving DecidableEq, Repr

namespace Streaming

def start (r : SizedResponse) : Streaming :=
  { phase := .transferring, resp := .new, unread := r.received, written := [] }

/-- `write_to` of the client. -/
def writeTo (s : Streaming) (accepted : Nat) : Except StreamFault Streaming :=
  match s.resp.writeTo accepted with
  | some (bytes, resp) => .ok { s with resp, written := s.written ++ bytes }
  | none => .error .outOfBounds

/-- `read_from` of the server, and the hand-over of a response that is read. -/
def readFrom (s : Streaming) (n : Nat) (garbage : Bytes) : Except StreamFault Streaming :=
  match s.resp.readFrom (s.unread.take n) with
  | .ok resp =>
    let s := { s with resp, unread := s.unread.drop n }
    .ok (if resp.isRead then { s with phase := .sending, resp := resp.transferred garbage } else s)
  | .error e => .error (.thrown e)

def step (s : Streaming) : StreamEvent → Except StreamFault Streaming
  | .serverIn n garbage =>
    if s.phase = .transferring ∧ 0 < n ∧ n ≤ s.resp.shouldRead ∧ n ≤ s.unread.length then
      s.readFrom n garbage
    else .error .disabled
  | .clientOut accepted =>
    match s.phase with
    | .transferring => if s.resp.canWrite then s.writeTo accepted else .error .disabled
    | .sending => do
      let s ← s.writeTo accepted
      return if s.resp.isWritten then { s with phase := .sent } else s
    | .sent => .error .disabled

/-! ### The invariant -/

structure Head (r : SizedResponse) (s : Streaming) (c : Bytes) : Prop where
  phase : s.phase = .transferring
  awaits : s.resp.Awaits c
  stream : c ++ s.unread = r.received
  short : c.length < r.text.bytes.length
  written : s.written = []

/-- The header is complete and part of the body is read. -/
structure Body (r : SizedResponse) (s : Streaming) : Prop where
  opened : s.resp.Opened
  total : s.resp.bodyLength = r.body.length
  bound : s.resp.read ≤ r.body.length
  unread : s.unread = r.body.drop s.resp.read
  content : s.resp.cache.flatten = r.header.print ++ r.body.take s.resp.read
  written : s.resp.Written s.written
  reading : s.phase = .transferring → s.resp.read < r.body.length
  behind : s.phase ≠ .transferring → s.resp.read = r.body.length
  pending : s.phase = .sending → s.resp.curPart ≠ s.resp.cache.length
  finished : s.phase = .sent → s.resp.curPart = s.resp.cache.length

def Inv (r : SizedResponse) (s : Streaming) : Prop := (∃ c, Head r s c) ∨ Body r s

theorem inv_start (r : SizedResponse) : Inv r (start r) := by
  refine Or.inl ⟨[], rfl, BufferedMessage.awaits_new, rfl, ?_, rfl⟩
  have := HeaderText.four_le_length r.text
  simp only [List.length_nil]
  omega

theorem received_take {r : SizedResponse} {s : Streaming} {c : Bytes} {n : Nat} (head : Head r s c)
    (most : n ≤ s.unread.length) :
    c ++ s.unread.take n = r.received.take (c.length + n) ∧ (c ++ s.unread.take n).length = c.length + n := by
  refine ⟨?_, ?_⟩
  · rw [← head.stream, List.take_length_add_append]
  · rw [List.length_append, List.length_take]
    omega

theorem Head.read_partial {r : SizedResponse} {s : Streaming} {c : Bytes} {n : Nat} (head : Head r s c)
    (asked : n ≤ s.resp.shouldRead) (most : n ≤ s.unread.length) (short : c.length + n < r.text.bytes.length)
    (garbage : Bytes) : ∃ s', s.readFrom n garbage = .ok s' ∧ Inv r s' := by
  obtain ⟨front, size⟩ := received_take head most
  rw [head.awaits.shouldRead] at asked
  have fits := head.awaits.fits
  rw [SizedResponse.received, List.take_append_of_le_length (by omega)] at front
  obtain ⟨m', read, awaits⟩ := BufferedMessage.readFrom_partial head.awaits short front (by omega)
  refine ⟨{ s with resp := m', unread := s.unread.drop n }, ?_, Or.inl ⟨_, head.phase, awaits, ?_, ?_, head.written⟩⟩
  · simp [Streaming.readFrom, read, awaits.isRead]
  · rw [List.append_assoc, List.take_append_drop, head.stream]
  · rw [size]
    exact short

/-- What a read behind the header leaves: a transfer that goes on, or a response
that is read and handed over. -/
theorem inv_of_read {r : SizedResponse} {m : ServerResponse} {written : Bytes} (opened : m.Opened)
    (total : m.bodyLength = r.body.length) (bound : m.read ≤ r.body.length)
    {u : Bytes} (rest : u = r.body.drop m.read) (content : m.cache.flatten = r.header.print ++ r.body.take m.read)
    (cursor : m.Written written) (more : m.curPart ≠ m.cache.length) (garbage : Bytes) :
    Inv r (if m.isRead then ⟨.sending, m.transferred garbage, u, written⟩
      else ⟨.transferring, m, u, written⟩) := by
  refine Or.inr ?_
  split
  · rename_i complete
    simp only [BufferedMessage.isRead, total, decide_eq_true_eq] at complete
    exact
      { opened := ⟨opened.headerLength, opened.readLength⟩, total, bound, unread := rest, content,
        written := ⟨cursor.present, cursor.cursor⟩, reading := (fun h => by cases h),
        behind := fun _ => by simp only [BufferedMessage.transferred]; omega,
        pending := fun _ => more, finished := (fun h => by cases h) }
  · rename_i reading
    simp only [BufferedMessage.isRead, total, decide_eq_true_eq, Nat.not_le] at reading
    exact
      { opened, total, bound, unread := rest, content, written := cursor, reading := fun _ => reading,
        behind := fun h => absurd rfl h, pending := (fun h => by cases h), finished := fun h => by cases h }

theorem Head.read_rest {r : SizedResponse} {s : Streaming} {c : Bytes} {n : Nat} (head : Head r s c)
    (most : n ≤ s.unread.length) (whole : r.text.bytes.length ≤ c.length + n)
    (garbage : Bytes) : ∃ s', s.readFrom n garbage = .ok s' ∧ Inv r s' := by
  obtain ⟨front, size⟩ := received_take head most
  generalize excess : c.length + n - r.text.bytes.length = o at *
  have stop : c.length + n = r.text.bytes.length + o := by omega
  rw [SizedResponse.received, stop, List.take_length_add_append] at front
  have length := r.length_body
  have total := congrArg List.length head.stream
  simp only [SizedResponse.received, List.length_append] at total
  have fits := r.fits
  have small : (r.text.bytes ++ r.body.take o).length < npos := by
    simp only [List.length_append, List.length_take, npos, SIZE_RANGE]
    unfold BUFFER_LENGTH at fits
    omega
  have read := BufferedMessage.readFrom_header head.awaits front small
  have begun := BufferedMessage.begun_opened s.resp r.header r.body.length (r.body.take o)
    (store s.resp.buffer s.resp.readLength (s.unread.take n))
  simp only [r.parsed, r.declaredLength_eq, bind, Except.bind, pure, Except.pure] at read
  have offset : (BufferedMessage.opened s.resp r.header r.body.length (r.body.take o)
      (store s.resp.buffer s.resp.readLength (s.unread.take n))).writeLength = 0 := head.awaits.writeLength
  generalize BufferedMessage.opened s.resp r.header r.body.length (r.body.take o)
    (store s.resp.buffer s.resp.readLength (s.unread.take n)) = m at *
  have known : m.bodyLength = r.body.length := by
    rw [begun.bodyLength, if_neg]
    rintro ⟨large, _⟩
    unfold INF at large
    omega
  have count : m.read = o := by
    rw [begun.read, List.length_take]
    omega
  have rest : s.unread.drop n = r.body.drop m.read := by
    have shift := congrArg (List.drop (c.length + n)) head.stream
    rw [List.drop_append, List.drop_eq_nil_of_le (by omega), Nat.add_sub_cancel_left, List.nil_append,
      SizedResponse.received, stop, ← List.drop_drop, List.drop_left] at shift
    rw [shift, count]
  have cursor : m.Written s.written := by
    have present : ∀ p ∈ m.cache, p ≠ [] := by
      rw [begun.cache]
      simp [r.header.print_ne_nil]
    refine ⟨present, ?_⟩
    rw [begun.curPart, offset, head.written]
    exact Parts.At.start present
  refine ⟨_, ?_, inv_of_read begun.toOpened known (by omega) rest ?_ cursor ?_ garbage⟩
  · simp [Streaming.readFrom, read, head.phase]
  · rw [begun.cache, count]
    simp
  · rw [begun.curPart, begun.cache]
    simp

theorem Body.read {r : SizedResponse} {s : Streaming} {n : Nat} (body : Body r s)
    (phase : s.phase = .transferring) (some_ : 0 < n) (asked : n ≤ s.resp.shouldRead)
    (most : n ≤ s.unread.length) (garbage : Bytes) : ∃ s', s.readFrom n garbage = .ok s' ∧ Inv r s' := by
  have length := r.length_body
  have reading := body.reading phase
  rw [body.opened.shouldRead (by rw [body.total]; exact reading)
    (by rw [body.total]; unfold SIZE_RANGE; omega), body.total] at asked
  have read := BufferedMessage.readFrom_body body.opened (s.unread.take n)
  have size : (s.unread.take n).length = n := by
    rw [List.length_take]
    omega
  have total : (s.resp.appended (s.unread.take n)).bodyLength = r.body.length := by
    have known : r.body.length ≠ INF := by
      unfold INF
      omega
    simp [BufferedMessage.appended, known, body.total]
  have count : (s.resp.appended (s.unread.take n)).read = s.resp.read + n := by
    simp only [BufferedMessage.appended, size]
  have present : s.unread.take n ≠ [] := by
    intro gone
    rw [gone, List.length_nil] at size
    omega
  have cursor : (s.resp.appended (s.unread.take n)).Written s.written := by
    refine ⟨fun p member => ?_, body.written.cursor.push present⟩
    rcases List.mem_append.mp member with old | new
    · exact body.written.present p old
    · rw [List.mem_singleton.mp new]
      exact present
  refine ⟨_, ?_, inv_of_read (BufferedMessage.opened_appended body.opened _) total (by rw [count]; omega)
    (u := s.unread.drop n) ?_ ?_ cursor ?_ garbage⟩
  · simp [Streaming.readFrom, read, phase]
  · rw [count, body.unread, List.drop_drop]
  · simp only [BufferedMessage.appended, List.flatten_append, body.content, List.flatten_singleton, size]
    rw [body.unread, List.append_assoc, ← List.take_add]
  · have within := body.written.cursor.le_length
    simp only [BufferedMessage.appended, List.length_append, List.length_singleton]
    omega

theorem Body.write {r : SizedResponse} {s : Streaming} (body : Body r s)
    (phase : s.phase = .transferring) (ready : s.resp.canWrite = true) (accepted : Nat) :
    ∃ s', s.writeTo accepted = .ok s' ∧ Inv r s' := by
  obtain ⟨bytes, part, offset, wrote, written⟩ :=
    body.written.writeTo (BufferedMessage.canWrite_ne ready) accepted
  refine ⟨{ s with resp := { s.resp with curPart := part, writeLength := offset }, written := s.written ++ bytes },
    by simp [Streaming.writeTo, wrote], Or.inr ?_⟩
  exact
    { body with
      opened := ⟨body.opened.headerLength, body.opened.readLength⟩, written
      pending := fun h => absurd (phase.symm.trans h) (by decide)
      finished := fun h => absurd (phase.symm.trans h) (by decide) }

theorem Body.send {r : SizedResponse} {s : Streaming} (body : Body r s)
    (phase : s.phase = .sending) (accepted : Nat) :
    ∃ s', s.writeTo accepted = .ok s' ∧ s'.resp.isRead = true ∧
      Inv r (if s'.resp.isWritten then { s' with phase := .sent } else s') := by
  obtain ⟨bytes, part, offset, wrote, written⟩ := body.written.writeTo (body.pending phase) accepted
  have complete := body.behind (by rw [phase]; decide)
  have isRead : ({ s.resp with curPart := part, writeLength := offset } : ServerResponse).isRead = true := by
    simp only [BufferedMessage.isRead, body.total, complete, Nat.le_refl, decide_true]
  refine ⟨{ s with resp := { s.resp with curPart := part, writeLength := offset }, written := s.written ++ bytes },
    by simp [Streaming.writeTo, wrote], isRead, Or.inr ?_⟩
  have opened : ({ s.resp with curPart := part, writeLength := offset } : ServerResponse).Opened :=
    ⟨body.opened.headerLength, body.opened.readLength⟩
  simp only [BufferedMessage.isWritten, isRead, Bool.true_and, decide_eq_true_eq]
  split
  · rename_i last
    exact
      { body with
        opened, written, reading := (fun h => by cases h), behind := fun _ => complete, pending := (fun h => by cases h),
        finished := fun _ => last }
  · rename_i more
    exact
      { body with
        opened, written, reading := fun h => absurd (phase.symm.trans h) (by decide),
        pending := fun _ => more, finished := fun h => absurd (phase.symm.trans h) (by decide) }

theorem inv_step {r : SizedResponse} {s : Streaming} (inv : Inv r s) (event : StreamEvent) :
    s.step event = .error .disabled ∨ ∃ s', s.step event = .ok s' ∧ Inv r s' := by
  cases event with
  | serverIn n garbage =>
    rw [step]
    split
    · rename_i enabled
      obtain ⟨phase, some_, asked, most⟩ := enabled
      right
      rcases inv with ⟨c, head⟩ | body
      · by_cases short : c.length + n < r.text.bytes.length
        · exact head.read_partial asked most short garbage
        · exact head.read_rest most (by omega) garbage
      · exact body.read phase some_ asked most garbage
    · exact Or.inl rfl
  | clientOut accepted =>
    cases phase : s.phase with
    | transferring =>
      simp only [step, phase]
      split
      · rename_i ready
        right
        rcases inv with ⟨c, head⟩ | body
        · simp [BufferedMessage.canWrite, head.awaits.curPart, head.awaits.cache] at ready
        · exact body.write phase ready accepted
      · exact Or.inl rfl
    | sending =>
      rcases inv with ⟨c, head⟩ | body
      · exact absurd (head.phase.symm.trans phase) (by decide)
      · obtain ⟨s', wrote, _, inv⟩ := body.send phase accepted
        exact Or.inr ⟨_, by simp [step, phase, wrote, bind, Except.bind, pure, Except.pure], inv⟩
    | sent => exact Or.inl (by simp [step, phase])

/-! ### Fidelity -/

/-- What holds at every moment of the transfer. -/
structure Faithful (r : SizedResponse) (s : Streaming) : Prop where
  complete : s.resp.isRead = true ↔ s.unread = []
  forwarded : s.written <+: r.forwarded
  finished : s.resp.isWritten = true → s.written = r.forwarded
  room : s.resp.readLength + s.resp.shouldRead ≤ BUFFER_LENGTH
  safe : ∀ event e, s.step event = .error e → e = .disabled

theorem Head.faithful {r : SizedResponse} {s : Streaming} {c : Bytes} (head : Head r s c) :
    (s.resp.isRead = true ↔ s.unread = []) ∧ s.written <+: r.forwarded ∧
      (s.resp.isWritten = true → s.written = r.forwarded) ∧
      s.resp.readLength + s.resp.shouldRead ≤ BUFFER_LENGTH := by
  have unread : s.resp.isRead = false := head.awaits.isRead
  have fits := head.awaits.fits
  refine ⟨?_, by simp [head.written], by simp [BufferedMessage.isWritten, unread], ?_⟩
  · simp only [unread, Bool.false_eq_true, false_iff]
    intro drained
    have size := congrArg List.length head.stream
    have short := head.short
    rw [drained] at size
    simp only [SizedResponse.received, List.length_append, List.length_nil] at size
    omega
  · rw [head.awaits.shouldRead, head.awaits.readLength]
    omega

theorem Body.faithful {r : SizedResponse} {s : Streaming} (body : Body r s) :
    (s.resp.isRead = true ↔ s.unread = []) ∧ s.written <+: r.forwarded ∧
      (s.resp.isWritten = true → s.written = r.forwarded) ∧
      s.resp.readLength + s.resp.shouldRead ≤ BUFFER_LENGTH := by
  have bound := body.bound
  have part : s.resp.cache.flatten <+: r.forwarded := by
    rw [body.content]
    exact List.prefix_append_right_inj _ |>.mpr (List.take_prefix _ _)
  refine ⟨?_, body.written.cursor.isPrefix.trans part, ?_, ?_⟩
  · rw [BufferedMessage.isRead, body.total, decide_eq_true_eq, body.unread, List.drop_eq_nil_iff]
  · simp only [BufferedMessage.isWritten, BufferedMessage.isRead, body.total, Bool.and_eq_true,
      decide_eq_true_eq]
    rintro ⟨complete, last⟩
    rw [body.written.cursor.stopped last, body.content, List.take_of_length_le complete]
    rfl
  · rw [body.opened.readLength, Nat.zero_add]
    have length := r.length_body
    have none_ : subSize BUFFER_LENGTH 0 = BUFFER_LENGTH := by decide
    rw [BufferedMessage.shouldRead, body.opened.readLength, none_]
    split <;> omega

theorem Inv.faithful {r : SizedResponse} {s : Streaming} (inv : Inv r s) : Faithful r s := by
  have safe : ∀ event e, s.step event = .error e → e = .disabled := by
    intro event e failed
    rcases inv_step inv event with disabled | ⟨s', stepped, _⟩
    · rw [disabled] at failed
      cases failed
      rfl
    · rw [stepped] at failed
      cases failed
  rcases inv with ⟨c, head⟩ | body
  · obtain ⟨complete, forwarded, finished, room⟩ := head.faithful
    exact ⟨complete, forwarded, finished, room, safe⟩
  · obtain ⟨complete, forwarded, finished, room⟩ := body.faithful
    exact ⟨complete, forwarded, finished, room, safe⟩

/-- Whatever the interleaving of reads and writes, the client is sent what the
server sent. -/
theorem streaming_faithful (r : SizedResponse) (events : List StreamEvent) (s : Streaming)
    (ran : Runs.run step (start r) events = .ok s) : Faithful r s := by
  refine Inv.faithful (Runs.invariant (inv_start r) ?_ ran)
  intro s event s' inv stepped
  rcases inv_step inv event with disabled | ⟨t, again, inv'⟩
  · rw [stepped] at disabled
    cases disabled
  · rw [stepped] at again
    cases again
    exact inv'

theorem hello_plain : Plain (lit "HTTP/1.1 200 OK") := by decide

/-- A body of two bytes, read in two pieces and written in two. -/
def hello : SizedResponse where
  text := ⟨lit "HTTP/1.1 200 OK", [lit "Content-Length: 2"], hello_plain, by decide, by decide⟩
  header :=
    { requestLine := ⟨200, lit "OK", lit "HTTP/1.1"⟩, properties := [⟨lit "content-length", lit "2"⟩] }
  body := lit "hi"
  parsed := by decide
  declared := by decide
  sized := by decide
  fits := by decide

theorem hello_faithful :
    ∃ s, Runs.run step (start hello) [.serverIn 39 [], .clientOut 10, .serverIn 1 [], .clientOut 100, .clientOut 1] =
      .ok s ∧ s.phase = .sent ∧ Faithful hello s := by
  refine ⟨_, rfl, by decide +kernel, ?_⟩
  exact streaming_faithful hello [.serverIn 39 [], .clientOut 10, .serverIn 1 [], .clientOut 100, .clientOut 1] _ rfl

end Streaming

end ProxyServer
