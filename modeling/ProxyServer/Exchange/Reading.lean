import ProxyServer.Exchange.Machine
import ProxyServer.Request.Collected
import ProxyServer.Request.Received

/-!
# Reading an answer

A response that is read is what was read of the origin's answer. It is the whole answer
unless the last read ends it too early: the one with the end of an interim header, or
one that ends like a last chunk.
-/

namespace ProxyServer

namespace Answer

/-- A read of `n` bytes behind the first `k` of the answer is one that ends a response:
it holds the end of a header that announces no body, or it ends the chunks. -/
def Ends (a : Answer) (k n : Nat) : Prop :=
  let size := a.first.bytes.length
  a.head.hasProperty (lit "content-length") = false ∧ size ≤ k + n ∧
    (a.head.getProperty (lit "transfer-encoding") = lit "chunked" →
      endsChunks (if k < size then a.head.print ++ a.behind.take (k + n - size)
        else (a.behind.drop (k - size)).take n) = true ∨ INF ≤ k + n - size)

instance (a : Answer) (k n : Nat) : Decidable (a.Ends k n) :=
  inferInstanceAs (Decidable (_ ∧ _ ∧ (_ → _ ∨ _)))

theorem length_bytes (a : Answer) : a.bytes.length = a.first.bytes.length + a.behind.length := by
  rw [a.bytes_eq, List.length_append]

/-- The first header of the answer, and what follows it. -/
def headed (a : Answer) : Headed ResponseLine where
  text := a.first
  header := a.head
  parsed := a.parsed
  behind := a.behind

theorem headed_bytes (a : Answer) : a.headed.bytes = a.bytes := a.bytes_eq.symm

/-- A length that is declared is that of what follows the header, or nothing does. -/
theorem sized {a : Answer} {n : Nat} (has : a.head.hasProperty (lit "content-length") = true)
    (declared : BufferedMessage.declaredLength a.head = .ok n) : a.behind = [] ∨ n = a.behind.length := by
  unfold head at has declared
  unfold behind
  cases interims : a.interims with
  | cons interim rest =>
    rw [interims] at has
    exact absurd has (by rw [interim.unsized]; exact Bool.false_ne_true)
  | nil =>
    rw [interims] at has declared
    dsimp only at has declared ⊢
    rcases a.final.framed with empty | ⟨_, length⟩ | ⟨unsized, _⟩
    · exact Or.inl empty
    · right
      have bounds := HttpHeader.getInt_bounds length
      rw [BufferedMessage.declaredLength, if_pos has, length, Except.map,
        toSize_ofNat (by unfold SIZE_RANGE; omega)] at declared
      exact (Except.ok.inj declared).symm
    · rw [unsized] at has
      cases has

end Answer

/-! ### Reading an answer -/

open BufferedMessage (Heading Bodied)

/-- The first `k` bytes of the answer were read and more is waited for, and `before` of
the message was written. -/
structure Reading (a : Answer) (m : ServerResponse) (k : Nat) (before : Bytes) : Prop where
  written : m.Written before
  place : Heading a.headed m k ∨ Bodied a.headed m k ∧ BufferedMessage.declaredLength a.head = .ok m.bodyLength

variable {a : Answer} {m m' : ServerResponse} {k n : Nat} {before : Bytes}

theorem reading_new (a : Answer) (garbage : Bytes) :
    Reading a ((BufferedMessage.new : ServerResponse).transferred garbage) 0 [] := by
  constructor
  · constructor
    · intro p member
      cases member
    · exact Parts.At.stop []
  · exact Or.inl (BufferedMessage.heading_new a.headed garbage)

theorem BufferedMessage.Awaits.before_nil {c : Bytes} (awaits : m.Awaits c) (written : m.Written before) :
    before = [] := by
  have all := written.cursor.stopped (by rw [awaits.curPart, awaits.cache]; rfl)
  rw [awaits.cache] at all
  exact all

/-- A header that announces a length does not leave it unknown. -/
theorem unsized_of_unknown {header : ResponseHeader} (declared : BufferedMessage.declaredLength header = .ok INF) :
    header.hasProperty (lit "content-length") = false := by
  cases has : header.hasProperty (lit "content-length") with
  | true => exact absurd rfl (BufferedMessage.declaredLength_known has declared)
  | false => rfl

/-- Where the declared length is reached, and the read is not one that ends a response
too early, the answer is read. -/
theorem whole_of_reached {length : Nat} (declared : BufferedMessage.declaredLength a.head = .ok length)
    (started : a.first.bytes.length ≤ k + n) (inside : k + n ≤ a.bytes.length)
    (timely : a.Ends k n → k + n = a.bytes.length)
    (reached : length ≤ k + n - a.first.bytes.length) : k + n = a.bytes.length := by
  rw [a.length_bytes] at inside timely ⊢
  cases has : a.head.hasProperty (lit "content-length") with
  | true =>
    rcases a.sized has declared with empty | same
    · rw [empty, List.length_nil] at inside ⊢
      omega
    · omega
  | false =>
    apply timely
    refine ⟨has, started, fun chunked => Or.inr ?_⟩
    unfold BufferedMessage.declaredLength at declared
    rw [if_neg (by rw [has]; exact Bool.false_ne_true), if_pos chunked] at declared
    cases declared
    exact reached

/-- What a read of `n` bytes behind the first `k` leaves: a response that is read, which
is the whole answer unless the read ends it too early, or one that waits for more. -/
structure AfterRead (a : Answer) (m : ServerResponse) (k n : Nat) (before : Bytes) : Prop where
  written : m.Written before
  ended : m.isRead = true → Bodied a.headed m (k + n)
  whole : m.isRead = true → (a.Ends k n → k + n = a.bytes.length) → k + n = a.bytes.length
  more : m.isRead = false → Reading a m (k + n) before

theorem Answer.prefix_forwarded (bodied : Bodied a.headed m k) : m.cache.flatten <+: a.forwarded := by
  rw [bodied.content]
  exact List.prefix_append_right_inj _ |>.mpr (List.take_prefix _ _)

theorem AfterRead.forwarded (after : AfterRead a m k n before) (isRead : m.isRead = true)
    (all : k + n = a.bytes.length) : m.cache.flatten = a.forwarded := by
  have size : k + n - a.headed.text.bytes.length = a.headed.behind.length := by
    rw [all, a.length_bytes]
    exact Nat.add_sub_cancel_left _ _
  rw [(after.ended isRead).content, size, List.take_length]
  rfl

theorem AfterRead.of_bodied (bodied : Bodied a.headed m (k + n)) (written : m.Written before)
    (whole : m.isRead = true → (a.Ends k n → k + n = a.bytes.length) → k + n = a.bytes.length)
    (unended : m.isRead = false → BufferedMessage.declaredLength a.head = .ok m.bodyLength) :
    AfterRead a m k n before := by
  constructor
  · exact written
  · intro _
    exact bodied
  · exact whole
  · intro unread
    exact ⟨written, Or.inr ⟨bodied, unended unread⟩⟩

theorem AfterRead.of_heading (heading : Heading a.headed m k) (written : m.Written before)
    (inside : k + n ≤ a.bytes.length) (asked : n ≤ m.shouldRead) (short : k + n < a.first.bytes.length)
    (read : m.readFrom ((a.bytes.drop k).take n) = .ok m') : AfterRead a m' k n before := by
  rw [← a.headed_bytes] at inside read
  have next := heading.read_partial inside asked short read
  have empty := heading.awaits.before_nil written
  have kept : m'.Written before := by
    constructor
    · intro p member
      rw [next.awaits.cache] at member
      cases member
    · rw [next.awaits.cache, next.awaits.curPart, next.awaits.writeLength, empty]
      exact Parts.At.stop []
  have waits : m'.isRead = true → False := by
    intro isRead
    rw [next.awaits.isRead] at isRead
    cases isRead
  constructor
  · exact kept
  · intro isRead
    exact (waits isRead).elim
  · intro isRead
    exact (waits isRead).elim
  · intro _
    exact ⟨kept, Or.inl next⟩

theorem AfterRead.of_rest (heading : Heading a.headed m k) (written : m.Written before)
    (inside : k + n ≤ a.bytes.length) (asked : n ≤ m.shouldRead) (started : a.first.bytes.length ≤ k + n)
    (read : m.readFrom ((a.bytes.drop k).take n) = .ok m') : AfterRead a m' k n before := by
  have total := a.length_bytes
  have short : k < a.first.bytes.length := heading.short
  rw [← a.headed_bytes] at read
  obtain ⟨bodied, offset, length, declared, begun⟩ :=
    heading.read_rest (by rwa [a.headed_bytes]) asked started read
  generalize excess : k + n - a.headed.text.bytes.length = o at begun
  have excess' : k + n - a.first.bytes.length = o := excess
  have count : (a.headed.behind.take o).length = o := by
    rw [List.length_take]
    show min o a.behind.length = o
    omega
  have total_length := begun.bodyLength
  rw [count] at total_length
  apply AfterRead.of_bodied bodied
  · have empty := heading.awaits.before_nil written
    have present : ∀ p ∈ m'.cache, p ≠ [] := by
      intro p member
      rw [begun.cache, List.mem_singleton] at member
      rw [member]
      exact List.append_ne_nil_of_left_ne_nil a.headed.header.print_ne_nil _
    constructor
    · exact present
    · rw [begun.curPart, offset, empty]
      exact Parts.At.start present
  · intro isRead timely
    unfold BufferedMessage.isRead at isRead
    rw [begun.read, count, total_length, decide_eq_true_eq] at isRead
    split at isRead
    · rename_i ends
      apply timely
      refine ⟨unsized_of_unknown (ends.1 ▸ declared), started, fun _ => Or.inl ?_⟩
      rw [if_pos short, excess']
      exact ends.2
    · exact whole_of_reached declared started inside timely (by rw [excess']; exact isRead)
  · intro unread
    rw [total_length, if_neg]
    · exact declared
    · intro ends
      unfold BufferedMessage.isRead at unread
      rw [begun.read, count, total_length, if_pos ends] at unread
      simp at unread

theorem AfterRead.of_body (bodied : Bodied a.headed m k)
    (declared : BufferedMessage.declaredLength a.head = .ok m.bodyLength) (written : m.Written before) (some_ : 0 < n)
    (inside : k + n ≤ a.bytes.length)
    (read : m.readFrom ((a.bytes.drop k).take n) = .ok m') : AfterRead a m' k n before := by
  have started : a.first.bytes.length ≤ k := bodied.started
  rw [← a.headed_bytes] at inside read
  have count := BufferedMessage.length_next inside
  have next : (a.headed.bytes.drop k).take n = (a.behind.drop (k - a.first.bytes.length)).take n := bodied.drop_next n
  obtain ⟨onward, same⟩ := bodied.read_more inside read
  rw [a.headed_bytes] at inside
  generalize (a.headed.bytes.drop k).take n = bytes at same count next
  have present : bytes ≠ [] := by
    apply List.ne_nil_of_length_pos
    omega
  have after : m'.read = k + n - a.first.bytes.length := onward.read
  have length : m'.bodyLength = if m.bodyLength = INF ∧ endsChunks bytes then m'.read else m.bodyLength := by
    rw [same]
    rfl
  apply AfterRead.of_bodied onward
  · rw [same]
    constructor
    · intro p member
      rcases List.mem_append.mp member with old | new
      · exact written.present p old
      · rw [List.mem_singleton.mp new]
        exact present
    · exact written.cursor.push present
  · intro isRead timely
    unfold BufferedMessage.isRead at isRead
    rw [length, decide_eq_true_eq] at isRead
    split at isRead
    · rename_i ends
      apply timely
      refine ⟨unsized_of_unknown (ends.1 ▸ declared), by omega, fun _ => Or.inl ?_⟩
      rw [if_neg (by omega), ← next]
      exact ends.2
    · exact whole_of_reached declared (by omega) inside timely (by rw [← after]; exact isRead)
  · intro reading
    rw [length, if_neg, declared]
    intro ends
    unfold BufferedMessage.isRead at reading
    rw [length, if_pos ends] at reading
    simp at reading

theorem Reading.afterRead (reading : Reading a m k before) (some_ : 0 < n) (asked : n ≤ m.shouldRead)
    (inside : k + n ≤ a.bytes.length)
    (read : m.readFrom ((a.bytes.drop k).take n) = .ok m') : AfterRead a m' k n before := by
  obtain ⟨written, heading | ⟨bodied, declared⟩⟩ := reading
  · by_cases short : k + n < a.first.bytes.length
    · exact .of_heading heading written inside asked short read
    · exact .of_rest heading written inside asked (by omega) read
  · exact .of_body bodied declared written some_ inside read

/-! ### On the connection -/

namespace KeptAlive

variable {s t : KeptAlive}

/-- The response `m` is what was read of the origin's answer. -/
def Follows (s : KeptAlive) (m : ServerResponse) : Prop :=
  ∃ a k, s.answer = some a ∧ k ≤ a.bytes.length ∧ s.unread = a.bytes.drop k ∧ Reading a m k s.written

theorem Follows.given {m : ServerResponse} (follows : s.Follows m) :
    ∃ a, s.answer = some a ∧ s.written <+: a.forwarded := by
  obtain ⟨a, k, answered, within, unread, reading⟩ := follows
  refine ⟨a, answered, ?_⟩
  rcases reading.place with heading | ⟨bodied, _⟩
  · rw [heading.awaits.before_nil reading.written]
    exact List.nil_prefix
  · apply List.IsPrefix.trans _ (Answer.prefix_forwarded bodied)
    rw [← reading.written.unsent]
    exact List.prefix_append _ _

theorem Follows.readFrom {m m' : ServerResponse} {n : Nat} (follows : s.Follows m)
    (read : s.readFrom m n = .ok (m', t)) :
    ∃ a k, s.answer = some a ∧ s.unread = a.bytes.drop k ∧ k + n ≤ a.bytes.length ∧
      t = { s with unread := a.bytes.drop (k + n) } ∧ AfterRead a m' k n s.written := by
  obtain ⟨a, k, answered, within, unread, reading⟩ := follows
  have left : s.unread.length = a.bytes.length - k := by rw [unread, List.length_drop]
  unfold KeptAlive.readFrom at read
  split at read
  · rename_i enabled
    obtain ⟨some_, asked, most⟩ := enabled
    split at read
    · rename_i m₁ got
      cases read
      rw [unread] at got
      refine ⟨a, k, answered, unread, by omega, ?_, reading.afterRead some_ asked (by omega) got⟩
      rw [unread, List.drop_drop]
    · cases read
  · cases read

theorem Follows.writeTo {m m' : ServerResponse} {accepted : Nat} (follows : s.Follows m)
    (ready : m.canWrite = true) (wrote : s.writeTo m accepted = .ok (m', t)) :
    ∃ bytes, t = { s with written := s.written ++ bytes } ∧ t.Follows m' := by
  obtain ⟨a, k, answered, within, unread, reading⟩ := follows
  obtain ⟨bytes, part, offset, same, written⟩ :=
    reading.written.writeTo (BufferedMessage.canWrite_ne ready) accepted
  unfold KeptAlive.writeTo at wrote
  rw [same] at wrote
  cases wrote
  refine ⟨bytes, rfl, a, k, answered, within, unread, written, ?_⟩
  rcases reading.place with heading | ⟨bodied, declared⟩
  · unfold BufferedMessage.canWrite at ready
    rw [heading.awaits.curPart, heading.awaits.cache] at ready
    simp at ready
  · right
    refine ⟨{ bodied with toOpened := ⟨bodied.headerLength, bodied.readLength⟩ }, declared⟩

end KeptAlive

end ProxyServer
