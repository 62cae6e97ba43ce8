import ProxyServer.Foundation.Runs
import ProxyServer.Request.Collected

/-!
# Progress of a message that is read

Every call of `read_from` takes bytes from the descriptor, except in one state: the
buffer is full and no end of the header was found in it.
-/

namespace ProxyServer.BufferedMessage

variable {L : Type} [Line L]

/-! ### The life of a message -/

/-- A read when these bytes are available, or when `read()` fails; a write; a copy or a
move to other memory. -/
inductive MessageEvent where
  | read (available : Except Bytes Bytes)
  | write (accepted : Nat)
  | move (garbage : Bytes)

/-- The proxy reads and writes a message that can be read and written. It moves or
copies one before its first read or when it is complete. -/
def occur (m : BufferedMessage L) : MessageEvent → Except CppError (BufferedMessage L)
  | .read (.error what) => if m.canRead then .error (.annotated what) else .ok m
  | .read (.ok available) => if m.canRead then m.readFrom (available.take m.shouldRead) else .ok m
  | .write accepted =>
    if m.canWrite then
      match m.writeTo accepted with
      | some (_, m') => .ok m'
      | none => .ok m
    else .ok m
  | .move garbage => if m.readLength = 0 ∨ m.isRead then .ok (m.transferred garbage) else .ok m

/-- A message that was constructed. -/
inductive Constructed : BufferedMessage L → Prop
  | new : Constructed .new
  | ofCache {cache : CachedMessage} {m : BufferedMessage L} (made : ofCache cache = .ok m) : Constructed m
  | ofHeader (header : HttpHeader L) (body : Bytes) : Constructed (ofHeader header body)

/-! ### What a read asks for -/

/-- The buffer is full, and the header is not complete. -/
def Stuck (m : BufferedMessage L) : Prop := m.headerLength = 0 ∧ m.readLength = BUFFER_LENGTH

/-- What holds of a message that is to be read: it holds the first bytes of a header,
or waits for more of its body. -/
structure Live (m : BufferedMessage L) : Prop where
  waiting : m.headerLength = 0 → m.canRead = true →
    Unopened m ∧ m.readLength ≤ m.buffer.length ∧ headerEnd (m.buffer.take m.readLength) = npos
  opened : m.headerLength ≠ 0 → m.canRead = true → m.readLength = 0 ∧ m.bodyLength < SIZE_RANGE

omit [Line L] in
theorem live_of_read {m : BufferedMessage L} (done : m.isRead = true) : Live m := by
  have idle : ¬m.canRead = true := by simp [canRead, done]
  exact ⟨fun _ can => absurd can idle, fun _ can => absurd can idle⟩

theorem headerEnd_nil : headerEnd [] = npos := by decide

theorem Constructed.live {m : BufferedMessage L} (constructed : Constructed m) : Live m := by
  cases constructed with
  | new =>
    refine ⟨?_, fun opened => absurd rfl opened⟩
    intro _ _
    exact ⟨⟨rfl, rfl, Nat.zero_le _⟩, Nat.le_refl 0, headerEnd_nil⟩
  | @ofCache cache m made =>
    apply live_of_read
    obtain ⟨header, _, made⟩ := Runs.bind_ok.mp made
    cases made
    simp [isRead]
  | ofHeader header body =>
    apply live_of_read
    simp [BufferedMessage.ofHeader, isRead]

omit [Line L] in
theorem Live.transferred {m : BufferedMessage L} (live : Live m) (garbage : Bytes)
    (idle : m.readLength = 0 ∨ m.isRead = true) : Live (m.transferred garbage) := by
  rcases idle with fresh | done
  · constructor
    · intro unknown can
      obtain ⟨⟨inf, zero, fits⟩, -, -⟩ := live.waiting unknown can
      have empty : (m.transferred garbage).buffer.take (m.transferred garbage).readLength = [] := by
        simp [BufferedMessage.transferred, fresh]
      rw [empty]
      exact ⟨⟨inf, zero, fits⟩, by simp [BufferedMessage.transferred, fresh], headerEnd_nil⟩
    · intro known can
      exact live.opened known can
  · exact live_of_read done

omit [Line L] in
theorem Live.writeTo {m m' : BufferedMessage L} {accepted : Nat} {bytes : Bytes} (live : Live m)
    (written : m.writeTo accepted = some (bytes, m')) : Live m' := by
  obtain ⟨part, offset, rfl⟩ := writeTo_eq written
  refine ⟨?_, live.opened⟩
  intro unknown can
  obtain ⟨⟨inf, zero, fits⟩, held, missing⟩ := live.waiting unknown can
  exact ⟨⟨inf, zero, fits⟩, held, missing⟩

omit [Line L] in
theorem declaredLength_lt {header : HttpHeader L} {n : Nat} (declared : declaredLength header = .ok n) :
    n < SIZE_RANGE := by
  unfold declaredLength at declared
  split at declared
  · obtain ⟨v, got, rfl⟩ := Runs.map_ok.mp declared
    exact (HttpHeader.getInt_known got).2
  · split at declared
    · cases declared
      decide
    · cases declared
      decide

omit [Line L] in
theorem settled_bodyLength {m : BufferedMessage L} {message : Bytes} (can : (settled m message).canRead = true) :
    (settled m message).bodyLength = m.bodyLength := by
  unfold settled at can ⊢
  dsimp only
  split
  · rename_i ends
    simp [canRead, isRead, ends] at can
  · rfl

theorem Live.readFrom {m m' : BufferedMessage L} {bytes : Bytes} (live : Live m) (can : m.canRead = true)
    (bound : bytes.length ≤ m.shouldRead) (read : m.readFrom bytes = .ok m') : Live m' := by
  cases readFrom_cases read with
  | body known =>
    refine ⟨fun unknown => absurd unknown known, ?_⟩
    intro _ still
    rw [settled_bodyLength still]
    exact ⟨rfl, (live.opened known can).2⟩
  | waits unknown missing =>
    obtain ⟨unopened, held, -⟩ := live.waiting unknown can
    refine ⟨?_, fun known => absurd unknown known⟩
    intro _ _
    refine ⟨unopened.waits _ bound missing, ?_, missing⟩
    simp only [settled, store, List.length_append, List.length_take, List.length_drop]
    omega
  | opens unknown x header n cut parsed declared =>
    have printed : header.print.length ≠ 0 := by simpa using header.print_ne_nil
    refine ⟨fun none => absurd none printed, ?_⟩
    intro _ still
    rw [settled_bodyLength still]
    exact ⟨rfl, declaredLength_lt declared⟩

theorem Live.occur {m m' : BufferedMessage L} {event : MessageEvent} (live : Live m)
    (occurred : m.occur event = .ok m') : Live m' := by
  unfold BufferedMessage.occur at occurred
  split at occurred
  · split at occurred
    · cases occurred
    · cases occurred
      exact live
  · split at occurred
    · rename_i can
      exact live.readFrom can (List.length_take_le _ _) occurred
    · cases occurred
      exact live
  · split at occurred
    · split at occurred
      · rename_i written
        cases occurred
        exact live.writeTo written
      · cases occurred
        exact live
    · cases occurred
      exact live
  · split at occurred
    · rename_i idle
      cases occurred
      exact live.transferred _ idle
    · cases occurred
      exact live

/-! ### Progress -/

/-- With bytes to be read, a read takes some, or ends with the message complete or with
`annotated_exception`. -/
def Advances (m : BufferedMessage L) : MessageEvent → Prop
  | .read (.ok available) => m.canRead = true → available ≠ [] →
    0 < (available.take m.shouldRead).length ∨
    (∃ m', m.readFrom (available.take m.shouldRead) = .ok m' ∧ m'.isRead = true) ∨
    ∃ what, m.readFrom (available.take m.shouldRead) = .error (.annotated what)
  | .read (.error _) => True
  | .write _ => True
  | .move _ => True

/-- With bytes to be read, there is room for them or the header is complete. -/
def HasRoom (m : BufferedMessage L) : MessageEvent → Prop
  | .read (.ok available) => m.canRead = true → available ≠ [] → ¬Stuck m
  | .read (.error _) => True
  | .write _ => True
  | .move _ => True

omit [Line L] in
theorem Live.shouldRead_pos {m : BufferedMessage L} (live : Live m) (can : m.canRead = true) :
    0 < m.shouldRead ↔ ¬Stuck m := by
  unfold Stuck
  by_cases unknown : m.headerLength = 0
  · obtain ⟨⟨inf, zero, fits⟩, -, -⟩ := live.waiting unknown can
    have free : subSize BUFFER_LENGTH m.readLength = BUFFER_LENGTH - m.readLength := subSize_eq fits (by decide)
    have body : subSize INF 0 = INF := by decide
    have asks : m.shouldRead = BUFFER_LENGTH - m.readLength := by
      unfold shouldRead
      rw [inf, zero, free, body]
      unfold BUFFER_LENGTH INF
      rw [if_pos (by omega)]
    omega
  · obtain ⟨empty, bound⟩ := live.opened unknown can
    have left : m.read < m.bodyLength := by simpa [canRead, isRead] using can
    have asks := Opened.shouldRead ⟨unknown, empty⟩ left bound
    unfold BUFFER_LENGTH at asks
    omega

/-- A full buffer is read again and again: nothing is asked for, and nothing changes. -/
theorem Live.spins {m : BufferedMessage L} (live : Live m) (can : m.canRead = true) (stuck : Stuck m) :
    m.readFrom [] = .ok m := by
  obtain ⟨unopened, held, missing⟩ := live.waiting stuck.1 can
  have stored : store m.buffer m.readLength [] = m.buffer := by
    simp [store]
  have same : m.buffered [] = m.buffer.take m.readLength := by
    unfold buffered
    rw [stored]
    rfl
  have short : (m.buffer.take m.readLength).length < npos := by
    rw [← same]
    exact unopened.short (Nat.zero_le _)
  rw [readFrom_more stuck.1 same short missing, stored]
  rfl

theorem Live.advances_iff {m : BufferedMessage L} (live : Live m) (event : MessageEvent) :
    Advances m event ↔ HasRoom m event := by
  unfold Advances HasRoom
  split
  · apply imp_congr_right
    intro can
    apply imp_congr_right
    intro present
    constructor
    · intro advances stuck
      have none_asked : m.shouldRead = 0 := by
        have asks := live.shouldRead_pos can
        by_contra some_asked
        exact asks.mp (Nat.pos_of_ne_zero some_asked) stuck
      rw [none_asked, List.take_zero, live.spins can stuck] at advances
      rcases advances with taken | ⟨m', same, done⟩ | ⟨what, failed⟩
      · exact absurd taken (by simp)
      · cases same
        simp [canRead, done] at can
      · cases failed
    · intro room
      have asked := (live.shouldRead_pos can).mpr room
      have size := List.length_pos_of_ne_nil present
      left
      rw [List.length_take]
      omega
  · exact Iff.rfl
  · exact Iff.rfl
  · exact Iff.rfl

/-- In every run of a message that was constructed, the reads advance exactly when none
of them finds the buffer full without the end of a header in it. -/
theorem reads_advance_iff (m : BufferedMessage L) (constructed : Constructed m) (events : List MessageEvent) :
    Runs.Along occur Advances m events ↔ Runs.Along occur HasRoom m events :=
  Runs.along_iff constructed.live (fun _ _ _ live occurred => live.occur occurred)
    (fun _ event live => live.advances_iff event)

instance (m : BufferedMessage L) : (event : MessageEvent) → Decidable (HasRoom m event)
  | .read (.ok available) =>
    inferInstanceAs (Decidable (m.canRead = true → available ≠ [] → ¬(m.headerLength = 0 ∧ m.readLength = BUFFER_LENGTH)))
  | .read (.error _) => isTrue trivial
  | .write _ => isTrue trivial
  | .move _ => isTrue trivial

theorem request_line_advances :
    Runs.Along occur Advances (new : ClientRequest) [.read (.ok (lit "GET / HTTP/1.1\r\n")), .read (.ok (lit "\r\n"))] :=
  (reads_advance_iff new .new [.read (.ok (lit "GET / HTTP/1.1\r\n")), .read (.ok (lit "\r\n"))]).mpr (by
    decide +kernel)

theorem stops_when_full {bytes : Bytes} (full : bytes.length = BUFFER_LENGTH) (missing : headerEnd bytes = npos) :
    ¬Runs.Along occur Advances (new : BufferedMessage L) [.read (.ok bytes), .read (.ok [97])] := by
  have asked : (new : BufferedMessage L).shouldRead = BUFFER_LENGTH := awaits_new.shouldRead
  have taken : bytes.take (new : BufferedMessage L).shouldRead = bytes := by
    rw [asked, ← full]
    exact List.take_length
  have held : (new : BufferedMessage L).buffered bytes = bytes := awaits_new.buffered bytes
  have read := readFrom_more (m := (new : BufferedMessage L)) rfl held (by rw [full]; decide) missing
  have filled : occur (new : BufferedMessage L) (.read (.ok bytes)) = .ok
      { (new : BufferedMessage L) with
        buffer := store (new : BufferedMessage L).buffer (new : BufferedMessage L).readLength bytes
        readLength := (new : BufferedMessage L).readLength + bytes.length } := by
    unfold occur
    dsimp only
    have can : (new : BufferedMessage L).canRead = true := rfl
    rw [if_pos can, taken]
    exact read
  intro advances
  have second := (advances.2 _ filled).1
  have room := ((Constructed.new.live.occur filled).advances_iff _).mp second
  have filledUp : (new : BufferedMessage L).readLength + bytes.length = BUFFER_LENGTH := by
    rw [full]
    exact Nat.zero_add BUFFER_LENGTH
  exact room rfl (by decide) ⟨rfl, filledUp⟩

theorem headerEnd_replicate {b : UInt8} (notCR : CR ≠ b) (notLF : LF ≠ b) (n : Nat) :
    headerEnd (List.replicate n b) = npos := by
  have clear : ∀ {c : UInt8} {pat : Bytes}, c ≠ b → findText (List.replicate n b) (c :: pat) = npos := by
    intro c pat other
    have absent : c ∉ List.replicate n b := fun member => other (List.mem_replicate.mp member).2
    have skipped := Search.firstMatch_append (p := pat) (s := []) absent
    rw [List.append_nil] at skipped
    simp [findText, skipped, Search.firstMatch]
  have first : findText (List.replicate n b) terminator = npos := clear notCR
  have second : findText (List.replicate n b) bareTerminator = npos := clear notLF
  unfold headerEnd
  rw [first, second]
  rfl

theorem long_line_spins :
    ¬Runs.Along occur Advances (new : ClientRequest)
      [.read (.ok (List.replicate BUFFER_LENGTH 97)), .read (.ok [97])] :=
  stops_when_full List.length_replicate (headerEnd_replicate (by decide) (by decide) BUFFER_LENGTH)

end ProxyServer.BufferedMessage
