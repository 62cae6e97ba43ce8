import ProxyServer.Request.ReadFrom
import ProxyServer.Request.WriteTo

/-!
# What a message has collected

Whatever a descriptor returns, a message that is being read holds its printed
header and what was read of the body.
-/

namespace ProxyServer.BufferedMessage

variable {L : Type} [Line L]

/-- Behind its header a message holds `x` of the body, and an announced length is
the one that it waits for. -/
structure Holding (m : BufferedMessage L) (x : Bytes) : Prop extends Opened m where
  content : m.cache.flatten = m.header.print ++ x
  read : m.read = x.length
  announced : m.header.hasProperty (lit "content-length") = true → declaredLength m.header = .ok m.bodyLength

structure Collected (m : BufferedMessage L) : Prop where
  fresh : m.headerLength = 0 → m.cache = [] ∧ m.header = HttpHeader.blank
  holding : m.headerLength ≠ 0 → ∃ x, Holding m x

theorem collected_new : Collected (new : BufferedMessage L) :=
  ⟨fun _ => ⟨rfl, rfl⟩, fun opened => absurd rfl opened⟩

omit [Line L] in
/-- A length that is announced is not the one that stands for an unknown length. -/
theorem declaredLength_known {header : HttpHeader L} {n : Nat}
    (announced : header.hasProperty (lit "content-length") = true) (declared : declaredLength header = .ok n) :
    n ≠ INF := by
  rw [declaredLength, if_pos announced] at declared
  cases got : header.getInt (lit "content-length") with
  | error e => simp [got, Except.map] at declared
  | ok v =>
    simp only [got, Except.map, Except.ok.injEq] at declared
    rw [← declared]
    exact (HttpHeader.getInt_known got).1

theorem Holding.readFrom {m m' : BufferedMessage L} {x bytes : Bytes} (holding : Holding m x)
    (read : m.readFrom bytes = .ok m') : Holding m' (x ++ bytes) := by
  rw [readFrom_body holding.toOpened, Except.ok.injEq] at read
  subst read
  refine { opened_appended holding.toOpened bytes with content := ?_, read := ?_, announced := ?_ }
  · simp [appended, holding.content]
  · simp [appended, holding.read]
  · intro announced
    have declared := holding.announced announced
    simp only [appended, declaredLength_known announced declared, false_and, if_false]
    exact declared

theorem Collected.readFrom {m m' : BufferedMessage L} {bytes : Bytes} (collected : Collected m)
    (read : m.readFrom bytes = .ok m') : Collected m' := by
  cases readFrom_cases read with
  | body known =>
    obtain ⟨x, holding⟩ := collected.holding known
    have after := holding.readFrom read
    exact ⟨fun zero => absurd zero known, fun _ => ⟨_, after⟩⟩
  | waits unknown missing =>
    exact ⟨fun _ => collected.fresh unknown, fun other => absurd unknown other⟩
  | opens unknown x header n cut parsed declared =>
    obtain ⟨empty, _⟩ := collected.fresh unknown
    have printed : header.print.length ≠ 0 := by simpa using header.print_ne_nil
    refine ⟨fun zero => absurd zero printed, fun _ => ⟨x, ⟨printed, rfl⟩, ?_, rfl, ?_⟩⟩
    · simp [settled, empty]
    · intro announced
      have known := declaredLength_known announced declared
      simp only [settled, known, false_and, if_false]
      exact declared

theorem Collected.writeTo {m m' : BufferedMessage L} {accepted : Nat} {bytes : Bytes}
    (collected : Collected m) (written : m.writeTo accepted = some (bytes, m')) : Collected m' := by
  obtain ⟨part, offset, rfl⟩ := writeTo_eq written
  refine ⟨collected.fresh, fun opened => ?_⟩
  obtain ⟨x, holding⟩ := collected.holding opened
  exact ⟨x, ⟨holding.headerLength, holding.readLength⟩, holding.content, holding.read, holding.announced⟩

/-! ### A message that is read and not written -/

/-- Before its header is complete, a message waits for more. -/
structure Unopened (m : BufferedMessage L) : Prop where
  bodyLength : m.bodyLength = INF
  read : m.read = 0
  fits : m.readLength ≤ BUFFER_LENGTH

structure Gathered (m : BufferedMessage L) : Prop extends Collected m where
  curPart : m.curPart = 0
  writeLength : m.writeLength = 0
  unopened : m.headerLength = 0 → Unopened m

/-- The message is read, and what is left to be written is the printed header and what was read
of the body. -/
structure Whole (m : BufferedMessage L) : Prop where
  isRead : m.isRead = true
  text : ∃ x, m.unsent = m.header.print ++ x ∧ m.read = x.length

theorem gathered_new : Gathered (new : BufferedMessage L) :=
  ⟨collected_new, rfl, rfl, fun _ => ⟨rfl, rfl, Nat.zero_le _⟩⟩

omit [Line L] in
theorem Unopened.room {m : BufferedMessage L} {bytes : Bytes} (unopened : Unopened m)
    (bound : bytes.length ≤ m.shouldRead) : m.readLength + bytes.length ≤ BUFFER_LENGTH := by
  have fits := unopened.fits
  have free : subSize BUFFER_LENGTH m.readLength = BUFFER_LENGTH - m.readLength := subSize_eq fits (by decide)
  unfold shouldRead at bound
  rw [free] at bound
  split at bound <;> omega

omit [Line L] in
theorem length_buffered (m : BufferedMessage L) (bytes : Bytes) :
    (m.buffered bytes).length ≤ m.readLength + bytes.length := List.length_take_le _ _

omit [Line L] in
theorem Unopened.short {m : BufferedMessage L} {bytes : Bytes} (unopened : Unopened m)
    (bound : bytes.length ≤ m.shouldRead) : (m.buffered bytes).length < npos := by
  have room := unopened.room bound
  have size := m.length_buffered bytes
  unfold BUFFER_LENGTH at room
  unfold npos SIZE_RANGE
  omega

omit [Line L] in
theorem Unopened.waits {m : BufferedMessage L} {bytes : Bytes} (unopened : Unopened m) (buffer : Bytes)
    (bound : bytes.length ≤ m.shouldRead) (missing : headerEnd (m.buffered bytes) = npos) :
    Unopened (settled { m with buffer, readLength := m.readLength + bytes.length } (m.buffered bytes)) := by
  have ended := unended (unopened.short bound) missing
  refine ⟨?_, unopened.read, unopened.room bound⟩
  simp [settled, unopened.bodyLength, ended]

/-- Without the end of a header a read waits for more, and with it the cursor is at the
start. -/
theorem readFrom_gathers {m m' : BufferedMessage L} {bytes : Bytes} (gathered : Gathered m)
    (bound : bytes.length ≤ m.shouldRead) (read : m.readFrom bytes = .ok m') :
    m'.curPart = 0 ∧ m'.writeLength = 0 ∧ (m'.headerLength = 0 → Unopened m') := by
  obtain ⟨_, part, offset, unopened⟩ := gathered
  cases readFrom_cases read with
  | body known => exact ⟨part, offset, fun unknown => absurd unknown known⟩
  | waits unknown missing => exact ⟨part, offset, fun _ => (unopened unknown).waits _ bound missing⟩
  | opens unknown x header n cut parsed declared =>
    have printed : header.print.length ≠ 0 := by simpa using header.print_ne_nil
    exact ⟨rfl, offset, fun none => absurd none printed⟩

theorem Gathered.readFrom {m m' : BufferedMessage L} {bytes : Bytes} (gathered : Gathered m)
    (bound : bytes.length ≤ m.shouldRead) (read : m.readFrom bytes = .ok m') : Gathered m' := by
  obtain ⟨part, offset, unopened⟩ := readFrom_gathers gathered bound read
  constructor
  · exact Collected.readFrom gathered.toCollected read
  · exact part
  · exact offset
  · exact unopened

theorem Collected.transferred {m : BufferedMessage L} (collected : Collected m) (garbage : Bytes) :
    Collected (m.transferred garbage) := by
  refine ⟨collected.fresh, fun opened => ?_⟩
  obtain ⟨x, holding⟩ := collected.holding opened
  exact ⟨x, ⟨holding.headerLength, holding.readLength⟩, holding.content, holding.read, holding.announced⟩

theorem Gathered.transferred {m : BufferedMessage L} (gathered : Gathered m) (garbage : Bytes) :
    Gathered (m.transferred garbage) := by
  refine ⟨gathered.toCollected.transferred garbage, gathered.curPart, gathered.writeLength, fun none => ?_⟩
  obtain ⟨inf, zero, fits⟩ := gathered.unopened none
  exact ⟨inf, zero, fits⟩

/-- A message that was never written is whole when it is read. -/
theorem Gathered.whole {m : BufferedMessage L} (gathered : Gathered m) (done : m.isRead = true) : Whole m := by
  have opened : m.headerLength ≠ 0 := by
    intro none
    obtain ⟨inf, zero, _⟩ := gathered.unopened none
    simp [BufferedMessage.isRead, inf, zero, INF] at done
  obtain ⟨x, holding⟩ := gathered.holding opened
  refine ⟨done, x, ?_, holding.read⟩
  rw [unsent_start gathered.curPart gathered.writeLength]
  exact holding.content

end ProxyServer.BufferedMessage
