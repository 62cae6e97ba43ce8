import ProxyServer.Foundation.Runs
import ProxyServer.Request.Collected

/-!
# Exceptions of `read_from`

The handlers around `read_from` catch `annotated_exception` only. What the parsers
throw is never one, so it ends the process; `no_escape_iff` says for which texts
they throw nothing.
-/

namespace ProxyServer

/-- The type of exception that the handlers catch. -/
def CppError.Caught (e : CppError) : Prop := ∃ message, e = .annotated message

/-- A computation that throws only exceptions of the standard library. -/
def Raw {α : Type} (x : Except CppError α) : Prop := ∀ e, x = .error e → ¬e.Caught

namespace Raw

variable {α β : Type}

theorem ok (a : α) : Raw (.ok a) := by
  intro e failed
  cases failed

theorem bind {x : Except CppError α} {f : α → Except CppError β} (first : Raw x) (later : ∀ a, Raw (f a)) :
    Raw (x >>= f) := by
  intro e failed
  cases x with
  | error e' =>
    cases failed
    exact first e rfl
  | ok a => exact later a e failed

theorem outOfRange : Raw (.error .outOfRange : Except CppError α) := by
  intro e failed
  cases failed
  rintro ⟨message, same⟩
  cases same

theorem invalidArgument : Raw (.error .invalidArgument : Except CppError α) := by
  intro e failed
  cases failed
  rintro ⟨message, same⟩
  cases same

theorem substr (s : Bytes) (pos len : Nat) : Raw (ProxyServer.substr s pos len) := by
  unfold ProxyServer.substr
  split
  · exact outOfRange
  · exact ok _

theorem substrFrom (s : Bytes) (pos : Nat) : Raw (ProxyServer.substrFrom s pos) := by
  unfold ProxyServer.substrFrom
  split
  · exact outOfRange
  · exact ok _

theorem stoi (s : Bytes) : Raw (ProxyServer.stoi s) := by
  unfold ProxyServer.stoi
  dsimp only
  split
  · exact invalidArgument
  · split
    · exact outOfRange
    · exact ok _

theorem requestLine (line : Bytes) : Raw (RequestLine.parse line) := by
  unfold RequestLine.parse
  apply bind (substr _ _ _)
  intro type
  apply bind (substr _ _ _)
  intro url
  apply bind (substr _ _ _)
  intro http
  exact ok _

theorem responseLine (line : Bytes) : Raw (ResponseLine.parse line) := by
  unfold ResponseLine.parse
  apply bind (substr _ _ _)
  intro http
  apply bind (substr _ _ _)
  intro digits
  apply bind (stoi _)
  intro code
  apply bind (substr _ _ _)
  intro description
  exact ok _

theorem propertyLines (message : Bytes) (fuel stop : Nat) : Raw (HttpHeader.propertyLines message fuel stop) := by
  induction fuel generalizing stop with
  | zero => exact ok _
  | succ fuel ih =>
    unfold HttpHeader.propertyLines
    split
    · dsimp only
      split
      · exact ok _
      · apply bind (substr _ _ _)
        intro property
        apply bind (ih _)
        intro rest
        exact ok _
    · exact ok _

variable {L : Type} [Line L]

theorem header (lines : ∀ line, Raw (Line.parse line : Except CppError L)) (message : Bytes) :
    Raw (HttpHeader.parse message : Except CppError (HttpHeader L)) := by
  unfold HttpHeader.parse
  apply bind (substr _ _ _)
  intro first
  apply bind (lines _)
  intro requestLine
  apply bind (propertyLines _ _ _)
  intro rest
  exact ok _

omit [Line L] in
theorem declaredLength (header : HttpHeader L) : Raw (BufferedMessage.declaredLength header) := by
  unfold BufferedMessage.declaredLength HttpHeader.getInt
  split
  · dsimp only
    split
    · exact ok _
    · exact bind (stoi _) (fun a => ok (toSize a))
  · split
    · exact ok _
    · exact ok _

theorem readFrom (lines : ∀ line, Raw (Line.parse line : Except CppError L)) (m : BufferedMessage L)
    (bytes : Bytes) : Raw (m.readFrom bytes) := by
  unfold BufferedMessage.readFrom
  dsimp only
  split
  · apply bind
    · unfold BufferedMessage.readHeader
      dsimp only
      split
      · apply bind (substrFrom _ _)
        intro body
        apply bind (header lines _)
        intro parsed
        apply bind (declaredLength _)
        intro bodyLength
        exact ok _
      · exact ok _
    · intro read
      exact ok _
  · exact ok _

end Raw

/-! ### The end of the header -/

theorem findText_spec {s pat : Bytes} (present : pat ≠ []) (there : findText s pat ≠ npos) :
    pat <+: s.drop (findText s pat) ∧ findText s pat + pat.length ≤ s.length := by
  unfold findText at *
  cases found : Search.firstMatch pat s with
  | none =>
    rw [found] at there
    exact absurd rfl there
  | some p => exact ⟨Search.firstMatch_spec found, (Search.firstMatch_le found).resolve_right present⟩

theorem findText_le {s l pat r : Bytes} (shape : s = l ++ (pat ++ r)) : findText s pat ≤ l.length := by
  have occurs : pat <+: s.drop l.length := ⟨r, by rw [shape, List.drop_left]⟩
  obtain ⟨p, low, found⟩ := Search.firstMatch_min occurs (by rw [shape]; simp)
  unfold findText
  rw [found]
  exact low

theorem findText_iff {s pat : Bytes} (short : s.length < npos) (present : pat ≠ []) :
    findText s pat ≠ npos ↔ pat <:+: s := by
  have size := List.length_pos_of_ne_nil present
  constructor
  · intro there
    exact (findText_spec present there).1.isInfix.trans (List.drop_suffix _ s).isInfix
  · rintro ⟨l, r, shape⟩
    rw [List.append_assoc] at shape
    have low := findText_le shape.symm
    have whole := congrArg List.length shape
    simp only [List.length_append] at whole
    omega

/-- `read_from` takes the header for complete. -/
def Complete (message : Bytes) : Prop := terminator <:+: message ∨ bareTerminator <:+: message

/-- The four bytes that `read_from` skips at the end of the header are there: behind
LF LF, without a CRLF CRLF, two more bytes are needed. -/
def Skippable (message : Bytes) : Prop :=
  terminator <:+: message ∨ ∃ x : Bytes, x.length = 2 ∧ (bareTerminator ++ x) <:+: message

theorem bareTerminator_length : bareTerminator.length = 2 := rfl

theorem headerEnd_iff {message : Bytes} (short : message.length < npos) :
    BufferedMessage.headerEnd message ≠ npos ↔ Complete message := by
  unfold Complete BufferedMessage.headerEnd
  rw [← findText_iff short (by decide : terminator ≠ []), ← findText_iff short (by decide : bareTerminator ≠ [])]
  dsimp only
  split
  · rename_i missing
    rw [or_iff_right (not_not_intro missing)]
  · rename_i there
    exact iff_of_true there (Or.inl there)

theorem headerEnd_le {message : Bytes} (there : BufferedMessage.headerEnd message ≠ npos) :
    BufferedMessage.headerEnd message ≤ message.length := by
  unfold BufferedMessage.headerEnd at *
  dsimp only at *
  split
  · rename_i missing
    rw [if_pos missing] at there
    have found := (findText_spec (by decide) there).2
    omega
  · rename_i found
    have fits := (findText_spec (by decide) found).2
    omega

theorem skippable_iff {message : Bytes} (short : message.length < npos) (complete : Complete message) :
    BufferedMessage.headerEnd message + 4 ≤ message.length ↔ Skippable message := by
  have there := (headerEnd_iff short).mpr complete
  unfold BufferedMessage.headerEnd Skippable at *
  dsimp only at *
  by_cases missing : findText message terminator = npos
  · have absent : ¬terminator <:+: message := by
      intro inside
      exact (findText_iff short (by decide)).mpr inside missing
    rw [if_pos missing] at *
    rw [or_iff_right absent]
    obtain ⟨occurs, fits⟩ := findText_spec (by decide) there
    constructor
    · intro room
      obtain ⟨r, shape⟩ := occurs
      have size := congrArg List.length shape
      simp only [List.length_append, List.length_drop, bareTerminator_length] at size
      have front : (bareTerminator ++ r.take 2) <+: message.drop (findText message bareTerminator) := by
        rw [← shape]
        exact (List.prefix_append_right_inj _).mpr (List.take_prefix 2 r)
      refine ⟨r.take 2, by rw [List.length_take]; omega, ?_⟩
      exact front.isInfix.trans (List.drop_suffix _ message).isInfix
    · rintro ⟨x, two, l, r, shape⟩
      have low : findText message bareTerminator ≤ l.length := by
        apply findText_le (r := x ++ r)
        rw [← shape]
        simp
      have size := congrArg List.length shape
      simp only [List.length_append, bareTerminator_length] at size
      omega
  · have inside : terminator <:+: message := (findText_iff short (by decide)).mp missing
    rw [if_neg missing] at *
    exact iff_of_true (findText_spec (by decide) missing).2 (Or.inl inside)

/-! ### The read that completes a header -/

variable {L : Type} [Line L]

/-- The text of a header for which nothing is thrown: `Accepted` is what the
constructor of the first line asks of it. -/
def Parsable (Accepted : Bytes → Prop) (message : Bytes) : Prop :=
  Skippable message ∧ ∃ first lines, Divides message first lines ∧ Accepted first ∧ Sized lines

theorem isOk_bind {α β : Type} {x : Except CppError α} {f : α → Except CppError β} :
    (x >>= f).isOk = true ↔ ∃ a, x = .ok a ∧ (f a).isOk = true := by
  cases x with
  | error e => exact iff_of_false (fun ok => by cases ok) (by rintro ⟨a, same, _⟩; cases same)
  | ok a => exact ⟨fun ok => ⟨a, rfl, ok⟩, by rintro ⟨b, same, ok⟩; cases same; exact ok⟩

theorem find_lines {lines : List Bytes} (name : Bytes) (short : ∀ l ∈ lines, l.length < npos) :
    (lines.map HeaderProperty.parse).find? (·.name = name) =
      (lines.find? (fun line => toLower (before COLON line) = name)).map HeaderProperty.parse := by
  induction lines with
  | nil => rfl
  | cons l ls ih =>
    have first := HeaderProperty.parse_eq (short l List.mem_cons_self)
    have later := ih (fun l member => short l (List.mem_cons_of_mem _ member))
    by_cases same : toLower (before COLON l) = name
    · simp [first, same]
    · simp [first, same, later]

omit [Line L] in
theorem hasProperty_find (header : HttpHeader L) (name : Bytes) :
    header.hasProperty name = (header.properties.find? (·.name = name)).isSome := by
  unfold HttpHeader.hasProperty
  rw [List.isSome_find?]

omit [Line L] in
theorem getInt_ok_iff (header : HttpHeader L) (name : Bytes) :
    (header.getInt name).isOk = true ↔ (header.getProperty name ≠ [] → IsInt (header.getProperty name)) := by
  unfold HttpHeader.getInt
  dsimp only
  split
  · rename_i empty
    exact iff_of_true rfl (fun present => absurd empty present)
  · rename_i present
    rw [stoi_ok_iff]
    exact ⟨fun int _ => int, fun int => int present⟩

theorem isOk_map {α β : Type} (x : Except CppError α) (f : α → β) : (x.map f).isOk = x.isOk := by
  cases x with
  | error e => rfl
  | ok a => rfl

omit [Line L] in
theorem declaredLength_ok_iff {lines : List Bytes} (requestLine : L) (short : ∀ l ∈ lines, l.length < npos) :
    (BufferedMessage.declaredLength (HttpHeader.dropProxyConnection
      { requestLine, properties := lines.map HeaderProperty.parse })).isOk = true ↔ Sized lines := by
  have property := HttpHeader.find_dropProxyConnection { requestLine, properties := lines.map HeaderProperty.parse }
    (by decide : lit "content-length" ≠ lit "connection") (by decide)
  dsimp only at property
  rw [find_lines _ short] at property
  generalize HttpHeader.dropProxyConnection _ = header at property
  unfold BufferedMessage.declaredLength Sized
  rw [hasProperty_find]
  cases found : lines.find? (fun line => toLower (before COLON line) = lit "content-length") with
  | none =>
    rw [found] at property
    rw [property, if_neg (by simp)]
    constructor
    · intro _ line same
      cases same
    · intro _
      split <;> rfl
  | some line =>
    rw [found] at property
    have line_short := short line (List.mem_of_find?_eq_some found)
    have value : header.getProperty (lit "content-length") = (behind COLON line).dropWhile (· = SPACE) := by
      unfold HttpHeader.getProperty
      rw [property, Option.map_some, HeaderProperty.parse_eq line_short]
    rw [property, if_pos (by simp), isOk_map, getInt_ok_iff, value]
    constructor
    · intro sized other same
      cases same
      exact sized
    · intro sized
      exact sized line rfl

section Accepting

variable {Accepted : Bytes → Prop}
  (accepts : ∀ line, line.length + 3 < npos → ((Line.parse line : Except CppError L).isOk = true ↔ Accepted line))

include accepts

/-- The constructor of the header and the length throw nothing for the texts with
lines that are accepted. -/
theorem header_ok_iff {message : Bytes} (short : message.length + 3 < npos) :
    (∃ header : HttpHeader L, HttpHeader.parse message = .ok header ∧
      (BufferedMessage.declaredLength header).isOk = true) ↔
    ∃ first lines, Divides message first lines ∧ Accepted first ∧ Sized lines := by
  have narrow : message.length < npos := by omega
  have exactly : ∀ first lines, Divides message first lines →
      ((∃ header : HttpHeader L, HttpHeader.parse message = .ok header ∧
        (BufferedMessage.declaredLength header).isOk = true) ↔ Accepted first ∧ Sized lines) := by
    intro first lines divided
    have small : ∀ l ∈ first :: lines, l.length + 3 < npos := by
      intro l member
      have le := divided.length_le member
      omega
    rw [HttpHeader.parse_divided narrow divided, ← accepts first (small first List.mem_cons_self)]
    cases (Line.parse first : Except CppError L) with
    | error e => simp [Except.map, Except.isOk, Except.toBool]
    | ok requestLine =>
      rw [← declaredLength_ok_iff requestLine
        (fun l member => by have le := small l (List.mem_cons_of_mem _ member); omega)]
      simp [Except.map, Except.isOk, Except.toBool]
  constructor
  · rintro ⟨header, parsed, sized⟩
    obtain ⟨first, lines, divided⟩ := HttpHeader.divides_of_parse short parsed
    exact ⟨first, lines, divided, (exactly first lines divided).mp ⟨header, parsed, sized⟩⟩
  · rintro ⟨first, lines, divided, fine⟩
    exact (exactly first lines divided).mpr fine

namespace BufferedMessage

theorem readHeader_ok_iff (m : BufferedMessage L) {message : Bytes} (short : message.length + 4 < npos) :
    (m.readHeader message).isOk = true ↔ (Complete message → Parsable Accepted message) := by
  unfold readHeader
  dsimp only
  by_cases complete : Complete message
  · have there := (headerEnd_iff (by omega)).mpr complete
    have range := npos_lt short
    have low := headerEnd_le there
    rw [if_pos there, forall_prop_of_true complete, addSize_eq (by omega)]
    unfold Parsable
    rw [← skippable_iff (by omega) complete, ← header_ok_iff accepts (by omega)]
    simp only [isOk_bind]
    constructor
    · rintro ⟨body, cut, header, parsed, n, length, _⟩
      refine ⟨?_, header, parsed, ?_⟩
      · by_contra far
        unfold substrFrom at cut
        rw [if_pos (by omega)] at cut
        cases cut
      · rw [length]
        rfl
    · rintro ⟨room, header, parsed, sized⟩
      refine ⟨message.drop (headerEnd message + 4), if_neg (by omega), header, parsed, ?_⟩
      cases length : declaredLength header with
      | error e =>
        rw [length] at sized
        cases sized
      | ok n => exact ⟨n, rfl, rfl⟩
  · have missing : ¬headerEnd message ≠ npos := fun there => complete ((headerEnd_iff (by omega)).mp there)
    rw [if_neg missing]
    exact iff_of_true rfl (fun impossible => absurd impossible complete)

omit [Line L] accepts in
/-- What was read of a header is in the buffer. -/
def Filling (m : BufferedMessage L) : Prop := m.headerLength = 0 → m.readLength ≤ m.buffer.length

omit [Line L] accepts in
/-- The text that the header is looked for in, when the read returns `bytes`. -/
def text (m : BufferedMessage L) (bytes : Bytes) : Bytes := m.buffer.take m.readLength ++ bytes

omit [Line L] accepts in
theorem buffered_eq {m : BufferedMessage L} (held : m.readLength ≤ m.buffer.length) (bytes : Bytes) :
    m.buffered bytes = m.text bytes := by
  have taken := @store_take m.buffer (m.buffer.take m.readLength) bytes
  rw [List.length_take, Nat.min_eq_left held] at taken
  exact taken rfl

/-- A read throws nothing unless it completes a header that is not accepted. -/
theorem readFrom_ok_iff {m : BufferedMessage L} {bytes : Bytes} (gathered : Gathered m) (filling : Filling m)
    (bound : bytes.length ≤ m.shouldRead) :
    (m.readFrom bytes).isOk = true ↔
      (m.headerLength = 0 → Complete (m.text bytes) → Parsable Accepted (m.text bytes)) := by
  by_cases opened : m.headerLength = 0
  · have small := (gathered.unopened opened).room bound
    have held := buffered_eq (filling opened) bytes
    have short : (m.text bytes).length + 4 < npos := by
      have size := m.length_buffered bytes
      rw [held] at size
      unfold BUFFER_LENGTH at small
      unfold npos SIZE_RANGE
      omega
    unfold buffered at held
    rw [forall_prop_of_true opened, ← readHeader_ok_iff accepts
      { m with buffer := store m.buffer m.readLength bytes, readLength := m.readLength + bytes.length } short]
    unfold readFrom
    dsimp only
    rw [if_pos opened, held, isOk_bind]
    generalize readHeader { m with buffer := _, readLength := _ } (m.text bytes) = result
    constructor
    · rintro ⟨read, same, _⟩
      rw [same]
      rfl
    · intro ok
      cases result with
      | error e => cases ok
      | ok read => exact ⟨read, rfl, rfl⟩
  · obtain ⟨x, holding⟩ := gathered.holding opened
    rw [readFrom_body holding.toOpened]
    exact iff_of_true rfl (fun impossible => absurd impossible opened)

omit accepts in
theorem Filling.readFrom {m m' : BufferedMessage L} {bytes : Bytes} (filling : Filling m)
    (read : m.readFrom bytes = .ok m') : Filling m' := by
  intro after
  cases readFrom_cases read with
  | body known => exact absurd after known
  | waits unknown missing =>
    have held := filling unknown
    simp only [settled, store, List.length_append, List.length_take, List.length_drop]
    omega
  | opens unknown x header n cut parsed declared =>
    have printed : header.print.length ≠ 0 := by simpa using header.print_ne_nil
    exact absurd after printed

end BufferedMessage

/-! ### Everything that a peer sends -/

/-- A read of what a peer sends, which throws `annotated_exception` when `read()` does
or returns bytes, at most as many as are asked for. A complete message is followed by
a fresh one. -/
def receive (m : BufferedMessage L) : Except Bytes Bytes → Except CppError (BufferedMessage L)
  | .error what => .error (.annotated what)
  | .ok bytes => do
    let m ← m.readFrom (bytes.take m.shouldRead)
    return if m.isRead then .new else m

/-- Reading what a peer sends throws `annotated_exception` or nothing. -/
def NoEscape (L : Type) [Line L] (reads : List (Except Bytes Bytes)) : Prop :=
  ∀ e, Runs.run receive (.new : BufferedMessage L) reads = .error e → e.Caught

/-- A read that completes a header completes one that is accepted. -/
def Acceptable (Accepted : Bytes → Prop) (m : BufferedMessage L) (result : Except Bytes Bytes) : Prop :=
  ∀ bytes, result = .ok bytes → m.headerLength = 0 → Complete (m.text (bytes.take m.shouldRead)) →
    Parsable Accepted (m.text (bytes.take m.shouldRead))

/-- What holds between two reads of a peer. -/
structure Between (m : BufferedMessage L) : Prop where
  gathered : m.Gathered
  filling : m.Filling

omit accepts in
theorem between_new : Between (.new : BufferedMessage L) :=
  ⟨BufferedMessage.gathered_new, fun _ => Nat.zero_le _⟩

omit accepts in
theorem Between.receive {m m' : BufferedMessage L} {result : Except Bytes Bytes} (between : Between m)
    (received : receive m result = .ok m') : Between m' := by
  cases result with
  | error what => cases received
  | ok bytes =>
    obtain ⟨m₁, read, received⟩ := Runs.bind_ok.mp received
    cases received
    split
    · exact between_new
    · constructor
      · exact between.gathered.readFrom (List.length_take_le _ _) read
      · exact between.filling.readFrom read

/-- One read throws what is not caught exactly when the header it completes is not accepted. -/
theorem receive_iff (raw : ∀ line, Raw (Line.parse line : Except CppError L)) {m : BufferedMessage L}
    (between : Between m) (result : Except Bytes Bytes) :
    (∀ e, receive m result = .error e → e.Caught) ↔ Acceptable Accepted m result := by
  unfold Acceptable
  cases result with
  | error what =>
    apply iff_of_true
    · intro e failed
      cases failed
      exact ⟨what, rfl⟩
    · intro bytes same
      cases same
  | ok bytes =>
    have bound : (bytes.take m.shouldRead).length ≤ m.shouldRead := List.length_take_le _ _
    have exactly := BufferedMessage.readFrom_ok_iff accepts between.gathered between.filling bound
    have thrown := Raw.readFrom raw m (bytes.take m.shouldRead)
    simp only [Except.ok.injEq, forall_eq']
    rw [← exactly]
    unfold receive
    dsimp only
    cases read : m.readFrom (bytes.take m.shouldRead) with
    | error e =>
      rw [read] at thrown
      apply iff_of_false
      · intro all
        exact thrown e rfl (all e rfl)
      · intro ok
        cases ok
    | ok m' =>
      apply iff_of_true
      · intro e failed
        cases failed
      · rfl

theorem escapes_iff (raw : ∀ line, Raw (Line.parse line : Except CppError L)) (reads : List (Except Bytes Bytes)) :
    NoEscape L reads ↔ Runs.Along receive (Acceptable Accepted) (.new : BufferedMessage L) reads := by
  unfold NoEscape
  exact Runs.failures_iff_along between_new (fun _ _ _ between received => between.receive received)
    (fun _ result between => receive_iff accepts raw between result)

end Accepting

/-- No exception but `annotated_exception` leaves `read_from`, whatever a client or an
origin sends and however it is cut, if and only if every header that a read completes
is accepted. -/
theorem no_escape_iff (client origin : List (Except Bytes Bytes)) :
    (NoEscape RequestLine client ↔
      Runs.Along receive (Acceptable RequestLine.Addressed) (.new : ClientRequest) client) ∧
    (NoEscape ResponseLine origin ↔
      Runs.Along receive (Acceptable ResponseLine.Coded) (.new : ServerResponse) origin) := by
  constructor
  · exact escapes_iff (fun line short => RequestLine.parse_ok_iff short) Raw.requestLine client
  · exact escapes_iff (fun line short => ResponseLine.parse_ok_iff (by omega)) Raw.responseLine origin

theorem bare_method_escapes :
    ¬∀ client origin, NoEscape RequestLine client ∧ NoEscape ResponseLine origin := by
  intro h
  obtain ⟨message, same⟩ := (h [.ok (lit "GET\r\n\r\n")] []).1 .outOfRange (by decide)
  cases same

end ProxyServer
