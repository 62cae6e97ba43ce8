import ProxyServer.Request.Collected
import ProxyServer.Request.Progress
import ProxyServer.Request.RoundTrip

/-!
# Responses from the cache

The parts of a response are saved, and a message is made of them. `replayed` says that
it writes what the response writes: the printed form of every header that is read can be
read again, and the parts are written from the first one on.
-/

namespace ProxyServer

/-! ### A status line that was read -/

theorem length_digitsOf {n : Nat} (k : Nat) (small : n < 10 ^ (k + 1)) : (digitsOf n).length ≤ k + 1 := by
  induction k generalizing n with
  | zero =>
    rw [digitsOf_small (by omega)]
    rfl
  | succ k ih =>
    by_cases one : n < 10
    · rw [digitsOf_small one, List.length_singleton]
      omega
    · rw [digitsOf_large (by omega), List.length_append, List.length_singleton]
      have fewer := ih (n := n / 10) (by omega)
      omega

theorem length_intToString {n : Int} (low : -2 ^ 31 ≤ n) (high : n < 2 ^ 31) : (intToString n).length ≤ 11 := by
  have digits := length_digitsOf (n := n.natAbs) 9 (by omega)
  unfold intToString
  dsimp only
  split
  · rw [List.length_cons]
    exact Nat.succ_le_succ digits
  · exact Nat.le_succ_of_le digits

theorem ResponseLine.parse_kept {line : Bytes} {l : ResponseLine} (short : line.length < npos) (clear : CR ∉ line)
    (read : ResponseLine.parse line = .ok l) : l.WellFormed ∧ l.print.length ≤ 2 * line.length + 15 := by
  have start := next_le (c := SPACE) short (Nat.zero_le _)
  have stop := next_le (c := SPACE) short start
  unfold ResponseLine.parse at read
  simp only [substr_ok _ (Nat.zero_le _), substr_ok _ stop, substr_find short start, List.drop_zero, take_find short] at read
  obtain ⟨http, taken, read⟩ := Runs.bind_ok.mp read
  cases taken
  obtain ⟨text, taken, read⟩ := Runs.bind_ok.mp read
  cases taken
  obtain ⟨n, code, read⟩ := Runs.bind_ok.mp read
  obtain ⟨description, taken, read⟩ := Runs.bind_ok.mp read
  cases taken
  cases read
  obtain ⟨low, high⟩ := stoi_bounds code
  have inHttp : ∀ b ∈ before SPACE line, b ∈ line := (List.takeWhile_prefix _).subset
  have blank : SPACE ∉ before SPACE line := by
    intro member
    have other := List.mem_takeWhile_imp member
    simp at other
  refine ⟨⟨⟨blank, fun member => clear (inHttp _ member)⟩, ⟨low, high⟩, ?_⟩, ?_⟩
  · intro member
    exact clear (List.mem_of_mem_drop (List.mem_of_mem_take member))
  · have digits := length_intToString low high
    have http : (before SPACE line).length ≤ line.length := (List.takeWhile_prefix _).length_le
    unfold ResponseLine.print
    simp only [List.length_append, List.length_take, List.length_drop, length_crlf]
    simp only [lit]
    simp
    omega

/-! ### A header that was read -/

namespace HttpHeader

/-- How long the lines of the properties are. -/
def size (properties : List HeaderProperty) : Nat := (properties.flatMap HeaderProperty.print).length

theorem size_cons (p : HeaderProperty) (rest : List HeaderProperty) :
    size (p :: rest) = p.name.length + p.value.length + 4 + size rest := by
  simp [size, HeaderProperty.print, lit]
  omega

theorem size_eraseP (name : Bytes) (properties : List HeaderProperty) :
    size (properties.eraseP (·.name = name)) ≤ size properties := by
  induction properties with
  | nil => exact Nat.le_refl _
  | cons p rest ih =>
    rw [size_cons]
    by_cases named : p.name = name
    · have gone : (p :: rest).eraseP (·.name = name) = rest := by simp [named]
      rw [gone]
      omega
    · have kept : (p :: rest).eraseP (·.name = name) = p :: rest.eraseP (·.name = name) := by simp [named]
      rw [kept, size_cons]
      omega

theorem size_setIn (name value : Bytes) (properties : List HeaderProperty) :
    size (setIn name value properties) ≤ size properties + (name.length + value.length + 4) := by
  induction properties with
  | nil =>
    rw [setIn, size_cons]
    dsimp only
    omega
  | cons p rest ih =>
    rw [setIn, size_cons]
    split
    · rw [size_cons]
      dsimp only
      omega
    · rw [size_cons]
      omega

theorem length_getProperty {L : Type} (h : HttpHeader L) (name : Bytes) : (h.getProperty name).length ≤ size h.properties := by
  have among : ∀ (properties : List HeaderProperty), ∀ p ∈ properties, p.value.length ≤ size properties := by
    intro properties
    induction properties with
    | nil =>
      intro p member
      cases member
    | cons q rest ih =>
      intro p member
      rw [size_cons]
      rcases List.mem_cons.mp member with same | later
      · rw [same]
        omega
      · have fits := ih p later
        omega
  unfold getProperty
  split
  · rename_i p found
    exact among h.properties p (List.mem_of_find?_eq_some found)
  · exact Nat.zero_le _

theorem size_dropProxyConnection {L : Type} (h : HttpHeader L) :
    size h.dropProxyConnection.properties ≤ 2 * size h.properties + 14 := by
  have erased := size_eraseP (lit "proxy-connection") h.properties
  have value := h.length_getProperty (lit "proxy-connection")
  have name : (lit "connection").length = 10 := rfl
  unfold dropProxyConnection
  split
  · dsimp only
    split
    · exact Nat.le_trans erased (by omega)
    · refine Nat.le_trans (size_setIn _ _ _) ?_
      rw [name]
      show size (h.properties.eraseP _) + _ ≤ _
      omega
  · omega

theorem size_lines {s : Bytes} {lines : List Bytes} (short : s.length < npos) (divided : Lines s lines) :
    size (lines.map HeaderProperty.parse) ≤ 4 * (s.length + 1) := by
  have parsed : ∀ l : Bytes, l.length < npos →
      (HeaderProperty.parse l).name.length + (HeaderProperty.parse l).value.length ≤ 2 * l.length := by
    intro l short
    have name : (before COLON l).length ≤ l.length := (List.takeWhile_prefix _).length_le
    have rest : (behind COLON l).length ≤ l.length := by
      unfold behind
      split
      · exact ((List.tail_suffix _).trans (List.dropWhile_suffix _)).length_le
      · exact Nat.le_refl _
    have value := (List.dropWhile_suffix (fun b => decide (b = SPACE)) (l := behind COLON l)).length_le
    rw [HeaderProperty.parse_eq short]
    simp only [toLower, List.length_map]
    omega
  induction divided with
  | last absent =>
    rename_i s
    have bound := parsed s short
    rw [List.map_cons, size_cons]
    simp only [List.map_nil, size, List.flatMap_nil, List.length_nil]
    omega
  | blank s => exact Nat.zero_le _
  | @line l s rest b absent present below ih =>
    simp only [List.length_append, List.length_cons] at short ⊢
    have bound := parsed l (by omega)
    have later := ih (by omega)
    rw [List.map_cons, size_cons]
    omega

theorem size_divided {message first : Bytes} {lines : List Bytes} (short : message.length < npos)
    (divided : Divides message first lines) : size (lines.map HeaderProperty.parse) ≤ 4 * (message.length + 1) := by
  cases divided with
  | single absent => exact Nat.zero_le _
  | lines b absent below =>
    simp only [List.length_append, List.length_cons] at short ⊢
    have later := size_lines (by omega) below
    omega

/-- The printed form of a header that was read can be read, with what follows it. -/
theorem printed_reads {message x : Bytes} {h : ResponseHeader} (short : message.length ≤ BUFFER_LENGTH)
    (body : x.length ≤ BUFFER_LENGTH) (read : HttpHeader.parse message = .ok h) :
    ∃ h' : ResponseHeader, HttpHeader.parse (h.print ++ x) = .ok h' := by
  unfold BUFFER_LENGTH at short body
  have narrow : message.length + 3 < npos := by
    unfold npos SIZE_RANGE
    omega
  have printable := printable_of_parse narrow read
  obtain ⟨first, lines, l, divided, line, made⟩ := parsed_of_parse narrow read
  have fits := divided.length_le List.mem_cons_self
  have sized := size_divided (by omega) divided
  obtain ⟨wellFormed, length⟩ := ResponseLine.parse_kept (by omega) (divided.clear List.mem_cons_self) line
  have requestLine : h.requestLine = l := by
    rw [← made]
    exact requestLine_dropProxyConnection _
  have properties : size h.properties ≤ 2 * (4 * (message.length + 1)) + 14 := by
    rw [← made]
    exact Nat.le_trans (size_dropProxyConnection _) (by dsimp only; omega)
  have total : (h.print ++ x).length < npos := by
    unfold npos SIZE_RANGE
    unfold HttpHeader.print
    rw [requestLine, show Line.print l = l.print from rfl]
    unfold size at properties
    simp only [List.length_append, length_crlf]
    omega
  obtain ⟨text, printed, clear, again⟩ := ResponseLine.kept wellFormed
  rw [← requestLine] at printed
  obtain ⟨written, same, -⟩ := print_eq printed printable
  rw [same] at total ⊢
  have lineFits : text.length < npos := by
    simp only [headerBytes, List.length_append] at total
    omega
  exact ⟨_, parse_written x clear (again lineFits) total⟩

end HttpHeader

namespace BufferedMessage

variable {L : Type}

/-! ### Writing a message -/

/-- The bytes that successive calls of `write_to` write, as far as these are in bounds. -/
def emits (m : BufferedMessage L) : List Nat → Option (Bytes × BufferedMessage L)
  | [] => some ([], m)
  | accepted :: rest => do
    let (bytes, m) ← m.writeTo accepted
    let (more, m) ← m.emits rest
    return (bytes ++ more, m)

theorem emits_cons {m m' : BufferedMessage L} {accepted : Nat} {rest : List Nat} {out : Bytes}
    (emitted : m.emits (accepted :: rest) = some (out, m')) :
    ∃ bytes m₁ more, m.writeTo accepted = some (bytes, m₁) ∧ m₁.emits rest = some (more, m') ∧ out = bytes ++ more := by
  simp only [emits, Option.bind_eq_bind, Option.bind_eq_some_iff, Option.pure_def, Option.some.injEq,
    Prod.mk.injEq] at emitted
  obtain ⟨⟨bytes, m₁⟩, written, ⟨more, m₂⟩, later, same, rfl⟩ := emitted
  exact ⟨bytes, m₁, more, written, later, same.symm⟩

theorem emits_unsent {m m' : BufferedMessage L} {accepted : List Nat} {out : Bytes}
    (emitted : m.emits accepted = some (out, m')) : out ++ m'.unsent = m.unsent := by
  induction accepted generalizing m out with
  | nil =>
    cases emitted
    rfl
  | cons a rest ih =>
    obtain ⟨bytes, m₁, more, written, later, rfl⟩ := emits_cons emitted
    rw [List.append_assoc, ih later, unsent_writeTo written]

/-- Where the cursor is: in a part, or behind the last one. -/
structure Placed (m : BufferedMessage L) : Prop where
  part : m.curPart ≤ m.cache.length
  offset : m.writeLength ≤ (m.cache.getD m.curPart []).length

theorem Placed.writeTo {m m' : BufferedMessage L} {accepted : Nat} {bytes : Bytes} (placed : Placed m)
    (written : m.writeTo accepted = some (bytes, m')) : Placed m' := by
  obtain ⟨part, offset⟩ := placed
  obtain ⟨p, here, taken, moved⟩ := writeTo_cases written
  have inside := (List.getElem?_eq_some_iff.mp here).1
  rw [List.getD_eq_getElem?_getD, here, Option.getD_some] at offset
  cases moved with
  | whole all => exact ⟨inside, Nat.zero_le _⟩
  | within left =>
    refine ⟨part, ?_⟩
    dsimp only
    rw [List.getD_eq_getElem?_getD, here, Option.getD_some, taken]
    simp only [List.length_take, List.length_drop]
    omega

theorem writeTo_isRead {m m' : BufferedMessage L} {accepted : Nat} {bytes : Bytes}
    (written : m.writeTo accepted = some (bytes, m')) : m'.isRead = m.isRead := by
  obtain ⟨part, offset, rfl⟩ := writeTo_eq written
  rfl

theorem Placed.emits {m m' : BufferedMessage L} {accepted : List Nat} {out : Bytes} (placed : Placed m)
    (emitted : m.emits accepted = some (out, m')) : Placed m' ∧ m'.isRead = m.isRead := by
  induction accepted generalizing m out with
  | nil =>
    cases emitted
    exact ⟨placed, rfl⟩
  | cons a rest ih =>
    obtain ⟨bytes, m₁, more, written, later, rfl⟩ := emits_cons emitted
    obtain ⟨after, same⟩ := ih (placed.writeTo written) later
    exact ⟨after, same.trans (writeTo_isRead written)⟩

/-- Until a message is written, `write_to` is in bounds. -/
theorem Placed.in_bounds {m : BufferedMessage L} (placed : Placed m) (isRead : m.isRead = true)
    (unwritten : m.isWritten = false) (accepted : Nat) : ∃ bytes m', m.writeTo accepted = some (bytes, m') := by
  unfold isWritten at unwritten
  rw [isRead, Bool.true_and, decide_eq_false_iff_not] at unwritten
  have inside : m.curPart < m.cache.length := Nat.lt_of_le_of_ne placed.part unwritten
  simp only [BufferedMessage.writeTo, List.getElem?_eq_getElem inside, Option.bind_eq_bind, Option.bind_some]
  split
  · exact ⟨_, _, rfl⟩
  · exact ⟨_, _, rfl⟩

/-- What is left to be written, and a call for each part that is left. -/
def pending (m : BufferedMessage L) : Nat := m.unsent.length + (m.cache.length - m.curPart)

theorem Placed.pending_lt {m m' : BufferedMessage L} {accepted : Nat} {bytes : Bytes} (placed : Placed m)
    (some_ : 0 < accepted) (written : m.writeTo accepted = some (bytes, m')) : m'.pending < m.pending := by
  have shrinks := congrArg List.length (unsent_writeTo written)
  rw [List.length_append] at shrinks
  obtain ⟨part, offset⟩ := placed
  obtain ⟨p, here, taken, moved⟩ := writeTo_cases written
  have inside := (List.getElem?_eq_some_iff.mp here).1
  rw [List.getD_eq_getElem?_getD, here, Option.getD_some] at offset
  unfold pending
  cases moved with
  | whole all =>
    dsimp only
    omega
  | within left =>
    have size := congrArg List.length taken
    simp only [List.length_take, List.length_drop] at size
    dsimp only
    omega

/-- With enough calls that write something, the message is written. -/
theorem Placed.completes {m : BufferedMessage L} (placed : Placed m) (isRead : m.isRead = true) {accepted : List Nat}
    (some_ : ∀ a ∈ accepted, 0 < a) (enough : m.pending ≤ accepted.length) :
    ∃ k out m', m.emits (accepted.take k) = some (out, m') ∧ m'.isWritten = true := by
  induction accepted generalizing m with
  | nil =>
    have none_left : m.pending = 0 := Nat.le_zero.mp enough
    unfold pending at none_left
    refine ⟨0, [], m, rfl, ?_⟩
    have last := placed.part
    simp only [isWritten, isRead, Bool.true_and, decide_eq_true_eq]
    omega
  | cons a rest ih =>
    by_cases finished : m.isWritten = true
    · exact ⟨0, [], m, rfl, finished⟩
    · rw [Bool.not_eq_true] at finished
      obtain ⟨bytes, m₁, written⟩ := placed.in_bounds isRead finished a
      have fewer := placed.pending_lt (some_ a List.mem_cons_self) written
      rw [List.length_cons] at enough
      obtain ⟨k, out, m', later, done⟩ := ih (placed.writeTo written) ((writeTo_isRead written).trans isRead)
        (fun b member => some_ b (List.mem_cons_of_mem _ member)) (by omega)
      refine ⟨k + 1, bytes ++ out, m', ?_, done⟩
      simp [BufferedMessage.emits, List.take_succ_cons, written, later]

/-! ### The life of a response -/

variable [Line L]

/-- A message, and what was written of it. -/
structure Transfer (L : Type) where
  message : BufferedMessage L
  written : Bytes

namespace Transfer

variable {t t' : Transfer L}

def start : Transfer L := { message := .new, written := [] }

/-- What occurs to the message, with the bytes that are written. -/
def occur (t : Transfer L) : MessageEvent → Except CppError (Transfer L)
  | .write accepted =>
    if t.message.canWrite then
      match t.message.writeTo accepted with
      | some (bytes, message) => .ok { message, written := t.written ++ bytes }
      | none => .ok t
    else .ok t
  | .read available => (t.message.occur (.read available)).map fun message => { t with message }
  | .move garbage => (t.message.occur (.move garbage)).map fun message => { t with message }

/-- It is the life of the message. -/
theorem occur_message (t : Transfer L) (event : MessageEvent) :
    (t.occur event).map (·.message) = t.message.occur event := by
  cases event with
  | write accepted =>
    unfold occur BufferedMessage.occur
    dsimp only
    split
    · cases t.message.writeTo accepted with
      | none => rfl
      | some written => rfl
    · rfl
  | read available =>
    unfold occur
    dsimp only
    cases t.message.occur (.read available) with
    | error e => rfl
    | ok message => rfl
  | move garbage =>
    unfold occur
    dsimp only
    cases t.message.occur (.move garbage) with
    | error e => rfl
    | ok message => rfl

end Transfer

/-- The first part is the printed form of a header that was read, with the bytes that came
with it. -/
def Accepted (L : Type) [Line L] (cache : CachedMessage) : Prop :=
  ∃ (h : HttpHeader L) (message x : Bytes) (rest : CachedMessage), cache = (h.print ++ x) :: rest ∧
    message.length ≤ BUFFER_LENGTH ∧ x.length ≤ BUFFER_LENGTH ∧ HttpHeader.parse message = .ok h

/-- What was written and what is left are all that was read. -/
structure Traced (t : Transfer L) : Prop extends Placed t.message where
  whole : t.written ++ t.message.unsent = t.message.cache.flatten
  fresh : t.message.headerLength = 0 → t.message.cache = [] ∧ t.message.writeLength = 0 ∧ Unopened t.message
  opened : t.message.headerLength ≠ 0 → Accepted L t.message.cache

theorem traced_start : Traced (Transfer.start : Transfer L) where
  part := Nat.le_refl 0
  offset := Nat.le_refl 0
  whole := rfl
  fresh _ := ⟨rfl, rfl, rfl, rfl, Nat.zero_le _⟩
  opened known := absurd rfl known

omit [Line L] in
theorem Placed.unsent_push {m : BufferedMessage L} (placed : Placed m) (part : Bytes) :
    ((m.cache ++ [part]).drop m.curPart).flatten.drop m.writeLength = m.unsent ++ part := by
  have offset : m.writeLength ≤ (m.cache.drop m.curPart).flatten.length := by
    have within := placed.offset
    rw [List.getD_eq_getElem?_getD] at within
    cases here : m.cache[m.curPart]? with
    | none =>
      rw [here] at within
      exact Nat.le_trans within (Nat.zero_le _)
    | some p =>
      obtain ⟨bound, rfl⟩ := List.getElem?_eq_some_iff.mp here
      rw [here, Option.getD_some] at within
      rw [List.drop_eq_getElem_cons bound, List.flatten_cons, List.length_append]
      omega
  rw [List.drop_append_of_le_length placed.part, List.flatten_append, List.flatten_singleton,
    List.drop_append_of_le_length offset]
  rfl

omit [Line L] in
theorem Placed.push {m : BufferedMessage L} (placed : Placed m) (part : Bytes) :
    m.curPart ≤ (m.cache ++ [part]).length ∧ m.writeLength ≤ ((m.cache ++ [part]).getD m.curPart []).length := by
  obtain ⟨fits, offset⟩ := placed
  rw [List.length_append, List.length_singleton]
  refine ⟨by omega, ?_⟩
  rw [List.getD_eq_getElem?_getD] at offset ⊢
  by_cases inside : m.curPart < m.cache.length
  · rw [List.getElem?_append_left inside]
    exact offset
  · rw [List.getElem?_eq_none (by omega), Option.getD_none, List.length_nil, Nat.le_zero] at offset
    rw [offset]
    exact Nat.zero_le _

theorem Traced.read {t : Transfer L} {m' : BufferedMessage L} {bytes : Bytes} (traced : Traced t)
    (bound : bytes.length ≤ t.message.shouldRead) (read : t.message.readFrom bytes = .ok m') :
    Traced { t with message := m' } := by
  obtain ⟨placed, whole, fresh, opened⟩ := traced
  cases readFrom_cases read with
  | body known =>
    obtain ⟨part, offset⟩ := placed.push (t.message.buffered bytes)
    refine ⟨⟨part, offset⟩, ?_, fun unknown => absurd unknown known, ?_⟩
    · show t.written ++ ((t.message.cache ++ [_]).drop t.message.curPart).flatten.drop t.message.writeLength = _
      rw [placed.unsent_push, ← List.append_assoc, whole]
      simp [settled]
    · intro _
      obtain ⟨h, message, x, rest, shape, fits⟩ := opened known
      refine ⟨h, message, x, rest ++ [t.message.buffered bytes], ?_, fits⟩
      show t.message.cache ++ [_] = _
      rw [shape]
      rfl
  | waits unknown missing =>
    obtain ⟨empty, start, unopened⟩ := fresh unknown
    exact ⟨⟨placed.part, placed.offset⟩, whole, fun _ => ⟨empty, start, unopened.waits _ bound missing⟩,
      fun known => absurd unknown known⟩
  | opens unknown x header n cut parsed declared =>
    obtain ⟨empty, start, unopened⟩ := fresh unknown
    have printed : header.print.length ≠ 0 := by simpa using header.print_ne_nil
    have room := unopened.room bound
    have size := t.message.length_buffered bytes
    have body : x.length ≤ (t.message.buffered bytes).length := by
      unfold substrFrom at cut
      split at cut
      · cases cut
      · cases cut
        rw [List.length_drop]
        omega
    have nothing : t.written = [] := by
      rw [empty] at whole
      exact (List.append_eq_nil_iff.mp whole).1
    refine ⟨⟨Nat.zero_le _, ?_⟩, ?_, fun zero => absurd zero printed, ?_⟩
    · show t.message.writeLength ≤ _
      rw [start]
      exact Nat.zero_le _
    · show t.written ++ ((t.message.cache ++ [header.print ++ x]).drop 0).flatten.drop t.message.writeLength = _
      rw [nothing, start]
      rfl
    · intro _
      refine ⟨header, t.message.buffered bytes, x, [], ?_, by omega, by omega, parsed⟩
      show t.message.cache ++ [_] = _
      rw [empty]
      rfl

theorem Traced.write {t : Transfer L} {m' : BufferedMessage L} {accepted : Nat} {bytes : Bytes} (traced : Traced t)
    (canWrite : t.message.canWrite = true) (wrote : t.message.writeTo accepted = some (bytes, m')) :
    Traced { message := m', written := t.written ++ bytes } := by
  have placed := traced.toPlaced.writeTo wrote
  have rest := unsent_writeTo wrote
  obtain ⟨part, offset, rfl⟩ := writeTo_eq wrote
  refine ⟨placed, ?_, ?_, traced.opened⟩
  · show (t.written ++ bytes) ++ _ = t.message.cache.flatten
    rw [List.append_assoc, rest]
    exact traced.whole
  · intro unknown
    obtain ⟨empty, -⟩ := traced.fresh unknown
    have place := canWrite_ne canWrite
    have last := traced.part
    rw [empty] at place last
    exact absurd (Nat.le_zero.mp last) place

theorem Traced.occur {t t' : Transfer L} {event : MessageEvent} (traced : Traced t) (occurred : t.occur event = .ok t') :
    Traced t' := by
  unfold Transfer.occur at occurred
  cases event with
  | write accepted =>
    dsimp only at occurred
    split at occurred
    · rename_i can
      split at occurred
      · rename_i wrote
        cases occurred
        exact traced.write can wrote
      · cases occurred
        exact traced
    · cases occurred
      exact traced
  | read available =>
    dsimp only at occurred
    unfold BufferedMessage.occur at occurred
    cases available with
    | error what =>
      dsimp only at occurred
      split at occurred
      · cases occurred
      · cases occurred
        exact traced
    | ok available =>
      dsimp only at occurred
      split at occurred
      · cases read : t.message.readFrom (available.take t.message.shouldRead) with
        | error e =>
          rw [read] at occurred
          cases occurred
        | ok m' =>
          rw [read] at occurred
          cases occurred
          exact traced.read (List.length_take_le _ _) read
      · cases occurred
        exact traced
  | move garbage =>
    dsimp only at occurred
    unfold BufferedMessage.occur at occurred
    dsimp only at occurred
    split at occurred
    · cases occurred
      refine ⟨⟨traced.part, traced.offset⟩, traced.whole, ?_, traced.opened⟩
      intro unknown
      obtain ⟨empty, start, inf, zero, fits⟩ := traced.fresh unknown
      exact ⟨empty, start, inf, zero, fits⟩
    · cases occurred
      exact traced

theorem run_traced {events : List MessageEvent} {t : Transfer L} (ran : Runs.run Transfer.occur .start events = .ok t) :
    Traced t :=
  Runs.invariant traced_start (fun _ _ _ traced occurred => traced.occur occurred) ran

theorem Traced.accepted {t : Transfer L} (traced : Traced t) (isRead : t.message.isRead = true) :
    Accepted L t.message.cache := by
  apply traced.opened
  intro unknown
  obtain ⟨-, -, inf, zero, -⟩ := traced.fresh unknown
  simp [BufferedMessage.isRead, inf, zero, INF] at isRead

/-! ### The replay -/

/-- The message writes the bytes, in whatever pieces they are taken. -/
structure Writes (r : BufferedMessage L) (whole : Bytes) : Prop where
  in_bounds : ∀ accepted out r', r.emits accepted = some (out, r') → r'.isWritten = false →
    ∀ a, ∃ bytes r'', r'.writeTo a = some (bytes, r'')
  completes : ∀ accepted : List Nat, (∀ a ∈ accepted, 0 < a) → r.pending ≤ accepted.length →
    ∃ k out r', r.emits (accepted.take k) = some (out, r') ∧ r'.isWritten = true
  emitted : ∀ accepted out r', r.emits accepted = some (out, r') → r'.isWritten = true → out = whole

omit [Line L] in
theorem Placed.writes {m : BufferedMessage L} (placed : Placed m) (isRead : m.isRead = true) : Writes m m.unsent := by
  constructor
  · intro accepted out m' emitted unwritten a
    obtain ⟨after, same⟩ := placed.emits emitted
    exact after.in_bounds (same.trans isRead) unwritten a
  · intro accepted some_ enough
    exact placed.completes isRead some_ enough
  · intro accepted out m' emitted written
    have all := emits_unsent emitted
    rw [unsent_isWritten written, List.append_nil] at all
    exact all

/-- A response that was read, whatever was written of it, is saved in parts of which a
message can be made, and that writes what the response writes before and afterwards. -/
theorem replayed (events : List MessageEvent) (t : Transfer ResponseLine)
    (ran : Runs.run Transfer.occur .start events = .ok t) (isRead : t.message.isRead = true) :
    ∃ (r : ServerResponse) (whole rest : Bytes), ofCache t.message.getCache = .ok r ∧ r.isRead = true ∧ r.Writes whole ∧
      t.message.Writes rest ∧ whole = t.written ++ rest := by
  have traced := run_traced ran
  obtain ⟨h, message, x, parts, shape, short, body, read⟩ := traced.accepted isRead
  obtain ⟨h', again⟩ := HttpHeader.printed_reads short body read
  have made : (ofCache t.message.getCache : Except CppError ServerResponse) =
      .ok { (new : ServerResponse) with
        header := h'
        cache := t.message.cache
        bodyLength := (t.message.cache.map List.length).sum
        read := (t.message.cache.map List.length).sum } := by
    unfold ofCache getCache
    rw [shape, List.headD_cons, again]
    rfl
  refine ⟨_, t.message.cache.flatten, t.message.unsent, made, ?_, ?_, traced.toPlaced.writes isRead, traced.whole.symm⟩
  · simp [BufferedMessage.isRead]
  · exact Placed.writes ⟨Nat.zero_le _, Nat.zero_le _⟩ (by simp [BufferedMessage.isRead])

/-- A page of two bytes, of which five are written before it is complete. -/
def servedPage : List MessageEvent :=
  [.move [], .read (.ok (lit "HTTP/1.1 200 OK\r\nETag: 1\r\nContent-Length: 2\r\n\r\nv")), .write 5, .read (.ok (lit "1"))]

theorem page_replayed : ∃ t : Transfer ResponseLine, Runs.run Transfer.occur .start servedPage = .ok t ∧
    t.written = lit "HTTP/" ∧ ∃ (r : ServerResponse) (whole rest : Bytes), ofCache t.message.getCache = .ok r ∧
      r.isRead = true ∧ r.Writes whole ∧ t.message.Writes rest ∧ whole = t.written ++ rest := by
  obtain ⟨t, ran, both⟩ : ∃ t : Transfer ResponseLine, Runs.run Transfer.occur .start servedPage = .ok t ∧
      decide (t.message.isRead = true ∧ t.written = lit "HTTP/") = true := Runs.run_any (by decide +kernel)
  obtain ⟨isRead, five⟩ := of_decide_eq_true both
  exact ⟨t, ran, five, replayed servedPage t ran isRead⟩

end BufferedMessage

end ProxyServer
