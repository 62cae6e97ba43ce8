import ProxyServer.Request.Lines

/-!
# Header texts

A CRLF-terminated header as it stands on the stream. `parse_text` shows that the
parser reads exactly its lines, whatever bytes follow, and `findText_text` that
the search for the terminator stops at its end.
-/

namespace ProxyServer

/-- A line without a carriage return or a line feed. -/
def Plain (l : Bytes) : Prop := CR ∉ l ∧ LF ∉ l

instance (l : Bytes) : Decidable (Plain l) := inferInstanceAs (Decidable (_ ∧ _))

def terminator : Bytes := lit "\r\n\r\n"

/-- The other end of a header that `read_from` looks for. -/
def bareTerminator : Bytes := lit "\n\n"

/-- A header whose lines end in CRLF, without bare CR or LF: the first line and
the property lines, which are not empty. -/
structure HeaderText where
  first : Bytes
  lines : List Bytes
  first_plain : Plain first
  lines_plain : ∀ l ∈ lines, Plain l
  lines_present : ∀ l ∈ lines, l ≠ []

namespace HeaderText

def ofLines (first : Bytes) (lines : List Bytes) (plain : Plain first ∧ ∀ l ∈ lines, Plain l ∧ l ≠ []) :
    HeaderText where
  first
  lines
  first_plain := plain.1
  lines_plain l member := (plain.2 l member).1
  lines_present l member := (plain.2 l member).2

/-- The property lines and the empty line. -/
def tail (lines : List Bytes) : Bytes := lines.flatMap (· ++ crlf) ++ crlf

def bytes (t : HeaderText) : Bytes := t.first ++ (crlf ++ tail t.lines)

theorem tail_cons (l : Bytes) (ls : List Bytes) : tail (l :: ls) = l ++ (crlf ++ tail ls) := by
  simp [tail]

theorem length_tail_pos (lines : List Bytes) : 2 ≤ (tail lines).length := by
  simp [tail, crlf]

theorem length_bytes (t : HeaderText) : t.bytes.length = t.first.length + (tail t.lines).length + 2 := by
  simp [bytes, crlf]
  omega

def header {L : Type} [Line L] (t : HeaderText) : Except CppError (HttpHeader L) := do
  let requestLine ← Line.parse t.first
  return HttpHeader.dropProxyConnection
    { requestLine, properties := t.lines.map HeaderProperty.parse }

/-! ### The parser reads the lines -/

theorem lines_tail {lines : List Bytes} (x : Bytes) (clear : ∀ l ∈ lines, CR ∉ l)
    (present : ∀ l ∈ lines, l ≠ []) : Lines (tail lines ++ x) lines := by
  induction lines with
  | nil => exact Lines.blank (LF :: x)
  | cons l ls ih =>
    have below := ih (fun m hm => clear m (by simp [hm])) (fun m hm => present m (by simp [hm]))
    rw [tail_cons, List.append_assoc]
    exact Lines.line LF (clear l (by simp)) (present l (by simp)) below

theorem divides_lines {first : Bytes} {lines : List Bytes} (x : Bytes) (firstClear : CR ∉ first)
    (clear : ∀ l ∈ lines, CR ∉ l) (present : ∀ l ∈ lines, l ≠ []) :
    Divides (first ++ (crlf ++ tail lines) ++ x) first lines := by
  have shape : first ++ (crlf ++ tail lines) ++ x = first ++ CR :: LF :: (tail lines ++ x) := by
    simp [crlf]
  rw [shape]
  exact Divides.lines LF firstClear (lines_tail x clear present)

theorem divides_text (t : HeaderText) (x : Bytes) : Divides (t.bytes ++ x) t.first t.lines :=
  divides_lines x t.first_plain.1 (fun l member => (t.lines_plain l member).1) t.lines_present

/-- The parser reads the lines of the header and nothing of what follows it. -/
theorem parse_text {L : Type} [Line L] (t : HeaderText) (x : Bytes)
    (bound : (t.bytes ++ x).length < npos) : HttpHeader.parse (t.bytes ++ x) = t.header (L := L) := by
  rw [HttpHeader.parse_divided bound (divides_text t x)]
  unfold header
  cases (Line.parse t.first : Except CppError L) with
  | error e => rfl
  | ok requestLine => rfl

/-! ### The search for the end of the header -/

theorem terminator_eq : terminator = [CR, LF, CR, LF] := rfl

theorem bareTerminator_eq : bareTerminator = [LF, LF] := rfl

theorem firstMatch_tail {lines : List Bytes} (x : Bytes) (plain : ∀ l ∈ lines, Plain l)
    (present : ∀ l ∈ lines, l ≠ []) :
    Search.firstMatch terminator (crlf ++ (tail lines ++ x)) = some ((tail lines).length - 2) := by
  induction lines with
  | nil => exact Search.firstMatch_here ⟨x, rfl⟩
  | cons l ls ih =>
    have below := ih (fun m hm => plain m (by simp [hm])) (fun m hm => present m (by simp [hm]))
    have clear := (plain l (by simp)).1
    obtain ⟨b, l', rfl⟩ := List.exists_cons_of_ne_nil (present l (by simp))
    have notCR : CR ≠ b := fun e => clear (by simp [e])
    have atCR : ¬terminator <+: CR :: LF :: (b :: l' ++ (crlf ++ (tail ls ++ x))) := by
      rw [terminator_eq]
      simp [List.cons_prefix_cons, notCR]
    have atLF : ¬terminator <+: LF :: (b :: l' ++ (crlf ++ (tail ls ++ x))) := by
      rw [terminator_eq]
      simp [List.cons_prefix_cons, CR, LF]
    have inLine := Search.firstMatch_append (p := [LF, CR, LF]) (s := crlf ++ (tail ls ++ x)) clear
    rw [← terminator_eq, below] at inLine
    have shape : crlf ++ (tail ((b :: l') :: ls) ++ x) =
        CR :: LF :: (b :: l' ++ (crlf ++ (tail ls ++ x))) := by
      simp [tail_cons, crlf]
    have size := length_tail_pos ls
    rw [shape, Search.firstMatch_skip atCR, Search.firstMatch_skip atLF, inLine, tail_cons]
    simp only [Option.map_some, List.length_append, length_crlf, Option.some.injEq]
    omega

theorem firstMatch_text (t : HeaderText) (x : Bytes) :
    Search.firstMatch terminator (t.bytes ++ x) = some (t.bytes.length - 4) := by
  have skipped := Search.firstMatch_append (p := [LF, CR, LF]) (s := crlf ++ (tail t.lines ++ x))
    t.first_plain.1
  rw [← terminator_eq, firstMatch_tail x t.lines_plain t.lines_present] at skipped
  have shape : t.bytes ++ x = t.first ++ (crlf ++ (tail t.lines ++ x)) := by simp [bytes]
  have size := length_tail_pos t.lines
  rw [shape, skipped, length_bytes]
  simp only [Option.map_some, Option.some.injEq]
  omega

theorem bare_tail {lines : List Bytes} (plain : ∀ l ∈ lines, Plain l) :
    Search.firstMatch bareTerminator (crlf ++ tail lines) = none := by
  induction lines with
  | nil => decide
  | cons l ls ih =>
    have below := ih (fun m hm => plain m (by simp [hm]))
    have clear := (plain l (by simp)).2
    have atCR : ¬bareTerminator <+: CR :: LF :: (l ++ (crlf ++ tail ls)) := by
      rw [bareTerminator_eq]
      simp [List.cons_prefix_cons, CR, LF]
    have atLF : ¬bareTerminator <+: LF :: (l ++ (crlf ++ tail ls)) := by
      rw [bareTerminator_eq]
      cases l with
      | nil => simp [crlf, List.cons_prefix_cons, CR, LF]
      | cons b l' =>
        have notLF : LF ≠ b := fun e => clear (by simp [e])
        simp [List.cons_prefix_cons, notLF]
    have inLine := Search.firstMatch_append (p := [LF]) (s := crlf ++ tail ls) clear
    rw [← bareTerminator_eq, below] at inLine
    have shape : crlf ++ tail (l :: ls) = CR :: LF :: (l ++ (crlf ++ tail ls)) := by
      simp [tail_cons, crlf]
    rw [shape, Search.firstMatch_skip atCR, Search.firstMatch_skip atLF, inLine]
    rfl

theorem bare_text (t : HeaderText) : Search.firstMatch bareTerminator t.bytes = none := by
  have skipped := Search.firstMatch_append (p := [LF]) (s := crlf ++ tail t.lines) t.first_plain.2
  rw [← bareTerminator_eq, bare_tail t.lines_plain] at skipped
  exact skipped

theorem four_le_length (t : HeaderText) : 4 ≤ t.bytes.length := by
  have size := length_tail_pos t.lines
  rw [length_bytes]
  omega

/-- As long as the header is not complete, neither terminator is found. -/
theorem findText_partial (t : HeaderText) {k : Nat} (short : k < t.bytes.length) :
    findText (t.bytes.take k) terminator = npos ∧ findText (t.bytes.take k) bareTerminator = npos := by
  have whole := firstMatch_text t []
  rw [List.append_nil, ← List.take_append_drop k t.bytes] at whole
  have size := four_le_length t
  have noEnd := Search.firstMatch_none whole (by simp [terminator_eq]; omega)
  have noBare : Search.firstMatch bareTerminator (t.bytes.take k) = none := by
    cases found : Search.firstMatch bareTerminator (t.bytes.take k) with
    | none => rfl
    | some p =>
      have later := Search.firstMatch_prefix (t := t.bytes.drop k) found
      rw [List.take_append_drop, bare_text] at later
      cases later
  simp [findText, noEnd, noBare]

/-- Once it is complete, the search finds the terminator at its end. -/
theorem findText_text (t : HeaderText) (x : Bytes) :
    findText (t.bytes ++ x) terminator = t.bytes.length - 4 := by
  simp [findText, firstMatch_text]

end HeaderText

end ProxyServer
