import ProxyServer.Request.CacheControl
import ProxyServer.Request.Escapes
import ProxyServer.Request.RoundTrip

/-!
# Where a header ends

`read_from` looks for CRLF CRLF, and without one for LF LF; the constructor of
`http_header` goes from one CR to the next. `body_ignored_iff` says for which headers
the bytes behind CRLF CRLF are no part of what the constructor reads, and
`bare_never_same` that behind LF LF two bytes of the body are lost.
-/

namespace ProxyServer

/-! ### The walk over the lines -/

/-- The walk over property lines takes the last byte of the text, a CR, for the end of
a line. The byte behind it is skipped, so the CR of the terminator is not seen. -/
inductive RunsOver : Bytes → Prop
  | last {l : Bytes} (absent : CR ∉ l) (present : l ≠ []) : RunsOver (l ++ [CR])
  | line {l s : Bytes} (b : UInt8) (absent : CR ∉ l) (present : l ≠ []) (below : RunsOver s) :
      RunsOver (l ++ CR :: b :: s)

/-- The same of a text that starts with its first line, which may be empty. -/
inductive HeaderRunsOver : Bytes → Prop
  | first {l : Bytes} (absent : CR ∉ l) : HeaderRunsOver (l ++ [CR])
  | lines {l s : Bytes} (b : UInt8) (absent : CR ∉ l) (below : RunsOver s) : HeaderRunsOver (l ++ CR :: b :: s)

theorem split_CR {s : Bytes} (member : CR ∈ s) :
    ∃ l, CR ∉ l ∧ (s = l ++ [CR] ∨ ∃ b r, s = l ++ CR :: b :: r) := by
  obtain ⟨l, r, shape, absent⟩ := List.eq_append_cons_of_mem member
  cases r with
  | nil => exact ⟨l, absent, Or.inl shape⟩
  | cons b r => exact ⟨l, absent, Or.inr ⟨b, r, shape⟩⟩

theorem lines_stop {s : Bytes} (stops : ¬RunsOver s) : ∃ lines, ∀ b, Lines (s ++ (terminator ++ b)) lines := by
  induction size : s.length using Nat.strong_induction_on generalizing s with
  | _ n ih =>
    by_cases member : CR ∈ s
    · obtain ⟨l, absent, shape | ⟨c, r, shape⟩⟩ := split_CR member
      · by_cases empty : l = []
        · subst shape empty
          exact ⟨[], fun b => Lines.blank _⟩
        · rw [shape] at stops
          exact absurd (RunsOver.last absent empty) stops
      · by_cases empty : l = []
        · subst shape empty
          exact ⟨[], fun b => Lines.blank _⟩
        · have smaller : r.length < n := by
            rw [← size, shape]
            simp
            omega
          obtain ⟨lines, below⟩ := ih r.length smaller (fun further => stops (shape ▸ RunsOver.line c absent empty further)) rfl
          refine ⟨l :: lines, ?_⟩
          intro b
          rw [shape, List.append_assoc]
          exact Lines.line c absent empty (below b)
    · by_cases empty : s = []
      · subst empty
        exact ⟨[], fun b => Lines.blank _⟩
      · exact ⟨[s], fun b => Lines.line LF member empty (Lines.blank _)⟩

theorem lines_feed {b : Bytes} {below : List Bytes} (divided : Lines b below) :
    Lines (LF :: CR :: LF :: b) ([LF] :: below) :=
  Lines.line (l := [LF]) LF (by decide) (by decide) divided

theorem lines_run_over {s : Bytes} (runsOver : RunsOver s) :
    ∃ lines, ∀ {b below}, Lines b below → Lines (s ++ (terminator ++ b)) (lines ++ [LF] :: below) := by
  induction runsOver with
  | @last l absent present =>
    refine ⟨[l], ?_⟩
    intro b below divided
    have shape : l ++ [CR] ++ (terminator ++ b) = l ++ CR :: CR :: (LF :: CR :: LF :: b) := by
      simp [HeaderText.terminator_eq]
    rw [shape]
    exact Lines.line CR absent present (lines_feed divided)
  | @line l s c absent present _ ih =>
    obtain ⟨lines, after⟩ := ih
    refine ⟨l :: lines, ?_⟩
    intro b below divided
    rw [List.append_assoc]
    exact Lines.line c absent present (after divided)

theorem divides_stop {h : Bytes} (stops : ¬HeaderRunsOver h) :
    ∃ lines, ∀ b, Divides (h ++ (terminator ++ b)) (before CR h) lines := by
  by_cases member : CR ∈ h
  · obtain ⟨l, absent, shape | ⟨c, r, shape⟩⟩ := split_CR member
    · rw [shape] at stops
      exact absurd (HeaderRunsOver.first absent) stops
    · obtain ⟨lines, below⟩ := lines_stop (fun further => stops (shape ▸ HeaderRunsOver.lines c absent further))
      refine ⟨lines, ?_⟩
      intro b
      rw [shape, before_append absent, List.append_assoc]
      exact Divides.lines c absent (below b)
  · refine ⟨[], ?_⟩
    intro b
    rw [before_absent member]
    exact Divides.lines LF member (Lines.blank _)

theorem divides_run_over {h : Bytes} (runsOver : HeaderRunsOver h) :
    ∃ lines, ∀ {b below}, Lines b below → Divides (h ++ (terminator ++ b)) (before CR h) (lines ++ [LF] :: below) := by
  cases runsOver with
  | @first l absent =>
    refine ⟨[], ?_⟩
    intro b below divided
    have shape : l ++ [CR] ++ (terminator ++ b) = l ++ CR :: CR :: (LF :: CR :: LF :: b) := by
      simp [HeaderText.terminator_eq]
    rw [shape, before_append absent]
    exact Divides.lines CR absent (lines_feed divided)
  | @lines l s c absent below =>
    obtain ⟨lines, after⟩ := lines_run_over below
    refine ⟨lines, ?_⟩
    intro b below divided
    rw [before_append absent, List.append_assoc]
    exact Divides.lines c absent (after divided)

theorem before_terminator (h b : Bytes) : before CR (h ++ (terminator ++ b)) = before CR h := by
  by_cases member : CR ∈ h
  · obtain ⟨l, r, rfl, absent⟩ := List.eq_append_cons_of_mem member
    rw [before_append absent, List.append_assoc]
    exact before_append absent
  · rw [before_absent member]
    exact before_append member

theorem HttpHeader.parse_first {L : Type} [Line L] {message : Bytes} {e : CppError} (short : message.length < npos)
    (refused : (Line.parse (before CR message) : Except CppError L) = .error e) :
    (parse message : Except CppError (HttpHeader L)) = .error e := by
  unfold parse
  simp only [substr_ok _ (Nat.zero_le _), List.drop_zero, take_find short, refused, bind, Except.bind]

/-! ### Bytes of the body -/

namespace BufferedMessage

variable {L : Type} [Line L]

/-- The header that `read_from` makes of the bytes in the buffer: `T(message)`. -/
def parsedBy (m : BufferedMessage L) (bytes : Bytes) : Except CppError (HttpHeader L) :=
  HttpHeader.parse (m.buffered bytes)

/-- It is the header of the message, when its length is accepted as well. -/
theorem header_readFrom {m : BufferedMessage L} {bytes : Bytes} (unknown : m.headerLength = 0)
    (short : (m.buffered bytes).length + 4 < npos) (complete : Complete (m.buffered bytes))
    (skippable : Skippable (m.buffered bytes)) :
    (m.readFrom bytes).map BufferedMessage.header = (do
      let header ← m.parsedBy bytes
      let _ ← declaredLength header
      return header) := by
  have there := (headerEnd_iff (by omega)).mpr complete
  have room := (skippable_iff (by omega) complete).mpr skippable
  have place : addSize (headerEnd (m.buffered bytes)) 4 = headerEnd (m.buffered bytes) + 4 := by
    have range := npos_lt (n := (m.buffered bytes).length + 4) short
    exact addSize_eq (by omega)
  have cut : substrFrom (m.buffered bytes) (headerEnd (m.buffered bytes) + 4) =
      .ok ((m.buffered bytes).drop (headerEnd (m.buffered bytes) + 4)) := if_neg (by omega)
  unfold parsedBy
  unfold buffered at there place cut ⊢
  unfold readFrom readHeader
  dsimp only
  rw [if_pos unknown, if_pos there, place, cut]
  simp only [bind, Except.bind]
  cases (HttpHeader.parse _ : Except CppError (HttpHeader L)) with
  | error e => rfl
  | ok header =>
    dsimp only
    cases declaredLength header with
    | error e => rfl
    | ok n =>
      simp only [pure, Except.pure, Except.map]
      split
      · rfl
      · rfl

variable (L) in
/-- However the header `h` CRLF CRLF and some of the body came to be in the buffer, what
is parsed does not depend on that part of the body. -/
def BodyIgnored (h : Bytes) : Prop :=
  ∀ {m₁ m₂ : BufferedMessage L} {c₁ c₂ bytes₁ bytes₂ b₁ b₂ : Bytes}, Awaits m₁ c₁ → Awaits m₂ c₂ →
    c₁ ++ bytes₁ = h ++ (terminator ++ b₁) → c₂ ++ bytes₂ = h ++ (terminator ++ b₂) →
    (c₁ ++ bytes₁).length ≤ BUFFER_LENGTH → (c₂ ++ bytes₂).length ≤ BUFFER_LENGTH →
    m₁.parsedBy bytes₁ = m₂.parsedBy bytes₂

theorem buffer_short {s : Bytes} (fits : s.length ≤ BUFFER_LENGTH) : s.length < npos := by
  unfold BUFFER_LENGTH at fits
  unfold npos SIZE_RANGE
  omega

theorem bodyIgnored_of_parse {h : Bytes} (same : ∀ b₁ b₂ : Bytes, (h ++ (terminator ++ b₁)).length ≤ BUFFER_LENGTH →
    (h ++ (terminator ++ b₂)).length ≤ BUFFER_LENGTH →
    (HttpHeader.parse (h ++ (terminator ++ b₁)) : Except CppError (HttpHeader L)) =
      HttpHeader.parse (h ++ (terminator ++ b₂))) : BodyIgnored L h := by
  intro m₁ m₂ c₁ c₂ bytes₁ bytes₂ b₁ b₂ awaits₁ awaits₂ shape₁ shape₂ fits₁ fits₂
  unfold parsedBy
  rw [awaits₁.buffered, awaits₂.buffered]
  rw [shape₁] at fits₁ ⊢
  rw [shape₂] at fits₂ ⊢
  exact same b₁ b₂ fits₁ fits₂

theorem parse_of_bodyIgnored {h : Bytes} (ignored : BodyIgnored L h) {b₁ b₂ : Bytes}
    (fits₁ : (h ++ (terminator ++ b₁)).length ≤ BUFFER_LENGTH) (fits₂ : (h ++ (terminator ++ b₂)).length ≤ BUFFER_LENGTH) :
    (HttpHeader.parse (h ++ (terminator ++ b₁)) : Except CppError (HttpHeader L)) =
      HttpHeader.parse (h ++ (terminator ++ b₂)) := by
  have fresh : Awaits (new : BufferedMessage L) [] := awaits_new
  have same := ignored fresh fresh (List.nil_append _) (List.nil_append _) fits₁ fits₂
  unfold parsedBy at same
  rw [fresh.buffered, fresh.buffered] at same
  exact same

/-- A walk that runs over the end makes a property of the first byte of the body. -/
theorem not_bodyIgnored {h : Bytes} (runsOver : HeaderRunsOver h)
    (accepted : (Line.parse (before CR h) : Except CppError L).isOk = true) (room : h.length + 5 ≤ BUFFER_LENGTH) :
    ¬BodyIgnored L h := by
  intro ignored
  obtain ⟨lines, divided⟩ := divides_run_over runsOver
  have size : terminator.length = 4 := rfl
  have fits : ∀ b : Bytes, b.length ≤ 1 → (h ++ (terminator ++ b)).length ≤ BUFFER_LENGTH := by
    intro b small
    simp only [List.length_append, size]
    omega
  have same := parse_of_bodyIgnored ignored (fits [] (by decide)) (fits [97] (by decide))
  have empty : Lines [] [[]] := Lines.last (by simp)
  have letter : Lines [97] [[97]] := Lines.last (by decide)
  rw [HttpHeader.parse_divided (buffer_short (fits [] (by decide))) (divided empty),
    HttpHeader.parse_divided (buffer_short (fits [97] (by decide))) (divided letter)] at same
  cases read : (Line.parse (before CR h) : Except CppError L) with
  | error e =>
    rw [read] at accepted
    cases accepted
  | ok l =>
    rw [read] at same
    have headers := congrArg (fun h : HttpHeader L => h.properties.filter HttpHeader.isOther) (Except.ok.inj same)
    simp only [HttpHeader.filter_dropProxyConnection, List.map_append, List.filter_append] at headers
    exact absurd (List.append_cancel_left headers) (by decide)

/-- The body is ignored exactly when the walk over the lines stops in the header, the
first line is refused, or there is no room for the body. -/
theorem body_ignored_iff (h : Bytes) : BodyIgnored L h ↔
    ¬(HeaderRunsOver h ∧ (Line.parse (before CR h) : Except CppError L).isOk = true ∧ h.length + 5 ≤ BUFFER_LENGTH) := by
  constructor
  · intro ignored ⟨runsOver, accepted, room⟩
    exact not_bodyIgnored runsOver accepted room ignored
  · intro condition
    apply bodyIgnored_of_parse
    intro b₁ b₂ fits₁ fits₂
    by_cases runsOver : HeaderRunsOver h
    · cases read : (Line.parse (before CR h) : Except CppError L) with
      | error e =>
        rw [HttpHeader.parse_first (buffer_short fits₁) (by rw [before_terminator]; exact read),
          HttpHeader.parse_first (buffer_short fits₂) (by rw [before_terminator]; exact read)]
      | ok l =>
        have full : ¬h.length + 5 ≤ BUFFER_LENGTH := fun room => condition ⟨runsOver, by rw [read]; rfl, room⟩
        have size : terminator.length = 4 := rfl
        simp only [List.length_append, size] at fits₁ fits₂
        obtain rfl : b₁ = [] := List.eq_nil_of_length_eq_zero (by omega)
        obtain rfl : b₂ = [] := List.eq_nil_of_length_eq_zero (by omega)
        rfl
    · obtain ⟨lines, divided⟩ := divides_stop runsOver
      rw [HttpHeader.parse_divided (buffer_short fits₁) (divided b₁),
        HttpHeader.parse_divided (buffer_short fits₂) (divided b₂)]

/-- A CR in front of the terminator makes a Content-Length of what follows it. -/
theorem body_injects_length :
    findText (lit "GET / HTTP/1.1\r" ++ terminator) terminator = (lit "GET / HTTP/1.1\r").length ∧
    ((new : ClientRequest).parsedBy (lit "GET / HTTP/1.1\r" ++ (terminator ++ lit "a"))).map
      (·.getProperty (lit "content-length")) = .ok [] ∧
    ((new : ClientRequest).parsedBy (lit "GET / HTTP/1.1\r" ++ (terminator ++ lit "Content-Length: 9"))).map
      (·.getProperty (lit "content-length")) = .ok (lit "9") := by
  decide +kernel

end BufferedMessage

/-! ### Lines that end in LF -/

namespace HeaderText

/-- The property lines and the empty line, each ended by LF. -/
def bareTail (lines : List Bytes) : Bytes := lines.flatMap (· ++ [LF]) ++ [LF]

def bareBytes (t : HeaderText) : Bytes := t.first ++ LF :: bareTail t.lines

theorem bareTail_cons (l : Bytes) (ls : List Bytes) : bareTail (l :: ls) = l ++ LF :: bareTail ls := by
  simp [bareTail]

theorem length_bareTail_pos (lines : List Bytes) : 1 ≤ (bareTail lines).length := by
  simp [bareTail]

theorem length_bareBytes (t : HeaderText) : t.bareBytes.length = t.first.length + 1 + (bareTail t.lines).length := by
  simp [bareBytes]
  omega

/-- `s` with every LF replaced by CRLF. -/
def toCrlf (s : Bytes) : Bytes := s.flatMap (fun b => if b = LF then crlf else [b])

theorem toCrlf_clear {s : Bytes} (clear : LF ∉ s) : toCrlf s = s := by
  induction s with
  | nil => rfl
  | cons b rest ih =>
    have other : b ≠ LF := fun same => clear (by simp [same])
    have below : toCrlf rest = rest := ih (fun member => clear (List.mem_cons_of_mem _ member))
    unfold toCrlf at below ⊢
    rw [List.flatMap_cons, below, if_neg other]
    rfl

theorem toCrlf_bareBytes (t : HeaderText) : toCrlf t.bareBytes = t.bytes := by
  have tails : ∀ lines : List Bytes, (∀ l ∈ lines, Plain l) → toCrlf (bareTail lines) = tail lines := by
    intro lines plain
    induction lines with
    | nil => rfl
    | cons l ls ih =>
      have line : toCrlf l = l := toCrlf_clear (plain l (by simp)).2
      have below := ih (fun m member => plain m (by simp [member]))
      unfold toCrlf at line below ⊢
      rw [bareTail_cons, tail_cons, List.flatMap_append, List.flatMap_cons, line, below]
      rfl
  have line : toCrlf t.first = t.first := toCrlf_clear t.first_plain.2
  have below := tails t.lines t.lines_plain
  unfold toCrlf at line below ⊢
  rw [bareBytes, bytes, List.flatMap_append, List.flatMap_cons, line, below]
  rfl

theorem bareBytes_clear (t : HeaderText) : CR ∉ t.bareBytes := by
  have other : CR ≠ LF := by decide
  have lines : ∀ l ∈ t.lines, CR ∉ l := fun l member => (t.lines_plain l member).1
  simp only [bareBytes, bareTail, List.mem_append, List.mem_cons, List.mem_flatMap, List.not_mem_nil, or_false,
    not_or, not_exists, not_and]
  exact ⟨t.first_plain.1, other, fun l member => ⟨lines l member, other⟩, other⟩

theorem firstMatch_bareTail {lines : List Bytes} (x : Bytes) (plain : ∀ l ∈ lines, Plain l) (present : ∀ l ∈ lines, l ≠ []) :
    Search.firstMatch bareTerminator (LF :: (bareTail lines ++ x)) = some ((bareTail lines).length - 1) := by
  induction lines with
  | nil => exact Search.firstMatch_here ⟨x, rfl⟩
  | cons l ls ih =>
    have below := ih (fun m member => plain m (by simp [member])) (fun m member => present m (by simp [member]))
    have clear := (plain l (by simp)).2
    have size := length_bareTail_pos ls
    obtain ⟨b, l', rfl⟩ := List.exists_cons_of_ne_nil (present l (by simp))
    have other : LF ≠ b := fun same => clear (by simp [same])
    have shape : LF :: (bareTail ((b :: l') :: ls) ++ x) = LF :: (b :: l' ++ LF :: (bareTail ls ++ x)) := by
      simp [bareTail_cons]
    have here : ¬bareTerminator <+: LF :: (b :: l' ++ LF :: (bareTail ls ++ x)) := by
      rw [bareTerminator_eq]
      simp [List.cons_prefix_cons, other]
    have inLine := Search.firstMatch_append (p := [LF]) (s := LF :: (bareTail ls ++ x)) clear
    rw [← bareTerminator_eq, below] at inLine
    rw [shape, Search.firstMatch_skip here, inLine, bareTail_cons]
    simp only [Option.map_some, List.length_append, List.length_cons, Option.some.injEq]
    omega

theorem firstMatch_bareBytes (t : HeaderText) (x : Bytes) :
    Search.firstMatch bareTerminator (t.bareBytes ++ x) = some (t.bareBytes.length - 2) := by
  have skipped := Search.firstMatch_append (p := [LF]) (s := LF :: (bareTail t.lines ++ x)) t.first_plain.2
  rw [← bareTerminator_eq, firstMatch_bareTail x t.lines_plain t.lines_present] at skipped
  have shape : t.bareBytes ++ x = t.first ++ LF :: (bareTail t.lines ++ x) := by simp [bareBytes]
  have size := length_bareTail_pos t.lines
  rw [shape, skipped, length_bareBytes]
  simp only [Option.map_some, Option.some.injEq]
  omega

open BufferedMessage

theorem headerEnd_bare_partial (t : HeaderText) {k : Nat} (short : k < t.bareBytes.length) :
    headerEnd (t.bareBytes.take k) = npos := by
  have clear : CR ∉ t.bareBytes.take k := fun member => t.bareBytes_clear (List.mem_of_mem_take member)
  have noEnd : Search.firstMatch terminator (t.bareBytes.take k) = none := by
    have skipped := Search.firstMatch_append (p := [LF, CR, LF]) (s := []) clear
    rw [← terminator_eq, List.append_nil] at skipped
    rw [skipped]
    rfl
  have size : bareTerminator.length = 2 := rfl
  have whole := firstMatch_bareBytes t []
  rw [List.append_nil, ← List.take_append_drop k t.bareBytes] at whole
  have noBare : Search.firstMatch bareTerminator (t.bareBytes.take k) = none := by
    apply Search.firstMatch_none whole
    have long := length_bareBytes t
    have last := length_bareTail_pos t.lines
    rw [List.take_append_drop, size, List.length_take]
    omega
  simp [headerEnd, findText, noEnd, noBare]

/-- Behind LF LF two bytes are skipped as well: the body starts with its third byte, or
behind a CRLF CRLF that stands in it. -/
theorem headerEnd_bare (t : HeaderText) (x : Bytes) (short : (t.bareBytes ++ x).length + 4 < npos) :
    ∃ k, 2 ≤ k ∧ headerEnd (t.bareBytes ++ x) + 4 = t.bareBytes.length + k ∧ headerEnd (t.bareBytes ++ x) + 4 < npos := by
  have long := length_bareBytes t
  have last := length_bareTail_pos t.lines
  have behind := Search.firstMatch_append (p := [LF, CR, LF]) (s := x) t.bareBytes_clear
  rw [← terminator_eq] at behind
  rw [List.length_append] at short
  cases found : Search.firstMatch terminator x with
  | none =>
    have missing : findText (t.bareBytes ++ x) terminator = npos := by
      simp [findText, behind, found]
    have stop : headerEnd (t.bareBytes ++ x) = t.bareBytes.length - 2 := by
      rw [headerEnd, missing, if_pos rfl]
      simp [findText, firstMatch_bareBytes]
    rw [stop]
    exact ⟨2, Nat.le_refl 2, by omega, by omega⟩
  | some p =>
    have fits := (Search.firstMatch_le found).resolve_right (by decide)
    have there : findText (t.bareBytes ++ x) terminator = p + t.bareBytes.length := by
      simp [findText, behind, found]
    have stop : headerEnd (t.bareBytes ++ x) = p + t.bareBytes.length := by
      rw [headerEnd, there, if_neg (by omega)]
    rw [stop]
    exact ⟨p + 4, by omega, by omega, by omega⟩

theorem headerEnd_partial (t : HeaderText) {k : Nat} (short : k < t.bytes.length) :
    headerEnd (t.bytes.take k) = npos := by
  obtain ⟨noEnd, noBare⟩ := findText_partial t short
  simp [headerEnd, noEnd, noBare]

theorem headerEnd_text (t : HeaderText) (x : Bytes) (short : (t.bytes ++ x).length + 4 < npos) :
    headerEnd (t.bytes ++ x) + 4 = t.bytes.length ∧ headerEnd (t.bytes ++ x) + 4 < npos := by
  have size := four_le_length t
  rw [List.length_append] at short
  have stop : headerEnd (t.bytes ++ x) = t.bytes.length - 4 := by
    rw [headerEnd, findText_text, if_neg (by omega)]
  omega

end HeaderText

namespace BufferedMessage

variable {L : Type} [Line L]

/-! ### What a whole stream leaves -/

/-- The body that a message stores. -/
def bodyOf (m : BufferedMessage L) : Bytes := m.cache.flatten.drop m.header.print.length

theorem Holding.bodyOf {m : BufferedMessage L} {x : Bytes} (holding : Holding m x) : bodyOf m = x := by
  unfold BufferedMessage.bodyOf
  rw [holding.content, List.drop_left]

theorem Holding.readAll {m m' : BufferedMessage L} {x : Bytes} {later : List Bytes} (holding : Holding m x)
    (read : m.readAll later = .ok m') : Holding m' (x ++ later.flatten) := by
  induction later generalizing m x with
  | nil =>
    cases read
    rw [List.flatten_nil, List.append_nil]
    exact holding
  | cons bytes later ih =>
    obtain ⟨m₁, first, rest⟩ := Runs.run_cons.mp read
    rw [List.flatten_cons, ← List.append_assoc]
    exact ih (holding.readFrom first) rest

theorem Holds.readAll {s held : Bytes} (waits : ∀ k, k < s.length → headerEnd (s.take k) = npos)
    {m m' : BufferedMessage L} {early : List Bytes} (holds : Holds m held) (collected : Collected m)
    (read : m.readAll early = .ok m') (front : held ++ early.flatten <+: s) (short : (held ++ early.flatten).length < s.length) :
    Holds m' (held ++ early.flatten) ∧ Collected m' := by
  induction early generalizing m held with
  | nil =>
    cases read
    rw [List.flatten_nil, List.append_nil]
    exact ⟨holds, collected⟩
  | cons bytes early ih =>
    obtain ⟨m₁, first, rest⟩ := Runs.run_cons.mp read
    rw [List.flatten_cons, ← List.append_assoc] at front short ⊢
    have inside : held ++ bytes <+: s := (List.prefix_append _ _).trans front
    have smaller : (held ++ bytes).length < s.length := by
      rw [List.length_append] at short
      omega
    have waiting := waits _ smaller
    rw [← List.prefix_iff_eq_take.mp inside] at waiting
    have step := holds.readFrom first
    rw [if_pos waiting] at step
    exact ih step (collected.readFrom first) rest front short

/-- The read that completes a header stores what follows the four bytes at its end. -/
theorem readFrom_completes {m m' : BufferedMessage L} {held bytes : Bytes} (holds : Holds m held) (collected : Collected m)
    (there : headerEnd (held ++ bytes) ≠ npos) (read : m.readFrom bytes = .ok m') :
    ∃ x, substrFrom (held ++ bytes) (addSize (headerEnd (held ++ bytes)) 4) = .ok x ∧ Holding m' x := by
  have message : m.buffered bytes = held ++ bytes := by
    unfold buffered
    rw [holds.readLength]
    exact store_take holds.buffer
  have kept := collected.readFrom read
  cases readFrom_cases read with
  | body known => exact absurd holds.headerLength known
  | waits unknown missing =>
    rw [message] at missing
    exact absurd missing there
  | opens unknown x header n cut parsed declared =>
    have opened : header.print.length ≠ 0 := by simpa using header.print_ne_nil
    obtain ⟨y, holding⟩ := kept.holding opened
    have content := holding.content
    simp only [settled, (collected.fresh unknown).1, List.nil_append, List.flatten_singleton] at content
    obtain rfl := List.append_cancel_left content
    rw [message] at cut
    exact ⟨_, cut, holding⟩

/-- The reads of a stream that starts with the header `s` and the body `b`, which may
stop before its end: the ones before the header is complete, the one that completes it,
and the ones behind it. -/
structure StreamReads (s b : Bytes) where
  early : List Bytes
  last : Bytes
  later : List Bytes
  rest : Bytes
  stream : early.flatten ++ (last ++ (later.flatten ++ rest)) = s ++ b
  incomplete : early.flatten.length < s.length
  complete : s.length ≤ (early.flatten ++ last).length
  fits : (early.flatten ++ last).length ≤ BUFFER_LENGTH

namespace StreamReads

variable {s b : Bytes}

def reads (r : StreamReads s b) : List Bytes := r.early ++ r.last :: r.later

/-- What the read that completes the header takes of the body. -/
def extra (r : StreamReads s b) : Bytes := b.take ((r.early.flatten ++ r.last).length - s.length)

theorem completing (r : StreamReads s b) : r.early.flatten ++ r.last = s ++ r.extra := by
  have joined := r.stream
  rw [← List.append_assoc] at joined
  have front := congrArg (List.take (r.early.flatten ++ r.last).length) joined
  rw [List.take_left, List.take_append, List.take_of_length_le r.complete] at front
  exact front

theorem short (r : StreamReads s b) : (s ++ r.extra).length + 4 < npos := by
  have fits := r.fits
  rw [r.completing] at fits
  unfold BUFFER_LENGTH at fits
  unfold npos SIZE_RANGE
  omega

theorem body (r : StreamReads s b) : r.extra ++ (r.later.flatten ++ r.rest) = b := by
  have joined := r.stream
  rw [← List.append_assoc, r.completing, List.append_assoc] at joined
  exact List.append_cancel_left joined

theorem holding (r : StreamReads s b) (waits : ∀ k, k < s.length → headerEnd (s.take k) = npos)
    (there : headerEnd (s ++ r.extra) ≠ npos) {m : BufferedMessage L} (read : (new : BufferedMessage L).readAll r.reads = .ok m) :
    ∃ x, substrFrom (s ++ r.extra) (addSize (headerEnd (s ++ r.extra)) 4) = .ok x ∧ Holding m (x ++ r.later.flatten) := by
  obtain ⟨m₁, early, rest⟩ := Runs.run_append.mp read
  obtain ⟨m₂, last, later⟩ := Runs.run_cons.mp rest
  have front : [] ++ r.early.flatten <+: s := by
    have inside : r.early.flatten <+: s ++ b := ⟨_, r.stream⟩
    exact List.prefix_of_prefix_length_le inside (List.prefix_append s b) (Nat.le_of_lt r.incomplete)
  obtain ⟨holds, collected⟩ := Holds.readAll waits holds_new collected_new early front r.incomplete
  rw [List.nil_append] at holds
  rw [← r.completing] at there ⊢
  obtain ⟨x, cut, holding⟩ := readFrom_completes holds collected there last
  exact ⟨x, cut, holding.readAll later⟩

end StreamReads

omit [Line L] in
theorem substrFrom_drop {s x y : Bytes} {p k : Nat} (cut : substrFrom (s ++ x) (addSize p 4) = .ok y)
    (place : p + 4 = s.length + k) (small : p + 4 < npos) : k ≤ x.length ∧ y = x.drop k := by
  have range := npos_lt small
  rw [addSize_eq (by omega), place] at cut
  unfold substrFrom at cut
  split at cut
  · cases cut
  · rename_i inside
    rw [List.length_append] at inside
    rw [← List.drop_drop, List.drop_left] at cut
    exact ⟨by omega, (Except.ok.inj cut).symm⟩

theorem StreamReads.body_stored {t : HeaderText} {s b : Bytes} (same : s = t.bytes) (r : StreamReads s b) (whole : r.rest = [])
    {m : BufferedMessage L} (read : (new : BufferedMessage L).readAll r.reads = .ok m) : bodyOf m = b := by
  subst same
  obtain ⟨place, there⟩ := HeaderText.headerEnd_text t r.extra r.short
  obtain ⟨x, cut, holding⟩ := r.holding (fun k => HeaderText.headerEnd_partial t) (by omega) read
  obtain ⟨-, rfl⟩ := substrFrom_drop (k := 0) cut place there
  have body := r.body
  rw [whole, List.append_nil] at body
  rw [holding.bodyOf, List.drop_zero, body]

theorem StreamReads.body_cut {t : HeaderText} {b : Bytes} (r : StreamReads t.bareBytes b)
    {m : BufferedMessage L} (read : (new : BufferedMessage L).readAll r.reads = .ok m) : (bodyOf m).length + 2 ≤ b.length := by
  obtain ⟨k, two, place, there⟩ := HeaderText.headerEnd_bare t r.extra r.short
  obtain ⟨x, cut, holding⟩ := r.holding (fun k => HeaderText.headerEnd_bare_partial t) (by omega) read
  obtain ⟨inside, rfl⟩ := substrFrom_drop cut place there
  have size := congrArg List.length r.body
  simp only [List.length_append] at size
  rw [holding.bodyOf, List.length_append, List.length_drop]
  omega

/-- A header whose lines end in LF is never read as the one whose lines end in CRLF,
however the two streams are cut: the body loses at least two bytes. -/
theorem bare_never_same (t : HeaderText) (b : Bytes) (bare : StreamReads t.bareBytes b)
    (withCrlf : StreamReads (HeaderText.toCrlf t.bareBytes) b) (whole : withCrlf.rest = []) (m : BufferedMessage L)
    (read : (new : BufferedMessage L).readAll withCrlf.reads = .ok m) :
    ¬∃ m', (new : BufferedMessage L).readAll bare.reads = .ok m' ∧ m'.header = m.header ∧ bodyOf m' = bodyOf m := by
  intro ⟨m', bareRead, _, same⟩
  have stored := withCrlf.body_stored (HeaderText.toCrlf_bareBytes t) whole read
  have cut := bare.body_cut bareRead
  rw [same, stored] at cut
  omega

/-- One read takes the whole stream. -/
def oneRead (s b : Bytes) (fits : 0 < s.length ∧ (s ++ b).length ≤ BUFFER_LENGTH) : StreamReads s b where
  early := []
  last := s ++ b
  later := []
  rest := []
  stream := by simp
  incomplete := fits.1
  complete := by simp
  fits := by simpa using fits.2

def bareGet : HeaderText := .ofLines (lit "GET / HTTP/1.1") [lit "Host: h"] (by decide)

theorem bare_get_differs :
    ∃ m : ClientRequest, new.readAll (oneRead (HeaderText.toCrlf bareGet.bareBytes) (lit "body") (by decide)).reads = .ok m ∧
      ¬∃ m', new.readAll (oneRead bareGet.bareBytes (lit "body") (by decide)).reads = .ok m' ∧
        m'.header = m.header ∧ bodyOf m' = bodyOf m := by
  have ends : (Runs.run BufferedMessage.readFrom (new : ClientRequest)
      (oneRead (HeaderText.toCrlf bareGet.bareBytes) (lit "body") (by decide)).reads).isOk = true := by
    decide +kernel
  obtain ⟨m, read⟩ := Runs.run_ends ends
  exact ⟨m, read, bare_never_same bareGet (lit "body") (oneRead bareGet.bareBytes (lit "body") (by decide))
    (oneRead (HeaderText.toCrlf bareGet.bareBytes) (lit "body") (by decide)) rfl m read⟩

/-- Without a body the four bytes that are skipped are not there. -/
theorem bare_get_out_of_range :
    (new : ClientRequest).readFrom (lit "GET / HTTP/1.1\n\n") = .error .outOfRange ∧
    ((new : ClientRequest).readFrom (HeaderText.toCrlf (lit "GET / HTTP/1.1\n\n"))).isOk = true := by
  decide +kernel

end BufferedMessage

end ProxyServer
