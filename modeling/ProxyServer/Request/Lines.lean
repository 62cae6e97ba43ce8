import Mathlib.Data.List.TakeWhile
import ProxyServer.Foundation.Runs
import ProxyServer.Request.HeaderParser

/-!
# Texts that the parsers accept

What the constructors of `header_parser` ask of a text, said of the text itself:
when one of them does not throw, and what it reads.
-/

namespace ProxyServer

/-! ### Searching -/

/-- What stands behind the first `c`, or the whole text when there is none: from
`npos`, `end + 1` starts again at the first byte. -/
def behind (c : UInt8) (s : Bytes) : Bytes := if c ∈ s then (s.dropWhile (· ≠ c)).tail else s

/-- What stands before the first `c`, or the whole text when there is none. -/
def before (c : UInt8) (s : Bytes) : Bytes := s.takeWhile (· ≠ c)

theorem before_append {l r : Bytes} {c : UInt8} (absent : c ∉ l) : before c (l ++ c :: r) = l := by
  have all : ∀ b ∈ l, decide (b ≠ c) = true := by
    intro b member
    exact decide_eq_true (fun same => absent (same ▸ member))
  unfold before
  rw [List.takeWhile_append_of_pos all]
  simp

theorem before_absent {s : Bytes} {c : UInt8} (absent : c ∉ s) : before c s = s := by
  unfold before
  rw [List.takeWhile_eq_self_iff]
  intro b member
  exact decide_eq_true (fun same => absent (same ▸ member))

theorem behind_append {l r : Bytes} {c : UInt8} (absent : c ∉ l) : behind c (l ++ c :: r) = r := by
  have all : ∀ b ∈ l, decide (b ≠ c) = true := by
    intro b member
    exact decide_eq_true (fun same => absent (same ▸ member))
  unfold behind
  rw [if_pos (by simp), List.dropWhile_append_of_pos all]
  simp

theorem behind_absent {s : Bytes} {c : UInt8} (absent : c ∉ s) : behind c s = s := if_neg absent

theorem find_absent {s : Bytes} {c : UInt8} {pos : Nat} (absent : c ∉ s.drop pos) : find s c pos = npos := by
  have none_in : (s.drop pos).findIdx? (fun x => decide (x = c)) = none := by
    rw [List.findIdx?_eq_none_iff]
    intro b member
    exact decide_eq_false (fun same => absent (same ▸ member))
  simp [find, Search.findElem, none_in]

theorem find_split {p l r : Bytes} {c : UInt8} {s : Bytes} {pos : Nat} (shape : s = p ++ (l ++ c :: r))
    (start : p.length = pos) (absent : c ∉ l) : find s c pos = pos + l.length := by
  subst shape start
  exact find_append absent

/-- An occurrence at or after `pos` and the text before it. -/
theorem find_present {s : Bytes} {c : UInt8} (pos : Nat) (member : c ∈ s.drop pos) (fits : pos ≤ s.length) :
    ∃ l r, s.drop pos = l ++ c :: r ∧ c ∉ l ∧ find s c pos = pos + l.length ∧ pos + l.length < s.length := by
  obtain ⟨l, r, shape, absent⟩ := List.eq_append_cons_of_mem member
  have whole : s = s.take pos ++ (l ++ c :: r) := by rw [← shape, List.take_append_drop]
  have size := congrArg List.length whole
  simp only [List.length_append, List.length_take, List.length_cons] at size
  exact ⟨l, r, shape, absent, find_split whole (by simpa using fits) absent, by omega⟩

variable {s : Bytes} {c : UInt8}

theorem addSize_npos {n : Nat} (pos : 0 < n) (small : n < SIZE_RANGE) : addSize npos n = n - 1 := by
  unfold addSize npos SIZE_RANGE at *
  omega

theorem drop_find (short : s.length < npos) : s.drop (addSize (find s c 0) 1) = behind c s := by
  by_cases member : c ∈ s
  · obtain ⟨l, r, shape, absent, found, low⟩ := find_present (s := s) 0 member (Nat.zero_le _)
    have small := npos_lt short
    rw [found, addSize_eq (by omega)]
    rw [List.drop_zero] at shape
    rw [shape, behind_append absent]
    simp
  · rw [find_absent (by simpa using member), behind_absent member]
    rw [addSize_npos (by decide) (by decide)]
    rfl

theorem take_find (short : s.length < npos) : s.take (find s c 0) = before c s := by
  by_cases member : c ∈ s
  · obtain ⟨l, r, shape, absent, found, low⟩ := find_present (s := s) 0 member (Nat.zero_le _)
    rw [found]
    rw [List.drop_zero] at shape
    rw [shape, before_append absent]
    simp
  · rw [find_absent (by simpa using member), before_absent member]
    exact List.take_of_length_le (by omega)

variable {pos : Nat}

theorem substr_find (short : s.length < npos) (fits : pos ≤ s.length) :
    substr s pos (subSize (find s c pos) pos) = .ok (before c (s.drop pos)) := by
  have range := npos_lt short
  unfold substr
  rw [if_neg (by omega)]
  by_cases member : c ∈ s.drop pos
  · obtain ⟨l, r, shape, absent, found, low⟩ := find_present _ member fits
    rw [found, subSize_eq (by omega) (by omega), shape, before_append absent]
    simp
  · rw [find_absent member, before_absent member, subSize_eq (by omega) (by decide)]
    rw [List.take_of_length_le (by rw [List.length_drop]; omega)]

/-- What follows an occurrence starts within the text, and so does the text. -/
theorem next_le (short : s.length < npos) (fits : pos ≤ s.length) : addSize (find s c pos) 1 ≤ s.length := by
  by_cases member : c ∈ s.drop pos
  · obtain ⟨l, r, _, absent, found, low⟩ := find_present _ member fits
    have small := npos_lt short
    rw [found, addSize_eq (by omega)]
    omega
  · rw [find_absent member, addSize_npos (by decide) (by decide)]
    exact Nat.zero_le _

/-! ### First lines -/

/-- The text starts with a number that is an `int`. -/
def IsInt (s : Bytes) : Prop :=
  let (sign, s) := takeSign (s.dropWhile isSpace)
  let digits := s.takeWhile isDigit
  digits ≠ [] ∧ -2 ^ 31 ≤ sign * decimal digits ∧ sign * decimal digits < 2 ^ 31

theorem stoi_ok_iff (s : Bytes) : (stoi s).isOk = true ↔ IsInt s := by
  unfold stoi IsInt
  generalize takeSign (s.dropWhile isSpace) = signed
  obtain ⟨sign, digits⟩ := signed
  dsimp only
  by_cases empty : digits.takeWhile isDigit = []
  · simp [empty, Except.isOk, Except.toBool]
  · rw [if_neg empty]
    split
    · rename_i outside
      constructor
      · intro ok
        cases ok
      · intro inside
        omega
    · rename_i inside
      exact iff_of_true rfl ⟨empty, by omega, by omega⟩

/-- The address starts with '/' or has a '/' behind its scheme. Without a colon the
search for that '/' starts at the third byte of the line: `npos + 3` is 2. -/
def RequestLine.Addressed (line : Bytes) : Prop :=
  (behind SPACE line).head? = some SLASH ∨
    SLASH ∈ if COLON ∈ behind SPACE line then ((behind SPACE line).dropWhile (· ≠ COLON)).drop 3
      else line.drop 2

/-- The word behind the first blank is a number. -/
def ResponseLine.Coded (line : Bytes) : Prop := IsInt (before SPACE (behind SPACE line))

theorem substr_ok_iff {s : Bytes} {pos : Nat} (len : Nat) : (substr s pos len).isOk = true ↔ pos ≤ s.length := by
  unfold substr
  split
  · rename_i outside
    exact iff_of_false (fun ok => by cases ok) (by omega)
  · exact iff_of_true rfl (by omega)

theorem substr_ok {s : Bytes} {pos : Nat} (len : Nat) (fits : pos ≤ s.length) :
    substr s pos len = .ok ((s.drop pos).take len) := if_neg (by omega)

theorem charAt_drop (s : Bytes) (pos : Nat) : charAt s pos = SLASH ↔ (s.drop pos).head? = some SLASH := by
  unfold charAt
  rw [List.head?_drop, List.getD_eq_getElem?_getD]
  cases s[pos]? with
  | none => simp [SLASH]
  | some b => simp

/-- A '/' is found if and only if its place lies within the text. -/
theorem find_le_iff (short : s.length < npos) : find s c pos ≤ s.length ↔ c ∈ s.drop pos := by
  constructor
  · intro low
    by_contra absent
    rw [find_absent absent] at low
    omega
  · intro member
    have fits : pos ≤ s.length := by
      by_contra far
      rw [List.drop_eq_nil_of_le (by omega)] at member
      cases member
    obtain ⟨l, r, _, _, found, low⟩ := find_present _ member fits
    omega

/-- What is found stands at its place. -/
theorem drop_found (short : s.length < npos) (inside : find s c pos ≤ s.length) :
    (s.drop (find s c pos)).head? = some c := by
  have member := (find_le_iff short).mp inside
  obtain ⟨l, r, shape, absent, place, low⟩ := find_present (s := s) pos member (by
    by_contra far
    rw [List.drop_eq_nil_of_le (by omega)] at member
    cases member)
  rw [place, ← List.drop_drop, shape, List.drop_left]
  rfl

theorem find_le_npos (short : s.length < npos) : find s c pos ≤ npos := by
  by_cases member : c ∈ s.drop pos
  · have inside := (find_le_iff short).mpr member
    omega
  · rw [find_absent member]

theorem subSize_ne_zero {a b : Nat} (left : a ≤ npos) (right : b ≤ npos) (different : a ≠ b) : subSize a b ≠ 0 := by
  unfold subSize
  unfold npos SIZE_RANGE at *
  omega

theorem scheme_drop {line : Bytes} (short : line.length + 3 < npos) :
    line.drop (addSize (find line COLON (addSize (find line SPACE 0) 1)) 3) =
      if COLON ∈ behind SPACE line then ((behind SPACE line).dropWhile (· ≠ COLON)).drop 3
      else line.drop 2 := by
  have narrow : line.length < npos := by omega
  have fits := next_le (c := SPACE) narrow (Nat.zero_le _)
  rw [← drop_find narrow]
  split
  · rename_i member
    obtain ⟨l, r, shape, absent, found, low⟩ := find_present _ member fits
    have range := npos_lt short
    have all : ∀ b ∈ l, decide (b ≠ COLON) = true := by
      intro b member
      exact decide_eq_true (fun same => absent (same ▸ member))
    rw [found, addSize_eq (by omega), shape, List.dropWhile_append_of_pos all]
    rw [← List.drop_drop, ← List.drop_drop, shape, List.drop_left]
    simp
  · rename_i absent
    rw [find_absent absent, addSize_npos (by decide) (by decide)]

/-- `request_line(std::string const &)` throws exactly when the address has no '/'. -/
theorem RequestLine.parse_ok_iff {line : Bytes} (short : line.length + 3 < npos) :
    (RequestLine.parse line).isOk = true ↔ Addressed line := by
  have narrow : line.length < npos := by omega
  have start := next_le (c := SPACE) narrow (Nat.zero_le _)
  have stop := next_le (c := SPACE) narrow start
  unfold RequestLine.parse Addressed
  rw [← scheme_drop short, ← drop_find narrow, ← charAt_drop]
  simp only [substr_ok _ (Nat.zero_le _), substr_ok _ stop, bind, Except.bind]
  generalize addSize (find line SPACE 0) 1 = first at *
  by_cases slash : charAt line first = SLASH
  · rw [if_neg (not_not_intro slash), substr_ok _ start]
    exact iff_of_true rfl (Or.inl slash)
  · rw [if_pos slash, or_iff_right slash, ← find_le_iff narrow,
      ← substr_ok_iff (subSize (find line SPACE first) _)]
    generalize substr line _ _ = url
    cases url with
    | error e => exact Iff.rfl
    | ok url => exact Iff.rfl

/-- The url is read from a '/' on. -/
theorem RequestLine.url_slash {line : Bytes} {l : RequestLine} (short : line.length < npos)
    (read : RequestLine.parse line = .ok l) : l.url.head? = some SLASH := by
  have start := next_le (c := SPACE) short (Nat.zero_le _)
  have stop := next_le (c := SPACE) short start
  unfold RequestLine.parse at read
  simp only [substr_ok _ (Nat.zero_le _), substr_ok _ stop, bind, Except.bind] at read
  generalize addSize (find line SPACE 0) 1 = first at *
  by_cases slash : charAt line first = SLASH
  · rw [if_neg (not_not_intro slash), substr_find short start] at read
    cases read
    rw [charAt_drop] at slash
    obtain ⟨rest, shape⟩ := List.head?_eq_some_iff.mp slash
    dsimp only
    rw [shape, before, List.takeWhile_cons_of_pos (by decide)]
    rfl
  · rw [if_pos slash] at read
    generalize addSize (find line COLON first) 3 = scheme at *
    obtain ⟨url, found, read⟩ := Runs.bind_ok.mp read
    cases read
    have inside : find line SLASH scheme ≤ line.length := (substr_ok_iff _).mp (by rw [found]; rfl)
    rw [substr_ok _ inside] at found
    cases found
    have isSlash := drop_found short inside
    have elsewhere : find line SPACE first ≠ find line SLASH scheme := by
      intro same
      have isSpace : (line.drop (find line SPACE first)).head? = some SPACE :=
        drop_found short (by rw [same]; exact inside)
      rw [same, isSlash] at isSpace
      cases isSpace
    have some_taken : subSize (find line SPACE first) (find line SLASH scheme) ≠ 0 := by
      have limit : find line SPACE first ≤ npos := find_le_npos short
      exact subSize_ne_zero limit (by omega) elsewhere
    rw [List.head?_take, if_neg some_taken]
    exact isSlash

/-- `response_line(std::string const &)` throws exactly when the code is not a number. -/
theorem ResponseLine.parse_ok_iff {line : Bytes} (short : line.length < npos) :
    (ResponseLine.parse line).isOk = true ↔ Coded line := by
  have start := next_le (c := SPACE) short (Nat.zero_le _)
  have stop := next_le (c := SPACE) short start
  unfold ResponseLine.parse Coded
  rw [← stoi_ok_iff, ← drop_find short]
  simp only [substr_ok _ (Nat.zero_le _), substr_ok _ stop, substr_find short start, bind, Except.bind]
  generalize stoi _ = code
  cases code with
  | error e => exact Iff.rfl
  | ok code => exact Iff.rfl

/-! ### Property lines -/

/-- The property lines of what stands behind the end of a line. A carriage return
ends a line together with the byte behind it, whatever that is, and an empty line
ends the header; what follows the last carriage return is a line as well. -/
inductive Lines : Bytes → List Bytes → Prop
  | last {s : Bytes} (absent : CR ∉ s) : Lines s [s]
  | blank (s : Bytes) : Lines (CR :: s) []
  | line {l s : Bytes} {rest : List Bytes} (b : UInt8) (absent : CR ∉ l) (present : l ≠ [])
      (below : Lines s rest) : Lines (l ++ CR :: b :: s) (l :: rest)

/-- The first line of a text and its property lines. -/
inductive Divides : Bytes → Bytes → List Bytes → Prop
  | single {s : Bytes} (absent : CR ∉ s) : Divides s s []
  | lines {l s : Bytes} {rest : List Bytes} (b : UInt8) (absent : CR ∉ l) (below : Lines s rest) :
      Divides (l ++ CR :: b :: s) l rest

variable {message : Bytes} {lines : List Bytes} {fuel stop : Nat}

theorem Lines.length_le {l : Bytes} (divided : Lines message lines) (member : l ∈ lines) :
    l.length ≤ message.length := by
  induction divided with
  | last absent =>
    rw [List.mem_singleton.mp member]
  | blank s => cases member
  | line b absent present below ih =>
    simp only [List.length_append, List.length_cons]
    rcases List.mem_cons.mp member with same | later
    · rw [same]
      omega
    · have small := ih later
      omega

theorem Divides.length_le {l first : Bytes} (divided : Divides message first lines) (member : l ∈ first :: lines) :
    l.length ≤ message.length := by
  cases divided with
  | single absent => rw [List.mem_singleton.mp member]
  | lines b absent below =>
    simp only [List.length_append, List.length_cons]
    rcases List.mem_cons.mp member with same | later
    · rw [same]
      omega
    · have small := below.length_le later
      omega

theorem Lines.clear {l : Bytes} (divided : Lines message lines) (member : l ∈ lines) : CR ∉ l := by
  induction divided with
  | last absent =>
    rw [List.mem_singleton.mp member]
    exact absent
  | blank s => cases member
  | line b absent present below ih =>
    rcases List.mem_cons.mp member with same | later
    · rw [same]
      exact absent
    · exact ih later

theorem Divides.clear {l first : Bytes} (divided : Divides message first lines) (member : l ∈ first :: lines) : CR ∉ l := by
  cases divided with
  | single absent =>
    rw [List.mem_singleton.mp member]
    exact absent
  | lines b absent below =>
    rcases List.mem_cons.mp member with same | later
    · rw [same]
      exact absent
    · exact below.clear later

/-- One line of the loop, between its start and the next carriage return. -/
theorem propertyLines_line {l r : Bytes} (short : message.length < npos) (inside : stop < message.length)
    (shape : message.drop (stop + 2) = l ++ CR :: r) (absent : CR ∉ l) (present : l ≠ []) :
    HttpHeader.propertyLines message (fuel + 1) stop =
      (HttpHeader.propertyLines message fuel (stop + 2 + l.length)).map (l :: ·) := by
  have range := npos_lt short
  have fits : stop + 2 ≤ message.length := by
    by_contra far
    rw [List.drop_eq_nil_of_le (by omega)] at shape
    simp at shape
  have whole : message = message.take (stop + 2) ++ (l ++ CR :: r) := by
    rw [← shape, List.take_append_drop]
  have size : l.length ≠ 0 := by simpa using present
  have found : find message CR (stop + 2) = stop + 2 + l.length := find_split whole (by simpa using fits) absent
  have line := substr_find (c := CR) short fits
  rw [shape, before_append absent, found] at line
  rw [HttpHeader.propertyLines, if_pos inside, addSize_eq (by omega)]
  simp only [found]
  rw [if_neg (by omega), line]
  simp only [bind, Except.bind, pure, Except.pure]
  cases HttpHeader.propertyLines message fuel (stop + 2 + l.length) with
  | error e => rfl
  | ok rest => rfl

/-- Without a carriage return the rest of the text is the last line. -/
theorem propertyLines_last (short : message.length < npos) (fits : stop + 2 ≤ message.length)
    (absent : CR ∉ message.drop (stop + 2)) :
    HttpHeader.propertyLines message (fuel + 1) stop = .ok [message.drop (stop + 2)] := by
  have range := npos_lt short
  have found : find message CR (stop + 2) = npos := find_absent absent
  have line := substr_find (c := CR) short fits
  rw [before_absent absent, found] at line
  have ended : HttpHeader.propertyLines message fuel npos = .ok [] := by
    cases fuel with
    | zero => rfl
    | succ fuel => rw [HttpHeader.propertyLines, if_neg (by omega)]
  rw [HttpHeader.propertyLines, if_pos (by omega), addSize_eq (by omega)]
  simp only [found]
  rw [if_neg (by omega), line]
  simp only [bind, Except.bind, ended, pure, Except.pure]

theorem propertyLines_blank {r : Bytes} (short : message.length < npos)
    (shape : message.drop (stop + 2) = CR :: r) :
    HttpHeader.propertyLines message (fuel + 1) stop = .ok [] := by
  have range := npos_lt short
  have size := congrArg List.length shape
  simp only [List.length_drop, List.length_cons] at size
  have whole : message = message.take (stop + 2) ++ ([] ++ CR :: r) := by
    rw [List.nil_append, ← shape, List.take_append_drop]
  have found : find message CR (stop + 2) = stop + 2 + 0 :=
    find_split whole (by rw [List.length_take]; omega) (by simp)
  rw [HttpHeader.propertyLines, if_pos (by omega), addSize_eq (by omega)]
  simp only [found]
  rw [if_pos trivial]

theorem propertyLines_outside (short : message.length + 3 < npos) (inside : stop < message.length)
    (outside : message.length < stop + 2) :
    HttpHeader.propertyLines message (fuel + 1) stop = .error .outOfRange := by
  have range := npos_lt short
  have found : find message CR (stop + 2) = npos := by
    apply find_absent
    rw [List.drop_eq_nil_of_le (by omega)]
    exact List.not_mem_nil
  rw [HttpHeader.propertyLines, if_pos inside, addSize_eq (by omega)]
  simp only [found]
  rw [if_neg (by omega)]
  unfold substr
  rw [if_pos outside]
  rfl

theorem drop_line {l s : Bytes} {b : UInt8} (message : Bytes) (stop : Nat) (shape : message.drop stop = l ++ CR :: b :: s) :
    message.drop (stop + l.length + 2) = s := by
  rw [Nat.add_assoc, ← List.drop_drop, shape, ← List.drop_drop, List.drop_left]
  rfl

theorem propertyLines_ok (short : message.length < npos) (fits : stop + 2 ≤ message.length)
    (enough : message.length ≤ stop + fuel) (divided : Lines (message.drop (stop + 2)) lines) :
    HttpHeader.propertyLines message fuel stop = .ok lines := by
  obtain ⟨fuel, rfl⟩ : ∃ n, fuel = n + 1 := ⟨fuel - 1, by omega⟩
  generalize tail : message.drop (stop + 2) = s at divided
  induction divided generalizing stop fuel with
  | last absent =>
    subst tail
    exact propertyLines_last short fits absent
  | blank s => exact propertyLines_blank short tail
  | @line l s rest b absent present below ih =>
    have size := congrArg List.length tail
    simp only [List.length_drop, List.length_append, List.length_cons] at size
    obtain ⟨fuel, rfl⟩ : ∃ n, fuel = n + 1 := ⟨fuel - 1, by omega⟩
    rw [propertyLines_line short (by omega) tail absent present]
    rw [ih (by omega) fuel (by omega) (drop_line _ _ tail)]
    rfl

theorem propertyLines_divided (short : message.length + 3 < npos) (inside : stop < message.length)
    (enough : message.length ≤ stop + fuel) (ok : HttpHeader.propertyLines message fuel stop = .ok lines) :
    stop + 2 ≤ message.length ∧ Lines (message.drop (stop + 2)) lines := by
  have narrow : message.length < npos := by omega
  induction fuel generalizing stop lines with
  | zero => omega
  | succ fuel ih =>
    by_cases fits : stop + 2 ≤ message.length
    · refine ⟨fits, ?_⟩
      by_cases member : CR ∈ message.drop (stop + 2)
      · obtain ⟨l, r, shape, absent, found, low⟩ := find_present _ member fits
        by_cases empty : l = []
        · subst empty
          rw [List.nil_append] at shape
          rw [propertyLines_blank narrow shape] at ok
          cases ok
          rw [shape]
          exact Lines.blank r
        · rw [propertyLines_line narrow inside shape absent empty] at ok
          obtain ⟨rest, later, rfl⟩ := Runs.map_ok.mp ok
          obtain ⟨room, below⟩ := ih low (by omega) later
          have size := congrArg List.length shape
          simp only [List.length_drop, List.length_append, List.length_cons] at size
          obtain ⟨b, s, rfl⟩ : ∃ b s, r = b :: s := by
            apply List.exists_cons_of_length_pos
            omega
          rw [drop_line _ _ shape] at below
          rw [shape]
          exact Lines.line b absent empty below
      · rw [propertyLines_last narrow fits member] at ok
        cases ok
        exact Lines.last member
    · rw [propertyLines_outside short inside (by omega)] at ok
      cases ok

namespace HttpHeader

variable {L : Type} [Line L] {first : Bytes}

theorem parse_divided (short : message.length < npos) (divided : Divides message first lines) :
    (parse message : Except CppError (HttpHeader L)) = (Line.parse first).map (fun requestLine =>
      dropProxyConnection { requestLine, properties := lines.map HeaderProperty.parse }) := by
  have head : ∀ stop, find message CR 0 = stop → message.take stop = first →
      propertyLines message message.length stop = .ok lines →
      (parse message : Except CppError (HttpHeader L)) = (Line.parse first).map (fun requestLine =>
        dropProxyConnection { requestLine, properties := lines.map HeaderProperty.parse }) := by
    intro stop found taken read
    unfold parse
    simp only [found, substr_ok _ (Nat.zero_le _), List.drop_zero, taken, read, bind, Except.bind, pure,
      Except.pure]
    cases (Line.parse first : Except CppError L) with
    | error e => rfl
    | ok requestLine => rfl
  cases divided with
  | single absent =>
    apply head npos (find_absent (by simpa using absent)) (List.take_of_length_le (by omega))
    cases message.length with
    | zero => rfl
    | succ n => rw [propertyLines, if_neg (by omega)]
  | @lines _ s _ b absent below =>
    apply head (0 + first.length) (find_split (p := []) (r := b :: s) rfl rfl absent)
    · rw [Nat.zero_add]
      exact List.take_left
    · have next := drop_line (first ++ CR :: b :: s) 0 rfl
      apply propertyLines_ok short
      · simp
      · omega
      · rw [next]
        exact below

theorem divides_of_parse {h : HttpHeader L} (short : message.length + 3 < npos) (ok : parse message = .ok h) :
    ∃ first lines, Divides message first lines := by
  by_cases member : CR ∈ message
  · obtain ⟨l, r, shape, absent, found, low⟩ := find_present (s := message) 0 member (Nat.zero_le _)
    rw [List.drop_zero] at shape
    have read : ∃ lines, propertyLines message message.length (0 + l.length) = .ok lines := by
      unfold parse at ok
      simp only [found, substr_ok _ (Nat.zero_le _), bind, Except.bind] at ok
      split at ok
      · cases ok
      · split at ok
        · cases ok
        · rename_i lines read
          exact ⟨lines, read⟩
    obtain ⟨lines, read⟩ := read
    obtain ⟨room, below⟩ := propertyLines_divided short low (by omega) read
    have size := congrArg List.length shape
    simp only [List.length_append, List.length_cons] at size
    obtain ⟨b, s, rfl⟩ : ∃ b s, r = b :: s := by
      apply List.exists_cons_of_length_pos
      omega
    rw [drop_line _ 0 shape] at below
    rw [shape]
    exact ⟨l, lines, Divides.lines b absent below⟩
  · exact ⟨message, [], Divides.single member⟩

/-- A header that is read is that of its lines. -/
theorem parsed_of_parse {h : HttpHeader L} (short : message.length + 3 < npos) (ok : parse message = .ok h) :
    ∃ first lines requestLine, Divides message first lines ∧ Line.parse first = .ok requestLine ∧
      dropProxyConnection { requestLine, properties := lines.map HeaderProperty.parse } = h := by
  obtain ⟨first, lines, divided⟩ := divides_of_parse short ok
  rw [parse_divided (by omega) divided] at ok
  obtain ⟨requestLine, read, same⟩ := Runs.map_ok.mp ok
  exact ⟨first, lines, requestLine, divided, read, same⟩

theorem find_eraseP_of_ne {name other : Bytes} (different : other ≠ name) (properties : List HeaderProperty) :
    (properties.eraseP (·.name = name)).find? (·.name = other) = properties.find? (·.name = other) := by
  induction properties with
  | nil => rfl
  | cons p rest ih =>
    by_cases same : p.name = name
    · simp [same, different.symm]
    · by_cases here : p.name = other
      · simp [here, different]
      · simp [same, here, ih]

omit [Line L] in
theorem find_dropProxyConnection {other : Bytes} (h : HttpHeader L) (connection : other ≠ lit "connection")
    (proxy : other ≠ lit "proxy-connection") :
    h.dropProxyConnection.properties.find? (·.name = other) = h.properties.find? (·.name = other) := by
  unfold dropProxyConnection
  split
  · dsimp only
    split
    · exact find_eraseP_of_ne proxy _
    · unfold setProperty
      rw [find_setIn_of_ne _ connection]
      exact find_eraseP_of_ne proxy _
  · rfl

end HttpHeader

/-! ### Declared lengths -/

theorem HeaderProperty.parse_eq {line : Bytes} (short : line.length < npos) :
    HeaderProperty.parse line =
      { name := toLower (before COLON line), value := (behind COLON line).dropWhile (· = SPACE) } := by
  unfold HeaderProperty.parse
  rw [← take_find short, ← drop_find short]

/-- The value of the first Content-Length line is empty or starts with an `int`. A
line without a colon is its own value. -/
def Sized (lines : List Bytes) : Prop :=
  ∀ line, lines.find? (fun line => toLower (before COLON line) = lit "content-length") = some line →
    let value := (behind COLON line).dropWhile (· = SPACE)
    value ≠ [] → IsInt value

end ProxyServer
