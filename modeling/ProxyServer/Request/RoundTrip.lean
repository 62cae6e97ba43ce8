import ProxyServer.Request.FirstLines
import ProxyServer.Request.HeaderText

/-!
# Headers that are read as they were written

`headers_kept` is the round trip of `http_header` and `to_string`. `eliminated_iff`
says what becomes of Proxy-Connection: `erase_property` takes out the first property
of that name, so a header that names it twice keeps it.
-/

namespace ProxyServer

/-! ### Property lines -/

/-- A property line as a client or a server writes it. -/
structure PropertyText where
  name : Bytes
  blanks : Nat
  value : Bytes
  name_clear : COLON ∉ name ∧ CR ∉ name
  value_clear : CR ∉ value
  value_start : value.head? ≠ some SPACE

namespace PropertyText

def ofParts (name : Bytes) (blanks : Nat) (value : Bytes)
    (clear : (COLON ∉ name ∧ CR ∉ name) ∧ CR ∉ value ∧ value.head? ≠ some SPACE) : PropertyText where
  name
  blanks
  value
  name_clear := clear.1
  value_clear := clear.2.1
  value_start := clear.2.2

def bytes (p : PropertyText) : Bytes := p.name ++ COLON :: (List.replicate p.blanks SPACE ++ p.value)

def property (p : PropertyText) : HeaderProperty := { name := toLower p.name, value := p.value }

def IsProxyConnection (p : PropertyText) : Prop := p.property.name = lit "proxy-connection"

instance (p : PropertyText) : Decidable p.IsProxyConnection := inferInstanceAs (Decidable (_ = _))

theorem bytes_present (p : PropertyText) : p.bytes ≠ [] := by
  simp [bytes]

theorem bytes_clear (p : PropertyText) : CR ∉ p.bytes := by
  intro member
  rcases List.mem_append.mp member with inName | rest
  · exact p.name_clear.2 inName
  · rcases List.mem_cons.mp rest with colon | rest
    · simp [CR, COLON] at colon
    · rcases List.mem_append.mp rest with blank | inValue
      · have same := (List.mem_replicate.mp blank).2
        simp [CR, SPACE] at same
      · exact p.value_clear inValue

theorem skip_blanks (p : PropertyText) :
    (List.replicate p.blanks SPACE ++ p.value).dropWhile (· = SPACE) = p.value := by
  rw [List.dropWhile_append_of_pos (by simp)]
  have start := p.value_start
  cases value : p.value with
  | nil => rfl
  | cons b rest =>
    rw [value] at start
    have other : b ≠ SPACE := by simpa using start
    simp [other]

theorem parse_bytes (p : PropertyText) (short : p.bytes.length < npos) :
    HeaderProperty.parse p.bytes = p.property := by
  rw [HeaderProperty.parse_eq short, bytes, before_append p.name_clear.1, behind_append p.name_clear.1, skip_blanks]
  rfl

end PropertyText

theorem toLowerByte_fixed (b : UInt8) : toLowerByte (toLowerByte b) = toLowerByte b := by
  unfold toLowerByte
  by_cases upper : 65 ≤ b ∧ b ≤ 90
  · rw [if_pos upper, if_neg]
    simp only [UInt8.le_iff_toNat_le, UInt8.toNat_add, UInt8.toNat_ofNat] at upper ⊢
    omega
  · rw [if_neg upper, if_neg upper]

theorem toLowerByte_inj_of_not_letter {b c : UInt8} (same : toLowerByte b = c) (notLetter : c.toNat < 97) : b = c := by
  unfold toLowerByte at same
  split at same
  · rename_i upper
    rw [← same] at notLetter
    simp only [UInt8.le_iff_toNat_le, UInt8.toNat_add, UInt8.toNat_ofNat] at upper notLetter
    omega
  · exact same

theorem toLower_fixed (s : Bytes) : toLower (toLower s) = toLower s := by
  unfold toLower
  rw [List.map_map]
  apply List.map_congr_left
  intro b _
  exact toLowerByte_fixed b

theorem toLower_clear {s : Bytes} {c : UInt8} (notLetter : c.toNat < 97) (clear : c ∉ s) : c ∉ toLower s := by
  intro member
  obtain ⟨b, known, same⟩ := List.mem_map.mp member
  rw [toLowerByte_inj_of_not_letter same notLetter] at known
  exact clear known

/-- A property that is printed as a line of its own form. -/
def HeaderProperty.Printable (p : HeaderProperty) : Prop :=
  toLower p.name = p.name ∧ (COLON ∉ p.name ∧ CR ∉ p.name) ∧ CR ∉ p.value ∧ p.value.head? ≠ some SPACE

instance (p : HeaderProperty) : Decidable p.Printable := inferInstanceAs (Decidable (_ ∧ _))

theorem PropertyText.property_printable (p : PropertyText) : p.property.Printable :=
  ⟨toLower_fixed p.name, ⟨toLower_clear (by decide) p.name_clear.1, toLower_clear (by decide) p.name_clear.2⟩,
    p.value_clear, p.value_start⟩

/-! ### Header texts -/

/-- A header that is written with these lines. -/
def headerBytes (first : Bytes) (properties : List PropertyText) : Bytes :=
  first ++ (crlf ++ HeaderText.tail (properties.map PropertyText.bytes))

/-- A first line that is read as it is printed. -/
def Line.Kept {L : Type} [Line L] (l : L) : Prop :=
  ∃ text, Line.print l = text ++ crlf ∧ CR ∉ text ∧ (text.length < npos → Line.parse text = .ok l)

namespace HttpHeader

variable {L : Type} [Line L] {first : Bytes} {l : L} {properties : List PropertyText}

/-- The parser reads the lines that were written, whatever bytes follow the header. -/
theorem parse_written (body : Bytes) (firstClear : CR ∉ first) (read : Line.parse first = .ok l)
    (short : (headerBytes first properties ++ body).length < npos) :
    parse (headerBytes first properties ++ body) =
      .ok (dropProxyConnection { requestLine := l, properties := properties.map PropertyText.property }) := by
  have clear : ∀ line ∈ properties.map PropertyText.bytes, CR ∉ line := by
    intro line member
    obtain ⟨p, -, rfl⟩ := List.mem_map.mp member
    exact p.bytes_clear
  have present : ∀ line ∈ properties.map PropertyText.bytes, line ≠ [] := by
    intro line member
    obtain ⟨p, -, rfl⟩ := List.mem_map.mp member
    exact p.bytes_present
  have divided : Divides (headerBytes first properties ++ body) first (properties.map PropertyText.bytes) :=
    HeaderText.divides_lines body firstClear clear present
  have parsed : (properties.map PropertyText.bytes).map HeaderProperty.parse = properties.map PropertyText.property := by
    rw [List.map_map]
    apply List.map_congr_left
    intro p member
    apply p.parse_bytes
    have fits := divided.length_le (List.mem_cons_of_mem _ (List.mem_map_of_mem member))
    omega
  rw [parse_divided short divided, read, parsed]
  rfl

omit [Line L] in
theorem dropProxyConnection_absent {h : HttpHeader L} (absent : ∀ p ∈ h.properties, p.name ≠ lit "proxy-connection") :
    h.dropProxyConnection = h := by
  have missing : h.hasProperty (lit "proxy-connection") = false := by
    unfold hasProperty
    rw [List.any_eq_false]
    intro p member
    simpa using absent p member
  unfold dropProxyConnection
  rw [missing]
  rfl

theorem print_eq {h : HttpHeader L} {text : Bytes} (line : Line.print h.requestLine = text ++ crlf)
    (printable : ∀ p ∈ h.properties, p.Printable) :
    ∃ written, h.print = headerBytes text written ∧ written.map PropertyText.property = h.properties := by
  have properties : ∀ ps : List HeaderProperty, (∀ p ∈ ps, p.Printable) →
      ∃ written : List PropertyText, ps.flatMap HeaderProperty.print ++ crlf = HeaderText.tail (written.map PropertyText.bytes) ∧
        written.map PropertyText.property = ps := by
    intro ps printable
    induction ps with
    | nil => exact ⟨[], rfl, rfl⟩
    | cons p rest ih =>
      obtain ⟨written, tail, same⟩ := ih (fun q member => printable q (List.mem_cons_of_mem _ member))
      obtain ⟨lower, clear⟩ := printable p List.mem_cons_self
      refine ⟨PropertyText.ofParts p.name 1 p.value clear :: written, ?_, ?_⟩
      · have colon : lit ": " = [COLON, SPACE] := rfl
        rw [List.map_cons, HeaderText.tail_cons, ← tail]
        simp [PropertyText.ofParts, PropertyText.bytes, HeaderProperty.print, colon]
      · rw [List.map_cons, same]
        simp [PropertyText.ofParts, PropertyText.property, lower]
  obtain ⟨written, tail, same⟩ := properties h.properties printable
  refine ⟨written, ?_, same⟩
  unfold print headerBytes
  rw [line, ← tail]
  simp

theorem parse_print {h : HttpHeader L} (body : Bytes) (kept : Line.Kept h.requestLine)
    (printable : ∀ p ∈ h.properties, p.Printable) (absent : ∀ p ∈ h.properties, p.name ≠ lit "proxy-connection")
    (short : (h.print ++ body).length < npos) : parse (h.print ++ body) = .ok h := by
  obtain ⟨text, line, clear, read⟩ := kept
  obtain ⟨written, printed, same⟩ := print_eq line printable
  rw [printed] at short ⊢
  have fits : text.length < npos := by
    simp only [headerBytes, List.length_append] at short
    omega
  rw [parse_written body clear (read fits) short, same, dropProxyConnection_absent absent]

end HttpHeader

/-! ### The round trip -/

namespace RequestLine

/-- `type url http`, with single blanks. -/
def text (l : RequestLine) : Bytes := threeWords l.type l.url l.http

def WellFormed (l : RequestLine) : Prop :=
  (SPACE ∉ l.type ∧ CR ∉ l.type) ∧ (SPACE ∉ l.url ∧ CR ∉ l.url ∧ l.url.head? = some SLASH) ∧ CR ∉ l.http

instance (l : RequestLine) : Decidable l.WellFormed := inferInstanceAs (Decidable (_ ∧ _))

theorem parse_text {l : RequestLine} (wellFormed : l.WellFormed) (short : l.text.length < npos) :
    parse l.text = .ok l := by
  unfold text
  rw [parse_threeWords wellFormed.1.1 wellFormed.2.1.1 short, if_pos wellFormed.2.1.2.2]
  rfl

theorem text_clear {l : RequestLine} (wellFormed : l.WellFormed) : CR ∉ l.text := by
  have blank : CR ≠ SPACE := by decide
  simp [text, threeWords, wellFormed.1.2, wellFormed.2.1.2.1, wellFormed.2.2, blank]

theorem kept {l : RequestLine} (wellFormed : l.WellFormed) : Line.Kept l :=
  ⟨l.text, print_eq l, text_clear wellFormed, parse_text wellFormed⟩

end RequestLine

namespace ResponseLine

/-- `http code description`, with the code as a decimal number. -/
def text (l : ResponseLine) : Bytes := threeWords l.http (intToString l.code) l.description

def WellFormed (l : ResponseLine) : Prop :=
  (SPACE ∉ l.http ∧ CR ∉ l.http) ∧ (-2 ^ 31 ≤ l.code ∧ l.code < 2 ^ 31) ∧ CR ∉ l.description

instance (l : ResponseLine) : Decidable l.WellFormed := inferInstanceAs (Decidable (_ ∧ _))

theorem parse_text {l : ResponseLine} (wellFormed : l.WellFormed) (short : l.text.length < npos) :
    parse l.text = .ok l :=
  parse_threeWords wellFormed.1.1 wellFormed.2.1.1 wellFormed.2.1.2 short

theorem text_clear {l : ResponseLine} (wellFormed : l.WellFormed) : CR ∉ l.text := by
  have blank : CR ≠ SPACE := by decide
  have code : CR ∉ intToString l.code := intToString_clear (by decide) (by decide)
  simp [text, threeWords, wellFormed.1.2, wellFormed.2.2, blank, code]

theorem kept {l : ResponseLine} (wellFormed : l.WellFormed) : Line.Kept l :=
  ⟨l.text, print_eq l, text_clear wellFormed, parse_text wellFormed⟩

end ResponseLine

namespace HttpHeader

/-- Parsing reads every header that is written with well-formed lines, and parsing
what is printed for a header gives it back, whatever bytes follow. -/
theorem headers_kept :
    (∀ (l : RequestLine) (properties : List PropertyText) (body : Bytes), l.WellFormed →
      (∀ p ∈ properties, ¬p.IsProxyConnection) → (headerBytes l.text properties ++ body).length < npos →
      parse (headerBytes l.text properties ++ body) =
        .ok { requestLine := l, properties := properties.map PropertyText.property }) ∧
    (∀ (l : ResponseLine) (properties : List PropertyText) (body : Bytes), l.WellFormed →
      (∀ p ∈ properties, ¬p.IsProxyConnection) → (headerBytes l.text properties ++ body).length < npos →
      parse (headerBytes l.text properties ++ body) =
        .ok { requestLine := l, properties := properties.map PropertyText.property }) ∧
    (∀ (h : RequestHeader) (body : Bytes), h.requestLine.WellFormed →
      (∀ p ∈ h.properties, p.Printable ∧ p.name ≠ lit "proxy-connection") → (h.print ++ body).length < npos →
      parse (h.print ++ body) = .ok h) ∧
    (∀ (h : ResponseHeader) (body : Bytes), h.requestLine.WellFormed →
      (∀ p ∈ h.properties, p.Printable ∧ p.name ≠ lit "proxy-connection") → (h.print ++ body).length < npos →
      parse (h.print ++ body) = .ok h) := by
  have written : ∀ {L : Type} [Line L] {l : L} {text : Bytes} {properties : List PropertyText} (body : Bytes),
      CR ∉ text → Line.parse text = .ok l → (∀ p ∈ properties, ¬p.IsProxyConnection) →
      (headerBytes text properties ++ body).length < npos →
      parse (headerBytes text properties ++ body) =
        .ok { requestLine := l, properties := properties.map PropertyText.property } := by
    intro L _ l text properties body clear read absent short
    rw [parse_written body clear read short, dropProxyConnection_absent]
    intro p member
    obtain ⟨q, known, rfl⟩ := List.mem_map.mp member
    exact absent q known
  have firstFits : ∀ {first : Bytes} {properties : List PropertyText} {body : Bytes},
      (headerBytes first properties ++ body).length < npos → first.length < npos := by
    intro first properties body short
    simp only [headerBytes, List.length_append] at short
    omega
  refine ⟨?_, ?_, ?_, ?_⟩
  · intro l properties body wellFormed absent short
    exact written body (RequestLine.text_clear wellFormed) (RequestLine.parse_text wellFormed (firstFits short)) absent short
  · intro l properties body wellFormed absent short
    exact written body (ResponseLine.text_clear wellFormed) (ResponseLine.parse_text wellFormed (firstFits short)) absent short
  · intro h body wellFormed properties short
    exact parse_print body (RequestLine.kept wellFormed) (fun p member => (properties p member).1)
      (fun p member => (properties p member).2) short
  · intro h body wellFormed properties short
    exact parse_print body (ResponseLine.kept wellFormed) (fun p member => (properties p member).1)
      (fun p member => (properties p member).2) short

theorem written_header_kept :
    (parse (headerBytes (RequestLine.mk (lit "GET") (lit "/") (lit "HTTP/1.1")).text
      [.ofParts (lit "Host") 3 (lit "h:80") (by decide)] ++ lit "body") : Except CppError RequestHeader) =
      .ok { requestLine := .mk (lit "GET") (lit "/") (lit "HTTP/1.1"),
            properties := [{ name := lit "host", value := lit "h:80" }] } :=
  headers_kept.1 (.mk (lit "GET") (lit "/") (lit "HTTP/1.1"))
    [.ofParts (lit "Host") 3 (lit "h:80") (by decide)] (lit "body") (by decide) (by decide) (by decide)

/-! ### Proxy-Connection -/

/-- A property that has nothing to do with the connection. -/
def isOther (p : HeaderProperty) : Bool := p.name ≠ lit "connection" ∧ p.name ≠ lit "proxy-connection"

/-- What becomes of Proxy-Connection: it is gone, the connection properties are kept,
and where there are none its first value takes their place. -/
structure Eliminated (before after : List HeaderProperty) : Prop where
  gone : ∀ p ∈ after, p.name ≠ lit "proxy-connection"
  connection : (∃ p ∈ before, p.name = lit "connection") →
    after.filter (·.name = lit "connection") = before.filter (·.name = lit "connection")
  renamed : (∀ p ∈ before, p.name ≠ lit "connection") →
    after.filter (·.name = lit "connection") =
      ((before.find? (·.name = lit "proxy-connection")).map fun p =>
        { name := lit "connection", value := p.value : HeaderProperty }).toList
  others : after.filter isOther = before.filter isOther

theorem eraseP_filter {name : Bytes} {properties : List HeaderProperty}
    (once : properties.countP (·.name = name) ≤ 1) :
    properties.eraseP (·.name = name) = properties.filter (·.name ≠ name) := by
  induction properties with
  | nil => rfl
  | cons p rest ih =>
    by_cases same : p.name = name
    · have clear : rest.countP (·.name = name) = 0 := by
        rw [List.countP_cons_of_pos (by simpa using same)] at once
        omega
      rw [List.countP_eq_zero] at clear
      rw [List.eraseP_cons_of_pos (by simpa using same), List.filter_cons_of_neg (by simpa using same)]
      symm
      rw [List.filter_eq_self]
      intro q member
      simpa using clear q member
    · rw [List.countP_cons_of_neg (by simpa using same)] at once
      rw [List.eraseP_cons_of_neg (by simpa using same), List.filter_cons_of_pos (by simpa using same), ih once]

theorem setIn_absent {name value : Bytes} {properties : List HeaderProperty}
    (absent : ∀ p ∈ properties, p.name ≠ name) :
    setIn name value properties = properties ++ [({ name, value } : HeaderProperty)] := by
  induction properties with
  | nil => rfl
  | cons p rest ih =>
    unfold setIn
    rw [if_neg (absent p List.mem_cons_self), ih (fun q member => absent q (List.mem_cons_of_mem _ member))]
    rfl

theorem hasProperty_iff {L : Type} (h : HttpHeader L) (name : Bytes) :
    h.hasProperty name = true ↔ ∃ p ∈ h.properties, p.name = name := by
  simp [hasProperty]

/-- The properties after Proxy-Connection, which was there at most once, became Connection. -/
theorem dropProxyConnection_once {L : Type} {h : HttpHeader L}
    (once : h.properties.countP (·.name = lit "proxy-connection") ≤ 1) :
    h.dropProxyConnection.properties = h.properties.filter (·.name ≠ lit "proxy-connection") ++
      if h.hasProperty (lit "connection") then []
      else ((h.properties.find? (·.name = lit "proxy-connection")).map fun p =>
        { name := lit "connection", value := p.value : HeaderProperty }).toList := by
  have erased := eraseP_filter once
  by_cases proxy : h.hasProperty (lit "proxy-connection") = true
  · obtain ⟨p, found⟩ : ∃ p, h.properties.find? (·.name = lit "proxy-connection") = some p := by
      obtain ⟨p, member, named⟩ := (hasProperty_iff h _).mp proxy
      rw [← Option.isSome_iff_exists, List.find?_isSome]
      exact ⟨p, member, by simpa using named⟩
    have value : h.getProperty (lit "proxy-connection") = p.value := by
      unfold getProperty
      rw [found]
    have other : ∀ p : HeaderProperty, p.name = lit "connection" → p.name ≠ lit "proxy-connection" := by
      intro p named
      rw [named]
      decide
    have stays : (h.eraseProperty (lit "proxy-connection")).hasProperty (lit "connection") =
        h.hasProperty (lit "connection") := by
      rw [Bool.eq_iff_iff, hasProperty_iff, hasProperty_iff]
      unfold eraseProperty
      dsimp only
      rw [erased]
      constructor
      · intro ⟨q, member, named⟩
        exact ⟨q, List.mem_of_mem_filter member, named⟩
      · intro ⟨q, member, named⟩
        exact ⟨q, List.mem_filter.mpr ⟨member, by simpa using other q named⟩, named⟩
    unfold dropProxyConnection
    rw [if_pos proxy]
    dsimp only
    rw [stays, value, found]
    by_cases connection : h.hasProperty (lit "connection") = true
    · rw [if_pos connection, if_pos connection, List.append_nil]
      exact erased
    · rw [if_neg connection, if_neg connection]
      have absent : ∀ q ∈ h.properties.filter (·.name ≠ lit "proxy-connection"), q.name ≠ lit "connection" := by
        intro q member named
        exact connection ((hasProperty_iff h _).mpr ⟨q, List.mem_of_mem_filter member, named⟩)
      unfold setProperty eraseProperty
      dsimp only
      rw [erased, setIn_absent absent]
      rfl
  · have absent : ∀ p ∈ h.properties, p.name ≠ lit "proxy-connection" := by
      intro p member named
      exact proxy ((hasProperty_iff h _).mpr ⟨p, member, named⟩)
    have none_found : h.properties.find? (·.name = lit "proxy-connection") = none := by
      rw [List.find?_eq_none]
      intro p member
      simpa using absent p member
    rw [dropProxyConnection_absent absent, none_found]
    have all : h.properties.filter (·.name ≠ lit "proxy-connection") = h.properties := by
      rw [List.filter_eq_self]
      intro p member
      simpa using absent p member
    rw [all]
    simp

theorem filter_eraseP (properties : List HeaderProperty) :
    (properties.eraseP (·.name = lit "proxy-connection")).filter isOther = properties.filter isOther := by
  induction properties with
  | nil => rfl
  | cons p rest ih =>
    by_cases same : p.name = lit "proxy-connection"
    · rw [List.eraseP_cons_of_pos (by simpa using same), List.filter_cons_of_neg (by simp [isOther, same])]
    · rw [List.eraseP_cons_of_neg (by simpa using same), List.filter_cons, List.filter_cons, ih]

theorem filter_setIn (value : Bytes) (properties : List HeaderProperty) :
    (setIn (lit "connection") value properties).filter isOther = properties.filter isOther := by
  induction properties with
  | nil => rfl
  | cons p rest ih =>
    unfold setIn
    by_cases same : p.name = lit "connection"
    · rw [if_pos same, List.filter_cons_of_neg (by simp [isOther, same]),
        List.filter_cons_of_neg (by simp [isOther, same])]
    · rw [if_neg same, List.filter_cons, List.filter_cons, ih]

theorem filter_dropProxyConnection {L : Type} (h : HttpHeader L) :
    h.dropProxyConnection.properties.filter isOther = h.properties.filter isOther := by
  unfold dropProxyConnection
  split
  · dsimp only
    split
    · exact filter_eraseP h.properties
    · unfold setProperty
      rw [filter_setIn]
      exact filter_eraseP h.properties
  · rfl

theorem names_differ {p : HeaderProperty} (named : p.name = lit "connection") : p.name ≠ lit "proxy-connection" := by
  rw [named]
  decide

theorem renamed_name {found : Option HeaderProperty} {p : HeaderProperty}
    (member : p ∈ (found.map fun q => { name := lit "connection", value := q.value : HeaderProperty }).toList) :
    p.name = lit "connection" := by
  rw [Option.mem_toList, Option.map_eq_some_iff] at member
  obtain ⟨q, -, rfl⟩ := member
  rfl

theorem eliminated_once {L : Type} {h : HttpHeader L}
    (once : h.properties.countP (·.name = lit "proxy-connection") ≤ 1) :
    Eliminated h.properties h.dropProxyConnection.properties := by
  have known := hasProperty_iff h (lit "connection")
  have others := filter_dropProxyConnection h
  rw [dropProxyConnection_once once] at others ⊢
  generalize renamed : ((h.properties.find? (·.name = lit "proxy-connection")).map fun p =>
    { name := lit "connection", value := p.value : HeaderProperty }).toList = place
  have placed : ∀ p ∈ place, p.name = lit "connection" := by
    intro p member
    rw [← renamed] at member
    exact renamed_name member
  constructor
  · intro p member
    rcases List.mem_append.mp member with kept | new
    · simpa using (List.mem_filter.mp kept).2
    · split at new
      · cases new
      · exact names_differ (placed p new)
  · intro present
    rw [if_pos (known.mpr present), List.append_nil, List.filter_filter]
    apply List.filter_congr
    intro p _
    simpa using fun named => names_differ named
  · intro absent
    have missing : ¬h.hasProperty (lit "connection") = true := fun has => by
      obtain ⟨p, member, named⟩ := known.mp has
      exact absent p member named
    have rest : (h.properties.filter (·.name ≠ lit "proxy-connection")).filter (·.name = lit "connection") = [] := by
      rw [List.filter_eq_nil_iff]
      intro p member
      simpa using absent p (List.mem_of_mem_filter member)
    have new : place.filter (·.name = lit "connection") = place := by
      rw [List.filter_eq_self]
      intro p member
      simpa using placed p member
    rw [if_neg missing, List.filter_append, rest, new, renamed]
    rfl
  · rw [renamed] at others
    exact others

theorem countP_setIn (value : Bytes) (properties : List HeaderProperty) :
    (setIn (lit "connection") value properties).countP (·.name = lit "proxy-connection") =
      properties.countP (·.name = lit "proxy-connection") := by
  induction properties with
  | nil => rfl
  | cons p rest ih =>
    unfold setIn
    by_cases same : p.name = lit "connection"
    · rw [if_pos same, List.countP_cons_of_neg (by simpa using names_differ same)]
      rw [List.countP_cons_of_neg (by simpa using names_differ same)]
    · rw [if_neg same, List.countP_cons, List.countP_cons, ih]

theorem countP_eraseP (named : HeaderProperty → Bool) (properties : List HeaderProperty) :
    properties.countP named ≤ (properties.eraseP named).countP named + 1 := by
  induction properties with
  | nil => exact Nat.zero_le _
  | cons p rest ih =>
    by_cases here : named p = true
    · rw [List.eraseP_cons_of_pos here, List.countP_cons_of_pos here]
    · rw [List.eraseP_cons_of_neg here, List.countP_cons_of_neg here, List.countP_cons_of_neg here]
      exact ih

theorem proxy_stays {L : Type} {h : HttpHeader L}
    (twice : 1 < h.properties.countP (·.name = lit "proxy-connection")) :
    ∃ p ∈ h.dropProxyConnection.properties, p.name = lit "proxy-connection" := by
  have present : h.hasProperty (lit "proxy-connection") = true := by
    have some_named := List.countP_pos_iff.mp (Nat.zero_lt_of_lt twice)
    obtain ⟨p, member, named⟩ := some_named
    exact (hasProperty_iff h _).mpr ⟨p, member, by simpa using named⟩
  have erased : 0 < (h.eraseProperty (lit "proxy-connection")).properties.countP (·.name = lit "proxy-connection") := by
    have low := countP_eraseP (·.name = lit "proxy-connection") h.properties
    unfold eraseProperty
    dsimp only
    omega
  have left : 0 < h.dropProxyConnection.properties.countP (·.name = lit "proxy-connection") := by
    unfold dropProxyConnection
    rw [if_pos present]
    dsimp only
    split
    · exact erased
    · unfold setProperty
      dsimp only
      rw [countP_setIn]
      exact erased
  obtain ⟨p, member, named⟩ := List.countP_pos_iff.mp left
  exact ⟨p, member, by simpa using named⟩

theorem eq_of_mem_setIn {name value : Bytes} {properties : List HeaderProperty} {p : HeaderProperty}
    (member : p ∈ setIn name value properties) : p ∈ properties ∨ p = { name, value } := by
  induction properties with
  | nil => exact Or.inr (List.mem_singleton.mp member)
  | cons q rest ih =>
    unfold setIn at member
    split at member
    · rename_i named
      rcases List.mem_cons.mp member with same | later
      · right
        rw [same, ← named]
      · exact Or.inl (List.mem_cons_of_mem _ later)
    · rcases List.mem_cons.mp member with same | later
      · rw [same]
        exact Or.inl List.mem_cons_self
      · rcases ih later with old | new
        · exact Or.inl (List.mem_cons_of_mem _ old)
        · exact Or.inr new

theorem value_printable {L : Type} {h : HttpHeader L} (printable : ∀ p ∈ h.properties, p.Printable) (name : Bytes) :
    CR ∉ h.getProperty name ∧ (h.getProperty name).head? ≠ some SPACE := by
  unfold getProperty
  split
  · rename_i p found
    exact (printable p (List.mem_of_find?_eq_some found)).2.2
  · exact ⟨List.not_mem_nil, by simp⟩

theorem printable_dropProxyConnection {L : Type} {h : HttpHeader L} (printable : ∀ p ∈ h.properties, p.Printable) :
    ∀ p ∈ h.dropProxyConnection.properties, p.Printable := by
  have erased : ∀ p ∈ (h.eraseProperty (lit "proxy-connection")).properties, p.Printable :=
    fun p member => printable p (List.mem_of_mem_eraseP member)
  have value := value_printable printable (lit "proxy-connection")
  have lower : toLower (lit "connection") = lit "connection" := by decide
  have clear : COLON ∉ lit "connection" ∧ CR ∉ lit "connection" := by decide
  unfold dropProxyConnection
  split
  · dsimp only
    split
    · exact erased
    · intro p member
      rcases eq_of_mem_setIn member with old | new
      · exact erased p old
      · rw [new]
        exact ⟨lower, clear, value⟩
  · exact printable

theorem parseProperty_printable {line : Bytes} (short : line.length < npos) (clear : CR ∉ line) :
    (HeaderProperty.parse line).Printable := by
  have inName : ∀ b ∈ before COLON line, b ∈ line := (List.takeWhile_prefix _).subset
  have inRest : ∀ b ∈ behind COLON line, b ∈ line := by
    unfold behind
    split
    · exact ((List.tail_suffix _).trans (List.dropWhile_suffix _)).subset
    · exact fun b member => member
  have inValue : ∀ b ∈ (behind COLON line).dropWhile (· = SPACE), b ∈ line :=
    fun b member => inRest b ((List.dropWhile_suffix _).subset member)
  have noColon : COLON ∉ before COLON line := by
    intro member
    have other := List.mem_takeWhile_imp member
    simp at other
  rw [HeaderProperty.parse_eq short]
  refine ⟨toLower_fixed _, ⟨toLower_clear (by decide) noColon, toLower_clear (by decide) fun member => clear (inName _ member)⟩,
    fun member => clear (inValue _ member), ?_⟩
  intro blank
  have other := List.head?_dropWhile_not (fun b => decide (b = SPACE)) (behind COLON line)
  rw [blank] at other
  simp at other

/-- The properties of a header that is read are printed as lines of their own form. -/
theorem printable_of_parse {L : Type} [Line L] {message : Bytes} {h : HttpHeader L}
    (short : message.length + 3 < npos) (read : HttpHeader.parse message = .ok h) : ∀ p ∈ h.properties, p.Printable := by
  obtain ⟨first, lines, requestLine, divided, _, rfl⟩ := parsed_of_parse short read
  apply printable_dropProxyConnection
  intro p member
  obtain ⟨l, here, rfl⟩ := List.mem_map.mp member
  have fits := divided.length_le (List.mem_cons_of_mem _ here)
  exact parseProperty_printable (by omega) (divided.clear (List.mem_cons_of_mem _ here))

theorem requestLine_dropProxyConnection {L : Type} (h : HttpHeader L) :
    h.dropProxyConnection.requestLine = h.requestLine := by
  unfold dropProxyConnection
  split
  · dsimp only
    split
    · rfl
    · rfl
  · rfl

theorem countP_property (properties : List PropertyText) :
    (properties.map PropertyText.property).countP (·.name = lit "proxy-connection") =
      properties.countP (·.IsProxyConnection) := by
  rw [List.countP_map]
  rfl

variable {L : Type} [Line L]

/-- Proxy-Connection is eliminated, and the header that is left is read from what is
printed for it, exactly when at most one line names Proxy-Connection. -/
theorem eliminated_iff (first : Bytes) (l : L) (properties : List PropertyText) (body : Bytes)
    (firstClear : CR ∉ first) (read : Line.parse first = .ok l) (kept : Line.Kept l)
    (short : (headerBytes first properties ++ body).length < npos) :
    (∃ h : HttpHeader L, parse (headerBytes first properties ++ body) = .ok h ∧
      Eliminated (properties.map PropertyText.property) h.properties ∧
      (h.print.length < npos → parse h.print = .ok h)) ↔
      properties.countP (·.IsProxyConnection) ≤ 1 := by
  have parsed := parse_written body firstClear read short
  rw [← countP_property]
  constructor
  · intro ⟨h, same, eliminated, _⟩
    rw [parsed] at same
    cases same
    by_contra twice
    obtain ⟨p, member, named⟩ := proxy_stays (h := { requestLine := l, properties := properties.map PropertyText.property })
      (Nat.lt_of_not_le twice)
    exact eliminated.gone p member named
  · intro once
    have eliminated := eliminated_once (h := { requestLine := l, properties := properties.map PropertyText.property }) once
    refine ⟨_, parsed, eliminated, ?_⟩
    intro fits
    have printable := printable_dropProxyConnection (h := { requestLine := l, properties := properties.map PropertyText.property })
      (by
        intro p member
        obtain ⟨q, -, rfl⟩ := List.mem_map.mp member
        exact q.property_printable)
    have again := parse_print [] (by rw [requestLine_dropProxyConnection]; exact kept) printable eliminated.gone
      (by rw [List.append_nil]; exact fits)
    rw [List.append_nil] at again
    exact again

theorem proxy_connection_renamed :
    ∃ h : RequestHeader, parse (headerBytes (lit "GET / HTTP/1.1") [.ofParts (lit "Proxy-Connection") 1 (lit "close") (by decide)]
        ++ []) = .ok h ∧
      Eliminated [{ name := lit "proxy-connection", value := lit "close" }] h.properties ∧
      (h.print.length < npos → parse h.print = .ok h) :=
  (eliminated_iff (lit "GET / HTTP/1.1") (RequestLine.mk (lit "GET") (lit "/") (lit "HTTP/1.1"))
    [.ofParts (lit "Proxy-Connection") 1 (lit "close") (by decide)] [] (by decide) (by decide)
    (RequestLine.kept (by decide)) (by decide)).mpr (by decide)

theorem second_proxy_connection_stays :
    (parse (lit "GET / HTTP/1.1\r\nProxy-Connection: close\r\nproxy-connection: x\r\n\r\n") : Except CppError RequestHeader) =
      .ok { requestLine := .mk (lit "GET") (lit "/") (lit "HTTP/1.1"),
            properties := [{ name := lit "proxy-connection", value := lit "x" },
              { name := lit "connection", value := lit "close" }] } ∧
    ¬Eliminated [{ name := lit "proxy-connection", value := lit "close" },
        { name := lit "proxy-connection", value := lit "x" }]
      [{ name := lit "proxy-connection", value := lit "x" }, { name := lit "connection", value := lit "close" }] := by
  constructor
  · decide
  · intro eliminated
    exact eliminated.gone { name := lit "proxy-connection", value := lit "x" } (by decide) rfl

end HttpHeader

end ProxyServer
