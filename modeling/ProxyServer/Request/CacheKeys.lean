import ProxyServer.Request.RoundTrip

/-!
# Keys of the cache

`to_url` puts the Host and the url behind one another. `keys_distinct_iff` says for
which Host values two requests never have the same key unless they ask for the same page.
-/

namespace ProxyServer

/-- A request that was parsed. -/
structure ParsedRequest where
  message : Bytes
  header : RequestHeader
  short : message.length + 3 < npos
  parsed : HttpHeader.parse message = .ok header

/-- What a Host line says: any text without a carriage return and a leading blank that is
not longer than a string can be. -/
def HostValue (host : Bytes) : Prop := CR ∉ host ∧ host.head? ≠ some SPACE ∧ host.length < 2 ^ 63

instance (host : Bytes) : Decidable (HostValue host) := inferInstanceAs (Decidable (_ ∧ _ ∧ _))

/-- The Host `a` is `b` with a path. -/
def Extends (a b : Bytes) : Prop := b <+: a ∧ (a.drop b.length).head? = some SLASH

instance (a b : Bytes) : Decidable (Extends a b) := inferInstanceAs (Decidable (_ ∧ _))

namespace ParsedRequest

/-- The first Host. -/
def host (r : ParsedRequest) : Bytes := r.header.getProperty (lit "host")

def url (r : ParsedRequest) : Bytes := r.header.requestLine.url

theorem toUrl_eq (r : ParsedRequest) : toUrl r.header = r.host ++ r.url := rfl

theorem hostValue (r : ParsedRequest) (length : r.host.length < 2 ^ 63) : HostValue r.host := by
  obtain ⟨clear, start⟩ := HttpHeader.value_printable (HttpHeader.printable_of_parse r.short r.parsed) (lit "host")
  exact ⟨clear, start, length⟩

theorem url_slash (r : ParsedRequest) : r.url.head? = some SLASH := by
  obtain ⟨first, lines, requestLine, divided, read, same⟩ := HttpHeader.parsed_of_parse r.short r.parsed
  have short := r.short
  have fits := divided.length_le List.mem_cons_self
  unfold url
  rw [← same, HttpHeader.requestLine_dropProxyConnection]
  exact RequestLine.url_slash (by omega) read

/-- With the same key, one Host is the other one or extends it. -/
theorem hosts_of_same {r₁ r₂ : ParsedRequest} (same : toUrl r₁.header = toUrl r₂.header) :
    r₁.host = r₂.host ∧ r₁.url = r₂.url ∨ Extends r₁.host r₂.host ∨ Extends r₂.host r₁.host := by
  have extends_of : ∀ {a b path u v : Bytes}, a = b ++ path → v = path ++ u → v.head? = some SLASH →
      path = [] ∨ Extends a b := by
    intro a b path u v host url slash
    cases path with
    | nil => exact Or.inl rfl
    | cons c path =>
      right
      rw [url, List.cons_append, List.head?_cons] at slash
      rw [host]
      refine ⟨List.prefix_append _ _, ?_⟩
      rw [List.drop_left]
      exact slash
  rw [toUrl_eq, toUrl_eq] at same
  rcases List.append_eq_append_iff.mp same with ⟨path, host, url⟩ | ⟨path, host, url⟩
  · rcases extends_of host url r₁.url_slash with empty | longer
    · rw [empty, List.append_nil] at host
      rw [empty, List.nil_append] at url
      exact Or.inl ⟨host.symm, url⟩
    · exact Or.inr (Or.inr longer)
  · rcases extends_of host url r₂.url_slash with empty | longer
    · rw [empty, List.append_nil] at host
      rw [empty, List.nil_append] at url
      exact Or.inl ⟨host, url.symm⟩
    · exact Or.inr (Or.inl longer)

end ParsedRequest

/-! ### A request for any url -/

namespace RequestLine

/-- The second blank is where the address starts, so the url goes on to the end of the
line. -/
theorem parse_blankTarget {url : Bytes} (slash : url.head? = some SLASH) (short : url.length + 8 < npos) :
    parse (lit "GET  ://" ++ url) = .ok { type := lit "GET", url, http := lit "://" ++ url } := by
  obtain ⟨rest, rfl⟩ := List.head?_eq_some_iff.mp slash
  have size : (lit "GET  ://" ++ SLASH :: rest).length = rest.length + 9 := by
    simp [lit]
  rw [List.length_cons] at short
  have range := npos_lt short
  have first : find (lit "GET  ://" ++ SLASH :: rest) SPACE 0 = 0 + 3 :=
    find_split (p := []) (l := lit "GET") (r := lit " ://" ++ SLASH :: rest) rfl rfl (by decide)
  have second : find (lit "GET  ://" ++ SLASH :: rest) SPACE 4 = 4 + 0 :=
    find_split (p := lit "GET ") (l := []) (r := lit "://" ++ SLASH :: rest) rfl rfl (by decide)
  have colon : find (lit "GET  ://" ++ SLASH :: rest) COLON 4 = 4 + 1 :=
    find_split (p := lit "GET ") (l := lit " ") (r := lit "//" ++ SLASH :: rest) rfl rfl (by decide)
  have path : find (lit "GET  ://" ++ SLASH :: rest) SLASH 8 = 8 + 0 :=
    find_split (p := lit "GET  ://") (l := []) (r := rest) rfl rfl (by decide)
  have indirect : charAt (lit "GET  ://" ++ SLASH :: rest) 4 ≠ SLASH := by
    show SPACE ≠ SLASH
    decide
  have four : addSize (0 + 3) 1 = 4 := by decide
  have five : addSize (4 + 0) 1 = 5 := by decide
  have eight : addSize (4 + 1) 3 = 8 := by decide
  have wraps : subSize (4 + 0) (8 + 0) = 2 ^ 64 - 4 := by decide
  have behind : subSize (rest.length + 9) 5 = rest.length + 4 := by
    rw [subSize_eq (by omega) (by omega)]
    omega
  unfold parse
  dsimp only
  rw [first, four, second, five, if_pos indirect, colon, eight, path, wraps, size, behind]
  rw [substr_ok _ (Nat.zero_le _), substr_ok _ (by rw [size]; omega), substr_ok _ (by rw [size]; omega)]
  have url : ((lit "GET  ://" ++ SLASH :: rest).drop (8 + 0)).take (2 ^ 64 - 4) = SLASH :: rest := by
    show (SLASH :: rest).take _ = _
    apply List.take_of_length_le
    unfold npos SIZE_RANGE at short
    rw [List.length_cons]
    omega
  have http : ((lit "GET  ://" ++ SLASH :: rest).drop 5).take (rest.length + 4) = lit "://" ++ SLASH :: rest := by
    show (lit "://" ++ SLASH :: rest).take _ = _
    apply List.take_of_length_le
    simp [lit]
  simp only [bind, Except.bind, pure, Except.pure, url, http]
  rfl

end RequestLine

namespace ParsedRequest

def hostLine (host : Bytes) (value : HostValue host) : PropertyText :=
  .ofParts (lit "Host") 1 host ⟨by decide, value.1, value.2.1⟩

/-- For every Host and every path there is a request. -/
theorem exists_request {host url : Bytes} (value : HostValue host) (clear : CR ∉ url) (slash : url.head? = some SLASH)
    (length : host.length + url.length < 2 ^ 63 + 1) : ∃ r : ParsedRequest, r.host = host ∧ r.url = url := by
  have short : (headerBytes (lit "GET  ://" ++ url) [hostLine host value] ++ []).length + 3 < npos := by
    unfold npos SIZE_RANGE
    simp [headerBytes, hostLine, PropertyText.ofParts, PropertyText.bytes, HeaderText.tail, lit]
    omega
  have line : (Line.parse (lit "GET  ://" ++ url) : Except CppError RequestLine) = _ :=
    RequestLine.parse_blankTarget slash (by unfold npos SIZE_RANGE; omega)
  have firstClear : CR ∉ lit "GET  ://" ++ url := by
    rw [List.mem_append, not_or]
    exact ⟨by decide, clear⟩
  have parsed : HttpHeader.parse (headerBytes (lit "GET  ://" ++ url) [hostLine host value] ++ []) = _ :=
    HttpHeader.parse_written [] firstClear line (by omega)
  rw [HttpHeader.dropProxyConnection_absent (by simp [hostLine, PropertyText.ofParts, PropertyText.property]; decide)] at parsed
  refine ⟨⟨_, _, short, parsed⟩, ?_, rfl⟩
  have name : toLower (lit "Host") = lit "host" := by decide
  simp [ParsedRequest.host, HttpHeader.getProperty, hostLine, PropertyText.ofParts, PropertyText.property, name]

/-- Two requests have the same key although their Hosts differ. -/
theorem collides {a b : Bytes} (first : HostValue a) (second : HostValue b) (longer : Extends a b) :
    ∃ r₁ r₂ : ParsedRequest, r₁.host = a ∧ r₂.host = b ∧ toUrl r₁.header = toUrl r₂.header ∧ a ≠ b := by
  obtain ⟨⟨path, rfl⟩, slash⟩ := longer
  rw [List.drop_left] at slash
  have clear := first.1
  have length := first.2.2
  rw [List.mem_append, not_or] at clear
  rw [List.length_append] at length
  obtain ⟨r₁, host₁, url₁⟩ : ∃ r : ParsedRequest, r.host = _ ∧ r.url = lit "/" := exists_request first (by decide) (by decide)
    (by rw [List.length_append]; simp [lit]; omega)
  obtain ⟨r₂, host₂, url₂⟩ : ∃ r : ParsedRequest, r.host = _ ∧ r.url = path ++ lit "/" := exists_request second
    (by rw [List.mem_append, not_or]; exact ⟨clear.2, by decide⟩)
    (by rw [List.head?_append, slash]; rfl)
    (by rw [List.length_append]; simp [lit]; omega)
  refine ⟨r₁, r₂, host₁, host₂, ?_, ?_⟩
  · rw [toUrl_eq, toUrl_eq, host₁, url₁, host₂, url₂, List.append_assoc]
  · intro same
    have empty := List.append_right_eq_self.mp same
    rw [empty] at slash
    cases slash

/-- Requests with these Hosts have different keys, unless they are for the same page,
exactly when neither Host is the other one with a path. -/
theorem keys_distinct_iff (a b : Bytes) (first : HostValue a) (second : HostValue b) :
    (∀ r₁ r₂ : ParsedRequest, r₁.host = a → r₂.host = b → toUrl r₁.header = toUrl r₂.header →
      r₁.host = r₂.host ∧ r₁.url = r₂.url) ↔ ¬Extends a b ∧ ¬Extends b a := by
  constructor
  · intro distinct
    constructor
    · intro longer
      obtain ⟨r₁, r₂, host₁, host₂, same, different⟩ := collides first second longer
      have hosts := (distinct r₁ r₂ host₁ host₂ same).1
      rw [host₁, host₂] at hosts
      exact different hosts
    · intro longer
      obtain ⟨r₂, r₁, host₂, host₁, same, different⟩ := collides second first longer
      have hosts := (distinct r₁ r₂ host₁ host₂ same.symm).1
      rw [host₁, host₂] at hosts
      exact different hosts.symm
  · rintro ⟨notFirst, notSecond⟩ r₁ r₂ rfl rfl same
    rcases hosts_of_same same with both | first | second
    · exact both
    · exact absurd first notFirst
    · exact absurd second notSecond

theorem other_host_distinct : lit "h:80" <+: lit "h:8080" ∧ ∀ r₁ r₂ : ParsedRequest, r₁.host = lit "h:80" →
    r₂.host = lit "h:8080" → toUrl r₁.header = toUrl r₂.header → r₁.host = r₂.host ∧ r₁.url = r₂.url :=
  ⟨by decide, (keys_distinct_iff (lit "h:80") (lit "h:8080") (by decide) (by decide)).mpr (by decide)⟩

/-- `/y` of the Host `h:80/x`, and `/x/y` of `h:80`. -/
def poisoning : ParsedRequest where
  message := lit "GET /y HTTP/1.1\r\nHost: h:80/x\r\n\r\n"
  header := { requestLine := ⟨lit "GET", lit "/y", lit "HTTP/1.1"⟩, properties := [⟨lit "host", lit "h:80/x"⟩] }
  short := by decide
  parsed := by decide +kernel

def poisoned : ParsedRequest where
  message := lit "GET /x/y HTTP/1.1\r\nHost: h:80\r\n\r\n"
  header := { requestLine := ⟨lit "GET", lit "/x/y", lit "HTTP/1.1"⟩, properties := [⟨lit "host", lit "h:80"⟩] }
  short := by decide
  parsed := by decide +kernel

theorem keys_collide : ¬∀ r₁ r₂ : ParsedRequest, toUrl r₁.header = toUrl r₂.header →
    r₁.host = r₂.host ∧ r₁.url = r₂.url := by
  intro claim
  exact absurd (claim poisoning poisoned (by decide)).1 (by decide)

end ParsedRequest

end ProxyServer
