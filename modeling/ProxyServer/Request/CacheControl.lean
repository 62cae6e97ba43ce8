import ProxyServer.Request.ReadFrom
import ProxyServer.Request.SimpleCache

/-!
# What may be cached

The caching functions of the server, and the Cache-Control properties of the
responses that they store.
-/

namespace ProxyServer

/-! ### Caching -/

def MAX_CACHE_SIZE : Nat := 20000

abbrev Cache := SimpleCache Bytes CachedMessage

namespace Cache

def saveCached (cache : Cache) (url : Bytes) (response : CachedMessage) : Option Cache :=
  cache.insert MAX_CACHE_SIZE url response

def isCached (cache : Cache) (request : RequestHeader) : Bool := cache.has (toUrl request)

def getCached (cache : Cache) (request : RequestHeader) : Except CppError CachedMessage :=
  cache.find (toUrl request)

def deleteCached (cache : Cache) (request : RequestHeader) : Option Cache :=
  cache.erase (toUrl request)

/-- What `fast_transfer` does with a response that it has read. -/
def saveIfAllowed (cache : Cache) (rqst : ClientRequest) (resp : ServerResponse) : Option Cache :=
  let url := toUrl rqst.getHeader
  if shouldCache resp.getHeader then cache.saveCached url resp.getCache else some cache

def admits (cache : Cache) (rqst : ClientRequest) (resp : ServerResponse) : Bool :=
  shouldCache resp.getHeader && !cache.keeps MAX_CACHE_SIZE (toUrl rqst.getHeader)

theorem entries_saveIfAllowed {cache cache' : Cache} {rqst : ClientRequest} {resp : ServerResponse}
    (h : cache.saveIfAllowed rqst resp = some cache') {url : Bytes} {cached : CachedMessage}
    (held : (url, cached) ∈ cache'.entries) :
    (url, cached) ∈ cache.entries ∨
      (cache.admits rqst resp = true ∧ url = toUrl rqst.getHeader ∧ cached = resp.getCache) := by
  simp only [saveIfAllowed] at h
  split at h
  · rename_i should
    cases kept : cache.keeps MAX_CACHE_SIZE (toUrl rqst.getHeader) with
    | true => exact Or.inl (SimpleCache.entries_insert_keeps h kept held)
    | false =>
      have known := SimpleCache.entries_insert h held
      simp only [List.mem_append, List.mem_singleton, Prod.mk.injEq] at known
      exact known.imp_right fun same => ⟨by simp [admits, should, kept], same⟩
  · cases h
    exact Or.inl held

end Cache

def makeValidateRequest (rqst : RequestHeader) (response : ResponseHeader) : ClientRequest :=
  BufferedMessage.ofHeader (makeValidateHeader rqst response) []

/-! ### The header of what was read -/

namespace BufferedMessage

variable {L : Type} [Line L]

/-- The message after reads with these results. -/
def readAll (m : BufferedMessage L) (reads : List Bytes) : Except CppError (BufferedMessage L) :=
  reads.foldlM readFrom m

/-- What has been read when the end of the header is found. -/
def headerText (held : Bytes) : List Bytes → Bytes
  | [] => held
  | bytes :: reads =>
    if headerEnd (held ++ bytes) = npos then headerText (held ++ bytes) reads else held ++ bytes

/-- A message in its header phase holds what was read. -/
structure Holds (m : BufferedMessage L) (held : Bytes) : Prop where
  headerLength : m.headerLength = 0
  readLength : m.readLength = held.length
  buffer : m.buffer.take held.length = held

theorem holds_new : Holds (new : BufferedMessage L) [] := ⟨rfl, rfl, rfl⟩

theorem Holds.readFrom {m m' : BufferedMessage L} {held bytes : Bytes} (holds : Holds m held)
    (read : m.readFrom bytes = .ok m') :
    if headerEnd (held ++ bytes) = npos then Holds m' (held ++ bytes)
    else m'.headerLength ≠ 0 ∧ HttpHeader.parse (held ++ bytes) = .ok m'.header := by
  have message : (store m.buffer m.readLength bytes).take (m.readLength + bytes.length) = held ++ bytes := by
    rw [holds.readLength]
    exact store_take holds.buffer
  unfold BufferedMessage.readFrom at read
  dsimp only at read
  rw [if_pos holds.headerLength, message] at read
  obtain ⟨⟨t, text⟩, took, read⟩ := Runs.bind_ok.mp read
  obtain ⟨missing, same⟩ | ⟨complete, x, header, n, _, parsed, _, same⟩ := readHeader_ok took
  · cases same
    rw [if_pos missing]
    split at read
    all_goals
      cases read
      refine ⟨holds.headerLength, ?_, ?_⟩
      · simp [holds.readLength]
      · rw [List.length_append, ← holds.readLength]
        exact message
  · cases same
    rw [if_neg complete]
    split at read
    all_goals
      cases read
      exact ⟨by simpa using header.print_ne_nil, parsed⟩

theorem readFrom_header_eq {m m' : BufferedMessage L} {bytes : Bytes} (opened : m.headerLength ≠ 0)
    (read : m.readFrom bytes = .ok m') : m'.headerLength ≠ 0 ∧ m'.header = m.header := by
  cases readFrom_cases read with
  | body known => exact ⟨opened, rfl⟩
  | waits unknown missing => exact absurd unknown opened
  | opens unknown x header n cut parsed declared => exact absurd unknown opened

theorem readAll_header_eq {m m' : BufferedMessage L} {reads : List Bytes} (opened : m.headerLength ≠ 0)
    (read : m.readAll reads = .ok m') : m'.header = m.header := by
  induction reads generalizing m with
  | nil =>
    cases read
    rfl
  | cons bytes reads ih =>
    obtain ⟨m₁, first, read⟩ := Runs.run_cons.mp read
    obtain ⟨opened₁, same⟩ := readFrom_header_eq opened first
    rw [ih opened₁ read, same]

/-- The header of a message is parsed from what was read when its end was found. -/
theorem readAll_header {m m' : BufferedMessage L} {held : Bytes} {reads : List Bytes} (holds : Holds m held)
    (read : m.readAll reads = .ok m') (complete : m'.headerLength ≠ 0) :
    HttpHeader.parse (headerText held reads) = .ok m'.header := by
  induction reads generalizing m held with
  | nil =>
    cases read
    exact absurd holds.headerLength complete
  | cons bytes reads ih =>
    obtain ⟨m₁, first, read⟩ := Runs.run_cons.mp read
    have step := holds.readFrom first
    rw [headerText]
    by_cases missing : headerEnd (held ++ bytes) = npos
    · rw [if_pos missing] at step ⊢
      exact ih step read
    · rw [if_neg missing] at step ⊢
      rw [readAll_header_eq step.1 read]
      exact step.2

end BufferedMessage

namespace HttpHeader

variable {L : Type}

/-- The property lines of a header text, as they were sent. -/
def textLines (text : Bytes) : List Bytes :=
  match propertyLines text text.length (find text CR 0) with
  | .ok lines => lines
  | .error _ => []

theorem mem_setIn {name value : Bytes} {p : HeaderProperty} {properties : List HeaderProperty}
    (other : p.name ≠ name) (present : p ∈ properties) : p ∈ setIn name value properties := by
  induction properties with
  | nil => cases present
  | cons q rest ih =>
    rw [setIn]
    rcases List.mem_cons.mp present with rfl | later
    · rw [if_neg other]
      exact List.mem_cons_self
    · split
      · exact List.mem_cons_of_mem _ later
      · exact List.mem_cons_of_mem _ (ih later)

theorem mem_dropProxyConnection {h : HttpHeader L} {p : HeaderProperty} (present : p ∈ h.properties)
    (other : p.name ≠ lit "proxy-connection") (plain : p.name ≠ lit "connection") :
    p ∈ h.dropProxyConnection.properties := by
  have kept : p ∈ (h.eraseProperty (lit "proxy-connection")).properties := by
    refine (List.mem_eraseP_of_neg ?_).mpr present
    simpa using other
  simp only [dropProxyConnection]
  split
  · split
    · exact kept
    · exact mem_setIn plain kept
  · exact present

/-- Every property line of the text is a property of the parsed header. -/
theorem mem_parse [Line L] {text line : Bytes} {h : HttpHeader L} (parsed : parse text = .ok h)
    (present : line ∈ textLines text) (other : (HeaderProperty.parse line).name ≠ lit "proxy-connection")
    (plain : (HeaderProperty.parse line).name ≠ lit "connection") :
    HeaderProperty.parse line ∈ h.properties := by
  simp only [parse, bind, Except.bind, pure, Except.pure] at parsed
  split at parsed
  · cases parsed
  split at parsed
  · cases parsed
  split at parsed
  · cases parsed
  · rename_i lines read
    cases parsed
    rw [textLines, read] at present
    exact mem_dropProxyConnection (List.mem_map_of_mem present) other plain

end HttpHeader

/-! ### Cache-Control -/

/-- A Cache-Control property, its name in any case, with a directive in any case. -/
def ForbidsCaching (line : Bytes) : Prop :=
  ∃ name value, line = name ++ COLON :: value ∧ COLON ∉ name ∧
    toLower name = lit "cache-control" ∧ ∃ d ∈ noCacheDirectives, d <:+: toLower value

theorem HeaderProperty.parse_name {name v : Bytes} (absent : COLON ∉ name) :
    (HeaderProperty.parse (name ++ COLON :: v)).name = toLower name := by
  have stop := find_append (p := []) (r := v) absent
  simp only [List.nil_append, List.length_nil, Nat.zero_add] at stop
  simp [HeaderProperty.parse, stop]

/-- A response that `read_from` accepted, from its first read on. -/
structure Received where
  reads : List Bytes
  response : ServerResponse
  accepted : BufferedMessage.new.readAll reads = .ok response
  complete : response.headerLength ≠ 0

namespace Received

/-- The response may be shared: none of its Cache-Control properties forbids it. -/
def Shareable (r : Received) : Prop :=
  ∀ line ∈ HttpHeader.textLines (BufferedMessage.headerText [] r.reads), ¬ForbidsCaching line

/-- What keeps a response with a Cache-Control property out of the cache: Pragma,
Cache, the absence of validators, or a directive in a property `cache_control`. -/
def KeptOut (header : ResponseHeader) : Prop :=
  (header.hasProperty (lit "pragma") = true ∧
    contains (toLower (header.getProperty (lit "pragma"))) (lit "no-cache") = true) ∨
  (header.hasProperty (lit "cache") = true ∧ toLower (header.getProperty (lit "cache")) = lit "none") ∨
  (header.hasProperty (lit "etag") = false ∧ header.hasProperty (lit "last-modified") = false) ∨
  noCacheDirectives.any (contains (toLower (header.getProperty (lit "cache_control")))) = true

theorem shouldCache_iff {header : ResponseHeader} (has : header.hasProperty (lit "cache-control") = true) :
    shouldCache header = false ↔ KeptOut header := by
  unfold KeptOut
  cases directive : noCacheDirectives.any (contains (toLower (header.getProperty (lit "cache_control")))) with
  | true => simp [shouldCache, has, directive]
  | false =>
    simp only [shouldCache, has, directive, Bool.and_false, Bool.false_eq_true, if_false, or_false,
      Bool.and_eq_true, decide_eq_true_eq]
    by_cases pragma : header.hasProperty (lit "pragma") = true ∧
        contains (toLower (header.getProperty (lit "pragma"))) (lit "no-cache") = true
    · simp [pragma]
    rw [if_neg pragma]
    by_cases none_ : header.hasProperty (lit "cache") = true ∧
        toLower (header.getProperty (lit "cache")) = lit "none"
    · simp [none_]
    rw [if_neg none_]
    simp only [pragma, none_, false_or]
    simp

theorem hasProperty_of_forbids (r : Received) (forbids : ¬r.Shareable) :
    r.response.header.hasProperty (lit "cache-control") = true := by
  simp only [Shareable, not_forall, not_not] at forbids
  obtain ⟨line, present, name, value, rfl, absent, isName, _⟩ := forbids
  have parsed := BufferedMessage.readAll_header BufferedMessage.holds_new r.accepted r.complete
  have named := (HeaderProperty.parse_name (v := value) absent).trans isName
  have member := HttpHeader.mem_parse parsed present (by rw [named]; decide) (by rw [named]; decide)
  exact List.any_eq_true.mpr ⟨_, member, by simpa using named⟩

/-- A response that forbids caching is kept out of the cache if and only if
something else keeps it out. -/
theorem forbidden_kept_out_iff (r : Received) :
    (¬r.Shareable → shouldCache r.response.header = false ∧
      ∀ (cache : Cache) (rqst : ClientRequest), cache.saveIfAllowed rqst r.response = some cache) ↔
    r.Shareable ∨ KeptOut r.response.header := by
  by_cases shareable : r.Shareable
  · simp [shareable]
  have decision := shouldCache_iff (r.hasProperty_of_forbids shareable)
  simp only [shareable, not_false_eq_true, true_implies, false_or, ← decision]
  refine ⟨fun h => h.1, fun refused => ⟨refused, fun cache rqst => ?_⟩⟩
  rw [Cache.saveIfAllowed, BufferedMessage.getHeader, refused]
  simp

/-- A private response with a validator, in one read. -/
def privateText : Bytes :=
  lit "HTTP/1.1 200 OK\r\nCache-Control: no-store\r\nETag: 1\r\nContent-Length: 0\r\n\r\n"

def privateResponse : Received where
  reads := [privateText]
  response := (BufferedMessage.new.readFrom privateText).toOption.getD .new
  accepted := by decide +kernel
  complete := by decide +kernel

theorem private_not_kept_out :
    ¬∀ r : Received, ¬r.Shareable → shouldCache r.response.header = false ∧
      ∀ (cache : Cache) (rqst : ClientRequest), cache.saveIfAllowed rqst r.response = some cache := by
  intro h
  have forbids : ¬privateResponse.Shareable := by
    intro shareable
    refine shareable (lit "Cache-Control: no-store") (by decide +kernel) ?_
    exact ⟨lit "Cache-Control", lit " no-store", by decide, by decide, by decide, lit "no-store",
      by decide, lit " ", [], by decide⟩
  exact absurd (h privateResponse forbids).1 (by decide +kernel)

end Received

end ProxyServer
