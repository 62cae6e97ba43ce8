import ProxyServer.Util.Bytes

/-!
# HTTP headers

`header_property`, `request_line`, `response_line` and `http_header`, with the
constructors that parse them and the functions that print them.
-/

namespace ProxyServer

/-! ### Properties -/

structure HeaderProperty where
  name : Bytes
  value : Bytes
  deriving DecidableEq, Repr

/-- `header_property(std::string const &property)` -/
def HeaderProperty.parse (property : Bytes) : HeaderProperty :=
  let stop := find property COLON 0
  let name := toLower (property.take stop)
  -- Past the colon; without a colon `npos + 1` starts again at the first byte.
  let rest := property.drop (addSize stop 1)
  { name, value := rest.dropWhile (· = SPACE) }

def HeaderProperty.print (p : HeaderProperty) : Bytes := p.name ++ lit ": " ++ p.value ++ crlf

/-! ### First lines -/

/-- The first line of a header: `request_line` or `response_line`. -/
class Line (L : Type) where
  blank : L
  parse : Bytes → Except CppError L
  print : L → Bytes

inductive RequestType where
  | GET | POST | CONNECT | OPTION
  deriving DecidableEq, Repr

structure RequestLine where
  type : Bytes
  url : Bytes
  http : Bytes
  deriving DecidableEq, Repr

/-- `request_line(std::string const &line)` -/
def RequestLine.parse (line : Bytes) : Except CppError RequestLine := do
  let stop := find line SPACE 0
  let type ← substr line 0 stop
  let start := addSize stop 1
  let stop := find line SPACE start
  -- An absolute address: find "http:", then the first '/' behind "://".
  let start := if charAt line start ≠ SLASH then
      find line SLASH (addSize (find line COLON start) 3)
    else start
  let url ← substr line start (subSize stop start)
  let start := addSize stop 1
  let http ← substr line start (subSize line.length start)
  return { type, url, http }

def RequestLine.print (line : RequestLine) : Bytes :=
  line.type ++ lit " " ++ line.url ++ lit " " ++ line.http ++ crlf

def RequestLine.getType (line : RequestLine) : RequestType :=
  if line.type = lit "GET" then .GET
  else if line.type = lit "POST" then .POST
  else if line.type = lit "CONNECT" then .CONNECT
  else .GET

theorem RequestLine.getType_post {line : RequestLine} (post : line.type = lit "POST") : line.getType = .POST := by
  unfold getType
  rw [post]
  rfl

theorem RequestLine.getType_connect {line : RequestLine} (connect : line.getType = .CONNECT) :
    line.type = lit "CONNECT" := by
  unfold getType at connect
  split at connect
  · cases connect
  · split at connect
    · cases connect
    · split at connect
      · assumption
      · cases connect

instance : Line RequestLine where
  blank := { type := [], url := [], http := [] }
  parse := RequestLine.parse
  print := RequestLine.print

structure ResponseLine where
  code : Int
  description : Bytes
  http : Bytes
  deriving DecidableEq, Repr

/-- `response_line(std::string const &line)` -/
def ResponseLine.parse (line : Bytes) : Except CppError ResponseLine := do
  let stop := find line SPACE 0
  let http ← substr line 0 stop
  let start := addSize stop 1
  let stop := find line SPACE start
  let code ← stoi (← substr line start (subSize stop start))
  let start := addSize stop 1
  let description ← substr line start (subSize line.length start)
  return { code, description, http }

def ResponseLine.print (line : ResponseLine) : Bytes :=
  line.http ++ lit " " ++ intToString line.code ++ lit " " ++ line.description ++ crlf

/-- `response_line(int code, std::string description)` -/
def ResponseLine.new (code : Int) (description : Bytes) : ResponseLine :=
  { code, description, http := lit "HTTP/1.1" }

instance : Line ResponseLine where
  blank := { code := -1, description := [], http := [] }
  parse := ResponseLine.parse
  print := ResponseLine.print

/-! ### Headers -/

structure HttpHeader (L : Type) where
  requestLine : L
  properties : List HeaderProperty
  deriving DecidableEq, Repr

abbrev RequestHeader := HttpHeader RequestLine
abbrev ResponseHeader := HttpHeader ResponseLine

namespace HttpHeader

variable {L : Type}

def hasProperty (h : HttpHeader L) (name : Bytes) : Bool := h.properties.any (·.name = name)

/-- The value of the first property of that name, or the empty string. -/
def getProperty (h : HttpHeader L) (name : Bytes) : Bytes :=
  match h.properties.find? (·.name = name) with
  | some p => p.value
  | none => []

def getInt (h : HttpHeader L) (name : Bytes) : Except CppError Int :=
  let value := h.getProperty name
  if value = [] then .ok 0 else stoi value

theorem getInt_bounds {h : HttpHeader L} {name : Bytes} {v : Int} (got : h.getInt name = .ok v) :
    -2 ^ 31 ≤ v ∧ v < 2 ^ 31 := by
  simp only [getInt] at got
  split at got
  · cases got
    decide
  · exact stoi_bounds got

/-- Overwrites the first property of that name, or appends one. -/
def setIn (name value : Bytes) : List HeaderProperty → List HeaderProperty
  | [] => [{ name, value }]
  | p :: rest => if p.name = name then { p with value } :: rest else p :: setIn name value rest

def setProperty (h : HttpHeader L) (name value : Bytes) : HttpHeader L :=
  { h with properties := setIn name value h.properties }

theorem find_setIn (name value : Bytes) (properties : List HeaderProperty) :
    (setIn name value properties).find? (·.name = name) = some { name, value } := by
  induction properties with
  | nil => simp [setIn]
  | cons p rest ih =>
    unfold setIn
    by_cases same : p.name = name
    · simp [same]
    · simp [same, ih]

theorem find_setIn_of_ne {name other : Bytes} (value : Bytes) (different : other ≠ name)
    (properties : List HeaderProperty) :
    (setIn name value properties).find? (·.name = other) = properties.find? (·.name = other) := by
  induction properties with
  | nil => simp [setIn, different.symm]
  | cons p rest ih =>
    unfold setIn
    by_cases same : p.name = name
    · simp [same, different.symm]
    · by_cases here : p.name = other
      · simp [here, different]
      · simp [same, here, ih]

theorem getProperty_setProperty (h : HttpHeader L) (name value : Bytes) :
    (h.setProperty name value).getProperty name = value := by
  unfold setProperty getProperty
  rw [find_setIn]

theorem getProperty_setProperty_of_ne (h : HttpHeader L) {name other : Bytes} (value : Bytes)
    (different : other ≠ name) : (h.setProperty name value).getProperty other = h.getProperty other := by
  unfold setProperty getProperty
  rw [find_setIn_of_ne value different]

def eraseProperty (h : HttpHeader L) (name : Bytes) : HttpHeader L :=
  { h with properties := h.properties.eraseP (·.name = name) }

/-- The property lines of `message` that follow a line ending at `stop`. The
fuel is the size of the message, which bounds the number of lines. -/
def propertyLines (message : Bytes) : Nat → Nat → Except CppError (List Bytes)
  | 0, _ => .ok []
  | fuel + 1, stop =>
    if stop < message.length then
      let start := addSize stop 2
      let stop := find message CR start
      if start = stop then .ok []
      else do
        let property ← substr message start (subSize stop start)
        let rest ← propertyLines message fuel stop
        return property :: rest
    else .ok []

/-- Proxy-Connection becomes Connection, unless there is one already. -/
def dropProxyConnection (h : HttpHeader L) : HttpHeader L :=
  if h.hasProperty (lit "proxy-connection") then
    let value := h.getProperty (lit "proxy-connection")
    let h := h.eraseProperty (lit "proxy-connection")
    if h.hasProperty (lit "connection") then h else h.setProperty (lit "connection") value
  else h

variable [Line L]

/-- `http_header(std::string const &message)` -/
def parse (message : Bytes) : Except CppError (HttpHeader L) := do
  let stop := find message CR 0
  let requestLine ← Line.parse (← substr message 0 stop)
  let lines ← propertyLines message message.length stop
  return dropProxyConnection { requestLine, properties := lines.map HeaderProperty.parse }

def print (h : HttpHeader L) : Bytes :=
  Line.print h.requestLine ++ h.properties.flatMap HeaderProperty.print ++ crlf

def blank : HttpHeader L := { requestLine := Line.blank, properties := [] }

theorem print_ne_nil (h : HttpHeader L) : h.print ≠ [] := by
  simp [print, crlf]

end HttpHeader

/-! ### Decisions taken on headers -/

/-- The directives for which `should_cache` scans a Cache-Control value. -/
def noCacheDirectives : List Bytes :=
  [lit "no-cache", lit "no-store", lit "must-revalidate", lit "proxy-revalidate", lit "max-age=0"]

def shouldCache (header : ResponseHeader) : Bool :=
  if header.hasProperty (lit "cache-control") &&
      noCacheDirectives.any (contains (toLower (header.getProperty (lit "cache_control")))) then false
  else if header.hasProperty (lit "pragma") &&
      contains (toLower (header.getProperty (lit "pragma"))) (lit "no-cache") then false
  else if header.hasProperty (lit "cache") &&
      toLower (header.getProperty (lit "cache")) = lit "none" then false
  else !(!header.hasProperty (lit "etag") && !header.hasProperty (lit "last-modified"))

def makeValidateHeader (rqst : RequestHeader) (response : ResponseHeader) : RequestHeader :=
  let header : RequestHeader := { requestLine := rqst.requestLine, properties := [] }
  let header := header.setProperty (lit "host") (rqst.getProperty (lit "host"))
  let header := if response.hasProperty (lit "etag") then
      header.setProperty (lit "if-none-match") (response.getProperty (lit "etag"))
    else header
  let header := if response.hasProperty (lit "last-modified") then
      header.setProperty (lit "if-modified-since") (response.getProperty (lit "last-modified"))
    else header
  header.setProperty (lit "connection") (rqst.getProperty (lit "connection"))

/-- The request for a validation goes to the host of the request. -/
theorem makeValidateHeader_host (rqst : RequestHeader) (response : ResponseHeader) :
    (makeValidateHeader rqst response).getProperty (lit "host") = rqst.getProperty (lit "host") := by
  unfold makeValidateHeader
  rw [HttpHeader.getProperty_setProperty_of_ne _ _ (by decide)]
  split
  · rw [HttpHeader.getProperty_setProperty_of_ne _ _ (by decide)]
    split
    · rw [HttpHeader.getProperty_setProperty_of_ne _ _ (by decide), HttpHeader.getProperty_setProperty]
    · rw [HttpHeader.getProperty_setProperty]
  · split
    · rw [HttpHeader.getProperty_setProperty_of_ne _ _ (by decide), HttpHeader.getProperty_setProperty]
    · rw [HttpHeader.getProperty_setProperty]

def toUrl (request : RequestHeader) : Bytes :=
  request.getProperty (lit "host") ++ request.requestLine.url

end ProxyServer
