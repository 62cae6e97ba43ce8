import ProxyServer.Request.HeaderText

/-!
# Buffered messages

`raw_message` and `buffered_message`. A read is given the bytes that the
descriptor returned and a write the number of bytes it accepted.
-/

namespace ProxyServer

def BUFFER_LENGTH : Nat := 8 * 1024

/-- The body length of a message whose end is not known yet. -/
def INF : Nat := 2 ^ 32

/-- `memcpy(buffer + at, bytes)` -/
def store (buffer : Bytes) (pos : Nat) (bytes : Bytes) : Bytes :=
  buffer.take pos ++ (bytes ++ buffer.drop (pos + bytes.length))

/-- No `int` is converted to the length that stands for an unknown one. -/
theorem HttpHeader.getInt_known {L : Type} {h : HttpHeader L} {name : Bytes} {v : Int}
    (got : h.getInt name = .ok v) : toSize v ≠ INF ∧ toSize v < SIZE_RANGE := by
  have bounds := getInt_bounds got
  unfold toSize INF SIZE_RANGE
  omega

/-- Message that is saved in the cache of the proxy. -/
abbrev CachedMessage := List Bytes

structure BufferedMessage (L : Type) where
  headerLength : Nat
  bodyLength : Nat
  read : Nat
  readLength : Nat
  writeLength : Nat
  header : HttpHeader L
  buffer : Bytes
  curPart : Nat
  cache : CachedMessage
  deriving DecidableEq, Repr

abbrev ClientRequest := BufferedMessage RequestLine
abbrev ServerResponse := BufferedMessage ResponseLine

/-- The suffix that ends a message of unknown length. -/
def lastChunk : Bytes := lit "0\r\n\r\n"

/-- `message.substr(message.length() - 5).compare("0\r\n\r\n") == 0` -/
def endsChunks (message : Bytes) : Bool :=
  5 ≤ message.length ∧ message.drop (message.length - 5) = lastChunk

namespace BufferedMessage

variable {L : Type}

def isRead (m : BufferedMessage L) : Bool := m.bodyLength ≤ m.read

def canRead (m : BufferedMessage L) : Bool := !m.isRead

def canWrite (m : BufferedMessage L) : Bool :=
  m.curPart ≠ m.cache.length ∧ m.writeLength < (m.cache.getD m.curPart []).length

def isWritten (m : BufferedMessage L) : Bool := m.isRead && m.curPart = m.cache.length

/-- How many bytes `read_from` asks the descriptor for. -/
def shouldRead (m : BufferedMessage L) : Nat :=
  if subSize BUFFER_LENGTH m.readLength < subSize m.bodyLength m.read
  then subSize BUFFER_LENGTH m.readLength else subSize m.bodyLength m.read

/-- The copy and the move constructor take over every member but the buffer,
which holds whatever was in its memory. -/
def transferred (garbage : Bytes) (m : BufferedMessage L) : BufferedMessage L :=
  { m with buffer := garbage }

/-- `header.get_int("content-length")` or what stands in its place. -/
def declaredLength (header : HttpHeader L) : Except CppError Nat :=
  if header.hasProperty (lit "content-length") then
    (header.getInt (lit "content-length")).map toSize
  else if header.getProperty (lit "transfer-encoding") = lit "chunked" then .ok INF
  else .ok 0

/-- `write_to`, with at most `accepted` bytes taken by the descriptor: the bytes
written. There is none when `cache[cur_part]` is out of bounds. -/
def writeTo (m : BufferedMessage L) (accepted : Nat) : Option (Bytes × BufferedMessage L) := do
  let part ← m.cache[m.curPart]?
  let written := (part.drop m.writeLength).take accepted
  let writeLength := m.writeLength + written.length
  if writeLength = part.length then
    some (written, { m with writeLength := 0, curPart := m.curPart + 1 })
  else some (written, { m with writeLength })

/-- What `write_to` has not written. -/
def unsent (m : BufferedMessage L) : Bytes := (m.cache.drop m.curPart).flatten.drop m.writeLength

def getCache (m : BufferedMessage L) : CachedMessage := m.cache

def getHeader (m : BufferedMessage L) : HttpHeader L := m.header

variable [Line L]

/-- `buffered_message()` -/
def new : BufferedMessage L :=
  { headerLength := 0, bodyLength := INF, read := 0, readLength := 0, writeLength := 0,
    header := HttpHeader.blank, buffer := [], curPart := 0, cache := [] }

/-- `buffered_message(cached_message cache)` -/
def ofCache (cache : CachedMessage) : Except CppError (BufferedMessage L) := do
  let header : HttpHeader L ← HttpHeader.parse (cache.headD [])
  let bodyLength := (cache.map List.length).sum
  return { (new : BufferedMessage L) with header, cache, bodyLength, read := bodyLength }

/-- `buffered_message(T const &header, std::string const &body)` -/
def ofHeader (header : HttpHeader L) (body : Bytes) : BufferedMessage L :=
  let message := header.print ++ body
  { headerLength := header.print.length, bodyLength := body.length, read := body.length,
    readLength := header.print.length + body.length, writeLength := 0, header, buffer := [],
    curPart := 0, cache := [message] }

/-- Where the header ends in `message`: behind the four bytes at the first
CRLF CRLF or, without one, at the first LF LF. -/
def headerEnd (message : Bytes) : Nat :=
  let pos := findText message terminator
  if pos = npos then findText message bareTerminator else pos

/-- The header phase of `read_from`: the message, and the text whose suffix is
tested for the last chunk. -/
def readHeader (m : BufferedMessage L) (message : Bytes) :
    Except CppError (BufferedMessage L × Bytes) :=
  let pos := headerEnd message
  if pos ≠ npos then do
    let body ← substrFrom message (addSize pos 4)
    let header : HttpHeader L ← HttpHeader.parse message
    let message := header.print ++ body
    let bodyLength ← declaredLength header
    return ({ m with
      header, headerLength := header.print.length, bodyLength, read := body.length,
      cache := m.cache ++ [message], readLength := 0, curPart := 0 }, message)
  else .ok (m, message)

/-- `read_from`, when the descriptor returned `bytes`. -/
def readFrom (m : BufferedMessage L) (bytes : Bytes) : Except CppError (BufferedMessage L) := do
  let buffer := store m.buffer m.readLength bytes
  let m := { m with buffer, readLength := m.readLength + bytes.length }
  let message := buffer.take m.readLength
  let (m, message) ←
    if m.headerLength = 0 then readHeader m message
    else pure ({ m with
      read := m.read + bytes.length, cache := m.cache ++ [message], readLength := 0 }, message)
  return if m.bodyLength = INF ∧ endsChunks message then { m with bodyLength := m.read } else m

end BufferedMessage

/-! ### Raw messages -/

structure RawMessage where
  readLength : Nat
  writeLength : Nat
  buffer : Bytes
  deriving DecidableEq, Repr

namespace RawMessage

def new : RawMessage := { readLength := 0, writeLength := 0, buffer := [] }

def canRead (m : RawMessage) : Bool := m.readLength < BUFFER_LENGTH

def canWrite (m : RawMessage) : Bool := m.writeLength < m.readLength

/-- `read_from`, which asks for the rest of the buffer. -/
def readFrom (m : RawMessage) (bytes : Bytes) : RawMessage :=
  { m with readLength := m.readLength + bytes.length, buffer := store m.buffer m.readLength bytes }

/-- `write_to`, with at most `accepted` bytes taken by the descriptor. -/
def writeTo (m : RawMessage) (accepted : Nat) : Bytes × RawMessage :=
  let written := ((m.buffer.take m.readLength).drop m.writeLength).take accepted
  let writeLength := m.writeLength + written.length
  if writeLength = BUFFER_LENGTH then (written, { m with readLength := 0, writeLength := 0 })
  else (written, { m with writeLength })

end RawMessage

end ProxyServer
