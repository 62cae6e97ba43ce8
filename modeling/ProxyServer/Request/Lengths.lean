import ProxyServer.Request.Escapes
import ProxyServer.Util.Numbers

/-!
# What Content-Length announces

The value of a Content-Length goes through `stoi`, which reads a prefix of it as an
`int`, and from there into a `size_t`. `length_kept_iff` says for which values the
message then has the length that the value denotes.
-/

namespace ProxyServer

namespace BufferedMessage

variable {L : Type} [Line L] {m : BufferedMessage L} {bytes x : Bytes} {h : HttpHeader L} {n : Nat}

/-! ### The read that completes the header -/

/-- `read_from` has found the end of the header, `x` behind it, and parsed it. -/
structure Parses (m : BufferedMessage L) (bytes x : Bytes) (h : HttpHeader L) : Prop where
  unknown : m.headerLength = 0
  complete : headerEnd (m.buffered bytes) ≠ npos
  cut : substrFrom (m.buffered bytes) (addSize (headerEnd (m.buffered bytes)) 4) = .ok x
  parsed : HttpHeader.parse (m.buffered bytes) = .ok h

/-- The message when its header is complete and declares the length `n`. -/
def completed (m : BufferedMessage L) (bytes x : Bytes) (h : HttpHeader L) (n : Nat) : BufferedMessage L :=
  settled
    { m with
      buffer := store m.buffer m.readLength bytes, readLength := 0, read := x.length, header := h,
      headerLength := h.print.length, bodyLength := n, curPart := 0, cache := m.cache ++ [h.print ++ x] }
    (h.print ++ x)

theorem Parses.readFrom (parses : Parses m bytes x h) :
    m.readFrom bytes = (declaredLength h).map (completed m bytes x h) := by
  obtain ⟨unknown, complete, cut, parsed⟩ := parses
  unfold buffered at complete cut parsed
  unfold BufferedMessage.readFrom readHeader
  dsimp only
  rw [if_pos unknown, if_pos complete, cut, parsed]
  simp only [bind, Except.bind, pure, Except.pure]
  cases declaredLength h with
  | error e => rfl
  | ok n =>
    unfold completed settled
    dsimp only [Except.map]
    split <;> rfl

/-- What is announced is kept: only an unknown length is settled by the last chunk. -/
theorem completed_bodyLength (known : n ≠ INF) : (completed m bytes x h n).bodyLength = n := by
  simp [completed, settled, known]

/-! ### The end at the header -/

/-- Nothing is waited for behind the header: the length that it announces came with it,
or its last chunk did when it is chunked. -/
def EndsAtHeader (h : HttpHeader L) (x : Bytes) : Prop :=
  if h.hasProperty (lit "content-length") then ∃ v, h.getInt (lit "content-length") = .ok v ∧ toSize v ≤ x.length
  else h.getProperty (lit "transfer-encoding") = lit "chunked" → endsChunks (h.print ++ x) = true

theorem completed_isRead (m : BufferedMessage L) (bytes : Bytes) :
    (completed m bytes x h n).isRead = true ↔ n ≤ x.length ∨ n = INF ∧ endsChunks (h.print ++ x) = true := by
  unfold isRead completed settled
  dsimp only
  rw [decide_eq_true_eq]
  split
  · rename_i ends
    exact iff_of_true (Nat.le_refl _) (Or.inr ends)
  · rename_i more
    exact (or_iff_left more).symm

/-- The read that completes the header completes the message when it ends there. -/
theorem Parses.ends_iff (parses : Parses m bytes x h) (room : x.length < INF) :
    (∃ m', m.readFrom bytes = .ok m' ∧ m'.isRead = true) ↔ EndsAtHeader h x := by
  rw [parses.readFrom]
  unfold declaredLength EndsAtHeader
  by_cases announced : h.hasProperty (lit "content-length") = true
  · rw [if_pos announced, if_pos announced]
    cases got : h.getInt (lit "content-length") with
    | error e =>
      refine iff_of_false ?_ ?_
      · rintro ⟨m', read, _⟩
        cases read
      · rintro ⟨v, read, _⟩
        cases read
    | ok v =>
      have known := (HttpHeader.getInt_known got).1
      constructor
      · rintro ⟨m', read, isRead⟩
        cases read
        rcases (completed_isRead m bytes).mp isRead with all | ⟨inf, _⟩
        · exact ⟨v, rfl, all⟩
        · exact absurd inf known
      · rintro ⟨v', same, all⟩
        cases same
        exact ⟨_, rfl, (completed_isRead m bytes).mpr (Or.inl all)⟩
  · rw [if_neg announced, if_neg announced]
    by_cases chunked : h.getProperty (lit "transfer-encoding") = lit "chunked"
    · rw [if_pos chunked]
      constructor
      · rintro ⟨m', read, isRead⟩ _
        cases read
        rcases (completed_isRead m bytes).mp isRead with all | ⟨_, ends⟩
        · omega
        · exact ends
      · intro ends
        exact ⟨_, rfl, (completed_isRead m bytes).mpr (Or.inr ⟨rfl, ends chunked⟩)⟩
    · rw [if_neg chunked]
      refine iff_of_true ?_ (fun same => absurd same chunked)
      exact ⟨_, rfl, (completed_isRead m bytes).mpr (Or.inl (Nat.zero_le _))⟩

/-! ### Lengths -/

/-- The body has the length that the value denotes, or an exception that the handlers
catch says that it does not denote one. -/
def LengthKept (value : Bytes) : Except CppError (BufferedMessage L) → Prop
  | .ok m => Denotes value m.bodyLength
  | .error e => e.Caught ∧ ∀ n, n < 2 ^ 63 → ¬Denotes value n

/-- A length is kept exactly when it consists of digits and is below 2³¹. -/
theorem length_kept_iff (m : BufferedMessage L) (bytes x : Bytes) (h : HttpHeader L) (parses : Parses m bytes x h)
    (announced : h.hasProperty (lit "content-length") = true) :
    LengthKept (h.getProperty (lit "content-length")) (m.readFrom bytes) ↔
      ∃ n, n < 2 ^ 31 ∧ Denotes (h.getProperty (lit "content-length")) n := by
  rw [parses.readFrom]
  unfold declaredLength
  rw [if_pos announced]
  cases got : h.getInt (lit "content-length") with
  | error e =>
    have raw : Raw (h.getInt (lit "content-length")) := by
      unfold HttpHeader.getInt
      dsimp only
      split
      · exact Raw.ok _
      · exact Raw.stoi _
    refine iff_of_false (fun kept => raw e got kept.1) ?_
    rintro ⟨n, small, denotes⟩
    unfold HttpHeader.getInt at got
    dsimp only at got
    rw [if_neg denotes.1, denotes.stoi small] at got
    cases got
  | ok v =>
    have known := (HttpHeader.getInt_known got).1
    show Denotes _ (completed m bytes x h (toSize v)).bodyLength ↔ _
    rw [completed_bodyLength known]
    unfold HttpHeader.getInt at got
    dsimp only at got
    constructor
    · intro denotes
      rw [if_neg denotes.1] at got
      exact ⟨toSize v, (denotes.read got).2, denotes⟩
    · rintro ⟨n, small, denotes⟩
      rw [if_neg denotes.1] at got
      rw [(denotes.read got).1, toSize_ofNat (by unfold SIZE_RANGE; omega)]
      exact denotes

/-- A request with a Content-Length. -/
def announces (value : String) : Bytes :=
  lit "POST / HTTP/1.1\r\nContent-Length: " ++ lit value ++ lit "\r\n\r\n"

def announcedHeader (value : String) : RequestHeader :=
  { requestLine := { type := lit "POST", url := lit "/", http := lit "HTTP/1.1" },
    properties := [{ name := lit "content-length", value := lit value }] }

theorem seven_kept : LengthKept (lit "7") ((new : ClientRequest).readFrom (announces "7" ++ lit "seven")) :=
  (length_kept_iff (new : ClientRequest) (announces "7" ++ lit "seven") (lit "seven") (announcedHeader "7")
    ⟨rfl, by decide +kernel, by decide +kernel, by decide +kernel⟩ (by decide)).mpr ⟨7, by decide, by decide⟩

/-- A length of minus one is one of 2⁶⁴ - 1, digits end where something else follows,
and a length of 2 GiB ends the process. -/
theorem lengths_lost :
    ((new : ClientRequest).readFrom (announces "-1")).map (·.bodyLength) = .ok (2 ^ 64 - 1) ∧
    ((new : ClientRequest).readFrom (announces "5x")).map (·.bodyLength) = .ok 5 ∧
    ((new : ClientRequest).readFrom (announces "2147483648")).map (·.bodyLength) = .error .outOfRange ∧
    ¬LengthKept (lit "5x") ((new : ClientRequest).readFrom (announces "5x")) := by
  refine ⟨by decide +kernel, by decide +kernel, by decide +kernel, ?_⟩
  obtain ⟨m, read⟩ : ∃ m, (new : ClientRequest).readFrom (announces "5x") = .ok m := ⟨_, rfl⟩
  rw [read]
  intro kept
  exact absurd kept.2.1 (by decide)

end BufferedMessage

end ProxyServer
