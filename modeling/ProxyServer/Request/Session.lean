import ProxyServer.Foundation.Arrivals
import ProxyServer.Foundation.Iterate
import ProxyServer.Request.ReadFrom

/-!
# Reading messages from one stream

Successive messages read one stream: each is fresh, reads until `is_read()`, and
hands over to the next.
-/

namespace ProxyServer

variable {L : Type} [Line L]

/-- The messages read so far, the one being read, and the bytes on the stream. -/
structure Session (L : Type) where
  done : List (BufferedMessage L)
  cur : BufferedMessage L
  arrivals : List Bytes

namespace Session

def start (arrivals : List Bytes) : Session L := { done := [], cur := .new, arrivals }

/-- One call of `read_from`. -/
def step (s : Session L) : Except CppError (Session L) := do
  let (bytes, arrivals) := Arrivals.take s.cur.shouldRead s.arrivals
  let cur ← s.cur.readFrom bytes
  return if cur.isRead then { done := s.done ++ [cur], cur := .new, arrivals }
    else { s with cur, arrivals }

def Drained (s : Session L) : Prop := s.arrivals = []

instance : DecidablePred (Drained (L := L)) := fun s => inferInstanceAs (Decidable (s.arrivals = []))

/-- The bytes that a message stores and forwards. -/
def content (m : BufferedMessage L) : Bytes := m.cache.flatten

/-- Reading drains the stream, and the messages read hold exactly `expected`. -/
def Yields (s : Session L) (expected : List Bytes) : Prop :=
  Iterate.Reaches Drained step s
    (fun s' => s'.cur = BufferedMessage.new ∧ s'.done.map content = expected)

variable {P : Session L → Prop} {done : List (BufferedMessage L)} {m : BufferedMessage L}
  {segs : List Bytes}

theorem step_read {n : Nat} (asks : m.shouldRead = n) :
    step { done, cur := m, arrivals := segs } = (do
      let cur ← m.readFrom (Arrivals.take n segs).1
      return if cur.isRead then
        { done := done ++ [cur], cur := .new, arrivals := (Arrivals.take n segs).2 }
      else { done, cur, arrivals := (Arrivals.take n segs).2 }) := by
  simp only [step, asks]

theorem eq_take {a b w : Bytes} (h : a ++ b = w) : a = w.take a.length := by
  rw [← h, List.take_left]

/-! ### The header -/

/-- How many bytes behind the header the read that completes it takes, when `c`
has been read of the header. -/
def overrun (t : HeaderText) (c : Bytes) (segs : List Bytes) : Nat :=
  min (c.length + Arrivals.reach (t.bytes.length - c.length) segs) BUFFER_LENGTH - t.bytes.length

theorem reaches_completing (done : List (BufferedMessage L)) {c rest : Bytes} {t : HeaderText} (awaits : m.Awaits c)
    (present : Arrivals.Present segs) (stream : c ++ segs.flatten = t.bytes ++ rest)
    (short : c.length < t.bytes.length) (fits : t.bytes.length ≤ BUFFER_LENGTH) :
    ∃ m₁ c₁ bytes segs₁,
      (Iterate.Reaches Drained step { done, cur := m, arrivals := segs } P ↔
        Iterate.Reaches Drained step { done, cur := m₁, arrivals := segs₁ } P) ∧
      m₁.Awaits c₁ ∧ segs₁ ≠ [] ∧
      Arrivals.take (BUFFER_LENGTH - c₁.length) segs₁ =
        (bytes, Arrivals.skip (t.bytes.length + overrun t c segs - c.length) segs) ∧
      c₁ ++ bytes = t.bytes ++ rest.take (overrun t c segs) := by
  induction segs generalizing m c with
  | nil =>
    have size := congrArg List.length stream
    simp only [List.flatten_nil, List.append_nil, List.length_append] at size
    omega
  | cons seg segs ih =>
    obtain ⟨pos, below⟩ := Arrivals.present_cons present
    have asks := awaits.shouldRead
    by_cases near : t.bytes.length - c.length ≤ seg.length
    · -- The first arrival holds the end of the header.
      have taken : (seg.take (BUFFER_LENGTH - c.length)).length =
          t.bytes.length + overrun t c (seg :: segs) - c.length := by
        simp only [overrun, Arrivals.reach, if_pos near, List.length_take]
        omega
      refine ⟨m, c, seg.take (BUFFER_LENGTH - c.length), seg :: segs, Iff.rfl, awaits, by simp, ?_, ?_⟩
      · rw [← taken]
        exact Prod.ext rfl (Arrivals.take_eq present)
      · have joined : (c ++ seg.take (BUFFER_LENGTH - c.length)) ++
            (seg.drop (BUFFER_LENGTH - c.length) ++ segs.flatten) = t.bytes ++ rest := by
          rw [← stream, List.flatten_cons, List.append_assoc, ← List.append_assoc (seg.take _),
            List.take_append_drop]
        have size : (c ++ seg.take (BUFFER_LENGTH - c.length)).length =
            t.bytes.length + overrun t c (seg :: segs) := by
          rw [List.length_append, taken]
          omega
        rw [eq_take joined, size, List.take_append, List.take_of_length_le (by omega),
          Nat.add_sub_cancel_left]
    · have whole : Arrivals.take (BUFFER_LENGTH - c.length) (seg :: segs) = (seg, segs) := by
        rw [Arrivals.take, if_pos (by omega), List.take_of_length_le (by omega)]
      have joined : (c ++ seg) ++ segs.flatten = t.bytes ++ rest := by
        rw [← stream]
        simp
      have size : (c ++ seg).length < t.bytes.length := by
        rw [List.length_append]
        omega
      have front : c ++ seg = t.bytes.take (c ++ seg).length := by
        rw [eq_take joined, List.take_append_of_le_length (by omega)]
        simp
      obtain ⟨m', read, awaits'⟩ := BufferedMessage.readFrom_partial awaits size front (by omega)
      have stepped : step { done, cur := m, arrivals := seg :: segs } =
          .ok { done, cur := m', arrivals := segs } := by
        rw [step_read asks, whole]
        simp [read, bind, Except.bind, pure, Except.pure, awaits'.isRead]
      obtain ⟨m₁, c₁, bytes, segs₁, same, awaits₁, left, taken, joined⟩ :=
        ih awaits' below joined size
      have excess : overrun t (c ++ seg) segs = overrun t c (seg :: segs) := by
        simp only [overrun, Arrivals.reach, if_neg near, List.length_append, Nat.add_assoc,
          Nat.sub_add_eq]
      refine ⟨m₁, c₁, bytes, segs₁, ?_, awaits₁, left, ?_, by rw [joined, excess]⟩
      · rw [Iterate.reaches_step (by simp [Drained]) stepped, same]
      · rw [taken, excess, Arrivals.skip, if_pos (by omega), List.length_append]
        congr 2
        omega

/-- The state after a call of `read_from` that leaves `m`. -/
def after (done : List (BufferedMessage L)) (m : BufferedMessage L) (arrivals : List Bytes) : Session L :=
  if m.isRead then { done := done ++ [m], cur := .new, arrivals } else { done, cur := m, arrivals }

/-- The read that completes the header decides the rest of the run. -/
theorem reaches_header (done : List (BufferedMessage L)) {t : HeaderText} {rest : Bytes} (present : Arrivals.Present segs)
    (stream : segs.flatten = t.bytes ++ rest) (fits : t.bytes.length ≤ BUFFER_LENGTH) :
    ∃ (s : Session L) (m₁ : BufferedMessage L) (buffer : Bytes), ¬Drained s ∧
      (Iterate.Reaches Drained step { done, cur := .new, arrivals := segs } P ↔
        Iterate.Reaches Drained step s P) ∧
      step s = (do
        let header ← t.header
        let n ← BufferedMessage.declaredLength header
        return after done (BufferedMessage.opened m₁ header n (rest.take (overrun t [] segs)) buffer)
          (Arrivals.skip (t.bytes.length + overrun t [] segs) segs)) := by
  have size := HeaderText.four_le_length t
  obtain ⟨m₁, c₁, bytes, segs₁, same, awaits₁, left, taken, joined⟩ :=
    reaches_completing done (P := P) BufferedMessage.awaits_new present stream
      (by simp only [List.length_nil]; omega) fits
  have small : (t.bytes ++ rest.take (overrun t [] segs)).length < npos := by
    have room : overrun t [] segs ≤ BUFFER_LENGTH := by
      simp only [overrun]
      omega
    simp only [List.length_append, List.length_take, npos, SIZE_RANGE]
    unfold BUFFER_LENGTH at fits room
    omega
  refine ⟨{ done, cur := m₁, arrivals := segs₁ }, m₁, store m₁.buffer m₁.readLength bytes, left, same, ?_⟩
  rw [step_read awaits₁.shouldRead, taken, BufferedMessage.readFrom_header awaits₁ joined small]
  cases t.header (L := L) with
  | error e => rfl
  | ok header =>
    simp only [bind, Except.bind]
    cases BufferedMessage.declaredLength header with
    | error e => rfl
    | ok n => rfl

theorem reaches_begun (done : List (BufferedMessage L)) {t : HeaderText} {rest : Bytes} {header : HttpHeader L} {n : Nat}
    (present : Arrivals.Present segs) (stream : segs.flatten = t.bytes ++ rest)
    (fits : t.bytes.length ≤ BUFFER_LENGTH) (parsed : t.header = .ok header)
    (declared : BufferedMessage.declaredLength header = .ok n) :
    ∃ m', m'.Begun header n (rest.take (overrun t [] segs)) ∧
      (Iterate.Reaches Drained step { done, cur := .new, arrivals := segs } P ↔
        Iterate.Reaches Drained step
          (after done m' (Arrivals.skip (t.bytes.length + overrun t [] segs) segs)) P) := by
  obtain ⟨s, m₁, buffer, running, same, stepped⟩ := reaches_header done (P := P) present stream fits
  refine ⟨_, BufferedMessage.begun_opened m₁ header n _ buffer, ?_⟩
  simp only [parsed, declared, bind, Except.bind, pure, Except.pure] at stepped
  rw [same, Iterate.reaches_step running stepped]

theorem not_reaches_declared {t : HeaderText} {rest : Bytes} {header : HttpHeader L} {e : CppError}
    (present : Arrivals.Present segs) (stream : segs.flatten = t.bytes ++ rest)
    (fits : t.bytes.length ≤ BUFFER_LENGTH) (parsed : t.header = .ok header)
    (declared : BufferedMessage.declaredLength header = .error e) :
    ¬Iterate.Reaches Drained step { done, cur := .new, arrivals := segs } P := by
  obtain ⟨s, m₁, buffer, running, same, stepped⟩ := reaches_header done (P := P) present stream fits
  simp only [parsed, declared, bind, Except.bind] at stepped
  rw [same]
  exact Iterate.not_reaches_error running stepped

theorem not_yields_long {t : HeaderText} {rest : Bytes} (stream : segs.flatten = t.bytes ++ rest)
    (long : BUFFER_LENGTH < t.bytes.length) :
    ¬Iterate.Reaches Drained step { done, cur := BufferedMessage.new (L := L), arrivals := segs } P := by
  let Stuck (s : Session L) : Prop :=
    ∃ c, s.cur.Awaits c ∧ c ++ s.arrivals.flatten = t.bytes ++ rest
  have preserve : ∀ s s', Stuck s → ¬Drained s → step s = .ok s' → Stuck s' := by
    rintro ⟨done, m, segs⟩ s' ⟨c, awaits, stream⟩ _ stepped
    simp only at awaits stream
    rw [step_read awaits.shouldRead] at stepped
    have fits := awaits.fits
    have most := Arrivals.length_take_le (BUFFER_LENGTH - c.length) segs
    have whole : (c ++ (Arrivals.take (BUFFER_LENGTH - c.length) segs).1) ++
        (Arrivals.take (BUFFER_LENGTH - c.length) segs).2.flatten = t.bytes ++ rest := by
      rw [List.append_assoc, Arrivals.take_append, stream]
    generalize Arrivals.take (BUFFER_LENGTH - c.length) segs = got at *
    have short : (c ++ got.1).length < t.bytes.length := by
      rw [List.length_append]
      omega
    have front : c ++ got.1 = t.bytes.take (c ++ got.1).length := by
      rw [eq_take whole, List.take_append_of_le_length (by omega)]
      simp
    obtain ⟨m', read, awaits'⟩ := BufferedMessage.readFrom_partial awaits short front
      (by rw [List.length_append]; omega)
    simp only [read, bind, Except.bind, pure, Except.pure, awaits'.isRead] at stepped
    cases stepped
    exact ⟨c ++ got.1, awaits', whole⟩
  intro h
  obtain ⟨s, drained, ⟨c, awaits, stream'⟩, _⟩ :=
    Iterate.reaches_invariant ⟨[], BufferedMessage.awaits_new, stream⟩ preserve h
  have size := congrArg List.length stream'
  have empty : s.arrivals = [] := drained
  have fits := awaits.fits
  rw [empty] at size
  simp only [List.flatten_nil, List.append_nil, List.length_append] at size
  omega

/-! ### The body -/

theorem step_body (done : List (BufferedMessage L)) (opened : m.Opened) {bytes : Bytes} {left : List Bytes}
    (taken : Arrivals.take m.shouldRead segs = (bytes, left)) :
    step { done, cur := m, arrivals := segs } =
      .ok (after done (m.appended bytes) left) := by
  rw [step_read rfl, taken]
  simp [BufferedMessage.readFrom_body opened, bind, Except.bind, pure, Except.pure, after]

omit [Line L] in
theorem content_appended (m : BufferedMessage L) (bytes : Bytes) :
    content (m.appended bytes) = content m ++ bytes := by
  simp [content, BufferedMessage.appended]

theorem reaches_body (done : List (BufferedMessage L)) (opened : m.Opened) (known : m.bodyLength ≠ INF) (bound : m.bodyLength < SIZE_RANGE)
    (behind : m.read < m.bodyLength) (present : Arrivals.Present segs)
    (enough : m.bodyLength - m.read ≤ segs.flatten.length) :
    ∃ m', content m' = content m ++ segs.flatten.take (m.bodyLength - m.read) ∧
      (Iterate.Reaches Drained step { done, cur := m, arrivals := segs } P ↔
        Iterate.Reaches Drained step
          ⟨done ++ [m'], .new, Arrivals.skip (m.bodyLength - m.read) segs⟩ P) := by
  generalize need : m.bodyLength - m.read = k at *
  induction k using Nat.strongRecOn generalizing m segs with
  | ind k ih =>
    have left : segs ≠ [] := by
      rintro rfl
      simp at enough
      omega
    have asks := opened.shouldRead behind bound
    obtain ⟨bytes, taken, pos, most, joined⟩ := Arrivals.take_spec (n := m.shouldRead) present
      (by unfold BUFFER_LENGTH at asks; omega) left
    have total : (m.appended bytes).bodyLength = m.bodyLength := by
      simp [BufferedMessage.appended, known]
    have count : (m.appended bytes).read = m.read + bytes.length := rfl
    have stepped := step_body done opened taken
    have running : ¬Drained ({ done, cur := m, arrivals := segs } : Session L) := left
    by_cases last : bytes.length = k
    · refine ⟨m.appended bytes, ?_, ?_⟩
      · rw [content_appended, ← joined, ← last, List.take_left]
      · have complete : (m.appended bytes).isRead = true := by
          simp only [BufferedMessage.isRead, total, count, decide_eq_true_eq]
          omega
        rw [after, if_pos complete] at stepped
        rw [Iterate.reaches_step running stepped, last]
    · have unread : ¬(m.appended bytes).isRead = true := by
        simp only [BufferedMessage.isRead, total, count, decide_eq_true_eq]
        omega
      rw [after, if_neg unread] at stepped
      have need' : (m.appended bytes).bodyLength - (m.appended bytes).read = k - bytes.length := by
        rw [total, count]
        omega
      rw [← joined, List.length_append] at enough
      obtain ⟨m', held, same⟩ := ih (k - bytes.length) (by omega)
        (BufferedMessage.opened_appended opened bytes) (by rw [total]; exact known)
        (by rw [total]; exact bound) (by rw [total, count]; omega)
        (Arrivals.present_skip (n := bytes.length) present) need' (by omega)
      refine ⟨m', ?_, ?_⟩
      · rw [held, content_appended, ← joined, List.append_assoc, List.take_append,
          List.take_of_length_le (i := k) (by omega)]
      · rw [Iterate.reaches_step running stepped, same, Arrivals.skip_skip _ _ present,
          show bytes.length + (k - bytes.length) = k by omega]

theorem drained_body (opened : m.Opened) (known : m.bodyLength ≠ INF) (bound : m.bodyLength < SIZE_RANGE)
    (present : Arrivals.Present segs) (lacks : m.read + segs.flatten.length < m.bodyLength)
    (h : Iterate.Reaches Drained step { done, cur := m, arrivals := segs } P) :
    ∃ s, s.cur.Opened ∧ P s := by
  let Unfinished (s : Session L) : Prop := s.cur.Opened ∧ s.cur.bodyLength = m.bodyLength ∧
    Arrivals.Present s.arrivals ∧ s.cur.read + s.arrivals.flatten.length < m.bodyLength
  have preserve : ∀ s s', Unfinished s → ¬Drained s → step s = .ok s' → Unfinished s' := by
    rintro ⟨done, m', segs⟩ s' ⟨opened, total, present, lacks⟩ left stepped
    simp only at opened total present lacks
    have asks := opened.shouldRead (by omega) (by omega)
    obtain ⟨bytes, taken, pos, most, joined⟩ := Arrivals.take_spec (n := m'.shouldRead) present
      (by unfold BUFFER_LENGTH at asks; omega) left
    have keeps : (m'.appended bytes).bodyLength = m'.bodyLength := by
      simp [BufferedMessage.appended, total, known]
    have count : (m'.appended bytes).read = m'.read + bytes.length := rfl
    rw [← joined, List.length_append] at lacks
    have unread : ¬(m'.appended bytes).isRead = true := by
      simp only [BufferedMessage.isRead, keeps, count, decide_eq_true_eq]
      omega
    rw [step_body _ opened taken, after, if_neg unread] at stepped
    cases stepped
    exact ⟨BufferedMessage.opened_appended opened bytes, keeps.trans total, Arrivals.present_skip present,
      by simp only [count]; omega⟩
  have start : Unfinished { done, cur := m, arrivals := segs } := ⟨opened, rfl, present, lacks⟩
  obtain ⟨s, _, unfinished, holds⟩ := Iterate.reaches_invariant start preserve h
  exact ⟨s, unfinished.1, holds⟩

theorem reaches_done (h : Iterate.Reaches Drained step { done, cur := m, arrivals := segs } P) :
    ∃ s, done <+: s.done ∧ P s := by
  have preserve : ∀ s s' : Session L, done <+: s.done → ¬Drained s → step s = .ok s' → done <+: s'.done := by
    intro s s' kept _ stepped
    obtain ⟨m', _, stepped⟩ := Runs.bind_ok.mp stepped
    split at stepped
    · cases stepped
      exact kept.trans (List.prefix_append _ _)
    · cases stepped
      exact kept
  obtain ⟨s, _, kept, holds⟩ := Iterate.reaches_invariant (I := fun s => done <+: s.done)
    (List.prefix_refl done) preserve h
  exact ⟨s, kept, holds⟩

theorem not_yields_other {c : Bytes} {expected : List Bytes} (wrong : content m ≠ c) :
    ¬Yields { done := done ++ [m], cur := .new, arrivals := segs } (done.map content ++ c :: expected) := by
  intro h
  obtain ⟨s, ⟨later, kept⟩, _, held⟩ := reaches_done h
  rw [← kept] at held
  simp only [List.map_append, List.map_cons, List.append_assoc, List.cons_append, List.nil_append,
    List.append_cancel_left_eq, List.cons.injEq] at held
  exact wrong held.1

omit [Line L] in
/-- The sequence of contents still to come, behind those of the messages read. -/
theorem map_content_snoc {c : Bytes} (held : content m = c) (expected : List Bytes) :
    done.map content ++ c :: expected = (done ++ [m]).map content ++ expected := by
  simp [held]

theorem overrun_le {t : HeaderText} {rest : Bytes} (stream : segs.flatten = t.bytes ++ rest) :
    overrun t [] segs ≤ rest.length := by
  have most := Arrivals.reach_le t.bytes.length segs
  rw [stream, List.length_append] at most
  simp only [overrun, List.length_nil, Nat.sub_zero, Nat.zero_add]
  omega

/-- A message whose header declares `n` bytes is read as one with `body` exactly
when the header's last read stays inside it and `n` is the length of the body,
or is less and the body is complete before `is_read()` is asked. -/
theorem yields_sized (done : List (BufferedMessage L)) {t : HeaderText} {header : HttpHeader L} {body rest : Bytes} {n : Nat}
    (present : Arrivals.Present segs)
    (stream : segs.flatten = t.bytes ++ (body ++ rest)) (fits : t.bytes.length ≤ BUFFER_LENGTH)
    (parsed : t.header = .ok header) (declared : BufferedMessage.declaredLength header = .ok n)
    (known : n ≠ INF) (bound : n < SIZE_RANGE) (expected : List Bytes) :
    ∃ m', content m' = header.print ++ body ∧
      (Yields ⟨done, .new, segs⟩ (done.map content ++ (header.print ++ body) :: expected) ↔
        (overrun t [] segs ≤ body.length ∧
          (n = body.length ∨ n ≤ body.length ∧ overrun t [] segs = body.length)) ∧
        Yields ⟨done ++ [m'], .new, Arrivals.skip (t.bytes ++ body).length segs⟩
          ((done ++ [m']).map content ++ expected)) := by
  have excess := overrun_le stream
  have behind : (Arrivals.skip (t.bytes.length + overrun t [] segs) segs).flatten =
      (body ++ rest).drop (overrun t [] segs) := by
    rw [Arrivals.flatten_skip, stream, ← List.drop_drop, List.drop_left]
  obtain ⟨m', begun, same⟩ := reaches_begun done
    (P := fun s => s.cur = BufferedMessage.new ∧
      s.done.map content = done.map content ++ (header.print ++ body) :: expected)
    present stream fits parsed declared
  generalize overrun t [] segs = o at *
  have total : m'.bodyLength = n := by
    rw [begun.bodyLength, if_neg (fun h => known h.1)]
  have count : m'.read = o := by
    rw [begun.read, List.length_take]
    omega
  have stored : content m' = header.print ++ (body ++ rest).take o := by
    simp [content, begun.cache]
  have witness : content { (BufferedMessage.new : BufferedMessage L) with cache := [header.print ++ body] } =
      header.print ++ body := by
    simp [content]
  have size : (t.bytes ++ body).length = t.bytes.length + body.length := List.length_append
  by_cases complete : n ≤ o
  · -- The read that completed the header holds all that was declared.
    have isRead : m'.isRead = true := by simpa [BufferedMessage.isRead, total, count] using complete
    rw [after, if_pos isRead] at same
    by_cases whole : (body ++ rest).take o = body
    · have length : o = body.length := by
        have := congrArg List.length whole
        rw [List.length_take] at this
        omega
      refine ⟨m', by rw [stored, whole], ?_⟩
      rw [Yields, same, size, length, ← map_content_snoc (by rw [stored, whole])]
      exact ⟨fun h => ⟨⟨Nat.le_refl _, Or.inr ⟨by omega, rfl⟩⟩, h⟩, fun h => h.2⟩
    · refine ⟨_, witness, iff_of_false ?_ ?_⟩
      · rw [Yields, same]
        refine not_yields_other ?_
        rw [stored, Ne, List.append_cancel_left_eq]
        exact whole
      · rintro ⟨⟨within, length⟩, _⟩
        exact whole (by rw [show o = body.length by omega, List.take_left])
  · have unread : ¬m'.isRead = true := by simpa [BufferedMessage.isRead, total, count] using complete
    have need : m'.bodyLength - m'.read = n - o := by rw [total, count]
    have left := Arrivals.present_skip (n := t.bytes.length + o) present
    rw [after, if_neg unread] at same
    by_cases enough : n ≤ (body ++ rest).length
    · obtain ⟨m'', held, finished⟩ := reaches_body done
        (P := fun s => s.cur = BufferedMessage.new ∧
          s.done.map content = done.map content ++ (header.print ++ body) :: expected)
        begun.toOpened (by rwa [total]) (by rwa [total]) (by rw [total, count]; omega) left
        (by rw [need, behind, List.length_drop]; omega)
      have held : content m'' = header.print ++ (body ++ rest).take n := by
        rw [held, stored, need, behind, List.append_assoc, ← List.take_add,
          show o + (n - o) = n by omega]
      rw [need, Arrivals.skip_skip _ _ present,
        show t.bytes.length + o + (n - o) = t.bytes.length + n by omega] at finished
      by_cases sized : n = body.length
      · rw [sized, List.take_left] at held
        refine ⟨m'', held, ?_⟩
        rw [Yields, same, finished, size, ← sized, ← map_content_snoc held]
        exact ⟨fun h => ⟨⟨by omega, Or.inl rfl⟩, h⟩, fun h => h.2⟩
      · refine ⟨_, witness, iff_of_false ?_ (fun h => ?_)⟩
        · rw [Yields, same, finished]
          refine not_yields_other ?_
          rw [held, Ne, List.append_cancel_left_eq]
          intro whole
          have := congrArg List.length whole
          rw [List.length_take] at this
          omega
        · omega
    · refine ⟨_, witness, iff_of_false ?_ (fun h => ?_)⟩
      · rw [Yields, same]
        intro h
        obtain ⟨s, opened, fresh, _⟩ := drained_body begun.toOpened (by rwa [total]) (by rwa [total]) left
          (by rw [total, count, behind, List.length_drop]; omega) h
        exact opened.headerLength (by rw [fresh]; rfl)
      · rw [List.length_append] at enough
        omega

end Session

end ProxyServer
