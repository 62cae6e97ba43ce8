import ProxyServer.Foundation.Exchange
import ProxyServer.Tunnel.Relay

/-!
# Raw messages that are moved

The condition of the loop in `swap` is not the bound that it looks like: the loop ends only
when the first message is empty, and then it has exchanged one byte at most.
`exchanged_iff` says for which messages that is enough. A tunnel moves none.
-/

namespace ProxyServer

/-! ### The source -/

namespace RawMessage

/-- The condition of the loop for these read lengths. `<` binds closer than `?:`, so the
index is compared with the result of a comparison, and a length is the condition. -/
def swapGoesOn (first second i : Nat) : Bool := (if i < (decide (first > second)).toNat then first else second) ≠ 0

/-- `swap(raw_message &first, raw_message &second)`. There is no result when it indexes
past one of the buffers. -/
def swap (first second : RawMessage) : Option (RawMessage × RawMessage) :=
  let first' := { first with readLength := second.readLength, writeLength := second.writeLength }
  let second' := { second with readLength := first.readLength, writeLength := first.writeLength }
  (Exchange.loop (swapGoesOn first'.readLength second'.readLength) 0 first.buffer second.buffer).map fun buffers =>
    ({ first' with buffer := buffers.1 }, { second' with buffer := buffers.2 })

/-- `raw_message(raw_message const &other)`, in memory that may hold anything. -/
def copyConstruct (memory other : RawMessage) : Option RawMessage :=
  if other.readLength ≤ memory.buffer.length ∧ other.readLength ≤ other.buffer.length then
    some { other with buffer := store memory.buffer 0 (other.buffer.take other.readLength) }
  else none

/-- `raw_message(raw_message &&other)`, which sets nothing in the memory before it swaps. -/
def moveConstruct (memory other : RawMessage) : Option (RawMessage × RawMessage) := memory.swap other

/-- `operator=(raw_message other)` -/
def assign (this other : RawMessage) : Option RawMessage := (this.swap other).map (·.1)

/-- The parameter of `operator=` is constructed from `other` in the memory. -/
def moveAssign (this memory other : RawMessage) : Option (RawMessage × RawMessage) := do
  let (parameter, other) ← memory.moveConstruct other
  let this ← this.assign parameter
  return (this, other)

def copyAssign (this memory other : RawMessage) : Option RawMessage := do
  let parameter ← memory.copyConstruct other
  this.assign parameter

end RawMessage

/-- A raw message in memory. Its array has all its bytes; those that were never written
may be anything. -/
structure RawObject extends RawMessage where
  sized : buffer.length = BUFFER_LENGTH

namespace RawObject

/-- `raw_message()` -/
def construct (memory : RawObject) : RawObject := { memory with readLength := 0, writeLength := 0 }

theorem sized_readFrom (o : RawObject) {bytes : Bytes} (fit : o.readLength + bytes.length ≤ BUFFER_LENGTH) :
    (o.toRawMessage.readFrom bytes).buffer.length = BUFFER_LENGTH := by
  show (store o.buffer o.readLength bytes).length = _
  have sized := o.sized
  unfold store
  rw [List.length_append, List.length_append, List.length_take, List.length_drop]
  omega

theorem sized_writeTo (o : RawObject) (accepted : Nat) : (o.toRawMessage.writeTo accepted).2.buffer.length = BUFFER_LENGTH := by
  unfold RawMessage.writeTo
  dsimp only
  split
  · exact o.sized
  · exact o.sized

def readFrom (o : RawObject) (bytes : Bytes) (fit : o.readLength + bytes.length ≤ BUFFER_LENGTH) : RawObject :=
  { o.toRawMessage.readFrom bytes with sized := o.sized_readFrom fit }

def writeTo (o : RawObject) (accepted : Nat) : Bytes × RawObject :=
  ((o.toRawMessage.writeTo accepted).1, { (o.toRawMessage.writeTo accepted).2 with sized := o.sized_writeTo accepted })

end RawObject

namespace RawMessage

variable {m m' other first second memory this : RawMessage} {bytes : Bytes} {n : Nat}

/-! ### A message of a tunnel in memory -/

/-- The bytes that were read are those of the message. -/
structure Stored (o m : RawMessage) : Prop where
  readLength : o.readLength = m.readLength
  writeLength : o.writeLength = m.writeLength
  bytes : o.buffer.take m.readLength = m.buffer.take m.readLength

theorem Stored.unsent {o : RawMessage} (stored : Stored o m) : o.unsent = m.unsent := by
  unfold RawMessage.unsent
  rw [stored.readLength, stored.writeLength, stored.bytes]

theorem stored_new (memory : RawObject) : Stored memory.construct.toRawMessage .new := ⟨rfl, rfl, rfl⟩

theorem Stored.readFrom {o : RawObject} (stored : Stored o.toRawMessage m) (bounded : m.Bounded)
    (fit : o.readLength + bytes.length ≤ BUFFER_LENGTH) : Stored (o.readFrom bytes fit).toRawMessage (m.readFrom bytes) := by
  have same := stored.readLength
  have sized := o.sized
  constructor
  · exact congrArg (· + bytes.length) same
  · exact stored.writeLength
  · show (store o.buffer o.readLength bytes).take (m.readLength + bytes.length) =
      (store m.buffer m.readLength bytes).take (m.readLength + bytes.length)
    rw [same, take_store bounded.filled, take_store (by omega), stored.bytes]

theorem Stored.writeTo {o : RawObject} (stored : Stored o.toRawMessage m) (accepted : Nat) :
    (o.writeTo accepted).1 = (m.writeTo accepted).1 ∧ Stored (o.writeTo accepted).2.toRawMessage (m.writeTo accepted).2 := by
  have written : (o.toRawMessage.writeTo accepted).1 = (m.writeTo accepted).1 := by
    rw [writeTo_written, writeTo_written, stored.unsent]
  refine ⟨written, ?_⟩
  show Stored (o.toRawMessage.writeTo accepted).2 (m.writeTo accepted).2
  unfold RawMessage.writeTo
  dsimp only
  rw [stored.readLength, stored.writeLength, stored.bytes]
  split
  · exact ⟨rfl, rfl, rfl⟩
  · exact ⟨rfl, rfl, stored.bytes⟩

/-! ### The loop -/

/-- `swap` has a result exactly when the loop of the source comes to its end in bounds, and
then what the buffers hold there. -/
theorem swap_reaches {result : RawMessage × RawMessage} :
    Iterate.Reaches (Exchange.Stops (swapGoesOn second.readLength first.readLength)) Exchange.step
      ⟨0, first.buffer, second.buffer⟩
      (fun s => ({ second with buffer := s.first }, { first with buffer := s.second }) = result) ↔
        first.swap second = some result := by
  refine (Exchange.loop_reaches (p := []) (q := [])
    (P := fun a b => ({ second with buffer := a }, { first with buffer := b }) = result) rfl rfl).trans ?_
  unfold swap
  rw [Option.map_eq_some_iff]
  exact Iff.rfl

/-- While the second length is not 0, the condition is not, whichever of the two it is. -/
theorem swapGoesOn_filled {a b : Nat} (filled : b ≠ 0) (i : Nat) : swapGoesOn a b i = true := by
  unfold swapGoesOn
  rw [decide_eq_true_eq]
  by_cases longer : a > b
  · split
    · exact Nat.ne_of_gt (Nat.lt_of_le_of_lt (Nat.zero_le _) longer)
    · exact filled
  · rw [decide_eq_false longer, Bool.toNat_false, if_neg (Nat.not_lt_zero i)]
    exact filled

/-- When it is 0, the loop ends behind the first index, or before it. -/
theorem swapGoesOn_empty (a i : Nat) : swapGoesOn a 0 i = decide (i < min 1 a) := by
  unfold swapGoesOn
  rcases Nat.eq_zero_or_pos a with none_read | longer
  · rw [none_read]
    simp
  · rw [decide_eq_true longer, Nat.min_eq_left longer, Bool.toNat_true]
    split
    · rename_i early
      rw [decide_eq_true early]
      exact decide_eq_true (Nat.ne_of_gt longer)
    · rename_i late
      rw [decide_eq_false late]
      rfl

/-- What `swap` makes of an empty message: of the bytes of the other one it has the first. -/
def takes (m other : RawMessage) : RawMessage :=
  { other with buffer := other.buffer.take (min 1 other.readLength) ++ m.buffer.drop (min 1 other.readLength) }

/-- `swap` ends in bounds when the first message is empty. -/
theorem swap_some_iff (left : 0 < first.buffer.length) (right : 0 < second.buffer.length)
    {result : RawMessage × RawMessage} : first.swap second = some result ↔ first.readLength = 0 ∧
      result = (first.takes second, { first with
        buffer := first.buffer.take (min 1 second.readLength) ++ second.buffer.drop (min 1 second.readLength) }) := by
  unfold swap
  dsimp only
  by_cases empty : first.readLength = 0
  · rw [and_iff_right empty, empty,
      Exchange.loop_exchanges (k := min 1 second.readLength) _ _ (by omega) (by omega)]
    · rw [Option.map_some, Option.some.injEq, eq_comm]
      exact Iff.rfl
    · intro j low
      rw [swapGoesOn_empty, Nat.zero_add]
      exact decide_eq_true low
    · rw [swapGoesOn_empty, Nat.zero_add]
      exact decide_eq_false (Nat.lt_irrefl _)
  · refine iff_of_false ?_ (fun both => empty both.1)
    rw [Exchange.loop_past (fun j => swapGoesOn_filled empty _)]
    intro same
    cases same

theorem takes_length (left : 0 < m.buffer.length) (right : 0 < other.buffer.length) : 0 < (m.takes other).buffer.length := by
  unfold takes
  rw [List.length_append, List.length_take, List.length_drop]
  omega

/-- What an empty message holds makes no difference for what is moved through it. -/
theorem takes_takes (right : 0 < other.buffer.length) : this.takes (memory.takes other) = this.takes other := by
  have one : min 1 other.readLength ≤ (other.buffer.take (min 1 other.readLength)).length := by
    rw [List.length_take]
    omega
  unfold takes
  dsimp only
  rw [List.take_append_of_le_length one, List.take_take, Nat.min_self]

theorem takes_stored {o : RawMessage} (stored : Stored o m) : this.takes o = this.takes m := by
  have heads := congrArg (List.take (min 1 m.readLength)) stored.bytes
  rw [List.take_take, List.take_take, Nat.min_assoc, Nat.min_self] at heads
  unfold takes
  rw [stored.readLength, stored.writeLength, heads]

/-- The messages have the same bytes from `start` on, as far as the second was read. -/
def Agree (start : Nat) (m other : RawMessage) : Prop :=
  (m.buffer.take other.readLength).drop start = (other.buffer.take other.readLength).drop start

instance (start : Nat) (m other : RawMessage) : Decidable (Agree start m other) := inferInstanceAs (Decidable (_ = _))

theorem takes_iff (right : 0 < other.buffer.length) (w : Nat) :
    ((m.takes other).buffer.take other.readLength).drop w = (other.buffer.take other.readLength).drop w ↔
      Agree (max 1 w) m other := by
  unfold takes Agree
  rw [Exchange.drop_exchanged_iff (Nat.min_le_right _ _) (by omega)]
  rcases Nat.eq_zero_or_pos other.readLength with none_read | some_read
  · simp [none_read]
  · rw [Nat.min_eq_left some_read]

/-! ### What is moved -/

/-- The lengths are exchanged, and the bytes that were read. -/
structure Exchanged (first second first' second' : RawMessage) : Prop where
  readLength : first'.readLength = second.readLength ∧ second'.readLength = first.readLength
  writeLength : first'.writeLength = second.writeLength ∧ second'.writeLength = first.writeLength
  bytes : first'.buffer.take first'.readLength = second.buffer.take second.readLength ∧
    second'.buffer.take second'.readLength = first.buffer.take first.readLength

/-- `swap` ends without indexing past a buffer, and exchanges the messages. -/
def Swaps (first second : RawMessage) : Prop :=
  ∃ first' second', first.swap second = some (first', second') ∧ Exchanged first second first' second'

/-- The message that is made has the pending bytes of the other one. -/
def Moves (made : Option (RawMessage × RawMessage)) (other : RawMessage) : Prop :=
  ∃ this rest, made = some (this, rest) ∧ this.unsent = other.unsent

theorem swaps_iff (left : 0 < first.buffer.length) (right : 0 < second.buffer.length) :
    Swaps first second ↔ first.readLength = 0 ∧ Agree 1 first second := by
  have agree := takes_iff (m := first) right 0
  rw [Nat.max_eq_left (Nat.zero_le 1), List.drop_zero, List.drop_zero] at agree
  rw [← agree]
  constructor
  · rintro ⟨first', second', swapped, exchanged⟩
    obtain ⟨empty, same⟩ := (swap_some_iff left right).mp swapped
    cases same
    exact ⟨empty, exchanged.bytes.1⟩
  · rintro ⟨empty, bytes⟩
    refine ⟨_, _, (swap_some_iff left right).mpr ⟨empty, rfl⟩, ⟨rfl, rfl⟩, ⟨rfl, rfl⟩, bytes, ?_⟩
    show List.take first.readLength _ = _
    rw [empty]
    rfl

theorem moveConstruct_iff (left : 0 < memory.buffer.length) (right : 0 < other.buffer.length) :
    Moves (memory.moveConstruct other) other ↔ memory.readLength = 0 ∧ Agree (max 1 other.writeLength) memory other := by
  rw [← takes_iff right]
  constructor
  · rintro ⟨this, rest, swapped, kept⟩
    obtain ⟨empty, same⟩ := (swap_some_iff left right).mp swapped
    cases same
    exact ⟨empty, kept⟩
  · rintro ⟨empty, kept⟩
    exact ⟨_, _, (swap_some_iff left right).mpr ⟨empty, rfl⟩, kept⟩

theorem assign_some_iff (left : 0 < this.buffer.length) (right : 0 < other.buffer.length) :
    this.assign other = some m ↔ this.readLength = 0 ∧ m = this.takes other := by
  unfold assign
  rw [Option.map_eq_some_iff]
  constructor
  · rintro ⟨result, swapped, rfl⟩
    obtain ⟨empty, rfl⟩ := (swap_some_iff left right).mp swapped
    exact ⟨empty, rfl⟩
  · rintro ⟨empty, rfl⟩
    exact ⟨_, (swap_some_iff left right).mpr ⟨empty, rfl⟩, rfl⟩

theorem moveAssign_iff (left : 0 < this.buffer.length) (inside : 0 < memory.buffer.length) (right : 0 < other.buffer.length) :
    Moves (this.moveAssign memory other) other ↔
      memory.readLength = 0 ∧ this.readLength = 0 ∧ Agree (max 1 other.writeLength) this other := by
  rw [← takes_iff right]
  constructor
  · rintro ⟨this', rest, moved, kept⟩
    obtain ⟨⟨parameter, rest'⟩, constructed, moved⟩ := Option.bind_eq_some_iff.mp moved
    obtain ⟨this'', assigned, same⟩ := Option.bind_eq_some_iff.mp moved
    cases same
    obtain ⟨fresh, same⟩ := (swap_some_iff inside right).mp constructed
    cases same
    obtain ⟨empty, rfl⟩ := (assign_some_iff left (takes_length inside right)).mp assigned
    rw [takes_takes right] at kept
    exact ⟨fresh, empty, kept⟩
  · rintro ⟨fresh, empty, kept⟩
    have constructed := (swap_some_iff inside right).mpr ⟨fresh, rfl⟩
    have assigned := (assign_some_iff left (takes_length inside right)).mpr ⟨empty, rfl⟩
    rw [takes_takes right] at assigned
    have moved : this.moveAssign memory other = some (this.takes other, _) :=
      Option.bind_eq_some_iff.mpr ⟨_, constructed, Option.bind_eq_some_iff.mpr ⟨_, assigned, rfl⟩⟩
    exact ⟨_, _, moved, kept⟩

end RawMessage

namespace RawObject

open RawMessage

theorem present (o : RawObject) : 0 < o.buffer.length := by
  rw [o.sized]
  decide

/-- A copy has all the bytes. -/
theorem copied (memory : RawObject) {other : RawObject} (valid : other.readLength ≤ BUFFER_LENGTH) :
    ∃ this, memory.copyConstruct other.toRawMessage = some this ∧ 0 < this.buffer.length ∧
      Stored this other.toRawMessage := by
  have sized := memory.sized
  have sized' := other.sized
  have length : (other.buffer.take other.readLength).length = other.readLength :=
    List.length_take_of_le (by omega)
  have bytes : (store memory.buffer 0 (other.buffer.take other.readLength)).take
      (0 + (other.buffer.take other.readLength).length) = _ := take_store (Nat.zero_le _)
  rw [length, Nat.zero_add] at bytes
  refine ⟨_, if_pos ⟨by omega, by omega⟩, ?_, rfl, rfl, bytes⟩
  show 0 < (store memory.buffer 0 (other.buffer.take other.readLength)).length
  unfold store
  rw [List.length_append, List.length_append, List.length_drop]
  unfold BUFFER_LENGTH at sized
  omega

/-- But `operator=` swaps it. -/
theorem copyAssign_iff {this memory other : RawObject} (valid : other.readLength ≤ BUFFER_LENGTH) :
    (∃ m, this.copyAssign memory.toRawMessage other.toRawMessage = some m ∧ m.unsent = other.unsent) ↔
      this.readLength = 0 ∧ Agree (max 1 other.writeLength) this.toRawMessage other.toRawMessage := by
  obtain ⟨parameter, made, room, stored⟩ := copied memory valid
  rw [← takes_iff other.present]
  unfold copyAssign
  rw [made]
  show (∃ m, this.assign parameter = some m ∧ _) ↔ _
  constructor
  · rintro ⟨m, assigned, kept⟩
    obtain ⟨empty, rfl⟩ := (assign_some_iff this.present room).mp assigned
    rw [takes_stored stored] at kept
    exact ⟨empty, kept⟩
  · rintro ⟨empty, kept⟩
    refine ⟨_, (assign_some_iff this.present room).mpr ⟨empty, rfl⟩, ?_⟩
    rw [takes_stored stored]
    exact kept

/-- `swap` ends in bounds and exchanges two messages exactly when the first is empty and
has the bytes of the second behind the first of them; and a message that is moved keeps its
pending bytes when what it is moved to, with the memory on the way, is empty and has those
of them behind the first. -/
theorem exchanged_iff (first second memory : RawObject) :
    (Swaps first.toRawMessage second.toRawMessage ↔
      first.readLength = 0 ∧ Agree 1 first.toRawMessage second.toRawMessage) ∧
    (Moves (memory.moveConstruct second.toRawMessage) second.toRawMessage ↔
      memory.readLength = 0 ∧ Agree (max 1 second.writeLength) memory.toRawMessage second.toRawMessage) ∧
    (Moves (first.moveAssign memory.toRawMessage second.toRawMessage) second.toRawMessage ↔
      memory.readLength = 0 ∧ first.readLength = 0 ∧
        Agree (max 1 second.writeLength) first.toRawMessage second.toRawMessage) :=
  ⟨swaps_iff first.present second.present, moveConstruct_iff memory.present second.present,
    moveAssign_iff first.present memory.present second.present⟩

/-- Memory that holds 0. -/
def zeroed : RawObject where
  readLength := 0
  writeLength := 0
  buffer := List.replicate BUFFER_LENGTH 0
  sized := List.length_replicate

/-- A message into which a byte was read. -/
def filled : RawObject := zeroed.construct.readFrom (lit "a") (by decide)

/-- Into a message that is empty it is moved. -/
example : Swaps zeroed.construct.toRawMessage filled.toRawMessage :=
  (swaps_iff zeroed.construct.present filled.present).mpr ⟨rfl, rfl⟩

theorem swap_indexes_past : ¬∀ first second : RawObject, first.writeLength ≤ first.readLength →
    first.readLength ≤ BUFFER_LENGTH → second.writeLength ≤ second.readLength → second.readLength ≤ BUFFER_LENGTH →
    Swaps first.toRawMessage second.toRawMessage := by
  intro claim
  have swaps := claim filled zeroed.construct (by decide) (by decide) (by decide) (by decide)
  have empty := ((swaps_iff filled.present zeroed.construct.present).mp swaps).1
  cases empty

end RawObject

end ProxyServer
