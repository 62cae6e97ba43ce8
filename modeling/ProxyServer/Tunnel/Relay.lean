import ProxyServer.Foundation.Pipe
import ProxyServer.Foundation.Runs
import ProxyServer.Server.State

/-!
# The tunnel of a CONNECT

The two ends of a tunnel, each with its interest and the raw message that is
filled from it, and the handler of `make_connect_transfer_handler`.
-/

namespace ProxyServer

/-! ### Raw messages -/

namespace RawMessage

variable {m : RawMessage} {bytes : Bytes} {n : Nat} {p : Pipe UInt8}

def unsent (m : RawMessage) : Bytes := (m.buffer.take m.readLength).drop m.writeLength

/-- The cursor of `write_to` is never left at the end of the buffer. -/
structure Bounded (m : RawMessage) : Prop where
  ordered : m.writeLength ≤ m.readLength
  fits : m.readLength ≤ BUFFER_LENGTH
  room : m.writeLength < BUFFER_LENGTH
  filled : m.readLength ≤ m.buffer.length

theorem bounded_reset (buffer : Bytes) : Bounded { readLength := 0, writeLength := 0, buffer } :=
  { ordered := Nat.le_refl 0, fits := Nat.zero_le _, room := Nat.two_pow_pos 13, filled := Nat.zero_le _ }

theorem unsent_length (bounded : m.Bounded) : m.unsent.length = m.readLength - m.writeLength := by
  have filled := bounded.filled
  unfold unsent
  rw [List.length_drop, List.length_take]
  omega

theorem canWrite_iff (bounded : m.Bounded) : m.canWrite = true ↔ m.unsent ≠ [] := by
  have length := unsent_length bounded
  rw [ne_eq, ← List.length_eq_zero_iff, length]
  unfold canWrite
  rw [decide_eq_true_iff]
  omega

theorem canRead_or_canWrite (bounded : m.Bounded) : m.canRead = true ∨ m.canWrite = true := by
  have room := bounded.room
  unfold canRead canWrite
  rw [decide_eq_true_iff, decide_eq_true_iff]
  omega

theorem take_store {buffer : Bytes} {pos : Nat} (bound : pos ≤ buffer.length) :
    (store buffer pos bytes).take (pos + bytes.length) = buffer.take pos ++ bytes := by
  have length : (buffer.take pos).length = pos := List.length_take_of_le bound
  unfold store
  rw [← List.append_assoc, List.take_left' (by rw [List.length_append, length])]

theorem readFrom_bounded (bounded : m.Bounded) (fit : bytes.length ≤ BUFFER_LENGTH - m.readLength) :
    (m.readFrom bytes).Bounded := by
  obtain ⟨ordered, fits, room, filled⟩ := bounded
  unfold readFrom
  constructor
  · show m.writeLength ≤ m.readLength + bytes.length
    omega
  · show m.readLength + bytes.length ≤ BUFFER_LENGTH
    omega
  · exact room
  · show m.readLength + bytes.length ≤ (store m.buffer m.readLength bytes).length
    unfold store
    rw [List.length_append, List.length_append, List.length_take_of_le filled]
    omega

theorem readFrom_unsent (bounded : m.Bounded) : (m.readFrom bytes).unsent = m.unsent ++ bytes := by
  have ordered := bounded.ordered
  have length := List.length_take_of_le bounded.filled
  unfold unsent readFrom
  show ((store m.buffer m.readLength bytes).take (m.readLength + bytes.length)).drop m.writeLength = _
  rw [take_store bounded.filled, List.drop_append_of_le_length (by omega)]

theorem writeTo_written : (m.writeTo n).1 = m.unsent.take n := by
  unfold writeTo unsent
  dsimp only
  split <;> rfl

/-- The cursors go back to the start of the buffer only when nothing is left between them. -/
theorem writeTo_kept (bounded : m.Bounded) :
    (m.writeTo n).2.Bounded ∧ (m.writeTo n).2.unsent = m.unsent.drop n := by
  have length := unsent_length bounded
  obtain ⟨ordered, fits, room, filled⟩ := bounded
  have taken : (m.unsent.take n).length = min n (m.readLength - m.writeLength) := by
    rw [List.length_take, length]
  have split_at : (m.writeTo n).2 = if m.writeLength + (m.unsent.take n).length = BUFFER_LENGTH
      then { m with readLength := 0, writeLength := 0 }
      else { m with writeLength := m.writeLength + (m.unsent.take n).length } := by
    unfold writeTo unsent
    dsimp only
    split <;> rfl
  rw [split_at]
  split
  · rename_i full
    constructor
    · exact bounded_reset m.buffer
    · show [] = _
      rw [eq_comm, List.drop_eq_nil_iff, length]
      omega
  · rename_i partly
    constructor
    · constructor
      · show m.writeLength + (m.unsent.take n).length ≤ m.readLength
        omega
      · exact fits
      · show m.writeLength + (m.unsent.take n).length < BUFFER_LENGTH
        omega
      · exact filled
    · show (m.buffer.take m.readLength).drop (m.writeLength + (m.unsent.take n).length) = _
      rw [← List.drop_drop]
      show m.unsent.drop (m.unsent.take n).length = _
      rw [List.length_take]
      rcases Nat.le_total n m.unsent.length with short | long
      · rw [Nat.min_eq_left short]
      · rw [Nat.min_eq_right long, List.drop_length, List.drop_eq_nil_of_le long]

theorem writeTo_full (full : (m.writeTo n).2.canRead = false) : m.canRead = false := by
  unfold writeTo canRead at full
  dsimp only at full
  split at full
  · cases full
  · exact full

/-- The message is a pipe that holds what is between the cursors. -/
structure Holds (m : RawMessage) (p : Pipe UInt8) : Prop extends Bounded m where
  holds : m.unsent = p.held

theorem holds_new : Holds new .empty := { bounded_reset [] with holds := rfl }

theorem holds_readFrom (holds : m.Holds p) (fit : bytes.length ≤ BUFFER_LENGTH - m.readLength) :
    (m.readFrom bytes).Holds (p.push bytes) := by
  apply Holds.mk (readFrom_bounded holds.toBounded fit)
  rw [readFrom_unsent holds.toBounded, holds.holds]
  rfl

theorem holds_writeTo (holds : m.Holds p) : (m.writeTo n).2.Holds (p.pop n) := by
  obtain ⟨bounded, kept⟩ := writeTo_kept (n := n) holds.toBounded
  apply Holds.mk bounded
  rw [kept, holds.holds]
  rfl

end RawMessage

/-! ### The handler -/

def Side.other : Side → Side
  | .client => .server
  | .server => .client

@[simp] theorem Side.other_other (side : Side) : side.other.other = side := by cases side <;> rfl

@[simp] theorem Side.other_ne (side : Side) : side.other ≠ side := by cases side <;> decide

/-- The bytes behind `received` and `sent` are not in the source. -/
structure TunnelEnd where
  interest : FdState
  message : RawMessage
  received : Bytes
  sent : Bytes

structure Tunnel where
  ends : Side → TunnelEnd
  /-- The end whose RDHUP closed the connection. -/
  closedBy : Option Side

/-- An event for one end, and what `read` and `write` return to its handler. -/
structure TunnelCall where
  side : Side
  state : FdState
  read : Bytes
  accepted : Nat
  deriving DecidableEq, Repr

namespace Tunnel

def modifyEnd (t : Tunnel) (side : Side) (f : TunnelEnd → TunnelEnd) : Tunnel :=
  { t with ends := fun x => if x = side then f (t.ends x) else t.ends x }

/-- `update(get_state() ^ state)` -/
def toggle (t : Tunnel) (side : Side) (state : FdState) : Tunnel :=
  t.modifyEnd side fun e => { e with interest := e.interest.xor state }

/-- `update(get_state() | state)` -/
def arm (t : Tunnel) (side : Side) (state : FdState) : Tunnel :=
  t.modifyEnd side fun e => { e with interest := e.interest.union state }

/-- `in_message->read_from(in.get_fd())` -/
def readFrom (t : Tunnel) (side : Side) (bytes : Bytes) : Tunnel :=
  t.modifyEnd side fun e => { e with message := e.message.readFrom bytes, received := e.received ++ bytes }

/-- `out_message->write_to(in.get_fd())` -/
def writeTo (t : Tunnel) (side : Side) (accepted : Nat) : Tunnel :=
  let (written, m) := (t.ends side.other).message.writeTo accepted
  (t.modifyEnd side.other fun e => { e with message := m }).modifyEnd side
    fun e => { e with sent := e.sent ++ written }

def receive (t : Tunnel) (side : Side) (read : Bytes) : Tunnel :=
  let t := t.readFrom side (read.take (BUFFER_LENGTH - (t.ends side).message.readLength))
  let t := if (t.ends side).message.canRead then t else t.toggle side .IN
  if (t.ends side).message.canWrite then t.arm side.other .OUT else t

def transmit (t : Tunnel) (side : Side) (accepted : Nat) : Tunnel :=
  let t := t.writeTo side accepted
  let t := if (t.ends side.other).message.canWrite then t else t.toggle side .OUT
  if (t.ends side.other).message.canRead then t.arm side.other .IN else t

/-- `make_connect_transfer_handler` of the end `call.side`. A closed connection
has no handlers. -/
def step (t : Tunnel) (call : TunnelCall) : Tunnel :=
  if t.closedBy ≠ none then t
  else if call.state.is .RDHUP then { t with closedBy := some call.side }
  else
    let t := if call.state.is .IN && (t.ends call.side).message.canRead then t.receive call.side call.read else t
    if call.state.is .OUT && (t.ends call.side.other).message.canWrite then t.transmit call.side call.accepted
    else t

/-- What `handle_connect` leaves. -/
def start : Tunnel where
  ends _ := { interest := .union .RDHUP (.union .IN .OUT), message := .new, received := [], sent := [] }
  closedBy := none

def run (calls : List TunnelCall) : Tunnel := calls.foldl step start

variable {t : Tunnel} {side : Side} {f : TunnelEnd → TunnelEnd} {bytes : Bytes} {n : Nat}
  {call : TunnelCall}

@[simp] theorem modifyEnd_self : (t.modifyEnd side f).ends side = f (t.ends side) := if_pos rfl

@[simp] theorem modifyEnd_other : (t.modifyEnd side f).ends side.other = t.ends side.other :=
  if_neg (Side.other_ne side)

@[simp] theorem modifyEnd_back : (t.modifyEnd side.other f).ends side = t.ends side :=
  if_neg (Side.other_ne side).symm

/-! ### What the branches leave -/

theorem receive_eq :
    t.receive side bytes =
      let read := t.readFrom side (bytes.take (BUFFER_LENGTH - (t.ends side).message.readLength))
      let m := (read.ends side).message
      let toggled := if !m.canRead then read.toggle side .IN else read
      if m.canWrite then toggled.arm side.other .OUT else toggled := by
  unfold receive toggle
  dsimp only
  split <;> simp_all

theorem transmit_eq :
    t.transmit side n =
      let written := t.writeTo side n
      let m := (written.ends side.other).message
      let toggled := if !m.canWrite then written.toggle side .OUT else written
      if m.canRead then toggled.arm side.other .IN else toggled := by
  unfold transmit toggle
  dsimp only
  split <;> simp_all

theorem receive_self :
    (t.receive side bytes).ends side =
      let e := t.ends side
      let taken := bytes.take (BUFFER_LENGTH - e.message.readLength)
      let m := e.message.readFrom taken
      { interest := if m.canRead then e.interest else e.interest.xor .IN, message := m,
        received := e.received ++ taken, sent := e.sent } := by
  unfold receive readFrom toggle arm
  dsimp only
  split <;> split <;> simp_all

theorem receive_other :
    (t.receive side bytes).ends side.other =
      let e := t.ends side
      let taken := bytes.take (BUFFER_LENGTH - e.message.readLength)
      let interest := (t.ends side.other).interest
      { t.ends side.other with
        interest := if (e.message.readFrom taken).canWrite then interest.union .OUT else interest } := by
  unfold receive readFrom toggle arm
  dsimp only
  split <;> split <;> simp_all

theorem transmit_self :
    (t.transmit side n).ends side =
      let e := t.ends side
      let m := (t.ends side.other).message
      { e with
        interest := if (m.writeTo n).2.canWrite then e.interest else e.interest.xor .OUT
        sent := e.sent ++ (m.writeTo n).1 } := by
  unfold transmit writeTo toggle arm
  dsimp only
  split <;> split <;> simp_all

theorem transmit_other :
    (t.transmit side n).ends side.other =
      let e := t.ends side.other
      { e with
        interest := if (e.message.writeTo n).2.canRead then e.interest.union .IN else e.interest
        message := (e.message.writeTo n).2 } := by
  unfold transmit writeTo toggle arm
  dsimp only
  split <;> split <;> simp_all

/-! ### What a step does -/

theorem step_closed (closed : t.closedBy ≠ none) : t.step call = t := if_pos closed

theorem step_hungUp (isOpen : t.closedBy = none) (hup : call.state.is .RDHUP = true) :
    t.step call = { t with closedBy := some call.side } := by
  unfold step
  rw [if_neg (not_not.mpr isOpen), if_pos hup]

theorem receive_closedBy : (t.receive side bytes).closedBy = t.closedBy := by
  unfold receive
  dsimp only
  split <;> split <;> rfl

theorem transmit_closedBy : (t.transmit side n).closedBy = t.closedBy := by
  unfold transmit
  dsimp only
  split <;> split <;> rfl

theorem step_quiet (isOpen : t.closedBy = none) (quiet : call.state.is .RDHUP = false) :
    t.step call =
      let r := if call.state.is .IN && (t.ends call.side).message.canRead then t.receive call.side call.read else t
      if call.state.is .OUT && (r.ends call.side.other).message.canWrite then r.transmit call.side call.accepted
      else r := by
  unfold step
  rw [if_neg (not_not.mpr isOpen), if_neg (Bool.eq_false_iff.mp quiet)]

theorem step_closedBy (quiet : call.state.is .RDHUP = false) : (t.step call).closedBy = t.closedBy := by
  unfold step
  split
  · rfl
  · rw [if_neg (Bool.eq_false_iff.mp quiet)]
    dsimp only
    split <;> split <;> simp only [transmit_closedBy, receive_closedBy]

/-! ### The invariant -/

/-- What was read from the end `x` is in its message or was written to the other
end, and each interest follows the message it waits for. -/
structure Relays (t : Tunnel) (x : Side) : Prop where
  flow : ∃ p : Pipe UInt8, p.entered = (t.ends x).received ∧ p.left = (t.ends x.other).sent ∧
    (t.ends x).message.Holds p
  input : (t.ends x).interest.input = (t.ends x).message.canRead
  output : (t.ends x).message.canWrite = true → (t.ends x.other).interest.output = true

theorem start_relays (x : Side) : start.Relays x := by
  constructor
  · exact ⟨.empty, rfl, rfl, RawMessage.holds_new⟩
  · rfl
  · intro writable
    rfl

theorem each_side {P : Side → Prop} (side : Side) (here : P side) (there : P side.other) (x : Side) : P x := by
  cases side <;> cases x <;> assumption

theorem receive_relays (relays : ∀ x, t.Relays x) (readable : (t.ends side).message.canRead = true) (x : Side) :
    (t.receive side bytes).Relays x := by
  have self := @receive_self t side bytes
  have other := @receive_other t side bytes
  dsimp only at self other
  apply each_side side
  · obtain ⟨⟨p, entered, left, holds⟩, input, output⟩ := relays side
    have fit : (bytes.take (BUFFER_LENGTH - (t.ends side).message.readLength)).length
        ≤ BUFFER_LENGTH - (t.ends side).message.readLength := by
      rw [List.length_take]
      omega
    constructor
    · rw [self, other]
      apply Exists.intro (p.push (bytes.take (BUFFER_LENGTH - (t.ends side).message.readLength)))
      exact ⟨congrArg (· ++ _) entered, left, RawMessage.holds_readFrom holds fit⟩
    · rw [self]
      dsimp only
      split
      · rename_i room
        rw [input, readable, room]
      · rename_i full
        simp [FdState.xor, FdState.IN, input, readable, full]
    · rw [self, other]
      dsimp only
      intro writable
      rw [if_pos writable]
      exact Bool.or_true _
  · obtain ⟨flow, input, output⟩ := relays side.other
    rw [Side.other_other] at flow output
    constructor
    · rw [Side.other_other, self, other]
      exact flow
    · rw [other]
      dsimp only
      split
      · exact (Bool.or_false _).trans input
      · exact input
    · rw [Side.other_other, self, other]
      dsimp only
      intro writable
      split
      · exact output writable
      · exact (Bool.xor_false _).trans (output writable)

theorem transmit_relays (relays : ∀ x, t.Relays x)
    (writable : (t.ends side.other).message.canWrite = true) (x : Side) : (t.transmit side n).Relays x := by
  have self := @transmit_self t side n
  have other := @transmit_other t side n
  dsimp only at self other
  apply each_side side
  · obtain ⟨flow, input, output⟩ := relays side
    constructor
    · rw [self, other]
      exact flow
    · rw [self]
      dsimp only
      split
      · exact input
      · exact (Bool.xor_false _).trans input
    · rw [self, other]
      dsimp only
      intro pending
      split
      · exact (Bool.or_false _).trans (output pending)
      · exact output pending
  · obtain ⟨⟨p, entered, left, holds⟩, input, output⟩ := relays side.other
    rw [Side.other_other] at left output
    have armed := output writable
    constructor
    · rw [Side.other_other, self, other]
      apply Exists.intro (p.pop n)
      refine ⟨entered, ?_, RawMessage.holds_writeTo holds⟩
      show p.left ++ p.held.take n = _
      rw [left, ← holds.holds, RawMessage.writeTo_written]
    · rw [other]
      dsimp only
      split
      · rename_i room
        rw [room]
        exact Bool.or_true _
      · rename_i full
        rw [Bool.eq_false_iff.mpr full, input]
        exact RawMessage.writeTo_full (Bool.eq_false_iff.mpr full)
    · rw [Side.other_other, self, other]
      dsimp only
      intro pending
      rw [if_pos pending]
      exact armed

theorem step_relays (call : TunnelCall) (relays : ∀ x, t.Relays x) : ∀ x, (t.step call).Relays x := by
  unfold step
  split
  · exact relays
  · split
    · intro x
      exact ⟨(relays x).flow, (relays x).input, (relays x).output⟩
    · have received : ∀ x, (if call.state.is .IN && (t.ends call.side).message.canRead
          then t.receive call.side call.read else t).Relays x := by
        split
        · rename_i taken
          exact receive_relays relays (Bool.and_eq_true_iff.mp taken).2
        · exact relays
      dsimp only
      generalize (if call.state.is .IN && (t.ends call.side).message.canRead
        then t.receive call.side call.read else t) = r at received ⊢
      split
      · rename_i given
        exact transmit_relays received (Bool.and_eq_true_iff.mp given).2
      · exact received

theorem run_relays (calls : List TunnelCall) (x : Side) : (run calls).Relays x := by
  unfold run
  induction calls using List.reverseRecOn generalizing x with
  | nil => exact start_relays x
  | append_singleton calls call ih =>
    rw [List.foldl_append]
    exact step_relays call ih x

/-! ### Over all runs -/

/-- A tunnel relays a prefix of what it has read, in both directions. -/
theorem tunnel_faithful (calls : List TunnelCall) (side : Side) :
    let t := run calls
    let m := (t.ends side).message
    (t.ends side.other).sent <+: (t.ends side).received ∧ m.writeLength ≤ m.readLength ∧
      m.readLength ≤ BUFFER_LENGTH ∧ (m.canRead = true ∨ m.canWrite = true) := by
  obtain ⟨p, entered, left, holds⟩ := (run_relays calls side).flow
  have kept := p.left_prefix
  rw [entered, left] at kept
  exact ⟨kept, holds.ordered, holds.fits, RawMessage.canRead_or_canWrite holds.toBounded⟩

/-- An end is waited for whenever its message has room, and written to whenever the
message of the other end has something to write. -/
theorem tunnel_never_stalls (calls : List TunnelCall) (side : Side) :
    let t := run calls
    ((t.ends side).interest.is .IN = true ↔ (t.ends side).message.canRead = true) ∧
      ((t.ends side.other).message.canWrite = true → (t.ends side).interest.is .OUT = true) := by
  have here := run_relays calls side
  have there := (run_relays calls side.other).output
  rw [Side.other_other] at there
  constructor
  · rw [← here.input]
    simp [FdState.is, FdState.IN, FdState.WAIT]
  · intro pending
    simpa [FdState.is, FdState.OUT, FdState.WAIT] using there pending

end Tunnel

end ProxyServer
