import ProxyServer.Tunnel.Relay

/-!
# Half-closing a tunnel

The two peers of a tunnel, each with the socket that carries what it sends to the
proxy. A peer that has finished sends nothing more, and its end reports RDHUP.
-/

namespace ProxyServer

structure Peer where
  socket : Pipe UInt8
  finished : Bool

structure TunnelPeers where
  tunnel : Tunnel
  peers : Side → Peer

inductive PeerEvent where
  | send (side : Side) (bytes : Bytes)
  | finish (side : Side)
  /-- The handler of an end runs; a read returns at most `amount` bytes. -/
  | call (side : Side) (state : FdState) (amount accepted : Nat)
  deriving DecidableEq, Repr

namespace Tunnel

/-- How many bytes the handler reads, of the at most `amount` that the socket has. -/
def reads (t : Tunnel) (side : Side) (state : FdState) (amount : Nat) : Nat :=
  if t.closedBy = none ∧ state.is .RDHUP = false ∧ state.is .IN ∧ (t.ends side).message.canRead
  then min amount (BUFFER_LENGTH - (t.ends side).message.readLength) else 0

variable {t : Tunnel} {call : TunnelCall}

theorem transmit_received {side x : Side} {n : Nat} :
    ((t.transmit side n).ends x).received = (t.ends x).received := by
  apply each_side (P := fun x => ((t.transmit side n).ends x).received = (t.ends x).received) side
  · rw [transmit_self]
  · rw [transmit_other]

theorem receive_received {side x : Side} {bytes : Bytes} :
    ((t.receive side bytes).ends x).received = (t.ends x).received ++
      if x = side then bytes.take (BUFFER_LENGTH - (t.ends side).message.readLength) else [] := by
  cases Decidable.em (x = side) with
  | inl same =>
    rw [if_pos same, same, receive_self]
  | inr different =>
    have other : x = side.other := by cases x <;> cases side <;> first | rfl | exact absurd rfl different
    rw [if_neg different, List.append_nil, other, receive_other]

theorem step_received_quiet (isOpen : t.closedBy = none) (quiet : call.state.is .RDHUP = false) {x : Side} :
    ((t.step call).ends x).received =
      ((if call.state.is .IN && (t.ends call.side).message.canRead
        then t.receive call.side call.read else t).ends x).received := by
  unfold step
  rw [if_neg (not_not.mpr isOpen), if_neg (Bool.eq_false_iff.mp quiet)]
  dsimp only
  generalize (if call.state.is .IN && (t.ends call.side).message.canRead
    then t.receive call.side call.read else t) = r
  split
  · exact transmit_received
  · rfl

/-- The handler takes what it reads from the front of the socket. -/
theorem step_received {side x : Side} {state : FdState} {held : Bytes} {amount accepted : Nat} :
    ((t.step { side, state, read := held.take amount, accepted }).ends x).received =
      (t.ends x).received ++ if x = side then held.take (t.reads side state amount) else [] := by
  by_cases closed : t.closedBy = none
  · cases hup : state.is .RDHUP with
    | true =>
      rw [step_hungUp closed hup]
      simp [reads, hup]
    | false =>
      rw [step_received_quiet closed hup]
      split
      · rename_i taken
        have reading : t.reads side state amount =
            min amount (BUFFER_LENGTH - (t.ends side).message.readLength) := by
          rw [Bool.and_eq_true_iff] at taken
          exact if_pos ⟨closed, hup, taken.1, taken.2⟩
        rw [receive_received, reading, List.take_take, Nat.min_comm]
      · rename_i kept
        rw [Bool.and_eq_true_iff] at kept
        have idle : t.reads side state amount = 0 := if_neg (fun all => kept ⟨all.2.2.1, all.2.2.2⟩)
        rw [idle, List.take_zero, ite_self, List.append_nil]
  · rw [step_closed closed]
    simp [reads, closed]

end Tunnel

namespace TunnelPeers

def setPeer (s : TunnelPeers) (side : Side) (p : Peer) : TunnelPeers :=
  { s with peers := fun x => if x = side then p else s.peers x }

/-- RDHUP is reported for a peer that has finished, and only such a peer sends no more. -/
def step (s : TunnelPeers) : PeerEvent → Except Fault TunnelPeers
  | .send side bytes =>
    let p := s.peers side
    if p.finished then .error .disabled else .ok (s.setPeer side { p with socket := p.socket.push bytes })
  | .finish side => .ok (s.setPeer side { s.peers side with finished := true })
  | .call side state amount accepted =>
    let p := s.peers side
    if state.is .RDHUP ∧ ¬p.finished then .error .disabled
    else
      let s := s.setPeer side { p with socket := p.socket.pop (s.tunnel.reads side state amount) }
      .ok { s with tunnel := s.tunnel.step { side, state, read := p.socket.held.take amount, accepted } }

def start : TunnelPeers where
  tunnel := .start
  peers _ := { socket := .empty, finished := false }

/-- The peer that closed the tunnel has reached the other one with all it sent. -/
def Delivered (s : TunnelPeers) : Prop :=
  ∀ x, s.tunnel.closedBy = some x → (s.tunnel.ends x.other).sent = (s.peers x).socket.entered

/-- A handler that is told of RDHUP has nothing to read, and its message nothing to write. -/
def Drained (s : TunnelPeers) : PeerEvent → Prop
  | .call side state _ _ => state.is .RDHUP = true → s.tunnel.closedBy = none →
    (s.peers side).socket.held = [] ∧ (s.tunnel.ends side).message.canWrite = false
  | _ => True

instance (s : TunnelPeers) : (e : PeerEvent) → Decidable (s.Drained e)
  | .call _ _ _ _ => inferInstanceAs (Decidable (_ → _ → _ ∧ _))
  | .send _ _ => isTrue trivial
  | .finish _ => isTrue trivial

/-- What the proxy read from an end left the socket of its peer. -/
structure Sound (s : TunnelPeers) : Prop where
  relays : ∀ x, s.tunnel.Relays x
  socket : ∀ x, (s.peers x).socket.left = (s.tunnel.ends x).received
  closed : ∀ x, s.tunnel.closedBy = some x → (s.peers x).finished = true

variable {s s' : TunnelPeers} {e : PeerEvent}

theorem delivered_iff (sound : s.Sound) (x : Side) :
    (s.tunnel.ends x.other).sent = (s.peers x).socket.entered ↔
      (s.peers x).socket.held = [] ∧ (s.tunnel.ends x).message.canWrite = false := by
  obtain ⟨p, entered, left, holds⟩ := (sound.relays x).flow
  have joined : p.entered = (s.peers x).socket.left := by rw [entered, sound.socket]
  have all := ((s.peers x).socket.comp p joined).left_eq_entered_iff
  have waiting := RawMessage.canWrite_iff holds.toBounded
  rw [holds.holds] at waiting
  rw [← left, Bool.eq_false_iff, ne_eq, waiting, not_not, and_comm]
  exact all.trans List.append_eq_nil_iff

@[simp] theorem setPeer_self {side : Side} {p : Peer} : (s.setPeer side p).peers side = p := if_pos rfl

theorem setPeer_ne {side x : Side} {p : Peer} (different : x ≠ side) :
    (s.setPeer side p).peers x = s.peers x := if_neg different

theorem start_sound : start.Sound := by
  constructor
  · exact Tunnel.start_relays
  · intro x
    rfl
  · intro x closed
    cases closed

theorem send_sound {side : Side} {bytes : Bytes} (sound : s.Sound) (stepped : s.step (.send side bytes) = .ok s') :
    s'.Sound := by
  simp only [step] at stepped
  split at stepped
  · cases stepped
  · cases stepped
    constructor
    · exact sound.relays
    · intro x
      by_cases same : x = side
      · rw [same, setPeer_self]
        exact sound.socket side
      · rw [setPeer_ne same]
        exact sound.socket x
    · intro x closed
      by_cases same : x = side
      · rw [same, setPeer_self]
        exact sound.closed side (same ▸ closed)
      · rw [setPeer_ne same]
        exact sound.closed x closed

theorem finish_sound {side : Side} (sound : s.Sound) (stepped : s.step (.finish side) = .ok s') : s'.Sound := by
  cases stepped
  constructor
  · exact sound.relays
  · intro x
    by_cases same : x = side
    · rw [same, setPeer_self]
      exact sound.socket side
    · rw [setPeer_ne same]
      exact sound.socket x
  · intro x closed
    by_cases same : x = side
    · rw [same, setPeer_self]
    · rw [setPeer_ne same]
      exact sound.closed x closed

theorem call_cases {side : Side} {state : FdState} {amount accepted : Nat}
    (stepped : s.step (.call side state amount accepted) = .ok s') :
    (state.is .RDHUP = true → (s.peers side).finished = true) ∧
    s'.tunnel = s.tunnel.step { side, state, read := (s.peers side).socket.held.take amount, accepted } ∧
    (∀ x, (s'.peers x).finished = (s.peers x).finished) ∧
    ∀ x, (s'.peers x).socket =
      if x = side then (s.peers side).socket.pop (s.tunnel.reads side state amount) else (s.peers x).socket := by
  simp only [step] at stepped
  split at stepped
  · cases stepped
  · rename_i enabled
    cases stepped
    refine ⟨?_, rfl, ?_, ?_⟩
    · intro hup
      by_contra running
      exact enabled ⟨hup, running⟩
    · intro x
      by_cases same : x = side
      · rw [same, setPeer_self]
      · rw [setPeer_ne same]
    · intro x
      by_cases same : x = side
      · rw [same, if_pos rfl, setPeer_self]
      · rw [if_neg same, setPeer_ne same]

theorem call_sound {side : Side} {state : FdState} {amount accepted : Nat} (sound : s.Sound)
    (stepped : s.step (.call side state amount accepted) = .ok s') : s'.Sound := by
  obtain ⟨enabled, tunnel, finished, socket⟩ := call_cases stepped
  constructor
  · rw [tunnel]
    exact Tunnel.step_relays _ sound.relays
  · intro x
    rw [socket x, tunnel, Tunnel.step_received]
    split
    · rename_i same
      rw [same]
      show (s.peers side).socket.left ++ _ = _
      rw [sound.socket side]
    · rw [List.append_nil]
      exact sound.socket x
  · intro x closed
    rw [finished x]
    rw [tunnel] at closed
    by_cases already : s.tunnel.closedBy = none
    · cases hup : state.is .RDHUP with
      | true =>
        rw [Tunnel.step_hungUp already hup] at closed
        cases closed
        exact enabled hup
      | false =>
        rw [Tunnel.step_closedBy hup, already] at closed
        cases closed
    · rw [Tunnel.step_closed already] at closed
      exact sound.closed x closed

theorem step_sound (sound : s.Sound) (stepped : s.step e = .ok s') : s'.Sound := by
  cases e with
  | send side bytes => exact send_sound sound stepped
  | finish side => exact finish_sound sound stepped
  | call side state amount accepted => exact call_sound sound stepped

/-- A peer says nothing once its tunnel is closed, so that what it said stays as it was. -/
theorem quiet_delivered (tunnel : s'.tunnel = s.tunnel)
    (entered : ∀ x, s.tunnel.closedBy = some x → (s'.peers x).socket.entered = (s.peers x).socket.entered) :
    s'.Delivered ↔ s.Delivered := by
  unfold Delivered
  rw [tunnel]
  constructor
  · intro delivered x closed
    rw [← entered x closed]
    exact delivered x closed
  · intro delivered x closed
    rw [entered x closed]
    exact delivered x closed

theorem call_delivered {side : Side} {state : FdState} {amount accepted : Nat} (sound : s.Sound)
    (stepped : s.step (.call side state amount accepted) = .ok s') :
    s'.Delivered ↔ s.Delivered ∧ s.Drained (.call side state amount accepted) := by
  obtain ⟨enabled, tunnel, finished, socket⟩ := call_cases stepped
  have entered : ∀ x, (s'.peers x).socket.entered = (s.peers x).socket.entered := by
    intro x
    rw [socket x]
    split
    · rename_i same
      rw [same]
      rfl
    · rfl
  by_cases already : s.tunnel.closedBy = none
  · have before : s.Delivered := by
      intro x closed
      rw [already] at closed
      cases closed
    cases hup : state.is .RDHUP with
    | true =>
      rw [Tunnel.step_hungUp already hup] at tunnel
      have after : s'.Delivered ↔ (s.tunnel.ends side.other).sent = (s.peers side).socket.entered := by
        unfold Delivered
        rw [tunnel]
        constructor
        · intro delivered
          rw [← entered side]
          exact delivered side rfl
        · intro all x closed
          cases closed
          rw [entered side]
          exact all
      rw [after, delivered_iff sound side, and_iff_right before]
      constructor
      · intro drained _ _
        exact drained
      · intro drained
        exact drained hup already
    | false =>
      have after : s'.Delivered := by
        intro x closed
        rw [tunnel, Tunnel.step_closedBy hup, already] at closed
        cases closed
      apply iff_of_true after
      apply And.intro before
      intro hung
      rw [hup] at hung
      cases hung
  · rw [Tunnel.step_closed already] at tunnel
    rw [quiet_delivered tunnel (fun x _ => entered x)]
    apply (and_iff_left _).symm
    intro _ isOpen
    exact absurd isOpen already

theorem step_delivered (sound : s.Sound) (stepped : s.step e = .ok s') : s'.Delivered ↔ s.Delivered ∧ s.Drained e := by
  cases e with
  | send side bytes =>
    simp only [step] at stepped
    split at stepped
    · cases stepped
    · rename_i running
      cases stepped
      apply Iff.trans _ (and_iff_left (show s.Drained (.send side bytes) from trivial)).symm
      apply quiet_delivered
      · rfl
      · intro x closed
        by_cases same : x = side
        · rw [same] at closed
          exact absurd (sound.closed side closed) running
        · rw [setPeer_ne same]
  | finish side =>
    cases stepped
    apply Iff.trans _ (and_iff_left (show s.Drained (.finish side) from trivial)).symm
    apply quiet_delivered
    · rfl
    · intro x closed
      by_cases same : x = side
      · rw [same, setPeer_self]
      · rw [setPeer_ne same]
  | call side state amount accepted => exact call_delivered sound stepped

/-- A tunnel is closed with everything delivered exactly when RDHUP is never handled
while the socket of the peer or the message of its end holds anything. -/
theorem delivered_iff_drained (events : List PeerEvent) (t : TunnelPeers)
    (ran : Runs.run step start events = .ok t) : t.Delivered ↔ Runs.Along step Drained start events := by
  have start_delivered : start.Delivered := by
    intro x closed
    cases closed
  rw [Runs.holds_iff_along start_sound (fun _ _ _ sound stepped => step_sound sound stepped)
    (fun _ _ _ sound stepped => step_delivered sound stepped) ran]
  exact and_iff_right start_delivered

/-- A peer sends two bytes and finishes, and its end is told of both at once. -/
def sentAndFinished : List PeerEvent :=
  [.send .client [104, 105], .finish .client, .call .client (.union .IN .RDHUP) 2 0]

theorem tunnel_drops_the_end :
    ¬∀ events t, Runs.run step start events = .ok t → t.Delivered := by
  intro delivered
  have lost := delivered sentAndFinished _ rfl .client rfl
  cases lost

def sentReadAndFinished : List PeerEvent :=
  [.send .client [104, 105], .finish .client, .call .client .IN 2 0, .call .server .OUT 0 2,
    .call .client .RDHUP 0 0]

theorem tunnel_delivers_read_bytes :
    ∃ t, Runs.run step start sentReadAndFinished = .ok t ∧ t.tunnel.closedBy = some .client ∧ t.Delivered :=
  ⟨_, rfl, rfl, (delivered_iff_drained sentReadAndFinished _ rfl).mpr (by decide)⟩

end TunnelPeers

end ProxyServer
