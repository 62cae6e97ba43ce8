import ProxyServer.Server.Handlers
import ProxyServer.Tunnel.Relay

/-!
# The server runs the tunnel

The handlers that `handle_connect` installs take a connection of the server
through the states of the tunnel.
-/

namespace ProxyServer

open Wp

def Connection.elem (k : Connection) : Side → EpollElem
  | .client => k.client
  | .server => k.server

def Connection.setElem (k : Connection) (e : EpollElem) : Side → Connection
  | .client => { k with client := e }
  | .server => { k with server := e }

def tunnelHandler (conn : ConnId) (ids : Side → MsgId) (x : Side) : Handler :=
  .connectTransfer conn x (ids x) (ids x.other)

/-- The two elements of the connection `k` are the ends of the tunnel. -/
structure Connection.Joins (k : Connection) (fds : Side → Fd) (t : Tunnel) : Prop where
  fd : ∀ x, (k.elem x).fd = fds x
  interest : ∀ x, (k.elem x).events = (t.ends x).interest

namespace Proxy

/-- The connection `conn` is the tunnel `t`. -/
structure Tunnels (s : Proxy) (conn : ConnId) (fds : Side → Fd) (ids : Side → MsgId) (t : Tunnel) : Prop where
  apart : ids .client ≠ ids .server
  present : ∀ x, fds x ≠ 0
  live : ∃ k, s.connections.get conn = some k ∧ k.Joins fds t
  message : ∀ x, s.raws (ids x) = (t.ends x).message
  handler : ∀ x, s.handlers (fds x) = some (tunnelHandler conn ids x)

variable {s : Proxy} {conn : ConnId} {fds : Side → Fd} {ids : Side → MsgId} {t t' : Tunnel} {x : Side}

abbrev Never (_ : Fault) : Prop := False

theorem elem_side {k : Connection} (here : s.connections.get conn = some k) :
    s.elem (x.elem conn) = some (k.elem x) := by
  cases x <;> simp [Side.elem, elem, Connection.elem, here]

theorem setElem_side {k : Connection} {e : EpollElem} (here : s.connections.get conn = some k) :
    s.setElem (x.elem conn) e = { s with connections := s.connections.set conn (k.setElem e x) } := by
  cases x <;> simp [Side.elem, setElem, Connection.setElem, here]

theorem ids_other (apart : ids .client ≠ ids .server) : ids x ≠ ids x.other := by
  cases x
  · exact apart
  · exact apart.symm

theorem Tunnels.elem (tunnels : s.Tunnels conn fds ids t) :
    ∃ e, s.elem (x.elem conn) = some e ∧ e.fd ≠ 0 ∧ e.events = (t.ends x).interest := by
  obtain ⟨k, here, fd, interest⟩ := tunnels.live
  exact ⟨k.elem x, elem_side here, fd x ▸ tunnels.present x, interest x⟩

theorem Tunnels.wp_getElem {Q : EpollElem → Proxy → Prop} (tunnels : s.Tunnels conn fds ids t)
    (h : ∀ e, s.elem (x.elem conn) = some e → e.fd ≠ 0 → e.events = (t.ends x).interest → Q e s) :
    wp Never (getElem (x.elem conn)) Q s := by
  obtain ⟨e, here, present, interest⟩ := tunnels.elem (x := x)
  unfold getElem
  rw [wp_bind, wp_get, here]
  exact h e here present interest

theorem Tunnels.setInterest {k : Connection} {state : FdState} (tunnels : s.Tunnels conn fds ids t)
    (here : s.connections.get conn = some k) (joins : k.Joins fds t) :
    Tunnels { s with connections := s.connections.set conn (k.setElem { k.elem x with events := state } x) }
      conn fds ids (t.modifyEnd x fun e => { e with interest := state }) where
  apart := tunnels.apart
  present := tunnels.present
  live := by
    refine ⟨k.setElem { k.elem x with events := state } x, ?_, ?_, ?_⟩
    · show (s.connections.set conn _).get conn = _
      rw [Store.get_set_live here, if_pos rfl]
    · intro y
      rw [← joins.fd y]
      cases x <;> cases y <;> rfl
    · intro y
      have kept := joins.interest y
      cases x <;> cases y <;> first | rfl | exact kept
  message y := by
    rw [tunnels.message y]
    show _ = (if y = x then _ else t.ends y).message
    split <;> rfl
  handler := tunnels.handler

theorem modifyEnd_interest {state : FdState} (same : (t.ends x).interest = state) :
    (t.modifyEnd x fun e => { e with interest := state }) = t := by
  unfold Tunnel.modifyEnd
  congr 1
  funext y
  split
  · rename_i here
    rw [here, ← same]
  · rfl

theorem Tunnels.wp_updateState {f : FdState → FdState} (tunnels : s.Tunnels conn fds ids t) :
    wp Never (do let e ← getElem (x.elem conn); updateState (x.elem conn) (f e.events))
      (fun _ s' => s'.Tunnels conn fds ids (t.modifyEnd x fun e => { e with interest := f e.interest })) s := by
  rw [wp_bind]
  apply tunnels.wp_getElem
  intro e here present interest
  unfold updateState
  rw [wp_bind]
  apply tunnels.wp_getElem
  intro e' here' _ _
  cases here.symm.trans here'
  have after : (t.modifyEnd x fun e => { e with interest := f e.interest }) =
      t.modifyEnd x fun e' => { e' with interest := f e.events } := by
    rw [interest]
    unfold Tunnel.modifyEnd
    congr 1
    funext y
    split
    · rename_i same
      rw [same]
    · rfl
  rw [after, wp_ite]
  constructor
  · intro same
    show s.Tunnels conn fds ids _
    rw [modifyEnd_interest (interest.symm.trans same)]
    exact tunnels
  · intro different
    rw [wp_ite]
    constructor
    · intro null
      exact absurd null present
    · intro _
      obtain ⟨k, live, joins⟩ := tunnels.live
      cases (elem_side live).symm.trans here
      rw [wp_modify, setElem_side live]
      exact tunnels.setInterest live joins

theorem Tunnels.setRaw {m : RawMessage} {g : TunnelEnd → TunnelEnd} (tunnels : s.Tunnels conn fds ids t)
    (message : (g (t.ends x)).message = m) (interest : ∀ e, (g e).interest = e.interest) :
    Tunnels { s with raws := fun id => if id = ids x then m else s.raws id } conn fds ids (t.modifyEnd x g) where
  apart := tunnels.apart
  present := tunnels.present
  live := by
    obtain ⟨k, here, joins⟩ := tunnels.live
    refine ⟨k, here, joins.fd, ?_⟩
    intro y
    rw [joins.interest y]
    show _ = (if y = x then g (t.ends y) else t.ends y).interest
    split
    · exact (interest _).symm
    · rfl
  message y := by
    show (if ids y = ids x then m else s.raws (ids y)) = (if y = x then g (t.ends y) else t.ends y).message
    by_cases same : y = x
    · rw [same, if_pos rfl, if_pos rfl, message]
    · have apart : ids y ≠ ids x := by
        have ne := ids_other (x := x) tunnels.apart
        cases x <;> cases y <;> first | exact absurd rfl same | exact ne.symm
      rw [if_neg apart, if_neg same, tunnels.message y]
  handler := tunnels.handler

theorem Tunnels.ghost {g : TunnelEnd → TunnelEnd} (tunnels : s.Tunnels conn fds ids t)
    (message : ∀ e, (g e).message = e.message) (interest : ∀ e, (g e).interest = e.interest) :
    s.Tunnels conn fds ids (t.modifyEnd x g) where
  apart := tunnels.apart
  present := tunnels.present
  live := by
    obtain ⟨k, here, joins⟩ := tunnels.live
    refine ⟨k, here, joins.fd, ?_⟩
    intro y
    rw [joins.interest y]
    show _ = (if y = x then g (t.ends y) else t.ends y).interest
    split
    · exact (interest _).symm
    · rfl
  message y := by
    rw [tunnels.message y]
    show _ = (if y = x then g (t.ends y) else t.ends y).message
    split
    · exact (message _).symm
    · rfl
  handler := tunnels.handler

theorem Tunnels.wp_whenever {c : Bool} {f : FdState → FdState} {Q : Unit → Proxy → Prop}
    (tunnels : s.Tunnels conn fds ids t)
    (h : ∀ s', s'.Tunnels conn fds ids
      (if c then t.modifyEnd x fun e => { e with interest := f e.interest } else t) → Q () s') :
    wp Never (whenever c (do let e ← getElem (x.elem conn); updateState (x.elem conn) (f e.events))) Q s := by
  rw [Wp.wp_whenever]
  constructor
  · intro holds
    rw [if_pos holds] at h
    exact wp_mono (fun _ s' => h s') tunnels.wp_updateState
  · intro fails
    rw [if_neg (Bool.eq_false_iff.mp fails)] at h
    exact h s tunnels

theorem Tunnels.wp_connectTransferIn {io : Io} {bytes : Bytes} (tunnels : s.Tunnels conn fds ids t)
    (read : io.read = some bytes) :
    wp Never (connectTransferIn conn (x.elem conn) (x.other.elem conn) (ids x) io)
      (fun _ s' => s'.Tunnels conn fds ids (t.receive x bytes)) s := by
  unfold connectTransferIn
  rw [wp_bind]
  apply tunnels.wp_getElem
  intro _ _ _ _
  rw [wp_bind, wp_get, read]
  dsimp only
  rw [wp_bind]
  have filled := tunnels.setRaw (x := x) (m := (s.raws (ids x)).readFrom
      (bytes.take (BUFFER_LENGTH - (s.raws (ids x)).readLength)))
    (g := fun e => { e with
      message := e.message.readFrom (bytes.take (BUFFER_LENGTH - (t.ends x).message.readLength))
      received := e.received ++ bytes.take (BUFFER_LENGTH - (t.ends x).message.readLength) })
    (by rw [tunnels.message x]) (fun _ => rfl)
  unfold Proxy.setRaw
  rw [wp_modify, wp_bind, wp_get, filled.message x, wp_bind]
  apply filled.wp_whenever (x := x) (f := (·.xor .IN))
  intro s₁ toggled
  apply toggled.wp_whenever (x := x.other) (f := (·.union .OUT))
  intro s₂ armed
  rw [Tunnel.receive_eq]
  exact armed

theorem Tunnels.wp_connectTransferOut {io : Io} {accepted : Nat} (tunnels : s.Tunnels conn fds ids t)
    (write : io.write = some accepted) :
    wp Never (connectTransferOut conn (x.elem conn) (x.other.elem conn) (ids x.other) io)
      (fun _ s' => s'.Tunnels conn fds ids (t.transmit x accepted)) s := by
  unfold connectTransferOut
  rw [wp_bind]
  apply tunnels.wp_getElem
  intro _ _ _ _
  rw [wp_bind, wp_get, write]
  dsimp only
  rw [wp_bind]
  have sent := tunnels.setRaw (x := x.other) (m := ((s.raws (ids x.other)).writeTo accepted).2)
    (g := fun e => { e with message := ((t.ends x.other).message.writeTo accepted).2 })
    (by rw [tunnels.message x.other]) (fun _ => rfl)
  have drained := sent.ghost (x := x) (g := fun e => { e with
      sent := e.sent ++ ((t.ends x.other).message.writeTo accepted).1 }) (fun _ => rfl) (fun _ => rfl)
  unfold Proxy.setRaw
  rw [wp_modify, wp_bind, wp_get, drained.message x.other, wp_bind]
  apply drained.wp_whenever (x := x) (f := (·.xor .OUT))
  intro s₁ toggled
  apply toggled.wp_whenever (x := x.other) (f := (·.union .IN))
  intro s₂ armed
  rw [Tunnel.transmit_eq]
  exact armed

theorem Tunnels.wp_setActive (tunnels : s.Tunnels conn fds ids t) :
    wp Never (setActive (.conn conn)) (fun _ s' => s'.Tunnels conn fds ids t) s := by
  obtain ⟨k, here, joins⟩ := tunnels.live
  unfold setActive
  rw [wp_bind, wp_get]
  dsimp only
  rw [here]
  refine ⟨tunnels.apart, tunnels.present, ⟨{ k with expiresIn := s.ticks + k.timeout }, ?_, ?_, ?_⟩,
    tunnels.message, tunnels.handler⟩
  · show (s.connections.set conn _).get conn = _
    rw [Store.get_set_live here, if_pos rfl]
  · intro y
    rw [← joins.fd y]
    cases y <;> rfl
  · intro y
    rw [← joins.interest y]
    cases y <;> rfl

/-- The connection is closed, and neither of its descriptors has a handler. -/
def Unhandled (s : Proxy) (fds : Side → Fd) : Prop := ∀ x, s.handlers (fds x) = none

theorem Tunnels.wp_logAndClose (tunnels : s.Tunnels conn fds ids t) :
    wp Never (logAndClose (.conn conn)) (fun _ s' => s'.Unhandled fds) s := by
  obtain ⟨k, here, joins⟩ := tunnels.live
  have live : s.live (.conn conn) = true := by
    unfold Proxy.live
    dsimp only
    rw [here]
    rfl
  have client := joins.fd .client
  have server := joins.fd .server
  have present := tunnels.present
  unfold logAndClose touch close closeConnection
  rw [wp_bind, wp_bind, wp_get, live, if_pos rfl, wp_pure, wp_bind, wp_get, here]
  dsimp only
  rw [wp_modify]
  intro x
  unfold Connection.elem at client server
  dsimp only at client server
  unfold destroy
  rw [client, server, if_neg (present .server), if_neg (present .client)]
  cases x <;> simp [setHandler]

theorem run_handler {io : Io} {state : FdState} : (tunnelHandler conn ids x).run state io =
    onConnectTransfer conn (x.elem conn) (x.other.elem conn) (ids x) (ids x.other) state io := by
  cases x <;> rfl

/-- The server is where the tunnel is. -/
def Follows (s : Proxy) (conn : ConnId) (fds : Side → Fd) (ids : Side → MsgId) (t : Tunnel) : Prop :=
  if t.closedBy = none then s.Tunnels conn fds ids t else s.Unhandled fds

theorem Tunnels.wp_onConnectTransfer {io : Io} {call : TunnelCall} (tunnels : s.Tunnels conn fds ids t)
    (isOpen : t.closedBy = none) (read : io.read = some call.read) (write : io.write = some call.accepted) :
    wp Never ((tunnelHandler conn ids call.side).run call.state io)
      (fun _ s' => s'.Follows conn fds ids (t.step call)) s := by
  rw [run_handler]
  unfold onConnectTransfer Follows
  rw [wp_bind]
  apply wp_mono _ tunnels.wp_setActive
  intro _ s₁ active
  rw [wp_ite]
  constructor
  · intro hup
    apply wp_mono _ active.wp_logAndClose
    intro _ s₂ closed
    rw [Tunnel.step_hungUp isOpen hup, if_neg (fun h => by cases h)]
    exact closed
  · intro quiet
    rw [Bool.not_eq_true] at quiet
    simp only [Tunnel.step_closedBy quiet, if_pos isOpen]
    rw [wp_bind, wp_get, wp_bind, Tunnel.step_quiet isOpen quiet]
    have received : wp Never (whenever (call.state.is .IN && (s₁.raws (ids call.side)).canRead)
        (connectTransferIn conn (call.side.elem conn) (call.side.other.elem conn) (ids call.side) io))
        (fun _ s' => s'.Tunnels conn fds ids (if call.state.is .IN && (t.ends call.side).message.canRead
          then t.receive call.side call.read else t)) s₁ := by
      rw [Wp.wp_whenever, active.message]
      constructor
      · intro taken
        rw [if_pos taken]
        exact active.wp_connectTransferIn read
      · intro kept
        rw [if_neg (Bool.eq_false_iff.mp kept)]
        exact active
    apply wp_mono _ received
    intro _ s₂ halfway
    dsimp only
    rw [wp_bind, wp_get, Wp.wp_whenever, halfway.message]
    constructor
    · intro given
      rw [if_pos given]
      exact halfway.wp_connectTransferOut write
    · intro kept
      rw [if_neg (Bool.eq_false_iff.mp kept)]
      exact halfway

/-- The event by which the server makes a call. -/
structure Reports (fds : Side → Fd) (call : TunnelCall) (event : Event) : Prop where
  fd : event.fd = fds call.side
  state : event.state = call.state
  read : event.io.read = some call.read
  write : event.io.write = some call.accepted

theorem step_follows {call : TunnelCall} {event : Event} (follows : s.Follows conn fds ids t)
    (reports : Reports fds call event) :
    ∃ s', s.step event = .ok s' ∧ s'.Follows conn fds ids (t.step call) := by
  unfold step
  rw [reports.fd, reports.state]
  by_cases isOpen : t.closedBy = none
  · unfold Follows at follows
    rw [if_pos isOpen] at follows
    rw [follows.handler call.side]
    have runs := follows.wp_onConnectTransfer isOpen reports.read reports.write
    dsimp only
    cases ran : (tunnelHandler conn ids call.side).run call.state event.io s with
    | error e => exact (wp_error runs ran).elim
    | ok r =>
      have after := wp_ok runs ran
      exact ⟨r.2, rfl, after⟩
  · rw [Tunnel.step_closed isOpen]
    have unhandled := follows
    unfold Follows at unhandled
    rw [if_neg isOpen] at unhandled
    rw [unhandled call.side]
    exact ⟨s, rfl, follows⟩

/-- The server goes through the states of the tunnel, whatever its two handlers are
called with. -/
theorem run_follows {calls : List TunnelCall} {events : List Event} (follows : s.Follows conn fds ids t)
    (reports : List.Forall₂ (Reports fds) calls events) :
    ∃ s', Runs.run step s events = .ok s' ∧ s'.Follows conn fds ids (calls.foldl Tunnel.step t) := by
  induction reports generalizing s t with
  | nil => exact ⟨s, rfl, follows⟩
  | cons reported _ ih =>
    obtain ⟨s₁, stepped, next⟩ := step_follows follows reported
    obtain ⟨s₂, ran, last⟩ := ih next
    exact ⟨s₂, Runs.run_cons.mpr ⟨s₁, stepped, ran⟩, last⟩

theorem wp_update {k : Connection} {state : FdState} {h : Handler} {Q : Unit → Proxy → Prop}
    (here : s.connections.get conn = some k) (present : (k.elem x).fd ≠ 0)
    (next : ∀ s', s'.connections.get conn = some (k.setElem { k.elem x with events := state } x) →
      s'.raws = s.raws → s'.handlers = (s.setHandler (k.elem x).fd (some h)).handlers → Q () s') :
    wp Never (update (x.elem conn) state h) Q s := by
  unfold update updateState updateHandler getElem
  simp only [wp_bind, wp_get]
  rw [elem_side here]
  simp only [wp_pure]
  rw [wp_ite]
  constructor
  · intro same
    simp only [wp_pure]
    rw [elem_side here]
    dsimp only
    rw [wp_pure, if_neg present, wp_modify]
    apply next
    · have kept : k.setElem { k.elem x with events := state } x = k := by
        rw [← same]
        cases x <;> rfl
      rw [kept]
      exact here
    · rfl
    · rfl
  · intro different
    rw [if_neg present, wp_modify, setElem_side here]
    have there : Store.get (s.connections.set conn (k.setElem { k.elem x with events := state } x)) conn =
        some (k.setElem { k.elem x with events := state } x) := by
      rw [Store.get_set_live here, if_pos rfl]
    rw [elem_side (x := x) there]
    dsimp only
    have same : ((k.setElem { k.elem x with events := state } x).elem x).fd = (k.elem x).fd := by
      cases x <;> rfl
    rw [wp_pure, same, if_neg present, wp_modify]
    apply next
    · exact there
    · rfl
    · rfl

theorem handleConnect_follows {k : Connection} (here : s.connections.get conn = some k)
    (present : ∀ x, (k.elem x).fd ≠ 0) (different : k.client.fd ≠ k.server.fd) :
    ∃ ids, wp Never (handleConnect conn)
      (fun _ s' => s'.Follows conn (fun x => (k.elem x).fd) ids Tunnel.start) s := by
  apply Exists.intro (fun | .client => s.nextMessage | .server => s.nextMessage + 1)
  have live : s.live (.conn conn) = true := by
    unfold Proxy.live
    dsimp only
    rw [here]
    rfl
  unfold handleConnect touch newRaw
  simp only [wp_bind, wp_get, wp_set, wp_pure, live, if_pos]
  refine wp_update (x := .server) (s := { s with raws := _, nextMessage := _ }) here (present .server) ?_
  intro s₁ here₁ raws₁ handlers₁
  apply wp_update (x := .client) here₁ (present .client)
  intro s₂ here₂ raws₂ handlers₂
  show s₂.Tunnels _ _ _ _
  constructor
  · exact Nat.ne_of_lt (Nat.lt_succ_self _)
  · exact present
  · refine ⟨_, here₂, ?_, ?_⟩
    · intro x
      cases x <;> rfl
    · intro x
      cases x <;> rfl
  · intro x
    rw [raws₂, raws₁]
    cases x <;> simp [Tunnel.start]
  · intro x
    rw [handlers₂]
    unfold setHandler
    rw [handlers₁]
    unfold setHandler
    cases x
    · exact if_pos rfl
    · exact (if_neg different.symm).trans (if_pos rfl)

end Proxy

end ProxyServer
