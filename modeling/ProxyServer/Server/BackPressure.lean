import ProxyServer.Request.ReadFrom
import ProxyServer.Request.WriteTo
import ProxyServer.Server.ClosedEntries
import ProxyServer.Tunnel.Refinement

/-!
# Back-pressure of a transfer

While `fast_transfer` runs, the client is asked whether it takes more exactly when there
is something of the response to be written: the handler of the server sets OUT and that
of the client takes it away again.
-/

namespace ProxyServer

open Wp

/-! ### The response -/

namespace BufferedMessage

variable {L : Type} {m m' : BufferedMessage L} {bytes : Bytes}

/-- The cursor of the response stands in its parts, of which there are none before its
header is complete, and behind that every read is a part. -/
structure Flows (m : BufferedMessage L) : Prop where
  written : ∃ before, m.Written before
  fresh : m.headerLength = 0 → m.cache = []
  behind : m.headerLength ≠ 0 → m.readLength = 0

theorem Flows.canWrite_iff (flows : Flows m) : m.canWrite = true ↔ m.curPart ≠ m.cache.length := by
  constructor
  · exact canWrite_ne
  · intro more
    obtain ⟨before, written⟩ := flows.written
    obtain ⟨p, here, inside⟩ := written.cursor.getElem? more
    unfold canWrite
    rw [decide_eq_true_eq, List.getD_eq_getElem?_getD, here]
    exact ⟨more, inside⟩

theorem Flows.writeTo {accepted : Nat} (flows : Flows m) (wrote : m.writeTo accepted = some (bytes, m')) : Flows m' := by
  obtain ⟨before, written⟩ := flows.written
  obtain ⟨part, here, _⟩ := writeTo_cases wrote
  have more : m.curPart ≠ m.cache.length := Nat.ne_of_lt (List.getElem?_eq_some_iff.mp here).1
  obtain ⟨bytes', part, offset, wrote', after⟩ := written.writeTo more accepted
  rw [wrote] at wrote'
  cases wrote'
  exact ⟨⟨_, after⟩, flows.fresh, flows.behind⟩

variable [Line L]

theorem flows_new : Flows (new : BufferedMessage L) where
  written := ⟨[], ⟨fun _ member => (List.not_mem_nil member).elim, Parts.At.stop []⟩⟩
  fresh _ := rfl
  behind opened := absurd rfl opened

/-- A read of something leaves no less to be written. -/
theorem Flows.readFrom (flows : Flows m) (some_ : bytes ≠ []) (read : m.readFrom bytes = .ok m') :
    Flows m' ∧ (m.canWrite = true → m'.canWrite = true) := by
  obtain ⟨before, present, cursor⟩ := flows.written
  cases readFrom_cases read with
  | body known =>
    have whole : m.buffered bytes = bytes := by
      unfold buffered
      rw [flows.behind known]
      exact store_take (c := []) rfl
    rw [whole]
    have after : Flows (settled { m with
        buffer := store m.buffer m.readLength bytes, readLength := 0, read := m.read + bytes.length,
        cache := m.cache ++ [bytes] } bytes) := by
      refine ⟨⟨before, ?_, cursor.push some_⟩, fun zero => absurd zero known, fun _ => rfl⟩
      intro p member
      rcases List.mem_append.mp member with old | new
      · exact present p old
      · rw [List.mem_singleton.mp new]
        exact some_
    refine ⟨after, fun _ => after.canWrite_iff.mpr ?_⟩
    have low := cursor.le_length
    show m.curPart ≠ (m.cache ++ [bytes]).length
    rw [List.length_append]
    exact Nat.ne_of_lt (Nat.lt_succ_of_le low)
  | waits unknown missing =>
    exact ⟨⟨⟨before, present, cursor⟩, flows.fresh, fun other => absurd unknown other⟩, fun ready => ready⟩
  | opens unknown x header n cut parsed declared =>
    have empty := flows.fresh unknown
    have printed : header.print ≠ [] := header.print_ne_nil
    have start : m.writeLength = 0 := by
      apply cursor.offset_stopped
      have low := cursor.le_length
      rw [empty] at low ⊢
      exact Nat.le_zero.mp low
    have some_part : header.print ++ x ≠ [] := by
      intro none
      exact printed (List.append_eq_nil_iff.mp none).1
    have only : ∀ p ∈ m.cache ++ [header.print ++ x], p ≠ [] := by
      intro p member
      rw [empty, List.nil_append, List.mem_singleton] at member
      rw [member]
      exact some_part
    have after : Flows (settled { m with
        buffer := store m.buffer m.readLength bytes, readLength := 0, read := x.length, header,
        headerLength := header.print.length, bodyLength := n, curPart := 0,
        cache := m.cache ++ [header.print ++ x] } (header.print ++ x)) := by
      refine ⟨⟨[], only, ?_⟩, fun zero => absurd (List.length_eq_zero_iff.mp zero) printed, fun _ => rfl⟩
      show Parts.At (m.cache ++ [header.print ++ x]) 0 m.writeLength []
      rw [start]
      exact Parts.At.start only
    refine ⟨after, fun _ => after.canWrite_iff.mpr ?_⟩
    show 0 ≠ (m.cache ++ [header.print ++ x]).length
    rw [List.length_append]
    exact Nat.ne_of_lt (Nat.succ_pos _)

end BufferedMessage

/-! ### The two handlers -/

/-- The handler is one of those of `fast_transfer` on the connection. -/
def Handler.transfers (conn : ConnId) (resp : MsgId) : Side → Handler → Bool
  | .server, .transferServer c _ m => c = conn && m = resp
  | .client, .transferClient c m => c = conn && m = resp
  | _, _ => false

namespace Proxy

variable {s s' : Proxy} {conn : ConnId} {fds : Side → Fd} {resp : MsgId} {k : Connection} {m : ServerResponse}
  {io : Io} {state : FdState} {rqst : ClientRequest}

/-- `fast_transfer` runs on the connection `conn`. -/
structure Transfers (s : Proxy) (conn : ConnId) (fds : Side → Fd) (resp : MsgId) : Prop where
  live : (s.connections.get conn).isSome = true
  handler : ∀ x, (s.handlers (fds x)).any (Handler.transfers conn resp x) = true

instance : Decidable (s.Transfers conn fds resp) :=
  decidable_of_iff ((s.connections.get conn).isSome = true ∧
      (s.handlers (fds .client)).any (Handler.transfers conn resp .client) = true ∧
      (s.handlers (fds .server)).any (Handler.transfers conn resp .server) = true)
    ⟨fun h => ⟨h.1, fun | .client => h.2.1 | .server => h.2.2⟩, fun h => ⟨h.live, h.handler .client, h.handler .server⟩⟩

/-- The client is asked for OUT exactly when something is to be written. -/
def Pressed (s : Proxy) (conn : ConnId) (resp : MsgId) : Prop :=
  ∀ k, s.connections.get conn = some k → k.client.events.output = (s.responses resp).canWrite

/-- The states between the handlers' calls from when the two are installed: one of them is
called, whatever the mask is, which may be stale, or something else happens that leaves
the connection as it is. Every read returns something. -/
inductive Transferring (conn : ConnId) (fds : Side → Fd) (resp : MsgId) : Proxy → Prop
  | installed {s s' : Proxy} {k : Connection} {rqst : ClientRequest} (here : s.connections.get conn = some k)
      (owned : ∀ x, (k.elem x).fd = fds x) (next : resp = s.nextMessage)
      (ran : startTransfer conn rqst s = .ok ((), s')) : Transferring conn fds resp s'
  | called {s s' : Proxy} {event : Event} (x : Side) (before : Transferring conn fds resp s)
      (running : s.Transfers conn fds resp) (reported : event.fd = fds x)
      (sized : x = .server → ∀ bytes ∈ event.io.read, bytes.take (s.responses resp).shouldRead ≠ [])
      (stepped : s.step event = .ok s') : Transferring conn fds resp s'
  | elsewhere {s s' : Proxy} (before : Transferring conn fds resp s)
      (connection : s'.connections.get conn = s.connections.get conn) (response : s'.responses resp = s.responses resp)
      (handlers : ∀ x, s'.handlers (fds x) = s.handlers (fds x)) : Transferring conn fds resp s'

/-- What is kept while `fast_transfer` runs. -/
structure Flowing (s : Proxy) (conn : ConnId) (fds : Side → Fd) (resp : MsgId) (k : Connection) : Prop where
  here : s.connections.get conn = some k
  owned : ∀ x, (k.elem x).fd = fds x
  flows : (s.responses resp).Flows
  pressed : k.client.events.output = (s.responses resp).canWrite

/-- The transfer is over, or what is kept of it holds. -/
def Stays (conn : ConnId) (fds : Side → Fd) (resp : MsgId) (s : Proxy) : Prop :=
  s.Transfers conn fds resp → ∃ k, s.Flowing conn fds resp k

abbrev Anything (_ : Fault) : Prop := True

theorem Flowing.of_response (here : s.connections.get conn = some k) (owned : ∀ x, (k.elem x).fd = fds x)
    (response : s.responses resp = m) (flows : m.Flows) (pressed : k.client.events.output = m.canWrite) :
    s.Flowing conn fds resp k := by
  rw [← response] at flows pressed
  exact ⟨here, owned, flows, pressed⟩

theorem Flowing.stays (flowing : s.Flowing conn fds resp k) : Stays conn fds resp s := fun _ => ⟨k, flowing⟩

/-- The connection is closed. -/
theorem stays_of_gone (gone : s.connections.get conn = none) : Stays conn fds resp s := by
  intro running
  have live := running.live
  rw [gone] at live
  cases live

theorem wp_getElem_side {Q : EpollElem → Proxy → Prop} {x : Side} (here : s.connections.get conn = some k)
    (h : Q (k.elem x) s) : wp Anything (getElem (x.elem conn)) Q s := by
  unfold getElem
  rw [wp_bind, wp_get, elem_side here]
  exact h

/-- An object of a connection that is closed is not there. -/
theorem wp_getElem_gone {Q : EpollElem → Proxy → Prop} {x : Side} (gone : s.connections.get conn = none) :
    wp Anything (getElem (x.elem conn)) Q s := by
  have none : s.elem (x.elem conn) = none := by
    cases x <;> simp [Side.elem, elem, gone]
  unfold getElem
  rw [wp_bind, wp_get, none]
  trivial

theorem wp_updateState_side {x : Side} (here : s.connections.get conn = some k) {Q : Unit → Proxy → Prop}
    (h : Q () { s with connections := s.connections.set conn (k.setElem { k.elem x with events := state } x) })
    (kept : (k.elem x).events = state → Q () s) : wp Anything (updateState (x.elem conn) state) Q s := by
  unfold updateState
  rw [wp_bind]
  apply wp_getElem_side here
  rw [wp_ite]
  refine ⟨kept, fun _ => ?_⟩
  rw [wp_ite]
  refine ⟨fun _ => trivial, fun _ => ?_⟩
  rw [wp_modify, setElem_side here]
  exact h

theorem destroy_connections (s : Proxy) (e : EpollElem) : (s.destroy e).connections = s.connections := by
  unfold destroy
  split <;> rfl

theorem wp_closeConnection_gone :
    wp Anything (closeConnection conn) (fun _ s' => s'.connections.get conn = none) s := by
  unfold closeConnection
  rw [wp_bind, wp_get]
  cases here : s.connections.get conn with
  | none => trivial
  | some k =>
    dsimp only
    rw [wp_modify, destroy_connections, destroy_connections]
    exact (Store.get_erase).trans (if_pos rfl)

theorem wp_logAndClose_gone : wp Anything (logAndClose (.conn conn)) (fun _ s' => s'.connections.get conn = none) s := by
  unfold logAndClose touch close
  rw [wp_bind, wp_bind, wp_get, wp_ite]
  exact ⟨fun _ => wp_closeConnection_gone, fun _ => trivial⟩

theorem wp_logAndClose_stays : wp Anything (logAndClose (.conn conn)) (fun _ s' => Stays conn fds resp s') s :=
  wp_mono (fun _ _ gone => stays_of_gone gone) wp_logAndClose_gone

theorem wp_anything {α : Type} {x : ProxyM α} : wp Anything x (fun _ _ => True) s := by
  unfold wp
  split <;> trivial

theorem wp_getElem_same {r : ElemRef} {Q : EpollElem → Proxy → Prop} (h : ∀ e, s.elem r = some e → Q e s) :
    wp Anything (getElem r) Q s := by
  unfold getElem
  rw [wp_bind, wp_get]
  cases here : s.elem r with
  | none => trivial
  | some e => exact h e here

theorem setElem_sock_connections {it : SocketId} {e : EpollElem} : (s.setElem (.sock it) e).connections = s.connections := by
  unfold setElem
  dsimp only
  split <;> rfl

/-- A response that is sent to a socket touches no connection. -/
theorem wp_sendResponse_sock {it : SocketId} {iterator : EntryRef} {next : AfterSend} :
    wp Anything (sendResponse (.sock it) m iterator next io) (fun _ s' => s'.connections = s.connections) s := by
  unfold sendResponse newResponse observe update updateState updateHandler
  simp only [wp_bind, wp_get, wp_set, wp_pure]
  apply wp_getElem_same
  intro e _
  rw [wp_modify]
  apply wp_getElem_same
  intro e' _
  rw [wp_ite]
  constructor
  · intro _
    rw [wp_pure]
    apply wp_getElem_same
    intro e'' _
    rw [wp_ite]
    exact ⟨fun _ => trivial, fun _ => rfl⟩
  · intro _
    rw [wp_ite]
    refine ⟨fun _ => trivial, fun _ => ?_⟩
    rw [wp_modify]
    apply wp_getElem_same
    intro e'' _
    rw [wp_ite]
    exact ⟨fun _ => trivial, fun _ => setElem_sock_connections⟩

/-- The handler of the client is another one. -/
theorem stays_of_handler {h : Handler} (other : h.transfers conn resp .client = false)
    (installed : s.handlers (fds .client) = some h) : Stays conn fds resp s := by
  intro running
  have transfers := running.handler .client
  rw [installed, Option.any_some, other] at transfers
  cases transfers

theorem wp_updateHandler_client {h : Handler} (here : s.connections.get conn = some k)
    (owned : k.client.fd = fds .client) (other : h.transfers conn resp .client = false) :
    wp Anything (updateHandler (.client conn) h) (fun _ s' => Stays conn fds resp s') s := by
  unfold updateHandler
  rw [wp_bind]
  apply wp_getElem_side (x := .client) here
  rw [wp_ite]
  refine ⟨fun _ => trivial, fun _ => ?_⟩
  rw [wp_modify]
  apply stays_of_handler other
  unfold setHandler
  exact if_pos owned.symm

/-- `send_server_response` ends the transfer. -/
theorem wp_sendServerResponse (here : s.connections.get conn = some k) (owned : k.client.fd = fds .client) :
    wp Anything (sendServerResponse conn rqst m io) (fun _ s' => Stays conn fds resp s') s := by
  unfold sendServerResponse touch
  rw [wp_bind, wp_bind, wp_get, wp_ite]
  refine ⟨fun _ => ?_, fun _ => trivial⟩
  rw [wp_pure, wp_ite]
  constructor
  · intro _
    rw [wp_bind]
    apply wp_mono _ wp_anything
    intro it s₁ _
    rw [wp_bind]
    apply wp_mono _ wp_closeConnection_gone
    intro _ s₂ gone
    apply wp_mono _ wp_sendResponse_sock
    intro _ s₃ same
    rw [← same] at gone
    exact stays_of_gone gone
  · intro _
    rw [wp_bind]
    have sends (s₁ : Proxy) (k₁ : Connection) (here₁ : s₁.connections.get conn = some k₁)
        (owned₁ : k₁.client.fd = fds .client) :
        wp Anything (sendResponse (.client conn) m (.conn conn)
          (.reuseConnection conn (rqst.getHeader.getProperty (lit "host"))) io)
          (fun _ s' => Stays conn fds resp s') s₁ := by
      unfold sendResponse newResponse observe update
      simp only [wp_bind, wp_get, wp_set, wp_pure]
      refine wp_getElem_side (x := .client) (k := k₁) here₁ ?_
      rw [wp_modify]
      refine wp_updateState_side (x := .client) (k := k₁) (by exact here₁) ?_ ?_
      · apply wp_updateHandler_client (k := k₁.setElem { k₁.elem .client with events := .union .OUT .RDHUP } .client) _
          owned₁ rfl
        exact (Store.get_set_live here₁).trans (if_pos rfl)
      · intro _
        exact wp_updateHandler_client (k := k₁) here₁ owned₁ rfl
    apply wp_updateState_side (x := .server) here
    · apply sends _ (k.setElem { k.elem .server with events := .WAIT } .server) _ owned
      exact (Store.get_set_live here).trans (if_pos rfl)
    · intro _
      exact sends s k here owned

theorem Flowing.wp_setActive (flowing : s.Flowing conn fds resp k) :
    wp Anything (setActive (.conn conn)) (fun _ s' => ∃ k', s'.Flowing conn fds resp k' ∧ s'.responses = s.responses) s := by
  have here := flowing.here
  unfold setActive
  rw [wp_bind, wp_get]
  dsimp only
  rw [here]
  refine ⟨{ k with expiresIn := s.ticks + k.timeout }, ⟨?_, ?_, flowing.flows, flowing.pressed⟩, rfl⟩
  · exact (Store.get_set_live here).trans (if_pos rfl)
  · intro x
    rw [← flowing.owned x]
    cases x <;> rfl

theorem setElem_owned {x : Side} (owned : ∀ x, (k.elem x).fd = fds x) (y : Side) :
    ((k.setElem { k.elem x with events := state } x).elem y).fd = fds y := by
  rw [← owned y]
  cases x <;> cases y <;> rfl

/-- The response has gone on to `m`, and so has the interest of the client. -/
theorem Flowing.wp_updateClient {Q : Unit → Proxy → Prop} (here : s.connections.get conn = some k)
    (owned : ∀ x, (k.elem x).fd = fds x) (response : s.responses resp = m) (flows : m.Flows)
    (output : state.output = m.canWrite) (h : ∀ s' k', s'.Flowing conn fds resp k' → Q () s') :
    wp Anything (updateState (.client conn) state) Q s := by
  apply wp_updateState_side (x := .client) here
  · apply h _ (k.setElem { k.elem .client with events := state } .client)
    exact Flowing.of_response ((Store.get_set_live here).trans (if_pos rfl)) (setElem_owned owned) response flows output
  · intro same
    apply h s k
    refine Flowing.of_response here owned response flows ?_
    rw [← output, ← same]
    rfl

theorem wp_saveTransferred :
    wp Anything (saveTransferred rqst m) (fun _ s' => s'.connections = s.connections) s := by
  unfold saveTransferred observe
  rw [wp_bind, wp_get]
  split
  · rw [wp_bind, wp_modify, wp_modify]
  · trivial

/-- A response that is read ends the transfer. -/
theorem Flowing.wp_transferred (flowing : s.Flowing conn fds resp k) :
    wp Anything (saveTransferred rqst m)
      (fun _ s' => wp Anything (sendServerResponse conn rqst (m.transferred io.garbage) io)
        (fun _ s'' => Stays conn fds resp s'') s') s := by
  apply wp_mono _ wp_saveTransferred
  intro _ s' same
  have here := flowing.here
  rw [← same] at here
  exact wp_sendServerResponse here (flowing.owned .client)

theorem Flowing.wp_transferIn (flowing : s.Flowing conn fds resp k)
    (sized : ∀ bytes ∈ io.read, bytes.take (s.responses resp).shouldRead ≠ []) :
    wp Anything (transferIn conn rqst resp io) (fun _ s' => Stays conn fds resp s') s := by
  have here := flowing.here
  unfold transferIn readMessage
  simp only [wp_bind, wp_get]
  refine wp_getElem_side (x := .server) (k := k) here ?_
  cases read : io.read with
  | none =>
    simp only [wp_pure]
    exact wp_logAndClose_stays
  | some bytes =>
    dsimp only
    cases got : (s.responses resp).readFrom (bytes.take (s.responses resp).shouldRead) with
    | error e =>
      cases e with
      | annotated text =>
        simp only [wp_pure]
        exact wp_logAndClose_stays
      | _ => exact trivial
    | ok m =>
      obtain ⟨flows, grows⟩ := flowing.flows.readFrom (sized bytes read) got
      have goes_on (s₁ : Proxy) (k₁ : Connection) (flowing₁ : s₁.Flowing conn fds resp k₁) :
          (m.isRead = true → wp Anything (saveTransferred rqst m)
            (fun _ s' => wp Anything (sendServerResponse conn rqst (m.transferred io.garbage) io)
              (fun _ s'' => Stays conn fds resp s'') s') s₁) ∧
          (m.isRead = false → Stays conn fds resp s₁) :=
        ⟨fun _ => flowing₁.wp_transferred, fun _ => flowing₁.stays⟩
      unfold observe setResponse
      simp only [wp_bind, wp_modify, wp_pure, Wp.wp_whenever]
      constructor
      · intro ready
        exact Flowing.wp_updateClient (k := k) (by exact here) flowing.owned (if_pos rfl) flows ready.symm goes_on
      · intro idle
        refine goes_on _ k (Flowing.of_response here flowing.owned (if_pos rfl) flows ?_)
        rw [idle, flowing.pressed]
        exact Bool.eq_false_iff.mpr fun before => by rw [grows before] at idle; cases idle

theorem Flowing.wp_transferOut (flowing : s.Flowing conn fds resp k) (asked : (s.responses resp).canWrite = true) :
    wp Anything (transferOut conn resp io) (fun _ s' => Stays conn fds resp s') s := by
  have here := flowing.here
  unfold transferOut writeMessage
  simp only [wp_bind, wp_get]
  refine wp_getElem_side (x := .client) (k := k) here ?_
  cases write : io.write with
  | none =>
    dsimp only
    rw [wp_ite]
    refine ⟨fun _ => ?_, fun _ => trivial⟩
    rw [wp_pure]
    exact wp_logAndClose_stays
  | some accepted =>
    dsimp only
    cases wrote : (s.responses resp).writeTo accepted with
    | none => trivial
    | some result =>
      obtain ⟨bytes, m⟩ := result
      have flows := flowing.flows.writeTo wrote
      have armed := flowing.pressed
      rw [asked] at armed
      unfold observe setResponse
      simp only [wp_bind, wp_modify, wp_pure, Wp.wp_whenever]
      constructor
      · intro drained
        rw [Bool.not_eq_true'] at drained
        refine wp_getElem_side (x := .client) (k := k) (by exact here) ?_
        refine Flowing.wp_updateClient (k := k) (by exact here) flowing.owned (if_pos rfl) flows ?_
          (fun _ _ flowing' => flowing'.stays)
        rw [drained]
        show (k.client.events.output ^^ true) = false
        rw [armed]
        rfl
      · intro more
        rw [Bool.not_eq_false'] at more
        apply Flowing.stays (k := k)
        exact Flowing.of_response here flowing.owned (if_pos rfl) flows (armed.trans more.symm)

/-- What is left of a handler when the HUP and ERROR branch has run. -/
theorem wp_failed {x : ProxyM Unit} {branch : Bool}
    (goes_on : wp Anything x (fun _ s' => Stays conn fds resp s') s)
    (gone : ∀ s₁ : Proxy, s₁.connections.get conn = none → wp Anything x (fun _ s' => Stays conn fds resp s') s₁) :
    wp Anything (whenever branch (closeFailed (.conn conn) io))
      (fun _ s₁ => wp Anything x (fun _ s' => Stays conn fds resp s') s₁) s := by
  rw [Wp.wp_whenever]
  constructor
  · intro _
    unfold closeFailed
    split
    · apply wp_mono _ wp_logAndClose_gone
      intro _ s₁ closed
      exact gone s₁ closed
    · trivial
  · intro _
    exact goes_on

theorem Flowing.wp_server (flowing : s.Flowing conn fds resp k)
    (sized : ∀ bytes ∈ io.read, bytes.take (s.responses resp).shouldRead ≠ []) :
    wp Anything ((Handler.transferServer conn rqst resp).run state io) (fun _ s' => Stays conn fds resp s') s := by
  unfold Handler.run onReadable
  dsimp only
  rw [wp_bind]
  refine wp_getElem_side (x := .server) flowing.here ?_
  rw [wp_bind]
  apply wp_mono _ flowing.wp_setActive
  rintro _ s₁ ⟨k₁, flowing₁, same⟩
  rw [← same] at sized
  rw [wp_bind]
  have hung : wp Anything (hungUp state io) (fun _ s₂ => s₂ = s₁) s₁ := by
    unfold hungUp
    split
    · split
      · rfl
      · trivial
    · rfl
  apply wp_mono _ hung
  rintro gone s₂ rfl
  rw [wp_ite]
  constructor
  · intro _
    exact wp_logAndClose_stays
  · intro _
    rw [wp_bind]
    apply wp_failed
    · rw [Wp.wp_whenever]
      refine ⟨fun _ => ?_, fun _ => flowing₁.stays⟩
      rw [wp_bind]
      refine wp_getElem_side (x := .server) flowing₁.here ?_
      exact flowing₁.wp_transferIn sized
    · intro s₃ closed
      rw [Wp.wp_whenever]
      refine ⟨fun _ => ?_, fun _ => stays_of_gone closed⟩
      rw [wp_bind]
      exact wp_getElem_gone (x := .server) closed

theorem Flowing.wp_client (flowing : s.Flowing conn fds resp k) :
    wp Anything ((Handler.transferClient conn resp).run state io) (fun _ s' => Stays conn fds resp s') s := by
  unfold Handler.run onWritable
  dsimp only
  rw [wp_bind]
  refine wp_getElem_side (x := .client) flowing.here ?_
  rw [wp_bind]
  apply wp_mono _ flowing.wp_setActive
  rintro _ s₁ ⟨k₁, flowing₁, _⟩
  rw [wp_ite]
  constructor
  · intro _
    exact wp_logAndClose_stays
  · intro _
    rw [wp_bind]
    apply wp_failed
    · rw [wp_bind, wp_bind, wp_get, wp_pure, Wp.wp_whenever]
      refine ⟨fun both => ?_, fun _ => flowing₁.stays⟩
      rw [Bool.and_eq_true] at both
      rw [wp_bind]
      refine wp_getElem_side (x := .client) flowing₁.here ?_
      exact flowing₁.wp_transferOut both.2
    · intro s₃ closed
      rw [wp_bind, wp_bind, wp_get, wp_pure, Wp.wp_whenever]
      refine ⟨fun _ => ?_, fun _ => stays_of_gone closed⟩
      rw [wp_bind]
      exact wp_getElem_gone (x := .client) closed

/-- Each call of one of the two handlers keeps what is kept, or ends the transfer. -/
theorem Flowing.step {event : Event} {x : Side} (flowing : s.Flowing conn fds resp k) (running : s.Transfers conn fds resp)
    (reported : event.fd = fds x)
    (sized : x = .server → ∀ bytes ∈ event.io.read, bytes.take (s.responses resp).shouldRead ≠ [])
    (stepped : s.step event = .ok s') : Stays conn fds resp s' := by
  obtain ⟨h, found, installed⟩ := (Option.any_eq_true _ _).mp (running.handler x)
  rw [← reported] at found
  unfold Handler.transfers at installed
  split at installed
  · rw [Bool.and_eq_true, decide_eq_true_eq, decide_eq_true_eq] at installed
    obtain ⟨rfl, rfl⟩ := installed
    exact step_wp (Q := Stays _ fds _) found (flowing.wp_server (sized rfl)) stepped
  · rw [Bool.and_eq_true, decide_eq_true_eq, decide_eq_true_eq] at installed
    obtain ⟨rfl, rfl⟩ := installed
    exact step_wp (Q := Stays _ fds _) found flowing.wp_client stepped
  · cases installed

theorem wp_updateHandler_side {x : Side} {h : Handler} {Q : Unit → Proxy → Prop} (here : s.connections.get conn = some k)
    (next : ∀ s', s'.connections.get conn = some k → s'.responses = s.responses → Q () s') :
    wp Anything (updateHandler (x.elem conn) h) Q s := by
  unfold updateHandler
  rw [wp_bind]
  apply wp_getElem_side here
  rw [wp_ite]
  refine ⟨fun _ => trivial, fun _ => ?_⟩
  rw [wp_modify]
  exact next _ here rfl

theorem wp_update_side {x : Side} {h : Handler} {Q : Unit → Proxy → Prop} (here : s.connections.get conn = some k)
    (next : ∀ s', s'.connections.get conn = some (k.setElem { k.elem x with events := state } x) →
      s'.responses = s.responses → Q () s') : wp Anything (update (x.elem conn) state h) Q s := by
  unfold update
  rw [wp_bind]
  apply wp_updateState_side here
  · exact wp_updateHandler_side ((Store.get_set_live here).trans (if_pos rfl)) next
  · intro same
    have kept : k.setElem { k.elem x with events := state } x = k := by
      rw [← same]
      cases x <;> rfl
    rw [kept] at next
    exact wp_updateHandler_side here next

theorem flowing_installed (here : s.connections.get conn = some k) (owned : ∀ x, (k.elem x).fd = fds x)
    (ran : startTransfer conn rqst s = .ok ((), s')) : ∃ k', s'.Flowing conn fds s.nextMessage k' := by
  have installs : wp Anything (startTransfer conn rqst)
      (fun _ s' => ∃ k', s'.Flowing conn fds s.nextMessage k') s := by
    unfold startTransfer newResponse
    simp only [wp_bind, wp_get, wp_set, wp_pure]
    refine wp_update_side (x := .server) (k := k) (by exact here) ?_
    intro s₁ here₁ responses₁
    apply wp_update_side (x := .client) here₁
    intro s₂ here₂ responses₂
    have response : s₂.responses s.nextMessage = .new := by
      rw [responses₂, responses₁]
      exact if_pos rfl
    exact ⟨_, Flowing.of_response here₂ (setElem_owned (setElem_owned owned)) response BufferedMessage.flows_new rfl⟩
  exact wp_ok installs ran

/-- As long as a transfer runs, the client is asked for OUT in each of its states between
the handlers' calls exactly when something of the response is to be written. -/
theorem Transferring.out_iff_canWrite (reached : Transferring conn fds resp s) (running : s.Transfers conn fds resp) :
    s.Pressed conn resp := by
  have stays : Stays conn fds resp s := by
    clear running
    induction reached with
    | installed here owned next ran =>
      subst next
      obtain ⟨k', flowing⟩ := flowing_installed here owned ran
      exact flowing.stays
    | called x _ running reported sized stepped before =>
      obtain ⟨k, flowing⟩ := before running
      exact flowing.step running reported sized stepped
    | elsewhere _ connection response handlers before =>
      intro running
      obtain ⟨k, flowing⟩ := before ⟨connection ▸ running.live, fun x => handlers x ▸ running.handler x⟩
      exact ⟨k, Flowing.of_response (connection.trans flowing.here) flowing.owned response flowing.flows flowing.pressed⟩
  obtain ⟨k, flowing⟩ := stays running
  intro k' here
  rw [flowing.here] at here
  cases here
  exact flowing.pressed

def ends : Side → Fd
  | .client => 6
  | .server => 7

/-- A server with one connection, to which the request was sent. -/
def asked : Proxy :=
  { init 3 4 5 with connections := Store.empty.insert ⟨.new 6 .WAIT 240 0, .new 7 .OUT 240 0, 240, 240⟩ }

/-- The server sends the header and a part of the body. -/
def begins : Event := receives 7 (lit "HTTP/1.1 200 OK\r\nContent-Length: 5\r\n\r\nab")

/-- The transfer runs behind the read, of which something is to be written. -/
def goesOn (s : Proxy) : Bool := decide (s.Transfers 0 ends 0) && (s.responses 0).canWrite

theorem begins_pressed : ∃ s, Transferring 0 ends 0 s ∧ (s.responses 0).canWrite = true ∧ s.Pressed 0 0 := by
  obtain ⟨⟨_, s₁⟩, installed, first⟩ : ∃ r, startTransfer 0 .new asked = .ok r ∧
      (decide (r.2.Transfers 0 ends 0) && decide (0 < (r.2.responses 0).shouldRead) &&
        (r.2.step begins).toOption.any goesOn) = true := Runs.ok_any (by decide +kernel)
  rw [Bool.and_eq_true, Bool.and_eq_true, decide_eq_true_eq, decide_eq_true_eq] at first
  obtain ⟨⟨running, room⟩, reads⟩ := first
  obtain ⟨s₂, stepped, second⟩ := Runs.ok_any reads
  unfold goesOn at second
  rw [Bool.and_eq_true, decide_eq_true_eq] at second
  have before : Transferring 0 ends 0 s₁ := Transferring.installed (k := ⟨.new 6 .WAIT 240 0, .new 7 .OUT 240 0, 240, 240⟩)
    rfl (fun x => by cases x <;> rfl) rfl installed
  have reached := Transferring.called .server before running rfl (fun _ bytes read => by
    cases read
    intro empty
    rw [List.take_eq_nil_iff] at empty
    rcases empty with none | empty
    · exact absurd none (Nat.ne_of_gt room)
    · cases empty) stepped
  exact ⟨s₂, reached, second.2, reached.out_iff_canWrite second.1⟩

end Proxy

end ProxyServer
