import ProxyServer.Server.EpollCore
import ProxyServer.Server.StageSteps

/-!
# Stages over a run

The tunnel, the services, and from the step of every handler what holds in every run.
-/

namespace ProxyServer

open Wp

open Proxy (Shows)

namespace Board

variable {b w : Board} {p : Batch} {k k' : Watch} {c : ConnId} {x y : MsgId}

/-! ### CONNECT -/

/-- A tunnel that is open. -/
structure Tunnelled (b : Board) (c : ConnId) (x y : MsgId) (k k' : Watch) (w : Board) : Prop where
  open_ : b.Open c k k' w
  client : w.handlers k.fd = some (.connectTransfer c .client x y)
  server : w.handlers k'.fd = some (.connectTransfer c .server y x)
  left : k.events.rdhup = true
  right : k'.events.rdhup = true

/-- The tunnel stays open, or was closed. -/
def Tunnels (b : Board) (p : Batch) (c : ConnId) (x y : MsgId) (w : Board) : Prop :=
  (∃ k k', b.Tunnelled c x y k k' w) ∨ b.Shut p (.conn c) w

namespace Tunnels

theorem settled (tunnels : b.Tunnels p c x y w) : b.Settled p (· = .conn c) w := by
  rcases tunnels with ⟨k, k', tunnelled⟩ | shut
  · exact tunnelled.open_.settled tunnelled.client tunnelled.server (.tunnelling _ _ tunnelled.left tunnelled.right)
  · exact shut.settled

theorem shows_logAndClose (tunnels : b.Tunnels p c x y w) :
    Shows (Proxy.logAndClose (.conn c)) (fun _ => b.Tunnels p c x y) w := by
  rcases tunnels with ⟨k, k', tunnelled⟩ | shut
  · exact tunnelled.open_.shows_logAndClose.mono fun _ _ => Or.inr
  · refine Via.then_leaves Proxy.unseen_touch fun _ => Proxy.via_closeConnection fun k k' client _ => ?_
    rw [shut.gone (.client c) rfl] at client
    cases client

/-- An end of the tunnel gets another interest that keeps RDHUP. -/
theorem shows_interest (tunnels : b.Tunnels p c x y w) (side : Side) {change : FdState → FdState}
    (keeps : ∀ e, e.rdhup = true → (change e).rdhup = true) :
    Shows (do
      let e ← Proxy.getElem (side.elem c)
      Proxy.updateState (side.elem c) (change e.events)) (fun _ => b.Tunnels p c x y) w := by
  rcases tunnels with ⟨k, k', open_, client, server, left, right⟩ | shut
  · refine Via.bind (Proxy.via_getElem fun e here => Proxy.via_updateState _ fun z owner => ?_)
    obtain rfl : e.watch = z := Option.some.inj (here.symm.trans owner)
    left
    cases side with
    | client =>
      obtain rfl : k = e.watch := Option.some.inj (open_.client.symm.trans owner)
      exact ⟨_, _, open_.setClient, client, server, keeps _ left, right⟩
    | server =>
      obtain rfl : k' = e.watch := Option.some.inj (open_.server.symm.trans owner)
      exact ⟨_, _, open_.setServer, client, server, left, keeps _ right⟩
  · refine Proxy.via_closed (shut.gone _ ?_)
    cases side with
    | client => rfl
    | server => rfl

end Tunnels

end Board

theorem FdState.rdhup_xor_input {e : FdState} (rdhup : e.rdhup = true) : (e.xor .IN).rdhup = true := by
  simp [FdState.xor, FdState.IN, FdState.WAIT, rdhup]

theorem FdState.rdhup_xor_output {e : FdState} (rdhup : e.rdhup = true) : (e.xor .OUT).rdhup = true := by
  simp [FdState.xor, FdState.OUT, FdState.WAIT, rdhup]

theorem FdState.rdhup_union {e other : FdState} (rdhup : e.rdhup = true) : (e.union other).rdhup = true := by
  simp [FdState.union, rdhup]

namespace Proxy

open Board

variable {b w : Board} {p q : Batch} {k k' : Watch} {id : SocketId} {c : ConnId} {x y m m' : MsgId} {io : Io} {state : FdState}

theorem shows_connectTransferIn (tunnels : b.Tunnels p c x y w) (side other : Side) :
    Shows (connectTransferIn c (side.elem c) (other.elem c) m io) (fun _ => b.Tunnels p c x y) w := by
  refine Via.then_leaves unseen_getElem fun _ => Via.get fun s _ => ?_
  have interests : ∀ w', b.Tunnels p c x y w' → Shows (do
      let m := (← get).raws m
      whenever (!m.canRead) do
        let e ← getElem (side.elem c)
        updateState (side.elem c) (e.events.xor .IN)
      whenever m.canWrite do
        let e ← getElem (other.elem c)
        updateState (other.elem c) (e.events.union .OUT)) (fun _ => b.Tunnels p c x y) w' := by
    refine fun w' tunnels => Via.get fun s _ => Via.bind (Via.whenever (fun _ => ?_) fun _ => ?_)
    · refine (tunnels.shows_interest side fun _ => FdState.rdhup_xor_input).mono fun _ w' tunnels => ?_
      exact Via.whenever (fun _ => tunnels.shows_interest other fun _ => FdState.rdhup_union) fun _ => tunnels
    · exact Via.whenever (fun _ => tunnels.shows_interest other fun _ => FdState.rdhup_union) fun _ => tunnels
  cases io.read with
  | none => exact Via.bind (tunnels.shows_logAndClose.mono fun _ w' tunnels => interests w' tunnels)
  | some bytes => exact Via.then_leaves (unseen_setRaw _ _) fun _ => interests w tunnels

theorem shows_connectTransferOut (tunnels : b.Tunnels p c x y w) (side other : Side) :
    Shows (connectTransferOut c (side.elem c) (other.elem c) m io) (fun _ => b.Tunnels p c x y) w := by
  refine Via.then_leaves unseen_getElem fun _ => Via.get fun s _ => ?_
  have interests : ∀ w', b.Tunnels p c x y w' → Shows (do
      let m := (← get).raws m
      whenever (!m.canWrite) do
        let e ← getElem (side.elem c)
        updateState (side.elem c) (e.events.xor .OUT)
      whenever m.canRead do
        let e ← getElem (other.elem c)
        updateState (other.elem c) (e.events.union .IN)) (fun _ => b.Tunnels p c x y) w' := by
    refine fun w' tunnels => Via.get fun s _ => Via.bind (Via.whenever (fun _ => ?_) fun _ => ?_)
    · refine (tunnels.shows_interest side fun _ => FdState.rdhup_xor_output).mono fun _ w' tunnels => ?_
      exact Via.whenever (fun _ => tunnels.shows_interest other fun _ => FdState.rdhup_union) fun _ => tunnels
    · exact Via.whenever (fun _ => tunnels.shows_interest other fun _ => FdState.rdhup_union) fun _ => tunnels
  cases io.write with
  | none => exact Via.bind (tunnels.shows_logAndClose.mono fun _ w' tunnels => interests w' tunnels)
  | some accepted => exact Via.then_leaves (unseen_setRaw _ _) fun _ => interests w tunnels

theorem shows_onConnectTransfer (tunnels : b.Tunnels p c x y w) (side other : Side) :
    Shows (onConnectTransfer c (side.elem c) (other.elem c) m m' state io) (fun _ => b.Tunnels p c x y) w := by
  refine Via.then_leaves unseen_setActive fun _ => ?_
  split
  · exact tunnels.shows_logAndClose
  · refine Via.get fun s _ => Via.bind (Via.mono (Q := fun _ => b.Tunnels p c x y) ?_ fun _ w' tunnels => ?_)
    · exact Via.whenever (fun _ => shows_connectTransferIn tunnels side other) fun _ => tunnels
    · refine Via.get fun s _ => ?_
      exact Via.whenever (fun _ => shows_connectTransferOut tunnels side other) fun _ => tunnels

theorem shows_connectTransfer {side : Side} (tunnels : b.Tunnels p c x y w) :
    Shows (Handler.run (.connectTransfer c side m m') state io) (fun _ => b.Settled p (· = .conn c)) w := by
  cases side with
  | client => exact (shows_onConnectTransfer tunnels .client .server).mono fun _ _ tunnels => tunnels.settled
  | server => exact (shows_onConnectTransfer tunnels .server .client).mono fun _ _ tunnels => tunnels.settled

/-! ### The listener and the notifier -/

theorem shows_onListener (exclusive : b.Exclusive) (stays : b.Settled p (fun _ => True) b) :
    Shows (onListener state io) (fun _ => b.Settled p (fun _ => True)) b := by
  refine Via.whenever (fun _ => Via.get fun s _ => Via.then_leaves (unseen_service _) fun _ => Via.bind ?_) fun _ => stays
  refine via_newDescriptor (fun f _ present fresh => ?_) fun _ => Via.pure stays
  refine Via.get fun s _ => Via.bind (via_insertSocket _ (fun id keyed => ?_) fun n gone _ => ?_)
  · obtain ⟨k, owner, same⟩ := exclusive.keyed keyed
    exact fresh _ k owner same
  · refine via_readRequest fun k m owner => ?_
    cases (if_pos rfl).symm.trans owner
    have touched : Touched b (fun x => False ∨ x = .sock n)
        (b.addSocket n (EpollElem.new f .IN SHORT_SOCKET_TIMEOUT s.ticks).watch) := by
      refine (exclusive.touched fun _ => False).extend _ rfl (fun r other => ?_) fun r x r' x' outside owner' new owner'' => ?_
      · exact if_neg (by rintro rfl; exact other rfl)
      · cases r' with
        | sock id =>
          cases new
          cases (if_pos rfl).symm.trans owner''
          exact (fresh r x owner').symm
        | client c => cases new
        | server c => cases new
    · refine ⟨_, fun _ _ => Or.inl trivial, touched.seat (r := .sock n) (Or.inr rfl) owner reads, ?_⟩
      rintro it (never | rfl)
      · exact never.elim
      · intro x owner'
        obtain rfl : _ = x := Option.some.inj ((if_pos rfl).symm.trans owner')
        exact ⟨_, if_pos rfl, .reading⟩

/-- The client moves to a connection with a new server. -/
theorem Exclusive.connects {client : SocketId} {destination socket : Fd} {host : Bytes} {ip : ResolvedIp}
    (exclusive : b.Exclusive) (here : b.elem (.sock client) = some k)
    (fresh : ∀ r k, b.elem r = some k → k.fd ≠ destination) :
    b.Settled p (fun _ => True)
      (((((b.setElem (.sock client) ⟨0, .WAIT⟩).eraseSocket client ⟨0, .WAIT⟩).addConnection c k ⟨destination, .OUT⟩).seat
        (.client c) ⟨k.fd, .RDHUP⟩ (.connecting c socket host)).setHandler destination (.serverConnect c ip)) := by
  have taken : Touched b (· = .sock client) (b.setElem (.sock client) ⟨0, .WAIT⟩) :=
    (exclusive.touched _).setElem (r := .sock client) rfl fun _ _ _ owner => (exclusive.present owner).symm
  have closed := taken.eraseSocket rfl (if_pos rfl)
  have gone : ((b.setElem (.sock client) ⟨0, .WAIT⟩).eraseSocket client ⟨0, .WAIT⟩).elem (.sock client) = none := if_pos rfl
  generalize (b.setElem (.sock client) ⟨0, .WAIT⟩).eraseSocket client ⟨0, .WAIT⟩ = w at closed gone ⊢
  have joined : Touched b (fun x => x = .sock client ∨ x = .conn c) (w.addConnection c k ⟨destination, .OUT⟩) := by
    refine closed.extend _ rfl (fun r other => ?_) fun r x r' x' outside owner new owner' => ?_
    · rw [elem_addConnection, if_neg (by rintro rfl; exact other rfl), if_neg (by rintro rfl; exact other rfl)]
    · cases r' with
      | sock id => cases new
      | client c' =>
        cases new
        obtain rfl : k = x' := Option.some.inj ((if_pos rfl).symm.trans owner')
        intro same
        exact outside (congrArg ElemRef.entry (exclusive.unique here owner same)).symm
      | server c' =>
        cases new
        obtain rfl : ⟨destination, .OUT⟩ = x' := Option.some.inj (Eq.trans (by simp) owner')
        exact (fresh r x owner).symm
  have seated := joined.seat (r := .client c) (h := .connecting c socket host) (Or.inr rfl) (if_pos rfl) .RDHUP
  refine ⟨_, fun _ _ => Or.inl trivial, seated.setHandler fun r x _ owner => (fresh r x owner).symm, ?_⟩
  rintro it (rfl | rfl)
  · intro x owner
    simp [gone] at owner
  · intro x x' client' server'
    obtain rfl : ⟨k.fd, .RDHUP⟩ = x := Option.some.inj ((if_pos rfl).symm.trans client')
    obtain rfl : ⟨destination, .OUT⟩ = x' := Option.some.inj (Eq.trans (by simp) server')
    exact ⟨_, _, (if_neg (fresh _ _ here)).trans (if_pos rfl), if_pos rfl, .connecting⟩

theorem shows_startConnection {client : SocketId} {destination : Fd} {ip : ResolvedIp} (exclusive : b.Exclusive)
    (fresh : ∀ r k, b.elem r = some k → k.fd ≠ destination) :
    Shows (startConnection client destination ip io) (fun _ => b.Settled p (fun _ => True)) b := by
  refine Via.bind (via_getElem fun e here => Via.bind (via_takeSocket here ?_))
  refine Via.get fun s _ => Via.bind (via_closeSocket fun k owner => ?_)
  obtain rfl : (⟨0, .WAIT⟩ : Watch) = k := Option.some.inj ((if_pos rfl).symm.trans owner)
  refine via_insertConnection ⟨e, .new destination .OUT 0 s.ticks, SHORT_SOCKET_TIMEOUT, s.ticks + SHORT_SOCKET_TIMEOUT⟩
    (fun c => do
      observe (.connected c ip.host)
      update (.client c) .RDHUP (.connecting c ip.socket ip.host)
      updateHandler (.server c) (.serverConnect c (ip.copy io.unset))) fun c _ _ => ?_
  refine Via.then_leaves (unseen_observe _) fun _ => Via.bind (via_update _ _ fun k owner => ?_)
  obtain rfl : e.watch = k := Option.some.inj ((if_pos rfl).symm.trans owner)
  refine via_updateHandler _ fun k owner => ?_
  obtain rfl : ⟨destination, .OUT⟩ = k := Option.some.inj (Eq.trans (by simp [EpollElem.watch, EpollElem.new]) owner)
  exact Exclusive.connects exclusive here fresh

theorem unseen_getIp : Leaves board (getIp io) := by
  intro s
  simp only [getIp, wp_bind, wp_get]
  split
  · rfl
  · trivial

/-- The client is sent a 404. -/
theorem shows_send404 (exclusive : b.Exclusive) :
    Shows (send404 id io) (fun _ => b.Settled p (fun _ => True)) b := by
  refine via_sendResponse fun k m owner => ?_
  have held : b.Held id k b := ⟨exclusive.touched _, owner⟩
  exact (held.seat.settled (if_pos rfl) (.refusing (m := m))).mono fun _ _ => trivial

theorem shows_onNotifier (exclusive : b.Exclusive) (stays : b.Settled p (fun _ => True) b) :
    Shows (onNotifier state io) (fun _ => b.Settled p (fun _ => True)) b := by
  refine Via.whenever (fun _ => Via.get fun s _ => Via.then_leaves (unseen_service _) fun _ => Via.bind ?_) fun _ => stays
  refine via_newDescriptor (fun f _ _ fresh => ?_) fun _ => Via.throw
  refine Via.then_leaves unseen_getIp fun ip => Via.get fun s _ => Via.get fun s' _ => ?_
  split
  · exact Via.pure stays
  · cases s.sockets.findId (·.key = ip.socket) with
    | none => exact Via.bind Via.throw
    | some client =>
      refine Via.bind (Via.pure ?_)
      split
      · exact Via.then_leaves unseen_erasePending fun _ => shows_send404 exclusive
      · refine Via.then_leaves (unseen_observe _) fun _ => ?_
        split
        · refine Via.bind ((shows_send404 (p := p) exclusive).mono fun _ w' settled => ?_)
          exact Via.of_leaves unseen_erasePending fun _ => settled
        · exact shows_startConnection exclusive fresh

/-! ### Dispatch -/

/-- A handler of a socket keeps every entry at a stage. -/
theorem shows_socket {h : Handler} (exclusive : b.Exclusive) (owner : b.elem (.sock id) = some k)
    (installed : b.handlers k.fd = some h) (stage : SocketStage id h k.events) (timer : h ≠ .timer) :
    Shows (h.run state io) (fun _ => b.Settled p (fun _ => True)) b := by
  have held : b.Held id k b := ⟨exclusive.touched _, owner⟩
  have stays : b.Settled p (· = .sock id) b := held.settled installed stage
  have all : ∀ _ : Unit, ∀ w, b.Settled p (· = .sock id) w → b.Settled p (fun _ => True) w :=
    fun _ _ settled => settled.mono fun _ _ => trivial
  obtain ⟨fd, events⟩ := k
  cases stage with
  | listener => exact shows_onListener exclusive (all () b stays)
  | notifier => exact shows_onNotifier exclusive (all () b stays)
  | timer => exact absurd rfl timer
  | reading => exact (shows_reading held stays).mono all
  | resolving => exact (shows_resolving held stays).mono all
  | closing => exact (shows_sending held stays (Or.inl rfl)).mono all
  | refusing => exact (shows_sending held stays (Or.inr rfl)).mono all

/-- Handlers of the client of a connection do. -/
theorem shows_client {h h' : Handler} (exclusive : b.Exclusive) (at_ : b.Open c k k' b) (stage : Stage q c h k h' k')
    (client : b.handlers k.fd = some h) (server : b.handlers k'.fd = some h') (dispatched : q k.fd = some state)
    (rest : q.Rest p) (spent : p k.fd = none) : Shows (h.run state io) (fun _ => b.Settled p (· = .conn c)) b := by
  have stays : b.Settled p (· = .conn c) b := at_.settled client server (stage.rest rest)
  have present' := exclusive.present at_.server
  cases stage with
  | connecting => exact shows_connecting at_ stays
  | asking left => exact shows_leftClient at_ stays left dispatched
  | validating left => exact shows_leftClient at_ stays left dispatched
  | transferring events waits =>
    refine shows_transferClient at_ stays client server (fun output => waits.resolve_left fun idle => ?_) spent
    have unwritten := idle.2
    rw [Batch.output, dispatched, Option.any_some, output] at unwritten
    cases unwritten
  | answering left unread => exact shows_answering at_ stays (Or.inr ⟨_, rfl⟩)
  | keptAlive => exact shows_keptAlive exclusive at_ stays present' spent client server
  | establishing ready => exact shows_answering at_ stays (Or.inl rfl)
  | tunnelling clientEvents serverEvents left right =>
    exact shows_connectTransfer (Or.inl ⟨_, _, at_, client, server, left, right⟩)

/-- So do those of its server. -/
theorem shows_server {h h' : Handler} (exclusive : b.Exclusive) (at_ : b.Open c k k' b) (stage : Stage q c h k h' k')
    (client : b.handlers k.fd = some h) (server : b.handlers k'.fd = some h') (dispatched : q k'.fd = some state)
    (rest : q.Rest p) (spent : p k'.fd = none) : Shows (h'.run state io) (fun _ => b.Settled p (· = .conn c)) b := by
  have stays : b.Settled p (· = .conn c) b := at_.settled client server (stage.rest rest)
  have present := exclusive.present at_.client
  have present' := exclusive.present at_.server
  cases stage with
  | connecting =>
    exact shows_serverConnect exclusive at_ stays present present' spent (fun _ => ⟨_, client, .connecting _ _⟩) server _
  | asking left asks unwritten =>
    refine shows_asked at_ stays client (left.rest rest) (rest.output (unwritten ?_)) asks
    rw [dispatched]
    exact Option.some_ne_none _
  | validating left => exact shows_validating exclusive at_ stays present' client (left.rest rest) spent server
  | transferring events waits => exact shows_transferServer exclusive at_ stays present' client server spent
  | answering left unread =>
    rw [Batch.input, dispatched, Option.any_some] at unread
    exact shows_leftServer at_ stays left unread
  | keptAlive => exact shows_reused at_ stays
  | establishing ready =>
    cases ready with
    | established f ip unwritten =>
      rw [Batch.output, dispatched, Option.any_some] at unwritten
      refine shows_serverConnect exclusive at_ stays present present' spent (fun output => ?_) server _
      rw [unwritten] at output
      cases output
    | reused f => exact shows_reused at_ stays
  | tunnelling clientEvents serverEvents left right =>
    exact shows_connectTransfer (Or.inl ⟨_, _, at_, client, server, left, right⟩)

/-! ### The step -/

variable {g : Guard} {s t : Proxy} {f : Fd}

theorem exclusive_board (own : s.view.Owned) : s.board.Exclusive where
  present := by
    intro r k owner
    obtain ⟨e, live, rfl⟩ := Option.map_eq_some_iff.mp owner
    exact own.present (r := r) (by rw [view_fd, live, Option.map_some]; rfl)
  unique := by
    intro r r' k k' owner owner' same
    obtain ⟨e, live, rfl⟩ := Option.map_eq_some_iff.mp owner
    obtain ⟨e', live', rfl⟩ := Option.map_eq_some_iff.mp owner'
    refine own.unique (f := e.fd) (by rw [view_fd, live, Option.map_some]) ?_
    rw [view_fd, live', Option.map_some]
    exact congrArg some same.symm
  keyed := by
    intro id f keyed
    obtain ⟨entry, live, rfl⟩ := Option.map_eq_some_iff.mp keyed
    refine ⟨entry.elem.watch, ?_, ?_⟩
    · simp [board, elem, live]
    · have seen : s.view.socket id = some entry.view := by simp [view, live]
      exact (own.keyed seen).symm

/-- Entries are closed. -/
theorem staged_drops {d : EntryRef → Prop} (own : s.view.Owned) (drops : Registry.Drops d s.view t.view)
    (elems : ∀ r, ¬d r.entry → t.board.elem r = s.board.elem r) (staged : s.board.Staged p) : t.board.Staged p := by
  have gone : ∀ {r k}, d r.entry → t.board.elem r ≠ some k := by
    intro r k dropped owner
    obtain ⟨e, live, rfl⟩ := Option.map_eq_some_iff.mp owner
    have seen : t.view.fd? r = some e.fd := by rw [view_fd, live, Option.map_some]
    exact (drops.fd?.mp seen).2 dropped
  have touched : Touched s.board d t.board :=
    { elems
      handlers := by
        intro r k kept owner
        obtain ⟨e, live, rfl⟩ := Option.map_eq_some_iff.mp owner
        exact (drops.alive own (r := r) (f := e.fd) (by rw [view_fd, live, Option.map_some]) kept).1
      apart := fun r' _ _ _ _ _ dropped owner => absurd owner (gone dropped) }
  refine touched.staged staged fun it dropped => ?_
  cases it with
  | sock id => exact fun k owner => absurd owner (gone (r := .sock id) dropped)
  | conn c => exact fun k k' owner _ => absurd owner (gone (r := .client c) dropped)

theorem staged_sweepSockets (own : s.view.Owned) (staged : s.board.Staged p) : (sweepSockets s).board.Staged p := by
  refine staged_drops own (drops_sweepSockets own) (fun r kept => ?_) staged
  cases r with
  | sock id =>
    have same : (sweepSockets s).sockets.get id = s.sockets.get id := by
      ext entry
      simp only [sweepSockets, Store.get_keep]
      refine ⟨And.left, fun live => ⟨live, ?_⟩⟩
      cases late : expired s.ticks entry with
      | true => exact absurd ⟨entry, live, late⟩ kept
      | false => rfl
    simp only [board, elem, same]
  | client c => rfl
  | server c => rfl

theorem staged_sweepConnections (own : s.view.Owned) (staged : s.board.Staged p) :
    (sweepConnections s).board.Staged p := by
  refine staged_drops own (drops_sweepConnections own) (fun r kept => ?_) staged
  have same : ∀ c, ¬s.sweepsConnection (.conn c) → (sweepConnections s).connections.get c = s.connections.get c := by
    intro c kept
    ext conn
    simp only [sweepConnections, Store.get_keep, decide_eq_true_eq]
    refine ⟨And.left, fun live => ⟨live, ?_⟩⟩
    by_contra late
    exact kept ⟨conn, live, by omega⟩
  cases r with
  | sock id => rfl
  | client c => simp only [board, elem, same c kept]
  | server c => simp only [board, elem, same c kept]

theorem wp_stagedTimer (own : s.view.Owned) (staged : s.board.Staged p) :
    wp (fun _ => True) (onTimer state io) (fun _ t => t.board.Staged p) s := by
  rw [onTimer, wp_whenever]
  refine ⟨fun _ => ?_, fun _ => staged⟩
  simp only [wp_bind, wp_get, wp_modify]
  refine wp_service _ trivial ?_
  have swept := staged_sweepSockets (s := { s with ticks := s.ticks + io.ticked * TICK_INTERVAL }) own staged
  have drops := drops_sweepSockets (s := { s with ticks := s.ticks + io.ticked * TICK_INTERVAL }) own
  exact staged_sweepConnections (s := { sweepSockets { s with ticks := s.ticks + io.ticked * TICK_INTERVAL } with
    ticks := s.ticks + io.ticked * TICK_INTERVAL + io.ticked }) (own.drops drops) swept

theorem elem_of_fd {r : ElemRef} (owner : s.view.fd? r = some f) : ∃ k, s.board.elem r = some k ∧ k.fd = f := by
  rw [view_fd] at owner
  obtain ⟨e, live, rfl⟩ := Option.map_eq_some_iff.mp owner
  exact ⟨e.watch, by simp [board, live], rfl⟩

theorem connection_elems {r : ElemRef} (owner : s.board.elem r = some k) (here : r.entry = .conn c) :
    ∃ k k', s.board.elem (.client c) = some k ∧ s.board.elem (.server c) = some k' := by
  cases r with
  | sock id => cases here
  | client c' =>
    cases here
    obtain ⟨e, live, rfl⟩ := Option.map_eq_some_iff.mp owner
    obtain ⟨conn, found, rfl⟩ := Option.map_eq_some_iff.mp live
    exact ⟨conn.client.watch, conn.server.watch, by simp [board, elem, found], by simp [board, elem, found]⟩
  | server c' =>
    cases here
    obtain ⟨e, live, rfl⟩ := Option.map_eq_some_iff.mp owner
    obtain ⟨conn, found, rfl⟩ := Option.map_eq_some_iff.mp live
    exact ⟨conn.client.watch, conn.server.watch, by simp [board, elem, found], by simp [board, elem, found]⟩

/-- A step of the server keeps every entry at a stage. -/
theorem staged_step {event : Event} (own : s.view.Owned) (staged : s.board.Staged q)
    (dispatched : q event.fd = some event.state) (rest : q.Rest p) (spent : p event.fd = none)
    (stepped : s.step event = .ok t) : t.board.Staged p := by
  have exclusive := exclusive_board own
  cases installed : s.handlers event.fd with
  | none =>
    rw [step_none installed stepped]
    exact staged.rest rest
  | some h =>
    have finish : ∀ {K : EntryRef → Prop}, Shows (h.run event.state event.io) (fun _ => s.board.Settled p K) s.board →
        t.board.Staged p := fun runs =>
      step_wp installed (wp_mono (fun _ _ settled => settled.staged (staged.rest rest)) (runs s rfl)) stepped
    by_cases timer : h = .timer
    · subst timer
      exact step_wp installed (wp_stagedTimer own (staged.rest rest)) stepped
    obtain ⟨k, owner, same⟩ := elem_of_fd (own.owns installed).2
    rw [← same] at installed dispatched spent
    cases element : s.view.owner h with
    | sock id =>
      rw [element] at owner
      obtain ⟨h', installed', stage⟩ := staged (.sock id) k owner
      obtain rfl : h = h' := Option.some.inj (installed.symm.trans installed')
      exact finish (shows_socket exclusive owner installed stage timer)
    | client c =>
      rw [element] at owner
      obtain ⟨x, k', client, server⟩ := connection_elems owner rfl
      obtain rfl : k = x := Option.some.inj (owner.symm.trans client)
      obtain ⟨h₁, h', installed₁, installed', stage⟩ := staged (.conn c) k k' client server
      obtain rfl : h = h₁ := Option.some.inj (installed.symm.trans installed₁)
      refine finish (shows_client exclusive ?_ stage installed installed' dispatched rest spent)
      exact exclusive.open_ client server
    | server c =>
      rw [element] at owner
      obtain ⟨k', x, client, server⟩ := connection_elems owner rfl
      obtain rfl : k = x := Option.some.inj (owner.symm.trans server)
      obtain ⟨h', h₁, installed', installed₁, stage⟩ := staged (.conn c) k' k client server
      obtain rfl : h = h₁ := Option.some.inj (installed.symm.trans installed₁)
      refine finish (shows_server exclusive ?_ stage installed' installed dispatched rest spent)
      exact exclusive.open_ client server

end Proxy

end ProxyServer
