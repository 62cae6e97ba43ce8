import ProxyServer.Server.Resolution
import ProxyServer.Server.StageRuns

/-!
# Entries are attended to

In every run of the loop every entry of the queue is at a stage. So between a request and its
response only one side of a connection is waited for, and no entry is left without an event
that takes it further.
-/

namespace ProxyServer

open Board

variable {p q : Batch} {c : ConnId} {h h' : Handler} {k k' : Watch}

/-! ### Events that are reported -/

/-- IN and OUT are to be dispatched only if the element is registered for them. -/
structure Watch.Asks (k : Watch) (p : Batch) : Prop where
  input : p.input k.fd = true → k.events.input = true
  output : p.output k.fd = true → k.events.output = true

theorem Watch.Asks.unread {f : Fd} (asks : Watch.Asks ⟨f, .WAIT⟩ p) : p.input f = false := by
  cases reported : p.input f with
  | false => rfl
  | true => cases asks.input reported

theorem Watch.Asks.unwritten {f : Fd} {events : FdState} (asks : Watch.Asks ⟨f, events⟩ p) (unasked : events.output = false) :
    p.output f = false := by
  cases reported : p.output f with
  | false => rfl
  | true => cases unasked.symm.trans (asks.output reported)

theorem Handler.LeftClient.reported {f : Fd} (left : h.LeftClient q c f) (asks : Watch.Asks ⟨f, .WAIT⟩ p) :
    h.LeftClient p c f := by
  cases left with
  | connecting socket host => exact .connecting socket host
  | read m host => exact .read m host asks.unread

/-- A stage is kept when events are reported. -/
theorem Stage.reported (stage : Stage q c h k h' k') (asks : k.Asks p) (asks' : k'.Asks p) : Stage p c h k h' k' := by
  cases stage with
  | connecting => exact .connecting
  | asking left next => exact .asking (left.reported asks) next fun _ => asks.unwritten rfl
  | validating left => exact .validating (left.reported asks)
  | transferring events waits =>
    exact .transferring events (waits.imp_left fun waits => ⟨waits.1, asks.unwritten (by rw [waits.1]; rfl)⟩)
  | answering left unread => exact .answering left asks'.unread
  | keptAlive => exact .keptAlive
  | establishing ready =>
    cases ready with
    | established f ip unwritten => exact .establishing (.established f ip (asks'.unwritten rfl))
    | reused f => exact .establishing (.reused f)
  | tunnelling client server left right => exact .tunnelling client server left right

/-! ### Turns of a connection -/

/-- What the two sides of a connection that is no tunnel wait for. -/
structure InTurn (s : Proxy) (c : ConnId) (conn : Connection) : Prop where
  waits : (conn.client.events.input || conn.client.events.output || conn.server.events.input || conn.server.events.output) = true
  /-- The client is read when nothing is asked of the server. -/
  reading : conn.client.events.input = true → conn.server.events = .RDHUP ∧ s.handlers conn.server.fd = some (.reused c)
  /-- It is not read or written to while the server is connected to or sent a request. -/
  asking : conn.server.events.output = true → conn.client.events.input = false ∧ conn.client.events.output = false
  /-- And not read while the server's response is. -/
  answering : conn.server.events.input = true → conn.client.events.input = false

/-- The client is not read. -/
theorem InTurn.of_events {s : Proxy} {conn : Connection} {e e' : FdState} (events : conn.client.events = e)
    (events' : conn.server.events = e') (unread : e.input = false) (waits : (e.output || e'.input || e'.output) = true)
    (asking : e'.output = true → e.output = false) : InTurn s c conn where
  waits := by simpa only [events, events', unread, Bool.false_or] using waits
  reading input := by
    rw [events, unread] at input
    cases input
  asking output := by
    rw [events'] at output
    rw [events]
    exact ⟨unread, asking output⟩
  answering _ := by rw [events, unread]

theorem Stage.inTurn {conn : Connection} {s : Proxy} (stage : Stage p c h conn.client.watch h' conn.server.watch)
    (server : s.handlers conn.server.fd = some h') (proxied : ∀ x y, h ≠ .connectTransfer c .client x y) :
    InTurn s c conn := by
  generalize same : conn.client.watch = k at stage
  generalize same' : conn.server.watch = k' at stage
  have events : conn.client.events = k.events := congrArg Watch.events same
  have events' : conn.server.events = k'.events := congrArg Watch.events same'
  cases stage with
  | connecting => exact .of_events events events' rfl rfl fun _ => rfl
  | asking left next => exact .of_events events events' rfl rfl fun _ => rfl
  | validating left => exact .of_events events events' rfl rfl fun _ => rfl
  | transferring waited waits =>
    rcases waits with ⟨rfl, -⟩ | rfl
    · exact .of_events events events' rfl rfl fun _ => rfl
    · exact .of_events events events' rfl rfl fun never => by cases never
  | answering left => exact .of_events events events' rfl rfl fun never => by cases never
  | keptAlive =>
    refine ⟨by rw [events]; rfl, fun _ => ⟨events', server⟩, fun output => ?_, fun input => ?_⟩
    · rw [events'] at output
      cases output
    · rw [events'] at input
      cases input
  | establishing ready =>
    cases ready with
    | established f ip => exact .of_events events events' rfl rfl fun never => by cases never
    | reused f => exact .of_events events events' rfl rfl fun never => by cases never
  | tunnelling client server left right => exact absurd rfl (proxied _ _)

namespace EpollCore

variable {l l' : EpollCore} {turn : Turn} {events : List (Fd × FdState)} {f : Fd} {state : FdState}

/-- What is left to be dispatched. -/
def batch (l : EpollCore) : Batch := fun f => l.events.lookup f

theorem reported_mem (reported : events.lookup f = some state) : (f, state) ∈ events := by
  obtain ⟨before, after, rfl, -⟩ := List.lookup_eq_some_iff.mp reported
  exact List.mem_append_right _ List.mem_cons_self

theorem Reports.asks {r : ElemRef} (reports : l.Reports events) (owner : l.proxy.board.elem r = some k) :
    k.Asks (fun f => events.lookup f) := by
  obtain ⟨e, live, rfl⟩ := Option.map_eq_some_iff.mp owner
  constructor
  · intro reported
    obtain ⟨state, reported, input⟩ := Option.any_eq_true _ _ |>.mp reported
    exact reports.input (reported_mem reported) live rfl input
  · intro reported
    obtain ⟨state, reported, output⟩ := Option.any_eq_true _ _ |>.mp reported
    exact reports.output (reported_mem reported) live rfl output

/-! ### Runs -/

/-- Between two turns every entry is at a stage. -/
structure Attended (l : EpollCore) : Prop where
  sound : l.proxy.view.Sound {}
  staged : l.proxy.board.Staged l.batch
  once : (l.events.map (·.1)).Nodup

theorem attended_wait (attended : l.Attended) (reports : l.Reports events) : Attended { l with events } where
  sound := attended.sound
  staged := by
    intro it
    cases it with
    | sock id => exact attended.staged (.sock id)
    | conn c =>
      intro k k' client server
      obtain ⟨h, h', installed, installed', stage⟩ := attended.staged (.conn c) k k' client server
      exact ⟨h, h', installed, installed', stage.reported (reports.asks client) (reports.asks server)⟩
  once := reports.once

/-- What is left when the first event is dispatched. -/
theorem batch_rest (next : l.events = (f, state) :: events) (once : (l.events.map (·.1)).Nodup) :
    l.batch f = some state ∧ events.lookup f = none ∧ l.batch.Rest fun g => events.lookup g := by
  rw [next, List.map_cons, List.nodup_cons] at once
  have spent : events.lookup f = none := by
    cases reported : events.lookup f with
    | none => rfl
    | some state => exact absurd (List.mem_map_of_mem (f := (·.1)) (reported_mem reported)) once.1
  refine ⟨by rw [batch, next, List.lookup_cons_self], spent, fun g => ?_⟩
  by_cases same : g = f
  · subst same
    exact Or.inr spent
  · refine Or.inl ?_
    rw [batch, next, List.lookup_cons, beq_eq_false_iff_ne.mpr same]

theorem attended_turn (attended : l.Attended) (faithful : l.Faithful turn) (taken : l.turn turn = .ok l') : l'.Attended := by
  have shorter : ∀ {f state events}, l.events = (f, state) :: events → (events.map (·.1)).Nodup := by
    intro f state events next
    have once := attended.once
    rw [next] at once
    exact once.of_cons
  cases turned taken with
  | wait events idle => exact attended_wait attended faithful
  | interrupt idle => exact ⟨attended.sound, attended.staged, attended.once⟩
  | signal io signo left next =>
    obtain ⟨-, -, rest⟩ := batch_rest next attended.once
    exact ⟨attended.sound, attended.staged.rest rest, shorter next⟩
  | handle io signo next stepped =>
    obtain ⟨dispatched, spent, rest⟩ := batch_rest next attended.once
    refine ⟨Proxy.sound_step attended.sound (Proxy.careful_always _ _) stepped, ?_, shorter next⟩
    refine Proxy.staged_step attended.sound.own attended.staged ?_ rest ?_ stepped
    · exact dispatched
    · exact spent

variable {timer notifier listener signal : Fd}

theorem init_staged (opens : Proxy.Opens timer notifier listener) :
    (init timer notifier listener signal).proxy.board.Staged p := by
  have atTimer : (Proxy.init timer notifier listener).handlers timer = some .timer := if_pos rfl
  have atNotifier : (Proxy.init timer notifier listener).handlers notifier = some .notifier :=
    (if_neg opens.timer_notifier.symm).trans (if_pos rfl)
  have atListener : (Proxy.init timer notifier listener).handlers listener = some .listener :=
    (if_neg opens.timer_listener.symm).trans ((if_neg opens.notifier_listener.symm).trans (if_pos rfl))
  intro it
  cases it with
  | sock id =>
    intro k owner
    obtain ⟨e, live, rfl⟩ := Option.map_eq_some_iff.mp owner
    obtain ⟨entry, found, rfl⟩ := Option.map_eq_some_iff.mp live
    simp only [init, Proxy.init, Store.get_insert, Store.next_insert, Store.empty] at found
    split at found
    · cases found
      exact ⟨_, atListener, .listener⟩
    · split at found
      · cases found
        exact ⟨_, atNotifier, .notifier⟩
      · split at found
        · cases found
          exact ⟨_, atTimer, .timer⟩
        · cases found
  | conn c => exact fun k k' client _ => by cases client

theorem init_attended (opens : Proxy.Opens timer notifier listener) : (init timer notifier listener signal).Attended where
  sound := Proxy.init_sound opens fun _ => trivial
  staged := init_staged opens
  once := List.nodup_nil

theorem run_attended {turns : List Turn} (opens : Proxy.Opens timer notifier listener)
    (along : Runs.Along EpollCore.turn Faithful (init timer notifier listener signal) turns)
    (ran : Runs.run EpollCore.turn (init timer notifier listener signal) turns = .ok l) : l.Attended :=
  Runs.invariant_along (init_attended opens) (fun _ _ _ attended faithful taken => attended_turn attended faithful taken)
    along ran

theorem Attended.connection {conn : Connection} (attended : l.Attended) (live : l.proxy.connections.get c = some conn) :
    ∃ h h', l.proxy.handlers conn.client.fd = some h ∧ l.proxy.handlers conn.server.fd = some h' ∧
      Stage l.batch c h conn.client.watch h' conn.server.watch := by
  refine attended.staged (.conn c) conn.client.watch conn.server.watch ?_ ?_
  · simp [Proxy.board, Proxy.elem, live]
  · simp [Proxy.board, Proxy.elem, live]

theorem Attended.socket {id : SocketId} {entry : SocketEntry} (attended : l.Attended)
    (live : l.proxy.sockets.get id = some entry) :
    ∃ h, l.proxy.handlers entry.elem.fd = some h ∧ SocketStage id h entry.elem.events := by
  refine attended.staged (.sock id) entry.elem.watch ?_
  simp [Proxy.board, Proxy.elem, live]

/-- In every run of the loop every connection is at a stage, and so is every other socket. -/
theorem connections_staged {turns : List Turn} (opens : Proxy.Opens timer notifier listener)
    (along : Runs.Along EpollCore.turn Faithful (init timer notifier listener signal) turns)
    (ran : Runs.run EpollCore.turn (init timer notifier listener signal) turns = .ok l) :
    (∀ c conn, l.proxy.connections.get c = some conn → ∃ h h', l.proxy.handlers conn.client.fd = some h ∧
      l.proxy.handlers conn.server.fd = some h' ∧ Stage l.batch c h conn.client.watch h' conn.server.watch) ∧
    ∀ id entry, l.proxy.sockets.get id = some entry → ∃ h, l.proxy.handlers entry.elem.fd = some h ∧
      SocketStage id h entry.elem.events := by
  have attended := run_attended opens along ran
  exact ⟨fun _ _ live => attended.connection live, fun _ _ live => attended.socket live⟩

/-- The turns of the events one by one. -/
def singly (events : List Event) : List Turn :=
  events.flatMap fun event => [.wait [(event.fd, event.state)], .handle event.io none]

def exchange : List Turn :=
  singly [Proxy.accepts 6, Proxy.receives 6 (Proxy.postTo (lit "h")), Proxy.resolves 7, Proxy.connects 7,
    ⟨7, .OUT, { Proxy.quiet with write := some 100 }⟩] ++
  [.wait [(7, .IN), (5, .IN)], .handle { Proxy.quiet with read := some (lit "HTTP/1.1 200 OK\r\n") } none]

theorem connections_staged_exchange : ∃ l, Runs.run EpollCore.turn (init 3 4 5 8) exchange = .ok l ∧
    l.proxy.connections.any (fun conn => conn.server.fd = 7) = true ∧
    ∀ c conn, l.proxy.connections.get c = some conn → ∃ h h', l.proxy.handlers conn.client.fd = some h ∧
      l.proxy.handlers conn.server.fd = some h' ∧ Stage l.batch c h conn.client.watch h' conn.server.watch := by
  obtain ⟨l, ran, there⟩ : ∃ l, Runs.run EpollCore.turn (init 3 4 5 8) exchange = .ok l ∧
      l.proxy.connections.any (fun conn => conn.server.fd = 7) = true := Runs.run_any (by decide +kernel)
  exact ⟨l, ran, there, (connections_staged Proxy.opens_345 (by decide +kernel) ran).1⟩

/-- In every run of the loop a connection that is no tunnel takes its turns, and every other
socket waits for IN, OUT or the resolver. -/
theorem entries_attended {turns : List Turn} (opens : Proxy.Opens timer notifier listener)
    (along : Runs.Along EpollCore.turn Faithful (init timer notifier listener signal) turns)
    (ran : Runs.run EpollCore.turn (init timer notifier listener signal) turns = .ok l) :
    (∀ c conn, l.proxy.connections.get c = some conn →
      (∃ x y, l.proxy.handlers conn.client.fd = some (.connectTransfer c .client x y)) ∨ InTurn l.proxy c conn) ∧
    ∀ id entry, l.proxy.sockets.get id = some entry →
      (∃ host, l.proxy.handlers entry.elem.fd = some (.resolving id host)) ∨
        (entry.elem.events.input || entry.elem.events.output) = true := by
  have attended := run_attended opens along ran
  refine ⟨fun c conn live => ?_, fun id entry live => ?_⟩
  · obtain ⟨h, h', client, server, stage⟩ := attended.connection live
    by_cases tunnel : ∃ x y, h = .connectTransfer c .client x y
    · obtain ⟨x, y, rfl⟩ := tunnel
      exact Or.inl ⟨x, y, client⟩
    · exact Or.inr (stage.inTurn server fun x y same => tunnel ⟨x, y, same⟩)
  · obtain ⟨h, installed, stage⟩ := attended.socket live
    generalize entry.elem.events = events at stage ⊢
    cases stage with
    | resolving => exact Or.inl ⟨_, installed⟩
    | listener => exact Or.inr rfl
    | notifier => exact Or.inr rfl
    | timer => exact Or.inr rfl
    | reading => exact Or.inr rfl
    | closing => exact Or.inr rfl
    | refusing => exact Or.inr rfl

theorem entries_attended_exchange : ∃ l, Runs.run EpollCore.turn (init 3 4 5 8) exchange = .ok l ∧
    l.proxy.connections.any (fun conn => conn.server.fd = 7 && conn.server.events.input) = true ∧
    ∀ c conn, l.proxy.connections.get c = some conn →
      (∃ x y, l.proxy.handlers conn.client.fd = some (.connectTransfer c .client x y)) ∨ InTurn l.proxy c conn := by
  obtain ⟨l, ran, there⟩ : ∃ l, Runs.run EpollCore.turn (init 3 4 5 8) exchange = .ok l ∧
      l.proxy.connections.any (fun conn => conn.server.fd = 7 && conn.server.events.input) = true :=
    Runs.run_any (by decide +kernel)
  exact ⟨l, ran, there, (entries_attended Proxy.opens_345 (by decide +kernel) ran).1⟩

end EpollCore

end ProxyServer
