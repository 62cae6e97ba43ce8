import ProxyServer.Server.Admission
import ProxyServer.Server.Bystanders
import ProxyServer.Server.Resolution

/-!
# Isolation

What does not concern an entry leaves it as it is, in every run: clients and connections do not
interfere. An entry that hears nothing is closed when it has expired.
-/

namespace ProxyServer

open Wp

namespace Proxy

variable {s t : Proxy} {n : MsgId} {it : EntryRef} {r : ElemRef} {id : SocketId} {f : Fd} {event : Event} {h : Handler}

/-! ### States -/

def Timed (ticks : Nat) (e : EpollElem) : Prop :=
  e.timeout ≤ LONG_SOCKET_TIMEOUT ∧ e.expiresIn ≤ ticks + LONG_SOCKET_TIMEOUT

structure TimedLink (ticks : Nat) (conn : Connection) : Prop where
  client : Timed ticks conn.client
  server : Timed ticks conn.server
  timeout : conn.timeout ≤ LONG_SOCKET_TIMEOUT
  expires : conn.expiresIn ≤ ticks + LONG_SOCKET_TIMEOUT

/-- The descriptors of the services have their own handlers and wait for no host, every message
is held for one entry, and every other entry expires within the longest timeout. -/
structure Regular (s : Proxy) : Prop where
  sound : s.view.Sound {}
  known : ∀ it, s.roster.Service it → s.roster.Known it
  posts : ∀ {f h}, s.handlers f = some h → s.roster.Service (s.view.owner h).entry →
    h = .timer ∨ h = .notifier ∨ h = .listener
  pending : ∀ {key it}, (s.onResolve key).isSome = true → s.roster.Service it → ¬s.roster.Has it key.1
  lent : ∀ {f h it n}, s.handlers f = some h → h.Holds it n → s.roster.Lent it n
  sockets : s.sockets.Forall fun id entry => ¬s.roster.Service (.sock id) → Timed s.ticks entry.elem
  connections : s.connections.Forall fun _ conn => TimedLink s.ticks conn

theorem has_iff : s.roster.Has it f ↔ ∃ r : ElemRef, r.entry = it ∧ s.view.fd? r = some f := by
  constructor
  · intro has
    cases it with
    | sock id =>
      obtain ⟨entry, live, rfl⟩ := has
      have live : s.sockets.get id = some entry := live
      exact ⟨.sock id, rfl, by simp [view_fd, elem, live]⟩
    | conn c =>
      obtain ⟨conn, live, same⟩ := has
      have live : s.connections.get c = some conn := live
      rcases same with rfl | rfl
      · exact ⟨.client c, rfl, by simp [view_fd, elem, live]⟩
      · exact ⟨.server c, rfl, by simp [view_fd, elem, live]⟩
  · rintro ⟨r, rfl, owner⟩
    rw [view_fd] at owner
    obtain ⟨e, here, rfl⟩ := Option.map_eq_some_iff.mp owner
    cases r with
    | sock id =>
      obtain ⟨entry, live, rfl⟩ := Option.map_eq_some_iff.mp here
      exact ⟨entry, live, rfl⟩
    | client c =>
      obtain ⟨conn, live, rfl⟩ := Option.map_eq_some_iff.mp here
      exact ⟨conn, live, Or.inl rfl⟩
    | server c =>
      obtain ⟨conn, live, rfl⟩ := Option.map_eq_some_iff.mp here
      exact ⟨conn, live, Or.inr rfl⟩

/-- A descriptor of an entry that is not set aside is none of those that are. -/
theorem apart_of_guest (own : s.view.Owned) (guest : Reserve.Guest ⟨s.roster, it⟩ r.entry)
    (owner : s.view.fd? r = some f) : ¬Reserve.Has ⟨s.roster, it⟩ f := by
  rintro ⟨it', aside, has⟩
  obtain ⟨r', rfl, owner'⟩ := has_iff.mp has
  exact guest (own.unique owner owner' ▸ aside)

theorem key_of_live (own : s.view.Owned) {entry : SocketEntry} (live : s.sockets.get id = some entry) :
    entry.key = entry.elem.fd := by
  have viewed : s.view.socket id = some entry.view := by simp [view, live]
  exact own.keyed viewed

theorem Regular.kept (regular : Regular s) (known : s.roster.Known it) : Kept ⟨s.roster, it⟩ s.roster where
  present := by
    rintro ⟨it', -, has⟩
    obtain ⟨r, -, owner⟩ := has_iff.mp has
    exact regular.sound.own.present owner rfl
  keyed id entry aside live := by
    have live : s.sockets.get id = some entry := live
    have same := key_of_live regular.sound.own live
    exact ⟨.sock id, aside, entry, live, same.symm⟩
  services := ⟨rfl, rfl, rfl⟩
  ticks := rfl
  known it' aside := by
    rcases aside with rfl | service
    · exact known
    · exact regular.known it' service
  socket _ _ := rfl
  connection _ _ := rfl
  handlers _ _ := rfl
  pending _ _ := rfl
  messages := by
    rintro n ⟨f, h, installed, held⟩
    exact ⟨(regular.lent installed held).known, rfl, rfl, rfl⟩
  sockets id entry live guest := by
    have live : s.sockets.get id = some entry := live
    have apart := apart_of_guest (r := .sock id) (f := entry.elem.fd) regular.sound.own guest (by simp [view_fd, elem, live])
    have same := key_of_live regular.sound.own live
    have timed := regular.sockets id entry live fun service => guest (Or.inr service)
    exact ⟨same ▸ apart, apart, timed.1, timed.2⟩
  connections c conn live guest := by
    have live : s.connections.get c = some conn := live
    have apart := apart_of_guest (r := .client c) (f := conn.client.fd) regular.sound.own guest (by simp [view_fd, elem, live])
    have apart' := apart_of_guest (r := .server c) (f := conn.server.fd) regular.sound.own guest (by simp [view_fd, elem, live])
    have timed := regular.connections c conn live
    exact ⟨⟨apart, timed.client.1, timed.client.2⟩, ⟨apart', timed.server.1, timed.server.2⟩, timed.timeout, timed.expires⟩
  lent := regular.lent
  said _ _ := rfl
  given _ _ := rfl

theorem connection_client (m : Roster) (c : ConnId) : ¬m.Service (.conn c) := by
  rintro (same | same | same) <;> cases same

theorem owner_of_services (timer : t.timer = s.timer) (notifier : t.notifier = s.notifier)
    (listener : t.listener = s.listener) (h : Handler) : t.view.owner h = s.view.owner h := by
  cases h <;> simp [Registry.owner, view, timer, notifier, listener]

/-- What keeps the services keeps the state regular. -/
theorem Regular.of_kept (regular : Regular s) (kept : Kept ⟨s.roster, .sock s.timer⟩ t.roster) (sound : t.view.Sound {}) :
    Regular t := by
  obtain ⟨timer, notifier, listener⟩ : t.timer = s.timer ∧ t.notifier = s.notifier ∧ t.listener = s.listener := kept.services
  have service : ∀ it, t.roster.Service it ↔ s.roster.Service it := by
    intro it
    simp only [Roster.Service, roster, timer, notifier, listener]
  have guest : ∀ it, ¬s.roster.Service it → Reserve.Guest ⟨s.roster, .sock s.timer⟩ it := by
    rintro it other (rfl | service)
    · exact other (Or.inl rfl)
    · exact other service
  have ticks : t.ticks = s.ticks := kept.ticks
  have before : ∀ {it f}, s.roster.Service it → t.roster.Has it f → s.roster.Has it f := by
    intro it f serves has
    rcases serves with rfl | rfl | rfl
    all_goals
      obtain ⟨entry, live, here⟩ := has
      refine ⟨entry, (kept.socket _ (Or.inr ?_)).symm.trans live, here⟩
      simp [Roster.Service]
  refine ⟨sound, ?_, ?_, ?_, kept.lent, ?_, ?_⟩
  · intro it serves
    exact kept.known it (Or.inr ((service it).mp serves))
  · intro f h installed serves
    have serves := (service _).mp serves
    have has : t.roster.Has (t.view.owner h).entry f := has_iff.mpr ⟨_, rfl, (sound.own.owns installed).2⟩
    have unchanged : t.handlers f = s.handlers f := kept.handlers f ⟨_, Or.inr serves, before serves has⟩
    refine regular.posts (unchanged.symm.trans installed) ?_
    rw [← owner_of_services timer notifier listener h]
    exact serves
  · intro key it found serves has
    have serves := (service it).mp serves
    have unchanged : t.onResolve key = s.onResolve key := kept.pending key ⟨it, Or.inr serves, before serves has⟩
    rw [unchanged] at found
    exact regular.pending found serves (before serves has)
  · intro id entry live other
    have foreign := (kept.sockets id entry live (guest _ fun serves => other ((service _).mpr serves))).2
    rw [ticks]
    exact ⟨foreign.timeout, foreign.expires⟩
  · intro c conn live
    have foreign := kept.connections c conn live (guest _ (connection_client _ c))
    rw [ticks]
    exact ⟨⟨foreign.client.timeout, foreign.client.expires⟩, ⟨foreign.server.timeout, foreign.server.expires⟩,
      foreign.timeout, foreign.expires⟩

/-! ### Steps -/

/-- The descriptors of an entry. -/
def fds (s : Proxy) : EntryRef → List Fd
  | .sock id => match s.sockets.get id with
    | some entry => [entry.elem.fd]
    | none => []
  | .conn c => match s.connections.get c with
    | some conn => [conn.client.fd, conn.server.fd]
    | none => []

/-- The event is for a descriptor of the entry, or it is the result for a host that its client
asked for. -/
def hears (s : Proxy) (it : EntryRef) (event : Event) : Bool :=
  match s.handlers event.fd with
  | some .notifier => s.resolving[event.io.resolved]?.any fun key => (s.onResolve key).isSome && key.1 ∈ s.fds it
  | some .listener => false
  | some .timer => false
  | some _ => event.fd ∈ s.fds it
  | none => false

theorem mem_fds : f ∈ s.fds it ↔ s.roster.Has it f := by
  cases it with
  | sock id =>
    simp only [fds, Roster.Has, roster]
    cases s.sockets.get id <;> simp [eq_comm]
  | conn c =>
    simp only [fds, Roster.Has, roster]
    cases s.connections.get c <;> simp [eq_comm]

/-- The entry of the handler that is dispatched is none that is set aside. -/
theorem guest_of_deaf (regular : Regular s) (deaf : s.hears it event = false) (installed : s.handlers event.fd = some h)
    (timer : h ≠ .timer) (notifier : h ≠ .notifier) (listener : h ≠ .listener) :
    Reserve.Guest ⟨s.roster, it⟩ (s.view.owner h).entry := by
  rintro (same | service)
  · have same : (s.view.owner h).entry = it := same
    have member : event.fd ∈ s.fds it := mem_fds.mpr (has_iff.mpr ⟨_, same, (regular.sound.own.owns installed).2⟩)
    have heard : s.hears it event = true := by
      unfold hears
      rw [installed]
      cases h with
      | timer => exact absurd rfl timer
      | notifier => exact absurd rfl notifier
      | listener => exact absurd rfl listener
      | _ => exact decide_eq_true member
    rw [deaf] at heard
    cases heard
  · rcases regular.posts installed service with same | same | same
    · exact timer same
    · exact notifier same
    · exact listener same

/-- What such a handler captured is not captured for what is set aside. -/
theorem mine_of_guest (regular : Regular s) (guest : Reserve.Guest ⟨s.roster, it⟩ (s.view.owner h).entry)
    (installed : s.handlers f = some h) (held : h.Holds (s.view.owner h).entry n) : ¬Reserve.Captures ⟨s.roster, it⟩ n := by
  rintro ⟨f', h', installed', held'⟩
  exact guest (Or.inl ((regular.lent installed' held').only installed held))

theorem tends_run (regular : Regular s) (known : s.roster.Known it) (deaf : s.hears it event = false)
    (installed : s.handlers event.fd = some h) (timer : h ≠ .timer) :
    wp (Reserve.Allows ⟨s.roster, it⟩) (h.run event.state event.io) (fun _ t => Kept ⟨s.roster, it⟩ t.roster ∧ True) s := by
  have tended : ∀ {x : ProxyM Unit}, TendsTo ⟨s.roster, it⟩ x →
      wp (Reserve.Allows ⟨s.roster, it⟩) x (fun _ t => Kept ⟨s.roster, it⟩ t.roster ∧ True) s :=
    fun tends => tends s (regular.kept known)
  have coherent := (regular.sound.own.owns installed).1
  have guest := guest_of_deaf regular deaf installed timer
  have mine : Reserve.Guest ⟨s.roster, it⟩ (s.view.owner h).entry → ∀ n, h.Holds (s.view.owner h).entry n →
      ¬Reserve.Captures ⟨s.roster, it⟩ n := fun guest n held => mine_of_guest regular guest installed held
  have apart : ∀ {r f}, Reserve.Guest ⟨s.roster, it⟩ (ElemRef.entry r) → s.view.fd? r = some f →
      ¬Reserve.Has ⟨s.roster, it⟩ f := fun guest owner => apart_of_guest regular.sound.own guest owner
  cases h with
  | timer => exact absurd rfl timer
  | listener => exact tended (tends_onListener)
  | notifier =>
    refine tends_onNotifier (regular.kept known) fun key queued entry => ?_
    have queued : s.resolving[event.io.resolved]? = some key := queued
    have entry : (s.onResolve key).isSome = true := entry
    rintro ⟨it', same | service, has⟩
    · have same : it' = it := same
      have heard : s.hears it event = true := by
        simp only [hears, installed, queued, Option.any_some, Bool.and_eq_true, decide_eq_true_eq]
        exact ⟨entry, mem_fds.mpr (same ▸ has)⟩
      rw [deaf] at heard
      cases heard
    · exact regular.pending entry service has
  | resolving id host => exact tended (tends_onResolving (guest nofun nofun))
  | connecting c socket host =>
    have guest : Reserve.Guest ⟨s.roster, it⟩ (.conn c) := guest nofun nofun
    have same : socket = event.fd := regular.sound.own.client installed
    exact tended (tends_onConnecting guest (same ▸ apart (r := .client c) guest (regular.sound.own.owns installed).2))
  | serverConnect c ip =>
    have guest : Reserve.Guest ⟨s.roster, it⟩ (.conn c) := guest nofun nofun
    have client : s.view.fd? (.client c) = some ip.socket := regular.sound.own.server installed
    exact tended (tends_onServerConnect guest (apart (r := .client c) guest client))
  | readRequest source message iterator next =>
    obtain ⟨rfl, follows⟩ := coherent
    have guest : Reserve.Guest ⟨s.roster, it⟩ source.entry := guest nofun nofun
    have mine := mine guest message ⟨rfl, rfl⟩
    exact tended (tends_onReadable guest (tends_receiveRequest guest mine follows))
  | readResponse source message iterator next =>
    obtain ⟨rfl, follows⟩ := coherent
    have guest : Reserve.Guest ⟨s.roster, it⟩ source.entry := guest nofun nofun
    have mine := mine guest message ⟨rfl, rfl⟩
    exact tended (tends_onReadable guest (tends_receiveResponse guest mine follows))
  | send dest message iterator next =>
    obtain ⟨rfl, follows⟩ := coherent
    have guest : Reserve.Guest ⟨s.roster, it⟩ dest.entry := guest nofun nofun
    have mine := mine guest message.id ⟨rfl, rfl⟩
    exact tended (tends_onWritable guest (tends_pure trivial) (tends_transmitMessage guest mine follows.1))
  | transferServer c rqst resp =>
    have guest : Reserve.Guest ⟨s.roster, it⟩ (.conn c) := guest nofun nofun
    have mine := mine guest resp ⟨rfl, rfl⟩
    exact tended (tends_onReadable (r := .server c) guest (tends_transferIn guest mine))
  | transferClient c resp =>
    have guest : Reserve.Guest ⟨s.roster, it⟩ (.conn c) := guest nofun nofun
    have mine := mine guest resp ⟨rfl, rfl⟩
    have asks : Tends ⟨s.roster, it⟩ (do return ((← get).responses resp).canWrite) fun _ => True :=
      tends_bind tends_get fun _ _ => tends_pure trivial
    exact tended (tends_onWritable (r := .client c) guest asks (tends_transferOut guest mine))
  | reused c =>
    have guest : Reserve.Guest ⟨s.roster, it⟩ (.conn c) := guest nofun nofun
    exact tended (tends_whenever (fun _ => tends_logAndClose (.conn c) guest))
  | connectTransfer c side inMessage outMessage =>
    have entry : (side.elem c).entry = .conn c := by cases side <;> rfl
    have own : Reserve.Guest ⟨s.roster, it⟩ (side.elem c).entry := guest nofun nofun
    have first := mine own inMessage ⟨entry, Or.inl rfl⟩
    have second := mine own outMessage ⟨entry, Or.inr rfl⟩
    have whole : Reserve.Guest ⟨s.roster, it⟩ (.conn c) := entry ▸ own
    cases side with
    | client =>
      have transfers : TendsTo ⟨s.roster, it⟩
          (onConnectTransfer c (.client c) (.server c) inMessage outMessage event.state event.io) :=
        tends_onConnectTransfer whole whole whole first second
      exact tended transfers
    | server =>
      have transfers : TendsTo ⟨s.roster, it⟩
          (onConnectTransfer c (.server c) (.client c) inMessage outMessage event.state event.io) :=
        tends_onConnectTransfer whole whole whole first second
      exact tended transfers

/-! ### The timer -/

/-- The timer has expired so many times. -/
def elapse (s : Proxy) (ticked : Nat) : Proxy :=
  sweepConnections { sweepSockets { s with ticks := s.ticks + ticked * TICK_INTERVAL } with
    ticks := s.ticks + ticked * TICK_INTERVAL + ticked }

theorem timer_step (installed : s.handlers event.fd = some .timer) (stepped : s.step event = .ok t) :
    t = if event.state.is .IN then s.elapse event.io.ticked else s := by
  refine step_wp (E := fun _ => True) (Q := fun t => t = if event.state.is .IN then s.elapse event.io.ticked else s)
    installed ?_ stepped
  show wp _ (onTimer event.state event.io) _ s
  rw [onTimer, wp_whenever]
  refine ⟨fun input => ?_, fun quiet => by simp [quiet]⟩
  simp only [wp_bind, wp_get, wp_modify, input, if_true]
  exact wp_service _ trivial rfl

variable {ticked : Nat}

theorem elapse_handlers (installed : (s.elapse ticked).handlers f = some h) : s.handlers f = some h := by
  simp only [elapse, sweepConnections, sweepSockets] at installed
  split at installed
  · cases installed
  · split at installed
    · cases installed
    · exact installed

theorem elapse_has (has : (s.elapse ticked).roster.Has it f) : s.roster.Has it f := by
  cases it with
  | sock id =>
    obtain ⟨entry, live, same⟩ := has
    exact ⟨entry, (Store.get_keep.mp live).1, same⟩
  | conn c =>
    obtain ⟨conn, live, same⟩ := has
    exact ⟨conn, (Store.get_keep.mp live).1, same⟩

theorem Timed.later {ticks ticks' : Nat} {e : EpollElem} (timed : Timed ticks e) (later : ticks ≤ ticks') : Timed ticks' e :=
  ⟨timed.1, Nat.le_trans timed.2 (Nat.add_le_add_right later _)⟩

theorem Regular.elapse (regular : Regular s) (sound : (s.elapse ticked).view.Sound {}) : Regular (s.elapse ticked) := by
  have later : s.ticks ≤ (s.elapse ticked).ticks := by
    show s.ticks ≤ s.ticks + ticked * TICK_INTERVAL + ticked
    omega
  refine ⟨sound, regular.known, ?_, ?_, ?_, ?_, ?_⟩
  · intro f h installed serves
    refine regular.posts (elapse_handlers installed) ?_
    rw [← owner_of_services (s := s) (t := s.elapse ticked) rfl rfl rfl h]
    exact serves
  · intro key it found serves has
    exact regular.pending found serves (elapse_has has)
  · intro f h it n installed held
    have before := regular.lent (elapse_handlers installed) held
    exact ⟨before.known, fun installed' held' => before.only (elapse_handlers installed') held'⟩
  · intro id entry live other
    exact (regular.sockets id entry (Store.get_keep.mp live).1 other).later later
  · intro c conn live
    have timed := regular.connections c conn (Store.get_keep.mp live).1
    exact ⟨timed.client.later later, timed.server.later later, timed.timeout,
      Nat.le_trans timed.expires (Nat.add_le_add_right later _)⟩

/-! ### Regular states -/

/-- No event is for a service but its own. -/
theorem deaf_service (regular : Regular s) (service : s.roster.Service it) (event : Event) : s.hears it event = false := by
  have serves : ∀ {h}, s.handlers event.fd = some h → event.fd ∈ s.fds it →
      h = .timer ∨ h = .notifier ∨ h = .listener := by
    intro h installed member
    obtain ⟨r, same, owner⟩ := has_iff.mp (mem_fds.mp member)
    obtain rfl := regular.sound.own.unique owner (regular.sound.own.owns installed).2
    exact regular.posts installed (same ▸ service)
  unfold hears
  cases installed : s.handlers event.fd with
  | none => rfl
  | some h =>
    cases h with
    | timer => rfl
    | listener => rfl
    | notifier =>
      dsimp only
      rw [Option.any_eq_false]
      intro key queued
      by_contra heard
      simp only [Bool.not_eq_false, Bool.and_eq_true, decide_eq_true_eq] at heard
      exact regular.pending heard.1 service (mem_fds.mp heard.2)
    | _ =>
      refine decide_eq_false fun member => ?_
      rcases serves installed member with same | same | same <;> cases same

theorem step_kept (regular : Regular s) (known : s.roster.Known it) (deaf : s.hears it event = false)
    (timer : s.handlers event.fd ≠ some .timer) (stepped : s.step event = .ok t) : Kept ⟨s.roster, it⟩ t.roster := by
  cases installed : s.handlers event.fd with
  | none =>
    rw [step_none installed stepped]
    exact regular.kept known
  | some h =>
    refine (step_wp installed (tends_run regular known deaf installed ?_) stepped).1
    rintro rfl
    exact timer installed

theorem Regular.step (regular : Regular s) (stepped : s.step event = .ok t) : Regular t := by
  have sound := sound_step regular.sound (careful_always _ _) stepped
  by_cases timer : s.handlers event.fd = some .timer
  · have after := timer_step timer stepped
    split at after
    · subst after
      exact regular.elapse sound
    · exact after ▸ regular
  · have known : s.roster.Known (.sock s.timer) := regular.known _ (Or.inl rfl)
    exact regular.of_kept (step_kept regular known (deaf_service regular (Or.inl rfl) event) timer stepped) sound

variable {timer notifier listener : Fd} {before events : List Event}

theorem init_regular (opens : Opens timer notifier listener) : Regular (init timer notifier listener) where
  sound := init_sound opens fun _ => trivial
  known := by
    rintro it (rfl | rfl | rfl)
    · exact (by decide : 0 < 3)
    · exact (by decide : 1 < 3)
    · exact (by decide : 2 < 3)
  posts installed _ := by
    rcases init_handlers installed with ⟨_, rfl⟩ | ⟨_, rfl⟩ | ⟨_, rfl⟩
    · exact Or.inl rfl
    · exact Or.inr (Or.inl rfl)
    · exact Or.inr (Or.inr rfl)
  pending := nofun
  lent installed held := by
    rcases init_handlers installed with ⟨_, rfl⟩ | ⟨_, rfl⟩ | ⟨_, rfl⟩
    all_goals exact held.elim
  sockets id entry live other := by
    have below : id < 3 := Store.get_lt live
    obtain rfl | rfl | rfl : id = 0 ∨ id = 1 ∨ id = 2 := by omega
    · exact absurd (Or.inl rfl) other
    · exact absurd (Or.inr (Or.inl rfl)) other
    · exact absurd (Or.inr (Or.inr rfl)) other
  connections := nofun

theorem run_regular (opens : Opens timer notifier listener)
    (ran : Runs.run step (init timer notifier listener) events = .ok t) : Regular t :=
  Runs.invariant (init_regular opens) (fun _ _ _ => Regular.step) ran

/-! ### Entries that are not concerned -/

/-- The entry with its elements and times, its handlers with their messages and its pending
resolutions are in `t` as in `s`. -/
structure Untouched (s t : Proxy) (it : EntryRef) : Prop where
  socket : ∀ id, it = .sock id → t.sockets.get id = s.sockets.get id
  connection : ∀ c, it = .conn c → t.connections.get c = s.connections.get c
  handlers : ∀ f ∈ s.fds it, t.handlers f = s.handlers f
  pending : ∀ f ∈ s.fds it, ∀ host, t.onResolve (f, host) = s.onResolve (f, host)
  messages : ∀ f ∈ s.fds it, ∀ h n, s.handlers f = some h → h.Holds it n →
    t.requests n = s.requests n ∧ t.responses n = s.responses n ∧ t.raws n = s.raws n

theorem Untouched.refl (s : Proxy) (it : EntryRef) : Untouched s s it :=
  ⟨fun _ _ => rfl, fun _ _ => rfl, fun _ _ => rfl, fun _ _ _ => rfl, fun _ _ _ _ _ _ => ⟨rfl, rfl, rfl⟩⟩

theorem Untouched.fds (untouched : Untouched s t it) : t.fds it = s.fds it := by
  cases it with
  | sock id => simp only [Proxy.fds, untouched.socket id rfl]
  | conn c => simp only [Proxy.fds, untouched.connection c rfl]

theorem Untouched.trans {u : Proxy} (first : Untouched s t it) (rest : Untouched t u it) : Untouched s u it where
  socket id same := (rest.socket id same).trans (first.socket id same)
  connection c same := (rest.connection c same).trans (first.connection c same)
  handlers f member := (rest.handlers f (first.fds ▸ member)).trans (first.handlers f member)
  pending f member host := (rest.pending f (first.fds ▸ member) host).trans (first.pending f member host)
  messages f member h n installed held := by
    obtain ⟨rqst, resp, raw⟩ := first.messages f member h n installed held
    obtain ⟨rqst', resp', raw'⟩ := rest.messages f (first.fds ▸ member) h n
      ((first.handlers f member).trans installed) held
    exact ⟨rqst'.trans rqst, resp'.trans resp, raw'.trans raw⟩

theorem untouched_of_kept (kept : Kept ⟨s.roster, it⟩ t.roster) : Untouched s t it where
  socket id same := kept.socket id (Or.inl same.symm)
  connection c same := kept.connection c (Or.inl same.symm)
  handlers f member := kept.handlers f ⟨it, Or.inl rfl, mem_fds.mp member⟩
  pending f member host := kept.pending (f, host) ⟨it, Or.inl rfl, mem_fds.mp member⟩
  messages f _ h n installed held := (kept.messages n ⟨f, h, installed, held⟩).2

/-- The timer leaves alone what has not expired. -/
theorem untouched_elapse (own : s.view.Owned) (spared : s.sweeps ticked it = false) : Untouched s (s.elapse ticked) it where
  socket := by
    rintro id rfl
    show (s.sockets.get id).filter _ = s.sockets.get id
    cases live : s.sockets.get id with
    | none => rfl
    | some entry =>
      simp only [sweeps, live, Option.any_some, decide_eq_false_iff_not] at spared
      rw [Option.filter_some, if_pos]
      simpa [expired] using spared
  connection := by
    rintro c rfl
    show (s.connections.get c).filter _ = s.connections.get c
    cases live : s.connections.get c with
    | none => rfl
    | some conn =>
      simp only [sweeps, live, Option.any_some, decide_eq_false_iff_not] at spared
      rw [Option.filter_some, if_pos]
      simpa using spared
  handlers f member := by
    obtain ⟨r, rfl, owner⟩ := has_iff.mp (mem_fds.mp member)
    have unswept : ∀ r', s.view.fd? r' = some f → s.sweeps ticked r'.entry = false := by
      intro r' owner'
      rwa [← own.unique owner owner']
    show (if s.connections.any _ = true then none else if s.sockets.any _ = true then none else s.handlers f) = s.handlers f
    rw [if_neg, if_neg]
    · intro swept
      obtain ⟨id, entry, live, late⟩ := Store.any_iff.mp swept
      simp only [Bool.and_eq_true, decide_eq_true_eq] at late
      have early := unswept (.sock id) (by simp [view_fd, elem, live, late.1.2])
      simp only [sweeps, ElemRef.entry, live, Option.any_some, decide_eq_false_iff_not] at early
      exact early (by simpa [expired] using late.1.1)
    · intro swept
      obtain ⟨c, conn, live, late⟩ := Store.any_iff.mp swept
      simp only [Bool.and_eq_true, Bool.or_eq_true, decide_eq_true_eq] at late
      have early : s.sweeps ticked (.conn c) = false := by
        rcases late.1.2 with same | same
        · exact unswept (.client c) (by simp [view_fd, elem, live, same])
        · exact unswept (.server c) (by simp [view_fd, elem, live, same])
      simp only [sweeps, live, Option.any_some, decide_eq_false_iff_not] at early
      exact early late.1.1
  pending _ _ _ := rfl
  messages _ _ _ _ _ _ := ⟨rfl, rfl, rfl⟩

/-- The event may change the entry: it is for it, or the timer has expired for it. -/
def concerns (s : Proxy) (it : EntryRef) (event : Event) : Bool :=
  s.hears it event || match s.handlers event.fd with
    | some .timer => event.state.is .IN && s.sweeps event.io.ticked it
    | _ => false

theorem step_untouched (regular : Regular s) (known : s.roster.Known it) (other : s.concerns it event = false)
    (stepped : s.step event = .ok t) : Untouched s t it ∧ t.roster.Known it := by
  obtain ⟨deaf, spared⟩ := Bool.or_eq_false_iff.mp other
  by_cases timer : s.handlers event.fd = some .timer
  · have after := timer_step timer stepped
    rw [timer] at spared
    split at after
    · rename_i input
      subst after
      simp only [input, Bool.true_and] at spared
      exact ⟨untouched_elapse regular.sound.own spared, by cases it <;> exact known⟩
    · subst after
      exact ⟨Untouched.refl _ it, known⟩
  · have kept := step_kept regular known deaf timer stepped
    exact ⟨untouched_of_kept kept, kept.known it (Or.inl rfl)⟩

/-- Nothing is said on a connection that is not concerned, or written to it. -/
theorem step_unsaid (regular : Regular s) (known : s.roster.Known it) (other : s.concerns it event = false)
    (stepped : s.step event = .ok t) : (∀ c, it = .conn c → dialogue t.trace c = dialogue s.trace c) ∧
      ∀ f ∈ s.fds it, givenTo t.trace f = givenTo s.trace f := by
  obtain ⟨deaf, spared⟩ := Bool.or_eq_false_iff.mp other
  by_cases timer : s.handlers event.fd = some .timer
  · have same : t.trace = s.trace := by
      rw [timer_step timer stepped]
      split
      · rfl
      · rfl
    rw [same]
    exact ⟨fun _ _ => rfl, fun _ _ => rfl⟩
  · have kept := step_kept regular known deaf timer stepped
    exact ⟨fun c same => kept.said c (Or.inl same.symm), fun f member => kept.given f ⟨it, Or.inl rfl, mem_fds.mp member⟩⟩

theorem known_of_live (live : s.live it = true) : s.roster.Known it := by
  cases it with
  | sock id =>
    obtain ⟨entry, here⟩ := Option.isSome_iff_exists.mp live
    exact Store.get_lt here
  | conn c =>
    obtain ⟨conn, here⟩ := Option.isSome_iff_exists.mp live
    exact Store.get_lt here

theorem run_untouched (regular : Regular s) (known : s.roster.Known it)
    (others : Runs.Along step (fun s event => s.concerns it event = false) s events) (ran : Runs.run step s events = .ok t) :
    Regular t ∧ t.roster.Known it ∧ Untouched s t it := by
  refine Runs.invariant_along (I := fun t => Regular t ∧ t.roster.Known it ∧ Untouched s t it) ?_ ?_ others ran
  · exact ⟨regular, known, Untouched.refl s it⟩
  · rintro t event t' ⟨regular, known, untouched⟩ other stepped
    obtain ⟨more, known'⟩ := step_untouched regular known other stepped
    exact ⟨regular.step stepped, known', untouched.trans more⟩

/-- Clients and connections do not interfere: in every run from a reachable state, an entry that
no event concerns is left with its times and interests, its handlers with their messages, and
its pending resolutions exactly as it was. -/
theorem entries_isolated (opens : Opens timer notifier listener)
    (reached : Runs.run step (init timer notifier listener) before = .ok s) (live : s.live it = true)
    (others : Runs.Along step (fun s event => s.concerns it event = false) s events)
    (ran : Runs.run step s events = .ok t) : Untouched s t it :=
  (run_untouched (run_regular opens reached) (known_of_live live) others ran).2.2

/-- Another client connects, asks for a host, gets its server and leaves. -/
def comesAndGoes : List Event :=
  [accepts 8, receives 8 (postTo (lit "g")), resolves 9, connects 9, sends 9, expires 3, leaves 8]

theorem entries_isolated_two :
    ∃ s t, Runs.run step (init 3 4 5) [accepts 6, receives 6 (postTo (lit "h")), resolves 7, connects 7] = .ok s ∧
      Runs.run step s comesAndGoes = .ok t ∧ Untouched s t (.conn 0) := by
  obtain ⟨s, reached, holds⟩ : ∃ s, Runs.run step (init 3 4 5)
      [accepts 6, receives 6 (postTo (lit "h")), resolves 7, connects 7] = .ok s ∧
      (s.live (.conn 0) && (Runs.run step s comesAndGoes).isOk &&
        decide (Runs.Along step (fun s event => s.concerns (.conn 0) event = false) s comesAndGoes)) = true :=
    Runs.run_any (by decide +kernel)
  simp only [Bool.and_eq_true, decide_eq_true_eq] at holds
  obtain ⟨t, ran⟩ := Runs.run_ends holds.1.2
  exact ⟨s, t, reached, ran, entries_isolated opens_345 reached holds.1.1 holds.2 ran⟩

/-! ### Entries that have expired -/

theorem swept_closed (swept : s.sweeps ticked it = true) : (s.elapse ticked).live it = false := by
  cases it with
  | sock id =>
    obtain ⟨entry, live, late⟩ := Option.any_eq_true _ _ |>.mp swept
    show ((s.sockets.get id).filter _).isSome = false
    rw [live, Option.filter_some, if_neg]
    · rfl
    · simpa [expired] using late
  | conn c =>
    obtain ⟨conn, live, late⟩ := Option.any_eq_true _ _ |>.mp swept
    show ((s.connections.get c).filter _).isSome = false
    rw [live, Option.filter_some, if_neg]
    · rfl
    · simpa using late

theorem Untouched.live (untouched : Untouched s t it) : t.live it = s.live it := by
  cases it with
  | sock id => simp only [Proxy.live, untouched.socket id rfl]
  | conn c => simp only [Proxy.live, untouched.connection c rfl]

/-- An entry that is not heard of is the same, or the timer has closed it. -/
structure Idles (s t : Proxy) (it : EntryRef) : Prop where
  regular : Regular t
  known : t.roster.Known it
  same : Untouched s t it ∨ t.live it = false

theorem Idles.step {u : Proxy} (idles : Idles s t it) (deaf : t.hears it event = false) (stepped : t.step event = .ok u) :
    Idles s u it := by
  have closed_or : t.concerns it event = true → u.live it = false := by
    intro concerned
    rw [concerns, deaf, Bool.false_or] at concerned
    split at concerned
    · rename_i timer
      obtain ⟨input, swept⟩ := Bool.and_eq_true_iff.mp concerned
      rw [timer_step timer stepped, if_pos input]
      exact swept_closed swept
    · cases concerned
  have known : u.roster.Known it := by
    by_cases timer : t.handlers event.fd = some .timer
    · rw [timer_step timer stepped]
      split
      · cases it <;> exact idles.known
      · exact idles.known
    · exact (step_kept idles.regular idles.known deaf timer stepped).known it (Or.inl rfl)
  refine ⟨idles.regular.step stepped, known, ?_⟩
  cases concerned : t.concerns it event with
  | true => exact Or.inr (closed_or concerned)
  | false =>
    have untouched := (step_untouched idles.regular idles.known concerned stepped).1
    rcases idles.same with same | closed
    · exact Or.inl (same.trans untouched)
    · exact Or.inr (untouched.live.trans closed)

/-- Every entry but the services expires within the longest timeout. -/
theorem Regular.expires (regular : Regular s) (live : s.live it = true) (client : ¬s.roster.Service it) {now : Nat}
    (late : s.ticks + LONG_SOCKET_TIMEOUT ≤ now) :
    match it with
    | .sock id => (s.sockets.get id).any (·.elem.expiresIn ≤ now) = true
    | .conn c => (s.connections.get c).any (·.expiresIn ≤ now) = true := by
  cases it with
  | sock id =>
    obtain ⟨entry, here⟩ := Option.isSome_iff_exists.mp live
    have timed := regular.sockets id entry here client
    simp only [here, Option.any_some, decide_eq_true_eq]
    exact Nat.le_trans timed.2 late
  | conn c =>
    obtain ⟨conn, here⟩ := Option.isSome_iff_exists.mp live
    have timed := regular.connections c conn here
    simp only [here, Option.any_some, decide_eq_true_eq]
    exact Nat.le_trans timed.expires late

/-- Nothing leaks: in every run from a reachable state, an entry of a client or a connection that
hears nothing for the longest timeout is closed by the timer, wherever it was in its exchange. -/
theorem idle_closed {u : Proxy} (opens : Opens timer notifier listener)
    (reached : Runs.run step (init timer notifier listener) before = .ok s) (client : ¬s.roster.Service it)
    (live : s.live it = true) (unheard : Runs.Along step (fun s event => s.hears it event = false) s events)
    (ran : Runs.run step s events = .ok t) (expires : t.handlers event.fd = some .timer)
    (input : event.state.is .IN = true) (late : s.ticks + LONG_SOCKET_TIMEOUT ≤ t.ticks + event.io.ticked * TICK_INTERVAL)
    (stepped : t.step event = .ok u) : u.live it = false := by
  have regular := run_regular opens reached
  have start : Idles s s it := ⟨regular, known_of_live live, Or.inl (Untouched.refl s it)⟩
  have idles : Idles s t it := Runs.invariant_along (I := fun t => Idles s t it) start (fun _ _ _ => Idles.step) unheard ran
  have after := timer_step expires stepped
  rw [if_pos input] at after
  rw [after]
  rcases idles.same with same | closed
  · refine swept_closed ?_
    cases it with
    | sock id =>
      rw [sweeps, same.socket id rfl]
      exact regular.expires live client late
    | conn c =>
      rw [sweeps, same.connection c rfl]
      exact regular.expires live client (Nat.le_trans late (Nat.le_add_right _ _))
  · have unswept : t.sweeps event.io.ticked it = false := by
      cases it with
      | sock id =>
        rw [sweeps, Option.not_isSome_iff_eq_none.mp (Bool.eq_false_iff.mp closed)]
        rfl
      | conn c =>
        rw [sweeps, Option.not_isSome_iff_eq_none.mp (Bool.eq_false_iff.mp closed)]
        rfl
    exact (untouched_elapse idles.regular.sound.own unswept).live.trans closed

/-- Meanwhile another client comes and goes. -/
def passesBy : List Event := [accepts 8, expires 1, leaves 8]

/-- The host that the client asked for is never answered. -/
theorem idle_closed_unanswered :
    ∃ s t u, Runs.run step (init 3 4 5) [accepts 6, receives 6 (postTo (lit "h"))] = .ok s ∧
      Runs.run step s passesBy = .ok t ∧ t.step (expires 600) = .ok u ∧ u.live (.sock 3) = false := by
  obtain ⟨s, reached, holds⟩ : ∃ s, Runs.run step (init 3 4 5) [accepts 6, receives 6 (postTo (lit "h"))] = .ok s ∧
      (s.live (.sock 3) && !decide (s.roster.Service (.sock 3)) && s.ticks = 0 &&
        decide (Runs.Along step (fun s event => s.hears (.sock 3) event = false) s passesBy) &&
        (Runs.run step s passesBy).toOption.any fun t =>
          (t.handlers 3 matches some .timer) && t.ticks = 3 && (t.step (expires 600)).isOk) = true :=
    Runs.run_any (by decide +kernel)
  simp only [Bool.and_eq_true, decide_eq_true_eq, Bool.not_eq_true', decide_eq_false_iff_not] at holds
  obtain ⟨⟨⟨⟨live, client⟩, start⟩, unheard⟩, rest⟩ := holds
  obtain ⟨t, ran, ⟨timer, ticks⟩, ends⟩ : ∃ t, Runs.run step s passesBy = .ok t ∧
      ((t.handlers 3 matches some .timer) = true ∧ t.ticks = 3) ∧ (t.step (expires 600)).isOk = true := by
    simpa using Runs.run_any rest
  obtain ⟨u, stepped⟩ : ∃ u, t.step (expires 600) = .ok u := by
    cases result : t.step (expires 600) with
    | ok u => exact ⟨u, rfl⟩
    | error e =>
      rw [result] at ends
      cases ends
  have expires : t.handlers 3 = some .timer := by
    cases installed : t.handlers 3 with
    | none => simp [installed] at timer
    | some h => cases h <;> simp [installed] at timer ⊢
  refine ⟨s, t, u, reached, ran, stepped, idle_closed opens_345 reached client live unheard ran expires rfl ?_ stepped⟩
  rw [start, ticks]
  decide

end Proxy

end ProxyServer
