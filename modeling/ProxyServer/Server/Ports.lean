import ProxyServer.Resolver.Ports
import ProxyServer.Server.Resolution
import ProxyServer.Server.Tried

/-!
# The port of an attempt

Moves and assignments of a `resolved_ip` keep its port and copies do not. The first
attempt for a request uses what `get_ip` returned; the later ones use the copy of the
handler that was dispatched, whose port is what the memory held.
-/

namespace ProxyServer

open Wp

namespace ResolvedIp

/-- `resolved_ip()` -/
def empty : ResolvedIp := { ips := [], port := 0, socket := 0, host := [] }

def swap (first other : ResolvedIp) : ResolvedIp × ResolvedIp :=
  ({ ips := other.ips, port := other.port, socket := other.socket, host := other.host },
    { ips := first.ips, port := first.port, socket := first.socket, host := first.host })

/-- `resolved_ip(resolved_ip &&other)` -/
def move (other : ResolvedIp) : ResolvedIp := (swap empty other).1

/-- `operator=`, with the parameter that was made of what is assigned. -/
def assign (this other : ResolvedIp) : ResolvedIp := (swap this other).1

/-- What `get_ip` takes from the queue and returns is what was pushed there. -/
theorem assign_move (this other : ResolvedIp) : this.assign other.move.move = other := rfl

theorem copy_same_iff (ip : ResolvedIp) (port : UInt16) : ip.copy port = ip ↔ port = ip.port := by
  constructor
  · intro same
    rw [← same]
    rfl
  · intro same
    rw [same]
    rfl

theorem getIp_port {ip : ResolvedIp} (present : ip.ips ≠ []) : ip.getIp.port = ip.port := by
  obtain ⟨first, more, list⟩ := List.exists_cons_of_ne_nil present
  unfold getIp
  rw [list]

end ResolvedIp

/-- The host that the connection was made for. -/
def Obs.hostOf (c : ConnId) : Obs → Option Bytes
  | .connected conn host => if conn = c then some host else none
  | _ => none

namespace Proxy

def hostOf (s : Proxy) (c : ConnId) : Option Bytes := s.trace.findSome? (·.hostOf c)

/-- The host string of the request that the handler for the event connects for. -/
def requestHost (s : Proxy) (event : Event) : Option Bytes :=
  match s.handlers event.fd with
  | some .notifier => (s.resolving[event.io.resolved]?).map (·.2)
  | some (.serverConnect c _) => s.hostOf c
  | _ => none

/-- Every attempt of the step is for a request, and to the port that its host names. -/
def PortKept (s : Proxy) (event : Event) : Prop :=
  ∀ t new, s.step event = .ok t → t.tried = s.tried ++ new →
    ∀ attempt ∈ new, (s.requestHost event).bind Resolver.portOf = some attempt.2.port

/-- What `get_ip` returns has the port of its host. -/
def answered (s : Proxy) (event : Event) : Bool :=
  match s.handlers event.fd with
  | some .notifier => (s.resolving[event.io.resolved]?).all fun key => Resolver.portOf key.2 = some event.io.port
  | _ => true

/-- The attempt was refused, and there is another address. -/
def movesOn (ip : ResolvedIp) (state : FdState) (io : Io) : Bool :=
  !state.is .RDHUP && state.is hupOrError && (io.soError = some ENETUNREACH || io.soError = some ECONNREFUSED) &&
    ip.nextIp.ips ≠ []

/-- When another address is tried, the memory of the copy that is dispatched happens
to hold the port. -/
def holdsPort (s : Proxy) (event : Event) : Bool :=
  match s.handlers event.fd with
  | some (.serverConnect _ ip) =>
    !movesOn ip event.state event.io || Resolver.portOf ip.host = some event.io.unset
  | _ => true

variable {s t : Proxy} {io : Io} {state : FdState} {c : ConnId} {ip : ResolvedIp} {event : Event}

/-- An event with a result that the resolver delivered for the host. -/
theorem answered_delivered {r : Resolution} (ported : r.Ported) (port : event.io.port = r.port)
    (asked : ∀ key, s.resolving[event.io.resolved]? = some key → key.2 = r.submission.extra.host) :
    s.answered event = true := by
  unfold answered
  split
  · rw [Option.all_eq_true]
    intro key queued
    rw [asked key queued, port]
    exact decide_eq_true ported
  · rfl

/-! ### The two handlers -/

theorem wp_getIp {key : Fd × Bytes} {Q : ResolvedIp → Proxy → Prop} (queued : s.resolving[io.resolved]? = some key)
    (h : ∀ t, t.trace = s.trace → Q ⟨io.ips, io.port, key.1, key.2⟩ t) : wp (fun _ => True) (getIp io) Q s := by
  simp only [getIp, wp_bind, wp_get, queued, wp_set, wp_pure]
  exact h _ rfl

theorem wp_getIp_none {Q : ResolvedIp → Proxy → Prop} (none : s.resolving[io.resolved]? = none) :
    wp (fun _ => True) (getIp io) Q s := by
  simp only [getIp, wp_bind, wp_get, none, wp_throw]

/-- Perhaps an attempt at the port that `get_ip` returned. -/
def TriesPort (server : Fd) (port : UInt16) (before after : List (Fd × Address)) : Prop :=
  after = before ∨ ∃ address, after = before ++ [(server, address)] ∧ address.port = port

theorem tried_observe {server : Fd} {address : Address} :
    Takes (fun before after => after = before ++ [(server, address)]) tried (observe (.attempted server address)) := by
  intro s
  show tried _ = _
  simp [tried, Obs.tries]

theorem tries_first {server : Fd} (present : ip.ips ≠ []) :
    Takes (TriesPort server ip.port) tried (observe (.attempted server ip.getIp)) :=
  tried_observe.mono fun _ _ tried => Or.inr ⟨ip.getIp, tried, ResolvedIp.getIp_port present⟩

theorem Quiet.tries {server : Fd} {port : UInt16} {x : ProxyM Unit} (quiet : Quiet x) :
    Takes (TriesPort server port) tried x := quiet.mono fun _ _ same => Or.inl same.symm

theorem notifier_tries (s : Proxy) : wp (fun _ => True) (onNotifier state io)
    (fun _ t => t.tried = s.tried ∨ ∃ key server, s.resolving[io.resolved]? = some key ∧
      TriesPort server io.port s.tried t.tried) s := by
  unfold onNotifier
  rw [wp_whenever]
  refine ⟨fun _ => ?_, fun _ => Or.inl rfl⟩
  rw [wp_bind, wp_get, wp_bind]
  apply wp_mono _ (leaves_service (f := id) s)
  rintro _ _ rfl
  rw [wp_bind]
  apply wp_mono _ (leaves_newDescriptor (f := id) s)
  rintro destination _ rfl
  cases destination with
  | none => trivial
  | some server =>
    rw [wp_bind]
    cases queued : s.resolving[io.resolved]? with
    | none => exact wp_getIp_none queued
    | some key =>
      apply wp_getIp queued
      intro u trace
      have same : u.tried = s.tried := congrArg (List.filterMap Obs.tries) trace
      -- From here on the request is that of `key`, and what is tried is in `get_ip`'s result.
      refine wp_mono ?_ ((?_ : Takes (TriesPort server io.port) tried _) u)
      · intro _ t tries
        rw [same] at tries
        exact Or.inr ⟨key, server, rfl, tries⟩
      · apply Leaves.then leaves_get
        intro v
        apply Leaves.then leaves_get
        intro v'
        split
        · exact Quiet.tries leaves_pure
        · apply Leaves.then quiet_derefClient
          intro client
          split
          · exact Quiet.tries (quiet_erasePending.bind fun _ => quiet_send404)
          · rename_i present
            apply (tries_first present).leaving
            intro _
            split
            · exact quiet_send404.bind fun _ => quiet_erasePending
            · exact quiet_startConnection

/-- The attempt that is made when another address is tried. -/
def MovesOn (ip : ResolvedIp) (state : FdState) (io : Io) (before after : List (Fd × Address)) : Prop :=
  if movesOn ip state io = true then ∃ server, after = before ++ [(server, ip.nextIp.getIp)] else after = before

theorem Quiet.stays {x : ProxyM Unit} (quiet : Quiet x) (stays : movesOn ip state io = false) :
    Takes (MovesOn ip state io) tried x := by
  apply quiet.mono
  intro before after same
  unfold MovesOn
  rw [stays]
  exact same.symm

theorem serverConnect_tries : Takes (MovesOn ip state io) tried (onServerConnect c ip state io) := by
  unfold onServerConnect
  apply Leaves.then quiet_getElem
  intro server
  apply Leaves.then quiet_setActive
  intro _
  apply Leaves.then leaves_get
  intro s
  dsimp only
  by_cases stays : state.is .RDHUP = true
  · rw [if_pos stays]
    exact Quiet.stays quiet_giveUp (by simp [movesOn, stays])
  rw [if_neg stays]
  by_cases failed : state.is hupOrError = true
  · rw [if_pos failed]
    apply Leaves.then quiet_touch
    intro _
    cases error : io.soError with
    | none => exact Takes.throw
    | some code =>
      dsimp only
      by_cases refused : code = ENETUNREACH ∨ code = ECONNREFUSED
      · rw [if_pos refused]
        by_cases last : ip.nextIp.ips = []
        · rw [if_pos last]
          exact Quiet.stays quiet_giveUp (by simp [movesOn, last])
        · rw [if_neg last]
          have moves : movesOn ip state io = true := by simp [movesOn, stays, failed, error, refused, last]
          apply Takes.leaving
          · apply tried_observe.mono
            intro before after tried
            unfold MovesOn
            rw [if_pos moves]
            exact ⟨server.fd, tried⟩
          · intro _
            split
            · exact quiet_giveUp
            · exact leaves_pure
      · rw [if_neg refused]
        exact Quiet.stays quiet_giveUp (by simp [movesOn, error, refused])
  · rw [if_neg failed]
    apply Quiet.stays _ (by simp [movesOn, failed])
    apply leaves_whenever
    apply Leaves.bind quiet_touch
    intro _
    split
    · exact leaves_throw
    · apply Leaves.bind quiet_erasePending
      intro _
      apply Leaves.bind quiet_updateState
      intro _
      apply Leaves.bind quiet_updateState
      intro _
      apply Leaves.bind quiet_changeTimeout
      intro _
      apply Leaves.bind quiet_getElem
      intro client
      exact (quiet_observe rfl).bind fun _ => quiet_afterConnect

/-! ### Runs -/

theorem hostOf_installed {g : Guard} {f : Fd} (sound : s.view.Sound g)
    (installed : s.handlers f = some (.serverConnect c ip)) : s.hostOf c = some ip.host := by
  have connected : .connected c ip.host ∈ s.trace := (sound.relies installed).1
  have only : ∀ other, .connected c other ∈ s.trace → other = ip.host := (sound.recorded.numbered c ip.host connected).2
  unfold hostOf
  cases found : s.trace.findSome? (·.hostOf c) with
  | none =>
    have absent := List.findSome?_eq_none_iff.mp found _ connected
    simp [Obs.hostOf] at absent
  | some host =>
    obtain ⟨o, seen, here⟩ := List.exists_of_findSome?_eq_some found
    cases o with
    | connected d host' =>
      simp only [Obs.hostOf] at here
      split at here
      · rename_i same
        cases here
        rw [same] at seen
        rw [only _ seen]
      · cases here
    | _ => cases here

theorem portKept_quiet (same : t.tried = s.tried) (stepped : s.step event = .ok t) : s.PortKept event := by
  intro t' new stepped' tried attempt made
  rw [stepped] at stepped'
  cases stepped'
  rw [same, List.self_eq_append_right] at tried
  rw [tried] at made
  cases made

theorem portKept_tried {p : Fd × Address} (stepped : s.step event = .ok t) (tried : t.tried = s.tried ++ [p]) :
    s.PortKept event ↔ (s.requestHost event).bind Resolver.portOf = some p.2.port := by
  constructor
  · intro kept
    exact kept t [p] stepped tried p List.mem_cons_self
  · intro port t' new stepped' tried' attempt made
    rw [stepped] at stepped'
    cases stepped'
    rw [tried, List.append_cancel_left_eq] at tried'
    rw [← tried', List.mem_singleton] at made
    rw [made, port]

theorem movesOn_copy {port : UInt16} : movesOn (ip.copy port) state io = movesOn ip state io := rfl

theorem nextIp_port {port : UInt16} (moves : movesOn ip state io = true) :
    (ip.copy port).nextIp.getIp.port = port := by
  have present : (ip.copy port).nextIp.ips ≠ [] := by
    simp only [movesOn, Bool.and_eq_true, decide_eq_true_eq] at moves
    exact moves.2
  exact ResolvedIp.getIp_port present

theorem portKept_iff {g : Guard} (sound : s.view.Sound g) (answered : s.answered event = true)
    (stepped : s.step event = .ok t) : s.PortKept event ↔ s.holdsPort event = true := by
  unfold holdsPort
  cases installed : s.handlers event.fd with
  | none =>
    have stayed := step_none installed stepped
    subst stayed
    exact iff_of_true (portKept_quiet rfl stepped) rfl
  | some h =>
    cases h with
    | notifier =>
      refine iff_of_true ?_ rfl
      obtain same | ⟨key, server, queued, same | ⟨address, tried, port⟩⟩ := step_wp installed (notifier_tries s) stepped
      · exact portKept_quiet same stepped
      · exact portKept_quiet same stepped
      · rw [portKept_tried stepped tried]
        unfold Proxy.answered at answered
        unfold requestHost
        rw [installed] at answered ⊢
        simp only [queued, Option.all_some, decide_eq_true_eq] at answered
        simp only [queued, Option.map_some, Option.bind_some]
        rw [answered, port]
    | serverConnect c ip =>
      have tries : MovesOn (ip.copy event.io.unset) event.state event.io s.tried t.tried :=
        step_wp installed (serverConnect_tries s) stepped
      have host : s.requestHost event = some ip.host := by
        unfold requestHost
        rw [installed]
        exact hostOf_installed sound installed
      unfold MovesOn at tries
      cases moves : movesOn ip event.state event.io with
      | false =>
        rw [if_neg (by rw [movesOn_copy, moves]; exact Bool.false_ne_true)] at tries
        exact iff_of_true (portKept_quiet tries stepped) (by simp [moves])
      | true =>
        rw [if_pos (by rw [movesOn_copy, moves])] at tries
        obtain ⟨server, tried⟩ := tries
        rw [portKept_tried stepped tried, host, Option.bind_some, nextIp_port moves]
        simp [moves]
    | _ =>
      have quiet := step_wp installed (quiet_run rfl s) stepped
      exact iff_of_true (portKept_quiet quiet.symm stepped) rfl

variable {timer notifier listener : Fd} {events : List Event}

/-- Every attempt of a run is to the port of its host when there is no address to move on
to, or the copies that move on happen to hold it. -/
theorem ports_kept_iff (opens : Opens timer notifier listener)
    (ran : Runs.run step (init timer notifier listener) events = .ok t)
    (answered : Runs.Along step (fun s event => s.answered event = true) (init timer notifier listener) events) :
    Runs.Along step PortKept (init timer notifier listener) events ↔
      Runs.Along step (fun s event => s.holdsPort event = true) (init timer notifier listener) events := by
  apply Runs.along_iff_given (I := fun s => s.view.Sound {}) (init_sound opens fun _ => trivial) _ _ answered ran
  · intro s event s' sound stepped
    exact sound_step sound (careful_always s event) stepped
  · intro s event s' sound answered stepped
    exact portKept_iff sound answered stepped

/-! ### A host with a port -/

/-- The oldest result has two addresses, and the port 8080. -/
def resolvesPort (server : Fd) : Event :=
  { fd := 4, state := .IN, io := { quiet with newFd := some server, ips := [1, 2], port := Resolver.htons 8080 } }

/-- The connection is refused; what the copies leave unset has the value `unset`. -/
def refusesWith (server : Fd) (unset : UInt16) : Event :=
  { fd := server, state := .union .HUP .OUT, io := { quiet with soError := some ECONNREFUSED, unset } }

def waitsPort : List Event := [accepts 6, receives 6 (postTo (lit "h:8080")), resolvesPort 7]

theorem lucky_port_kept : ∃ t, Runs.run step (init 3 4 5) (waitsPort ++ [refusesWith 7 (Resolver.htons 8080)]) = .ok t ∧
    Runs.Along step PortKept (init 3 4 5) (waitsPort ++ [refusesWith 7 (Resolver.htons 8080)]) := by
  obtain ⟨t, ran⟩ : ∃ t, Runs.run step (init 3 4 5) (waitsPort ++ [refusesWith 7 (Resolver.htons 8080)]) = .ok t :=
    Runs.run_ends (by decide +kernel)
  exact ⟨t, ran, (ports_kept_iff opens_345 ran (by decide +kernel)).mpr (by decide +kernel)⟩

theorem second_address_port_lost : ¬∀ (timer notifier listener : Fd) (events : List Event) (t : Proxy),
    Opens timer notifier listener → Runs.run step (init timer notifier listener) events = .ok t →
      Runs.Along step (fun s event => s.answered event = true) (init timer notifier listener) events →
      Runs.Along step PortKept (init timer notifier listener) events := by
  intro claim
  obtain ⟨t, ran⟩ : ∃ t, Runs.run step (init 3 4 5) (waitsPort ++ [refusesWith 7 0]) = .ok t :=
    Runs.run_ends (by decide +kernel)
  have kept := claim 3 4 5 _ t opens_345 ran (by decide +kernel)
  obtain ⟨s, reached, lost⟩ : ∃ s, Runs.run step (init 3 4 5) waitsPort = .ok s ∧
      (s.answered (refusesWith 7 0) && !s.holdsPort (refusesWith 7 0)) = true := Runs.run_any (by decide +kernel)
  obtain ⟨s', reached', ran⟩ := Runs.run_append.mp ran
  rw [reached] at reached'
  cases reached'
  obtain ⟨t', stepped, _⟩ := Runs.run_cons.mp ran
  have sound := run_sound (g := {}) opens_345 (fun _ => trivial) (Runs.Along.always careful_always) reached
  simp only [Bool.and_eq_true, Bool.not_eq_true'] at lost
  have holds := (portKept_iff sound lost.1 stepped).mp (kept.at reached)
  rw [lost.2] at holds
  cases holds

end Proxy

end ProxyServer
