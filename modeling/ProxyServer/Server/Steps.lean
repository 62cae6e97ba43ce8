import ProxyServer.Foundation.Runs
import ProxyServer.Server.Attempts

/-!
# Steps and runs

What a step of the server keeps, and what holds after a run.
-/

namespace ProxyServer

open Wp

namespace Proxy

open Registry

variable {g : Guard} {s : Proxy} {v : Registry} {io : Io} {state : FdState}

/-! ### The timer -/

def sweepsSocket (s : Proxy) : EntryRef → Prop
  | .sock id => ∃ entry, s.sockets.get id = some entry ∧ expired s.ticks entry = true
  | .conn _ => False

def sweepsConnection (s : Proxy) : EntryRef → Prop
  | .sock _ => False
  | .conn c => ∃ conn, s.connections.get c = some conn ∧ conn.expiresIn ≤ s.ticks

theorem swept_handlers {p : EntryRef → Prop} (late : Fd → Bool)
    (swept : ∀ f, late f = true ↔ ∃ r, p (ElemRef.entry r) ∧ s.view.fd? r = some f) (f : Fd) (h : Handler) :
    (if late f then none else s.handlers f) = some h ↔
      s.handlers f = some h ∧ ∀ r, p (ElemRef.entry r) → s.view.fd? r ≠ some f := by
  cases found : late f with
  | true =>
    obtain ⟨r, dropped, owner⟩ := (swept f).mp found
    simp only [if_true, reduceCtorEq, false_iff]
    exact fun kept => kept.2 r dropped owner
  | false =>
    rw [if_neg (by simp)]
    refine ⟨fun installed => ⟨installed, fun r dropped owner => ?_⟩, And.left⟩
    have never := (swept f).mpr ⟨r, dropped, owner⟩
    rw [found] at never
    cases never

theorem drops_sweepSockets (own : s.view.Owned) : Drops s.sweepsSocket s.view (sweepSockets s).view where
  socket := by
    intro id e
    simp only [view, sweepSockets, sweepsSocket, Option.map_eq_some_iff, Store.get_keep, Bool.not_eq_true']
    constructor
    · rintro ⟨entry, ⟨live, early⟩, same⟩
      refine ⟨⟨entry, live, same⟩, ?_⟩
      rintro ⟨other, live', late⟩
      rw [live] at live'
      cases live'
      rw [early] at late
      cases late
    · rintro ⟨⟨entry, live, same⟩, kept⟩
      refine ⟨entry, ⟨live, ?_⟩, same⟩
      cases late : expired s.ticks entry with
      | true => exact absurd ⟨entry, live, late⟩ kept
      | false => rfl
  connection := by simp [view, sweepSockets, sweepsSocket]
  handlers := by
    refine swept_handlers (fun fd =>
      s.sockets.any fun entry => expired s.ticks entry && entry.elem.fd = fd && fd ≠ 0) (fun f => ?_) _ _
    rw [Store.any_iff]
    constructor
    · rintro ⟨id, entry, live, holds⟩
      simp only [Bool.and_eq_true, decide_eq_true_eq] at holds
      refine ⟨.sock id, ⟨entry, live, holds.1.1⟩, ?_⟩
      rw [view_fd, elem, live, Option.map_some, Option.map_some, holds.1.2]
    · rintro ⟨r, dropped, owner⟩
      have present := own.present owner
      cases r with
      | sock id =>
        obtain ⟨entry, live, late⟩ := dropped
        have same : entry.elem.fd = f := by simpa [view_fd, elem, live] using owner
        exact ⟨id, entry, live, by simp [late, same, present]⟩
      | client c => exact dropped.elim
      | server c => exact dropped.elim
  resolving := rfl
  services := ⟨rfl, rfl, rfl⟩
  ledger := rfl
  forgotten := fun found => found
  kept := fun changed => absurd rfl changed

theorem drops_sweepConnections (own : s.view.Owned) :
    Drops s.sweepsConnection s.view (sweepConnections s).view where
  socket := by simp [view, sweepConnections, sweepsConnection]
  connection := by
    intro c l
    simp only [view, sweepConnections, sweepsConnection, Option.map_eq_some_iff, Store.get_keep, decide_eq_true_eq]
    constructor
    · rintro ⟨conn, ⟨live, early⟩, same⟩
      refine ⟨⟨conn, live, same⟩, ?_⟩
      rintro ⟨other, live', late⟩
      rw [live] at live'
      cases live'
      omega
    · rintro ⟨⟨conn, live, same⟩, kept⟩
      refine ⟨conn, ⟨live, ?_⟩, same⟩
      by_contra late
      exact kept ⟨conn, live, by omega⟩
  handlers := by
    refine swept_handlers (fun fd => s.connections.any fun c =>
      c.expiresIn ≤ s.ticks && (c.client.fd = fd || c.server.fd = fd) && fd ≠ 0) (fun f => ?_) _ _
    rw [Store.any_iff]
    constructor
    · rintro ⟨c, conn, live, holds⟩
      simp only [Bool.and_eq_true, Bool.or_eq_true, decide_eq_true_eq] at holds
      rcases holds.1.2 with client | server
      · refine ⟨.client c, ⟨conn, live, holds.1.1⟩, ?_⟩
        rw [view_fd, elem, live, Option.map_some, Option.map_some, client]
      · refine ⟨.server c, ⟨conn, live, holds.1.1⟩, ?_⟩
        rw [view_fd, elem, live, Option.map_some, Option.map_some, server]
    · rintro ⟨r, dropped, owner⟩
      have present := own.present owner
      cases r with
      | sock id => exact dropped.elim
      | client c =>
        obtain ⟨conn, live, late⟩ := dropped
        have same : conn.client.fd = f := by simpa [view_fd, elem, live] using owner
        exact ⟨c, conn, live, by simp [late, same, present]⟩
      | server c =>
        obtain ⟨conn, live, late⟩ := dropped
        have same : conn.server.fd = f := by simpa [view_fd, elem, live] using owner
        exact ⟨c, conn, live, by simp [late, same, present]⟩
  resolving := rfl
  services := ⟨rfl, rfl, rfl⟩
  ledger := rfl
  forgotten := fun found => found
  kept := fun changed => absurd rfl changed

/-- Entries are closed that nothing needs which the guard asks for. -/
theorem Sound.sweep {w : Registry} {p : EntryRef → Prop} (sound : v.Sound g) (drops : Drops p v w)
    (spares : g.pending → ∀ key it, p it → v.Waits key it → key ∈ v.resolving → w.onResolve key = none)
    (spares' : g.current → ∀ key it, p it → v.Waits key it → w.onResolve key = none) : w.Sound g where
  own := sound.own.drops drops
  awaited on := (sound.awaited on).keeps (Keeps.drops sound.own drops fun key it dropped waits queued =>
    spares on key it dropped waits (by rwa [drops.resolving] at queued))
  current on := (sound.current on).keeps (Keeps.drops sound.own drops fun key it dropped waits _ =>
    spares' on key it dropped waits)
  isolated on := by
    rw [drops.ledger]
    exact sound.isolated on
  relies installed := by
    rw [drops.ledger]
    exact sound.relies (drops.handlers.mp installed).1
  heard := sound.heard.fewer drops.ledger fun installed => Or.inl (drops.handlers.mp installed).1
  recorded := by
    rw [drops.ledger]
    exact sound.recorded
  confined owner := sound.confined (drops.fd?.mp owner).1
  asked found := sound.asked (drops.forgotten found)

theorem wp_service {E : Fault → Prop} {Q : Unit → Proxy → Prop} (id : SocketId) (allowed : E .service)
    (h : Q () s) : wp E (service id) Q s := by
  simp only [service, wp_bind, wp_get]
  split
  · exact h
  · exact allowed

theorem awaits_of_waits (own : s.view.Owned) {key : Fd × Bytes} {it : EntryRef} (waits : s.view.Waits key it) :
    s.awaits it = some key := by
  cases waits with
  | resolving id e live installed =>
    obtain ⟨entry, here, rfl⟩ := Option.map_eq_some_iff.mp live
    have owner := (own.owns installed).2
    have same : entry.elem.fd = key.1 := by simpa [view_fd, Registry.owner, elem, here] using owner
    have installed : s.handlers entry.elem.fd = some (.resolving id key.2) := by rw [same]; exact installed
    simp only [awaits, here, installed]
    rw [same]
  | connecting c l ip live unestablished installed same =>
    obtain ⟨conn, here, rfl⟩ := Option.map_eq_some_iff.mp live
    have installed : s.handlers conn.server.fd = some (.serverConnect c ip) := installed
    have timeout : conn.timeout = SHORT_SOCKET_TIMEOUT := by simpa [Connection.view] using unestablished
    simp only [awaits, here, installed, timeout, if_true, same]

theorem spares_none {K : Fd × Bytes → Bool} {ticked : Nat} {key : Fd × Bytes} {it : EntryRef}
    (spares : s.spares K ticked = true) (swept : s.sweeps ticked it = true) (awaits : s.awaits it = some key)
    (relevant : K key = true) : s.onResolve key = none := by
  have member : it ∈ s.refs := by
    simp only [refs, List.mem_append, List.mem_map, List.mem_range]
    cases it with
    | sock id =>
      obtain ⟨entry, live, _⟩ := Option.any_eq_true _ _ |>.mp swept
      exact Or.inl ⟨id, Store.get_lt live, rfl⟩
    | conn c =>
      obtain ⟨conn, live, _⟩ := Option.any_eq_true _ _ |>.mp swept
      exact Or.inr ⟨c, Store.get_lt live, rfl⟩
  have here := List.all_eq_true.mp spares it member
  simpa [swept, awaits, relevant] using here

theorem wp_onTimer (sound : s.view.Sound g) (spares : g.pending → s.spares (· ∈ s.resolving) io.ticked = true)
    (spares' : g.current → s.spares (fun _ => true) io.ticked = true) :
    wp g.Allows (onTimer state io) (fun _ t => t.view.Sound g) s := by
  rw [onTimer, wp_whenever]
  refine ⟨fun _ => ?_, fun _ => sound⟩
  simp only [wp_bind, wp_get, wp_modify]
  refine wp_service _ trivial ?_
  -- The two sweeps are of what `sweeps` says.
  have early : ∀ it, sweepsSocket { s with ticks := s.ticks + io.ticked * TICK_INTERVAL } it →
      s.sweeps io.ticked it = true := by
    rintro (id | c) swept
    · obtain ⟨entry, live, late⟩ := swept
      have live : s.sockets.get id = some entry := live
      simpa [sweeps, live, expired] using late
    · exact swept.elim
  have late : ∀ it, sweepsConnection { sweepSockets { s with ticks := s.ticks + io.ticked * TICK_INTERVAL } with
      ticks := s.ticks + io.ticked * TICK_INTERVAL + io.ticked } it → s.sweeps io.ticked it = true := by
    rintro (id | c) swept
    · exact swept.elim
    · obtain ⟨conn, live, late⟩ := swept
      have live : s.connections.get c = some conn := live
      simpa [sweeps, live] using late
  have flight := fun (on : g.pending) key it swept (waits : s.view.Waits key it) (queued : key ∈ s.resolving) =>
    spares_none (spares on) swept (awaits_of_waits sound.own waits) (decide_eq_true queued)
  have always := fun (on : g.current) key it swept (waits : s.view.Waits key it) =>
    spares_none (spares' on) swept (awaits_of_waits sound.own waits) rfl
  have drops := drops_sweepSockets (s := { s with ticks := s.ticks + io.ticked * TICK_INTERVAL }) sound.own
  have once := Sound.sweep sound drops
    (fun on key it swept waits queued => flight on key it (early it swept) waits queued)
    (fun on key it swept waits => always on key it (early it swept) waits)
  exact Sound.sweep once (drops_sweepConnections (s := { sweepSockets { s with
      ticks := s.ticks + io.ticked * TICK_INTERVAL } with
      ticks := s.ticks + io.ticked * TICK_INTERVAL + io.ticked }) once.own)
    (fun on key it swept waits queued => flight on key it (late it swept) (drops.waited sound.own waits).2 queued)
    (fun on key it swept waits => always on key it (late it swept) (drops.waited sound.own waits).2)

/-! ### The step -/

/-- A step in which the handler keeps to what the guard asks for. -/
structure Careful (g : Guard) (s : Proxy) (event : Event) : Prop where
  closes : g.closes → s.returnsClosed event = true
  pending : g.pending → s.keepsPending event = true
  current : g.current → s.forgetsPending event = true
  answers : ∀ h a k, s.handlers event.fd = some h → h.completed s.responses event.state event.io = some a →
    Heeds s.view.ledger a.conn k a.bytes a.resp → s.cache.admits a.rqst a.resp = true →
    g.answers a.conn k a.rqst a.resp
  validates : ∀ h cached a k, s.handlers event.fd = some h →
    h.validated s.responses event.state event.io = some (cached, a) → Heeds s.view.ledger a.conn k a.bytes a.resp →
    g.validates cached a.conn k a.rqst a.resp
  opens : ∀ f, s.opened event = some f → g.opens f

theorem careful_always (s : Proxy) (event : Event) : s.Careful {} event where
  closes := False.elim
  pending := False.elim
  current := False.elim
  answers _ _ _ _ _ _ _ := trivial
  validates _ _ _ _ _ _ _ := trivial
  opens _ _ := trivial

theorem wp_run {event : Event} (sound : s.view.Sound g) (careful : s.Careful g event) {h : Handler}
    (installed : s.handlers event.fd = some h) :
    wp g.Allows (h.run event.state event.io) (fun _ t => t.view.Sound g) s := by
  have settled := fun settled => sound.own.ready installed (h := h) settled
  have coherent := (sound.own.owns installed).1
  have closes : g.closes → h.usesClosed s.responses s.raws event.state event.io = false := fun on => by
    simpa [returnsClosed, installed] using careful.closes on
  cases h with
  | listener =>
    refine sounds_onListener sound (fun f input fresh => ?_) s rfl
    exact careful.opens f (by rw [opened, installed]; exact (if_pos input).trans fresh)
  | notifier =>
    refine sounds_onNotifier sound (fun f input fresh => ?_) (fun on key c queued entry waits => ?_) s rfl
    · exact careful.opens f (by rw [opened, installed]; exact (if_pos input).trans fresh)
    have delivers := careful.pending on
    have queued : s.resolving[event.io.resolved]? = some key := queued
    have entry : (s.onResolve key).isSome = true := entry
    obtain ⟨q, found⟩ := Option.isSome_iff_exists.mp entry
    have awaits := awaits_of_waits sound.own waits
    have bound : c < s.connections.next := by
      cases waits with
      | connecting _ l ip live =>
        obtain ⟨conn, here, _⟩ := Option.map_eq_some_iff.mp live
        exact Store.get_lt here
    simp only [keepsPending, installed, Proxy.delivers, queued, Option.all_some, found, Option.isNone_some,
      Bool.false_or, List.all_eq_true, List.mem_range, decide_eq_true_eq] at delivers
    exact delivers c bound awaits
  | timer =>
    refine wp_onTimer sound (fun on => ?_) fun on => ?_
    · simpa [keepsPending, installed] using careful.pending on
    · simpa [forgetsPending, installed] using careful.current on
  | resolving id host => exact sounds_onResolving sound installed s rfl
  | connecting c socket host => exact sounds_onConnecting sound installed s rfl
  | serverConnect c ip =>
    refine sounds_onServerConnect sound installed (fun on uses l live => ?_) event.io.unset s rfl
    obtain ⟨conn, here, rfl⟩ := Option.map_eq_some_iff.mp live
    have connects := careful.pending on
    simp only [keepsPending, installed, uses, here, Bool.not_true, Bool.false_or, Option.all_some] at connects
    simpa [Connection.view] using connects
  | readRequest source message iterator next =>
    obtain ⟨rfl, named⟩ := coherent
    obtain ⟨reading, gathered, resumes⟩ : s.view.ledger.Reading (.request message) ∧
      (s.view.ledger.requests message).Gathered ∧ s.view.ledger.Resumes next := sound.relies installed
    exact sounds_onReadable sound (settled trivial) closes
      (fun _ => sounds_receiveRequest sound (settled trivial) named reading gathered resumes) s rfl
  | readResponse source message iterator next =>
    cases next with
    | handleValidationResponse c rqst cached =>
      obtain ⟨rfl, rfl⟩ := coherent
      refine sounds_onReadable (r := .server c) sound (settled trivial) closes (fun reads => ?_) s rfl
      refine sounds_receiveResponse sound (settled trivial) installed fun bytes m k read got heeds => ?_
      refine careful.validates _ cached { conn := c, rqst, resp := m.transferred event.io.garbage, .. } k installed ?_
        { heeds with received := heeds.received.transferred heeds.done _ }
      have got : (s.responses message).readFrom (bytes.take (s.responses message).shouldRead) = .ok m := got
      simp only [Handler.validated, read, got, reads, heeds.done, Bool.and_self, if_true]
      rfl
  | send dest message iterator next =>
    obtain ⟨rfl, follows⟩ := id coherent
    exact sounds_onWritable sound (settled trivial) closes (fun _ _ _ h => Acts.pure h)
      (sounds_transmitMessage sound (settled trivial) installed) s rfl
  | transferServer c rqst resp =>
    refine sounds_onReadable (r := .server c) sound (settled trivial) closes (fun reads => ?_) s rfl
    refine sounds_transferIn sound (settled trivial) installed fun bytes m k read got heeds admits => ?_
    refine careful.answers _ { conn := c, rqst, resp := m, .. } k installed ?_ heeds admits
    have got : (s.responses resp).readFrom (bytes.take (s.responses resp).shouldRead) = .ok m := got
    simp only [Handler.completed, read, got, reads, heeds.done, Bool.and_self, if_true]
    rfl
  | transferClient c resp =>
    refine sounds_onWritable (r := .client c) sound (settled trivial) closes (fun w Q same h => ?_)
      (sounds_transferOut sound (settled trivial) installed) s rfl
    refine Acts.get fun s' same' => Acts.pure ?_
    have kept : s'.responses = s.responses := congrArg Ledger.responses ((congrArg Registry.ledger same').trans same)
    rwa [kept]
  | reused c =>
    refine Acts.whenever (fun _ => ?_) (fun _ => sound) s rfl
    exact sounds_logAndClose sound (settled trivial)
  | connectTransfer c side inMessage outMessage =>
    cases side with
    | client =>
      exact sounds_onConnectTransfer sound (.client c) (.server c) (settled trivial) rfl rfl coherent closes s rfl
    | server =>
      exact sounds_onConnectTransfer sound (.server c) (.client c) (settled trivial) rfl rfl coherent closes s rfl

theorem step_run {event : Event} {h : Handler} (installed : s.handlers event.fd = some h) :
    s.step event = (h.run event.state event.io s).map (·.2) := by
  unfold step
  rw [installed]

/-- What the handler that is dispatched establishes holds after the step. -/
theorem step_wp {event : Event} {t : Proxy} {h : Handler} {E : Fault → Prop} {Q : Proxy → Prop}
    (installed : s.handlers event.fd = some h) (runs : wp E (h.run event.state event.io) (fun _ t => Q t) s)
    (stepped : s.step event = .ok t) : Q t := by
  rw [step_run installed] at stepped
  obtain ⟨⟨_, t'⟩, ran, rfl⟩ := Runs.map_ok.mp stepped
  exact wp_ok runs ran

theorem step_acts {event : Event} {t : Proxy} {h : Handler} {E : Fault → Prop} {Q : Registry → Prop}
    (installed : s.handlers event.fd = some h) (acts : Acts E (h.run event.state event.io) (fun _ w => Q w) s.view)
    (stepped : s.step event = .ok t) : Q t.view := by
  have runs : wp E (h.run event.state event.io) (fun _ t => Q t.view) s := acts s rfl
  exact step_wp installed runs stepped

theorem step_none {event : Event} {t : Proxy} (none : s.handlers event.fd = none) (stepped : s.step event = .ok t) :
    t = s := by
  unfold step at stepped
  rw [none] at stepped
  cases stepped
  rfl

theorem sound_step {event : Event} {t : Proxy} (sound : s.view.Sound g) (careful : s.Careful g event)
    (stepped : s.step event = .ok t) : t.view.Sound g := by
  cases installed : s.handlers event.fd with
  | none =>
    rw [step_none installed stepped]
    exact sound
  | some h => exact step_wp installed (wp_run sound careful installed) stepped

theorem allows_step {event : Event} {e : Fault} (sound : s.view.Sound g) (careful : s.Careful g event)
    (stepped : s.step event = .error e) : g.Allows e := by
  cases installed : s.handlers event.fd with
  | none =>
    unfold step at stepped
    rw [installed] at stepped
    cases stepped
  | some h =>
    have kept := wp_run sound careful installed
    rw [step_run installed] at stepped
    exact wp_error kept (Runs.map_error.mp stepped)

/-! ### Runs -/

structure Opens (timerFd notifierFd listenerFd : Fd) : Prop where
  timer : timerFd ≠ 0
  notifier : notifierFd ≠ 0
  listener : listenerFd ≠ 0
  timer_notifier : timerFd ≠ notifierFd
  timer_listener : timerFd ≠ listenerFd
  notifier_listener : notifierFd ≠ listenerFd

variable {timer notifier listener : Fd}

theorem init_fd {r : ElemRef} {f : Fd} : (init timer notifier listener).view.fd? r = some f ↔
    (r = .sock 0 ∧ f = timer) ∨ (r = .sock 1 ∧ f = notifier) ∨ (r = .sock 2 ∧ f = listener) := by
  rw [view_fd]
  cases r with
  | sock id =>
    simp only [elem, init, Store.get_insert, Store.next_insert, Store.empty, EpollElem.new, ElemRef.sock.injEq]
    split
    · simp_all [eq_comm]
    · split
      · simp_all [eq_comm]
      · split <;> simp_all [eq_comm]
  | client c => simp [elem, init, Store.empty]
  | server c => simp [elem, init, Store.empty]

theorem init_handlers {f : Fd} {h : Handler} (installed : (init timer notifier listener).view.handlers f = some h) :
    (f = timer ∧ h = .timer) ∨ (f = notifier ∧ h = .notifier) ∨ (f = listener ∧ h = .listener) := by
  simp only [view, init] at installed
  split at installed
  · exact Or.inl ⟨by assumption, by simpa [eq_comm] using installed⟩
  · split at installed
    · exact Or.inr (Or.inl ⟨by assumption, by simpa [eq_comm] using installed⟩)
    · split at installed
      · exact Or.inr (Or.inr ⟨by assumption, by simpa [eq_comm] using installed⟩)
      · cases installed

theorem init_owned (opens : Opens timer notifier listener) : (init timer notifier listener).view.Owned where
  present owner := by
    rcases init_fd.mp owner with ⟨_, rfl⟩ | ⟨_, rfl⟩ | ⟨_, rfl⟩
    · exact opens.timer
    · exact opens.notifier
    · exact opens.listener
  unique owner owner' := by
    rcases init_fd.mp owner with ⟨rfl, rfl⟩ | ⟨rfl, rfl⟩ | ⟨rfl, rfl⟩ <;>
      rcases init_fd.mp owner' with ⟨rfl, same⟩ | ⟨rfl, same⟩ | ⟨rfl, same⟩
    · rfl
    · exact absurd same opens.timer_notifier
    · exact absurd same opens.timer_listener
    · exact absurd same.symm opens.timer_notifier
    · rfl
    · exact absurd same opens.notifier_listener
    · exact absurd same.symm opens.timer_listener
    · exact absurd same.symm opens.notifier_listener
    · rfl
  keyed := by
    intro id e live
    obtain ⟨entry, here, rfl⟩ := Option.map_eq_some_iff.mp live
    simp only [init, Store.get_insert, Store.next_insert, Store.empty] at here
    split at here
    · cases here
      rfl
    · split at here
      · cases here
        rfl
      · split at here
        · cases here
          rfl
        · cases here
  owns := by
    intro f h installed
    rcases init_handlers installed with ⟨rfl, rfl⟩ | ⟨rfl, rfl⟩ | ⟨rfl, rfl⟩
    · exact ⟨trivial, init_fd.mpr (Or.inl ⟨rfl, rfl⟩)⟩
    · exact ⟨trivial, init_fd.mpr (Or.inr (Or.inl ⟨rfl, rfl⟩))⟩
    · exact ⟨trivial, init_fd.mpr (Or.inr (Or.inr ⟨rfl, rfl⟩))⟩
  client installed := by
    rcases init_handlers installed with ⟨_, h⟩ | ⟨_, h⟩ | ⟨_, h⟩ <;> cases h
  server installed := by
    rcases init_handlers installed with ⟨_, h⟩ | ⟨_, h⟩ | ⟨_, h⟩ <;> cases h
  linking live := by simp [view, init, Store.empty] at live

theorem init_waits {key : Fd × Bytes} {it : EntryRef} : ¬(init timer notifier listener).view.Waits key it := by
  intro waits
  cases waits with
  | resolving id e live installed =>
    rcases init_handlers installed with ⟨_, h⟩ | ⟨_, h⟩ | ⟨_, h⟩ <;> cases h
  | connecting c l ip live => simp [view, init, Store.empty] at live

theorem init_sound (opens : Opens timer notifier listener) (all : ∀ f, g.opens f) :
    (init timer notifier listener).view.Sound g where
  own := init_owned opens
  awaited _ := ⟨fun waits => absurd waits init_waits, fun queued => by simp [view, init] at queued⟩
  current _ _ _ found := by simp [view, init] at found
  isolated _ _ _ seen := by simp [view, init] at seen
  relies installed := by
    rcases init_handlers installed with ⟨_, rfl⟩ | ⟨_, rfl⟩ | ⟨_, rfl⟩
    all_goals trivial
  heard := by
    have silent : ∀ {f h l}, (init timer notifier listener).view.handlers f = some h → h.listens ≠ some l := by
      intro f h l installed
      rcases init_handlers installed with ⟨_, rfl⟩ | ⟨_, rfl⟩ | ⟨_, rfl⟩
      all_goals
        intro same
        cases same
    exact ⟨fun installed listens => absurd listens (silent installed),
      fun installed _ listens => absurd listens (silent installed)⟩
  recorded :=
    { sending := fun seen => by simp [view, init] at seen
      wrote := fun seen => by simp [view, init] at seen
      admitted := fun held => by simp [view, init, SimpleCache.empty, SimpleCache.entries] at held
      handled := fun seen => by simp [view, init] at seen
      validated := fun seen => by simp [view, init] at seen
      numbered := fun _ _ seen => by simp [view, init, Ledger.Connected] at seen
      unspoken := fun _ _ => rfl }
  confined _ := all _
  asked found := by simp [view, init] at found

theorem run_sound {events : List Event} {t : Proxy} (opens : Opens timer notifier listener)
    (all : ∀ f, g.opens f) (along : Runs.Along step (Careful g) (init timer notifier listener) events)
    (ran : Runs.run step (init timer notifier listener) events = .ok t) : t.view.Sound g :=
  Runs.invariant_along (I := fun s => s.view.Sound g) (init_sound opens all)
    (fun _ _ _ sound careful stepped => sound_step sound careful stepped) along ran

theorem run_owned {events : List Event} {t : Proxy} (opens : Opens timer notifier listener)
    (ran : Runs.run step (init timer notifier listener) events = .ok t) : t.view.Owned := by
  have along : Runs.Along step (Careful {}) (init timer notifier listener) events :=
    Runs.Along.always (fun s event => careful_always s event)
  exact (run_sound opens (fun _ => trivial) along ran).own

/-- A run that is careful fails only as the guard allows. -/
theorem run_allows {events : List Event} {e : Fault} (opens : Opens timer notifier listener)
    (all : ∀ f, g.opens f) (along : Runs.Along step (Careful g) (init timer notifier listener) events)
    (failed : Runs.run step (init timer notifier listener) events = .error e) : g.Allows e := by
  obtain ⟨s, event, sound, careful, stepped⟩ := Runs.failure_along (I := fun s => s.view.Sound g)
    (init_sound opens all) (fun _ _ _ sound careful stepped => sound_step sound careful stepped) along failed
  exact allows_step sound careful stepped

end Proxy

end ProxyServer
