import ProxyServer.Server.Isolation
import ProxyServer.Server.Failures
import ProxyServer.Server.Validation

/-!
# The services stay

The queue would close the timer, the notifier or the listener as it closes clients that have
expired. While the clock is below their timeout they stay as they are, and the server does not
fail but for what is reported.
-/

namespace ProxyServer

open Wp

namespace Proxy

variable {s t base : Proxy} {it : EntryRef} {id : SocketId} {r : ElemRef} {f : Fd} {event : Event} {h : Handler} {e : Fault}

/-- The clock is below the timeout of the services when the timer closes what has expired. -/
def inTime (s : Proxy) (event : Event) : Bool :=
  match s.handlers event.fd with
  | some .timer => s.ticks + event.io.ticked * TICK_INTERVAL < INFINITE_TIMEOUT
  | _ => true

/-- The services are as they were in the state `base`. -/
structure Staffed (base s : Proxy) : Prop where
  regular : Regular s
  services : s.timer = base.timer ∧ s.notifier = base.notifier ∧ s.listener = base.listener
  untouched : ∀ it, base.roster.Service it → Untouched base s it

theorem Staffed.service_iff (staffed : Staffed base s) : s.roster.Service it ↔ base.roster.Service it := by
  obtain ⟨timer, notifier, listener⟩ := staffed.services
  simp only [Roster.Service, roster, timer, notifier, listener]

/-- A service that never expires is of no concern to an event in time. -/
theorem Staffed.spared (staffed : Staffed base s) (service : base.roster.Service (.sock id)) {f : Fd}
    (registered : base.sockets.get id = some ⟨f, .new f .IN INFINITE_TIMEOUT 0⟩) (early : s.inTime event = true) :
    s.concerns (.sock id) event = false := by
  have live : s.sockets.get id = _ := ((staffed.untouched _ service).socket id rfl).trans registered
  rw [concerns, deaf_service staffed.regular (staffed.service_iff.mpr service), Bool.false_or]
  cases installed : s.handlers event.fd with
  | none => rfl
  | some h =>
    cases h with
    | timer =>
      simp only [inTime, installed, decide_eq_true_eq] at early
      have later : ¬0 + INFINITE_TIMEOUT ≤ s.ticks + event.io.ticked * TICK_INTERVAL := by omega
      simpa [sweeps, live, EpollElem.new] using fun _ => later
    | _ => rfl

variable {timer notifier listener : Fd} {events : List Event}

theorem registered (service : (init timer notifier listener).roster.Service it) :
    ∃ id f, it = .sock id ∧ (init timer notifier listener).sockets.get id = some ⟨f, .new f .IN INFINITE_TIMEOUT 0⟩ := by
  rcases service with rfl | rfl | rfl
  · exact ⟨0, timer, rfl, rfl⟩
  · exact ⟨1, notifier, rfl, rfl⟩
  · exact ⟨2, listener, rfl, rfl⟩

theorem service_of_lt {id : Nat} (below : id < 3) : (init timer notifier listener).roster.Service (.sock id) := by
  obtain rfl | rfl | rfl : id = 0 ∨ id = 1 ∨ id = 2 := by omega
  · exact Or.inl rfl
  · exact Or.inr (Or.inl rfl)
  · exact Or.inr (Or.inr rfl)

theorem services_step (stepped : s.step event = .ok t) (regular : Regular s) :
    t.timer = s.timer ∧ t.notifier = s.notifier ∧ t.listener = s.listener := by
  by_cases timer : s.handlers event.fd = some .timer
  · have after := timer_step timer stepped
    split at after
    · exact after ▸ ⟨rfl, rfl, rfl⟩
    · exact after ▸ ⟨rfl, rfl, rfl⟩
  · exact (step_kept regular (regular.known _ (Or.inl rfl)) (deaf_service regular (Or.inl rfl) event) timer stepped).services

theorem Staffed.step (staffed : Staffed (init timer notifier listener) s) (early : s.inTime event = true)
    (stepped : s.step event = .ok t) : Staffed (init timer notifier listener) t := by
  obtain ⟨timer', notifier', listener'⟩ := services_step stepped staffed.regular
  obtain ⟨timer'', notifier'', listener''⟩ := staffed.services
  refine ⟨staffed.regular.step stepped, ⟨timer'.trans timer'', notifier'.trans notifier'', listener'.trans listener''⟩, ?_⟩
  intro it service
  obtain ⟨id, f, rfl, registered⟩ := registered service
  have known := staffed.regular.known _ (staffed.service_iff.mpr service)
  have other := staffed.spared service registered early
  exact (staffed.untouched _ service).trans (step_untouched staffed.regular known other stepped).1

theorem init_staffed (opens : Opens timer notifier listener) :
    Staffed (init timer notifier listener) (init timer notifier listener) :=
  ⟨init_regular opens, ⟨rfl, rfl, rfl⟩, fun it _ => Untouched.refl _ it⟩

theorem Staffed.manned (staffed : Staffed (init timer notifier listener) s) : s.roster.Manned := by
  intro id service
  have service := staffed.service_iff.mp service
  obtain ⟨id', f, same, registered⟩ := registered service
  cases same
  have live : s.sockets.get id = _ := ((staffed.untouched _ service).socket id rfl).trans registered
  show (s.sockets.get id).isSome = true
  rw [live]
  rfl

/-- No handler misses a service. -/
theorem Staffed.attends (staffed : Staffed (init timer notifier listener) s) (failed : s.step event = .error e) :
    e ≠ .service := by
  rintro rfl
  cases installed : s.handlers event.fd with
  | none =>
    rw [Proxy.step, installed] at failed
    cases failed
  | some h =>
    rw [step_run installed] at failed
    have failed := Runs.map_error.mp failed
    by_cases timer : h = .timer
    · subst timer
      have there : (s.sockets.get s.timer).isSome = true := staffed.manned s.timer (Or.inl rfl)
      have runs : wp (· ≠ .service) (onTimer event.state event.io) (fun _ _ => True) s := by
        rw [onTimer, wp_whenever]
        refine ⟨fun _ => ?_, fun _ => trivial⟩
        simp only [service, Proxy.live, there, if_true, wp_bind, wp_get, wp_pure, wp_modify]
      exact wp_error (E := (· ≠ .service)) runs failed rfl
    · have known := staffed.regular.known _ (Or.inl rfl)
      have deaf := deaf_service staffed.regular (Or.inl rfl) event
      have runs := tends_run staffed.regular known deaf installed timer
      exact wp_error runs failed rfl staffed.manned

theorem run_staffed (opens : Opens timer notifier listener)
    (early : Runs.Along step (fun s event => s.inTime event = true) (init timer notifier listener) events)
    (ran : Runs.run step (init timer notifier listener) events = .ok t) : Staffed (init timer notifier listener) t :=
  Runs.invariant_along (init_staffed opens) (fun _ _ _ => Staffed.step) early ran

/-- While the clock is below their timeout, the timer, the notifier and the listener stay as
they were registered, with their handlers; no other element gets one of their descriptors, and
no handler misses one of them. -/
theorem services_stay (opens : Opens timer notifier listener)
    (early : Runs.Along step (fun s event => s.inTime event = true) (init timer notifier listener) events) :
    Runs.run step (init timer notifier listener) events ≠ .error .service ∧
    ∀ t, Runs.run step (init timer notifier listener) events = .ok t →
      (∀ id < 3, Untouched (init timer notifier listener) t (.sock id)) ∧
      ∀ r e, t.elem r = some e → e.fd ∈ [timer, notifier, listener] → ∃ id < 3, r = .sock id := by
  refine ⟨fun failed => ?_, fun t ran => ?_⟩
  · obtain ⟨s, event, staffed, -, fails⟩ := Runs.failure_along (init_staffed opens) (fun _ _ _ => Staffed.step) early failed
    exact staffed.attends fails rfl
  have staffed := run_staffed opens early ran
  have kept : ∀ id < 3, Untouched (init timer notifier listener) t (.sock id) :=
    fun id below => staffed.untouched _ (service_of_lt below)
  refine ⟨kept, fun r e here member => ?_⟩
  have owns : ∀ {id f}, id < 3 → (init timer notifier listener).sockets.get id =
      some ⟨f, .new f .IN INFINITE_TIMEOUT 0⟩ → e.fd = f → r = .sock id := by
    intro id f below registered same
    have live : t.sockets.get id = _ := ((kept id below).socket id rfl).trans registered
    refine staffed.regular.sound.own.unique (f := f) ?_ ?_
    · rw [view_fd, here, Option.map_some, same]
    · simp [view_fd, elem, live, EpollElem.new]
  simp only [List.mem_cons, List.not_mem_nil, or_false] at member
  rcases member with same | same | same
  · exact ⟨0, by decide, owns (by decide) rfl same⟩
  · exact ⟨1, by decide, owns (by decide) rfl same⟩
  · exact ⟨2, by decide, owns (by decide) rfl same⟩

theorem services_stay_expiring :
    ∃ t, Runs.run step (init 3 4 5) [accepts 6, receives 6 (postTo (lit "h")), expires 120, accepts 6] = .ok t ∧
      ∀ id < 3, Untouched (init 3 4 5) t (.sock id) := by
  obtain ⟨t, ran⟩ : ∃ t, Runs.run step (init 3 4 5) [accepts 6, receives 6 (postTo (lit "h")), expires 120, accepts 6] =
    .ok t := Runs.run_ends (by decide +kernel)
  exact ⟨t, ran, ((services_stay opens_345 (by decide +kernel)).2 t ran).1⟩

/-! ### Runs that do not fail -/

/-- In the step the system calls return what the handlers are prepared for, what they return is
possible, and no handler goes on with what it closed or leaves a pending resolution behind. -/
def tolerates (s : Proxy) (event : Event) : Bool :=
  s.possible event && !s.raises event && s.returnsClosed event && s.keepsPending event && s.inTime event

theorem tolerates_iff : s.tolerates event = true ↔ s.possible event = true ∧ s.raises event = false ∧
    s.returnsClosed event = true ∧ s.keepsPending event = true ∧ s.inTime event = true := by
  simp only [tolerates, Bool.and_eq_true, Bool.not_eq_true', and_assoc]

/-- What the server needs in order to take a step. -/
structure Fit (base s : Proxy) : Prop where
  staffed : Staffed base s
  stowed : s.manifest.Stowed
  sound : s.view.Sound { closes := True, pending := True }

theorem careful_of_tolerates (tolerates : s.tolerates event = true) :
    s.Careful { closes := True, pending := True } event := by
  obtain ⟨-, -, closes, pending, -⟩ := tolerates_iff.mp tolerates
  exact { closes := fun _ => closes
          pending := fun _ => pending
          current := False.elim
          answers := fun _ _ _ _ _ _ _ => trivial
          validates := fun _ _ _ _ _ _ _ => trivial
          opens := fun _ _ => trivial }

theorem Fit.step (fit : Fit (init timer notifier listener) s) (tolerates : s.tolerates event = true)
    (stepped : s.step event = .ok t) : Fit (init timer notifier listener) t where
  staffed := fit.staffed.step (tolerates_iff.mp tolerates).2.2.2.2 stepped
  stowed := stowed_step fit.staffed.regular.sound fit.stowed stepped
  sound := sound_step fit.sound (careful_of_tolerates tolerates) stepped

/-- Every failure of a step has its reason in the event. -/
theorem Fit.succeeds (fit : Fit (init timer notifier listener) s) (tolerates : s.tolerates event = true) :
    s.step event ≠ .error e := by
  intro failed
  obtain ⟨possible, calm, -, -, -⟩ := tolerates_iff.mp tolerates
  have explains : s.Explains event e := explains_step fit.staffed.regular.sound fit.stowed failed
  have allowed := allows_step fit.sound (careful_of_tolerates tolerates) failed
  cases e with
  | disabled =>
    have impossible : s.possible event = false := explains
    rw [possible] at impossible
    cases impossible
  | uncaught =>
    have raises : s.raises event = true := explains
    rw [calm] at raises
    cases raises
  | useAfterClose it => exact allowed trivial
  | endIterator => exact allowed trivial
  | nullElem => exact allowed
  | service => exact fit.staffed.attends failed rfl
  | outOfBounds => exact explains
  | cache => exact explains

/-- The server runs on: a run does not fail when in every step what is reported is possible and
parsed, no handler goes on with an entry that it closed, no pending resolution is left behind
that is looked up later, and the clock is below the timeout of the services. -/
theorem stays_up (opens : Opens timer notifier listener)
    (tolerable : Runs.Along step (fun s event => s.tolerates event = true) (init timer notifier listener) events) :
    ∃ t, Runs.run step (init timer notifier listener) events = .ok t := by
  cases ran : Runs.run step (init timer notifier listener) events with
  | ok t => exact ⟨t, rfl⟩
  | error e =>
    have fit : Fit (init timer notifier listener) (init timer notifier listener) :=
      ⟨init_staffed opens, init_stowed timer notifier listener, init_sound opens fun _ => trivial⟩
    obtain ⟨s, event, fit, tolerates, failed⟩ := Runs.failure_along fit (fun _ _ _ => Fit.step) tolerable ran
    exact absurd failed (fit.succeeds tolerates)

theorem stays_up_validation : ∃ t, Runs.run step (init 3 4 5) (validation notModified ++ [expires 120, expires 600]) = .ok t :=
  stays_up opens_345 (by decide +kernel)

end Proxy

end ProxyServer
