import ProxyServer.Server.InBounds
import ProxyServer.Server.Resolution

/-!
# How the server fails

The handlers that connect, and from the step of every handler what a run can fail of.
-/

namespace ProxyServer

open Wp

namespace Proxy

open Registry

variable {E : Fault → Prop} {s : Proxy} {v : Registry} {r other : ElemRef} {it : EntryRef} {id : SocketId} {c : ConnId}
  {io : Io} {state : FdState} {f : Fd} {host : Bytes} {n : MsgId} {key : Fd × Bytes} {query : Option Pending}

/-! ### Handlers that keep to their own messages -/

theorem growing_erasePending : Growing E (erasePending key) := by
  intro s cache
  refine Manifest.Grows.of_fewer (m := s.manifest) cache id fun {other q} found => ?_
  change (if other = key then none else s.onResolve other) = some q at found
  split at found
  · cases found
  · exact found

theorem wp_newDescriptor {Q : Option Fd → Proxy → Prop}
    (disabled : ∀ fd, io.newFd = some fd → (fd = 0 ∨ s.owned fd = true) → E .disabled) (h : Q io.newFd s) :
    wp E (newDescriptor io) Q s := by
  unfold newDescriptor
  cases opened : io.newFd with
  | none =>
    rw [opened] at h
    exact h
  | some fd =>
    rw [opened] at h
    simp only [wp_bind, wp_get]
    split
    · rename_i taken
      exact disabled fd opened taken
    · exact h

theorem idle_setRaw {raw : RawMessage} : Idle E (setRaw n raw) := fun _ => rfl

section Lenient

variable (lenient : Lenient E)

include lenient

theorem growing_eraseFound : Growing E (eraseFound key query) := by
  unfold eraseFound
  split
  · exact growing_erasePending
  · exact (idle_throw lenient.iterator).growing

theorem growing_onResolving : Growing E (onResolving id host state) := by
  unfold onResolving
  refine growing_whenever fun _ => (idle_touch lenient).before fun _ => (idle_getElem lenient).before fun e => ?_
  refine idle_get.before fun s => growing_bind (growing_eraseFound lenient) fun _ => ?_
  exact growing_closeSocket lenient

theorem growing_onConnecting {socket : Fd} : Growing E (onConnecting c socket host state) := by
  unfold onConnecting
  refine growing_whenever fun _ => (idle_touch lenient).before fun _ => growing_bind growing_erasePending fun _ => ?_
  exact growing_closeConnection lenient

theorem growing_giveUp : Growing E (giveUp c key query io) := by
  unfold giveUp
  refine (idle_touch lenient).before fun _ => growing_bind (growing_eraseFound lenient) fun _ => ?_
  refine growing_bind (growing_escapeClient lenient) fun client => growing_bind (growing_send404 lenient) fun _ => ?_
  exact growing_closeConnection lenient

theorem growing_mask {g : EpollElem → FdState} : Growing E (do let e ← getElem r; updateState r (g e)) :=
  (idle_getElem lenient).before fun _ => (idle_updateState lenient).growing

/-- What the messages hold sets the masks of the two sides. -/
theorem growing_masks {a b : Proxy → Bool} {g g' : EpollElem → FdState} :
    Growing E (do
      let s ← get
      Wp.whenever (a s) (do let e ← getElem r; updateState r (g e))
      Wp.whenever (b s) (do let e ← getElem other; updateState other (g' e))) :=
  idle_get.before fun _ => growing_bind (growing_whenever fun _ => growing_mask lenient) fun _ =>
    growing_whenever fun _ => growing_mask lenient

theorem growing_connectTransferIn : Growing E (connectTransferIn c r other n io) := by
  unfold connectTransferIn
  refine (idle_getElem lenient).before fun _ => idle_get.before fun s => ?_
  split
  · exact growing_bind (growing_logAndClose lenient) fun _ => growing_masks lenient
  · exact idle_setRaw.before fun _ => growing_masks lenient

theorem growing_connectTransferOut : Growing E (connectTransferOut c r other n io) := by
  unfold connectTransferOut
  refine (idle_getElem lenient).before fun _ => idle_get.before fun s => ?_
  split
  · exact growing_bind (growing_logAndClose lenient) fun _ => growing_masks lenient
  · exact idle_setRaw.before fun _ => growing_masks lenient

theorem growing_onConnectTransfer {inMessage outMessage : MsgId} :
    Growing E (onConnectTransfer c r other inMessage outMessage state io) := by
  unfold onConnectTransfer
  refine (idle_setActive lenient).before fun _ => ?_
  split
  · exact growing_logAndClose lenient
  · refine idle_get.before fun s => growing_bind (growing_whenever fun _ => growing_connectTransferIn lenient) fun _ => ?_
    exact idle_get.before fun s => growing_whenever fun _ => growing_connectTransferOut lenient

theorem growing_onTimer : Growing E (onTimer state io) := by
  unfold onTimer
  refine growing_whenever fun _ => idle_get.before fun s => (idle_service lenient).before fun _ => ?_
  refine growing_bind (fun s cache => ?_) fun _ s cache => ?_
  · refine Manifest.Grows.of_fewer (m := s.manifest) cache (fun {f h} installed => ?_) id
    dsimp only [view, sweepSockets] at installed
    split at installed
    · cases installed
    · exact installed
  · refine Manifest.Grows.of_fewer (m := s.manifest) cache (fun {f h} installed => ?_) id
    dsimp only [view, sweepConnections] at installed
    split at installed
    · cases installed
    · exact installed

theorem grown_onListener (cache : s.cache.Orderly)
    (disabled : state.is .IN = true → ∀ fd, io.newFd = some fd → (fd = 0 ∨ s.owned fd = true) → E .disabled) :
    wp E (onListener state io) (fun _ t => s.manifest.Grows t.manifest) s := by
  rw [onListener, wp_whenever]
  refine ⟨fun input => ?_, fun _ => Manifest.Grows.refl cache⟩
  rw [wp_bind, wp_get, wp_bind]
  refine wp_service _ lenient.service ?_
  rw [wp_bind]
  refine wp_newDescriptor (disabled input) ?_
  split
  · exact Manifest.Grows.refl cache
  · refine (idle_get.before fun s => growing_bind growing_insertSocket fun client => ?_) s cache
    exact growing_readRequest lenient

theorem growing_startConnection {destination : Fd} {ip : ResolvedIp} : Growing E (startConnection id destination ip io) := by
  unfold startConnection
  refine (idle_getElem lenient).before fun e => (idle_modify fun _ => manifest_setElem).before fun _ => ?_
  refine idle_get.before fun s => growing_bind (growing_closeSocket lenient) fun _ => idle_get.before fun s' => ?_
  dsimp only
  refine Idle.before (idle_modify fun s => ?_) fun _ => idle_observe.before fun _ => ?_
  · rfl
  refine growing_bind (growing_update lenient fun _ => trivial) fun _ s cache => ?_
  exact grown_updateHandler lenient cache trivial

/-- What the notifier does with a result. -/
theorem grown_onNotifier (cache : s.cache.Orderly)
    (raises : state.is .IN = true → io.newFd = none → E .uncaught)
    (disabled : state.is .IN = true → ∀ fd, io.newFd = some fd → (fd = 0 ∨ s.owned fd = true) → E .disabled)
    (empty : state.is .IN = true → s.resolving.length ≤ io.resolved → E .disabled) :
    wp E (onNotifier state io) (fun _ t => s.manifest.Grows t.manifest) s := by
  rw [onNotifier, wp_whenever]
  refine ⟨fun input => ?_, fun _ => Manifest.Grows.refl cache⟩
  rw [wp_bind, wp_get, wp_bind]
  refine wp_service _ lenient.service ?_
  rw [wp_bind]
  refine wp_newDescriptor (disabled input) ?_
  cases opened : io.newFd with
  | none => exact raises input opened
  | some destination =>
    have taken : wp E (getIp io) (fun _ t => s.manifest.Grows t.manifest) s := by
      rw [getIp, wp_bind, wp_get]
      split
      · exact Manifest.Grows.refl (m := s.manifest) cache
      · rename_i missing
        exact empty input (List.getElem?_eq_none_iff.mp missing)
    refine wp_then_growing taken fun ip => idle_get.before fun s => idle_get.before fun s' => ?_
    split
    · exact idle_pure.growing
    · refine growing_bind ?_ fun client => ?_
      · unfold derefClient
        split
        · exact idle_pure.growing
        · exact (idle_throw lenient.iterator).growing
      · split
        · exact growing_bind growing_erasePending fun _ => growing_send404 lenient
        · refine idle_observe.before fun _ => ?_
          split
          · exact growing_bind (growing_send404 lenient) fun _ => growing_erasePending
          · exact growing_startConnection lenient

theorem grown_onServerConnect {ip : ResolvedIp} (stowed : s.manifest.Stowed)
    (raises : writingRaises state io = true → E .uncaught) :
    wp E (onServerConnect c ip state io) (fun _ t => s.manifest.Grows t.manifest) s := by
  unfold onServerConnect
  refine (idle_getElem lenient).then fun server t same => (idle_setActive lenient).then fun _ u same' => ?_
  have before : u.manifest = s.manifest := same'.trans same
  rw [← before] at stowed ⊢
  have cache : u.cache.Orderly := stowed.cache
  rw [wp_bind, wp_get]
  split
  · exact growing_giveUp lenient u cache
  · rename_i stays
    split
    · rename_i failed
      refine (idle_touch lenient).then fun _ w same => ?_
      have cache : w.cache.Orderly := by
        have kept : w.cache = u.cache := congrArg Manifest.cache same
        exact kept ▸ cache
      rw [← same]
      cases code : io.soError with
      | none => exact raises (by simp [writingRaises, stays, failed, code])
      | some n =>
        dsimp only
        split
        · split
          · exact growing_giveUp lenient w cache
          · refine (idle_observe.before fun _ => ?_) w cache
            split
            · exact growing_giveUp lenient
            · exact idle_pure.growing
        · exact growing_giveUp lenient w cache
    · refine (growing_whenever fun _ => (idle_touch lenient).before fun _ => ?_) u cache
      split
      · exact (idle_throw lenient.iterator).growing
      · rename_i pending found
        have sendable : pending.next.request.Sendable := stowed.pending found
        refine growing_bind growing_erasePending fun _ => (idle_updateState lenient).before fun _ => ?_
        refine (idle_updateState lenient).before fun _ => (idle_changeTimeout lenient).before fun _ => ?_
        refine (idle_getElem lenient).before fun client => idle_observe.before fun _ => ?_
        exact growing_afterConnect lenient sendable

end Lenient

/-! ### The step -/

variable {event : Event} {h : Handler} {t : Proxy} {e : Fault}

theorem lenient_explains (s : Proxy) (event : Event) : Lenient (s.Explains event) where
  closed _ := trivial
  iterator := trivial
  null := trivial
  service := trivial

theorem raises_of (installed : s.handlers event.fd = some h)
    (raises : h.raises s.requests s.responses event.state event.io = true) : s.Explains event .uncaught := by
  show s.raises event = true
  rw [Proxy.raises, installed]
  exact raises

/-- What is opened that is open already is impossible. -/
theorem disabled_of_open {fd : Fd} (opened : s.opened event = some fd) (taken : fd = 0 ∨ s.owned fd = true) :
    s.Explains event .disabled := by
  show s.possible event = false
  have stale : s.opensFresh event = false := by
    rw [opensFresh, opened, Option.all_some]
    rcases taken with zero | owned
    · simp [zero]
    · simp [owned]
  rw [possible, stale, Bool.false_and]

theorem disabled_of_empty (installed : s.handlers event.fd = some .notifier) (input : event.state.is .IN = true)
    (empty : s.resolving.length ≤ event.io.resolved) : s.Explains event .disabled := by
  show s.possible event = false
  have none : s.resultReady event = false := by
    simp only [resultReady, installed, input, Bool.not_true, Bool.false_or, decide_eq_false_iff_not]
    exact Nat.not_lt_of_le empty
  rw [possible, none, Bool.and_false]

theorem stows_run (sound : s.view.Sound {}) (stowed : s.manifest.Stowed) (installed : s.handlers event.fd = some h) :
    wp (s.Explains event) (h.run event.state event.io) (fun _ t => t.manifest.Stowed) s := by
  have lenient := s.lenient_explains event
  have cache : s.cache.Orderly := stowed.cache
  have grown : ∀ {x : ProxyM Unit}, wp (s.Explains event) x (fun _ t => s.manifest.Grows t.manifest) s →
      wp (s.Explains event) x (fun _ t => t.manifest.Stowed) s := fun ran => wp_mono (fun _ _ grows => stowed.grows grows) ran
  have coherent := (sound.own.owns installed).1
  have bears := stowed.bears (f := event.fd) installed
  cases h with
  | listener =>
    refine grown (grown_onListener lenient cache fun input fd opened taken => disabled_of_open ?_ taken)
    rw [Proxy.opened, installed]
    exact (if_pos input).trans opened
  | notifier =>
    refine grown (grown_onNotifier lenient cache (fun input none => raises_of installed ?_)
      (fun input fd opened taken => disabled_of_open ?_ taken) fun input empty => disabled_of_empty installed input empty)
    · simp [Handler.raises, input, none]
    · rw [Proxy.opened, installed]
      exact (if_pos input).trans opened
  | timer => exact grown (growing_onTimer lenient s cache)
  | resolving id host => exact grown (growing_onResolving lenient s cache)
  | connecting c socket host => exact grown (growing_onConnecting lenient s cache)
  | serverConnect c ip =>
    exact grown (grown_onServerConnect lenient stowed fun raises => raises_of installed raises)
  | readRequest source message iterator next =>
    obtain ⟨rfl, named⟩ := coherent
    obtain ⟨reading, gathered, resumes⟩ : s.view.ledger.Reading (.request message) ∧
      (s.view.ledger.requests message).Gathered ∧ s.view.ledger.Resumes next := sound.relies installed
    refine stows_onReadable lenient stowed (fun raises => raises_of installed ?_) (fun reads => ?_) s rfl
    · simp [Handler.raises, raises]
    · refine stows_receiveRequest lenient sound stowed reading gathered fun escapes => raises_of installed ?_
      have escapes : (s.requests message).escapes event.io = true := escapes
      simp [Handler.raises, reads, escapes]
  | readResponse source message iterator next =>
    obtain ⟨rfl, named⟩ := coherent
    obtain ⟨reading, awaits⟩ : s.view.ledger.Reading (.response message) ∧ s.view.ledger.Awaits next :=
      sound.relies installed
    refine stows_onReadable lenient stowed (fun raises => raises_of installed ?_) (fun reads => ?_) s rfl
    · simp [Handler.raises, raises]
    · refine stows_receiveResponse lenient sound stowed reading bears fun escapes => raises_of installed ?_
      have escapes : (s.responses message).escapes event.io = true := escapes
      simp [Handler.raises, reads, escapes]
  | send dest message iterator next =>
    obtain ⟨rfl, follows⟩ := coherent
    refine stows_onWritable lenient stowed (fun raises => raises_of installed raises) (fun w Q ready => ?_) s rfl
    exact Acts.pure (ready true fun _ _ => stows_transmitMessage lenient sound stowed installed follows)
  | transferServer c rqst resp =>
    obtain ⟨reading, -⟩ : s.view.ledger.Reading (.response resp) ∧ _ := sound.relies installed
    obtain ⟨-, streams, -⟩ := bears
    refine stows_onReadable (r := .server c) lenient stowed (fun raises => raises_of installed ?_) (fun reads => ?_) s rfl
    · simp [Handler.raises, raises]
    · refine stows_transferIn lenient sound stowed reading streams fun escapes => raises_of installed ?_
      have escapes : (s.responses resp).escapes event.io = true := escapes
      simp [Handler.raises, reads, escapes]
  | transferClient c resp =>
    have reading : s.view.ledger.Reading (.response resp) := sound.relies installed
    refine stows_onWritable (r := .client c) lenient stowed (fun raises => raises_of installed raises)
      (fun w Q ready => Acts.get fun u same => Acts.pure (ready _ fun here canWrite => ?_)) s rfl
    refine stows_transferOut lenient sound stowed reading ?_
    have kept : u.responses = s.responses := congrArg (·.ledger.responses) (same.trans here)
    show (s.responses resp).canWrite = true
    rw [← kept]
    exact canWrite
  | reused c => exact grown ((growing_whenever fun _ => growing_logAndClose lenient) s cache)
  | connectTransfer c side inMessage outMessage =>
    cases side with
    | client => exact grown (growing_onConnectTransfer lenient s cache)
    | server => exact grown (growing_onConnectTransfer lenient s cache)

theorem stowed_step (sound : s.view.Sound {}) (stowed : s.manifest.Stowed) (stepped : s.step event = .ok t) :
    t.manifest.Stowed := by
  cases installed : s.handlers event.fd with
  | none =>
    rw [step_none installed stepped]
    exact stowed
  | some h => exact step_wp installed (stows_run sound stowed installed) stepped

theorem explains_step (sound : s.view.Sound {}) (stowed : s.manifest.Stowed) (failed : s.step event = .error e) :
    s.Explains event e := by
  cases installed : s.handlers event.fd with
  | none =>
    rw [step, installed] at failed
    cases failed
  | some h =>
    rw [step_run installed] at failed
    exact wp_error (stows_run sound stowed installed) (Runs.map_error.mp failed)

/-! ### Runs -/

variable {timer notifier listener : Fd} {events : List Event}

theorem init_stowed (timer notifier listener : Fd) : (init timer notifier listener).manifest.Stowed where
  bears installed := by
    rcases init_handlers installed with ⟨_, rfl⟩ | ⟨_, rfl⟩ | ⟨_, rfl⟩
    all_goals trivial
  pending := nofun
  cache := Cache.empty_orderly

theorem run_stowed (opens : Opens timer notifier listener) (ran : Runs.run step (init timer notifier listener) events = .ok t) :
    t.view.Sound {} ∧ t.manifest.Stowed := by
  refine Runs.invariant (I := fun s : Proxy => s.view.Sound {} ∧ s.manifest.Stowed) ?_ ?_ ran
  · exact ⟨init_sound opens fun _ => trivial, init_stowed timer notifier listener⟩
  · rintro s event s' ⟨sound, stowed⟩ stepped
    exact ⟨sound_step sound (careful_always _ _) stepped, stowed_step sound stowed stepped⟩

/-- A run fails in a step that explains it. -/
theorem run_explained (opens : Opens timer notifier listener)
    (failed : Runs.run step (init timer notifier listener) events = .error e) :
    ∃ before event after s, events = before ++ event :: after ∧
      Runs.run step (init timer notifier listener) before = .ok s ∧ s.step event = .error e ∧ s.Explains event e := by
  obtain ⟨before, event, after, s, split, ran, fails⟩ := Runs.failure_at failed
  obtain ⟨sound, stowed⟩ := run_stowed opens ran
  exact ⟨before, event, after, s, split, ran, fails, explains_step sound stowed fails⟩

/-- Whatever is reported, the server writes its messages within their bounds, follows no
invalid iterator of its cache, and uses no element that was moved from. At any time every
message that a handler sends is read and not written, and a message can be made of whatever
is cached. -/
theorem messages_in_bounds (opens : Opens timer notifier listener) (events : List Event) :
    (∀ e, Runs.run step (init timer notifier listener) events = .error e →
      e ≠ .outOfBounds ∧ e ≠ .cache ∧ e ≠ .nullElem) ∧
    ∀ t, Runs.run step (init timer notifier listener) events = .ok t →
      t.cache.Orderly ∧ ∀ f dest ref it next, t.handlers f = some (.send dest ref it next) → t.manifest.Sendable ref := by
  refine ⟨fun e failed => ?_, fun t ran => ?_⟩
  · obtain ⟨before, event, after, s, -, ran, fails, explains⟩ := run_explained opens failed
    refine ⟨?_, ?_, ?_⟩
    · rintro rfl
      exact explains
    · rintro rfl
      exact explains
    · rintro rfl
      exact allows_step (run_stowed opens ran).1 (careful_always _ _) fails
  · obtain ⟨-, stowed⟩ := run_stowed opens ran
    exact ⟨stowed.cache, fun f dest ref it next installed => (stowed.bears (f := f) installed).2.1⟩

theorem messages_in_bounds_sent :
    ∃ t, Runs.run step (init 3 4 5) [accepts 6, receives 6 (postTo (lit "h")), resolves 7, connects 7] = .ok t ∧
      ∀ f dest ref it next, t.handlers f = some (.send dest ref it next) → t.manifest.Sendable ref := by
  obtain ⟨t, ran⟩ : ∃ t, Runs.run step (init 3 4 5) [accepts 6, receives 6 (postTo (lit "h")), resolves 7, connects 7] =
    .ok t := Runs.run_ends (by decide +kernel)
  exact ⟨t, ran, ((messages_in_bounds opens_345 _).2 t ran).2⟩

end Proxy

end ProxyServer
