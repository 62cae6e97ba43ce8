import ProxyServer.Server.Resolution

/-!
# Batches of events

`epoll_wait` returns events of several descriptors, and a handler is looked up by the
number of the descriptor when its event is dispatched. An event that is behind others
in its batch may find the handler of a descriptor that was opened in the meantime.
-/

namespace ProxyServer

/-- `start_wait` with the proxy, between two events of a batch. -/
structure Loop where
  proxy : Proxy
  /-- The descriptors whose registrations are those of when the batch was returned: not
  in the source. -/
  kept : Fd → Bool
  /-- What `accept` and `socket` have returned since then: not in the source. -/
  fresh : List Fd

namespace Loop

def init (timer notifier listener : Fd) : Loop where
  proxy := .init timer notifier listener
  kept _ := false
  fresh := []

/-- `epoll_wait` returns. -/
def returned (l : Loop) : Loop := { l with kept := l.proxy.owned, fresh := [] }

/-- The handler of the event runs, if there is one. -/
def dispatch (l : Loop) (event : Event) : Except Fault Loop :=
  (l.proxy.step event).map fun t =>
    { proxy := t
      kept := fun fd => l.kept fd && t.owned fd
      fresh := l.fresh ++ (l.proxy.opened event).toList }

def batch (l : Loop) (events : List Event) : Except Fault Loop := Runs.run dispatch l.returned events

/-- The event reaches the registration that it was reported for, or none. -/
def Delivers (l : Loop) (event : Event) : Prop := (l.proxy.handlers event.fd).isSome = true → l.kept event.fd = true

/-- Every event of the batch is delivered. -/
def Faithful (l : Loop) (events : List Event) : Prop := Runs.Along dispatch Delivers l.returned events

/-- The number of the event was not returned by `accept` or `socket` in the same batch,
or there is no handler. -/
def Unopened (l : Loop) (event : Event) : Prop := (l.proxy.handlers event.fd).isSome = true → event.fd ∉ l.fresh

def Spares (l : Loop) (events : List Event) : Prop := Runs.Along dispatch Unopened l.returned events

/-- The kernel reports events of registered descriptors, and opens the lowest number
that is free; those of `system` are never free. -/
structure Kernel (system : List Fd) (l : Loop) (events : List Event) : Prop where
  reported : ∀ e ∈ events, l.proxy.owned e.fd = true
  lowest : Runs.Along dispatch (fun l e => ∀ fd ∈ l.proxy.opened e, ∀ k < fd, k ∈ system ∨ l.proxy.owned k = true)
    l.returned events

end Loop

namespace Proxy

open Registry

variable {s t : Proxy} {event : Event} {fd : Fd}

theorem owned_iff : s.owned fd = true ↔ ∃ r, s.view.fd? r = some fd := by
  constructor
  · intro owned
    rw [Proxy.owned, Bool.or_eq_true, Store.any_iff, Store.any_iff] at owned
    rcases owned with ⟨id, entry, live, here⟩ | ⟨c, conn, live, here⟩
    · refine ⟨.sock id, ?_⟩
      rw [view_fd]
      simpa [elem, live] using here
    · rw [Bool.or_eq_true, decide_eq_true_eq, decide_eq_true_eq] at here
      rcases here with client | server
      · refine ⟨.client c, ?_⟩
        rw [view_fd]
        simpa [elem, live] using client
      · refine ⟨.server c, ?_⟩
        rw [view_fd]
        simpa [elem, live] using server
  · rintro ⟨r, owner⟩
    rw [view_fd] at owner
    obtain ⟨e, here, rfl⟩ := Option.map_eq_some_iff.mp owner
    exact owned_of_elem here

theorem Sound.confine {v : Registry} (sound : v.Sound {}) {opens : Fd → Prop}
    (confined : ∀ {r f}, v.fd? r = some f → opens f) : v.Sound { opens } where
  own := sound.own
  awaited := False.elim
  current := False.elim
  isolated := False.elim
  relies := sound.relies
  heard := sound.heard
  recorded := sound.recorded
  confined := confined
  asked := sound.asked

theorem owned_step (sound : s.view.Sound {}) (stepped : s.step event = .ok t) (owned : t.owned fd = true) :
    s.owned fd = true ∨ s.opened event = some fd := by
  let guard : Guard := { opens := fun fd => s.owned fd = true ∨ s.opened event = some fd }
  have start : s.view.Sound guard := Sound.confine sound fun {r f} owner => Or.inl (owned_iff.mpr ⟨r, owner⟩)
  have careful : s.Careful guard event :=
    { closes := False.elim
      pending := False.elim
      current := False.elim
      answers := fun _ _ _ _ _ _ _ => trivial
      validates := fun _ _ _ _ _ _ _ => trivial
      opens := fun _ opened => Or.inr opened }
  obtain ⟨r, owner⟩ := owned_iff.mp owned
  exact (sound_step start careful stepped).confined owner

theorem acts_newDescriptor_owned {v : Registry} {io : Io} {r : ElemRef} {Q : Option Fd → Registry → Prop}
    (opened : io.newFd = some fd) (owner : v.fd? r = some fd) : Acts (fun _ => True) (newDescriptor io) Q v := by
  apply acts_newDescriptor io trivial
  · intro f same _ unowned
    rw [opened] at same
    cases same
    exact absurd owner (unowned r)
  · intro none
    rw [opened] at none
    cases none

theorem acts_opens_owned {v : Registry} {state : FdState} {io : Io} {r : ElemRef} (it : Proxy → SocketId)
    (next : Option Fd → ProxyM Unit) (input : state.is .IN = true) (opened : io.newFd = some fd)
    (owner : v.fd? r = some fd) : Acts (fun _ => True)
      (Wp.whenever (state.is .IN) (do service (it (← get)); let d ← newDescriptor io; next d)) (fun _ _ => False) v := by
  apply Acts.whenever
  · intro _
    apply Acts.get
    intro _ _
    apply Acts.bind (acts_service _ trivial _)
    exact Acts.bind (acts_newDescriptor_owned opened owner)
  · intro output
    rw [input] at output
    cases output

theorem opened_unowned (stepped : s.step event = .ok t) (opened : s.opened event = some fd) : s.owned fd = false := by
  by_contra owned
  rw [Bool.not_eq_false] at owned
  obtain ⟨r, owner⟩ := owned_iff.mp owned
  cases installed : s.handlers event.fd with
  | none => simp [Proxy.opened, installed] at opened
  | some h =>
    have fails : Acts (fun _ => True) (h.run event.state event.io) (fun _ _ => False) s.view := by
      cases h with
      | listener =>
        simp only [Proxy.opened, installed, Option.ite_none_right_eq_some] at opened
        exact acts_opens_owned (·.listener) _ opened.1 opened.2 owner
      | notifier =>
        simp only [Proxy.opened, installed, Option.ite_none_right_eq_some] at opened
        exact acts_opens_owned (·.notifier) _ opened.1 opened.2 owner
      | _ => simp [Proxy.opened, installed] at opened
    exact step_acts installed fails stepped

end Proxy

namespace Loop

open Registry

variable {timer notifier listener : Fd} {l l' : Loop} {event : Event} {events : List Event}

/-- What is known within a batch of the descriptors that are owned. -/
structure Tracks (l : Loop) : Prop where
  sound : l.proxy.view.Sound {}
  kept : ∀ {fd}, l.kept fd = true → l.proxy.owned fd = true
  fresh : ∀ {fd}, fd ∈ l.fresh → l.kept fd = false
  known : ∀ {fd}, l.proxy.owned fd = true → l.kept fd = true ∨ fd ∈ l.fresh

theorem tracks_returned (sound : l.proxy.view.Sound {}) : l.returned.Tracks := by
  constructor
  · exact sound
  · exact fun owned => owned
  · intro fd none
    cases none
  · exact fun owned => Or.inl owned

theorem Tracks.dispatch (tracks : l.Tracks) (dispatched : l.dispatch event = .ok l') : l'.Tracks := by
  obtain ⟨sound, kept, fresh, known⟩ := tracks
  unfold Loop.dispatch at dispatched
  cases stepped : l.proxy.step event with
  | error e =>
    rw [stepped] at dispatched
    cases dispatched
  | ok t =>
    rw [stepped] at dispatched
    cases dispatched
    constructor
    · exact Proxy.sound_step sound (Proxy.careful_always _ _) stepped
    · intro fd both
      exact (Bool.and_eq_true_iff.mp both).2
    · intro fd either
      rcases List.mem_append.mp either with old | new
      · show (l.kept fd && t.owned fd) = false
        rw [fresh old, Bool.false_and]
      · have unowned := Proxy.opened_unowned stepped (Option.mem_toList.mp new)
        show (l.kept fd && t.owned fd) = false
        cases before : l.kept fd with
        | false => rfl
        | true =>
          rw [kept before] at unowned
          cases unowned
    · intro fd owned
      rcases Proxy.owned_step sound stepped owned with before | opened
      · rcases known before with stays | old
        · exact Or.inl (Bool.and_eq_true_iff.mpr ⟨stays, owned⟩)
        · exact Or.inr (List.mem_append_left _ old)
      · exact Or.inr (List.mem_append_right _ (Option.mem_toList.mpr opened))

/-- A handler is that of an owned descriptor, which was kept or opened. -/
theorem Tracks.delivers_iff (tracks : l.Tracks) (event : Event) : l.Delivers event ↔ l.Unopened event := by
  unfold Delivers Unopened
  apply forall_congr'
  intro handled
  obtain ⟨h, installed⟩ := Option.isSome_iff_exists.mp handled
  have owned : l.proxy.owned event.fd = true :=
    Proxy.owned_iff.mpr ⟨_, (tracks.sound.own.owns (h := h) installed).2⟩
  constructor
  · intro kept opened
    rw [tracks.fresh opened] at kept
    cases kept
  · intro unopened
    exact (tracks.known owned).resolve_right unopened

theorem faithful_iff_spares (sound : l.proxy.view.Sound {}) (events : List Event) :
    l.Faithful events ↔ l.Spares events := by
  unfold Faithful Spares
  apply Runs.along_iff (I := Tracks) (tracks_returned sound)
  · intro l event l' tracks dispatched
    exact tracks.dispatch dispatched
  · intro l event tracks
    exact tracks.delivers_iff event

theorem sound_batch (sound : l.proxy.view.Sound {}) (ran : l.batch events = .ok l') : l'.proxy.view.Sound {} := by
  have tracks : l'.Tracks := by
    apply Runs.invariant (tracks_returned sound) _ ran
    intro l event l' tracks dispatched
    exact tracks.dispatch dispatched
  exact tracks.sound

/-- Every event of every batch is delivered to the registration that it was reported for
if and only if none is dispatched for a number that was opened in its batch. -/
theorem delivered_iff_unopened (opens : Proxy.Opens timer notifier listener) (batches : List (List Event)) :
    Runs.Along batch Faithful (init timer notifier listener) batches ↔
      Runs.Along batch Spares (init timer notifier listener) batches := by
  have start : (init timer notifier listener).proxy.view.Sound {} := Proxy.init_sound opens fun _ => trivial
  apply Runs.along_iff (I := fun l => l.proxy.view.Sound {}) start
  · intro l events l' sound ran
    exact sound_batch sound ran
  · intro l events sound
    exact faithful_iff_spares sound events

/-! ### Three events in a batch -/

instance (l : Loop) (event : Event) : Decidable (l.Delivers event) :=
  inferInstanceAs (Decidable ((l.proxy.handlers event.fd).isSome = true → l.kept event.fd = true))

instance (l : Loop) (event : Event) : Decidable (l.Unopened event) :=
  inferInstanceAs (Decidable ((l.proxy.handlers event.fd).isSome = true → event.fd ∉ l.fresh))

instance (l : Loop) (events : List Event) : Decidable (l.Faithful events) :=
  inferInstanceAs (Decidable (Runs.Along dispatch Delivers l.returned events))

instance (l : Loop) (events : List Event) : Decidable (l.Spares events) :=
  inferInstanceAs (Decidable (Runs.Along dispatch Unopened l.returned events))

instance (system : List Fd) (l : Loop) (events : List Event) : Decidable (l.Kernel system events) :=
  decidable_of_iff ((∀ e ∈ events, l.proxy.owned e.fd = true) ∧
      Runs.Along dispatch (fun l e => ∀ fd ∈ l.proxy.opened e, ∀ k < fd, k ∈ system ∨ l.proxy.owned k = true)
        l.returned events)
    ⟨fun both => ⟨both.1, both.2⟩, fun kernel => ⟨kernel.reported, kernel.lowest⟩⟩

/-- The peer of `fd` is gone. -/
def hangsUp (fd : Fd) : Event where
  fd
  state := .union .RDHUP Proxy.hupOrError
  io := { Proxy.quiet with canRead := some 0 }

/-- A client is connected to a server, and both are gone. -/
def bothGone : List (List Event) :=
  [[Proxy.accepts 6], [Proxy.receives 6 (Proxy.postTo (lit "h"))], [Proxy.resolves 7], [Proxy.connects 7],
    [hangsUp 7, hangsUp 6]]

theorem both_gone_delivered : Runs.Along batch Faithful (init 3 4 5) bothGone :=
  (delivered_iff_unopened Proxy.opens_345 bothGone).mpr (by decide +kernel)

/-- Between the two another client is accepted, which gets the number of the first and
its event. -/
def anotherAccepted : List (List Event) :=
  [[Proxy.accepts 6], [Proxy.receives 6 (Proxy.postTo (lit "h"))], [Proxy.resolves 7], [Proxy.connects 7],
    [hangsUp 7, Proxy.accepts 6, hangsUp 6]]

theorem fresh_client_killed : ¬∀ (timer notifier listener : Fd) (system : List Fd) (batches : List (List Event)),
    Proxy.Opens timer notifier listener →
      Runs.Along batch (Kernel system) (init timer notifier listener) batches →
      Runs.Along batch Faithful (init timer notifier listener) batches := by
  intro claim
  have delivered := claim 3 4 5 [0, 1, 2] anotherAccepted Proxy.opens_345 (by decide +kernel)
  revert delivered
  decide +kernel

end Loop

end ProxyServer
