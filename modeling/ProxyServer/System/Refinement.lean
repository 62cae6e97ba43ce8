import ProxyServer.Resolver.Conservation
import ProxyServer.Server.Resolution
import ProxyServer.System.Machine

/-!
# The two agree on what is resolved

What the server takes to be with the resolver is what the resolver has not returned, in the
same order, so a run of the two is a run of each, and a result that the handler of the
notifier is given is there.
-/

namespace ProxyServer

namespace Resolver

variable {getaddrinfo : Bytes → Bytes → Option (List UInt32)} {s s' : Resolver} {i : Nat} {w : Worker} {e : ResolverEvent}

/-- An event that neither submits a host nor returns a result. -/
def Inner : ResolverEvent → Prop
  | .resolveHost .. => False
  | .getIp => False
  | .stop => False
  | .notifyAll => False
  | _ => True

/-- What the main thread knows of the resolver stays as it is. -/
structure Same (s s' : Resolver) : Prop where
  submitted : s'.submitted = s.submitted
  delivered : s'.delivered = s.delivered
  running : s'.shouldStop = s.shouldStop

theorem Same.outstanding (same : Same s s') : s'.outstanding = s.outstanding := by
  unfold Resolver.outstanding
  rw [same.submitted, same.delivered]

theorem work_same (works : Works getaddrinfo s i w s') : Same s s' := by
  cases works <;> exact ⟨rfl, rfl, rfl⟩

theorem inner_same (inner : Inner e) (steps : Steps getaddrinfo s e s') : Same s s' := by
  cases steps with
  | submits free => cases inner
  | delivers reading queue => cases inner
  | stops free => cases inner
  | notifiesAll stopping => cases inner
  | works here works => exact work_same works
  | _ => exact ⟨rfl, rfl, rfl⟩

theorem Accounted.nodup (accounted : s.Accounted) : s.submitted.Nodup := by
  apply List.Nodup.of_map (·.call)
  rw [accounted.numbered]
  exact List.nodup_range

theorem Accounted.known (accounted : s.Accounted) {x : Submission} (placed : x ∈ s.places) : x ∈ s.submitted :=
  accounted.placed.mem_iff.mp placed

theorem Accounted.fresh (accounted : s.Accounted) (extra : ResolverExtra) : ⟨s.submitted.length, extra⟩ ∉ s.submitted := by
  intro member
  have call : s.submitted.length ∈ s.submitted.map (·.call) := List.mem_map_of_mem (f := (·.call)) member
  rw [accounted.numbered] at call
  exact Nat.lt_irrefl _ (List.mem_range.mp call)

theorem delivered_places {x : Submission} (delivered : x ∈ s.delivered.map (·.submission)) : x ∈ s.places :=
  List.mem_append_right _ (List.mem_append_right _ (List.mem_append_right _ delivered))

theorem outstanding_submits (accounted : s.Accounted) (extra : ResolverExtra) :
    Tokens.out (s.submitted ++ [⟨s.submitted.length, extra⟩]) (s.delivered.map (·.submission)) =
      s.outstanding ++ [⟨s.submitted.length, extra⟩] :=
  Tokens.out_issue fun delivered => accounted.fresh extra (accounted.known (delivered_places delivered))

/-- A result that is taken was outstanding. -/
theorem Accounted.outstanding (accounted : s.Accounted) {result : Resolution} {rest : List Resolution}
    (queue : s.outQueue = result :: rest) : result.submission ∈ s.outstanding := by
  have apart : s.places.Nodup := accounted.placed.nodup_iff.mpr accounted.nodup
  have placed : result.submission ∈ s.outQueue.map (·.submission) := by
    rw [queue]
    exact List.mem_cons_self
  refine Tokens.mem_out.mpr ⟨accounted.known ?_, fun delivered => ?_⟩
  · exact List.mem_append_right _ (List.mem_append_right _ (List.mem_append_left _ placed))
  · obtain ⟨-, inner, -⟩ := List.nodup_append.mp apart
    obtain ⟨-, inner, -⟩ := List.nodup_append.mp inner
    obtain ⟨-, -, disjoint⟩ := List.nodup_append.mp inner
    exact disjoint _ placed _ delivered rfl

end Resolver

namespace ProxySystem

variable {getaddrinfo : Bytes → Bytes → Option (List UInt32)} {s t : ProxySystem} {e : SystemEvent}

/-! ### What holds between two events -/

structure Agrees (s : ProxySystem) : Prop where
  sound : s.proxy.view.Sound {}
  waiting : s.proxy.docket.Waiting
  accounted : s.resolver.Accounted
  flight : s.proxy.resolving = s.resolver.outstanding.map Submission.key
  running : s.resolver.shouldStop = false

/-- The event of the resolver that an event is. -/
def inner : SystemEvent → Option ResolverEvent
  | .handle _ => none
  | .notifyOne woken => some (.notifyOne woken)
  | .read => some .read
  | .work worker => some (.work worker)
  | .wake worker => some (.wake worker)

theorem resolve_ok {r : ResolverEvent} (resolved : s.resolve getaddrinfo r = .ok t) :
    ∃ resolver, s.resolver.step getaddrinfo r = .ok resolver ∧ t = { s with resolver } := by
  unfold resolve at resolved
  split at resolved
  · rename_i resolver stepped
    cases resolved
    exact ⟨resolver, stepped, rfl⟩
  · cases resolved

theorem serve_ok {event : Event} (served : s.serve event = .ok t) :
    ∃ proxy, s.proxy.step event = .ok proxy ∧ t = { s with proxy } := by
  unfold serve at served
  split at served
  · rename_i proxy stepped
    cases served
    exact ⟨proxy, stepped, rfl⟩
  · cases served

/-- What an event makes of the two. -/
inductive Stepped (getaddrinfo : Bytes → Bytes → Option (List UInt32)) (s : ProxySystem) :
    SystemEvent → ProxySystem → Prop where
  | inner {e : SystemEvent} {r : ResolverEvent} {resolver : Resolver} (same : inner e = some r)
      (stepped : s.resolver.step getaddrinfo r = .ok resolver) : Stepped getaddrinfo s e { s with resolver }
  | serves {event : Event} {proxy : Proxy} (quiet : s.proxy.notified event = false)
      (free : s.resolver.main = .free) (stepped : s.proxy.step event = .ok proxy)
      (none : proxy.resolving.drop s.proxy.resolving.length = []) : Stepped getaddrinfo s (.handle event) { s with proxy }
  | submits {event : Event} {proxy : Proxy} {resolver : Resolver} {key : Fd × Bytes} {keys : List (Fd × Bytes)}
      (quiet : s.proxy.notified event = false) (free : s.resolver.main = .free) (stepped : s.proxy.step event = .ok proxy)
      (one : proxy.resolving.drop s.proxy.resolving.length = key :: keys)
      (submitted : s.resolver.step getaddrinfo (.resolveHost key.2 ⟨key.1, key.2⟩) = .ok resolver) :
      Stepped getaddrinfo s (.handle event) { proxy, resolver }
  | answers {event : Event} {proxy : Proxy} {resolver : Resolver} {result : Resolution} {rest : List Resolution}
      (notified : s.proxy.notified event = true) (reading : s.resolver.main = .reading)
      (queue : s.resolver.outQueue = result :: rest)
      (stepped : s.proxy.step { event with io := s.resolver.answer event.io result } = .ok proxy)
      (taken : s.resolver.step getaddrinfo .getIp = .ok resolver) : Stepped getaddrinfo s (.handle event) { proxy, resolver }

theorem stepped (taken : s.step getaddrinfo e = .ok t) : Stepped getaddrinfo s e t := by
  have inner : ∀ r, inner e = some r → s.resolve getaddrinfo r = .ok t → Stepped getaddrinfo s e t := by
    intro r same resolved
    obtain ⟨resolver, stepped, rfl⟩ := resolve_ok resolved
    exact .inner same stepped
  cases e with
  | handle event =>
    change s.handle getaddrinfo event = .ok t at taken
    unfold handle at taken
    split at taken
    · rename_i notified reading
      split at taken
      · cases taken
      · rename_i result rest queue
        obtain ⟨served, first, taken⟩ := Runs.bind_ok.mp taken
        obtain ⟨proxy, stepped, rfl⟩ := serve_ok first
        obtain ⟨resolver, delivered, rfl⟩ := resolve_ok taken
        exact .answers notified reading queue stepped delivered
    · rename_i quiet free
      obtain ⟨served, first, taken⟩ := Runs.bind_ok.mp taken
      obtain ⟨proxy, stepped, rfl⟩ := serve_ok first
      split at taken
      · rename_i none
        cases taken
        exact .serves quiet free stepped none
      · rename_i socket host keys one
        obtain ⟨resolver, submitted, rfl⟩ := resolve_ok taken
        exact .submits quiet free stepped one submitted
    · cases taken
  | notifyOne woken => exact inner _ rfl taken
  | read => exact inner _ rfl taken
  | work worker => exact inner _ rfl taken
  | wake worker => exact inner _ rfl taken

theorem inner_keeps {r : ResolverEvent} (same : inner e = some r) : Resolver.Inner r := by
  cases e with
  | handle event => cases same
  | notifyOne woken => cases same; trivial
  | read => cases same; trivial
  | work worker => cases same; trivial
  | wake worker => cases same; trivial

/-- The events of the two parts that one event is. -/
structure Refined (getaddrinfo : Bytes → Bytes → Option (List UInt32)) (s t : ProxySystem) : Prop where
  server : ∃ events, Runs.run Proxy.step s.proxy events = .ok t.proxy
  resolver : ∃ events, Runs.run (Resolver.step getaddrinfo) s.resolver events = .ok t.resolver

theorem Agrees.step (agrees : s.Agrees) (taken : s.step getaddrinfo e = .ok t) : t.Agrees ∧ Refined getaddrinfo s t := by
  have one : ∀ {σ α ε : Type} {step : σ → α → Except ε σ} {x y : σ} {a : α}, step x a = .ok y →
      ∃ as, Runs.run step x as = .ok y :=
    fun stepped => ⟨[_], Runs.run_cons.mpr ⟨_, stepped, Runs.run_nil⟩⟩
  have sound : ∀ {event proxy}, s.proxy.step event = .ok proxy → proxy.view.Sound {} := fun stepped =>
    Proxy.sound_step agrees.sound (Proxy.careful_always _ _) stepped
  cases stepped taken with
  | inner same stepped =>
    have steps := Resolver.step_ok stepped
    have kept := Resolver.inner_same (inner_keeps same) steps
    refine ⟨⟨agrees.sound, agrees.waiting, Resolver.step_accounted agrees.accounted steps, ?_, ?_⟩, ⟨[], rfl⟩, one stepped⟩
    · rw [kept.outstanding]
      exact agrees.flight
    · exact kept.running.trans agrees.running
  | serves quiet free stepped none =>
    rename_i event proxy
    have submits := Proxy.submits_step agrees.sound.own quiet stepped
    refine ⟨⟨sound stepped, agrees.waiting.submits submits, agrees.accounted, ?_, agrees.running⟩, one stepped, ⟨[], rfl⟩⟩
    cases submits with
    | none calm => exact calm.resolving.trans agrees.flight
    | one key resolving asking pending =>
      have resolving : proxy.resolving = s.proxy.resolving ++ [key] := resolving
      rw [resolving, List.drop_left] at none
      cases none
  | submits quiet free stepped one' submitted =>
    rename_i proxy resolver key keys
    have submits := Proxy.submits_step agrees.sound.own quiet stepped
    have steps := Resolver.step_ok submitted
    refine ⟨⟨sound stepped, agrees.waiting.submits submits, Resolver.step_accounted agrees.accounted steps, ?_, ?_⟩,
      one stepped, one submitted⟩
    · cases submits with
      | none calm =>
        rw [show proxy.resolving = s.proxy.resolving from calm.resolving, List.drop_length] at one'
        cases one'
      | one key' resolving asking pending =>
        have resolving : proxy.resolving = s.proxy.resolving ++ [key'] := resolving
        rw [resolving, List.drop_left] at one'
        cases one'
        cases steps with
        | submits free =>
          show proxy.resolving = (Tokens.out (_ ++ [_]) _).map Submission.key
          rw [Resolver.outstanding_submits agrees.accounted, List.map_append, resolving, agrees.flight]
          rfl
    · cases steps with
      | submits free => exact agrees.running
  | answers notified reading queue stepped delivered =>
    rename_i event proxy resolver result rest
    have notified' : s.proxy.notified { event with io := s.resolver.answer event.io result } = true := notified
    have answers := Proxy.answers_step agrees.sound.own notified' stepped
    have steps := Resolver.step_ok delivered
    refine ⟨⟨sound stepped, agrees.waiting.answers answers, Resolver.step_accounted agrees.accounted steps, ?_, ?_⟩,
      one stepped, one delivered⟩
    · cases steps with
      | delivers reading' queue' =>
        rw [queue] at queue'
        cases queue'
        have removed := Tokens.out_return agrees.accounted.nodup (s.resolver.delivered.map (·.submission)) result.submission
        have resolving : proxy.resolving = s.proxy.resolving.eraseIdx (s.resolver.outstanding.idxOf result.submission) :=
          answers.resolving
        show proxy.resolving = (Tokens.out s.resolver.submitted _).map Submission.key
        rw [List.map_append, List.map_singleton, removed, resolving, agrees.flight, List.eraseIdx_map]
        rfl
    · cases steps with
      | delivers reading' queue' => exact agrees.running

/-! ### Runs -/

variable {timer notifier listener : Fd} {threads : Nat} {events : List SystemEvent}

theorem init_agrees (opens : Proxy.Opens timer notifier listener) : (init timer notifier listener threads).Agrees where
  sound := Proxy.init_sound opens fun _ => trivial
  waiting := Proxy.init_waiting timer notifier listener
  accounted := Resolver.start_accounted threads
  flight := rfl
  running := rfl

theorem Refined.trans {u : ProxySystem} (first : Refined getaddrinfo s t) (rest : Refined getaddrinfo t u) :
    Refined getaddrinfo s u := by
  obtain ⟨es, served⟩ := first.server
  obtain ⟨es', served'⟩ := rest.server
  obtain ⟨rs, resolved⟩ := first.resolver
  obtain ⟨rs', resolved'⟩ := rest.resolver
  exact ⟨⟨es ++ es', Runs.run_append.mpr ⟨_, served, served'⟩⟩, ⟨rs ++ rs', Runs.run_append.mpr ⟨_, resolved, resolved'⟩⟩⟩

theorem run_agrees (opens : Proxy.Opens timer notifier listener)
    (ran : Runs.run (step getaddrinfo) (init timer notifier listener threads) events = .ok s) :
    s.Agrees ∧ Refined getaddrinfo (init timer notifier listener threads) s :=
  Runs.invariant (I := fun s => s.Agrees ∧ Refined getaddrinfo (init timer notifier listener threads) s)
    ⟨init_agrees opens, ⟨[], rfl⟩, ⟨[], rfl⟩⟩
    (fun _ _ _ both taken => ⟨(both.1.step taken).1, both.2.trans (both.1.step taken).2⟩) ran

/-- With the places accounted for, the resolver fails only with an exception of a worker, or
when the event cannot happen. -/
theorem resolve_error {r : ResolverEvent} {f : ResolverFault} (accounted : s.resolver.Accounted)
    (failed : s.resolve getaddrinfo r = .error (.resolver f)) : f = .disabled ∨ f = .uncaught := by
  unfold resolve at failed
  split at failed
  · cases failed
  · rename_i fault stepped
    cases failed
    exact (accounted.fails (Resolver.step_error stepped)).imp_right And.left

theorem serve_error {event : Event} {f : ResolverFault} : s.serve event ≠ .error (.resolver f) := by
  intro failed
  unfold serve at failed
  split at failed <;> cases failed

/-- `get_ip` finds a result, as the eventfd has promised. -/
theorem Agrees.present (agrees : s.Agrees) (reading : s.resolver.main = .reading) : s.resolver.outQueue ≠ [] := by
  intro empty
  have counted := agrees.accounted.counted
  rw [reading, empty] at counted
  exact absurd counted (Nat.succ_ne_zero _)

theorem Agrees.fails {f : ResolverFault} (agrees : s.Agrees) (failed : s.step getaddrinfo e = .error (.resolver f)) :
    f = .disabled ∨ f = .uncaught := by
  cases e with
  | handle event =>
    change s.handle getaddrinfo event = .error (.resolver f) at failed
    unfold handle at failed
    split at failed
    · rename_i notified reading
      split at failed
      · rename_i empty
        exact absurd empty (agrees.present reading)
      · rcases Runs.bind_error.mp failed with failed | ⟨served, first, failed⟩
        · exact absurd failed serve_error
        · obtain ⟨proxy, stepped, rfl⟩ := serve_ok first
          exact resolve_error (s := { s with proxy }) agrees.accounted failed
    · rcases Runs.bind_error.mp failed with failed | ⟨served, first, failed⟩
      · exact absurd failed serve_error
      · obtain ⟨proxy, stepped, rfl⟩ := serve_ok first
        split at failed
        · cases failed
        · exact resolve_error (s := { s with proxy }) agrees.accounted failed
    · cases failed
      exact Or.inl rfl
  | notifyOne woken => exact resolve_error agrees.accounted failed
  | read => exact resolve_error agrees.accounted failed
  | work worker => exact resolve_error agrees.accounted failed
  | wake worker => exact resolve_error agrees.accounted failed

/-- In every run of the server with its resolver each takes a run of its own, and the server
and the resolver agree on what is with the resolver: a result that is next is the one of the host
at its place. The resolver fails with an exception of a worker only, for a port that is no
number, and never because a result is missing. -/
theorem resolver_refined (getaddrinfo : Bytes → Bytes → Option (List UInt32)) (threads : Nat) (events : List SystemEvent)
    (opens : Proxy.Opens timer notifier listener) :
    (∀ s, Runs.run (step getaddrinfo) (init timer notifier listener threads) events = .ok s →
      Refined getaddrinfo (init timer notifier listener threads) s ∧
      s.proxy.resolving = s.resolver.outstanding.map Submission.key ∧
      (s.resolver.main = .reading → s.resolver.outQueue ≠ []) ∧
      ∀ result rest io, s.resolver.outQueue = result :: rest →
        s.proxy.resolving[(s.resolver.answer io result).resolved]? = some result.submission.key) ∧
    ∀ f, Runs.run (step getaddrinfo) (init timer notifier listener threads) events = .error (.resolver f) →
      f = .disabled ∨ f = .uncaught := by
  constructor
  · intro s ran
    obtain ⟨agrees, refined⟩ := run_agrees opens ran
    refine ⟨refined, agrees.flight, agrees.present, fun result rest io queue => ?_⟩
    have member := agrees.accounted.outstanding queue
    rw [agrees.flight, List.getElem?_map, Resolver.answer, List.getElem?_idxOf member]
    rfl
  · intro f failed
    obtain ⟨s, e, agrees, -, failed⟩ := Runs.failure_along (I := Agrees) (init_agrees opens)
      (fun _ _ _ agrees _ taken => (agrees.step taken).1) (Runs.Along.always (C := fun _ _ => True) fun _ _ => trivial) failed
    exact agrees.fails failed

/-- Two clients ask for their servers, and the host of the second is resolved first. -/
def overtaken : List SystemEvent :=
  [.handle (Proxy.accepts 6), .handle (Proxy.receives 6 (Proxy.postTo (lit "h"))), .notifyOne none,
    .handle (Proxy.accepts 7), .handle (Proxy.receives 7 (Proxy.postTo (lit "g"))), .notifyOne none] ++
  List.replicate 3 (.work 0) ++ List.replicate 7 (.work 1) ++ [.read]

theorem overtaken_refined : ∃ s, Runs.run (step fun _ _ => some [16777343]) (init 3 4 5 2) overtaken = .ok s ∧
    s.proxy.resolving = [(6, lit "h"), (7, lit "g")] ∧
    ∃ result, s.resolver.outQueue = [result] ∧
      s.proxy.resolving[(s.resolver.answer Proxy.quiet result).resolved]? = some result.submission.key := by
  obtain ⟨s, ran, there⟩ : ∃ s, Runs.run (step fun _ _ => some [16777343]) (init 3 4 5 2) overtaken = .ok s ∧
      decide (s.proxy.resolving = [(6, lit "h"), (7, lit "g")] ∧ s.resolver.outQueue.length = 1) = true :=
    Runs.run_any (by decide +kernel)
  obtain ⟨resolving, one⟩ := of_decide_eq_true there
  obtain ⟨result, queue⟩ := List.length_eq_one_iff.mp one
  obtain ⟨-, -, -, found⟩ := (resolver_refined (fun _ _ => some [16777343]) 2 overtaken Proxy.opens_345).1 s ran
  exact ⟨s, ran, resolving, result, queue, found result [] Proxy.quiet queue⟩

end ProxySystem

end ProxyServer
