import ProxyServer.Resolver.Steps

/-!
# Stopping the resolver

`stop` sets `should_stop` without the mutex of the queue, and a worker tests it without
that mutex. A worker that has passed the test and still has to look at the queue is not
reached by `notify_all`: it goes to sleep afterwards, and nobody wakes it.
-/

namespace ProxyServer

namespace Resolver

/-- `stop` has returned, and no worker is in `cv.wait` or about to enter it: behind the
test of `should_stop`, with an empty queue. -/
def Released (s : Resolver) : Prop :=
  s.main = .stopped → .asleep ∉ s.workers ∧ (s.inQueue = [] → .look ∉ s.workers)

instance (s : Resolver) : Decidable s.Released := inferInstanceAs (Decidable (_ → _))

/-- No worker stands between the test of `should_stop` and the look at the queue when
`notify_all` finds the queue empty, or when the last query is taken after `stop`. -/
def Heeds (s : Resolver) : ResolverEvent → Prop
  | .notifyAll => s.inQueue = [] → .look ∉ s.workers
  | .work i => s.main = .stopped → s.workers[i]? = some .take → s.inQueue.length = 1 → .look ∉ s.workers
  | _ => True

instance (s : Resolver) : (e : ResolverEvent) → Decidable (s.Heeds e)
  | .notifyAll => inferInstanceAs (Decidable (_ → _))
  | .work _ => inferInstanceAs (Decidable (_ → _ → _ → _))
  | .resolveHost _ _ => isTrue trivial
  | .notifyOne _ => isTrue trivial
  | .read => isTrue trivial
  | .getIp => isTrue trivial
  | .stop => isTrue trivial
  | .wake _ => isTrue trivial

/-- Once `stop` has begun, the flag is set. -/
def Flagged (s : Resolver) : Prop := s.main = .stopping ∨ s.main = .stopped → s.shouldStop = true

variable {s s' : Resolver} {i : Nat} {w v : Worker} {getaddrinfo : Bytes → Bytes → Option (List UInt32)}
  {e : ResolverEvent}

theorem work_frame (works : Works getaddrinfo s i w s') : s'.main = s.main ∧ s'.shouldStop = s.shouldStop := by
  cases works <;> exact ⟨rfl, rfl⟩

theorem Flagged.step (flagged : s.Flagged) (steps : Steps getaddrinfo s e s') : s'.Flagged := by
  cases steps with
  | stops free => exact fun _ => rfl
  | notifiesAll stopping => exact fun _ => flagged (Or.inl stopping)
  | works here works =>
    obtain ⟨main, flag⟩ := work_frame works
    unfold Flagged
    rw [main, flag]
    exact flagged
  | wakes asleep => exact flagged
  | _ => exact fun begun => by rcases begun with begun | begun <;> cases begun

/-- A worker that goes on to a place other than `v` makes no difference to who is at `v`. -/
theorem mem_set_iff {w' : Worker} (here : s.workers[i]? = some w) (left : v ≠ w) (other : v ≠ w') :
    v ∈ s.workers.set i w' ↔ v ∈ s.workers := by
  have inside := (List.getElem?_eq_some_iff.mp here).1
  simp only [List.mem_iff_getElem?, List.getElem?_set, inside, if_true]
  apply exists_congr
  intro j
  split
  · rename_i same
    subst same
    rw [here]
    simp [left.symm, other.symm]
  · rfl

/-- Where nobody sleeps and nobody is about to, a block that neither falls asleep nor
takes a query leaves it so. -/
theorem Released.moves {w' : Worker} {q : Resolver} (released : s.Released) (main : q.main = s.main)
    (queue : q.inQueue = s.inQueue) (workers : q.workers = s.workers.set i w') (awake : w' ≠ .asleep)
    (passed : w' ≠ .look) : q.Released := by
  intro stopped
  rw [main] at stopped
  obtain ⟨nobody, none_⟩ := released stopped
  rw [workers, queue]
  constructor
  · intro member
    rcases List.mem_or_eq_of_mem_set member with before | same
    · exact nobody before
    · exact awake same.symm
  · intro empty member
    rcases List.mem_or_eq_of_mem_set member with before | same
    · exact none_ empty before
    · exact passed same.symm

theorem takes_released_iff {p : InQuery} {rest : List InQuery} (released : s.Released)
    (here : s.workers[i]? = some .take) (queue : s.inQueue = p :: rest) :
    ({ s with inQueue := rest }.setWorker i (.find p)).Released ↔ s.Heeds (.work i) := by
  have sleeping : .asleep ∈ s.workers.set i (.find p) ↔ .asleep ∈ s.workers :=
    mem_set_iff here (by decide) (by simp)
  have looking : .look ∈ s.workers.set i (.find p) ↔ .look ∈ s.workers :=
    mem_set_iff here (by decide) (by simp)
  unfold Released Heeds setWorker
  dsimp only
  rw [sleeping, looking, queue, List.length_cons]
  constructor
  · intro after stopped _ last
    exact (after stopped).2 (List.eq_nil_of_length_eq_zero (by omega))
  · intro heeds stopped
    refine ⟨(released stopped).1, fun empty => heeds stopped here ?_⟩
    rw [empty]
    rfl

theorem work_released_iff (flagged : s.Flagged) (released : s.Released) (here : s.workers[i]? = some w)
    (works : Works getaddrinfo s i w s') : s'.Released ↔ s.Heeds (.work i) := by
  have elsewhere : w ≠ .take → s.Heeds (.work i) := by
    intro other _ taking
    rw [here] at taking
    exact absurd (Option.some.inj taking) other
  cases works with
  | continues runs =>
    refine iff_of_true ?_ (elsewhere (by decide))
    intro stopped
    have flag := flagged (Or.inr stopped)
    rw [runs] at flag
    cases flag
  | sleeps empty =>
    refine iff_of_true ?_ (elsewhere (by decide))
    intro stopped
    exact absurd (List.mem_of_getElem? here) ((released stopped).2 empty)
  | misses empty =>
    refine iff_of_true (released.moves rfl rfl rfl (by decide) (by decide)) ?_
    intro _ _ last
    rw [empty] at last
    cases last
  | takes queue => exact takes_released_iff released here queue
  | _ => exact iff_of_true (released.moves rfl rfl rfl (by simp) (by simp)) (elsewhere (by simp))

theorem wakeAll_released_iff : Released { s.wakeAll with main := .stopped } ↔ s.Heeds .notifyAll := by
  have sleeping : .asleep ∉ s.wakeAll.workers := by
    intro member
    obtain ⟨w, -, woken⟩ := List.mem_map.mp member
    split at woken
    · cases woken
    · rename_i awake
      exact awake woken
  have looking : .look ∈ s.wakeAll.workers ↔ .look ∈ s.workers := by
    constructor
    · intro member
      obtain ⟨w, known, woken⟩ := List.mem_map.mp member
      split at woken
      · cases woken
      · rwa [woken] at known
    · intro member
      exact List.mem_map.mpr ⟨.look, member, rfl⟩
  constructor
  · intro released empty member
    exact (released rfl).2 empty (looking.mpr member)
  · intro heeds _
    exact ⟨sleeping, fun empty member => heeds empty (looking.mp member)⟩

theorem step_released_iff (flagged : s.Flagged) (released : s.Released) (steps : Steps getaddrinfo s e s') :
    s'.Released ↔ s.Heeds e := by
  cases steps with
  | notifiesAll _ => exact wakeAll_released_iff
  | works here works => exact work_released_iff flagged released here works
  | wakes asleep =>
    refine iff_of_true ?_ trivial
    intro stopped
    exact absurd (List.mem_of_getElem? asleep) (released stopped).1
  | _ => exact iff_of_true (fun stopped => by cases stopped) trivial

/-- In every run, no worker is left in `cv.wait` or on its way there when `stop` has
returned, if and only if none of its steps overtakes a worker that has passed the test. -/
theorem stop_releases_iff (getaddrinfo : Bytes → Bytes → Option (List UInt32)) (threads : Nat)
    (events : List ResolverEvent) (s : Resolver) (ran : Runs.run (step getaddrinfo) (start threads) events = .ok s) :
    Runs.Along (step getaddrinfo) (fun s e => ∀ s', s.step getaddrinfo e = .ok s' → s'.Released)
        (start threads) events ↔
      Runs.Along (step getaddrinfo) Heeds (start threads) events := by
  have notBegun : (start threads).Flagged := fun begun => by rcases begun with begun | begun <;> cases begun
  have notStopped : (start threads).Released := fun stopped => by cases stopped
  apply Runs.along_iff_reached (I := Flagged) notBegun notStopped _ _ ran
  · intro s e s' flagged stepped
    exact flagged.step (step_ok stepped)
  · intro s e s' flagged released stepped
    exact step_released_iff flagged released (step_ok stepped)

/-- One worker sleeps, and one has not started, when `stop` is called. -/
def stopsAsleep : List ResolverEvent := [.work 0, .work 0, .stop, .work 1, .notifyAll, .work 0]

theorem sleeper_released :
    Runs.Along (step fun _ _ => none) (fun s e => ∀ s', s.step (fun _ _ => none) e = .ok s' → s'.Released)
      (start 2) stopsAsleep :=
  (stop_releases_iff (fun _ _ => none) 2 stopsAsleep _ rfl).mpr (by decide)

/-- The worker tests `should_stop`, `stop` sets it and notifies, and the worker goes to sleep. -/
theorem worker_left_asleep : ¬∀ (getaddrinfo : Bytes → Bytes → Option (List UInt32)) (threads : Nat)
    (events : List ResolverEvent) (s : Resolver),
    Runs.run (step getaddrinfo) (start threads) events = .ok s → s.Released := by
  intro claim
  have released := claim (fun _ _ => none) 1 [.work 0, .stop, .notifyAll, .work 0] _ rfl
  exact absurd released (by decide)

end Resolver

end ProxyServer
