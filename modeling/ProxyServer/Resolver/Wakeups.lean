import ProxyServer.Foundation.Descent
import ProxyServer.Resolver.Conservation
import ProxyServer.Resolver.Stop

/-!
# No query is left behind

`cv.notify_one` wakes one worker for one query. While the resolver is not stopped a worker
sleeps only when others are about to look at the queue for every query in it, so when the
workers have done what they can, every query is answered.
-/

namespace ProxyServer

/-- A worker that looks at the queue before it sleeps. -/
def Worker.looks : Worker → Nat
  | .check => 1
  | .look => 1
  | .take => 1
  | .notify => 1
  | _ => 0

/-- `resolve_host` has pushed a query and not yet called `notify_one`. -/
def MainThread.owes : MainThread → Nat
  | .submitting => 1
  | _ => 0

/-- How many blocks a worker has before it sleeps, if the queue stays empty or not. -/
def Worker.rank (empty : Bool) : Worker → Nat
  | .asleep => 0
  | .stopped => 0
  | .look => if empty then 1 else 2
  | .take => if empty then 3 else 1
  | .check => if empty then 2 else 3
  | .notify => 4
  | .publish _ _ => 5
  | .resolve _ => 6
  | .find _ => 7

namespace Resolver

variable {getaddrinfo : Bytes → Bytes → Option (List UInt32)} {s s' t : Resolver} {i : Nat} {w : Worker}
  {e : ResolverEvent}

/-! ### Who looks at the queue -/

structure Watched (s : Resolver) : Prop where
  watched : s.shouldStop = false → .asleep ∈ s.workers →
    s.inQueue.length ≤ (s.workers.map Worker.looks).sum + s.main.owes
  running : s.shouldStop = false → .stopped ∉ s.workers

theorem watched_of_stop (stop : s.shouldStop = true) : s.Watched where
  watched runs := by cases stop.symm.trans runs
  running runs := by cases stop.symm.trans runs

theorem mem_set_of_ne {places : List Worker} {v : Worker} (member : v ∈ places.set i w) (other : v ≠ w) : v ∈ places :=
  (List.mem_or_eq_of_mem_set member).resolve_right other

theorem Watched.walks (watched : s.Watched) (w' : Worker) (here : s.workers[i]? = some w) (asleep : w' ≠ .asleep)
    (stopped : w' ≠ .stopped) (looks : w.looks ≤ w'.looks) : (s.setWorker i w').Watched where
  watched runs sleeps := by
    have before := watched.watched runs (mem_set_of_ne sleeps asleep.symm)
    have moved := Tokens.set_sum Worker.looks (b := w') here
    show s.inQueue.length ≤ ((s.workers.set i w').map Worker.looks).sum + s.main.owes
    omega
  running runs member := watched.running runs (mem_set_of_ne member stopped.symm)

theorem watched_work (watched : s.Watched) (here : s.workers[i]? = some w) (works : Works getaddrinfo s i w s') :
    s'.Watched := by
  cases works with
  | stops stop => exact watched_of_stop stop
  | continues runs => exact watched.walks .look here Worker.noConfusion Worker.noConfusion (Nat.le_refl 1)
  | sleeps empty =>
    refine ⟨fun _ _ => ?_, fun runs member => watched.running runs (mem_set_of_ne member Worker.noConfusion)⟩
    show s.inQueue.length ≤ _
    rw [empty]
    exact Nat.zero_le _
  | sees present => exact watched.walks .take here Worker.noConfusion Worker.noConfusion (Nat.le_refl 1)
  | misses empty => exact watched.walks .check here Worker.noConfusion Worker.noConfusion (Nat.le_refl 1)
  | takes queue =>
    rename_i p rest
    refine ⟨fun runs sleeps => ?_, fun runs member => watched.running runs (mem_set_of_ne member Worker.noConfusion)⟩
    have before := watched.watched runs (mem_set_of_ne sleeps Worker.noConfusion)
    have moved := Tokens.set_sum Worker.looks (b := .find p) here
    simp only [Worker.looks] at moved
    rw [queue, List.length_cons] at before
    show rest.length ≤ ((s.workers.set i (.find p)).map Worker.looks).sum + s.main.owes
    omega
  | asks absent => exact watched.walks (.resolve _) here Worker.noConfusion Worker.noConfusion (Nat.le_refl 0)
  | finds cached present => exact watched.walks (.publish _ _) here Worker.noConfusion Worker.noConfusion (Nat.le_refl 0)
  | unknown none => exact watched.walks (.publish _ _) here Worker.noConfusion Worker.noConfusion (Nat.le_refl 0)
  | learns known inserted =>
    exact { watched.walks (.publish _ _) here Worker.noConfusion Worker.noConfusion (Nat.le_refl 0) with }
  | publishes made => exact { watched.walks .notify here Worker.noConfusion Worker.noConfusion (Nat.zero_le 1) with }
  | notifies => exact { watched.walks .check here Worker.noConfusion Worker.noConfusion (Nat.le_refl 1) with }

theorem watched_step (watched : s.Watched) (flagged : s.Flagged) (steps : Steps getaddrinfo s e s') : s'.Watched := by
  cases steps with
  | submits free =>
    refine ⟨fun runs sleeps => ?_, watched.running⟩
    have before := watched.watched runs sleeps
    rw [free] at before
    simp only [List.length_append, List.length_singleton, MainThread.owes] at before ⊢
    omega
  | notifies submitting asleep =>
    rename_i j
    refine ⟨fun runs sleeps => ?_, fun runs member => watched.running runs (mem_set_of_ne member Worker.noConfusion)⟩
    have before := watched.watched runs (mem_set_of_ne sleeps Worker.noConfusion)
    have moved := Tokens.set_sum Worker.looks (b := .check) asleep
    simp only [Worker.looks] at moved
    rw [submitting] at before
    show s.inQueue.length ≤ ((s.workers.set j .check).map Worker.looks).sum + 0
    simp only [MainThread.owes] at before
    omega
  | wasted submitting awake => exact ⟨fun _ sleeps => absurd sleeps awake, watched.running⟩
  | reads free written =>
    refine ⟨fun runs sleeps => ?_, watched.running⟩
    have before := watched.watched runs sleeps
    rwa [free] at before
  | delivers reading queue =>
    refine ⟨fun runs sleeps => ?_, watched.running⟩
    have before := watched.watched runs sleeps
    rwa [reading] at before
  | stops free => exact watched_of_stop rfl
  | notifiesAll stopping => exact watched_of_stop (flagged (Or.inl stopping))
  | works here works => exact watched_work watched here works
  | wakes asleep => exact watched.walks .check asleep Worker.noConfusion Worker.noConfusion (Nat.zero_le 1)

variable {threads : Nat} {events : List ResolverEvent}

theorem start_watched (threads : Nat) : (start threads).Watched where
  watched _ sleeps := by cases List.eq_of_mem_replicate sleeps
  running _ member := by cases List.eq_of_mem_replicate member

theorem run_watched (ran : Runs.run (step getaddrinfo) (start threads) events = .ok s) : s.Watched := by
  have flagged : (start threads).Flagged := by rintro (begun | begun) <;> cases begun
  refine (Runs.invariant (I := fun s => s.Watched ∧ s.Flagged) ⟨start_watched threads, flagged⟩ (fun s e s' both stepped => ?_) ran).1
  have steps := step_ok stepped
  exact ⟨watched_step both.1 both.2 steps, both.2.step steps⟩

/-- While the resolver runs and a worker sleeps, as many others as there are queries are
about to look at the queue, but for the one that `notify_one` is about to be called for. -/
theorem queries_watched (getaddrinfo : Bytes → Bytes → Option (List UInt32)) (threads : Nat) (events : List ResolverEvent)
    {s : Resolver} (ran : Runs.run (step getaddrinfo) (start threads) events = .ok s) (runs : s.shouldStop = false)
    (sleeps : .asleep ∈ s.workers) : s.inQueue.length ≤ (s.workers.map Worker.looks).sum + s.main.owes :=
  (run_watched ran).watched runs sleeps

/-- Two queries come while both workers sleep, of which one was woken. -/
def bothAsleep : List ResolverEvent :=
  [.work 0, .work 0, .work 1, .work 1, .resolveHost (lit "h") ⟨6, lit "h"⟩, .notifyOne (some 1),
    .resolveHost (lit "g") ⟨7, lit "g"⟩]

theorem both_asleep_watched : ∃ s, Runs.run (step fun _ _ => some [16777343]) (start 2) bothAsleep = .ok s ∧
    s.inQueue.length = 2 ∧ s.inQueue.length ≤ (s.workers.map Worker.looks).sum + s.main.owes := by
  refine ⟨_, rfl, rfl, queries_watched (fun _ _ => some [16777343]) 2 bothAsleep rfl rfl ?_⟩
  decide

/-! ### What is left to do -/

/-- The blocks of the workers that are left. -/
def pendingWork (s : Resolver) : Nat :=
  s.inQueue.length * (7 * s.workers.length + 1) + (s.workers.map (Worker.rank s.inQueue.isEmpty)).sum

theorem rank_le (empty : Bool) (w : Worker) : w.rank empty ≤ 7 := by
  cases empty <;> cases w <;> simp [Worker.rank]

theorem ranks_le (empty : Bool) (workers : List Worker) : (workers.map (Worker.rank empty)).sum ≤ 7 * workers.length := by
  induction workers with
  | nil => exact Nat.zero_le _
  | cons w workers ih =>
    have most := rank_le empty w
    rw [List.map_cons, List.sum_cons, List.length_cons]
    omega

theorem pendingWork_le (s : Resolver) : s.pendingWork < (s.inQueue.length + 1) * (7 * s.workers.length + 1) := by
  have ranks := ranks_le s.inQueue.isEmpty s.workers
  rw [pendingWork, Nat.add_mul]
  omega

/-- A worker that goes on without a query has less to do. -/
theorem walks_descends {t : Resolver} (w' : Worker) (here : s.workers[i]? = some w) (queue : t.inQueue = s.inQueue)
    (workers : t.workers = s.workers.set i w')
    (lower : w'.rank s.inQueue.isEmpty < w.rank s.inQueue.isEmpty) : t.pendingWork < s.pendingWork := by
  have moved := Tokens.set_sum (Worker.rank s.inQueue.isEmpty) (b := w') here
  rw [pendingWork, pendingWork, queue, workers, List.length_set]
  omega

/-- One that takes a query leaves a shorter queue. -/
theorem takes_descends {t : Resolver} {p : InQuery} {rest : List InQuery} (queue : s.inQueue = p :: rest)
    (taken : t.inQueue = rest) (workers : t.workers.length = s.workers.length) : t.pendingWork < s.pendingWork := by
  have most := t.pendingWork_le
  rw [taken, workers] at most
  refine Nat.lt_of_lt_of_le most ?_
  rw [pendingWork, queue, List.length_cons]
  exact Nat.le_add_right _ _

theorem work_descends (here : s.workers[i]? = some w) (works : Works getaddrinfo s i w s') :
    s'.pendingWork < s.pendingWork := by
  cases works with
  | stops stop =>
    refine walks_descends .stopped here rfl rfl ?_
    cases s.inQueue.isEmpty <;> decide
  | continues runs =>
    refine walks_descends .look here rfl rfl ?_
    cases s.inQueue.isEmpty <;> decide
  | sleeps empty =>
    refine walks_descends .asleep here rfl rfl ?_
    cases s.inQueue.isEmpty <;> decide
  | sees present =>
    refine walks_descends .take here rfl rfl ?_
    rw [List.isEmpty_eq_false_iff.mpr present]
    decide
  | misses empty =>
    refine walks_descends .check here rfl rfl ?_
    rw [List.isEmpty_iff.mpr empty]
    decide
  | takes queue => exact takes_descends queue rfl List.length_set
  | asks absent => exact walks_descends (.resolve _) here rfl rfl (Nat.lt_succ_self 6)
  | finds cached present => exact walks_descends (.publish _ _) here rfl rfl (Nat.lt_add_of_pos_right (n := 5) Nat.two_pos)
  | unknown none => exact walks_descends (.publish _ _) here rfl rfl (Nat.lt_succ_self 5)
  | learns known inserted => exact walks_descends (.publish _ _) here rfl rfl (Nat.lt_succ_self 5)
  | publishes made => exact walks_descends .notify here rfl rfl (Nat.lt_succ_self 4)
  | notifies =>
    refine walks_descends .check here rfl rfl ?_
    cases s.inQueue.isEmpty <;> decide

/-! ### At rest -/

/-- No worker has a block that it can run. -/
def Rests (getaddrinfo : Bytes → Bytes → Option (List UInt32)) (s : Resolver) : Prop :=
  ∀ i, s.step getaddrinfo (.work i) = .error .disabled

/-- Every query has a result, and the eventfd tells of those that are not delivered. -/
structure Answered (s : Resolver) : Prop where
  empty : s.inQueue = []
  asleep : ∀ w ∈ s.workers, w = .asleep
  results : (s.outQueue.map (·.submission) ++ s.delivered.map (·.submission)).Perm s.submitted
  counted : s.counter = s.outQueue.length

/-- The main thread is elsewhere. -/
structure Working (threads : Nat) (s : Resolver) : Prop where
  accounted : s.Accounted
  watched : s.Watched
  runs : s.shouldStop = false
  free : s.main = .free
  crew : s.workers.length = threads

theorem work_crew (works : Works getaddrinfo s i w s') : s'.workers.length = s.workers.length := by
  cases works <;> exact List.length_set

theorem run_crew (ran : Runs.run (step getaddrinfo) (start threads) events = .ok s) : s.workers.length = threads := by
  refine Runs.invariant (I := fun s => s.workers.length = threads) List.length_replicate (fun s e s' crew stepped => ?_) ran
  cases step_ok stepped with
  | notifies submitting asleep => exact List.length_set.trans crew
  | notifiesAll stopping => exact (List.length_map _).trans crew
  | works here works => exact (work_crew works).trans crew
  | wakes asleep => exact List.length_set.trans crew
  | _ => exact crew

theorem Working.work (working : s.Working threads) (stepped : s.step getaddrinfo (.work i) = .ok s') :
    s'.Working threads ∧ s'.pendingWork < s.pendingWork := by
  have flagged : s.Flagged := by
    intro begun
    rw [working.free] at begun
    rcases begun with begun | begun <;> cases begun
  have steps := step_ok stepped
  have watched := watched_step working.watched flagged steps
  have accounted := step_accounted working.accounted steps
  cases steps with
  | works here works =>
    obtain ⟨main, flag⟩ := work_frame works
    refine ⟨⟨accounted, watched, flag.trans working.runs, main.trans working.free, ?_⟩, work_descends here works⟩
    exact (work_crew works).trans working.crew

theorem disabled_idle (failed : s.work getaddrinfo i w = .error .disabled) : w = .asleep ∨ w = .stopped := by
  unfold work at failed
  cases w with
  | asleep => exact Or.inl rfl
  | stopped => exact Or.inr rfl
  | take =>
    dsimp only at failed
    split at failed <;> cases failed
  | resolve p =>
    dsimp only at failed
    split at failed
    · cases failed
    · split at failed <;> cases failed
  | publish p ips =>
    dsimp only at failed
    split at failed <;> cases failed
  | _ => cases failed

theorem Accounted.answered (accounted : s.Accounted) (empty : s.inQueue = []) (asleep : ∀ w ∈ s.workers, w = .asleep)
    (free : s.main = .free) : s.Answered := by
  have idle : ∀ {β : Type} (f : Worker → List β), f .asleep = [] → s.workers.flatMap f = [] := by
    intro β f nothing
    rw [List.flatMap_eq_nil_iff]
    intro w member
    rw [asleep w member, nothing]
  refine ⟨empty, asleep, ?_, ?_⟩
  · have placed := accounted.placed
    rwa [places, empty, idle Worker.hand rfl] at placed
  · have counted := accounted.counted
    rwa [idle Worker.owes rfl, free] at counted

theorem Working.answered (working : s.Working threads) (crew : 0 < threads) (rests : s.Rests getaddrinfo) : s.Answered := by
  have asleep : ∀ w ∈ s.workers, w = .asleep := by
    intro w member
    obtain ⟨i, here⟩ := List.mem_iff_getElem?.mp member
    have failed := rests i
    simp only [step, here] at failed
    refine (disabled_idle failed).resolve_right fun stopped => ?_
    subst stopped
    exact working.watched.running working.runs member
  have workers : s.workers = List.replicate threads .asleep := List.eq_replicate_iff.mpr ⟨working.crew, asleep⟩
  have someone : .asleep ∈ s.workers := by
    rw [workers]
    exact List.mem_replicate.mpr ⟨Nat.ne_of_gt crew, rfl⟩
  have none : (s.workers.map Worker.looks).sum = 0 := by
    rw [workers, List.map_replicate, List.sum_replicate_nat]
    rfl
  have empty : s.inQueue = [] := by
    have few := working.watched.watched working.runs someone
    rw [none, working.free] at few
    exact List.length_eq_zero_iff.mp (Nat.le_zero.mp few)
  exact working.accounted.answered empty asleep working.free

/-- A block that cannot run is one of a worker that sleeps or has stopped. -/
theorem Conserved.rests (conserved : s.Conserved) (none : ∀ i t, s.step getaddrinfo (.work i) ≠ .ok t) :
    s.Rests getaddrinfo := by
  intro i
  have kept := step_keeps getaddrinfo conserved (e := .work i) trivial
  cases stepped : s.step getaddrinfo (.work i) with
  | ok t => exact absurd stepped (none i t)
  | error f =>
    rw [stepped] at kept
    rw [kept]

/-- However the workers are scheduled they come to rest, and then every query has its result. -/
theorem workers_rest (getaddrinfo : Bytes → Bytes → Option (List UInt32)) {threads : Nat} {events : List ResolverEvent}
    {s : Resolver} (crew : 0 < threads) (readable : ∀ e ∈ events, e.Readable)
    (ran : Runs.run (step getaddrinfo) (start threads) events = .ok s) (runs : s.shouldStop = false)
    (free : s.main = .free) :
    (∀ (order : List Nat) (t : Resolver), Runs.run (step getaddrinfo) s (order.map .work) = .ok t →
      order.length < (s.inQueue.length + 1) * (7 * threads + 1) ∧ (t.Rests getaddrinfo → t.Answered)) ∧
    ∃ (order : List Nat) (t : Resolver), Runs.run (step getaddrinfo) s (order.map .work) = .ok t ∧ t.Rests getaddrinfo := by
  have conserved := run_conserved readable threads ran
  have working : s.Working threads := ⟨conserved.accounted, run_watched ran, runs, free, run_crew ran⟩
  constructor
  · intro order t ordered
    rw [Runs.run_map] at ordered
    have short := Runs.length_le_measure working (fun s i t working stepped => (working.work stepped).1)
      (fun s i t working stepped => (working.work stepped).2) ordered
    have there := Runs.invariant working (fun s i t working stepped => (working.work stepped).1) ordered
    refine ⟨?_, fun rests => there.answered crew rests⟩
    have most := s.pendingWork_le
    rw [working.crew] at most
    omega
  · obtain ⟨order, t, ordered, there, none⟩ := Runs.run_exhausts (I := fun s : Resolver => s.Working threads ∧ s.Conserved)
      ⟨working, conserved⟩
      (fun s i t both (stepped : s.step getaddrinfo (.work i) = .ok t) =>
        ⟨(both.1.work stepped).1, step_conserved both.2 (e := .work i) trivial (step_ok stepped)⟩)
      (fun s i t both stepped => (both.1.work stepped).2)
    exact ⟨order, t, (Runs.run_map _ _).trans ordered, there.2.rests none⟩

theorem both_asleep_rest : ∃ s t : Resolver,
    Runs.run (step fun _ _ => some [16777343]) (start 2) (bothAsleep ++ [.notifyOne (some 0)]) = .ok s ∧
      s.inQueue.length = 2 ∧
      (∃ order : List Nat, Runs.run (step fun _ _ => some [16777343]) s (order.map .work) = .ok t) ∧ t.Answered := by
  have readable : ∀ e ∈ bothAsleep ++ [.notifyOne (some 0)], e.Readable := by
    have first : Readable (lit "h") := readable_plain (by decide)
    have second : Readable (lit "g") := readable_plain (by decide)
    simp only [bothAsleep, List.cons_append, List.nil_append, List.forall_mem_cons, ResolverEvent.Readable]
    exact ⟨trivial, trivial, trivial, trivial, first, trivial, second, trivial, by simp⟩
  obtain ⟨all, order, t, ordered, rests⟩ :=
    workers_rest (fun _ _ => some [16777343]) (Nat.two_pos) readable rfl rfl rfl
  exact ⟨_, t, rfl, rfl, ⟨order, ordered⟩, (all order t ordered).2 rests⟩

end Resolver

end ProxyServer
