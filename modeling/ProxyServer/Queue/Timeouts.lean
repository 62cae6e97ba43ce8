import ProxyServer.Foundation.Runs
import ProxyServer.Queue.EpollQueue

/-!
# Idle timeouts

The clock of `epoll_queue` and what its entries have of their timeouts. The handler of
the timer advances the clock behind the sockets once more for the connections, and
`change_timeout` leaves `expires_in`: `idle_closed_iff` says in which runs entries are
closed when they have been idle for their timeout.
-/

namespace ProxyServer.Timeouts

/-- The timeout of a socket or a connection. -/
structure Entry where
  timeout : Nat
  expiresIn : Nat
  deriving DecidableEq, Repr

structure Queue where
  ticks : Nat
  sockets : Store Entry
  connections : Store Entry

inductive QueueCall where
  | saveRegistration (timeout : Nat)
  | makeConnection (timeout : Nat)
  | setActive (it : EntryRef)
  | changeTimeout (it : EntryRef) (timeout : Nat)
  | close (it : EntryRef)
  /-- A read of the timer reports so many expirations. -/
  | timer (ticked : Nat)

namespace Queue

def start : Queue := { ticks := 0, sockets := .empty, connections := .empty }

def new (q : Queue) (timeout : Nat) : Entry := { timeout, expiresIn := q.ticks + timeout }

def modify (q : Queue) (it : EntryRef) (f : Entry → Entry) : Except EntryRef Queue :=
  match it with
  | .sock id => match q.sockets.get id with
    | some e => .ok { q with sockets := q.sockets.set id (f e) }
    | none => .error it
  | .conn id => match q.connections.get id with
    | some e => .ok { q with connections := q.connections.set id (f e) }
    | none => .error it

/-- `set_active` -/
def activate (q : Queue) (e : Entry) : Entry := { e with expiresIn := q.ticks + e.timeout }

def close (q : Queue) : EntryRef → Queue
  | .sock id => { q with sockets := q.sockets.erase id }
  | .conn id => { q with connections := q.connections.erase id }

/-- What of the entries has not expired. -/
def sweep (ticks : Nat) (entries : Store Entry) : Store Entry := entries.keep (ticks < ·.expiresIn)

/-- `timer_handler` -/
def timer (q : Queue) (ticked : Nat) : Queue :=
  let ticks := q.ticks + ticked * TICK_INTERVAL
  let sockets := sweep ticks q.sockets
  let ticks := ticks + ticked
  let connections := sweep ticks q.connections
  { ticks, sockets, connections }

def call (q : Queue) : QueueCall → Except EntryRef Queue
  | .saveRegistration timeout => .ok { q with sockets := q.sockets.insert (q.new timeout) }
  | .makeConnection timeout => .ok { q with connections := q.connections.insert (q.new timeout) }
  | .setActive it => q.modify it q.activate
  | .changeTimeout it timeout => q.modify it fun e => { e with timeout }
  | .close it => .ok (q.close it)
  | .timer ticked => .ok (q.timer ticked)

end Queue

/-- What the calls say of an entry: the timeout that it was given last, how many expirations
of the timer had been read when it was made or last set active, and its timeout then. -/
structure Account where
  timeout : Nat
  active : Nat
  allowed : Nat

/-- The expirations that were read and the accounts are not in the source. -/
structure World where
  queue : Queue
  expirations : Nat
  accounts : EntryRef → Account

namespace World

def start : World := { queue := .start, expirations := 0, accounts := fun _ => ⟨0, 0, 0⟩ }

def account (w : World) (it : EntryRef) (a : Account) : World :=
  { w with accounts := fun other => if other = it then a else w.accounts other }

def record (w : World) : QueueCall → World
  | .saveRegistration timeout => w.account (.sock w.queue.sockets.next) ⟨timeout, w.expirations, timeout⟩
  | .makeConnection timeout => w.account (.conn w.queue.connections.next) ⟨timeout, w.expirations, timeout⟩
  | .setActive it => w.account it ⟨(w.accounts it).timeout, w.expirations, (w.accounts it).timeout⟩
  | .changeTimeout it timeout => w.account it { w.accounts it with timeout }
  | .close _ => w
  | .timer ticked => { w with expirations := w.expirations + ticked }

def step (w : World) (c : QueueCall) : Except EntryRef World :=
  (w.queue.call c).map fun queue => { w.record c with queue }

/-- How long an entry has been idle, in seconds. -/
def idle (w : World) (it : EntryRef) : Nat := (w.expirations - (w.accounts it).active) * TICK_INTERVAL

/-- Only entries that have been idle for the timeout that they were given last are closed, and
no such entry is left. -/
def Swept (w : World) (entry : Nat → EntryRef) (before after : Store Entry) : Prop :=
  (∀ id e, before.get id = some e → after.get id = none → (w.accounts (entry id)).timeout ≤ w.idle (entry id)) ∧
    ∀ id e, after.get id = some e → w.idle (entry id) < (w.accounts (entry id)).timeout

def Accurate (w : World) : QueueCall → Prop
  | .timer ticked =>
    (w.record (.timer ticked)).Swept .sock w.queue.sockets (w.queue.timer ticked).sockets ∧
      (w.record (.timer ticked)).Swept .conn w.queue.connections (w.queue.timer ticked).connections
  | _ => True

/-- The clock is `ahead` of the time for the entry, which makes no difference: it has been idle
for its timeout if and only if, with that, it has for the one it had when it was last active. -/
def Unmoved (idle ahead : Nat) (a : Account) : Prop := a.allowed ≤ idle + ahead ↔ a.timeout ≤ idle

instance (idle ahead : Nat) (a : Account) : Decidable (Unmoved idle ahead a) := inferInstanceAs (Decidable (_ ↔ _))

/-- An entry whose timeout was not changed must not be read while the clock is that far ahead. -/
theorem unmoved_iff {idle ahead : Nat} {a : Account} (same : a.timeout = a.allowed) :
    Unmoved idle ahead a ↔ ¬(idle < a.timeout ∧ a.timeout ≤ idle + ahead) := by
  unfold Unmoved
  rw [← same]
  omega

/-- The clock is ahead by a second for every expiration since an entry was last active, those
that are just read aside for a socket. -/
def Punctual (w : World) : QueueCall → Prop
  | .timer ticked =>
    (w.queue.sockets.Forall fun id _ =>
      Unmoved ((w.record (.timer ticked)).idle (.sock id)) (w.expirations - (w.accounts (.sock id)).active)
        (w.accounts (.sock id))) ∧
    w.queue.connections.Forall fun id _ =>
      Unmoved ((w.record (.timer ticked)).idle (.conn id)) (w.expirations + ticked - (w.accounts (.conn id)).active)
        (w.accounts (.conn id))
  | _ => True

instance Punctual.decide (w : World) : (call : QueueCall) → Decidable (w.Punctual call)
  | .timer _ => inferInstanceAs (Decidable (Store.Forall _ _ ∧ Store.Forall _ _))
  | .saveRegistration _ | .makeConnection _ | .setActive _ | .changeTimeout _ _ | .close _ => isTrue trivial

/-- An entry has the timeout that it was given last, and the clock, by which it expires,
advances by a second more than the time for every expiration. -/
structure Dated (w : World) (it : EntryRef) (e : Entry) : Prop where
  timeout : e.timeout = (w.accounts it).timeout
  active : (w.accounts it).active ≤ w.expirations
  expiresIn : e.expiresIn = (w.accounts it).active * (TICK_INTERVAL + 1) + (w.accounts it).allowed

structure Timely (w : World) : Prop where
  ticks : w.queue.ticks = w.expirations * (TICK_INTERVAL + 1)
  sockets : w.queue.sockets.Forall fun id e => w.Dated (.sock id) e
  connections : w.queue.connections.Forall fun id e => w.Dated (.conn id) e

theorem timely_start : Timely start where
  ticks := rfl
  sockets _ _ here := by cases here
  connections _ _ here := by cases here

variable {w w' : World} {q : Queue} {e : Entry} {a : Account} {call : QueueCall} {timeout ticked : Nat}
  {it other : EntryRef}

theorem accounts_account : (w.account it a).accounts it = a := if_pos rfl

theorem accounts_other (different : other ≠ it) : (w.account it a).accounts other = w.accounts other := if_neg different

/-- The other entries keep their accounts. -/
theorem Dated.apart (dated : w.Dated other e) (different : other ≠ it) : Dated { w.account it a with queue := q } other e := by
  obtain ⟨timeout, active, expires⟩ := dated
  rw [← accounts_other (a := a) different] at timeout active expires
  exact ⟨timeout, active, expires⟩

theorem dated_account {expiresIn : Nat} (active : a.active ≤ w.expirations)
    (expires : expiresIn = a.active * (TICK_INTERVAL + 1) + a.allowed) :
    Dated { w.account it a with queue := q } it ⟨a.timeout, expiresIn⟩ := by
  have here : (w.account it a).accounts it = a := accounts_account
  refine ⟨?_, ?_, ?_⟩
  · exact congrArg (·.timeout) here.symm
  · exact (congrArg (·.active) here).trans_le active
  · exact expires.trans (congrArg (fun a => a.active * (TICK_INTERVAL + 1) + a.allowed) here.symm)

theorem Timely.saveRegistration (timely : Timely w)
    (stepped : w.step (.saveRegistration timeout) = .ok w') : Timely w' := by
  cases stepped
  have last {id : Nat} {e : Entry} (here : w.queue.sockets.get id = some e) :
      EntryRef.sock id ≠ .sock w.queue.sockets.next := by
    intro same
    exact Nat.ne_of_lt (Store.get_lt here) (EntryRef.sock.inj same)
  constructor
  · exact timely.ticks
  · apply Store.Forall.insert
    · exact fun id e here => (timely.sockets id e here).apart (last here)
    · refine dated_account (Nat.le_refl _) ?_
      show w.queue.ticks + timeout = _
      rw [timely.ticks]
  · exact fun id e here => (timely.connections id e here).apart nofun

theorem Timely.makeConnection (timely : Timely w) (stepped : w.step (.makeConnection timeout) = .ok w') : Timely w' := by
  cases stepped
  have last {id : Nat} {e : Entry} (here : w.queue.connections.get id = some e) :
      EntryRef.conn id ≠ .conn w.queue.connections.next := by
    intro same
    exact Nat.ne_of_lt (Store.get_lt here) (EntryRef.conn.inj same)
  constructor
  · exact timely.ticks
  · exact fun id e here => (timely.sockets id e here).apart nofun
  · apply Store.Forall.insert
    · exact fun id e here => (timely.connections id e here).apart (last here)
    · refine dated_account (Nat.le_refl _) ?_
      show w.queue.ticks + timeout = _
      rw [timely.ticks]

/-- A change of one entry, with its account. -/
theorem Timely.modify {f : Entry → Entry} (timely : Timely w)
    (dated : ∀ e q, w.Dated it e → Dated { w.account it a with queue := q } it (f e))
    (modified : w.queue.modify it f = .ok q) : Timely { w.account it a with queue := q } := by
  unfold Queue.modify at modified
  cases it with
  | sock id =>
    dsimp only at modified
    cases here : w.queue.sockets.get id with
    | none =>
      rw [here] at modified
      cases modified
    | some e =>
      rw [here] at modified
      cases modified
      refine ⟨timely.ticks, ?_, fun id e here => (timely.connections id e here).apart nofun⟩
      intro other e' there
      rw [Store.get_set_live here] at there
      split at there
      · rename_i same
        cases there
        subst same
        exact dated e _ (timely.sockets other e here)
      · rename_i different
        exact (timely.sockets other e' there).apart fun same => different (EntryRef.sock.inj same)
  | conn id =>
    dsimp only at modified
    cases here : w.queue.connections.get id with
    | none =>
      rw [here] at modified
      cases modified
    | some e =>
      rw [here] at modified
      cases modified
      refine ⟨timely.ticks, fun id e here => (timely.sockets id e here).apart nofun, ?_⟩
      intro other e' there
      rw [Store.get_set_live here] at there
      split at there
      · rename_i same
        cases there
        subst same
        exact dated e _ (timely.connections other e here)
      · rename_i different
        exact (timely.connections other e' there).apart fun same => different (EntryRef.conn.inj same)

theorem Timely.setActive (timely : Timely w) (stepped : w.step (.setActive it) = .ok w') : Timely w' := by
  obtain ⟨queue, modified, rfl⟩ := Runs.map_ok.mp stepped
  refine timely.modify (fun e q dated => ?_) modified
  show Dated _ it ⟨e.timeout, w.queue.ticks + e.timeout⟩
  rw [dated.timeout, timely.ticks]
  exact dated_account (Nat.le_refl _) rfl

theorem Timely.changeTimeout (timely : Timely w) (stepped : w.step (.changeTimeout it timeout) = .ok w') :
    Timely w' := by
  obtain ⟨queue, modified, rfl⟩ := Runs.map_ok.mp stepped
  exact timely.modify (fun e q dated => dated_account dated.active dated.expiresIn) modified

theorem Dated.kept (dated : w.Dated it e) : Dated { w with queue := q } it e :=
  ⟨dated.timeout, dated.active, dated.expiresIn⟩

theorem Timely.close (timely : Timely w) (stepped : w.step (.close it) = .ok w') : Timely w' := by
  cases stepped
  cases it with
  | sock id =>
    refine ⟨timely.ticks, ?_, fun id e here => (timely.connections id e here).kept⟩
    exact Store.Forall.erase fun id e here => (timely.sockets id e here).kept
  | conn id =>
    refine ⟨timely.ticks, fun id e here => (timely.sockets id e here).kept, ?_⟩
    exact Store.Forall.erase fun id e here => (timely.connections id e here).kept

theorem Dated.later (dated : w.Dated it e) : Dated { w.record (.timer ticked) with queue := q } it e :=
  ⟨dated.timeout, Nat.le_trans dated.active (Nat.le_add_right _ _), dated.expiresIn⟩

theorem Timely.timer (timely : Timely w) (stepped : w.step (.timer ticked) = .ok w') : Timely w' := by
  cases stepped
  constructor
  · show w.queue.ticks + ticked * TICK_INTERVAL + ticked = (w.expirations + ticked) * (TICK_INTERVAL + 1)
    rw [timely.ticks]
    unfold TICK_INTERVAL
    omega
  · exact Store.Forall.keep fun id e here => (timely.sockets id e here).later
  · exact Store.Forall.keep fun id e here => (timely.connections id e here).later

theorem timely_step (timely : Timely w) (stepped : w.step call = .ok w') : Timely w' := by
  cases call with
  | saveRegistration timeout => exact timely.saveRegistration stepped
  | makeConnection timeout => exact timely.makeConnection stepped
  | setActive it => exact timely.setActive stepped
  | changeTimeout it timeout => exact timely.changeTimeout stepped
  | close it => exact timely.close stepped
  | timer ticked => exact timely.timer stepped

/-- A sweep is right when the entries that have expired are those that were idle for
their timeout. -/
theorem swept_iff {ticks : Nat} {entry : Nat → EntryRef} {entries : Store Entry} :
    w.Swept entry entries (Queue.sweep ticks entries) ↔
      entries.Forall fun id e => e.expiresIn ≤ ticks ↔ (w.accounts (entry id)).timeout ≤ w.idle (entry id) := by
  constructor
  · rintro ⟨closed, left⟩ id e here
    constructor
    · intro expired
      apply closed id e here
      cases still : (Queue.sweep ticks entries).get id with
      | none => rfl
      | some e' =>
        obtain ⟨here', kept⟩ := Store.get_keep.mp still
        rw [here] at here'
        cases here'
        rw [decide_eq_true_eq] at kept
        exact absurd expired (Nat.not_le_of_lt kept)
    · intro long
      by_contra fresh
      rw [Nat.not_le] at fresh
      have still : (Queue.sweep ticks entries).get id = some e := Store.get_keep.mpr ⟨here, decide_eq_true fresh⟩
      exact absurd long (Nat.not_le_of_lt (left id e still))
  · intro same
    constructor
    · intro id e here gone
      apply (same id e here).mp
      by_contra fresh
      rw [Nat.not_le] at fresh
      have still : (Queue.sweep ticks entries).get id = some e := Store.get_keep.mpr ⟨here, decide_eq_true fresh⟩
      rw [gone] at still
      cases still
    · intro id e still
      obtain ⟨here, kept⟩ := Store.get_keep.mp still
      rw [decide_eq_true_eq] at kept
      have due : e.expiresIn ≤ ticks ↔ _ := same id e here
      rw [← Nat.not_le, ← due, Nat.not_le]
      exact kept

/-- The timer is right about a socket, or a connection, when it makes no difference that the
clock is ahead. -/
theorem accurate_iff (timely : Timely w) : w.Accurate call ↔ w.Punctual call := by
  cases call with
  | timer ticked =>
    refine and_congr (swept_iff.trans ?_) (swept_iff.trans ?_)
    · refine forall_congr' fun id => forall_congr' fun e => forall_congr' fun here => ?_
      obtain ⟨_, active, expires⟩ := timely.sockets id e here
      have clock : e.expiresIn ≤ w.queue.ticks + ticked * TICK_INTERVAL ↔
          (w.accounts (.sock id)).allowed ≤
            (w.expirations + ticked - (w.accounts (.sock id)).active) * TICK_INTERVAL +
              (w.expirations - (w.accounts (.sock id)).active) := by
        rw [expires, timely.ticks]
        unfold TICK_INTERVAL
        omega
      exact iff_congr clock Iff.rfl
    · refine forall_congr' fun id => forall_congr' fun e => forall_congr' fun here => ?_
      obtain ⟨_, active, expires⟩ := timely.connections id e here
      have clock : e.expiresIn ≤ w.queue.ticks + ticked * TICK_INTERVAL + ticked ↔
          (w.accounts (.conn id)).allowed ≤
            (w.expirations + ticked - (w.accounts (.conn id)).active) * TICK_INTERVAL +
              (w.expirations + ticked - (w.accounts (.conn id)).active) := by
        rw [expires, timely.ticks]
        unfold TICK_INTERVAL
        omega
      exact iff_congr clock Iff.rfl
  | _ => exact Iff.rfl

/-- In a run the timer closes entries exactly when they have been idle for their timeout, if
and only if it makes no difference at any read of it that the clock is ahead. -/
theorem idle_closed_iff (calls : List QueueCall) :
    Runs.Along step Accurate start calls ↔ Runs.Along step Punctual start calls :=
  Runs.along_iff timely_start (fun _ _ _ timely stepped => timely_step timely stepped)
    (fun _ _ timely => accurate_iff timely)

/-- A connection is closed after 160 seconds. -/
theorem idle_closed_early : ¬∀ calls, Runs.Along step Accurate start calls := by
  intro claim
  have along := claim [.makeConnection SHORT_SOCKET_TIMEOUT, .timer 80]
  have read : Accurate _ (.timer 80) := (along.2 _ rfl).1
  have idle : SHORT_SOCKET_TIMEOUT ≤ 160 := read.2.1 0 _ rfl rfl
  exact absurd idle (by decide)

end World

end ProxyServer.Timeouts
