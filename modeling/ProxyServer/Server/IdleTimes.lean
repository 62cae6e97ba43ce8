import ProxyServer.Queue.Timeouts
import ProxyServer.Server.Handlers

/-!
# The server's queue keeps its timeouts

The operations of the server on its sockets and connections, and the handler of its
timer, do with the clock and the timeouts what the queue of timeouts does.
-/

namespace ProxyServer

open Timeouts Wp

def Timeouts.Entry.limits (e : Entry) : Nat × Nat := (e.timeout, e.expiresIn)

def SocketEntry.limits (e : SocketEntry) : Nat × Nat := (e.elem.timeout, e.elem.expiresIn)

def Connection.limits (k : Connection) : Nat × Nat := (k.timeout, k.expiresIn)

/-- The entries have the timeouts of those in the store. -/
structure Alike {β : Type} (limits : β → Nat × Nat) (entries : Store Entry) (store : Store β) : Prop where
  next : entries.next = store.next
  same : ∀ id, (entries.get id).map Entry.limits = (store.get id).map limits

namespace Alike

variable {β : Type} {limits : β → Nat × Nat} {entries : Store Entry} {store : Store β} {id : Nat} {e : Entry} {v : β}

theorem live (alike : Alike limits entries store) (here : store.get id = some v) :
    ∃ e, entries.get id = some e ∧ e.limits = limits v := by
  have same := alike.same id
  rw [here, Option.map_some, Option.map_eq_some_iff] at same
  exact same

theorem gone (alike : Alike limits entries store) (here : store.get id = none) : entries.get id = none := by
  have same := alike.same id
  rw [here, Option.map_none, Option.map_eq_none_iff] at same
  exact same

theorem insert (alike : Alike limits entries store) (new : e.limits = limits v) :
    Alike limits (entries.insert e) (store.insert v) := by
  constructor
  · exact congrArg (· + 1) alike.next
  · intro id
    rw [Store.get_insert, Store.get_insert, alike.next]
    split
    · exact congrArg some new
    · exact alike.same id

theorem set (alike : Alike limits entries store) (set : e.limits = limits v) :
    Alike limits (entries.set id e) (store.set id v) := by
  constructor
  · exact alike.next
  · intro other
    rw [Store.get_set, Store.get_set]
    split
    · cases here : store.get id with
      | none =>
        rw [alike.gone here]
        rfl
      | some w =>
        obtain ⟨e', there, _⟩ := alike.live here
        rw [there]
        exact congrArg some set
    · exact alike.same other

theorem erase (alike : Alike limits entries store) : Alike limits (entries.erase id) (store.erase id) := by
  constructor
  · exact alike.next
  · intro other
    rw [Store.get_erase, Store.get_erase]
    split
    · rfl
    · exact alike.same other

/-- What is swept away depends on the time of expiry alone. -/
theorem sweep {p : β → Bool} {ticks : Nat} (alike : Alike limits entries store)
    (kept : ∀ v, p v = decide (ticks < (limits v).2)) : Alike limits (Queue.sweep ticks entries) (store.keep p) := by
  constructor
  · exact alike.next
  · intro id
    show ((entries.get id).filter _).map _ = ((store.get id).filter p).map limits
    cases here : store.get id with
    | none =>
      rw [alike.gone here]
      rfl
    | some v =>
      obtain ⟨e, there, same⟩ := alike.live here
      rw [there, Option.filter_some, Option.filter_some, kept v, ← same]
      show Option.map _ (if decide (ticks < e.expiresIn) = true then some e else none) =
        Option.map limits (if decide (ticks < e.expiresIn) = true then some v else none)
      split
      · exact congrArg some same
      · rfl

end Alike

namespace Proxy

/-- The server has the clock of the queue, and the same timeouts. -/
structure Times (s : Proxy) (q : Queue) : Prop where
  ticks : q.ticks = s.ticks
  sockets : Alike SocketEntry.limits q.sockets s.sockets
  connections : Alike Connection.limits q.connections s.connections

/-- The queue makes the call, and the server has the same timeouts. -/
def Matches (s : Proxy) (q : Queue) (call : QueueCall) : Prop := ∃ q', q.call call = .ok q' ∧ s.Times q'

variable {s : Proxy} {q : Queue} {io : Io} {it : SocketId} {conn : ConnId} {ref : EntryRef} {timeout : Nat}
  {client server e : EpollElem}

/-- The handler of the timer advances the clock and sweeps. -/
theorem Times.onTimer (times : s.Times q) :
    wp (fun _ => True) (onTimer .IN io) (fun _ s' => s'.Matches q (.timer io.ticked)) s := by
  unfold Proxy.onTimer service
  rw [Wp.wp_whenever]
  refine ⟨fun _ => ?_, fun other => by cases other⟩
  rw [wp_bind, wp_get, wp_bind, wp_bind, wp_get, wp_ite]
  refine ⟨fun _ => ?_, fun _ => trivial⟩
  rw [wp_pure, wp_bind, wp_modify, wp_modify]
  have ticks := times.ticks
  refine ⟨_, rfl, ?_, ?_, ?_⟩
  · show q.ticks + io.ticked * TICK_INTERVAL + io.ticked = s.ticks + io.ticked * TICK_INTERVAL + io.ticked
    rw [ticks]
  · apply times.sockets.sweep
    intro v
    show (!expired (s.ticks + io.ticked * TICK_INTERVAL) v) = _
    unfold expired SocketEntry.limits
    rw [ticks, ← decide_not]
    exact decide_eq_decide.mpr Nat.not_le
  · apply times.connections.sweep
    intro v
    show decide (s.ticks + io.ticked * TICK_INTERVAL + io.ticked < v.expiresIn) = _
    unfold Connection.limits
    rw [ticks]

theorem Times.setActive (times : s.Times q) :
    wp (fun _ => True) (setActive ref) (fun _ s' => s'.Matches q (.setActive ref)) s := by
  have ticks := times.ticks
  unfold Proxy.setActive
  rw [wp_bind, wp_get]
  cases ref with
  | sock id =>
    dsimp only
    cases here : s.sockets.get id with
    | none => trivial
    | some entry =>
      obtain ⟨e, there, same⟩ := times.sockets.live here
      rw [wp_set]
      refine ⟨{ q with sockets := q.sockets.set id (q.activate e) }, ?_, ticks, ?_, times.connections⟩
      · unfold Queue.call Queue.modify
        dsimp only
        rw [there]
      · apply times.sockets.set
        obtain ⟨timeout, _⟩ := Prod.mk.inj same
        show (e.timeout, q.ticks + e.timeout) = (entry.elem.timeout, s.ticks + entry.elem.timeout)
        rw [ticks, timeout]
  | conn id =>
    dsimp only
    cases here : s.connections.get id with
    | none => trivial
    | some k =>
      obtain ⟨e, there, same⟩ := times.connections.live here
      rw [wp_set]
      refine ⟨{ q with connections := q.connections.set id (q.activate e) }, ?_, ticks, times.sockets, ?_⟩
      · unfold Queue.call Queue.modify
        dsimp only
        rw [there]
      · apply times.connections.set
        obtain ⟨timeout, _⟩ := Prod.mk.inj same
        show (e.timeout, q.ticks + e.timeout) = (k.timeout, s.ticks + k.timeout)
        rw [ticks, timeout]

theorem Times.changeTimeout (times : s.Times q) :
    wp (fun _ => True) (changeTimeout conn timeout) (fun _ s' => s'.Matches q (.changeTimeout (.conn conn) timeout)) s := by
  unfold Proxy.changeTimeout getConnection
  rw [wp_bind, wp_bind, wp_get]
  cases here : s.connections.get conn with
  | none => trivial
  | some k =>
    obtain ⟨e, there, same⟩ := times.connections.live here
    dsimp only
    rw [wp_pure, wp_modify]
    refine ⟨{ q with connections := q.connections.set conn { e with timeout } }, ?_, times.ticks, times.sockets, ?_⟩
    · unfold Queue.call Queue.modify
      dsimp only
      rw [there]
    · apply times.connections.set
      obtain ⟨_, expires⟩ := Prod.mk.inj same
      exact congrArg (timeout, ·) expires

theorem Times.destroy (times : s.Times q) : (s.destroy e).Times q := by
  unfold Proxy.destroy setHandler
  split
  · exact times
  · exact ⟨times.ticks, times.sockets, times.connections⟩

/-- A socket is registered, unless one with its descriptor is there. -/
theorem Times.insertSocket (times : s.Times q) (now : e.expiresIn = s.ticks + e.timeout) :
    wp (fun _ => True) (insertSocket e) (fun _ s' => s'.Times q ∨ s'.Matches q (.saveRegistration e.timeout)) s := by
  have ticks := times.ticks
  unfold Proxy.insertSocket
  rw [wp_bind, wp_get]
  split
  · left
    exact times.destroy
  · right
    refine ⟨_, rfl, ticks, times.sockets.insert ?_, times.connections⟩
    show (e.timeout, q.ticks + e.timeout) = (e.timeout, e.expiresIn)
    rw [ticks, now]

theorem Times.saveRegistration (times : s.Times q) :
    wp (fun _ => True) (saveRegistration e timeout)
      (fun _ s' => s'.Times q ∨ s'.Matches q (.saveRegistration timeout)) s := by
  unfold Proxy.saveRegistration
  rw [wp_bind, wp_get]
  exact times.insertSocket rfl

/-- `save_connection` of what `make_connection` returns. -/
theorem Times.makeConnection (times : s.Times q) :
    Matches { s with connections := s.connections.insert ⟨client, server, timeout, s.ticks + timeout⟩ } q
      (.makeConnection timeout) := by
  refine ⟨_, rfl, times.ticks, times.sockets, times.connections.insert ?_⟩
  show (timeout, q.ticks + timeout) = (timeout, s.ticks + timeout)
  rw [times.ticks]

theorem Times.close (times : s.Times q) :
    wp (fun _ => True) (close ref) (fun _ s' => s'.Matches q (.close ref)) s := by
  cases ref with
  | sock id =>
    unfold Proxy.close closeSocket
    dsimp only
    rw [wp_bind, wp_get]
    split
    · rw [wp_modify]
      have closed : Times { s with sockets := s.sockets.erase id } (q.close (.sock id)) :=
        ⟨times.ticks, times.sockets.erase, times.connections⟩
      exact ⟨_, rfl, closed.destroy⟩
    · trivial
  | conn id =>
    unfold Proxy.close closeConnection
    dsimp only
    rw [wp_bind, wp_get]
    split
    · rw [wp_modify]
      have closed : Times { s with connections := s.connections.erase id } (q.close (.conn id)) :=
        ⟨times.ticks, times.sockets, times.connections.erase⟩
      exact ⟨_, rfl, closed.destroy.destroy⟩
    · trivial

end Proxy

end ProxyServer
