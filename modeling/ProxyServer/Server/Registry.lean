import ProxyServer.Server.Ledger

/-!
# Who owns what

The state of the server without its times and event masks: which client and which
server each entry owns, the handlers, the pending resolutions and the messages.
The operations on it keep every handler with the element that owns its descriptor.
-/

namespace ProxyServer

/-- A client and its latest `connect_to_server` call. -/
structure Client where
  fd : Fd
  call : Option Nat
  deriving DecidableEq, Repr

structure SocketView where
  key : Fd
  client : Client
  deriving DecidableEq, Repr

structure Link where
  client : Client
  server : Fd
  /-- The server has been connected. -/
  established : Bool
  deriving DecidableEq, Repr

@[ext]
structure Registry where
  socket : SocketId → Option SocketView
  connection : ConnId → Option Link
  handlers : Fd → Option Handler
  onResolve : Fd × Bytes → Option Pending
  resolving : List (Fd × Bytes)
  listener : SocketId
  notifier : SocketId
  timer : SocketId
  ledger : Ledger

/-! ### The element of a handler -/

def AfterRequest.source : AfterRequest → ElemRef
  | .firstRequestRead client => .sock client
  | .reuse conn _ => .client conn

def AfterResponse.source : AfterResponse → ElemRef
  | .handleValidationResponse conn _ _ => .server conn

def AfterSend.dest : AfterSend → ElemRef
  | .readResponse dest _ _ => dest
  | .startTransfer conn _ => .server conn
  | .reuseConnection conn _ => .client conn
  | .handleConnect conn => .client conn
  | .closeSent it => .sock it
  | .close404 client => .sock client

/-- What is done when a message is sent concerns the element it was sent to. -/
def AfterSend.Follows (next : AfterSend) (dest : ElemRef) : Prop :=
  next.dest = dest ∧ match next with
    | .readResponse _ iterator next => iterator = dest.entry ∧ next.source = dest
    | _ => True

/-- The captures of a closure name one element and its entry. -/
def Handler.Coherent : Handler → Prop
  | .readRequest source _ iterator next => iterator = source.entry ∧ next.source = source
  | .readResponse source _ iterator next => iterator = source.entry ∧ next.source = source
  | .send dest _ iterator next => iterator = dest.entry ∧ next.Follows dest
  | .connectTransfer _ _ inMessage outMessage => inMessage ≠ outMessage
  | _ => True

/-- A handler that is not installed for a connection attempt. -/
def Handler.Settled : Handler → Prop
  | .resolving .. | .connecting .. | .serverConnect .. => False
  | _ => True

namespace Registry

def fd? (v : Registry) : ElemRef → Option Fd
  | .sock id => (v.socket id).map (·.client.fd)
  | .client conn => (v.connection conn).map (·.client.fd)
  | .server conn => (v.connection conn).map (·.server)

def owner (v : Registry) : Handler → ElemRef
  | .listener => .sock v.listener
  | .notifier => .sock v.notifier
  | .timer => .sock v.timer
  | .resolving sock _ => .sock sock
  | .connecting conn _ _ => .client conn
  | .serverConnect conn _ => .server conn
  | .readRequest source _ _ _ => source
  | .readResponse source _ _ _ => source
  | .send dest _ _ _ => dest
  | .transferServer conn _ _ => .server conn
  | .transferClient conn _ => .client conn
  | .reused conn => .server conn
  | .connectTransfer conn side _ _ => side.elem conn

/-! ### Invariants -/

/-- Every descriptor is owned once, and every handler is installed for the element
that it captured. -/
structure Owned (v : Registry) : Prop where
  present : ∀ {r f}, v.fd? r = some f → f ≠ 0
  unique : ∀ {r r' f}, v.fd? r = some f → v.fd? r' = some f → r = r'
  keyed : ∀ {id e}, v.socket id = some e → e.key = e.client.fd
  owns : ∀ {f h}, v.handlers f = some h → h.Coherent ∧ v.fd? (v.owner h) = some f
  client : ∀ {f c socket host}, v.handlers f = some (.connecting c socket host) → socket = f
  server : ∀ {f c ip}, v.handlers f = some (.serverConnect c ip) → v.fd? (.client c) = some ip.socket
  linking : ∀ {c l}, v.connection c = some l → l.established = false →
    ∃ ip, v.handlers l.server = some (.serverConnect c ip) ∧
      v.handlers l.client.fd = some (.connecting c ip.socket ip.host)

/-- The entry `it` waits for the pending resolution `key`, and the latest call of
its client satisfies `P`. -/
inductive Serves (v : Registry) (P : Option Nat → Prop) (key : Fd × Bytes) : EntryRef → Prop where
  | resolving (id : SocketId) (e : SocketView) (live : v.socket id = some e)
      (installed : v.handlers key.1 = some (.resolving id key.2)) (latest : P e.client.call) :
      v.Serves P key (.sock id)
  | connecting (c : ConnId) (l : Link) (ip : ResolvedIp) (live : v.connection c = some l)
      (unestablished : l.established = false) (installed : v.handlers l.server = some (.serverConnect c ip))
      (same : (ip.socket, ip.host) = key) (latest : P l.client.call) : v.Serves P key (.conn c)

/-- Some entry waits for `key`. -/
abbrev Waits (v : Registry) (key : Fd × Bytes) (it : EntryRef) : Prop := v.Serves (fun _ => True) key it

/-- What an entry waits for is pending, and for a pending resolution that is in
flight an entry waits. -/
structure Awaited (v : Registry) : Prop where
  pending : ∀ {key it}, v.Waits key it → (v.onResolve key).isSome
  attended : ∀ {key}, key ∈ v.resolving → (v.onResolve key).isSome → ∃ it, v.Waits key it

/-- Every pending resolution is that of the latest call of a live client. -/
def Current (v : Registry) : Prop :=
  ∀ key q, v.onResolve key = some q → ∃ it, v.Serves (· = some q.call) key it

variable {v w : Registry} {f : Fd} {key : Fd × Bytes} {it : EntryRef} {P : Option Nat → Prop}
  {K : Fd × Bytes → Prop}

/-- No entry begins to wait, and those that wait for a key of `K` that stays pending
go on waiting. -/
structure Keeps (K : Fd × Bytes → Prop) (v w : Registry) : Prop where
  flight : w.resolving ⊆ v.resolving
  entry : ∀ {key q}, w.onResolve key = some q → v.onResolve key = some q
  waited : ∀ {key it}, w.Waits key it → w.onResolve key = v.onResolve key ∧ ∃ it', v.Waits key it'
  served : ∀ {P key it}, K key → (w.onResolve key).isSome → v.Serves P key it → ∃ it', w.Serves P key it'

theorem Awaited.keeps (awaited : v.Awaited) (keeps : Keeps (· ∈ w.resolving) v w) : w.Awaited where
  pending waits := by
    obtain ⟨same, it', before⟩ := keeps.waited waits
    rw [same]
    exact awaited.pending before
  attended := by
    intro key queued entry
    obtain ⟨q, found⟩ := Option.isSome_iff_exists.mp entry
    obtain ⟨it, waits⟩ := awaited.attended (keeps.flight queued) (by rw [keeps.entry found]; rfl)
    exact keeps.served queued entry waits

theorem Current.keeps (current : v.Current) (keeps : Keeps (fun _ => True) v w) : w.Current := by
  intro key q found
  obtain ⟨it, serves⟩ := current key q (keeps.entry found)
  exact keeps.served trivial (by rw [found]; rfl) serves

theorem Serves.imp {P' : Option Nat → Prop} (serves : v.Serves P key it) (weaker : ∀ call, P call → P' call) :
    v.Serves P' key it := by
  cases serves with
  | resolving id e live installed latest => exact .resolving id e live installed (weaker _ latest)
  | connecting c l ip live unestablished installed same latest =>
    exact .connecting c l ip live unestablished installed same (weaker _ latest)

/-! ### Owned descriptors -/

theorem Owned.server_ne (own : v.Owned) {c : ConnId} {l : Link} (live : v.connection c = some l) :
    l.client.fd ≠ l.server := by
  intro same
  have client : v.fd? (.client c) = some l.client.fd := by simp [fd?, live]
  have server : v.fd? (.server c) = some l.client.fd := by simp [fd?, live, same]
  exact absurd (own.unique client server) (by simp)

theorem Owned.established (own : v.Owned) {h : Handler} {c : ConnId} {l : Link}
    (installed : v.handlers f = some h) (settled : h.Settled) (live : v.connection c = some l)
    (here : f = l.client.fd ∨ f = l.server) : l.established = true := by
  by_contra open_
  obtain ⟨ip, server, client⟩ := own.linking live (by simpa using open_)
  rcases here with rfl | rfl
  · rw [client] at installed
    cases installed
    exact settled
  · rw [server] at installed
    cases installed
    exact settled

/-! ### Handlers -/

def setHandler (v : Registry) (f : Fd) (h : Handler) : Registry :=
  { v with handlers := fun other => if other = f then some h else v.handlers other }

@[simp] theorem fd?_setHandler (h : Handler) (r : ElemRef) : (v.setHandler f h).fd? r = v.fd? r := by
  cases r <;> rfl

@[simp] theorem owner_setHandler (h h' : Handler) : (v.setHandler f h).owner h' = v.owner h' := by
  cases h' <;> rfl

/-- A descriptor that no connection attempt relies on. -/
def Free (v : Registry) (f : Fd) : Prop :=
  (∀ c l, v.connection c = some l → l.established = false → f ≠ l.client.fd ∧ f ≠ l.server)

theorem Owned.setHandler (own : v.Owned) {h : Handler} (coherent : h.Coherent)
    (owner : v.fd? (v.owner h) = some f) (settled : h.Settled ∨ ∃ id host, h = .resolving id host)
    (free : v.Free f) : (v.setHandler f h).Owned where
  present h := own.present (by simpa using h)
  unique h h' := own.unique (by simpa using h) (by simpa using h')
  keyed := own.keyed
  owns := by
    intro other h' installed
    simp only [Registry.setHandler] at installed
    split at installed
    · rename_i same
      cases installed
      exact ⟨coherent, by simpa [same] using owner⟩
    · simpa using own.owns installed
  client := by
    intro other c socket host installed
    simp only [Registry.setHandler] at installed
    split at installed
    · cases installed
      rcases settled with settled | ⟨id, host, settled⟩
      · exact settled.elim
      · cases settled
    · exact own.client installed
  server := by
    intro other c ip installed
    simp only [Registry.setHandler] at installed
    split at installed
    · cases installed
      rcases settled with settled | ⟨id, host, settled⟩
      · exact settled.elim
      · cases settled
    · simpa using own.server installed
  linking := by
    intro c l live open_
    obtain ⟨client, server⟩ := free c l live open_
    obtain ⟨ip, atServer, atClient⟩ := own.linking live open_
    refine ⟨ip, ?_, ?_⟩
    · simp only [Registry.setHandler, if_neg (Ne.symm server), atServer]
    · simp only [Registry.setHandler, if_neg (Ne.symm client), atClient]

theorem Keeps.setHandler {h : Handler} (settled : h.Settled) (free : v.Free f)
    (unneeded : ∀ id host, v.handlers f = some (.resolving id host) → K (f, host) →
      v.onResolve (f, host) = none) : Keeps K v (v.setHandler f h) where
  flight := fun _ queued => queued
  entry := id
  waited := by
    intro key it waits
    refine ⟨rfl, it, ?_⟩
    cases waits with
    | resolving id e live installed latest =>
      simp only [Registry.setHandler] at installed
      split at installed
      · cases installed
        exact settled.elim
      · exact .resolving id e live installed latest
    | connecting c l ip live unestablished installed same latest =>
      simp only [Registry.setHandler, if_neg (Ne.symm (free c l live unestablished).2)] at installed
      exact .connecting c l ip live unestablished installed same latest
  served := by
    intro P key it relevant entry serves
    refine ⟨it, ?_⟩
    cases serves with
    | resolving id e live installed latest =>
      refine .resolving id e live ?_ latest
      simp only [Registry.setHandler]
      split
      · rename_i same
        obtain ⟨_, host⟩ := key
        subst same
        have gone := unneeded id host installed relevant
        simp only [Registry.setHandler, gone] at entry
        cases entry
      · exact installed
    | connecting c l ip live unestablished installed same latest =>
      refine .connecting c l ip live unestablished ?_ same latest
      simp only [Registry.setHandler, if_neg (Ne.symm (free c l live unestablished).2), installed]

/-! ### Closing -/

/-- The entries that satisfy `p` are closed, with their handlers. Pending
resolutions may be forgotten, of their clients only. -/
structure Drops (p : EntryRef → Prop) (v w : Registry) : Prop where
  socket : ∀ {id e}, w.socket id = some e ↔ v.socket id = some e ∧ ¬p (.sock id)
  connection : ∀ {c l}, w.connection c = some l ↔ v.connection c = some l ∧ ¬p (.conn c)
  handlers : ∀ {f h}, w.handlers f = some h ↔ v.handlers f = some h ∧ ∀ r, p r.entry → v.fd? r ≠ some f
  resolving : w.resolving = v.resolving
  services : w.listener = v.listener ∧ w.notifier = v.notifier ∧ w.timer = v.timer
  ledger : w.ledger = v.ledger
  forgotten : ∀ {key q}, w.onResolve key = some q → v.onResolve key = some q
  kept : ∀ {key}, w.onResolve key ≠ v.onResolve key → ∃ r, p r.entry ∧ v.fd? r = some key.1

variable {p : EntryRef → Prop}

theorem Drops.fd? (drops : Drops p v w) {r : ElemRef} :
    w.fd? r = some f ↔ v.fd? r = some f ∧ ¬p r.entry := by
  cases r with
  | sock id =>
    simp only [Registry.fd?, Option.map_eq_some_iff, drops.socket, ElemRef.entry]
    grind
  | client c =>
    simp only [Registry.fd?, Option.map_eq_some_iff, drops.connection, ElemRef.entry]
    grind
  | server c =>
    simp only [Registry.fd?, Option.map_eq_some_iff, drops.connection, ElemRef.entry]
    grind

theorem Drops.owner (drops : Drops p v w) (h : Handler) : w.owner h = v.owner h := by
  obtain ⟨listener, notifier, timer⟩ := drops.services
  cases h <;> simp [Registry.owner, listener, notifier, timer]

theorem Drops.alive (drops : Drops p v w) (own : v.Owned) {r : ElemRef} (owner : v.fd? r = some f)
    (alive : ¬p r.entry) : w.handlers f = v.handlers f ∧ ∀ host, w.onResolve (f, host) = v.onResolve (f, host) := by
  have only : ∀ r', p r'.entry → v.fd? r' ≠ some f := fun r' dropped owner' =>
    alive (own.unique owner owner' ▸ dropped)
  refine ⟨?_, fun host => ?_⟩
  · cases installed : v.handlers f with
    | some h => exact drops.handlers.mpr ⟨installed, only⟩
    | none =>
      cases found : w.handlers f with
      | none => rfl
      | some h =>
        rw [(drops.handlers.mp found).1] at installed
        cases installed
  · by_contra changed
    obtain ⟨r', dropped, owner'⟩ := drops.kept changed
    exact only r' dropped owner'

theorem Owned.drops (own : v.Owned) (drops : Drops p v w) : w.Owned where
  present h := own.present (drops.fd?.mp h).1
  unique h h' := own.unique (drops.fd?.mp h).1 (drops.fd?.mp h').1
  keyed h := own.keyed (drops.socket.mp h).1
  owns := by
    intro f h installed
    obtain ⟨before, only⟩ := drops.handlers.mp installed
    obtain ⟨coherent, owner⟩ := own.owns before
    refine ⟨coherent, ?_⟩
    rw [drops.owner, drops.fd?]
    exact ⟨owner, fun dropped => only _ dropped owner⟩
  client h := own.client (drops.handlers.mp h).1
  server := by
    intro f c ip installed
    obtain ⟨before, only⟩ := drops.handlers.mp installed
    rw [drops.fd?]
    exact ⟨own.server before, fun dropped => only (.server c) dropped (own.owns before).2⟩
  linking := by
    intro c l live open_
    obtain ⟨live, alive⟩ := drops.connection.mp live
    obtain ⟨ip, server, client⟩ := own.linking live open_
    refine ⟨ip, ?_, ?_⟩
    · rw [(drops.alive own (r := .server c) (by simp [Registry.fd?, live]) alive).1, server]
    · rw [(drops.alive own (r := .client c) (by simp [Registry.fd?, live]) alive).1, client]

theorem Drops.serves (drops : Drops p v w) (own : v.Owned) (alive : ¬p it) (serves : v.Serves P key it) :
    w.Serves P key it := by
  cases serves with
  | resolving id e live installed latest =>
    exact .resolving id e (drops.socket.mpr ⟨live, alive⟩)
      (by rw [(drops.alive own (own.owns installed).2 alive).1, installed]) latest
  | connecting c l ip live unestablished installed same latest =>
    exact .connecting c l ip (drops.connection.mpr ⟨live, alive⟩) unestablished
      (by rw [(drops.alive own (own.owns installed).2 alive).1, installed]) same latest

theorem Drops.waited (drops : Drops p v w) (own : v.Owned) (waits : w.Waits key it) :
    w.onResolve key = v.onResolve key ∧ v.Waits key it := by
  cases waits with
  | resolving id e live installed latest =>
    obtain ⟨live, alive⟩ := drops.socket.mp live
    have before := (drops.handlers.mp installed).1
    exact ⟨(drops.alive own (own.owns before).2 alive).2 key.2, .resolving id e live before latest⟩
  | connecting c l ip live unestablished installed same latest =>
    obtain ⟨live, alive⟩ := drops.connection.mp live
    have before := (drops.handlers.mp installed).1
    subst same
    exact ⟨(drops.alive own (own.server before) alive).2 ip.host,
      .connecting c l ip live unestablished before rfl latest⟩

theorem Keeps.drops (own : v.Owned) (drops : Drops p v w)
    (unneeded : ∀ key it, p it → v.Waits key it → K key → w.onResolve key = none) : Keeps K v w where
  flight := by rw [drops.resolving]; exact fun _ queued => queued
  entry := drops.forgotten
  waited waits := ⟨(drops.waited own waits).1, _, (drops.waited own waits).2⟩
  served := by
    intro P key it relevant entry serves
    by_cases dropped : p it
    · rw [unneeded key it dropped (serves.imp fun _ _ => trivial) relevant] at entry
      cases entry
    · exact ⟨it, drops.serves own dropped serves⟩

end Registry

end ProxyServer
