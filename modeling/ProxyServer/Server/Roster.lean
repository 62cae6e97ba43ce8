import ProxyServer.Server.Steps

/-!
# Entries that are set aside

The services and one more entry of the queue are set aside, as they are in a state. What keeps
them: their elements, times, handlers, messages and pending resolutions stay, and nothing else
has one of their descriptors or messages.
-/

namespace ProxyServer

open Wp

/-! ### Who holds which message -/

/-- The handler belongs to the entry and captured the message. -/
def Handler.Holds (h : Handler) (it : EntryRef) (n : MsgId) : Prop :=
  match h with
  | .readRequest source m _ _ => it = source.entry ∧ n = m
  | .readResponse source m _ _ => it = source.entry ∧ n = m
  | .send dest ref _ _ => it = dest.entry ∧ n = ref.id
  | .transferServer c _ m => it = .conn c ∧ n = m
  | .transferClient c m => it = .conn c ∧ n = m
  | .connectTransfer c _ x y => it = .conn c ∧ (n = x ∨ n = y)
  | _ => False

theorem Handler.Holds.unique {h : Handler} {it it' : EntryRef} {n : MsgId} (held : h.Holds it n) (held' : h.Holds it' n) :
    it = it' := by
  cases h with
  | readRequest | readResponse | send | transferServer | transferClient | connectTransfer => exact held.1.trans held'.1.symm
  | _ => exact held.elim

/-- The entries, their handlers and what these captured, and what was observed. -/
structure Roster where
  sockets : Store SocketEntry
  connections : Store Connection
  handlers : Fd → Option Handler
  onResolve : Fd × Bytes → Option Pending
  timer : SocketId
  notifier : SocketId
  listener : SocketId
  ticks : Nat
  requests : MsgId → ClientRequest
  responses : MsgId → ServerResponse
  raws : MsgId → RawMessage
  nextMessage : MsgId
  trace : List Obs

namespace Roster

def Service (b : Roster) (it : EntryRef) : Prop := it = .sock b.timer ∨ it = .sock b.notifier ∨ it = .sock b.listener

instance Service.decide (b : Roster) (it : EntryRef) : Decidable (b.Service it) := inferInstanceAs (Decidable (_ ∨ _))

/-- No later entry gets this identity. -/
def Known (b : Roster) : EntryRef → Prop
  | .sock id => id < b.sockets.next
  | .conn c => c < b.connections.next

/-- The descriptor is one of the entry's. -/
def Has (b : Roster) (it : EntryRef) (f : Fd) : Prop :=
  match it with
  | .sock id => ∃ entry, b.sockets.get id = some entry ∧ entry.elem.fd = f
  | .conn c => ∃ conn, b.connections.get c = some conn ∧ (conn.client.fd = f ∨ conn.server.fd = f)

/-- Only handlers of the entry hold the message. -/
structure Lent (b : Roster) (it : EntryRef) (n : MsgId) : Prop where
  known : n < b.nextMessage
  only : ∀ {f h it'}, b.handlers f = some h → h.Holds it' n → it' = it

def Manned (b : Roster) : Prop := ∀ id, b.Service (.sock id) → (b.sockets.get id).isSome

end Roster

/-- The services and an entry, as they are in the state `base`. -/
structure Reserve where
  base : Roster
  entry : EntryRef

namespace Reserve

def Aside (p : Reserve) (it : EntryRef) : Prop := it = p.entry ∨ p.base.Service it

abbrev Guest (p : Reserve) (it : EntryRef) : Prop := ¬p.Aside it

def Has (p : Reserve) (f : Fd) : Prop := ∃ it, p.Aside it ∧ p.base.Has it f

def Captures (p : Reserve) (n : MsgId) : Prop := ∃ f h, p.base.handlers f = some h ∧ h.Holds p.entry n

/-- The observation says nothing of what is set aside. -/
structure Spares (p : Reserve) (o : Obs) : Prop where
  said : ∀ c d, p.Aside (.conn c) → o.adds c d = d
  given : ∀ f, p.Has f → o.gives f = []

/-- An element that is not set aside. -/
structure Foreign (p : Reserve) (e : EpollElem) : Prop where
  apart : ¬p.Has e.fd
  timeout : e.timeout ≤ LONG_SOCKET_TIMEOUT
  expires : e.expiresIn ≤ p.base.ticks + LONG_SOCKET_TIMEOUT

structure ForeignLink (p : Reserve) (conn : Connection) : Prop where
  client : p.Foreign conn.client
  server : p.Foreign conn.server
  timeout : conn.timeout ≤ LONG_SOCKET_TIMEOUT
  expires : conn.expiresIn ≤ p.base.ticks + LONG_SOCKET_TIMEOUT

/-- A service is missed only if it was closed before. -/
def Allows (p : Reserve) (e : Fault) : Prop := e = .service → ¬p.base.Manned

theorem allows_closed (p : Reserve) (it : EntryRef) : p.Allows (.useAfterClose it) := nofun

theorem allows_null (p : Reserve) : p.Allows .nullElem := nofun

theorem allows_disabled (p : Reserve) : p.Allows .disabled := nofun

end Reserve

/-- What is set aside is in `m` as it was. -/
structure Kept (p : Reserve) (m : Roster) : Prop where
  present : ¬p.Has 0
  keyed : ∀ id entry, p.Aside (.sock id) → p.base.sockets.get id = some entry → p.Has entry.key
  services : m.timer = p.base.timer ∧ m.notifier = p.base.notifier ∧ m.listener = p.base.listener
  ticks : m.ticks = p.base.ticks
  known : ∀ it, p.Aside it → m.Known it
  socket : ∀ id, p.Aside (.sock id) → m.sockets.get id = p.base.sockets.get id
  connection : ∀ c, p.Aside (.conn c) → m.connections.get c = p.base.connections.get c
  handlers : ∀ f, p.Has f → m.handlers f = p.base.handlers f
  pending : ∀ key, p.Has key.1 → m.onResolve key = p.base.onResolve key
  messages : ∀ n, p.Captures n →
    n < m.nextMessage ∧ m.requests n = p.base.requests n ∧ m.responses n = p.base.responses n ∧ m.raws n = p.base.raws n
  sockets : m.sockets.Forall fun id entry => p.Guest (.sock id) → ¬p.Has entry.key ∧ p.Foreign entry.elem
  connections : m.connections.Forall fun c conn => p.Guest (.conn c) → p.ForeignLink conn
  lent : ∀ {f h it n}, m.handlers f = some h → h.Holds it n → m.Lent it n
  said : ∀ c, p.Aside (.conn c) → dialogue m.trace c = dialogue p.base.trace c
  given : ∀ f, p.Has f → givenTo m.trace f = givenTo p.base.trace f

namespace Kept

variable {p : Reserve} {m : Roster} {id : Nat} {c : Nat} {f : Fd} {entry : SocketEntry} {e : EpollElem} {conn : Connection}
  {h : Option Handler} {n : MsgId}

theorem manned (kept : Kept p m) (service : p.base.Service (.sock id)) :
    m.sockets.get id = p.base.sockets.get id := kept.socket id (Or.inr service)

theorem guest_socket (kept : Kept p m) : p.Guest (.sock m.sockets.next) :=
  fun aside => Nat.lt_irrefl _ (kept.known _ aside)

theorem guest_connection (kept : Kept p m) : p.Guest (.conn m.connections.next) :=
  fun aside => Nat.lt_irrefl _ (kept.known _ aside)

theorem setHandler (kept : Kept p m) (apart : ¬p.Has f) (holds : ∀ h', h = some h' → ∀ it n, h'.Holds it n → m.Lent it n) :
    Kept p { m with handlers := fun g => if g = f then h else m.handlers g } :=
  { kept with
    handlers := by
      intro g reserved
      dsimp only
      rw [if_neg (by rintro rfl; exact apart reserved)]
      exact kept.handlers g reserved
    lent := by
      have lent : ∀ {g h' it n}, (if g = f then h else m.handlers g) = some h' → h'.Holds it n → m.Lent it n := by
        intro g h' it n installed held
        split at installed
        · exact holds h' installed it n held
        · exact kept.lent installed held
      intro g h' it n installed held
      refine ⟨(lent installed held).known, fun {g' h'' it'} installed' held' => ?_⟩
      dsimp only at installed installed'
      split at installed'
      · split at installed
        · cases installed.symm.trans installed'
          exact held'.unique held
        · exact ((holds h'' installed' it' n held').only installed held).symm
      · exact (lent installed held).only installed' held' }

/-- A handler that holds no message. -/
theorem setPlain {h : Handler} (kept : Kept p m) (apart : ¬p.Has f) (plain : ∀ it n, ¬h.Holds it n) :
    Kept p { m with handlers := fun g => if g = f then some h else m.handlers g } :=
  kept.setHandler apart fun h' same it n held => by
    cases same
    exact absurd held (plain it n)

theorem dropHandler (kept : Kept p m) (apart : ¬p.Has f) :
    Kept p { m with handlers := fun g => if g = f then none else m.handlers g } := kept.setHandler apart nofun

theorem setSocket (kept : Kept p m) (guest : p.Guest (.sock id)) (other : ¬p.Has entry.key ∧ p.Foreign entry.elem) :
    Kept p { m with sockets := m.sockets.set id entry } :=
  { kept with
    socket := by
      intro id' aside
      rw [Store.get_set, if_neg (by rintro rfl; exact guest aside)]
      exact kept.socket id' aside
    known := fun it aside => by cases it <;> exact kept.known _ aside
    sockets := kept.sockets.set fun _ => other
    lent := fun installed held => ⟨(kept.lent installed held).known, (kept.lent installed held).only⟩ }

theorem insertSocket (kept : Kept p m) (other : ¬p.Has entry.key ∧ p.Foreign entry.elem) :
    Kept p { m with sockets := m.sockets.insert entry } :=
  { kept with
    socket := by
      intro id' aside
      rw [Store.get_insert, if_neg (by rintro rfl; exact kept.guest_socket aside)]
      exact kept.socket id' aside
    known := fun it aside => by
      cases it with
      | sock id => exact Nat.lt_succ_of_lt (kept.known _ aside)
      | conn c => exact kept.known _ aside
    sockets := kept.sockets.insert fun _ => other
    lent := fun installed held => ⟨(kept.lent installed held).known, (kept.lent installed held).only⟩ }

theorem eraseSocket (kept : Kept p m) (guest : p.Guest (.sock id)) :
    Kept p { m with sockets := m.sockets.erase id } :=
  { kept with
    socket := by
      intro id' aside
      rw [Store.get_erase, if_neg (by rintro rfl; exact guest aside)]
      exact kept.socket id' aside
    known := fun it aside => by cases it <;> exact kept.known _ aside
    sockets := kept.sockets.erase
    lent := fun installed held => ⟨(kept.lent installed held).known, (kept.lent installed held).only⟩ }

theorem setConnection (kept : Kept p m) (guest : p.Guest (.conn c)) (foreign : p.ForeignLink conn) :
    Kept p { m with connections := m.connections.set c conn } :=
  { kept with
    connection := by
      intro c' aside
      rw [Store.get_set, if_neg (by rintro rfl; exact guest aside)]
      exact kept.connection c' aside
    known := fun it aside => by cases it <;> exact kept.known _ aside
    connections := kept.connections.set fun _ => foreign
    lent := fun installed held => ⟨(kept.lent installed held).known, (kept.lent installed held).only⟩ }

theorem insertConnection (kept : Kept p m) (foreign : p.ForeignLink conn) :
    Kept p { m with connections := m.connections.insert conn } :=
  { kept with
    connection := by
      intro c' aside
      rw [Store.get_insert, if_neg (by rintro rfl; exact kept.guest_connection aside)]
      exact kept.connection c' aside
    known := fun it aside => by
      cases it with
      | sock id => exact kept.known _ aside
      | conn c => exact Nat.lt_succ_of_lt (kept.known _ aside)
    connections := kept.connections.insert fun _ => foreign
    lent := fun installed held => ⟨(kept.lent installed held).known, (kept.lent installed held).only⟩ }

theorem eraseConnection (kept : Kept p m) (guest : p.Guest (.conn c)) :
    Kept p { m with connections := m.connections.erase c } :=
  { kept with
    connection := by
      intro c' aside
      rw [Store.get_erase, if_neg (by rintro rfl; exact guest aside)]
      exact kept.connection c' aside
    known := fun it aside => by cases it <;> exact kept.known _ aside
    connections := kept.connections.erase
    lent := fun installed held => ⟨(kept.lent installed held).known, (kept.lent installed held).only⟩ }

theorem setPending {onResolve : Fd × Bytes → Option Pending} (kept : Kept p m)
    (same : ∀ key, p.Has key.1 → onResolve key = m.onResolve key) : Kept p { m with onResolve } :=
  { kept with
    pending := fun key reserved => (same key reserved).trans (kept.pending key reserved)
    lent := fun installed held => ⟨(kept.lent installed held).known, (kept.lent installed held).only⟩
    known := fun it aside => by cases it <;> exact kept.known _ aside }

/-- Another message is written, or made. -/
theorem setMessages {requests : MsgId → ClientRequest} {responses : MsgId → ServerResponse} {raws : MsgId → RawMessage}
    {next : MsgId} (kept : Kept p m) (more : m.nextMessage ≤ next)
    (same : ∀ n, p.Captures n → n < m.nextMessage →
      requests n = m.requests n ∧ responses n = m.responses n ∧ raws n = m.raws n) :
    Kept p { m with requests, responses, raws, nextMessage := next } :=
  { kept with
    messages := by
      intro n captured
      obtain ⟨known, rqst, resp, raw⟩ := kept.messages n captured
      obtain ⟨rqst', resp', raw'⟩ := same n captured known
      exact ⟨Nat.lt_of_lt_of_le known more, rqst'.trans rqst, resp'.trans resp, raw'.trans raw⟩
    lent := fun installed held =>
      ⟨Nat.lt_of_lt_of_le (kept.lent installed held).known more, (kept.lent installed held).only⟩
    known := fun it aside => by cases it <;> exact kept.known _ aside }

theorem observe {o : Obs} (kept : Kept p m) (spares : p.Spares o) : Kept p { m with trace := m.trace ++ [o] } :=
  { kept with
    known := fun it aside => by cases it <;> exact kept.known _ aside
    lent := fun installed held => ⟨(kept.lent installed held).known, (kept.lent installed held).only⟩
    said := by
      intro c aside
      rw [dialogue_append, spares.said c _ aside]
      exact kept.said c aside
    given := by
      intro f reserved
      rw [givenTo_append, spares.given f reserved, List.append_nil]
      exact kept.given f reserved }

/-- No handler holds a message that is new. -/
theorem new (kept : Kept p m) {it : EntryRef} {h : Handler} (installed : m.handlers f = some h) : ¬h.Holds it m.nextMessage :=
  fun held => Nat.lt_irrefl _ (kept.lent installed held).known

end Kept

/-- What is set aside is kept, and the messages from `n` on are lent to the entry. -/
structure Lending (p : Reserve) (it : EntryRef) (n : MsgId) (m : Roster) : Prop where
  kept : Kept p m
  new : ∀ n', n ≤ n' → n' < m.nextMessage → m.Lent it n'

/-- A message is made for the entry. -/
theorem Lending.make {p : Reserve} {it : EntryRef} {n : MsgId} {m : Roster} {requests : MsgId → ClientRequest}
    {responses : MsgId → ServerResponse} {raws : MsgId → RawMessage} (lending : Lending p it n m)
    (same : ∀ n, n < m.nextMessage → requests n = m.requests n ∧ responses n = m.responses n ∧ raws n = m.raws n) :
    Lending p it n { m with requests, responses, raws, nextMessage := m.nextMessage + 1 } where
  kept := lending.kept.setMessages (Nat.le_succ _) fun n _ known => same n known
  new n' beyond below := by
    refine ⟨below, fun {f h it'} installed held => ?_⟩
    rcases Nat.lt_succ_iff_lt_or_eq.mp below with earlier | rfl
    · exact (lending.new n' beyond earlier).only installed held
    · exact absurd held (lending.kept.new installed)

theorem Lending.observe {p : Reserve} {it : EntryRef} {n : MsgId} {m : Roster} {o : Obs} (lending : Lending p it n m)
    (spares : p.Spares o) : Lending p it n { m with trace := m.trace ++ [o] } where
  kept := lending.kept.observe spares
  new n' beyond below := ⟨below, (lending.new n' beyond below).only⟩

theorem Kept.lending {p : Reserve} {m : Roster} (kept : Kept p m) (it : EntryRef) : Lending p it m.nextMessage m :=
  ⟨kept, fun _ beyond below => absurd below (Nat.not_lt.mpr beyond)⟩

end ProxyServer
