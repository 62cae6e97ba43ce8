import ProxyServer.Foundation.Store
import ProxyServer.Util.Bytes

/-!
# The queue

`fd_state`, `epoll_elem` and `connection`, and how the queue's containers refer to
them: an iterator is the identity of an entry, a reference names the entry and
the side.
-/

namespace ProxyServer

abbrev Fd := Nat

/-- `fd_state`: the events of a mask. -/
structure FdState where
  input : Bool
  output : Bool
  error : Bool
  hup : Bool
  rdhup : Bool
  deriving DecidableEq, Repr

namespace FdState

def WAIT : FdState := ⟨false, false, false, false, false⟩
def IN : FdState := { WAIT with input := true }
def OUT : FdState := { WAIT with output := true }
def ERROR : FdState := { WAIT with error := true }
def HUP : FdState := { WAIT with hup := true }
def RDHUP : FdState := { WAIT with rdhup := true }

/-- `first | second` -/
def union (a b : FdState) : FdState :=
  ⟨a.input || b.input, a.output || b.output, a.error || b.error, a.hup || b.hup, a.rdhup || b.rdhup⟩

/-- `first ^ second` -/
def xor (a b : FdState) : FdState :=
  ⟨a.input ^^ b.input, a.output ^^ b.output, a.error ^^ b.error, a.hup ^^ b.hup, a.rdhup ^^ b.rdhup⟩

/-- `state.is(st)`: one of the events of `st` is set. -/
def is (state st : FdState) : Bool :=
  (state.input && st.input) || (state.output && st.output) || (state.error && st.error) ||
    (state.hup && st.hup) || (state.rdhup && st.rdhup)

end FdState

def TICK_INTERVAL : Nat := 2
def SHORT_SOCKET_TIMEOUT : Nat := 60 * 4
def LONG_SOCKET_TIMEOUT : Nat := 60 * 20
def INFINITE_TIMEOUT : Nat := 2 ^ 32

/-- `epoll_elem`. One that was moved from, or default-constructed, has the
descriptor 0 and no epoll. -/
structure EpollElem where
  fd : Fd
  events : FdState
  timeout : Nat
  expiresIn : Nat
  /-- The latest `connect_to_server` call for this client: not in the source. -/
  call : Option Nat
  deriving DecidableEq, Repr

def EpollElem.null : EpollElem := { fd := 0, events := .WAIT, timeout := 0, expiresIn := 0, call := none }

/-- `epoll_elem(epoll, fd, state, timeout, cur_ticks)` -/
def EpollElem.new (fd : Fd) (state : FdState) (timeout ticks : Nat) : EpollElem :=
  { fd, events := state, timeout, expiresIn := ticks + timeout, call := none }

structure Connection where
  client : EpollElem
  server : EpollElem
  timeout : Nat
  expiresIn : Nat
  deriving DecidableEq, Repr

/-- A node of `queue.sockets`. -/
structure SocketEntry where
  key : Fd
  elem : EpollElem
  deriving DecidableEq, Repr

abbrev SocketId := Nat
abbrev ConnId := Nat

/-- An iterator into `queue.sockets` or `queue.connections`. -/
inductive EntryRef where
  | sock (id : SocketId)
  | conn (id : ConnId)
  deriving DecidableEq, Repr

/-- A reference to an `epoll_elem`. -/
inductive ElemRef where
  | sock (id : SocketId)
  | client (conn : ConnId)
  | server (conn : ConnId)
  deriving DecidableEq, Repr

/-- The entry that an element is part of. -/
def ElemRef.entry : ElemRef → EntryRef
  | .sock id => .sock id
  | .client conn => .conn conn
  | .server conn => .conn conn

end ProxyServer
