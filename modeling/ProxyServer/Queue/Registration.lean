import Mathlib.Logic.Function.Basic
import ProxyServer.Queue.EpollQueue

/-!
# What is registered in the epoll

`epoll_core` with its map of handlers, and the kernel, which knows the descriptors that
are open and the masks of those that are registered. What is not open has no handler, and was
unregistered and closed once.
-/

namespace ProxyServer.Ownership

/-- `epoll_core` and the kernel. A descriptor that is opened gets a number that no other
one gets; what was unregistered and closed is kept by these numbers, and the kernel removes
what is closed from the epoll. -/
structure Core (H : Type) where
  files : Fd → Option Nat
  next : Nat
  interests : Fd → Option FdState
  handlers : Fd → Option H
  unregistered : List (Option Nat)
  closed : List (Option Nat)

inductive ElemFault where
  /-- The object is not alive, or the descriptor is not fresh. -/
  | disabled
  /-- The null pointer to the epoll is used. -/
  | nullElem
  /-- `epoll_ctl` fails. -/
  | epollCtl
  deriving DecidableEq, Repr

variable {H : Type}

namespace Core

def start : Core H :=
  { files := fun _ => none, next := 0, interests := fun _ => none, handlers := fun _ => none,
    unregistered := [], closed := [] }

/-- A call that opens the descriptor. -/
def openFd (s : Core H) (fd : Fd) : Except ElemFault (Core H) :=
  if fd ≠ 0 ∧ s.files fd = none then .ok { s with files := Function.update s.files fd (some s.next), next := s.next + 1 }
  else .error .disabled

/-- `handlers.insert({fd.get(), handler})`, which keeps a handler that is there. -/
def insert (s : Core H) (fd : Fd) (handler : H) : Core H :=
  { s with handlers := if (s.handlers fd).isSome then s.handlers else Function.update s.handlers fd (some handler) }

/-- `handlers.erase(fd.get())` -/
def erase (s : Core H) (fd : Fd) : Core H := { s with handlers := Function.update s.handlers fd none }

/-- `register_fd` -/
def registerFd (s : Core H) (fd : Fd) (events : FdState) (handler : Option H) : Except ElemFault (Core H) :=
  if s.files fd ≠ none ∧ s.interests fd = none then
    let s := { s with interests := Function.update s.interests fd (some events) }
    match handler with
    | some handler => .ok (s.insert fd handler)
    | none => .ok s
  else .error .epollCtl

/-- `unregister_fd` -/
def unregisterFd (s : Core H) (fd : Fd) : Except ElemFault (Core H) :=
  if s.interests fd ≠ none then
    .ok ({ s with interests := Function.update s.interests fd none, unregistered := s.files fd :: s.unregistered }.erase fd)
  else .error .epollCtl

/-- `update_fd` -/
def updateFd (s : Core H) (fd : Fd) (events : FdState) : Except ElemFault (Core H) :=
  if s.interests fd ≠ none then .ok { s with interests := Function.update s.interests fd (some events) }
  else .error .epollCtl

/-- `update_fd_handler` -/
def updateFdHandler (s : Core H) (fd : Fd) (handler : H) : Core H := (s.erase fd).insert fd handler

/-- `close` -/
def closeFd (s : Core H) (fd : Fd) : Core H :=
  { s with
    files := Function.update s.files fd none
    interests := Function.update s.interests fd none
    closed := s.files fd :: s.closed }

/-- The numbers of the descriptors: what is not open any more was unregistered and closed
once. -/
structure Ledger (s : Core H) : Prop where
  zero : s.files 0 = none
  low : ∀ fd n, s.files fd = some n → n < s.next
  distinct : ∀ fd other n, s.files fd = some n → s.files other = some n → fd = other
  released : ∀ x ∈ s.closed, ∃ n < s.next, x = some n ∧ ∀ fd, s.files fd ≠ some n
  every : ∀ n < s.next, (∃ fd, s.files fd = some n) ∨ some n ∈ s.closed
  once : s.closed.Nodup
  both : s.unregistered = s.closed

structure Sound (s : Core H) : Prop where
  ledger : s.Ledger
  unhandled : ∀ fd, s.files fd = none → s.handlers fd = none
  registered : ∀ fd, (s.interests fd).isSome = (s.files fd).isSome

theorem sound_start : Sound (start : Core H) where
  ledger :=
    { zero := rfl
      low := fun _ _ here => by cases here
      distinct := fun _ _ _ here => by cases here
      released := fun _ here => by cases here
      every := fun n low => absurd low (Nat.not_lt_zero n)
      once := List.nodup_nil
      both := rfl }
  unhandled _ _ := rfl
  registered _ := rfl

variable {s s' : Core H} {fd : Fd} {events : FdState} {handler : H} {n : Nat}

/-- The handler replaces what the descriptor has. -/
theorem insert_of_none (empty : s.handlers fd = none) :
    s.insert fd handler = { s with handlers := Function.update s.handlers fd (some handler) } := by
  unfold insert
  rw [empty]
  rfl

theorem updateFdHandler_eq :
    s.updateFdHandler fd handler = { s with handlers := Function.update s.handlers fd (some handler) } := by
  unfold updateFdHandler
  rw [insert_of_none (Function.update_self ..)]
  unfold erase
  rw [Function.update_idem]

/-- Masks and handlers are not in the ledger. -/
theorem Ledger.apart (ledger : Ledger s) (interests : Fd → Option FdState) (handlers : Fd → Option H) :
    Ledger { s with interests, handlers } :=
  ⟨ledger.zero, ledger.low, ledger.distinct, ledger.released, ledger.every, ledger.once, ledger.both⟩

theorem openFd_ok (opened : s.openFd fd = .ok s') : fd ≠ 0 ∧ s.files fd = none ∧
    s' = { s with files := Function.update s.files fd (some s.next), next := s.next + 1 } := by
  unfold openFd at opened
  split at opened
  · rename_i fresh
    cases opened
    exact ⟨fresh.1, fresh.2, rfl⟩
  · cases opened

/-- A descriptor that is opened gets the next number. -/
theorem Ledger.openFd (ledger : Ledger s) (opened : s.openFd fd = .ok s') : Ledger s' := by
  obtain ⟨positive, fresh, rfl⟩ := openFd_ok opened
  constructor
  · exact (Function.update_of_ne positive.symm _ _).trans ledger.zero
  · intro other n here
    dsimp only at here ⊢
    rw [Function.update_apply] at here
    split at here
    · cases here
      exact Nat.lt_succ_self _
    · exact Nat.lt_succ_of_lt (ledger.low other n here)
  · intro a b n first second
    dsimp only at first second
    rw [Function.update_apply] at first second
    split at first <;> split at second
    · rename_i a_eq b_eq
      rw [a_eq, b_eq]
    · cases first
      exact absurd (ledger.low b _ second) (Nat.lt_irrefl _)
    · cases second
      exact absurd (ledger.low a _ first) (Nat.lt_irrefl _)
    · exact ledger.distinct a b n first second
  · intro x member
    obtain ⟨n, low, rfl, gone⟩ := ledger.released x member
    refine ⟨n, Nat.lt_succ_of_lt low, rfl, fun other here => ?_⟩
    dsimp only at here
    rw [Function.update_apply] at here
    split at here
    · cases here
      exact Nat.lt_irrefl _ low
    · exact gone other here
  · intro n low
    rcases Nat.lt_succ_iff_lt_or_eq.mp low with earlier | now
    · rcases ledger.every n earlier with ⟨other, here⟩ | closed
      · left
        refine ⟨other, ?_⟩
        dsimp only
        rw [Function.update_of_ne _ _ _]
        · exact here
        · rintro rfl
          rw [fresh] at here
          cases here
      · exact Or.inr closed
    · subst now
      exact Or.inl ⟨fd, Function.update_self ..⟩
  · exact ledger.once
  · exact ledger.both

theorem registerFd_ok {given : Option H} (registered : s.registerFd fd events given = .ok s') :
    ∃ registered : Core H, registered = { s with interests := Function.update s.interests fd (some events) } ∧
      s' = given.elim registered (registered.insert fd) := by
  unfold registerFd at registered
  split at registered
  · cases given with
    | none =>
      cases registered
      exact ⟨_, rfl, rfl⟩
    | some handler =>
      cases registered
      exact ⟨_, rfl, rfl⟩
  · cases registered

/-- A descriptor that was just opened is registered, with the handler that it may have. -/
theorem Sound.register {opened : Core H} {given : Option H} (sound : Sound s) (isOpened : s.openFd fd = .ok opened)
    (registered : opened.registerFd fd events given = .ok s') : Sound s' ∧
    s'.files = Function.update s.files fd (some s.next) ∧ s'.interests = Function.update s.interests fd (some events) ∧
    s'.next = s.next + 1 ∧ s'.handlers = Function.update s.handlers fd given := by
  obtain ⟨positive, fresh, same⟩ := openFd_ok isOpened
  have ledger := sound.ledger.openFd isOpened
  have none_yet := sound.unhandled fd fresh
  have handled : s' = { opened with
      interests := Function.update s.interests fd (some events), handlers := Function.update s.handlers fd given } := by
    obtain ⟨t, same_t, rfl⟩ := registerFd_ok registered
    cases given with
    | none =>
      have kept : Function.update s.handlers fd none = s.handlers := Function.update_eq_self_iff.mpr none_yet.symm
      rw [Option.elim_none, same_t, same, kept]
    | some handler =>
      rw [Option.elim_some, insert_of_none (by rw [same_t, same]; exact none_yet), same_t, same]
  subst handled
  subst same
  refine ⟨⟨ledger.apart _ _, fun other closed => ?_, fun other => ?_⟩, rfl, rfl, rfl, rfl⟩
  · dsimp only at closed ⊢
    rw [Function.update_apply] at closed ⊢
    split at closed
    · cases closed
    · rename_i different
      rw [if_neg different]
      exact sound.unhandled other closed
  · dsimp only
    rw [Function.update_apply, Function.update_apply]
    split
    · rfl
    · exact sound.registered other

theorem Sound.updateFd (sound : Sound s) (updated : s.updateFd fd events = .ok s') : Sound s' ∧
    s'.files = s.files ∧ s'.interests = Function.update s.interests fd (some events) ∧ s'.next = s.next ∧
    s'.handlers = s.handlers := by
  unfold Core.updateFd at updated
  split at updated
  · rename_i present
    cases updated
    refine ⟨⟨sound.ledger.apart _ _, sound.unhandled, fun other => ?_⟩, rfl, rfl, rfl, rfl⟩
    dsimp only
    rw [Function.update_apply]
    split
    · rename_i same
      rw [same, ← sound.registered fd]
      exact (Option.isSome_iff_ne_none.mpr present).symm
    · exact sound.registered other
  · cases updated

theorem Sound.updateFdHandler (sound : Sound s) (isOpen : (s.files fd).isSome = true) :
    Sound (s.updateFdHandler fd handler) := by
  rw [updateFdHandler_eq]
  refine ⟨sound.ledger.apart _ _, fun other closed => ?_, sound.registered⟩
  dsimp only
  rw [Function.update_of_ne]
  · exact sound.unhandled other closed
  · rintro rfl
    rw [show s.files other = none from closed] at isOpen
    cases isOpen

/-- What is unregistered and closed. -/
def release (s : Core H) (fd : Fd) : Core H :=
  { s with
    files := Function.update s.files fd none
    interests := Function.update s.interests fd none
    handlers := Function.update s.handlers fd none
    unregistered := s.files fd :: s.unregistered
    closed := s.files fd :: s.closed }

theorem unregisterFd_ok (unregistered : s.unregisterFd fd = .ok s') : s'.closeFd fd = s.release fd := by
  unfold unregisterFd at unregistered
  split at unregistered
  · cases unregistered
    unfold closeFd erase release
    dsimp only
    rw [Function.update_idem]
  · cases unregistered

theorem files_release {other : Fd} (there : (s.release fd).files other = some n) : other ≠ fd ∧ s.files other = some n := by
  unfold release at there
  dsimp only at there
  rw [Function.update_apply] at there
  split at there
  · cases there
  · rename_i different
    exact ⟨different, there⟩

/-- The number of a descriptor that is closed is not given again. -/
theorem Ledger.release (ledger : Ledger s) (here : s.files fd = some n) : Ledger (s.release fd) := by
  constructor
  · show Function.update s.files fd none 0 = none
    rw [Function.update_apply, ledger.zero, ite_self]
  · intro other m there
    exact ledger.low other m (files_release there).2
  · intro a b m first second
    exact ledger.distinct a b m (files_release first).2 (files_release second).2
  · intro x member
    rcases List.mem_cons.mp member with rfl | older
    · refine ⟨n, ledger.low fd n here, here, fun other there => ?_⟩
      obtain ⟨different, there⟩ := files_release there
      exact different (ledger.distinct other fd n there here)
    · obtain ⟨m, low, same, gone⟩ := ledger.released x older
      exact ⟨m, low, same, fun other there => gone other (files_release there).2⟩
  · intro m low
    rcases ledger.every m low with ⟨other, there⟩ | closed
    · by_cases same : other = fd
      · subst same
        right
        rw [← there]
        exact List.mem_cons_self
      · left
        exact ⟨other, (Function.update_of_ne same _ _).trans there⟩
    · exact Or.inr (List.mem_cons_of_mem _ closed)
  · show (s.files fd :: s.closed).Nodup
    rw [List.nodup_cons, here]
    refine ⟨fun member => ?_, ledger.once⟩
    obtain ⟨m, _, same, gone⟩ := ledger.released _ member
    cases same
    exact gone fd here
  · show s.files fd :: s.unregistered = s.files fd :: s.closed
    rw [ledger.both]

/-- A descriptor that is unregistered and closed leaves nothing. -/
theorem Sound.release (sound : Sound s) (isOpen : (s.files fd).isSome = true)
    (unregistered : s.unregisterFd fd = .ok s') : Sound (s'.closeFd fd) ∧
    (s'.closeFd fd).files = Function.update s.files fd none ∧
    (s'.closeFd fd).interests = Function.update s.interests fd none ∧ (s'.closeFd fd).next = s.next ∧
    (s'.closeFd fd).handlers = Function.update s.handlers fd none := by
  obtain ⟨n, here⟩ := Option.isSome_iff_exists.mp isOpen
  rw [unregisterFd_ok unregistered]
  refine ⟨⟨sound.ledger.release here, ?_, ?_⟩, rfl, rfl, rfl, rfl⟩
  · intro other closed
    show Function.update s.handlers fd none other = none
    rw [Function.update_apply]
    split
    · rfl
    · rename_i different
      exact sound.unhandled other ((Function.update_of_ne different ..).symm.trans closed)
  · intro other
    show (Function.update s.interests fd none other).isSome = (Function.update s.files fd none other).isSome
    rw [Function.update_apply, Function.update_apply]
    split
    · rfl
    · exact sound.registered other

end Core

end ProxyServer.Ownership
