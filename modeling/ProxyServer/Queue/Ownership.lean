import Mathlib.Data.List.Nodup
import Mathlib.Logic.Equiv.Basic
import ProxyServer.Foundation.Runs
import ProxyServer.Queue.Registration

/-!
# Who owns a descriptor

Objects of `epoll_elem` that are made, moved, updated and destroyed, with the map of
handlers in `epoll_core` and what the kernel knows: `descriptors_owned` says that every
descriptor that is open has one owner.
-/

namespace ProxyServer.Ownership

/-- `epoll_elem`, with the pointer to the epoll, which is null in one that owns nothing.
The timeout is not set by every constructor. -/
structure Elem where
  epoll : Bool
  fd : Fd
  events : FdState
  timeout : Option Nat
  expiresIn : Option Nat
  deriving DecidableEq, Repr

/-- `epoll_elem()` -/
def Elem.null : Elem := { epoll := false, fd := 0, events := .WAIT, timeout := none, expiresIn := none }

/-- `epoll_elem(epoll, fd, state)`, or with the timeout and `cur_ticks`. -/
def Elem.new (fd : Fd) (state : FdState) (limit : Option (Nat × Nat)) : Elem :=
  { epoll := true, fd, events := state, timeout := limit.map (·.1), expiresIn := limit.map fun l => l.2 + l.1 }

variable {H : Type}

abbrev ElemId := Nat

/-- What a program does with its objects. -/
inductive ElemCall (H : Type) where
  | make
  /-- A constructor with a descriptor that was just opened, and with the timeout and
  `cur_ticks` and the handler that it may have. -/
  | construct (fd : Fd) (state : FdState) (limit : Option (Nat × Nat)) (handler : Option H)
  | moveConstruct (other : ElemId)
  | moveAssign (this other : ElemId)
  | updateState (this : ElemId) (state : FdState)
  | updateHandler (this : ElemId) (handler : H)
  | update (this : ElemId) (state : FdState) (handler : H)
  | changeTimeout (this : ElemId) (timeout : Nat)
  | destroy (this : ElemId)

/-- The objects that are alive, and what they own. The handlers that were given are kept with
the numbers of the descriptors: not in the source. -/
structure World (H : Type) where
  core : Core H
  elems : Store Elem
  given : List (Nat × H)

namespace World

def start : World H := { core := .start, elems := .empty, given := [] }

def find (w : World H) (this : ElemId) : Except ElemFault Elem :=
  match w.elems.get this with
  | some e => .ok e
  | none => .error .disabled

def construct (w : World H) (fd : Fd) (state : FdState) (limit : Option (Nat × Nat)) (handler : Option H) :
    Except ElemFault (World H) := do
  let core ← w.core.openFd fd
  let core ← core.registerFd fd state handler
  return { w with core, elems := w.elems.insert (.new fd state limit) }

def make (w : World H) : World H := { w with elems := w.elems.insert .null }

/-- `swap(epoll_elem &first, epoll_elem &other)` -/
def swap (w : World H) (first other : ElemId) : Except ElemFault (World H) := do
  let e ← w.find first
  let e' ← w.find other
  return { w with elems := (w.elems.set first e').set other e }

/-- `epoll_elem(epoll_elem &&other)` -/
def moveConstruct (w : World H) (other : ElemId) : Except ElemFault (World H) := do
  let _ ← w.find other
  w.make.swap w.elems.next other

/-- `operator=(epoll_elem &&other)` -/
def moveAssign (w : World H) (this other : ElemId) : Except ElemFault (World H) := w.swap this other

def updateState (w : World H) (this : ElemId) (state : FdState) : Except ElemFault (World H) := do
  let e ← w.find this
  if e.events ≠ state then
    if e.epoll then
      let core ← w.core.updateFd e.fd state
      return { w with core, elems := w.elems.set this { e with events := state } }
    else .error .nullElem
  else return w

def updateHandler (w : World H) (this : ElemId) (handler : H) : Except ElemFault (World H) := do
  let e ← w.find this
  if e.epoll then return { w with core := w.core.updateFdHandler e.fd handler } else .error .nullElem

def changeTimeout (w : World H) (this : ElemId) (timeout : Nat) : Except ElemFault (World H) := do
  let e ← w.find this
  return { w with elems := w.elems.set this { e with timeout := some timeout } }

/-- `~epoll_elem()` -/
def unregister (core : Core H) (e : Elem) : Except ElemFault (Core H) :=
  if e.epoll ∧ e.fd ≠ 0 then core.unregisterFd e.fd else .ok core

/-- `~epoll_elem()`, and then `~file_descriptor()` of its member. -/
def destroy (w : World H) (this : ElemId) : Except ElemFault (World H) := do
  let e ← w.find this
  let core ← unregister w.core e
  return { w with core := if e.fd ≠ 0 then core.closeFd e.fd else core, elems := w.elems.erase this }

def call (w : World H) : ElemCall H → Except ElemFault (World H)
  | .make => .ok w.make
  | .construct fd state limit handler => w.construct fd state limit handler
  | .moveConstruct other => w.moveConstruct other
  | .moveAssign this other => w.moveAssign this other
  | .updateState this state => w.updateState this state
  | .updateHandler this handler => w.updateHandler this handler
  | .update this state handler => do
    let w ← w.updateState this state
    w.updateHandler this handler
  | .changeTimeout this timeout => w.changeTimeout this timeout
  | .destroy this => w.destroy this

/-- The handler that a program gives with a call, and the number of the descriptor that is to
have it: the one that was just opened, or that of the object. -/
def gives (w : World H) : ElemCall H → Option (Nat × H)
  | .construct _ _ _ handler => handler.map (w.core.next, ·)
  | .updateHandler this handler | .update this _ handler =>
    (w.elems.get this).bind fun e => (w.core.files e.fd).map (·, handler)
  | _ => none

def step (w : World H) (c : ElemCall H) : Except ElemFault (World H) :=
  (w.call c).map fun t => { t with given := (w.gives c).toList ++ w.given }

/-- The handler that the descriptor of this number was given last. -/
def lastGiven (w : World H) (n : Nat) : Option H := (w.given.find? (·.1 = n)).map (·.2)

/-- The object owns the descriptor. -/
def Owns (w : World H) (this : ElemId) (fd : Fd) : Prop := ∃ e, w.elems.get this = some e ∧ e.fd = fd ∧ fd ≠ 0

/-- Each descriptor that is open has one owner and is the ones registered, with the mask of
the owner, and only these have handlers, the last that they were given. What is not open
any more was unregistered and closed once. -/
structure Owned (w : World H) : Prop where
  owner : ∀ fd, (w.core.files fd).isSome = true → ∃! this, w.Owns this fd
  registered : ∀ fd, (w.core.interests fd).isSome = true ↔ ∃ this, w.Owns this fd
  isOpen : ∀ this fd, w.Owns this fd → (w.core.files fd).isSome = true
  events : ∀ this e, w.elems.get this = some e → e.fd ≠ 0 → w.core.interests e.fd = some e.events
  keys : ∀ fd, (w.core.handlers fd).isSome = true → (w.core.interests fd).isSome = true
  handler : ∀ fd n, w.core.files fd = some n → w.core.handlers fd = w.lastGiven n
  released : ∀ n < w.core.next, (∀ fd, w.core.files fd ≠ some n) →
    w.core.unregistered.count (some n) = 1 ∧ w.core.closed.count (some n) = 1
  kept : ∀ fd n, w.core.files fd = some n →
    w.core.unregistered.count (some n) = 0 ∧ w.core.closed.count (some n) = 0
  numbered : ∀ x ∈ w.core.unregistered ++ w.core.closed, ∃ n < w.core.next, x = some n

end World

/-! ### What the objects own -/

namespace World

/-- An object is null or owns a descriptor alone, whose mask in the kernel it keeps, and
no descriptor is without an owner. -/
structure Held (w : World H) : Prop where
  sound : w.core.Sound
  valid : ∀ this e, w.elems.get this = some e →
    e.epoll = false ∧ e.fd = 0 ∨ e.epoll = true ∧ w.core.interests e.fd = some e.events
  alone : ∀ this that e e', w.elems.get this = some e → w.elems.get that = some e' → e.fd = e'.fd → e.fd ≠ 0 →
    this = that
  held : ∀ fd, (w.core.files fd).isSome = true → ∃ this e, w.elems.get this = some e ∧ e.fd = fd

theorem held_start : Held (start : World H) where
  sound := Core.sound_start
  valid _ _ here := by cases here
  alone _ _ _ _ here := by cases here
  held _ here := by cases here

variable {w w' : World H} {this other : ElemId} {e : Elem} {fd : Fd} {state : FdState} {handler : H} {n : Nat}

theorem find_ok (found : w.find this = .ok e) : w.elems.get this = some e := by
  unfold find at found
  cases here : w.elems.get this with
  | none =>
    rw [here] at found
    cases found
  | some e' =>
    rw [here] at found
    cases found
    rfl

/-- The descriptor of an object that has an epoll is open. -/
theorem Held.isOpen (held : Held w) (here : w.elems.get this = some e) (epoll : e.epoll = true) :
    e.fd ≠ 0 ∧ (w.core.files e.fd).isSome = true ∧ w.core.interests e.fd = some e.events := by
  rcases held.valid this e here with ⟨null, _⟩ | ⟨_, mask⟩
  · rw [epoll] at null
    cases null
  · have isOpen : (w.core.files e.fd).isSome = true := by
      rw [← held.sound.registered, mask]
      rfl
    refine ⟨fun zero => ?_, isOpen, mask⟩
    rw [zero, held.sound.ledger.zero] at isOpen
    cases isOpen

/-- Another object, that owns nothing or what nothing owned. -/
theorem Held.insert {core : Core H} (held : Held w) (sound : core.Sound)
    (valid : e.epoll = false ∧ e.fd = 0 ∨ e.epoll = true ∧ core.interests e.fd = some e.events)
    (alone : ∀ this e', w.elems.get this = some e' → e'.fd = e.fd → e.fd = 0)
    (masks : ∀ fd, fd ≠ e.fd → core.interests fd = w.core.interests fd)
    (files : ∀ fd, fd ≠ e.fd → core.files fd = w.core.files fd) : Held { w with core, elems := w.elems.insert e } := by
  have older : ∀ {this e'}, (w.elems.insert e).get this = some e' → this = w.elems.next ∧ e' = e ∨
      this ≠ w.elems.next ∧ w.elems.get this = some e' := by
    intro this e' here
    rw [Store.get_insert] at here
    split at here
    · rename_i last
      cases here
      exact Or.inl ⟨last, rfl⟩
    · rename_i before
      exact Or.inr ⟨before, here⟩
  constructor
  · exact sound
  · intro this e' here
    rcases older here with ⟨_, rfl⟩ | ⟨_, before⟩
    · exact valid
    · rcases held.valid this e' before with null | ⟨epoll, mask⟩
      · exact Or.inl null
      · right
        refine ⟨epoll, ?_⟩
        dsimp only
        rw [masks e'.fd, mask]
        intro same
        have zero := alone this e' before same
        rw [← same] at zero
        exact (held.isOpen before epoll).1 zero
  · intro this that e' e'' here there same positive
    rcases older here with ⟨last, rfl⟩ | ⟨_, before⟩
    · rcases older there with ⟨last', rfl⟩ | ⟨_, before'⟩
      · rw [last, last']
      · exact absurd (alone that e'' before' same.symm) positive
    · rcases older there with ⟨_, rfl⟩ | ⟨_, before'⟩
      · rw [same] at positive
        exact absurd (alone this e' before same) positive
      · exact held.alone this that e' e'' before before' same positive
  · intro fd isOpen
    by_cases new : fd = e.fd
    · refine ⟨w.elems.next, e, ?_, new.symm⟩
      rw [Store.get_insert, if_pos rfl]
    · dsimp only at isOpen
      rw [files fd new] at isOpen
      obtain ⟨this, e', here, same⟩ := held.held fd isOpen
      refine ⟨this, e', ?_, same⟩
      have low := Store.get_lt here
      rw [Store.get_insert, if_neg (Nat.ne_of_lt low)]
      exact here

theorem Held.make (held : Held w) : Held w.make := by
  refine held.insert held.sound (Or.inl ⟨rfl, rfl⟩) (fun _ _ _ _ => rfl) (fun _ _ => rfl) (fun _ _ => rfl)

theorem Held.construct {limit : Option (Nat × Nat)} {given : Option H} (held : Held w)
    (made : w.construct fd state limit given = .ok w') : Held w' := by
  obtain ⟨core, opened, made⟩ := Runs.bind_ok.mp made
  obtain ⟨core', registered, made⟩ := Runs.bind_ok.mp made
  cases made
  obtain ⟨positive, fresh, _⟩ := Core.openFd_ok opened
  obtain ⟨sound, files, interests, -, -⟩ := held.sound.register opened registered
  apply held.insert sound
  · right
    refine ⟨rfl, ?_⟩
    rw [interests]
    exact Function.update_self ..
  · intro this e here same
    rcases held.valid this e here with ⟨_, zero⟩ | ⟨epoll, _⟩
    · exact same.symm.trans zero
    · have isOpen := (held.isOpen here epoll).2.1
      rw [same] at isOpen
      dsimp only [Elem.new] at isOpen
      rw [fresh] at isOpen
      cases isOpen
  · intro other different
    rw [interests]
    exact Function.update_of_ne different ..
  · intro other different
    rw [files]
    exact Function.update_of_ne different ..

theorem swap_ok {first : ElemId} (swapped : w.swap first other = .ok w') :
    w'.core = w.core ∧ ∀ this, w'.elems.get this = w.elems.get (Equiv.swap first other this) := by
  obtain ⟨e, found, swapped⟩ := Runs.bind_ok.mp swapped
  obtain ⟨e', found', swapped⟩ := Runs.bind_ok.mp swapped
  cases swapped
  have here := find_ok found
  have there := find_ok found'
  refine ⟨rfl, fun this => ?_⟩
  dsimp only
  rw [Equiv.swap_apply_def, Store.get_set, Store.get_set_live here, Store.get_set_live here]
  by_cases isOther : this = other
  · subst isOther
    rw [if_pos rfl]
    by_cases isFirst : this = first
    · subst isFirst
      rw [if_pos rfl, if_pos rfl, there]
      exact here.symm.trans there
    · rw [if_neg isFirst, if_neg isFirst, if_pos rfl, there, here]
      rfl
  · rw [if_neg isOther]
    by_cases isFirst : this = first
    · rw [if_pos isFirst, if_pos isFirst, there]
    · rw [if_neg isFirst, if_neg isFirst, if_neg isOther]

/-- A move gives what two objects own to each other. -/
theorem Held.swap {first : ElemId} (held : Held w) (swapped : w.swap first other = .ok w') : Held w' := by
  obtain ⟨core, gets⟩ := swap_ok swapped
  constructor
  · rw [core]
    exact held.sound
  · intro this e here
    rw [gets] at here
    rw [core]
    exact held.valid _ e here
  · intro this that e e' here there same positive
    rw [gets] at here there
    have swaps := held.alone _ _ e e' here there same positive
    exact (Equiv.swap first other).injective swaps
  · intro fd isOpen
    rw [core] at isOpen
    obtain ⟨this, e, here, same⟩ := held.held fd isOpen
    refine ⟨Equiv.swap first other this, e, ?_, same⟩
    rw [gets, Equiv.swap_apply_self]
    exact here

/-- An object keeps its descriptor, and the mask in the kernel follows it. -/
theorem Held.set {core : Core H} {e' : Elem} (held : Held w) (sound : core.Sound) (here : w.elems.get this = some e)
    (fd : e'.fd = e.fd) (epoll : e'.epoll = e.epoll) (files : core.files = w.core.files)
    (mask : e.epoll = true → core.interests e.fd = some e'.events)
    (masks : ∀ other, other ≠ e.fd → core.interests other = w.core.interests other) :
    Held { w with core, elems := w.elems.set this e' } := by
  have gets : ∀ {that e''}, (w.elems.set this e').get that = some e'' →
      that = this ∧ e'' = e' ∨ that ≠ this ∧ w.elems.get that = some e'' := by
    intro that e'' there
    rw [Store.get_set_live here] at there
    split at there
    · rename_i same
      cases there
      exact Or.inl ⟨same, rfl⟩
    · rename_i different
      exact Or.inr ⟨different, there⟩
  have before : ∀ {that e''}, (w.elems.set this e').get that = some e'' →
      ∃ e₀, w.elems.get that = some e₀ ∧ e₀.fd = e''.fd := by
    intro that e'' there
    rcases gets there with ⟨rfl, rfl⟩ | ⟨_, there⟩
    · exact ⟨e, here, fd.symm⟩
    · exact ⟨e'', there, rfl⟩
  constructor
  · exact sound
  · intro that e'' there
    dsimp only at there ⊢
    rcases gets there with ⟨rfl, rfl⟩ | ⟨different, there⟩
    · rw [fd, epoll]
      rcases held.valid that e here with null | ⟨on, _⟩
      · exact Or.inl null
      · exact Or.inr ⟨on, mask on⟩
    · rcases held.valid that e'' there with null | ⟨on, old⟩
      · exact Or.inl null
      · right
        refine ⟨on, ?_⟩
        rw [masks e''.fd, old]
        intro same
        exact different (held.alone that this e'' e there here same (held.isOpen there on).1)
  · intro a b e₁ e₂ first second same positive
    obtain ⟨d₁, first, same₁⟩ := before first
    obtain ⟨d₂, second, same₂⟩ := before second
    rw [← same₁] at positive
    exact held.alone a b d₁ d₂ first second (by rw [same₁, same, same₂]) positive
  · intro other isOpen
    dsimp only at isOpen
    rw [files] at isOpen
    obtain ⟨that, e'', there, same⟩ := held.held other isOpen
    by_cases isThis : that = this
    · subst isThis
      rw [here] at there
      cases there
      refine ⟨that, e', ?_, fd.trans same⟩
      rw [Store.get_set_live here, if_pos rfl]
    · refine ⟨that, e'', ?_, same⟩
      rw [Store.get_set_live here, if_neg isThis]
      exact there

theorem Held.updateState (held : Held w) (updated : w.updateState this state = .ok w') : Held w' := by
  obtain ⟨e, found, updated⟩ := Runs.bind_ok.mp updated
  have here := find_ok found
  split at updated
  · split at updated
    · obtain ⟨core, changed, updated⟩ := Runs.bind_ok.mp updated
      cases updated
      obtain ⟨sound, files, interests, -, -⟩ := held.sound.updateFd changed
      refine held.set sound here rfl rfl files (fun _ => ?_) (fun other different => ?_)
      · rw [interests]
        exact Function.update_self ..
      · rw [interests]
        exact Function.update_of_ne different ..
    · cases updated
  · cases updated
    exact held

theorem Held.updateHandler (held : Held w) (updated : w.updateHandler this handler = .ok w') : Held w' := by
  obtain ⟨e, found, updated⟩ := Runs.bind_ok.mp updated
  split at updated
  · rename_i epoll
    cases updated
    have isOpen := (held.isOpen (find_ok found) epoll).2.1
    have sound : Core.Sound (w.core.updateFdHandler e.fd handler) := held.sound.updateFdHandler isOpen
    rw [Core.updateFdHandler_eq] at sound ⊢
    exact ⟨sound, held.valid, held.alone, held.held⟩
  · cases updated

theorem Held.changeTimeout {timeout : Nat} (held : Held w) (changed : w.changeTimeout this timeout = .ok w') : Held w' := by
  obtain ⟨e, found, changed⟩ := Runs.bind_ok.mp changed
  cases changed
  have here := find_ok found
  exact held.set held.sound here rfl rfl rfl (fun epoll => (held.isOpen here epoll).2.2) (fun _ _ => rfl)

/-- An object is destroyed, and with it what it owns. -/
theorem Held.erase {core : Core H} (held : Held w) (sound : core.Sound) (here : w.elems.get this = some e)
    (masks : ∀ other, other ≠ e.fd → core.interests other = w.core.interests other)
    (files : ∀ other, (core.files other).isSome = true → other ≠ e.fd ∧ (w.core.files other).isSome = true) :
    Held { w with core, elems := w.elems.erase this } := by
  have gets : ∀ {that e'}, (w.elems.erase this).get that = some e' → that ≠ this ∧ w.elems.get that = some e' := by
    intro that e' there
    rw [Store.get_erase] at there
    split at there
    · cases there
    · rename_i different
      exact ⟨different, there⟩
  constructor
  · exact sound
  · intro that e' there
    obtain ⟨different, there⟩ := gets there
    rcases held.valid that e' there with none | ⟨on, old⟩
    · exact Or.inl none
    · right
      refine ⟨on, ?_⟩
      dsimp only
      rw [masks e'.fd, old]
      intro same
      exact different (held.alone that this e' e there here same (held.isOpen there on).1)
  · intro a b e₁ e₂ first second
    exact held.alone a b e₁ e₂ (gets first).2 (gets second).2
  · intro other isOpen
    obtain ⟨different, before⟩ := files other isOpen
    obtain ⟨that, e', there, same⟩ := held.held other before
    refine ⟨that, e', ?_, same⟩
    rw [Store.get_erase, if_neg]
    · exact there
    · rintro rfl
      rw [here] at there
      cases there
      exact different same.symm

theorem Held.destroy (held : Held w) (destroyed : w.destroy this = .ok w') : Held w' := by
  obtain ⟨e, found, destroyed⟩ := Runs.bind_ok.mp destroyed
  obtain ⟨core, unregistered, destroyed⟩ := Runs.bind_ok.mp destroyed
  cases destroyed
  unfold unregister at unregistered
  have here := find_ok found
  rcases held.valid this e here with ⟨null, zero⟩ | ⟨epoll, _⟩
  · rw [if_neg (fun both => both.2 zero)] at unregistered
    cases unregistered
    rw [if_neg (not_not_intro zero)]
    refine held.erase held.sound here (fun _ _ => rfl) (fun other isOpen => ⟨fun same => ?_, isOpen⟩)
    rw [same, zero, held.sound.ledger.zero] at isOpen
    cases isOpen
  · obtain ⟨positive, isOpen, _⟩ := held.isOpen here epoll
    rw [if_pos ⟨epoll, positive⟩] at unregistered
    rw [if_pos positive]
    obtain ⟨sound, files, interests, -, -⟩ := held.sound.release isOpen unregistered
    apply held.erase sound here
    · intro other different
      rw [interests]
      exact Function.update_of_ne different ..
    · intro other still
      rw [files, Function.update_apply] at still
      split at still
      · cases still
      · rename_i different
        exact ⟨different, still⟩

theorem Held.call {c : ElemCall H} (held : Held w) (called : w.call c = .ok w') : Held w' := by
  cases c with
  | make =>
    cases called
    exact held.make
  | construct fd state limit given => exact held.construct called
  | moveConstruct other =>
    obtain ⟨e, _, called⟩ := Runs.bind_ok.mp called
    exact held.make.swap called
  | moveAssign this other => exact held.swap called
  | updateState this state => exact held.updateState called
  | updateHandler this handler => exact held.updateHandler called
  | update this state handler =>
    obtain ⟨between, updated, called⟩ := Runs.bind_ok.mp called
    exact (held.updateState updated).updateHandler called
  | changeTimeout this timeout => exact held.changeTimeout called
  | destroy this => exact held.destroy called

/-! ### The handlers that were given -/

/-- Descriptors that are open have the handlers that they were given last. -/
structure Handled (w : World H) : Prop where
  handler : ∀ fd n, w.core.files fd = some n → w.core.handlers fd = w.lastGiven n
  low : ∀ g ∈ w.given, g.1 < w.core.next

theorem lastGiven_cons {m : Nat} {given : List (Nat × H)} :
    lastGiven { w with given := (m, handler) :: given } n =
      if m = n then some handler else lastGiven { w with given } n := by
  unfold lastGiven
  rw [List.find?_cons]
  by_cases same : m = n
  · simp [same]
  · simp [same]

/-- No handler was given to a number that is still to come. -/
theorem Handled.lastGiven_next (handled : Handled w) : w.lastGiven w.core.next = none := by
  unfold lastGiven
  rw [Option.map_eq_none_iff, List.find?_eq_none]
  intro g member same
  have low := handled.low g member
  rw [of_decide_eq_true same] at low
  exact Nat.lt_irrefl _ low

/-- What gives no handler leaves those that there are. -/
theorem Handled.keep (handled : Handled w) (files : w'.core.files = w.core.files)
    (handlers : w'.core.handlers = w.core.handlers) (next : w'.core.next = w.core.next) (given : w'.given = w.given) :
    Handled w' := by
  constructor
  · intro fd n here
    rw [files] at here
    rw [handlers, handled.handler fd n here]
    unfold lastGiven
    rw [given]
  · intro g member
    rw [next]
    rw [given] at member
    exact handled.low g member

theorem Handled.give (handled : Handled w) (ledger : w.core.Ledger) (isOpen : w.core.files fd = some n)
    (files : w'.core.files = w.core.files) (next : w'.core.next = w.core.next)
    (handlers : w'.core.handlers = Function.update w.core.handlers fd (some handler))
    (given : w'.given = (n, handler) :: w.given) : Handled w' := by
  have last : ∀ m, w'.lastGiven m = if n = m then some handler else w.lastGiven m := by
    intro m
    unfold lastGiven
    rw [given]
    exact lastGiven_cons
  constructor
  · intro other m here
    rw [files] at here
    rw [handlers, last, Function.update_apply]
    by_cases same : other = fd
    · subst same
      rw [isOpen] at here
      rw [if_pos rfl, if_pos (Option.some.inj here)]
    · rw [if_neg same, if_neg, handled.handler other m here]
      rintro rfl
      exact same (ledger.distinct other fd n here isOpen)
  · intro g member
    rw [next]
    rw [given] at member
    rcases List.mem_cons.mp member with rfl | older
    · exact ledger.low fd n isOpen
    · exact handled.low g older

/-- A descriptor that is opened may get a handler at once. -/
theorem Handled.opened {handler : Option H} (handled : Handled w) (ledger : w.core.Ledger)
    (files : w'.core.files = Function.update w.core.files fd (some w.core.next)) (next : w'.core.next = w.core.next + 1)
    (handlers : w'.core.handlers = Function.update w.core.handlers fd handler)
    (given : w'.given = (handler.map (w.core.next, ·)).toList ++ w.given) : Handled w' := by
  have last : ∀ m, w'.lastGiven m = if w.core.next = m then handler else w.lastGiven m := by
    intro m
    unfold lastGiven
    rw [given]
    cases handler with
    | none =>
      split
      · rename_i same
        rw [← same]
        exact handled.lastGiven_next
      · rfl
    | some handler => exact lastGiven_cons
  constructor
  · intro other m here
    rw [files, Function.update_apply] at here
    rw [handlers, last, Function.update_apply]
    split at here
    · rename_i same
      rw [if_pos same, if_pos (Option.some.inj here)]
    · rename_i different
      rw [if_neg different, if_neg (Nat.ne_of_gt (ledger.low other m here)), handled.handler other m here]
  · intro g member
    rw [next]
    rw [given] at member
    rcases List.mem_append.mp member with new | older
    · obtain ⟨handler, -, rfl⟩ := Option.map_eq_some_iff.mp (Option.mem_toList.mp new)
      exact Nat.lt_succ_self _
    · exact Nat.lt_succ_of_lt (handled.low g older)

theorem Handled.released (handled : Handled w) (files : w'.core.files = Function.update w.core.files fd none)
    (next : w'.core.next = w.core.next) (handlers : w'.core.handlers = Function.update w.core.handlers fd none)
    (given : w'.given = w.given) : Handled w' := by
  constructor
  · intro other m here
    rw [files, Function.update_apply] at here
    rw [handlers, Function.update_apply]
    split at here
    · cases here
    · rename_i different
      rw [if_neg different, handled.handler other m here]
      unfold lastGiven
      rw [given]
  · intro g member
    rw [next]
    rw [given] at member
    exact handled.low g member

theorem updateState_core (held : Held w) (updated : w.updateState this state = .ok w') :
    w'.core.files = w.core.files ∧ w'.core.handlers = w.core.handlers ∧ w'.core.next = w.core.next ∧
    (w'.elems.get this).map (·.fd) = (w.elems.get this).map (·.fd) := by
  obtain ⟨e, found, updated⟩ := Runs.bind_ok.mp updated
  split at updated
  · split at updated
    · obtain ⟨core, changed, updated⟩ := Runs.bind_ok.mp updated
      cases updated
      obtain ⟨-, files, -, next, handlers⟩ := held.sound.updateFd changed
      refine ⟨files, handlers, next, ?_⟩
      have here := find_ok found
      dsimp only
      rw [Store.get_set_live here, if_pos rfl, here]
      rfl
    · cases updated
  · cases updated
    exact ⟨rfl, rfl, rfl, rfl⟩

/-- The handler replaces that of the descriptor that the object owns. -/
theorem updateHandler_core (held : Held w) (updated : w.updateHandler this handler = .ok w') :
    ∃ e n, w.elems.get this = some e ∧ w.core.files e.fd = some n ∧ w'.core.files = w.core.files ∧
      w'.core.next = w.core.next ∧ w'.core.handlers = Function.update w.core.handlers e.fd (some handler) := by
  obtain ⟨e, found, updated⟩ := Runs.bind_ok.mp updated
  have here := find_ok found
  split at updated
  · rename_i epoll
    cases updated
    obtain ⟨n, isOpen⟩ := Option.isSome_iff_exists.mp (held.isOpen here epoll).2.1
    refine ⟨e, n, here, isOpen, ?_⟩
    dsimp only
    rw [Core.updateFdHandler_eq]
    exact ⟨rfl, rfl, rfl⟩
  · cases updated

theorem Handled.updated {between : World H} (handled : Handled w) (held : Held between) (files : between.core.files = w.core.files)
    (handlers : between.core.handlers = w.core.handlers) (next : between.core.next = w.core.next)
    (fds : (between.elems.get this).map (·.fd) = (w.elems.get this).map (·.fd)) (ledger : w.core.Ledger)
    (updated : between.updateHandler this handler = .ok w') :
    Handled { w' with given := (w.gives (.updateHandler this handler)).toList ++ w.given } := by
  obtain ⟨e, n, here, isOpen, files', next', handlers'⟩ := updateHandler_core held updated
  rw [files] at isOpen
  rw [here, Option.map_some] at fds
  obtain ⟨e', here', same⟩ := Option.map_eq_some_iff.mp fds.symm
  have last : w'.core.handlers = Function.update w.core.handlers e.fd (some handler) := by rw [handlers', handlers]
  refine handled.give ledger isOpen (files'.trans files) (next'.trans next) last ?_
  simp [gives, here', same, isOpen]

theorem Handled.destroy (handled : Handled w) (held : Held w) (destroyed : w.destroy this = .ok w') :
    Handled { w' with given := w.given } := by
  obtain ⟨e, found, destroyed⟩ := Runs.bind_ok.mp destroyed
  obtain ⟨core, unregistered, destroyed⟩ := Runs.bind_ok.mp destroyed
  cases destroyed
  unfold unregister at unregistered
  have here := find_ok found
  rcases held.valid this e here with ⟨null, zero⟩ | ⟨epoll, _⟩
  · rw [if_neg (fun both => both.2 zero)] at unregistered
    cases unregistered
    rw [if_neg (not_not_intro zero)]
    exact handled.keep rfl rfl rfl rfl
  · obtain ⟨positive, isOpen, _⟩ := held.isOpen here epoll
    rw [if_pos ⟨epoll, positive⟩] at unregistered
    rw [if_pos positive]
    obtain ⟨-, files, -, next, handlers⟩ := held.sound.release isOpen unregistered
    exact handled.released files next handlers rfl

theorem Handled.step {c : ElemCall H} (handled : Handled w) (held : Held w) (called : w.call c = .ok w') :
    Handled { w' with given := (w.gives c).toList ++ w.given } := by
  have ledger := held.sound.ledger
  cases c with
  | make =>
    cases called
    exact handled.keep rfl rfl rfl rfl
  | construct fd state limit handler =>
    obtain ⟨core, opened, called⟩ := Runs.bind_ok.mp called
    obtain ⟨core', registered, called⟩ := Runs.bind_ok.mp called
    cases called
    obtain ⟨-, files, -, next, handlers⟩ := held.sound.register opened registered
    exact handled.opened ledger files next handlers rfl
  | moveConstruct other =>
    obtain ⟨e, _, called⟩ := Runs.bind_ok.mp called
    have core := (swap_ok called).1
    exact handled.keep (by rw [core]; rfl) (by rw [core]; rfl) (by rw [core]; rfl) rfl
  | moveAssign this other =>
    have core := (swap_ok called).1
    exact handled.keep (by rw [core]) (by rw [core]) (by rw [core]) rfl
  | updateState this state =>
    obtain ⟨files, handlers, next, -⟩ := updateState_core held called
    exact handled.keep files handlers next rfl
  | updateHandler this handler => exact handled.updated held rfl rfl rfl rfl ledger called
  | update this state handler =>
    obtain ⟨between, updated, called⟩ := Runs.bind_ok.mp called
    obtain ⟨files, handlers, next, fds⟩ := updateState_core held updated
    exact handled.updated (held.updateState updated) files handlers next fds ledger called
  | changeTimeout this timeout =>
    obtain ⟨e, found, called⟩ := Runs.bind_ok.mp called
    cases called
    exact handled.keep rfl rfl rfl rfl
  | destroy this => exact handled.destroy held called

/-- What holds of the objects, and of the handlers that they were given. -/
structure Kept (w : World H) : Prop where
  held : Held w
  handled : Handled w

theorem kept_step {c : ElemCall H} (kept : Kept w) (stepped : w.step c = .ok w') : Kept w' := by
  obtain ⟨t, called, rfl⟩ := Runs.map_ok.mp stepped
  have held := kept.held.call called
  exact ⟨⟨held.sound, held.valid, held.alone, held.held⟩, kept.handled.step kept.held called⟩

theorem kept_start : Kept (start : World H) where
  held := held_start
  handled :=
    { handler := fun _ _ here => by cases here
      low := fun _ member => by cases member }

theorem Held.owns_iff (held : Held w) : (∃ this, w.Owns this fd) ↔ (w.core.files fd).isSome = true := by
  constructor
  · rintro ⟨this, e, here, rfl, positive⟩
    rcases held.valid this e here with ⟨_, zero⟩ | ⟨epoll, _⟩
    · exact absurd zero positive
    · exact (held.isOpen here epoll).2.1
  · intro isOpen
    obtain ⟨this, e, here, same⟩ := held.held fd isOpen
    refine ⟨this, e, here, same, ?_⟩
    rintro rfl
    rw [held.sound.ledger.zero] at isOpen
    cases isOpen

theorem Kept.owned (kept : Kept w) : Owned w := by
  obtain ⟨held, handled⟩ := kept
  have ledger := held.sound.ledger
  have gone : ∀ n fd, w.core.files fd = some n → some n ∉ w.core.closed := by
    intro n fd here closed
    obtain ⟨m, _, same, gone⟩ := ledger.released _ closed
    cases same
    exact gone fd here
  constructor
  · intro fd isOpen
    obtain ⟨this, owns⟩ := held.owns_iff.mpr isOpen
    refine ⟨this, owns, ?_⟩
    rintro that ⟨e', there, same', positive⟩
    obtain ⟨e, here, same, _⟩ := owns
    rw [← same'] at positive
    exact held.alone that this e' e there here (same'.trans same.symm) positive
  · intro fd
    rw [held.owns_iff, held.sound.registered]
  · intro this fd owns
    exact held.owns_iff.mp ⟨this, owns⟩
  · intro this e here positive
    rcases held.valid this e here with ⟨_, zero⟩ | ⟨_, mask⟩
    · exact absurd zero positive
    · exact mask
  · intro fd key
    rw [held.sound.registered]
    cases here : w.core.files fd with
    | none =>
      rw [held.sound.unhandled fd here] at key
      cases key
    | some n => rfl
  · exact handled.handler
  · intro n low none_open
    rw [ledger.both]
    rcases ledger.every n low with ⟨fd, here⟩ | closed
    · exact absurd here (none_open fd)
    · have once := List.count_eq_one_of_mem ledger.once closed
      exact ⟨once, once⟩
  · intro fd n here
    rw [ledger.both]
    have never := List.count_eq_zero.mpr (gone n fd here)
    exact ⟨never, never⟩
  · intro x member
    rw [ledger.both, List.mem_append, or_self] at member
    obtain ⟨n, low, same, _⟩ := ledger.released x member
    exact ⟨n, low, same⟩

/-- After every sequence of constructions, moves, updates and destructions each open
descriptor has one owner, which keeps its mask, and is registered with the handler that it
was given last, and what is not open any more was unregistered and closed once. -/
theorem descriptors_owned {calls : List (ElemCall H)} (ran : Runs.run step start calls = .ok w) : Owned w :=
  (Runs.invariant kept_start (fun _ _ _ kept stepped => kept_step kept stepped) ran).owned

def moves : List (ElemCall Bool) :=
  [.construct 5 .IN none (some false), .construct 6 .OUT (some (240, 2)) none, .moveConstruct 0,
    .update 2 (.union .IN .RDHUP) true, .moveAssign 1 2, .make, .moveAssign 3 2, .destroy 2, .destroy 1,
    .construct 5 .WAIT none none, .destroy 0, .updateHandler 4 false, .updateHandler 4 true]

theorem moves_owned : ∃ w : World Bool, Runs.run step start moves = .ok w ∧ w.core.handlers 5 = some true ∧ Owned w := by
  obtain ⟨w, ran, given⟩ : ∃ w : World Bool, Runs.run step start moves = .ok w ∧
      decide (w.core.handlers 5 = some true) = true := Runs.run_any (by decide)
  exact ⟨w, ran, of_decide_eq_true given, descriptors_owned ran⟩

/-! ### The epoll refuses nothing -/

theorem find_error {fault : ElemFault} (failed : w.find this = .error fault) : fault = .disabled := by
  unfold find at failed
  split at failed
  · cases failed
  · cases failed
    rfl

theorem openFd_error {fault : ElemFault} (failed : w.core.openFd fd = .error fault) : fault = .disabled := by
  unfold Core.openFd at failed
  split at failed
  · cases failed
  · cases failed
    rfl

theorem construct_accepted {limit : Option (Nat × Nat)} {given : Option H} (held : Held w) :
    w.construct fd state limit given ≠ .error .epollCtl := by
  intro refused
  rcases Runs.bind_error.mp refused with failed | ⟨core, opened, refused⟩
  · cases openFd_error failed
  · rcases Runs.bind_error.mp refused with refused | ⟨core', _, done⟩
    · obtain ⟨_, fresh, rfl⟩ := Core.openFd_ok opened
      unfold Core.registerFd at refused
      rw [if_pos] at refused
      · cases given with
        | none => cases refused
        | some handler => cases refused
      · refine ⟨?_, ?_⟩
        · dsimp only
          rw [Function.update_self]
          intro absent
          cases absent
        · have unregistered := held.sound.registered fd
          rw [fresh] at unregistered
          exact Option.not_isSome_iff_eq_none.mp (Bool.eq_false_iff.mp unregistered)
    · cases done

theorem updateState_accepted (held : Held w) : w.updateState this state ≠ .error .epollCtl := by
  intro refused
  rcases Runs.bind_error.mp refused with failed | ⟨e, found, refused⟩
  · cases find_error failed
  · split at refused
    · split at refused
      · rename_i epoll
        rcases Runs.bind_error.mp refused with refused | ⟨core, _, done⟩
        · have mask := (held.isOpen (find_ok found) epoll).2.2
          unfold Core.updateFd at refused
          rw [mask, if_pos (fun absent => by cases absent)] at refused
          cases refused
        · cases done
      · cases refused
    · cases refused

theorem updateHandler_accepted : w.updateHandler this handler ≠ .error .epollCtl := by
  intro refused
  rcases Runs.bind_error.mp refused with failed | ⟨e, found, refused⟩
  · cases find_error failed
  · split at refused
    · cases refused
    · cases refused

theorem swap_accepted {first : ElemId} : w.swap first other ≠ .error .epollCtl := by
  intro refused
  rcases Runs.bind_error.mp refused with failed | ⟨e, _, refused⟩
  · cases find_error failed
  · rcases Runs.bind_error.mp refused with failed | ⟨e', _, done⟩
    · cases find_error failed
    · cases done

theorem destroy_accepted (held : Held w) : w.destroy this ≠ .error .epollCtl := by
  intro refused
  rcases Runs.bind_error.mp refused with failed | ⟨e, found, refused⟩
  · cases find_error failed
  · rcases Runs.bind_error.mp refused with refused | ⟨core, _, done⟩
    · unfold unregister at refused
      split at refused
      · rename_i both
        have mask := (held.isOpen (find_ok found) both.1).2.2
        unfold Core.unregisterFd at refused
        rw [mask, if_pos (fun absent => by cases absent)] at refused
        cases refused
      · cases refused
    · cases done

theorem call_accepted {c : ElemCall H} (held : Held w) : w.call c ≠ .error .epollCtl := by
  cases c with
  | make =>
    intro refused
    cases refused
  | construct fd state limit given => exact construct_accepted held
  | moveConstruct other =>
    intro refused
    rcases Runs.bind_error.mp refused with failed | ⟨e, _, refused⟩
    · cases find_error failed
    · exact swap_accepted refused
  | moveAssign this other => exact swap_accepted
  | updateState this state => exact updateState_accepted held
  | updateHandler this handler => exact updateHandler_accepted
  | update this state handler =>
    intro refused
    rcases Runs.bind_error.mp refused with refused | ⟨between, _, refused⟩
    · exact updateState_accepted held refused
    · exact updateHandler_accepted refused
  | changeTimeout this timeout =>
    intro refused
    rcases Runs.bind_error.mp refused with failed | ⟨e, _, done⟩
    · cases find_error failed
    · cases done
  | destroy this => exact destroy_accepted held

/-- Nothing is registered twice, and nothing updated or removed that is not registered. -/
theorem run_accepted (calls : List (ElemCall H)) : Runs.run step start calls ≠ .error .epollCtl := by
  intro refused
  obtain ⟨w, c, kept, _, failed⟩ := Runs.failure_along kept_start
    (fun _ _ _ kept _ stepped => kept_step kept stepped) (Runs.Along.always (fun _ _ => trivial)) refused
  exact call_accepted kept.held (Runs.map_error.mp failed)

end World

end ProxyServer.Ownership
