import ProxyServer.Request.Sendable
import ProxyServer.Server.Steps

/-!
# Messages of the server

Which messages the handlers and the pending resolutions captured, and the cache. What the
server adds is fit for what is done with it: a message that is to be sent is read, a response
that is read is at some point of its transfer, and what is cached can be restored.
-/

namespace ProxyServer

open Wp

/-! ### Captured messages -/

def AfterResponse.Laden : AfterResponse → Prop
  | .handleValidationResponse _ rqst cached => rqst.Sendable ∧ cached.Sendable

def AfterSend.Laden : AfterSend → Prop
  | .readResponse _ _ next => next.Laden
  | .startTransfer _ rqst => rqst.Sendable
  | _ => True

def Plan.Fit : Plan → Prop
  | .validate request cached => request.Sendable ∧ cached.Sendable
  | .establish resp => resp.Sendable
  | .transfer => True

/-- What is cached for a request can be restored. -/
theorem Cache.Orderly.planRequest {cache : Cache} (orderly : cache.Orderly) (rqst : ClientRequest) :
    ∃ plan, planRequest cache rqst = .ok plan ∧ plan.Fit := by
  unfold ProxyServer.planRequest
  dsimp only
  split
  · rename_i valid
    obtain ⟨value, held⟩ := isCached_iff.mp valid.2
    obtain ⟨cached, made, sendable⟩ := (orderly.restorable (SimpleCache.lookup_entries held)).restored
    have found : cache.getCached rqst.getHeader = .ok value := by
      unfold Cache.getCached SimpleCache.find
      rw [held]
    refine ⟨.validate (makeValidateRequest rqst.getHeader cached.getHeader) cached, ?_, ?_, sendable⟩
    · rw [found]
      show (do let cached ← BufferedMessage.ofCache value; _) = _
      rw [made]
      rfl
    · exact BufferedMessage.sendable_ofHeader _
  · split
    · exact ⟨.establish connectionEstablished, rfl, BufferedMessage.sendable_ofHeader _⟩
    · exact ⟨.transfer, rfl, trivial⟩

structure Manifest where
  handlers : Fd → Option Handler
  onResolve : Fd × Bytes → Option Pending
  cache : Cache
  requests : MsgId → ClientRequest
  responses : MsgId → ServerResponse
  nextMessage : MsgId

namespace Manifest

def Sendable (m : Manifest) : MessageRef → Prop
  | .request id => (m.requests id).Sendable
  | .response id => (m.responses id).Sendable

/-- The messages of the handler are fit for what it does with them. -/
def Bears (m : Manifest) : Handler → Prop
  | .readResponse _ _ _ next => next.Laden
  | .send _ ref _ next => ref.id < m.nextMessage ∧ m.Sendable ref ∧ next.Laden
  | .transferServer _ rqst resp => resp < m.nextMessage ∧ (m.responses resp).Streams ∧ rqst.Sendable
  | _ => True

structure Stowed (m : Manifest) : Prop where
  bears : ∀ {f h}, m.handlers f = some h → m.Bears h
  pending : ∀ {key q}, m.onResolve key = some q → q.next.request.Sendable
  cache : m.cache.Orderly

/-- Messages are added, handlers that bear theirs, and pending resolutions of requests that can be sent. -/
structure Grows (m m' : Manifest) : Prop where
  handlers : ∀ {f h}, m'.handlers f = some h → m.handlers f = some h ∨ m'.Bears h
  pending : ∀ {key q}, m'.onResolve key = some q → m.onResolve key = some q ∨ q.next.request.Sendable
  cache : m'.cache.Orderly
  requests : ∀ {id}, id < m.nextMessage → m'.requests id = m.requests id
  responses : ∀ {id}, id < m.nextMessage → m'.responses id = m.responses id
  next : m.nextMessage ≤ m'.nextMessage

variable {m m' m'' : Manifest} {h : Handler}

theorem Grows.refl (cache : m.cache.Orderly) : Grows m m :=
  ⟨Or.inl, Or.inl, cache, fun _ => rfl, fun _ => rfl, Nat.le_refl _⟩

theorem Grows.bears (grows : Grows m m') (bears : m.Bears h) : m'.Bears h := by
  cases h with
  | readResponse source message iterator next => exact bears
  | send dest ref iterator next =>
    obtain ⟨known, sendable, laden⟩ := bears
    refine ⟨Nat.lt_of_lt_of_le known grows.next, ?_, laden⟩
    cases ref with
    | request id =>
      have same : m'.requests id = m.requests id := grows.requests known
      show (m'.requests id).Sendable
      rw [same]
      exact sendable
    | response id =>
      have same : m'.responses id = m.responses id := grows.responses known
      show (m'.responses id).Sendable
      rw [same]
      exact sendable
  | transferServer conn rqst resp =>
    obtain ⟨known, streams, sendable⟩ := bears
    refine ⟨Nat.lt_of_lt_of_le known grows.next, ?_, sendable⟩
    rw [grows.responses known]
    exact streams
  | _ => trivial

theorem Grows.trans (first : Grows m m') (rest : Grows m' m'') : Grows m m'' where
  handlers installed := by
    rcases rest.handlers installed with before | bears
    · exact (first.handlers before).imp_right rest.bears
    · exact Or.inr bears
  pending found := (rest.pending found).elim first.pending Or.inr
  cache := rest.cache
  requests known := (rest.requests (Nat.lt_of_lt_of_le known first.next)).trans (first.requests known)
  responses known := (rest.responses (Nat.lt_of_lt_of_le known first.next)).trans (first.responses known)
  next := Nat.le_trans first.next rest.next

theorem Stowed.grows (stowed : m.Stowed) (grows : Grows m m') : m'.Stowed where
  bears installed := (grows.handlers installed).elim (fun before => grows.bears (stowed.bears before)) id
  pending found := (grows.pending found).elim stowed.pending id
  cache := grows.cache

/-- Handlers and pending resolutions are dropped, and no message changes. -/
theorem Grows.of_fewer (cache : m.cache.Orderly) {handlers : Fd → Option Handler} {onResolve : Fd × Bytes → Option Pending}
    (fewer : ∀ {f h}, handlers f = some h → m.handlers f = some h)
    (found : ∀ {key q}, onResolve key = some q → m.onResolve key = some q) : Grows m { m with handlers, onResolve } :=
  ⟨fun installed => Or.inl (fewer installed), fun here => Or.inl (found here), cache, fun _ => rfl, fun _ => rfl,
    Nat.le_refl _⟩

/-- A handler is installed that bears its messages. -/
theorem Grows.install (cache : m.cache.Orderly) (bears : m.Bears h) (f : Fd) :
    Grows m { m with handlers := fun other => if other = f then some h else m.handlers other } where
  handlers installed := by
    dsimp only at installed
    split at installed
    · cases installed
      exact Or.inr bears
    · exact Or.inl installed
  pending := Or.inl
  cache := cache
  requests _ := rfl
  responses _ := rfl
  next := Nat.le_refl _

end Manifest

def Registry.manifest (v : Registry) : Manifest where
  handlers := v.handlers
  onResolve := v.onResolve
  cache := v.ledger.cache
  requests := v.ledger.requests
  responses := v.ledger.responses
  nextMessage := v.ledger.nextMessage

/-- The failures that have to do with entries, and not with messages. -/
structure Lenient (E : Fault → Prop) : Prop where
  closed : ∀ it, E (.useAfterClose it)
  iterator : E .endIterator
  null : E .nullElem
  service : E .service

namespace Proxy

def manifest (s : Proxy) : Manifest := s.view.manifest

/-- `x` leaves messages and handlers alone, or fails as `E` allows. -/
def Idle {α : Type} (E : Fault → Prop) (x : ProxyM α) : Prop := ∀ s : Proxy, wp E x (fun _ t => t.manifest = s.manifest) s

/-- What `x` adds is fit for what is done with it, or `x` fails as `E` allows. -/
def Growing {α : Type} (E : Fault → Prop) (x : ProxyM α) : Prop :=
  ∀ s : Proxy, s.cache.Orderly → wp E x (fun _ t => s.manifest.Grows t.manifest) s

variable {α β : Type} {E : Fault → Prop} {x : ProxyM α} {k : α → ProxyM β} {s : Proxy}

theorem idle_pure {a : α} : Idle E (pure a) := fun _ => rfl

theorem idle_throw {e : Fault} (allowed : E e) : Idle E (throw e : ProxyM α) := fun _ => allowed

theorem idle_get : Idle E get := fun _ => rfl

theorem idle_modify {g : Proxy → Proxy} (same : ∀ s, (g s).manifest = s.manifest) : Idle E (modify g) := same

theorem Idle.then {Q : β → Proxy → Prop} (idle : Idle E x) (rest : ∀ a t, t.manifest = s.manifest → wp E (k a) Q t) :
    wp E (x >>= k) Q s := wp_bind.mpr (wp_mono rest (idle s))

theorem idle_bind (first : Idle E x) (rest : ∀ a, Idle E (k a)) : Idle E (x >>= k) := by
  intro s
  refine first.then fun a t same => ?_
  rw [← same]
  exact rest a t

theorem Idle.growing (idle : Idle E x) : Growing E x := by
  intro s cache
  apply wp_mono _ (idle s)
  intro a t same
  rw [same]
  exact Manifest.Grows.refl cache

theorem wp_then_growing {m : Manifest} (first : wp E x (fun _ t => m.Grows t.manifest) s) (rest : ∀ a, Growing E (k a)) :
    wp E (x >>= k) (fun _ t => m.Grows t.manifest) s := by
  rw [wp_bind]
  apply wp_mono _ first
  intro a t grows
  exact wp_mono (fun _ _ more => grows.trans more) (rest a t grows.cache)

theorem growing_bind (first : Growing E x) (rest : ∀ a, Growing E (k a)) : Growing E (x >>= k) :=
  fun s cache => wp_then_growing (first s cache) rest

theorem Idle.before (idle : Idle E x) (rest : ∀ a, Growing E (k a)) : Growing E (x >>= k) :=
  growing_bind idle.growing rest

theorem growing_whenever {c : Bool} {x : ProxyM Unit} (growing : c = true → Growing E x) : Growing E (whenever c x) := by
  cases c with
  | true => exact growing rfl
  | false => exact idle_pure.growing

variable {L : Type} {m : BufferedMessage L} {rqst : ClientRequest} {resp cached : ServerResponse} {ref : MessageRef}
  {n : MsgId} {e : EpollElem} {it : EntryRef} {r other : ElemRef} {id : SocketId} {c : ConnId} {io : Io}
  {state : FdState} {key : Fd × Bytes} {host : Bytes} {timeout : Nat} {h : Handler}

/-! ### The queue -/

theorem manifest_setElem : (s.setElem r e).manifest = s.manifest := by
  unfold setElem
  cases r <;> dsimp only <;> split <;> rfl

theorem grows_destroy (cache : s.cache.Orderly) (e : EpollElem) : s.manifest.Grows (s.destroy e).manifest := by
  unfold destroy
  split
  · exact Manifest.Grows.refl cache
  · refine Manifest.Grows.of_fewer (m := s.manifest) cache (fun {f h} installed => ?_) fun found => found
    simp only [view, setHandler] at installed
    split at installed
    · cases installed
    · exact installed

section Lenient

variable (lenient : Lenient E)

include lenient

theorem idle_touch : Idle E (touch it) := by
  unfold touch
  refine idle_bind idle_get fun s => ?_
  split
  · exact idle_pure
  · exact idle_throw (lenient.closed _)

theorem idle_getElem : Idle E (getElem r) := by
  unfold getElem
  refine idle_bind idle_get fun s => ?_
  split
  · exact idle_pure
  · exact idle_throw (lenient.closed _)

theorem idle_updateState : Idle E (updateState r state) := by
  unfold updateState
  refine idle_bind (idle_getElem lenient) fun e => ?_
  split
  · exact idle_pure
  · split
    · exact idle_throw lenient.null
    · exact idle_modify fun _ => manifest_setElem

theorem idle_setActive : Idle E (setActive it) := by
  intro s
  unfold setActive
  cases it with
  | sock id =>
    simp only [wp_bind, wp_get]
    split
    · exact rfl
    · exact lenient.closed _
  | conn c =>
    simp only [wp_bind, wp_get]
    split
    · exact rfl
    · exact lenient.closed _

theorem idle_changeTimeout : Idle E (changeTimeout c timeout) := by
  unfold changeTimeout getConnection
  refine idle_bind (idle_bind idle_get fun s => ?_) fun conn => idle_modify fun _ => rfl
  split
  · exact idle_pure
  · exact idle_throw (lenient.closed _)

theorem idle_takeClient : Idle E (takeClient c) := by
  unfold takeClient
  exact idle_bind (idle_getElem lenient) fun client => idle_bind (idle_modify fun _ => manifest_setElem) fun _ => idle_pure

theorem idle_service : Idle E (service id) := by
  unfold service
  refine idle_bind idle_get fun s => ?_
  split
  · exact idle_pure
  · exact idle_throw lenient.service

theorem growing_closeSocket : Growing E (closeSocket id) := by
  intro s cache
  simp only [closeSocket, wp_bind, wp_get]
  split
  · exact grows_destroy (s := { s with sockets := s.sockets.erase id }) cache _
  · exact lenient.closed _

theorem growing_closeConnection : Growing E (closeConnection c) := by
  intro s cache
  simp only [closeConnection, wp_bind, wp_get]
  split
  · rename_i conn live
    have server := grows_destroy (s := { s with connections := s.connections.erase c }) cache conn.server
    exact server.trans (grows_destroy server.cache conn.client)
  · exact lenient.closed _

theorem growing_logAndClose : Growing E (logAndClose it) := by
  unfold logAndClose close
  refine (idle_touch lenient).before fun _ => ?_
  cases it with
  | sock id => exact growing_closeSocket lenient
  | conn c => exact growing_closeConnection lenient

theorem grown_updateHandler (cache : s.cache.Orderly) (bears : s.manifest.Bears h) :
    wp E (updateHandler r h) (fun _ t => s.manifest.Grows t.manifest) s := by
  unfold updateHandler
  refine (idle_getElem lenient).then fun e t same => ?_
  have cache : t.manifest.cache.Orderly := by
    rw [same]
    exact cache
  rw [← same] at bears ⊢
  split
  · exact lenient.null
  · exact Manifest.Grows.install cache bears e.fd

theorem grown_update (cache : s.cache.Orderly) (bears : s.manifest.Bears h) :
    wp E (update r state h) (fun _ t => s.manifest.Grows t.manifest) s := by
  unfold update
  refine (idle_updateState lenient).then fun _ t same => ?_
  have unchanged : t.cache = s.cache := congrArg Manifest.cache same
  rw [← same] at bears ⊢
  exact grown_updateHandler lenient (unchanged.symm ▸ cache) bears

/-- A handler that captures no message. -/
theorem growing_update (plain : ∀ m : Manifest, m.Bears h) : Growing E (update r state h) := fun s cache =>
  grown_update lenient cache (plain s.manifest)

end Lenient

theorem growing_insertSocket : Growing E (insertSocket e) := by
  intro s cache
  simp only [insertSocket, wp_bind, wp_get]
  split
  · exact grows_destroy cache e
  · exact Manifest.Grows.refl (m := s.manifest) cache

theorem growing_saveRegistration : Growing E (saveRegistration e timeout) :=
  idle_get.before fun _ => growing_insertSocket

/-! ### Messages -/

theorem idle_observe {o : Obs} : Idle E (observe o) := idle_modify fun _ => rfl

theorem grows_newRequest (cache : s.cache.Orderly) (m : ClientRequest) : s.manifest.Grows { s.manifest with
    requests := fun id => if id = s.nextMessage then m else s.requests id, nextMessage := s.nextMessage + 1 } where
  handlers := Or.inl
  pending := Or.inl
  cache := cache
  requests known := if_neg (Nat.ne_of_lt known)
  responses _ := rfl
  next := Nat.le_succ _

theorem grows_newResponse (cache : s.cache.Orderly) (m : ServerResponse) : s.manifest.Grows { s.manifest with
    responses := fun id => if id = s.nextMessage then m else s.responses id, nextMessage := s.nextMessage + 1 } where
  handlers := Or.inl
  pending := Or.inl
  cache := cache
  requests _ := rfl
  responses known := if_neg (Nat.ne_of_lt known)
  next := Nat.le_succ _

theorem growing_newRaw : Growing E newRaw := fun s cache =>
  (⟨Or.inl, Or.inl, cache, fun _ => rfl, fun _ => rfl, Nat.le_succ _⟩ : s.manifest.Grows
    { s.manifest with nextMessage := s.nextMessage + 1 })

/-- A response is made, and a handler installed that captures it. -/
theorem growing_newResponse {f : MsgId → ProxyM Unit} (rest : ∀ s : Proxy, s.cache.Orderly → ∀ id,
      id < s.nextMessage → s.responses id = resp → wp E (f id) (fun _ t => s.manifest.Grows t.manifest) s) :
    Growing E (newResponse resp >>= f) := by
  intro s cache
  have made := grows_newResponse cache resp
  have more := rest
    { s with
      responses := fun id => if id = s.nextMessage then resp else s.responses id, nextMessage := s.nextMessage + 1 }
    cache s.nextMessage (Nat.lt_succ_self _) (if_pos rfl)
  have grown : wp E (f s.nextMessage) (fun _ t => s.manifest.Grows t.manifest) _ :=
    wp_mono (fun _ t later => made.trans later) more
  rw [wp_bind]
  exact grown

theorem growing_newRequest {f : MsgId → ProxyM Unit} (rest : ∀ s : Proxy, s.cache.Orderly → ∀ id,
      id < s.nextMessage → s.requests id = rqst → wp E (f id) (fun _ t => s.manifest.Grows t.manifest) s) :
    Growing E (newRequest rqst >>= f) := by
  intro s cache
  have made := grows_newRequest cache rqst
  have more := rest
    { s with
      requests := fun id => if id = s.nextMessage then rqst else s.requests id, nextMessage := s.nextMessage + 1 }
    cache s.nextMessage (Nat.lt_succ_self _) (if_pos rfl)
  have grown : wp E (f s.nextMessage) (fun _ t => s.manifest.Grows t.manifest) _ :=
    wp_mono (fun _ t later => made.trans later) more
  rw [wp_bind]
  exact grown

theorem growing_insertPending {pending : Pending} (sendable : pending.next.request.Sendable) :
    Growing E (insertPending key pending) := by
  intro s cache
  refine ⟨Or.inl, fun {key' q} found => ?_, cache, fun _ => rfl, fun _ => rfl, Nat.le_refl _⟩
  show s.onResolve key' = some q ∨ _
  change (if key' = key then some ((s.onResolve key).getD pending) else s.onResolve key') = some q at found
  split at found
  · rename_i same
    subst same
    cases old : s.onResolve key' with
    | none =>
      rw [old] at found
      cases found
      exact Or.inr sendable
    | some q' =>
      rw [old] at found
      exact Or.inl found
  · exact Or.inl found

section Lenient

variable (lenient : Lenient E)

include lenient

/-- The message is observed to be sent, and the handler installed that sends it. -/
theorem wp_sending {f : EpollElem → Obs} (cache : s.cache.Orderly) (bears : s.manifest.Bears h) :
    wp E (do let e ← getElem r; observe (f e); update r state h) (fun _ t => s.manifest.Grows t.manifest) s := by
  refine (idle_getElem lenient).then fun e t same => idle_observe.then fun _ u same' => ?_
  rw [← same, ← same'] at bears ⊢
  refine grown_update lenient ?_ bears
  have unchanged : u.cache = s.cache := congrArg Manifest.cache (same'.trans same)
  rw [unchanged]
  exact cache

theorem growing_sendRequest {next : AfterSend} (sendable : rqst.Sendable) (laden : next.Laden) :
    Growing E (sendRequest r rqst it next io) := by
  refine growing_newRequest fun s cache id known made => wp_sending lenient cache ⟨known, ?_, laden⟩
  show (s.requests id).Sendable
  rw [made]
  exact sendable.transferred io.garbage

theorem growing_sendResponse {next : AfterSend} (sendable : resp.Sendable) (laden : next.Laden) :
    Growing E (sendResponse r resp it next io) := by
  refine growing_newResponse fun s cache id known made => wp_sending lenient cache ⟨known, ?_, laden⟩
  show (s.responses id).Sendable
  rw [made]
  exact sendable.transferred io.garbage

theorem growing_readRequest {next : AfterRequest} : Growing E (readRequest r rqst it next io) :=
  growing_newRequest fun _ cache _ _ _ => grown_update lenient cache trivial

theorem growing_readResponse {next : AfterResponse} (laden : next.Laden) : Growing E (readResponse r resp it next io) :=
  growing_newResponse fun _ cache _ _ _ => grown_update lenient cache laden

theorem growing_send404 : Growing E (send404 id io) :=
  growing_sendResponse lenient (BufferedMessage.sendable_ofHeader _) trivial

theorem growing_escapeClient : Growing E (escapeClient c) := by
  unfold escapeClient
  exact (idle_takeClient lenient).before fun client => growing_saveRegistration

theorem growing_fastTransfer (sendable : rqst.Sendable) : Growing E (fastTransfer c rqst io) :=
  growing_sendRequest lenient sendable sendable

theorem growing_sendServerResponse (sendable : resp.Sendable) : Growing E (sendServerResponse c rqst resp io) := by
  unfold sendServerResponse
  refine (idle_touch lenient).before fun _ => ?_
  split
  · refine growing_bind (growing_escapeClient lenient) fun it => ?_
    refine growing_bind (growing_closeConnection lenient) fun _ => ?_
    exact growing_sendResponse lenient sendable trivial
  · refine (idle_updateState lenient).before fun _ => ?_
    exact growing_sendResponse lenient sendable trivial

/-! ### Connecting -/

theorem growing_connectToServer {next : AfterConnect} (sendable : next.request.Sendable) :
    Growing E (connectToServer id host next) := by
  unfold connectToServer
  refine (idle_getElem lenient).before fun e => idle_get.before fun s => ?_
  refine (idle_modify fun s => ?_).before fun _ => ?_
  · exact manifest_setElem (s := { s with calls := _ })
  refine growing_bind (growing_insertPending sendable) fun _ => ?_
  refine growing_bind (growing_update lenient fun _ => trivial) fun _ => idle_get.before fun s => ?_
  refine (idle_service lenient).before fun _ => Idle.growing (idle_modify fun s => ?_)
  rfl

theorem growing_reconnect {next : AfterConnect} (sendable : next.request.Sendable) :
    Growing E (reconnect c host next) := by
  unfold reconnect
  refine (idle_touch lenient).before fun _ => (idle_takeClient lenient).before fun client => ?_
  refine growing_bind (growing_closeConnection lenient) fun _ => growing_bind growing_saveRegistration fun it => ?_
  exact growing_connectToServer lenient sendable

/-! ### Continuations -/

omit lenient in
theorem growing_deleteCached {request : RequestHeader} : Growing E (deleteCached request) := by
  intro s cache
  simp only [deleteCached, wp_bind, wp_get]
  obtain ⟨cache', erased, orderly⟩ := cache.deleteCached request
  rw [erased]
  exact ⟨Or.inl, Or.inl, orderly, fun _ => rfl, fun _ => rfl, Nat.le_refl _⟩

theorem growing_handleClientRequest (sendable : rqst.Sendable) : Growing E (handleClientRequest rqst c io) := by
  intro s cache
  unfold handleClientRequest sendAndRead
  rw [wp_bind, wp_get]
  obtain ⟨plan, planned, fit⟩ := cache.planRequest rqst
  simp only [planned]
  cases plan with
  | validate request cached =>
    obtain ⟨asked, restored⟩ := fit
    have sends : Growing E (sendRequest (.server c) request (.conn c)
        (.readResponse (.server c) (.conn c) (.handleValidationResponse c rqst cached)) io) :=
      growing_sendRequest lenient asked ⟨sendable, restored⟩
    exact ((idle_touch lenient).before fun _ => growing_bind sends fun _ => idle_observe.growing) s cache
  | establish resp =>
    have sends : Growing E (sendResponse (.client c) resp (.conn c) (.handleConnect c) io) :=
      growing_sendResponse lenient fit trivial
    exact sends s cache
  | transfer => exact growing_bind (growing_fastTransfer lenient sendable) (fun _ => idle_observe.growing) s cache

theorem growing_handleValidationResponse (sendable : rqst.Sendable) (restored : cached.Sendable) :
    Growing E (handleValidationResponse c rqst cached resp io) := by
  unfold handleValidationResponse
  refine (idle_touch lenient).before fun _ => ?_
  split
  · refine (idle_getElem lenient).before fun client => idle_get.before fun s => ?_
    exact growing_bind (growing_sendServerResponse lenient restored) fun _ => idle_observe.growing
  · refine idle_observe.before fun _ => ?_
    exact growing_bind (growing_deleteCached) fun _ => growing_reconnect lenient sendable
  · refine idle_observe.before fun _ => ?_
    exact growing_bind (growing_deleteCached) fun _ => growing_fastTransfer lenient sendable

theorem growing_reuseConnection : Growing E (reuseConnection c host io) := by
  unfold reuseConnection
  refine (idle_touch lenient).before fun _ => ?_
  exact growing_bind (growing_update lenient fun _ => trivial) fun _ => growing_readRequest lenient

theorem growing_requestReused (sendable : rqst.Sendable) : Growing E (requestReused c host rqst io) := by
  unfold requestReused
  refine (idle_touch lenient).before fun _ => ?_
  split
  · exact growing_handleClientRequest lenient sendable
  · exact growing_reconnect lenient sendable

theorem growing_handleConnect : Growing E (handleConnect c) := by
  unfold handleConnect
  refine (idle_touch lenient).before fun _ => growing_bind growing_newRaw fun _ => growing_bind growing_newRaw fun _ => ?_
  exact growing_bind (growing_update lenient fun _ => trivial) fun _ => growing_update lenient fun _ => trivial

theorem growing_startTransfer (sendable : rqst.Sendable) : Growing E (startTransfer c rqst) := by
  refine growing_newResponse fun s cache id known made => ?_
  refine wp_then_growing (grown_update lenient cache ⟨known, ?_, sendable⟩) fun _ => growing_update lenient fun _ => trivial
  show (s.responses id).Streams
  rw [made]
  exact BufferedMessage.streams_new

theorem growing_afterConnect {next : AfterConnect} (sendable : next.request.Sendable) : Growing E (next.run c io) := by
  cases next with
  | handleClientRequest rqst => exact growing_handleClientRequest lenient sendable
  | fastTransfer rqst => exact growing_fastTransfer lenient sendable

theorem growing_afterRequest {next : AfterRequest} (sendable : rqst.Sendable) : Growing E (next.run rqst io) := by
  cases next with
  | firstRequestRead client => exact growing_connectToServer lenient sendable
  | reuse c oldHost => exact growing_requestReused lenient sendable

theorem growing_afterResponse {next : AfterResponse} (laden : next.Laden) : Growing E (next.run resp io) := by
  cases next with
  | handleValidationResponse c rqst cached => exact growing_handleValidationResponse lenient laden.1 laden.2

theorem growing_afterSend {next : AfterSend} (laden : next.Laden) : Growing E (next.run io) := by
  cases next with
  | readResponse dest iterator next => exact (idle_touch lenient).before fun _ => growing_readResponse lenient laden
  | startTransfer c rqst => exact growing_startTransfer lenient laden
  | reuseConnection c host => exact growing_reuseConnection lenient
  | handleConnect c => exact growing_handleConnect lenient
  | closeSent it => exact (idle_touch lenient).before fun _ => growing_closeSocket lenient
  | close404 client => exact growing_closeSocket lenient

end Lenient

end Proxy

end ProxyServer
