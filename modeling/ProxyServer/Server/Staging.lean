import ProxyServer.Server.Stages

/-!
# From stage to stage

What the functions of the server make of the stage of a connection. Each takes it to another
stage, closes it, or lets its client go.
-/

namespace ProxyServer

open Wp

open Proxy (Shows reads writes)

namespace Board

/-- From `b` to `w` the entries of `K` have changed, and new ones have come; all of them are
at a stage. -/
def Settled (b : Board) (p : Batch) (K : EntryRef → Prop) (w : Board) : Prop :=
  ∃ D : EntryRef → Prop, (∀ it, D it → K it ∨ ¬b.alive it) ∧ Touched b D w ∧ ∀ it, D it → w.StagedAt p it

/-- The entry was closed, and no other one has changed. -/
structure Shut (b : Board) (p : Batch) (it : EntryRef) (w : Board) : Prop where
  settled : b.Settled p (· = it) w
  gone : ∀ r, r.entry = it → w.elem r = none

/-- The connection is the only entry that has changed. -/
structure Open (b : Board) (c : ConnId) (k k' : Watch) (w : Board) : Prop where
  touched : Touched b (· = .conn c) w
  client : w.elem (.client c) = some k
  server : w.elem (.server c) = some k'
  distinct : k.fd ≠ k'.fd
  key : w.key = b.key

/-- The socket is. -/
structure Held (b : Board) (id : SocketId) (k : Watch) (w : Board) : Prop where
  touched : Touched b (· = .sock id) w
  socket : w.elem (.sock id) = some k

/-- The client of the connection has become a socket. -/
structure Landed (b : Board) (c : ConnId) (n : SocketId) (k : Watch) (w : Board) : Prop where
  touched : Touched b (fun it => it = .conn c ∨ it = .sock n) w
  socket : w.elem (.sock n) = some k
  fresh : b.elem (.sock n) = none

/-- The descriptor is not that of another entry. -/
def Apart (b : Board) (it : EntryRef) (f : Fd) : Prop := ∀ r k, r.entry ≠ it → b.elem r = some k → f ≠ k.fd

variable {b w : Board} {p : Batch} {k k' : Watch} {it : EntryRef} {id n : SocketId} {c : ConnId} {h h' : Handler} {f : Fd}
  {events : FdState}

theorem Settled.staged {K : EntryRef → Prop} (settled : b.Settled p K w) (staged : b.Staged p) : w.Staged p := by
  obtain ⟨D, -, touched, here⟩ := settled
  exact touched.staged staged here

theorem Settled.mono {K K' : EntryRef → Prop} (settled : b.Settled p K w) (weaker : ∀ it, K it → K' it) :
    b.Settled p K' w := by
  obtain ⟨D, within_, touched, here⟩ := settled
  exact ⟨D, fun it inside => (within_ it inside).imp_left (weaker it), touched, here⟩

theorem Exclusive.unkeyed (exclusive : b.Exclusive) (apart : b.Apart (.conn c) f) (id : SocketId) : b.key id ≠ some f := by
  intro keyed
  obtain ⟨k, owner, same⟩ := exclusive.keyed keyed
  exact apart (.sock id) k EntryRef.noConfusion owner same.symm

theorem Exclusive.open_ (exclusive : b.Exclusive) (client : b.elem (.client c) = some k)
    (server : b.elem (.server c) = some k') : b.Open c k k' b where
  touched := exclusive.touched _
  client := client
  server := server
  distinct := by
    intro same
    cases exclusive.unique client server same
  key := rfl

namespace Open

theorem apart (at_ : b.Open c k k' w) : b.Apart (.conn c) k.fd := fun _ _ outside owner =>
  at_.touched.apart (.client c) outside owner rfl at_.client

theorem apartServer (at_ : b.Open c k k' w) : b.Apart (.conn c) k'.fd := fun _ _ outside owner =>
  at_.touched.apart (.server c) outside owner rfl at_.server

theorem seatClient (at_ : b.Open c k k' w) : b.Open c ⟨k.fd, events⟩ k' (w.seat (.client c) ⟨k.fd, events⟩ h) where
  touched := at_.touched.seat (r := .client c) rfl at_.client events
  client := by simp
  server := by simp [at_.server]
  distinct := at_.distinct
  key := at_.key

theorem seatServer (at_ : b.Open c k k' w) : b.Open c k ⟨k'.fd, events⟩ (w.seat (.server c) ⟨k'.fd, events⟩ h) where
  touched := at_.touched.seat (r := .server c) rfl at_.server events
  client := by simp [at_.client]
  server := by simp
  distinct := at_.distinct
  key := at_.key

theorem setClient (at_ : b.Open c k k' w) : b.Open c ⟨k.fd, events⟩ k' (w.setElem (.client c) ⟨k.fd, events⟩) where
  touched := at_.touched.setElem (r := .client c) (k := ⟨k.fd, events⟩) rfl at_.apart
  client := by simp
  server := by simp [at_.server]
  distinct := at_.distinct
  key := at_.key

theorem setServer (at_ : b.Open c k k' w) : b.Open c k ⟨k'.fd, events⟩ (w.setElem (.server c) ⟨k'.fd, events⟩) where
  touched := at_.touched.setElem (r := .server c) (k := ⟨k'.fd, events⟩) rfl at_.apartServer
  client := by simp [at_.client]
  server := by simp
  distinct := at_.distinct
  key := at_.key

/-- The client is taken out. -/
theorem takeClient (at_ : b.Open c k k' w) (exclusive : b.Exclusive) (present : k'.fd ≠ 0) :
    b.Open c ⟨0, .WAIT⟩ k' (w.setElem (.client c) ⟨0, .WAIT⟩) where
  touched := at_.touched.setElem (r := .client c) (k := ⟨0, .WAIT⟩) rfl fun _ _ _ owner => (exclusive.present owner).symm
  client := by simp
  server := by simp [at_.server]
  distinct := present.symm
  key := at_.key

theorem settled (at_ : b.Open c k k' w) (client : w.handlers k.fd = some h) (server : w.handlers k'.fd = some h')
    (stage : Stage p c h k h' k') : b.Settled p (· = .conn c) w := by
  refine ⟨(· = .conn c), fun _ => Or.inl, at_.touched, ?_⟩
  rintro _ rfl x y client' server'
  rw [at_.client] at client'
  rw [at_.server] at server'
  cases client'
  cases server'
  exact ⟨h, h', client, server, stage⟩

theorem closed (at_ : b.Open c k k' w) : b.Settled p (· = .conn c) (w.eraseConnection c k k') := by
  refine ⟨(· = .conn c), fun _ => Or.inl, at_.touched.eraseConnection rfl at_.client at_.server, ?_⟩
  rintro _ rfl x y client
  simp at client

theorem shows_close (at_ : b.Open c k k' w) : Shows (Proxy.closeConnection c) (fun _ => b.Shut p (.conn c)) w := by
  refine Proxy.via_closeConnection fun x y client server => ?_
  obtain rfl : k = x := Option.some.inj (at_.client.symm.trans client)
  obtain rfl : k' = y := Option.some.inj (at_.server.symm.trans server)
  refine ⟨at_.closed, fun r here => ?_⟩
  cases r with
  | sock id => cases here
  | client c' =>
    cases here
    simp
  | server c' =>
    cases here
    simp

theorem shows_logAndClose (at_ : b.Open c k k' w) : Shows (Proxy.logAndClose (.conn c)) (fun _ => b.Shut p (.conn c)) w :=
  Via.then_leaves Proxy.unseen_touch fun _ => at_.shows_close

end Open

namespace Held

theorem apart (at_ : b.Held id k w) : b.Apart (.sock id) k.fd := fun _ _ outside owner =>
  at_.touched.apart (.sock id) outside owner rfl at_.socket

theorem seat (at_ : b.Held id k w) : b.Held id ⟨k.fd, events⟩ (w.seat (.sock id) ⟨k.fd, events⟩ h) where
  touched := at_.touched.seat (r := .sock id) rfl at_.socket events
  socket := by simp

theorem setElem (at_ : b.Held id k w) : b.Held id ⟨k.fd, events⟩ (w.setElem (.sock id) ⟨k.fd, events⟩) where
  touched := at_.touched.setElem (r := .sock id) (k := ⟨k.fd, events⟩) rfl at_.apart
  socket := by simp

theorem settled (at_ : b.Held id k w) (installed : w.handlers k.fd = some h) (stage : SocketStage id h k.events) :
    b.Settled p (· = .sock id) w := by
  refine ⟨(· = .sock id), fun _ => Or.inl, at_.touched, ?_⟩
  rintro _ rfl x owner
  obtain rfl : k = x := Option.some.inj (at_.socket.symm.trans owner)
  exact ⟨h, installed, stage⟩

theorem shows_close (at_ : b.Held id k w) : Shows (Proxy.closeSocket id) (fun _ => b.Shut p (.sock id)) w := by
  refine Proxy.via_closeSocket fun x owner => ?_
  obtain rfl : k = x := Option.some.inj (at_.socket.symm.trans owner)
  have gone : (w.eraseSocket id k).elem (.sock id) = none := if_pos rfl
  refine ⟨⟨(· = .sock id), fun _ => Or.inl, at_.touched.eraseSocket rfl owner, ?_⟩, fun r here => ?_⟩
  · rintro _ rfl x there
    rw [gone] at there
    cases there
  · cases r with
    | sock id' =>
      cases here
      exact gone
    | client c => cases here
    | server c => cases here

theorem shows_logAndClose (at_ : b.Held id k w) : Shows (Proxy.logAndClose (.sock id)) (fun _ => b.Shut p (.sock id)) w :=
  Via.then_leaves Proxy.unseen_touch fun _ => at_.shows_close

end Held

/-- The client becomes a socket. -/
theorem Touched.land (touched : Touched b (· = .conn c) w) (apart : b.Apart (.conn c) k.fd)
    (fresh : w.elem (.sock n) = none) : b.Landed c n k (w.addSocket n k) where
  touched := by
    refine touched.extend _ rfl (fun r other => ?_) fun r x r' x' outside owner new owner' => ?_
    · exact if_neg (by rintro rfl; exact other rfl)
    · cases r' with
      | sock id =>
        cases new
        cases (if_pos rfl).symm.trans owner'
        exact apart r x outside owner
      | client c => cases new
      | server c => cases new
  socket := if_pos rfl
  fresh := by
    rw [← touched.elems (.sock n) EntryRef.noConfusion]
    exact fresh

namespace Landed

theorem seat (landed : b.Landed c n k w) : b.Landed c n ⟨k.fd, events⟩ (w.seat (.sock n) ⟨k.fd, events⟩ h) where
  touched := landed.touched.seat (r := .sock n) (Or.inr rfl) landed.socket events
  socket := by simp
  fresh := landed.fresh

theorem settled (landed : b.Landed c n k w) (client : w.elem (.client c) = none) (installed : w.handlers k.fd = some h)
    (stage : SocketStage n h k.events) : b.Settled p (· = .conn c) w := by
  refine ⟨_, ?_, landed.touched, ?_⟩
  · rintro it (here | rfl)
    · exact Or.inl here
    · exact Or.inr fun alive => alive landed.fresh
  · rintro it (rfl | rfl)
    · intro x y client'
      rw [client] at client'
      cases client'
    · intro x owner
      rw [landed.socket] at owner
      cases owner
      exact ⟨h, installed, stage⟩

/-- The connection that the client has left is closed. -/
theorem erase (landed : b.Landed c n k w) {gone : Watch} (client : w.elem (.client c) = some gone)
    (server : w.elem (.server c) = some k') : b.Landed c n k (w.eraseConnection c gone k') where
  touched := landed.touched.eraseConnection (Or.inl rfl) client server
  socket := by
    simpa using landed.socket
  fresh := landed.fresh

end Landed

end Board

namespace Proxy

open Board

variable {b w : Board} {p : Batch} {k k' : Watch} {it : EntryRef} {id n : SocketId} {c : ConnId} {h h' : Handler} {f : Fd}
  {io : Io} {rqst : ClientRequest} {resp cached : ServerResponse}

/-! ### Letting the client go -/

theorem shows_escapeClient {Q : SocketId → Board → Prop} (exclusive : b.Exclusive) (at_ : b.Open c k k' w)
    (present : k'.fd ≠ 0)
    (next : ∀ n w', b.Landed c n k w' → w'.elem (.client c) = some ⟨0, .WAIT⟩ → w'.elem (.server c) = some k' →
      w'.handlers = w.handlers → Q n w') : Shows (escapeClient c) Q w := by
  refine Via.bind (via_takeClient fun e here => ?_)
  obtain rfl : k = e.watch := Option.some.inj (at_.client.symm.trans here)
  have taken := at_.takeClient exclusive present
  refine via_saveRegistration e _ (fun id => ?_) fun n fresh _ => ?_
  · rw [taken.key]
    exact exclusive.unkeyed at_.apart id
  · refine next n _ (taken.touched.land at_.apart fresh) ?_ ?_ rfl
    · simp
    · simp [at_.server]

/-- The client leaves and has another name resolved. -/
theorem shows_reconnect (exclusive : b.Exclusive) (at_ : b.Open c k k' w) (present : k'.fd ≠ 0) (host : Bytes)
    (next : AfterConnect) : Shows (reconnect c host next) (fun _ => b.Settled p (· = .conn c)) w := by
  refine Via.then_leaves unseen_touch fun _ => Via.bind (via_takeClient fun e here => ?_)
  obtain rfl : k = e.watch := Option.some.inj (at_.client.symm.trans here)
  have taken := at_.takeClient exclusive present
  refine Via.bind (via_closeConnection fun x y client server => ?_)
  obtain rfl : (⟨0, .WAIT⟩ : Watch) = x := Option.some.inj (taken.client.symm.trans client)
  obtain rfl : k' = y := Option.some.inj (taken.server.symm.trans server)
  refine Via.bind (via_saveRegistration e _ (fun id => ?_) fun n fresh _ => ?_)
  · show w.key id ≠ some e.watch.fd
    rw [at_.key]
    exact exclusive.unkeyed at_.apart id
  · have closed := taken.touched.eraseConnection rfl taken.client taken.server
    have landed := closed.land at_.apart fresh
    refine via_connectToServer host next fun x owner => ?_
    obtain rfl : e.watch = x := Option.some.inj (landed.socket.symm.trans owner)
    exact landed.seat.settled (by simp) (if_pos rfl) .resolving

/-! ### Asking and answering -/

/-- A request is sent to the server while the client waits. -/
theorem shows_ask {next : AfterSend} (at_ : b.Open c ⟨f, .WAIT⟩ k' w) (client : w.handlers f = some h)
    (left : h.LeftClient p c f) (unwritten : p k'.fd ≠ none → p.output f = false) (asks : next.Asks c) :
    Shows (sendRequest (.server c) rqst (.conn c) next io) (fun _ => b.Settled p (· = .conn c)) w := by
  refine via_sendRequest fun x m owner => ?_
  obtain rfl : k' = x := Option.some.inj (at_.server.symm.trans owner)
  refine at_.seatServer.settled ((if_neg at_.distinct).trans client) (if_pos rfl) ?_
  exact .asking left asks unwritten

theorem shows_fastTransfer (at_ : b.Open c ⟨f, .WAIT⟩ k' w) (client : w.handlers f = some h)
    (left : h.LeftClient p c f) (unwritten : p k'.fd ≠ none → p.output f = false) :
    Shows (fastTransfer c rqst io) (fun _ => b.Settled p (· = .conn c)) w :=
  shows_ask at_ client left unwritten (.transfer rqst)

theorem shows_handleClientRequest (at_ : b.Open c ⟨f, .WAIT⟩ k' w) (client : w.handlers f = some h)
    (left : h.LeftClient p c f) (unwritten : p k'.fd ≠ none → p.output f = false) (server : w.handlers k'.fd = some h')
    (ready : ReadyServer p c h' k') :
    Shows (handleClientRequest rqst c io) (fun _ => b.Settled p (· = .conn c)) w := by
  refine Via.get fun s _ => ?_
  cases planned : planRequest s.cache rqst with
  | error e => exact Via.throw
  | ok plan =>
    cases plan with
    | validate request cached =>
      refine Via.then_leaves unseen_touch fun _ => Via.bind ?_
      refine (shows_ask at_ client left unwritten (.validate rqst cached)).mono fun _ w' settled => ?_
      exact Via.of_leaves (unseen_observe _) fun _ => settled
    | establish resp =>
      refine via_sendResponse fun x m owner => ?_
      obtain rfl : (⟨f, .WAIT⟩ : Watch) = x := Option.some.inj (at_.client.symm.trans owner)
      exact at_.seatClient.settled (if_pos rfl) ((if_neg at_.distinct.symm).trans server) (.establishing ready)
    | transfer =>
      refine Via.bind ((shows_fastTransfer at_ client left unwritten).mono fun _ w' settled => ?_)
      exact Via.of_leaves (unseen_observe _) fun _ => settled

theorem shows_afterConnect (next : AfterConnect) (at_ : b.Open c ⟨f, .WAIT⟩ k' w) (client : w.handlers f = some h)
    (left : h.LeftClient p c f) (unwritten : p k'.fd ≠ none → p.output f = false) (server : w.handlers k'.fd = some h')
    (ready : ReadyServer p c h' k') : Shows (next.run c io) (fun _ => b.Settled p (· = .conn c)) w := by
  cases next with
  | handleClientRequest rqst => exact shows_handleClientRequest at_ client left unwritten server ready
  | fastTransfer rqst => exact shows_fastTransfer at_ client left unwritten

theorem shows_sendServerResponse (exclusive : b.Exclusive) (at_ : b.Open c k k' w) (present : k'.fd ≠ 0)
    (server : w.handlers k'.fd = some h') (left : h'.LeftServer c) (unread : p.input k'.fd = false) :
    Shows (sendServerResponse c rqst resp io) (fun _ => b.Settled p (· = .conn c)) w := by
  refine Via.then_leaves unseen_touch fun _ => ?_
  split
  · refine Via.bind (shows_escapeClient exclusive at_ present fun n w' landed client server _ => ?_)
    refine Via.bind (via_closeConnection fun x y client' server' => ?_)
    obtain rfl : (⟨0, .WAIT⟩ : Watch) = x := Option.some.inj (client.symm.trans client')
    obtain rfl : k' = y := Option.some.inj (server.symm.trans server')
    refine via_sendResponse fun x m owner => ?_
    obtain rfl : k = x := Option.some.inj ((landed.erase client server).socket.symm.trans owner)
    exact (landed.erase client server).seat.settled (by simp) (if_pos rfl) .closing
  · refine Via.bind (via_updateState _ fun x owner => ?_)
    obtain rfl : k' = x := Option.some.inj (at_.server.symm.trans owner)
    refine via_sendResponse fun x m owner => ?_
    obtain rfl : k = x := Option.some.inj (at_.setServer.client.symm.trans owner)
    exact at_.setServer.seatClient.settled (if_pos rfl) ((if_neg at_.distinct.symm).trans server) (.answering left unread)

theorem shows_handleValidationResponse (exclusive : b.Exclusive) (at_ : b.Open c ⟨f, .WAIT⟩ k' w) (present : k'.fd ≠ 0)
    (client : w.handlers f = some h) (left : h.LeftClient p c f) (server : w.handlers k'.fd = some h')
    (left' : h'.LeftServer c) (spent : p k'.fd = none) :
    Shows (handleValidationResponse c rqst cached resp io) (fun _ => b.Settled p (· = .conn c)) w := by
  have unread : p.input k'.fd = false := by rw [Batch.input, spent, Option.any_none]
  refine Via.then_leaves unseen_touch fun _ => ?_
  split
  · refine Via.then_leaves unseen_getElem fun e => Via.get fun s _ => Via.bind ?_
    refine (shows_sendServerResponse exclusive at_ present server left' unread).mono fun _ w' settled => ?_
    exact Via.of_leaves (unseen_observe _) fun _ => settled
  · refine Via.then_leaves (unseen_observe _) fun _ => Via.then_leaves (unseen_deleteCached _) fun _ => ?_
    exact shows_reconnect exclusive at_ present _ _
  · refine Via.then_leaves (unseen_observe _) fun _ => Via.then_leaves (unseen_deleteCached _) fun _ => ?_
    exact shows_fastTransfer at_ client left fun waiting => absurd spent waiting

/-! ### What is done when a message is sent -/

theorem shows_reuseConnection (at_ : b.Open c k k' w) (host : Bytes) :
    Shows (reuseConnection c host io) (fun _ => b.Settled p (· = .conn c)) w := by
  refine Via.then_leaves unseen_touch fun _ => Via.bind (via_update _ _ fun x owner => ?_)
  obtain rfl : k' = x := Option.some.inj (at_.server.symm.trans owner)
  refine via_readRequest fun x m owner => ?_
  obtain rfl : k = x := Option.some.inj (at_.seatServer.client.symm.trans owner)
  refine at_.seatServer.seatClient.settled (if_pos rfl) ?_ .keptAlive
  exact (if_neg at_.distinct.symm).trans (if_pos rfl)

theorem shows_handleConnect (at_ : b.Open c k k' w) :
    Shows (handleConnect c) (fun _ => b.Settled p (· = .conn c)) w := by
  refine Via.then_leaves unseen_touch fun _ => Via.then_leaves unseen_newRaw fun m => ?_
  refine Via.then_leaves unseen_newRaw fun m' => Via.bind (via_update _ _ fun x owner => ?_)
  obtain rfl : k' = x := Option.some.inj (at_.server.symm.trans owner)
  refine via_update _ _ fun x owner => ?_
  obtain rfl : k = x := Option.some.inj (at_.seatServer.client.symm.trans owner)
  refine at_.seatServer.seatClient.settled (if_pos rfl) ?_ (.tunnelling _ _ rfl rfl)
  exact (if_neg at_.distinct.symm).trans (if_pos rfl)

theorem shows_startTransfer (at_ : b.Open c k k' w) (unwritten : p.output k.fd = false) :
    Shows (startTransfer c rqst) (fun _ => b.Settled p (· = .conn c)) w := by
  refine Via.then_leaves unseen_newResponse fun m => Via.bind (via_update _ _ fun x owner => ?_)
  obtain rfl : k' = x := Option.some.inj (at_.server.symm.trans owner)
  refine via_update _ _ fun x owner => ?_
  obtain rfl : k = x := Option.some.inj (at_.seatServer.client.symm.trans owner)
  refine at_.seatServer.seatClient.settled (if_pos rfl) ((if_neg at_.distinct.symm).trans (if_pos rfl)) ?_
  exact .transferring _ (Or.inl ⟨rfl, unwritten⟩)

end Proxy

end ProxyServer
