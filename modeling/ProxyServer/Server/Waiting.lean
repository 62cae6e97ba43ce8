import ProxyServer.Server.Docket

/-!
# No client is forgotten

A client that waits for the resolver is entered in `on_resolve`, and its host is with the
resolver. An entry is erased for the client that it belongs to, when it leaves, gets its
server or is given up.
-/

namespace ProxyServer

open Wp

namespace Proxy

variable {α β : Type} {x : ProxyM α} {k : α → ProxyM β} {id : SocketId} {c : ConnId} {io : Io} {state : FdState}
  {key : Fd × Bytes} {host : Bytes}

/-! ### Entries of `on_resolve` that are erased -/

/-- `x` forgets no client when none waits for the key. -/
def Sparing {α : Type} (key : Fd × Bytes) (x : ProxyM α) : Prop :=
  ∀ s, ¬s.docket.Asking key → wp (fun _ => True) x (fun _ t => Docket.Calm s.docket t.docket) s

theorem Sparing.of_calmly (calmly : Calmly x) : Sparing key x := fun s _ => calmly s

theorem Sparing.bind (first : Sparing key x) (rest : ∀ a, Sparing key (k a)) : Sparing key (x >>= k) := by
  intro s unasked
  rw [wp_bind]
  apply wp_mono _ (first s unasked)
  intro a t calm
  exact wp_mono (fun _ _ more => calm.trans more) (rest a t fun asking => unasked (calm.asking key asking))

theorem Sparing.whenever {b : Bool} {x : ProxyM Unit} (sparing : Sparing key x) : Sparing key (whenever b x) := by
  cases b with
  | true => exact sparing
  | false => exact fun s _ => Docket.Calm.refl s.docket

theorem Sparing.before (first : Calmly x) (rest : ∀ a, Sparing key (k a)) : Sparing key (x >>= k) :=
  Sparing.bind (.of_calmly first) rest

theorem sparing_erasePending : Sparing key (erasePending key) := by
  intro s unasked
  unfold erasePending
  rw [wp_modify]
  refine ⟨rfl, fun _ => id, fun other asking known => ?_⟩
  have apart : other ≠ key := by
    rintro rfl
    exact unasked asking
  simpa only [docket, if_neg apart] using known

theorem sparing_eraseFound {query : Option Pending} : Sparing key (eraseFound key query) := by
  unfold eraseFound
  cases query with
  | none => exact .of_calmly calmly_throw
  | some q => exact sparing_erasePending

theorem sparing_giveUp {query : Option Pending} : Sparing key (giveUp c key query io) := by
  unfold giveUp
  refine .before calmly_touch fun _ => .bind sparing_eraseFound fun _ => .of_calmly ?_
  exact calmly_bind calmly_escapeClient fun client => calmly_bind calmly_send404 fun _ => calmly_closeConnection

theorem sparing_onConnecting {socket : Fd} : Sparing (socket, host) (onConnecting c socket host state) := by
  unfold onConnecting
  refine .whenever (.before calmly_touch fun _ => .bind sparing_erasePending fun _ => ?_)
  exact .of_calmly calmly_closeConnection

theorem sparing_onServerConnect {ip : ResolvedIp} : Sparing (ip.socket, ip.host) (onServerConnect c ip state io) := by
  unfold onServerConnect
  refine .before calmly_getElem fun server => .before calmly_setActive fun _ => .before calmly_get fun s => ?_
  split
  · exact sparing_giveUp
  · split
    · refine .before calmly_touch fun _ => ?_
      split
      · exact .of_calmly calmly_throw
      · split
        · split
          · exact sparing_giveUp
          · refine .before calmly_observe fun _ => ?_
            split
            · exact sparing_giveUp
            · exact .of_calmly calmly_pure
        · exact sparing_giveUp
    · refine .whenever (.before calmly_touch fun _ => ?_)
      split
      · exact .of_calmly calmly_throw
      · refine .bind sparing_erasePending fun _ => .of_calmly ?_
        refine calmly_bind calmly_updateState fun _ => calmly_bind calmly_updateState fun _ => ?_
        refine calmly_bind calmly_changeTimeout fun _ => calmly_bind calmly_getElem fun client => ?_
        exact calmly_bind calmly_observe fun _ => calmly_afterConnect

theorem calm_onResolving {s : Proxy} {f : Fd} (own : s.view.Owned) (installed : s.handlers f = some (.resolving id host)) :
    wp (fun _ => True) (onResolving id host state) (fun _ t => Docket.Calm s.docket t.docket) s := by
  have owner : s.view.fd? (.sock id) = some f := (own.owns installed).2
  obtain ⟨e, live, rfl⟩ : ∃ e, s.view.socket id = some e ∧ e.client.fd = f := by simpa [Registry.fd?] using owner
  have present : e.client.fd ≠ 0 := own.present owner
  suffices acts : Acts (fun _ => True) (onResolving id host state) (fun _ w => Docket.Calm s.view.docket w.docket) s.view from
    acts s rfl
  refine Acts.whenever (fun _ => ?_) fun _ => Docket.Calm.refl _
  refine Acts.bind (acts_touch (fun _ => ?_) fun _ => trivial)
  refine Acts.bind (acts_getElem (fun elem here => ?_) fun _ => trivial)
  obtain same : e.client.fd = elem.fd := by simpa [owner] using here
  refine Acts.get fun t _ => Acts.bind (acts_eraseFound (fun _ => trivial) fun _ => ?_)
  refine acts_closeSocket (fun e' live' => ?_) fun _ => trivial
  obtain rfl : e = e' := Option.some.inj (live.symm.trans live')
  have handlers : ∀ key, Docket.Asking ((s.view.unpend (elem.fd, host)).eraseSocket id e).docket key →
      key.1 ≠ e.client.fd ∧ s.view.docket.Asking key := by
    intro key asking
    simp only [Docket.Asking, Registry.docket, Registry.eraseSocket, Registry.release, Registry.unpend] at asking
    split at asking
    · cases asking
    · rename_i apart
      exact ⟨fun same => apart ⟨same, present⟩, asking⟩
  refine ⟨rfl, fun key asking => (handlers key asking).2, fun key asking known => ?_⟩
  have apart : key ≠ (elem.fd, host) := by
    rintro rfl
    exact (handlers _ asking).1 same.symm
  simpa only [Registry.docket, Registry.eraseSocket, Registry.release, Registry.unpend, if_neg apart] using known

/-- The client of a result leaves the sockets that wait, whether it gets a server or a 404. -/
theorem answers_onNotifier {s : Proxy} (own : s.view.Owned) (input : state.is .IN = true) :
    wp (fun _ => True) (onNotifier state io) (fun _ t => Docket.Answers io.resolved s.docket t.docket) s := by
  suffices acts : Acts (fun _ => True) (onNotifier state io)
      (fun _ w => Docket.Answers io.resolved s.view.docket w.docket) s.view from acts s rfl
  refine Acts.whenever (fun _ => ?_) fun never => by rw [input] at never; cases never
  refine Acts.get fun t _ => Acts.bind (acts_service _ trivial ?_)
  refine Acts.bind (acts_newDescriptor io trivial (fun d opened present unowned => ?_) fun _ => Acts.throw trivial)
  refine Acts.bind (acts_getIp trivial fun ip queued _ => ?_)
  refine Acts.get fun t same => Acts.get fun t' same' => ?_
  have query : t'.onResolve = s.view.onResolve := congrArg Registry.onResolve same'
  rw [query]
  split
  · rename_i unknown
    refine Acts.pure ⟨(List.getElem?_eq_some_iff.mp queued).1, rfl, fun _ => id, fun _ _ => id, fun key here _ => ?_⟩
    obtain rfl : (ip.socket, ip.host) = key := Option.some.inj (queued.symm.trans here)
    exact unknown
  · refine Acts.bind (acts_derefClient (fun _ => trivial) fun id client => ?_)
    obtain ⟨e, live, key⟩ := (findId_view (d := ip.socket) same).1 id client
    have here : ip.socket = e.client.fd := by rw [← key, own.keyed live]
    have owner : s.view.fd? (.sock id) = some ip.socket := by
      rw [here]
      simp [Registry.fd?, show s.view.socket id = some e from live]
    have present' : ip.socket ≠ 0 := own.present owner
    -- A 404 takes the place of the handler that waits.
    have refused : ∀ w : Docket, w.resolving = s.view.resolving.eraseIdx io.resolved →
        (∀ f, w.handlers f = if f = ip.socket then some (.send (.sock id) (.response s.nextMessage) (.sock id) (.close404 id))
          else s.handlers f) →
        (∀ other, other.1 ≠ ip.socket → w.onResolve other = s.onResolve other) →
        Docket.Answers io.resolved s.view.docket w := by
      intro w resolving handlers onResolve
      refine .of_replaced queued resolving (fun f => ?_) onResolve
      rw [handlers]
      split
      · exact Or.inl rfl
      · exact Or.inr ⟨‹_›, rfl⟩
    split
    · refine Acts.bind (acts_erasePending _ ?_)
      refine acts_sendResponse (f := ip.socket) ?_ present' notFound _ io fun d _ _ => ?_
      · exact owner
      exact refused _ rfl (fun _ => rfl) fun other apart => if_neg fun same => apart (by rw [same])
    · refine Acts.bind (acts_observe _ ?_)
      split
      · refine Acts.bind (acts_sendResponse (f := ip.socket) ?_ present' notFound _ io fun d _ _ => ?_)
        · rw [Registry.fd?_withLedger]
          exact owner
        refine acts_erasePending _ ?_
        exact refused _ rfl (fun _ => rfl) fun other apart => if_neg fun same => apart (by rw [same])
      · have own' := (own.dequeue (s.view.resolving.eraseIdx io.resolved)).withLedger
          (s.view.ledger.observe (.attempted d ip.getIp))
        refine acts_startConnection (e := e) own' live present fun c _ _ => ?_
        refine .of_replaced queued rfl (fun f => ?_) fun _ _ => rfl
        simp only [Registry.docket, Registry.link]
        split
        · exact Or.inl rfl
        · split
          · exact Or.inl rfl
          · rename_i apart
            exact Or.inr ⟨fun same => apart (same.trans here), rfl⟩

end Proxy

/-! ### Steps -/

/-- The event is a result of the resolver. -/
def Proxy.notified (s : Proxy) (event : Event) : Bool :=
  match s.handlers event.fd with
  | some .notifier => event.state.is .IN
  | _ => false

namespace Proxy

variable {s t : Proxy} {event : Event}

theorem submits_run {h : Handler} {f : Fd} (own : s.view.Owned) (installed : s.handlers f = some h)
    (quiet : h = .notifier → state.is .IN = false) :
    wp (fun _ => True) (h.run state io) (fun _ t => Docket.Submits s.docket t.docket) s := by
  have calmly : Calmly (h.run state io) → wp (fun _ => True) (h.run state io) (fun _ t => Docket.Submits s.docket t.docket) s :=
    fun calmly => wp_mono (fun _ _ calm => .none calm) (calmly s)
  cases h with
  | listener => exact calmly calmly_onListener
  | notifier =>
    refine calmly ?_
    show Calmly (onNotifier state io)
    unfold onNotifier
    rw [quiet rfl]
    exact calmly_pure
  | timer => exact calmly calmly_onTimer
  | resolving sock host => exact wp_mono (fun _ _ calm => .none calm) (calm_onResolving own installed)
  | connecting conn socket host =>
    have unasked : ¬s.docket.Asking (socket, host) := by
      obtain rfl := own.client installed
      simp [Docket.Asking, docket, installed, Handler.asks]
    exact wp_mono (fun _ _ calm => .none calm) (sparing_onConnecting s unasked)
  | serverConnect conn ip =>
    have unasked : ¬s.docket.Asking (ip.socket, ip.host) := by
      intro asking
      obtain ⟨id, resolving⟩ := asking.resolving
      cases own.unique (own.owns resolving).2 (own.server installed)
    exact wp_mono (fun _ _ calm => .none calm) (sparing_onServerConnect s unasked)
  | readRequest source message iterator next => exact submitting_onReadable submitting_receiveRequest s
  | readResponse source message iterator next => exact submitting_onReadable submitting_receiveResponse s
  | send dest message iterator next => exact calmly (calmly_onWritable calmly_pure calmly_transmitMessage)
  | transferServer conn rqst resp => exact submitting_onReadable (.of_calmly calmly_transferIn) s
  | transferClient conn resp =>
    exact calmly (calmly_onWritable (calmly_bind calmly_get fun _ => calmly_pure) calmly_transferOut)
  | reused conn => exact calmly (calmly_whenever calmly_logAndClose)
  | connectTransfer conn side inMessage outMessage => cases side <;> exact calmly calmly_onConnectTransfer

theorem submits_step (own : s.view.Owned) (quiet : s.notified event = false) (stepped : s.step event = .ok t) :
    Docket.Submits s.docket t.docket := by
  cases installed : s.handlers event.fd with
  | none =>
    rw [step_none installed stepped]
    exact .none (Docket.Calm.refl _)
  | some h =>
    refine step_wp (Q := fun t => Docket.Submits s.docket t.docket) installed (submits_run own installed fun same => ?_) stepped
    subst same
    simpa [notified, installed] using quiet

theorem answers_step (own : s.view.Owned) (notified : s.notified event = true) (stepped : s.step event = .ok t) :
    Docket.Answers event.io.resolved s.docket t.docket := by
  unfold Proxy.notified at notified
  split at notified
  · rename_i installed
    exact step_wp (Q := fun t => Docket.Answers _ s.docket t.docket) installed (answers_onNotifier own notified) stepped
  · cases notified

theorem init_waiting (timer notifier listener : Fd) : (init timer notifier listener).docket.Waiting := by
  intro key asking
  obtain ⟨id, installed⟩ := asking.resolving
  simp only [docket, init] at installed
  split at installed
  · cases installed
  · split at installed
    · cases installed
    · split at installed <;> cases installed

end Proxy

end ProxyServer
