import ProxyServer.Server.Acts

/-!
# What every handler keeps

The invariant of the registry, of which a run may ask for more or for less, and
the ways in which handlers move the registry.
-/

namespace ProxyServer

structure Guard where
  /-- No handler uses an entry that it closed. -/
  closes : Prop := False
  /-- The pending resolutions that are looked up are there. -/
  pending : Prop := False
  /-- No pending resolution outlives its client. -/
  current : Prop := False
  /-- What an exchange satisfies whose response is stored. -/
  answers : Ledger.Answering := fun _ _ _ _ => True
  /-- What the answer to a validation of the cached response satisfies. -/
  validates : ServerResponse → Ledger.Answering := fun _ _ _ _ _ => True
  /-- The descriptors that may be opened. -/
  opens : Fd → Prop := fun _ => True

/-- The failures that a run may end with. -/
def Guard.Allows (g : Guard) : Fault → Prop
  | .useAfterClose _ => ¬g.closes
  | .endIterator => ¬g.pending
  | .nullElem => False
  | _ => True

/-- The action that runs for a client is that of its latest call. -/
def Isolated (trace : List Obs) : Prop := ∀ latest ran, .established latest ran ∈ trace → latest = some ran

def AfterConnect.request : AfterConnect → ClientRequest
  | .handleClientRequest rqst => rqst
  | .fastTransfer rqst => rqst

/-- What is done with a connection to the host concerns a request for it. -/
structure AfterConnect.Asks (next : AfterConnect) (host : Bytes) : Prop where
  named : next.request.getHeader.getProperty (lit "host") = host
  whole : next.request.Whole

theorem AfterConnect.Asks.routed {next : AfterConnect} {host : Bytes} {d : Ledger} {c : ConnId}
    (asks : next.Asks host) (connected : d.Connected c host) : d.Routed c next.request :=
  ⟨asks.named ▸ connected, asks.whole⟩

namespace Registry

/-- A handler that may be installed for the element `r`. -/
structure Fits (v : Registry) (h : Handler) (r : ElemRef) : Prop where
  names : v.owner h = r
  coherent : h.Coherent
  settled : h.Settled
  relies : ∀ f, v.fd? r = some f → v.ledger.Relies f h
  listens : ∀ l, h.listens = some l → v.ledger.Hears l ∧
    ∀ {f' h' l'}, v.handlers f' = some h' → h'.listens = some l' → l'.message ≠ l.message

/-- What is read of servers is what they have said, each into a message of its own. -/
structure Heard (v : Registry) : Prop where
  hears : ∀ {f h l}, v.handlers f = some h → h.listens = some l → v.ledger.Hears l
  alone : ∀ {f f' h h' l l'}, v.handlers f = some h → v.handlers f' = some h' → h.listens = some l →
    h'.listens = some l' → l.message = l'.message → f = f'

structure Sound (g : Guard) (v : Registry) : Prop where
  own : v.Owned
  awaited : g.pending → v.Awaited
  current : g.current → v.Current
  isolated : g.current → Isolated v.ledger.trace
  relies : ∀ {f h}, v.handlers f = some h → v.ledger.Relies f h
  heard : v.Heard
  recorded : v.ledger.Recorded g.answers g.validates
  confined : ∀ {r f}, v.fd? r = some f → g.opens f
  asked : ∀ {key q}, v.onResolve key = some q → q.next.Asks key.2

variable {g : Guard} {v w : Registry} {r : ElemRef} {it : EntryRef} {id : SocketId} {c : ConnId} {l : Link}
  {e : SocketView} {f : Fd} {h : Handler} {key : Fd × Bytes} {K : Fd × Bytes → Prop}

/-- The handlers that read of a server are those that did. -/
theorem Heard.fewer (heard : v.Heard) (ledger : w.ledger = v.ledger)
    (handlers : ∀ {f h}, w.handlers f = some h → v.handlers f = some h ∨ h.listens = none) : w.Heard := by
  have before : ∀ {f h l}, w.handlers f = some h → h.listens = some l → v.handlers f = some h := by
    intro f h l installed listens
    refine (handlers installed).resolve_right fun silent => ?_
    rw [listens] at silent
    cases silent
  constructor
  · intro f h l installed listens
    rw [ledger]
    exact heard.hears (before installed listens) listens
  · intro f f' h h' l l' installed installed' listens listens'
    exact heard.alone (before installed listens) (before installed' listens') listens listens'

theorem Sound.move (sound : v.Sound g) (own : w.Owned) (ledger : w.ledger = v.ledger)
    (handlers : ∀ {f h}, w.handlers f = some h → v.handlers f = some h ∨ v.ledger.Relies f h ∧ h.listens = none)
    (fds : ∀ {r f}, w.fd? r = some f → (∃ r', v.fd? r' = some f) ∨ g.opens f)
    (pendings : ∀ {key q}, w.onResolve key = some q → v.onResolve key = some q)
    (keeps : g.pending ∨ g.current → ∀ K, Keeps K v w) : w.Sound g where
  own := own
  awaited on := (sound.awaited on).keeps (keeps (Or.inl on) _)
  current on := (sound.current on).keeps (keeps (Or.inr on) _)
  isolated on := by
    rw [ledger]
    exact sound.isolated on
  relies installed := by
    rw [ledger]
    exact (handlers installed).elim sound.relies And.left
  heard := sound.heard.fewer ledger fun installed => (handlers installed).imp_right And.right
  recorded := by
    rw [ledger]
    exact sound.recorded
  confined owner := by
    rcases fds owner with ⟨r', owner⟩ | opens
    · exact sound.confined owner
    · exact opens
  asked found := sound.asked (pendings found)

/-! ### Entries that wait for nothing -/

/-- A live entry that is not part of a connection attempt. -/
def Ready (v : Registry) : EntryRef → Prop
  | .sock id => ∃ e, v.socket id = some e ∧ ∀ id' host, v.handlers e.client.fd ≠ some (.resolving id' host)
  | .conn c => ∃ l, v.connection c = some l ∧ l.established = true

theorem Ready.alive (ready : v.Ready it) : v.alive it = true := by
  cases it with
  | sock id =>
    obtain ⟨e, live, _⟩ := ready
    simp [Registry.alive, live]
  | conn c =>
    obtain ⟨l, live, _⟩ := ready
    simp [Registry.alive, live]

theorem Ready.fd (ready : v.Ready r.entry) : ∃ f, v.fd? r = some f := by
  cases r with
  | sock id =>
    obtain ⟨e, live, _⟩ := ready
    exact ⟨_, by rw [Registry.fd?, live]; rfl⟩
  | client c =>
    obtain ⟨l, live, _⟩ := ready
    exact ⟨_, by rw [Registry.fd?, live]; rfl⟩
  | server c =>
    obtain ⟨l, live, _⟩ := ready
    exact ⟨_, by rw [Registry.fd?, live]; rfl⟩

theorem Ready.not_waits (ready : v.Ready it) (own : v.Owned) : ¬v.Waits key it := by
  intro waits
  cases waits with
  | resolving id e live installed =>
    obtain ⟨e', live', idle⟩ := ready
    have owner := (own.owns installed).2
    have here : e'.client.fd = key.1 := by simpa [Registry.fd?, Registry.owner, live'] using owner
    rw [← here] at installed
    exact idle _ _ installed
  | connecting c l ip live unestablished =>
    obtain ⟨l', live', established⟩ := ready
    rw [live] at live'
    cases live'
    rw [unestablished] at established
    cases established

/-- No connection attempt relies on the descriptor of such an entry. -/
theorem Ready.free (ready : v.Ready r.entry) (own : v.Owned) (owner : v.fd? r = some f) : v.Free f := by
  cases r with
  | sock id =>
    obtain ⟨e, live, _⟩ := ready
    obtain rfl : e.client.fd = f := by simpa [Registry.fd?, live] using owner
    exact own.free live
  | client c =>
    obtain ⟨l, live, established⟩ := ready
    intro c' l' live' unestablished
    refine ⟨?_, ?_⟩
    · rintro rfl
      have other : v.fd? (.client c') = some l'.client.fd := by simp [Registry.fd?, live']
      obtain rfl : c = c' := by simpa using own.unique owner other
      rw [live] at live'
      cases live'
      simp_all
    · rintro rfl
      have other : v.fd? (.server c') = some l'.server := by simp [Registry.fd?, live']
      exact absurd (own.unique owner other) (by simp)
  | server c =>
    obtain ⟨l, live, established⟩ := ready
    intro c' l' live' unestablished
    refine ⟨?_, ?_⟩
    · rintro rfl
      have other : v.fd? (.client c') = some l'.client.fd := by simp [Registry.fd?, live']
      exact absurd (own.unique owner other) (by simp)
    · rintro rfl
      have other : v.fd? (.server c') = some l'.server := by simp [Registry.fd?, live']
      obtain rfl : c = c' := by simpa using own.unique owner other
      rw [live] at live'
      cases live'
      simp_all

theorem Ready.idle (ready : v.Ready r.entry) (own : v.Owned) (owner : v.fd? r = some f) (id : SocketId)
    (host : Bytes) : v.handlers f ≠ some (.resolving id host) := by
  intro installed
  have same := own.unique owner (own.owns installed).2
  subst same
  obtain ⟨e, live, idle⟩ := ready
  obtain rfl : e.client.fd = f := by simpa [Registry.fd?, Registry.owner, live] using owner
  exact idle _ _ installed

/-- The entry of an element whose handler is not one of a connection attempt. -/
theorem Owned.ready (own : v.Owned) (installed : v.handlers f = some h) (settled : h.Settled) :
    v.Ready (v.owner h).entry := by
  have owner := (own.owns installed).2
  revert owner
  cases v.owner h with
  | sock id =>
    intro owner
    obtain ⟨e, live, same⟩ := Option.map_eq_some_iff.mp owner
    refine ⟨e, live, fun id' host installed' => ?_⟩
    rw [same, installed] at installed'
    cases installed'
    exact settled
  | client c =>
    intro owner
    obtain ⟨l, live, same⟩ := Option.map_eq_some_iff.mp owner
    exact ⟨l, live, own.established installed settled live (Or.inl same.symm)⟩
  | server c =>
    intro owner
    obtain ⟨l, live, same⟩ := Option.map_eq_some_iff.mp owner
    exact ⟨l, live, own.established installed settled live (Or.inr same.symm)⟩

theorem Ready.setHandler (ready : v.Ready it) (settled : h.Settled) : (v.setHandler f h).Ready it := by
  cases it with
  | sock id =>
    obtain ⟨e, live, idle⟩ := ready
    refine ⟨e, live, fun id' host installed => ?_⟩
    simp only [Registry.setHandler] at installed
    split at installed
    · cases installed
      exact settled
    · exact idle _ _ installed
  | conn c => exact ready

theorem Heard.setHandler (heard : v.Heard) (listens : ∀ l, h.listens = some l → v.ledger.Hears l ∧
    ∀ {f' h' l'}, v.handlers f' = some h' → h'.listens = some l' → l'.message ≠ l.message) : (v.setHandler f h).Heard := by
  have known : ∀ {f' h'}, (v.setHandler f h).handlers f' = some h' → f' = f ∧ h' = h ∨ v.handlers f' = some h' := by
    intro f' h' installed
    simp only [Registry.setHandler] at installed
    split at installed
    · exact Or.inl ⟨by assumption, (Option.some.inj installed).symm⟩
    · exact Or.inr installed
  constructor
  · intro f' h' l installed listens'
    rcases known installed with ⟨_, rfl⟩ | old
    · exact (listens l listens').1
    · exact heard.hears old listens'
  · intro f₁ f₂ h₁ h₂ l₁ l₂ installed₁ installed₂ listens₁ listens₂ same
    rcases known installed₁ with ⟨rfl, rfl⟩ | old₁
    · rcases known installed₂ with ⟨rfl, _⟩ | old₂
      · rfl
      · exact absurd same.symm ((listens l₁ listens₁).2 old₂ listens₂)
    · rcases known installed₂ with ⟨rfl, rfl⟩ | old₂
      · exact absurd same ((listens l₂ listens₂).2 old₁ listens₁)
      · exact heard.alone old₁ old₂ listens₁ listens₂ same

theorem Sound.install (sound : v.Sound g) (ready : v.Ready r.entry) (owner : v.fd? r = some f)
    (fits : v.Fits h r) : (v.setHandler f h).Sound g := by
  have free := ready.free sound.own owner
  have keeps : ∀ K, Keeps K v (v.setHandler f h) := fun K =>
    Keeps.setHandler fits.settled free fun id host installed => absurd installed (ready.idle sound.own owner id host)
  refine ⟨sound.own.setHandler fits.coherent (by rw [fits.names, owner]) (Or.inl fits.settled) free,
    fun on => (sound.awaited on).keeps (keeps _), fun on => (sound.current on).keeps (keeps _), sound.isolated,
    fun installed => ?_, sound.heard.setHandler fits.listens, sound.recorded,
    fun {r f'} owner => sound.confined (r := r) (by simpa using owner), sound.asked⟩
  simp only [Registry.setHandler] at installed
  split at installed
  · rename_i same
    cases installed
    rw [same]
    exact fits.relies f owner
  · exact sound.relies installed

/-! ### Messages -/

theorem Owned.withLedger (own : v.Owned) (d : Ledger) : (v.withLedger d).Owned :=
  ⟨fun owner => own.present (by simpa using owner), fun owner owner' => own.unique (by simpa using owner)
    (by simpa using owner'), own.keyed, fun installed => by
      have owner_eq : ∀ h : Handler, (v.withLedger d).owner h = v.owner h := fun h => by cases h <;> rfl
      simpa [owner_eq] using own.owns installed,
    own.client, fun installed => by simpa using own.server installed, own.linking⟩

theorem Keeps.withLedger (d : Ledger) : Keeps K v (v.withLedger d) where
  flight := fun _ queued => queued
  entry := fun found => found
  waited := by
    intro key it waits
    refine ⟨rfl, it, ?_⟩
    cases waits with
    | resolving id e live installed latest => exact .resolving id e live installed latest
    | connecting c l ip live unestablished installed same latest =>
      exact .connecting c l ip live unestablished installed same latest
  served := by
    intro P key it _ _ serves
    refine ⟨it, ?_⟩
    cases serves with
    | resolving id e live installed latest => exact .resolving id e live installed latest
    | connecting c l ip live unestablished installed same latest =>
      exact .connecting c l ip live unestablished installed same latest

variable {d : Ledger}

theorem Heard.withLedger (heard : v.Heard)
    (hears : ∀ {f h l}, v.handlers f = some h → h.listens = some l → v.ledger.Hears l → d.Hears l) : (v.withLedger d).Heard where
  hears installed listens := hears installed listens (heard.hears installed listens)
  alone := heard.alone

theorem Sound.withLedger (sound : v.Sound g) (isolated : g.current → Isolated d.trace)
    (relies : ∀ f h, v.handlers f = some h → v.ledger.Relies f h → d.Relies f h)
    (hears : ∀ {f h l}, v.handlers f = some h → h.listens = some l → v.ledger.Hears l → d.Hears l)
    (recorded : d.Recorded g.answers g.validates) : (v.withLedger d).Sound g where
  own := sound.own.withLedger d
  awaited on := (sound.awaited on).keeps (Keeps.withLedger d)
  current on := (sound.current on).keeps (Keeps.withLedger d)
  isolated := isolated
  relies installed := relies _ _ installed (sound.relies installed)
  heard := sound.heard.withLedger hears
  recorded := recorded
  confined {r f} owner := sound.confined (r := r) (by simpa using owner)
  asked := sound.asked

/-- The trace has become longer, but for what `Isolated` is about. -/
theorem isolated_append {trace : List Obs} {o : Obs} (isolated : Isolated trace)
    (other : ∀ latest ran, o = .established latest ran → latest = some ran) : Isolated (trace ++ [o]) := by
  intro latest ran seen
  rcases List.mem_append.mp seen with old | new
  · exact isolated latest ran old
  · exact other latest ran (List.mem_singleton.mp new).symm

theorem Sound.observe (sound : v.Sound g) {o : Obs} (plain : o.Plain) (aside : o.Aside)
    (isolated : g.current → ∀ latest ran, o = .established latest ran → latest = some ran) :
    (v.withLedger (v.ledger.observe o)).Sound g :=
  sound.withLedger (fun on => isolated_append (sound.isolated on) (isolated on))
    (fun _ _ _ relies => relies.observe
      (fun _ _ _ same => by
        subst same
        exact plain)
      fun c _ _ => aside.adds c)
    (fun _ _ hears => hears.observe (aside.adds _)) (sound.recorded.observe_plain plain fun c e _ => aside.adds c e)

theorem Sound.connect (sound : v.Sound g) (host : Bytes) : (v.withLedger (v.ledger.connect host)).Sound g := by
  apply sound.withLedger
  · intro on
    exact isolated_append (sound.isolated on) fun _ _ same => by cases same
  · intro f h _ relies
    exact relies.connect host
  · intro f h l _ _ hears
    have observed := hears.observe (o := .connected v.ledger.nextConnection host) fun _ => rfl
    exact observed.keep rfl (Nat.le_refl _) fun _ received => received
  · exact sound.recorded.connect host

theorem Sound.newRequest (sound : v.Sound g) (m : ClientRequest) :
    (v.withLedger (v.ledger.newMessage.setRequest v.ledger.nextMessage m)).Sound g := by
  refine sound.withLedger sound.isolated (fun _ _ _ relies => ?_) (fun _ _ hears => ?_)
    (sound.recorded.newMessage.setRequest fun f bytes seen => ?_)
  · refine relies.keep rfl (Nat.le_succ _) ?_
    exact .same fun other known => if_neg (Nat.ne_of_lt known)
  · exact hears.keep rfl (Nat.le_succ _) fun _ received => received
  · exact absurd (sound.recorded.sending seen).known (Nat.lt_irrefl _)

theorem Sound.newResponse (sound : v.Sound g) (m : ServerResponse) :
    (v.withLedger (v.ledger.newMessage.setResponse v.ledger.nextMessage m)).Sound g := by
  refine sound.withLedger sound.isolated (fun _ _ _ relies => ?_) (fun {_ _ l} _ _ hears => ?_)
    (sound.recorded.newMessage.setResponse fun f bytes seen => ?_)
  · exact relies.keep rfl (Nat.le_succ _) (.same fun _ _ => rfl)
  · refine hears.keep rfl (Nat.le_succ _) fun bytes received => ?_
    show (if l.message = v.ledger.nextMessage then m else v.ledger.responses l.message).Received bytes
    rwa [if_neg (Nat.ne_of_lt hears.known)]
  · exact absurd (sound.recorded.sending seen).known (Nat.lt_irrefl _)

/-- What is said to the server is read into the new message. -/
theorem Sound.listens (sound : v.Sound g) {m : ServerResponse} {l : Ear} (fresh : l.message = v.ledger.nextMessage)
    (received : m.Received []) (unanswered : v.ledger.Unanswered l.conn l.request) :
    (v.ledger.newMessage.setResponse v.ledger.nextMessage m).Hears l ∧
      ∀ {f' h' l'}, v.handlers f' = some h' → h'.listens = some l' → l'.message ≠ l.message := by
  obtain ⟨⟨k, count, told⟩, silent⟩ := unanswered
  refine ⟨⟨?_, ⟨k, count, told.mono (.same rfl)⟩, ?_⟩, fun installed' listens' same => ?_⟩
  · rw [fresh]
    exact Nat.lt_succ_self _
  · show (if l.message = v.ledger.nextMessage then m else _ : ServerResponse).Received (dialogue v.ledger.trace l.conn).since
    rw [if_pos fresh, silent]
    exact received
  · have known := (sound.heard.hears installed' listens').known
    rw [same, fresh] at known
    exact Nat.lt_irrefl _ known

theorem Sound.newRaw (sound : v.Sound g) :
    (v.withLedger (v.ledger.newMessage.setRaw v.ledger.nextMessage .new)).Sound g :=
  sound.withLedger sound.isolated (fun _ _ _ relies => relies.keep rfl (Nat.le_succ _) (.same fun _ _ => rfl))
    (fun _ _ hears => hears.keep rfl (Nat.le_succ _) fun _ received => received)
    (sound.recorded.keep rfl rfl (Nat.le_succ _) (Nat.le_refl _) fun _ _ _ _ => rfl)

theorem Sound.setRaw (sound : v.Sound g) (id : MsgId) (m : RawMessage) :
    (v.withLedger (v.ledger.setRaw id m)).Sound g :=
  sound.withLedger sound.isolated
    (fun _ _ _ relies => relies.keep rfl (Nat.le_refl _) (.same fun _ _ => rfl))
    (fun _ _ hears => hears.keep rfl (Nat.le_refl _) fun _ received => received)
    (sound.recorded.keep rfl rfl (Nat.le_refl _) (Nat.le_refl _) fun _ _ _ _ => rfl)

theorem Sound.queue {ref : MessageRef} {bytes : Bytes} (sound : v.Sound g) (queued : v.ledger.Queued d f ref bytes) :
    (v.withLedger d).Sound g := by
  refine sound.withLedger (fun on => ?_) (fun _ _ _ relies => relies.queue queued) (fun _ _ hears => hears.queue queued)
    (sound.recorded.queue queued)
  rw [queued.trace]
  exact isolated_append (sound.isolated on) nofun

theorem Sound.write {ref : MessageRef} {bytes : Bytes} (sound : v.Sound g) (written : v.ledger.Written d f ref bytes)
    (known : ref.id < v.ledger.nextMessage)
    (here : ∀ f' bytes', .sending f' ref bytes' ∈ v.ledger.trace → f' = f) : (v.withLedger d).Sound g := by
  refine sound.withLedger (fun on => ?_) (fun _ _ _ relies => relies.write written) (fun _ _ hears => hears.write written)
    (sound.recorded.write written known here)
  rw [written.trace]
  exact isolated_append (sound.isolated on) nofun

theorem Sound.setRequest {k : MsgId} {m : ClientRequest} (sound : v.Sound g)
    (reading : v.ledger.Reading (.request k)) (gathered : (v.ledger.requests k).Gathered → m.Gathered) :
    (v.withLedger (v.ledger.setRequest k m)).Sound g :=
  sound.withLedger sound.isolated (fun _ _ _ relies => relies.setRequest reading.apart gathered)
    (fun _ _ hears => hears.keep rfl (Nat.le_refl _) fun _ received => received) (sound.recorded.setRequest reading.apart)

/-! ### What is said on a connection -/

theorem Owned.listens (own : v.Owned) (installed : v.handlers f = some h) {l : Ear} (listens : h.listens = some l) :
    v.fd? (.server l.conn) = some f := by
  obtain ⟨coherent, owner⟩ := own.owns installed
  cases h with
  | readResponse source m it next =>
    cases next with
    | handleValidationResponse c rqst cached =>
      cases listens
      obtain ⟨_, rfl⟩ := coherent
      exact owner
  | transferServer c rqst m =>
    cases listens
    exact owner
  | _ => cases listens

/-- The server is sent the whole of a request. -/
theorem Sound.deliver (sound : v.Sound g) {ref : MessageRef} (owner : v.fd? r = some f) (installed : v.handlers f = some h)
    (silent : h.listens = none) (settled : h.Settled) (known : ∀ c, r = .server c → c < v.ledger.nextConnection) :
    (v.withLedger (v.ledger.observe (.delivered r ref))).Sound g := by
  have other : ∀ {c}, v.fd? (.server c) ≠ some f → ∀ e, (Obs.delivered r ref).adds c e = e := by
    intro c apart e
    cases r with
    | server c' =>
      refine if_neg ?_
      rintro rfl
      exact apart owner
    | _ => rfl
  refine sound.withLedger (fun on => isolated_append (sound.isolated on) nofun)
    (fun f' h' installed' relies => relies.observe (fun _ _ _ => nofun) ?_) (fun {f' h' l} installed' listens hears => ?_)
    (sound.recorded.observe_plain trivial fun c e bound => ?_)
  · rintro c ip rfl
    refine other fun owner' => ?_
    obtain rfl : f = f' := Option.some.inj (owner'.symm.trans (sound.own.owns installed').2)
    rw [installed] at installed'
    cases installed'
    exact settled
  · refine hears.observe (other fun owner' => ?_)
    obtain rfl : f = f' := Option.some.inj (owner'.symm.trans (sound.own.listens installed' listens))
    rw [installed] at installed'
    cases installed'
    rw [silent] at listens
    cases listens
  · cases r with
    | server c' =>
      refine if_neg ?_
      rintro rfl
      exact Nat.lt_irrefl _ (Nat.lt_of_lt_of_le (known c' rfl) bound)
    | _ => rfl

/-- What is read of a server is read on a connection that was made. -/
theorem Sound.known (sound : v.Sound g) (installed : v.handlers f = some h) {l : Ear} (listens : h.listens = some l) :
    l.conn < v.ledger.nextConnection := by
  have relies := sound.relies installed
  cases h with
  | readResponse source m it next =>
    cases next with
    | handleValidationResponse c rqst cached =>
      cases listens
      exact (sound.recorded.numbered c _ relies.2.2.connected).1
  | transferServer c rqst m =>
    cases listens
    exact (sound.recorded.numbered c _ relies.2.connected).1
  | _ => cases listens

/-- A message is sent to a server on a connection that was made. -/
theorem Sound.reached (sound : v.Sound g) {next : AfterSend} {bytes : Bytes} (coherent : next.Follows r)
    (follows : v.ledger.Follows bytes next) : ∀ c, r = .server c → c < v.ledger.nextConnection := by
  rintro c rfl
  obtain ⟨dest, more⟩ := coherent
  cases next with
  | readResponse dest' it next =>
    cases next with
    | handleValidationResponse c' rqst cached =>
      obtain ⟨-, source⟩ := more
      cases source
      exact (sound.recorded.numbered c _ follows.2.2.connected).1
  | startTransfer c' rqst =>
    cases dest
    exact (sound.recorded.numbered c _ follows.2.connected).1
  | _ => cases dest

/-- What is done when a message was sent as a whole finds that the server was told. -/
theorem Sound.proceeds {next : AfterSend} {ref : MessageRef} {bytes : Bytes} (sound : v.Sound g) (coherent : next.Follows r)
    (follows : v.ledger.Follows bytes next) (seen : .sending f ref bytes ∈ v.ledger.trace) (done : v.ledger.unsent ref = []) :
    (v.ledger.observe (.delivered r ref)).Proceeds next := by
  have grows : v.ledger.Grows (v.ledger.observe (.delivered r ref)) := .append rfl
  obtain ⟨rfl, more⟩ := coherent
  cases next with
  | readResponse dest it next =>
    cases next with
    | handleValidationResponse c rqst cached =>
      obtain ⟨stocked, rfl, routed⟩ := follows
      obtain ⟨_, rfl⟩ := more
      have asked : v.ledger.Asked rqst cached := ⟨stocked, f, ref, seen, sound.recorded.whole seen done⟩
      exact ⟨⟨asked.mono grows, routed.mono grows.trace⟩, sound.recorded.unanswered seen done⟩
  | startTransfer c rqst =>
    obtain ⟨rfl, routed⟩ := follows
    exact ⟨routed.mono grows.trace, sound.recorded.unanswered seen done⟩
  | reuseConnection c oldHost => exact grows.trace follows
  | _ => trivial

/-- A message is read from the server. -/
theorem Sound.hear (sound : v.Sound g) {l : Ear} {m : ServerResponse} {bytes : Bytes} (installed : v.handlers f = some h)
    (listens : h.listens = some l) (reading : v.ledger.Reading (.response l.message))
    (asked : bytes.length ≤ (v.ledger.responses l.message).shouldRead)
    (read : (v.ledger.responses l.message).readFrom bytes = .ok m) :
    (v.withLedger ((v.ledger.observe (.read (.server l.conn) bytes)).setResponse l.message m)).Sound g := by
  have known : l.conn < v.ledger.nextConnection := sound.known installed listens
  have observed : (v.ledger.observe (.read (.server l.conn) bytes)).Recorded g.answers g.validates := by
    refine sound.recorded.observe_plain trivial fun c e bound => if_neg ?_
    rintro rfl
    exact Nat.lt_irrefl _ (Nat.lt_of_lt_of_le known bound)
  refine sound.withLedger (fun on => isolated_append (sound.isolated on) nofun) (fun f' h' installed' relies => ?_)
    (fun {f' h' l'} installed' listens' hears => ?_) (observed.setResponse fun f bytes seen => ?_)
  · have observed := relies.observe (o := .read (.server l.conn) bytes) (fun _ _ _ => nofun) ?_
    · exact observed.setResponse
    · rintro c ip rfl e
      refine if_neg ?_
      rintro rfl
      obtain rfl : f = f' := Option.some.inj ((sound.own.listens installed listens).symm.trans (sound.own.owns installed').2)
      rw [installed] at installed'
      cases installed'
      cases listens
  · by_cases here : f' = f
    · subst here
      rw [installed] at installed'
      cases installed'
      rw [listens] at listens'
      cases listens'
      obtain ⟨known, ⟨k, count, told⟩, received⟩ := hears
      have said : dialogue (v.ledger.trace ++ [.read (.server l.conn) bytes]) l.conn =
          { dialogue v.ledger.trace l.conn with since := (dialogue v.ledger.trace l.conn).since ++ bytes } := by
        rw [dialogue_append]
        exact if_pos rfl
      refine ⟨known, ⟨k, ?_, told.mono (.append rfl)⟩, ?_⟩
      · show (dialogue (v.ledger.trace ++ [.read (.server l.conn) bytes]) l.conn).requests.length = _
        rw [said, count]
      · show (if l.message = l.message then m else _ : ServerResponse).Received
          (dialogue (v.ledger.trace ++ [.read (.server l.conn) bytes]) l.conn).since
        rw [if_pos rfl, said]
        exact received.readFrom asked read
    · have elsewhere : l.conn ≠ l'.conn := by
        intro same
        have owner := sound.own.listens installed listens
        rw [same, sound.own.listens installed' listens'] at owner
        exact here (Option.some.inj owner)
      have other : l'.message ≠ l.message := fun same => here (sound.heard.alone installed' installed listens' listens same)
      have observed := hears.observe (o := .read (.server l.conn) bytes) fun e => if_neg elsewhere
      refine observed.keep rfl (Nat.le_refl _) fun heard received => ?_
      show (if l'.message = l.message then m else v.ledger.responses l'.message).Received heard
      rwa [if_neg other]
  · exact reading.apart f bytes ((List.mem_append.mp seen).resolve_right fun new => by cases List.mem_singleton.mp new)

/-! ### Closing an entry -/

theorem release_handlers {d : Fd} : (v.release d).handlers f = some h ↔ v.handlers f = some h ∧ ¬(f = d ∧ d ≠ 0) := by
  simp only [release]
  split <;> simp_all

theorem Drops.eraseSocket (own : v.Owned) (live : v.socket id = some e) :
    Drops (· = .sock id) v (v.eraseSocket id e) where
  socket := by
    intro other e'
    by_cases same : other = id <;> simp [Registry.eraseSocket, same]
  connection := by simp [Registry.eraseSocket, release]
  handlers := by
    intro f h
    have owner : v.fd? (.sock id) = some e.client.fd := by simp [Registry.fd?, live]
    have present := own.present owner
    rw [Registry.eraseSocket, release_handlers]
    refine and_congr_right fun _ => ⟨fun kept r dropped owner' => ?_, fun only here => ?_⟩
    · cases r <;> simp only [ElemRef.entry, reduceCtorEq, EntryRef.sock.injEq] at dropped
      subst dropped
      rw [owner] at owner'
      cases owner'
      exact kept ⟨rfl, present⟩
    · exact only (.sock id) rfl (by rw [owner, ← here.1])
  resolving := rfl
  services := ⟨rfl, rfl, rfl⟩
  ledger := rfl
  forgotten := fun found => found
  kept := fun changed => absurd rfl changed

theorem Drops.eraseConnection (own : v.Owned) (live : v.connection c = some l) :
    Drops (· = .conn c) v (v.eraseConnection c l) where
  socket := by simp [Registry.eraseConnection, release]
  connection := by
    intro other l'
    by_cases same : other = c <;> simp [Registry.eraseConnection, same]
  handlers := by
    intro f h
    have client : v.fd? (.client c) = some l.client.fd := by simp [Registry.fd?, live]
    have server : v.fd? (.server c) = some l.server := by simp [Registry.fd?, live]
    have present := own.present client
    have present' := own.present server
    rw [Registry.eraseConnection, release_handlers, release_handlers, and_assoc]
    refine and_congr_right fun _ => ⟨fun kept r dropped owner' => ?_, fun only => ⟨fun here => ?_, fun here => ?_⟩⟩
    · cases r <;> simp only [ElemRef.entry, reduceCtorEq, EntryRef.conn.injEq] at dropped
      · subst dropped
        rw [client] at owner'
        cases owner'
        exact kept.2 ⟨rfl, present⟩
      · subst dropped
        rw [server] at owner'
        cases owner'
        exact kept.1 ⟨rfl, present'⟩
    · exact only (.server c) rfl (by rw [server, ← here.1])
    · exact only (.client c) rfl (by rw [client, ← here.1])
  resolving := rfl
  services := ⟨rfl, rfl, rfl⟩
  ledger := rfl
  forgotten := fun found => found
  kept := fun changed => absurd rfl changed

/-- A pending resolution of an entry that is closed is forgotten. -/
theorem Drops.unpend {p : EntryRef → Prop} (drops : Drops p v w) (key : Fd × Bytes) (dropped : p r.entry)
    (owner : v.fd? r = some key.1) : Drops p v (w.unpend key) where
  socket := drops.socket
  connection := drops.connection
  handlers := drops.handlers
  resolving := drops.resolving
  services := drops.services
  ledger := drops.ledger
  forgotten := by
    intro key' q found
    simp only [Registry.unpend] at found
    split at found
    · cases found
    · exact drops.forgotten found
  kept := by
    intro key' changed
    by_cases same : key' = key
    · exact ⟨r, dropped, by rw [owner, same]⟩
    · simp only [Registry.unpend, if_neg same] at changed
      exact drops.kept changed

theorem Sound.drops {p : EntryRef → Prop} (sound : v.Sound g) (drops : Drops p v w)
    (unneeded : ∀ key it, p it → v.Waits key it → w.onResolve key = none) : w.Sound g :=
  sound.move (sound.own.drops drops) drops.ledger (fun installed => Or.inl (drops.handlers.mp installed).1)
    (fun owner => Or.inl ⟨_, (drops.fd?.mp owner).1⟩) drops.forgotten fun _ _ =>
      Keeps.drops sound.own drops fun key it dropped waits _ => unneeded key it dropped waits

theorem Sound.closed (sound : v.Sound g) (drops : Drops (· = it) v w) (ready : v.Ready it) : w.Sound g :=
  sound.drops drops fun key it' same waits => by
    subst same
    exact absurd waits (ready.not_waits sound.own)

/-! ### Moving a client -/

theorem Sound.addSocket (sound : v.Sound g) {n : SocketId} {client : Client} (fresh : v.socket n = none)
    (present : client.fd ≠ 0) (unowned : ∀ r, v.fd? r ≠ some client.fd) (opens : g.opens client.fd) :
    (v.addSocket n client).Sound g := by
  apply sound.move (sound.own.addSocket fresh present unowned) rfl Or.inl
  · intro r f owner
    rcases (fd?_addSocket_iff fresh).mp owner with old | ⟨_, rfl⟩
    · exact Or.inl ⟨r, old⟩
    · exact Or.inr opens
  · exact fun found => found
  · intro _ _
    exact Keeps.addSocket sound.own client fresh

theorem Owned.ready_addSocket (own : v.Owned) {n : SocketId} {client : Client}
    (unowned : ∀ r, v.fd? r ≠ some client.fd) : (v.addSocket n client).Ready (.sock n) :=
  ⟨⟨client.fd, client⟩, by simp [Registry.addSocket], fun _ _ installed => unowned _ (own.owns installed).2⟩

theorem Sound.request (sound : v.Sound g) (live : v.socket id = some e)
    (idle : ∀ id' host', v.handlers e.client.fd ≠ some (.resolving id' host')) (host : Bytes) (pending : Pending)
    (asks : pending.next.Asks host) : (v.request id e host pending).Sound g where
  own := sound.own.request live host pending
  awaited on := (sound.awaited on).request sound.own live idle host pending
  current on := (sound.current on).request sound.own live idle host pending
  isolated := sound.isolated
  relies installed := by
    simp only [Registry.request] at installed
    split at installed
    · cases installed
      trivial
    · exact sound.relies installed
  heard := by
    refine Heard.fewer (w := v.request id e host pending) sound.heard rfl fun {f h} installed => ?_
    simp only [Registry.request] at installed
    split at installed
    · cases installed
      exact Or.inr rfl
    · exact Or.inl installed
  recorded := sound.recorded
  confined {r f} owner := sound.confined (r := r) (by rwa [fd?_request live] at owner)
  asked := by
    intro key q found
    simp only [Registry.request] at found
    split at found
    · rename_i same
      subst same
      cases old : v.onResolve (e.client.fd, host) with
      | none =>
        rw [old] at found
        cases found
        exact asks
      | some q' =>
        rw [old] at found
        cases found
        exact sound.asked old
    · exact sound.asked found

/-- Nothing owns the descriptor of a client whose connection was closed. -/
theorem Drops.unowned (drops : Drops (· = .conn c) v w) (own : v.Owned) (live : v.connection c = some l)
    (r : ElemRef) : w.fd? r ≠ some l.client.fd := by
  intro owner
  obtain ⟨owner, other⟩ := drops.fd?.mp owner
  have client : v.fd? (.client c) = some l.client.fd := by simp [Registry.fd?, live]
  exact other (by rw [own.unique owner client]; rfl)

variable {n : SocketId}

/-- No socket has the descriptor of a client in a connection. -/
theorem Owned.unkeyed (own : v.Owned) (live : v.connection c = some l) (here : v.socket n = some e) : e.key ≠ l.client.fd := by
  intro same
  have client : v.fd? (.client c) = some l.client.fd := by simp [Registry.fd?, live]
  have socket : v.fd? (.sock n) = some l.client.fd := by simp [Registry.fd?, here, ← same, own.keyed here]
  exact absurd (own.unique client socket) (by simp)

theorem Sound.escaped (sound : w.Sound g) (own : v.Owned) (live : v.connection c = some l)
    (drops : Drops (· = .conn c) v w) (fresh : v.socket n = none) (opens : g.opens l.client.fd) :
    (w.addSocket n l.client).Sound g ∧ (w.addSocket n l.client).Ready (.sock n) := by
  have unowned := drops.unowned own live
  have vacant : w.socket n = none := by
    cases found : w.socket n with
    | none => rfl
    | some e =>
      rw [(drops.socket.mp found).1] at fresh
      cases fresh
  have owner : v.fd? (.client c) = some l.client.fd := by simp [Registry.fd?, live]
  exact ⟨sound.addSocket vacant (own.present owner) unowned opens, sound.own.ready_addSocket unowned⟩

theorem fd?_addSocket_self {client : Client} : (v.addSocket n client).fd? (.sock n) = some client.fd := by
  simp [Registry.fd?, Registry.addSocket]

/-- Once the handler of a client is replaced, it does not matter that the client was
moved out of its connection before that was closed. -/
theorem escape_setHandler :
    ((((v.setLink c l.widow).eraseConnection c l.widow).addSocket n l.client).setHandler l.client.fd h) =
      ((v.eraseConnection c l).addSocket n l.client).setHandler l.client.fd h := by
  ext1 <;> try rfl
  · funext other
    simp only [Registry.setHandler, Registry.addSocket, Registry.eraseConnection, setLink]
    split <;> rfl
  · funext f
    simp only [Registry.setHandler, Registry.addSocket, Registry.eraseConnection, setLink, release, Link.widow]
    grind

theorem escape_request {host : Bytes} {pending : Pending} (same : e.client.fd = l.client.fd) :
    ((((v.setLink c l.widow).eraseConnection c l.widow).addSocket n l.client).request n e host pending) =
      ((v.eraseConnection c l).addSocket n l.client).request n e host pending := by
  ext1 <;> try rfl
  · funext other
    simp only [Registry.request, Registry.addSocket, Registry.eraseConnection, setLink]
    split <;> rfl
  · funext f
    simp only [Registry.request, Registry.addSocket, Registry.eraseConnection, setLink, release, Link.widow]
    grind

theorem eraseConnection_setHandler (server : f ≠ l.server) (client : f ≠ l.client.fd) :
    (v.setHandler f h).eraseConnection c l = (v.eraseConnection c l).setHandler f h := by
  ext1 <;> try rfl
  funext other
  simp only [Registry.setHandler, Registry.eraseConnection, release]
  grind

/-- The action of a connection that is established is that of its client. -/
theorem Owned.latest (own : v.Owned) (current : v.Current) {key : Fd × Bytes} {q : Pending}
    (live : v.connection c = some l) (same : key.1 = l.client.fd) (found : v.onResolve key = some q) :
    l.client.call = some q.call := by
  have client : v.fd? (.client c) = some key.1 := by simp [Registry.fd?, live, same]
  obtain ⟨it, serves⟩ := current key q found
  cases serves with
  | resolving id e live' installed =>
    exact absurd (own.unique (own.owns installed).2 client) (by simp [Registry.owner])
  | connecting c' l' ip live' unestablished installed equal latest =>
    subst equal
    obtain rfl : c' = c := by simpa using own.unique (own.server installed) client
    rw [live] at live'
    cases live'
    exact latest

/-! ### Results of the resolver -/

theorem Sound.dequeue (sound : v.Sound g) {rest : List (Fd × Bytes)} (fewer : rest ⊆ v.resolving) :
    (v.dequeue rest).Sound g :=
  sound.move (sound.own.dequeue rest) rfl Or.inl (fun {r _} owner => Or.inl ⟨r, by cases r <;> exact owner⟩)
    (fun found => found) fun _ _ => Keeps.dequeue fewer

/-- A result is for a client that is still resolving the name. -/
theorem Sound.answered {key : Fd × Bytes} {q : Pending} (sound : v.Sound g) (queued : key ∈ v.resolving)
    (found : v.onResolve key = some q) (live : v.socket id = some e) (same : key.1 = e.client.fd)
    (on : g.pending ∨ g.current) : v.handlers key.1 = some (.resolving id key.2) := by
  have waits : ∃ it, v.Waits key it := by
    rcases on with on | on
    · exact (sound.awaited on).attended queued (by rw [found]; rfl)
    · obtain ⟨it, serves⟩ := sound.current on key q found
      exact ⟨it, serves.imp fun _ _ => trivial⟩
  obtain ⟨it, waits⟩ := waits
  rw [same]
  exact (Waits.idle sound.own live waits same).2

theorem Sound.dismissed {message : MessageRef} {next : AfterSend} (sound : v.Sound g)
    (live : v.socket id = some e) (same : key.1 = e.client.fd)
    (coherent : Handler.Coherent (.send (.sock id) message (.sock id) next))
    (relies : v.ledger.Relies key.1 (.send (.sock id) message (.sock id) next))
    (installed : g.pending ∨ g.current → v.handlers key.1 = some (.resolving id key.2)) :
    (v.dismiss key (.send (.sock id) message (.sock id) next)).Sound g := by
  apply sound.move (sound.own.dismiss live same rfl coherent trivial) rfl
  · intro f h installed
    simp only [Registry.dismiss, Registry.setHandler] at installed
    split at installed
    · rename_i here
      cases installed
      rw [here]
      exact Or.inr ⟨relies, rfl⟩
    · exact Or.inl installed
  · intro r f owner
    have owner : (v.setHandler key.1 (.send (.sock id) message (.sock id) next)).fd? r = some f := by
      cases r <;> exact owner
    exact Or.inl ⟨r, by rwa [fd?_setHandler] at owner⟩
  · intro key' q found
    simp only [Registry.dismiss] at found
    split at found
    · cases found
    · exact found
  · intro on _
    exact Keeps.dismiss sound.own live same trivial (installed on)

/-- The steps of a link: the client is moved out of its socket, which is closed, and
the connection gets its handlers. -/
theorem link_steps (f : Fd) (id : SocketId) (c : ConnId) (client : Client) (server : Fd) (ip : ResolvedIp) :
    (((((v.setSocket id ⟨f, ⟨0, none⟩⟩).eraseSocket id ⟨f, ⟨0, none⟩⟩).setLink c ⟨client, server, false⟩).setHandler
      client.fd (.connecting c ip.socket ip.host)).setHandler server (.serverConnect c ip)) =
      v.link id c client server ip := by
  ext1 <;> try rfl
  · funext other
    simp only [Registry.setHandler, setLink, eraseSocket, setSocket, Registry.link]
    split <;> rfl
  · funext other
    simp [Registry.setHandler, setLink, eraseSocket, setSocket, Registry.link, release]

theorem Sound.linked {server : Fd} {ip : ResolvedIp} (sound : v.Sound g) (linkable : v.Linkable id c e server ip)
    (opens : g.opens server) (connected : v.ledger.Connected c ip.host ∧ v.ledger.Unspoken c)
    (installed : g.pending ∨ g.current → v.handlers e.client.fd = some (.resolving id ip.host)) :
    (v.link id c e.client server ip).Sound g := by
  apply sound.move (sound.own.link linkable) rfl
  · intro f h linked
    simp only [Registry.link] at linked
    split at linked
    · cases linked
      exact Or.inr ⟨connected, rfl⟩
    · split at linked
      · cases linked
        exact Or.inr ⟨trivial, rfl⟩
      · exact Or.inl linked
  · intro r f owner
    rcases linkable.fd?.mp owner with ⟨old, _⟩ | ⟨_, rfl⟩ | ⟨_, rfl⟩
    · exact Or.inl ⟨r, old⟩
    · exact Or.inl ⟨_, linkable.owner⟩
    · exact Or.inr opens
  · exact fun found => found
  · intro on _
    exact Keeps.link sound.own linkable (installed on)

end Registry

end ProxyServer
