import ProxyServer.Server.Registry

/-!
# How clients move

A client is accepted, has a name resolved, becomes part of a connection, and the
connection is established. Each move keeps the invariants of the registry.
-/

namespace ProxyServer.Registry

variable {v : Registry} {f : Fd} {key : Fd × Bytes} {it : EntryRef} {P : Option Nat → Prop}
  {K : Fd × Bytes → Prop}

/-! ### A new socket -/

def addSocket (v : Registry) (n : SocketId) (client : Client) : Registry :=
  { v with socket := fun id => if id = n then some ⟨client.fd, client⟩ else v.socket id }

theorem fd?_addSocket {n : SocketId} (client : Client) (fresh : v.socket n = none) {r : ElemRef}
    (owned : v.fd? r = some f) : (v.addSocket n client).fd? r = some f := by
  cases r with
  | sock id =>
    have other : id ≠ n := by
      rintro rfl
      simp [fd?, fresh] at owned
    simpa [fd?, addSocket, other] using owned
  | client c => exact owned
  | server c => exact owned

theorem fd?_addSocket_iff {n : SocketId} {client : Client} {r : ElemRef} (fresh : v.socket n = none) :
    (v.addSocket n client).fd? r = some f ↔ v.fd? r = some f ∨ r = .sock n ∧ f = client.fd := by
  constructor
  · intro owned
    cases r with
    | sock id =>
      by_cases new : id = n
      · right
        simpa [fd?, addSocket, new, eq_comm] using owned
      · left
        simpa [fd?, addSocket, new] using owned
    | client c => exact Or.inl owned
    | server c => exact Or.inl owned
  · rintro (owned | ⟨rfl, rfl⟩)
    · exact fd?_addSocket client fresh owned
    · simp [fd?, addSocket]

theorem owner_addSocket (n : SocketId) (client : Client) (h : Handler) :
    (v.addSocket n client).owner h = v.owner h := by
  cases h <;> rfl

theorem Owned.addSocket (own : v.Owned) {n : SocketId} {client : Client} (fresh : v.socket n = none)
    (present : client.fd ≠ 0) (unowned : ∀ r, v.fd? r ≠ some client.fd) :
    (v.addSocket n client).Owned where
  present := by
    intro r f owned
    rcases (fd?_addSocket_iff fresh).mp owned with old | ⟨_, rfl⟩
    · exact own.present old
    · exact present
  unique := by
    intro r r' f owned owned'
    rcases (fd?_addSocket_iff fresh).mp owned with old | ⟨rfl, rfl⟩
    · rcases (fd?_addSocket_iff fresh).mp owned' with old' | ⟨rfl, rfl⟩
      · exact own.unique old old'
      · exact absurd old (unowned r)
    · rcases (fd?_addSocket_iff fresh).mp owned' with old' | ⟨rfl, _⟩
      · exact absurd old' (unowned r')
      · rfl
  keyed := by
    intro id e live
    simp only [Registry.addSocket] at live
    split at live
    · cases live
      rfl
    · exact own.keyed live
  owns h := ⟨(own.owns h).1, by rw [owner_addSocket]; exact fd?_addSocket client fresh (own.owns h).2⟩
  client h := own.client h
  server h := own.server h
  linking live open_ := own.linking live open_

theorem Keeps.addSocket (own : v.Owned) {n : SocketId} (client : Client) (fresh : v.socket n = none) :
    Keeps K v (v.addSocket n client) where
  flight := fun _ queued => queued
  entry := id
  waited := by
    intro key it waits
    refine ⟨rfl, it, ?_⟩
    cases waits with
    | resolving id e live installed latest =>
      have owner := (own.owns installed).2
      have other : id ≠ n := by
        rintro rfl
        simp [Registry.owner, fd?, fresh] at owner
      exact .resolving id e (by simpa [Registry.addSocket, other] using live) installed latest
    | connecting c l ip live unestablished installed same latest =>
      exact .connecting c l ip live unestablished installed same latest
  served := by
    intro P key it _ _ serves
    refine ⟨it, ?_⟩
    cases serves with
    | resolving id e live installed latest =>
      have other : id ≠ n := by
        rintro rfl
        rw [fresh] at live
        cases live
      exact .resolving id e (by simpa [Registry.addSocket, other] using live) installed latest
    | connecting c l ip live unestablished installed same latest =>
      exact .connecting c l ip live unestablished installed same latest

/-! ### A name to resolve -/

/-- `connect_to_server` for the socket `id`, which is `e`. -/
def request (v : Registry) (id : SocketId) (e : SocketView) (host : Bytes) (pending : Pending) : Registry :=
  { v with
    socket := fun other =>
      if other = id then some { e with client := { e.client with call := some pending.call } } else v.socket other
    onResolve := fun key =>
      if key = (e.client.fd, host) then some ((v.onResolve (e.client.fd, host)).getD pending)
      else v.onResolve key
    handlers := fun f => if f = e.client.fd then some (.resolving id host) else v.handlers f
    resolving := v.resolving ++ [(e.client.fd, host)] }

theorem fd?_request {id : SocketId} {e : SocketView} (live : v.socket id = some e) (host : Bytes)
    (pending : Pending) (r : ElemRef) : (v.request id e host pending).fd? r = v.fd? r := by
  cases r with
  | sock other =>
    by_cases same : other = id
    · simp [fd?, request, same, live]
    · simp [fd?, request, same]
  | client c => rfl
  | server c => rfl

theorem owner_request (id : SocketId) (e : SocketView) (host : Bytes) (pending : Pending) (h : Handler) :
    (v.request id e host pending).owner h = v.owner h := by
  cases h <;> rfl

/-- No element of a connection has the descriptor of a socket. -/
theorem Owned.free (own : v.Owned) {id : SocketId} {e : SocketView} (live : v.socket id = some e) :
    v.Free e.client.fd := by
  have owner : v.fd? (.sock id) = some e.client.fd := by simp [fd?, live]
  intro c l live' _
  constructor
  · intro same
    have owner' : v.fd? (.client c) = some e.client.fd := by simp [fd?, live', same]
    exact absurd (own.unique owner owner') (by simp)
  · intro same
    have owner' : v.fd? (.server c) = some e.client.fd := by simp [fd?, live', same]
    exact absurd (own.unique owner owner') (by simp)

/-- A connection attempt is not for the client of a socket. -/
theorem Owned.attempt_ne (own : v.Owned) {id : SocketId} {e : SocketView} (live : v.socket id = some e)
    {c : ConnId} {ip : ResolvedIp} (installed : v.handlers f = some (.serverConnect c ip)) :
    ip.socket ≠ e.client.fd := by
  intro same
  have owner : v.fd? (.sock id) = some ip.socket := by simp [fd?, live, same]
  exact absurd (own.unique owner (own.server installed)) (by simp)

theorem Owned.request (own : v.Owned) {id : SocketId} {e : SocketView} (live : v.socket id = some e)
    (host : Bytes) (pending : Pending) : (v.request id e host pending).Owned := by
  have owner : v.fd? (.sock id) = some e.client.fd := by simp [fd?, live]
  have base := own.setHandler (h := .resolving id host) trivial owner (Or.inr ⟨_, _, rfl⟩) (own.free live)
  refine
    { present := fun {r f} h => own.present (r := r) (by rwa [fd?_request live] at h)
      unique := fun {r r' f} h h' => own.unique (by rwa [fd?_request live] at h) (by rwa [fd?_request live] at h')
      keyed := ?_
      owns := ?_
      client := fun h => base.client h
      server := fun h => base.server h
      linking := fun live open_ => base.linking live open_ }
  · intro other e' live'
    simp only [Registry.request] at live'
    split at live'
    · cases live'
      exact own.keyed (e := e) live
    · exact own.keyed live'
  · intro f h installed
    obtain ⟨coherent, owner⟩ := base.owns installed
    rw [owner_request, fd?_request live]
    exact ⟨coherent, by simpa using owner⟩

theorem Serves.request (serves : v.Serves P key it) (own : v.Owned) {id : SocketId} {e : SocketView}
    (live : v.socket id = some e) (idle : ∀ id' host', v.handlers e.client.fd ≠ some (.resolving id' host'))
    (host : Bytes) (pending : Pending) : (v.request id e host pending).Serves P key it := by
  cases serves with
  | resolving id' e' live' installed latest =>
    have here : key.1 ≠ e.client.fd := by
      intro here
      rw [here] at installed
      exact idle _ _ installed
    have other : id' ≠ id := by
      rintro rfl
      rw [live] at live'
      cases live'
      have owner := (own.owns installed).2
      exact here (by simpa [Registry.owner, fd?, live, eq_comm] using owner)
    exact .resolving id' e' (by simpa [Registry.request, other] using live')
      (by simpa [Registry.request, here] using installed) latest
  | connecting c l ip live' unestablished installed same latest =>
    obtain ⟨_, server⟩ := own.free live c l live' unestablished
    exact .connecting c l ip live' unestablished
      (by simpa [Registry.request, Ne.symm server] using installed) same latest

theorem Serves.of_request (own : v.Owned) {id : SocketId} {e : SocketView} (live : v.socket id = some e)
    {host : Bytes} {pending : Pending} (waits : (v.request id e host pending).Waits key it) :
    key = (e.client.fd, host) ∨ v.Waits key it := by
  cases waits with
  | resolving id' e' live' installed latest =>
    simp only [Registry.request] at installed
    split at installed
    · rename_i same
      cases installed
      exact Or.inl (Prod.ext same rfl)
    · have owner := (own.owns installed).2
      obtain ⟨e', live', _⟩ : ∃ e', v.socket id' = some e' ∧ e'.client.fd = key.1 := by
        simpa [Registry.fd?, Registry.owner] using owner
      exact Or.inr (.resolving id' e' live' installed trivial)
  | connecting c l ip live' unestablished installed same latest =>
    obtain ⟨_, server⟩ := own.free live c l live' unestablished
    simp only [Registry.request, if_neg (Ne.symm server)] at installed
    exact Or.inr (.connecting c l ip live' unestablished installed same latest)

theorem Waits.idle (own : v.Owned) {id : SocketId} {e : SocketView} (live : v.socket id = some e)
    (waits : v.Waits key it) (here : key.1 = e.client.fd) :
    it = .sock id ∧ v.handlers e.client.fd = some (.resolving id key.2) := by
  cases waits with
  | resolving id' e' live' installed latest =>
    have owner := (own.owns installed).2
    have owner' : v.fd? (.sock id) = some key.1 := by simp [fd?, live, here]
    obtain rfl : id' = id := by simpa [Registry.owner] using own.unique owner owner'
    exact ⟨rfl, by rw [← here, installed]⟩
  | connecting c l ip live' unestablished installed same latest =>
    subst same
    exact absurd here (own.attempt_ne live installed)

theorem Awaited.request (awaited : v.Awaited) (own : v.Owned) {id : SocketId} {e : SocketView}
    (live : v.socket id = some e) (idle : ∀ id' host', v.handlers e.client.fd ≠ some (.resolving id' host'))
    (host : Bytes) (pending : Pending) : (v.request id e host pending).Awaited where
  pending := by
    intro key it waits
    simp only [Registry.request]
    split
    · rfl
    · rename_i other
      exact awaited.pending ((Serves.of_request own live waits).resolve_left other)
  attended := by
    intro key queued entry
    by_cases same : key = (e.client.fd, host)
    · subst same
      exact ⟨.sock id, .resolving id { e with client := { e.client with call := some pending.call } }
        (by simp [Registry.request]) (by simp [Registry.request]) trivial⟩
    · simp only [Registry.request, if_neg same, List.mem_append, List.mem_singleton] at queued entry
      obtain ⟨it, waits⟩ := awaited.attended (queued.resolve_right same) entry
      exact ⟨it, waits.request own live idle host pending⟩

theorem Current.request (current : v.Current) (own : v.Owned) {id : SocketId} {e : SocketView}
    (live : v.socket id = some e) (idle : ∀ id' host', v.handlers e.client.fd ≠ some (.resolving id' host'))
    (host : Bytes) (pending : Pending) : (v.request id e host pending).Current := by
  -- There is no entry for the descriptor yet.
  have unknown : v.onResolve (e.client.fd, host) = none := by
    cases found : v.onResolve (e.client.fd, host) with
    | none => rfl
    | some q =>
      obtain ⟨it, serves⟩ := current _ q found
      exact absurd (Waits.idle own live (serves.imp fun _ _ => trivial) rfl).2 (idle id host)
  intro key q entry
  simp only [Registry.request] at entry
  split at entry
  · rename_i same
    subst same
    rw [unknown] at entry
    cases entry
    exact ⟨.sock id, .resolving id { e with client := { e.client with call := some pending.call } }
      (by simp [Registry.request]) (by simp [Registry.request]) rfl⟩
  · obtain ⟨it, serves⟩ := current key q entry
    exact ⟨it, serves.request own live idle host pending⟩

/-! ### A new connection -/

/-- The client of the socket `id` becomes part of the connection `c`. -/
def link (v : Registry) (id : SocketId) (c : ConnId) (client : Client) (server : Fd) (ip : ResolvedIp) :
    Registry :=
  { v with
    socket := fun other => if other = id then none else v.socket other
    connection := fun other => if other = c then some ⟨client, server, false⟩ else v.connection other
    handlers := fun f =>
      if f = server then some (.serverConnect c ip)
      else if f = client.fd then some (.connecting c ip.socket ip.host) else v.handlers f }

structure Linkable (v : Registry) (id : SocketId) (c : ConnId) (e : SocketView) (server : Fd)
    (ip : ResolvedIp) : Prop where
  live : v.socket id = some e
  fresh : v.connection c = none
  present : server ≠ 0
  unowned : ∀ r, v.fd? r ≠ some server
  same : ip.socket = e.client.fd

variable {id : SocketId} {c : ConnId} {e : SocketView} {server : Fd} {ip : ResolvedIp}

theorem Linkable.owner (h : v.Linkable id c e server ip) : v.fd? (.sock id) = some e.client.fd := by
  simp [fd?, h.live]

theorem Linkable.server_ne (h : v.Linkable id c e server ip) : e.client.fd ≠ server := fun same =>
  h.unowned (.sock id) (by rw [h.owner, same])

theorem Linkable.fd? (h : v.Linkable id c e server ip) {r : ElemRef} :
    (v.link id c e.client server ip).fd? r = some f ↔
      (v.fd? r = some f ∧ r ≠ .sock id) ∨ (r = .client c ∧ f = e.client.fd) ∨ (r = .server c ∧ f = server) := by
  cases r with
  | sock other =>
    by_cases same : other = id <;> simp [Registry.fd?, link, same]
  | client other =>
    by_cases same : other = c
    · simp [Registry.fd?, link, same, h.fresh, eq_comm]
    · simp [Registry.fd?, link, same]
  | server other =>
    by_cases same : other = c
    · simp [Registry.fd?, link, same, h.fresh, eq_comm]
    · simp [Registry.fd?, link, same]

theorem owner_link (id : SocketId) (c : ConnId) (client : Client) (server : Fd) (ip : ResolvedIp) (h : Handler) :
    (v.link id c client server ip).owner h = v.owner h := by
  cases h <;> rfl

theorem Linkable.handlers (h : v.Linkable id c e server ip) (own : v.Owned) {r : ElemRef}
    (owner : v.fd? r = some f) (other : r ≠ .sock id) :
    (v.link id c e.client server ip).handlers f = v.handlers f := by
  have notServer : f ≠ server := fun same => h.unowned r (by rw [owner, same])
  have notClient : f ≠ e.client.fd := fun same => other (own.unique (by rw [owner, same]) h.owner)
  simp only [link, if_neg notServer, if_neg notClient]

theorem Owned.link (own : v.Owned) (h : v.Linkable id c e server ip) :
    (v.link id c e.client server ip).Owned where
  present := by
    intro r f owned
    rcases h.fd?.mp owned with ⟨old, _⟩ | ⟨_, rfl⟩ | ⟨_, rfl⟩
    · exact own.present old
    · exact own.present h.owner
    · exact h.present
  unique := by
    intro r r' f owned owned'
    rcases h.fd?.mp owned with ⟨old, other⟩ | ⟨rfl, same⟩ | ⟨rfl, same⟩ <;>
      rcases h.fd?.mp owned' with ⟨old', other'⟩ | ⟨rfl, same'⟩ | ⟨rfl, same'⟩
    · exact own.unique old old'
    · exact absurd (own.unique old (same' ▸ h.owner)) other
    · exact absurd (same' ▸ old) (h.unowned r)
    · exact absurd (own.unique old' (same ▸ h.owner)) other'
    · rfl
    · exact absurd (same.symm.trans same') h.server_ne
    · exact absurd (same ▸ old') (h.unowned r')
    · exact absurd (same'.symm.trans same) h.server_ne
    · rfl
  keyed := by
    intro other e' live
    simp only [Registry.link] at live
    split at live
    · cases live
    · exact own.keyed live
  owns := by
    intro f handler installed
    rw [owner_link, h.fd?]
    simp only [Registry.link] at installed
    split at installed
    · cases installed
      exact ⟨trivial, Or.inr (Or.inr ⟨rfl, by assumption⟩)⟩
    · split at installed
      · cases installed
        exact ⟨trivial, Or.inr (Or.inl ⟨rfl, by assumption⟩)⟩
      · obtain ⟨coherent, owner⟩ := own.owns installed
        refine ⟨coherent, Or.inl ⟨owner, fun same => ?_⟩⟩
        rw [same, h.owner] at owner
        simp_all
  client := by
    intro f c' socket host installed
    simp only [Registry.link] at installed
    split at installed
    · cases installed
    · split at installed
      · cases installed
        rw [h.same]
        exact Eq.symm (by assumption)
      · exact own.client installed
  server := by
    intro f c' ip' installed
    rw [h.fd?]
    simp only [Registry.link] at installed
    split at installed
    · cases installed
      exact Or.inr (Or.inl ⟨rfl, h.same⟩)
    · split at installed
      · cases installed
      · exact Or.inl ⟨own.server installed, by simp⟩
  linking := by
    intro c' l live open_
    by_cases new : c' = c
    · subst new
      obtain rfl : ⟨e.client, server, false⟩ = l := by simpa [Registry.link] using live
      exact ⟨ip, by simp [Registry.link], by simp [Registry.link, h.server_ne]⟩
    · have old : v.connection c' = some l := by simpa [Registry.link, new] using live
      obtain ⟨ip', server', client'⟩ := own.linking old open_
      refine ⟨ip', ?_, ?_⟩
      · rw [h.handlers own (r := .server c') (by simp [Registry.fd?, old]) (by simp), server']
      · rw [h.handlers own (r := .client c') (by simp [Registry.fd?, old]) (by simp), client']

theorem Keeps.link (own : v.Owned) (h : v.Linkable id c e server ip)
    (installed : v.handlers e.client.fd = some (.resolving id ip.host)) :
    Keeps K v (v.link id c e.client server ip) where
  flight := fun _ queued => queued
  entry := fun found => found
  waited := by
    intro key it waits
    refine ⟨rfl, ?_⟩
    cases waits with
    | resolving id' e' live' installed' latest =>
      simp only [Registry.link] at installed' live'
      split at installed'
      · cases installed'
      · split at installed'
        · cases installed'
        · split at live'
          · cases live'
          · exact ⟨_, .resolving id' e' live' installed' trivial⟩
    | connecting c' l ip' live' unestablished installed' same latest =>
      by_cases new : c' = c
      · subst new
        obtain rfl : ⟨e.client, server, false⟩ = l := by simpa [Registry.link] using live'
        obtain rfl : ip = ip' := by simpa [Registry.link] using installed'
        subst same
        exact ⟨.sock id, .resolving id e h.live (by rw [h.same]; exact installed) trivial⟩
      · have old : v.connection c' = some l := by simpa [Registry.link, new] using live'
        rw [h.handlers own (r := .server c') (by simp [Registry.fd?, old]) (by simp)] at installed'
        exact ⟨_, .connecting c' l ip' old unestablished installed' same trivial⟩
  served := by
    intro P key it _ _ serves
    cases serves with
    | resolving id' e' live' installed' latest =>
      have owner := (own.owns installed').2
      by_cases same : id' = id
      · subst same
        obtain rfl : e = e' := by simpa [h.live] using live'
        rw [Registry.owner, h.owner] at owner
        have here : e.client.fd = key.1 := by simpa using owner
        rw [← here, installed] at installed'
        have host : ip.host = key.2 := by simpa using installed'
        exact ⟨.conn c, .connecting c ⟨e.client, server, false⟩ ip (by simp [Registry.link]) rfl
          (by simp [Registry.link]) (by rw [h.same, here, host]) latest⟩
      · exact ⟨.sock id', .resolving id' e' (by simpa [Registry.link, same] using live')
          (by rw [h.handlers own owner (by simpa [Registry.owner] using same), installed']) latest⟩
    | connecting c' l ip' live' unestablished installed' same latest =>
      have other : c' ≠ c := by
        rintro rfl
        rw [h.fresh] at live'
        cases live'
      exact ⟨.conn c', .connecting c' l ip' (by simpa [Registry.link, other] using live') unestablished
        (by rw [h.handlers own (r := .server c') (by simp [Registry.fd?, live']) (by simp), installed']) same
        latest⟩

/-! ### An established connection -/

def establish (v : Registry) (c : ConnId) (l : Link) (key : Fd × Bytes) : Registry :=
  { v with
    connection := fun other => if other = c then some { l with established := true } else v.connection other
    onResolve := fun other => if other = key then none else v.onResolve other }

variable {l : Link} {key : Fd × Bytes}

theorem fd?_establish (live : v.connection c = some l) (r : ElemRef) :
    (v.establish c l key).fd? r = v.fd? r := by
  cases r with
  | sock id => rfl
  | client other =>
    by_cases same : other = c <;> simp [fd?, establish, same, live]
  | server other =>
    by_cases same : other = c <;> simp [fd?, establish, same, live]

theorem owner_establish (h : Handler) : (v.establish c l key).owner h = v.owner h := by
  cases h <;> rfl

theorem Owned.establish (own : v.Owned) (live : v.connection c = some l) :
    (v.establish c l key).Owned where
  present h := own.present (by rwa [fd?_establish live] at h)
  unique h h' := own.unique (by rwa [fd?_establish live] at h) (by rwa [fd?_establish live] at h')
  keyed h := own.keyed h
  owns h := by
    rw [owner_establish, fd?_establish live]
    exact own.owns h
  client h := own.client h
  server h := by
    rw [fd?_establish live]
    exact own.server h
  linking := by
    intro c' l' live' open_
    simp only [Registry.establish] at live'
    split at live'
    · cases live'
      cases open_
    · exact own.linking live' open_

theorem Keeps.establish (own : v.Owned) (live : v.connection c = some l) (same : key.1 = l.client.fd)
    (attempt : ∀ ip, l.established = false → v.handlers l.server = some (.serverConnect c ip) →
      (ip.socket, ip.host) = key) : Keeps K v (v.establish c l key) where
  flight := fun _ queued => queued
  entry := by
    intro key' q entry
    simp only [Registry.establish] at entry
    split at entry
    · cases entry
    · exact entry
  waited := by
    intro key' it waits
    have owner' : v.fd? (.client c) = some key.1 := by simp [fd?, live, same]
    cases waits with
    | resolving id e live' installed latest =>
      have other : key' ≠ key := by
        rintro rfl
        exact absurd (own.unique (own.owns installed).2 owner') (by simp [Registry.owner])
      exact ⟨by simp only [Registry.establish, if_neg other], _, .resolving id e live' installed trivial⟩
    | connecting c' l' ip live' unestablished installed equal latest =>
      simp only [Registry.establish] at live'
      split at live'
      · cases live'
        cases unestablished
      · rename_i distinct
        have other : key' ≠ key := by
          rintro rfl
          subst equal
          exact distinct (by simpa using own.unique (own.server installed) owner')
        exact ⟨by simp only [Registry.establish, if_neg other], _,
          .connecting c' l' ip live' unestablished installed equal trivial⟩
  served := by
    intro P key' it _ entry serves
    refine ⟨it, ?_⟩
    cases serves with
    | resolving id e live' installed latest => exact .resolving id e live' installed latest
    | connecting c' l' ip live' unestablished installed equal latest =>
      have distinct : c' ≠ c := by
        rintro rfl
        rw [live] at live'
        cases live'
        rw [← equal, attempt ip unestablished installed] at entry
        simp [Registry.establish] at entry
      exact .connecting c' l' ip (by simpa [Registry.establish, distinct] using live') unestablished installed
        equal latest

/-! ### A result of the resolver -/

def dequeue (v : Registry) (rest : List (Fd × Bytes)) : Registry := { v with resolving := rest }

theorem Owned.dequeue (own : v.Owned) (rest : List (Fd × Bytes)) : (v.dequeue rest).Owned :=
  ⟨own.present, own.unique, own.keyed, own.owns, own.client, own.server, own.linking⟩

theorem serves_dequeue {rest : List (Fd × Bytes)} : (v.dequeue rest).Serves P key it ↔ v.Serves P key it := by
  constructor
  all_goals
    intro serves
    cases serves with
    | resolving id e live installed latest => exact .resolving id e live installed latest
    | connecting c l ip live unestablished installed same latest =>
      exact .connecting c l ip live unestablished installed same latest

theorem Keeps.dequeue {rest : List (Fd × Bytes)} (fewer : rest ⊆ v.resolving) : Keeps K v (v.dequeue rest) where
  flight := fewer
  entry := fun found => found
  waited waits := ⟨rfl, _, serves_dequeue.mp waits⟩
  served _ _ serves := ⟨_, serves_dequeue.mpr serves⟩

/-! ### A resolution that leads to no connection -/

/-- The entry of `on_resolve` is erased, and the handler of its client replaced. -/
def dismiss (v : Registry) (key : Fd × Bytes) (h : Handler) : Registry :=
  { v.setHandler key.1 h with onResolve := fun other => if other = key then none else v.onResolve other }

variable {h : Handler}

theorem Owned.forget (own : v.Owned) (onResolve : Fd × Bytes → Option Pending) :
    ({ v with onResolve } : Registry).Owned :=
  ⟨own.present, own.unique, own.keyed, own.owns, own.client, own.server, own.linking⟩

theorem Owned.dismiss (own : v.Owned) (live : v.socket id = some e) (same : key.1 = e.client.fd)
    (owner : v.owner h = .sock id) (coherent : h.Coherent) (settled : h.Settled) : (v.dismiss key h).Owned := by
  have here : v.fd? (v.owner h) = some key.1 := by simp [owner, fd?, live, same]
  have free : v.Free key.1 := by
    rw [same]
    exact own.free live
  exact (own.setHandler coherent here (Or.inl settled) free).forget _

theorem Keeps.dismiss (own : v.Owned) (live : v.socket id = some e) (same : key.1 = e.client.fd)
    (settled : h.Settled) (installed : v.handlers key.1 = some (.resolving id key.2)) :
    Keeps K v (v.dismiss key h) where
  flight := fun _ queued => queued
  entry := by
    intro key' q entry
    simp only [Registry.dismiss] at entry
    split at entry
    · cases entry
    · exact entry
  waited := by
    intro key' it waits
    cases waits with
    | resolving id' e' live' installed' latest =>
      simp only [Registry.dismiss, Registry.setHandler] at installed'
      split at installed'
      · cases installed'
        exact settled.elim
      · rename_i distinct
        have other : key' ≠ key := fun equal => distinct (by rw [equal])
        exact ⟨by simp only [Registry.dismiss, if_neg other], _, .resolving id' e' live' installed' trivial⟩
    | connecting c' l ip' live' unestablished installed' equal latest =>
      have server := (own.free live c' l live' unestablished).2
      simp only [Registry.dismiss, Registry.setHandler, same, if_neg (Ne.symm server)] at installed'
      have other : key' ≠ key := by
        rintro rfl
        rw [← equal] at same
        exact own.attempt_ne live installed' same
      exact ⟨by simp only [Registry.dismiss, if_neg other], _,
        .connecting c' l ip' live' unestablished installed' equal trivial⟩
  served := by
    intro P key' it _ entry serves
    refine ⟨it, ?_⟩
    cases serves with
    | resolving id' e' live' installed' latest =>
      refine .resolving id' e' live' ?_ latest
      simp only [Registry.dismiss, Registry.setHandler]
      split
      · rename_i equal
        rw [equal, installed] at installed'
        obtain ⟨_, host⟩ : id = id' ∧ key.2 = key'.2 := by simpa using installed'
        obtain rfl : key' = key := Prod.ext equal host.symm
        simp [Registry.dismiss] at entry
      · exact installed'
    | connecting c' l ip' live' unestablished installed' equal latest =>
      have server := (own.free live c' l live' unestablished).2
      refine .connecting c' l ip' live' unestablished ?_ equal latest
      simp only [Registry.dismiss, Registry.setHandler, same, if_neg (Ne.symm server), installed']

end ProxyServer.Registry
