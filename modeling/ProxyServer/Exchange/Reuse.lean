import ProxyServer.Exchange.Pairing

/-!
# The connection to the server is used again

`send_server_response` decides from the header of the response that it sends whether the
connection to the server is kept. For a page that is still valid that is the header in the
cache, and not the one that the server has just sent: `reuse_decided_iff` says in which
runs the decisions follow the server.
-/

namespace ProxyServer

/-- The header announces that the connection is closed. -/
def Announces (header : ResponseHeader) : Prop :=
  ∃ p ∈ header.properties, p.name = lit "connection" ∧ toLower p.value = lit "close"

instance (header : ResponseHeader) : Decidable (Announces header) :=
  inferInstanceAs (Decidable (∃ p ∈ header.properties, _ ∧ _))

/-- The first Connection of the header announces that. -/
def Leads (header : ResponseHeader) : Prop :=
  (header.properties.find? (·.name = lit "connection")).any (toLower ·.value = lit "close") = true

instance (header : ResponseHeader) : Decidable (Leads header) := inferInstanceAs (Decidable (_ = _))

theorem Leads.announces {header : ResponseHeader} (leads : Leads header) : Announces header := by
  obtain ⟨p, first, close⟩ := (Option.any_eq_true _ _).mp leads
  have named := List.find?_some first
  exact ⟨p, List.mem_of_find?_eq_some first, of_decide_eq_true named, of_decide_eq_true close⟩

theorem closes_iff {header : ResponseHeader} : closes header = true ↔ Leads header := by
  unfold closes Leads HttpHeader.hasProperty HttpHeader.getProperty
  rw [← List.isSome_find?]
  cases header.properties.find? (·.name = lit "connection") with
  | none => exact Iff.rfl
  | some p => exact Iff.rfl

/-- A connection that is kept alive, and the header of the last response that was read on
the connection to the server. -/
structure Watched where
  connection : KeptAlive
  received : Option ResponseHeader

namespace Watched

def start (host : Bytes) (cache : Cache) : Watched := { connection := .start host cache, received := none }

/-- The message that a read of `n` bytes from the server leaves. -/
def reads (s : KeptAlive) (n : Nat) : Option ServerResponse :=
  match s.phase with
  | .validating m _ _ => (m.readFrom (s.unread.take n)).toOption
  | .transferring m _ => (m.readFrom (s.unread.take n)).toOption
  | _ => none

def receives (w : Watched) : KeptAliveCall → Option ResponseHeader
  | .serverIn n _ =>
    match reads w.connection n with
    | some m => if m.isRead then some m.getHeader else w.received
    | none => w.received
  | .reconnected _ => none
  | _ => w.received

def step (w : Watched) (call : KeptAliveCall) : Except Fault Watched :=
  (w.connection.step call).map fun connection => { connection, received := w.receives call }

/-- The last response that the server sent announces that it closes the connection. -/
def Announced (w : Watched) : Prop := ∃ header, w.received = some header ∧ Announces header

instance (w : Watched) : Decidable w.Announced :=
  match same : w.received with
  | some header => decidable_of_iff (Announces header) (by simp [Announced, same])
  | none => isFalse (by simp [Announced, same])

/-- While a response is sent to the client, the connection to the server is kept for
`reuse_connection` unless the server announced that it closes it, and that is the one that
is used again. -/
def Decided (announced : Prop) : ExchangePhase → Prop
  | .answering _ _ _ closing => closing = false ↔ ¬announced
  | .awaiting _ => ¬announced
  | _ => True

instance Decided.decide (announced : Prop) [Decidable announced] :
    (phase : ExchangePhase) → Decidable (Decided announced phase)
  | .answering _ _ _ _ => inferInstanceAs (Decidable (_ ↔ _))
  | .awaiting _ => inferInstanceAs (Decidable (¬_))
  | .sending _ _ | .validating _ _ _ | .transferring _ _ | .reconnecting _ | .left => isTrue trivial

def Decides (w : Watched) : Prop := Decided w.Announced w.connection.phase

instance (w : Watched) : Decidable w.Decides := inferInstanceAs (Decidable (Decided _ _))

/-- What the two headers have to be when the message `m` is read, of which the answer to
the client is made: for a page that is still valid the first Connection of the header in
the cache is a close if and only if the server announces one, and otherwise the server
announces none behind another Connection. -/
def Agreement (m : ServerResponse) : ExchangePhase → Prop
  | .validating _ _ cached => m.getHeader.requestLine.code = 200 ∨ m.getHeader.requestLine.code = 304 →
    (Leads cached.getHeader ↔ Announces m.getHeader)
  | .transferring _ _ => Announces m.getHeader → Leads m.getHeader
  | _ => True

instance Agreement.decide (m : ServerResponse) : (phase : ExchangePhase) → Decidable (Agreement m phase)
  | .validating _ _ _ => inferInstanceAs (Decidable (_ → _))
  | .transferring _ _ => inferInstanceAs (Decidable (_ → _))
  | .awaiting _ | .sending _ _ | .answering _ _ _ _ | .reconnecting _ | .left => isTrue trivial

/-- The headers agree whenever a response has been read. -/
def Agrees (w : Watched) : KeptAliveCall → Prop
  | .serverIn n _ => ∀ m ∈ reads w.connection n, m.isRead = true → Agreement m w.connection.phase
  | _ => True

instance Agrees.decide (w : Watched) : (call : KeptAliveCall) → Decidable (w.Agrees call)
  | .serverIn n _ => inferInstanceAs (Decidable (∀ m ∈ reads w.connection n, _ → _))
  | .request _ _ | .share _ | .serverOut _ _ _ | .clientOut _ | .reconnected _ | .close => isTrue trivial

variable {w w' : Watched} {s s' : KeptAlive} {call : KeptAliveCall} {announced : Prop} {rqst : ClientRequest}
  {cached m : ServerResponse} {garbage : Bytes}

theorem step_ok (stepped : w.step call = .ok w') :
    w.connection.step call = .ok w'.connection ∧ w'.received = w.receives call := by
  obtain ⟨connection, moved, rfl⟩ := Runs.map_ok.mp stepped
  exact ⟨moved, rfl⟩

/-- The calls of a connection are watched. -/
theorem watched {calls : List KeptAliveCall} (ran : Runs.run KeptAlive.step w.connection calls = .ok s) :
    ∃ w', Runs.run step w calls = .ok w' ∧ w'.connection = s := by
  induction calls generalizing w with
  | nil =>
    cases ran
    exact ⟨w, rfl, rfl⟩
  | cons call calls ih =>
    obtain ⟨t, stepped, ran⟩ := Runs.run_cons.mp ran
    obtain ⟨w', ran', same⟩ := ih (w := { connection := t, received := w.receives call }) ran
    have watched : w.step call = .ok { connection := t, received := w.receives call } := Runs.map_ok.mpr ⟨t, stepped, rfl⟩
    exact ⟨w', Runs.run_cons.mpr ⟨_, watched, ran'⟩, same⟩

theorem announced_iff {header : ResponseHeader} (received : w.received = some header) : w.Announced ↔ Announces header := by
  constructor
  · rintro ⟨header', same, announces⟩
    rw [received] at same
    cases same
    exact announces
  · intro announces
    exact ⟨header, received, announces⟩

/-- The decision of `send_server_response`. -/
theorem decided_sendServerResponse {certified : Option ServerResponse} :
    Decided announced (s.sendServerResponse rqst m certified garbage).phase ↔ (Leads m.getHeader ↔ announced) := by
  show (closes m.getHeader = false ↔ ¬announced) ↔ _
  rw [← Bool.not_eq_true, closes_iff, not_iff_not]

theorem decided_handleValidationResponse
    (handled : s.handleValidationResponse rqst cached (m.transferred garbage) garbage = .ok s') :
    Decided announced s'.phase ↔ (m.getHeader.requestLine.code = 200 ∨ m.getHeader.requestLine.code = 304 →
      (Leads cached.getHeader ↔ announced)) := by
  unfold KeptAlive.handleValidationResponse at handled
  have same : (m.transferred garbage).getHeader = m.getHeader := rfl
  by_cases valid : m.getHeader.requestLine.code = 200 ∨ m.getHeader.requestLine.code = 304
  · have verdict : validationVerdict (m.transferred garbage) = .sendCached := by
      unfold validationVerdict
      rw [same]
      exact if_pos valid
    rw [verdict] at handled
    cases handled
    rw [decided_sendServerResponse]
    exact ⟨fun same _ => same, fun holds => holds valid⟩
  · refine iff_of_true ?_ (fun holds => absurd holds valid)
    have other : validationVerdict (m.transferred garbage) ≠ .sendCached := by
      unfold validationVerdict
      rw [same, if_neg valid]
      split <;> decide
    cases verdict : validationVerdict (m.transferred garbage) with
    | sendCached => exact absurd verdict other
    | reconnect =>
      rw [verdict] at handled
      dsimp only at handled
      split at handled
      · cases handled
        trivial
      · cases handled
    | refetch =>
      rw [verdict] at handled
      dsimp only at handled
      split at handled
      · cases handled
        trivial
      · cases handled

theorem decided_transferred (handled : s.transferred rqst m garbage = .ok s') :
    Decided announced s'.phase ↔ (Leads m.getHeader ↔ announced) := by
  unfold KeptAlive.transferred at handled
  split at handled
  · cases handled
    exact decided_sendServerResponse
  · cases handled

theorem decided_clientOut {accepted : Nat} (holds : Decided announced s.phase)
    (stepped : s.clientOut accepted = .ok s') : Decided announced s'.phase := by
  unfold KeptAlive.clientOut at stepped
  cases phase : s.phase with
  | transferring m rqst =>
    rw [phase] at stepped
    dsimp only at stepped
    split at stepped
    · obtain ⟨result, _, stepped⟩ := Runs.bind_ok.mp stepped
      cases stepped
      trivial
    · cases stepped
      exact holds
  | answering m rqst certified closing =>
    rw [phase] at stepped holds
    obtain ⟨result, _, stepped⟩ := Runs.bind_ok.mp stepped
    dsimp only at stepped
    split at stepped
    · split at stepped
      · cases stepped
        cases closing
        · exact holds.mp rfl
        · trivial
      · cases stepped
    · cases stepped
      exact holds
  | _ =>
    rw [phase] at stepped
    cases stepped

/-- Other steps than a read of the server make no decision. -/
theorem decided_step (holds : Decided announced s.phase) (stepped : s.step call = .ok s')
    (other : ∀ n garbage, call ≠ .serverIn n garbage) : Decided announced s'.phase := by
  cases call with
  | request rqst garbage =>
    dsimp only [KeptAlive.step] at stepped
    split at stepped
    · split at stepped
      · split at stepped
        · unfold KeptAlive.handleClientRequest at stepped
          split at stepped
          · cases stepped
          · cases stepped
            trivial
          · cases stepped
            trivial
          · cases stepped
            trivial
        · cases stepped
          trivial
      · cases stepped
    · cases stepped
  | share cache =>
    cases stepped
    exact holds
  | serverOut accepted answer garbage =>
    dsimp only [KeptAlive.step] at stepped
    split at stepped
    · rename_i next phase
      split at stepped
      · split at stepped
        · cases stepped
          cases next with
          | validate rqst cached => trivial
          | transfer rqst => trivial
        · cases stepped
          trivial
      · cases stepped
    · cases stepped
  | serverIn n garbage => exact absurd rfl (other n garbage)
  | clientOut accepted => exact decided_clientOut holds stepped
  | reconnected garbage =>
    dsimp only [KeptAlive.step] at stepped
    split at stepped
    · cases stepped
      trivial
    · cases stepped
  | close =>
    cases stepped
    trivial

theorem readFrom_ok {n : Nat} {result : ServerResponse × KeptAlive} (got : s.readFrom m n = .ok result) :
    (m.readFrom (s.unread.take n)).toOption = some result.1 := by
  unfold KeptAlive.readFrom at got
  split at got
  · cases read : m.readFrom (s.unread.take n) with
    | error e =>
      rw [read] at got
      cases got
    | ok m' =>
      rw [read] at got
      cases got
      rfl
  · cases got

/-- What a read of the server leaves: more is read, or it decides as the headers are. -/
theorem decided_serverIn {n : Nat} (stepped : s.serverIn n garbage = .ok s') :
    ∃ m, reads s n = some m ∧ (m.isRead = false ∧ (∀ announced, Decided announced s'.phase) ∨
      m.isRead = true ∧ (Decided (Announces m.getHeader) s'.phase ↔ Agreement m s.phase)) := by
  unfold KeptAlive.serverIn at stepped
  unfold reads
  cases phase : s.phase with
  | validating m rqst cached =>
    rw [phase] at stepped
    obtain ⟨⟨m', t⟩, got, stepped⟩ := Runs.bind_ok.mp stepped
    refine ⟨m', readFrom_ok got, ?_⟩
    dsimp only at stepped
    split at stepped
    · rename_i isRead
      exact Or.inr ⟨isRead, decided_handleValidationResponse stepped⟩
    · rename_i reading
      cases stepped
      exact Or.inl ⟨Bool.eq_false_iff.mpr reading, fun _ => trivial⟩
  | transferring m rqst =>
    rw [phase] at stepped
    obtain ⟨⟨m', t⟩, got, stepped⟩ := Runs.bind_ok.mp stepped
    refine ⟨m', readFrom_ok got, ?_⟩
    dsimp only at stepped
    split at stepped
    · rename_i isRead
      refine Or.inr ⟨isRead, ?_⟩
      rw [decided_transferred stepped]
      exact ⟨fun same => same.mpr, fun behind => ⟨Leads.announces, behind⟩⟩
    · rename_i reading
      cases stepped
      exact Or.inl ⟨Bool.eq_false_iff.mpr reading, fun _ => trivial⟩
  | _ =>
    rw [phase] at stepped
    cases stepped

theorem announced_kept (received : w'.received = w.received) : w'.Announced ↔ w.Announced := by
  unfold Announced
  rw [received]

theorem decides_serverIn {n : Nat} (moved : w.connection.serverIn n garbage = .ok w'.connection)
    (received : w'.received = w.receives (.serverIn n garbage)) : w'.Decides ↔ w.Agrees (.serverIn n garbage) := by
  obtain ⟨m, read, ⟨reading, any⟩ | ⟨isRead, decided⟩⟩ := decided_serverIn moved
  · refine iff_of_true (any _) ?_
    intro m' read' isRead
    rw [read] at read'
    cases read'
    rw [reading] at isRead
    cases isRead
  · have last : w'.received = some m.getHeader := by
      rw [received]
      unfold receives
      simp only [read]
      exact if_pos isRead
    unfold Decides
    rw [announced_iff last, decided]
    constructor
    · intro agreement m' read' _
      rw [read] at read'
      cases read'
      exact agreement
    · intro agrees
      exact agrees m read isRead

/-- A decision is right when the headers agree. -/
theorem decides_step (holds : w.Decides) (stepped : w.step call = .ok w') : w'.Decides ↔ w.Agrees call := by
  obtain ⟨moved, received⟩ := step_ok stepped
  have kept (same : w'.received = w.received) (other : ∀ n garbage, call ≠ .serverIn n garbage) : w'.Decides := by
    unfold Decides
    rw [announced_kept same]
    exact decided_step holds moved other
  cases call with
  | serverIn n garbage => exact decides_serverIn moved received
  | reconnected garbage =>
    refine iff_of_true ?_ trivial
    dsimp only [KeptAlive.step] at moved
    unfold Decides
    split at moved
    · rw [← Except.ok.inj moved]
      trivial
    · cases moved
  | request rqst garbage => exact iff_of_true (kept received (fun _ _ same => by cases same)) trivial
  | share cache => exact iff_of_true (kept received (fun _ _ same => by cases same)) trivial
  | serverOut accepted answer garbage => exact iff_of_true (kept received (fun _ _ same => by cases same)) trivial
  | clientOut accepted => exact iff_of_true (kept received (fun _ _ same => by cases same)) trivial
  | close => exact iff_of_true (kept received (fun _ _ same => by cases same)) trivial

open KeptAlive (gets given v1 unmodified)

/-- A page is read, and validated with the answer. -/
def validated (answer : Answer) : List KeptAliveCall :=
  gets (lit "/a") v1 ++ given v1.bytes.length ++ gets (lit "/a") answer ++ given answer.bytes.length

/-- The server closes the connection behind the answer, and the page in the cache says
nothing of that. -/
def lastAnswer : Answer where
  interims := []
  final := {
    text := .ofLines (lit "HTTP/1.1 304 Not Modified") [lit "Connection: Close"] (by decide)
    header := { requestLine := .new 304 (lit "Not Modified"), properties := [⟨lit "connection", lit "Close"⟩] }
    parsed := by decide
    code := by decide
    body := []
    framed := Or.inl rfl }

end Watched

end ProxyServer
