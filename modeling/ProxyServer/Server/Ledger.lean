import ProxyServer.Request.Collected
import ProxyServer.Request.Received
import ProxyServer.Server.Decisions
import ProxyServer.Server.Dialogue

/-!
# Messages and what is observed of them

The messages of the server, its cache and the trace of a run. What is written of a
message that is to be sent and what is left of it are what was to be sent, and a
message that is being read is not sent.
-/

namespace ProxyServer

def MessageRef.id : MessageRef → MsgId
  | .request id => id
  | .response id => id

structure Ledger where
  trace : List Obs
  cache : Cache
  requests : MsgId → ClientRequest
  responses : MsgId → ServerResponse
  raws : MsgId → RawMessage
  nextMessage : MsgId
  nextConnection : ConnId

/-- An observation that says nothing about messages that are sent. -/
def Obs.Plain : Obs → Prop
  | .established .. | .attempted .. | .transferred .. | .read .. | .delivered .. => True
  | .sending .. | .wrote .. | .handled .. | .validated .. | .connected .. => False

namespace Ledger

def observe (d : Ledger) (o : Obs) : Ledger := { d with trace := d.trace ++ [o] }

def setRequest (d : Ledger) (id : MsgId) (m : ClientRequest) : Ledger :=
  { d with requests := fun other => if other = id then m else d.requests other }

def setResponse (d : Ledger) (id : MsgId) (m : ServerResponse) : Ledger :=
  { d with responses := fun other => if other = id then m else d.responses other }

def setRaw (d : Ledger) (id : MsgId) (m : RawMessage) : Ledger :=
  { d with raws := fun other => if other = id then m else d.raws other }

def newMessage (d : Ledger) : Ledger := { d with nextMessage := d.nextMessage + 1 }

/-- A connection is made to a server of the host. -/
def connect (d : Ledger) (host : Bytes) : Ledger :=
  { d with trace := d.trace ++ [.connected d.nextConnection host], nextConnection := d.nextConnection + 1 }

def unsent (d : Ledger) : MessageRef → Bytes
  | .request id => (d.requests id).unsent
  | .response id => (d.responses id).unsent

/-! ### What handlers rely on -/

/-- A message that is read, and not sent. -/
structure Reading (d : Ledger) (ref : MessageRef) : Prop where
  known : ref.id < d.nextMessage
  apart : ∀ f bytes, .sending f ref bytes ∉ d.trace

/-- What is cached for the URL of the request was transferred for it. -/
def Stocked (d : Ledger) (rqst : ClientRequest) (cached : ServerResponse) : Prop :=
  ∃ rqst' resp, .transferred rqst' resp ∈ d.trace ∧ toUrl rqst'.getHeader = toUrl rqst.getHeader ∧
    BufferedMessage.ofCache resp.getCache = .ok cached

/-- The server was asked about what is cached. -/
structure Asked (d : Ledger) (rqst : ClientRequest) (cached : ServerResponse) : Prop where
  stocked : d.Stocked rqst cached
  asked : ∃ f ref, .sending f ref (validationText rqst cached) ∈ d.trace ∧
    validationText rqst cached <+: sentOf d.trace ref

/-- The text is the `k`-th request that the server of the connection was sent as a whole. -/
def Told (d : Ledger) (c : ConnId) (k : Nat) (text : Bytes) : Prop :=
  ∃ f ref, .sending f ref text ∈ d.trace ∧ text <+: sentOf d.trace ref ∧ (dialogue d.trace c).requests[k]? = some ref

/-- The server of the connection has neither been told nor said anything. -/
def Unspoken (d : Ledger) (c : ConnId) : Prop := dialogue d.trace c = .empty

/-- The server of the connection was found for the host. -/
def Connected (d : Ledger) (c : ConnId) (host : Bytes) : Prop := .connected c host ∈ d.trace

def Numbered (d : Ledger) : Prop :=
  ∀ c host, d.Connected c host → c < d.nextConnection ∧ ∀ host', d.Connected c host' → host' = host

/-- A request of a client that goes to the server of the connection. -/
structure Routed (d : Ledger) (c : ConnId) (rqst : ClientRequest) : Prop where
  connected : d.Connected c (rqst.getHeader.getProperty (lit "host"))
  whole : rqst.Whole

/-- What is done with a request when it is read. -/
def Resumes (d : Ledger) : AfterRequest → Prop
  | .firstRequestRead _ => True
  | .reuse c oldHost => d.Connected c oldHost

/-- What is done with a response when it is read. -/
def Awaits (d : Ledger) : AfterResponse → Prop
  | .handleValidationResponse c rqst cached => d.Asked rqst cached ∧ d.Routed c rqst

/-- What is done when `bytes` are sent. -/
def Follows (d : Ledger) (bytes : Bytes) : AfterSend → Prop
  | .readResponse _ _ (.handleValidationResponse c rqst cached) =>
    d.Stocked rqst cached ∧ bytes = validationText rqst cached ∧ d.Routed c rqst
  | .startTransfer c rqst => bytes = rqst.unsent ∧ d.Routed c rqst
  | .reuseConnection c oldHost => d.Connected c oldHost
  | _ => True

end Ledger

/-- What is done when a request with the header is sent. -/
def AfterSend.Headed (next : AfterSend) (header : RequestHeader) : Prop :=
  match next with
  | .readResponse _ _ (.handleValidationResponse _ rqst cached) =>
    header = makeValidateHeader rqst.getHeader cached.getHeader
  | .startTransfer _ rqst => header = rqst.getHeader
  | _ => False

namespace Ledger

/-- What is done when the message is sent. -/
def Concerns (d : Ledger) (next : AfterSend) : MessageRef → Prop
  | .request m => m < d.nextMessage ∧ next.Headed (d.requests m).getHeader
  | .response _ => True

/-- What the handler of the descriptor `f` relies on. -/
def Relies (d : Ledger) (f : Fd) : Handler → Prop
  | .readRequest _ m _ next => d.Reading (.request m) ∧ (d.requests m).Gathered ∧ d.Resumes next
  | .readResponse _ m _ next => d.Reading (.response m) ∧ d.Awaits next
  | .send _ ref _ next => d.Concerns next ref ∧ ∃ bytes, .sending f ref bytes ∈ d.trace ∧ d.Follows bytes next
  | .transferServer c rqst m => d.Reading (.response m) ∧ d.Routed c rqst
  | .transferClient _ m => d.Reading (.response m)
  | .serverConnect c ip => d.Connected c ip.host ∧ d.Unspoken c
  | _ => True

end Ledger

/-- A message that is read from the server of a connection, and the request that it answers. -/
structure Ear where
  conn : ConnId
  message : MsgId
  request : Bytes

/-- What the handler reads of a server. -/
def Handler.listens : Handler → Option Ear
  | .readResponse _ m _ (.handleValidationResponse c rqst cached) =>
    some { conn := c, message := m, request := validationText rqst cached }
  | .transferServer c rqst m => some { conn := c, message := m, request := rqst.unsent }
  | _ => none

namespace Ledger

/-- The message is what the server has said since it was sent the request. -/
structure Hears (d : Ledger) (l : Ear) : Prop where
  known : l.message < d.nextMessage
  told : ∃ k, (dialogue d.trace l.conn).requests.length = k + 1 ∧ d.Told l.conn k l.request
  received : (d.responses l.message).Received (dialogue d.trace l.conn).since

/-- The server of the connection was sent the request, and has not said anything since. -/
structure Unanswered (d : Ledger) (c : ConnId) (request : Bytes) : Prop where
  told : ∃ k, (dialogue d.trace c).requests.length = k + 1 ∧ d.Told c k request
  silent : (dialogue d.trace c).since = []

/-- What is done when a message was sent as a whole. -/
def Proceeds (d : Ledger) : AfterSend → Prop
  | .readResponse _ _ (.handleValidationResponse c rqst cached) =>
    d.Awaits (.handleValidationResponse c rqst cached) ∧ d.Unanswered c (validationText rqst cached)
  | .startTransfer c rqst => d.Routed c rqst ∧ d.Unanswered c rqst.unsent
  | .reuseConnection c oldHost => d.Connected c oldHost
  | _ => True

/-- What was, or is to be, sent of a message. -/
structure Sending (d : Ledger) (f : Fd) (ref : MessageRef) (bytes : Bytes) : Prop where
  known : ref.id < d.nextMessage
  rest : sentOf d.trace ref ++ d.unsent ref = bytes
  only : ∀ f' bytes', .wrote f' ref bytes' ∈ d.trace → f' = f
  once : ∀ f' bytes', .sending f' ref bytes' ∈ d.trace → f' = f ∧ bytes' = bytes

/-- The server is asked for what a request needs. -/
def Handles (d : Ledger) (rqst : ClientRequest) (held : Option CachedMessage) (ref : MessageRef) : Prop :=
  ∃ f bytes, .sending f ref bytes ∈ d.trace ∧ requestText rqst held = .ok bytes

/-- The response is what was read since the `k`-th request of a connection was sent. -/
abbrev Answering := ConnId → Nat → ClientRequest → ServerResponse → Prop

/-- The server has answered the request for a validation, and the client is given what is
cached when that is still valid. -/
structure Verified (V : ServerResponse → Answering) (d : Ledger) (rqst : ClientRequest)
    (cached resp : ServerResponse) (given : Option (Fd × MessageRef)) : Prop where
  asked : d.Asked rqst cached
  holds : ∃ c k, d.Told c k (validationText rqst cached) ∧ V cached c k rqst resp
  valid : given.isSome = true ↔ validationVerdict resp = .sendCached
  sending : ∀ f answer, given = some (f, answer) → .sending f answer cached.getCache.flatten ∈ d.trace

/-- The response was read on the connection to which the request is routed. -/
def Answered (P : Answering) (d : Ledger) (rqst : ClientRequest) (resp : ServerResponse) : Prop :=
  ∃ c k, d.Routed c rqst ∧ d.Told c k rqst.unsent ∧ P c k rqst resp

/-- The trace tells what happened. Every stored response was transferred, in an
exchange that satisfies `P`, and what validations were answered satisfies `V`. -/
structure Recorded (P : Answering) (V : ServerResponse → Answering) (d : Ledger) : Prop where
  sending : ∀ {f ref bytes}, .sending f ref bytes ∈ d.trace → d.Sending f ref bytes
  wrote : ∀ {f ref bytes}, .wrote f ref bytes ∈ d.trace → ref.id < d.nextMessage
  admitted : ∀ {url cached}, (url, cached) ∈ d.cache.entries → ∃ rqst resp,
    .transferred rqst resp ∈ d.trace ∧ url = toUrl rqst.getHeader ∧ cached = resp.getCache ∧ d.Answered P rqst resp
  handled : ∀ {rqst held ref}, .handled rqst held ref ∈ d.trace → d.Handles rqst held ref
  validated : ∀ {rqst cached resp given}, .validated rqst cached resp given ∈ d.trace →
    d.Verified V rqst cached resp given
  numbered : d.Numbered
  unspoken : ∀ c, d.nextConnection ≤ c → d.Unspoken c

variable {P : Answering} {V : ServerResponse → Answering} {d d' : Ledger} {f : Fd} {ref : MessageRef} {bytes : Bytes}
  {h : Handler} {rqst : ClientRequest} {cached resp : ServerResponse} {given : Option (Fd × MessageRef)} {c : ConnId} {k : Nat}
  {l : Ear}

/-! ### A longer trace -/

/-- What the trace says is still said. -/
structure Grows (d d' : Ledger) : Prop where
  trace : d.trace ⊆ d'.trace
  sent : ∀ ref, sentOf d.trace ref <+: sentOf d'.trace ref
  requests : ∀ c, (dialogue d.trace c).requests <+: (dialogue d'.trace c).requests

theorem Grows.same (trace : d'.trace = d.trace) : Grows d d' where
  trace := by rw [trace]; exact List.Subset.refl _
  sent ref := trace ▸ List.prefix_refl _
  requests c := trace ▸ List.prefix_refl _

theorem Grows.append {o : Obs} (trace : d'.trace = d.trace ++ [o]) : Grows d d' where
  trace := by rw [trace]; exact List.subset_append_left _ _
  sent ref := by rw [trace]; exact sentOf_mono _ _ _
  requests c := by rw [trace]; exact requests_mono _ _ _

theorem Unspoken.same (unspoken : d.Unspoken c) (trace : d'.trace = d.trace) : d'.Unspoken c := by
  unfold Unspoken
  rw [trace]
  exact unspoken

theorem Unspoken.append {o : Obs} (unspoken : d.Unspoken c) (trace : d'.trace = d.trace ++ [o])
    (other : ∀ e, o.adds c e = e) : d'.Unspoken c := by
  unfold Unspoken
  rw [trace, dialogue_append, other]
  exact unspoken

theorem Told.mono {text : Bytes} (told : d.Told c k text) (grows : Grows d d') : d'.Told c k text := by
  obtain ⟨f, ref, seen, whole, number⟩ := told
  obtain ⟨more, longer⟩ := grows.requests c
  refine ⟨f, ref, grows.trace seen, whole.trans (grows.sent ref), ?_⟩
  rw [← longer, List.getElem?_append_left (List.getElem?_eq_some_iff.mp number).1]
  exact number

theorem Stocked.mono (stocked : d.Stocked rqst cached) (trace : d.trace ⊆ d'.trace) : d'.Stocked rqst cached := by
  obtain ⟨rqst', resp, seen, rest⟩ := stocked
  exact ⟨rqst', resp, trace seen, rest⟩

theorem Asked.mono (asked : d.Asked rqst cached) (grows : Grows d d') : d'.Asked rqst cached := by
  obtain ⟨stocked, f, ref, seen, whole⟩ := asked
  exact ⟨stocked.mono grows.trace, f, ref, grows.trace seen, whole.trans (grows.sent ref)⟩

theorem Routed.mono (routed : d.Routed c rqst) (trace : d.trace ⊆ d'.trace) : d'.Routed c rqst :=
  ⟨trace routed.connected, routed.whole⟩

theorem Resumes.mono {next : AfterRequest} (resumes : d.Resumes next) (trace : d.trace ⊆ d'.trace) :
    d'.Resumes next := by
  cases next with
  | firstRequestRead client => trivial
  | reuse c oldHost => exact trace resumes

theorem Awaits.mono {next : AfterResponse} (awaits : d.Awaits next) (grows : Grows d d') : d'.Awaits next := by
  cases next with
  | handleValidationResponse c rqst cached =>
    obtain ⟨asked, routed⟩ := awaits
    exact ⟨asked.mono grows, routed.mono grows.trace⟩

theorem Follows.mono {next : AfterSend} (follows : d.Follows bytes next) (trace : d.trace ⊆ d'.trace) :
    d'.Follows bytes next := by
  cases next with
  | readResponse dest it next =>
    cases next with
    | handleValidationResponse c rqst cached =>
      obtain ⟨stocked, text, routed⟩ := follows
      exact ⟨stocked.mono trace, text, routed.mono trace⟩
  | startTransfer c rqst =>
    obtain ⟨text, routed⟩ := follows
    exact ⟨text, routed.mono trace⟩
  | reuseConnection c oldHost => exact trace follows
  | _ => trivial

/-- How requests may change: one that is read goes on to be, and the others keep their
headers. -/
structure Requests (d d' : Ledger) : Prop where
  gathered : ∀ m, (d.requests m).Gathered → d.Reading (.request m) → (d'.requests m).Gathered
  headers : ∀ {f m bytes}, .sending f (.request m) bytes ∈ d.trace → m < d.nextMessage →
    (d'.requests m).getHeader = (d.requests m).getHeader

theorem Requests.same (same : ∀ m, m < d.nextMessage → d'.requests m = d.requests m) : Requests d d' := by
  constructor
  · intro m gathered reading
    rwa [same m reading.known]
  · intro f m bytes _ known
    rw [same m known]

theorem Concerns.mono {next : AfterSend} (concerns : d.Concerns next ref) (known : d.nextMessage ≤ d'.nextMessage)
    (requests : Requests d d') (seen : .sending f ref bytes ∈ d.trace) : d'.Concerns next ref := by
  cases ref with
  | request m =>
    obtain ⟨bound, headed⟩ := concerns
    refine ⟨Nat.lt_of_lt_of_le bound known, ?_⟩
    rw [requests.headers seen bound]
    exact headed
  | response m => trivial

/-- A handler goes on to rely on what it did, when the messages that are read stay so and
nothing is said to a server that is being connected to. -/
theorem Relies.mono (relies : d.Relies f h) (grows : Grows d d') (reading : ∀ ref, d.Reading ref → d'.Reading ref)
    (known : d.nextMessage ≤ d'.nextMessage) (requests : Requests d d')
    (unspoken : ∀ c ip, h = .serverConnect c ip → d.Unspoken c → d'.Unspoken c) : d'.Relies f h := by
  have trace := grows.trace
  cases h with
  | readRequest source m it next =>
    obtain ⟨reads, gathers, resumes⟩ := relies
    exact ⟨reading _ reads, requests.gathered m gathers reads, Resumes.mono resumes trace⟩
  | readResponse source m it next => exact ⟨reading _ relies.1, Awaits.mono relies.2 grows⟩
  | send dest ref it next =>
    obtain ⟨concerns, bytes, seen, follows⟩ := relies
    exact ⟨concerns.mono known requests seen, bytes, trace seen, Follows.mono follows trace⟩
  | transferServer c rqst m =>
    exact ⟨reading _ relies.1, relies.2.mono trace⟩
  | transferClient c m => exact reading _ relies
  | serverConnect c ip => exact ⟨trace relies.1, unspoken c ip rfl relies.2⟩
  | _ => trivial

theorem Recorded.handled_mono (recorded : d.Recorded P V) (trace : d.trace ⊆ d'.trace)
    {held : Option CachedMessage} (seen : .handled rqst held ref ∈ d.trace) : d'.Handles rqst held ref := by
  obtain ⟨f, bytes, sending, asked⟩ := recorded.handled seen
  exact ⟨f, bytes, trace sending, asked⟩

theorem Verified.mono (verified : d.Verified V rqst cached resp given) (grows : Grows d d') :
    d'.Verified V rqst cached resp given where
  asked := verified.asked.mono grows
  holds := by
    obtain ⟨c, k, told, holds⟩ := verified.holds
    exact ⟨c, k, told.mono grows, holds⟩
  valid := verified.valid
  sending f answer same := grows.trace (verified.sending f answer same)

theorem Recorded.validated_mono (recorded : d.Recorded P V) (grows : Grows d d')
    (seen : .validated rqst cached resp given ∈ d.trace) : d'.Verified V rqst cached resp given :=
  (recorded.validated seen).mono grows

theorem Answered.mono (answered : d.Answered P rqst resp) (grows : Grows d d') : d'.Answered P rqst resp := by
  obtain ⟨c, k, routed, told, holds⟩ := answered
  exact ⟨c, k, routed.mono grows.trace, told.mono grows, holds⟩

theorem Recorded.admitted_mono (recorded : d.Recorded P V) (grows : Grows d d') {url : Bytes}
    {value : CachedMessage} (held : (url, value) ∈ d.cache.entries) : ∃ rqst resp,
      .transferred rqst resp ∈ d'.trace ∧ url = toUrl rqst.getHeader ∧ value = resp.getCache ∧ d'.Answered P rqst resp := by
  obtain ⟨rqst, resp, seen, url, value, answered⟩ := recorded.admitted held
  exact ⟨rqst, resp, grows.trace seen, url, value, answered.mono grows⟩

/-- What is read of a server stays what it has said, when nothing is said to it and the
message does not change. -/
theorem Hears.mono (hears : d.Hears l) (grows : Grows d d') (known : d.nextMessage ≤ d'.nextMessage)
    (dialogues : dialogue d'.trace l.conn = dialogue d.trace l.conn)
    (received : ∀ bytes, (d.responses l.message).Received bytes → (d'.responses l.message).Received bytes) : d'.Hears l := by
  obtain ⟨bound, ⟨k, count, told⟩, heard⟩ := hears
  refine ⟨Nat.lt_of_lt_of_le bound known, ⟨k, ?_, told.mono grows⟩, ?_⟩
  · rw [dialogues]
    exact count
  · rw [dialogues]
    exact received _ heard

theorem Hears.keep (hears : d.Hears l) (trace : d'.trace = d.trace) (known : d.nextMessage ≤ d'.nextMessage)
    (received : ∀ bytes, (d.responses l.message).Received bytes → (d'.responses l.message).Received bytes) : d'.Hears l :=
  hears.mono (.same trace) known (by rw [trace]) received

theorem Hears.observe {o : Obs} (hears : d.Hears l) (dialogues : ∀ e, o.adds l.conn e = e) : (d.observe o).Hears l :=
  hears.mono (.append rfl) (Nat.le_refl _) ((dialogue_append _ _ _).trans (dialogues _)) fun _ received => received

theorem Numbered.mono (numbered : d.Numbered) (same : ∀ c host, d'.Connected c host → d.Connected c host)
    (next : d.nextConnection ≤ d'.nextConnection) : d'.Numbered := by
  intro c host seen
  obtain ⟨bound, only⟩ := numbered c host (same c host seen)
  exact ⟨Nat.lt_of_lt_of_le bound next, fun host' seen' => only host' (same c host' seen')⟩

/-! ### Messages that change -/

/-- Messages that are not sent may change, and new ones be made. -/
theorem Recorded.keep (recorded : d.Recorded P V) (trace : d'.trace = d.trace) (cache : d'.cache = d.cache)
    (next : d.nextMessage ≤ d'.nextMessage) (connections : d.nextConnection ≤ d'.nextConnection)
    (unsent : ∀ f ref bytes, .sending f ref bytes ∈ d.trace → d'.unsent ref = d.unsent ref) : d'.Recorded P V where
  sending := by
    intro f ref bytes seen
    rw [trace] at seen
    obtain ⟨known, rest, only, once⟩ := recorded.sending seen
    exact ⟨Nat.lt_of_lt_of_le known next, by rw [trace, unsent f ref bytes seen, rest], by rwa [trace],
      by rwa [trace]⟩
  wrote seen := by
    rw [trace] at seen
    exact Nat.lt_of_lt_of_le (recorded.wrote seen) next
  admitted held := by
    rw [cache] at held
    exact recorded.admitted_mono (.same trace) held
  handled seen := by
    rw [trace] at seen
    exact recorded.handled_mono (by rw [trace]; exact List.Subset.refl _) seen
  validated seen := by
    rw [trace] at seen
    exact recorded.validated_mono (.same trace) seen
  unspoken c bound := (recorded.unspoken c (Nat.le_trans connections bound)).same trace
  numbered := by
    apply recorded.numbered.mono _ connections
    intro c host seen
    unfold Connected at seen ⊢
    rwa [trace] at seen

theorem Relies.keep (relies : d.Relies f h) (trace : d'.trace = d.trace) (next : d.nextMessage ≤ d'.nextMessage)
    (requests : Requests d d') : d'.Relies f h :=
  relies.mono (.same trace) (fun _ reading => ⟨Nat.lt_of_lt_of_le reading.known next, by rw [trace]; exact reading.apart⟩)
    next requests fun _ _ _ unspoken => unspoken.same trace

theorem unsent_setRequest_of_ne {m : ClientRequest} {k : MsgId} (other : ref ≠ .request k) :
    (d.setRequest k m).unsent ref = d.unsent ref := by
  cases ref with
  | request id =>
    have distinct : id ≠ k := fun same => other (by rw [same])
    simp [unsent, setRequest, distinct]
  | response id => rfl

theorem unsent_setResponse_of_ne {m : ServerResponse} {k : MsgId} (other : ref ≠ .response k) :
    (d.setResponse k m).unsent ref = d.unsent ref := by
  cases ref with
  | request id => rfl
  | response id =>
    have distinct : id ≠ k := fun same => other (by rw [same])
    simp [unsent, setResponse, distinct]

/-! ### Observations -/

/-- An observation other than of what is sent or written, or of a connection. -/
theorem Recorded.observe {o : Obs} (recorded : d.Recorded P V) (quiet : ∀ f ref bytes, o ≠ .wrote f ref bytes)
    (silent : ∀ f ref bytes, o ≠ .sending f ref bytes) (unconnected : ∀ c host, o ≠ .connected c host)
    (handled : ∀ rqst held ref, o = .handled rqst held ref → d.Handles rqst held ref)
    (validated : ∀ rqst cached resp given, o = .validated rqst cached resp given →
      d.Verified V rqst cached resp given)
    (known : ∀ c e, d.nextConnection ≤ c → o.adds c e = e) : (d.observe o).Recorded P V := by
  have grows : Grows d (d.observe o) := .append rfl
  have trace := grows.trace
  refine ⟨fun {f ref bytes} seen => ?_, fun {f ref bytes} seen => ?_, fun held => recorded.admitted_mono grows held,
    fun {rqst held ref} seen => ?_, fun {rqst cached resp given} seen => ?_,
    recorded.numbered.mono (fun c host seen => ?_) (Nat.le_refl _),
    fun c bound => (recorded.unspoken c bound).append rfl fun e => known c e bound⟩
  · rcases List.mem_append.mp seen with old | new
    · obtain ⟨known, rest, only, once⟩ := recorded.sending old
      refine ⟨known, ?_, fun f' bytes' seen' => ?_, fun f' bytes' seen' => ?_⟩
      · show sentOf (d.trace ++ [o]) ref ++ d.unsent ref = bytes
        rw [sentOf_quiet quiet, rest]
      · rcases List.mem_append.mp seen' with old | new
        · exact only _ _ old
        · exact absurd (List.mem_singleton.mp new).symm (quiet _ _ _)
      · rcases List.mem_append.mp seen' with old | new
        · exact once _ _ old
        · exact absurd (List.mem_singleton.mp new).symm (silent _ _ _)
    · exact absurd (List.mem_singleton.mp new).symm (silent _ _ _)
  · rcases List.mem_append.mp seen with old | new
    · exact recorded.wrote old
    · exact absurd (List.mem_singleton.mp new).symm (quiet _ _ _)
  · rcases List.mem_append.mp seen with old | new
    · exact recorded.handled_mono trace old
    · obtain ⟨f, bytes, sending, asked⟩ := handled _ _ _ (List.mem_singleton.mp new).symm
      exact ⟨f, bytes, trace sending, asked⟩
  · rcases List.mem_append.mp seen with old | new
    · exact recorded.validated_mono grows old
    · exact (validated _ _ _ _ (List.mem_singleton.mp new).symm).mono grows
  · rcases List.mem_append.mp seen with old | new
    · exact old
    · exact absurd (List.mem_singleton.mp new).symm (unconnected _ _)

theorem Recorded.observe_plain {o : Obs} (recorded : d.Recorded P V) (plain : o.Plain)
    (known : ∀ c e, d.nextConnection ≤ c → o.adds c e = e) : (d.observe o).Recorded P V := by
  refine recorded.observe (fun _ _ _ same => ?_) (fun _ _ _ same => ?_) (fun _ _ same => ?_) (fun _ _ _ same => ?_)
    (fun _ _ _ _ same => ?_) known
  all_goals
    subst same
    exact plain.elim

theorem Relies.observe {o : Obs} (relies : d.Relies f h) (silent : ∀ f ref bytes, o ≠ .sending f ref bytes)
    (other : ∀ c ip, h = .serverConnect c ip → ∀ e, o.adds c e = e) : (d.observe o).Relies f h := by
  refine relies.mono (.append rfl) (fun ref reading => ?_) (Nat.le_refl _) (.same fun _ _ => rfl)
    fun c ip same unspoken => unspoken.append rfl (other c ip same)
  refine ⟨reading.known, fun f bytes seen => ?_⟩
  rcases List.mem_append.mp seen with old | new
  · exact reading.apart f bytes old
  · exact silent _ _ _ (List.mem_singleton.mp new).symm

/-! ### A connection that is made -/

theorem Recorded.connect (recorded : d.Recorded P V) (host : Bytes) : (d.connect host).Recorded P V := by
  have old : ∀ {o : Obs}, o ∈ (d.connect host).trace → (∀ c host, o ≠ .connected c host) → o ∈ d.trace := by
    intro o seen other
    rcases List.mem_append.mp seen with old | new
    · exact old
    · exact absurd (List.mem_singleton.mp new) (other _ _)
  have grows : Grows d (d.connect host) := .append rfl
  have sent : ∀ ref, sentOf (d.connect host).trace ref = sentOf d.trace ref := by
    apply sentOf_quiet
    intro _ _ _ same
    cases same
  constructor
  · intro f ref bytes seen
    obtain ⟨known, rest, only, once⟩ := recorded.sending (old seen fun _ _ same => by cases same)
    constructor
    · exact known
    · rw [sent]
      exact rest
    · intro f' bytes' seen'
      exact only f' bytes' (old seen' fun _ _ same => by cases same)
    · intro f' bytes' seen'
      exact once f' bytes' (old seen' fun _ _ same => by cases same)
  · intro f ref bytes seen
    exact recorded.wrote (old seen fun _ _ same => by cases same)
  · intro url cached held
    exact recorded.admitted_mono grows held
  · intro rqst held ref seen
    exact recorded.handled_mono grows.trace (old seen fun _ _ same => by cases same)
  · intro rqst cached resp given seen
    apply recorded.validated_mono grows
    exact old seen fun _ _ same => by cases same
  · intro c host' seen
    -- The number of the connection is new.
    have known : ∀ {c host'}, .connected c host' ∈ (d.connect host).trace →
        d.Connected c host' ∨ c = d.nextConnection ∧ host' = host := by
      intro c host' seen
      rcases List.mem_append.mp seen with old | new
      · exact Or.inl old
      · have same := List.mem_singleton.mp new
        cases same
        exact Or.inr ⟨rfl, rfl⟩
    rcases known seen with old | ⟨rfl, rfl⟩
    · obtain ⟨bound, only⟩ := recorded.numbered c host' old
      refine ⟨Nat.lt_succ_of_lt bound, ?_⟩
      intro host'' seen'
      rcases known seen' with old' | ⟨rfl, rfl⟩
      · exact only host'' old'
      · exact absurd bound (Nat.lt_irrefl _)
    · refine ⟨Nat.lt_succ_self _, ?_⟩
      intro host'' seen'
      rcases known seen' with old' | ⟨_, same⟩
      · exact absurd (recorded.numbered _ _ old').1 (Nat.lt_irrefl _)
      · exact same
  · intro c bound
    exact (recorded.unspoken c (Nat.le_of_succ_le bound)).append rfl fun _ => rfl

theorem Relies.connect (relies : d.Relies f h) (host : Bytes) : (d.connect host).Relies f h := by
  have observed : (d.observe (.connected d.nextConnection host)).Relies f h :=
    relies.observe (fun _ _ _ same => by cases same) fun _ _ _ _ => rfl
  exact observed.keep rfl (Nat.le_refl _) (.same fun _ _ => rfl)

/-! ### A message that is to be sent -/

/-- A message that is made to be sent. -/
structure Queued (d d' : Ledger) (f : Fd) (ref : MessageRef) (bytes : Bytes) : Prop where
  trace : d'.trace = d.trace ++ [.sending f ref bytes]
  cache : d'.cache = d.cache
  fresh : ref.id = d.nextMessage
  next : d'.nextMessage = d.nextMessage + 1
  unsent : d'.unsent ref = bytes
  others : ∀ ref', ref' ≠ ref → d'.unsent ref' = d.unsent ref'
  responses : ∀ m, m < d.nextMessage → d'.responses m = d.responses m
  requests : ∀ m, m < d.nextMessage → d'.requests m = d.requests m
  connections : d'.nextConnection = d.nextConnection

theorem queued_request (m : ClientRequest) : Queued d
    ((d.newMessage.setRequest d.nextMessage m).observe (.sending f (.request d.nextMessage) m.unsent)) f
    (.request d.nextMessage) m.unsent where
  trace := rfl
  cache := rfl
  fresh := rfl
  next := rfl
  unsent := by simp [Ledger.unsent, setRequest, Ledger.observe]
  others ref' other := unsent_setRequest_of_ne (d := d) other
  responses _ _ := rfl
  requests m' bound := if_neg (Nat.ne_of_lt bound)
  connections := rfl

theorem queued_response (m : ServerResponse) : Queued d
    ((d.newMessage.setResponse d.nextMessage m).observe (.sending f (.response d.nextMessage) m.unsent)) f
    (.response d.nextMessage) m.unsent where
  trace := rfl
  cache := rfl
  fresh := rfl
  next := rfl
  unsent := by simp [Ledger.unsent, setResponse, Ledger.observe]
  others ref' other := unsent_setResponse_of_ne (d := d) other
  responses m' bound := if_neg (Nat.ne_of_lt bound)
  requests _ _ := rfl
  connections := rfl

theorem Queued.seen (queued : Queued d d' f ref bytes) : .sending f ref bytes ∈ d'.trace := by
  rw [queued.trace]
  exact List.mem_append_right _ (List.mem_singleton_self _)

theorem Queued.grows (queued : Queued d d' f ref bytes) : Grows d d' := .append queued.trace

theorem Queued.sent (queued : Queued d d' f ref bytes) (ref' : MessageRef) :
    sentOf d'.trace ref' = sentOf d.trace ref' := by
  rw [queued.trace, sentOf_append]
  exact List.append_nil _

theorem Recorded.queue (recorded : d.Recorded P V) (queued : Queued d d' f ref bytes) : d'.Recorded P V := by
  have known : ∀ {ref' : MessageRef}, ref'.id < d.nextMessage → ref' ≠ ref ∧ ref'.id < d'.nextMessage := by
    intro ref' bound
    refine ⟨?_, by rw [queued.next]; exact Nat.lt_succ_of_lt bound⟩
    rintro rfl
    rw [queued.fresh] at bound
    exact Nat.lt_irrefl _ bound
  have split : ∀ {o : Obs}, o ∈ d'.trace → o ∈ d.trace ∨ o = .sending f ref bytes := by
    intro o seen
    rw [queued.trace] at seen
    exact (List.mem_append.mp seen).imp_right List.mem_singleton.mp
  refine ⟨fun {f' ref' bytes'} seen => ?_, fun {f' ref' bytes'} seen => ?_, fun {url cached} held => ?_,
    fun {rqst held ref'} seen => ?_, fun {rqst cached resp given} seen => ?_,
    recorded.numbered.mono (fun c host seen => (split seen).resolve_right nofun) (Nat.le_of_eq queued.connections.symm),
    fun c bound => (recorded.unspoken c (queued.connections ▸ bound)).append queued.trace fun _ => rfl⟩
  · rcases split seen with old | new
    · obtain ⟨bound, rest, only, once⟩ := recorded.sending old
      obtain ⟨other, bound'⟩ := known bound
      refine ⟨bound', by rw [queued.sent, queued.others _ other, rest], fun f'' bytes'' seen' => ?_,
        fun f'' bytes'' seen' => ?_⟩
      · exact only f'' bytes'' ((split seen').resolve_right nofun)
      · rcases split seen' with old | new
        · exact once _ _ old
        · cases new
          exact absurd rfl other
    · cases new
      have unwritten : ∀ f' bytes', .wrote f' ref bytes' ∉ d.trace := fun f' bytes' seen' =>
        (known (recorded.wrote seen')).1 rfl
      refine ⟨by rw [queued.fresh, queued.next]; exact Nat.lt_succ_self _, ?_, fun f'' bytes'' seen' => ?_,
        fun f'' bytes'' seen' => ?_⟩
      · rw [queued.sent, queued.unsent]
        suffices sentOf d.trace ref = [] by rw [this, List.nil_append]
        refine List.flatMap_eq_nil_iff.mpr fun o seen' => ?_
        cases o with
        | wrote f'' ref'' bytes'' =>
          refine if_neg ?_
          rintro rfl
          exact unwritten _ _ seen'
        | _ => rfl
      · exact absurd ((split seen').resolve_right nofun) (unwritten f'' bytes'')
      · rcases split seen' with old | new
        · exact absurd rfl (known (recorded.sending old).known).1
        · cases new
          exact ⟨rfl, rfl⟩
  · exact (known (recorded.wrote ((split seen).resolve_right nofun))).2
  · rw [queued.cache] at held
    exact recorded.admitted_mono queued.grows held
  · exact recorded.handled_mono queued.grows.trace ((split seen).resolve_right nofun)
  · exact recorded.validated_mono queued.grows ((split seen).resolve_right nofun)

theorem Relies.queue {g : Fd} (relies : d.Relies g h) (queued : Queued d d' f ref bytes) : d'.Relies g h := by
  refine relies.mono queued.grows (fun ref' reading => ?_) (by rw [queued.next]; exact Nat.le_succ _)
    (.same queued.requests) fun c _ _ unspoken => unspoken.append queued.trace fun _ => rfl
  refine ⟨by rw [queued.next]; exact Nat.lt_succ_of_lt reading.known, fun f' bytes' seen => ?_⟩
  rw [queued.trace] at seen
  rcases List.mem_append.mp seen with old | new
  · exact reading.apart f' bytes' old
  · cases List.mem_singleton.mp new
    have known := reading.known
    rw [queued.fresh] at known
    exact Nat.lt_irrefl _ known

/-! ### A message that is written -/

/-- Some of the message is written to the descriptor `f`. -/
structure Written (d d' : Ledger) (f : Fd) (ref : MessageRef) (bytes : Bytes) : Prop where
  trace : d'.trace = d.trace ++ [.wrote f ref bytes]
  cache : d'.cache = d.cache
  next : d'.nextMessage = d.nextMessage
  unsent : bytes ++ d'.unsent ref = d.unsent ref
  others : ∀ ref', ref' ≠ ref → d'.unsent ref' = d.unsent ref'
  received : ∀ m bytes, (d.responses m).Received bytes → (d'.responses m).Received bytes
  requests : Requests d d'
  connections : d'.nextConnection = d.nextConnection

theorem written_request {k : MsgId} {m : ClientRequest} {accepted : Nat}
    (written : (d.requests k).writeTo accepted = some (bytes, m)) (sent : ¬d.Reading (.request k)) :
    Written d ((d.observe (.wrote f (.request k) bytes)).setRequest k m) f (.request k) bytes where
  trace := rfl
  cache := rfl
  next := rfl
  unsent := by simpa [Ledger.unsent, setRequest, Ledger.observe] using BufferedMessage.unsent_writeTo written
  others ref' other := unsent_setRequest_of_ne (d := d) other
  received _ _ received := received
  requests := by
    constructor
    · intro other gathered reading
      show (if other = k then m else d.requests other).Gathered
      have distinct : other ≠ k := fun same => sent (same ▸ reading)
      rwa [if_neg distinct]
    · intro f other bytes _ _
      show (if other = k then m else d.requests other).getHeader = (d.requests other).getHeader
      split
      · rename_i same
        obtain ⟨_, _, moved⟩ := BufferedMessage.writeTo_eq written
        rw [same, moved]
        rfl
      · rfl
  connections := rfl

theorem written_response {k : MsgId} {m : ServerResponse} {accepted : Nat}
    (written : (d.responses k).writeTo accepted = some (bytes, m)) :
    Written d ((d.observe (.wrote f (.response k) bytes)).setResponse k m) f (.response k) bytes where
  trace := rfl
  cache := rfl
  next := rfl
  unsent := by simpa [Ledger.unsent, setResponse, Ledger.observe] using BufferedMessage.unsent_writeTo written
  others ref' other := unsent_setResponse_of_ne (d := d) other
  received other bytes received := by
    show (if other = k then m else d.responses other).Received bytes
    split
    · rename_i same
      subst same
      exact received.writeTo written
    · exact received
  requests := .same fun _ _ => rfl
  connections := rfl

/-- A message is written by the handler that sends it, or while it is read. -/
theorem Recorded.write (recorded : d.Recorded P V) (written : Written d d' f ref bytes)
    (known : ref.id < d.nextMessage) (here : ∀ f' bytes', .sending f' ref bytes' ∈ d.trace → f' = f) :
    d'.Recorded P V := by
  have grows : Grows d d' := .append written.trace
  have split : ∀ {o : Obs}, o ∈ d'.trace → o ∈ d.trace ∨ o = .wrote f ref bytes := by
    intro o seen
    rw [written.trace] at seen
    exact (List.mem_append.mp seen).imp_right List.mem_singleton.mp
  refine ⟨fun {f' ref' bytes'} seen => ?_, fun {f' ref' bytes'} seen => ?_, fun {url cached} held => ?_,
    fun {rqst held ref'} seen => ?_, fun {rqst cached resp given} seen => ?_,
    recorded.numbered.mono (fun c host seen => (split seen).resolve_right nofun) (Nat.le_of_eq written.connections.symm),
    fun c bound => (recorded.unspoken c (written.connections ▸ bound)).append written.trace fun _ => rfl⟩
  · have old := (split seen).resolve_right nofun
    obtain ⟨bound, rest, only, once⟩ := recorded.sending old
    refine ⟨by rwa [written.next], ?_, fun f'' bytes'' seen' => ?_, fun f'' bytes'' seen' => ?_⟩
    · rw [written.trace, sentOf_append, Obs.sent]
      split
      · rename_i same
        subst same
        rw [List.append_assoc, written.unsent, rest]
      · rename_i other
        rw [List.append_nil, written.others _ (Ne.symm other), rest]
    · rcases split seen' with old' | new
      · exact only _ _ old'
      · cases new
        exact (here f' bytes' old).symm
    · exact once _ _ ((split seen').resolve_right nofun)
  · rw [written.next]
    rcases split seen with old | new
    · exact recorded.wrote old
    · cases new
      exact known
  · rw [written.cache] at held
    exact recorded.admitted_mono grows held
  · exact recorded.handled_mono grows.trace ((split seen).resolve_right nofun)
  · exact recorded.validated_mono grows ((split seen).resolve_right nofun)

theorem Relies.write {g : Fd} (relies : d.Relies g h) (written : Written d d' f ref bytes) : d'.Relies g h := by
  refine relies.mono (.append written.trace) (fun ref' reading => ?_) (Nat.le_of_eq written.next.symm) written.requests
    fun c _ _ unspoken => unspoken.append written.trace fun _ => rfl
  refine ⟨by rw [written.next]; exact reading.known, fun f' bytes' seen => ?_⟩
  rw [written.trace] at seen
  exact reading.apart f' bytes' ((List.mem_append.mp seen).resolve_right fun new => by
    cases List.mem_singleton.mp new)

theorem Hears.queue (hears : d.Hears l) (queued : Queued d d' f ref bytes) : d'.Hears l := by
  refine hears.mono queued.grows (by rw [queued.next]; exact Nat.le_succ _) ?_ fun bytes received => ?_
  · rw [queued.trace]
    exact dialogue_aside (o := .sending f ref bytes) trivial _
  · rw [queued.responses _ hears.known]
    exact received

theorem Hears.write (hears : d.Hears l) (written : Written d d' f ref bytes) : d'.Hears l := by
  refine hears.mono (.append written.trace) (Nat.le_of_eq written.next.symm) ?_ (written.received _)
  rw [written.trace]
  exact dialogue_aside (o := .wrote f ref bytes) trivial _

/-! ### A message that is read -/

/-- A message that is not sent changes; one that is transferred keeps what was read. -/
theorem Recorded.setResponse {k : MsgId} {m : ServerResponse} (recorded : d.Recorded P V)
    (apart : ∀ f bytes, .sending f (.response k) bytes ∉ d.trace) : (d.setResponse k m).Recorded P V :=
  recorded.keep rfl rfl (Nat.le_refl _) (Nat.le_refl _) fun f _ bytes seen =>
    unsent_setResponse_of_ne fun same => apart f bytes (same ▸ seen)

theorem Recorded.setRequest {k : MsgId} {m : ClientRequest} (recorded : d.Recorded P V)
    (apart : ∀ f bytes, .sending f (.request k) bytes ∉ d.trace) : (d.setRequest k m).Recorded P V :=
  recorded.keep rfl rfl (Nat.le_refl _) (Nat.le_refl _) fun f _ bytes seen =>
    unsent_setRequest_of_ne fun same => apart f bytes (same ▸ seen)

theorem Relies.setResponse {k : MsgId} {m : ServerResponse} (relies : d.Relies f h) : (d.setResponse k m).Relies f h :=
  relies.keep rfl (Nat.le_refl _) (.same fun _ _ => rfl)

theorem Relies.setRequest {k : MsgId} {m : ClientRequest} (relies : d.Relies f h)
    (apart : ∀ f bytes, .sending f (.request k) bytes ∉ d.trace)
    (gathered : (d.requests k).Gathered → m.Gathered) : (d.setRequest k m).Relies f h := by
  refine relies.keep rfl (Nat.le_refl _) ?_
  constructor
  · intro other old reading
    show (if other = k then m else d.requests other).Gathered
    split
    · rename_i same
      subst same
      exact gathered old
    · exact old
  · intro f other bytes seen _
    show (if other = k then m else d.requests other).getHeader = (d.requests other).getHeader
    have distinct : other ≠ k := fun same => apart f bytes (same ▸ seen)
    rw [if_neg distinct]

theorem Recorded.setCache {cache : Cache} (recorded : d.Recorded P V)
    (admitted : ∀ {url cached}, (url, cached) ∈ cache.entries → ∃ rqst resp,
      .transferred rqst resp ∈ d.trace ∧ url = toUrl rqst.getHeader ∧ cached = resp.getCache ∧ d.Answered P rqst resp) :
    ({ d with cache } : Ledger).Recorded P V where
  sending seen :=
    have sending := recorded.sending seen
    ⟨sending.known, sending.rest, sending.only, sending.once⟩
  wrote := recorded.wrote
  admitted held := by
    obtain ⟨rqst, resp, seen, url, value, answered⟩ := admitted held
    exact ⟨rqst, resp, seen, url, value, answered.mono (.same rfl)⟩
  handled := recorded.handled
  validated seen := recorded.validated_mono (.same rfl) seen
  numbered := recorded.numbered
  unspoken c bound := (recorded.unspoken c bound).same rfl

theorem Recorded.newMessage (recorded : d.Recorded P V) : d.newMessage.Recorded P V :=
  recorded.keep rfl rfl (Nat.le_succ _) (Nat.le_refl _) fun _ _ _ _ => rfl

theorem Recorded.reading (recorded : d.Recorded P V) (fresh : ref.id = d.nextMessage) (trace : d'.trace = d.trace)
    (next : d'.nextMessage = d.nextMessage + 1) : d'.Reading ref where
  known := by rw [fresh, next]; exact Nat.lt_succ_self _
  apart f bytes seen := by
    rw [trace] at seen
    have known := (recorded.sending seen).known
    rw [fresh] at known
    exact Nat.lt_irrefl _ known

theorem Recorded.whole (recorded : d.Recorded P V) (seen : .sending f ref bytes ∈ d.trace) (done : d.unsent ref = []) :
    bytes <+: sentOf d.trace ref := by
  have rest := (recorded.sending seen).rest
  rw [done, List.append_nil] at rest
  exact rest ▸ List.prefix_refl _

/-- When the whole of a request is sent, the server has been told. -/
theorem Recorded.unanswered (recorded : d.Recorded P V) (seen : .sending f ref bytes ∈ d.trace) (done : d.unsent ref = []) :
    (d.observe (.delivered (.server c) ref)).Unanswered c bytes := by
  have said : dialogue (d.trace ++ [.delivered (.server c) ref]) c =
      { requests := (dialogue d.trace c).requests ++ [ref]
        earlier := (dialogue d.trace c).earlier ++ (dialogue d.trace c).since
        since := [] } := by
    rw [dialogue_append]
    exact if_pos rfl
  have whole := (recorded.whole seen done).trans (sentOf_mono d.trace (.delivered (.server c) ref) ref)
  refine ⟨⟨(dialogue d.trace c).requests.length, ?_, f, ref, List.mem_append_left _ seen, whole, ?_⟩, ?_⟩
  · show (dialogue (d.trace ++ [.delivered (.server c) ref]) c).requests.length = _
    rw [said]
    exact List.length_append
  · show (dialogue (d.trace ++ [.delivered (.server c) ref]) c).requests[_]? = _
    rw [said]
    exact List.getElem?_concat_length
  · show (dialogue (d.trace ++ [.delivered (.server c) ref]) c).since = _
    rw [said]

end Ledger

end ProxyServer
