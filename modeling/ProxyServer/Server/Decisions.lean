import ProxyServer.Request.CacheControl

/-!
# What the server decides

The branches that `handle_client_request`, `handle_validation_response` and
`send_server_response` take.
-/

namespace ProxyServer

/-- The branches of `handle_client_request`. -/
inductive Plan where
  /-- Ask the server whether the cached response is valid. -/
  | validate (request : ClientRequest) (cached : ServerResponse)
  | establish (resp : ServerResponse)
  | transfer
  deriving DecidableEq, Repr

def connectionEstablished : ServerResponse :=
  .ofHeader { requestLine := .new 200 (lit "Connection Established"), properties := [] } []

def planRequest (cache : Cache) (rqst : ClientRequest) : Except CppError Plan :=
  let type := rqst.getHeader.requestLine.getType
  if type = .GET ∧ cache.isCached rqst.getHeader then do
    let cached ← BufferedMessage.ofCache (← cache.getCached rqst.getHeader)
    return .validate (makeValidateRequest rqst.getHeader cached.getHeader) cached
  else if type = .CONNECT then .ok (.establish connectionEstablished)
  else .ok .transfer

/-- The request that asks the server about a cached response. -/
def validationText (rqst : ClientRequest) (cached : ServerResponse) : Bytes :=
  (makeValidateHeader rqst.getHeader cached.getHeader).print

theorem unsent_validate (rqst : ClientRequest) (cached : ServerResponse) :
    (makeValidateRequest rqst.getHeader cached.getHeader).unsent = validationText rqst cached := by
  simp [makeValidateRequest, BufferedMessage.ofHeader, BufferedMessage.unsent, validationText]

theorem planRequest_validate {cache : Cache} {rqst request : ClientRequest} {cached : ServerResponse}
    (plan : planRequest cache rqst = .ok (.validate request cached)) : ∃ value,
      cache.lookup (toUrl rqst.getHeader) = some value ∧ BufferedMessage.ofCache value = .ok cached ∧
        rqst.getHeader.requestLine.getType = .GET ∧
        request = makeValidateRequest rqst.getHeader cached.getHeader := by
  simp only [planRequest] at plan
  split at plan
  · rename_i valid
    obtain ⟨value, held, plan⟩ := Runs.bind_ok.mp plan
    obtain ⟨message, parsed, plan⟩ := Runs.bind_ok.mp plan
    cases plan
    exact ⟨value, SimpleCache.find_ok held, parsed, valid.1, rfl⟩
  · split at plan
    all_goals cases plan

/-- What the server is asked for a request when `held` is cached for its URL. -/
def requestText (rqst : ClientRequest) (held : Option CachedMessage) : Except CppError Bytes :=
  match held with
  | some value =>
    if rqst.getHeader.requestLine.getType = .GET then
      (BufferedMessage.ofCache value).map (validationText rqst)
    else .ok rqst.unsent
  | none => .ok rqst.unsent

theorem isCached_iff {cache : Cache} {request : RequestHeader} :
    cache.isCached request = true ↔ ∃ value, cache.lookup (toUrl request) = some value := by
  simp only [Cache.isCached, SimpleCache.has, SimpleCache.lookup, Option.map_eq_some_iff, List.any_eq_true]
  constructor
  · rintro ⟨node, member, here⟩
    cases found : cache.values.find? (·.key = toUrl request) with
    | none => exact absurd here (List.find?_eq_none.mp found node member)
    | some node' => exact ⟨_, node', rfl, rfl⟩
  · rintro ⟨_, node, found, _⟩
    exact ⟨node, List.mem_of_find?_eq_some found, by simpa using List.find?_some found⟩

theorem planRequest_transfer {cache : Cache} {rqst : ClientRequest} (plan : planRequest cache rqst = .ok .transfer) :
    requestText rqst (cache.lookup (toUrl rqst.getHeader)) = .ok rqst.unsent := by
  simp only [planRequest] at plan
  split at plan
  · obtain ⟨value, _, plan⟩ := Runs.bind_ok.mp plan
    obtain ⟨cached, _, plan⟩ := Runs.bind_ok.mp plan
    cases plan
  · rename_i other
    cases found : cache.lookup (toUrl rqst.getHeader) with
    | none => rfl
    | some value =>
      have get : rqst.getHeader.requestLine.getType ≠ .GET := fun get => other ⟨get, isCached_iff.mpr ⟨value, found⟩⟩
      simp [requestText, get]

/-- Any other request is sent to the server as it is. -/
theorem planRequest_of_transfer {cache : Cache} {rqst : ClientRequest}
    (other : rqst.getHeader.requestLine.getType ≠ .CONNECT)
    (uncached : rqst.getHeader.requestLine.getType = .GET → cache.isCached rqst.getHeader = false) :
    planRequest cache rqst = .ok .transfer := by
  unfold planRequest
  dsimp only
  rw [if_neg, if_neg other]
  intro both
  rw [uncached both.1] at both
  cases both.2

/-- `Connection: close` -/
def closes (header : ResponseHeader) : Bool :=
  header.hasProperty (lit "connection") && toLower (header.getProperty (lit "connection")) = lit "close"

/-- The branches of `handle_validation_response`. -/
inductive Verdict where
  | sendCached
  | reconnect
  | refetch
  deriving DecidableEq, Repr

/-- The property that the source sets on the header of the cached response is set
on a copy. -/
def validationVerdict (resp : ServerResponse) : Verdict :=
  let code := resp.getHeader.requestLine.code
  if code = 200 ∨ code = 304 then .sendCached
  else if closes resp.getHeader then .reconnect
  else .refetch

end ProxyServer
