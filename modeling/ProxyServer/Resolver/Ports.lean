import ProxyServer.Resolver.Conservation
import ProxyServer.Util.Numbers

/-!
# The port of a host

A result that the resolver delivers has the port that the host names, and 80 when it
names none: the result is moved through the queues and never copied.
-/

namespace ProxyServer

/-- The query is for the host of its submission, as `connect_to_server` submits it. -/
def InQuery.Own (p : InQuery) : Prop := p.submission.extra.host = p.host

def ResolverEvent.Own : ResolverEvent → Prop
  | .resolveHost host extra => extra.host = host
  | _ => True

namespace Resolver

/-- The port behind the colon of the host, as it goes into an address. -/
def portOf (host : Bytes) : Option UInt16 :=
  match stoi (portName host) with
  | .ok port => some (htons (UInt16.ofNat (port % 2 ^ 16).toNat))
  | .error _ => none

theorem portOf_plain {host : Bytes} (absent : COLON ∉ host) : portOf host = some (htons 80) := by
  have standard : portName host = lit "80" := portName_plain absent
  unfold portOf
  rw [standard]
  decide

theorem portOf_number {name : Bytes} {n : Nat} (absent : COLON ∉ name) (short : name.length < npos)
    (small : n < 2 ^ 16) : portOf (name ++ COLON :: intToString n) = some (htons (UInt16.ofNat n)) := by
  unfold portOf
  rw [portName_behind absent short, stoi_intToString (by omega) (by omega)]
  dsimp only
  rw [Int.emod_eq_of_lt (by omega) (by omega)]
  rfl

theorem resolved_port {p : InQuery} {ips : List UInt32} {result : Resolution} (made : resolved p ips = some result) :
    portOf p.host = some result.port := by
  unfold resolved at made
  unfold portOf
  cases read : stoi (portName p.host) with
  | error e =>
    rw [read] at made
    cases made
  | ok port =>
    rw [read] at made
    cases made
    rfl

end Resolver

def Resolution.Ported (r : Resolution) : Prop := Resolver.portOf r.submission.extra.host = some r.port

namespace Resolver

structure Ported (s : Resolver) : Prop where
  queued : ∀ p ∈ s.inQueue, p.Own
  held : ∀ w ∈ s.workers, ∀ p ∈ w.query, p.Own
  made : ∀ r ∈ s.outQueue, r.Ported
  delivered : ∀ r ∈ s.delivered, r.Ported

variable {s s' : Resolver} {i : Nat} {w : Worker} {getaddrinfo : Bytes → Bytes → Option (List UInt32)}
  {e : ResolverEvent}

theorem Ported.queries (ported : s.Ported) : s.Queries InQuery.Own := ⟨ported.queued, ported.held⟩

theorem start_ported (threads : Nat) : (start threads).Ported where
  queued := (start_queries _ threads).queued
  held := (start_queries _ threads).held
  made r here := by cases here
  delivered r here := by cases here

theorem Ported.publishes {p : InQuery} {ips : List UInt32} {result : Resolution} (ported : s.Ported)
    (here : s.workers[i]? = some (.publish p ips)) (made : resolved p ips = some result) :
    ∀ r ∈ s.outQueue ++ [result], r.Ported := by
  have own : p.Own := ported.held _ (List.mem_of_getElem? here) p rfl
  have named : result.Ported := by
    unfold Resolution.Ported
    rw [resolved_submission made, own, resolved_port made]
  intro r there
  rcases List.mem_append.mp there with before | added
  · exact ported.made r before
  · rw [List.mem_singleton.mp added]
    exact named

theorem work_results (ported : s.Ported) (here : s.workers[i]? = some w) (works : Works getaddrinfo s i w s') :
    (∀ r ∈ s'.outQueue, r.Ported) ∧ ∀ r ∈ s'.delivered, r.Ported := by
  cases works with
  | publishes made => exact ⟨ported.publishes here made, ported.delivered⟩
  | _ => exact ⟨ported.made, ported.delivered⟩

theorem step_results (ported : s.Ported) (steps : Steps getaddrinfo s e s') :
    (∀ r ∈ s'.outQueue, r.Ported) ∧ ∀ r ∈ s'.delivered, r.Ported := by
  cases steps with
  | @delivers result rest _ queue =>
    have all : ∀ r ∈ result :: rest, r.Ported := by
      rw [← queue]
      exact ported.made
    refine ⟨fun r there => all r (List.mem_cons_of_mem _ there), ?_⟩
    intro r there
    rcases List.mem_append.mp there with before | added
    · exact ported.delivered r before
    · rw [List.mem_singleton.mp added]
      exact all result List.mem_cons_self
  | works here works => exact work_results ported here works
  | _ => exact ⟨ported.made, ported.delivered⟩

theorem submits_own (own : e.Own) : Submits InQuery.Own s e := by
  cases e with
  | resolveHost host extra => exact own
  | _ => trivial

theorem step_ported (ported : s.Ported) (own : e.Own) (steps : Steps getaddrinfo s e s') : s'.Ported := by
  obtain ⟨queued, held⟩ := step_queries ported.queries (submits_own own) steps
  obtain ⟨made, delivered⟩ := step_results ported steps
  exact ⟨queued, held, made, delivered⟩

/-- Whatever the workers and the main thread do in whatever order, a result that `get_ip`
returns has the port of its host. -/
theorem delivered_ported {events : List ResolverEvent} (own : ∀ e ∈ events, e.Own) (threads : Nat)
    (ran : Runs.run (step getaddrinfo) (start threads) events = .ok s) : ∀ r ∈ s.delivered, r.Ported := by
  have ported : s.Ported := by
    apply Runs.invariant_along (start_ported threads) _ (Runs.Along.of_forall own) ran
    intro s e s' ported own stepped
    exact step_ported ported own (step_ok stepped)
  exact ported.delivered

end Resolver

end ProxyServer
