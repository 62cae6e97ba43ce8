import ProxyServer.Server.State

/-!
# What a trace says

The bytes that were sent of a message, and what was said on the connection to a server:
the requests that it was sent as a whole, and what was read of it.
-/

namespace ProxyServer

/-! ### Messages -/

/-- What one observation says was written of a message. -/
def Obs.sent (ref : MessageRef) : Obs → Bytes
  | .wrote _ other bytes => if other = ref then bytes else []
  | _ => []

def sentOf (trace : List Obs) (ref : MessageRef) : Bytes := trace.flatMap (·.sent ref)

theorem sentOf_append (trace : List Obs) (o : Obs) (ref : MessageRef) :
    sentOf (trace ++ [o]) ref = sentOf trace ref ++ o.sent ref := by
  simp [sentOf]

theorem sentOf_mono (trace : List Obs) (o : Obs) (ref : MessageRef) :
    sentOf trace ref <+: sentOf (trace ++ [o]) ref := by
  rw [sentOf_append]
  exact List.prefix_append _ _

theorem sentOf_quiet {trace : List Obs} {o : Obs} (quiet : ∀ f ref bytes, o ≠ .wrote f ref bytes) (ref : MessageRef) :
    sentOf (trace ++ [o]) ref = sentOf trace ref := by
  rw [sentOf_append]
  cases o with
  | wrote f ref bytes => exact absurd rfl (quiet f ref bytes)
  | _ => exact List.append_nil _

/-- What one observation says was written to a descriptor. -/
def Obs.gives (f : Fd) : Obs → Bytes
  | .wrote other _ bytes => if other = f then bytes else []
  | _ => []

/-- What was written to a descriptor. -/
def givenTo (trace : List Obs) (f : Fd) : Bytes := trace.flatMap (·.gives f)

theorem givenTo_append (trace : List Obs) (o : Obs) (f : Fd) : givenTo (trace ++ [o]) f = givenTo trace f ++ o.gives f := by
  simp [givenTo]

/-! ### Connections -/

structure Dialogue where
  /-- The requests that the server was sent as a whole. -/
  requests : List MessageRef
  /-- What was read of it before the last of them. -/
  earlier : Bytes
  /-- What was read since. -/
  since : Bytes
  deriving DecidableEq, Repr

def Dialogue.empty : Dialogue := { requests := [], earlier := [], since := [] }

/-- What one observation adds to the dialogue with the server of a connection. -/
def Obs.adds (c : ConnId) (d : Dialogue) : Obs → Dialogue
  | .delivered (.server other) message =>
    if other = c then { requests := d.requests ++ [message], earlier := d.earlier ++ d.since, since := [] } else d
  | .read (.server other) bytes => if other = c then { d with since := d.since ++ bytes } else d
  | _ => d

def dialogue (trace : List Obs) (c : ConnId) : Dialogue :=
  trace.foldl (fun d o => o.adds c d) .empty

theorem dialogue_append (trace : List Obs) (o : Obs) (c : ConnId) :
    dialogue (trace ++ [o]) c = o.adds c (dialogue trace c) := by
  simp [dialogue]

/-- An observation that is no part of a dialogue. -/
def Obs.Aside : Obs → Prop
  | .delivered (.server _) _ => False
  | .read (.server _) _ => False
  | _ => True

theorem Obs.Aside.adds {o : Obs} (aside : o.Aside) (c : ConnId) (d : Dialogue) : o.adds c d = d := by
  cases o with
  | delivered dest message =>
    cases dest with
    | server other => exact aside.elim
    | _ => rfl
  | read source bytes =>
    cases source with
    | server other => exact aside.elim
    | _ => rfl
  | _ => rfl

theorem dialogue_aside {trace : List Obs} {o : Obs} (aside : o.Aside) (c : ConnId) :
    dialogue (trace ++ [o]) c = dialogue trace c := by
  rw [dialogue_append, aside.adds]

theorem requests_mono (trace : List Obs) (o : Obs) (c : ConnId) :
    (dialogue trace c).requests <+: (dialogue (trace ++ [o]) c).requests := by
  rw [dialogue_append]
  unfold Obs.adds
  split
  · split
    · exact List.prefix_append _ _
    · exact List.prefix_refl _
  · split
    · exact List.prefix_refl _
    · exact List.prefix_refl _
  · exact List.prefix_refl _

end ProxyServer
