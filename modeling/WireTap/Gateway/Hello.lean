import WireTap.Forward.Sink

/-!
# The gateway's answer to a daemon's `HELLO`

`IngestServer::daemon_hello`: record the daemon's devices in the meta database, read the catalogues
assigned to them, and answer with those.  What the two queries come to is an argument.
-/

namespace WireTap

/-- `daemon_hello`: a failure of the meta database is answered with no assignments. -/
def daemonHello (recorded : Except String Unit) (read : Except String (List Assignment)) :
    List Assignment :=
  match recorded with
  | .error _ => []
  | .ok () =>
    match read with
    | .error _ => []
    | .ok assignments => assignments

/-- The `HELLO_ACK` of a v3 session the gateway accepts. -/
def helloAck (recorded : Except String Unit) (read : Except String (List Assignment)) : HelloAck where
  status := .ok
  acceptedVersion := 3
  assignments := daemonHello recorded read

/-- `record_hello` or `assignments_for` failed. -/
def MetaFails (recorded : Except String Unit) (read : Except String (List Assignment)) : Prop :=
  (∃ e, recorded = .error e) ∨ recorded = .ok () ∧ ∃ e, read = .error e

theorem daemonHello_of_metaFails {recorded : Except String Unit}
    {read : Except String (List Assignment)} (h : MetaFails recorded read) :
    daemonHello recorded read = [] := by
  rcases h with ⟨e, rfl⟩ | ⟨rfl, e, rfl⟩ <;> rfl

end WireTap
