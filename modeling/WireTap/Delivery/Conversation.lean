import WireTap.Forward.Sink
import WireTap.Gateway.IngestServer

/-!
# A daemon's link and the gateway it leads to

The two ends of the binary ingest protocol together: the gateway's listener, and one daemon's link as
its log shows it.  What the daemon has sent is what arrives, and what it reads is the next answer
there; between these the gateway, its other clients and its other tasks take any steps.

A `BATCH` whose write failed may have arrived whole all the same; the daemon then leaves that
connection, and so the log does not show it.  An answer may be lost on its way.
-/

namespace WireTap.Delivery

open Gateway (IngestServer KeyStore)

variable {α : Type}

structure Conversation (α : Type) where
  server : IngestServer α
  /-- The connections the daemon has dialled, and the one it is on. -/
  dialled : List Nat := []
  current : Option Nat := none
  /-- The link's log. -/
  log : List (Event α) := []
  /-- Every `BATCH` the daemon wrote, with the connection, whether the write failed or not. -/
  sends : List (Nat × List α) := []
  deriving DecidableEq

inductive Happening (α : Type) where
  /-- A step of the gateway, or of another of its clients. -/
  | gateway (e : IngestServer.IngestEvent α)
  /-- Something on the daemon's link that its log shows. -/
  | daemon (e : Event α)
  /-- A `BATCH` arrives though its write failed. -/
  | lost (seq : UInt32) (samples : List α)
  deriving DecidableEq

namespace Conversation

/-- The samples of each batch committed on one of the daemon's connections, in the order of their
commits. -/
def stored (c : Conversation α) : List (List α) :=
  (c.server.writes.filter fun w => w.conn ∈ c.dialled).map IngestServer.Stored.samples

/-- Those of one connection. -/
def storedOn (c : Conversation α) (i : Nat) : List (List α) :=
  (c.server.writes.filter fun w => w.conn = i).map IngestServer.Stored.samples

/-- The samples of each `BATCH` written on a connection. -/
def sentOn (c : Conversation α) (i : Nat) : List (List α) :=
  (c.sends.filter fun s => s.1 = i).map (·.2)

/-- No `BATCH` comes on a daemon's connection but from the daemon. -/
def mayHappen (c : Conversation α) : IngestServer.IngestEvent α → Bool
  | .arrive i (.batch _ _) => i ∉ c.dialled
  | _ => true

def noteSend (c : Conversation α) (i : Nat) : Message α → Conversation α
  | .batch _ samples => { c with sends := c.sends ++ [(i, samples)] }
  | _ => c

variable (cfg : IngestServer.Config) (machine : IngestServer.SessionMachine α)

/-- One step; `none` where it cannot happen. -/
def step (c : Conversation α) : Happening α → Option (Conversation α)
  | .gateway e =>
    if c.mayHappen e then (c.server.step cfg machine e).map fun server => { c with server }
    else none
  | .daemon .dialled =>
    (c.server.step cfg machine .accept).map fun server =>
      { c with server
               dialled := c.dialled ++ [c.server.conns.length]
               current := some c.server.conns.length
               log := c.log ++ [.dialled] }
  | .daemon (.sent m) =>
    match c.current with
    | none => none
    | some i =>
      (c.server.step cfg machine (.arrive i m)).map fun server =>
        { c.noteSend i m with server, log := c.log ++ [.sent m] }
  | .daemon (.received r) =>
    match c.current with
    | none => none
    | some i =>
      if (c.server.conns[i]?.bind fun conn => conn.outbox.head?) = some r then
        (c.server.step cfg machine (.take i)).map fun server =>
          { c with server, log := c.log ++ [.received r] }
      else none
  | .daemon (.quarantined samples) => some { c with log := c.log ++ [.quarantined samples] }
  | .lost seq samples =>
    match c.current with
    | none => none
    | some i =>
      (c.server.step cfg machine (.arrive i (.batch seq samples))).map fun server =>
        { c.noteSend i (.batch seq samples) with server, current := none }

/-- The listener has just been bound, and the daemon has not dialled. -/
def init (keys : KeyStore) (blobs : List (Sha × List UInt8)) : Conversation α where
  server := .init keys blobs

end Conversation

end WireTap.Delivery
