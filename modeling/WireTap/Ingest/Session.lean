import WireTap.Archive.Channel

/-!
# The ingest listener's batches

`Session::batch`: a device's batch is refused outright, or handed over to the archive's queue one
sample at a time and acknowledged.

The queue is shared.  Between two of the session's operations on it the other tasks (the captures
and the other sessions that enqueue, the worker that takes samples off and closes the queue at
shutdown) make any number of steps, given in advance as a list of turns as in `Archive/Batcher.lean`.

Left out: the socket, the `HELLO` and its token, and the decoding of a batch's records, which is
done before the queue is looked at; the session is given the samples.
-/

namespace WireTap.Ingest

variable {α : Type}

/-- The statuses a `BATCH` is answered with. -/
inductive AckStatus where
  | ok
  | malformed
  | overloaded
  deriving DecidableEq

/-- Queue occupancy at which a batch is refused rather than accepted. -/
def refuseAbovePct : Nat := 99

/-- A step of another task on the queue. -/
inductive Other (α : Type) where
  /-- A capture or another session hands over a frame. -/
  | enqueue (sample : α)
  /-- The worker takes the oldest frame, if there is one. -/
  | recv
  /-- Shutdown begins: the queue is closed. -/
  | close
  deriving DecidableEq

/-- One session, the queue it shares, and the turns the other tasks have still to take. -/
structure Session (α : Type) where
  shared : Shared α
  turns : List (List (Other α))
  relaysRawSerial : Bool
  /-- The samples `Archive::enqueue` accepted from this session, in that order: for the
  specifications only. -/
  accepted : List α := []

/-- A session's operation. -/
abbrev Op (α : Type) := StateM (Session α)

def Other.step (s : Shared α) : Other α → Shared α
  | .enqueue sample => s.enqueue sample
  | .recv =>
    match s.queue.pop with
    | none => s
    | some (_, queue) => { s with queue }
  | .close => { s with queue := s.queue.close }

/-- The others take their next turn. -/
def Session.turn (s : Session α) : Session α :=
  { s with shared := (s.turns.headD []).foldl Other.step s.shared, turns := s.turns.tail }

def otherTasks : Op α Unit := modify Session.turn

/-- `archive.is_closed()`. -/
def isClosed : Op α Bool := do
  otherTasks
  return (← get).shared.isClosed

/-- `archive.occupancy_pct()`. -/
def occupancyPct : Op α Nat := do
  otherTasks
  return (← get).shared.occupancyPct

/-- The session's own `enqueue`, with its acceptance on record. -/
def Session.enqueue (s : Session α) (sample : α) : Session α :=
  { s with
    shared := s.shared.enqueue sample
    accepted :=
      match s.shared.queue.trySend sample with
      | .ok _ => s.accepted ++ [sample]
      | .error _ => s.accepted }

/-- `archive.enqueue(sample)`. -/
def enqueue (sample : α) : Op α Unit := do
  otherTasks
  modify fun s => s.enqueue sample

/-- The loop that hands a batch over. -/
def enqueueAll : List α → Op α Unit
  | [] => return
  | sample :: samples => do
    enqueue sample
    enqueueAll samples

/-- `Session::batch`, on the batch's samples; `isSerial` tells `Sample::Serial`. -/
def batch (isSerial : α → Bool) (samples : List α) : Op α AckStatus := do
  -- A v2 forward session cannot carry raw serial, so it is refused here.
  if !(← get).relaysRawSerial && samples.any isSerial then return .malformed
  -- `||` reads the occupancy only of an open queue.
  if ← isClosed then return .overloaded
  if (← occupancyPct) ≥ refuseAbovePct then return .overloaded
  enqueueAll samples
  return .ok

end WireTap.Ingest
