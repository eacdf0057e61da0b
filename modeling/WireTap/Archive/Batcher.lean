import WireTap.Archive.Channel
import WireTap.Archive.Sink
import WireTap.Cache.FrameCache

/-!
# The archive worker

`Batcher::run` and everything it calls, over any `BatchSink` and any `FrameCache`.  The worker
batches from the queue, writes to the sink, spills to the cache when it cannot, and drains the
cache before the queue once the sink is back.

The other tasks (the captures that enqueue, the shutdown that signals `stop`) run beside the
worker.  Their steps are given in advance, as a list of turns: each operation of the worker on the
queue or the stop signal first takes the next turn off the list and lets the others make the steps
in it, any number of them.  Nothing else they do can be seen by the worker, so every interleaving
is some list of turns.

Floating point is left out of `spill_if_queue_filling`: whether a queue of `size` out of `cap` is
filling is the function `filling`, and every result holds for any such function.  Durations,
logging and `last_ack_ms` are left out; `wait_to_retry`'s sleep is a turn of the others.
-/

namespace WireTap

/-- The stop signal, a `watch` channel: `changed` until the worker has seen the value sent,
`dropped` once its sender is gone. -/
structure Stop where
  changed : Bool := false
  dropped : Bool := false
  deriving DecidableEq

/-- A step of another task. -/
inductive Other (α : Type) where
  /-- A capture hands over a frame. -/
  | enqueue (sample : α)
  /-- `Running::shutdown` sends the stop signal. -/
  | stop
  /-- The stop signal's sender is dropped. -/
  | abandon
  /-- The last `Archive` is dropped, which closes the queue. -/
  | hangUp
  deriving DecidableEq

/-- The `[forward]` settings the batcher is built from, and when the queue counts as filling:
`flush_threshold` is positive and `size / cap` has reached it. -/
structure Batching where
  size : Nat
  queueSize : Nat
  filling : Nat → Nat → Bool

/-- The worker's own state. -/
structure Batcher (S C α : Type) where
  shared : Shared α
  stop : Stop
  sink : S
  cache : C
  batchSize : Nat
  batchSize_pos : 0 < batchSize
  filling : Nat → Nat → Bool
  connected : Bool := false
  sinkDown : Bool := false
  drainingCache : Bool := false

/-- What has happened so far, for the specifications: no function of the model reads it. -/
structure History (C α : Type) where
  /-- Every sample whose `try_send` succeeded, in that order. -/
  accepted : List α := []
  /-- Every sample a producer dropped because the queue was full. -/
  refused : List α := []
  /-- Every sample the sink reported delivered, in that order. -/
  delivered : List α := []
  /-- Every sample of a batch `cache_batch` counted in `dropped`. -/
  lost : List α := []
  /-- Every sample removed from the cache. -/
  removed : List α := []
  /-- The cache as each `reset` found it. -/
  resets : List C := []

/-- The worker, the turns the other tasks have still to take, and the history. -/
structure World (S C α : Type) extends Batcher S C α where
  turns : List (List (Other α))
  history : History C α := {}

/-- A worker's operation. -/
abbrev Run (S C α : Type) := StateM (World S C α)

variable {S C α : Type}

/-- `channel`: a queue, and the batcher that works it. -/
def channel (sink : S) (cache : C) (batching : Batching) : Batcher S C α where
  shared := { queue := .new batching.queueSize, counters := {} }
  stop := {}
  sink
  cache
  batchSize := max batching.size 1
  batchSize_pos := by omega
  filling := batching.filling

/-! ### Updates -/

namespace World

def setQueue (w : World S C α) (queue : Channel α) : World S C α :=
  { w with shared.queue := queue }

def setSink (w : World S C α) (sink : S) : World S C α := { w with sink }

def setCache (w : World S C α) (cache : C) : World S C α := { w with cache }

def setDraining (w : World S C α) (drainingCache : Bool) : World S C α := { w with drainingCache }

/-- The connection is up. -/
def up (w : World S C α) : World S C α := { w with connected := true, sinkDown := false }

/-- The connection is gone; an outage is reported once, a session closed on purpose is not one. -/
def down (w : World S C α) (e : SinkError) : World S C α :=
  { w with connected := false, sinkDown := w.sinkDown || !e.isClosed }

/-- The counters `report` sets. -/
def showStatus (w : World S C α) (pending : Nat) : World S C α :=
  { w with shared.counters.connected := w.connected, shared.counters.cachePending := pending }

def addWritten (w : World S C α) (n : Nat) : World S C α :=
  { w with shared.counters.written := w.shared.counters.written + n }

def addCached (w : World S C α) (n : Nat) : World S C α :=
  { w with shared.counters.cached := w.shared.counters.cached + n }

def addRecovered (w : World S C α) (n : Nat) : World S C α :=
  { w with shared.counters.cacheRecovered := w.shared.counters.cacheRecovered + n }

/-- A batch the cache did not take is counted dropped. -/
def drop (w : World S C α) (batch : List α) : World S C α :=
  { w with
    shared.counters.dropped := w.shared.counters.dropped + batch.length
    history.lost := w.history.lost ++ batch }

def noteDelivered (w : World S C α) (xs : List α) : World S C α :=
  { w with history.delivered := w.history.delivered ++ xs }

def noteRemoved (w : World S C α) (xs : List α) : World S C α :=
  { w with history.removed := w.history.removed ++ xs }

def noteReset (w : World S C α) : World S C α :=
  { w with history.resets := w.history.resets ++ [w.cache] }

end World

/-! ### The other tasks -/

/-- One step of another task. -/
def World.other (w : World S C α) : Other α → World S C α
  | .enqueue sample =>
    { w with
      shared := w.shared.enqueue sample
      history :=
        match w.shared.queue.trySend sample with
        | .ok _ => { w.history with accepted := w.history.accepted ++ [sample] }
        | .error .full => { w.history with refused := w.history.refused ++ [sample] }
        | .error .closed => w.history }
  | .stop => { w with stop.changed := true }
  | .abandon => { w with stop.dropped := true }
  | .hangUp => w.setQueue w.shared.queue.close

/-- The others take their next turn. -/
def World.turn (w : World S C α) : World S C α :=
  match w.turns with
  | [] => w
  | steps :: turns => steps.foldl World.other { w with turns }

def otherTasks : Run S C α Unit := modify World.turn

/-! ### The queue and the stop signal, as the worker sees them -/

/-- `rx.is_closed()`. -/
def isClosed : Run S C α Bool := do
  otherTasks
  return (← get).shared.queue.closed

/-- `rx.is_empty()`. -/
def isEmpty : Run S C α Bool := do
  otherTasks
  return (← get).shared.queue.buf.isEmpty

/-- `rx.close()`. -/
def close : Run S C α Unit := do
  otherTasks
  modify fun w => w.setQueue w.shared.queue.close

/-- `rx.try_recv()`, and `rx.recv()` once it need not wait. -/
def tryRecv : Run S C α (Option α) := do
  otherTasks
  let w ← get
  match w.shared.queue.pop with
  | none => return none
  | some (sample, queue) =>
    set (w.setQueue queue)
    return some sample

/-- Whether `stop.changed()` is ready; if it is, the value sent has now been seen. -/
def stopChanged : Run S C α Bool := do
  otherTasks
  let w ← get
  if w.stop.changed || w.stop.dropped then
    set { w with stop.changed := false }
    return true
  else return false

/-! ### The sink and the cache, as the worker calls them -/

def onSink {β : Type} (op : StateM S β) : Run S C α β := do
  let w ← get
  set (w.setSink (op.run w.sink).2)
  return (op.run w.sink).1

def onCache {β : Type} (op : StateM C β) : Run S C α β := do
  let w ← get
  set (w.setCache (op.run w.cache).2)
  return (op.run w.cache).1

variable [BatchSink S α] [FrameCache C α]

/-- `sink.write_batch`, with what it reports stored put on record. -/
def writeBatch (batch : List α) : Run S C α WriteResult := do
  let r ← onSink (BatchSink.writeBatch batch)
  modify fun w => w.noteDelivered (batch.take (r.delivered batch.length))
  return r

/-- `cache.remove`, with what it forgot put on record. -/
def removeCached (cached : List (Cached α)) : Run S C α (Except CacheError Unit) := do
  let r ← onCache (FrameCache.remove cached)
  if let .ok () := r then
    modify fun w => w.noteRemoved (cached.map Cached.sample)
  return r

/-- `cache.reset`, with the cache it found put on record. -/
def resetCache : Run S C α (Except CacheError Unit) := do
  modify World.noteReset
  onCache FrameCache.reset

/-! ### `Batcher` -/

/-- `report`: what the control socket shows. -/
def report : Run S C α Unit := do
  let pending ← onCache FrameCache.count
  modify fun w => w.showStatus (pending.toOption.getD 0)

/-- `written`: the sink has stored `n` frames. -/
def written (n : Nat) : Run S C α Unit :=
  modify fun w => w.addWritten n

/-- `queue_finished`: nothing more will ever be enqueued, and nothing is waiting. -/
def queueFinished : Run S C α Bool := do
  if ← isClosed then isEmpty else return false

/-- The blocking region of `cache_batch`: append, unless the cache is full. -/
def appendUnlessFull (batch : List α) : Run S C α (Except CacheError Nat) := do
  if ← onCache FrameCache.isFull then return .error ⟨"disk cache full"⟩
  else onCache (FrameCache.append batch)

/-- `cache_batch`: store a batch on disk, or count it dropped.  Returns how many were stored. -/
def cacheBatch (batch : List α) : Run S C α Nat := do
  match ← appendUnlessFull batch with
  | .ok written =>
    modify fun w => w.addCached written
    return written
  | .error _ =>
    modify fun w => w.drop batch
    return 0

/-- The loop of `take_queued`; `fuel` bounds the samples it can still find. -/
def takeQueuedLoop : Nat → Run S C α (List α)
  | 0 => return []
  | fuel + 1 => do
    match ← tryRecv with
    | none => return []
    | some sample => return sample :: (← takeQueuedLoop fuel)

/-- Samples in the queue, and enqueues still to come. -/
def World.inReach (w : World S C α) : Nat :=
  w.shared.queue.buf.length + w.turns.flatten.length

/-- `take_queued`: everything waiting in the queue. -/
def takeQueued : Run S C α (List α) := do
  takeQueuedLoop ((← get).inReach + 1)

/-- `chunks`, at most `fuel` of them. -/
def chunksLoop (n : Nat) : Nat → List α → List (List α)
  | 0, _ => []
  | _ + 1, [] => []
  | fuel + 1, x :: xs => (x :: xs).take n :: chunksLoop n fuel ((x :: xs).drop n)

/-- `chunks(n)` of a slice: runs of `n` samples, the last one shorter. -/
def chunks (n : Nat) (xs : List α) : List (List α) := chunksLoop n xs.length xs

/-- `cache_batch` on each chunk in turn, and how many were stored in all. -/
def cacheChunks : List (List α) → Run S C α Nat
  | [] => return 0
  | chunk :: rest => do
    let stored ← cacheBatch chunk
    return stored + (← cacheChunks rest)

/-- `drain_queue_to_cache`: empty the in-memory queue onto disk, in cache-sized batches. -/
def drainQueueToCache : Run S C α Unit := do
  let queued ← takeQueued
  let w ← get
  let _cached ← cacheChunks (chunks w.batchSize queued)

/-- `spill_if_queue_filling`: move frames to disk before the queue fills. -/
def spillIfQueueFilling : Run S C α Unit := do
  otherTasks
  let w ← get
  let (size, cap) := w.shared.depth
  if w.filling size cap then drainQueueToCache

/-- `wait_to_retry`: back off, or report that there is no longer any point. -/
def waitToRetry : Run S C α Bool := do
  if ← queueFinished then return false
  if ← stopChanged then
    close
    return false
  return true

/-- `fail`: close the sink, keep `batch`, empty the queue behind it and wait to retry.  A session
the far end closed keeps `batch` too, but reconnects at once. -/
def fail (e : SinkError) (batch : List α) : Run S C α Bool := do
  onSink BatchSink.close
  modify fun w => w.down e
  if !batch.isEmpty then
    let _ ← cacheBatch batch
  if e.isClosed then return true
  drainQueueToCache
  waitToRetry

/-- The `try_recv` loop of `next_batch`. -/
def fillBatch : Nat → Run S C α (List α)
  | 0 => return []
  | room + 1 => do
    match ← tryRecv with
    | none => return []
    | some sample => return sample :: (← fillBatch room)

/-- The `select!` of `next_batch`: a first frame, or nothing once the queue is closed or the flush
interval over.  Biased: the stop signal is looked at before the queue. -/
def firstFrame : Run S C α (Option α) := do
  if ← stopChanged then close
  tryRecv

/-- `next_batch`: wait for a first frame, then take whatever else is already there. -/
def nextBatch : Run S C α (List α) := do
  match ← firstFrame with
  | none => return []
  | some sample => return sample :: (← fillBatch ((← get).batchSize - 1))

/-- `drain_cache`: write one cache batch onward.  `true` means there may be more. -/
def drainCache : Run S C α (Except SinkError Bool) := do
  -- A count that fails is taken for one, and the read decides.
  let pending := (← onCache FrameCache.count).toOption.getD 1
  let w ← get
  if !w.drainingCache && pending == 0 then return .ok false
  match ← onCache (FrameCache.oldest w.batchSize) with
  | .error _ => return .ok false
  | .ok cached =>
    if cached.isEmpty then
      if (← get).drainingCache then
        modify fun w => w.setDraining false
        let _ ← resetCache
      return .ok false
    modify fun w => w.setDraining true
    let frames := cached.map Cached.sample
    let r ← writeBatch frames
    let delivered := r.delivered frames.length
    -- What the sink did not take stays cached, also when the write failed.
    let _ ← removeCached (cached.take delivered)
    written delivered
    modify fun w => w.addRecovered delivered
    match r with
    | .ok () => return .ok true
    | .error e => return .error e.cause

/-- The connect at the head of a pass, when the sink is not connected. -/
def connectIfDown : Run S C α SinkResult := do
  if (← get).connected then return .ok ()
  let r ← onSink BatchSink.connect
  if let .ok () := r then
    modify World.up
  return r

/-- What a pass does once the sink is up and the cache drained: `false` to stop. -/
def archiveBatch : Run S C α Bool := do
  let batch ← nextBatch
  if batch.isEmpty then
    -- Nothing queued, nothing cached, and nothing more coming.
    if ← queueFinished then return false
    match ← onSink BatchSink.keepAlive with
    | .error e => fail e []
    | .ok () => return true
  else
    match ← writeBatch batch with
    | .error e =>
      written e.delivered
      fail e.cause (batch.drop e.delivered)
    | .ok () =>
      written batch.length
      return true

/-- One pass of `run`'s loop: `false` is its `break`. -/
def pass : Run S C α Bool := do
  report
  spillIfQueueFilling
  match ← connectIfDown with
  | .error e => fail e []
  | .ok () =>
    match ← drainCache with
    | .error e => fail e []
    | .ok true => return true
    | .ok false => archiveBatch

/-- How many of `remaining` a shutdown gets to the sink, if it is there. -/
def flushToSink (remaining : List α) : Run S C α Nat := do
  if (← get).connected then
    return (← writeBatch remaining).delivered remaining.length
  else return 0

/-- `shutdown_flush`: everything still queued goes to the sink if it is there, and to disk if it
is not. -/
def shutdownFlush : Run S C α Unit := do
  let remaining ← takeQueued
  if !remaining.isEmpty then
    let flushed ← flushToSink remaining
    if 0 < flushed then modify fun w => w.addWritten flushed
    let unflushed := remaining.drop flushed
    if !unflushed.isEmpty then
      let _ ← cacheBatch unflushed
  onSink BatchSink.close

/-- `run`, for at most `fuel` passes of its loop: `true` once it has returned. -/
def run : Nat → Run S C α Bool
  | 0 => return false
  | fuel + 1 => do
    if ← pass then run fuel
    else
      shutdownFlush
      return true

end WireTap
