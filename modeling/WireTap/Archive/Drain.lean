import Mathlib.Algebra.Group.Nat.Defs
import WireTap.Archive.Batcher
import WireTap.Cache.Sqlite

/-!
# A drain of the disk cache

`drain_cache` as the worker repeats it, one pass after another while a pass says there may be more.
Between two passes the worker may also spill the queue into the cache; a drain here is of what the
cache holds when it starts, rows that this build cannot read among it.

`oldest` allocates for the whole of its limit before it reads a row, and a `Vec` refuses to be asked
for more than `isize::MAX` bytes by panicking, which ends the worker.
-/

namespace WireTap

variable {S α β : Type} {format : RowFormat β α} [BatchSink S α]

/-- `Vec::with_capacity(limit)` panics: an id and a pointer for each frame, in a 64-bit `isize`. -/
def capacityOverflow (limit : Nat) : Bool := decide (2 ^ 63 ≤ 16 * limit)

namespace World

/-- `drain_cache` reads the cache: a drain is under way, or there is something to drain. -/
def readsCache (w : World S (RowCache format) α) : Bool := w.drainingCache || w.cache.file.rows != 0

/-- One `drain_cache`: what it returns and what it leaves, or nothing if it panics. -/
def drainPass (w : World S (RowCache format) α) :
    Option (Except SinkError Bool × World S (RowCache format) α) :=
  if w.readsCache && capacityOverflow w.batchSize then none
  else some (drainCache.run w)

/-- `drain_cache` until a pass says that there is no more, or fails: what that leaves, if `fuel`
passes are enough. -/
def drain : Nat → World S (RowCache format) α → Option (World S (RowCache format) α)
  | 0, _ => none
  | fuel + 1, w =>
    match w.drainPass with
    | none => none
    | some (.ok true, w') => drain fuel w'
    | some (_, w') => some w'

end World

end WireTap
