import Mathlib.Data.List.Basic

/-!
# Frame caches

`FrameCache`, the durable FIFO of frames waiting for the gateway, and what the batcher relies on in
one: `LawfulFrameCache` says what each operation does to the frames held, `AtomicFrameCache` that a
removal that fails forgets nothing, and `ReliableFrameCache` that reading the oldest frames and
forgetting them does not fail.
-/

namespace WireTap

/-- A frame in the cache, with whatever the store needs to find it again. -/
structure Cached (α : Type) where
  id : Nat
  sample : α
  deriving DecidableEq, Repr

/-- Why a cache operation failed.  Every caller logs it and carries on. -/
structure CacheError where
  why : String
  deriving DecidableEq, Repr

/-- A durable FIFO of frames.  As for a sink, the state decides the next answer; `isFull` asks the
file system, so it is not a function of the frames held. -/
class FrameCache (C : Type) (α : outParam Type) where
  append (frames : List α) : StateM C (Except CacheError Nat)
  oldest (limit : Nat) : StateM C (Except CacheError (List (Cached α)))
  remove (frames : List (Cached α)) : StateM C (Except CacheError Unit)
  count : StateM C (Except CacheError Nat)
  isFull : StateM C Bool
  reset : StateM C (Except CacheError Unit)

/-- What each operation does to the frames a cache holds, oldest first.  A cache is `Valid` while its
own books are in order, which a `reset` of a cache that still holds frames may end. -/
class LawfulFrameCache (C : Type) {α : outParam Type} [FrameCache C α] where
  Valid : C → Prop
  /-- The frames held, in id order. -/
  frames : C → List (Cached α)
  append_ok (xs : List α) (c c' : C) (n : Nat) :
    Valid c → (FrameCache.append xs).run c = (.ok n, c') →
      Valid c' ∧ n = xs.length ∧ ∃ new, new.map Cached.sample = xs ∧ frames c' = frames c ++ new
  append_error (xs : List α) (c c' : C) (e : CacheError) :
    Valid c → (FrameCache.append xs).run c = (.error e, c') → Valid c' ∧ frames c' = frames c
  oldest_ok (limit : Nat) (c c' : C) (cached : List (Cached α)) :
    Valid c → (FrameCache.oldest limit).run c = (.ok cached, c') →
      Valid c' ∧ cached = (frames c).take limit ∧ frames c' = frames c
  oldest_error (limit : Nat) (c c' : C) (e : CacheError) :
    Valid c → (FrameCache.oldest limit).run c = (.error e, c') → Valid c' ∧ frames c' = frames c
  remove_ok (k : Nat) (c c' : C) :
    Valid c → (FrameCache.remove ((frames c).take k)).run c = (.ok (), c') →
      Valid c' ∧ frames c' = (frames c).drop k
  count_frames (c : C) :
    Valid c → Valid (FrameCache.count.run c).2 ∧ frames (FrameCache.count.run c).2 = frames c
  isFull_frames (c : C) :
    Valid c → Valid (FrameCache.isFull.run c).2 ∧ frames (FrameCache.isFull.run c).2 = frames c
  /-- A reset of an empty cache, also one that fails partway, leaves an empty cache. -/
  reset_empty (c : C) :
    Valid c → frames c = [] →
      Valid (FrameCache.reset.run c).2 ∧ frames (FrameCache.reset.run c).2 = []

/-- A removal is one statement: if it fails, nothing is forgotten. -/
class AtomicFrameCache (C : Type) {α : outParam Type} [FrameCache C α] [LawfulFrameCache C] :
    Prop where
  remove_error (k : Nat) (c c' : C) (e : CacheError) :
    LawfulFrameCache.Valid c →
      (FrameCache.remove ((LawfulFrameCache.frames c).take k)).run c = (.error e, c') →
      LawfulFrameCache.Valid c' ∧ LawfulFrameCache.frames c' = LawfulFrameCache.frames c

/-- The oldest frames can be read while there are any, and up to `limit` of them forgotten. -/
class ReliableFrameCache (C : Type) {α : outParam Type} [FrameCache C α] [LawfulFrameCache C]
    (limit : Nat) : Prop where
  /-- The count is kept, not asked for, and it is right. -/
  count_ok (c : C) :
    LawfulFrameCache.Valid c →
      (FrameCache.count.run c).1 = .ok (LawfulFrameCache.frames c).length
  oldest_reads (n : Nat) (c : C) :
    LawfulFrameCache.Valid c → LawfulFrameCache.frames c ≠ [] →
      ∃ cached, ((FrameCache.oldest n).run c).1 = .ok cached
  remove_removes (k : Nat) (c : C) :
    LawfulFrameCache.Valid c → k ≤ limit →
      ((FrameCache.remove ((LawfulFrameCache.frames c).take k)).run c).1 = .ok ()

end WireTap
