import Mathlib
import WireTap.Lib.Split
import WireTap.Lib.Triple
import WireTap.Archive.Batcher
import WireTap.Archive.Equiv.Worker
import WireTap.Cache.Equiv.Sqlite

/-!
# The archive worker neither loses nor reorders a frame

The invariant is `Balanced start live w`: everything the cache held at the start and everything
enqueued since is split into what is kept and what `cache_batch` dropped, and what is kept is, in
order, what the sink has, what the cache holds, the batch in the worker's hand (`live`) and what is
queued.  The counters say the same numbers.  `Balanced.kept` says that the worker's loop keeps it,
while the cache can be read and forgets what was delivered.
-/

namespace WireTap

variable {S C α : Type}

/-! ### The invariant -/

/-- A relation between a sink's state and what it has reported delivered, kept by each of its
operations. -/
structure SinkLog (S : Type) {α : Type} [BatchSink S α] where
  holds : S → List α → Prop
  connect (s : S) (d : List α) : holds s d → holds (BatchSink.connect.run s).2 d
  keepAlive (s : S) (d : List α) : holds s d → holds (BatchSink.keepAlive.run s).2 d
  close (s : S) (d : List α) : holds s d → holds (BatchSink.close.run s).2 d
  writeBatch (s : S) (d batch : List α) : holds s d →
    holds ((BatchSink.writeBatch batch).run s).2
      (d ++ batch.take (((BatchSink.writeBatch batch).run s).1.delivered batch.length))

/-- No relation at all. -/
def SinkLog.any (S : Type) {α : Type} [BatchSink S α] : SinkLog S where
  holds _ _ := True
  connect _ _ h := h
  keepAlive _ _ h := h
  close _ _ h := h
  writeBatch _ _ _ h := h

section Invariant

variable [BatchSink S α] [FrameCache C α] [LawfulFrameCache C]

open LawfulFrameCache (Valid frames)

/-- Every sample the cache held at the start or that was enqueued since is accounted for, `live`
being in the worker's hand; `size` is the batch size the worker was given. -/
structure Balanced (log : SinkLog S) (size : Nat) (start live : List α) (w : World S C α) :
    Prop where
  batchSize : w.batchSize = size
  valid : Valid w.cache
  split : Split (start ++ w.history.accepted)
    (w.history.delivered ++ w.cachedSamples ++ live ++ w.shared.queue.buf) w.history.lost
  enqueued : w.shared.counters.enqueued = w.history.accepted.length
  written : w.shared.counters.written = w.history.delivered.length
  dropped : w.shared.counters.dropped = w.history.refused.length + w.history.lost.length
  cached : w.shared.counters.cached + start.length =
    w.shared.counters.cacheRecovered + w.cachedSamples.length
  removed : w.history.removed.Sublist w.history.delivered
  resets : ∀ c ∈ w.history.resets, frames c = []
  sink : log.holds w.sink w.history.delivered

namespace Balanced

variable {log : SinkLog S} {size : Nat} {start live xs : List α} {w w' : World S C α}

theorem took (h : Balanced log size start live w) (ht : Took w w' xs) :
    Balanced log size start (live ++ xs) w' := by
  obtain ⟨new, hacc, henq, hbuf, -⟩ := ht.arrived
  obtain ⟨n, href, hdrop⟩ := ht.refused
  have hheld : w'.cachedSamples = w.cachedSamples := by
    unfold World.cachedSamples
    rw [ht.cache]
  constructor
  · rw [ht.batchSize, h.batchSize]
  · rw [ht.cache]
    exact h.valid
  · rw [hacc, ht.delivered, hheld, ht.lost, ← List.append_assoc start]
    have hsplit := h.split.append (Split.all new)
    rw [List.append_nil, List.append_assoc _ w.shared.queue.buf, ← hbuf] at hsplit
    simpa only [List.append_assoc] using hsplit
  · rw [henq, hacc, h.enqueued, List.length_append]
  · rw [ht.written, ht.delivered, h.written]
  · rw [hdrop, href, ht.lost, h.dropped]
    omega
  · rw [ht.cached, ht.cacheRecovered, hheld, h.cached]
  · rw [ht.removed, ht.delivered]
    exact h.removed
  · rw [ht.resets]
    exact h.resets
  · rw [ht.sink, ht.delivered]
    exact h.sink

/-- The whole hand is handed to the cache. -/
theorem spilled (h : Balanced log size start live w) (hs : Spilled w w' live) :
    Balanced log size start [] w' := by
  obtain ⟨hv, kept, lost, hsplit, hheld, hcached, hlost, hdropped⟩ := hs.outcome h.valid
  constructor
  · rw [hs.batchSize, h.batchSize]
  · exact hv
  · rw [hs.accepted, hs.delivered, hheld, hlost, hs.queue]
    -- What is cached stays where the batch stood, and what is dropped leaves the split.
    have hnarrow : Split (start ++ w.history.accepted)
        ((w.history.delivered ++ w.cachedSamples) ++ live ++ w.shared.queue.buf)
        w.history.lost := h.split
    simpa only [List.append_assoc, List.append_nil] using hnarrow.narrow hsplit
  · rw [hs.enqueued, hs.accepted, h.enqueued]
  · rw [hs.written, hs.delivered, h.written]
  · rw [hdropped, hs.refused, hlost, h.dropped, List.length_append, Nat.add_assoc]
  · have hc := h.cached
    rw [hcached, hs.cacheRecovered, hheld, List.length_append]
    omega
  · rw [hs.removed, hs.delivered]
    exact h.removed
  · rw [hs.resets]
    exact h.resets
  · rw [hs.sink, hs.delivered]
    exact h.sink

theorem setSink {s : S} (h : Balanced log size start live w)
    (hs : log.holds s w.history.delivered) : Balanced log size start live (w.setSink s) :=
  { h with sink := hs }

/-- A write of the hand's first `n` samples, with nothing older in the cache. -/
theorem deliver {s : S} {n : Nat} (h : Balanced log size start live w)
    (hempty : frames w.cache = []) (hn : n ≤ live.length)
    (hs : log.holds s (w.history.delivered ++ live.take n)) :
    Balanced log size start (live.drop n)
      (((w.setSink s).noteDelivered (live.take n)).addWritten n) := by
  have hheld : w.cachedSamples = [] := by rw [World.cachedSamples, hempty, List.map_nil]
  refine { h with split := ?_, written := ?_, removed := ?_, sink := hs }
  · have hsplit := h.split
    rw [hheld, List.append_nil] at hsplit
    change Split _ (w.history.delivered ++ live.take n ++ w.cachedSamples ++ live.drop n ++
      w.shared.queue.buf) _
    rw [hheld, List.append_nil, List.append_assoc _ (live.take n), List.take_append_drop]
    exact hsplit
  · change w.shared.counters.written + n = (w.history.delivered ++ live.take n).length
    rw [List.length_append, List.length_take, Nat.min_eq_left hn, h.written]
  · exact h.removed.trans (List.sublist_append_left _ _)

/-- A write of the cache's first `n` frames, which it then forgets. -/
theorem recover {s : S} {c : C} {n : Nat} (h : Balanced log size start [] w)
    (hn : n ≤ (frames w.cache).length) (hc : Valid c ∧ frames c = (frames w.cache).drop n)
    (hs : log.holds s (w.history.delivered ++ w.cachedSamples.take n)) :
    Balanced log size start []
      ((((((w.setSink s).noteDelivered (w.cachedSamples.take n)).setCache c).noteRemoved
        (w.cachedSamples.take n)).addWritten n).addRecovered n) := by
  have hheld : (w.setCache c).cachedSamples = w.cachedSamples.drop n := by
    simp only [World.cachedSamples, World.setCache, hc.2, List.map_drop]
  have hlen : w.cachedSamples.length = (frames w.cache).length := by
    rw [World.cachedSamples, List.length_map]
  refine { h with
    valid := hc.1, split := ?_, written := ?_, cached := ?_, removed := ?_, sink := hs }
  · change Split _ (w.history.delivered ++ w.cachedSamples.take n ++
      (w.setCache c).cachedSamples ++ [] ++ w.shared.queue.buf) _
    rw [hheld, List.append_assoc _ (w.cachedSamples.take n), List.take_append_drop]
    exact h.split
  · change w.shared.counters.written + n =
      (w.history.delivered ++ w.cachedSamples.take n).length
    rw [List.length_append, List.length_take, hlen, Nat.min_eq_left hn, h.written]
  · change w.shared.counters.cached + start.length =
      w.shared.counters.cacheRecovered + n + (w.setCache c).cachedSamples.length
    rw [hheld, List.length_drop, h.cached]
    omega
  · exact h.removed.append (List.Sublist.refl _)

/-- The loop keeps it, over a cache that reads and forgets what it is asked to. -/
theorem kept [LawfulBatchSink S α] [ReliableFrameCache C size] (log : SinkLog S)
    (start : List α) : Upheld (S := S) (C := C) True (Balanced log size start) where
  reliable _ := ⟨size, inferInstance⟩
  valid h := h.valid
  took h ht := h.took ht
  spilled h hs := h.spilled hs
  showStatus _ h := { h with }
  setDraining _ h := { h with }
  connected h := h.setSink (log.connect _ _ h.sink)
  up h := { h with }
  keptAlive h := h.setSink (log.keepAlive _ _ h.sink)
  closed h := h.setSink (log.close _ _ h.sink)
  down _ h := { h with }
  wrote {live w r s n} h hempty hwrite hn := by
    subst hn
    have hle := LawfulBatchSink.delivered_le live w.sink
    have hlog := log.writeBatch w.sink _ live h.sink
    rw [hwrite] at hle hlog
    exact h.deliver (hempty trivial) hle hlog
  forgot {w batch r s c n} h hwrite hbatch hn _ hremove := by
    have hc := LawfulFrameCache.remove_ok n w.cache c h.valid hremove
    have hlog := log.writeBatch w.sink _ batch h.sink
    rw [hwrite, hbatch] at hlog
    exact h.recover hn hc hlog
  stayed {w batch r s c n e} h _ _ _ hn hremove := by
    -- A reliable cache removes it, so nothing delivered is read again.
    have hreliable : ReliableFrameCache C size := inferInstance
    have hok := hreliable.remove_removes n w.cache h.valid (h.batchSize ▸ hn)
    rw [hremove] at hok
    cases hok
  noteReset {w} h hempty := by
    refine { h with resets := ?_ }
    intro c hmem
    rcases List.mem_append.mp hmem with hold | hnew
    · exact h.resets c hold
    · rw [List.mem_singleton.mp hnew, hempty]

end Balanced

/-! ### Whole runs -/

/-- A worker just made, with what the other tasks are going to do. -/
def World.init (sink : S) (cache : C) (batching : Batching) (turns : List (List (Other α))) :
    World S C α :=
  { channel sink cache batching with turns }

theorem Balanced.init (log : SinkLog S) (sink : S) (cache : C) (batching : Batching)
    (turns : List (List (Other α))) (hv : Valid cache) (hlog : log.holds sink []) :
    Balanced log (max batching.size 1) ((frames cache).map Cached.sample) []
      (World.init sink cache batching turns) where
  batchSize := rfl
  valid := hv
  split := by
    have hall := Split.all ((frames cache).map Cached.sample)
    simpa [World.init, channel, World.cachedSamples] using hall
  enqueued := rfl
  written := rfl
  dropped := rfl
  cached := rfl
  removed := List.Sublist.refl _
  resets := by
    intro c hc
    cases hc
  sink := hlog

variable [LawfulBatchSink S α]

theorem Balanced.run {batching : Batching} [ReliableFrameCache C (max batching.size 1)]
    (log : SinkLog S) {sink : S} {cache : C} {turns : List (List (Other α))} {fuel : Nat}
    {returned : Bool} {w : World S C α} (hv : Valid cache)
    (hlog : log.holds sink [])
    (hrun : (run fuel).run (World.init sink cache batching turns) = (returned, w)) :
    Balanced log (max batching.size 1) ((frames cache).map Cached.sample) [] w ∧
      (returned = true → w.shared.queue.buf = []) := by
  have hkept : Upheld True
      (Balanced log (max batching.size 1) ((frames cache).map Cached.sample) (C := C)) :=
    Balanced.kept log ((frames cache).map Cached.sample)
  have hstart := Balanced.init log sink cache batching turns hv hlog
  have hend := run_of_triple (run_spec hkept fuel) hstart hrun
  exact hend

end Invariant

section Outage

open LawfulFrameCache (Valid frames)

/-- A gateway that fails after the first of two frames. -/
def outageSink : ScriptedSink Nat :=
  { writes := [.ok (), .error ⟨1, .failed "connection reset"⟩] }

/-- A cache that holds one frame, and is full the second time it is asked. -/
def outageCache : SqliteCache Nat :=
  .opened (Table.empty.insert [10]) 1000 { sizes := [0, 2000] }

def outageBatching : Batching where
  size := 2
  queueSize := 2
  filling := fun _ _ => false

/-- Three frames for a queue of two, one more while the outage is dealt with, then a stop. -/
def outageTurns : List (List (Other Nat)) :=
  [[.enqueue 20, .enqueue 21, .enqueue 22], [], [], [], [], [.enqueue 23], [], [], [.stop]]

def outage : Bool × World (ScriptedSink Nat) (SqliteCache Nat) Nat :=
  (run 8).run (World.init outageSink outageCache outageBatching outageTurns)

theorem outageCache_valid : Valid outageCache := SqliteCache.opened_sound _ _ rfl rfl

theorem outage_returned : outage = (true, outage.2) := by
  have hreturned : outage.1 = true := by decide +kernel
  rw [← Prod.mk.eta (p := outage), hreturned]

instance : ReliableFrameCache (SqliteCache Nat) (max outageBatching.size 1) :=
  SqliteCache.reliable (by decide)

end Outage

section Runs

variable [BatchSink S α] [LawfulBatchSink S α] [FrameCache C α] [LawfulFrameCache C]

open LawfulFrameCache (Valid frames)

/-- No silent loss.  When `run` returns, every sample the cache held at the start and every sample
whose `try_send` succeeded is in exactly one place: reported delivered by the sink, held by the
cache, or in a batch `cache_batch` counted dropped; and the counters add up to that. -/
theorem run_conserves {batching : Batching} [ReliableFrameCache C (max batching.size 1)] (sink : S)
    (cache : C) (turns : List (List (Other α))) (fuel : Nat) (w : World S C α)
    (hv : Valid cache)
    (hrun : (run fuel).run (World.init sink cache batching turns) = (true, w)) :
    (w.history.delivered ++ w.cachedSamples ++ w.history.lost).Perm
        ((frames cache).map Cached.sample ++ w.history.accepted) ∧
      w.shared.counters.enqueued + (frames cache).length =
        w.shared.counters.written + (frames w.cache).length + w.history.lost.length ∧
      w.shared.counters.cached + (frames cache).length =
        w.shared.counters.cacheRecovered + (frames w.cache).length ∧
      w.shared.counters.enqueued = w.history.accepted.length ∧
      w.shared.counters.written = w.history.delivered.length ∧
      w.shared.counters.dropped = w.history.refused.length + w.history.lost.length := by
  obtain ⟨hb, hdone⟩ := Balanced.run (SinkLog.any S) hv trivial hrun
  have hsplit := hb.split
  rw [hdone rfl, List.append_nil, List.append_nil] at hsplit
  have hlen := hsplit.length_eq
  have hcached := hb.cached
  simp only [List.length_append, World.cachedSamples, List.length_map] at hlen hcached
  refine ⟨hsplit.perm, ?_, hcached, hb.enqueued, hb.written, hb.dropped⟩
  rw [hb.enqueued, hb.written]
  omega

/-- A frame in each place: `20` delivered, `21` cached, `23` dropped, `22` never taken. -/
theorem run_conserves_outage :
    outage.2.history.delivered = [10, 20] ∧ outage.2.cachedSamples = [21] ∧
      outage.2.history.lost = [23] ∧ outage.2.history.refused = [22] ∧
      (outage.2.history.delivered ++ outage.2.cachedSamples ++ outage.2.history.lost).Perm
        ((frames outageCache).map Cached.sample ++ outage.2.history.accepted) := by
  refine ⟨by decide +kernel, by decide +kernel, by decide +kernel, by decide +kernel, ?_⟩
  exact (run_conserves outageSink outageCache outageTurns 8 outage.2 outageCache_valid
    outage_returned).1

/-- FIFO across outages.  However far `run` has come, what the sink reported delivered is, in order
and without repetition, part of what the cache held at the start followed by what was enqueued; and
the cache was only ever reset while it held no frame. -/
theorem run_fifo {batching : Batching} [ReliableFrameCache C (max batching.size 1)] (sink : S)
    (cache : C) (turns : List (List (Other α))) (fuel : Nat) (returned : Bool) (w : World S C α)
    (hv : Valid cache)
    (hrun : (run fuel).run (World.init sink cache batching turns) = (returned, w)) :
    w.history.delivered.Sublist ((frames cache).map Cached.sample ++ w.history.accepted) ∧
      (((frames cache).map Cached.sample ++ w.history.accepted).Nodup →
        w.history.delivered.Nodup) ∧
      ∀ c ∈ w.history.resets, frames c = [] := by
  obtain ⟨hb, -⟩ := Balanced.run (SinkLog.any S) hv trivial hrun
  have hsub : w.history.delivered.Sublist
      ((frames cache).map Cached.sample ++ w.history.accepted) := by
    refine List.Sublist.trans ?_ hb.split.sublist
    simp only [List.append_assoc]
    exact List.sublist_append_left _ _
  exact ⟨hsub, hsub.nodup, hb.resets⟩

theorem run_fifo_outage :
    outage.2.history.resets.length = 1 ∧
      outage.2.history.delivered.Sublist
        ((frames outageCache).map Cached.sample ++ outage.2.history.accepted) := by
  refine ⟨by decide +kernel, ?_⟩
  exact (run_fifo outageSink outageCache outageTurns 8 true outage.2 outageCache_valid
    outage_returned).1

end Runs

end WireTap
