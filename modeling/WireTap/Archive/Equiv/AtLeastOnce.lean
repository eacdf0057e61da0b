import Mathlib
import WireTap.Lib.Split
import WireTap.Lib.AtLeastOnce
import WireTap.Lib.Triple
import WireTap.Archive.Batcher
import WireTap.Archive.Equiv.Worker
import WireTap.Archive.Equiv.Batcher

/-!
# The archive worker over a cache that fails

With a cache that need not read what it holds nor forget what was delivered, frames may be delivered
twice and out of order, but none is lost.  The invariant is `Accounted start live w`: of everything
the cache held at the start and everything enqueued since, each sample was delivered and then left
the cache, or was delivered straight from the queue (`direct`), or is still somewhere, or was counted
lost; and no delivery stands for two of them.
-/

namespace WireTap

variable {S C α : Type} [BatchSink S α] [FrameCache C α] [LawfulFrameCache C]

open LawfulFrameCache (Valid frames)

/-- Every sample the cache held at the start or that was enqueued since is accounted for, `live`
being in the worker's hand. -/
structure Accounted (log : SinkLog S) (start live : List α) (w : World S C α) : Prop where
  valid : Valid w.cache
  placed : ∃ direct, AtLeastOnce (start ++ w.history.accepted) w.history.delivered
    (w.history.removed ++ direct) (w.cachedSamples ++ live ++ w.shared.queue.buf ++ w.history.lost)
  removed : w.history.removed.Sublist w.history.delivered
  resets : ∀ c ∈ w.history.resets, frames c = []
  sink : log.holds w.sink w.history.delivered

namespace Accounted

variable {log : SinkLog S} {start live xs : List α} {w w' : World S C α}

theorem took (h : Accounted log start live w) (ht : Took w w' xs) :
    Accounted log start (live ++ xs) w' := by
  obtain ⟨new, hacc, -, hbuf, -⟩ := ht.arrived
  obtain ⟨direct, hplaced⟩ := h.placed
  have hheld : w'.cachedSamples = w.cachedSamples := by
    unfold World.cachedSamples
    rw [ht.cache]
  refine ⟨?_, ⟨direct, ?_⟩, ?_, ?_, ?_⟩
  · rw [ht.cache]
    exact h.valid
  · rw [hacc, ht.delivered, ht.removed, hheld, ht.lost, ← List.append_assoc start]
    refine hplaced.arrive ?_
    -- What arrived is behind what was queued, and what was taken is in hand.
    classical
    refine List.perm_iff_count.mpr fun x => ?_
    have hcount := congrArg (List.count x) hbuf
    simp only [List.count_append] at hcount ⊢
    omega
  · rw [ht.removed, ht.delivered]
    exact h.removed
  · rw [ht.resets]
    exact h.resets
  · rw [ht.sink, ht.delivered]
    exact h.sink

/-- The whole hand is handed to the cache. -/
theorem spilled (h : Accounted log start live w) (hs : Spilled w w' live) :
    Accounted log start [] w' := by
  obtain ⟨hv, kept, lost, hsplit, hheld, -, hlost, -⟩ := hs.outcome h.valid
  obtain ⟨direct, hplaced⟩ := h.placed
  refine ⟨hv, ⟨direct, ?_⟩, ?_, ?_, ?_⟩
  · rw [hs.accepted, hs.delivered, hs.removed, hheld, hlost, hs.queue, List.append_nil]
    refine hplaced.moved ?_
    -- What was handed over is cached or lost.
    classical
    refine List.perm_iff_count.mpr fun x => ?_
    have hcount := List.perm_iff_count.mp hsplit.perm x
    simp only [List.count_append] at hcount ⊢
    omega
  · rw [hs.removed, hs.delivered]
    exact h.removed
  · rw [hs.resets]
    exact h.resets
  · rw [hs.sink, hs.delivered]
    exact h.sink

theorem setSink {s : S} (h : Accounted log start live w)
    (hs : log.holds s w.history.delivered) : Accounted log start live (w.setSink s) :=
  { h with sink := hs }

/-- A write of the hand's first `n` samples. -/
theorem deliver {s : S} {n : Nat} (h : Accounted log start live w)
    (hs : log.holds s (w.history.delivered ++ live.take n)) :
    Accounted log start (live.drop n)
      (((w.setSink s).noteDelivered (live.take n)).addWritten n) := by
  obtain ⟨direct, hplaced⟩ := h.placed
  refine { h with
    placed := ⟨direct ++ live.take n, ?_⟩,
    removed := h.removed.trans (List.sublist_append_left _ _), sink := hs }
  change AtLeastOnce _ (w.history.delivered ++ live.take n)
    (w.history.removed ++ (direct ++ live.take n))
    (w.cachedSamples ++ live.drop n ++ w.shared.queue.buf ++ w.history.lost)
  refine hplaced.deliver (by rw [List.append_assoc]) ?_
  classical
  refine List.perm_iff_count.mpr fun x => ?_
  have hcount := congrArg (List.count x) (List.take_append_drop n live)
  simp only [List.count_append] at hcount ⊢
  omega

/-- A write of the cache's first `n` frames, which it then forgets. -/
theorem recover {s : S} {c : C} {n : Nat} (h : Accounted log start [] w)
    (hc : Valid c ∧ frames c = (frames w.cache).drop n)
    (hs : log.holds s (w.history.delivered ++ w.cachedSamples.take n)) :
    Accounted log start []
      ((((((w.setSink s).noteDelivered (w.cachedSamples.take n)).setCache c).noteRemoved
        (w.cachedSamples.take n)).addWritten n).addRecovered n) := by
  have hheld : (w.setCache c).cachedSamples = w.cachedSamples.drop n := by
    simp only [World.cachedSamples, World.setCache, hc.2, List.map_drop]
  obtain ⟨direct, hplaced⟩ := h.placed
  refine { h with
    valid := hc.1, placed := ⟨direct, ?_⟩, removed := h.removed.append (List.Sublist.refl _),
    sink := hs }
  change AtLeastOnce _ (w.history.delivered ++ w.cachedSamples.take n)
    (w.history.removed ++ w.cachedSamples.take n ++ direct)
    ((w.setCache c).cachedSamples ++ [] ++ w.shared.queue.buf ++ w.history.lost)
  rw [hheld]
  refine hplaced.deliver ?_ ?_
  · rw [List.append_assoc, List.append_assoc]
    exact List.perm_append_comm.append_left w.history.removed
  · rw [← List.append_assoc, ← List.append_assoc, ← List.append_assoc, List.take_append_drop]

/-- A write of frames that the cache goes on holding. -/
theorem deliverAgain {s : S} {c : C} {n : Nat} (h : Accounted log start [] w)
    (hc : Valid c ∧ frames c = frames w.cache)
    (hs : log.holds s (w.history.delivered ++ w.cachedSamples.take n)) :
    Accounted log start []
      (((((w.setSink s).noteDelivered (w.cachedSamples.take n)).setCache c).addWritten
        n).addRecovered n) := by
  have hheld : (w.setCache c).cachedSamples = w.cachedSamples := by
    simp only [World.cachedSamples, World.setCache, hc.2]
  obtain ⟨direct, hplaced⟩ := h.placed
  refine { h with
    valid := hc.1, placed := ⟨direct, ?_⟩,
    removed := h.removed.trans (List.sublist_append_left _ _), sink := hs }
  change AtLeastOnce _ (w.history.delivered ++ w.cachedSamples.take n)
    (w.history.removed ++ direct)
    ((w.setCache c).cachedSamples ++ [] ++ w.shared.queue.buf ++ w.history.lost)
  rw [hheld]
  exact hplaced.again

/-- The loop keeps it, whatever the cache fails to do. -/
theorem kept [LawfulBatchSink S α] [AtomicFrameCache C] (log : SinkLog S) (start : List α) :
    Upheld (S := S) (C := C) False (Accounted log start) where
  reliable h := h.elim
  valid h := h.valid
  took h ht := h.took ht
  spilled h hs := h.spilled hs
  showStatus _ h := { h with }
  setDraining _ h := { h with }
  connected h := h.setSink (log.connect _ _ h.sink)
  up h := { h with }
  keptAlive h := h.setSink (log.keepAlive _ _ h.sink)
  closed h := h.setSink (log.close _ _ h.sink)
  down _ h := { h with }
  wrote {live w r s n} h _ hwrite hn := by
    subst hn
    have hlog := log.writeBatch w.sink _ live h.sink
    rw [hwrite] at hlog
    obtain ⟨direct, hplaced⟩ := h.placed
    exact h.deliver hlog
  forgot {w batch r s c n} h hwrite hbatch hn _ hremove := by
    have hc := LawfulFrameCache.remove_ok n w.cache c h.valid hremove
    have hlog := log.writeBatch w.sink _ batch h.sink
    rw [hwrite, hbatch] at hlog
    exact h.recover hc hlog
  stayed {w batch r s c n e} h hwrite hbatch _ _ hremove := by
    have hc := AtomicFrameCache.remove_error n w.cache c e h.valid hremove
    have hlog := log.writeBatch w.sink _ batch h.sink
    rw [hwrite, hbatch] at hlog
    exact h.deliverAgain hc hlog
  noteReset {w} h hempty := by
    refine { h with resets := ?_ }
    intro c hmem
    rcases List.mem_append.mp hmem with hold | hnew
    · exact h.resets c hold
    · rw [List.mem_singleton.mp hnew, hempty]

/-- A worker just made. -/
theorem init (log : SinkLog S) (sink : S) (cache : C) (batching : Batching)
    (turns : List (List (Other α))) (hv : Valid cache) (hlog : log.holds sink []) :
    Accounted log ((frames cache).map Cached.sample) []
      (World.init sink cache batching turns) where
  valid := hv
  placed := by
    refine ⟨[], ?_⟩
    have hstart := AtLeastOnce.start ((frames cache).map Cached.sample)
    simpa [World.init, channel, World.cachedSamples] using hstart
  removed := List.Sublist.refl _
  resets := by
    intro c hc
    cases hc
  sink := hlog

/-- Every sample is accounted for after any number of passes, and once `run` has returned nothing is
left in the queue. -/
theorem run [LawfulBatchSink S α] [AtomicFrameCache C] {batching : Batching} (log : SinkLog S)
    {sink : S} {cache : C} {turns : List (List (Other α))} {fuel : Nat} {returned : Bool}
    {w : World S C α} (hv : Valid cache) (hlog : log.holds sink [])
    (hrun : (run fuel).run (World.init sink cache batching turns) = (returned, w)) :
    Accounted log ((frames cache).map Cached.sample) [] w ∧
      (returned = true → w.shared.queue.buf = []) := by
  have hstart := Accounted.init log sink cache batching turns hv hlog
  have hend := run_of_triple (run_spec (Accounted.kept log _) fuel) hstart hrun
  exact hend

end Accounted

end WireTap
