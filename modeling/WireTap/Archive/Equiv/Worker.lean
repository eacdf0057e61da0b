import Mathlib
import WireTap.Lib.Split
import WireTap.Lib.Triple
import WireTap.Archive.Batcher
import WireTap.Cache.FrameCache

/-!
# The archive worker's loop

Each operation has one specification, from which the next one up is proved: `Took` is all that can
happen on the queue side (the other tasks' turns included), `Spilled` what `cache_batch` and its
callers do.  `Upheld` is what an invariant of the worker has to survive, and `drainCache_spec`,
`archiveBatch_spec`, `pass_spec` and `run_spec` carry any such invariant through the loop.
-/

namespace WireTap

open Std.Do

set_option mvcgen.warning false

variable {S C α : Type}

/-! ### The queue side -/

/-- `w'` is `w` after turns of the other tasks and operations of the worker on its queue and stop
signal that took `taken` off the queue. -/
structure Took (w w' : World S C α) (taken : List α) : Prop where
  sink : w'.sink = w.sink
  cache : w'.cache = w.cache
  connected : w'.connected = w.connected
  drainingCache : w'.drainingCache = w.drainingCache
  batchSize : w'.batchSize = w.batchSize
  written : w'.shared.counters.written = w.shared.counters.written
  cached : w'.shared.counters.cached = w.shared.counters.cached
  cacheRecovered : w'.shared.counters.cacheRecovered = w.shared.counters.cacheRecovered
  delivered : w'.history.delivered = w.history.delivered
  lost : w'.history.lost = w.history.lost
  removed : w'.history.removed = w.history.removed
  resets : w'.history.resets = w.history.resets
  /-- What arrived is behind what was queued; nothing arrives at a closed queue. -/
  arrived : ∃ new, w'.history.accepted = w.history.accepted ++ new ∧
    w'.shared.counters.enqueued = w.shared.counters.enqueued + new.length ∧
    taken ++ w'.shared.queue.buf = w.shared.queue.buf ++ new ∧
    (w.shared.queue.closed = true → w'.shared.queue.closed = true ∧ new = [])
  refused : ∃ n, w'.history.refused.length = w.history.refused.length + n ∧
    w'.shared.counters.dropped = w.shared.counters.dropped + n
  /-- What can still be found in the queue only gets less. -/
  inReach : w'.inReach + taken.length ≤ w.inReach

/-- The worker may stop: nothing more can arrive, and either nothing is queued or there is no sink
to write it to. -/
def World.MayStop (w : World S C α) : Prop :=
  w.shared.queue.closed = true ∧ (w.connected = false ∨ w.shared.queue.buf = [])

namespace Took

variable {w w₁ w₂ w₃ : World S C α} {xs ys : List α}

theorem refl (w : World S C α) : Took w w [] where
  sink := rfl
  cache := rfl
  connected := rfl
  drainingCache := rfl
  batchSize := rfl
  written := rfl
  cached := rfl
  cacheRecovered := rfl
  delivered := rfl
  lost := rfl
  removed := rfl
  resets := rfl
  arrived := ⟨[], by simp⟩
  refused := ⟨0, by simp⟩
  inReach := by simp

theorem trans (h : Took w₁ w₂ xs) (h' : Took w₂ w₃ ys) : Took w₁ w₃ (xs ++ ys) where
  sink := h'.sink.trans h.sink
  cache := h'.cache.trans h.cache
  connected := h'.connected.trans h.connected
  drainingCache := h'.drainingCache.trans h.drainingCache
  batchSize := h'.batchSize.trans h.batchSize
  written := h'.written.trans h.written
  cached := h'.cached.trans h.cached
  cacheRecovered := h'.cacheRecovered.trans h.cacheRecovered
  delivered := h'.delivered.trans h.delivered
  lost := h'.lost.trans h.lost
  removed := h'.removed.trans h.removed
  resets := h'.resets.trans h.resets
  arrived := by
    obtain ⟨new, hacc, henq, hbuf, hclosed⟩ := h.arrived
    obtain ⟨new', hacc', henq', hbuf', hclosed'⟩ := h'.arrived
    refine ⟨new ++ new', ?_, ?_, ?_, ?_⟩
    · rw [hacc', hacc, List.append_assoc]
    · rw [henq', henq, List.length_append, Nat.add_assoc]
    · rw [List.append_assoc, hbuf', ← List.append_assoc, hbuf, List.append_assoc]
    · intro hc
      obtain ⟨hc₂, rfl⟩ := hclosed hc
      obtain ⟨hc₃, rfl⟩ := hclosed' hc₂
      exact ⟨hc₃, rfl⟩
  refused := by
    obtain ⟨n, hlen, hdrop⟩ := h.refused
    obtain ⟨n', hlen', hdrop'⟩ := h'.refused
    exact ⟨n + n', by omega, by omega⟩
  inReach := by
    have h₁ := h.inReach
    have h₂ := h'.inReach
    rw [List.length_append]
    omega

/-- A closed queue stays closed, and only the worker takes from it. -/
theorem of_closed (h : Took w w₁ xs) (hc : w.shared.queue.closed = true) :
    w₁.shared.queue.closed = true ∧ xs ++ w₁.shared.queue.buf = w.shared.queue.buf := by
  obtain ⟨new, -, -, hbuf, hclosed⟩ := h.arrived
  obtain ⟨hc', rfl⟩ := hclosed hc
  exact ⟨hc', by rw [hbuf, List.append_nil]⟩

/-- A worker that may stop and still finds something queued has no sink to write it to. -/
theorem sink_gone (h : Took w w₁ xs) (hstop : w.MayStop) (hne : xs ≠ []) :
    w₁.connected = false := by
  rw [h.connected]
  refine hstop.2.resolve_right fun hbuf => hne ?_
  have happend := (h.of_closed hstop.1).2
  rw [hbuf] at happend
  exact (List.append_eq_nil_iff.mp happend).1

end Took

/-- One step of another task, paid for by the turns it leaves. -/
theorem other_took (w : World S C α) (o : Other α) (turns : List (List (Other α)))
    (hturns : turns.flatten.length + 1 = w.turns.flatten.length) :
    Took w { w.other o with turns } [] := by
  -- Another task adds to the queue, has its sample refused, or asks for the stop.
  cases o with
  | enqueue sample =>
    cases h : w.shared.queue.trySend sample with
    | ok queue =>
      obtain ⟨hopen, -, hbuf, -, -⟩ := (Channel.trySend_ok_iff _ _ _).mp h
      constructor <;> simp only [World.other, Shared.enqueue, h]
      · exact ⟨[sample], rfl, rfl, hbuf, fun hc => by rw [hopen] at hc; cases hc⟩
      · exact ⟨0, rfl, rfl⟩
      · simp only [World.inReach, hbuf, List.length_append, List.length_singleton,
          List.length_nil]
        omega
    | error e =>
      cases e <;> constructor <;> simp only [World.other, Shared.enqueue, h]
      · exact ⟨[], by simp⟩
      · exact ⟨1, by simp⟩
      · simp only [World.inReach, List.length_nil]
        omega
      · exact ⟨[], by simp⟩
      · exact ⟨0, rfl, rfl⟩
      · simp only [World.inReach, List.length_nil]
        omega
  | stop =>
    constructor <;> simp only [World.other]
    · exact ⟨[], by simp⟩
    · exact ⟨0, rfl, rfl⟩
    · simp only [World.inReach, List.length_nil]
      omega
  | abandon =>
    constructor <;> simp only [World.other]
    · exact ⟨[], by simp⟩
    · exact ⟨0, rfl, rfl⟩
    · simp only [World.inReach, List.length_nil]
      omega
  | hangUp =>
    constructor <;> simp only [World.other, World.setQueue]
    · exact ⟨[], by simp⟩
    · exact ⟨0, rfl, rfl⟩
    · simp only [World.inReach, Channel.close_buf, List.length_nil]
      omega

/-- A step does not look at the turns to come. -/
theorem other_turns (w : World S C α) (o : Other α) (turns : List (List (Other α))) :
    ({ w with turns } : World S C α).other o = { w.other o with turns } := by
  cases o <;> rfl

theorem turn_took (w : World S C α) : Took w w.turn [] := by
  unfold World.turn
  split
  · exact Took.refl w
  · rename_i steps turns hturns
    -- One step at a time, the rest of the turn put back at the head of the list.
    induction steps generalizing w with
    | nil =>
      refine { Took.refl w with inReach := ?_ }
      simp [World.inReach, hturns]
    | cons o steps ih =>
      have hstep : Took w { w.other o with turns := steps :: turns } [] := by
        apply other_took
        rw [hturns]
        simp only [List.flatten_cons, List.length_append, List.length_cons]
        omega
      have hrest := ih { w.other o with turns := steps :: turns } rfl
      rw [List.foldl_cons, other_turns]
      exact hstep.trans hrest

theorem otherTasks_spec (w : World S C α) :
    ⦃fun s => ⌜s = w⌝⦄ otherTasks ⦃⇓ _ w' => ⌜Took w w' []⌝⦄ := by
  mvcgen [otherTasks]
  rename_i hw _
  subst hw
  exact turn_took _

/-- Taking the head of the queue. -/
theorem Took.pop {w w' : World S C α} {x : α} {q : Channel α} (h : Took w w' [])
    (hpop : w'.shared.queue.pop = some (x, q)) :
    Took w (w'.setQueue q) [x] := by
  obtain ⟨hbuf, -, hclosed⟩ := Channel.pop_eq_some hpop
  have htaken : Took w' (w'.setQueue q) [x] := by
    refine { Took.refl w' with arrived := ⟨[], ?_⟩, inReach := ?_ }
    · simp [World.setQueue, hbuf, hclosed]
    · simp only [World.inReach, World.setQueue, hbuf, List.length_cons, List.length_nil]
      omega
  exact h.trans htaken

/-- Closing the queue. -/
theorem Took.close {w w' : World S C α} (h : Took w w' []) :
    Took w (w'.setQueue w'.shared.queue.close) [] := by
  have hclosed : Took w' (w'.setQueue w'.shared.queue.close) [] :=
    { Took.refl w' with arrived := ⟨[], by simp [World.setQueue]⟩ }
  exact h.trans hclosed

theorem isClosed_spec (w : World S C α) :
    ⦃fun s => ⌜s = w⌝⦄ isClosed
    ⦃⇓ r w' => ⌜Took w w' [] ∧ r = w'.shared.queue.closed⌝⦄ := by
  mvcgen [isClosed, otherTasks_spec]
  rename_i hw _ w' h
  subst hw
  exact h

theorem isEmpty_spec (w : World S C α) :
    ⦃fun s => ⌜s = w⌝⦄ isEmpty
    ⦃⇓ r w' => ⌜Took w w' [] ∧ r = w'.shared.queue.buf.isEmpty⌝⦄ := by
  mvcgen [isEmpty, otherTasks_spec]
  rename_i hw _ w' h
  subst hw
  exact h

theorem close_spec (w : World S C α) :
    ⦃fun s => ⌜s = w⌝⦄ close ⦃⇓ _ w' => ⌜Took w w' [] ∧ w'.shared.queue.closed = true⌝⦄ := by
  mvcgen [close, otherTasks_spec]
  rename_i hw _ w' h _
  subst hw
  exact ⟨h.close, rfl⟩

theorem tryRecv_spec (w : World S C α) :
    ⦃fun s => ⌜s = w⌝⦄ tryRecv
    ⦃⇓ r w' => ⌜Took w w' r.toList ∧ (r = none → w'.shared.queue.buf = [])⌝⦄ := by
  mvcgen [tryRecv, otherTasks_spec]
  · rename_i hw _ w' h hpop
    subst hw
    exact ⟨h, (Channel.pop_eq_none_iff _).mp hpop⟩
  · rename_i hw _ w' h x q hpop
    subst hw
    exact ⟨h.pop hpop, by simp⟩

theorem stopChanged_spec (w : World S C α) :
    ⦃fun s => ⌜s = w⌝⦄ stopChanged ⦃⇓ _ w' => ⌜Took w w' []⌝⦄ := by
  mvcgen [stopChanged, otherTasks_spec]
  · rename_i hw _ w' h _
    subst hw
    have hseen : Took w' { w' with stop.changed := false } [] := { Took.refl w' with }
    exact h.trans hseen
  · rename_i hw _ w' h _
    subst hw
    exact h

theorem queueFinished_spec (w : World S C α) :
    ⦃fun s => ⌜s = w⌝⦄ queueFinished
    ⦃⇓ r w' => ⌜Took w w' [] ∧
      (r = true → w'.shared.queue.closed = true ∧ w'.shared.queue.buf = [])⌝⦄ := by
  mvcgen [queueFinished, isClosed_spec, isEmpty_spec]
  · rename_i hw r hr w₁ h₁ _ w₂
    intro h₂ hr₂
    subst hw
    refine ⟨h₁.1.trans h₂, fun hempty => ?_⟩
    obtain ⟨hc, -⟩ := h₂.of_closed (h₁.2 ▸ hr)
    exact ⟨hc, by simpa [hr₂] using hempty⟩
  · rename_i hw r hr w₁ h₁
    subst hw
    exact ⟨h₁.1, by simp⟩

theorem waitToRetry_spec (w : World S C α) :
    ⦃fun s => ⌜s = w⌝⦄ waitToRetry
    ⦃⇓ r w' => ⌜Took w w' [] ∧ (r = false → w'.shared.queue.closed = true)⌝⦄ := by
  mvcgen [waitToRetry, queueFinished_spec, stopChanged_spec, close_spec]
  · rename_i hw _ hr w₁ h₁
    subst hw
    simpa using ⟨h₁.1, (h₁.2 hr).1⟩
  · rename_i hw _ _ w₁ h₁ _ _ w₂ h₂ _ w₃ h₃
    subst hw
    simpa using ⟨(h₁.1.trans h₂).trans h₃.1, h₃.2⟩
  · rename_i hw _ _ w₁ h₁ _ _ w₂ h₂
    subst hw
    exact ⟨h₁.1.trans h₂, by simp⟩

theorem fillBatch_spec (room : Nat) (w : World S C α) :
    ⦃fun s => ⌜s = w⌝⦄ fillBatch room ⦃⇓ r w' => ⌜Took w w' r⌝⦄ := by
  induction room generalizing w with
  | zero =>
    mvcgen [fillBatch]
    rename_i hw
    subst hw
    exact Took.refl _
  | succ room ih =>
    mvcgen [fillBatch, tryRecv_spec, ih]
    · rename_i hw _ _ w' h
      subst hw
      exact h.1
    · rename_i hw _ x _ w₁ h₁ xs w₂ h₂
      subst hw
      exact h₁.1.trans h₂

theorem firstFrame_spec (w : World S C α) :
    ⦃fun s => ⌜s = w⌝⦄ firstFrame ⦃⇓ r w' => ⌜Took w w' r.toList⌝⦄ := by
  mvcgen [firstFrame, stopChanged_spec, close_spec, tryRecv_spec]
  · rename_i hw _ _ _ w₁ h₁ _ w₂ h₂ r w₃
    intro h₃ _
    subst hw
    exact (h₁.trans h₂.1).trans h₃
  · rename_i hw _ _ _ w₁ h₁ r w₂
    intro h₂ _
    subst hw
    exact h₁.trans h₂

theorem nextBatch_spec (w : World S C α) :
    ⦃fun s => ⌜s = w⌝⦄ nextBatch ⦃⇓ r w' => ⌜Took w w' r⌝⦄ := by
  mvcgen [nextBatch, firstFrame_spec, fillBatch_spec]
  · rename_i hw _ _ w' h
    subst hw
    exact h
  · rename_i hw _ x _ w₁ h₁ xs w₂ h₂
    subst hw
    exact h₁.trans h₂

/-- With every sample in reach paid for, the loop stops at an empty queue. -/
theorem takeQueuedLoop_spec (fuel : Nat) (w : World S C α) (hfuel : w.inReach < fuel) :
    ⦃fun s => ⌜s = w⌝⦄ takeQueuedLoop fuel
    ⦃⇓ r w' => ⌜Took w w' r ∧ w'.shared.queue.buf = []⌝⦄ := by
  induction fuel generalizing w with
  | zero => omega
  | succ fuel ih =>
    mvcgen [takeQueuedLoop, tryRecv_spec, ih]
    · rename_i hw _ _ w' h
      subst hw
      exact h
    · rename_i hw _ x _ w₁ h₁
      subst hw
      have hreach := h₁.1.inReach
      simp only [Option.toList_some, List.length_singleton] at hreach
      omega
    · rename_i hw _ x _ w₁ h₁ xs w₂ h₂
      subst hw
      exact ⟨h₁.1.trans h₂.1, h₂.2⟩

theorem takeQueued_spec (w : World S C α) :
    ⦃fun s => ⌜s = w⌝⦄ takeQueued
    ⦃⇓ r w' => ⌜Took w w' r ∧ w'.shared.queue.buf = []⌝⦄ := by
  mvcgen [takeQueued, takeQueuedLoop_spec]
  rename_i hw
  subst hw
  exact Nat.lt_succ_self _

/-! ### The cache side -/

theorem onCache_spec {β : Type} (op : StateM C β) (w : World S C α) :
    ⦃fun s => ⌜s = w⌝⦄ onCache op
    ⦃⇓ r w' => ⌜∃ c, op.run w.cache = (r, c) ∧ w' = w.setCache c⌝⦄ := by
  mvcgen [onCache]
  rename_i hw
  subst hw
  exact ⟨_, rfl, rfl⟩

theorem onSink_spec {β : Type} (op : StateM S β) (w : World S C α) :
    ⦃fun s => ⌜s = w⌝⦄ onSink op
    ⦃⇓ r w' => ⌜∃ s, op.run w.sink = (r, s) ∧ w' = w.setSink s⌝⦄ := by
  mvcgen [onSink]
  rename_i hw
  subst hw
  exact ⟨_, rfl, rfl⟩

theorem writeBatch_spec [BatchSink S α] (batch : List α) (w : World S C α) :
    ⦃fun s => ⌜s = w⌝⦄ writeBatch batch
    ⦃⇓ r w' => ⌜∃ s, (BatchSink.writeBatch batch).run w.sink = (r, s) ∧
      w' = (w.setSink s).noteDelivered (batch.take (r.delivered batch.length))⌝⦄ := by
  mvcgen [writeBatch, onSink_spec]
  rename_i hw r w₁ h₁ _
  subst hw
  obtain ⟨s, hrun, rfl⟩ := h₁
  exact ⟨s, hrun, rfl⟩

/-- With the sink gone, a shutdown has nowhere to write to. -/
theorem flushToSink_spec [BatchSink S α] (remaining : List α) (w : World S C α) :
    ⦃fun s => ⌜s = w⌝⦄ flushToSink remaining
    ⦃⇓ r w' => ⌜w.connected = false → r = 0 ∧ w' = w⌝⦄ := by
  mvcgen [flushToSink]
  · rename_i hw hc
    subst hw
    intro hdown
    rw [hdown] at hc
    cases hc
  · rename_i hw _
    simpa using fun _ => hw

theorem removeCached_spec [FrameCache C α] (cached : List (Cached α)) (w : World S C α) :
    ⦃fun s => ⌜s = w⌝⦄ removeCached cached
    ⦃⇓ r w' => ⌜∃ c, (FrameCache.remove cached).run w.cache = (r, c) ∧
      w' = match r with
        | .ok () => (w.setCache c).noteRemoved (cached.map Cached.sample)
        | .error _ => w.setCache c⌝⦄ := by
  mvcgen [removeCached, onCache_spec]
  · rename_i hw r _ hr w₁ h₁ _
    subst hw hr
    obtain ⟨c, hrun, rfl⟩ := h₁
    exact ⟨c, hrun, rfl⟩
  · rename_i hw r _ r' hne hr w₁ h₁
    subst hw hr
    obtain ⟨c, hrun, rfl⟩ := h₁
    refine ⟨c, hrun, ?_⟩
    cases r with
    | ok u => exact absurd rfl hne
    | error e => rfl

theorem resetCache_spec [FrameCache C α] (w : World S C α) :
    ⦃fun s => ⌜s = w⌝⦄ resetCache
    ⦃⇓ _ w' => ⌜w' = w.noteReset.setCache (FrameCache.reset.run w.cache).2⌝⦄ := by
  mvcgen [resetCache, onCache_spec]
  rename_i hw _ r w₁
  rintro ⟨c, hrun, rfl⟩
  subst hw
  have hc : c = (FrameCache.reset.run _).2 := (congrArg Prod.snd hrun).symm
  rw [hc]
  rfl

theorem flatten_chunksLoop (n fuel : Nat) (hn : 0 < n) (xs : List α) (hfuel : xs.length ≤ fuel) :
    (chunksLoop n fuel xs).flatten = xs := by
  induction fuel generalizing xs with
  | zero => rw [List.length_eq_zero_iff.mp (Nat.le_zero.mp hfuel), chunksLoop, List.flatten_nil]
  | succ fuel ih =>
    cases xs with
    | nil => rw [chunksLoop, List.flatten_nil]
    | cons x xs =>
      have hle : ((x :: xs).drop n).length ≤ fuel := by
        rw [List.length_drop]
        omega
      rw [chunksLoop, List.flatten_cons, ih _ hle, List.take_append_drop]

section Cache

variable [FrameCache C α] [LawfulFrameCache C]

open LawfulFrameCache (Valid frames)

/-- The samples the cache holds, oldest first. -/
def World.cachedSamples (w : World S C α) : List α := (frames w.cache).map Cached.sample

/-- `w'` is `w` after `batch` was handed to the cache, which kept some of it and dropped the
rest. -/
structure Spilled (w w' : World S C α) (batch : List α) : Prop where
  sink : w'.sink = w.sink
  connected : w'.connected = w.connected
  batchSize : w'.batchSize = w.batchSize
  queue : w'.shared.queue = w.shared.queue
  enqueued : w'.shared.counters.enqueued = w.shared.counters.enqueued
  written : w'.shared.counters.written = w.shared.counters.written
  cacheRecovered : w'.shared.counters.cacheRecovered = w.shared.counters.cacheRecovered
  accepted : w'.history.accepted = w.history.accepted
  refused : w'.history.refused = w.history.refused
  delivered : w'.history.delivered = w.history.delivered
  removed : w'.history.removed = w.history.removed
  resets : w'.history.resets = w.history.resets
  outcome : Valid w.cache → Valid w'.cache ∧ ∃ kept lost, Split batch kept lost ∧
    w'.cachedSamples = w.cachedSamples ++ kept ∧
    w'.shared.counters.cached = w.shared.counters.cached + kept.length ∧
    w'.history.lost = w.history.lost ++ lost ∧
    w'.shared.counters.dropped = w.shared.counters.dropped + lost.length

namespace Spilled

variable {w w₁ w₂ w₃ : World S C α} {xs ys : List α}

theorem refl (w : World S C α) : Spilled w w [] where
  sink := rfl
  connected := rfl
  batchSize := rfl
  queue := rfl
  enqueued := rfl
  written := rfl
  cacheRecovered := rfl
  accepted := rfl
  refused := rfl
  delivered := rfl
  removed := rfl
  resets := rfl
  outcome := fun hv => ⟨hv, [], [], Split.all [], by simp⟩

theorem trans (h : Spilled w₁ w₂ xs) (h' : Spilled w₂ w₃ ys) : Spilled w₁ w₃ (xs ++ ys) where
  sink := h'.sink.trans h.sink
  connected := h'.connected.trans h.connected
  batchSize := h'.batchSize.trans h.batchSize
  queue := h'.queue.trans h.queue
  enqueued := h'.enqueued.trans h.enqueued
  written := h'.written.trans h.written
  cacheRecovered := h'.cacheRecovered.trans h.cacheRecovered
  accepted := h'.accepted.trans h.accepted
  refused := h'.refused.trans h.refused
  delivered := h'.delivered.trans h.delivered
  removed := h'.removed.trans h.removed
  resets := h'.resets.trans h.resets
  outcome := by
    intro hv
    obtain ⟨hv, kept, lost, hsplit, hheld, hcached, hlost, hdropped⟩ := h.outcome hv
    obtain ⟨hv, kept', lost', hsplit', hheld', hcached', hlost', hdropped'⟩ := h'.outcome hv
    refine ⟨hv, kept ++ kept', lost ++ lost', hsplit.append hsplit', ?_, ?_, ?_, ?_⟩
    · rw [hheld', hheld, List.append_assoc]
    · rw [hcached', hcached, List.length_append, Nat.add_assoc]
    · rw [hlost', hlost, List.append_assoc]
    · rw [hdropped', hdropped, List.length_append, Nat.add_assoc]

end Spilled

/-- A cache that holds the same frames. -/
theorem Spilled.setCache (w : World S C α) {c : C}
    (h : Valid w.cache → Valid c ∧ frames c = frames w.cache) : Spilled w (w.setCache c) [] :=
  { Spilled.refl w with
    outcome := fun hv => ⟨(h hv).1, [], [], Split.all [], by
      simp [World.cachedSamples, World.setCache, (h hv).2]⟩ }

/-- A batch the cache refused. -/
theorem Spilled.drop (w : World S C α) (batch : List α) : Spilled w (w.drop batch) batch :=
  { Spilled.refl w with
    outcome := fun hv => ⟨hv, [], batch, Split.none batch, by
      simp [World.cachedSamples, World.drop]⟩ }

/-- A batch the cache took. -/
theorem Spilled.store (w : World S C α) {c : C} {batch : List α} {n : Nat}
    (h : (FrameCache.append batch).run w.cache = (.ok n, c)) :
    Spilled w ((w.setCache c).addCached n) batch := by
  refine { Spilled.refl w with outcome := fun hv => ?_ }
  obtain ⟨hv', rfl, new, hnew, hc⟩ := LawfulFrameCache.append_ok _ _ _ _ hv h
  refine ⟨hv', batch, [], Split.all batch, ?_⟩
  simp [World.cachedSamples, World.setCache, World.addCached, hc, hnew]

theorem appendUnlessFull_spec (batch : List α) (w : World S C α) :
    ⦃fun s => ⌜s = w⌝⦄ appendUnlessFull batch
    ⦃⇓ r w' => ⌜match r with
      | .ok n => Spilled w (w'.addCached n) batch
      | .error _ => Spilled w (w'.drop batch) batch⌝⦄ := by
  mvcgen [appendUnlessFull, onCache_spec]
  · rename_i w hw full hfull w₁ h₁
    subst hw
    obtain ⟨c, hrun, rfl⟩ := h₁
    -- Asking whether it is full leaves the frames.
    have hc := LawfulFrameCache.isFull_frames w.cache
    rw [hrun] at hc
    exact (Spilled.setCache w hc).trans (Spilled.drop _ batch)
  · rename_i w hw full hfull w₁ h₁ r w₂
    rintro ⟨c₂, hrun₂, rfl⟩
    subst hw
    obtain ⟨c, hrun, rfl⟩ := h₁
    have hc := LawfulFrameCache.isFull_frames w.cache
    rw [hrun] at hc
    have hasked := Spilled.setCache w hc
    cases r with
    | ok n =>
      exact hasked.trans (Spilled.store _ hrun₂)
    | error e =>
      have hc₂ := fun hv => LawfulFrameCache.append_error _ _ _ _ hv hrun₂
      exact hasked.trans ((Spilled.setCache _ hc₂).trans (Spilled.drop _ batch))

theorem cacheBatch_spec (batch : List α) (w : World S C α) :
    ⦃fun s => ⌜s = w⌝⦄ cacheBatch batch ⦃⇓ _ w' => ⌜Spilled w w' batch⌝⦄ := by
  mvcgen [cacheBatch, appendUnlessFull_spec]
  · rename_i hw _ _ _ _ h _
    subst hw
    exact h
  · rename_i hw _ _ _ _ h _
    subst hw
    exact h

theorem cacheChunks_spec (batches : List (List α)) (w : World S C α) :
    ⦃fun s => ⌜s = w⌝⦄ cacheChunks batches ⦃⇓ _ w' => ⌜Spilled w w' batches.flatten⌝⦄ := by
  induction batches generalizing w with
  | nil =>
    mvcgen [cacheChunks]
    rename_i hw
    subst hw
    exact Spilled.refl _
  | cons batch batches ih =>
    mvcgen [cacheChunks, cacheBatch_spec, ih]
    rename_i hw _ w₁ h₁ _ w₂ h₂
    subst hw
    exact h₁.trans h₂

/-- `w'` is `w` after everything queued was handed to the cache. -/
def Emptied (w w' : World S C α) : Prop := ∃ w₁ xs, Took w w₁ xs ∧ Spilled w₁ w' xs

theorem Emptied.connected {w w' : World S C α} (h : Emptied w w') :
    w'.connected = w.connected := by
  obtain ⟨w₁, xs, ht, hs⟩ := h
  rw [hs.connected, ht.connected]

/-- `drain_queue_to_cache`, with what the others did before it. -/
theorem drainQueueToCache_after (w : World S C α) :
    ⦃fun s => ⌜Took w s []⌝⦄ drainQueueToCache ⦃⇓ _ w' => ⌜Emptied w w'⌝⦄ := by
  mvcgen [drainQueueToCache, takeQueued_spec, cacheChunks_spec]
  rename_i h xs w₁ h₁ _ w₂ h₂
  rw [chunks, flatten_chunksLoop _ _ w₁.batchSize_pos _ (Nat.le_refl _)] at h₂
  exact ⟨w₁, xs, h.trans h₁.1, h₂⟩

theorem drainQueueToCache_spec (w : World S C α) :
    ⦃fun s => ⌜s = w⌝⦄ drainQueueToCache ⦃⇓ _ w' => ⌜Emptied w w'⌝⦄ := by
  mvcgen [drainQueueToCache_after]
  rename_i hw
  subst hw
  exact Took.refl _

theorem spillIfQueueFilling_spec (w : World S C α) :
    ⦃fun s => ⌜s = w⌝⦄ spillIfQueueFilling ⦃⇓ _ w' => ⌜Emptied w w'⌝⦄ := by
  mvcgen [spillIfQueueFilling, otherTasks_spec, drainQueueToCache_after]
  · rename_i hw _ w₁ h₁ _
    subst hw
    exact h₁
  · rename_i hw _ w₁ h₁ _
    subst hw
    exact ⟨w₁, [], h₁, Spilled.refl w₁⟩

end Cache

/-! ### The worker's loop -/

section Loop

variable [BatchSink S α] [FrameCache C α] [LawfulFrameCache C]

open LawfulFrameCache (Valid frames)

/-- What an invariant has to survive to hold throughout the worker's loop, `live` being the batch in
the worker's hand.  One that is about order (`inOrder`) lets the hand be written only while the
cache holds nothing older, which takes a cache that can be read. -/
structure Upheld (inOrder : Prop) (Inv : List α → World S C α → Prop) : Prop where
  reliable : inOrder → ∃ limit, ReliableFrameCache C limit
  valid {live : List α} {w : World S C α} : Inv live w → Valid w.cache
  took {live xs : List α} {w w' : World S C α} : Inv live w → Took w w' xs → Inv (live ++ xs) w'
  spilled {live : List α} {w w' : World S C α} : Inv live w → Spilled w w' live → Inv [] w'
  showStatus {w : World S C α} (pending : Nat) : Inv [] w → Inv [] (w.showStatus pending)
  setDraining {w : World S C α} (b : Bool) : Inv [] w → Inv [] (w.setDraining b)
  connected {w : World S C α} : Inv [] w → Inv [] (w.setSink (BatchSink.connect.run w.sink).2)
  up {w : World S C α} : Inv [] w → Inv [] w.up
  keptAlive {w : World S C α} : Inv [] w → Inv [] (w.setSink (BatchSink.keepAlive.run w.sink).2)
  closed {live : List α} {w : World S C α} :
    Inv live w → Inv live (w.setSink (BatchSink.close.run w.sink).2)
  down {live : List α} {w : World S C α} (e : SinkError) : Inv live w → Inv live (w.down e)
  /-- The hand's first `n` samples were written. -/
  wrote {live : List α} {w : World S C α} {r : WriteResult} {s : S} {n : Nat} :
    Inv live w → (inOrder → frames w.cache = []) →
      (BatchSink.writeBatch live).run w.sink = (r, s) → n = r.delivered live.length →
      Inv (live.drop n) (((w.setSink s).noteDelivered (live.take n)).addWritten n)
  /-- A batch of the oldest frames was written, and the `n` delivered were forgotten. -/
  forgot {w : World S C α} {batch : List α} {r : WriteResult} {s : S} {c : C} {n : Nat} :
    Inv [] w → (BatchSink.writeBatch batch).run w.sink = (r, s) →
      batch.take (r.delivered batch.length) = w.cachedSamples.take n →
      n ≤ (frames w.cache).length → n ≤ w.batchSize →
      (FrameCache.remove ((frames w.cache).take n)).run w.cache = (.ok (), c) →
      Inv [] ((((((w.setSink s).noteDelivered (w.cachedSamples.take n)).setCache c).noteRemoved
        (w.cachedSamples.take n)).addWritten n).addRecovered n)
  /-- The removal failed, so they are still there. -/
  stayed {w : World S C α} {batch : List α} {r : WriteResult} {s : S} {c : C} {n : Nat}
    {e : CacheError} :
    Inv [] w → (BatchSink.writeBatch batch).run w.sink = (r, s) →
      batch.take (r.delivered batch.length) = w.cachedSamples.take n →
      n ≤ (frames w.cache).length → n ≤ w.batchSize →
      (FrameCache.remove ((frames w.cache).take n)).run w.cache = (.error e, c) →
      Inv [] (((((w.setSink s).noteDelivered (w.cachedSamples.take n)).setCache c).addWritten
        n).addRecovered n)
  noteReset {w : World S C α} : Inv [] w → frames w.cache = [] → Inv [] w.noteReset

variable {inOrder : Prop} {Inv : List α → World S C α → Prop}

namespace Upheld

variable {w w' : World S C α} {live : List α}

/-- What happens on the queue side while the worker's hand is empty. -/
theorem idle (hk : Upheld inOrder Inv) (h : Inv [] w) (ht : Took w w' []) : Inv [] w' :=
  hk.took h ht

theorem emptied (hk : Upheld inOrder Inv) (h : Inv [] w) (he : Emptied w w') : Inv [] w' := by
  obtain ⟨w₁, xs, ht, hs⟩ := he
  exact hk.spilled (hk.took h ht) hs

theorem setCache (hk : Upheld inOrder Inv) {c : C} (h : Inv [] w)
    (hc : Valid c ∧ frames c = frames w.cache) : Inv [] (w.setCache c) :=
  hk.spilled h (Spilled.setCache w fun _ => hc)

/-- The sink is closed and the connection marked gone. -/
theorem gone (hk : Upheld inOrder Inv) (h : Inv live w) (e : SinkError)
    (hs : ∃ s, BatchSink.close.run w.sink = ((), s) ∧ w' = w.setSink s) : Inv live (w'.down e) := by
  obtain ⟨s, hrun, rfl⟩ := hs
  have hclosed := hk.closed h
  rw [hrun] at hclosed
  exact hk.down e hclosed

theorem kept_alive (hk : Upheld inOrder Inv) {r : SinkResult} (h : Inv [] w)
    (hs : ∃ s, BatchSink.keepAlive.run w.sink = (r, s) ∧ w' = w.setSink s) : Inv [] w' := by
  obtain ⟨s, hrun, rfl⟩ := hs
  have hkept := hk.keptAlive h
  rw [hrun] at hkept
  exact hkept

/-- Asking the cache how many frames it holds. -/
theorem counted (hk : Upheld inOrder Inv) {r : Except CacheError Nat} (h : Inv [] w)
    (hc : ∃ c, FrameCache.count.run w.cache = (r, c) ∧ w' = w.setCache c) :
    Inv [] w' ∧ (inOrder → r = .ok (frames w'.cache).length) := by
  obtain ⟨c, hrun, rfl⟩ := hc
  have hframes := LawfulFrameCache.count_frames w.cache (hk.valid h)
  rw [hrun] at hframes
  refine ⟨hk.setCache h hframes, fun hin => ?_⟩
  obtain ⟨limit, hreliable⟩ := hk.reliable hin
  have hcount := hreliable.count_ok w.cache (hk.valid h)
  rw [hrun, ← hframes.2] at hcount
  exact hcount

/-- Asking the cache for its oldest frames. -/
theorem read (hk : Upheld inOrder Inv) {r : Except CacheError (List (Cached α))} (h : Inv [] w)
    (hc : ∃ c, (FrameCache.oldest w.batchSize).run w.cache = (r, c) ∧ w' = w.setCache c) :
    Inv [] w' ∧ w'.batchSize = w.batchSize ∧
      ∀ cached, r = .ok cached → cached = (frames w'.cache).take w'.batchSize := by
  obtain ⟨c, hrun, rfl⟩ := hc
  cases r with
  | ok cached =>
    obtain ⟨hv, hcached, hframes⟩ := LawfulFrameCache.oldest_ok _ _ _ _ (hk.valid h) hrun
    refine ⟨hk.setCache h ⟨hv, hframes⟩, rfl, ?_⟩
    rintro _ ⟨⟩
    change cached = (frames c).take w.batchSize
    rw [hframes, hcached]
  | error e =>
    have hc := LawfulFrameCache.oldest_error _ _ _ _ (hk.valid h) hrun
    exact ⟨hk.setCache h hc, rfl, by simp⟩

/-- The cache is emptied of the nothing it holds. -/
theorem reset (hk : Upheld inOrder Inv) (h : Inv [] w) (hempty : frames w.cache = []) :
    Inv [] (w.noteReset.setCache (FrameCache.reset.run w.cache).2) ∧
      frames (w.noteReset.setCache (FrameCache.reset.run w.cache).2).cache = [] := by
  have hc := LawfulFrameCache.reset_empty w.cache (hk.valid h) hempty
  have hnote := hk.noteReset h hempty
  exact ⟨hk.setCache hnote ⟨hc.1, hc.2.trans hempty.symm⟩, hc.2⟩

/-- One cache batch written onward, and what was stored forgotten. -/
theorem drained [LawfulBatchSink S α] (hk : Upheld inOrder Inv) {w₂ w₃ : World S C α}
    {cached : List (Cached α)} {r : WriteResult} {removed : Except CacheError Unit} {n : Nat}
    (h : Inv [] w) (hcached : cached = (frames w.cache).take w.batchSize)
    (hn : n = r.delivered (cached.map Cached.sample).length)
    (hwrite : ∃ s, (BatchSink.writeBatch (cached.map Cached.sample)).run w.sink = (r, s) ∧
      w₂ = (w.setSink s).noteDelivered ((cached.map Cached.sample).take n))
    (hremove : ∃ c, (FrameCache.remove (cached.take n)).run w₂.cache = (removed, c) ∧
      w₃ = match removed with
        | .ok () => (w₂.setCache c).noteRemoved ((cached.take n).map Cached.sample)
        | .error _ => w₂.setCache c) :
    Inv [] ((w₃.addWritten n).addRecovered n) := by
  obtain ⟨s, hwrite, rfl⟩ := hwrite
  obtain ⟨c, hremove, rfl⟩ := hremove
  have hle := LawfulBatchSink.delivered_le (cached.map Cached.sample) w.sink
  rw [hwrite, ← hn] at hle
  rw [List.length_map, hcached, List.length_take] at hle
  -- The sink delivers a beginning of what was read, and so of what is cached.
  have htake : cached.take n = (frames w.cache).take n := by
    rw [hcached, List.take_take, Nat.min_eq_left (by omega)]
  have hsamples : (cached.map Cached.sample).take n = w.cachedSamples.take n := by
    rw [← List.map_take, htake, List.map_take, World.cachedSamples]
  have hbatch : (cached.map Cached.sample).take
      (r.delivered (cached.map Cached.sample).length) = w.cachedSamples.take n := by
    rw [← hn, hsamples]
  rw [htake] at hremove
  rw [List.map_take, hsamples]
  cases removed with
  | ok u => exact hk.forgot h hwrite hbatch (by omega) (by omega) hremove
  | error e => exact hk.stayed h hwrite hbatch (by omega) (by omega) hremove

end Upheld

omit [BatchSink S α] in
/-- A read of at least one frame that finds none found the cache empty. -/
theorem World.nothing_read {w : World S C α} {cached : List (Cached α)}
    (hcached : cached = (frames w.cache).take w.batchSize) (hempty : cached.isEmpty = true) :
    frames w.cache = [] := by
  rw [List.isEmpty_iff.mp hempty] at hcached
  have hpos := w.batchSize_pos
  exact (List.take_eq_nil_iff.mp hcached.symm).resolve_left (by omega)

/-- `fail` keeps the batch in hand. -/
theorem fail_spec (hk : Upheld inOrder Inv) (batch : List α) (e : SinkError) :
    ⦃fun w : World S C α => ⌜Inv batch w⌝⦄ fail e batch
    ⦃⇓ r w' => ⌜Inv [] w' ∧ (r = false → w'.MayStop)⌝⦄ := by
  mvcgen [fail, onSink_spec, cacheBatch_spec, drainQueueToCache_spec, waitToRetry_spec]
  · rename_i h _ _ hclose _ _ _ _ _ w hs
    exact ⟨hk.spilled (hk.gone h e hclose) hs, by simp⟩
  · rename_i h _ _ hclose _ _ _ _ _ w hs _ w₁ he r w₂
    intro ht hr
    have hdown := hk.spilled (hk.gone h e hclose) hs
    refine ⟨hk.idle (hk.emptied hdown he) ht, fun hstop => ⟨hr hstop, .inl ?_⟩⟩
    rw [ht.connected, he.connected, hs.connected]
    rfl
  · rename_i h _ _ hclose _ _ hempty _
    have hnil : batch = [] := by simpa using hempty
    subst hnil
    exact ⟨hk.gone h e hclose, by simp⟩
  · rename_i h _ _ hclose _ _ hempty _ _ w₁ he r w₂
    intro ht hr
    have hnil : batch = [] := by simpa using hempty
    subst hnil
    refine ⟨hk.idle (hk.emptied (hk.gone h e hclose) he) ht, fun hstop => ⟨hr hstop, .inl ?_⟩⟩
    rw [ht.connected, he.connected]
    rfl

theorem connectIfDown_spec (hk : Upheld inOrder Inv) :
    ⦃fun w : World S C α => ⌜Inv [] w⌝⦄ connectIfDown ⦃⇓ _ w' => ⌜Inv [] w'⌝⦄ := by
  mvcgen [connectIfDown, onSink_spec]
  · rename_i w h _ r _ _ w₁ h₁ _
    obtain ⟨s, hrun, rfl⟩ := h₁
    have hconnected := hk.connected h
    rw [hrun] at hconnected
    exact hk.up hconnected
  · rename_i w h _ r _ r' _ _ w₁ h₁
    obtain ⟨s, hrun, rfl⟩ := h₁
    have hconnected := hk.connected h
    rw [hrun] at hconnected
    exact hconnected

theorem report_spec (hk : Upheld inOrder Inv) :
    ⦃fun w : World S C α => ⌜Inv [] w⌝⦄ report ⦃⇓ _ w' => ⌜Inv [] w'⌝⦄ := by
  mvcgen [report, onCache_spec]
  rename_i w h _ w₁ h₁ _
  exact hk.showStatus _ (hk.counted h h₁).1

/-- What a shutdown finds queued goes to the cache. -/
theorem shutdownFlush_spec (hk : Upheld inOrder Inv) :
    ⦃fun w : World S C α => ⌜Inv [] w ∧ w.MayStop⌝⦄ shutdownFlush
    ⦃⇓ _ w' => ⌜Inv [] w' ∧ w'.shared.queue.buf = []⌝⦄ := by
  -- The sink is closed behind all of it.
  have hclosed : ∀ {w w' : World S C α}, Inv [] w → w.shared.queue.buf = [] →
      (∃ s, BatchSink.close.run w.sink = ((), s) ∧ w' = w.setSink s) →
      Inv [] w' ∧ w'.shared.queue.buf = [] := by
    rintro w _ h hbuf ⟨s, hrun, rfl⟩
    have hkept := hk.closed h
    rw [hrun] at hkept
    exact ⟨hkept, hbuf⟩
  mvcgen [shutdownFlush, takeQueued_spec, flushToSink_spec, cacheBatch_spec, onSink_spec]
  · -- Frames are left only after a stop, and then the sink is down: nothing is flushed to it.
    rename_i w h remaining _ hne w₁ h₁ n _ hn w₂ h₂ _ _ _ _ w₃ h₃ _ w₄
    obtain ⟨rfl, -⟩ := h₂ (h₁.1.sink_gone h.2 (by simpa using hne))
    omega
  · rename_i w h remaining _ hne w₁ h₁ n _ hn w₂ h₂ _ _ _ _ w₃
    obtain ⟨rfl, -⟩ := h₂ (h₁.1.sink_gone h.2 (by simpa using hne))
    omega
  · -- All of it goes to the cache.
    rename_i w h remaining _ hne w₁ h₁ n _ hn _ _ w₂ h₂ _ w₃ h₃ _ w₄
    intro hclose
    obtain ⟨rfl, rfl⟩ := h₂ (h₁.1.sink_gone h.2 (by simpa using hne))
    exact hclosed (hk.spilled (hk.took h.1 h₁.1) h₃) (by rw [h₃.queue, h₁.2]) hclose
  · rename_i w h remaining _ hne w₁ h₁ n _ hn unflushed hnone w₂ h₂ _ w₃
    obtain ⟨rfl, rfl⟩ := h₂ (h₁.1.sink_gone h.2 (by simpa using hne))
    exact absurd hne hnone
  · rename_i w h remaining _ hnone w₁ h₁ _ w₂
    intro hclose
    have hnil : remaining = [] := by simpa using hnone
    rw [hnil] at h₁
    exact hclosed (hk.idle h.1 h₁.1) h₁.2 hclose

/-- Where the order matters, `drain_cache` says there is nothing more only when the cache is
empty. -/
theorem drainCache_spec [LawfulBatchSink S α] (hk : Upheld inOrder Inv) :
    ⦃fun w : World S C α => ⌜Inv [] w⌝⦄ drainCache
    ⦃⇓ r w' => ⌜Inv [] w' ∧ (r = .ok false → inOrder → frames w'.cache = [])⌝⦄ := by
  mvcgen [drainCache, onCache_spec, writeBatch_spec, removeCached_spec, resetCache_spec, written]
  · -- No drain is under way and the count is zero.
    rename_i w h r pending w₁ h₁ hidle
    obtain ⟨hb₁, hcount⟩ := hk.counted h h₁
    refine ⟨hb₁, fun hin => ?_⟩
    have hzero : pending = 0 := by
      simp only [Bool.and_eq_true, beq_iff_eq] at hidle
      exact hidle.2
    rw [← List.length_eq_zero_iff, ← hzero]
    simp only [pending, hcount hin]
    rfl
  · -- A read that fails finds the cache empty, if the cache is one that reads what it has.
    rename_i w h r _ w₁ h₁ _ r₂ e hr₂ w₂ h₂
    obtain ⟨hb₁, -⟩ := hk.counted h h₁
    refine ⟨(hk.read hb₁ h₂).1, fun hin => ?_⟩
    obtain ⟨limit, hreliable⟩ := hk.reliable hin
    obtain ⟨c, hrun, rfl⟩ := h₂
    have hframes := (LawfulFrameCache.oldest_error _ _ _ _ (hk.valid hb₁) hrun).2
    by_contra hne
    obtain ⟨cached, hok⟩ :=
      hreliable.oldest_reads w₁.batchSize w₁.cache (hk.valid hb₁) (hframes ▸ hne)
    rw [hrun] at hok
    cases hok
  · -- The drain is over, and the emptied cache is reset.
    rename_i w h r _ w₁ h₁ _ r₂ cached hr₂ hempty w₂ h₂ _ _ _ _ w₃ h₃
    obtain ⟨hb₁, -⟩ := hk.counted h h₁
    obtain ⟨hb₂, -, hcached⟩ := hk.read hb₁ h₂
    subst h₃
    obtain ⟨hreset, hnone⟩ := hk.reset (hk.setDraining false hb₂)
      (World.nothing_read (hcached _ rfl) hempty)
    exact ⟨hreset, fun _ => hnone⟩
  · -- There was no drain, and nothing to read.
    rename_i w h r _ w₁ h₁ _ r₂ cached hr₂ hempty w₂ h₂ _ _
    obtain ⟨hb₁, -⟩ := hk.counted h h₁
    obtain ⟨hb₂, -, hcached⟩ := hk.read hb₁ h₂
    exact ⟨hb₂, fun _ => World.nothing_read (hcached _ rfl) hempty⟩
  · -- A batch was written whole.
    rename_i w h r _ w₁ h₁ _ r₂ cached hr₂ hempty w₂ h₂ _ _ rw _ w₃ h₃ rr w₄ h₄ _ _ _
    obtain ⟨hb₁, -⟩ := hk.counted h h₁
    obtain ⟨hb₂, -, hcached⟩ := hk.read hb₁ h₂
    exact ⟨hk.drained (hk.setDraining true hb₂) (hcached _ rfl) rfl h₃ h₄, by simp⟩
  · -- The write failed, and only what was delivered is removed.
    rename_i w h r _ w₁ h₁ _ r₂ cached hr₂ hempty w₂ h₂ _ _ rw _ w₃ h₃ rr w₄ h₄ _ _ _ _
    obtain ⟨hb₁, -⟩ := hk.counted h h₁
    obtain ⟨hb₂, -, hcached⟩ := hk.read hb₁ h₂
    exact ⟨hk.drained (hk.setDraining true hb₂) (hcached _ rfl) rfl h₃ h₄, by simp⟩

/-- With the cache empty, what is taken off the queue is the oldest there is. -/
theorem archiveBatch_spec (hk : Upheld inOrder Inv) :
    ⦃fun w : World S C α => ⌜Inv [] w ∧ (inOrder → frames w.cache = [])⌝⦄ archiveBatch
    ⦃⇓ r w' => ⌜Inv [] w' ∧ (r = false → w'.MayStop)⌝⦄ := by
  have hfail := fail_spec hk
  mvcgen [archiveBatch, nextBatch_spec, queueFinished_spec, onSink_spec, hfail, writeBatch_spec,
    written]
  · -- The queue has finished.
    rename_i w h batch hempty w₁ h₁ r hr w₂ h₂
    rw [List.isEmpty_iff.mp hempty] at h₁
    exact ⟨hk.idle (hk.idle h.1 h₁) h₂.1, (h₂.2 hr).1, .inr (h₂.2 hr).2⟩
  · -- Nothing came, and the keep-alive fails or succeeds.
    rename_i w h batch hempty w₁ h₁ r hr w₂ h₂ _ e _ w₃ h₃
    rw [List.isEmpty_iff.mp hempty] at h₁
    exact hk.kept_alive (hk.idle (hk.idle h.1 h₁) h₂.1) h₃
  · rename_i w h batch hempty w₁ h₁ r hr w₂ h₂ _ _ w₃ h₃
    rw [List.isEmpty_iff.mp hempty] at h₁
    exact ⟨hk.kept_alive (hk.idle (hk.idle h.1 h₁) h₂.1) h₃, by simp⟩
  · -- A write that fails leaves the rest of the batch in hand, for `fail` to put in the cache.
    rename_i w h batch _ w₁ h₁ _ e _ w₂ h₂ _
    obtain ⟨s, hrun, rfl⟩ := h₂
    exact hk.wrote (hk.took h.1 h₁) (h₁.cache ▸ h.2) hrun rfl
  · rename_i w h batch _ w₁ h₁ _ _ w₂ h₂ _
    obtain ⟨s, hrun, rfl⟩ := h₂
    have hb := hk.wrote (hk.took h.1 h₁) (h₁.cache ▸ h.2) hrun rfl
    rw [WriteResult.delivered, List.nil_append, List.drop_length] at hb
    exact ⟨hb, by simp⟩

theorem pass_spec [LawfulBatchSink S α] (hk : Upheld inOrder Inv) :
    ⦃fun w : World S C α => ⌜Inv [] w⌝⦄ pass
    ⦃⇓ r w' => ⌜Inv [] w' ∧ (r = false → w'.MayStop)⌝⦄ := by
  have hreport := report_spec hk
  have hconnect := connectIfDown_spec hk
  have hfail := fail_spec hk
  have hdrain := drainCache_spec hk
  have harchive := archiveBatch_spec hk
  mvcgen [pass, hreport, spillIfQueueFilling_spec, hconnect, hfail, hdrain, harchive]
  · rename_i h _ w₂ he
    exact hk.emptied h he
  · rename_i h
    exact h.1
  · rename_i h
    exact ⟨h.1, by simp⟩
  · rename_i h
    exact h

/-- The invariant holds after any number of passes, and once `run` has returned nothing is left in
the queue. -/
theorem run_spec [LawfulBatchSink S α] (hk : Upheld inOrder Inv) (fuel : Nat) :
    ⦃fun w : World S C α => ⌜Inv [] w⌝⦄ run fuel
    ⦃⇓ r w' => ⌜Inv [] w' ∧ (r = true → w'.shared.queue.buf = [])⌝⦄ := by
  induction fuel with
  | zero =>
    mvcgen [run]
    rename_i h
    exact ⟨h, by simp⟩
  | succ fuel ih =>
    have hpass := pass_spec hk
    have hflush := shutdownFlush_spec hk
    mvcgen [run, hpass, hflush, ih]
    · rename_i h
      exact h.1
    · rename_i hr _ h
      exact ⟨h.1, h.2 (by simpa using hr)⟩
    · rename_i h
      simpa using h

end Loop

end WireTap
