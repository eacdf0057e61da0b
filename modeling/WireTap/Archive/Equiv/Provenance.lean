import Mathlib
import WireTap.Lib.Triple
import WireTap.Archive.Batcher
import WireTap.Archive.Equiv.Batcher
import WireTap.Cache.Equiv.Contents

/-!
# Where a sample written came from

The invariant is `Within sink cache p o live w`: what is queued, cached, in the worker's hand
(`live`) and written to the sink is in `p` or was enqueued (`Known`), and what was or will be enqueued
is in `o`.  It asks nothing of the cache or the sink beyond what they can hold, so it also survives a
cache that has lost its table.

`run_within` carries it through the worker's loop: from a cache that holds only samples in `p`,
nothing is ever written that is neither in `p` nor enqueued.
-/

namespace WireTap

open Std.Do

set_option mvcgen.warning false

variable {S C α : Type}

/-- What a sink has been handed: `holds q s` if that is all in `q`. -/
structure SinkTrace (S : Type) {α : Type} [BatchSink S α] where
  holds : (α → Prop) → S → Prop
  mono {q q' : α → Prop} {s : S} : (∀ x, q x → q' x) → holds q s → holds q' s
  connect {q : α → Prop} {s : S} : holds q s → holds q (BatchSink.connect.run s).2
  keepAlive {q : α → Prop} {s : S} : holds q s → holds q (BatchSink.keepAlive.run s).2
  close {q : α → Prop} {s : S} : holds q s → holds q (BatchSink.close.run s).2
  writeBatch {q : α → Prop} {s : S} {batch : List α} : (∀ x ∈ batch, q x) → holds q s →
    holds q ((BatchSink.writeBatch batch).run s).2

/-- What a cache holds, whether or not its books are in order. -/
structure CacheTrace (C : Type) {α : Type} [FrameCache C α] where
  held : C → List α
  append (xs : List α) (c : C) {x : α} :
    x ∈ held ((FrameCache.append xs).run c).2 → x ∈ held c ∨ x ∈ xs
  oldest (limit : Nat) (c : C) : held ((FrameCache.oldest limit).run c).2 ⊆ held c
  read (limit : Nat) (c : C) {cached : List (Cached α)} :
    ((FrameCache.oldest limit).run c).1 = .ok cached → cached.map Cached.sample ⊆ held c
  remove (cached : List (Cached α)) (c : C) : held ((FrameCache.remove cached).run c).2 ⊆ held c
  count (c : C) : held (FrameCache.count.run c).2 ⊆ held c
  isFull (c : C) : held (FrameCache.isFull.run c).2 ⊆ held c
  reset (c : C) : held (FrameCache.reset.run c).2 ⊆ held c

/-- The SQLite cache holds what is in its file. -/
def SqliteCache.trace : CacheTrace (SqliteCache α) where
  held c := framesIn c.file
  append _ c _ := c.mem_append
  oldest limit c := by
    change framesIn (c.oldest limit).2.file ⊆ _
    rw [c.oldest_file]
    exact List.Subset.refl _
  read _ c _ := c.oldest_subset
  remove cached c := c.remove_subset cached
  count _ := List.Subset.refl _
  isFull _ := List.Subset.refl _
  reset c := c.reset_subset

/-- In `p`, or enqueued since. -/
def Known (p : α → Prop) (w : World S C α) (x : α) : Prop := p x ∨ x ∈ w.history.accepted

section Within

variable [BatchSink S α] [FrameCache C α]

/-- All the worker has had to do with is known, and the others enqueue only what is in `o`. -/
structure Within (sink : SinkTrace S) (cache : CacheTrace C) (p o : α → Prop) (live : List α)
    (w : World S C α) : Prop where
  live : ∀ x ∈ live, Known p w x
  queue : ∀ x ∈ w.shared.queue.buf, Known p w x
  cache : ∀ x ∈ cache.held w.cache, Known p w x
  sink : sink.holds (Known p w) w.sink
  accepted : ∀ x ∈ w.history.accepted, o x
  offered : ∀ turn ∈ w.turns, ∀ x, .enqueue x ∈ turn → o x

namespace Within

variable {sink : SinkTrace S} {cache : CacheTrace C} {p o : α → Prop} {live xs : List α}
  {w : World S C α}

/-- One sample more in the queue. -/
theorem enqueue {sample : α} {q : Channel α} (h : Within sink cache p o live w) (ho : o sample)
    (hq : w.shared.queue.trySend sample = .ok q) :
    Within sink cache p o live (w.other (.enqueue sample)) := by
  obtain ⟨-, -, hbuf, -, -⟩ := (Channel.trySend_ok_iff _ _ _).mp hq
  have hother : (w.other (.enqueue sample)).history.accepted = w.history.accepted ++ [sample] := by
    simp only [World.other, hq]
  have hqueue : (w.other (.enqueue sample)).shared.queue.buf = w.shared.queue.buf ++ [sample] := by
    simp only [World.other, Shared.enqueue, hq, hbuf]
  have hmono : ∀ x, Known p w x → Known p (w.other (.enqueue sample)) x := by
    intro x hx
    unfold Known
    rw [hother]
    exact hx.imp_right (List.mem_append_left _)
  constructor
  · exact fun x hx => hmono x (h.live x hx)
  · intro x hx
    rw [hqueue] at hx
    rcases List.mem_append.mp hx with hold | hnew
    · exact hmono x (h.queue x hold)
    · unfold Known
      rw [hother]
      exact .inr (List.mem_append_right _ hnew)
  · exact fun x hx => hmono x (h.cache x hx)
  · exact sink.mono hmono h.sink
  · rw [hother]
    intro x hx
    rcases List.mem_append.mp hx with hold | hnew
    · exact h.accepted x hold
    · rw [List.mem_singleton.mp hnew]
      exact ho
  · exact h.offered

/-- A step of another task. -/
theorem other (h : Within sink cache p o live w) (step : Other α)
    (hstep : ∀ x, step = .enqueue x → o x) : Within sink cache p o live (w.other step) := by
  cases step with
  | enqueue sample =>
    cases hq : w.shared.queue.trySend sample with
    | ok q => exact h.enqueue (hstep sample rfl) hq
    | error e =>
      -- Refused by a full queue or a closed one, the sample is only counted.
      cases e <;> constructor <;> simp only [World.other, Shared.enqueue, hq]
      all_goals
        first
        | exact h.live
        | exact h.queue
        | exact h.cache
        | exact h.sink
        | exact h.accepted
        | exact h.offered
  | stop => exact { h with }
  | abandon => exact { h with }
  | hangUp => exact { h with }

theorem turn (h : Within sink cache p o live w) : Within sink cache p o live w.turn := by
  unfold World.turn
  split
  · exact h
  · rename_i steps turns hturns
    have hsteps : ∀ step ∈ steps, ∀ x, step = .enqueue x → o x := by
      rintro step hstep x rfl
      exact h.offered steps (by rw [hturns]; exact List.mem_cons_self) x hstep
    have hrest : Within sink cache p o live { w with turns } :=
      { h with
        offered := fun turn hturn => h.offered turn (by
          rw [hturns]
          exact List.mem_cons_of_mem steps hturn) }
    clear hturns
    generalize ({ w with turns } : World S C α) = u at hrest ⊢
    induction steps generalizing u with
    | nil => exact hrest
    | cons step steps ih =>
      exact ih (fun s hs => hsteps s (List.mem_cons_of_mem step hs)) _
        (hrest.other step (hsteps step List.mem_cons_self))

/-- The queue without its head, which is in the hand. -/
theorem pop {x : α} {q : Channel α} (h : Within sink cache p o live w)
    (hpop : w.shared.queue.pop = some (x, q)) :
    Within sink cache p o (live ++ [x]) (w.setQueue q) := by
  obtain ⟨hbuf, -, -⟩ := Channel.pop_eq_some hpop
  have hqueue := h.queue
  rw [hbuf] at hqueue
  refine { h with live := ?_, queue := fun y hy => hqueue y (List.mem_cons_of_mem x hy) }
  intro y hy
  rcases List.mem_append.mp hy with hlive | hhead
  · exact h.live y hlive
  · rw [List.mem_singleton.mp hhead]
    exact hqueue x List.mem_cons_self

/-- The hand only matters for what it holds. -/
theorem holding (h : Within sink cache p o live w) (hxs : ∀ x ∈ xs, x ∈ live) :
    Within sink cache p o xs w :=
  { h with live := fun x hx => h.live x (hxs x hx) }

/-- The hand put down. -/
theorem free (h : Within sink cache p o live w) : Within sink cache p o [] w :=
  h.holding fun _ hx => absurd hx List.not_mem_nil

theorem setCache {c : C} (h : Within sink cache p o live w)
    (hc : ∀ x ∈ cache.held c, x ∈ cache.held w.cache ∨ x ∈ live) :
    Within sink cache p o live (w.setCache c) :=
  { h with cache := fun x hx => (hc x hx).elim (h.cache x) (h.live x) }

/-- A cache operation that adds nothing. -/
theorem less {c : C} (h : Within sink cache p o live w) (hc : cache.held c ⊆ cache.held w.cache) :
    Within sink cache p o live (w.setCache c) :=
  h.setCache fun _ hx => .inl (hc hx)

theorem setSink {s : S} (h : Within sink cache p o live w) (hs : sink.holds (Known p w) s) :
    Within sink cache p o live (w.setSink s) :=
  { h with sink := hs }

theorem down (h : Within sink cache p o live w) (e : SinkError) :
    Within sink cache p o live (w.down e) := { h with }

end Within

variable (sink : SinkTrace S) (cache : CacheTrace C) (p o : α → Prop)

/-! ### The cache and the sink -/

/-- An operation on the cache that adds at most what is in the hand. -/
theorem onCache_within {β : Type} (live : List α) (op : StateM C β)
    (hop : ∀ c, ∀ x ∈ cache.held (op.run c).2, x ∈ cache.held c ∨ x ∈ live) :
    ⦃fun w : World S C α => ⌜Within sink cache p o live w⌝⦄ onCache op
    ⦃⇓ _ w' => ⌜Within sink cache p o live w'⌝⦄ := by
  mvcgen [onCache]
  rename_i h
  exact h.setCache (hop _)

theorem report_within (live : List α) :
    ⦃fun w : World S C α => ⌜Within sink cache p o live w⌝⦄ report
    ⦃⇓ _ w' => ⌜Within sink cache p o live w'⌝⦄ := by
  have hcount := onCache_within sink cache p o live FrameCache.count
    fun c _ hx => .inl (cache.count c hx)
  mvcgen [report, hcount]
  rename_i h _
  exact { h with }

theorem cacheBatch_within (live batch : List α) (hbatch : ∀ x ∈ batch, x ∈ live) :
    ⦃fun w : World S C α => ⌜Within sink cache p o live w⌝⦄ cacheBatch batch
    ⦃⇓ _ w' => ⌜Within sink cache p o live w'⌝⦄ := by
  have hfull := onCache_within sink cache p o live FrameCache.isFull
    fun c _ hx => .inl (cache.isFull c hx)
  have happend := onCache_within sink cache p o live (FrameCache.append batch)
    fun c x hx => (cache.append batch c hx).imp_right (hbatch x)
  mvcgen [cacheBatch, appendUnlessFull, hfull, happend]
  all_goals
    rename_i h _
    exact { h with }

theorem cacheChunks_within (live : List α) (batches : List (List α))
    (hbatches : ∀ batch ∈ batches, ∀ x ∈ batch, x ∈ live) :
    ⦃fun w : World S C α => ⌜Within sink cache p o live w⌝⦄ cacheChunks batches
    ⦃⇓ _ w' => ⌜Within sink cache p o live w'⌝⦄ := by
  induction batches with
  | nil => mvcgen [cacheChunks]
  | cons batch batches ih =>
    have hfirst := cacheBatch_within sink cache p o live batch (hbatches batch List.mem_cons_self)
    have hrest := ih fun b hb => hbatches b (List.mem_cons_of_mem batch hb)
    mvcgen [cacheChunks, hfirst, hrest]

/-- An operation on the sink. -/
theorem onSink_within {β : Type} (live : List α) (op : StateM S β)
    (hop : ∀ q s, (∀ x ∈ live, q x) → sink.holds q s → sink.holds q (op.run s).2) :
    ⦃fun w : World S C α => ⌜Within sink cache p o live w⌝⦄ onSink op
    ⦃⇓ _ w' => ⌜Within sink cache p o live w'⌝⦄ := by
  mvcgen [onSink]
  rename_i h
  exact h.setSink (hop _ _ h.live h.sink)

theorem writeBatch_within (live batch : List α) (hbatch : ∀ x ∈ batch, x ∈ live) :
    ⦃fun w : World S C α => ⌜Within sink cache p o live w⌝⦄ writeBatch batch
    ⦃⇓ _ w' => ⌜Within sink cache p o live w'⌝⦄ := by
  have hwrite := onSink_within sink cache p o live (BatchSink.writeBatch batch)
    fun q s hlive => sink.writeBatch fun x hx => hlive x (hbatch x hx)
  mvcgen [writeBatch, hwrite]
  rename_i h _
  exact { h with }

/-! ### The queue -/

/-- `w'` is `w` after turns of the other tasks and operations of the worker on its queue that took
`taken` into its hand. -/
def Takes (w w' : World S C α) (taken : List α) : Prop :=
  ∀ live, Within sink cache p o live w → Within sink cache p o (live ++ taken) w'

namespace Takes

variable {sink cache p o}
variable {w w₁ w₂ : World S C α} {xs ys : List α}

/-- An operation that leaves the hand as it is. -/
theorem of_same (h : ∀ live, Within sink cache p o live w → Within sink cache p o live w₁) :
    Takes sink cache p o w w₁ [] := by
  intro live hlive
  rw [List.append_nil]
  exact h live hlive

theorem refl (w : World S C α) : Takes sink cache p o w w [] := of_same fun _ h => h

theorem trans (h : Takes sink cache p o w w₁ xs) (h' : Takes sink cache p o w₁ w₂ ys) :
    Takes sink cache p o w w₂ (xs ++ ys) := by
  intro live hlive
  rw [← List.append_assoc]
  exact h' _ (h live hlive)

/-- With the hand empty before. -/
theorem free (h : Takes sink cache p o w w₁ xs) (hw : Within sink cache p o [] w) :
    Within sink cache p o xs w₁ := h [] hw

end Takes

theorem otherTasks_takes (w : World S C α) :
    ⦃fun s => ⌜s = w⌝⦄ otherTasks ⦃⇓ _ w' => ⌜Takes sink cache p o w w' []⌝⦄ := by
  mvcgen [otherTasks]
  rename_i hw _
  subst hw
  exact Takes.of_same fun _ h => h.turn

theorem close_takes (w : World S C α) :
    ⦃fun s => ⌜s = w⌝⦄ close ⦃⇓ _ w' => ⌜Takes sink cache p o w w' []⌝⦄ := by
  have hothers := otherTasks_takes (S := S) sink cache p o
  mvcgen [close, hothers]
  rename_i hw _ _ h _
  subst hw
  exact h.trans (Takes.of_same fun _ hlive => { hlive with })

theorem tryRecv_takes (w : World S C α) :
    ⦃fun s => ⌜s = w⌝⦄ tryRecv ⦃⇓ r w' => ⌜Takes sink cache p o w w' r.toList⌝⦄ := by
  have hothers := otherTasks_takes (S := S) sink cache p o
  mvcgen [tryRecv, hothers]
  · rename_i hw _ _ h _
    subst hw
    exact h
  · rename_i hw _ _ h _ _ hpop
    subst hw
    have htaken : Takes sink cache p o _ _ [_] := fun _ hlive => hlive.pop hpop
    exact h.trans htaken

theorem stopChanged_takes (w : World S C α) :
    ⦃fun s => ⌜s = w⌝⦄ stopChanged ⦃⇓ _ w' => ⌜Takes sink cache p o w w' []⌝⦄ := by
  have hothers := otherTasks_takes (S := S) sink cache p o
  mvcgen [stopChanged, hothers]
  · rename_i hw _ _ h _
    subst hw
    exact h.trans (Takes.of_same fun _ hlive => { hlive with })
  · rename_i hw _ _ h _
    subst hw
    exact h

theorem queueFinished_takes (w : World S C α) :
    ⦃fun s => ⌜s = w⌝⦄ queueFinished ⦃⇓ _ w' => ⌜Takes sink cache p o w w' []⌝⦄ := by
  have hothers := otherTasks_takes (S := S) sink cache p o
  mvcgen [queueFinished, isClosed, isEmpty, hothers]
  · rename_i hw _ _ h _ _ _ h'
    subst hw
    exact h.trans h'
  · rename_i hw _ _ h _
    subst hw
    exact h

theorem waitToRetry_takes (w : World S C α) :
    ⦃fun s => ⌜s = w⌝⦄ waitToRetry ⦃⇓ _ w' => ⌜Takes sink cache p o w w' []⌝⦄ := by
  have hfinished := queueFinished_takes (S := S) sink cache p o
  have hstop := stopChanged_takes (S := S) sink cache p o
  have hclose := close_takes (S := S) sink cache p o
  mvcgen [waitToRetry, hfinished, hstop, hclose]
  · rename_i hw _ _ _ h
    subst hw
    exact h
  · rename_i hw _ _ _ h₁ _ _ _ h₂ _ _ h₃
    subst hw
    exact (h₁.trans h₂).trans h₃
  · rename_i hw _ _ _ h₁ _ _ _ h₂
    subst hw
    exact h₁.trans h₂

theorem fillBatch_takes (room : Nat) (w : World S C α) :
    ⦃fun s => ⌜s = w⌝⦄ fillBatch room ⦃⇓ r w' => ⌜Takes sink cache p o w w' r⌝⦄ := by
  have hrecv := tryRecv_takes (S := S) sink cache p o
  induction room generalizing w with
  | zero =>
    mvcgen [fillBatch]
    rename_i hw
    subst hw
    exact Takes.refl _
  | succ room ih =>
    mvcgen [fillBatch, hrecv, ih]
    · rename_i hw _ _ _ h
      subst hw
      exact h
    · rename_i hw _ _ _ _ h₁ _ _ h₂
      subst hw
      exact h₁.trans h₂

/-- `try_recv`, with what the others did before it. -/
theorem tryRecv_after (w : World S C α) :
    ⦃fun s => ⌜Takes sink cache p o w s []⌝⦄ tryRecv
    ⦃⇓ r w' => ⌜Takes sink cache p o w w' r.toList⌝⦄ := by
  intro s hs
  exact hs.trans (tryRecv_takes sink cache p o s s rfl)

theorem firstFrame_takes (w : World S C α) :
    ⦃fun s => ⌜s = w⌝⦄ firstFrame ⦃⇓ r w' => ⌜Takes sink cache p o w w' r.toList⌝⦄ := by
  have hstop := stopChanged_takes (S := S) sink cache p o
  have hclose := close_takes (S := S) sink cache p o
  have hrecv := tryRecv_after (S := S) sink cache p o
  mvcgen [firstFrame, hstop, hclose, hrecv]
  · rename_i hw _ _ _ _ h₁ _ _ h₂
    subst hw
    exact h₁.trans h₂
  · rename_i hw _ _ _ _ h₁
    subst hw
    exact h₁

theorem nextBatch_takes (w : World S C α) :
    ⦃fun s => ⌜s = w⌝⦄ nextBatch ⦃⇓ r w' => ⌜Takes sink cache p o w w' r⌝⦄ := by
  have hfirst := firstFrame_takes (S := S) sink cache p o
  have hfill := fillBatch_takes (S := S) sink cache p o
  mvcgen [nextBatch, hfirst, hfill]
  · rename_i hw _ _ _ h
    subst hw
    exact h
  · rename_i hw _ _ _ _ h₁ _ _ h₂
    subst hw
    exact h₁.trans h₂

theorem takeQueuedLoop_takes (fuel : Nat) (w : World S C α) :
    ⦃fun s => ⌜s = w⌝⦄ takeQueuedLoop fuel ⦃⇓ r w' => ⌜Takes sink cache p o w w' r⌝⦄ := by
  have hrecv := tryRecv_takes (S := S) sink cache p o
  induction fuel generalizing w with
  | zero =>
    mvcgen [takeQueuedLoop]
    rename_i hw
    subst hw
    exact Takes.refl _
  | succ fuel ih =>
    mvcgen [takeQueuedLoop, hrecv, ih]
    · rename_i hw _ _ _ h
      subst hw
      exact h
    · rename_i hw _ _ _ _ h₁ _ _ h₂
      subst hw
      exact h₁.trans h₂

/-- What is taken off the queue goes to the hand. -/
theorem within_of_takes {β : Type} {prog : Run S C α β} {taken : β → List α}
    (h : ∀ w, ⦃fun s => ⌜s = w⌝⦄ prog ⦃⇓ r w' => ⌜Takes sink cache p o w w' (taken r)⌝⦄) :
    ⦃fun w => ⌜Within sink cache p o [] w⌝⦄ prog
    ⦃⇓ r w' => ⌜Within sink cache p o (taken r) w'⌝⦄ := by
  mvcgen [h]
  rename_i hw _ _
  exact fun ht => ht.free hw

theorem mem_of_mem_chunksLoop {n fuel : Nat} {xs chunk : List α} {x : α}
    (hchunk : chunk ∈ chunksLoop n fuel xs) (hx : x ∈ chunk) : x ∈ xs := by
  induction fuel generalizing xs with
  | zero => cases hchunk
  | succ fuel ih =>
    cases xs with
    | nil => cases hchunk
    | cons y ys =>
      rcases List.mem_cons.mp hchunk with rfl | hrest
      · exact List.mem_of_mem_take hx
      · exact List.mem_of_mem_drop (ih hrest)

theorem drainQueueToCache_within (live : List α) :
    ⦃fun w : World S C α => ⌜Within sink cache p o live w⌝⦄ drainQueueToCache
    ⦃⇓ _ w' => ⌜Within sink cache p o [] w'⌝⦄ := by
  have htake := takeQueuedLoop_takes (S := S) sink cache p o
  have hchunks := fun n xs => cacheChunks_within (S := S) sink cache p o (live ++ xs)
    (chunks n xs) fun _ hb _ hx => List.mem_append_right _ (mem_of_mem_chunksLoop hb hx)
  mvcgen [drainQueueToCache, takeQueued, htake, hchunks]
  · rename_i h _ _ ht
    exact ht live h
  · rename_i h
    exact h.free

theorem spillIfQueueFilling_within :
    ⦃fun w : World S C α => ⌜Within sink cache p o [] w⌝⦄ spillIfQueueFilling
    ⦃⇓ _ w' => ⌜Within sink cache p o [] w'⌝⦄ := by
  have hothers := otherTasks_takes (S := S) sink cache p o
  have hdrain := drainQueueToCache_within (S := S) sink cache p o []
  mvcgen [spillIfQueueFilling, hothers, hdrain]
  all_goals
    rename_i h _ _ ht _
    exact ht.free h

/-! ### The worker -/

theorem fail_within (batch : List α) (e : SinkError) :
    ⦃fun w : World S C α => ⌜Within sink cache p o batch w⌝⦄ fail e batch
    ⦃⇓ _ w' => ⌜Within sink cache p o [] w'⌝⦄ := by
  have hclose := onSink_within sink cache p o batch BatchSink.close
    fun _ _ _ => sink.close
  have hbatch := cacheBatch_within (S := S) sink cache p o batch batch fun _ hx => hx
  have hdrain := drainQueueToCache_within (S := S) sink cache p o batch
  have hwait := within_of_takes sink cache p o (waitToRetry_takes (S := S) sink cache p o)
  mvcgen [fail, hclose, hbatch, hdrain, hwait]
  · rename_i h _ _ _
    exact h.down e
  · rename_i h
    exact h.free
  · rename_i h _ _ _ _
    exact (h.down e).free
  · rename_i h _ _ _ _
    exact h.down e

theorem connectIfDown_within :
    ⦃fun w : World S C α => ⌜Within sink cache p o [] w⌝⦄ connectIfDown
    ⦃⇓ _ w' => ⌜Within sink cache p o [] w'⌝⦄ := by
  have hconnect := onSink_within sink cache p o [] BatchSink.connect
    fun _ _ _ => sink.connect
  mvcgen [connectIfDown, hconnect]
  rename_i h _
  exact { h with }

theorem resetCache_within :
    ⦃fun w : World S C α => ⌜Within sink cache p o [] w⌝⦄ resetCache
    ⦃⇓ _ w' => ⌜Within sink cache p o [] w'⌝⦄ := by
  have hreset := onCache_within (S := S) sink cache p o [] FrameCache.reset
    fun c _ hx => .inl (cache.reset c hx)
  mvcgen [resetCache, hreset]
  rename_i h _
  exact { h with }

theorem removeCached_within (live : List α) (cached : List (Cached α)) :
    ⦃fun w : World S C α => ⌜Within sink cache p o live w⌝⦄ removeCached cached
    ⦃⇓ _ w' => ⌜Within sink cache p o live w'⌝⦄ := by
  have hremove := onCache_within (S := S) sink cache p o live (FrameCache.remove cached)
    fun c _ hx => .inl (cache.remove cached c hx)
  mvcgen [removeCached, hremove]
  rename_i h _
  exact { h with }

/-- What is read from the cache goes to the hand. -/
theorem oldest_within (limit : Nat) :
    ⦃fun w : World S C α => ⌜Within sink cache p o [] w⌝⦄ onCache (FrameCache.oldest limit)
    ⦃⇓ r w' => ⌜Within sink cache p o ((r.toOption.getD []).map Cached.sample) w'⌝⦄ := by
  mvcgen [onCache]
  rename_i w h
  have hread : Within sink cache p o [] (w.setCache ((FrameCache.oldest limit).run w.cache).2) :=
    h.less (cache.oldest limit w.cache)
  change Within sink cache p o ((((FrameCache.oldest limit).run w.cache).1.toOption.getD []).map _) _
  cases hr : ((FrameCache.oldest limit).run w.cache).1 with
  | error e => exact hread
  | ok cached => exact { hread with live := fun x hx => h.cache x (cache.read limit w.cache hr hx) }

theorem drainCache_within :
    ⦃fun w : World S C α => ⌜Within sink cache p o [] w⌝⦄ drainCache
    ⦃⇓ _ w' => ⌜Within sink cache p o [] w'⌝⦄ := by
  have hcount := onCache_within (S := S) sink cache p o [] FrameCache.count
    fun c _ hx => .inl (cache.count c hx)
  have holdest := oldest_within (S := S) sink cache p o
  have hreset := resetCache_within (S := S) sink cache p o
  have hwrite := fun batch : List α => writeBatch_within sink cache p o batch batch
    fun _ hx => hx
  have hremove := fun batch : List (Cached α) => removeCached_within (S := S) sink cache p o
    (batch.map Cached.sample)
  mvcgen [drainCache, written, hcount, holdest, hreset, hwrite, hremove]
  · rename_i h _ _ _
    exact { h.free with }
  · rename_i h _ _
    exact h.free
  · rename_i h _ _
    exact { h with }
  · rename_i h _ _ _
    exact { h.free with }
  · rename_i h _ _ _ _
    exact { h.free with }

theorem archiveBatch_within :
    ⦃fun w : World S C α => ⌜Within sink cache p o [] w⌝⦄ archiveBatch
    ⦃⇓ _ w' => ⌜Within sink cache p o [] w'⌝⦄ := by
  have hnext := within_of_takes sink cache p o (nextBatch_takes (S := S) sink cache p o)
  have hfinished := within_of_takes sink cache p o (queueFinished_takes (S := S) sink cache p o)
  have halive := onSink_within sink cache p o [] BatchSink.keepAlive
    fun _ _ _ => sink.keepAlive
  have hfail := fail_within (S := S) sink cache p o
  have hwrite := fun batch : List α => writeBatch_within sink cache p o batch batch
    fun _ hx => hx
  mvcgen [archiveBatch, written, hnext, hfinished, halive, hfail, hwrite]
  · rename_i h
    exact h.free
  · rename_i h _
    exact { h.holding fun _ hx => List.mem_of_mem_drop hx with }
  · rename_i h _
    exact { h.free with }

theorem pass_within :
    ⦃fun w : World S C α => ⌜Within sink cache p o [] w⌝⦄ pass
    ⦃⇓ _ w' => ⌜Within sink cache p o [] w'⌝⦄ := by
  have hreport := report_within (S := S) sink cache p o []
  have hspill := spillIfQueueFilling_within (S := S) sink cache p o
  have hconnect := connectIfDown_within (S := S) sink cache p o
  have hfail := fail_within (S := S) sink cache p o []
  have hdrain := drainCache_within (S := S) sink cache p o
  have harchive := archiveBatch_within (S := S) sink cache p o
  mvcgen [pass, hreport, hspill, hconnect, hfail, hdrain, harchive]

theorem flushToSink_within (remaining : List α) :
    ⦃fun w : World S C α => ⌜Within sink cache p o remaining w⌝⦄ flushToSink remaining
    ⦃⇓ _ w' => ⌜Within sink cache p o remaining w'⌝⦄ := by
  have hwrite := writeBatch_within sink cache p o remaining remaining
    fun _ hx => hx
  mvcgen [flushToSink, hwrite]

theorem shutdownFlush_within :
    ⦃fun w : World S C α => ⌜Within sink cache p o [] w⌝⦄ shutdownFlush
    ⦃⇓ _ w' => ⌜Within sink cache p o [] w'⌝⦄ := by
  have htake := fun fuel =>
    within_of_takes sink cache p o (takeQueuedLoop_takes (S := S) sink cache p o fuel)
  have hflush := flushToSink_within (S := S) sink cache p o
  have hcache := fun (batch : List α) n => cacheBatch_within (S := S) sink cache p o batch
    (batch.drop n) fun _ hx => List.mem_of_mem_drop hx
  have hclose := onSink_within sink cache p o [] BatchSink.close fun _ _ _ => sink.close
  mvcgen [shutdownFlush, takeQueued, htake, hflush, hcache, hclose]
  · rename_i h _ _ _
    exact { h with }
  · rename_i h
    exact h.free
  · rename_i h _ _ _
    exact { h.free with }
  · rename_i h
    exact h.free
  · rename_i h
    exact h.free
  · rename_i h
    exact h.free

/-- Nothing is ever written that is neither in `p` nor was enqueued. -/
theorem run_within (fuel : Nat) :
    ⦃fun w : World S C α => ⌜Within sink cache p o [] w⌝⦄ run fuel
    ⦃⇓ _ w' => ⌜Within sink cache p o [] w'⌝⦄ := by
  have hpass := pass_within (S := S) sink cache p o
  have hflush := shutdownFlush_within (S := S) sink cache p o
  induction fuel with
  | zero => mvcgen [run]
  | succ fuel ih => mvcgen [run, hpass, hflush, ih]

end Within

end WireTap
