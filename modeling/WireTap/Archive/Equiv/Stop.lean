import Mathlib
import WireTap.Lib.Triple
import WireTap.Archive.Batcher
import WireTap.Archive.Equiv.Batcher

/-!
# When a stop is honoured

The worker looks at the stop signal at two points, and remembers having seen it by closing the queue.
`Awake turns w` is what holds between them: if the others have asked for the stop in the turns they
have taken, the signal is still to be seen or the queue is closed.  Every operation keeps it
(`pass_awake`).

A connect that fails is followed by `fail`, which empties the queue and waits to retry, so a worker
that is awake finds out there (`fail_stops`).  The exception is an error that says the far end closed
the session: `fail` then returns before it looks, and the worker connects again at once.
`stop_honoured_iff` is that this is the only one.
-/

namespace WireTap

open Std.Do

set_option mvcgen.warning false

variable {S C α : Type}

/-! ### What the others have asked for -/

/-- The stop was signalled, or its sender dropped, in one of these turns. -/
def Asked (turns : List (List (Other α))) : Prop :=
  ∃ turn ∈ turns, .stop ∈ turn ∨ .abandon ∈ turn

namespace World

/-- The signal is there to be seen. -/
def Signalled (w : World S C α) : Prop := w.stop.changed = true ∨ w.stop.dropped = true

/-- The signal is there to be seen, or has been. -/
def Heard (w : World S C α) : Prop := w.Signalled ∨ w.shared.queue.closed = true

/-- As `Heard`, and a queue that closed on seeing it is empty. -/
def Settled (w : World S C α) : Prop :=
  w.Signalled ∨ w.shared.queue.closed = true ∧ w.shared.queue.buf = []

end World

/-- What was asked for in the turns taken out of `turns` has been heard. -/
def Awake (turns : List (List (Other α))) (w : World S C α) : Prop :=
  ∃ past, turns = past ++ w.turns ∧ (Asked past → w.Heard)

theorem turns_other (w : World S C α) (o : Other α) : (w.other o).turns = w.turns := by
  cases o <;> rfl

theorem closed_other {w : World S C α} (h : w.shared.queue.closed = true) (o : Other α) :
    (w.other o).shared.queue.closed = true ∧
      (w.other o).shared.queue.buf = w.shared.queue.buf := by
  cases o with
  | enqueue sample =>
    have hrefused := (Channel.trySend_closed_iff w.shared.queue sample).mpr h
    simp only [World.other, Shared.enqueue, hrefused]
    exact ⟨h, trivial⟩
  | stop => exact ⟨h, rfl⟩
  | abandon => exact ⟨h, rfl⟩
  | hangUp => exact ⟨rfl, rfl⟩

theorem World.Signalled.other {w : World S C α} (h : w.Signalled) (o : Other α) :
    (w.other o).Signalled := by
  cases o with
  | enqueue sample => exact h
  | stop => exact .inl rfl
  | abandon => exact .inr rfl
  | hangUp => exact h

theorem World.Heard.other {w : World S C α} (h : w.Heard) (o : Other α) : (w.other o).Heard :=
  h.imp (fun hsignal => hsignal.other o) fun hclosed => (closed_other hclosed o).1

theorem World.Settled.other {w : World S C α} (h : w.Settled) (o : Other α) :
    (w.other o).Settled := by
  refine h.imp (fun hsignal => hsignal.other o) ?_
  rintro ⟨hclosed, hbuf⟩
  obtain ⟨hclosed', hbuf'⟩ := closed_other hclosed o
  exact ⟨hclosed', hbuf'.trans hbuf⟩

/-- What each step keeps a turn keeps. -/
theorem turn_keeps {P : World S C α → Prop} (hother : ∀ w o, P w → P (w.other o))
    (hturns : ∀ w turns, P w → P { w with turns }) {w : World S C α} (h : P w) : P w.turn := by
  unfold World.turn
  split
  · exact h
  · exact List.foldlRecOn _ _ (hturns w _ h) fun u hu o _ => hother u o hu

theorem World.Signalled.turn {w : World S C α} (h : w.Signalled) : w.turn.Signalled :=
  turn_keeps (fun _ o h => h.other o) (fun _ _ h => h) h

theorem World.Heard.turn {w : World S C α} (h : w.Heard) : w.turn.Heard :=
  turn_keeps (fun _ o h => h.other o) (fun _ _ h => h) h

theorem World.Settled.turn {w : World S C α} (h : w.Settled) : w.turn.Settled :=
  turn_keeps (fun _ o h => h.other o) (fun _ _ h => h) h

theorem turns_steps (steps : List (Other α)) (w : World S C α) :
    (steps.foldl World.other w).turns = w.turns := by
  induction steps generalizing w with
  | nil => rfl
  | cons o steps ih => rw [List.foldl_cons, ih, turns_other]

/-- Steps that ask for the stop are heard. -/
theorem heard_of_steps {steps : List (Other α)} {w : World S C α}
    (h : w.Heard ∨ .stop ∈ steps ∨ .abandon ∈ steps) : (steps.foldl World.other w).Heard := by
  induction steps generalizing w with
  | nil => simpa using h
  | cons o steps ih =>
    rw [List.foldl_cons]
    apply ih
    rcases h with h | h | h
    · exact .inl (h.other o)
    · rcases List.mem_cons.mp h with rfl | h
      · exact .inl (.inl (.inl rfl))
      · exact .inr (.inl h)
    · rcases List.mem_cons.mp h with rfl | h
      · exact .inl (.inl (.inr rfl))
      · exact .inr (.inr h)

theorem Awake.turn {turns : List (List (Other α))} {w : World S C α} (h : Awake turns w) :
    Awake turns w.turn := by
  obtain ⟨past, hturns, hheard⟩ := h
  unfold World.turn
  split
  · exact ⟨past, hturns, hheard⟩
  · rename_i steps rest hrest
    have hnow : turns = (past ++ [steps]) ++ rest := by
      rw [hturns, hrest, List.append_assoc]
      rfl
    by_cases hasked : Asked (past ++ [steps])
    · have hsteps : ({ w with turns := rest } : World S C α).Heard ∨ .stop ∈ steps ∨
          .abandon ∈ steps := by
        obtain ⟨turn, hmem, hturn⟩ := hasked
        rcases List.mem_append.mp hmem with hold | hnew
        · exact .inl (hheard ⟨turn, hold, hturn⟩)
        · rw [List.mem_singleton.mp hnew] at hturn
          exact .inr hturn
      exact ⟨past ++ [steps], by rw [turns_steps, hnow], fun _ => heard_of_steps hsteps⟩
    · exact ⟨past ++ [steps], by rw [turns_steps, hnow], fun h => absurd h hasked⟩

/-- An update that leaves the turns, the signal and the queue's end alone. -/
theorem Awake.of_same {turns : List (List (Other α))} {w w' : World S C α} (h : Awake turns w)
    (hturns : w'.turns = w.turns) (hstop : w'.stop = w.stop)
    (hclosed : w'.shared.queue.closed = w.shared.queue.closed) : Awake turns w' := by
  obtain ⟨past, hpast, hheard⟩ := h
  refine ⟨past, by rw [hturns, hpast], ?_⟩
  unfold World.Heard World.Signalled
  rw [hstop, hclosed]
  exact hheard

/-! ### Staying awake -/

/-- Some of the turns have been taken. -/
def Since (turns : List (List (Other α))) (w : World S C α) : Prop := ∃ past, turns = past ++ w.turns

theorem Awake.since {turns : List (List (Other α))} {w : World S C α} (h : Awake turns w) :
    Since turns w := h.imp fun _ hpast => hpast.1

/-- With its queue closed a worker is awake. -/
theorem Since.awake {turns : List (List (Other α))} {w : World S C α} (h : Since turns w)
    (hclosed : w.shared.queue.closed = true) : Awake turns w :=
  h.imp fun _ hpast => ⟨hpast, fun _ => .inr hclosed⟩

theorem Since.turn {turns : List (List (Other α))} {w : World S C α} (h : Since turns w) :
    Since turns w.turn := by
  obtain ⟨past, hturns⟩ := h
  unfold World.turn
  split
  · exact ⟨past, hturns⟩
  · rename_i steps rest hrest
    refine ⟨past ++ [steps], ?_⟩
    rw [turns_steps, hturns, hrest, List.append_assoc]
    rfl

section Awake

variable (turns : List (List (Other α)))

theorem isClosed_awake :
    ⦃fun w : World S C α => ⌜Awake turns w⌝⦄ isClosed ⦃⇓ _ w' => ⌜Awake turns w'⌝⦄ := by
  mvcgen [isClosed, otherTasks]
  rename_i h _
  exact h.turn

theorem isEmpty_awake :
    ⦃fun w : World S C α => ⌜Awake turns w⌝⦄ isEmpty ⦃⇓ _ w' => ⌜Awake turns w'⌝⦄ := by
  mvcgen [isEmpty, otherTasks]
  rename_i h _
  exact h.turn

theorem queueFinished_awake :
    ⦃fun w : World S C α => ⌜Awake turns w⌝⦄ queueFinished ⦃⇓ _ w' => ⌜Awake turns w'⌝⦄ := by
  have hclosed := isClosed_awake (S := S) (C := C) turns
  have hempty := isEmpty_awake (S := S) (C := C) turns
  mvcgen [queueFinished, hclosed, hempty]

theorem close_awake :
    ⦃fun w : World S C α => ⌜Since turns w⌝⦄ close ⦃⇓ _ w' => ⌜Awake turns w'⌝⦄ := by
  mvcgen [close, otherTasks]
  rename_i h _ _
  obtain ⟨past, hpast⟩ := h.turn
  exact Since.awake ⟨past, hpast⟩ rfl

theorem tryRecv_awake :
    ⦃fun w : World S C α => ⌜Awake turns w⌝⦄ tryRecv ⦃⇓ _ w' => ⌜Awake turns w'⌝⦄ := by
  mvcgen [tryRecv, otherTasks]
  · rename_i h _ _
    exact h.turn
  · rename_i h _ _ _ hpop
    exact h.turn.of_same rfl rfl (Channel.pop_eq_some hpop).2.2

/-- Where the signal has been seen, closing the queue is left to do. -/
theorem stopChanged_awake :
    ⦃fun w : World S C α => ⌜Awake turns w⌝⦄ stopChanged
    ⦃⇓ r w' => ⌜Since turns w' ∧ (r = false → Awake turns w')⌝⦄ := by
  mvcgen [stopChanged, otherTasks]
  · rename_i h _ _
    exact ⟨h.turn.since, fun hr => by cases hr⟩
  · rename_i h _ _
    exact ⟨h.turn.since, h.turn⟩

theorem takeQueued_awake :
    ⦃fun w : World S C α => ⌜Awake turns w⌝⦄ takeQueued ⦃⇓ _ w' => ⌜Awake turns w'⌝⦄ := by
  have hrecv := tryRecv_awake (S := S) (C := C) turns
  have hloop : ∀ fuel, ⦃fun w : World S C α => ⌜Awake turns w⌝⦄ takeQueuedLoop fuel
      ⦃⇓ _ w' => ⌜Awake turns w'⌝⦄ := by
    intro fuel
    induction fuel with
    | zero => mvcgen [takeQueuedLoop]
    | succ fuel ih => mvcgen [takeQueuedLoop, hrecv, ih]
  mvcgen [takeQueued, hloop]

theorem nextBatch_awake :
    ⦃fun w : World S C α => ⌜Awake turns w⌝⦄ nextBatch ⦃⇓ _ w' => ⌜Awake turns w'⌝⦄ := by
  have hstop := stopChanged_awake (S := S) (C := C) turns
  have hclose := close_awake (S := S) (C := C) turns
  have hrecv := tryRecv_awake (S := S) (C := C) turns
  have hfill : ∀ room, ⦃fun w : World S C α => ⌜Awake turns w⌝⦄ fillBatch room
      ⦃⇓ _ w' => ⌜Awake turns w'⌝⦄ := by
    intro room
    induction room with
    | zero => mvcgen [fillBatch]
    | succ room ih => mvcgen [fillBatch, hrecv, ih]
  mvcgen [nextBatch, firstFrame, hstop, hclose, hrecv, hfill]
  all_goals grind

theorem waitToRetry_awake :
    ⦃fun w : World S C α => ⌜Awake turns w⌝⦄ waitToRetry ⦃⇓ _ w' => ⌜Awake turns w'⌝⦄ := by
  have hfinished := queueFinished_awake (S := S) (C := C) turns
  have hstop := stopChanged_awake (S := S) (C := C) turns
  have hclose := close_awake (S := S) (C := C) turns
  mvcgen [waitToRetry, hfinished, hstop, hclose]
  all_goals grind

theorem onCache_awake {β : Type} (op : StateM C β) :
    ⦃fun w : World S C α => ⌜Awake turns w⌝⦄ onCache op ⦃⇓ _ w' => ⌜Awake turns w'⌝⦄ := by
  mvcgen [onCache]

theorem onSink_awake {β : Type} (op : StateM S β) :
    ⦃fun w : World S C α => ⌜Awake turns w⌝⦄ onSink op ⦃⇓ _ w' => ⌜Awake turns w'⌝⦄ := by
  mvcgen [onSink]

section Cache

variable [FrameCache C α]

theorem cacheBatch_awake (batch : List α) :
    ⦃fun w : World S C α => ⌜Awake turns w⌝⦄ cacheBatch batch ⦃⇓ _ w' => ⌜Awake turns w'⌝⦄ := by
  have hcache := fun β (op : StateM C β) => onCache_awake (S := S) turns op
  mvcgen [cacheBatch, appendUnlessFull, hcache]

theorem drainQueueToCache_awake :
    ⦃fun w : World S C α => ⌜Awake turns w⌝⦄ drainQueueToCache
    ⦃⇓ _ w' => ⌜Awake turns w'⌝⦄ := by
  have htake := takeQueued_awake (S := S) (C := C) turns
  have hcache := cacheBatch_awake (S := S) (C := C) turns
  have hchunks : ∀ batches, ⦃fun w : World S C α => ⌜Awake turns w⌝⦄ cacheChunks batches
      ⦃⇓ _ w' => ⌜Awake turns w'⌝⦄ := by
    intro batches
    induction batches with
    | nil => mvcgen [cacheChunks]
    | cons batch batches ih => mvcgen [cacheChunks, hcache, ih]
  mvcgen [drainQueueToCache, htake, hchunks]

theorem spillIfQueueFilling_awake :
    ⦃fun w : World S C α => ⌜Awake turns w⌝⦄ spillIfQueueFilling
    ⦃⇓ _ w' => ⌜Awake turns w'⌝⦄ := by
  have hdrain := drainQueueToCache_awake (S := S) (C := C) turns
  mvcgen [spillIfQueueFilling, otherTasks, hdrain]
  · rename_i h _ _
    exact h.turn
  · rename_i h _ _
    exact h.turn

theorem report_awake :
    ⦃fun w : World S C α => ⌜Awake turns w⌝⦄ report ⦃⇓ _ w' => ⌜Awake turns w'⌝⦄ := by
  have hcache := fun β (op : StateM C β) => onCache_awake (S := S) turns op
  mvcgen [report, hcache]

end Cache

variable [BatchSink S α] [FrameCache C α]

theorem fail_awake (e : SinkError) (batch : List α) :
    ⦃fun w : World S C α => ⌜Awake turns w⌝⦄ fail e batch ⦃⇓ _ w' => ⌜Awake turns w'⌝⦄ := by
  have hsink := fun β (op : StateM S β) => onSink_awake (C := C) turns op
  have hcache := cacheBatch_awake (S := S) (C := C) turns
  have hdrain := drainQueueToCache_awake (S := S) (C := C) turns
  have hwait := waitToRetry_awake (S := S) (C := C) turns
  mvcgen [fail, hsink, hcache, hdrain, hwait]

theorem drainCache_awake :
    ⦃fun w : World S C α => ⌜Awake turns w⌝⦄ drainCache ⦃⇓ _ w' => ⌜Awake turns w'⌝⦄ := by
  have hsink := fun β (op : StateM S β) => onSink_awake (C := C) turns op
  have hcache := fun β (op : StateM C β) => onCache_awake (S := S) turns op
  mvcgen [drainCache, resetCache, writeBatch, removeCached, written, hsink, hcache]

theorem archiveBatch_awake :
    ⦃fun w : World S C α => ⌜Awake turns w⌝⦄ archiveBatch ⦃⇓ _ w' => ⌜Awake turns w'⌝⦄ := by
  have hsink := fun β (op : StateM S β) => onSink_awake (C := C) turns op
  have hnext := nextBatch_awake (S := S) (C := C) turns
  have hfinished := queueFinished_awake (S := S) (C := C) turns
  have hfail := fail_awake (S := S) (C := C) turns
  mvcgen [archiveBatch, writeBatch, written, hsink, hnext, hfinished, hfail]

theorem pass_awake :
    ⦃fun w : World S C α => ⌜Awake turns w⌝⦄ pass ⦃⇓ _ w' => ⌜Awake turns w'⌝⦄ := by
  have hreport := report_awake (S := S) (C := C) turns
  have hspill := spillIfQueueFilling_awake (S := S) (C := C) turns
  have hsink := fun β (op : StateM S β) => onSink_awake (C := C) turns op
  have hdrain := drainCache_awake (S := S) (C := C) turns
  have hbatch := archiveBatch_awake (S := S) (C := C) turns
  have hfail := fail_awake (S := S) (C := C) turns
  mvcgen [pass, connectIfDown, hreport, hspill, hsink, hdrain, hbatch, hfail]

end Awake

/-! ### Where a stop is noticed -/

theorem tryRecv_heard (w : World S C α) (h : w.Heard) :
    ⦃fun s => ⌜s = w⌝⦄ tryRecv
    ⦃⇓ r w' => ⌜Took w w' r.toList ∧ (r = none → w'.shared.queue.buf = []) ∧ w'.Heard⌝⦄ := by
  mvcgen [tryRecv, otherTasks]
  · rename_i hw _ hpop
    subst hw
    exact ⟨turn_took _, (Channel.pop_eq_none_iff _).mp hpop, h.turn⟩
  · rename_i hw _ _ q hpop
    subst hw
    refine ⟨(turn_took _).pop hpop, by simp, ?_⟩
    have hclosed := (Channel.pop_eq_some hpop).2.2
    exact h.turn.imp_right hclosed.trans

theorem takeQueuedLoop_settled (fuel : Nat) (w : World S C α) (hfuel : w.inReach < fuel)
    (h : w.Heard) :
    ⦃fun s => ⌜s = w⌝⦄ takeQueuedLoop fuel ⦃⇓ _ w' => ⌜w'.Settled⌝⦄ := by
  induction fuel generalizing w with
  | zero => omega
  | succ fuel ih =>
    have hrecv := tryRecv_heard w h
    mvcgen [takeQueuedLoop, hrecv, ih]
    · rename_i hw _ _ w' h'
      exact h'.2.2.imp_right fun hc => ⟨hc, h'.2.1⟩
    · rename_i hw _ x _ w' h'
      have hreach := h'.1.inReach
      simp only [Option.toList_some, List.length_singleton] at hreach
      omega
    · rename_i hw _ x _ w' h'
      exact h'.2.2

theorem drainQueueToCache_settles [FrameCache C α] :
    ⦃fun w : World S C α => ⌜w.Heard⌝⦄ drainQueueToCache ⦃⇓ _ w' => ⌜w'.Settled⌝⦄ := by
  have hcache : ∀ batch, ⦃fun w : World S C α => ⌜w.Settled⌝⦄ cacheBatch batch
      ⦃⇓ _ w' => ⌜w'.Settled⌝⦄ := by
    intro batch
    mvcgen [cacheBatch, appendUnlessFull, onCache]
  have hchunks : ∀ batches, ⦃fun w : World S C α => ⌜w.Settled⌝⦄ cacheChunks batches
      ⦃⇓ _ w' => ⌜w'.Settled⌝⦄ := by
    intro batches
    induction batches with
    | nil => mvcgen [cacheChunks]
    | cons batch batches ih => mvcgen [cacheChunks, hcache, ih]
  mvcgen [drainQueueToCache, takeQueued, takeQueuedLoop_settled, hchunks]
  · exact Nat.lt_succ_self _

/-- A queue that is not finished leaves the signal to be seen. -/
theorem queueFinished_settled :
    ⦃fun w : World S C α => ⌜w.Settled⌝⦄ queueFinished
    ⦃⇓ r w' => ⌜r = false → w'.Signalled⌝⦄ := by
  mvcgen [queueFinished, isClosed, isEmpty, otherTasks]
  · rename_i h _ _ _
    intro hfull
    refine h.turn.turn.resolve_right ?_
    rintro ⟨-, hbuf⟩
    exact List.isEmpty_eq_false_iff.mp hfull hbuf
  · rename_i h _ hopen
    exact h.turn.resolve_right fun hclosed => hopen hclosed.1

theorem waitToRetry_stops :
    ⦃fun w : World S C α => ⌜w.Settled⌝⦄ waitToRetry ⦃⇓ r _ => ⌜r = false⌝⦄ := by
  have hfinished := queueFinished_settled (S := S) (C := C) (α := α)
  mvcgen [waitToRetry, stopChanged, close, otherTasks, hfinished]
  rename_i hr _ hsignal _ hnone _
  have hturn := (hsignal (Bool.eq_false_of_not_eq_true hr)).turn
  exact absurd (Bool.or_eq_true_iff.mpr hturn) hnone

/-- A failure that is not a session closed ends the loop of a worker that has heard the stop. -/
theorem fail_stops [BatchSink S α] [FrameCache C α] {e : SinkError} (he : e.isClosed = false) :
    ⦃fun w : World S C α => ⌜w.Heard⌝⦄ fail e [] ⦃⇓ r _ => ⌜r = false⌝⦄ := by
  have hdrain := drainQueueToCache_settles (S := S) (C := C) (α := α)
  have hwait := waitToRetry_stops (S := S) (C := C) (α := α)
  mvcgen [fail, onSink, hdrain, hwait]
  · rename_i hclosed
    rw [he] at hclosed
    cases hclosed

/-! ### A run, and its connects -/

/-- A sink, and what its connects have come to. -/
structure Attempted (S : Type) where
  sink : S
  connects : List SinkResult := []

instance [BatchSink S α] : BatchSink (Attempted S) α where
  connect a :=
    let r := BatchSink.connect.run a.sink
    (r.1, ⟨r.2, a.connects ++ [r.1]⟩)
  writeBatch batch a :=
    let r := (BatchSink.writeBatch batch).run a.sink
    (r.1, { a with sink := r.2 })
  keepAlive a :=
    let r := BatchSink.keepAlive.run a.sink
    (r.1, { a with sink := r.2 })
  close a := ((), { a with sink := (BatchSink.close.run a.sink).2 })

section Passes

variable [BatchSink S α] [FrameCache C α]

/-- Where the `n`-th pass of the loop begins, if it comes to it. -/
def World.atPass : Nat → World S C α → Option (World S C α)
  | 0, w => some w
  | n + 1, w => if (pass.run w).1 then atPass n (pass.run w).2 else none

/-- A pass that begins in `w`, where its connect is next. -/
def World.beforeConnect (w : World S C α) : World S C α :=
  ((do report; spillIfQueueFilling : Run S C α Unit).run w).2

/-- In the run from `w` the `n`-th pass makes a connect, which fails with `e`, and the stop has been
asked for by then; `c` is the worker as the connect begins. -/
structure World.FailsAt (w : World S C α) (n : Nat) (c : World S C α) (e : SinkError) : Prop where
  begins : ∃ u, w.atPass n = some u ∧ u.beforeConnect = c
  asked : ∃ past, w.turns = past ++ c.turns ∧ Asked past
  down : c.connected = false
  fails : (BatchSink.connect.run c.sink).1 = .error e

variable {w u c : World S C α} {n : Nat} {e : SinkError}

theorem run_succ (fuel : Nat) (w : World S C α) :
    (run (fuel + 1)).run w =
      if (pass.run w).1 then (run fuel).run (pass.run w).2
      else (true, (shutdownFlush.run (pass.run w).2).2) := by
  rw [run]
  change (do if ← pass then run fuel else do shutdownFlush; return true : Run S C α Bool).run w = _
  rw [StateT.run_bind]
  rcases pass.run w with ⟨again, w'⟩
  cases again <;> rfl

/-- After `n` passes that went on, the run goes on from there. -/
theorem run_of_atPass (h : w.atPass n = some u) (fuel : Nat) :
    (run (n + fuel)).run w = (run fuel).run u := by
  induction n generalizing w with
  | zero => rw [Nat.zero_add, Option.some.inj h]
  | succ n ih =>
    obtain ⟨hpass, hrest⟩ := Option.ite_none_right_eq_some.mp h
    rw [Nat.add_right_comm, run_succ, if_pos hpass]
    exact ih hrest

theorem atPass_awake {turns : List (List (Other α))} (hw : Awake turns w)
    (h : w.atPass n = some u) : Awake turns u := by
  induction n generalizing w with
  | zero => exact Option.some.inj h ▸ hw
  | succ n ih =>
    obtain ⟨-, hrest⟩ := Option.ite_none_right_eq_some.mp h
    exact ih (kept_of_triple (pass_awake turns) hw) hrest

/-- As a connect begins, what was asked for has been heard. -/
theorem World.FailsAt.heard (h : w.FailsAt n c e) : c.Heard := by
  obtain ⟨u, hu, rfl⟩ := h.begins
  have hreport := report_awake (S := S) (C := C) w.turns
  have hspill := spillIfQueueFilling_awake (S := S) (C := C) w.turns
  have hbefore : ⦃fun v : World S C α => ⌜Awake w.turns v⌝⦄
      (do report; spillIfQueueFilling : Run S C α Unit) ⦃⇓ _ v => ⌜Awake w.turns v⌝⦄ := by
    mvcgen [hreport, hspill]
  have hstart : Awake w.turns w := ⟨[], rfl, fun hasked => by simp [Asked] at hasked⟩
  obtain ⟨past, hturns, hheard⟩ := kept_of_triple hbefore (atPass_awake hstart hu)
  obtain ⟨past', hturns', hasked⟩ := h.asked
  obtain rfl : past = past' := List.append_cancel_right (hturns.symm.trans hturns')
  exact hheard hasked

/-- A pass whose connect fails is the failure. -/
theorem pass_of_failed (hdown : u.beforeConnect.connected = false)
    (hfails : (BatchSink.connect.run u.beforeConnect.sink).1 = .error e) :
    pass.run u = (fail e []).run
      (u.beforeConnect.setSink (BatchSink.connect.run u.beforeConnect.sink).2) := by
  have hconnect : connectIfDown.run u.beforeConnect =
      (.error e, u.beforeConnect.setSink (BatchSink.connect.run u.beforeConnect.sink).2) := by
    simp [connectIfDown, onSink, hdown, hfails]
    rfl
  unfold pass
  rw [← bind_assoc, StateT.run_bind]
  show (connectIfDown >>= _).run u.beforeConnect = _
  rw [StateT.run_bind, hconnect]
  rfl

/-- A session closed is reconnected at once. -/
theorem fail_goes_on (he : e.isClosed = true) (w : World S C α) :
    ((fail e []).run w).1 = true := by
  simp [fail, he]
  rfl

end Passes

section Connects

variable [BatchSink S α] [FrameCache C α]

omit [BatchSink S α] [FrameCache C α] in
theorem takeQueued_connects (rs : List SinkResult) :
    ⦃fun w : World (Attempted S) C α => ⌜w.sink.connects = rs⌝⦄ takeQueued
    ⦃⇓ _ w' => ⌜w'.sink.connects = rs⌝⦄ := by
  mvcgen [takeQueued_spec]
  rename_i h _ _
  intro htook _
  rw [htook.sink]
  exact h

omit [BatchSink S α] [FrameCache C α] in
theorem waitToRetry_connects (rs : List SinkResult) :
    ⦃fun w : World (Attempted S) C α => ⌜w.sink.connects = rs⌝⦄ waitToRetry
    ⦃⇓ _ w' => ⌜w'.sink.connects = rs⌝⦄ := by
  mvcgen [waitToRetry_spec]
  rename_i h _ _
  intro htook _
  rw [htook.sink]
  exact h

omit [BatchSink S α] in
theorem cacheBatch_connects (rs : List SinkResult) (batch : List α) :
    ⦃fun w : World (Attempted S) C α => ⌜w.sink.connects = rs⌝⦄ cacheBatch batch
    ⦃⇓ _ w' => ⌜w'.sink.connects = rs⌝⦄ := by
  mvcgen [cacheBatch, appendUnlessFull, onCache]

omit [BatchSink S α] in
theorem cacheChunks_connects (rs : List SinkResult) (batches : List (List α)) :
    ⦃fun w : World (Attempted S) C α => ⌜w.sink.connects = rs⌝⦄ cacheChunks batches
    ⦃⇓ _ w' => ⌜w'.sink.connects = rs⌝⦄ := by
  have hcache := cacheBatch_connects (S := S) (C := C) (α := α) rs
  induction batches with
  | nil => mvcgen [cacheChunks]
  | cons batch batches ih => mvcgen [cacheChunks, hcache, ih]

/-- A failure makes no connect. -/
theorem fail_connects (e : SinkError) (rs : List SinkResult) :
    ⦃fun w : World (Attempted S) C α => ⌜w.sink.connects = rs⌝⦄ fail e []
    ⦃⇓ _ w' => ⌜w'.sink.connects = rs⌝⦄ := by
  have htake := takeQueued_connects (S := S) (C := C) (α := α) rs
  have hchunks := cacheChunks_connects (S := S) (C := C) (α := α) rs
  have hwait := waitToRetry_connects (S := S) (C := C) (α := α) rs
  mvcgen [fail, onSink, drainQueueToCache, htake, hchunks, hwait]

/-- A shutdown makes none either. -/
theorem shutdownFlush_connects (rs : List SinkResult) :
    ⦃fun w : World (Attempted S) C α => ⌜w.sink.connects = rs⌝⦄ shutdownFlush
    ⦃⇓ _ w' => ⌜w'.sink.connects = rs⌝⦄ := by
  have htake := takeQueued_connects (S := S) (C := C) (α := α) rs
  have hcache := cacheBatch_connects (S := S) (C := C) (α := α) rs
  mvcgen [shutdownFlush, flushToSink, writeBatch, onSink, htake, hcache]

/-- The run from `w` honours a stop: a connect that begins after it was asked for and fails is the
run's last, and the shutdown follows. -/
def World.HonoursStop (w : World (Attempted S) C α) : Prop :=
  ∀ n c e, w.FailsAt n c e → ∀ fuel, n < fuel →
    ∃ w', (run fuel).run w = (true, (shutdownFlush.run w').2) ∧
      ((run fuel).run w).2.sink.connects = c.sink.connects ++ [.error e]

/-- A stop is honoured exactly if no connect that begins after it was asked for is told that the
session was closed. -/
theorem stop_honoured_iff (w : World (Attempted S) C α) :
    w.HonoursStop ↔ ∀ n c e, w.FailsAt n c e → e.isClosed = false := by
  constructor
  · intro h n c e hfails
    by_contra hclosed
    -- The failure goes on to the next pass, so a run of `n + 1` passes has not returned.
    obtain ⟨w', hrun, -⟩ := h n c e hfails (n + 1) (Nat.lt_succ_self n)
    obtain ⟨u, hu, rfl⟩ := hfails.begins
    have hpass : (pass.run u).1 = true := by
      rw [pass_of_failed hfails.down hfails.fails]
      exact fail_goes_on (Bool.eq_true_of_not_eq_false hclosed) _
    rw [run_of_atPass hu, run_succ, if_pos hpass] at hrun
    cases hrun
  · intro h n c e hfails fuel hfuel
    have hheard := hfails.heard
    obtain ⟨u, hu, rfl⟩ := hfails.begins
    obtain ⟨m, rfl⟩ := Nat.exists_eq_add_of_lt hfuel
    have hpass := pass_of_failed hfails.down hfails.fails
    have hstops : (pass.run u).1 = false := by
      rw [hpass]
      have hsink : (u.beforeConnect.setSink
          (BatchSink.connect.run u.beforeConnect.sink).2).Heard := hheard
      exact run_of_triple (Q := fun r _ => r = false) (fail_stops (h n _ e hfails)) hsink rfl
    have hrun : (run (n + m + 1)).run w = (true, (shutdownFlush.run (pass.run u).2).2) := by
      rw [Nat.add_assoc, run_of_atPass hu, run_succ, hstops]
      rfl
    refine ⟨_, hrun, ?_⟩
    rw [hrun]
    refine kept_of_triple (shutdownFlush_connects _) ?_
    rw [hpass]
    refine kept_of_triple (fail_connects e _) ?_
    have hconnect : (BatchSink.connect.run u.beforeConnect.sink.sink).1 = .error e := hfails.fails
    change u.beforeConnect.sink.connects ++ [_] = _
    rw [hconnect]

end Connects

/-- A worker told to stop before it has connected, by a gateway that closes every session in reply to
its `HELLO`. -/
def reassigned : World (Attempted (ScriptedSink Nat)) (SqliteCache Nat) Nat :=
  { channel ⟨{ connects := List.replicate 2 (.error (.closed "catalogue reassigned")) }, []⟩
      (.opened .empty 1000000 {}) ⟨10, 10, fun _ _ => false⟩ with
    turns := [[.stop]] }

/-- It connects again: the stop goes unnoticed. -/
theorem stop_not_noticed : ¬ reassigned.HonoursStop := by
  intro h
  have hfails : reassigned.FailsAt 0 reassigned.beforeConnect (.closed "catalogue reassigned") :=
    ⟨⟨reassigned, rfl, rfl⟩, ⟨[[.stop]], rfl, ⟨_, List.mem_cons_self, .inl List.mem_cons_self⟩⟩,
      rfl, rfl⟩
  obtain ⟨w', hrun, hconnects⟩ := h 0 _ _ hfails 2 (by decide)
  have htwice : ((run 2).run reassigned).2.sink.connects.length = 2 := rfl
  rw [hconnects] at htwice
  cases htwice

end WireTap
