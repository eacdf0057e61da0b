import Mathlib
import WireTap.Archive.Equiv.Batcher

/-!
# How the worker uses its sink

A sink is `ready` while its connection is up and nothing on it has failed.  The worker writes to it
and keeps it alive only then: after a failure it closes the sink and connects again before anything
else (`run_uses`).  So a property of a sink that its operations keep under that discipline holds
throughout a run.
-/

namespace WireTap

open Std.Do

set_option mvcgen.warning false

variable {S C α : Type}

/-! ### Operations that leave the sink alone -/

/-- It looks at the sink and at whether it is connected, and at nothing else of the worker. -/
def AboutSink (P : World S C α → Prop) : Prop :=
  ∀ w w' : World S C α, w'.sink = w.sink → w'.connected = w.connected → P w → P w'

section Cache

variable {P : World S C α → Prop}

theorem onCache_about {β : Type} (hp : AboutSink P) (op : StateM C β) :
    ⦃fun w : World S C α => ⌜P w⌝⦄ onCache op ⦃⇓ _ w' => ⌜P w'⌝⦄ := by
  mvcgen [onCache]
  rename_i w hw
  exact hp w _ rfl rfl hw

variable [FrameCache C α]

theorem removeCached_about (hp : AboutSink P) (cached : List (Cached α)) :
    ⦃fun w : World S C α => ⌜P w⌝⦄ removeCached cached ⦃⇓ _ w' => ⌜P w'⌝⦄ := by
  have hcache := fun {β : Type} (op : StateM C β) => onCache_about hp op
  mvcgen [removeCached, hcache]
  rename_i w hw _
  exact hp w _ rfl rfl hw

theorem resetCache_about (hp : AboutSink P) :
    ⦃fun w : World S C α => ⌜P w⌝⦄ resetCache ⦃⇓ _ w' => ⌜P w'⌝⦄ := by
  have hcache := fun {β : Type} (op : StateM C β) => onCache_about hp op
  mvcgen [resetCache, hcache]
  rename_i w hw _
  exact hp w _ rfl rfl hw

theorem report_about (hp : AboutSink P) :
    ⦃fun w : World S C α => ⌜P w⌝⦄ report ⦃⇓ _ w' => ⌜P w'⌝⦄ := by
  have hcache := fun {β : Type} (op : StateM C β) => onCache_about hp op
  mvcgen [report, hcache]
  rename_i w hw _
  exact hp w _ rfl rfl hw

theorem cacheBatch_about [LawfulFrameCache C] (hp : AboutSink P) (batch : List α) :
    ⦃fun w : World S C α => ⌜P w⌝⦄ cacheBatch batch ⦃⇓ _ w' => ⌜P w'⌝⦄ := by
  mvcgen [cacheBatch_spec]
  rename_i w h r w'
  intro hs
  exact hp w w' hs.sink hs.connected h

end Cache

/-! ### The discipline -/

variable [BatchSink S α]

/-- What is true of a sink, `sound` at any time and `ready` while its connection is up, if it is
written to and kept alive only when it is ready. -/
structure SinkUse (S : Type) {α : Type} [BatchSink S α] where
  sound : S → Prop
  ready : S → Prop
  connect (s : S) : sound s → sound (BatchSink.connect.run s).2 ∧
    ((BatchSink.connect.run s).1 = .ok () → ready (BatchSink.connect.run s).2)
  keepAlive (s : S) : ready s → sound (BatchSink.keepAlive.run s).2 ∧
    ((BatchSink.keepAlive.run s).1 = .ok () → ready (BatchSink.keepAlive.run s).2)
  writeBatch (batch : List α) (s : S) : ready s → sound ((BatchSink.writeBatch batch).run s).2 ∧
    (((BatchSink.writeBatch batch).run s).1 = .ok () →
      ready ((BatchSink.writeBatch batch).run s).2)
  close (s : S) : sound s → sound (BatchSink.close.run s).2

/-- A worker that is connected has a sink that is ready. -/
structure World.Uses (use : SinkUse S) (w : World S C α) : Prop where
  sound : use.sound w.sink
  ready : w.connected = true → use.ready w.sink

/-- What an operation on the sink that may fail leaves. -/
def AfterUse (use : SinkUse S) (r : SinkResult) (w : World S C α) : Prop :=
  use.sound w.sink ∧ (r = .ok () → w.connected = true ∧ w.Uses use)

namespace World.Uses

variable {use : SinkUse S} {w w' : World S C α}

theorem same (h : w.Uses use) (hsink : w'.sink = w.sink) (hconnected : w'.connected = w.connected) :
    w'.Uses use := by
  refine ⟨?_, ?_⟩
  · rw [hsink]
    exact h.sound
  · rw [hsink, hconnected]
    exact h.ready

theorem took {xs : List α} (h : w.Uses use) (ht : Took w w' xs) : w'.Uses use :=
  h.same ht.sink ht.connected

variable [FrameCache C α] [LawfulFrameCache C]

theorem spilled {batch : List α} (h : w.Uses use) (hs : Spilled w w' batch) : w'.Uses use :=
  h.same hs.sink hs.connected

theorem emptied (h : w.Uses use) (he : Emptied w w') : w'.Uses use := by
  obtain ⟨w₁, xs, ht, hs⟩ := he
  exact (h.took ht).spilled hs

end World.Uses

theorem aboutSink_sound (use : SinkUse S) :
    AboutSink fun w : World S C α => use.sound w.sink := by
  intro w w' hsink _ h
  rw [hsink]
  exact h

theorem aboutSink_up (use : SinkUse S) :
    AboutSink fun w : World S C α => w.connected = true ∧ w.Uses use := by
  intro w w' hsink hconnected h
  exact ⟨hconnected.trans h.1, h.2.same hsink hconnected⟩

/-! ### The calls to the sink -/

section Calls

variable (use : SinkUse S)

/-- A write to a sink that is ready leaves it ready, unless it fails. -/
theorem writeBatch_uses (batch : List α) :
    ⦃fun w : World S C α => ⌜w.connected = true ∧ w.Uses use⌝⦄ writeBatch batch
    ⦃⇓ r w' => ⌜use.sound w'.sink ∧ (r = .ok () → w'.connected = true ∧ w'.Uses use)⌝⦄ := by
  mvcgen [writeBatch_spec]
  rename_i w h r w'
  rintro ⟨s, hrun, rfl⟩
  have hwrite := use.writeBatch batch w.sink (h.2.ready h.1)
  rw [hrun] at hwrite
  exact ⟨hwrite.1, fun hok => ⟨h.1, hwrite.1, fun _ => hwrite.2 hok⟩⟩

theorem keepAlive_uses :
    ⦃fun w : World S C α => ⌜w.connected = true ∧ w.Uses use⌝⦄ onSink BatchSink.keepAlive
    ⦃⇓ r w' => ⌜AfterUse use r w'⌝⦄ := by
  mvcgen [onSink_spec]
  rename_i w h r w'
  rintro ⟨s, hrun, rfl⟩
  have halive := use.keepAlive w.sink (h.2.ready h.1)
  rw [hrun] at halive
  exact ⟨halive.1, fun hok => ⟨h.1, halive.1, fun _ => halive.2 hok⟩⟩

theorem close_uses :
    ⦃fun w : World S C α => ⌜use.sound w.sink⌝⦄ onSink BatchSink.close
    ⦃⇓ _ w' => ⌜use.sound w'.sink⌝⦄ := by
  mvcgen [onSink_spec]
  rename_i w h r w'
  rintro ⟨s, hrun, rfl⟩
  have hclose := use.close w.sink h
  rw [hrun] at hclose
  exact hclose

/-- What a shutdown writes, it writes only to a sink that is there. -/
theorem flushToSink_uses (remaining : List α) :
    ⦃fun w : World S C α => ⌜w.Uses use⌝⦄ flushToSink remaining
    ⦃⇓ _ w' => ⌜use.sound w'.sink⌝⦄ := by
  have hwrite := writeBatch_uses (C := C) use
  mvcgen [flushToSink, hwrite]
  · rename_i h
    exact h.1
  · rename_i h _
    exact h.sound

theorem connectIfDown_uses :
    ⦃fun w : World S C α => ⌜w.Uses use⌝⦄ connectIfDown ⦃⇓ r w' => ⌜AfterUse use r w'⌝⦄ := by
  mvcgen [connectIfDown, onSink_spec]
  · rename_i h hup
    exact ⟨h.sound, fun _ => ⟨hup, h⟩⟩
  · rename_i w h _ r _ hr w₁ hrun _
    obtain ⟨s, hrun, rfl⟩ := hrun
    have hconnect := use.connect w.sink h.sound
    rw [hrun] at hconnect
    exact ⟨hconnect.1, fun _ => ⟨rfl, hconnect.1, fun _ => hconnect.2 rfl⟩⟩
  · rename_i w h _ r _ _ hne hr w₁ hrun
    obtain ⟨s, hrun, rfl⟩ := hrun
    have hconnect := use.connect w.sink h.sound
    rw [hrun] at hconnect
    exact ⟨hconnect.1, fun hok => absurd (hr.symm.trans hok) hne⟩

end Calls

/-! ### The worker -/

section Worker

variable [FrameCache C α] (use : SinkUse S)

/-- Unless a write fails, the sink is as ready as it was. -/
theorem drainCache_uses :
    ⦃fun w : World S C α => ⌜w.connected = true ∧ w.Uses use⌝⦄ drainCache
    ⦃⇓ r w' => ⌜use.sound w'.sink ∧ (∀ b, r = .ok b → w'.connected = true ∧ w'.Uses use)⌝⦄ := by
  have hup := aboutSink_up (C := C) use
  have hcache := fun {β : Type} (op : StateM C β) => onCache_about hup op
  have hreset := resetCache_about hup
  have hwrite := writeBatch_uses (C := C) use
  have hremove := fun (r : WriteResult) => removeCached_about (C := C)
    (P := fun w => use.sound w.sink ∧ (r = .ok () → w.connected = true ∧ w.Uses use))
    (fun w w' hsink hconnected h =>
      ⟨aboutSink_sound use w w' hsink hconnected h.1, fun hok => hup w w' hsink hconnected (h.2 hok)⟩)
  mvcgen [drainCache, hcache, hwrite, hremove, hreset, written]
  · rename_i h _
    exact ⟨h.2.sound, fun _ _ => h⟩
  · rename_i h
    exact ⟨h.2.sound, fun _ _ => h⟩
  · rename_i w h _ _ _
    exact hup w _ rfl rfl h
  · rename_i h
    exact ⟨h.2.sound, fun _ _ => h⟩
  · rename_i h _ _
    exact ⟨h.2.sound, fun _ _ => h⟩
  · rename_i w h _ _
    exact hup w _ rfl rfl h
  · rename_i w hw _ _ hr
    exact ⟨hw.1, fun _ _ => hup w _ rfl rfl (hw.2 hr)⟩
  · rename_i w hw _ _ _ _
    exact ⟨hw.1, fun _ hb => by cases hb⟩

variable [LawfulFrameCache C]

/-- `fail` closes a sink that is no longer ready. -/
theorem fail_uses (e : SinkError) (batch : List α) :
    ⦃fun w : World S C α => ⌜use.sound w.sink⌝⦄ fail e batch ⦃⇓ _ w' => ⌜w'.Uses use⌝⦄ := by
  have hdown : ∀ {w w' : World S C α} {r : Unit}, use.sound w.sink →
      (∃ s, BatchSink.close.run w.sink = (r, s) ∧ w' = w.setSink s) → (w'.down e).Uses use := by
    rintro w w' r h ⟨s, hrun, rfl⟩
    have hclose := use.close w.sink h
    rw [hrun] at hclose
    exact ⟨hclose, nofun⟩
  mvcgen [fail, onSink_spec, cacheBatch_spec, drainQueueToCache_spec, waitToRetry_spec]
  · rename_i h _ _ hclose _ _ _ _ _ w hs
    exact (hdown h hclose).spilled hs
  · rename_i h _ _ hclose _ _ _ _ _ w hs _ w₁ he r w₂
    intro ht _
    exact (((hdown h hclose).spilled hs).emptied he).took ht
  · rename_i h _ _ hclose _ _ _ _
    exact hdown h hclose
  · rename_i h _ _ hclose _ _ _ _ _ w₁ he r w₂
    intro ht _
    exact ((hdown h hclose).emptied he).took ht

theorem archiveBatch_uses :
    ⦃fun w : World S C α => ⌜w.connected = true ∧ w.Uses use⌝⦄ archiveBatch
    ⦃⇓ _ w' => ⌜w'.Uses use⌝⦄ := by
  have hfail := fail_uses (C := C) use
  have halive := keepAlive_uses (C := C) use
  have hwrite := writeBatch_uses (C := C) use
  mvcgen [archiveBatch, nextBatch_spec, queueFinished_spec, hfail, halive, hwrite, written]
  · rename_i h _ _ _ ht _ _ _ hq
    exact (h.2.took ht).took hq.1
  · rename_i h _ _ _ ht _ _ _ hq
    exact ⟨hq.1.connected.trans (ht.connected.trans h.1), (h.2.took ht).took hq.1⟩
  · rename_i h
    exact h.1
  · rename_i h
    exact (h.2 rfl).2
  · rename_i h _ _ _ ht
    exact ⟨ht.connected.trans h.1, h.2.took ht⟩
  · rename_i h _
    exact h.1
  · rename_i h
    exact h.2.2.same rfl rfl

theorem shutdownFlush_uses :
    ⦃fun w : World S C α => ⌜w.Uses use⌝⦄ shutdownFlush ⦃⇓ _ w' => ⌜use.sound w'.sink⌝⦄ := by
  have hflush := flushToSink_uses (C := C) use
  have hcache := fun batch => cacheBatch_about (C := C) (aboutSink_sound use) batch
  have hclose := close_uses (C := C) use
  mvcgen [shutdownFlush, takeQueued_spec, hflush, hcache, hclose]
  · rename_i h _ _ _ _ ht
    exact h.took ht.1
  · rename_i h _ _ _ _ ht
    exact (h.took ht.1).sound

theorem pass_uses :
    ⦃fun w : World S C α => ⌜w.Uses use⌝⦄ pass ⦃⇓ _ w' => ⌜w'.Uses use⌝⦄ := by
  have hreport := report_about (C := C) (P := fun w => w.Uses use)
    fun w w' hsink hconnected h => h.same hsink hconnected
  have hconnect := connectIfDown_uses (C := C) use
  have hfail := fail_uses (C := C) use
  have hdrain := drainCache_uses (C := C) use
  have harchive := archiveBatch_uses (C := C) use
  mvcgen [pass, hreport, spillIfQueueFilling_spec, hconnect, hfail, hdrain, harchive]
  · rename_i h _ _ he
    exact h.emptied he
  · rename_i h
    exact h.1
  · rename_i h
    exact h.2 rfl
  · rename_i h
    exact h.1
  · rename_i h
    exact (h.2 _ rfl).2
  · rename_i h
    exact h.2 _ rfl

/-- However far a worker has come, its sink was used only while it was ready. -/
theorem run_uses (fuel : Nat) :
    ⦃fun w : World S C α => ⌜w.Uses use⌝⦄ run fuel ⦃⇓ _ w' => ⌜use.sound w'.sink⌝⦄ := by
  have hpass := pass_uses (C := C) use
  have hflush := shutdownFlush_uses (C := C) use
  induction fuel with
  | zero =>
    mvcgen [run]
    rename_i h
    exact h.sound
  | succ fuel ih => mvcgen [run, hpass, ih, hflush]

end Worker

/-- A worker just made is not connected. -/
theorem World.Uses.init {use : SinkUse S} {sink : S} (cache : C) (batching : Batching)
    (turns : List (List (Other α))) (h : use.sound sink) :
    (World.init sink cache batching turns).Uses use := ⟨h, nofun⟩

end WireTap
