import WireTap.Gateway.Buffer
import WireTap.Lib.Run
import WireTap.Lib.Tasks

/-!
# Buffered ingest is stored exactly once

`Buffer.Invariant` holds in every run (`run_invariant`): a drain that has the lock has it alone, a
call on its way into the buffer was decided after the last drain, and each committed call's batch is
in exactly one of the two tables, once.  `run_stored_once` reads that off.
-/

namespace WireTap.Gateway

theorem Writing.buffers_holds {w : Writing} (h : w.buffers = true) : w.holds = true := by
  cases w <;> first | rfl | cases h

theorem Writing.committed_holds {w : Writing} (h : w.holds = true) : w.committed = false := by
  cases w <;> first | rfl | cases h

theorem Writing.abort_holds (w : Writing) : w.abort.holds = false := by
  cases w <;> rfl

theorem Writing.abort_committed (w : Writing) : w.abort.committed = w.committed := by
  cases w <;> rfl

namespace Buffer

variable {s s' : Buffer}

structure Invariant (s : Buffer) : Prop where
  /-- A drain that has the lock has it alone. -/
  exclusive : .locked ∈ s.drains → ∀ w ∈ s.calls, w.holds = false
  behind : s.db.current = false → s.wasBehind = true
  /-- A call on its way into the buffer found the database behind since the last drain. -/
  decided : ∀ w ∈ s.calls, w.buffers = true → s.wasBehind = true
  /-- A buffer a call has found is not dropped under it. -/
  found : .buffering false ∈ s.calls → s.db.pending.isSome = true
  /-- The committed calls' batches are stored once each, and no other call's. -/
  once : Once .call Writing.committed s.calls s.db.rows

theorem init_invariant (version : Option Nat) (frames : Nat) (pending : Option Nat) :
    (init version frames pending).Invariant where
  exclusive := by intro h; cases h
  behind := by
    intro h
    simpa [init, CaptureDb.current] using h
  decided := by intro w h; cases h
  found := by intro h; cases h
  once := by
    intro i
    cases pending <;> simp [init, CaptureDb.rows, CaptureDb.buffered, List.count_replicate, At]

/-! ### The calls of `buffer_rows` -/

/-- A call that holds the lock goes on to `w`, with what that makes of the database. -/
theorem set_invariant {i : Nat} {w w₀ : Writing} (db : CaptureDb) (h : s.Invariant)
    (hi : s.calls[i]? = some w₀) (hopen : w₀.holds = true)
    (hbuffers : w.buffers = true → s.wasBehind = true)
    (hfound : w = .buffering false → s.db.pending.isSome = true)
    (hcurrent : db.current = s.db.current)
    (hkept : s.db.pending.isSome = true → db.pending.isSome = true)
    (honce : Once .call Writing.committed (s.calls.set i w) db.rows) :
    ({ s.setCall i w with db } : Buffer).Invariant where
  exclusive := by
    intro hlocked
    have hnone := h.exclusive hlocked w₀ (List.mem_of_getElem? hi)
    rw [hopen] at hnone
    cases hnone
  behind := fun hc => h.behind (hcurrent ▸ hc)
  decided := by
    intro w' hw' hb
    rcases List.mem_or_eq_of_mem_set hw' with hold | rfl
    · exact h.decided w' hold hb
    · exact hbuffers hb
  found := by
    intro hw'
    rcases List.mem_or_eq_of_mem_set hw' with hold | hself
    · exact hkept (h.found hold)
    · exact hkept (hfound hself.symm)
  once := honce

/-- A call that goes on without committing. -/
theorem setCall_invariant {i : Nat} {w w₀ : Writing} (h : s.Invariant)
    (hi : s.calls[i]? = some w₀) (hopen : w₀.holds = true) (hw : w.committed = false)
    (hbuffers : w.buffers = true → s.wasBehind = true)
    (hfound : w = .buffering false → s.db.pending.isSome = true) : (s.setCall i w).Invariant := by
  refine set_invariant s.db h hi hopen hbuffers hfound rfl id (h.once.move hi ?_)
  rw [hw, Writing.committed_holds hopen]

/-- A call that commits. -/
theorem commit_invariant {i : Nat} {w w₀ : Writing} {db : CaptureDb} (h : s.Invariant)
    (hi : s.calls[i]? = some w₀) (hopen : w₀.holds = true) (hw : w.committed = true)
    (hcurrent : db.current = s.db.current)
    (hkept : s.db.pending.isSome = true → db.pending.isSome = true)
    (hcount : ∀ c, db.rows.count c = s.db.rows.count c + if Batch.call i = c then 1 else 0) :
    ({ s.setCall i w with db } : Buffer).Invariant := by
  refine set_invariant db h hi hopen ?_ ?_ hcurrent hkept
    (h.once.leave hi (Writing.committed_holds hopen) hw ?_)
  · intro hb
    rw [Writing.committed_holds (Writing.buffers_holds hb)] at hw
    cases hw
  · rintro rfl
    cases hw
  · intro j
    rw [hcount]
    simp

theorem abort_invariant {i : Nat} {w : Writing} (h : s.Invariant) (hi : s.calls[i]? = some w) :
    (s.setCall i w.abort).Invariant := by
  unfold Writing.abort
  split
  · rename_i hopen
    refine setCall_invariant h hi hopen rfl ?_ ?_
    · rintro ⟨⟩
    · rintro ⟨⟩
  · -- The call is over already, and stays as it is.
    have hsame : s.calls.set i w = s.calls := by
      obtain ⟨hlt, rfl⟩ := List.getElem?_eq_some_iff.mp hi
      exact List.set_getElem_self hlt
    unfold setCall
    rw [hsame]
    exact h

/-! ### The drains -/

/-- A drain goes on to `d`, which is not the lock. -/
theorem setDrain_invariant {j : Nat} {d : Draining} (h : s.Invariant) (hd : d ≠ .locked) :
    (s.setDrain j d).Invariant where
  exclusive := by
    intro hlocked
    rcases List.mem_or_eq_of_mem_set hlocked with hold | hself
    · exact h.exclusive hold
    · exact absurd hself.symm hd
  behind := h.behind
  decided := h.decided
  found := h.found
  once := h.once

/-- No call is between its decision and its commit when a drain drops the buffer. -/
theorem drainCommit_invariant {j : Nat} (h : s.Invariant) (hj : s.drains[j]? = some .locked) :
    ({ s.setDrain j .finished with db := s.db.drain, wasBehind := !s.db.current } :
      Buffer).Invariant := by
  have hnone := h.exclusive (List.mem_of_getElem? hj)
  refine ⟨?_, ?_, ?_, ?_, ?_⟩
  · exact fun _ => hnone
  · intro hc
    change (!s.db.current) = true
    have hc : s.db.current = false := hc
    rw [hc]
    rfl
  · intro w hw hb
    have hholds := hnone w hw
    rw [Writing.buffers_holds hb] at hholds
    cases hholds
  · intro hw
    cases hnone _ hw
  · change Once .call Writing.committed s.calls s.db.drain.rows
    rw [CaptureDb.rows_drain]
    exact h.once

/-! ### A crash -/

theorem crash_invariant (h : s.Invariant) :
    ({ s with calls := s.calls.map Writing.abort, drains := s.drains.map fun _ => .finished } :
      Buffer).Invariant := by
  have hover : ∀ w ∈ s.calls.map Writing.abort, w.holds = false := by
    intro w hw
    obtain ⟨w₀, -, rfl⟩ := List.mem_map.mp hw
    exact Writing.abort_holds w₀
  refine ⟨fun _ => hover, h.behind, ?_, ?_, h.once.map Writing.abort_committed⟩
  · intro w hw hb
    have hholds := hover w hw
    rw [Writing.buffers_holds hb] at hholds
    cases hholds
  · intro hw
    cases hover _ hw

/-! ### Every step -/

theorem step_invariant {e : BufferEvent} (h : s.Invariant) (hstep : s.step e = some s') :
    s'.Invariant := by
  cases e with
  | begin =>
    simp only [step] at hstep
    split at hstep
    · cases hstep
    · rename_i hfree
      cases hstep
      have hold : ∀ {w}, w ∈ s.calls ++ [.locked] → w ∈ s.calls ∨ w = .locked := by
        intro w hw
        simpa using hw
      refine ⟨fun hlocked => absurd hlocked hfree, h.behind, ?_, ?_, h.once.start rfl⟩
      · intro w hw hb
        rcases hold hw with hw | rfl
        · exact h.decided w hw hb
        · cases hb
      · intro hw
        rcases hold hw with hw | hself
        · exact h.found hw
        · cases hself
  | probe i =>
    obtain ⟨hi, ⟨⟩⟩ := of_guard hstep
    -- Only a call that finds the database behind goes on to the buffer.
    cases hcurrent : s.db.current with
    | true => exact setCall_invariant h hi rfl rfl (by rintro ⟨⟩) (by rintro ⟨⟩)
    | false => exact setCall_invariant h hi rfl rfl (fun _ => h.behind hcurrent) (by rintro ⟨⟩)
  | look i =>
    obtain ⟨hi, ⟨⟩⟩ := of_guard hstep
    have hbehind := h.decided _ (List.mem_of_getElem? hi) rfl
    -- It holds the lock, so no drain has come since it found the database behind.
    cases hpending : s.db.pending.isSome with
    | true => exact setCall_invariant h hi rfl rfl (fun _ => hbehind) fun _ => hpending
    | false => exact setCall_invariant h hi rfl rfl (fun _ => hbehind) (by rintro ⟨⟩)
  | create i =>
    obtain ⟨⟨hi, -⟩, ⟨⟩⟩ := of_guard hstep
    have hbehind := h.decided _ (List.mem_of_getElem? hi) rfl
    exact setCall_invariant h hi rfl rfl (fun _ => hbehind) (by rintro ⟨⟩)
  | commit i answered =>
    simp only [step] at hstep
    split at hstep
    · rename_i hi
      cases hstep
      exact commit_invariant h hi rfl (by cases answered <;> rfl) rfl id
        (CaptureDb.count_rows_copy _ _)
    · rename_i created hi
      obtain ⟨-, ⟨⟩⟩ := of_guard hstep
      exact commit_invariant h hi rfl (by cases answered <;> rfl) rfl (fun _ => rfl)
        (CaptureDb.count_rows_buffer _ _)
    · cases hstep
  | abort i =>
    simp only [step] at hstep
    split at hstep
    · rename_i w hi
      cases hstep
      exact abort_invariant h hi
    · cases hstep
  | drain =>
    obtain ⟨-, ⟨⟩⟩ := of_guard hstep
    refine ⟨?_, h.behind, h.decided, h.found, h.once⟩
    intro hlocked
    exact h.exclusive (by simpa using hlocked)
  | drainLock j =>
    obtain ⟨⟨-, -, hnone⟩, ⟨⟩⟩ := of_guard hstep
    -- The lock is granted once no call holds its own.
    refine ⟨?_, h.behind, h.decided, h.found, h.once⟩
    intro _ w hw
    simpa using List.all_eq_true.mp hnone w hw
  | drainCommit j =>
    obtain ⟨hj, hnext⟩ := of_guard hstep
    split at hnext
    · cases hnext
      exact drainCommit_invariant h hj
    · -- Another drain got there first.
      cases hnext
      exact setDrain_invariant h (by rintro ⟨⟩)
  | drainAbort j =>
    obtain ⟨-, ⟨⟩⟩ := of_guard hstep
    exact setDrain_invariant h (by rintro ⟨⟩)
  | migrate version =>
    cases hstep
    -- A migration takes no lock: what the calls decided before it still stands.
    refine ⟨h.exclusive, ?_, ?_, h.found, h.once⟩
    · intro hc
      have hne : version ≠ some schemaVersion := by simpa [CaptureDb.current] using hc
      simp [hne]
    · intro w hw hb
      simp [h.decided w hw hb]
  | crash =>
    cases hstep
    exact crash_invariant h

/-! ### Runs -/

theorem run_invariant {version : Option Nat} {frames : Nat} {pending : Option Nat}
    {events : List BufferEvent} (hrun : runs step (init version frames pending) events = some s) :
    s.Invariant :=
  invariant_of_runs step_invariant (init_invariant version frames pending) hrun

/-- A step that puts a batch in the buffer is the commit of a call on its way there. -/
theorem buffered_grows {e : BufferEvent} (hstep : s.step e = some s')
    (hgrows : s.db.buffered.length < s'.db.buffered.length) :
    ∃ w ∈ s.calls, w.buffers = true := by
  -- Every other step leaves the buffer as it is, and a drain empties it.
  cases e with
  | commit i answered =>
    simp only [step] at hstep
    split at hstep
    · cases hstep
      exact absurd hgrows (Nat.lt_irrefl _)
    · rename_i created hi
      exact ⟨_, List.mem_of_getElem? hi, rfl⟩
    · cases hstep
  | drainCommit j =>
    obtain ⟨-, hnext⟩ := of_guard hstep
    split at hnext
    · cases hnext
      exact absurd hgrows (Nat.not_lt_zero _)
    · cases hnext
      exact absurd hgrows (Nat.lt_irrefl _)
  | begin =>
    simp only [step] at hstep
    split at hstep
    · cases hstep
    · cases hstep
      exact absurd hgrows (Nat.lt_irrefl _)
  | abort i =>
    simp only [step] at hstep
    split at hstep
    · cases hstep
      exact absurd hgrows (Nat.lt_irrefl _)
    · cases hstep
  | probe i | look i | create i | drain | drainLock j | drainAbort j =>
    obtain ⟨-, ⟨⟩⟩ := of_guard hstep
    exact absurd hgrows (Nat.lt_irrefl _)
  | migrate version =>
    cases hstep
    exact absurd hgrows (Nat.lt_irrefl _)
  | crash =>
    cases hstep
    exact absurd hgrows (Nat.lt_irrefl _)

/-- In every run, the batch of every call that has returned `Ok` is in `capture_frame` or in the
buffer, once in one of them; and a step that writes into the buffer finds that the database has been
behind since the last drain that dropped one. -/
theorem run_stored_once (version : Option Nat) (frames : Nat) (pending : Option Nat)
    (events : List BufferEvent) (s : Buffer)
    (hrun : runs step (init version frames pending) events = some s) :
    (∀ i written, s.calls[i]? = some (.ok written) →
      s.db.frames.count (.call i) + s.db.buffered.count (.call i) = 1) ∧
    (∀ e s', s.step e = some s' → s.db.buffered.length < s'.db.buffered.length →
      s.wasBehind = true) := by
  have h := run_invariant hrun
  constructor
  · intro i written hi
    rw [← List.count_append]
    refine (h.once i).trans ?_
    rw [at_of_getElem? hi]
    rfl
  · intro e s' hstep hgrows
    obtain ⟨w, hw, hb⟩ := buffered_grows hstep hgrows
    exact h.decided w hw hb

/-- A database that is migrated while a batch is on its way into its buffer, and drained: the batch
is in `capture_frame`, and the one after it goes straight there. -/
theorem run_stored_once_migrated :
    let events : List BufferEvent :=
      [.begin, .probe 0, .look 0, .create 0, .migrate (some 5), .commit 0 true, .drain,
        .drainLock 0, .drainCommit 0, .begin, .probe 1, .commit 1 true]
    ∃ s, runs step (init (some 4) 2 none) events = some s ∧
      s.db = ⟨some 5, [.earlier, .earlier, .call 0, .call 1], none⟩ ∧
      s.db.frames.count (.call 0) + s.db.buffered.count (.call 0) = 1 := by
  refine ⟨⟨⟨some 5, [.earlier, .earlier, .call 0, .call 1], none⟩,
    [.ok .buffered, .ok .live], [.finished], false⟩, by decide +kernel, rfl, ?_⟩
  exact (run_stored_once (some 4) 2 none
    [.begin, .probe 0, .look 0, .create 0, .migrate (some 5), .commit 0 true, .drain,
      .drainLock 0, .drainCommit 0, .begin, .probe 1, .commit 1 true] _ (by decide +kernel)).1
    0 .buffered rfl

end Buffer

end WireTap.Gateway
