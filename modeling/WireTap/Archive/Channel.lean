import Mathlib.Data.List.Basic

/-!
# The archive's queue

The bounded queue between a capture and the archive worker (`tokio::sync::mpsc`), the counters the
two ends share, and `Archive::enqueue`, the producer's end.  One operation on the queue is one
atomic step; the interleaving of producers and worker is `Batcher.lean`'s.

Left out: the reporting state (`last_bucket`, `last_full_log`, the log lines), which decides
nothing.
-/

namespace WireTap

variable {α : Type}

/-- A bounded queue: never more than `cap` samples, and `mpsc::channel` refuses a zero `cap`. -/
structure Channel (α : Type) where
  buf : List α
  cap : Nat
  closed : Bool
  cap_pos : 0 < cap
  fits : buf.length ≤ cap

namespace Channel

/-- `mpsc::channel(n.max(1))`. -/
def new (n : Nat) : Channel α where
  buf := []
  cap := max n 1
  closed := false
  cap_pos := by omega
  fits := Nat.zero_le _

/-- Why `try_send` handed the sample back. -/
inductive TrySendError where
  | full
  | closed
  deriving DecidableEq

/-- `Sender::try_send`: a closed queue is said before a full one. -/
def trySend (q : Channel α) (sample : α) : Except TrySendError (Channel α) :=
  if q.closed then .error .closed
  else if h : q.buf.length < q.cap then
    .ok { q with
      buf := q.buf ++ [sample]
      fits := by rw [List.length_append, List.length_singleton]; exact h }
  else .error .full

/-- The oldest sample and the queue without it. -/
def pop (q : Channel α) : Option (α × Channel α) :=
  match h : q.buf with
  | [] => none
  | x :: xs =>
    some (x, { q with
      buf := xs
      fits := by
        have hfits := q.fits
        rw [h, List.length_cons] at hfits
        omega })

/-- `Receiver::close`: what is queued can still be taken, nothing more is let in. -/
def close (q : Channel α) : Channel α := { q with closed := true }

@[simp] theorem new_buf (n : Nat) : (new n : Channel α).buf = [] := rfl
@[simp] theorem new_closed (n : Nat) : (new n : Channel α).closed = false := rfl
@[simp] theorem close_buf (q : Channel α) : q.close.buf = q.buf := rfl
@[simp] theorem close_cap (q : Channel α) : q.close.cap = q.cap := rfl
@[simp] theorem close_closed (q : Channel α) : q.close.closed = true := rfl

/-- `try_send` succeeds exactly on an open queue with a free slot, and then only appends. -/
theorem trySend_ok_iff (q q' : Channel α) (x : α) :
    q.trySend x = .ok q' ↔
      q.closed = false ∧ q.buf.length < q.cap ∧
        q'.buf = q.buf ++ [x] ∧ q'.cap = q.cap ∧ q'.closed = q.closed := by
  unfold trySend
  by_cases hc : q.closed
  · simp [hc]
  · by_cases hlt : q.buf.length < q.cap
    · simp only [hc, Bool.false_eq_true, ↓reduceIte, hlt, ↓reduceDIte, Except.ok.injEq, true_and]
      constructor
      · rintro rfl
        exact ⟨rfl, rfl, rfl⟩
      · rintro ⟨hb, hcap, hcl⟩
        cases q'
        simp only at hb hcap hcl
        subst hb hcap hcl
        simp
    · simp [hc, hlt]

theorem trySend_full_iff (q : Channel α) (x : α) :
    q.trySend x = .error .full ↔ q.closed = false ∧ q.cap ≤ q.buf.length := by
  unfold trySend
  by_cases hc : q.closed
  · simp [hc]
  · by_cases hlt : q.buf.length < q.cap
    · simp [hc, hlt]
    · simp [hc, hlt, Nat.le_of_not_lt hlt]

theorem trySend_closed_iff (q : Channel α) (x : α) :
    q.trySend x = .error .closed ↔ q.closed = true := by
  unfold trySend
  by_cases hc : q.closed
  · simp [hc]
  · by_cases hlt : q.buf.length < q.cap <;> simp [hc, hlt]

theorem pop_eq_none_iff (q : Channel α) : q.pop = none ↔ q.buf = [] := by
  unfold pop
  split <;> simp_all

/-- What `pop` takes is the head, and it leaves the rest as it was. -/
theorem pop_eq_some {q q' : Channel α} {x : α} (h : q.pop = some (x, q')) :
    q.buf = x :: q'.buf ∧ q'.cap = q.cap ∧ q'.closed = q.closed := by
  unfold pop at h
  split at h
  · simp at h
  · rename_i hbuf
    simp only [Option.some.injEq, Prod.mk.injEq] at h
    obtain ⟨rfl, rfl⟩ := h
    exact ⟨hbuf, rfl, rfl⟩

end Channel

/-- What the server has done with frames since it started.  `last_ack_ms` is left out: it is a
clock reading, shown and never decided on. -/
structure Counters where
  enqueued : Nat := 0
  written : Nat := 0
  dropped : Nat := 0
  cached : Nat := 0
  cacheRecovered : Nat := 0
  connected : Bool := false
  cachePending : Nat := 0
  deriving DecidableEq

/-- What a producer's `enqueue` shares with the worker. -/
structure Shared (α : Type) where
  queue : Channel α
  counters : Counters
  closedReported : Bool := false

namespace Shared

/-- `Archive::enqueue`: hand over a frame, or drop it if the queue is full or closed. -/
def enqueue (s : Shared α) (sample : α) : Shared α :=
  match s.queue.trySend sample with
  | .ok queue =>
    { s with queue, counters := { s.counters with enqueued := s.counters.enqueued + 1 } }
  | .error .full => { s with counters := { s.counters with dropped := s.counters.dropped + 1 } }
  | .error .closed => { s with closedReported := true }

/-- `Archive::is_closed`. -/
def isClosed (s : Shared α) : Bool := s.queue.closed

/-- `Archive::depth`: frames in the queue, and the size it was given. -/
def depth (s : Shared α) : Nat × Nat := (s.queue.buf.length, s.queue.cap)

/-- `Archive::occupancy_pct`: how full the queue is, as a percentage. -/
def occupancyPct (s : Shared α) : Nat :=
  let (size, cap) := s.depth
  let pct := size * 100 / cap
  if pct < 256 then pct else 100

/-- The percentage never leaves `0..100`, so the `u8` conversion never falls back. -/
theorem occupancyPct_eq (s : Shared α) :
    s.occupancyPct = s.queue.buf.length * 100 / s.queue.cap ∧ s.occupancyPct ≤ 100 := by
  have hle : s.queue.buf.length * 100 / s.queue.cap ≤ 100 := by
    calc
      s.queue.buf.length * 100 / s.queue.cap ≤ s.queue.cap * 100 / s.queue.cap :=
        Nat.div_le_div_right (Nat.mul_le_mul_right _ s.queue.fits)
      _ = 100 := Nat.mul_div_cancel_left _ s.queue.cap_pos
  unfold occupancyPct depth
  simp only
  rw [if_pos (by omega)]
  exact ⟨rfl, hle⟩

end Shared

end WireTap
