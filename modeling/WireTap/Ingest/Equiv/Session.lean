import Mathlib.Tactic.Common
import WireTap.Ingest.Session

/-!
# What an acknowledged batch is worth

`Session::batch` looks at the queue once and then hands the samples over one by one.
`batch_ok_accepted_iff` says exactly when an `ACK_OK` is true, counting the queue's free slots along
the schedule of the other tasks; `batch_ok_of_margin` is the sizing under which it always is.
-/

namespace WireTap.Ingest

variable {α : Type}

/-! ### The queue as a number of free slots -/

structure Slots where
  free : Nat
  cap : Nat
  closed : Bool
  deriving DecidableEq

/-- The slots of a queue. -/
def slots (s : Shared α) : Slots where
  free := s.queue.cap - s.queue.buf.length
  cap := s.queue.cap
  closed := s.queue.closed

namespace Slots

/-- A frame handed over takes a slot of an open queue, if there is one. -/
def take (q : Slots) : Slots := if q.closed then q else { q with free := q.free - 1 }

/-- What a step of another task does to the slots. -/
def step (q : Slots) : Other α → Slots
  | .enqueue _ => q.take
  | .recv => { q with free := min (q.free + 1) q.cap }
  | .close => { q with closed := true }

/-- The next `n` frames each find a slot of an open queue, with a turn of the others before each. -/
def Room : Slots → List (List (Other α)) → Nat → Prop
  | _, _, 0 => True
  | q, turns, n + 1 =>
    let now := (turns.headD []).foldl step q
    now.closed = false ∧ 0 < now.free ∧ Room now.take turns.tail n

end Slots

theorem slots_enqueue (s : Shared α) (x : α) : slots (s.enqueue x) = (slots s).take := by
  unfold Shared.enqueue
  split
  · rename_i q hq
    obtain ⟨hopen, -, hbuf, hcap, hclosed⟩ := (Channel.trySend_ok_iff _ _ _).mp hq
    simp only [slots, Slots.take, hopen, hbuf, hcap, hclosed, List.length_append,
      List.length_singleton, Bool.false_eq_true, if_false]
    congr 1
  · rename_i hfull
    -- A full queue has no slot to lose.
    obtain ⟨hopen, hle⟩ := (Channel.trySend_full_iff _ _).mp hfull
    simp only [slots, Slots.take, hopen, Nat.sub_eq_zero_of_le hle, Bool.false_eq_true, if_false,
      Nat.zero_sub]
  · rename_i hclosed
    simp only [slots, Slots.take, (Channel.trySend_closed_iff _ _).mp hclosed, if_true]

theorem slots_step (s : Shared α) (o : Other α) : slots (o.step s) = (slots s).step o := by
  cases o with
  | enqueue x => exact slots_enqueue s x
  | close => rfl
  | recv =>
    have hpos := s.queue.cap_pos
    rw [Other.step]
    split
    · rename_i h
      have hempty := (Channel.pop_eq_none_iff _).mp h
      simp only [slots, Slots.step, hempty, List.length_nil, Slots.mk.injEq, and_true]
      omega
    · rename_i x q h
      obtain ⟨hbuf, hcap, hclosed⟩ := Channel.pop_eq_some h
      have hfits := s.queue.fits
      rw [hbuf, List.length_cons] at hfits
      simp only [slots, Slots.step, hbuf, hcap, hclosed, List.length_cons, Slots.mk.injEq, and_true]
      omega

theorem slots_turn (s : Session α) :
    slots s.turn.shared = (s.turns.headD []).foldl Slots.step (slots s.shared) :=
  (List.foldl_hom slots fun s o => (slots_step s o).symm).symm

/-! ### The hand-over -/

theorem enqueueAll_cons (x : α) (xs : List α) (s : Session α) :
    (enqueueAll (x :: xs)).run s = (enqueueAll xs).run (s.turn.enqueue x) := rfl

/-- A sample is accepted exactly if the queue is open and has a slot. -/
theorem enqueue_accepted (s : Session α) (x : α) :
    (s.enqueue x).accepted = s.accepted ++
      if (slots s.shared).closed = false ∧ 0 < (slots s.shared).free then [x] else [] := by
  unfold Session.enqueue
  split
  · rename_i q hq
    obtain ⟨hopen, hlt, -⟩ := (Channel.trySend_ok_iff _ _ _).mp hq
    rw [if_pos]
    exact ⟨hopen, Nat.sub_pos_of_lt hlt⟩
  · rename_i e he
    rw [if_neg, List.append_nil]
    rintro ⟨hopen, hfree⟩
    have hlt : s.shared.queue.buf.length < s.shared.queue.cap := by
      simp only [slots] at hfree
      omega
    simp only [slots] at hopen
    simp [Channel.trySend, hopen, hlt] at he

/-- What is accepted is part of what is handed over. -/
theorem enqueueAll_accepted_sublist (xs : List α) (s : Session α) :
    ∃ kept, ((enqueueAll xs).run s).2.accepted = s.accepted ++ kept ∧ kept.Sublist xs := by
  induction xs generalizing s with
  | nil => exact ⟨[], (List.append_nil _).symm, .slnil⟩
  | cons x xs ih =>
    obtain ⟨kept, hkept, hsub⟩ := ih (s.turn.enqueue x)
    rw [enqueueAll_cons, hkept, enqueue_accepted]
    split
    · exact ⟨x :: kept, by rw [List.append_assoc]; rfl, hsub.cons_cons x⟩
    · exact ⟨kept, by rw [List.append_nil]; rfl, hsub.cons x⟩

/-- Every sample is accepted exactly if there is room for each in its turn. -/
theorem enqueueAll_accepted_iff (xs : List α) (s : Session α) :
    ((enqueueAll xs).run s).2.accepted = s.accepted ++ xs ↔
      (slots s.shared).Room s.turns xs.length := by
  induction xs generalizing s with
  | nil => exact ⟨fun _ => trivial, fun _ => (List.append_nil _).symm⟩
  | cons x xs ih =>
    rw [enqueueAll_cons, List.length_cons]
    unfold Slots.Room
    rw [← slots_turn]
    by_cases hfree : (slots s.turn.shared).closed = false ∧ 0 < (slots s.turn.shared).free
    · have hnext := ih (s.turn.enqueue x)
      rw [enqueue_accepted, if_pos hfree, List.append_assoc] at hnext
      have hslots : slots (s.turn.enqueue x).shared = (slots s.turn.shared).take :=
        slots_enqueue _ x
      rw [hslots] at hnext
      exact hnext.trans ⟨fun h => ⟨hfree.1, hfree.2, h⟩, fun h => h.2.2⟩
    · -- The sample is lost, and nothing after it makes up for it.
      refine iff_of_false ?_ fun h => hfree ⟨h.1, h.2.1⟩
      intro hall
      obtain ⟨kept, hkept, hsub⟩ := enqueueAll_accepted_sublist xs (s.turn.enqueue x)
      rw [enqueue_accepted, if_neg hfree, List.append_nil] at hkept
      have hsame : s.accepted ++ (x :: xs) = s.accepted ++ kept := hall.symm.trans hkept
      have hlen := hsub.length_le
      rw [← List.append_cancel_left hsame, List.length_cons] at hlen
      omega

/-! ### The batch -/

/-- The session when the occupancy is read: after the turns before `is_closed` and before
`occupancy_pct`. -/
def Session.checked (s : Session α) : Session α := s.turn.turn

/-- The batch is refused before anything is handed over. -/
def Refused (isSerial : α → Bool) (samples : List α) (s : Session α) : Prop :=
  (s.relaysRawSerial = false ∧ samples.any isSerial = true) ∨ s.turn.shared.isClosed = true ∨
    refuseAbovePct ≤ s.checked.shared.occupancyPct

/-- The batch as one conditional. -/
theorem batch_eq (isSerial : α → Bool) (samples : List α) (s : Session α) :
    (batch isSerial samples).run s =
      if !s.relaysRawSerial && samples.any isSerial then (.malformed, s)
      else if s.turn.shared.isClosed then (.overloaded, s.turn)
      else if refuseAbovePct ≤ s.checked.shared.occupancyPct then (.overloaded, s.checked)
      else (.ok, ((enqueueAll samples).run s.checked).2) := by
  change StateT.run (if !s.relaysRawSerial && samples.any isSerial then _ else _) s = _
  split
  · rfl
  · change StateT.run (if s.turn.shared.isClosed = true then _ else _) s.turn = _
    split
    · rfl
    · change StateT.run (if refuseAbovePct ≤ s.checked.shared.occupancyPct then _ else _) s.checked
        = _
      split <;> rfl

theorem batch_of_refused {isSerial : α → Bool} {samples : List α} {s : Session α}
    (h : Refused isSerial samples s) : ((batch isSerial samples).run s).1 ≠ .ok := by
  rw [batch_eq]
  by_cases hserial : (!s.relaysRawSerial && samples.any isSerial) = true
  · rw [if_pos hserial]
    rintro ⟨⟩
  · rw [if_neg hserial]
    have hlater : s.turn.shared.isClosed = true ∨
        refuseAbovePct ≤ s.checked.shared.occupancyPct := by
      rcases h with ⟨hraw, hany⟩ | h
      · rw [hraw, hany] at hserial
        exact absurd rfl hserial
      · exact h
    by_cases hclosed : s.turn.shared.isClosed = true
    · rw [if_pos hclosed]
      rintro ⟨⟩
    · rw [if_neg hclosed, if_pos (hlater.resolve_left hclosed)]
      rintro ⟨⟩

theorem batch_of_not_refused {isSerial : α → Bool} {samples : List α} {s : Session α}
    (h : ¬ Refused isSerial samples s) :
    (batch isSerial samples).run s = (.ok, ((enqueueAll samples).run s.checked).2) := by
  obtain ⟨hserial, hrest⟩ := not_or.mp h
  obtain ⟨hopen, hpct⟩ := not_or.mp hrest
  have hraw : ¬ (!s.relaysRawSerial && samples.any isSerial) = true := by
    intro hraw
    rw [Bool.and_eq_true, Bool.not_eq_true'] at hraw
    exact hserial hraw
  rw [batch_eq, if_neg hraw, if_neg hopen, if_neg hpct]

/-- A session that relays no raw serial hands over none. -/
theorem not_serial_of_accepted {isSerial : α → Bool} {samples : List α} {s : Session α} {x : α}
    (hrelays : s.relaysRawSerial = false)
    (hx : x ∈ ((batch isSerial samples).run s).2.accepted) (hnew : x ∉ s.accepted) :
    isSerial x = false := by
  rw [batch_eq, hrelays] at hx
  split at hx
  · exact absurd hx hnew
  · rename_i hnone
    split at hx
    · exact absurd hx hnew
    · split at hx
      · exact absurd hx hnew
      · obtain ⟨kept, hkept, hsub⟩ := enqueueAll_accepted_sublist samples s.checked
        rw [hkept] at hx
        rcases List.mem_append.mp hx with hold | hmem
        · exact absurd hold hnew
        · by_contra hserial
          refine hnone ?_
          rw [Bool.not_false, Bool.true_and, List.any_eq_true]
          exact ⟨x, hsub.mem hmem, Bool.not_eq_false _ ▸ hserial⟩

/-- A batch that is not refused is accepted whole exactly if the slots last. -/
theorem batch_accepts_all_iff {isSerial : α → Bool} {samples : List α} {s : Session α}
    (h : ¬ Refused isSerial samples s) :
    ((batch isSerial samples).run s).2.accepted = s.accepted ++ samples ↔
      (slots s.checked.shared).Room s.checked.turns samples.length := by
  rw [batch_of_not_refused h]
  exact enqueueAll_accepted_iff samples s.checked

/-- An `ACK_OK` means that every sample was accepted, exactly if the batch is refused or the slots
last: each sample finds the queue open with a slot free, the slots being those the check saw, less
those other producers and the samples before it take, plus those the worker frees. -/
theorem batch_ok_accepted_iff (isSerial : α → Bool) (samples : List α) (s : Session α) :
    (((batch isSerial samples).run s).1 = .ok →
      ((batch isSerial samples).run s).2.accepted = s.accepted ++ samples) ↔
    Refused isSerial samples s ∨
      (slots s.checked.shared).Room s.checked.turns samples.length := by
  by_cases hrefused : Refused isSerial samples s
  · exact iff_of_true (fun h => absurd h (batch_of_refused hrefused)) (.inl hrefused)
  · have hok : ((batch isSerial samples).run s).1 = .ok := by rw [batch_of_not_refused hrefused]
    rw [batch_accepts_all_iff hrefused]
    constructor
    · intro h
      exact .inr (h hok)
    · rintro (h | h) -
      · exact absurd h hrefused
      · exact h

/-- A session of its own with an empty queue of four. -/
def ofFour (turns : List (List (Other Nat))) : Session Nat where
  shared := { queue := .new 4, counters := {} }
  turns
  relaysRawSerial := true

/-- A batch of five for a queue of four, empty and left alone: the check passes, the batch is
acknowledged, and its last sample is dropped. -/
theorem batch_ok_drops_last :
    ((batch (fun _ => false) [1, 2, 3, 4, 5]).run (ofFour [])).1 = .ok ∧
      ((batch (fun _ => false) [1, 2, 3, 4, 5]).run (ofFour [])).2.accepted = [1, 2, 3, 4] ∧
      ((batch (fun _ => false) [1, 2, 3, 4, 5]).run (ofFour [])).2.shared.counters.dropped = 1 := by
  decide +kernel

/-! ### A queue large enough for its batches -/

/-- A frame of another producer. -/
def Other.isEnqueue : Other α → Bool
  | .enqueue _ => true
  | _ => false

/-- What a turn without a close leaves: an open queue stays open, and each frame handed over takes
one slot at most. -/
structure Slots.After (q q' : Slots) (frames : Nat) : Prop where
  closed : q'.closed = q.closed
  cap : q'.cap = q.cap
  free : q.free ≤ q'.free + frames
  fits : q'.free ≤ q'.cap

theorem Slots.after_take (q : Slots) (hfits : q.free ≤ q.cap) : After q q.take 1 := by
  unfold take
  split
  · exact ⟨rfl, rfl, Nat.le_succ _, hfits⟩
  · exact ⟨rfl, rfl, Nat.le_add_of_sub_le (Nat.le_refl _), Nat.le_trans (Nat.sub_le _ _) hfits⟩

theorem Slots.after_turn (turn : List (Other α)) (q : Slots) (hclose : .close ∉ turn)
    (hfits : q.free ≤ q.cap) : After q (turn.foldl step q) (turn.countP Other.isEnqueue) := by
  induction turn generalizing q with
  | nil => exact ⟨rfl, rfl, Nat.le_refl _, hfits⟩
  | cons o turn ih =>
    rw [List.mem_cons, not_or] at hclose
    have hstep : After q (q.step o) (if o.isEnqueue then 1 else 0) := by
      cases o with
      | enqueue x => exact after_take q hfits
      | recv => exact ⟨rfl, rfl, Nat.le_min.mpr ⟨Nat.le_succ _, hfits⟩, Nat.min_le_right _ _⟩
      | close => exact absurd rfl hclose.1
    have hrest := ih (q.step o) hclose.2 hstep.fits
    rw [List.foldl_cons, List.countP_cons]
    refine ⟨hrest.closed.trans hstep.closed, hrest.cap.trans hstep.cap, ?_, hrest.fits⟩
    have hfree := hstep.free
    have hfree' := hrest.free
    omega

/-- The next turn and those after it make up all of them. -/
theorem countP_turns (turns : List (List (Other α))) :
    turns.flatten.countP Other.isEnqueue =
      (turns.headD []).countP Other.isEnqueue + turns.tail.flatten.countP Other.isEnqueue := by
  cases turns with
  | nil => rfl
  | cons turn turns => exact List.countP_append

theorem close_notMem_headD {turns : List (List (Other α))} (h : ∀ turn ∈ turns, .close ∉ turn) :
    .close ∉ turns.headD [] := by
  cases turns with
  | nil => exact List.not_mem_nil
  | cons turn turns => exact h turn List.mem_cons_self

/-- Slots for the batch and for everything else handed over meanwhile are room enough. -/
theorem Slots.room_of_le (n : Nat) (turns : List (List (Other α))) (q : Slots)
    (hopen : q.closed = false) (hfits : q.free ≤ q.cap)
    (hclose : ∀ turn ∈ turns, .close ∉ turn)
    (hle : n + turns.flatten.countP Other.isEnqueue ≤ q.free) : q.Room turns n := by
  induction n generalizing q turns with
  | zero => trivial
  | succ n ih =>
    have hturn := after_turn (turns.headD []) q (close_notMem_headD hclose) hfits
    have htake := after_take _ hturn.fits
    have hcount := countP_turns turns
    have hfree := hturn.free
    have hfree' := htake.free
    refine ⟨hturn.closed.trans hopen, by omega, ih turns.tail _ ?_ htake.fits ?_ (by omega)⟩
    · exact htake.closed.trans (hturn.closed.trans hopen)
    · intro turn hmem
      exact hclose turn (List.mem_of_mem_tail hmem)

/-- The check leaves more than a hundredth of the queue free. -/
theorem cap_lt_of_occupancyPct_lt (s : Shared α) (h : s.occupancyPct < refuseAbovePct) :
    (slots s).cap < 100 * (slots s).free := by
  rw [s.occupancyPct_eq.1, refuseAbovePct, Nat.div_lt_iff_lt_mul s.queue.cap_pos] at h
  have hfits := s.queue.fits
  simp only [slots]
  omega

/-- In a queue a hundred times as large as the batch and everything else handed over meanwhile, and
not closed meanwhile, an `ACK_OK` always means that every sample was accepted. -/
theorem batch_ok_of_margin (isSerial : α → Bool) (samples : List α) (s : Session α)
    (hclose : ∀ turn ∈ s.turns, .close ∉ turn)
    (hcap : 100 * (samples.length + s.turns.flatten.countP Other.isEnqueue) ≤ s.shared.queue.cap) :
    ((batch isSerial samples).run s).1 = .ok →
      ((batch isSerial samples).run s).2.accepted = s.accepted ++ samples := by
  intro hok
  by_cases hrefused : Refused isSerial samples s
  · exact absurd hok (batch_of_refused hrefused)
  · rw [batch_accepts_all_iff hrefused]
    have hopen : s.turn.shared.isClosed = false :=
      eq_false_of_ne_true fun h => hrefused (.inr (.inl h))
    have hpct : s.checked.shared.occupancyPct < refuseAbovePct :=
      Nat.lt_of_not_le fun h => hrefused (.inr (.inr h))
    -- The two turns before the occupancy is read leave the queue open and its size alone.
    have hclose' : ∀ turn ∈ s.turns.tail, .close ∉ turn :=
      fun turn hmem => hclose turn (List.mem_of_mem_tail hmem)
    have hfirst := Slots.after_turn (s.turns.headD []) (slots s.shared)
      (close_notMem_headD hclose) (Nat.sub_le _ _)
    rw [← slots_turn] at hfirst
    have hsecond := Slots.after_turn (s.turns.tail.headD []) (slots s.turn.shared)
      (close_notMem_headD hclose') hfirst.fits
    have hchecked : slots s.checked.shared =
        (s.turns.tail.headD []).foldl Slots.step (slots s.turn.shared) := slots_turn s.turn
    rw [← hchecked] at hsecond
    have hmargin := cap_lt_of_occupancyPct_lt _ hpct
    rw [hsecond.cap, hfirst.cap] at hmargin
    have hcount := countP_turns s.turns
    have hcount' := countP_turns s.turns.tail
    refine Slots.room_of_le _ s.turns.tail.tail _ (hsecond.closed.trans hopen) hsecond.fits ?_ ?_
    · intro turn hmem
      exact hclose' turn (List.mem_of_mem_tail hmem)
    · change s.shared.queue.cap < _ at hmargin
      omega

end WireTap.Ingest
