import Mathlib.Data.List.Forall2
import Mathlib.Tactic.SplitIfs
import WireTap.Lib.Incremental
import WireTap.Daemon.Gvret

/-!
# What a GVRET client is sent

`client_misses_nothing`: from the read that makes a client's decoder binary, the samples the receiver
has gone past fall into one segment for each drain, in order.  A drain has received the samples of its
segment, but for as many as the lag it returned; and the frame bytes written decode to the CAN samples
received that are no remote frames, less those still in `out`.

What a step can do is said once (`Moves`).  The invariant (`Follows`) keeps the drains apart from
the drain under way, and the bytes written from those in `out`.
-/

namespace WireTap.Daemon.Client

open Wire Received

variable {δ : Type} {lib : GvretLib δ}

/-! ### Steps -/

/-- A step outside: the client's own state and the receiver's place stay. -/
structure Unmoved (c c' : Client δ) : Prop where
  decoder : c'.decoder = c.decoder
  out : c'.out = c.out
  serving : c'.serving = c.serving
  received : c'.received = c.received
  drains : c'.drains = c.drains
  written : c'.written = c.written
  next : c'.frames.next = c.frames.next
  since (place : Nat) : c'.frames.since place = c.frames.since place

theorem reply_kept (lib : GvretLib δ) (c : Client δ) (command : ClientCommand) :
    (c.reply lib command).frames = c.frames ∧ (c.reply lib command).received = c.received ∧
      (c.reply lib command).drains = c.drains ∧ (c.reply lib command).written = c.written ∧
      (c.reply lib command).decoder = c.decoder := by
  cases command with
  | transmit bus arbId extended data declared =>
    unfold reply
    dsimp only
    split_ifs <;> exact ⟨rfl, rfl, rfl, rfl, rfl⟩
  | _ => exact ⟨rfl, rfl, rfl, rfl, rfl⟩

/-- Answering commands touches none of what is broadcast. -/
theorem replies_kept (lib : GvretLib δ) (commands : List ClientCommand) (c : Client δ) :
    (commands.foldl (reply lib) c).frames = c.frames ∧
      (commands.foldl (reply lib) c).received = c.received ∧
      (commands.foldl (reply lib) c).drains = c.drains ∧
      (commands.foldl (reply lib) c).written = c.written ∧
      (commands.foldl (reply lib) c).decoder = c.decoder := by
  induction commands generalizing c with
  | nil => exact ⟨rfl, rfl, rfl, rfl, rfl⟩
  | cons command commands ih =>
    obtain ⟨hframes, hreceived, hdrains, hwritten, hdecoder⟩ := ih (c.reply lib command)
    obtain ⟨hframes', hreceived', hdrains', hwritten', hdecoder'⟩ := reply_kept lib c command
    exact ⟨hframes.trans hframes', hreceived.trans hreceived', hdrains.trans hdrains',
      hwritten.trans hwritten', hdecoder.trans hdecoder'⟩

/-- A read: replies are to be written, and `drain` is dropped with nothing received. -/
structure Answers (lib : GvretLib δ) (bytes : Bytes) (c c' : Client δ) : Prop where
  serving : ∃ binary, c.serving = .selecting binary
  decoder : c'.decoder = (lib.decoder.feed c.decoder bytes).1
  serving' : c'.serving = .writing .replies
  frames : c'.frames = c.frames
  received : c'.received = c.received
  drains : c'.drains = c.drains
  written : c'.written = c.written

theorem answers_of_read {c c' : Client δ} {bytes : Bytes} (h : step lib c (.read bytes) = some c') :
    Answers lib bytes c c' := by
  unfold step at h
  dsimp only at h
  split at h
  · rename_i binary hserving
    split_ifs at h
    obtain rfl := Option.some.inj h
    obtain ⟨hframes, hreceived, hdrains, hwritten, hdecoder⟩ :=
      replies_kept lib (lib.decoder.feed c.decoder bytes).2
        { c with decoder := (lib.decoder.feed c.decoder bytes).1 }
    exact ⟨⟨binary, hserving⟩, hdecoder, rfl, hframes, hreceived, hdrains, hwritten⟩
  · cases h

/-- What a write has added to what the socket has taken. -/
def chunk (filled : Filled) (out : Bytes) : List (Filled × Bytes) :=
  if out = [] then [] else [(filled, out)]

/-- All that a step can do. -/
inductive Moves (lib : GvretLib δ) (c : Client δ) : Client δ → Prop where
  | outside {c'} : Unmoved c c' → Moves lib c c'
  | answers {c' bytes} : Answers lib bytes c c' → Moves lib c c'
  | ends {binary why} : c.serving = .selecting binary → (why = .hungUp ∨ why = .captureGone) →
      Moves lib c { c with serving := .ended why }
  | takes {binary lagged r frames} :
      (c.serving = .selecting binary ∧ lagged = 0 ∨ c.serving = .draining binary lagged) →
      c.frames.tryRecv = (r, frames) → (r ≠ .empty ∧ r ≠ .closed) →
      Moves lib c ({ c with frames }.take lib binary lagged r)
  | drains {binary lagged} : c.serving = .draining binary lagged → Moves lib c (c.drained lagged)
  | writes {filled} : c.serving = .writing filled →
      Moves lib c ({ c with written := c.written ++ chunk filled c.out }.select lib)
  | breaks {filled} (n : Nat) : c.serving = .writing filled →
      Moves lib c
        { c with
          written := c.written ++ [(filled, c.out.take n)]
          out := c.out.drop n
          serving := .ended (.unwritable filled) }

theorem moves_of_step {c c' : Client δ} {e : ClientEvent} (h : step lib c e = some c') :
    Moves lib c c' := by
  cases e with
  -- What is not the client's own: the channel, the settings and the other clients.
  | send s =>
    simp only [step] at h
    split_ifs at h
    obtain rfl := Option.some.inj h
    exact .outside ⟨rfl, rfl, rfl, rfl, rfl, rfl, rfl, c.frames.since_send s⟩
  | overwrite n =>
    obtain rfl := Option.some.inj h
    exact .outside ⟨rfl, rfl, rfl, rfl, rfl, rfl, rfl, fun _ => rfl⟩
  | close =>
    obtain rfl := Option.some.inj h
    exact .outside ⟨rfl, rfl, rfl, rfl, rfl, rfl, rfl, fun _ => rfl⟩
  | setSpeed interface nominal =>
    obtain rfl := Option.some.inj h
    exact .outside ⟨rfl, rfl, rfl, rfl, rfl, rfl, rfl, fun _ => rfl⟩
  | others transmits =>
    obtain rfl := Option.some.inj h
    exact .outside ⟨rfl, rfl, rfl, rfl, rfl, rfl, rfl, fun _ => rfl⟩
  | read bytes => exact .answers (answers_of_read h)
  | hangUp =>
    simp only [step] at h
    split at h
    · rename_i binary hserving
      obtain rfl := Option.some.inj h
      exact .ends hserving (.inl rfl)
    · cases h
  | recv =>
    simp only [step] at h
    split at h
    · rename_i binary hserving
      split at h
      · cases h
      · obtain rfl := Option.some.inj h
        exact .ends hserving (.inr rfl)
      · rename_i r frames hempty hclosed hrecv
        obtain rfl := Option.some.inj h
        exact .takes (.inl ⟨hserving, rfl⟩) hrecv ⟨hempty, hclosed⟩
    · cases h
  | turn =>
    simp only [step] at h
    split at h
    · rename_i binary lagged hserving
      -- A drain goes on while there is room for more in the write, and something to receive.
      split_ifs at h
      · split at h
        · obtain rfl := Option.some.inj h
          exact .drains hserving
        · obtain rfl := Option.some.inj h
          exact .drains hserving
        · rename_i r frames hempty hclosed hrecv
          obtain rfl := Option.some.inj h
          exact .takes (.inr hserving) hrecv ⟨hempty, hclosed⟩
      · obtain rfl := Option.some.inj h
        exact .drains hserving
    · cases h
  | write =>
    simp only [step] at h
    split at h
    · rename_i filled hserving
      -- With nothing to write there is no write.
      have hwrites := @Moves.writes δ lib c filled hserving
      unfold chunk at hwrites
      split_ifs at h hwrites with hout
      · rw [List.append_nil] at hwrites
        exact Option.some.inj h ▸ hwrites
      · exact Option.some.inj h ▸ hwrites
    · cases h
  | writeFails n =>
    simp only [step] at h
    split at h
    · rename_i filled hserving
      split_ifs at h
      obtain rfl := Option.some.inj h
      exact .breaks n hserving
    · cases h

/-! ### Between drains nothing is held -/

/-- Only a drain under way holds what was received. -/
def Idle (c : Client δ) : Prop :=
  (∀ binary lagged, c.serving ≠ .draining binary lagged) → c.received = []

theorem idle_of_moves {c c' : Client δ} (hidle : Idle c) (h : Moves lib c c') : Idle c' := by
  intro hnot
  cases h with
  | outside hsame =>
    rw [hsame.received]
    exact hidle fun binary lagged => hsame.serving ▸ hnot binary lagged
  | answers hread =>
    obtain ⟨binary, hserving⟩ := hread.serving
    rw [hread.received]
    exact hidle (by simp [hserving])
  | ends hserving _ => exact hidle (by simp [hserving])
  | @takes binary lagged r frames _ _ hr =>
    cases r with
    | value s => exact absurd rfl (hnot binary lagged)
    | lagged n => exact absurd rfl (hnot binary (lagged + n))
    | empty => exact absurd rfl hr.1
    | closed => exact absurd rfl hr.2
  | drains _ => rfl
  | writes hserving => exact hidle (by simp [hserving])
  | breaks n hserving => exact hidle (by simp [hserving])

/-! ### Frames -/

/-- What GVRET carries: CAN, and no remote frame. -/
def dataFrame : Sample → Option CanSample
  | .can s => match s.rtr with
    | none => some s
    | some _ => none
  | _ => none

/-- The frame was encoded from the sample, at some time. -/
def Carries (f : GvretFrame) (s : CanSample) : Prop :=
  f = ⟨f.timestampUs, s.arbId, s.extended, s.bus, s.data, s.isFd⟩

/-- The bytes of frames among what was written. -/
def frameBytes (chunks : List (Filled × Bytes)) : Bytes :=
  chunks.flatMap fun chunk => match chunk.1 with
    | .frames => chunk.2
    | .replies => []

/-- The bytes of frames that are not written: a drain's, a write's, or what a write that failed
left. -/
def inFlight (c : Client δ) : Bytes :=
  match c.serving with
  | .draining _ _ => c.out
  | .writing .frames => c.out
  | .ended (.unwritable .frames) => c.out
  | _ => []

/-- A sample is encoded as a frame or passed over. -/
theorem encodeCan_eq (lib : GvretLib δ) (c : Client δ) (s : Sample) :
    ∃ frames clock, List.Forall₂ Carries frames (dataFrame s).toList ∧
      c.encodeCan lib s = { c with out := c.out ++ frames.flatMap lib.encodeFrame, clock } := by
  have hnone : c = { c with out := c.out ++ ([] : List GvretFrame).flatMap lib.encodeFrame } := by
    simp
  cases s with
  | can s =>
    unfold dataFrame encodeCan
    dsimp only
    cases s.rtr with
    | none =>
      refine ⟨[⟨c.elapsedUs, s.arbId, s.extended, s.bus, s.data, s.isFd⟩], c.clock.tail, ?_, ?_⟩
      · exact .cons rfl .nil
      · simp [encode]
    | some code => exact ⟨[], c.clock, .nil, hnone⟩
  | modbus m => exact ⟨[], c.clock, .nil, hnone⟩
  | serial r => exact ⟨[], c.clock, .nil, hnone⟩

/-- What `drain` does for a client that is binary. -/
theorem take_eq (lib : GvretLib δ) (c : Client δ) (lagged : Nat) {r : Received Sample}
    (hr : r ≠ .empty ∧ r ≠ .closed) :
    ∃ frames clock, List.Forall₂ Carries frames ((values [r]).filterMap dataFrame) ∧
      c.take lib true lagged r =
        { c with
          out := c.out ++ frames.flatMap lib.encodeFrame
          clock
          received := c.received ++ [r]
          serving := .draining true (lagged + lag [r]) } := by
  cases r with
  | value s =>
    obtain ⟨frames, clock, hcarries, heq⟩ :=
      encodeCan_eq lib { c with received := c.received ++ [.value s] } s
    refine ⟨frames, clock, ?_, ?_⟩
    · cases hs : dataFrame s with
      | none => simpa [values, hs] using hcarries
      | some d => simpa [values, hs] using hcarries
    · simp only [take, if_true, heq]
      rfl
  | lagged n =>
    refine ⟨[], c.clock, .nil, ?_⟩
    simp [take, lag]
  | empty => exact absurd rfl hr.1
  | closed => exact absurd rfl hr.2

theorem frameBytes_chunk (filled : Filled) (out : Bytes) (c : Client δ)
    (hserving : c.serving = .writing filled) (hout : c.out = out) :
    frameBytes (chunk filled out) = c.inFlight := by
  unfold frameBytes chunk inFlight
  rw [hserving, hout]
  cases filled <;> split_ifs with hempty <;> simp [hempty]

/-! ### The invariant -/

/-- The client since `c₁`: what was written and which drains have returned, the samples gone past, by
drain and for the one under way, and the frames encoded. -/
structure Follows (lib : GvretLib δ) (c₁ c : Client δ) (chunks : List (Filled × Bytes))
    (ds : List Drained) (segments : List (List Sample)) (rest : List Sample)
    (sent : List GvretFrame) : Prop where
  binary : lib.isBinary c.decoder = true
  idle : Idle c
  selecting : ∀ binary, c.serving = .selecting binary → binary = true ∧ c.out = []
  draining : ∀ binary lagged, c.serving = .draining binary lagged →
    binary = true ∧ lagged = lag c.received
  written : c.written = c₁.written ++ chunks
  drains : c.drains = c₁.drains ++ ds
  place : c₁.frames.next ≤ c.frames.next
  since : c.frames.since c₁.frames.next = segments.flatten ++ rest
  reads : List.Forall₂ (fun segment d => Reads segment d.received ∧ d.lagged = lag d.received)
    segments ds
  underWay : Reads rest c.received
  frames : List.Forall₂ Carries sent
    (((ds.flatMap fun d => values d.received) ++ values c.received).filterMap dataFrame)
  bytes : frameBytes chunks ++ c.inFlight = sent.flatMap lib.encodeFrame

section Follows

variable {c₁ c c' : Client δ} {chunks : List (Filled × Bytes)} {ds : List Drained}
  {segments : List (List Sample)} {rest : List Sample} {sent : List GvretFrame}

theorem Follows.outside (h : Follows lib c₁ c chunks ds segments rest sent) (hsame : Unmoved c c') :
    Follows lib c₁ c' chunks ds segments rest sent where
  binary := hsame.decoder ▸ h.binary
  idle := by
    unfold Idle
    rw [hsame.serving, hsame.received]
    exact h.idle
  selecting := by
    rw [hsame.serving, hsame.out]
    exact h.selecting
  draining := by
    rw [hsame.serving, hsame.received]
    exact h.draining
  written := hsame.written ▸ h.written
  drains := hsame.drains ▸ h.drains
  place := hsame.next ▸ h.place
  since := (hsame.since _).trans h.since
  reads := h.reads
  underWay := hsame.received ▸ h.underWay
  frames := hsame.received ▸ h.frames
  bytes := by
    have hflight : c'.inFlight = c.inFlight := by
      unfold inFlight
      rw [hsame.serving, hsame.out]
    rw [hflight]
    exact h.bytes

/-- Replies are no frames. -/
theorem Follows.answers {bytes : Bytes}
    (hstays : ∀ d bytes, lib.isBinary d = true → lib.isBinary (lib.decoder.feed d bytes).1 = true)
    (h : Follows lib c₁ c chunks ds segments rest sent) (hread : Answers lib bytes c c') :
    Follows lib c₁ c' chunks ds segments rest sent := by
  obtain ⟨binary, hserving⟩ := hread.serving
  refine ⟨?_, ?_, ?_, ?_, hread.written ▸ h.written, hread.drains ▸ h.drains, hread.frames ▸ h.place,
    hread.frames ▸ h.since, h.reads, hread.received ▸ h.underWay, hread.received ▸ h.frames, ?_⟩
  · rw [hread.decoder]
    exact hstays _ _ h.binary
  · intro _
    rw [hread.received]
    exact h.idle (by simp [hserving])
  · simp [hread.serving']
  · simp [hread.serving']
  · have hflight : c'.inFlight = c.inFlight := by
      unfold inFlight
      rw [hread.serving', hserving]
    rw [hflight]
    exact h.bytes

theorem Follows.ends {binary : Bool} {why : Ended} (h : Follows lib c₁ c chunks ds segments rest sent)
    (hserving : c.serving = .selecting binary) (hwhy : why = .hungUp ∨ why = .captureGone) :
    Follows lib c₁ { c with serving := .ended why } chunks ds segments rest sent := by
  refine ⟨h.binary, fun _ => h.idle (by simp [hserving]), nofun, nofun, h.written, h.drains, h.place,
    h.since, h.reads, h.underWay, h.frames, ?_⟩
  have hflight : inFlight { c with serving := .ended why } = c.inFlight := by
    unfold inFlight
    rw [hserving]
    rcases hwhy with rfl | rfl <;> rfl
  rw [hflight]
  exact h.bytes

/-- What is taken off the channel is received or counted, and a CAN sample is encoded. -/
theorem Follows.takes {binary : Bool} {lagged : Nat} {r : Received Sample} {frames : Broadcast Sample}
    (h : Follows lib c₁ c chunks ds segments rest sent)
    (hserving : c.serving = .selecting binary ∧ lagged = 0 ∨ c.serving = .draining binary lagged)
    (hrecv : c.frames.tryRecv = (r, frames)) (hr : r ≠ .empty ∧ r ≠ .closed) :
    ∃ rest' sent', Follows lib c₁ ({ c with frames }.take lib binary lagged r) chunks ds segments
      rest' sent' := by
  -- Either way what is in flight is what has been encoded, and the lag is the received samples' own.
  have hbinary : binary = true ∧ lagged = lag c.received ∧ c.inFlight = c.out := by
    rcases hserving with ⟨hserving, rfl⟩ | hserving
    · obtain ⟨hbinary, hout⟩ := h.selecting _ hserving
      refine ⟨hbinary, ?_, ?_⟩
      · rw [h.idle (by simp [hserving])]
        rfl
      · rw [hout]
        unfold inFlight
        rw [hserving]
    · obtain ⟨hbinary, hlagged⟩ := h.draining _ _ hserving
      refine ⟨hbinary, hlagged, ?_⟩
      unfold inFlight
      rw [hserving]
  obtain ⟨rfl, hlagged, hflight⟩ := hbinary
  obtain ⟨more, clock, hmore, htake⟩ := take_eq lib { c with frames } lagged hr
  rcases c.frames.reads_tryRecv hrecv with ⟨hnothing, -⟩ | ⟨-, hnext, hsent, hreads⟩
  · rcases hnothing with rfl | rfl
    · exact absurd rfl hr.1
    · exact absurd rfl hr.2
  · refine ⟨rest ++ frames.since c.frames.next, sent ++ more, ?_⟩
    rw [htake]
    refine ⟨h.binary, fun hnot => absurd rfl (hnot _ _), nofun, ?_, h.written, h.drains,
      Nat.le_trans h.place hnext, ?_, h.reads, h.underWay.append hreads, ?_, ?_⟩
    · rintro binary lagged' hdraining
      obtain ⟨rfl, rfl⟩ := Serving.draining.inj hdraining
      refine ⟨rfl, ?_⟩
      rw [lag_append, hlagged]
    · rw [Broadcast.since_append hsent hnext h.place, h.since, List.append_assoc]
    · rw [values_append, ← List.append_assoc, List.filterMap_append]
      exact List.rel_append h.frames hmore
    · show frameBytes chunks ++ (c.out ++ more.flatMap lib.encodeFrame) = _
      rw [← List.append_assoc, ← hflight, h.bytes, List.flatMap_append]

theorem Follows.drained {binary : Bool} {lagged : Nat}
    (h : Follows lib c₁ c chunks ds segments rest sent)
    (hserving : c.serving = .draining binary lagged) :
    Follows lib c₁ (c.drained lagged) chunks (ds ++ [⟨c.received, lagged⟩]) (segments ++ [rest]) []
      sent := by
  refine ⟨h.binary, fun _ => rfl, nofun, nofun, h.written, ?_, h.place, ?_, ?_, .nil, ?_, ?_⟩
  · show c.drains ++ _ = _
    rw [h.drains, List.append_assoc]
  · show c.frames.since _ = _
    simpa using h.since
  · exact List.rel_append h.reads (.cons ⟨h.underWay, (h.draining _ _ hserving).2⟩ .nil)
  · simpa [Client.drained, values] using h.frames
  · have hflight : (c.drained lagged).inFlight = c.inFlight := by
      unfold inFlight
      rw [hserving]
      rfl
    rw [hflight]
    exact h.bytes

theorem Follows.writes {filled : Filled} (h : Follows lib c₁ c chunks ds segments rest sent)
    (hserving : c.serving = .writing filled) :
    Follows lib c₁ ({ c with written := c.written ++ chunk filled c.out }.select lib)
      (chunks ++ chunk filled c.out) ds segments rest sent := by
  refine ⟨h.binary, fun _ => h.idle (by simp [hserving]), ?_, nofun, ?_, h.drains, h.place, h.since,
    h.reads, h.underWay, h.frames, ?_⟩
  · rintro binary hselecting
    obtain rfl := Serving.selecting.inj hselecting
    exact ⟨h.binary, rfl⟩
  · show c.written ++ _ = _
    rw [h.written, List.append_assoc]
  · have hflight : inFlight ({ c with written := c.written ++ chunk filled c.out }.select lib) = [] :=
      rfl
    rw [hflight, List.append_nil, ← h.bytes, ← frameBytes_chunk filled c.out c hserving rfl]
    exact List.flatMap_append

/-- What a write that failed has written is a beginning of `out`. -/
theorem Follows.breaks {filled : Filled} (h : Follows lib c₁ c chunks ds segments rest sent)
    (hserving : c.serving = .writing filled) (n : Nat) :
    Follows lib c₁
      { c with
        written := c.written ++ [(filled, c.out.take n)]
        out := c.out.drop n
        serving := .ended (.unwritable filled) }
      (chunks ++ [(filled, c.out.take n)]) ds segments rest sent := by
  refine ⟨h.binary, fun _ => h.idle (by simp [hserving]), nofun, nofun, ?_, h.drains, h.place,
    h.since, h.reads, h.underWay, h.frames, ?_⟩
  · show c.written ++ _ = _
    rw [h.written, List.append_assoc]
  · rw [← h.bytes]
    unfold inFlight frameBytes
    rw [hserving, List.flatMap_append]
    cases filled with
    | replies => simp
    | frames => simp [List.append_assoc]

theorem Follows.moves
    (hstays : ∀ d bytes, lib.isBinary d = true → lib.isBinary (lib.decoder.feed d bytes).1 = true)
    (h : Follows lib c₁ c chunks ds segments rest sent) (hmoves : Moves lib c c') :
    ∃ chunks' ds' segments' rest' sent', Follows lib c₁ c' chunks' ds' segments' rest' sent' := by
  cases hmoves with
  | outside hsame => exact ⟨_, _, _, _, _, h.outside hsame⟩
  | answers hread => exact ⟨_, _, _, _, _, h.answers hstays hread⟩
  | ends hserving hwhy => exact ⟨_, _, _, _, _, h.ends hserving hwhy⟩
  | takes hserving hrecv hr =>
    obtain ⟨rest', sent', htakes⟩ := h.takes hserving hrecv hr
    exact ⟨_, _, _, _, _, htakes⟩
  | drains hserving => exact ⟨_, _, _, _, _, h.drained hserving⟩
  | writes hserving => exact ⟨_, _, _, _, _, h.writes hserving⟩
  | breaks n hserving => exact ⟨_, _, _, _, _, h.breaks hserving n⟩

end Follows

/-- The read that makes the decoder binary is where it starts. -/
theorem follows_of_read {c c₁ : Client δ} {bytes : Bytes} (hidle : Idle c)
    (hread : step lib c (.read bytes) = some c₁) (hbinary : lib.isBinary c₁.decoder = true) :
    Follows lib c₁ c₁ [] [] [] [] [] := by
  have hanswers := answers_of_read hread
  obtain ⟨binary, hserving⟩ := hanswers.serving
  have hreceived : c₁.received = [] := by
    rw [hanswers.received]
    exact hidle (by simp [hserving])
  refine ⟨hbinary, fun _ => hreceived, ?_, ?_, (List.append_nil _).symm, (List.append_nil _).symm,
    Nat.le_refl _, c₁.frames.since_self, .nil, hreceived ▸ .nil, ?_, ?_⟩
  · simp [hanswers.serving']
  · simp [hanswers.serving']
  · rw [hreceived]
    exact .nil
  · unfold inFlight
    rw [hanswers.serving']
    rfl

/-! ### Whole runs -/

theorem idle_of_runs {frames : Broadcast Sample} {buses : BusInfo} {transmits : List Transmit}
    {clock : List UInt32} {before : List ClientEvent} {c : Client δ}
    (h : runs (step lib) (accepted lib frames buses transmits clock) before = some c) : Idle c :=
  invariant_of_runs (fun hidle hstep => idle_of_moves hidle (moves_of_step hstep)) (fun _ => rfl) h

theorem follows_of_runs
    (hstays : ∀ d bytes, lib.isBinary d = true → lib.isBinary (lib.decoder.feed d bytes).1 = true)
    {c₁ c₂ : Client δ} {after : List ClientEvent} (hstart : Follows lib c₁ c₁ [] [] [] [] [])
    (hafter : runs (step lib) c₁ after = some c₂) :
    ∃ chunks ds segments rest sent, Follows lib c₁ c₂ chunks ds segments rest sent := by
  have hstep {c c' : Client δ} {e : ClientEvent}
      (hc : ∃ chunks ds segments rest sent, Follows lib c₁ c chunks ds segments rest sent)
      (he : step lib c e = some c') :
      ∃ chunks ds segments rest sent, Follows lib c₁ c' chunks ds segments rest sent := by
    obtain ⟨chunks, ds, segments, rest, sent, h⟩ := hc
    exact h.moves hstays (moves_of_step he)
  exact invariant_of_runs hstep ⟨_, _, _, _, _, hstart⟩ hafter

/-- Encoded frames, one after another, are what a reader of them has. -/
theorem wholes_frames {β : Type} {parse : Parse UInt8 β} {decoded : GvretFrame → β}
    (hframe : ∀ f, Whole parse (lib.encodeFrame f) (decoded f)) (sent : List GvretFrame) :
    Wholes parse (sent.flatMap lib.encodeFrame) (sent.map decoded) := by
  induction sent with
  | nil => exact .nil
  | cons f sent ih => exact .cons (hframe f) ih

theorem client_misses_nothing
    (hstays : ∀ d bytes, lib.isBinary d = true → lib.isBinary (lib.decoder.feed d bytes).1 = true)
    {β : Type} {parse : Parse UInt8 β} {decoded : GvretFrame → β} (hparse : Incremental parse)
    (hframe : ∀ f, Whole parse (lib.encodeFrame f) (decoded f))
    {frames : Broadcast Sample} {buses : BusInfo} {transmits : List Transmit} {clock : List UInt32}
    {before after : List ClientEvent} {bytes : Bytes} {c c₁ c₂ : Client δ}
    (hbefore : runs (step lib) (accepted lib frames buses transmits clock) before = some c)
    (hread : step lib c (.read bytes) = some c₁) (hbinary : lib.isBinary c₁.decoder = true)
    (hafter : runs (step lib) c₁ after = some c₂) :
    ∃ chunks ds segments rest sent,
      c₂.written = c₁.written ++ chunks ∧ c₂.drains = c₁.drains ++ ds ∧
      c₂.frames.since c₁.frames.next = segments.flatten ++ rest ∧
      List.Forall₂ (fun segment d => Reads segment d.received ∧
        (values d.received).Sublist segment ∧
        segment.length = (values d.received).length + d.lagged) segments ds ∧
      Reads rest c₂.received ∧
      List.Forall₂ Carries sent
        (((ds.flatMap fun d => values d.received) ++ values c₂.received).filterMap dataFrame) ∧
      ∃ read, Decodes parse (frameBytes chunks) read ∧ read <+: sent.map decoded ∧
        (c₂.inFlight = [] → read = sent.map decoded) := by
  obtain ⟨chunks, ds, segments, rest, sent, h⟩ :=
    follows_of_runs hstays (follows_of_read (idle_of_runs hbefore) hread hbinary) hafter
  refine ⟨chunks, ds, segments, rest, sent, h.written, h.drains, h.since, ?_, h.underWay, h.frames, ?_⟩
  · refine h.reads.imp fun segment d hd => ⟨hd.1, hd.1.values_sublist, ?_⟩
    rw [hd.2]
    exact hd.1.length_eq
  · have hall : Wholes parse (frameBytes chunks ++ c₂.inFlight) (sent.map decoded) := by
      rw [h.bytes]
      exact wholes_frames hframe sent
    by_cases hflight : c₂.inFlight = []
    · rw [hflight, List.append_nil] at hall
      exact ⟨_, ⟨_, [], (List.append_nil _).symm, hall, hparse.nil⟩, List.prefix_rfl, fun _ => rfl⟩
    · obtain ⟨read, hdecodes, hprefix⟩ := hparse.decodes_of_wholes hall
      exact ⟨read, hdecodes, hprefix, fun hnone => absurd hnone hflight⟩

/-! ### A client that falls behind -/

def le32 (n : UInt32) : Bytes :=
  [n.toUInt8, (n >>> 8).toUInt8, (n >>> 16).toUInt8, (n >>> 24).toUInt8]

/-- The classic frame: `F1 00`, the time, the id, the length and the bus, the data, a zero. -/
def classicFrame (f : GvretFrame) : Bytes :=
  [0xF1, 0x00] ++ le32 f.timestampUs ++
    le32 (if f.extended then f.arbId ||| 0x80000000 else f.arbId) ++
    [UInt8.ofNat (f.bus.toNat % 16 * 16 + min f.data.length 8)] ++ f.data.take 8 ++ [0]

/-- The id and the data of a frame. -/
def classicFields (bytes : Bytes) : Bytes × Bytes := ((bytes.drop 6).take 4, (bytes.drop 11).dropLast)

def parseClassic : Parse UInt8 (Bytes × Bytes) :=
  sized 10 (fun b => .ok (b.toNat % 16 + 1)) classicFields

theorem incremental_classic : Incremental parseClassic := incremental_sized 0 rfl

theorem whole_classic (f : GvretFrame) :
    Whole parseClassic (classicFrame f) (classicFields (classicFrame f)) := by
  have hlength : (classicFrame f).length = 12 + min f.data.length 8 := by
    simp [classicFrame, le32]
    omega
  refine sized_eq_some.mpr ⟨_, _, rfl, rfl, ?_, Nat.le_refl _, by rw [List.take_length]⟩
  rw [hlength, UInt8.toNat_ofNat']
  omega

theorem classicFields_standard (timestampUs arbId : UInt32) (bus : UInt8) (data : Bytes)
    (isFd : Bool) :
    classicFields (classicFrame ⟨timestampUs, arbId, false, bus, data, isFd⟩) =
      (le32 arbId, data.take 8) := by
  simp [classicFields, classicFrame, le32]

/-- `E7 E7` and then `F1 09`, and nothing else. -/
def classicLib : GvretLib Bool where
  decoder :=
    { new := false
      feed := fun binary bytes =>
        (binary || bytes.take 2 = [0xE7, 0xE7],
          if bytes.drop 2 = [0xF1, 0x09] then [.keepalive] else []) }
  isBinary := id
  encodeDevInfo := [0xF1, 0x07]
  encodeCanbusParams := fun _ _ => [0xF1, 0x06]
  encodeNumBuses := fun count => [0xF1, 0x0C, count]
  encodeTimebase := fun us => [0xF1, 0x01] ++ le32 us
  encodeKeepalive := [0xF1, 0x09, 0xDE, 0xAD]
  encodeFrame := classicFrame

/-- Nothing sent yet. -/
def quiet : Broadcast Sample := ⟨[], 0, 0, false, Nat.le_refl 0, Nat.le_refl 0⟩

def canOf (arbId : UInt32) (rtr : Option UInt8) : Sample :=
  .can ⟨0, arbId, false, false, rtr, false, false, [0xAA, 0xBB], 1, .rx⟩

/-- Five samples, of which the first two are overwritten, the third is a remote frame, and the last
comes in while they are drained; the client sends a byte meanwhile. -/
def fallsBehind : List ClientEvent :=
  [.write, .send (canOf 1 none), .send (canOf 2 none), .send (canOf 3 (some 0)), .send (canOf 4 none),
    .overwrite 2, .read [0x00], .write, .recv, .turn, .send (canOf 5 none), .turn, .turn, .turn, .write]

theorem client_misses_two :
    ∃ c₁ c₂, step classicLib (accepted classicLib quiet ⟨1, [500000]⟩ [] [])
        (.read [0xE7, 0xE7, 0xF1, 0x09]) = some c₁ ∧
      classicLib.isBinary c₁.decoder = true ∧ runs (step classicLib) c₁ fallsBehind = some c₂ ∧
      c₂.drains.map (·.lagged) = [2] ∧
      ∃ chunks, c₂.written = c₁.written ++ chunks ∧
        Decodes parseClassic (frameBytes chunks)
          [([4, 0, 0, 0], [0xAA, 0xBB]), ([5, 0, 0, 0], [0xAA, 0xBB])] := by
  have hstart : (step classicLib (accepted classicLib quiet ⟨1, [500000]⟩ [] [])
      (.read [0xE7, 0xE7, 0xF1, 0x09])).any (fun c₁ =>
        classicLib.isBinary c₁.decoder && decide (c₁.drains = []) &&
        (runs (step classicLib) c₁ fallsBehind).any fun c₂ =>
          decide (c₂.drains.map (·.lagged) = [2] ∧
            (c₂.drains.flatMap fun d => values d.received) =
              [canOf 3 (some 0), canOf 4 none, canOf 5 none] ∧
            c₂.received = [] ∧ c₂.inFlight = [])) = true := by
    decide +kernel
  obtain ⟨c₁, hread, hrest⟩ := (Option.any_eq_true _ _).mp hstart
  simp only [Bool.and_eq_true, decide_eq_true_eq, Option.any_eq_true] at hrest
  obtain ⟨⟨hbinary, hnone⟩, c₂, hafter, hlagged, hvalues, hreceived, hflight⟩ := hrest
  obtain ⟨chunks, ds, segments, rest, sent, hwritten, hdrains, -, -, -, hsent, read, hdecodes, -,
    hall⟩ := client_misses_nothing (fun _ _ h => by simpa [classicLib] using Or.inl h) incremental_classic
      whole_classic (show runs _ _ [] = _ from rfl) hread hbinary hafter
  refine ⟨c₁, c₂, hread, hbinary, hafter, hlagged, chunks, hwritten, ?_⟩
  rw [hnone, List.nil_append] at hdrains
  rw [← hdrains, hvalues, hreceived] at hsent
  have hframes : List.Forall₂ Carries sent
      [⟨0, 4, false, false, none, false, false, [0xAA, 0xBB], 1, .rx⟩,
        ⟨0, 5, false, false, none, false, false, [0xAA, 0xBB], 1, .rx⟩] := hsent
  have hread : read = [([4, 0, 0, 0], [0xAA, 0xBB]), ([5, 0, 0, 0], [0xAA, 0xBB])] := by
    rw [hall hflight]
    cases hframes with
    | cons hfirst hframes =>
      cases hframes with
      | cons hsecond hframes =>
        cases hframes
        rw [List.map_cons, List.map_cons, hfirst, hsecond, classicFields_standard,
          classicFields_standard]
        decide
  rw [← hread]
  exact hdecodes

end WireTap.Daemon.Client
