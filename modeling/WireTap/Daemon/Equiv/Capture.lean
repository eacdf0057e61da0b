import WireTap.Daemon.Capture
import WireTap.Lib.History
import WireTap.Wire.Reference

/-!
# What is captured, published and answered

`run_publishes`: an archive is given every frame read from its interface, once and in order; the
channel carries those this box did not send; and the responder is given the Test Pattern frames of its
bus among those sent since it subscribed, but for as many as it is told it missed.

`run_reports`: if the socket's events are those of one socket after another, the journal has one
line for the beginning of each outage and one for its end.
-/

namespace WireTap.Daemon

open Wire Received

variable {φ ρ : Type} {can : CanLib φ} {lib : ResponderLib ρ}

/-! ### What came of a run -/

/-- The events of one of the loops. -/
def CaptureEvent.of (i : Nat) : CaptureEvent φ → List (CanEvent φ)
  | device j event => if j = i then [event] else []
  | _ => []

def eventsOf (i : Nat) (es : List (CaptureEvent φ)) : List (CanEvent φ) :=
  es.flatMap (CaptureEvent.of i)

/-- What is archived of frames read from an interface. -/
def Capture.Source.samples (can : CanLib φ) (dir : Direction) (src : Capture.Source)
    (reads : List (CanRead φ)) : List Sample :=
  reads.map fun read => .can (sampleOf can read src.bus dir)

/-- What is published of an event: what an interface read and this box did not send. -/
def CaptureEvent.published (can : CanLib φ) (sources : List Capture.Source) (dir : Direction) :
    CaptureEvent φ → List Sample
  | device i event =>
    match sources[i]? with
    | some src => src.samples can dir (event.frames.filter fun read => !read.transmitted)
    | none => []
  | _ => []

/-- A frame the responder answers. -/
def patternFrame (lib : ResponderLib ρ) (bus : UInt8) : Sample → Option CanSample
  | .can s => if Responding.accepts lib s bus then some s else none
  | _ => none

/-- The responder after these frames, and its replies. -/
def answers (lib : ResponderLib ρ) : ρ → List CanSample → ρ × List PatternReply
  | responder, [] => (responder, [])
  | responder, s :: heard =>
    let (next, replies) :=
      lib.onFrame responder s.arbId s.extended s.isFd s.data s.tsUs.toNat
    let (last, more) := answers lib next heard
    (last, replies ++ more)

theorem answers_append (responder : ρ) (xs ys : List CanSample) :
    answers lib responder (xs ++ ys) =
      ((answers lib (answers lib responder xs).1 ys).1,
        (answers lib responder xs).2 ++ (answers lib (answers lib responder xs).1 ys).2) := by
  induction xs generalizing responder with
  | nil => rfl
  | cons x xs ih => simp [answers, ih]

/-! ### One turn of a loop -/

/-- What a turn does with the frames it reads. -/
structure Publishes (can : CanLib φ) (r r' : Reader φ) (frames frames' : Broadcast Sample)
    (reads : List (CanRead φ)) : Prop where
  iface : r'.iface = r.iface
  bus : r'.bus = r.bus
  dir : r'.dir = r.dir
  hasArchive : r'.hasArchive = r.hasArchive
  archived : r'.archived = r.archived ++
    if r.hasArchive then reads.map fun read => .can (sampleOf can read r.bus r.dir) else []
  sent : frames'.sent = frames.sent ++ (reads.filter fun read => !read.transmitted).map fun read =>
    .can (sampleOf can read r.bus r.dir)
  next : frames'.next = frames.next
  closed : frames'.closed = frames.closed

theorem publish_publishes (r : Reader φ) (frames : Broadcast Sample) (read : CanRead φ) :
    Publishes can r (r.publish can frames read).1 frames (r.publish can frames read).2 [read] := by
  unfold Reader.publish Reader.enqueue Broadcast.send
  cases ht : read.transmitted <;> cases ha : r.hasArchive <;> constructor <;> simp [ht, ha]

theorem Publishes.trans {r₁ r₂ r₃ : Reader φ} {f₁ f₂ f₃ : Broadcast Sample}
    {xs ys : List (CanRead φ)} (h : Publishes can r₁ r₂ f₁ f₂ xs)
    (h' : Publishes can r₂ r₃ f₂ f₃ ys) : Publishes can r₁ r₃ f₁ f₃ (xs ++ ys) where
  iface := h'.iface.trans h.iface
  bus := h'.bus.trans h.bus
  dir := h'.dir.trans h.dir
  hasArchive := h'.hasArchive.trans h.hasArchive
  archived := by
    rw [h'.archived, h.archived, h.hasArchive, h.bus, h.dir]
    split <;> simp
  sent := by
    rw [h'.sent, h.sent, h.bus, h.dir]
    simp
  next := h'.next.trans h.next
  closed := h'.closed.trans h.closed

theorem publishAll_publishes (can : CanLib φ) (r : Reader φ) (frames : Broadcast Sample)
    (reads : List (CanRead φ)) :
    Publishes can r (r.publishAll can frames reads).1 frames (r.publishAll can frames reads).2
      reads := by
  induction reads generalizing r frames with
  | nil => constructor <;> simp [Reader.publishAll]
  | cons read reads ih => exact (publish_publishes r frames read).trans (ih _ _)

theorem publishAll_status (can : CanLib φ) (r : Reader φ) (frames : Broadcast Sample)
    (reads : List (CanRead φ)) :
    (r.publishAll can frames reads).1.status = r.status := by
  induction reads generalizing r frames with
  | nil => rfl
  | cons read reads ih =>
    have hone : (r.publish can frames read).1.status = r.status := by
      unfold Reader.publish
      split <;> rfl
    exact (ih _ _).trans hone

/-- A loop's flags decide nothing about what it publishes. -/
theorem notice_same (r : Reader φ) (event : CanEvent φ) :
    (r.notice event).iface = r.iface ∧ (r.notice event).bus = r.bus ∧
      (r.notice event).dir = r.dir ∧ (r.notice event).hasArchive = r.hasArchive ∧
      (r.notice event).archived = r.archived ∧
      (r.notice event).status.frames = r.status.frames + event.frames.length := by
  cases event with
  | connected =>
    unfold Reader.notice
    cases r.reopening <;> simp [Reader.rereadRate, Reader.log, CanEvent.frames,
      DeviceStatus.nowUp]
  | read reads =>
    unfold Reader.notice
    cases r.lost <;> cases r.rateStale <;>
      simp [Reader.rereadRate, Reader.log, CanEvent.frames, DeviceStatus.nowUp, DeviceStatus.read]
  | disconnected error consecutive =>
    unfold Reader.notice
    by_cases hc : consecutive = 1 <;> simp [hc, Reader.log, CanEvent.frames, DeviceStatus.lost]
  | bus => simp [Reader.notice, CanEvent.frames]

/-- A turn publishes what it reads, and counts it. -/
theorem turn_publishes (can : CanLib φ) (r : Reader φ) (frames : Broadcast Sample)
    (event : CanEvent φ) :
    Publishes can r (r.turn can frames event).1 frames (r.turn can frames event).2 event.frames ∧
      (r.turn can frames event).1.status.frames = r.status.frames + event.frames.length := by
  obtain ⟨hiface, hbus, hdir, harchive, harchived, hframes⟩ := notice_same r event
  have h := publishAll_publishes can (r.notice event) frames event.frames
  have hstatus := publishAll_status can (r.notice event) frames event.frames
  refine ⟨⟨h.iface.trans hiface, h.bus.trans hbus, h.dir.trans hdir, h.hasArchive.trans harchive,
    ?_, ?_, h.next, h.closed⟩, ?_⟩
  · rw [Reader.turn, h.archived, harchived, harchive, hbus, hdir]
  · rw [Reader.turn, h.sent, hbus, hdir]
  · rw [Reader.turn, hstatus, hframes]

/-! ### The responder -/

/-- What the responder has heard and answered is what it received. -/
structure Answers (lib : ResponderLib ρ) (start : ρ) (r : Responding ρ) : Prop where
  heard : r.heard = (values r.hears).filterMap (patternFrame lib r.bus)
  answered : answers lib start r.heard = (r.responder, r.replies)

theorem receive_answers {start : ρ} {r : Responding ρ} (h : Answers lib start r)
    (failures : List (Nat × String)) (got : Received Sample) :
    Answers lib start (r.receive lib failures got) := by
  have hvalues : values (r.hears ++ [got]) = values r.hears ++ values [got] :=
    values_append r.hears [got]
  have hnothing (hs : (values [got]).filterMap (patternFrame lib r.bus) = []) :
      r.heard = (values (r.hears ++ [got])).filterMap (patternFrame lib r.bus) := by
    rw [hvalues, List.filterMap_append, hs, List.append_nil]
    exact h.heard
  cases got with
  | empty => exact ⟨hnothing rfl, h.answered⟩
  | closed => exact ⟨hnothing rfl, h.answered⟩
  | lagged n => exact ⟨hnothing rfl, h.answered⟩
  | value s =>
    cases s with
    | modbus m => exact ⟨hnothing rfl, h.answered⟩
    | serial c => exact ⟨hnothing rfl, h.answered⟩
    | can s =>
      by_cases ha : Responding.accepts lib s r.bus
      · have hone : [s] = (values [.value (.can s)]).filterMap (patternFrame lib r.bus) := by
          simp [values, patternFrame, ha]
        constructor
        · simp only [Responding.receive, if_pos ha]
          rw [hvalues, List.filterMap_append, ← hone, ← h.heard]
        · simp only [Responding.receive, if_pos ha]
          rw [answers_append, h.answered]
          simp [answers]
      · have hnone : (values [.value (.can s)]).filterMap (patternFrame lib r.bus) = [] := by
          simp [values, patternFrame, ha]
        simp only [Responding.receive, if_neg ha]
        exact ⟨hnothing hnone, h.answered⟩

theorem receive_bus (lib : ResponderLib ρ) (r : Responding ρ) (failures : List (Nat × String))
    (got : Received Sample) :
    (r.receive lib failures got).bus = r.bus ∧
      (r.receive lib failures got).hears = r.hears ++ [got] := by
  cases got with
  | value s =>
    cases s with
    | can s =>
      unfold Responding.receive
      by_cases ha : Responding.accepts lib s r.bus <;> simp [ha]
    | modbus m => exact ⟨rfl, rfl⟩
    | serial c => exact ⟨rfl, rfl⟩
  | _ => exact ⟨rfl, rfl⟩

/-! ### The run -/

/-- What a loop decides by: all but what it has read and archived. -/
def Reader.flags (r : Reader φ) : Reader φ := { r with archived := [], reads := [] }

theorem flags_notice (r : Reader φ) (event : CanEvent φ) :
    (r.notice event).flags = r.flags.notice event := by
  cases event with
  | connected =>
    unfold Reader.notice Reader.flags
    cases r.reopening <;> rfl
  | read reads =>
    unfold Reader.notice Reader.flags
    cases r.lost <;> cases r.rateStale <;> rfl
  | disconnected error consecutive =>
    unfold Reader.notice Reader.flags
    by_cases hc : consecutive = 1 <;> simp [hc, Reader.log]
  | bus => rfl

theorem flags_publishAll (r : Reader φ) (frames : Broadcast Sample) (reads : List (CanRead φ)) :
    (r.publishAll can frames reads).1.flags = r.flags := by
  induction reads generalizing r frames with
  | nil => rfl
  | cons read reads ih =>
    have hone : (r.publish can frames read).1.flags = r.flags := by
      unfold Reader.publish
      split <;> rfl
    exact (ih _ _).trans hone

/-- The loop of an interface, after these events. -/
structure Captures (can : CanLib φ) (dir : Direction) (src : Capture.Source)
    (events : List (CanEvent φ)) (r : Reader φ) : Prop where
  bus : r.bus = src.bus
  dir_eq : r.dir = dir
  hasArchive : r.hasArchive = src.hasArchive
  archived : r.archived =
    if src.hasArchive then src.samples can dir (events.flatMap CanEvent.frames) else []
  counted : r.status.frames = (events.flatMap CanEvent.frames).length
  flags : r.flags = events.foldl Reader.notice (src.reader dir)

theorem Captures.turn {dir : Direction} {src : Capture.Source} {events : List (CanEvent φ)}
    {r : Reader φ} (h : Captures can dir src events r) (frames : Broadcast Sample)
    (event : CanEvent φ) :
    Captures can dir src (events ++ [event]) (r.turn can frames event).1 := by
  obtain ⟨hp, hcounted⟩ := turn_publishes can r frames event
  refine ⟨hp.bus.trans h.bus, hp.dir.trans h.dir_eq, hp.hasArchive.trans h.hasArchive, ?_, ?_, ?_⟩
  · rw [hp.archived, h.archived, h.hasArchive, h.bus, h.dir_eq, List.flatMap_append,
      List.flatMap_singleton]
    split <;> simp [Capture.Source.samples]
  · rw [hcounted, h.counted, List.flatMap_append, List.flatMap_singleton, List.length_append]
  · rw [Reader.turn, flags_publishAll, flags_notice, h.flags, List.foldl_append]
    rfl

/-- What a responder that subscribed at `place` has received, heard and answered. -/
structure Listens (lib : ResponderLib ρ) (place : Nat) (start : Responding ρ)
    (frames : Broadcast Sample) (r : Responding ρ) : Prop where
  le_next : place ≤ frames.next
  hears : Reads (frames.since place) r.hears
  answers : Answers lib start.responder r
  bus : r.bus = start.bus

/-- The loops after these events. -/
structure Published (can : CanLib φ) (lib : ResponderLib ρ) (sources : List Capture.Source)
    (dir : Direction) (es : List (CaptureEvent φ)) (s : Capture φ ρ) : Prop where
  length : s.readers.length = sources.length
  reader : ∀ (i : Nat) (src : Capture.Source), sources[i]? = some src →
    ∃ r, s.readers[i]? = some r ∧ Captures can dir src (eventsOf i es) r
  sent : s.frames.sent = es.flatMap (CaptureEvent.published can sources dir)
  closed : s.frames.closed = false
  silent : s.responding = none → ∀ bus canFd, .subscribe bus canFd ∉ es
  listens : ∀ r, s.responding = some r → ∃ before bus canFd after,
    es = before ++ .subscribe bus canFd :: after ∧
      Listens lib (before.flatMap (CaptureEvent.published can sources dir)).length
        (.start lib bus canFd) s.frames r

variable {sources : List Capture.Source} {dir : Direction} {es : List (CaptureEvent φ)}
  {s s' : Capture φ ρ}

/-- The interfaces' loops have not had a turn. -/
theorem Published.readers_snoc (h : Published can lib sources dir es s) {e : CaptureEvent φ}
    (he : ∀ i, e.of i = []) (i : Nat) (src : Capture.Source) (hi : sources[i]? = some src) :
    ∃ r, s.readers[i]? = some r ∧ Captures can dir src (eventsOf i (es ++ [e])) r := by
  rw [eventsOf, List.flatMap_append, List.flatMap_singleton, he, List.append_nil]
  exact h.reader i src hi

/-- A responder that listens goes on where it subscribed. -/
theorem Published.listens_snoc (h : Published can lib sources dir es s) (e : CaptureEvent φ)
    {r r' : Responding ρ} {frames : Broadcast Sample} (hr : s.responding = some r)
    (hnext : ∀ place start, Listens lib place start s.frames r →
      Listens lib place start frames r') :
    ∃ before bus canFd after, es ++ [e] = before ++ .subscribe bus canFd :: after ∧
      Listens lib (before.flatMap (CaptureEvent.published can sources dir)).length
        (.start lib bus canFd) frames r' := by
  obtain ⟨before, bus, canFd, after, rfl, hlistens⟩ := h.listens r hr
  exact ⟨before, bus, canFd, after ++ [e], by simp, hnext _ _ hlistens⟩

theorem Published.silent_snoc (h : Published can lib sources dir es s) {e : CaptureEvent φ}
    (he : ∀ bus canFd, e ≠ .subscribe bus canFd) (hnone : s.responding = none) (bus : UInt8)
    (canFd : Bool) : .subscribe bus canFd ∉ es ++ [e] := by
  intro hmem
  rcases List.mem_append.mp hmem with hold | hnew
  · exact h.silent hnone bus canFd hold
  · exact he bus canFd (List.mem_singleton.mp hnew).symm

theorem Published.device (h : Published can lib sources dir es s) {j : Nat}
    {event : CanEvent φ} (hstep : s.step can lib (.device j event) = some s') :
    Published can lib sources dir (es ++ [.device j event]) s' := by
  obtain ⟨r, hr, hnext⟩ := Option.bind_eq_some_iff.mp hstep
  obtain rfl := Option.some.inj hnext
  have hj : j < sources.length := by
    have hlt := (List.getElem?_eq_some_iff.mp hr).1
    have hlength := h.length
    omega
  obtain ⟨p, hp⟩ : ∃ src, sources[j]? = some src := ⟨_, List.getElem?_eq_getElem hj⟩
  obtain ⟨r₀, hr₀, hcaptures⟩ := h.reader j p hp
  obtain rfl : r₀ = r := Option.some.inj (hr₀.symm.trans hr)
  obtain ⟨hpublishes, -⟩ := turn_publishes can r₀ s.frames event
  constructor
  · simpa using h.length
  · intro i src hi
    rw [eventsOf, List.flatMap_append, List.flatMap_singleton, CaptureEvent.of]
    by_cases hij : j = i
    · subst hij
      obtain rfl : p = src := Option.some.inj (hp.symm.trans hi)
      have hturn := hcaptures.turn s.frames event
      rw [if_pos rfl]
      exact ⟨_, List.getElem?_set_self (List.getElem?_eq_some_iff.mp hr₀).1, hturn⟩
    · obtain ⟨r', hr', hsame⟩ := h.reader i src hi
      rw [if_neg hij, List.append_nil]
      exact ⟨r', (List.getElem?_set_ne hij).trans hr', hsame⟩
  · show (r₀.turn can s.frames event).2.sent = _
    rw [hpublishes.sent, h.sent, hcaptures.bus, hcaptures.dir_eq, List.flatMap_append]
    simp [CaptureEvent.published, hp, Capture.Source.samples]
  · exact hpublishes.closed.trans h.closed
  · exact h.silent_snoc (fun _ _ => nofun)
  · intro listener hlistener
    refine h.listens_snoc _ hlistener fun place start hlistens => ?_
    have hsince : (r₀.turn can s.frames event).2.since place = s.frames.since place := by
      unfold Broadcast.since
      rw [hpublishes.next, hpublishes.sent, List.take_append_of_le_length s.frames.next_le]
    refine ⟨?_, ?_, hlistens.answers, hlistens.bus⟩
    · show place ≤ (r₀.turn can s.frames event).2.next
      rw [hpublishes.next]
      exact hlistens.le_next
    · show Reads ((r₀.turn can s.frames event).2.since place) listener.hears
      rw [hsince]
      exact hlistens.hears

theorem Published.overwrite (h : Published can lib sources dir es s) {n : Nat}
    (hstep : s.step can lib (.overwrite n) = some s') :
    Published can lib sources dir (es ++ [.overwrite n]) s' := by
  obtain rfl := Option.some.inj hstep
  refine ⟨h.length, h.readers_snoc fun _ => rfl, ?_, h.closed, h.silent_snoc (fun _ _ => nofun), ?_⟩
  · show s.frames.sent = _
    simpa [CaptureEvent.published] using h.sent
  · intro r hr
    exact h.listens_snoc _ hr fun _ _ hlistens =>
      ⟨hlistens.le_next, hlistens.hears, hlistens.answers, hlistens.bus⟩

theorem Published.subscribe (h : Published can lib sources dir es s) {bus : UInt8} {canFd : Bool}
    (hstep : s.step can lib (.subscribe bus canFd) = some s') :
    Published can lib sources dir (es ++ [.subscribe bus canFd]) s' := by
  obtain ⟨-, hnext⟩ := of_guard hstep
  obtain rfl := Option.some.inj hnext
  have hsent : s.frames.sent =
      (es ++ [CaptureEvent.subscribe bus canFd]).flatMap
        (CaptureEvent.published can sources dir) := by
    simpa [CaptureEvent.published] using h.sent
  refine ⟨h.length, h.readers_snoc fun _ => rfl, hsent, h.closed, fun hnone => (by cases hnone), ?_⟩
  intro r hr
  obtain rfl := Option.some.inj hr
  refine ⟨es, bus, canFd, [], rfl, ?_⟩
  rw [← h.sent]
  refine ⟨Nat.le_refl _, ?_, ⟨rfl, rfl⟩, rfl⟩
  have hnothing : s.frames.subscribe.since s.frames.sent.length = [] := s.frames.subscribe.since_self
  rw [hnothing]
  exact Reads.nil

theorem Published.hear (h : Published can lib sources dir es s)
    {failures : List (Nat × String)} (hstep : s.step can lib (.hear failures) = some s') :
    Published can lib sources dir (es ++ [.hear failures]) s' := by
  obtain ⟨r, hr, hreceive⟩ := Option.bind_eq_some_iff.mp hstep
  cases hgot : s.frames.tryRecv with
  | mk got frames =>
  simp only [hgot] at hreceive
  split at hreceive
  · cases hreceive
  rename_i hgoes
  obtain rfl := Option.some.inj hreceive
  simp only [Bool.or_eq_true, decide_eq_true_eq, not_or] at hgoes
  have hclosed : frames.closed = s.frames.closed := by
    have hsnd : s.frames.tryRecv.2.closed = s.frames.closed := by
      unfold Broadcast.tryRecv
      split_ifs <;> rfl
    rwa [hgot] at hsnd
  obtain ⟨hbus, hhears⟩ := receive_bus lib r failures got
  have hopen : got ≠ .closed := by
    rintro rfl
    unfold Broadcast.tryRecv at hgot
    split_ifs at hgot with hlag hmore hshut
    · cases hgot
    · cases hgot
    · exact absurd hshut (by simp [h.closed])
    · cases hgot
  obtain ⟨hnothing, -⟩ | ⟨-, hnext, hsent, hreads⟩ := Broadcast.reads_tryRecv hgot
  · exact absurd hnothing (by simp [hgoes.2, hopen])
  refine ⟨h.length, h.readers_snoc fun _ => rfl, ?_, hclosed.trans h.closed,
    fun hnone => (by cases hnone), ?_⟩
  · rw [List.flatMap_append]
    simpa [CaptureEvent.published] using hsent.trans h.sent
  · intro r' hr'
    obtain rfl := Option.some.inj hr'
    refine h.listens_snoc _ hr fun place start hlistens => ?_
    refine ⟨hlistens.le_next.trans hnext, ?_, receive_answers hlistens.answers failures got,
      hbus.trans hlistens.bus⟩
    rw [hhears, Broadcast.since_append hsent hnext hlistens.le_next]
    exact hlistens.hears.append hreads

theorem published_of_runs (hrun : runs (Capture.step can lib) (.start sources dir) es = some s) :
    Published can lib sources dir es s := by
  refine holds_after_runs ?_ ?_ hrun
  · refine ⟨by simp [Capture.start], ?_, rfl, rfl, fun _ _ _ => List.not_mem_nil,
      fun _ hr => (by cases hr)⟩
    intro i src hi
    refine ⟨src.reader dir, by simp [Capture.start, hi], rfl, rfl, rfl, ?_, rfl, rfl⟩
    show [] = _
    split <;> rfl
  · intro es e s s' _ h hstep
    cases e with
    | device j event => exact h.device hstep
    | subscribe bus canFd => exact h.subscribe hstep
    | overwrite n => exact h.overwrite hstep
    | hear failures => exact h.hear hstep

/-- What a responder has gone past is a beginning of what was published since it subscribed. -/
theorem Listens.reads {before after : List Sample} {start r : Responding ρ}
    {frames : Broadcast Sample} (h : Listens lib before.length start frames r)
    (hsent : frames.sent = before ++ after) :
    Reads (after.take (frames.next - before.length)) r.hears := by
  have hsince : frames.since before.length = after.take (frames.next - before.length) := by
    unfold Broadcast.since
    rw [hsent, List.take_append, List.take_of_length_le h.le_next, List.drop_left]
  rw [← hsince]
  exact h.hears

/-- A responder that sends a frame back under the next id. -/
def echoLib : ResponderLib Nat where
  extendedCapability := 1
  fdCapability := 2
  new _ _ := 0
  onFrame n arbId extended fd data _ := (n + 1, [⟨arbId + 1, extended, fd, data⟩])
  isTestPatternFrame arbId _ := arbId = 0x7E0

def benchFrame (arbId : UInt32) : Reference.CanFrame :=
  ⟨0, arbId, false, false, false, false, false, [1, 2], 0⟩

def twoInterfaces : List Capture.Source := [⟨"can0", 0, true⟩, ⟨"can1", 1, false⟩]

/-- A request on `can0` from before the responder subscribed is not answered, the next is, and the
reply read back; `can1`, missing at first, is found. -/
def benchEvents : List (CaptureEvent Reference.CanFrame) :=
  [.device 0 .connected,
    .device 1 (.disconnected ⟨.other, "no such device"⟩ 1),
    .device 0 (.read [⟨benchFrame 0x7E0, false, 1000⟩]),
    .subscribe 0 false,
    .device 0 (.read [⟨benchFrame 0x123, false, 2000⟩, ⟨benchFrame 0x7E0, false, 3000⟩]),
    .hear [],
    .device 1 (.disconnected ⟨.other, "no such device"⟩ 2),
    .hear [],
    .device 0 (.read [⟨benchFrame 0x7E1, true, 4000⟩]),
    .device 1 .connected,
    .device 1 (.read [⟨benchFrame 0x7E0, false, 5000⟩]),
    .device 1 (.disconnected ⟨.read true, "network is down"⟩ 1),
    .device 1 (.read [⟨benchFrame 0x7E0, false, 6000⟩]),
    .overwrite 4, .hear []]

/-- Where a socket is: closed after so many failures in a row, open, or open after as many reads that
failed. -/
inductive SocketPhase where
  | closed (failures : Nat)
  | open
  | failing (failures : Nat)
  deriving DecidableEq

/-- What is relied on of `CanTask`: it is read while its socket is open, a read error keeps the
socket, and `consecutive` counts the failures since the socket was opened or read. -/
def SocketPhase.next : SocketPhase → CanEvent φ → Option SocketPhase
  | p, .bus => some p
  | closed _, .connected => some .open
  | .open, .connected | failing _, .connected => none
  | .open, .read _ | failing _, .read _ => some .open
  | closed _, .read _ => none
  | closed n, .disconnected e k =>
    if !e.keepsSocket && k = n + 1 then some (.closed k) else none
  | .open, .disconnected e k =>
    if k = 1 then some (if e.keepsSocket then .failing k else .closed k) else none
  | failing n, .disconnected e k =>
    if k = n + 1 then some (if e.keepsSocket then .failing k else .closed k) else none

/-- The loop's flags, by where the socket is. -/
def SocketPhase.Fits : SocketPhase → Reader φ → Prop
  | closed n, r => r.lost = decide (0 < n) ∧ r.reopening = decide (0 < n)
  | .open, r => r.lost = false ∧ r.reopening = false
  | failing n, r => 0 < n ∧ r.lost = true ∧ r.reopening = false

def CanEvent.sighting : CanEvent φ → Option (Sighting CanError)
  | connected => some .connected
  | read _ => some .read
  | disconnected e _ => some (.failed e)
  | bus => none

/-- A line of the account, as the journal has it. -/
def reportLine (iface : String) : Report CanError → LogLine
  | .lost before e => lossLine iface before e
  | .connected before => foundLine iface before
  | .readAgain => againLine iface

/-- The account of what is still to be seen, from a loop's flags. -/
def Reader.account (r : Reader φ) (seen : List (Sighting CanError)) : List LogLine :=
  (reports r.opened r.lost seen).map (reportLine r.iface)

/-- A failure is the first exactly if no loss is noted. -/
theorem next_disconnected {p p' : SocketPhase} {r : Reader φ} {e : CanError} {k : Nat}
    (h : p.Fits r) (hnext : p.next (.disconnected e k : CanEvent φ) = some p') :
    0 < k ∧ (k = 1 ↔ r.lost = false) ∧
      p' = if e.keepsSocket then .failing k else .closed k := by
  cases p with
  | closed n =>
    obtain ⟨hk, hp⟩ := Option.ite_none_right_eq_some.mp hnext
    simp only [Bool.and_eq_true, Bool.not_eq_true', decide_eq_true_eq] at hk
    refine ⟨by omega, ?_, ?_⟩
    · rw [h.1, decide_eq_false_iff_not]
      omega
    · rw [hk.1]
      exact (Option.some.inj hp).symm
  | «open» =>
    obtain ⟨rfl, hp⟩ := Option.ite_none_right_eq_some.mp hnext
    exact ⟨Nat.one_pos, by simp [h.1], (Option.some.inj hp).symm⟩
  | failing n =>
    obtain ⟨hk, hp⟩ := Option.ite_none_right_eq_some.mp hnext
    obtain ⟨hpos, hlost, -⟩ := h
    refine ⟨by omega, ?_, (Option.some.inj hp).symm⟩
    rw [hlost]
    simp only [Bool.true_eq_false, iff_false]
    omega

theorem notice_fits {p p' : SocketPhase} {r : Reader φ} {event : CanEvent φ} (h : p.Fits r)
    (hnext : p.next event = some p') : p'.Fits (r.notice event) := by
  cases event with
  | bus =>
    obtain rfl : p = p' := by cases p <;> exact Option.some.inj hnext
    exact h
  | connected =>
    cases p with
    | closed n =>
      obtain rfl := Option.some.inj hnext
      obtain ⟨hlost, hreopening⟩ := h
      by_cases hn : 0 < n <;>
        simp [SocketPhase.Fits, Reader.notice, Reader.rereadRate, Reader.log, hlost, hreopening, hn]
    | «open» => cases hnext
    | failing n => cases hnext
  | read reads =>
    cases p with
    | closed n => cases hnext
    | «open» =>
      obtain rfl := Option.some.inj hnext
      obtain ⟨hlost, hreopening⟩ := h
      cases hs : r.rateStale <;>
        simp [SocketPhase.Fits, Reader.notice, Reader.rereadRate, hlost, hreopening, hs]
    | failing n =>
      obtain rfl := Option.some.inj hnext
      obtain ⟨-, hlost, hreopening⟩ := h
      cases hs : r.rateStale <;>
        simp [SocketPhase.Fits, Reader.notice, Reader.rereadRate, Reader.log, hlost, hreopening, hs]
  | disconnected e k =>
    obtain ⟨hk, -, rfl⟩ := next_disconnected h hnext
    cases he : e.keepsSocket <;> simp [SocketPhase.Fits, Reader.notice, he, hk]

/-- A turn logs what is to be said of its event, and leaves the flags that say the rest. -/
theorem account_notice {p p' : SocketPhase} {r : Reader φ} {event : CanEvent φ} (h : p.Fits r)
    (hnext : p.next event = some p') (seen : List (Sighting CanError)) :
    (r.notice event).journal ++ (r.notice event).account seen =
      r.journal ++ r.account (event.sighting.toList ++ seen) := by
  cases event with
  | bus => rfl
  | connected =>
    cases p with
    | closed n =>
      obtain ⟨hlost, hreopening⟩ := h
      by_cases hn : 0 < n <;>
        simp [Reader.account, CanEvent.sighting, reports, reportLine, Reader.notice,
          Reader.rereadRate, Reader.log, hlost, hreopening, hn]
    | «open» => cases hnext
    | failing n => cases hnext
  | read reads =>
    cases p with
    | closed n => cases hnext
    | «open» =>
      obtain ⟨hlost, hreopening⟩ := h
      cases hs : r.rateStale <;>
        simp [Reader.account, CanEvent.sighting, reports, Reader.notice, Reader.rereadRate, hlost,
          hs]
    | failing n =>
      obtain ⟨-, hlost, hreopening⟩ := h
      cases hs : r.rateStale <;>
        simp [Reader.account, CanEvent.sighting, reports, reportLine, Reader.notice,
          Reader.rereadRate, Reader.log, hlost, hs]
  | disconnected e k =>
    obtain ⟨-, hfirst, -⟩ := next_disconnected h hnext
    cases hlost : r.lost with
    | false =>
      obtain rfl := hfirst.mpr hlost
      simp [Reader.account, CanEvent.sighting, reports, reportLine, Reader.notice, Reader.log, hlost]
    | true =>
      have hk : k ≠ 1 := by
        intro hk
        simp [hfirst.mp hk] at hlost
      simp [Reader.account, CanEvent.sighting, reports, Reader.notice, hlost, hk]

/-- A loop's journal is what it had and the account of what it has seen since. -/
theorem journal_notices {p p' : SocketPhase} {r : Reader φ} {events : List (CanEvent φ)}
    (h : p.Fits r) (hlife : runs SocketPhase.next p events = some p') :
    (events.foldl Reader.notice r).journal =
      r.journal ++ r.account (events.filterMap CanEvent.sighting) := by
  induction events generalizing p r with
  | nil => simp [Reader.account, reports]
  | cons event events ih =>
    obtain ⟨q, hq, hrest⟩ := runs_cons.mp hlife
    have hone := account_notice h hq (events.filterMap CanEvent.sighting)
    rw [List.foldl_cons, ih (notice_fits h hq) hrest, hone]
    cases hs : event.sighting <;> simp [hs]

/-- What the status shows after these sightings. -/
def stateAfter (seen : List (Sighting CanError)) : DeviceState :=
  match seen.getLast? with
  | none => .starting
  | some (.failed _) => if .connected ∈ seen then .error else .waiting
  | some _ => .up

theorem state_notices (r : Reader φ) (hr : r.opened = false) (hs : r.status.state = .starting)
    (events : List (CanEvent φ)) :
    (events.foldl Reader.notice r).opened =
        decide (.connected ∈ events.filterMap CanEvent.sighting) ∧
      (events.foldl Reader.notice r).status.state =
        stateAfter (events.filterMap CanEvent.sighting) := by
  induction events using List.reverseRecOn with
  | nil => exact ⟨hr, hs⟩
  | append_singleton events event ih =>
    obtain ⟨hopened, hstate⟩ := ih
    rw [List.foldl_append, List.foldl_cons, List.foldl_nil, List.filterMap_append]
    generalize events.foldl Reader.notice r = r' at hopened hstate ⊢
    generalize events.filterMap CanEvent.sighting = seen at hopened hstate ⊢
    cases event with
    | bus =>
      have hnone : [(.bus : CanEvent φ)].filterMap CanEvent.sighting = [] := rfl
      rw [hnone, List.append_nil]
      exact ⟨hopened, hstate⟩
    | connected =>
      unfold Reader.notice
      cases r'.reopening <;>
        simp [CanEvent.sighting, stateAfter, Reader.rereadRate, Reader.log, DeviceStatus.nowUp]
    | read reads =>
      unfold Reader.notice
      cases r'.lost <;> cases r'.rateStale <;>
        simp [CanEvent.sighting, stateAfter, Reader.rereadRate, Reader.log, DeviceStatus.nowUp,
          DeviceStatus.read, hopened]
    | disconnected e k =>
      unfold Reader.notice
      by_cases hk : k = 1 <;>
        simp [CanEvent.sighting, stateAfter, Reader.log, DeviceStatus.lost, hopened, hk]

/-- While the events of an interface are those of one socket after another, its journal is, outage by
outage, one line for the first failure and one for the end, however many failures lie between; and the
status shows whether it is up, was lost, or has never been found. -/
theorem run_reports
    (hrun : runs (Capture.step can lib) (.start sources dir) es = some s)
    {i : Nat} {src : Capture.Source} (hi : sources[i]? = some src)
    (hlife : (runs SocketPhase.next (.closed 0) (eventsOf i es)).isSome) :
    ∃ r, s.readers[i]? = some r ∧
      r.journal = ((outages false ((eventsOf i es).filterMap CanEvent.sighting)).flatMap
        Outage.lines).map (reportLine src.iface) ∧
      r.status.state = stateAfter ((eventsOf i es).filterMap CanEvent.sighting) := by
  obtain ⟨r, hr, hcaptures⟩ := (published_of_runs hrun).reader i src hi
  obtain ⟨p, hp⟩ := Option.isSome_iff_exists.mp hlife
  have hfits : (SocketPhase.closed 0).Fits (src.reader dir : Reader φ) := ⟨rfl, rfl⟩
  have hjournal := journal_notices hfits hp
  have hstate := (state_notices (src.reader dir) rfl rfl (eventsOf i es)).2
  rw [← hcaptures.flags] at hjournal hstate
  refine ⟨r, hr, ?_, hstate⟩
  rw [← reports_eq]
  exact hjournal

theorem run_reports_bench :
    ∃ s r, runs (Capture.step Reference.canLib echoLib) (.start twoInterfaces .rx) benchEvents =
        some s ∧ s.readers[1]? = some r ∧
      r.journal =
        [⟨.warn, "waiting for can1: no such device. Check `ip link show can1`"⟩,
          ⟨.info, "can1: found"⟩,
          ⟨.error, "can1: interface is down; capture resumes once it is up"⟩,
          ⟨.info, "can1: reading again"⟩] ∧
      r.status.state = .up := by
  obtain ⟨s, hrun⟩ : ∃ s, runs (Capture.step Reference.canLib echoLib) (.start twoInterfaces .rx)
    benchEvents = some s := ⟨_, rfl⟩
  have hsource : twoInterfaces[1]? = some ⟨"can1", 1, false⟩ := rfl
  obtain ⟨r, hr, hjournal, hstate⟩ := run_reports hrun hsource (by decide)
  refine ⟨s, r, hrun, hr, ?_, hstate.trans ?_⟩
  · rw [hjournal, ← reports_eq]
    rfl
  · rfl

end WireTap.Daemon
