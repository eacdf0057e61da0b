import WireTap.Daemon.SerialTap
import WireTap.Lib.Carve

/-!
# What a serial line's tap publishes

`run_taps`: the raw capture is every byte of the line, read by read, counted from each open; and the
framed one is all that the framer cuts, each message a piece of what was read since the line was last
lost or its rules last changed, cut out by the rules then in force.
-/

namespace WireTap.Daemon

open Wire

variable {τ σ : Type} {rtu : RtuLib τ} {rawLib : RawLib σ}

/-! ### What the libraries promise -/

/-- `held` is what the framer has of a message that is still to end, `rules` its options' catalogue,
and `takes` what these options take for a message.  Messages are cut out of what was held and what
comes; other options and a reset drop what was held. -/
structure RtuLib.Lawful (rtu : RtuLib τ) (held : τ → Bytes) (rules : τ → Option WireTap.LineCatalogue)
    (takes : Option WireTap.LineCatalogue → Bytes → Prop) : Prop where
  held_new c : held (rtu.new c) = []
  rules_new c : rules (rtu.new c) = c
  held_setOptions t c : held (rtu.setOptions t c) = []
  rules_setOptions t c : rules (rtu.setOptions t c) = c
  held_reset t : held (rtu.reset t) = []
  rules_reset t : rules (rtu.reset t) = rules t
  rules_push t bytes time : rules (rtu.push t bytes time).1 = rules t
  carved t bytes time : Carved (held t ++ bytes)
    ((rtu.push t bytes time).2.map TappedMessage.raw) (held (rtu.push t bytes time).1)
  takes_push {t bytes time m} : m ∈ (rtu.push t bytes time).2 → takes (rules t) m.raw

/-- `count` is how many reads the chunker has had since it was reset, and `seqOf` the number the chunks
of such a read bear. -/
structure RawLib.Lawful (rawLib : RawLib σ) (count : σ → Nat) (seqOf : Nat → UInt32) : Prop where
  count_new : count rawLib.new = 0
  count_reset t : count (rawLib.reset t) = 0
  count_push t bytes time : count (rawLib.push t bytes time).1 = count t + 1
  seq_push {t bytes time c} : c ∈ (rawLib.push t bytes time).2 → c.seq = seqOf (count t)
  data_push t bytes time : (rawLib.push t bytes time).2.flatMap RawChunk.data = bytes

/-! ### What happened to the line -/

/-- What is read without a gap, under the rules of one catalogue. -/
structure Segment where
  rules : Option WireTap.LineCatalogue
  reads : List (Bytes × Int)
  deriving DecidableEq

def Segment.bytes (seg : Segment) : Bytes := seg.reads.flatMap Prod.fst

/-- The segments of a line, from the one that is being read.  Rules whose sender has gone by the next
read are not followed. -/
def segments : Watch Rules → Segment → List LineEvent → List Segment
  | _, seg, [] => [seg]
  | w, seg, .rules r :: es => segments (w.send r) seg es
  | w, seg, .unwatched :: es => segments { w with closed := true } seg es
  | w, seg, .serial .connected :: es => segments w seg es
  | w, seg, .serial (.disconnected _ _) :: es => seg :: segments w ⟨seg.rules, []⟩ es
  | w, seg, .serial (.read bytes time) :: es =>
    if w.hasChanged then seg :: segments w.seen ⟨w.latest.catalogue, [(bytes, time)]⟩ es
    else segments w ⟨seg.rules, seg.reads ++ [(bytes, time)]⟩ es

/-- The reads of a line, counted from each open. -/
def numbered : Nat → List LineEvent → List (Nat × Bytes)
  | _, [] => []
  | _, .serial .connected :: es => numbered 0 es
  | n, .serial (.read bytes _) :: es => (n, bytes) :: numbered (n + 1) es
  | n, .serial (.disconnected _ _) :: es | n, .rules _ :: es | n, .unwatched :: es => numbered n es

def modbusOf : Sample → Option ModbusSample
  | .modbus m => some m
  | _ => none

def serialOf : Sample → Option SerialSample
  | .serial r => some r
  | _ => none

/-- A framer after these reads, and the messages it has cut. -/
def RtuLib.pushAll (rtu : RtuLib τ) (tap : τ) (reads : List (Bytes × Int)) :
    τ × List TappedMessage :=
  reads.foldl (fun out read =>
    let (tap, messages) := rtu.push out.1 read.1 read.2
    (tap, out.2 ++ messages)) (tap, [])

/-- These are the messages that a framer by the segment's rules, with nothing held, cuts out of its
reads; they are in order and apart from each other, and each is a message by these rules. -/
def CutFrom (rtu : RtuLib τ) (held : τ → Bytes) (rules : τ → Option WireTap.LineCatalogue)
    (takes : Option WireTap.LineCatalogue → Bytes → Prop) (bus : UInt8) (seg : Segment)
    (messages : List ModbusSample) : Prop :=
  (∃ tap, held tap = [] ∧ rules tap = seg.rules ∧
    messages = (rtu.pushAll tap seg.reads).2.map (modbusSample bus)) ∧
  (∃ rest, Carved seg.bytes (messages.map ModbusSample.raw) rest) ∧
  ∀ m ∈ messages, m.bus = bus ∧ takes seg.rules m.raw

/-- The chunks of a read. -/
def ChunksOf (seqOf : Nat → UInt32) (bus : UInt8) (read : Nat × Bytes)
    (chunks : List SerialSample) : Prop :=
  chunks.flatMap SerialSample.data = read.2 ∧ ∀ c ∈ chunks, c.bus = bus ∧ c.seq = seqOf read.1

/-! ### One event -/

section Step

variable (rtu) (rawLib) (d : Drain τ σ)

theorem modbusOf_serial {α : Type} (f : α → SerialSample) (xs : List α) :
    (xs.map fun x => Sample.serial (f x)).filterMap modbusOf = [] := by
  simp [List.filterMap_map, modbusOf]

theorem serialOf_modbus {α : Type} (f : α → ModbusSample) (xs : List α) :
    (xs.map fun x => Sample.modbus (f x)).filterMap serialOf = [] := by
  simp [List.filterMap_map, serialOf]

theorem modbusOf_modbus {α : Type} (f : α → ModbusSample) (xs : List α) :
    (xs.map fun x => Sample.modbus (f x)).filterMap modbusOf = xs.map f := by
  induction xs with
  | nil => rfl
  | cons x xs ih => simpa [modbusOf] using ih

theorem serialOf_serial {α : Type} (f : α → SerialSample) (xs : List α) :
    (xs.map fun x => Sample.serial (f x)).filterMap serialOf = xs.map f := by
  induction xs with
  | nil => rfl
  | cons x xs ih => simpa [serialOf] using ih

/-- An event that is no read publishes nothing. -/
theorem step_published {e : LineEvent} (h : ∀ bytes time, e ≠ .serial (.read bytes time)) :
    (d.step rtu rawLib e).published = d.published ∧
      (d.step rtu rawLib e).status.frames = d.status.frames := by
  cases e with
  | rules r => exact ⟨rfl, rfl⟩
  | unwatched => exact ⟨rfl, rfl⟩
  | serial event =>
    cases event with
    | read bytes time => exact absurd rfl (h bytes time)
    | connected =>
      simp only [Drain.step, Drain.turn]
      cases d.lost <;> exact ⟨rfl, rfl⟩
    | disconnected error consecutive =>
      simp only [Drain.step, Drain.turn]
      by_cases hc : consecutive = 1 <;> simp [hc, Drain.log, DeviceStatus.lost]

variable (bytes : Bytes) (time : Int)

/-- A read's chunks. -/
def rawOut (rawLib : RawLib σ) (d : Drain τ σ) : List Sample :=
  (d.raw.map fun tap => (rawLib.push tap bytes time).2.map fun c =>
    Sample.serial (serialSample d.bus c)).getD []

/-- A read's messages. -/
def framedOut (rtu : RtuLib τ) (d : Drain τ σ) : List Sample :=
  (d.framed.map fun f => (rtu.push (f.follow rtu).1.tap bytes time).2.map fun m =>
    Sample.modbus (modbusSample d.bus m)).getD []

/-- A read is published unframed and then framed, with the latest rules. -/
theorem read_published :
    (d.step rtu rawLib (.serial (.read bytes time))).published =
        d.published ++ (rawOut bytes time rawLib d ++ framedOut bytes time rtu d) ∧
      (d.step rtu rawLib (.serial (.read bytes time))).status.frames = d.status.frames +
        (rawOut bytes time rawLib d ++ framedOut bytes time rtu d).length := by
  simp only [Drain.step, Drain.turn, Drain.publishRaw, Drain.publishFramed, rawOut, framedOut]
  cases d.raw <;> cases d.framed <;>
    simp [Drain.publish, Drain.log, DeviceStatus.read, DeviceStatus.nowUp, Nat.add_assoc]

theorem read_taps :
    (d.step rtu rawLib (.serial (.read bytes time))).framed = (d.framed.map fun f =>
        { (f.follow rtu).1 with tap := (rtu.push (f.follow rtu).1.tap bytes time).1 }) ∧
      (d.step rtu rawLib (.serial (.read bytes time))).raw =
        (d.raw.map fun tap => (rawLib.push tap bytes time).1) ∧
      (d.step rtu rawLib (.serial (.read bytes time))).bus = d.bus := by
  simp only [Drain.step, Drain.turn, Drain.publishRaw, Drain.publishFramed]
  cases d.raw <;> cases d.framed <;> simp [Drain.publish, Drain.log]

/-- What an event that is no read does with the taps. -/
theorem connected_taps :
    (d.step rtu rawLib (.serial .connected)).framed = d.framed ∧
      (d.step rtu rawLib (.serial .connected)).raw = d.raw.map rawLib.reset ∧
      (d.step rtu rawLib (.serial .connected)).bus = d.bus := by
  simp only [Drain.step, Drain.turn]
  cases d.lost <;> exact ⟨rfl, rfl, rfl⟩

theorem disconnected_taps (error : String) (consecutive : Nat) :
    (d.step rtu rawLib (.serial (.disconnected error consecutive))).framed =
        (d.framed.map fun f => { f with tap := rtu.reset f.tap }) ∧
      (d.step rtu rawLib (.serial (.disconnected error consecutive))).raw = d.raw ∧
      (d.step rtu rawLib (.serial (.disconnected error consecutive))).bus = d.bus := by
  simp only [Drain.step, Drain.turn]
  by_cases hc : consecutive = 1 <;> simp [hc, Drain.log]

theorem step_bus (e : LineEvent) : (d.step rtu rawLib e).bus = d.bus := by
  cases e with
  | rules r => rfl
  | unwatched => rfl
  | serial event =>
    cases event with
    | connected => exact (connected_taps rtu rawLib d).2.2
    | read bytes time => exact (read_taps rtu rawLib d bytes time).2.2
    | disconnected error consecutive => exact (disconnected_taps rtu rawLib d error consecutive).2.2

end Step

/-! ### The framed messages -/

variable {held : τ → Bytes} {rules : τ → Option WireTap.LineCatalogue}
  {takes : Option WireTap.LineCatalogue → Bytes → Prop}

theorem pushAll_concat (tap : τ) (reads : List (Bytes × Int)) (bytes : Bytes) (time : Int) :
    rtu.pushAll tap (reads ++ [(bytes, time)]) =
      ((rtu.push (rtu.pushAll tap reads).1 bytes time).1,
        (rtu.pushAll tap reads).2 ++ (rtu.push (rtu.pushAll tap reads).1 bytes time).2) := by
  unfold RtuLib.pushAll
  rw [List.foldl_append]
  rfl

/-- Reads are cut up as one stream, by the rules that the framer had at first. -/
theorem pushAll_carved (hrtu : rtu.Lawful held rules takes) {start : τ} (hheld : held start = [])
    (reads : List (Bytes × Int)) :
    Carved (reads.flatMap Prod.fst) ((rtu.pushAll start reads).2.map TappedMessage.raw)
        (held (rtu.pushAll start reads).1) ∧
      rules (rtu.pushAll start reads).1 = rules start ∧
      ∀ m ∈ (rtu.pushAll start reads).2, takes (rules start) m.raw := by
  induction reads using List.reverseRecOn with
  | nil =>
    refine ⟨?_, rfl, ?_⟩
    · show Carved [] [] (held start)
      rw [hheld]
      exact .rest []
    · intro m hm
      cases hm
  | append_singleton reads read ih =>
    obtain ⟨bytes, time⟩ := read
    obtain ⟨hcarved, hrules, htakes⟩ := ih
    rw [pushAll_concat]
    refine ⟨?_, (hrtu.rules_push _ _ _).trans hrules, ?_⟩
    · rw [List.map_append, List.flatMap_append, List.flatMap_singleton]
      exact hcarved.push (hrtu.carved _ bytes time)
    · intro m hm
      rcases List.mem_append.mp hm with hm | hm
      · exact htakes m hm
      · rw [← hrules]
        exact hrtu.takes_push hm

/-- The framer has had the reads of a segment, of which these messages have come. -/
def Amid (rtu : RtuLib τ) (held : τ → Bytes) (rules : τ → Option WireTap.LineCatalogue)
    (bus : UInt8) (tap : τ) (seg : Segment) (messages : List ModbusSample) : Prop :=
  ∃ start, held start = [] ∧ rules start = seg.rules ∧ (rtu.pushAll start seg.reads).1 = tap ∧
    messages = (rtu.pushAll start seg.reads).2.map (modbusSample bus)

section Amid

variable {bus : UInt8} {tap : τ} {seg : Segment} {messages : List ModbusSample}

theorem Amid.rules_eq (hrtu : rtu.Lawful held rules takes)
    (h : Amid rtu held rules bus tap seg messages) : rules tap = seg.rules := by
  obtain ⟨start, hheld, hrules, rfl, -⟩ := h
  exact (pushAll_carved hrtu hheld seg.reads).2.1.trans hrules

theorem Amid.cutFrom (hrtu : rtu.Lawful held rules takes)
    (h : Amid rtu held rules bus tap seg messages) :
    CutFrom rtu held rules takes bus seg messages := by
  obtain ⟨start, hheld, hrules, -, rfl⟩ := h
  obtain ⟨hcarved, -, htakes⟩ := pushAll_carved hrtu hheld seg.reads
  refine ⟨⟨start, hheld, hrules, rfl⟩, ⟨held (rtu.pushAll start seg.reads).1, ?_⟩, ?_⟩
  · rw [List.map_map]
    exact hcarved
  · intro m hm
    obtain ⟨t, ht, rfl⟩ := List.mem_map.mp hm
    rw [hrules] at htakes
    exact ⟨rfl, htakes t ht⟩

theorem Amid.push (h : Amid rtu held rules bus tap seg messages) (bytes : Bytes) (time : Int) :
    Amid rtu held rules bus (rtu.push tap bytes time).1 ⟨seg.rules, seg.reads ++ [(bytes, time)]⟩
      (messages ++ (rtu.push tap bytes time).2.map (modbusSample bus)) := by
  obtain ⟨start, hheld, hrules, rfl, rfl⟩ := h
  refine ⟨start, hheld, hrules, ?_, ?_⟩
  · rw [pushAll_concat]
  · rw [pushAll_concat, List.map_append]

/-- A segment that begins where the framer holds nothing. -/
theorem Amid.fresh {c : Option WireTap.LineCatalogue} (hheld : held tap = [])
    (hrules : rules tap = c) : Amid rtu held rules bus tap ⟨c, []⟩ [] :=
  ⟨tap, hheld, hrules, rfl, rfl⟩

end Amid

/-- An event goes on with the segment, or ends it and begins the next. -/
structure Goes (rtu : RtuLib τ) (held : τ → Bytes) (rules : τ → Option WireTap.LineCatalogue)
    (d d' : Drain τ σ) (w : Watch Rules) (e : LineEvent) (seg : Segment)
    (messages : List ModbusSample) (f' : Framed τ) (seg' : Segment)
    (messages' : List ModbusSample) (out : List Sample) : Prop where
  framed : d'.framed = some f'
  published : d'.published = d.published ++ out
  amid : Amid rtu held rules d.bus f'.tap seg' messages'
  goes : (∀ es, segments w seg (e :: es) = segments f'.rules seg' es) ∧
      messages' = messages ++ out.filterMap modbusOf ∨
    (∀ es, segments w seg (e :: es) = seg :: segments f'.rules seg' es) ∧
      messages' = out.filterMap modbusOf

theorem read_goes (rawLib : RawLib σ) (hrtu : rtu.Lawful held rules takes) {d : Drain τ σ}
    {f : Framed τ} (hd : d.framed = some f) {seg : Segment} {messages : List ModbusSample}
    (h : Amid rtu held rules d.bus f.tap seg messages) (bytes : Bytes) (time : Int) :
    ∃ f' seg' messages' out, Goes rtu held rules d
      (d.step rtu rawLib (.serial (.read bytes time))) f.rules (.serial (.read bytes time)) seg
      messages f' seg' messages' out := by
  obtain ⟨hpublished, -⟩ := read_published rtu rawLib d bytes time
  obtain ⟨hframed, -⟩ := read_taps rtu rawLib d bytes time
  rw [hd, Option.map_some] at hframed
  have hout : (rawOut bytes time rawLib d ++ framedOut bytes time rtu d).filterMap modbusOf =
      (rtu.push (f.follow rtu).1.tap bytes time).2.map (modbusSample d.bus) := by
    have hraw : (rawOut bytes time rawLib d).filterMap modbusOf = [] := by
      unfold rawOut
      cases d.raw with
      | none => rfl
      | some tap => exact modbusOf_serial _ _
    rw [List.filterMap_append, hraw, List.nil_append, framedOut, hd]
    exact modbusOf_modbus _ _
  by_cases hc : f.rules.hasChanged
  · have hfollow : (f.follow rtu).1 =
        ⟨rtu.setOptions f.tap f.rules.latest.catalogue, f.rules.seen, f.rules.latest⟩ := by
      rw [Framed.follow, if_pos hc]
    have hfresh : Amid rtu held rules d.bus (rtu.setOptions f.tap f.rules.latest.catalogue)
        ⟨f.rules.latest.catalogue, []⟩ [] :=
      .fresh (hrtu.held_setOptions _ _) (hrtu.rules_setOptions _ _)
    rw [hfollow] at hframed hout
    refine ⟨_, _, _, _, hframed, hpublished, hfresh.push bytes time, .inr ⟨?_, ?_⟩⟩
    · intro es
      rw [segments, if_pos hc, List.nil_append]
    · rw [hout, List.nil_append]
  · have hfollow : (f.follow rtu).1 = f := by
      rw [Framed.follow, if_neg hc]
    rw [hfollow] at hframed hout
    refine ⟨_, _, _, _, hframed, hpublished, h.push bytes time, .inl ⟨?_, ?_⟩⟩
    · intro es
      rw [segments, if_neg hc]
    · rw [hout]

theorem step_goes (rawLib : RawLib σ) (hrtu : rtu.Lawful held rules takes) {d : Drain τ σ}
    {f : Framed τ} (hd : d.framed = some f) {seg : Segment} {messages : List ModbusSample}
    (h : Amid rtu held rules d.bus f.tap seg messages) (e : LineEvent) :
    ∃ f' seg' messages' out, Goes rtu held rules d (d.step rtu rawLib e) f.rules e seg messages
      f' seg' messages' out := by
  have hquiet (hread : ∀ bytes time, e ≠ .serial (.read bytes time)) :
      (d.step rtu rawLib e).published = d.published ++ [] := by
    rw [List.append_nil]
    exact (step_published rtu rawLib d hread).1
  cases e with
  | rules r =>
    refine ⟨{ f with rules := f.rules.send r }, seg, messages, [], ?_, hquiet (by simp), h, .inl ?_⟩
    · simp [Drain.step, hd]
    · exact ⟨fun es => rfl, by simp⟩
  | unwatched =>
    refine ⟨{ f with rules := { f.rules with closed := true } }, seg, messages, [], ?_,
      hquiet (by simp), h, .inl ?_⟩
    · simp [Drain.step, hd]
    · exact ⟨fun es => rfl, by simp⟩
  | serial event =>
    cases event with
    | read bytes time => exact read_goes rawLib hrtu hd h bytes time
    | connected =>
      obtain ⟨hframed, -⟩ := connected_taps rtu rawLib d
      refine ⟨f, seg, messages, [], hframed.trans hd, hquiet (by simp), h, .inl ?_⟩
      exact ⟨fun es => rfl, by simp⟩
    | disconnected error consecutive =>
      obtain ⟨hframed, -⟩ :=
        disconnected_taps rtu rawLib d error consecutive
      rw [hd, Option.map_some] at hframed
      have hfresh : Amid rtu held rules d.bus (rtu.reset f.tap) ⟨seg.rules, []⟩ [] :=
        .fresh (hrtu.held_reset f.tap) ((hrtu.rules_reset f.tap).trans (h.rules_eq hrtu))
      refine ⟨_, _, _, [], hframed, hquiet (by simp), hfresh, .inr ?_⟩
      exact ⟨fun es => rfl, rfl⟩

theorem run_framed (rawLib : RawLib σ) (hrtu : rtu.Lawful held rules takes) (es : List LineEvent)
    {d : Drain τ σ} {f : Framed τ} (hd : d.framed = some f) {seg : Segment}
    {messages : List ModbusSample}
    (h : Amid rtu held rules d.bus f.tap seg messages) :
    ∃ new groups, (d.run rtu rawLib es).published = d.published ++ new ∧
      List.Forall₂ (CutFrom rtu held rules takes d.bus) (segments f.rules seg es) groups ∧
      messages ++ new.filterMap modbusOf = groups.flatten := by
  induction es generalizing d f seg messages with
  | nil => exact ⟨[], [messages], by simp [Drain.run], .cons (h.cutFrom hrtu) .nil, by simp⟩
  | cons e es ih =>
    obtain ⟨f', seg', messages', out, hgoes⟩ := step_goes rawLib hrtu hd h e
    have hbus := step_bus rtu rawLib d e
    obtain ⟨new, groups, hpublished, hgroups, hflatten⟩ :=
      ih hgoes.framed (by rw [hbus]; exact hgoes.amid)
    rw [hbus] at hgroups
    have hall : (d.run rtu rawLib (e :: es)).published = d.published ++ (out ++ new) := by
      rw [← List.append_assoc, ← hgoes.published]
      exact hpublished
    obtain ⟨hsegments, hmessages⟩ | ⟨hsegments, hmessages⟩ := hgoes.goes
    · refine ⟨out ++ new, groups, hall, by rw [hsegments]; exact hgroups, ?_⟩
      rw [List.filterMap_append, ← List.append_assoc, ← hmessages, hflatten]
    · refine ⟨out ++ new, messages :: groups, hall, ?_, ?_⟩
      · rw [hsegments]
        exact .cons (h.cutFrom hrtu) hgroups
      · rw [List.filterMap_append, ← hmessages, hflatten, List.flatten_cons]

/-! ### The raw capture -/

variable {count : σ → Nat} {seqOf : Nat → UInt32}

/-- An event that is no read leaves the chunker counting, or starts it again. -/
theorem step_raw (rtu : RtuLib τ) (hraw : rawLib.Lawful count seqOf) {d : Drain τ σ} {tap : σ}
    (hd : d.raw = some tap) (e : LineEvent) :
    ∃ tap' out groups, (d.step rtu rawLib e).raw = some tap' ∧
      (d.step rtu rawLib e).published = d.published ++ out ∧
      out.filterMap serialOf = groups.flatten ∧
      ∃ reads, List.Forall₂ (ChunksOf seqOf d.bus) reads groups ∧
        ∀ es, numbered (count tap) (e :: es) = reads ++ numbered (count tap') es := by
  have hquiet (hread : ∀ bytes time, e ≠ .serial (.read bytes time)) :
      (d.step rtu rawLib e).published = d.published ++ [] := by
    rw [List.append_nil]
    exact (step_published rtu rawLib d hread).1
  cases e with
  | rules r => exact ⟨tap, [], [], hd, hquiet (by simp), rfl, [], .nil, fun es => rfl⟩
  | unwatched => exact ⟨tap, [], [], hd, hquiet (by simp), rfl, [], .nil, fun es => rfl⟩
  | serial event =>
    cases event with
    | connected =>
      obtain ⟨-, hr, -⟩ := connected_taps rtu rawLib d
      rw [hd, Option.map_some] at hr
      refine ⟨_, [], [], hr, hquiet (by simp), rfl, [], .nil, fun es => ?_⟩
      rw [hraw.count_reset]
      rfl
    | disconnected error consecutive =>
      obtain ⟨-, hr, -⟩ := disconnected_taps rtu rawLib d error consecutive
      exact ⟨tap, [], [], hr.trans hd, hquiet (by simp), rfl, [], .nil, fun es => rfl⟩
    | read bytes time =>
      obtain ⟨hpublished, -⟩ := read_published rtu rawLib d bytes time
      obtain ⟨-, hr, -⟩ := read_taps rtu rawLib d bytes time
      rw [hd, Option.map_some] at hr
      refine ⟨_, _, [(rawLib.push tap bytes time).2.map (serialSample d.bus)], hr, hpublished, ?_,
        [(count tap, bytes)], .cons ⟨?_, ?_⟩ .nil, fun es => ?_⟩
      · have hframed : (framedOut bytes time rtu d).filterMap serialOf = [] := by
          unfold framedOut
          cases d.framed with
          | none => rfl
          | some f => exact serialOf_modbus _ _
        rw [List.filterMap_append, hframed, List.append_nil, rawOut, hd]
        simpa using serialOf_serial (serialSample d.bus) (rawLib.push tap bytes time).2
      · rw [List.flatMap_map]
        exact hraw.data_push tap bytes time
      · intro c hc
        obtain ⟨chunk, hchunk, rfl⟩ := List.mem_map.mp hc
        exact ⟨rfl, hraw.seq_push hchunk⟩
      · rw [hraw.count_push]
        rfl

theorem run_raw (rtu : RtuLib τ) (hraw : rawLib.Lawful count seqOf) (es : List LineEvent)
    {d : Drain τ σ} {tap : σ} (hd : d.raw = some tap) :
    ∃ new groups, (d.run rtu rawLib es).published = d.published ++ new ∧
      List.Forall₂ (ChunksOf seqOf d.bus) (numbered (count tap) es) groups ∧
      new.filterMap serialOf = groups.flatten := by
  induction es generalizing d tap with
  | nil => exact ⟨[], [], by simp [Drain.run], .nil, rfl⟩
  | cons e es ih =>
    obtain ⟨tap', out, chunks, hraw', hout, hchunks, reads, hreads, hnumbered⟩ :=
      step_raw rtu hraw hd e
    obtain ⟨new, groups, hnew, hgroups, hflatten⟩ := ih hraw'
    rw [step_bus] at hgroups
    refine ⟨out ++ new, chunks ++ groups, ?_, ?_, ?_⟩
    · rw [← List.append_assoc, ← hout]
      exact hnew
    · rw [hnumbered]
      exact List.rel_append hreads hgroups
    · rw [List.filterMap_append, hchunks, hflatten, List.flatten_append]

/-- Every sample is counted. -/
theorem run_counted (es : List LineEvent) {d : Drain τ σ}
    (hd : d.status.frames = d.published.length) :
    (d.run rtu rawLib es).status.frames = (d.run rtu rawLib es).published.length := by
  induction es generalizing d with
  | nil => exact hd
  | cons e es ih =>
    refine ih ?_
    by_cases hread : ∃ bytes time, e = .serial (.read bytes time)
    · obtain ⟨bytes, time, rfl⟩ := hread
      obtain ⟨hpublished, hframes⟩ := read_published rtu rawLib d bytes time
      rw [hframes, hpublished, hd]
      exact List.length_append.symm
    · obtain ⟨hpublished, hframes⟩ := step_published rtu rawLib d
        fun bytes time he => hread ⟨bytes, time, he⟩
      rw [hpublished, hframes, hd]

/-- A raw capture is the line's bytes, read by read, numbered from each open.  A framed one is, segment
by segment, all the messages the framer cuts out of what was read without a gap under one catalogue's
rules, in order and apart from each other.  The status counts all samples. -/
theorem run_taps (hrtu : rtu.Lawful held rules takes) (hraw : rawLib.Lawful count seqOf) (bus : UInt8)
    (framed : Option (Watch Rules)) (raw : Bool) (es : List LineEvent) :
    (∀ w, framed = some w → ∃ groups,
      List.Forall₂ (CutFrom rtu held rules takes bus) (segments w.seen ⟨w.latest.catalogue, []⟩ es)
        groups ∧
      ((Drain.start rtu rawLib bus framed raw).run rtu rawLib es).published.filterMap modbusOf =
        groups.flatten) ∧
    (raw = true → ∃ groups, List.Forall₂ (ChunksOf seqOf bus) (numbered 0 es) groups ∧
      ((Drain.start rtu rawLib bus framed raw).run rtu rawLib es).published.filterMap serialOf =
        groups.flatten) ∧
    ((Drain.start rtu rawLib bus framed raw).run rtu rawLib es).status.frames =
      ((Drain.start rtu rawLib bus framed raw).run rtu rawLib es).published.length := by
  refine ⟨?_, ?_, run_counted es rfl⟩
  · rintro w rfl
    have hfresh : Amid rtu held rules bus (rtu.new w.latest.catalogue) ⟨w.latest.catalogue, []⟩ [] :=
      .fresh (hrtu.held_new _) (hrtu.rules_new _)
    obtain ⟨new, groups, hpublished, hgroups, hflatten⟩ :=
      run_framed rawLib (d := .start rtu rawLib bus (some w) raw) hrtu es rfl hfresh
    refine ⟨groups, hgroups, ?_⟩
    rw [hpublished]
    exact hflatten
  · rintro rfl
    obtain ⟨new, groups, hpublished, hgroups, hflatten⟩ :=
      run_raw rtu (d := .start rtu rawLib bus framed true) hraw es rfl
    refine ⟨groups, ?_, ?_⟩
    · rw [← hraw.count_new]
      exact hgroups
    · rw [hpublished]
      exact hflatten

/-- A request to read one register. -/
def request : Bytes := [1, 3, 0, 0, 0, 1, 0x84, 0x0A]

/-- A framer that knows one request. -/
def requestLib : RtuLib (Bytes × Option WireTap.LineCatalogue) where
  new catalogue := ([], catalogue)
  setOptions _ catalogue := ([], catalogue)
  push tap bytes time :=
    if tap.1 ++ bytes = request then (([], tap.2), [⟨time, 1, 3, true, request⟩])
    else ((tap.1 ++ bytes, tap.2), [])
  reset tap := ([], tap.2)

theorem requestLib_lawful :
    requestLib.Lawful Prod.fst Prod.snd fun _ raw => raw = request where
  held_new _ := rfl
  rules_new _ := rfl
  held_setOptions _ _ := rfl
  rules_setOptions _ _ := rfl
  held_reset _ := rfl
  rules_reset _ := rfl
  rules_push t bytes time := by
    simp only [requestLib]
    split <;> rfl
  carved t bytes time := by
    simp only [requestLib]
    split
    · rename_i h
      rw [h]
      exact .message request (.rest [])
    · exact .rest _
  takes_push {t bytes time m} hm := by
    simp only [requestLib] at hm
    split at hm
    · obtain rfl := List.mem_singleton.mp hm
      rfl
    · exact absurd hm List.not_mem_nil

/-- A chunk for each read. -/
def readLib : RawLib Nat where
  new := 0
  push n bytes time := (n + 1, [⟨time, .ofNat n, bytes⟩])
  reset _ := 0

theorem readLib_lawful : readLib.Lawful id .ofNat where
  count_new := rfl
  count_reset _ := rfl
  count_push _ _ _ := rfl
  seq_push hc := by
    obtain rfl := List.mem_singleton.mp hc
    rfl
  data_push _ bytes _ := by simp [readLib]

def etcLine : WireTap.LineCatalogue :=
  ⟨"/etc/wiretap/line.toml", List.replicate 20 9, List.length_replicate⟩

/-- A line lost in the middle of a request and reopened at the second try, with new rules by then; and
others in the middle of the next. -/
def lostLine : List LineEvent :=
  [.serial .connected, .serial (.read (request.take 5) 1000), .serial (.disconnected "gone" 1),
    .rules (.etc etcLine), .serial (.disconnected "no such device" 2), .serial .connected,
    .serial (.read (request.take 3) 2000), .rules .none, .serial (.read request 3000)]

theorem run_taps_lostLine :
    (∃ groups, List.Forall₂ (CutFrom requestLib Prod.fst Prod.snd (fun _ raw => raw = request) 3)
      [⟨none, [([1, 3, 0, 0, 0], 1000)]⟩, ⟨none, []⟩, ⟨none, []⟩,
        ⟨some etcLine, [([1, 3, 0], 2000)]⟩, ⟨none, [(request, 3000)]⟩] groups ∧
      ((Drain.start requestLib readLib 3 (some ⟨.none, true, false⟩) true).run requestLib readLib
        lostLine).published.filterMap modbusOf = groups.flatten) ∧
    ((Drain.start requestLib readLib 3 (some ⟨.none, true, false⟩) true).run requestLib readLib
      lostLine).published =
      [.serial ⟨1, 3, 0, [1, 3, 0, 0, 0]⟩, .serial ⟨2, 3, 0, [1, 3, 0]⟩, .serial ⟨3, 3, 1, request⟩,
        .modbus ⟨3, 3, 1, 3, true, request⟩] :=
  ⟨(run_taps requestLib_lawful readLib_lawful 3 (some ⟨.none, true, false⟩) true lostLine).1 _ rfl,
    rfl⟩

/-! ### The journal -/

/-- Where a line's task is: closed after so many failures in a row, or open. -/
inductive LinePhase where
  | closed (failures : Nat)
  | open
  deriving DecidableEq

/-- What is relied on of `SerialTask`: it is read while the line is open, and `consecutive` counts the
failures since the line was last open. -/
def LinePhase.next : LinePhase → LineEvent → Option LinePhase
  | p, .rules _ | p, .unwatched => some p
  | closed _, .serial .connected => some .open
  | .open, .serial (.read _ _) => some .open
  | closed n, .serial (.disconnected _ k) => if k = n + 1 then some (.closed k) else none
  | .open, .serial (.disconnected _ k) => if k = 1 then some (.closed k) else none
  | _, _ => none

def LinePhase.Fits : LinePhase → Drain τ σ → Prop
  | closed n, d => d.lost = decide (0 < n)
  | .open, d => d.lost = false

def LineEvent.sighting : LineEvent → Option (Sighting String)
  | serial .connected => some .connected
  | serial (.read _ _) => some .read
  | serial (.disconnected e _) => some (.failed e)
  | .rules _ | .unwatched => none

/-- A line about an outage. -/
def outageOf : SerialLine → Option (Report String)
  | .outage r => some r
  | .catalogue _ _ => none

/-- The account of what is still to be seen, from the flags. -/
def Drain.account (d : Drain τ σ) (seen : List (Sighting String)) : List (Report String) :=
  reports d.opened d.lost seen

theorem publishRaw_flags (rawLib : RawLib σ) (d : Drain τ σ) (bytes : Bytes) (time : Int) :
    (d.publishRaw rawLib bytes time).opened = d.opened ∧
      (d.publishRaw rawLib bytes time).lost = d.lost ∧
      (d.publishRaw rawLib bytes time).journal = d.journal := by
  unfold Drain.publishRaw
  cases d.raw <;> exact ⟨rfl, rfl, rfl⟩

/-- Following a catalogue says nothing of outages. -/
theorem outageOf_follow (f : Framed τ) : (f.follow rtu).2.filterMap outageOf = [] := by
  unfold Framed.follow
  split <;> rfl

theorem publishFramed_flags (rtu : RtuLib τ) (d : Drain τ σ) (bytes : Bytes) (time : Int) :
    (d.publishFramed rtu bytes time).opened = d.opened ∧
      (d.publishFramed rtu bytes time).lost = d.lost ∧
      (d.publishFramed rtu bytes time).journal.filterMap outageOf =
        d.journal.filterMap outageOf := by
  unfold Drain.publishFramed
  cases hf : d.framed with
  | none => exact ⟨rfl, rfl, rfl⟩
  | some f =>
    refine ⟨rfl, rfl, ?_⟩
    show (d.journal ++ (f.follow rtu).2).filterMap outageOf = _
    rw [List.filterMap_append, outageOf_follow, List.append_nil]

/-- A read changes no flag, and says nothing of outages. -/
theorem read_flags (rtu : RtuLib τ) (rawLib : RawLib σ) (d : Drain τ σ) (bytes : Bytes) (time : Int) :
    (d.step rtu rawLib (.serial (.read bytes time))).opened = d.opened ∧
      (d.step rtu rawLib (.serial (.read bytes time))).lost = d.lost ∧
      (d.step rtu rawLib (.serial (.read bytes time))).journal.filterMap outageOf =
        d.journal.filterMap outageOf := by
  obtain ⟨hopened, hlost, hjournal⟩ :=
    publishRaw_flags rawLib { d with status := d.status.nowUp } bytes time
  obtain ⟨hopened', hlost', hjournal'⟩ := publishFramed_flags rtu
    ({ d with status := d.status.nowUp }.publishRaw rawLib bytes time) bytes time
  refine ⟨hopened'.trans hopened, hlost'.trans hlost, hjournal'.trans ?_⟩
  rw [hjournal]

theorem step_account (rtu : RtuLib τ) (rawLib : RawLib σ) {p p' : LinePhase} {d : Drain τ σ}
    {e : LineEvent} (h : p.Fits d) (hnext : p.next e = some p') :
    p'.Fits (d.step rtu rawLib e) ∧ ∀ seen,
      (d.step rtu rawLib e).journal.filterMap outageOf ++ (d.step rtu rawLib e).account seen =
        d.journal.filterMap outageOf ++ d.account (e.sighting.toList ++ seen) := by
  cases e with
  | rules r =>
    obtain rfl : p = p' := by cases p <;> exact Option.some.inj hnext
    exact ⟨by cases p <;> exact h, fun seen => rfl⟩
  | unwatched =>
    obtain rfl : p = p' := by cases p <;> exact Option.some.inj hnext
    exact ⟨by cases p <;> exact h, fun seen => rfl⟩
  | serial event =>
    cases event with
    | connected =>
      cases p with
      | «open» => cases hnext
      | closed n =>
        obtain rfl := Option.some.inj hnext
        simp only [Drain.step, Drain.turn, Drain.account, LineEvent.sighting]
        cases d.lost <;> simp [LinePhase.Fits, reports, Drain.log, outageOf]
    | read bytes time =>
      cases p with
      | closed n => cases hnext
      | «open» =>
        obtain rfl := Option.some.inj hnext
        obtain ⟨hopened, hlost, hjournal⟩ := read_flags rtu rawLib d bytes time
        have hserving : d.lost = false := h
        refine ⟨hlost.trans h, fun seen => ?_⟩
        rw [Drain.account, Drain.account, hopened, hlost, hjournal, hserving]
        rfl
    | disconnected error k =>
      have hk : 0 < k ∧ (k = 1 ↔ d.lost = false) ∧ p' = .closed k := by
        cases p with
        | closed n =>
          obtain ⟨hk, hp⟩ := Option.ite_none_right_eq_some.mp hnext
          have hlost : d.lost = decide (0 < n) := h
          refine ⟨by omega, ?_, (Option.some.inj hp).symm⟩
          rw [hlost, decide_eq_false_iff_not]
          omega
        | «open» =>
          obtain ⟨rfl, hp⟩ := Option.ite_none_right_eq_some.mp hnext
          have hlost : d.lost = false := h
          exact ⟨Nat.one_pos, by simp [hlost], (Option.some.inj hp).symm⟩
      obtain ⟨hpos, hfirst, rfl⟩ := hk
      refine ⟨by simp [LinePhase.Fits, Drain.step, Drain.turn, hpos], fun seen => ?_⟩
      simp only [Drain.step, Drain.turn, Drain.account, LineEvent.sighting]
      cases hlost : d.lost with
      | false =>
        obtain rfl := hfirst.mpr hlost
        simp [reports, Drain.log, outageOf]
      | true =>
        have hmore : k ≠ 1 := by
          intro hk
          simp [hfirst.mp hk] at hlost
        simp [reports, hmore]

theorem run_account (rtu : RtuLib τ) (rawLib : RawLib σ) {es : List LineEvent} {p p' : LinePhase}
    {d : Drain τ σ} (h : p.Fits d) (hlife : runs LinePhase.next p es = some p') :
    (d.run rtu rawLib es).journal.filterMap outageOf =
      d.journal.filterMap outageOf ++ d.account (es.filterMap LineEvent.sighting) := by
  induction es generalizing p d with
  | nil => simp [Drain.run, Drain.account, reports]
  | cons e es ih =>
    obtain ⟨q, hq, hrest⟩ := runs_cons.mp hlife
    obtain ⟨hfits, haccount⟩ := step_account rtu rawLib h hq
    have hone := haccount (es.filterMap LineEvent.sighting)
    have hseen : e.sighting.toList ++ es.filterMap LineEvent.sighting =
        (e :: es).filterMap LineEvent.sighting := by
      cases hs : e.sighting <;> simp [hs]
    rw [hseen] at hone
    exact (ih hfits hrest).trans hone

/-- While the events of a line are those of one open after another, its journal says of each outage
once that it began and once that it is over, however many failures lie between. -/
theorem drain_reports (bus : UInt8) (framed : Option (Watch Rules)) (raw : Bool)
    (es : List LineEvent) (hlife : (runs LinePhase.next (.closed 0) es).isSome) :
    ((Drain.start rtu rawLib bus framed raw).run rtu rawLib es).journal.filterMap outageOf =
      (outages false (es.filterMap LineEvent.sighting)).flatMap Outage.lines := by
  obtain ⟨p, hp⟩ := Option.isSome_iff_exists.mp hlife
  have hfits : (LinePhase.closed 0).Fits (Drain.start rtu rawLib bus framed raw) := rfl
  rw [← reports_eq]
  exact run_account rtu rawLib hfits hp

theorem drain_reports_lostLine :
    ((Drain.start requestLib readLib 3 (some ⟨.none, true, false⟩) true).run requestLib readLib
        lostLine).journal.map (SerialLine.log "/dev/ttyUSB0") =
      [⟨.error, "/dev/ttyUSB0: gone; reopening"⟩, ⟨.info, "/dev/ttyUSB0: reopened"⟩,
        ⟨.info, "/dev/ttyUSB0: catalogue none → /etc/wiretap/line.toml"⟩,
        ⟨.info, "/dev/ttyUSB0: catalogue /etc/wiretap/line.toml → none"⟩] ∧
    ((Drain.start requestLib readLib 3 (some ⟨.none, true, false⟩) true).run requestLib readLib
        lostLine).journal.filterMap outageOf = [.lost true "gone", .connected true] := by
  refine ⟨rfl, ?_⟩
  rw [drain_reports 3 (some ⟨.none, true, false⟩) true lostLine (by decide), ← reports_eq]
  rfl

end WireTap.Daemon
