import Mathlib
import WireTap.Lib.Run
import WireTap.Forward.Equiv.Catalogues
import WireTap.Forward.Equiv.Close

/-!
# The gateway is never left with a stale catalogue status

`Uplink.run_tells` is about runs: calls on one v3 sink, steps of the other sessions between them and
turns of the other sessions inside them.  The invariant is `Current`: the session's mark is no later
than the count of changes, and while the two are level the gateway has been told the status there
is.  It holds because a change ticks the count (`Catalogues.elsewhere_changes`) and because the mark
is set before the catalogues are read, so that a change in between is found the next time.

A call is `Looking` until it has settled the status, and `Reported` from then on.
-/

namespace WireTap

open Std.Do

set_option mvcgen.warning false

variable {α : Type}

/-! ### What the gateway was last told -/

/-- What the gateway knows after one more event: nothing on a new connection. -/
def Event.told (last : Option CatalogueStatus) : Event α → Option CatalogueStatus
  | .dialled => none
  | .sent (.catalogueStatus status) => some status
  | _ => last

/-- The last `CATALOGUE_STATUS` sent on the newest connection. -/
def lastStatus (log : List (Event α)) : Option CatalogueStatus := log.foldl Event.told none

theorem lastStatus_snoc (log : List (Event α)) (e : Event α) :
    lastStatus (log ++ [e]) = e.told (lastStatus log) := by
  rw [lastStatus, List.foldl_append]
  rfl

def Event.isTraffic : Event α → Bool
  | .sent m => m.isTraffic
  | .dialled | .received _ | .quarantined _ => false

/-! ### Ticks -/

section Ticks

variable [CatalogueFormat]

/-- Steps of other sessions tick, or leave the status. -/
theorem Catalogues.elsewhere_changes (c : Catalogues) (e : Elsewhere) :
    c.changes ≤ (c.elsewhere e).changes ∧
      ((c.elsewhere e).changes = c.changes → SameStatus c (c.elsewhere e)) := by
  cases e with
  | apply updates =>
    have hchanges := apply_changes c updates
    have hsame := apply_sameStatus c updates
    change c.changes ≤ (c.apply updates).changes ∧
      ((c.apply updates).changes = c.changes → SameStatus c (c.apply updates))
    cases hchanged : (c.applyAll updates).2 with
    | true =>
      rw [hchanged, if_pos rfl] at hchanges
      exact ⟨by omega, fun h => by omega⟩
    | false =>
      rw [hchanged] at hchanges
      exact ⟨hchanges.ge, fun _ => hsame hchanged⟩
  | store sha blob =>
    have hstore : (c.store sha blob).2.changes = c.changes ∧
        SameStatus c (c.store sha blob).2 := by
      unfold store
      split
      · exact ⟨rfl, SameStatus.refl c⟩
      · split
        · exact ⟨rfl, SameStatus.refl c⟩
        · dsimp only
          split <;> exact ⟨rfl, SameStatus.of_eq rfl rfl⟩
    exact ⟨hstore.1.ge, fun _ => hstore.2⟩

/-- The session's mark is no later than the catalogues, and while they are level the gateway has
been told their status. -/
structure Current (t : ForwardSink α) : Prop where
  seen : t.seen ≤ t.catalogues.changes
  told : t.seen = t.catalogues.changes → lastStatus t.log = some (t.catalogues.status t.devices)

theorem Current.elsewhere {t : ForwardSink α} (h : Current t) (e : Elsewhere) :
    Current { t with catalogues := t.catalogues.elsewhere e } := by
  obtain ⟨hle, hsame⟩ := t.catalogues.elsewhere_changes e
  have hseen := h.seen
  refine ⟨hseen.trans hle, fun heq => ?_⟩
  have hunticked : (t.catalogues.elsewhere e).changes = t.catalogues.changes := by
    change t.seen = (t.catalogues.elsewhere e).changes at heq
    omega
  change lastStatus t.log = some ((t.catalogues.elsewhere e).status t.devices)
  rw [(hsame hunticked).status, h.told (heq.trans hunticked)]

theorem Current.elsewheres {t : ForwardSink α} (h : Current t) (steps : List Elsewhere) :
    Current { t with catalogues := steps.foldl Catalogues.elsewhere t.catalogues } := by
  induction steps generalizing t with
  | nil => exact h
  | cons e rest ih => exact ih (h.elsewhere e)

end Ticks

/-! ### `connect` -/

section Connect

variable [CatalogueFormat]

/-- A session being set up has sent neither a `BATCH` nor a `PING`. -/
structure Introduced (s t : ForwardSink α) : Prop where
  devices : t.devices = s.devices
  seen : t.seen ≤ t.catalogues.changes
  log : ∃ new, t.log = s.log ++ new ∧ ∀ e ∈ new, e.isTraffic = false

/-- The gateway has been told of the catalogues as they are. -/
def UpToDate (t : ForwardSink α) : Prop :=
  lastStatus t.log = some (t.catalogues.status t.devices)

variable (s : ForwardSink α)

omit [CatalogueFormat] in
theorem Introduced.refl {s : ForwardSink α} (h : s.seen ≤ s.catalogues.changes) :
    Introduced s s :=
  ⟨rfl, h, [], by rw [List.append_nil], by simp⟩

omit [CatalogueFormat] in
theorem Introduced.logging {s t : ForwardSink α} {e : Event α} (h : Introduced s t)
    (he : e.isTraffic = false) : Introduced s (t.logging e) := by
  obtain ⟨new, hlog, hquiet⟩ := h.log
  refine ⟨h.devices, h.seen, new ++ [e], ?_, ?_⟩
  · rw [ForwardSink.logging, hlog, List.append_assoc]
  · intro x hx
    rcases List.mem_append.mp hx with hx | hx
    · exact hquiet x hx
    · rw [List.mem_singleton.mp hx]
      exact he

theorem Introduced.keeps : Keeps (Introduced s) where
  dialled h := h.logging rfl
  received _ h := h.logging rfl
  sent hm h := h.logging hm
  elsewhere {t} e h := ⟨h.devices, h.seen.trans (t.catalogues.elsewhere_changes e).1, h.log⟩
  seen h := ⟨h.devices, le_rfl, h.log⟩
  same h hlog _ hdevices hseen hcatalogues := by
    refine ⟨hdevices.trans h.devices, ?_, by rw [hlog]; exact h.log⟩
    rw [hseen, hcatalogues]
    exact h.seen

omit [CatalogueFormat] in
/-- A status that was sent is the last one. -/
theorem send_upToDate {R : ForwardSink α → Prop} (l : Link) (status : CatalogueStatus)
    (hsent : ∀ {t : ForwardSink α}, R t → R (t.logging (.sent (.catalogueStatus status)))) :
    ⦃fun t => ⌜R t ∧ some status = some (t.catalogues.status t.devices)⌝⦄
    l.send (.catalogueStatus status)
    ⦃⇓ r s' => ⌜R s' ∧ (r.1 = .ok () → UpToDate s')⌝⦄ := by
  mvcgen [Link.send, note]
  · rename_i h _
    refine ⟨hsent h.1, fun _ => ?_⟩
    exact (lastStatus_snoc _ _).trans h.2
  · rename_i hne hr _ h
    exact ⟨h.1, fun hok => absurd (hr.symm.trans hok) hne⟩

variable [Protocol α] (hencodes : ∀ status, Protocol.encodeCatalogueStatus α status = .ok ())
include hencodes

/-- `status_message` reports the catalogues as it leaves them. -/
theorem statusMessage_status {R : ForwardSink α → Prop}
    (hothers : ⦃fun t => ⌜R t⌝⦄ otherSessions ⦃⇓ _ s' => ⌜R s'⌝⦄)
    (hseen : ∀ {t : ForwardSink α}, R t → R { t with seen := t.catalogues.changes }) :
    ⦃fun t => ⌜R t⌝⦄ statusMessage
    ⦃⇓ r s' => ⌜R s' ∧ r = some (s'.catalogues.status s'.devices)⌝⦄ := by
  mvcgen [statusMessage, hothers]
  · rename_i h _
    exact hseen h
  · rename_i hencode
    rw [hencodes] at hencode
    cases hencode

theorem introduce_upToDate (l : Link) (ack : HelloAck) :
    ⦃fun t => ⌜Introduced s t⌝⦄ introduce l ack
    ⦃⇓ r s' => ⌜Introduced s s' ∧ (r.1 = .ok () → s'.version = 3 → UpToDate s')⌝⦄ := by
  have hpull := pull_keeps (Introduced.keeps s)
  have hstatus := statusMessage_status hencodes (otherSessions_keeps (Introduced.keeps s))
    (Introduced.keeps s).seen
  have hsend := fun l status => send_upToDate (R := Introduced s) l status (·.logging rfl)
  mvcgen [introduce, hpull, hstatus, hsend]
  · rename_i h hversion
    exact ⟨h, fun hv => absurd hv hversion⟩
  · rename_i h
    cases h.2
  · intro h hupToDate
    exact ⟨h, fun hok _ => hupToDate hok⟩

theorem connect_upToDate :
    ⦃fun t => ⌜Introduced s t⌝⦄ connect
    ⦃⇓ r s' => ⌜Introduced s s' ∧ (r = .ok () → s'.version = 3 → UpToDate s')⌝⦄ := by
  have hagree := agree_keeps (Introduced.keeps s)
  have hintroduce := introduce_upToDate s hencodes
  mvcgen [connect, hagree, hintroduce, setConn]
  · rename_i h
    exact ⟨h, by simp⟩
  · rename_i h
    exact ⟨h, by simp⟩
  · rename_i h
    exact ⟨h.1, by simp⟩
  · rename_i hok _ h _
    exact ⟨⟨h.1.devices, h.1.seen, h.1.log⟩, h.2 hok⟩

end Connect

/-! ### `write_batch` and `keep_alive` -/

section Traffic

variable [CatalogueFormat]

/-- What the status is made of is the same. -/
structure Alike (t u : ForwardSink α) : Prop where
  catalogues : u.catalogues = t.catalogues
  turns : u.turns = t.turns
  devices : u.devices = t.devices
  seen : u.seen = t.seen
  version : u.version = t.version

/-- A call that has sent neither a `BATCH` nor a `PING` yet. -/
structure Looking (s t : ForwardSink α) : Prop where
  others : ByOthers s t
  version : t.version = s.version
  introduced : Introduced s t

/-- A call past its status: what it has told the gateway is how the catalogues are, and were when it
sent each `BATCH` and `PING`. -/
structure Reported (s t : ForwardSink α) : Prop where
  others : ByOthers s t
  version : t.version = s.version
  devices : t.devices = s.devices
  seen : t.seen ≤ t.catalogues.changes
  upToDate : UpToDate t
  log : ∃ new, t.log = s.log ++ new ∧
    Logs (fun before e => e.isTraffic = true →
      lastStatus (s.log ++ before) = some (t.catalogues.status t.devices)) new

section

variable {s t u : ForwardSink α}

theorem Looking.reported (h : Looking s t) (hupToDate : UpToDate t) : Reported s t := by
  obtain ⟨new, hlog, hquiet⟩ := h.introduced.log
  refine ⟨h.others, h.version, h.introduced.devices, h.introduced.seen, hupToDate, new, hlog, ?_⟩
  intro before e after hnew he
  have hmem : e ∈ new := by simp [hnew]
  rw [hquiet e hmem] at he
  cases he

/-- An event that is no status, on the same connection. -/
theorem Reported.event {e : Event α} (h : Reported s t) (he : ∀ last, e.told last = last)
    (hsame : Alike t u) (hlog : u.log = t.log ++ [e]) : Reported s u := by
  obtain ⟨new, hnew, hlogs⟩ := h.log
  obtain ⟨hcatalogues, hturns, hdevices, hseen, hversion⟩ := hsame
  refine ⟨h.others.same hturns hcatalogues, hversion.trans h.version, hdevices.trans h.devices,
    ?_, ?_, new ++ [e], ?_, ?_⟩
  · rw [hseen, hcatalogues]
    exact h.seen
  · rw [UpToDate, hlog, lastStatus_snoc, he, hcatalogues, hdevices]
    exact h.upToDate
  · rw [hlog, hnew, List.append_assoc]
  · rw [hcatalogues, hdevices]
    refine hlogs.snoc fun _ => ?_
    rw [← hnew]
    exact h.upToDate

theorem Reported.same (h : Reported s t) (hsame : Alike t u) (hlog : u.log = t.log) :
    Reported s u := by
  obtain ⟨hcatalogues, hturns, hdevices, hseen, hversion⟩ := hsame
  refine ⟨h.others.same hturns hcatalogues, hversion.trans h.version, hdevices.trans h.devices,
    ?_, ?_, ?_⟩
  · rw [hseen, hcatalogues]
    exact h.seen
  · rw [UpToDate, hlog, hcatalogues, hdevices]
    exact h.upToDate
  · rw [hlog, hcatalogues, hdevices]
    exact h.log

end

variable (s : ForwardSink α)

theorem recvAny_reported (l : Link) :
    ⦃fun t => ⌜Reported s t⌝⦄ l.recvAny ⦃⇓ _ s' => ⌜Reported s s'⌝⦄ := by
  mvcgen [Link.recvAny, note]
  · rename_i h _ _ _
    exact h.event (fun _ => rfl) ⟨rfl, rfl, rfl, rfl, rfl⟩ rfl
  · rename_i h _ _ _
    exact h.event (fun _ => rfl) ⟨rfl, rfl, rfl, rfl, rfl⟩ rfl
  · rename_i h _ _ _ _ _
    exact h.event (fun _ => rfl) ⟨rfl, rfl, rfl, rfl, rfl⟩ rfl

theorem recvLoop_reported (fuel : Nat) (l : Link) :
    ⦃fun t => ⌜Reported s t⌝⦄ Link.recvLoop fuel l ⦃⇓ _ s' => ⌜Reported s s'⌝⦄ := by
  have hany := recvAny_reported s
  induction fuel generalizing l with
  | zero => mvcgen [Link.recvLoop, hany]
  | succ fuel ih => mvcgen [Link.recvLoop, hany, ih]

theorem recvOn_reported : ⦃fun t => ⌜Reported s t⌝⦄ recvOn ⦃⇓ _ s' => ⌜Reported s s'⌝⦄ := by
  have hrecv := recvLoop_reported s
  mvcgen [recvOn, Link.recv, hrecv, setConn]
  rename_i h _
  exact h.same ⟨rfl, rfl, rfl, rfl, rfl⟩ rfl

theorem sendOn_reported (m : Message α) (hm : m.isTraffic = true) :
    ⦃fun t => ⌜Reported s t⌝⦄ sendOn m ⦃⇓ _ s' => ⌜Reported s s'⌝⦄ := by
  have htold : ∀ last, (Event.sent m).told last = last := by
    cases m <;> simp_all [Message.isTraffic, Event.told]
  have hsend := fun l => send_keeps (R := Reported s) l m
    fun h => h.event htold ⟨rfl, rfl, rfl, rfl, rfl⟩ rfl
  mvcgen [sendOn, hsend, setConn]
  rename_i h _
  exact h.same ⟨rfl, rfl, rfl, rfl, rfl⟩ rfl

theorem quarantine_reported (chunk : List α) :
    ⦃fun t => ⌜Reported s t⌝⦄ quarantine chunk ⦃⇓ _ s' => ⌜Reported s s'⌝⦄ := by
  mvcgen [quarantine, note]
  · rename_i h _ _ _ _
    exact h.same ⟨rfl, rfl, rfl, rfl, rfl⟩ rfl
  · rename_i h _ _ _ _ _ _ _ _
    exact h.same ⟨rfl, rfl, rfl, rfl, rfl⟩ rfl
  · rename_i h _ _ _ _ _ _ _ _ _
    exact h.event (e := .quarantined chunk) (fun _ => rfl) ⟨rfl, rfl, rfl, rfl, rfl⟩ rfl

theorem answered_reported (seq : UInt32) (chunk : List α) (reply : Reply) :
    ⦃fun t => ⌜Reported s t⌝⦄ answered seq chunk reply ⦃⇓ _ s' => ⌜Reported s s'⌝⦄ := by
  have hkeep := quarantine_reported s
  mvcgen [answered, hkeep]

/-- The other sessions' next turn. -/
theorem otherSessions_looking :
    ⦃fun t => ⌜Looking s t⌝⦄ otherSessions ⦃⇓ _ s' => ⌜Looking s s'⌝⦄ := by
  mvcgen [otherSessions]
  rename_i t h _
  have hintroduced := (Introduced.keeps s).survives.elsewheres (t.turns.headD []) h.introduced
  exact ⟨h.others.turn rfl rfl, h.version, hintroduced.devices, hintroduced.seen, hintroduced.log⟩

theorem otherSessions_current :
    ⦃fun t => ⌜Looking s t ∧ Current t⌝⦄ otherSessions ⦃⇓ _ s' => ⌜Looking s s' ∧ Current s'⌝⦄ := by
  have hlooking := otherSessions_looking s
  intro t h
  have hturn : Current { t with
      catalogues := (t.turns.headD []).foldl Catalogues.elsewhere t.catalogues
      turns := t.turns.tail } :=
    ⟨(h.2.elsewheres (t.turns.headD [])).seen, (h.2.elsewheres (t.turns.headD [])).told⟩
  exact ⟨hlooking t h.1, hturn⟩

variable [Protocol α]

theorem sendChunk_reported (samples : List α) :
    ⦃fun t => ⌜Reported s t⌝⦄ sendChunk samples ⦃⇓ _ s' => ⌜Reported s s'⌝⦄ := by
  have hsend := fun seq chunk => sendOn_reported s (.batch seq chunk) rfl
  have hrecv := recvOn_reported s
  have hanswered := answered_reported s
  mvcgen [sendChunk, hsend, hrecv, hanswered]
  rename_i h _ _ _
  exact h.same ⟨rfl, rfl, rfl, rfl, rfl⟩ rfl

theorem writeLoop_reported (fuel delivered : Nat) (rest : List α) :
    ⦃fun t => ⌜Reported s t⌝⦄ writeLoop fuel delivered rest ⦃⇓ _ s' => ⌜Reported s s'⌝⦄ := by
  have hchunk := sendChunk_reported s
  induction fuel generalizing delivered rest with
  | zero => mvcgen [writeLoop]
  | succ fuel ih => mvcgen [writeLoop, hchunk, ih]

variable (hencodes : ∀ status, Protocol.encodeCatalogueStatus α status = .ok ())
include hencodes

theorem sendStatusIfChanged_upToDate (hversion : s.version = 3) :
    ⦃fun t => ⌜Looking s t ∧ Current t⌝⦄ sendStatusIfChanged
    ⦃⇓ r s' => ⌜Looking s s' ∧ (r = .ok () → UpToDate s')⌝⦄ := by
  have hothers := otherSessions_current s
  have hstatus := statusMessage_status (R := Looking s) hencodes (otherSessions_looking s)
    fun h => ⟨h.others, h.version, h.introduced.devices, le_rfl, h.introduced.log⟩
  have hsend := fun l status => send_upToDate (R := Looking s) l status
    fun h => ⟨h.others, h.version, h.introduced.logging rfl⟩
  mvcgen [sendStatusIfChanged, hothers, hstatus, sendOn, hsend, setConn]
  · rename_i t h hskip
    -- Nothing is sent: the mark is the count, so what was last told still holds.
    refine ⟨h.1, h.2.told ?_⟩
    have hthree : t.version = 3 := h.1.version.trans hversion
    simp only [hthree, Bool.or_eq_true, decide_eq_true_eq, beq_iff_eq] at hskip
    omega
  · rename_i h _
    exact h.1
  · rename_i h
    cases h.2
  · rename_i h _
    exact ⟨h.1, by simp⟩
  · rename_i h _
    exact ⟨⟨h.1.others.same rfl rfl, h.1.version, h.1.introduced.devices, h.1.introduced.seen,
      h.1.introduced.log⟩, h.2⟩

/-- What a call with a `BATCH` or a `PING` in it comes to. -/
def Called (s s' : ForwardSink α) (r : SinkResult) : Prop :=
  Reported s s' ∨ Looking s s' ∧ r ≠ .ok ()

theorem writeBatch_called (hversion : s.version = 3) (batch : List α) :
    ⦃fun t => ⌜Looking s t ∧ Current t⌝⦄ ForwardSink.writeBatch batch
    ⦃⇓ r s' => ⌜Called s s' r.reported⌝⦄ := by
  have hstatus := sendStatusIfChanged_upToDate s hencodes hversion
  have hloop := writeLoop_reported s
  mvcgen [ForwardSink.writeBatch, hstatus, hloop]
  · rename_i h
    exact .inr ⟨h.1, by simp [WriteResult.reported]⟩
  · rename_i h
    exact h.1.reported h.2
  · intro h
    exact .inl h

theorem keepAlive_called (hversion : s.version = 3) :
    ⦃fun t => ⌜Looking s t ∧ Current t⌝⦄ ForwardSink.keepAlive ⦃⇓ r s' => ⌜Called s s' r⌝⦄ := by
  have hstatus := sendStatusIfChanged_upToDate s hencodes hversion
  have hsend := sendOn_reported s .ping rfl
  have hrecv := recvOn_reported s
  mvcgen [ForwardSink.keepAlive, hstatus, hsend, hrecv]
  · rename_i h
    exact .inr ⟨h.1, by simp⟩
  · rename_i h
    exact h.1.reported h.2
  all_goals exact .inl ‹_›

end Traffic

/-! ### Whole runs -/

/-- A sink, and whether its caller may write to it: `connect` is called before the first write and
after every failure. -/
structure Uplink (α : Type) where
  sink : ForwardSink α
  up : Bool := false

/-- What happens around the sink: a step of another session while no call is under way, or a call,
with the turns of the others inside it. -/
inductive Act (α : Type) where
  | elsewhere (e : Elsewhere)
  | call (c : SinkCall α)
  | close

def SinkCall.isConnect : SinkCall α → Bool
  | .connect => true
  | .writeBatch _ | .keepAlive => false

namespace Uplink

variable [CatalogueFormat] [Protocol α]

/-- One act; a sink that has fallen back to v2 is written to no more. -/
def step (x : Uplink α) : Act α → Option (Uplink α)
  | .elsewhere e => some { x with sink.catalogues := x.sink.catalogues.elsewhere e }
  | .call c =>
    if c.isConnect || x.up && x.sink.version == 3 then
      let (r, sink) := c.run.run x.sink
      some { sink, up := r.isOk }
    else none
  | .close => some { sink := { x.sink with conn := none } }

theorem step_call {x : Uplink α} {c : SinkCall α}
    (hguard : (c.isConnect || x.up && x.sink.version == 3) = true) :
    x.step (.call c) =
      some { sink := (c.run.run x.sink).2, up := (c.run.run x.sink).1.isOk } := by
  rw [step, if_pos hguard]
  rfl

/-- While the caller may write, the gateway has been told of every change the session has seen. -/
structure Fresh (x : Uplink α) : Prop where
  seen : x.sink.seen ≤ x.sink.catalogues.changes
  current : x.up = true → x.sink.version = 3 → Current x.sink

/-- The `BATCH`es and `PING`s of a call come after a status that was right at some moment of it. -/
def Tells (s s' : ForwardSink α) : Prop :=
  ∀ before m after, s'.log = s.log ++ (before ++ .sent m :: after) → m.isTraffic = true →
    ByOthers s s' ∧ lastStatus (s.log ++ before) = some (s'.catalogues.status s'.devices)

section

omit [Protocol α]

variable {s s' : ForwardSink α}

theorem tells_of_introduced (h : Introduced s s') : Tells s s' := by
  intro before m after hlog hm
  obtain ⟨new, hnew, hquiet⟩ := h.log
  rw [hnew, List.append_cancel_left_eq] at hlog
  have hmem : Event.sent m ∈ new := by simp [hlog]
  have hnot : m.isTraffic = false := hquiet _ hmem
  rw [hm] at hnot
  cases hnot

theorem tells_of_called {r : SinkResult} (h : Called s s' r) : Tells s s' := by
  rcases h with h | ⟨h, -⟩
  · intro before m after hlog hm
    obtain ⟨new, hnew, hlogs⟩ := h.log
    rw [hnew, List.append_cancel_left_eq] at hlog
    exact ⟨h.others, hlogs before _ after hlog hm⟩
  · exact tells_of_introduced h.introduced

omit [CatalogueFormat] in
theorem fresh_of_upToDate {r : SinkResult} (hseen : s'.seen ≤ s'.catalogues.changes)
    (h : r = .ok () → s'.version = 3 → UpToDate s') :
    Fresh ({ sink := s', up := r.isOk } : Uplink α) := by
  refine ⟨hseen, fun hup hversion => ⟨hseen, fun _ => ?_⟩⟩
  cases r with
  | ok _ => exact h rfl hversion
  | error _ => cases hup

theorem Called.fresh {r : SinkResult} (h : Called s s' r) :
    Fresh ({ sink := s', up := r.isOk } : Uplink α) := by
  rcases h with h | ⟨h, hr⟩
  · exact fresh_of_upToDate h.seen fun _ _ => h.upToDate
  · exact fresh_of_upToDate h.introduced.seen fun hok => absurd hok hr

end

variable (hencodes : ∀ status, Protocol.encodeCatalogueStatus α status = .ok ())
include hencodes

/-- A call that writes, on a session that is up. -/
theorem run_called {s : ForwardSink α} {c : SinkCall α} (hc : c.isConnect = false)
    (hversion : s.version = 3) (hseen : s.seen ≤ s.catalogues.changes) (hcurrent : Current s) :
    Called s (c.run.run s).2 (c.run.run s).1 := by
  have hlooking : Looking s s := ⟨ByOthers.refl s, rfl, Introduced.refl hseen⟩
  cases c with
  | connect => cases hc
  | writeBatch batch =>
    have hcalled :=
      run_of_triple (writeBatch_called s hencodes hversion batch) ⟨hlooking, hcurrent⟩ rfl
    exact hcalled
  | keepAlive =>
    have hcalled := run_of_triple (keepAlive_called s hencodes hversion) ⟨hlooking, hcurrent⟩ rfl
    exact hcalled

/-- One call, from a state the caller may make it in. -/
theorem call_fresh {x : Uplink α} {c : SinkCall α} (h : Fresh x)
    (hguard : (c.isConnect || x.up && x.sink.version == 3) = true) :
    Fresh ({ sink := (c.run.run x.sink).2, up := (c.run.run x.sink).1.isOk } : Uplink α) ∧
      Tells x.sink (c.run.run x.sink).2 := by
  cases hc : c.isConnect with
  | true =>
    obtain rfl : c = .connect := by cases c <;> simp_all [SinkCall.isConnect]
    obtain ⟨hend, hupToDate⟩ :=
      run_of_triple (connect_upToDate x.sink hencodes) (Introduced.refl h.seen) rfl
    exact ⟨fresh_of_upToDate hend.seen hupToDate, tells_of_introduced hend⟩
  | false =>
    simp only [hc, Bool.false_or, Bool.and_eq_true, beq_iff_eq] at hguard
    obtain ⟨hup, hversion⟩ := hguard
    have hcalled := run_called hencodes hc hversion h.seen (h.current hup hversion)
    exact ⟨Called.fresh hcalled, tells_of_called hcalled⟩

theorem step_fresh {x y : Uplink α} {a : Act α} (h : Fresh x) (hstep : x.step a = some y) :
    Fresh y ∧ Tells x.sink y.sink := by
  cases a with
  | elsewhere e =>
    obtain rfl := Option.some.inj hstep
    have hintroduced := (Introduced.keeps x.sink).elsewhere e (Introduced.refl h.seen)
    refine ⟨⟨hintroduced.seen, fun hup hversion => ?_⟩, tells_of_introduced hintroduced⟩
    exact (h.current hup hversion).elsewhere e
  | call c =>
    obtain ⟨hguard, hnext⟩ := of_guard hstep
    obtain rfl := Option.some.inj hnext
    exact call_fresh hencodes h hguard
  | close =>
    obtain rfl := Option.some.inj hstep
    -- Without a connection there is nothing the gateway has to know.
    have hintroduced := (Introduced.keeps x.sink).same (u := { x.sink with conn := none })
      (Introduced.refl h.seen) rfl rfl rfl rfl rfl
    exact ⟨⟨h.seen, fun hup => nomatch hup⟩, tells_of_introduced hintroduced⟩

/-- However the calls of a v3 sink and the applies of the other sessions interleave, every `BATCH`
and every `PING` it sends comes after a status, on the same connection, of the catalogues at some
moment of the call. -/
theorem run_tells (s : ForwardSink α) (hseen : s.seen ≤ s.catalogues.changes) (acts : List (Act α))
    (x y : Uplink α) (a : Act α) (hrun : runs step { sink := s } acts = some x)
    (hstep : x.step a = some y) : Tells x.sink y.sink := by
  have hstart : Fresh ({ sink := s } : Uplink α) := ⟨hseen, fun hup => nomatch hup⟩
  have hfresh : Fresh x :=
    invariant_of_runs (fun h hstep => (step_fresh hencodes h hstep).1) hstart hrun
  exact (step_fresh hencodes hfresh hstep).2

end Uplink

section Refusal

local instance : Protocol Nat := singles
local instance : CatalogueFormat := unread

/-- A gateway that assigns nothing and answers a `PING`. -/
def idleSink : ForwardSink Nat := oneLine [.reply (.helloAck ⟨.ok, 3, []⟩), .reply .pong]

/-- A connect, and then another session refuses a blob for the line. -/
def refusalActs : List (Act Nat) :=
  [.call .connect, .elsewhere (.apply [("ser0", .refused assignedSha .fetchFailed)])]

def refusalUplink : Uplink Nat :=
  (runs Uplink.step { sink := idleSink } refusalActs).getD { sink := idleSink }

/-- The refusal is told before the next `PING`. -/
theorem run_tells_refusal :
    let x := refusalUplink
    let sink := ((SinkCall.run .keepAlive).run x.sink).2
    sink.log = x.sink.log ++
      ([.sent (.catalogueStatus [⟨0, .none, some (assignedSha, .fetchFailed)⟩])] ++
        .sent .ping :: [.received .pong]) ∧
    Uplink.Tells x.sink sink := by
  intro x sink
  have hrun : runs Uplink.step { sink := idleSink } refusalActs = some x := by
    have hsome : (runs Uplink.step { sink := idleSink } refusalActs).isSome := by decide +kernel
    obtain ⟨y, hy⟩ := Option.isSome_iff_exists.mp hsome
    have hxy : x = y := by
      change (runs Uplink.step { sink := idleSink } refusalActs).getD { sink := idleSink } = y
      rw [hy]
      rfl
    rw [hxy, hy]
  have hstep : x.step (.call .keepAlive) =
      some { sink, up := ((SinkCall.run .keepAlive).run x.sink).1.isOk } := by
    apply Uplink.step_call
    decide +kernel
  exact ⟨by decide +kernel, Uplink.run_tells (fun _ => rfl) idleSink (Nat.le_refl 0) refusalActs x _
    (.call .keepAlive) hrun hstep⟩

end Refusal

end WireTap
