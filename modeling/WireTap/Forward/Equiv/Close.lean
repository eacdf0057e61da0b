import Mathlib
import WireTap.Lib.Log
import WireTap.Forward.Equiv.Sink

/-!
# A `CLOSE` is a reconnect

Where a `CLOSE` arrives in a session, and what the call that reads it reports.  A step outside a
fetch is `Told`: it has read no `CLOSE`, or a `CLOSE` is the last thing it read and the error it
reports.  A `connect` past its handshake is `Pulled`: each `CLOSE` it has read came while a chunk of
a catalogue was awaited, and it reports none of them.  `close_reported_iff` puts the two together
with `Batcher::fail`.
-/

namespace WireTap

open Std.Do

set_option mvcgen.warning false

variable {α : Type}

/-! ### Where a `CLOSE` arrives -/

/-- A request for a chunk of a catalogue. -/
def Message.isGet : Message α → Bool
  | .catalogueGet _ _ => true
  | _ => false

/-- Whether a chunk of a catalogue is what was last asked for, if it was (`waiting`) before these
events. -/
def awaits (waiting : Bool) : List (Event α) → Bool
  | [] => waiting
  | .sent m :: rest => awaits m.isGet rest
  | .dialled :: rest | .received _ :: rest | .quarantined _ :: rest => awaits waiting rest

/-- No `CLOSE` was read. -/
def NoClose (events : List (Event α)) : Prop := ∀ reason, .received (.close reason) ∉ events

theorem awaits_append (waiting : Bool) (xs ys : List (Event α)) :
    awaits waiting (xs ++ ys) = awaits (awaits waiting xs) ys := by
  induction xs generalizing waiting with
  | nil => rfl
  | cons e xs ih => cases e <;> exact ih _

theorem NoClose.append {xs ys : List (Event α)} (hx : NoClose xs) (hy : NoClose ys) :
    NoClose (xs ++ ys) := by
  intro reason h
  rcases List.mem_append.mp h with h | h
  · exact hx reason h
  · exact hy reason h

/-- The first `CLOSE` of a list of events stands at one place. -/
theorem close_inj {xs ys after after' : List (Event α)} {reason reason' : CloseReason}
    (hx : NoClose xs) (hy : NoClose ys)
    (h : xs ++ .received (.close reason) :: after = ys ++ .received (.close reason') :: after') :
    xs = ys ∧ reason = reason' ∧ after = after' := by
  -- Side by side: where one list has its first `CLOSE`, so has the other.
  induction xs generalizing ys with
  | nil =>
    cases ys with
    | nil => simpa using h
    | cons y ys =>
      obtain ⟨rfl, -⟩ := List.cons_eq_cons.mp h
      exact absurd List.mem_cons_self (hy reason)
  | cons x xs ih =>
    cases ys with
    | nil =>
      obtain ⟨rfl, -⟩ := List.cons_eq_cons.mp h
      exact absurd List.mem_cons_self (hx reason')
    | cons y ys =>
      obtain ⟨rfl, htail⟩ := List.cons_eq_cons.mp h
      obtain ⟨rfl, hrest⟩ := ih (fun r hr => hx r (List.mem_cons_of_mem _ hr))
        (fun r hr => hy r (List.mem_cons_of_mem _ hr)) htail
      exact ⟨rfl, hrest⟩

/-! ### What the other sessions did -/

/-- The catalogues have changed by whole turns of the other sessions, and by nothing else. -/
def ByOthers [CatalogueFormat] (s t : ForwardSink α) : Prop :=
  ∃ n, t.turns = s.turns.drop n ∧
    t.catalogues = (s.turns.take n).flatten.foldl Catalogues.elsewhere s.catalogues

section Others

variable [CatalogueFormat] {s t u : ForwardSink α}

theorem ByOthers.refl (s : ForwardSink α) : ByOthers s s := ⟨0, rfl, rfl⟩

theorem ByOthers.same (h : ByOthers s t) (hturns : u.turns = t.turns)
    (hcatalogues : u.catalogues = t.catalogues) : ByOthers s u := by
  obtain ⟨n, ht, hc⟩ := h
  exact ⟨n, hturns.trans ht, hcatalogues.trans hc⟩

theorem ByOthers.turn (h : ByOthers s t) (hturns : u.turns = t.turns.tail)
    (hcatalogues : u.catalogues = (t.turns.headD []).foldl Catalogues.elsewhere t.catalogues) :
    ByOthers s u := by
  obtain ⟨n, ht, hc⟩ := h
  refine ⟨n + 1, ?_, ?_⟩
  · rw [hturns, ht, List.tail_drop]
  · have htake : (s.turns.take (n + 1)).flatten =
        (s.turns.take n).flatten ++ (s.turns.drop n).headD [] := by
      rw [List.take_add_one, List.flatten_append]
      cases hn : s.turns[n]? with
      | none => simp [List.headD_eq_head?_getD, hn]
      | some turn => simp [List.headD_eq_head?_getD, hn]
    rw [hcatalogues, ht, hc, htake, List.foldl_append]

end Others

/-! ### A session outside a fetch -/

section Heard

variable [CatalogueFormat]

/-- The session has read no `CLOSE`, awaits no catalogue and has left the catalogues alone. -/
structure Quiet (s t : ForwardSink α) (new : List (Event α)) : Prop where
  log : t.log = s.log ++ new
  noClose : NoClose new
  idle : awaits false new = false
  others : ByOthers s t

def Heard (s t : ForwardSink α) : Prop := ∃ new, Quiet s t new

/-- Its last event is a `CLOSE`, and that is the error it reports. -/
def Ended (s t : ForwardSink α) (e : SinkError) : Prop :=
  ∃ u new reason, Quiet s u new ∧ t.log = u.log ++ [.received (.close reason)] ∧ ByOthers s t ∧
    e = closed reason

/-- What a step outside a fetch comes to. -/
def Told {β : Type} (s t : ForwardSink α) : Except SinkError β → Prop
  | .ok _ => Heard s t
  | .error e => Heard s t ∨ Ended s t e

section

variable {s t u : ForwardSink α}

theorem Heard.refl (s : ForwardSink α) : Heard s s :=
  ⟨[], by rw [List.append_nil], by simp [NoClose], rfl, ByOthers.refl s⟩

theorem Heard.others (h : Heard s t) : ByOthers s t := h.choose_spec.others

/-- An event that is no `CLOSE`, after which no catalogue is awaited. -/
theorem Heard.event {e : Event α} (h : Heard s t) (hlog : u.log = t.log ++ [e])
    (hclose : ∀ reason, e ≠ .received (.close reason)) (hidle : awaits false [e] = false)
    (hothers : ByOthers s u) : Heard s u := by
  obtain ⟨new, h⟩ := h
  refine ⟨new ++ [e], ?_, ?_, ?_, hothers⟩
  · rw [hlog, h.log, List.append_assoc]
  · refine h.noClose.append ?_
    intro reason hmem
    exact hclose reason (List.mem_singleton.mp hmem).symm
  · rw [awaits_append, h.idle, hidle]

/-- No event. -/
theorem Heard.quiet (h : Heard s t) (hlog : u.log = t.log) (hothers : ByOthers s u) :
    Heard s u := by
  obtain ⟨new, h⟩ := h
  exact ⟨new, hlog.trans h.log, h.noClose, h.idle, hothers⟩

theorem Heard.same (h : Heard s t) (hlog : u.log = t.log) (hturns : u.turns = t.turns)
    (hcatalogues : u.catalogues = t.catalogues) : Heard s u :=
  h.quiet hlog (h.others.same hturns hcatalogues)

theorem Heard.ended {reason : CloseReason} (h : Heard s t)
    (hlog : u.log = t.log ++ [.received (.close reason)]) (hothers : ByOthers s u) :
    Ended s u (closed reason) := by
  obtain ⟨new, h⟩ := h
  exact ⟨t, new, reason, h, hlog, hothers, rfl⟩

theorem Told.of_heard {β : Type} {r : Except SinkError β} (h : Heard s t) : Told s t r := by
  cases r with
  | ok _ => exact h
  | error _ => exact .inl h

theorem Told.same {β : Type} {r : Except SinkError β} (h : Told s t r) (hlog : u.log = t.log)
    (hturns : u.turns = t.turns) (hcatalogues : u.catalogues = t.catalogues) : Told s u r := by
  cases r with
  | ok _ => exact Heard.same h hlog hturns hcatalogues
  | error e =>
    rcases h with h | ⟨v, new, reason, hquiet, hclose, hothers, herror⟩
    · exact .inl (h.same hlog hturns hcatalogues)
    · have hothers' := hothers.same hturns hcatalogues
      exact .inr ⟨v, new, reason, hquiet, hlog.trans hclose, hothers', herror⟩

/-- What is done next with the same error. -/
theorem Told.error {β γ : Type} {r : Except SinkError β} {e : SinkError} (h : Told s t r)
    (hr : r = .error e) : Told s t (.error e : Except SinkError γ) := by
  subst hr
  exact h

theorem Told.ok {β : Type} {r : Except SinkError β} {b : β} (h : Told s t r) (hr : r = .ok b) :
    Heard s t := by
  subst hr
  exact h

end

variable (s : ForwardSink α)

theorem send_heard (l : Link) (m : Message α) (hm : m.isGet = false) :
    ⦃fun t => ⌜Heard s t⌝⦄ l.send m ⦃⇓ _ s' => ⌜Heard s s'⌝⦄ := by
  mvcgen [Link.send, note]
  rename_i h _
  exact h.event rfl (by simp) hm (h.others.same rfl rfl)

theorem recvAny_told (l : Link) :
    ⦃fun t => ⌜Heard s t⌝⦄ l.recvAny ⦃⇓ r s' => ⌜Told s s' r.1⌝⦄ := by
  mvcgen [Link.recvAny, note]
  · exact .inl ‹_›
  · exact .inl ‹_›
  · exact .inl ‹_›
  · exact .inl ‹_›
  · exact .inl ‹_›
  -- The one result that ends the connection with a reason.
  · rename_i h _ reason hr
    subst hr
    exact .inr (h.ended rfl (h.others.same rfl rfl))
  · rename_i h _ why hr
    subst hr
    exact .inl (h.event rfl (by simp) rfl (h.others.same rfl rfl))
  · rename_i h _ r hclose _ hr
    subst hr
    exact h.event rfl (by simpa using hclose) rfl (h.others.same rfl rfl)

theorem recvLoop_told (fuel : Nat) (l : Link) :
    ⦃fun t => ⌜Heard s t⌝⦄ Link.recvLoop fuel l ⦃⇓ r s' => ⌜Told s s' r.1⌝⦄ := by
  have hany := recvAny_told s
  induction fuel generalizing l with
  | zero => mvcgen [Link.recvLoop, hany]
  | succ fuel ih =>
    mvcgen [Link.recvLoop, hany, ih]
    · rename_i hr _ h
      exact h.ok hr
    · rename_i hr _ h
      exact h.ok hr
    · rename_i hr _ h
      rw [← hr]
      exact h

theorem recv_told (l : Link) : ⦃fun t => ⌜Heard s t⌝⦄ l.recv ⦃⇓ r s' => ⌜Told s s' r.1⌝⦄ :=
  recvLoop_told s l.arrivals.length l

theorem setConn_heard (conn : Option Link) :
    ⦃fun t => ⌜Heard s t⌝⦄ setConn conn ⦃⇓ _ s' => ⌜Heard s s'⌝⦄ := by
  mvcgen [setConn]
  rename_i h _
  exact h.same rfl rfl rfl

theorem sendOn_heard (m : Message α) (hm : m.isGet = false) :
    ⦃fun t => ⌜Heard s t⌝⦄ sendOn m ⦃⇓ _ s' => ⌜Heard s s'⌝⦄ := by
  have hsend := fun l => send_heard s l m hm
  have hconn := setConn_heard s
  mvcgen [sendOn, hsend, hconn]

theorem recvOn_told : ⦃fun t => ⌜Heard s t⌝⦄ recvOn ⦃⇓ r s' => ⌜Told s s' r⌝⦄ := by
  have hrecv := recv_told s
  mvcgen [recvOn, hrecv, setConn]
  · rename_i h _
    exact .inl h
  · rename_i h _
    exact h.same rfl rfl rfl

theorem dial_heard : ⦃fun t => ⌜Heard s t⌝⦄ dial ⦃⇓ _ s' => ⌜Heard s s'⌝⦄ := by
  mvcgen [dial, note]
  · rename_i h _ _
    exact h.same rfl rfl rfl
  · rename_i h _
    exact h.same rfl rfl rfl
  · rename_i h _ _ _
    exact h.event rfl (by simp) rfl (h.others.same rfl rfl)

theorem otherSessions_heard :
    ⦃fun t => ⌜Heard s t⌝⦄ otherSessions ⦃⇓ _ s' => ⌜Heard s s'⌝⦄ := by
  mvcgen [otherSessions]
  rename_i h _
  exact h.quiet rfl (h.others.turn rfl rfl)

/-- Keeping a refused batch. -/
theorem quarantine_heard (chunk : List α) :
    ⦃fun t => ⌜Heard s t⌝⦄ quarantine chunk ⦃⇓ _ s' => ⌜Heard s s'⌝⦄ := by
  mvcgen [quarantine, note]
  · rename_i h _ _ _ _
    exact h.same rfl rfl rfl
  · rename_i h _ _ _ _ _ _ _ _
    exact h.same rfl rfl rfl
  · rename_i h _ _ _ _ _ _ _ _ _
    exact h.event rfl (by simp) rfl (h.others.same rfl rfl)

theorem answered_told (seq : UInt32) (chunk : List α) (reply : Reply) :
    ⦃fun t => ⌜Heard s t⌝⦄ answered seq chunk reply ⦃⇓ r s' => ⌜Told s s' r⌝⦄ := by
  have hkeep := quarantine_heard s
  mvcgen [answered, hkeep]
  all_goals exact .of_heard (by assumption)

variable [Protocol α]

theorem handshake_told : ⦃fun t => ⌜Heard s t⌝⦄ handshake ⦃⇓ r s' => ⌜Told s s' r⌝⦄ := by
  have hdial := dial_heard s
  have hsend := fun l h => send_heard s l (.hello h) rfl
  have hrecv := recv_told s
  mvcgen [handshake, hdial, hsend, hrecv]
  · rename_i h
    exact .inl h
  · rename_i h _ _ _
    exact .inl h
  · rename_i h
    exact .inl h
  · rename_i hr _ h
    exact h.error hr
  · rename_i hr _ h
    exact h.ok hr
  · rename_i hr _ h
    exact .inl (h.ok hr)
  · rename_i hr _ h
    exact .inl (h.ok hr)

theorem agree_told : ⦃fun t => ⌜Heard s t⌝⦄ agree ⦃⇓ r s' => ⌜Told s s' r⌝⦄ := by
  have hshake := handshake_told s
  mvcgen [agree, hshake]
  rename_i h _ _
  exact Heard.same h rfl rfl rfl

theorem statusMessage_heard :
    ⦃fun t => ⌜Heard s t⌝⦄ statusMessage ⦃⇓ _ s' => ⌜Heard s s'⌝⦄ := by
  have hothers := otherSessions_heard s
  mvcgen [statusMessage, hothers]
  rename_i h _
  exact h.same rfl rfl rfl

theorem sendStatusIfChanged_heard :
    ⦃fun t => ⌜Heard s t⌝⦄ sendStatusIfChanged ⦃⇓ _ s' => ⌜Heard s s'⌝⦄ := by
  have hothers := otherSessions_heard s
  have hstatus := statusMessage_heard s
  have hsend := fun status => sendOn_heard s (.catalogueStatus status) rfl
  mvcgen [sendStatusIfChanged, hothers, hstatus, hsend]

theorem sendChunk_told (samples : List α) :
    ⦃fun t => ⌜Heard s t⌝⦄ sendChunk samples ⦃⇓ r s' => ⌜Told s s' r⌝⦄ := by
  have hsend := fun seq chunk => sendOn_heard s (.batch seq chunk) rfl
  have hrecv := recvOn_told s
  have hanswered := answered_told s
  mvcgen [sendChunk, hsend, hrecv, hanswered]
  · rename_i h _ _ _
    exact h.same rfl rfl rfl
  · rename_i h
    exact .inl h

/-- What a write reports as its error. -/
def WriteResult.reported : WriteResult → SinkResult
  | .ok () => .ok ()
  | .error e => .error e.cause

theorem writeLoop_told (fuel delivered : Nat) (rest : List α) :
    ⦃fun t => ⌜Heard s t⌝⦄ writeLoop fuel delivered rest ⦃⇓ r s' => ⌜Told s s' r.reported⌝⦄ := by
  have hchunk := sendChunk_told s
  induction fuel generalizing delivered rest with
  | zero => mvcgen [writeLoop]
  | succ fuel ih =>
    mvcgen [writeLoop, hchunk, ih]

theorem writeBatch_told (batch : List α) :
    ⦃fun t => ⌜Heard s t⌝⦄ ForwardSink.writeBatch batch ⦃⇓ r s' => ⌜Told s s' r.reported⌝⦄ := by
  have hstatus := sendStatusIfChanged_heard s
  have hloop := writeLoop_told s
  mvcgen [ForwardSink.writeBatch, hstatus, hloop]
  rename_i h
  exact .inl h

theorem keepAlive_told :
    ⦃fun t => ⌜Heard s t⌝⦄ ForwardSink.keepAlive ⦃⇓ r s' => ⌜Told s s' r⌝⦄ := by
  have hstatus := sendStatusIfChanged_heard s
  have hsend := sendOn_heard s .ping rfl
  have hrecv := recvOn_told s
  mvcgen [ForwardSink.keepAlive, hstatus, hsend, hrecv]
  · rename_i h
    exact .inl h
  · rename_i h
    exact .inl h
  · rename_i h
    exact .inl h

end Heard

/-! ### A fetch -/

section Pulled

/-- Every `CLOSE` the session has read came while it awaited a chunk of a catalogue; it awaits one
now if it is `waiting`. -/
def Pulled (s t : ForwardSink α) (waiting : Bool) : Prop :=
  ∃ new, t.log = s.log ++ new ∧ (waiting = true → ∀ w, awaits w new = true) ∧
    Logs (fun before e => ∀ reason, e = .received (.close reason) → ∀ w, awaits w before = true) new

section

variable {s t u : ForwardSink α} {waiting : Bool}

theorem Pulled.refl (s : ForwardSink α) : Pulled s s false :=
  ⟨[], by rw [List.append_nil], by simp, Logs.nil _⟩

theorem Pulled.same (h : Pulled s t waiting) (hlog : u.log = t.log) : Pulled s u waiting := by
  obtain ⟨new, h, hrest⟩ := h
  exact ⟨new, hlog.trans h, hrest⟩

theorem Pulled.weaken (h : Pulled s t waiting) : Pulled s t false := by
  obtain ⟨new, hlog, -, hclose⟩ := h
  exact ⟨new, hlog, by simp, hclose⟩

/-- One more event, which is a `CLOSE` only if a chunk is awaited. -/
theorem Pulled.event {e : Event α} {waiting' : Bool} (h : Pulled s t waiting)
    (hlog : u.log = t.log ++ [e])
    (hwaits : waiting' = true → ∀ w, (waiting = true → w = true) → awaits w [e] = true)
    (hclose : (∀ reason, e ≠ .received (.close reason)) ∨ waiting = true) :
    Pulled s u waiting' := by
  obtain ⟨new, hnew, hwaiting, hcloses⟩ := h
  refine ⟨new ++ [e], by rw [hlog, hnew, List.append_assoc], ?_, hcloses.snoc ?_⟩
  · intro hw w
    rw [awaits_append]
    exact hwaits hw _ fun h => hwaiting h w
  · intro reason he w
    rcases hclose with hno | hw
    · exact absurd he (hno reason)
    · exact hwaiting hw w

theorem Pulled.sent {m : Message α} (h : Pulled s t waiting) (hlog : u.log = t.log ++ [.sent m]) :
    Pulled s u m.isGet :=
  h.event hlog (fun hget _ _ => hget) (.inl (by simp))

theorem Pulled.received {r : Reply} (h : Pulled s t true)
    (hlog : u.log = t.log ++ [.received r]) : Pulled s u true :=
  h.event hlog (fun _ _ hw => hw rfl) (.inr rfl)

end

variable (s : ForwardSink α)

theorem withTimeout_ne_closed (what : String) (io : Io) (why : String) :
    withTimeout what io ≠ .error (.closed why) := by
  cases io <;> simp [withTimeout]

theorem send_pulled (l : Link) (m : Message α) :
    ⦃fun t => ⌜Pulled s t false⌝⦄ l.send m
    ⦃⇓ r s' => ⌜Pulled s s' false ∧ (r.1 = .ok () → Pulled s s' m.isGet) ∧
      ∀ why, r.1 ≠ .error (.closed why)⌝⦄ := by
  mvcgen [Link.send, note]
  · rename_i h t
    have hsent : Pulled s t.2 m.isGet := h.sent rfl
    exact ⟨hsent.weaken, fun _ => hsent, withTimeout_ne_closed _ _⟩
  · rename_i hne hsent _ h
    exact ⟨h, fun hok => absurd (hsent.symm.trans hok) hne, withTimeout_ne_closed _ _⟩

theorem recvAny_pulled (l : Link) :
    ⦃fun t => ⌜Pulled s t true⌝⦄ l.recvAny ⦃⇓ _ s' => ⌜Pulled s s' true⌝⦄ := by
  mvcgen [Link.recvAny, note]
  · rename_i h _ _ _
    exact h.received rfl
  · rename_i h _ _ _
    exact h.received rfl
  · rename_i h _ _ _ _ _
    exact h.received rfl

theorem recvCatalogLoop_pulled (sha : Sha) (offset fuel : Nat) (l : Link) :
    ⦃fun t => ⌜Pulled s t true⌝⦄ Link.recvCatalogLoop sha offset fuel l
    ⦃⇓ _ s' => ⌜Pulled s s' true⌝⦄ := by
  have hany := recvAny_pulled s
  induction fuel generalizing l with
  | zero => mvcgen [Link.recvCatalogLoop]
  | succ fuel ih => mvcgen [Link.recvCatalogLoop, hany, ih]

theorem fetchLoop_pulled (sha : Sha) (fuel offset : Nat) (blob : List UInt8) (l : Link) :
    ⦃fun t => ⌜Pulled s t false⌝⦄ Link.fetchLoop sha fuel offset blob l
    ⦃⇓ _ s' => ⌜Pulled s s' false⌝⦄ := by
  have hsend := fun l offset => send_pulled s l (.catalogueGet sha offset)
  have hrecv := recvCatalogLoop_pulled s
  induction fuel generalizing offset blob l with
  | zero => mvcgen [Link.fetchLoop]
  | succ fuel ih =>
    mvcgen [Link.fetchLoop, hsend, Link.recvCatalog, hrecv, ih]
    · rename_i h
      exact h.1
    · rename_i hok _ h
      exact h.2.1 hok
    all_goals exact Pulled.weaken ‹_›

theorem fetch_pulled (l : Link) (sha : Sha) :
    ⦃fun t => ⌜Pulled s t false⌝⦄ l.fetch sha ⦃⇓ _ s' => ⌜Pulled s s' false⌝⦄ :=
  fetchLoop_pulled s sha _ 0 [] l

variable [CatalogueFormat]

theorem otherSessions_pulled :
    ⦃fun t => ⌜Pulled s t false⌝⦄ otherSessions ⦃⇓ _ s' => ⌜Pulled s s' false⌝⦄ := by
  mvcgen [otherSessions]

theorem catalogue_pulled (l : Link) (sha : Sha) :
    ⦃fun t => ⌜Pulled s t false⌝⦄ catalogue l sha ⦃⇓ _ s' => ⌜Pulled s s' false⌝⦄ := by
  have hothers := otherSessions_pulled s
  have hfetch := fetch_pulled s
  mvcgen [catalogue, hothers, hfetch]

theorem pullLines_pulled (assignments : List Assignment) (lines : List String) (l : Link) :
    ⦃fun t => ⌜Pulled s t false⌝⦄ pullLines assignments lines l
    ⦃⇓ _ s' => ⌜Pulled s s' false⌝⦄ := by
  have hcatalogue := catalogue_pulled s
  induction lines generalizing l with
  | nil => mvcgen [pullLines]
  | cons interface rest ih => mvcgen [pullLines, pullLine, hcatalogue, ih]

theorem pull_pulled (l : Link) (assignments : List Assignment) :
    ⦃fun t => ⌜Pulled s t false⌝⦄ pull l assignments ⦃⇓ _ s' => ⌜Pulled s s' false⌝⦄ := by
  have hlines := pullLines_pulled s
  have hothers := otherSessions_pulled s
  mvcgen [pull, hlines, hothers]

variable [Protocol α]

theorem statusMessage_pulled :
    ⦃fun t => ⌜Pulled s t false⌝⦄ statusMessage ⦃⇓ _ s' => ⌜Pulled s s' false⌝⦄ := by
  have hothers := otherSessions_pulled s
  mvcgen [statusMessage, hothers]

theorem introduce_pulled (l : Link) (ack : HelloAck) :
    ⦃fun t => ⌜Pulled s t false⌝⦄ introduce l ack
    ⦃⇓ r s' => ⌜Pulled s s' false ∧ ∀ why, r.1 ≠ .error (.closed why)⌝⦄ := by
  have hpull := pull_pulled s
  have hstatus := statusMessage_pulled s
  have hsend := fun l status => send_pulled s l (.catalogueStatus status)
  mvcgen [introduce, hpull, hstatus, hsend]
  · rename_i h _
    exact ⟨h, by simp⟩
  · rename_i h
    exact ⟨h, by simp⟩
  · intro h _ hne
    exact ⟨h, hne⟩

/-- What a whole `connect` comes to: its handshake was cut short, or it went on to the catalogues
and reports no `CLOSE`. -/
def Connected (s t : ForwardSink α) (r : SinkResult) : Prop :=
  Told s t r ∨ ∃ u, Heard s u ∧ Pulled u t false ∧ ∀ why, r ≠ .error (.closed why)

omit [Protocol α] in
theorem Connected.same {s t u : ForwardSink α} {r : SinkResult} (h : Connected s t r)
    (hlog : u.log = t.log) (hturns : u.turns = t.turns)
    (hcatalogues : u.catalogues = t.catalogues) : Connected s u r := by
  rcases h with h | ⟨v, hheard, hpulled, hne⟩
  · exact .inl (h.same hlog hturns hcatalogues)
  · exact .inr ⟨v, hheard, hpulled.same hlog, hne⟩

theorem introduce_connected (l : Link) (ack : HelloAck) :
    ⦃fun t => ⌜Heard s t⌝⦄ introduce l ack ⦃⇓ r s' => ⌜Connected s s' r.1⌝⦄ := by
  intro t ht
  have h := run_of_triple (introduce_pulled t l ack) (Pulled.refl t) rfl
  exact .inr ⟨t, ht, h⟩

theorem connect_connected :
    ⦃fun t => ⌜Heard s t⌝⦄ connect ⦃⇓ r s' => ⌜Connected s s' r⌝⦄ := by
  have hagree := agree_told s
  have hintroduce := introduce_connected s
  mvcgen [connect, hagree, hintroduce, setConn]
  · rename_i h
    exact .inl h
  · rename_i h
    exact .inl (.inl h)
  · rename_i hr _ h
    rwa [hr] at h
  · rename_i hr _ h _
    rw [hr] at h
    exact h.same rfl rfl rfl

end Pulled

/-! ### Every point of a session -/

section Close

variable [CatalogueFormat]

/-- Outside a fetch a `CLOSE` is what the call reports, and the last thing it reads. -/
theorem Told.close {s s' : ForwardSink α} {r : SinkResult} {before after : List (Event α)}
    {reason : CloseReason} (h : Told s s' r) (hno : NoClose before)
    (hlog : s'.log = s.log ++ (before ++ .received (.close reason) :: after)) :
    r = .error (closed reason) ∧ ByOthers s s' ∧ awaits false before = false := by
  have hnot : ¬ Heard s s' := by
    rintro ⟨new, hquiet⟩
    rw [hquiet.log, List.append_cancel_left_eq] at hlog
    exact hquiet.noClose reason (by simp [hlog])
  cases r with
  | ok _ => exact absurd h hnot
  | error e =>
    rcases h with h | ⟨u, new, reason', hquiet, hclose, hothers, rfl⟩
    · exact absurd h hnot
    · rw [hclose, hquiet.log, List.append_assoc, List.append_cancel_left_eq] at hlog
      obtain ⟨rfl, rfl, -⟩ := close_inj hquiet.noClose hno hlog
      exact ⟨rfl, hothers, hquiet.idle⟩

/-- After the handshake a `CLOSE` is read only while a chunk is awaited. -/
theorem Pulled.close {s u s' : ForwardSink α} {before after : List (Event α)} {reason : CloseReason}
    (hheard : Heard s u) (h : Pulled u s' false)
    (hlog : s'.log = s.log ++ (before ++ .received (.close reason) :: after)) :
    awaits false before = true := by
  obtain ⟨heard, hquiet⟩ := hheard
  obtain ⟨new, hnew, -, hcloses⟩ := h
  rw [hnew, hquiet.log, List.append_assoc, List.append_cancel_left_eq] at hlog
  rcases List.append_eq_append_iff.mp hlog with ⟨mid, rfl, hmid⟩ | ⟨mid, hmid, hrest⟩
  · rw [awaits_append]
    exact hcloses mid _ after hmid reason rfl _
  · -- The `CLOSE` would stand in the handshake, which read none.
    cases mid with
    | nil =>
      rw [List.append_nil] at hmid
      subst hmid
      exact hcloses [] _ after hrest.symm reason rfl _
    | cons e mid =>
      obtain ⟨rfl, -⟩ := List.cons_eq_cons.mp hrest
      exact absurd (by simp [hmid]) (hquiet.noClose reason)

/-- `fail` comes straight back for the next connect: it waits for nothing, takes nothing off the
queue, and leaves the sink as down as it was. -/
structure Again {C : Type} (w : World (ForwardSink α) C α) (retry : Bool)
    (w' : World (ForwardSink α) C α) : Prop where
  retries : retry = true
  connected : w'.connected = false
  sinkDown : w'.sinkDown = w.sinkDown
  queue : w'.shared.queue = w.shared.queue
  turns : w'.turns = w.turns
  sink : w'.sink = { w.sink with conn := none }

variable [Protocol α]

omit [CatalogueFormat] [Protocol α] in
theorem cacheBatch_again {C : Type} [FrameCache C α] (w : World (ForwardSink α) C α)
    (batch : List α) :
    ⦃fun t => ⌜Again w true t⌝⦄ cacheBatch batch ⦃⇓ _ t => ⌜Again w true t⌝⦄ := by
  mvcgen [cacheBatch, appendUnlessFull, onCache]
  · rename_i h _ _
    exact ⟨rfl, h.connected, h.sinkDown, h.queue, h.turns, h.sink⟩
  · rename_i h _ _ _ _
    exact ⟨rfl, h.connected, h.sinkDown, h.queue, h.turns, h.sink⟩
  · rename_i h _ _ _ _
    exact ⟨rfl, h.connected, h.sinkDown, h.queue, h.turns, h.sink⟩

theorem fail_again {C : Type} [FrameCache C α] (w : World (ForwardSink α) C α) (why : String)
    (batch : List α) :
    ⦃fun t => ⌜t = w⌝⦄ fail (.closed why) batch ⦃⇓ retry w' => ⌜Again w retry w'⌝⦄ := by
  have hcache := cacheBatch_again w
  mvcgen [fail, onSink, hcache]
  · rename_i h _ _ _
    subst h
    exact ⟨rfl, rfl, Bool.or_false _, rfl, rfl, rfl⟩
  · rename_i h _ _ _ _
    subst h
    exact ⟨rfl, rfl, Bool.or_false _, rfl, rfl, rfl⟩

/-- A `CLOSE` taken as one: it is what the call reports, the call has recorded nothing about any
line, and the batcher reconnects at once. -/
def TakenAsClose (s s' : ForwardSink α) (r : SinkResult) (reason : CloseReason) : Prop :=
  r = .error (closed reason) ∧ ByOthers s s' ∧
    ∀ (C : Type) [FrameCache C α] (w : World (ForwardSink α) C α) (batch : List α),
      Again w ((fail (closed reason) batch).run w).1 ((fail (closed reason) batch).run w).2

theorem takenAsClose_of_reported {s s' : ForwardSink α} {r : SinkResult} {reason : CloseReason}
    (hr : r = .error (closed reason)) (hothers : ByOthers s s') : TakenAsClose s s' r reason := by
  refine ⟨hr, hothers, ?_⟩
  intro C _ w batch
  obtain ⟨why, hwhy⟩ : ∃ why, closed reason = .closed why := by
    cases reason <;> exact ⟨_, rfl⟩
  rw [hwhy]
  exact run_of_triple (fail_again w why batch) rfl rfl

/-- A call of the batcher's that can report an error. -/
inductive SinkCall (α : Type) where
  | connect
  | writeBatch (batch : List α)
  | keepAlive

/-- The call, and what it reports. -/
def SinkCall.run : SinkCall α → Fwd α SinkResult
  | .connect => WireTap.connect
  | .writeBatch batch => do return (← ForwardSink.writeBatch batch).reported
  | .keepAlive => ForwardSink.keepAlive

/-- What any call comes to. -/
theorem SinkCall.run_connected (call : SinkCall α) {s s' : ForwardSink α} {r : SinkResult}
    (hrun : call.run.run s = (r, s')) : Connected s s' r := by
  have hspec : ⦃fun t => ⌜Heard s t⌝⦄ call.run ⦃⇓ r s' => ⌜Connected s s' r⌝⦄ := by
    have hwrite := writeBatch_told s
    have hconnect := connect_connected s
    have halive := keepAlive_told s
    cases call with
    | connect => exact hconnect
    | writeBatch batch =>
      mvcgen [SinkCall.run, hwrite]
      rename_i h
      exact .inl h
    | keepAlive =>
      mvcgen [SinkCall.run, halive]
      intro h
      exact .inl h
  exact run_of_triple (Q := fun r s' => Connected s s' r) hspec (Heard.refl s) hrun

/-- Whatever a call asks for, the first `CLOSE` it reads is taken as one exactly when no chunk of a
catalogue was awaited. -/
theorem close_reported_iff (call : SinkCall α) (s s' : ForwardSink α) (r : SinkResult)
    (before after : List (Event α)) (reason : CloseReason) (hrun : call.run.run s = (r, s'))
    (hlog : s'.log = s.log ++ (before ++ .received (.close reason) :: after))
    (hno : NoClose before) :
    TakenAsClose s s' r reason ↔ awaits false before = false := by
  rcases call.run_connected hrun with htold | ⟨u, hheard, hpulled, hne⟩
  · obtain ⟨hr, hothers, hidle⟩ := htold.close hno hlog
    exact iff_of_true (takenAsClose_of_reported hr hothers) hidle
  · have hawaits := Pulled.close hheard hpulled hlog
    have hnot : ¬ TakenAsClose s s' r reason := by
      rintro ⟨hr, -⟩
      cases reason <;> exact hne _ hr
    exact iff_of_false hnot (by simp [hawaits])

end Close

section Reassigned

/-- A protocol that sends a sample at a time. -/
local instance singles : Protocol Nat where
  batchLen xs := min 1 xs.length
  batchLen_pos xs hne := by
    have hlen := List.length_pos_of_ne_nil hne
    omega
  batchLen_le xs := Nat.min_le_right 1 xs.length
  encodeHello _ := .ok ()
  encodeCatalogueStatus _ := .ok ()

/-- Twenty bytes, all alike. -/
def Sha.uniform (byte : UInt8) : Sha := ⟨List.replicate 20 byte, List.length_replicate⟩

/-- The blob the gateway assigns is never fetched here, so none is hashed or parsed. -/
local instance unread : CatalogueFormat where
  blobSha1 _ := .uniform 0
  parse _ _ := .error "not read"

def assignedSha : Sha := .uniform 1

/-- One framed line, whose catalogue the gateway assigns, and a gateway about to say `arrivals`. -/
def oneLine (arrivals : List Arrival) : ForwardSink Nat where
  apiKey := "key"
  database := "site"
  daemonId := "pi"
  devices := [⟨0, "ser0"⟩]
  rawSerial := false
  catalogues :=
    { dir := some "/var/lib/wiretap"
      lines := [⟨"ser0", "site", none, .none⟩]
      distinct := by decide
      assigned := ∅
      refused := ∅
      changes := 0
      disk := {} }
  seen := 0
  deadLetter := "dead.db"
  dials := [.link { arrivals }]

/-- A `CLOSE` in place of the `HELLO_ACK` is taken as one. -/
theorem close_reported_hello :
    let s := oneLine [.reply (.close .reassigned)]
    let end_ := (SinkCall.run .connect).run s
    TakenAsClose s end_.2 end_.1 .reassigned := by
  intro s end_
  let before : List (Event Nat) := [.dialled, .sent (.hello (hello s))]
  have hlog : end_.2.log = s.log ++ (before ++ [.received (.close .reassigned)]) := by
    decide +kernel
  exact (close_reported_iff .connect s end_.2 end_.1 before [] .reassigned rfl hlog
    (by simp [NoClose, before])).mpr rfl

/-- The `CLOSE` that answers a `CATALOGUE_GET` costs the line a refusal, the session goes on, and
the next call reports an outage. -/
theorem close_while_fetching :
    let s := oneLine [.reply (.helloAck ⟨.ok, 3, [⟨0, assignedSha⟩]⟩), .reply (.close .reassigned),
      .hungUp]
    let (r, s') := (SinkCall.run .connect).run s
    (∃ before after,
      s'.log = s.log ++ (before ++ .received (.close .reassigned) :: after) ∧ NoClose before) ∧
    r = .ok () ∧
    s'.catalogues.refused.lookup "ser0" = some (assignedSha, .fetchFailed) ∧
    ((SinkCall.run .keepAlive).run s').1 =
      .error (.failed "forward: gateway closed connection") := by
  intro s
  let before : List (Event Nat) :=
    [.dialled, .sent (.hello (hello s)), .received (.helloAck ⟨.ok, 3, [⟨0, assignedSha⟩]⟩),
      .sent (.catalogueGet assignedSha 0)]
  let after : List (Event Nat) :=
    [.sent (.catalogueStatus [⟨0, .none, some (assignedSha, .fetchFailed)⟩])]
  have hlog : ((SinkCall.run .connect).run s).2.log =
      s.log ++ (before ++ .received (.close .reassigned) :: after) := by
    decide +kernel
  have hok : ((SinkCall.run .connect).run s).1 = .ok () := by decide +kernel
  have hrefused : ((SinkCall.run .connect).run s).2.catalogues.refused.lookup "ser0" =
      some (assignedSha, .fetchFailed) := by decide +kernel
  have hoff : ((SinkCall.run .keepAlive).run ((SinkCall.run .connect).run s).2).1 =
      .error (.failed "forward: gateway closed connection") := by decide +kernel
  generalize (SinkCall.run .connect).run s = end_ at hlog hok hrefused hoff ⊢
  exact ⟨⟨before, after, hlog, by simp [NoClose, before]⟩, hok, hrefused, hoff⟩

end Reassigned

end WireTap
