import Mathlib
import WireTap.Lib.Log
import WireTap.Archive.Equiv.Session
import WireTap.Forward.Equiv.Sink

/-!
# One batch at a time

`tally` reads off the link's log which `BATCH` the gateway still owes an answer to, and which ones it
acknowledged.  A batcher sends a `BATCH` only when none is owed (`run_inTurn`): after an answer that
did not come it closes the link, and a new one owes nothing.  `Ledger.acked`: what the sink reported
delivered and did not quarantine was acknowledged.
-/

namespace WireTap

open Std.Do

set_option mvcgen.warning false

variable {α : Type}

/-! ### The tally -/

structure Tally (α : Type) where
  /-- The `BATCH` sent last on this link, unless something acknowledged it or refused it. -/
  owing : Option (UInt32 × List α) := none
  /-- Each batch acknowledged under its own seq. -/
  acked : List (UInt32 × List α) := []

/-- An `ACK` that says OK to a `BATCH`. -/
def Ack.Confirms (a : Ack) (b : UInt32 × List α) : Prop := a = ⟨b.1, .ok⟩

instance (a : Ack) (b : UInt32 × List α) : Decidable (a.Confirms b) :=
  inferInstanceAs (Decidable (a = _))

namespace Tally

def note (t : Tally α) : Event α → Tally α
  | .dialled => { t with owing := none }
  | .sent (.batch seq samples) => { t with owing := some (seq, samples) }
  | .received (.ack a) =>
    { owing := none
      acked := t.acked ++ t.owing.toList.filter fun b => a.Confirms b }
  | _ => t

end Tally

def tally (log : List (Event α)) : Tally α := log.foldl Tally.note {}

theorem tally_append (log new : List (Event α)) :
    tally (log ++ new) = new.foldl Tally.note (tally log) := List.foldl_append

theorem tally_snoc (log : List (Event α)) (e : Event α) :
    tally (log ++ [e]) = (tally log).note e := tally_append log [e]

/-- A `BATCH` is sent only when none is owed an answer. -/
def Event.InTurn (before : List (Event α)) (e : Event α) : Prop :=
  ∀ seq samples, e = .sent (.batch seq samples) → (tally before).owing = none

/-- Nothing is owed an answer, and nothing was when a `BATCH` was sent. -/
structure Idle (log : List (Event α)) : Prop where
  inTurn : Logs Event.InTurn log
  owing : (tally log).owing = none

theorem Idle.nil : Idle ([] : List (Event α)) := ⟨Logs.nil _, rfl⟩

def Event.isBatch : Event α → Bool
  | .sent (.batch _ _) => true
  | _ => false

theorem Event.inTurn_of_not_batch {log : List (Event α)} {e : Event α} (h : e.isBatch = false) :
    e.InTurn log := by
  rintro seq samples rfl
  cases h

/-- Only a `BATCH` makes something owed. -/
theorem Tally.note_owing {t : Tally α} {e : Event α} (h : e.isBatch = false) :
    (t.note e).owing = none ∨ (t.note e).owing = t.owing := by
  unfold Tally.note
  split
  · exact .inl rfl
  · cases h
  · exact .inl rfl
  · exact .inr rfl

theorem logs_inTurn_snoc {log : List (Event α)} {e : Event α} (h : Logs Event.InTurn log)
    (he : e.isBatch = false) : Logs Event.InTurn (log ++ [e]) :=
  h.snoc (Event.inTurn_of_not_batch he)

namespace Idle

variable {log : List (Event α)} {e : Event α}

theorem snoc (h : Idle log) (he : e.isBatch = false) : Idle (log ++ [e]) := by
  refine ⟨logs_inTurn_snoc h.inTurn he, ?_⟩
  rw [tally_snoc]
  rcases Tally.note_owing (t := tally log) he with hnote | hnote
  · exact hnote
  · exact hnote.trans h.owing

theorem append {new : List (Event α)} (h : Idle log) (hnew : ∀ e ∈ new, e.isBatch = false) :
    Idle (log ++ new) := by
  induction new generalizing log with
  | nil =>
    rw [List.append_nil]
    exact h
  | cons e new ih =>
    obtain ⟨he, hnew⟩ := List.forall_mem_cons.mp hnew
    have hrest := ih (h.snoc he) hnew
    rwa [List.append_assoc, List.singleton_append] at hrest

/-- What follows a `BATCH` that is not a `BATCH` itself leaves the log in turn. -/
theorem inTurn_batch {seq : UInt32} {samples : List α} {new : List (Event α)} (h : Idle log)
    (hnew : ∀ e ∈ new, e.isBatch = false) :
    Logs Event.InTurn (log ++ .sent (.batch seq samples) :: new) := by
  have hsent : Logs Event.InTurn (log ++ [.sent (.batch seq samples)]) :=
    h.inTurn.snoc fun _ _ _ => h.owing
  rw [List.append_cons]
  generalize log ++ [Event.sent (.batch seq samples)] = log' at hsent
  induction new generalizing log' with
  | nil =>
    rw [List.append_nil]
    exact hsent
  | cons e new ih =>
    obtain ⟨he, hnew⟩ := List.forall_mem_cons.mp hnew
    rw [List.append_cons]
    exact ih hnew _ (logs_inTurn_snoc hsent he)

end Idle

theorem received_isBatch (rs : List Reply) :
    ∀ e ∈ (received rs : List (Event α)), e.isBatch = false := by
  intro e he
  obtain ⟨r, -, rfl⟩ := List.mem_map.mp he
  rfl

theorem StatusOnly.isBatch {events : List (Event α)} (h : StatusOnly events) :
    ∀ e ∈ events, e.isBatch = false := by
  intro e he
  obtain ⟨status, rfl⟩ := h e he
  rfl

/-! ### Exchanges -/

/-- Replies that are no `ACK` leave what is owed. -/
theorem foldl_note_skipped (t : Tally α) (rs : List Reply) (h : ∀ r ∈ rs, r.isCatalogue = true) :
    (received rs).foldl Tally.note t = t := by
  induction rs with
  | nil => rfl
  | cons r rs ih =>
    obtain ⟨hr, hrs⟩ := List.forall_mem_cons.mp h
    have hnote : t.note (.received r) = t := by
      cases r <;> first | rfl | cases hr
    show (received rs).foldl Tally.note (t.note (.received r)) = t
    rw [hnote]
    exact ih hrs

/-- After a settled exchange nothing is owed, and its samples are acknowledged or quarantined. -/
theorem Exchange.tallied {x : Exchange α} (h : x.Settled) (log : List (Event α)) :
    (tally (log ++ x.events)).owing = none ∧
      ((tally (log ++ x.events)).acked =
          (tally log).acked ++ [(x.seq, x.samples)] ∧ x.quarantined = [] ∨
        (tally (log ++ x.events)).acked = (tally log).acked ∧
          x.quarantined = x.samples) := by
  rw [tally_append]
  unfold Exchange.events
  rw [List.foldl_append, List.foldl_append, List.foldl_cons (l := received x.skipped),
    foldl_note_skipped _ _ h.skipped]
  generalize tally log = t
  rcases h.answer with hok | ⟨hmal, -⟩
  · simp [Tally.note, Exchange.quarantined, hok, Ack.Confirms]
  · have hno : ¬x.answer.Confirms (x.seq, x.samples) := by
      intro hconfirms
      rw [hconfirms] at hmal
      cases hmal
    simp [Tally.note, hmal, Exchange.quarantined, hno]

theorem Exchange.idle {x : Exchange α} (h : x.Settled) {log : List (Event α)} (hlog : Idle log) :
    Idle (log ++ x.events) := by
  refine ⟨?_, (Exchange.tallied h log).1⟩
  unfold Exchange.events
  rw [List.cons_append, List.cons_append]
  refine hlog.inTurn_batch fun e he => ?_
  rcases List.mem_append.mp he with he | he
  · rcases List.mem_append.mp he with he | he
    · exact received_isBatch _ e he
    · rw [List.mem_singleton.mp he]
      rfl
  · split at he
    · rw [List.mem_singleton.mp he]
      rfl
    · cases he

theorem idle_exchanges {log : List (Event α)} (h : Idle log) (xs : List (Exchange α))
    (hsettled : ∀ x ∈ xs, x.Settled) : Idle (log ++ xs.flatMap Exchange.events) := by
  induction xs generalizing log with
  | nil =>
    rw [List.flatMap_nil, List.append_nil]
    exact h
  | cons x xs ih =>
    obtain ⟨hx, hxs⟩ := List.forall_mem_cons.mp hsettled
    rw [List.flatMap_cons, ← List.append_assoc]
    exact ih (Exchange.idle hx h) hxs

/-- What was reported delivered is, in order, what was acknowledged and what was quarantined. -/
theorem Ledger.acked {log : List (Event α)} {delivered kept : List α}
    (h : Ledger log delivered kept) :
    ∃ oks : List (UInt32 × List α), oks.Sublist (tally log).acked ∧
      Split delivered (oks.flatMap (·.2)) kept := by
  induction h with
  | nil => exact ⟨[], List.nil_sublist _, Split.all []⟩
  | @event log delivered kept e _ ih =>
    obtain ⟨oks, hoks, hsplit⟩ := ih
    refine ⟨oks, hoks.trans ?_, hsplit⟩
    rw [tally_snoc]
    unfold Tally.note
    split
    · exact List.Sublist.refl _
    · exact List.Sublist.refl _
    · exact List.sublist_append_left _ _
    · exact List.Sublist.refl _
  | @settled log delivered kept x hx _ ih =>
    obtain ⟨oks, hoks, hsplit⟩ := ih
    obtain ⟨-, ⟨hacked, hkept⟩ | ⟨hacked, hkept⟩⟩ := Exchange.tallied hx log
    · refine ⟨oks ++ [(x.seq, x.samples)], ?_, ?_⟩
      · rw [hacked]
        exact hoks.append (List.Sublist.refl _)
      · rw [hkept, List.flatMap_append, List.flatMap_singleton]
        exact hsplit.append (Split.all x.samples)
    · refine ⟨oks, ?_, ?_⟩
      · rw [hacked]
        exact hoks
      · rw [hkept]
        have hall := hsplit.append (Split.none x.samples)
        rwa [List.append_nil] at hall

/-! ### The sink -/

/-- In turn so far, and idle if the operation went well. -/
structure InSession (ok : Bool) (t : ForwardSink α) : Prop where
  inTurn : Logs Event.InTurn t.log
  idle : ok = true → Idle t.log

theorem Idle.inSession {ok : Bool} {t : ForwardSink α} (h : Idle t.log) : InSession ok t :=
  ⟨h.inTurn, fun _ => h⟩

/-- A link that has just been dialled owes nothing. -/
theorem dial_inTurn :
    ⦃fun t : ForwardSink α => ⌜Logs Event.InTurn t.log⌝⦄ dial
    ⦃⇓ r t => ⌜InSession r.isOk t⌝⦄ := by
  mvcgen [dial, WireTap.note]
  · rename_i h _ _
    exact ⟨h, Bool.noConfusion⟩
  · rename_i h _
    exact ⟨h, Bool.noConfusion⟩
  · rename_i t h _ _ _
    have hlog : Logs Event.InTurn (t.log ++ [.dialled]) := logs_inTurn_snoc h rfl
    refine ⟨hlog, fun _ => ⟨hlog, ?_⟩⟩
    rw [tally_snoc]
    rfl

section Sink

theorem handshake_inTurn [Protocol α] :
    ⦃fun t : ForwardSink α => ⌜Logs Event.InTurn t.log⌝⦄ handshake
    ⦃⇓ r t => ⌜InSession r.isOk t⌝⦄ := by
  have hdial := dial_inTurn (α := α)
  have hsend := fun l h => send_keeps (R := fun t : ForwardSink α => Idle t.log) l (.hello h)
    fun ht => ht.snoc rfl
  have hrecv := recv_survives (R := fun t : ForwardSink α => Idle t.log) fun _ ht => ht.snoc rfl
  mvcgen [handshake, hdial, hsend, hrecv]
  · rename_i h _ _ _
    exact ⟨h.inTurn, Bool.noConfusion⟩
  · rename_i h _ _
    exact h.idle rfl
  all_goals
    rename_i h
    exact h.inSession

theorem agree_inTurn [Protocol α] :
    ⦃fun t : ForwardSink α => ⌜Logs Event.InTurn t.log⌝⦄ agree
    ⦃⇓ r t => ⌜InSession r.isOk t⌝⦄ := by
  have hshake := handshake_inTurn (α := α)
  mvcgen [agree, hshake]
  rename_i h _ _
  exact h.inTurn

variable [CatalogueFormat]

theorem inTurn_keeps : Keeps fun t : ForwardSink α => Logs Event.InTurn t.log where
  dialled h := logs_inTurn_snoc h rfl
  received _ h := logs_inTurn_snoc h rfl
  sent {t m} hm h := logs_inTurn_snoc h (by cases m <;> first | rfl | cases hm)
  elsewhere _ h := h
  seen h := h
  same {t u} h hlog _ _ _ _ := by
    rw [hlog]
    exact h

theorem idle_keeps : Keeps fun t : ForwardSink α => Idle t.log where
  dialled h := h.snoc rfl
  received _ h := h.snoc rfl
  sent {t m} hm h := h.snoc (by cases m <;> first | rfl | cases hm)
  elsewhere _ h := h
  seen h := h
  same {t u} h hlog _ _ _ _ := by
    rw [hlog]
    exact h

variable [Protocol α]

theorem connect_inTurn :
    ⦃fun t : ForwardSink α => ⌜Logs Event.InTurn t.log⌝⦄ connect
    ⦃⇓ r t => ⌜InSession r.isOk t⌝⦄ := by
  have hagree := agree_inTurn (α := α)
  have hintroduce := introduce_survives (idle_keeps (α := α)).survives
  mvcgen [connect, hagree, hintroduce, setConn]
  · rename_i h
    exact ⟨h.inTurn, Bool.noConfusion⟩
  · rename_i h
    exact h.idle rfl
  · rename_i h
    exact h.inSession
  · rename_i h _
    exact Idle.inSession h

theorem connect_idle {s s' : ForwardSink α} {r : SinkResult} (h : Logs Event.InTurn s.log)
    (hrun : connect.run s = (r, s')) :
    Logs Event.InTurn s'.log ∧ (r = .ok () → Idle s'.log) := by
  have hend := run_of_triple connect_inTurn h hrun
  refine ⟨hend.inTurn, ?_⟩
  rintro rfl
  exact hend.idle rfl

theorem keepAlive_idle :
    ⦃fun t : ForwardSink α => ⌜Idle t.log⌝⦄ ForwardSink.keepAlive ⦃⇓ _ t => ⌜Idle t.log⌝⦄ := by
  have hstatus := sendStatusIfChanged_keeps (idle_keeps (α := α))
  have hsend := sendOn_keeps (idle_keeps (α := α)) .ping fun h => h.snoc rfl
  have hrecv := recvOn_keeps (idle_keeps (α := α))
  mvcgen [ForwardSink.keepAlive, hstatus, hsend, hrecv]

theorem writeBatch_idle {s s' : ForwardSink α} {batch : List α} {r : WriteResult}
    (h : Idle s.log) (hrun : (ForwardSink.writeBatch batch).run s = (r, s')) :
    Logs Event.InTurn s'.log ∧ (r = .ok () → Idle s'.log) := by
  obtain ⟨s₁, status, hstatus, hlog, -, rest, hrest, hok, exchanges, hsettled, -, hstored⟩ :=
    run_of_triple (ForwardSink.writeBatch_spec batch s) rfl hrun
  have hidle : Idle (s₁.log ++ exchanges.flatMap Exchange.events) := by
    rw [hlog.log]
    exact idle_exchanges (h.append hstatus.isBatch) exchanges hsettled
  rw [hstored.log, ← List.append_assoc]
  refine ⟨?_, fun hr => ?_⟩
  · rcases hrest with rfl | ⟨seq, xs, rs, -, rfl, -⟩
    · rw [List.append_nil]
      exact hidle.inTurn
    · exact hidle.inTurn_batch (received_isBatch rs)
  · rw [hok hr, List.append_nil]
    exact hidle

/-- The worker writes to the link only when nothing is owed on it. -/
def ForwardSink.oneAtATime : SinkUse (ForwardSink α) where
  sound s := Logs Event.InTurn s.log
  ready s := Idle s.log
  connect s h := connect_idle h rfl
  keepAlive s h := by
    have hend := kept_of_triple keepAlive_idle h
    exact ⟨hend.inTurn, fun _ => hend⟩
  writeBatch batch s h := writeBatch_idle h rfl
  close s h := kept_of_triple (setConn_keeps inTurn_keeps none) h

/-- However far a batcher has come, it sent each `BATCH` only once the one before it was answered or
its link given up. -/
theorem run_inTurn {C : Type} [FrameCache C α] [LawfulFrameCache C] {batching : Batching}
    {sink : ForwardSink α} {cache : C} {turns : List (List (Other α))} {fuel : Nat}
    {returned : Bool} {w : World (ForwardSink α) C α} (hnew : sink.log = [])
    (hrun : (run fuel).run (World.init sink cache batching turns) = (returned, w)) :
    Logs Event.InTurn w.sink.log := by
  have hstart : ForwardSink.oneAtATime.sound sink := by
    show Logs Event.InTurn sink.log
    rw [hnew]
    exact Logs.nil _
  exact run_of_triple (Q := fun _ (w : World (ForwardSink α) C α) => Logs Event.InTurn w.sink.log)
    (run_uses ForwardSink.oneAtATime fuel) (World.Uses.init cache batching turns hstart) hrun

end Sink

end WireTap
