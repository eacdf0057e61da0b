import Mathlib
import WireTap.Lib.Triple
import WireTap.Archive.Equiv.Provenance
import WireTap.Cache.Equiv.Contents
import WireTap.Forward.Sink
import WireTap.Forward.Equiv.Keeps
import WireTap.Forward.Equiv.Sink

/-!
# What a batch is sent under

`sessionHello` is the `HELLO` a batch was sent under, read off the log: the last one before it.

`Announced q d db raw` is the invariant of the sink of a database: every `HELLO` it sent names the
database, and is v3 if raw serial comes here; every `BATCH` it sent had a `HELLO` before it and
carries only samples in `q`, and so do the dead letters beside those in `d`.  It survives everything a
sink does, as long as what it is handed to write is in `q` (`Announced.writeBatch`).
-/

namespace WireTap

open Std.Do

set_option mvcgen.warning false

variable {α : Type}

/-- The `HELLO` an event sends. -/
def Event.helloOf : Event α → Option Hello
  | .sent (.hello h) => some h
  | _ => none

/-- The `HELLO` of the session at the end of a log. -/
def sessionHello (log : List (Event α)) : Option Hello := (log.filterMap Event.helloOf).getLast?

theorem helloOf_eq_some {e : Event α} {h : Hello} : e.helloOf = some h ↔ e = .sent (.hello h) := by
  cases e with
  | sent m => cases m <;> simp [Event.helloOf]
  | dialled => simp [Event.helloOf]
  | received r => simp [Event.helloOf]
  | quarantined xs => simp [Event.helloOf]

/-- A log with a `HELLO` in it has a last one. -/
theorem sessionHello_of_mem {log : List (Event α)} {h : Hello}
    (hmem : Event.sent (.hello h) ∈ log) :
    ∃ h', sessionHello log = some h' ∧ Event.sent (.hello h') ∈ log := by
  have hne : log.filterMap Event.helloOf ≠ [] := by
    have hmem' : h ∈ log.filterMap Event.helloOf :=
      List.mem_filterMap.mpr ⟨_, hmem, helloOf_eq_some.mpr rfl⟩
    exact List.ne_nil_of_mem hmem'
  refine ⟨(log.filterMap Event.helloOf).getLast hne, List.getLast?_eq_some_getLast hne, ?_⟩
  obtain ⟨e, he, hhello⟩ := List.mem_filterMap.mp (List.getLast_mem hne)
  rw [← helloOf_eq_some.mp hhello]
  exact he

/-- The sink of the database `db`, so far: `raw` if raw serial comes here, `q` what it may be
handed and `d` what was among the dead letters before. -/
structure Announced (q d : α → Prop) (db : String) (raw : Bool) (s : ForwardSink α) : Prop where
  database : s.database = db
  rawSerial : s.rawSerial = raw
  version : raw = true → s.version = 3
  hellos : ∀ h, .sent (.hello h) ∈ s.log → h.database = db ∧ (raw = true → h.version = 3)
  batches : ∀ before seq xs after, s.log = before ++ .sent (.batch seq xs) :: after →
    (∀ x ∈ xs, q x) ∧ ∃ h, .sent (.hello h) ∈ before
  linked : s.conn.isSome = true → s.SaidHello
  dead : ∀ x ∈ framesIn (some s.dead), d x ∨ q x

namespace Announced

variable {q q' d : α → Prop} {db : String} {raw : Bool} {s : ForwardSink α}

/-- Where one event more may be the one looked at. -/
theorem split_snoc {log before after : List (Event α)} {e x : Event α}
    (h : log ++ [e] = before ++ x :: after) :
    (after = [] ∧ before = log ∧ x = e) ∨ ∃ after', after = after' ++ [e] ∧
      log = before ++ x :: after' := by
  rcases List.eq_nil_or_concat after with rfl | ⟨after', y, rfl⟩
  · obtain ⟨hlog, hx⟩ := List.append_inj' h rfl
    exact .inl ⟨rfl, hlog.symm, (List.singleton_inj.mp hx).symm⟩
  · rw [List.concat_eq_append, ← List.cons_append, ← List.append_assoc] at h
    obtain ⟨hlog, hy⟩ := List.append_inj' h rfl
    rw [List.singleton_inj] at hy
    subst hy
    exact .inr ⟨after', by rw [List.concat_eq_append], hlog⟩

/-- One event more, if it is right by itself. -/
theorem logging (h : Announced q d db raw s) {e : Event α}
    (hhello : ∀ hi, e = .sent (.hello hi) →
      hi.database = db ∧ (raw = true → hi.version = 3))
    (hbatch : ∀ seq xs, e = .sent (.batch seq xs) → (∀ x ∈ xs, q x) ∧ s.SaidHello) :
    Announced q d db raw (s.logging e) where
  database := h.database
  rawSerial := h.rawSerial
  version := h.version
  hellos := by
    intro hi hmem
    rcases List.mem_append.mp hmem with hold | hnew
    · exact h.hellos hi hold
    · exact hhello hi (List.mem_singleton.mp hnew).symm
  batches := by
    intro before seq xs after hlog
    rcases split_snoc hlog with ⟨-, rfl, he⟩ | ⟨after', -, hlog'⟩
    · exact hbatch seq xs he.symm
    · exact h.batches before seq xs after' hlog'
  linked := by
    intro hconn
    obtain ⟨hi, hmem⟩ := h.linked hconn
    exact ⟨hi, List.mem_append_left _ hmem⟩
  dead := h.dead

/-- An event that is neither a `HELLO` nor a `BATCH`. -/
theorem logging_other (h : Announced q d db raw s) {e : Event α}
    (hhello : ∀ hi, e ≠ .sent (.hello hi)) (hbatch : ∀ seq xs, e ≠ .sent (.batch seq xs)) :
    Announced q d db raw (s.logging e) :=
  h.logging (fun hi he => absurd he (hhello hi)) fun seq xs he => absurd he (hbatch seq xs)

theorem mono (h : Announced q d db raw s) (hq : ∀ x, q x → q' x) :
    Announced q' d db raw s where
  database := h.database
  rawSerial := h.rawSerial
  version := h.version
  hellos := h.hellos
  batches := by
    intro before seq xs after hlog
    obtain ⟨hall, hsaid⟩ := h.batches before seq xs after hlog
    exact ⟨fun x hx => hq x (hall x hx), hsaid⟩
  linked := h.linked
  dead x hx := (h.dead x hx).imp_right (hq x)

/-- A sink that has not sent anything. -/
theorem of_new {s : ForwardSink α} (hversion : s.version = 3) (hconn : s.conn = none)
    (hlog : s.log = []) (hdead : ∀ x ∈ framesIn (some s.dead), d x) :
    Announced q d s.database s.rawSerial s where
  database := rfl
  rawSerial := rfl
  version _ := hversion
  hellos := by
    rw [hlog]
    exact fun _ h => absurd h List.not_mem_nil
  batches := by
    rw [hlog]
    intro before seq xs after h
    cases before <;> cases h
  linked := by
    rw [hconn]
    exact Bool.noConfusion
  dead x hx := .inl (hdead x hx)

/-- What a `BATCH` was sent under, and what it carried. -/
theorem sent (h : Announced q d db raw s) {before after : List (Event α)} {seq : UInt32}
    {xs : List α} (hlog : s.log = before ++ .sent (.batch seq xs) :: after) :
    (∀ x ∈ xs, q x) ∧ ∃ hi, sessionHello before = some hi ∧ hi.database = db ∧
      (raw = true → hi.version = 3) := by
  obtain ⟨hall, hi, hmem⟩ := h.batches before seq xs after hlog
  obtain ⟨hi', hlast, hmem'⟩ := sessionHello_of_mem hmem
  have hsent : Event.sent (.hello hi') ∈ s.log := by
    rw [hlog]
    exact List.mem_append_left _ hmem'
  exact ⟨hall, hi', hlast, h.hellos hi' hsent⟩

/-! ### What the sink does -/

variable (d db raw)

theorem close (q : α → Prop) :
    ⦃fun t => ⌜Announced q d db raw t⌝⦄ setConn none ⦃⇓ _ s' => ⌜Announced q d db raw s'⌝⦄ := by
  mvcgen [setConn]
  rename_i h _
  exact ⟨h.database, h.rawSerial, h.version, h.hellos, h.batches, Bool.noConfusion, h.dead⟩

theorem quarantine {chunk : List α} (hq : ∀ x ∈ chunk, q x) :
    ⦃fun t => ⌜Announced q d db raw t⌝⦄ WireTap.quarantine chunk
    ⦃⇓ _ s' => ⌜Announced q d db raw s'⌝⦄ := by
  mvcgen [WireTap.quarantine, note]
  · rename_i h _ _ _ _
    exact ⟨h.database, h.rawSerial, h.version, h.hellos, h.batches, h.linked, h.dead⟩
  · rename_i h _ _ _ _ _ _ _ _
    exact ⟨h.database, h.rawSerial, h.version, h.hellos, h.batches, h.linked, h.dead⟩
  · rename_i t h s' _ appendFails _ opened _ cache happend _
    have hdead : ∀ x ∈ framesIn (some (cache.file.getD t.dead)), d x ∨ q x := by
      obtain rfl : cache = (opened.append chunk).2 := by rw [happend]
      intro x hx
      rcases mem_framesIn_getD hx with hfile | hold
      · exact (opened.mem_append hfile).elim (h.dead x) fun hnew => .inr (hq x hnew)
      · exact h.dead x hold
    have hkept : Announced q d db raw { s' with dead := cache.file.getD t.dead } :=
      ⟨h.database, h.rawSerial, h.version, h.hellos, h.batches, h.linked, hdead⟩
    exact hkept.logging_other (by simp) (by simp)

theorem answered (seq : UInt32) {chunk : List α} (hq : ∀ x ∈ chunk, q x) (reply : Reply) :
    ⦃fun t => ⌜Announced q d db raw t⌝⦄ WireTap.answered seq chunk reply
    ⦃⇓ _ s' => ⌜Announced q d db raw s'⌝⦄ := by
  have hquarantine := quarantine d db raw hq
  mvcgen [WireTap.answered, hquarantine]

variable [CatalogueFormat]

theorem survives (q : α → Prop) : Survives (Announced q d db raw) where
  dialled h := h.logging_other (by simp) (by simp)
  received r h := h.logging_other (by simp) (by simp)
  said := by
    intro t h
    refine h.logging (fun hi he => ?_) (by simp)
    obtain rfl : hello t = hi := by simpa using he
    unfold hello
    split
    · -- A v2 `HELLO` is of a pipeline that fell back.
      rename_i htwo
      refine ⟨h.database, fun hraw => ?_⟩
      rw [h.version hraw] at htwo
      cases htwo
    · exact ⟨h.database, h.version⟩
  asked := by
    intro t m hm hm' h
    refine h.logging_other (fun hi he => ?_) (fun seq xs he => ?_)
    · obtain rfl : m = .hello hi := by simpa using he
      cases hm'
    · obtain rfl : m = .batch seq xs := by simpa using he
      cases hm
  elsewhere e h := ⟨h.database, h.rawSerial, h.version, h.hellos, h.batches, h.linked, h.dead⟩
  seen h := ⟨h.database, h.rawSerial, h.version, h.hellos, h.batches, h.linked, h.dead⟩
  fallBack := by
    intro t hraw h
    refine ⟨h.database, h.rawSerial, fun hr => ?_, h.hellos, h.batches, h.linked, h.dead⟩
    rw [← h.rawSerial, hraw] at hr
    cases hr
  linked := by
    intro t l hl h
    exact ⟨h.database, h.rawSerial, h.version, h.hellos, h.batches,
      fun _ => hl.elim h.linked id, h.dead⟩
  same := by
    intro t u h hlog hdead _ _ _ hdatabase hraw hversion hconn
    refine ⟨hdatabase.trans h.database, hraw.trans h.rawSerial,
      fun hr => hversion.trans (h.version hr), ?_, ?_, ?_, ?_⟩
    · rw [hlog]
      exact h.hellos
    · rw [hlog]
      exact h.batches
    · rw [hconn, ForwardSink.SaidHello, hlog]
      exact h.linked
    · rw [hdead]
      exact h.dead

variable [Protocol α]

/-- A `PING` goes out only on a connection, and is neither. -/
theorem keepAlive (q : α → Prop) :
    ⦃fun t => ⌜Announced q d db raw t⌝⦄ ForwardSink.keepAlive
    ⦃⇓ _ s' => ⌜Announced q d db raw s'⌝⦄ := by
  have hstatus := sendStatusIfChanged_survives (survives d db raw q)
  have hsend := sendOn_survives (survives d db raw q) .ping
    fun _ h => h.logging_other (by simp) (by simp)
  have hrecv := recvOn_survives (survives d db raw q)
  mvcgen [ForwardSink.keepAlive, hstatus, hsend, hrecv]

/-- A `BATCH` goes out only on a connection, whose `HELLO` is out. -/
theorem sendChunk {samples : List α} (hq : ∀ x ∈ samples, q x) :
    ⦃fun t => ⌜Announced q d db raw t⌝⦄ WireTap.sendChunk samples
    ⦃⇓ _ s' => ⌜Announced q d db raw s'⌝⦄ := by
  have hchunk : ∀ x ∈ samples.take (Protocol.batchLen samples), q x :=
    fun x hx => hq x (List.mem_of_mem_take hx)
  have hsend := fun seq => sendOn_survives (survives d db raw q)
    (.batch seq (samples.take (Protocol.batchLen samples))) fun hconn h =>
      h.logging (by simp) fun _ xs he => by
        obtain ⟨-, rfl⟩ : _ ∧ samples.take (Protocol.batchLen samples) = xs := by simpa using he
        exact ⟨hchunk, h.linked hconn⟩
  have hrecv := recvOn_survives (survives d db raw q)
  have hanswered := fun seq => answered d db raw seq hchunk
  mvcgen [WireTap.sendChunk, hsend, hrecv, hanswered]
  rename_i h _ _ _
  exact (survives d db raw q).same h rfl rfl rfl rfl rfl rfl rfl rfl rfl

theorem writeLoop (fuel delivered : Nat) {rest : List α} (hq : ∀ x ∈ rest, q x) :
    ⦃fun t => ⌜Announced q d db raw t⌝⦄ WireTap.writeLoop fuel delivered rest
    ⦃⇓ _ s' => ⌜Announced q d db raw s'⌝⦄ := by
  induction fuel generalizing delivered rest with
  | zero => mvcgen [WireTap.writeLoop]
  | succ fuel ih =>
    have hchunk := sendChunk d db raw hq
    have hrest := fun delivered n => @ih delivered (rest.drop n) fun x hx =>
      hq x (List.mem_of_mem_drop hx)
    mvcgen [WireTap.writeLoop, hchunk, hrest]

theorem writeBatch {batch : List α} (hq : ∀ x ∈ batch, q x) :
    ⦃fun t => ⌜Announced q d db raw t⌝⦄ ForwardSink.writeBatch batch
    ⦃⇓ _ s' => ⌜Announced q d db raw s'⌝⦄ := by
  have hstatus := sendStatusIfChanged_survives (survives d db raw q)
  have hloop := fun fuel delivered => writeLoop d db raw fuel delivered hq
  mvcgen [ForwardSink.writeBatch, hstatus, hloop]

/-- What the sink has been handed, as the worker sees it. -/
def trace : SinkTrace (ForwardSink α) where
  holds q s := Announced q d db raw s
  mono hq h := h.mono hq
  connect := kept_of_triple (connect_survives (survives d db raw _))
  keepAlive := kept_of_triple (Announced.keepAlive d db raw _)
  close := kept_of_triple (Announced.close d db raw _)
  writeBatch hq := kept_of_triple (Announced.writeBatch d db raw hq)

end Announced

end WireTap
