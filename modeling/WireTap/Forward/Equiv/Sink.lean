import Mathlib
import WireTap.Lib.Triple
import WireTap.Lib.AtLeastOnce
import WireTap.Archive.Equiv.Batcher
import WireTap.Archive.Equiv.AtLeastOnce
import WireTap.Cache.Equiv.RowCache
import WireTap.Forward.Equiv.Keeps

/-!
# What the forward link reports delivered was stored

An `Exchange` is a `BATCH` and the `ACK` that answers it, as the link's log shows them.  It is
`Settled` when that `ACK` is an OK for the batch's own seq, or a refusal as malformed after which the
samples were quarantined.  `writeBatch_spec` says that a write's log is settled exchanges carrying
exactly the samples it reports delivered, and that nothing after them was acknowledged.

`Logged` is what one operation adds to the log, `Noted` that it has quarantined nothing.
-/

namespace WireTap

open Std.Do

set_option mvcgen.warning false

variable {α : Type}

/-! ### The log -/

/-- The dead-letter file's samples, in order. -/
def ForwardSink.deadSamples (s : ForwardSink α) : List α := s.dead.rows.map Cached.sample

/-- `s'` is `s` after an operation that added `new` to the log, and left the dead-letter file. -/
structure Logged (s s' : ForwardSink α) (new : List (Event α)) : Prop where
  log : s'.log = s.log ++ new
  dead : s'.dead = s.dead

namespace Logged

variable {s s₁ s₂ s₃ : ForwardSink α} {new new' : List (Event α)}

theorem refl (s : ForwardSink α) : Logged s s [] := ⟨by rw [List.append_nil], rfl⟩

theorem trans (h : Logged s₁ s₂ new) (h' : Logged s₂ s₃ new') : Logged s₁ s₃ (new ++ new') :=
  ⟨by rw [h'.log, h.log, List.append_assoc], h'.dead.trans h.dead⟩

end Logged

/-- The replies among events. -/
def received (rs : List Reply) : List (Event α) := rs.map .received

theorem note_spec (e : Event α) (s : ForwardSink α) :
    ⦃fun t => ⌜t = s⌝⦄ note e ⦃⇓ _ s' => ⌜Logged s s' [e]⌝⦄ := by
  mvcgen [note]
  rename_i h _
  subst h
  exact ⟨rfl, rfl⟩

theorem send_spec (l : Link) (m : Message α) (s : ForwardSink α) :
    ⦃fun t => ⌜t = s⌝⦄ l.send m
    ⦃⇓ r s' => ⌜Logged s s' (if r.1 = .ok () then [.sent m] else [])⌝⦄ := by
  mvcgen [Link.send, note_spec]
  · rename_i hsent _ ht _ s' h
    subst ht
    rw [if_pos hsent]
    exact h
  · rename_i hne hsent _ ht
    subst ht
    rw [if_neg (fun h => hne (hsent.symm.trans h))]
    exact Logged.refl _

/-- Whether `recv` reads past a reply. -/
def Reply.isCatalogue : Reply → Bool
  | .catalogue _ => true
  | .badCatalogue _ => true
  | _ => false

/-- Replies were read, and none of them acknowledges anything. -/
def NoAck (s s' : ForwardSink α) : Prop :=
  ∃ rs, Logged s s' (received rs) ∧ ∀ a, Reply.ack a ∉ rs

theorem NoAck.refl (s : ForwardSink α) : NoAck s s := ⟨[], Logged.refl s, by simp⟩

/-- One message read, or the link's end. -/
def Came (s s' : ForwardSink α) : Except SinkError Reply → Prop
  | .ok reply => Logged s s' (received [reply])
  | .error _ => NoAck s s'

/-- One message read: what came is logged, and only an intact one that is no `CLOSE` is returned. -/
theorem recvAny_spec (l : Link) (s : ForwardSink α) :
    ⦃fun t => ⌜t = s⌝⦄ l.recvAny
    ⦃⇓ r s' => ⌜Came s s' r.1⌝⦄ := by
  mvcgen [Link.recvAny, note_spec]
  · rename_i ht
    subst ht
    exact NoAck.refl _
  · rename_i ht
    subst ht
    exact NoAck.refl _
  · rename_i ht
    subst ht
    exact NoAck.refl _
  · rename_i ht
    subst ht
    exact NoAck.refl _
  · rename_i ht
    subst ht
    exact NoAck.refl _
  -- A `CLOSE`, well formed or not, goes into the log, and is no `ACK`.
  · rename_i ht _ reason _ s' h
    subst ht
    exact ⟨[.close reason], h, by simp⟩
  · rename_i ht _ why _ s' h
    subst ht
    exact ⟨[.badClose why], h, by simp⟩
  · rename_i ht _ _ _ _ _ s' h
    subst ht
    exact h

/-- Only `CATALOGUE`s were read. -/
def Skipped (s s' : ForwardSink α) (rs : List Reply) : Prop :=
  (∀ r ∈ rs, r.isCatalogue = true) ∧ Logged s s' (received rs)

/-- What `recv` has read when it returns: `CATALOGUE`s, and then the reply or what ended the
link. -/
def Recv (s s' : ForwardSink α) : Except SinkError Reply → Prop
  | .ok reply => ∃ skipped, (∀ r ∈ skipped, r.isCatalogue = true) ∧
      Logged s s' (received (skipped ++ [reply]))
  | .error _ => NoAck s s'

namespace Skipped

variable {s s₁ s₂ : ForwardSink α} {rs : List Reply}

theorem next {reply : Reply} (h : Skipped s s₁ rs) (hcat : reply.isCatalogue = true)
    (h' : Logged s₁ s₂ (received [reply])) : Skipped s s₂ (rs ++ [reply]) := by
  refine ⟨?_, ?_⟩
  · intro r hr
    rcases List.mem_append.mp hr with hr | hr
    · exact h.1 r hr
    · rw [List.mem_singleton.mp hr]
      exact hcat
  · have hlog := h.2.trans h'
    rw [received, received, ← List.map_append] at hlog
    exact hlog

theorem recv {r : Except SinkError Reply} (h : Skipped s s₁ rs) (h' : Came s₁ s₂ r) :
    Recv s s₂ r := by
  cases r with
  | ok reply =>
    have hlog := h.2.trans h'
    rw [received, received, ← List.map_append] at hlog
    exact ⟨rs, h.1, hlog⟩
  | error e =>
    obtain ⟨rs', hlog', hack⟩ := h'
    have hlog := h.2.trans hlog'
    rw [received, received, ← List.map_append] at hlog
    refine ⟨rs ++ rs', hlog, ?_⟩
    intro a ha
    rcases List.mem_append.mp ha with ha | ha
    · have hcat := h.1 _ ha
      cases hcat
    · exact hack a ha

end Skipped

/-- With what was read past before it. -/
theorem recvLoop_spec (fuel : Nat) (l : Link) (s : ForwardSink α) :
    ⦃fun t => ⌜∃ rs, Skipped s t rs⌝⦄ Link.recvLoop fuel l ⦃⇓ r s' => ⌜Recv s s' r.1⌝⦄ := by
  induction fuel generalizing l with
  | zero =>
    mvcgen [Link.recvLoop, recvAny_spec]
    rename_i h r s'
    intro hcame
    obtain ⟨rs, hskip⟩ := h
    exact hskip.recv hcame
  | succ fuel ih =>
    mvcgen [Link.recvLoop, recvAny_spec, ih]
    · rename_i h r chunk hr s' hcame
      obtain ⟨rs, hskip⟩ := h
      rw [hr] at hcame
      exact ⟨_, hskip.next rfl hcame⟩
    · rename_i h r why hr s' hcame
      obtain ⟨rs, hskip⟩ := h
      rw [hr] at hcame
      exact ⟨_, hskip.next rfl hcame⟩
    · rename_i h r r' _ _ hr s' hcame
      obtain ⟨rs, hskip⟩ := h
      rw [hr] at hcame
      exact hskip.recv hcame

theorem recv_spec (l : Link) (s : ForwardSink α) :
    ⦃fun t => ⌜t = s⌝⦄ l.recv ⦃⇓ r s' => ⌜Recv s s' r.1⌝⦄ := by
  mvcgen [Link.recv, recvLoop_spec]
  rename_i ht
  subst ht
  exact ⟨[], by simp, Logged.refl _⟩

theorem setConn_spec (conn : Option Link) (s : ForwardSink α) :
    ⦃fun t => ⌜t = s⌝⦄ setConn conn ⦃⇓ _ s' => ⌜Logged s s' []⌝⦄ := by
  mvcgen [setConn]
  rename_i ht _
  subst ht
  exact ⟨by rw [List.append_nil], rfl⟩

theorem sendOn_spec (m : Message α) (s : ForwardSink α) :
    ⦃fun t => ⌜t = s⌝⦄ sendOn m
    ⦃⇓ r s' => ⌜Logged s s' (if r = .ok () then [.sent m] else [])⌝⦄ := by
  mvcgen [sendOn, send_spec, setConn_spec]
  · rename_i ht _
    subst ht
    rw [if_neg (by simp)]
    exact Logged.refl _
  · rename_i ht l _ r s₁ h₁ _ s₂ h₂
    subst ht
    have hlog := h₁.trans h₂
    rw [List.append_nil] at hlog
    exact hlog

theorem Recv.keep {s s₁ s₂ : ForwardSink α} {r : Except SinkError Reply} (h : Recv s s₁ r)
    (h' : Logged s₁ s₂ []) : Recv s s₂ r := by
  cases r with
  | ok reply =>
    obtain ⟨skipped, hskipped, hlog⟩ := h
    have hlog := hlog.trans h'
    rw [List.append_nil] at hlog
    exact ⟨skipped, hskipped, hlog⟩
  | error e =>
    obtain ⟨rs, hlog, hack⟩ := h
    have hlog := hlog.trans h'
    rw [List.append_nil] at hlog
    exact ⟨rs, hlog, hack⟩

theorem recvOn_spec (s : ForwardSink α) :
    ⦃fun t => ⌜t = s⌝⦄ recvOn ⦃⇓ r s' => ⌜Recv s s' r⌝⦄ := by
  mvcgen [recvOn, recv_spec, setConn_spec]
  · rename_i ht _
    subst ht
    exact NoAck.refl _
  · rename_i ht l _ r s₁ h₁ _ s₂ h₂
    subst ht
    exact h₁.keep h₂

/-! ### Exchanges -/

/-- A `BATCH`, the `CATALOGUE`s read past, and the `ACK` that answered it. -/
structure Exchange (α : Type) where
  seq : UInt32
  samples : List α
  skipped : List Reply
  answer : Ack

namespace Exchange

/-- The samples this exchange put in the dead-letter file. -/
def quarantined (x : Exchange α) : List α :=
  if x.answer.status = .malformed then x.samples else []

/-- The exchange as the log shows it; a batch refused as malformed is then quarantined. -/
def events (x : Exchange α) : List (Event α) :=
  .sent (.batch x.seq x.samples) :: received x.skipped ++ [.received (.ack x.answer)] ++
    if x.answer.status = .malformed then [.quarantined x.samples] else []

/-- The gateway stored the batch, or will never take it: an OK for its own seq, or a refusal as
malformed, naming its seq or, unread, zero. -/
structure Settled (x : Exchange α) : Prop where
  skipped : ∀ r ∈ x.skipped, r.isCatalogue = true
  answer : x.answer = ⟨x.seq, .ok⟩ ∨
    x.answer.status = .malformed ∧ (x.answer.seq = x.seq ∨ x.answer.seq = 0)

end Exchange

/-- `s'` is `s` after an operation that added `new` to the log and `kept` to the dead-letter
file. -/
structure Stored (s s' : ForwardSink α) (new : List (Event α)) (kept : List α) : Prop where
  log : s'.log = s.log ++ new
  dead : s'.deadSamples = s.deadSamples ++ kept

theorem Logged.stored {s s' : ForwardSink α} {new : List (Event α)} (h : Logged s s' new) :
    Stored s s' new [] :=
  ⟨h.log, by rw [ForwardSink.deadSamples, h.dead, List.append_nil, ForwardSink.deadSamples]⟩

theorem Stored.trans {s₁ s₂ s₃ : ForwardSink α} {new new' : List (Event α)} {kept kept' : List α}
    (h : Stored s₁ s₂ new kept) (h' : Stored s₂ s₃ new' kept') :
    Stored s₁ s₃ (new ++ new') (kept ++ kept') :=
  ⟨by rw [h'.log, h.log, List.append_assoc], by rw [h'.dead, h.dead, List.append_assoc]⟩

/-- A successful append to the dead-letter file. -/
theorem append_opened {t : Table α} {host : Host} {maxBytes n : Nat} {chunk : List α}
    {c : SqliteCache α} (h : (SqliteCache.opened t maxBytes host).append chunk = (.ok n, c)) :
    (c.file.getD t).rows.map Cached.sample = t.rows.map Cached.sample ++ chunk := by
  unfold SqliteCache.append at h
  split at h
  · rename_i hempty
    obtain ⟨-, rfl⟩ := Prod.mk.inj h
    rw [List.isEmpty_iff.mp hempty, List.append_nil]
    rfl
  · cases hfails : host.append.headD false with
    | true =>
      simp only [SqliteCache.table, SqliteCache.opened, hfails, if_true] at h
      cases h
    | false =>
      simp only [SqliteCache.table, SqliteCache.opened, hfails, Bool.false_eq_true, if_false] at h
      obtain ⟨-, rfl⟩ := Prod.mk.inj h
      change (t.insert chunk).rows.map Cached.sample = _
      rw [Table.insert, List.map_append, number_samples]

theorem quarantine_spec (chunk : List α) (s : ForwardSink α) :
    ⦃fun t => ⌜t = s⌝⦄ quarantine chunk
    ⦃⇓ r s' => ⌜match r with
      | .ok () => Stored s s' [.quarantined chunk] chunk
      | .error _ => Logged s s' []⌝⦄ := by
  mvcgen [quarantine, note_spec]
  · -- The file does not open.
    rename_i ht _ _ _ _
    subst ht
    exact ⟨by rw [List.append_nil], rfl⟩
  · -- The append fails.
    rename_i ht _ _ _ _ _ _ _ _
    subst ht
    exact ⟨by rw [List.append_nil], rfl⟩
  · rename_i ht _ _ _ _ _ _ cache happend _ s' h
    subst ht
    refine ⟨h.log, ?_⟩
    rw [ForwardSink.deadSamples, h.dead]
    exact append_opened happend

/-- What the reply to a `BATCH` came to. -/
def Answered (s s' : ForwardSink α) (seq : UInt32) (chunk : List α) (reply : Reply) :
    Except SinkError Nat → Prop
  | .ok n => n = chunk.length ∧ ∃ ack, reply = .ack ack ∧
      (ack = ⟨seq, .ok⟩ ∧ Logged s s' [] ∨
        ack.status = .malformed ∧ (ack.seq = seq ∨ ack.seq = 0) ∧
          Stored s s' [.quarantined chunk] chunk)
  | .error _ => Logged s s' [] ∧ reply ≠ .ack ⟨seq, .ok⟩

theorem answered_spec (seq : UInt32) (chunk : List α) (reply : Reply) (s : ForwardSink α) :
    ⦃fun t => ⌜t = s⌝⦄ answered seq chunk reply
    ⦃⇓ r s' => ⌜Answered s s' seq chunk reply r⌝⦄ := by
  mvcgen [answered, quarantine_spec]
  · -- An `ACK` for another batch.
    rename_i ack hr unread hseq _ ht
    subst ht
    refine ⟨Logged.refl _, ?_⟩
    rintro ⟨⟩
    simp at hseq
  · -- An OK: the check of its seq leaves this batch's own.
    rename_i ack hr unread hseq hok _ ht
    subst ht
    obtain ⟨seq', status⟩ := ack
    obtain rfl : status = .ok := hok
    have heq : seq' = seq := by
      by_contra hne
      simp [unread, hne] at hseq
    subst heq
    exact ⟨rfl, _, rfl, .inl ⟨rfl, Logged.refl _⟩⟩
  · -- `ACK_OVERLOADED`.
    rename_i ack hr unread hseq hover _ ht
    subst ht
    refine ⟨Logged.refl _, ?_⟩
    rintro ⟨⟩
    cases hover
  · -- `ACK_MALFORMED`, and the dead-letter file could not be written.
    rename_i ack hr unread hseq hmal _ ht r e hr' s' h
    subst ht
    refine ⟨h, ?_⟩
    rintro ⟨⟩
    cases hmal
  · -- `ACK_MALFORMED`, naming this batch or none, and its samples are in the dead-letter file.
    rename_i ack hr unread hseq hmal _ ht r hr' s' h
    subst ht
    refine ⟨rfl, ack, rfl, .inr ⟨hmal, ?_, h⟩⟩
    by_contra hne
    obtain ⟨hseq₁, hseq₂⟩ := not_or.mp hne
    simp [unread, hseq₁, hseq₂] at hseq
  · rename_i ack hr unread hseq status hother _ ht
    subst ht
    refine ⟨Logged.refl _, ?_⟩
    rintro ⟨⟩
    cases hother
  · -- A reply that is no `ACK`.
    rename_i reply' hne hreply _ ht
    subst ht
    exact ⟨Logged.refl _, fun h => hne _ h⟩

/-- An attempt that settled nothing: no `BATCH` went out, or none of the replies to it was an OK for
its seq. -/
def Unsettled (samples : List α) (events : List (Event α)) : Prop :=
  events = [] ∨ ∃ seq xs rs, xs <+: samples ∧ events = .sent (.batch seq xs) :: received rs ∧
    Reply.ack ⟨seq, .ok⟩ ∉ rs

/-- What `send_chunk` has done when it returns. -/
def Chunk (s s' : ForwardSink α) (samples : List α) : Except SinkError Nat → Prop
  | .ok n => ∃ x : Exchange α, x.Settled ∧ x.samples = samples.take n ∧ n ≤ samples.length ∧
      (samples ≠ [] → 0 < n) ∧ Stored s s' x.events x.quarantined
  | .error _ => ∃ rest, Unsettled samples rest ∧ Logged s s' rest

/-- A `BATCH` that was answered. -/
theorem Chunk.of_answered [Protocol α] {s s₁ s₂ s₃ : ForwardSink α} {samples : List α} {seq : UInt32}
    {reply : Reply} {r : Except SinkError Nat}
    (hsent : Logged s s₁ [.sent (.batch seq (samples.take (Protocol.batchLen samples)))])
    (hrecv : Recv s₁ s₂ (.ok reply))
    (hans : Answered s₂ s₃ seq (samples.take (Protocol.batchLen samples)) reply r) :
    Chunk s s₃ samples r := by
  obtain ⟨skipped, hskipped, hrecv⟩ := hrecv
  have hlog := hsent.trans hrecv
  have hlen : (samples.take (Protocol.batchLen samples)).length = Protocol.batchLen samples := by
    rw [List.length_take, Nat.min_eq_left (Protocol.batchLen_le samples)]
  cases r with
  | ok n =>
    obtain ⟨hn, ack, rfl, hack⟩ := hans
    rw [hlen] at hn
    subst hn
    refine ⟨⟨seq, samples.take (Protocol.batchLen samples), skipped, ack⟩, ⟨hskipped, ?_⟩, rfl,
      Protocol.batchLen_le samples, Protocol.batchLen_pos samples, ?_⟩
    · rcases hack with ⟨rfl, -⟩ | ⟨hmal, hseq, -⟩
      · exact .inl rfl
      · exact .inr ⟨hmal, hseq⟩
    · rcases hack with ⟨rfl, hquiet⟩ | ⟨hmal, -, hkept⟩
      · have hall := (hlog.trans hquiet).stored
        simpa [Exchange.events, Exchange.quarantined, received] using hall
      · have hall := hlog.stored.trans hkept
        simpa [Exchange.events, Exchange.quarantined, received, hmal] using hall
  | error e =>
    obtain ⟨hquiet, hne⟩ := hans
    have hall := hlog.trans hquiet
    rw [List.append_nil] at hall
    refine ⟨_, .inr ⟨seq, samples.take (Protocol.batchLen samples), skipped ++ [reply],
      List.take_prefix _ _, rfl, ?_⟩, hall⟩
    intro hmem
    -- What was skipped on the way to the answer is catalogues only.
    rcases List.mem_append.mp hmem with hmem | hmem
    · have hcat := hskipped _ hmem
      cases hcat
    · exact hne (List.mem_singleton.mp hmem).symm

theorem sendChunk_spec [Protocol α] (samples : List α) (s : ForwardSink α) :
    ⦃fun t => ⌜t = s⌝⦄ sendChunk samples ⦃⇓ r s' => ⌜Chunk s s' samples r⌝⦄ := by
  mvcgen [sendChunk, sendOn_spec, recvOn_spec, answered_spec]
  · rename_i ht _ _ _ _ e _ s' h
    subst ht
    rw [if_neg (by simp)] at h
    exact ⟨[], .inl rfl, h.log, h.dead⟩
  · rename_i ht _ seq chunk _ _ s₁ _ e _ s₂ hrecv hsent
    subst ht
    rw [if_pos trivial] at hsent
    obtain ⟨rs, hlog, hack⟩ := hrecv
    have hall := hsent.trans hlog
    exact ⟨_, .inr ⟨seq, chunk, rs, List.take_prefix _ _, rfl, hack _⟩, hall.log, hall.dead⟩
  · rename_i s₀ ht _ seq chunk _ _ s₁ _ reply _ s₂ hrecv r s₃ hsent
    intro hans
    subst ht
    rw [if_pos trivial] at hsent
    exact Chunk.of_answered ⟨hsent.log, hsent.dead⟩ hrecv hans

/-- Settled exchanges carried the first `delivered` of the batch. -/
def Carried (s s' : ForwardSink α) (batch : List α) (delivered : Nat) (rest : List (Event α)) :
    Prop :=
  ∃ exchanges : List (Exchange α), (∀ x ∈ exchanges, x.Settled) ∧
    exchanges.flatMap Exchange.samples = batch.take delivered ∧
    Stored s s' (exchanges.flatMap Exchange.events ++ rest) (exchanges.flatMap Exchange.quarantined)

namespace Carried

variable {s s₁ s₂ : ForwardSink α} {batch : List α} {delivered : Nat}

theorem next {n : Nat} (h : Carried s s₁ batch delivered [])
    (hc : Chunk s₁ s₂ (batch.drop delivered) (.ok n)) :
    Carried s s₂ batch (delivered + n) [] := by
  obtain ⟨exchanges, hsettled, hsamples, hstored⟩ := h
  obtain ⟨x, hx, hcarried, -, -, hx'⟩ := hc
  refine ⟨exchanges ++ [x], ?_, ?_, ?_⟩
  · intro y hy
    rcases List.mem_append.mp hy with hy | hy
    · exact hsettled y hy
    · rw [List.mem_singleton.mp hy]
      exact hx
  · rw [List.flatMap_append, hsamples, List.flatMap_singleton, hcarried, ← List.take_add]
  · rw [List.append_nil] at hstored ⊢
    have hall := hstored.trans hx'
    rw [List.flatMap_append, List.flatMap_append, List.flatMap_singleton, List.flatMap_singleton]
    exact hall

theorem stop {e : SinkError} (h : Carried s s₁ batch delivered [])
    (hc : Chunk s₁ s₂ (batch.drop delivered) (.error e)) :
    ∃ rest, Unsettled (batch.drop delivered) rest ∧ Carried s s₂ batch delivered rest := by
  obtain ⟨exchanges, hsettled, hsamples, hstored⟩ := h
  obtain ⟨rest, hrest, hlog⟩ := hc
  have hall := hstored.trans hlog.stored
  rw [List.append_nil, List.append_nil] at hall
  exact ⟨rest, hrest, exchanges, hsettled, hsamples, hall⟩

end Carried

/-- What `write_batch` has done when it returns: settled exchanges carrying exactly the samples it
reports delivered, and behind them nothing that settles any other. -/
def Wrote (s s' : ForwardSink α) (batch : List α) (r : WriteResult) : Prop :=
  r.delivered batch.length ≤ batch.length ∧
    ∃ rest, Unsettled (batch.drop (r.delivered batch.length)) rest ∧ (r = .ok () → rest = []) ∧
      Carried s s' batch (r.delivered batch.length) rest

theorem Wrote.of_all {s s' : ForwardSink α} {batch : List α} {delivered : Nat}
    (h : Carried s s' batch delivered []) (hle : delivered = batch.length) :
    Wrote s s' batch (.ok ()) := by
  subst hle
  exact ⟨Nat.le_refl _, [], .inl rfl, fun _ => rfl, h⟩

/-- With the exchanges before it. -/
theorem writeLoop_spec [Protocol α] (batch : List α) (fuel delivered : Nat) (s : ForwardSink α)
    (hfuel : batch.length ≤ delivered + fuel) (hle : delivered ≤ batch.length) :
    ⦃fun t => ⌜Carried s t batch delivered []⌝⦄
    writeLoop fuel delivered (batch.drop delivered)
    ⦃⇓ r s' => ⌜Wrote s s' batch r⌝⦄ := by
  induction fuel generalizing delivered with
  | zero =>
    mvcgen [writeLoop]
    rename_i h
    exact Wrote.of_all h (by omega)
  | succ fuel ih =>
    mvcgen [writeLoop, sendChunk_spec]
    · rename_i hempty _ h
      have hlen := List.drop_eq_nil_iff.mp (List.isEmpty_iff.mp hempty)
      exact Wrote.of_all h (by omega)
    · rename_i h r cause _ s' hchunk
      obtain ⟨rest, hrest, hcarried⟩ := h.stop hchunk
      exact ⟨hle, rest, hrest, by simp, hcarried⟩
    · rename_i hne _ h r n _
      intro s₁ hchunk
      -- A chunk is never empty, so the fuel lasts for the rest of the batch.
      have hnext := h.next hchunk
      obtain ⟨x, -, -, hn, hpos, -⟩ := hchunk
      rw [List.length_drop] at hn
      have hpos := hpos (by simpa using hne)
      rw [List.drop_drop]
      exact ih (delivered + n) (by omega) (by omega) s₁ hnext

/-- The whole loop. -/
theorem writeAll_spec [Protocol α] (batch : List α) (s : ForwardSink α) :
    ⦃fun t => ⌜t = s⌝⦄ writeLoop batch.length 0 batch ⦃⇓ r s' => ⌜Wrote s s' batch r⌝⦄ := by
  have hloop := writeLoop_spec batch batch.length 0 s (by omega) (by omega)
  rw [List.drop_zero] at hloop
  intro t ht
  subst ht
  exact hloop t ⟨[], by simp, rfl, (Logged.refl t).stored⟩

/-! ### The other operations -/

/-- `s'` is `s` after operations that sent no batch. -/
def Noted (s s' : ForwardSink α) : Prop := ∃ new, Logged s s' new

namespace Noted

variable {s s₁ s₂ : ForwardSink α}

theorem refl (s : ForwardSink α) : Noted s s := ⟨[], Logged.refl s⟩

theorem logged {new : List (Event α)} (h : Noted s s₁) (h' : Logged s₁ s₂ new) : Noted s s₂ := by
  obtain ⟨old, h⟩ := h
  exact ⟨_, h.trans h'⟩

theorem same (h : Noted s s₁) (hlog : s₂.log = s₁.log) (hdead : s₂.dead = s₁.dead) :
    Noted s s₂ := by
  have hnone : Logged s₁ s₂ [] := ⟨by rw [hlog, List.append_nil], hdead⟩
  exact h.logged hnone

end Noted

section Noted

variable [CatalogueFormat] (s : ForwardSink α)

theorem Noted.keeps : Keeps (Noted s) where
  dialled h := h.logged ⟨rfl, rfl⟩
  received _ h := h.logged ⟨rfl, rfl⟩
  sent _ h := h.logged ⟨rfl, rfl⟩
  elsewhere _ h := h.same rfl rfl
  seen h := h.same rfl rfl
  same h hlog hdead _ _ _ := h.same hlog hdead

theorem keepAlive_noted [Protocol α] :
    ⦃fun t => ⌜Noted s t⌝⦄ ForwardSink.keepAlive ⦃⇓ _ s' => ⌜Noted s s'⌝⦄ := by
  have hstatus := sendStatusIfChanged_keeps (Noted.keeps s)
  have hsend := sendOn_keeps (Noted.keeps s) .ping fun h => h.logged ⟨rfl, rfl⟩
  have hrecv := recvOn_keeps (Noted.keeps s)
  mvcgen [ForwardSink.keepAlive, hstatus, hsend, hrecv]

theorem otherSessions_spec :
    ⦃fun t => ⌜t = s⌝⦄ otherSessions ⦃⇓ _ s' => ⌜Logged s s' []⌝⦄ := by
  mvcgen [otherSessions]
  rename_i ht _
  subst ht
  exact ⟨by rw [List.append_nil], rfl⟩

end Noted

/-! ### `write_batch` -/

section Write

variable [CatalogueFormat] [Protocol α]

/-- Nothing but `CATALOGUE_STATUS`es. -/
def StatusOnly (events : List (Event α)) : Prop :=
  ∀ e ∈ events, ∃ status, e = .sent (.catalogueStatus status)

theorem statusMessage_spec (s : ForwardSink α) :
    ⦃fun t => ⌜t = s⌝⦄ statusMessage ⦃⇓ _ s' => ⌜Logged s s' []⌝⦄ := by
  mvcgen [statusMessage, otherSessions_spec]
  · rename_i ht _ s₁ h₁ _ _ s₂ h₂ _ _
    subst ht
    exact h₁.trans ⟨h₂.log, h₂.dead⟩
  · rename_i ht _ s₁ h₁ _ _ s₂ h₂ _ _ _
    subst ht
    exact h₁.trans ⟨h₂.log, h₂.dead⟩

theorem sendStatusIfChanged_spec (s : ForwardSink α) :
    ⦃fun t => ⌜t = s⌝⦄ sendStatusIfChanged
    ⦃⇓ _ s' => ⌜∃ status, StatusOnly status ∧ Logged s s' status⌝⦄ := by
  mvcgen [sendStatusIfChanged, otherSessions_spec, statusMessage_spec, sendOn_spec]
  · rename_i ht _ s₁ h₁ _
    subst ht
    exact ⟨[], by simp [StatusOnly], h₁⟩
  · rename_i ht _ s₁ h₁ _ _ _ s₂ h₂
    subst ht
    exact ⟨[], by simp [StatusOnly], h₁.trans h₂⟩
  · rename_i ht _ s₁ h₁ _ _ status _ s₂ h₂ r s₃
    intro h₃
    subst ht
    refine ⟨_, ?_, (h₁.trans h₂).trans h₃⟩
    intro e he
    split at he
    · exact ⟨status, by simpa using he⟩
    · simp at he

theorem ForwardSink.writeBatch_spec (batch : List α) (s : ForwardSink α) :
    ⦃fun t => ⌜t = s⌝⦄ ForwardSink.writeBatch batch
    ⦃⇓ r s' => ⌜∃ s₁ status, StatusOnly status ∧ Logged s s₁ status ∧ Wrote s₁ s' batch r⌝⦄ := by
  mvcgen [ForwardSink.writeBatch, sendStatusIfChanged_spec, writeAll_spec]
  · rename_i ht _ cause _ s₁ h₁
    subst ht
    obtain ⟨status, hstatus, hlog⟩ := h₁
    refine ⟨s₁, status, hstatus, hlog, Nat.zero_le _, [], .inl rfl, fun _ => rfl, [], by simp, ?_,
      (Logged.refl s₁).stored⟩
    rfl
  · rename_i ht _ _ s₁ h₁ r s₂
    intro hwrote
    subst ht
    obtain ⟨status, hstatus, hlog⟩ := h₁
    exact ⟨s₁, status, hstatus, hlog, hwrote⟩

end Write

/-! ### Whole runs -/

/-- `log` holds settled exchanges, one behind another with anything between them, that carried
`delivered` and put `kept` in the dead-letter file. -/
inductive Ledger : List (Event α) → List α → List α → Prop
  | nil : Ledger [] [] []
  | event {log : List (Event α)} {delivered kept : List α} (e : Event α) :
    Ledger log delivered kept → Ledger (log ++ [e]) delivered kept
  | settled {log : List (Event α)} {delivered kept : List α} (x : Exchange α) :
    x.Settled → Ledger log delivered kept →
      Ledger (log ++ x.events) (delivered ++ x.samples) (kept ++ x.quarantined)

namespace Ledger

variable {log : List (Event α)} {delivered kept : List α}

theorem events (h : Ledger log delivered kept) (new : List (Event α)) :
    Ledger (log ++ new) delivered kept := by
  induction new generalizing log with
  | nil =>
    rw [List.append_nil]
    exact h
  | cons e new ih =>
    have hnext := ih (h.event e)
    rw [List.append_assoc, List.singleton_append] at hnext
    exact hnext

theorem exchanges (h : Ledger log delivered kept) (xs : List (Exchange α))
    (hsettled : ∀ x ∈ xs, x.Settled) :
    Ledger (log ++ xs.flatMap Exchange.events) (delivered ++ xs.flatMap Exchange.samples)
      (kept ++ xs.flatMap Exchange.quarantined) := by
  induction xs generalizing log delivered kept with
  | nil =>
    simp only [List.flatMap_nil, List.append_nil]
    exact h
  | cons x xs ih =>
    obtain ⟨hx, hxs⟩ := List.forall_mem_cons.mp hsettled
    have hnext := ih (h.settled x hx) hxs
    simp only [List.append_assoc] at hnext
    simp only [List.flatMap_cons]
    exact hnext

end Ledger

/-- The sink's log accounts for everything it reported delivered, and the dead-letter file for
everything quarantined. -/
def ForwardSink.Accounts (dead₀ : List α) (s : ForwardSink α) (delivered : List α) : Prop :=
  ∃ kept, Ledger s.log delivered kept ∧ s.deadSamples = dead₀ ++ kept

theorem Noted.accounts {dead₀ delivered : List α} {s s' : ForwardSink α} (h : Noted s s')
    (ha : s.Accounts dead₀ delivered) : s'.Accounts dead₀ delivered := by
  obtain ⟨new, hlog⟩ := h
  obtain ⟨kept, hledger, hdead⟩ := ha
  refine ⟨kept, ?_, ?_⟩
  · rw [hlog.log]
    exact hledger.events new
  · rw [ForwardSink.deadSamples, hlog.dead]
    exact hdead

theorem Wrote.accounts {dead₀ delivered batch : List α} {s s' : ForwardSink α} {r : WriteResult}
    (h : Wrote s s' batch r) (ha : s.Accounts dead₀ delivered) :
    s'.Accounts dead₀ (delivered ++ batch.take (r.delivered batch.length)) := by
  obtain ⟨-, rest, -, -, exchanges, hsettled, hsamples, hstored⟩ := h
  obtain ⟨kept, hledger, hdead⟩ := ha
  refine ⟨kept ++ exchanges.flatMap Exchange.quarantined, ?_, ?_⟩
  · rw [hstored.log, ← List.append_assoc, ← hsamples]
    exact (hledger.exchanges exchanges hsettled).events rest
  · rw [hstored.dead, hdead, List.append_assoc]

section Runs

variable [CatalogueFormat] [Protocol α]

/-- `Accounts` is kept by every operation of the sink. -/
def ForwardSink.accounts (dead₀ : List α) : SinkLog (ForwardSink α) where
  holds := ForwardSink.Accounts dead₀
  connect s d h := (run_of_triple (connect_keeps (Noted.keeps s)) (Noted.refl s) rfl).accounts h
  keepAlive s d h := (run_of_triple (keepAlive_noted s) (Noted.refl s) rfl).accounts h
  close s d h := (run_of_triple (setConn_keeps (Noted.keeps s) none) (Noted.refl s) rfl).accounts h
  writeBatch s d batch h := by
    obtain ⟨s₁, status, -, hlog, hwrote⟩ :=
      run_of_triple (ForwardSink.writeBatch_spec batch s) rfl rfl
    have hnoted : Noted s s₁ := ⟨status, hlog⟩
    exact hwrote.accounts (hnoted.accounts h)

instance : LawfulBatchSink (ForwardSink α) α where
  delivered_le batch s := by
    obtain ⟨_, _, _, _, hwrote⟩ := run_of_triple (ForwardSink.writeBatch_spec batch s) rfl rfl
    exact hwrote.1

/-- At-least-once over the forward link.  However the gateway answers, a `write_batch` that returns
adds to the log, behind any `CATALOGUE_STATUS`, exchanges that each settle their batch and carry
exactly the samples reported delivered, and what comes after them settles nothing.  And with the
batcher around it, over a cache whose reads and removals may fail, every sample removed from the disk
cache is one of those, with a delivery of its own; all others it ever held or accepted were delivered
from the queue, are still there, or were never taken into the cache and counted lost. -/
theorem forward_at_least_once {C : Type} [FrameCache C α] [LawfulFrameCache C]
    [AtomicFrameCache C] {batching : Batching} (sink : ForwardSink α) (cache : C)
    (turns : List (List (Other α))) (fuel : Nat) (returned : Bool)
    (w : World (ForwardSink α) C α) (hv : LawfulFrameCache.Valid cache) (hnew : sink.log = [])
    (hrun : (run fuel).run (World.init sink cache batching turns) = (returned, w)) :
    (∀ (s s' : ForwardSink α) (batch : List α) (r : WriteResult),
      (ForwardSink.writeBatch batch).run s = (r, s') →
        r.delivered batch.length ≤ batch.length ∧
          ∃ (status rest : List (Event α)) (exchanges : List (Exchange α)),
            s'.log = s.log ++ status ++ exchanges.flatMap Exchange.events ++ rest ∧
            StatusOnly status ∧ (∀ x ∈ exchanges, x.Settled) ∧
            exchanges.flatMap Exchange.samples = batch.take (r.delivered batch.length) ∧
            s'.deadSamples = s.deadSamples ++ exchanges.flatMap Exchange.quarantined ∧
            Unsettled (batch.drop (r.delivered batch.length)) rest ∧ (r = .ok () → rest = [])) ∧
      w.history.removed.Sublist w.history.delivered ∧
      w.sink.Accounts sink.deadSamples w.history.delivered ∧
      (∀ c ∈ w.history.resets, LawfulFrameCache.frames c = []) ∧
      ∃ direct, AtLeastOnce
        ((LawfulFrameCache.frames cache).map Cached.sample ++ w.history.accepted)
        w.history.delivered (w.history.removed ++ direct)
        (w.cachedSamples ++ w.shared.queue.buf ++ w.history.lost) := by
  -- One call by its triple; the run by the batcher's invariant, with this sink's account.
  refine ⟨?_, ?_⟩
  · intro s s' batch r hrun
    obtain ⟨s₁, status, hstatus, hlog, hle, rest, hrest, hok, exchanges, hsettled, hsamples,
      hstored⟩ := run_of_triple (ForwardSink.writeBatch_spec batch s) rfl hrun
    refine ⟨hle, status, rest, exchanges, ?_, hstatus, hsettled, hsamples, ?_, hrest, hok⟩
    · rw [hstored.log, hlog.log]
      simp only [List.append_assoc]
    · rw [hstored.dead, ForwardSink.deadSamples, hlog.dead, ForwardSink.deadSamples]
  · have hstart : sink.Accounts sink.deadSamples [] :=
      ⟨[], by rw [hnew]; exact Ledger.nil, by rw [List.append_nil]⟩
    obtain ⟨ha, -⟩ := Accounted.run (ForwardSink.accounts sink.deadSamples) hv hstart hrun
    have hplaced := ha.placed
    rw [List.append_nil] at hplaced
    exact ⟨ha.removed, ha.sink, ha.resets, hplaced⟩

end Runs

section Refused

/-- Two samples to a `BATCH`. -/
local instance pairs : Protocol Nat where
  batchLen xs := min 2 xs.length
  batchLen_pos xs hne := by
    have hlen := List.length_pos_of_ne_nil hne
    omega
  batchLen_le xs := Nat.min_le_right 2 xs.length
  encodeHello _ := .ok ()
  encodeCatalogueStatus _ := .ok ()

/-- No line frames with a catalogue here, so none is hashed or parsed. -/
local instance noFormat : CatalogueFormat where
  blobSha1 _ := ⟨List.replicate 20 0, List.length_replicate⟩
  parse _ _ := .error "no catalogue"

/-- A gateway that takes the first `BATCH` and cannot read the second, and takes both when they come
again. -/
def refusingLink : Link where
  arrivals :=
    [.reply (.helloAck ⟨.ok, 3, []⟩), .reply (.ack ⟨1, .ok⟩), .reply (.ack ⟨0, .malformed⟩),
      .reply (.ack ⟨3, .ok⟩), .reply (.ack ⟨4, .ok⟩)]

def refusedSink : ForwardSink Nat where
  apiKey := "key"
  database := "site"
  daemonId := "pi"
  devices := []
  rawSerial := false
  catalogues :=
    { dir := none, lines := [], distinct := List.nodup_nil, assigned := ∅, refused := ∅,
      changes := 0, disk := {} }
  seen := 0
  deadLetter := "dead.db"
  dials := [.link refusingLink]

/-- Its first removal fails, and a row behind the first batch is one it cannot read. -/
def refusedCache : RowCache (RowFormat.option Nat) :=
  ⟨.opened (Table.empty.insert [some 10, some 20, some 30, none]) 1000 { remove := [true] }⟩

def refusedBatching : Batching where
  size := 3
  queueSize := 1
  filling := fun _ _ => false

/-- Three passes: the batch goes out, goes out again because it is still there, and then the row
nobody can read stops the drain. -/
def refused : Bool × World (ForwardSink Nat) (RowCache (RowFormat.option Nat)) Nat :=
  (run 3).run (World.init refusedSink refusedCache refusedBatching [])

/-- `10` and `20` were stored by the gateway, `30` is in the dead-letter file and was stored the
second time. -/
theorem forward_at_least_once_refused :
    refused.2.history.removed = [10, 20, 30] ∧
      refused.2.history.delivered = [10, 20, 30, 10, 20, 30] ∧ refused.2.sink.deadSamples = [30] ∧
      refused.2.history.removed.Sublist refused.2.history.delivered ∧
      refused.2.sink.Accounts refusedSink.deadSamples refused.2.history.delivered := by
  refine ⟨by decide +kernel, by decide +kernel, by decide +kernel, ?_⟩
  have hend := forward_at_least_once refusedSink refusedCache [] 3 refused.1 refused.2
    trivial rfl (Prod.mk.eta (p := refused)).symm
  exact ⟨hend.2.1, hend.2.2.1⟩

end Refused

end WireTap
