import WireTap.Gateway.Equiv.IngestServer
import WireTap.Lib.History

/-!
# The registry, and what clients see of it

`run_registers`: in every state of every run the registry holds exactly the sessions of the
connections that are being served, the one a new `HELLO` replaces among them until it is closed, and
`reassign` gives a permit to exactly the connections it concerns.  An entry's counts are checked
against the wire: `Ledger` is what can be seen of a connection from outside, the message it has taken
and the `ACK_OK`s it has written, and a session's entry counts exactly the batches that were
acknowledged in it (`Counted`).
-/

namespace WireTap.Gateway.IngestServer

variable {α : Type} {cfg : Config} {machine : SessionMachine α} {s s' : IngestServer α}

/-! ### What can be seen of a connection -/

/-- An `ACK_OK`: the session the connection had then, and the message it had in hand. -/
structure OkAck (α : Type) where
  session : Option Nat
  seq : UInt32
  hand : Option (Message α)

structure Ledger (α : Type) where
  /-- The message last taken from the inbox. -/
  hand : Option (Message α) := none
  oks : List (OkAck α) := []

/-- The batches acknowledged as stored. -/
def okSeqs (replies : List Reply) : List UInt32 :=
  replies.filterMap fun
    | .ack ⟨seq, .ok⟩ => some seq
    | _ => none

/-- A step, in which the connection went from `c` to `c'`. -/
def Ledger.noteConn (l : Ledger α) (c c' : Conn α) : Ledger α :=
  let hand := if c'.inbox.length < c.inbox.length then c.inbox.head? else l.hand
  ⟨hand, l.oks ++ (okSeqs (c'.outbox.drop c.outbox.length)).map fun seq =>
    ⟨c.authed.map (·.id), seq, hand⟩⟩

/-- A step, if the connection was there. -/
def Ledger.note (l : Ledger α) : Option (Conn α) → Option (Conn α) → Ledger α
  | some c, some c' => l.noteConn c c'
  | _, _ => l

/-- The entry's counts are those of the batches acknowledged in session `id`, each `ACK_OK` written
with its batch in hand. -/
def Counted (l : Ledger α) (id : Nat) (info : IngestSessionInfo) : Prop :=
  ∃ batches : List (UInt32 × List α),
    l.oks.filter (·.session = some id) =
        batches.map (fun b => ⟨some id, b.1, some (.batch b.1 b.2)⟩) ∧
      info.batches = batches.length ∧ info.frames = (batches.map (·.2.length)).sum

theorem Ledger.note_self (l : Ledger α) (c : Option (Conn α)) : l.note c c = l := by
  cases c with
  | none => rfl
  | some c =>
    show Ledger.noteConn l c c = l
    unfold Ledger.noteConn
    rw [if_neg (Nat.lt_irrefl _), List.drop_length]
    simp [okSeqs]

/-- Nothing acknowledged as stored, nothing added to what was. -/
theorem Ledger.oks_noteConn {l : Ledger α} {c c' : Conn α}
    (h : okSeqs (c'.outbox.drop c.outbox.length) = []) : (l.noteConn c c').oks = l.oks := by
  unfold Ledger.noteConn
  rw [h]
  exact List.append_nil _

/-- A message taken is the one in hand. -/
theorem Ledger.hand_noteConn {l : Ledger α} {c c' : Conn α} {m : Message α}
    (h : c.inbox = m :: c'.inbox) : (l.noteConn c c').hand = some m := by
  unfold Ledger.noteConn
  rw [if_pos (by rw [h]; exact Nat.lt_succ_self _), h]
  rfl

/-- Answering shows one reply. -/
theorem drop_answering (outbox : List Reply) (r : Reply) :
    (outbox ++ [r]).drop outbox.length = [r] := List.drop_left

theorem okSeqs_helloAck (ack : HelloAck) : okSeqs [.helloAck ack] = [] := rfl

theorem okSeqs_of_ne_ok {seq : UInt32} {status : AckStatus} (h : status ≠ .ok) :
    okSeqs [.ack ⟨seq, status⟩] = [] := by
  cases status with
  | ok => exact absurd rfl h
  | overloaded => rfl
  | malformed => rfl
  | other status => rfl

/-- An answer given at once acknowledges nothing as stored. -/
theorem okSeqs_answers {accepted : Bool} {m : Message α} {action : Action α} {r : Reply}
    (h : Answers machine action r) (hmachine : machine.Lawful)
    (hoffer : machine.offers accepted m action = true) : okSeqs [r] = [] := by
  cases h with
  | reply r =>
    rw [(hmachine.reply hoffer).2]
    rfl
  | hello h₀ status _ => rfl
  | helloRefused status => rfl
  | batch seq samples status hstatus => exact okSeqs_of_ne_ok hstatus
  | nack seq status => exact okSeqs_of_ne_ok (hmachine.nack hoffer).2
  | catalogueGet sha offset found => rfl

/-! ### The counts -/

/-- The registry's entries for connection `i` agree with what was seen of it, and so does what it has
in hand. -/
structure Tallied (i : Nat) (l : Ledger α) (s : IngestServer α) : Prop where
  counting : ∀ c, s.conns[i]? = some c → ∀ rows answer, c.task = .counting rows answer →
    ∃ seq samples, answer = .ack ⟨seq, .ok⟩ ∧ l.hand = some (.batch seq samples) ∧
      rows = samples.length
  replacing : ∀ c, s.conns[i]? = some c → ∀ previous answer, c.task = .replacing previous answer →
    ∃ ack, answer = .helloAck ack
  past : ∀ ok ∈ l.oks, ∀ id, ok.session = some id → id < s.opened.length
  counted : ∀ e ∈ s.sessions.inner, e.2.conn = i → Counted l e.1 e.2.info

namespace Tallied

variable {i : Nat} {l : Ledger α} {c c' : Conn α}

theorem init (keys : KeyStore) (blobs : List (Sha × List UInt8)) (i : Nat) :
    Tallied i ({} : Ledger α) (init keys blobs) := by
  constructor
  · exact fun _ hc => absurd hc (by simp [IngestServer.init])
  · exact fun _ hc => absurd hc (by simp [IngestServer.init])
  · exact fun _ hok => absurd hok List.not_mem_nil
  · exact fun _ he => absurd he List.not_mem_nil

/-- Something of another connection's, or of none. -/
theorem other (h : Tallied i l s)
    (hconn : ∀ c', s'.conns[i]? = some c' → c'.task = .waiting ∨
      ∃ c, s.conns[i]? = some c ∧ c'.task = c.task)
    (hopened : s.opened.length ≤ s'.opened.length)
    (hinner : ∀ e ∈ s'.sessions.inner, e.2.conn = i → e ∈ s.sessions.inner) : Tallied i l s' := by
  have hold : ∀ c', s'.conns[i]? = some c' → c'.task ≠ .waiting →
      ∃ c, s.conns[i]? = some c ∧ c.task = c'.task := by
    intro c' hc' hne
    rcases hconn c' hc' with hwaiting | ⟨c, hc, hsame⟩
    · exact absurd hwaiting hne
    · exact ⟨c, hc, hsame.symm⟩
  constructor
  · intro c' hc' rows answer htask
    obtain ⟨c, hc, hsame⟩ := hold c' hc' (by simp [htask])
    exact h.counting c hc rows answer (hsame.trans htask)
  · intro c' hc' previous answer htask
    obtain ⟨c, hc, hsame⟩ := hold c' hc' (by simp [htask])
    exact h.replacing c hc previous answer (hsame.trans htask)
  · exact fun ok hok id hid => Nat.lt_of_lt_of_le (h.past ok hok id hid) hopened
  · exact fun e he hmine => h.counted e (hinner e he hmine) hmine

/-- The connection's own doing, if it acknowledges nothing as stored and opens no session. -/
theorem quiet (h : Tallied i l s) (hoks : okSeqs (c'.outbox.drop c.outbox.length) = [])
    (hconn : s'.conns[i]? = some c')
    (hcounting : ∀ rows answer, c'.task = .counting rows answer →
      ∃ seq samples, answer = .ack ⟨seq, .ok⟩ ∧ (l.noteConn c c').hand = some (.batch seq samples) ∧
        rows = samples.length)
    (hreplacing : ∀ previous answer, c'.task ≠ .replacing previous answer)
    (hopened : s'.opened = s.opened)
    (hinner : ∀ e ∈ s'.sessions.inner, e ∈ s.sessions.inner) : Tallied i (l.noteConn c c') s' := by
  have hsame := l.oks_noteConn hoks
  constructor
  · intro c₀ hc₀ rows answer htask
    obtain rfl := Option.some.inj (hconn.symm.trans hc₀)
    exact hcounting rows answer htask
  · intro c₀ hc₀ previous answer htask
    obtain rfl := Option.some.inj (hconn.symm.trans hc₀)
    exact absurd htask (hreplacing previous answer)
  · rw [hsame, hopened]
    exact h.past
  · intro e he hmine
    unfold Counted
    rw [hsame]
    exact h.counted e (hinner e he) hmine

/-- A `HELLO` is accepted: nothing has been acknowledged yet in the session it opens. -/
theorem opens (h : Tallied i l s) (hreg : s.Registered)
    (hoks : okSeqs (c'.outbox.drop c.outbox.length) = []) {info : IngestSessionInfo} {h₀ : Hello}
    {o : Opened} (hconn : s'.conns[i]? = some c') (hinfo : info.frames = 0 ∧ info.batches = 0)
    (hcounting : ∀ rows answer, c'.task ≠ .counting rows answer)
    (hreplacing : ∀ previous answer, c'.task = .replacing previous answer →
      ∃ ack, answer = .helloAck ack)
    (hopened : s'.opened = s.opened ++ [o]) (hsessions : s'.sessions = s.sessions.open info h₀ i) :
    Tallied i (l.noteConn c c') s' := by
  have hsame := l.oks_noteConn hoks
  have hlt : ∀ ok ∈ l.oks, ∀ id, ok.session = some id → id < s'.opened.length := by
    intro ok hok id hid
    have hold := h.past ok hok id hid
    rw [hopened, List.length_append]
    omega
  constructor
  · intro c₀ hc₀ rows answer htask
    obtain rfl := Option.some.inj (hconn.symm.trans hc₀)
    exact absurd htask (hcounting rows answer)
  · intro c₀ hc₀ previous answer htask
    obtain rfl := Option.some.inj (hconn.symm.trans hc₀)
    exact hreplacing previous answer htask
  · rw [hsame]
    exact hlt
  · intro e he hmine
    unfold Counted
    rw [hsame]
    rw [hsessions] at he
    rcases List.mem_append.mp he with hold | hnew
    · exact h.counted e hold hmine
    · rw [List.mem_singleton.mp hnew]
      refine ⟨[], ?_, hinfo.2, hinfo.1⟩
      rw [List.map_nil, List.filter_eq_nil_iff]
      intro ok hok hid
      have hpast := h.past ok hok s.sessions.nextId (by simpa using hid)
      rw [hreg.next] at hpast
      exact absurd hpast (Nat.lt_irrefl _)

/-- The batch in hand is counted and acknowledged. -/
theorem counts (h : Tallied i l s) (hi : s.conns[i]? = some c) {rows : Nat} {answer : Reply}
    {session : IngestSession} (hreg : s.Registered) (htask : c.task = .counting rows answer)
    (hsession : c.authed = some session)
    (hconn : s'.conns[i]? = some (c.answering answer)) (hopened : s'.opened = s.opened)
    (hsessions : s'.sessions = s.sessions.count session.id rows) :
    Tallied i (l.noteConn c (c.answering answer)) s' := by
  obtain ⟨seq, samples, rfl, hhand, rfl⟩ := h.counting c hi rows answer htask
  have hmore : (l.noteConn c (c.answering (.ack ⟨seq, .ok⟩))).oks =
      l.oks ++ [⟨some session.id, seq, some (.batch seq samples)⟩] := by
    unfold Ledger.noteConn Conn.answering
    simp only [drop_answering, Nat.lt_irrefl, if_false, hsession, hhand]
    rfl
  constructor
  · intro c₀ hc₀ rows answer hcounting
    obtain rfl := Option.some.inj (hconn.symm.trans hc₀)
    simp [Conn.answering] at hcounting
  · intro c₀ hc₀ previous answer hreplacing
    obtain rfl := Option.some.inj (hconn.symm.trans hc₀)
    simp [Conn.answering] at hreplacing
  · intro ok hok id hid
    rw [hmore] at hok
    rw [hopened]
    rcases List.mem_append.mp hok with hold | hnew
    · exact h.past ok hold id hid
    · rw [List.mem_singleton.mp hnew] at hid
      obtain rfl := Option.some.inj hid
      obtain ⟨o, ho, -⟩ := hreg.authed i c session hi hsession
      exact (List.getElem?_eq_some_iff.mp ho).1
  · intro e he hmine
    rw [hsessions] at he
    obtain ⟨e₀, he₀, rfl⟩ := List.mem_map.mp he
    unfold Counted
    rw [hmore, List.filter_append]
    by_cases hid : e₀.1 = session.id
    · rw [if_pos hid] at hmine ⊢
      obtain ⟨batches, hoks, hbatches, hframes⟩ := h.counted e₀ he₀ hmine
      refine ⟨batches ++ [(seq, samples)], ?_, ?_, ?_⟩
      · rw [hoks]
        simp [hid]
      · simp [hbatches]
      · simp [hframes]
    · rw [if_neg hid] at hmine ⊢
      obtain ⟨batches, hoks, hrest⟩ := h.counted e₀ he₀ hmine
      refine ⟨batches, ?_, hrest⟩
      rw [hoks]
      simp [Ne.symm hid]

/-- Another connection's turn. -/
theorem turn_other (h : Tallied i l s) (hreg : s.Registered) {j : Nat} {d : Conn α}
    (hj : s.conns[j]? = some d) (hne : j ≠ i) (hturn : Turn cfg machine s j d s') :
    Tallied i (l.note s.conns[i]? s'.conns[i]?) s' := by
  have hset (d' : Conn α) : (s.conns.set j d')[i]? = s.conns[i]? := List.getElem?_set_ne hne
  -- What is left to see to are the sessions.
  have hsame : s'.conns[i]? = s.conns[i]? → s.opened.length ≤ s'.opened.length →
      (∀ e ∈ s'.sessions.inner, e.2.conn = i → e ∈ s.sessions.inner) →
      Tallied i (l.note s.conns[i]? s'.conns[i]?) s' := by
    intro hconn hopened hinner
    rw [hconn, Ledger.note_self]
    refine h.other (fun c' hc' => .inr ⟨c', ?_, rfl⟩) hopened hinner
    rw [← hconn]
    exact hc'
  cases hturn with
  | answers m inbox action r served _ _ _ _ =>
    exact hsame (hset _) (Nat.le_refl _) fun e he _ => he
  | heeds m inbox status _ _ _ => exact hsame (hset _) (Nat.le_refl _) fun e he _ => he
  | checks m inbox h₀ info admitted _ _ _ _ =>
    exact hsame (hset _) (Nat.le_refl _) fun e he _ => he
  | stores m inbox seq samples session _ _ _ _ =>
    exact hsame (hset _) (Nat.le_refl _) fun e he _ => he
  | losesAnswer m inbox seq samples session _ _ _ _ =>
    exact hsame (hset _) (Nat.le_refl _) fun e he _ => he
  | refuses h₀ info keys status _ _ => exact hsame (hset _) (Nat.le_refl _) fun e he _ => he
  | opens h₀ info keys m name assignments c' _ _ _ =>
    refine hsame (hset _) ?_ fun e he hmine => ?_
    · show s.opened.length ≤ (s.opened ++ _).length
      rw [List.length_append]
      exact Nat.le_add_right _ _
    · rcases List.mem_append.mp he with hold | hnew
      · exact hold
      · rw [List.mem_singleton.mp hnew] at hmine
        exact absurd hmine hne
  | closesPrevious previous answer _ =>
    exact hsame (hset _) (Nat.le_refl _) fun e he _ => (List.mem_filter.mp he).1
  | counts rows answer session _ hsession =>
    refine hsame (hset _) (Nat.le_refl _) fun e he hmine => ?_
    obtain ⟨e₀, he₀, rfl⟩ := List.mem_map.mp he
    by_cases hid : e₀.1 = session.id
    · -- The session counted is the other connection's.
      rw [if_pos hid] at hmine
      obtain ⟨o, ho, hentry⟩ := hreg.entry e₀ he₀
      obtain ⟨o', ho', hconn, -⟩ := hreg.authed j d session hj hsession
      rw [← hid, ho] at ho'
      rw [← Option.some.inj ho'] at hconn
      exact absurd (hconn.symm.trans (hentry.conn.symm.trans hmine)) hne
    · rw [if_neg hid]
      exact he₀
  | leaves sessions _ hsessions =>
    refine hsame (hset _) (Nat.le_refl _) fun e he _ => ?_
    rcases hsessions with ⟨-, rfl⟩ | ⟨session, -, rfl⟩
    · exact he
    · exact (List.mem_filter.mp he).1
  | wakes _ _ => exact hsame (hset _) (Nat.le_refl _) fun e he _ => he
  | hangsUp _ => exact hsame (hset _) (Nat.le_refl _) fun e he _ => he

/-- The connection's own. -/
theorem turn_own (h : Tallied i l s) (hreg : s.Registered) (hmachine : machine.Lawful)
    (hi : s.conns[i]? = some c) (hturn : Turn cfg machine s i c s') :
    Tallied i (l.note s.conns[i]? s'.conns[i]?) s' := by
  have hset (c' : Conn α) : (s.conns.set i c')[i]? = some c' :=
    List.getElem?_set_self (List.getElem?_eq_some_iff.mp hi).1
  have hnote {c' : Conn α} (hc' : s'.conns[i]? = some c') (h' : Tallied i (l.noteConn c c') s') :
      Tallied i (l.note s.conns[i]? s'.conns[i]?) s' := by
    rw [hi, hc']
    exact h'
  have hsilent : okSeqs (c.outbox.drop c.outbox.length) = [] := by
    rw [List.drop_length]
    rfl
  have hanswer {r : Reply} (hr : okSeqs [r] = []) :
      okSeqs ((c.outbox ++ [r]).drop c.outbox.length) = [] := by
    rw [drop_answering]
    exact hr
  cases hturn with
  | answers m inbox action r served _ _ hoffer hanswers =>
    refine hnote (hset _) (h.quiet (hanswer (okSeqs_answers hanswers hmachine hoffer)) (hset _) ?_ ?_
      rfl fun e he => he)
    · exact fun _ _ htask => by simp [Conn.answering] at htask
    · exact fun _ _ htask => by simp [Conn.answering] at htask
  | heeds m inbox status htask _ _ =>
    refine hnote (hset _) (h.quiet hsilent (hset _) ?_ ?_ rfl fun e he => he)
    · exact fun _ _ hcounting => by simp [htask] at hcounting
    · exact fun _ _ hreplacing => by simp [htask] at hreplacing
  | checks m inbox h₀ info admitted _ _ _ _ =>
    refine hnote (hset _) (h.quiet hsilent (hset _) ?_ ?_ rfl fun e he => he)
    · exact fun _ _ hcounting => by simp at hcounting
    · exact fun _ _ hreplacing => by simp at hreplacing
  | stores m inbox seq samples session _ hin hoffer _ =>
    refine hnote (hset _) (h.quiet hsilent (hset _) ?_ ?_ rfl fun e he => he)
    · intro rows answer hcounting
      simp only [Serving.counting.injEq] at hcounting
      obtain ⟨rfl, rfl⟩ := hcounting
      refine ⟨seq, samples, rfl, ?_, rfl⟩
      rw [Ledger.hand_noteConn hin, (hmachine.batch hoffer).2]
    · exact fun _ _ hreplacing => by simp at hreplacing
  | losesAnswer m inbox seq samples session _ _ _ _ =>
    refine hnote (hset _) (h.quiet (hanswer (okSeqs_of_ne_ok (by simp))) (hset _) ?_ ?_ rfl
      fun e he => he)
    · exact fun _ _ hcounting => by simp [Conn.answering] at hcounting
    · exact fun _ _ hreplacing => by simp [Conn.answering] at hreplacing
  | refuses h₀ info keys status _ _ =>
    refine hnote (hset _) (h.quiet (hanswer (okSeqs_helloAck _)) (hset _) ?_ ?_ rfl fun e he => he)
    · exact fun _ _ hcounting => by simp [Conn.answering] at hcounting
    · exact fun _ _ hreplacing => by simp [Conn.answering] at hreplacing
  | opens h₀ info keys m name assignments c' _ _ hc' =>
    rcases hc' with ⟨-, rfl⟩ | ⟨previous, -, rfl⟩
    · refine hnote (hset _) (h.opens hreg (hanswer (okSeqs_helloAck _)) (hset _) ⟨rfl, rfl⟩ ?_ ?_
        rfl rfl)
      · exact fun _ _ hcounting => by simp at hcounting
      · exact fun _ _ hreplacing => by simp at hreplacing
    · refine hnote (hset _) (h.opens hreg hsilent (hset _) ⟨rfl, rfl⟩ ?_ ?_ rfl rfl)
      · exact fun _ _ hcounting => by simp at hcounting
      · intro previous' answer hreplacing
        simp only [Serving.replacing.injEq] at hreplacing
        exact ⟨_, hreplacing.2.symm⟩
  | closesPrevious previous answer htask =>
    obtain ⟨ack, rfl⟩ := h.replacing c hi previous answer htask
    refine hnote (hset _) (h.quiet (hanswer (okSeqs_helloAck _)) (hset _) ?_ ?_ rfl
      fun e he => (List.mem_filter.mp he).1)
    · exact fun _ _ hcounting => by simp [Conn.answering] at hcounting
    · exact fun _ _ hreplacing => by simp [Conn.answering] at hreplacing
  | counts rows answer session htask hsession =>
    exact hnote (hset _) (h.counts hi hreg htask hsession (hset _) rfl rfl)
  | leaves sessions _ hsessions =>
    refine hnote (hset _) (h.quiet hsilent (hset _) ?_ ?_ rfl fun e he => ?_)
    · exact fun _ _ hcounting => by simp at hcounting
    · exact fun _ _ hreplacing => by simp at hreplacing
    · rcases hsessions with ⟨-, rfl⟩ | ⟨session, -, rfl⟩
      · exact he
      · exact (List.mem_filter.mp he).1
  | wakes _ _ =>
    refine hnote (hset _) (h.quiet (hanswer rfl) (hset _) ?_ ?_ rfl fun e he => he)
    · exact fun _ _ hcounting => by simp at hcounting
    · exact fun _ _ hreplacing => by simp at hreplacing
  | hangsUp _ =>
    refine hnote (hset _) (h.quiet hsilent (hset _) ?_ ?_ rfl fun e he => he)
    · exact fun _ _ hcounting => by simp at hcounting
    · exact fun _ _ hreplacing => by simp at hreplacing

/-- Every step keeps the tally of every connection. -/
theorem step {e : IngestEvent α} (h : Tallied i l s) (hreg : s.Registered)
    (hmachine : machine.Lawful) (hs : s.step cfg machine e = some s') :
    Tallied i (l.note s.conns[i]? s'.conns[i]?) s' := by
  rcases step_cases hs with rfl | ⟨j, d, hj, hclient⟩ | ⟨j, d, hj, hturn⟩ | ⟨told, rfl⟩ |
    ⟨keys, blobs, rfl⟩
  · have hnote : l.note s.conns[i]? (s.conns ++ [({} : Conn α)])[i]? = l := by
      cases hi : s.conns[i]? with
      | none => rfl
      | some c =>
        rw [getElem?_snoc_iff.mpr (.inl hi)]
        exact Ledger.note_self l (some c)
    rw [hnote]
    refine h.other (fun c' hc' => ?_) (Nat.le_refl _) fun e he _ => he
    rcases getElem?_snoc_iff.mp hc' with hold | ⟨-, rfl⟩
    · exact .inr ⟨c', hold, rfl⟩
    · exact .inl rfl
  · obtain ⟨d', rfl, hsame, hwritten, htaken⟩ : ∃ d', s' = s.setConn j d' ∧ d'.task = d.task ∧
        d'.outbox.drop d.outbox.length = [] ∧ ¬ d'.inbox.length < d.inbox.length := by
      cases hclient with
      | arrives m =>
        refine ⟨_, rfl, rfl, List.drop_length, ?_⟩
        simp
      | takes r outbox hout =>
        refine ⟨_, rfl, rfl, ?_, Nat.lt_irrefl _⟩
        rw [hout]
        exact List.drop_eq_nil_of_le (Nat.le_succ _)
    have hnote : l.note s.conns[i]? (s.conns.set j d')[i]? = l := by
      by_cases hji : j = i
      · subst hji
        rw [hj, List.getElem?_set_self (List.getElem?_eq_some_iff.mp hj).1]
        show l.noteConn d d' = l
        unfold Ledger.noteConn
        rw [if_neg htaken, hwritten]
        simp [okSeqs]
      · rw [List.getElem?_set_ne hji]
        exact Ledger.note_self l _
    show Tallied i (l.note s.conns[i]? (s.conns.set j d')[i]?) (s.setConn j d')
    rw [hnote]
    refine h.other (fun c' hc' => ?_) (Nat.le_refl _) fun e he _ => he
    rcases (getElem?_set_iff hj).mp hc' with ⟨rfl, rfl⟩ | ⟨-, hold⟩
    · exact .inr ⟨d, hj, hsame⟩
    · exact .inr ⟨c', hold, rfl⟩
  · by_cases hji : j = i
    · subst hji
      exact h.turn_own hreg hmachine hj hturn
    · exact h.turn_other hreg hj hji hturn
  · have hnote : l.note s.conns[i]? (s.conns.mapIdx fun i c =>
        if i ∈ told then { c with reassigned := true } else c)[i]? = l := by
      rw [List.getElem?_mapIdx]
      cases hi : s.conns[i]? with
      | none => rfl
      | some c =>
        rw [Option.map_some]
        split
        · exact Ledger.note_self l (some c)
        · exact Ledger.note_self l (some c)
    rw [hnote]
    refine h.other (fun c' hc' => .inr ?_) (Nat.le_refl _) fun e he _ => he
    rw [List.getElem?_mapIdx] at hc'
    obtain ⟨c, hc, rfl⟩ := Option.map_eq_some_iff.mp hc'
    refine ⟨c, hc, ?_⟩
    split
    · rfl
    · rfl
  · rw [Ledger.note_self]
    exact h.other (fun c' hc' => .inr ⟨c', hc', rfl⟩) (Nat.le_refl _) fun e he _ => he

end Tallied

/-! ### The registry -/

end WireTap.Gateway.IngestServer
